import RelayerGraph.Graph.Error
import RelayerGraph.Search.Target

/-!
# Readiness of a search target

The part of the index runtime that decides whether a target may be queried or
written: its readiness and, while a publication awaits its canonical
acknowledgement, the identity of that publication.  Both maps of the runtime
are read through a default, so a target which was never mentioned is ready.
-/

namespace RelayerGraph

/-- `SearchTargetReadiness`. -/
inductive SearchTargetReadiness
  | ready
  | canonicalUnknown
  | rebuilding
  | failed
deriving DecidableEq, Repr

/-- The entries of one target in the maps of `LadybugRuntime`. -/
structure TargetRuntime where
  readiness : SearchTargetReadiness
  pendingPublication : Option String
deriving DecidableEq, Repr

namespace TargetRuntime

/-- A target absent from both maps. -/
def absent : TargetRuntime where
  readiness := .ready
  pendingPublication := none

/-- `require_store_available`. -/
def requireStoreAvailable
    (target : SearchTarget) (runtime : TargetRuntime) : GraphResult Unit :=
  match runtime.readiness with
  | .ready | .canonicalUnknown => .ok ()
  | .rebuilding =>
      .error (.internal s!"search target {target.display} is rebuilding")
  | .failed =>
      .error (.internal s!"search target {target.display} rebuild failed")

/-- `query_readiness`; the refusal carries the readiness it saw. -/
def queryReadiness (runtime : TargetRuntime) :
    Except SearchTargetReadiness Unit :=
  if runtime.readiness = .ready then .ok () else .error runtime.readiness

/-- `canonical_commit_unknown`: quarantine the target before the derived
commit of a publication.  A target already quarantined admits only the very
publication it is quarantined for. -/
def canonicalCommitUnknown
    (target : SearchTarget) (publicationIdentity : String)
    (runtime : TargetRuntime) : GraphResult TargetRuntime :=
  if runtime.readiness = .canonicalUnknown then
    if runtime.pendingPublication = some publicationIdentity then
      .ok runtime
    else
      .error (.internal
        s!"search target {target.display} is awaiting canonical reconciliation")
  else if runtime.readiness ≠ .ready then
    .error (.internal
      s!"search target {target.display} is not ready for publication")
  else
    .ok
      { readiness := .canonicalUnknown
        pendingPublication := some publicationIdentity }

/-- `canonical_commit_is_unknown`. -/
def canonicalCommitIsUnknown (runtime : TargetRuntime) : Bool :=
  runtime.readiness = .canonicalUnknown

/-- `canonical_commit_confirmed`. -/
def canonicalCommitConfirmed (runtime : TargetRuntime) : TargetRuntime where
  readiness :=
    if runtime.readiness = .canonicalUnknown then .ready else runtime.readiness
  pendingPublication := none

/-- The effect of `mark_rebuilding` on a target it names. -/
def markRebuilding (_ : TargetRuntime) : TargetRuntime where
  readiness := .rebuilding
  pendingPublication := none

/-- The effect of `finish_rebuild` on every target. -/
def finishRebuild (success : Bool) (runtime : TargetRuntime) : TargetRuntime :=
  { runtime with
    readiness :=
      if runtime.readiness = .rebuilding then
        if success then .ready else .failed
      else
        runtime.readiness }

theorem queryReadiness_eq_ok_iff {runtime : TargetRuntime} :
    runtime.queryReadiness = .ok () ↔ runtime.readiness = .ready := by
  unfold queryReadiness
  split <;> simp [*]

/-- A publication that may go on has its target quarantined. -/
theorem readiness_of_canonicalCommitUnknown
    {target : SearchTarget} {identity : String}
    {runtime quarantined : TargetRuntime}
    (h : runtime.canonicalCommitUnknown target identity = .ok quarantined) :
    quarantined.readiness = .canonicalUnknown := by
  unfold canonicalCommitUnknown at h
  split at h
  · rename_i hunknown
    split at h
    · exact (Except.ok.inj h) ▸ hunknown
    · cases h
  · split at h
    · cases h
    · exact (Except.ok.inj h) ▸ rfl

theorem canonicalCommitConfirmed_readiness_eq_ready_iff
    {runtime : TargetRuntime} :
    runtime.canonicalCommitConfirmed.readiness = .ready ↔
      runtime.readiness = .ready ∨ runtime.readiness = .canonicalUnknown := by
  cases runtime with
  | mk readiness pending => cases readiness <;> simp [canonicalCommitConfirmed]

end TargetRuntime

end RelayerGraph
