import RelayerGraph.Foundation.TransitionSystem
import RelayerGraph.Search.Readiness

/-!
# The publication protocol of one search target

A publication commits to the derived store before it commits to canonical
SQLite, because the derived engine has no prepare step.  Between the two
commits the target is quarantined.  This file models one target together with
everything that can set or clear its quarantine:

* the holder of the target's order lock, which is either a publication or the
  replay of a committed transition receipt;
* any number of replays of `complete`, which hold no lock and read canonical
  SQLite through a snapshot.

Each await of the source is a step of its own.  A client whose future is
dropped between two awaits simply takes no further step, except that the
holder then releases its lock by `abandon`.
-/

namespace RelayerGraph

open Foundation

/-- `SearchIndexRevision::FIRST` and `SearchIndexRevision::next`. -/
def firstRevision : ℕ := 1

/-- The revision of the next publication: one past both stores. -/
def nextRevision (recorded stored : Option ℕ) : ℕ :=
  match max recorded stored with
  | none => firstRevision
  | some revision => revision + 1

/-- Progress of a replay through `canonical_publication_matches`. -/
inductive Replay
  | started
  | snapshot (canonical : Option ℕ)
  | unknown (canonical : Option ℕ)
  | matched (stored : Option ℕ)
  | ended (stored : Option ℕ)
  | answered
  | refused (error : GraphError)
deriving DecidableEq, Repr

/-- The steps of a replay before its confirmation. -/
inductive ReplayMove
  | snapshot
  | check
  | compare
  | commit
deriving DecidableEq, Repr

/-- How a commit ends for its caller.  An unacknowledged commit is durable,
but its caller is told otherwise. -/
inductive CommitOutcome
  | committed
  | failed
  | unacknowledged
deriving DecidableEq, Repr

/-- The holder of the target's order lock. -/
inductive Holder
  | idle
  | publishing (identity : String)
  | recordedRead (identity : String) (recorded : Option ℕ)
  | begun (identity : String) (revision : ℕ)
  | quarantined (revision : ℕ)
  | indexed (revision : ℕ)
  | committed
  | replaying (replay : Replay)
deriving DecidableEq, Repr

/-- One search target, its two stores and its clients. -/
structure PublicationState where
  runtime : TargetRuntime
  ladybug : Option ℕ
  sqlite : Option ℕ
  holder : Holder
  replays : List Replay
deriving DecidableEq, Repr

namespace PublicationState

/-- One step of `canonical_publication_matches` and of the commit that ends
the caller's transaction. -/
def replayMove (s : PublicationState) : Replay → ReplayMove → Option Replay
  | .started, .snapshot => some (.snapshot s.sqlite)
  | .snapshot canonical, .check =>
      if s.runtime.canonicalCommitIsUnknown then
        some (.unknown canonical)
      else
        some .answered
  | .unknown canonical, .compare =>
      if canonical ≠ s.ladybug then
        some (.refused
          (.internal "search publication is awaiting canonical reconciliation"))
      else
        some (.matched s.ladybug)
  | .matched stored, .commit => some (.ended stored)
  | _, _ => none

/-- Readiness is ready only while both stores hold the same revision, so an
admitted query reads nothing that canonical SQLite has not committed. -/
def ServesAcknowledged (s : PublicationState) : Prop :=
  s.runtime.queryReadiness = .ok () → s.ladybug = s.sqlite

instance (s : PublicationState) : Decidable s.ServesAcknowledged :=
  decidable_of_iff (s.runtime.readiness = .ready → s.ladybug = s.sqlite)
    (by rw [ServesAcknowledged, TargetRuntime.queryReadiness_eq_ok_iff])

end PublicationState

/-- The steps of the clients of one target. -/
inductive PublicationAction
  | enter (identity : String)
  | readRecorded
  | begin
  | quarantine (target : SearchTarget)
  | commitLadybug (outcome : CommitOutcome)
  | commitSqlite (outcome : CommitOutcome)
  | confirm
  | abandon
  | enterReplay
  | holderReplay (move : ReplayMove)
  | confirmHolderReplay
  | startReplay
  | replay (client : ℕ) (move : ReplayMove)
  | confirmReplay (client : ℕ)
deriving DecidableEq

namespace PublicationState

/-- One client takes one step. -/
def step (s : PublicationState) : PublicationAction → Option PublicationState
  | .enter identity =>
      if s.holder = .idle then
        some { s with holder := .publishing identity }
      else
        none
  | .readRecorded =>
      match s.holder with
      | .publishing identity =>
          some { s with holder := .recordedRead identity s.sqlite }
      | _ => none
  | .begin =>
      match s.holder with
      | .recordedRead identity recorded =>
          some { s with
            holder := .begun identity (nextRevision recorded s.ladybug) }
      | _ => none
  | .quarantine target =>
      match s.holder with
      | .begun identity revision =>
          match s.runtime.canonicalCommitUnknown target identity with
          | .ok runtime =>
              some { s with runtime, holder := .quarantined revision }
          | .error _ => some { s with holder := .idle }
      | _ => none
  | .commitLadybug outcome =>
      match s.holder, outcome with
      | .quarantined revision, .committed =>
          some { s with
            ladybug := some revision
            holder := .indexed revision }
      | .quarantined revision, .unacknowledged =>
          some { s with
            ladybug := some revision
            holder := .idle }
      | .quarantined _, .failed => some { s with holder := .idle }
      | _, _ => none
  | .commitSqlite outcome =>
      match s.holder, outcome with
      | .indexed revision, .committed =>
          some { s with
            sqlite := some revision
            holder := .committed }
      | .indexed revision, .unacknowledged =>
          some { s with
            sqlite := some revision
            holder := .idle }
      | .indexed _, .failed => some { s with holder := .idle }
      | _, _ => none
  | .confirm =>
      if s.holder = .committed then
        some { s with
          runtime := s.runtime.canonicalCommitConfirmed
          holder := .idle }
      else
        none
  | .abandon =>
      if s.holder ≠ .committed then some { s with holder := .idle } else none
  | .enterReplay =>
      if s.holder = .idle then
        some { s with holder := .replaying .started }
      else
        none
  | .holderReplay move =>
      match s.holder with
      | .replaying replay =>
          (s.replayMove replay move).map fun next =>
            { s with holder := .replaying next }
      | _ => none
  | .confirmHolderReplay =>
      match s.holder with
      | .replaying (.ended _) =>
          some { s with
            runtime := s.runtime.canonicalCommitConfirmed
            holder := .idle }
      | _ => none
  | .startReplay => some { s with replays := s.replays ++ [.started] }
  | .replay client move => do
      let replay ← s.replays[client]?
      let next ← s.replayMove replay move
      some { s with replays := s.replays.set client next }
  | .confirmReplay client => do
      let replay ← s.replays[client]?
      match replay with
      | .ended _ =>
          some { s with
            runtime := s.runtime.canonicalCommitConfirmed
            replays := s.replays.set client .answered }
      | _ => none

end PublicationState

/-- All runs of one target from a reconciled start. -/
def publicationProtocol : TransitionSystem PublicationState PublicationAction where
  init s :=
    s.runtime = .absent ∧ s.ladybug = s.sqlite ∧ s.holder = .idle ∧
      s.replays = []
  step s action t := s.step action = some t

end RelayerGraph
