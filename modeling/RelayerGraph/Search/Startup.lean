import RelayerGraph.Search.Inventory
import RelayerGraph.Search.Readiness

/-!
# Startup repair of a damaged store

When the store opened at startup differs from the canonical inventory, the
targets found damaged are marked as rebuilding and the store keeps serving the
others until a rebuilt generation is installed.  Damage is found per
visibility target.  Readiness is looked up per ordering target, and a thread
inside a project is ordered under its project, so the mark on such a thread is
never read.
-/

namespace RelayerGraph

/-! ## Read permits -/

/-- The refusals of `QueryReadPermit::authorize`. -/
inductive QueryCode
  | foreignDraft
  | scopeNotGranted
  | inaccessibleOrMissing
deriving DecidableEq, Repr

structure QueryError where
  code : QueryCode
  path : String
  message : String
deriving DecidableEq, Repr

inductive TargetScope
  | project
  | thread
deriving DecidableEq, Repr

structure RequestTarget where
  scope : TargetScope
  id : ℤ
deriving DecidableEq, Repr

/-- The immutable read entitlement consumed by graph search. -/
structure QueryReadPermit where
  currentThread : ThreadId
  project : Option ProjectId
  readableThreads : List ThreadId
  foreignDraftAttempt : Bool
deriving DecidableEq

namespace QueryReadPermit

def authorize (permit : QueryReadPermit) (requested : RequestTarget) :
    Except QueryError SearchTarget :=
  let missing := QueryError.mk .inaccessibleOrMissing "target"
    "the requested target is missing or inaccessible"
  if permit.foreignDraftAttempt then
    .error ⟨.foreignDraft, "readPermit",
      "foreign drafts are never eligible for graph search"⟩
  else if permit.project.isNone ∧ requested.scope = .project then
    .error ⟨.scopeNotGranted, "target.scope",
      "the current interaction grants thread search only"⟩
  else
    match requested.scope, RowId.new? requested.id with
    | .thread, some id =>
        if ⟨id⟩ ∈ permit.readableThreads then
          .ok (.thread ⟨id⟩)
        else
          .error missing
    | .project, some id =>
        if permit.project = some ⟨id⟩ then
          .ok (.project ⟨id⟩)
        else
          .error missing
    | _, none => .error missing

/-- The ordering target whose readiness decides: a thread's project, when the
permit has one. -/
def readinessTarget (permit : QueryReadPermit) (authorized : SearchTarget) :
    SearchTarget :=
  match permit.project, authorized with
  | some project, .thread _ => .project project
  | _, _ => authorized

end QueryReadPermit

/-! ## Opening a store that does not match -/

section Startup

variable (store : SearchStore) (snapshot : SearchIndexRebuildSnapshot)

/-- `revisions_match`. -/
def revisionsMatch : Bool :=
  store.revisions.length = snapshot.targets.length &&
    snapshot.targets.all (fun (target, revision) =>
      store.readRevision target = some revision) &&
    (physicalInventory store).encode = (canonicalInventory snapshot).encode

/-- The targets `damaged_targets` examines. -/
def examinedTargets : List SearchTarget :=
  snapshot.closures.flatMap SearchIndexRebuildClosure.publishedTo ++
    snapshot.targets.map Prod.fst ++
    (store.revisions.map Prod.fst).filterMap parseTarget ++
    (physicalInventory store).targetNames.filterMap parseTarget

/-- The revision the snapshot records for a target. -/
def expectedRevision (target : SearchTarget) : Option ℤ :=
  (snapshot.targets.find? fun entry => entry.1 = target).map Prod.snd

/-- The check `damaged_targets` makes of one target. -/
def isDamaged (target : SearchTarget) : Bool :=
  store.readRevision target ≠ expectedRevision snapshot target ||
    (canonicalInventory snapshot).projection target ≠
      (physicalInventory store).projection target

/-- `damaged_targets`. -/
def damagedTargets : List SearchTarget :=
  (examinedTargets store snapshot).filter (isDamaged store snapshot)

/-- The readiness of each target once `open_reconciled` has returned. -/
def openReconciled (target : SearchTarget) : TargetRuntime :=
  if revisionsMatch store snapshot then
    .absent
  else if target ∈ damagedTargets store snapshot then
    TargetRuntime.absent.markRebuilding
  else
    .absent

/-- The target a query runs against, when it is admitted. -/
def admitQuery (permit : QueryReadPermit) (requested : RequestTarget) :
    Option SearchTarget :=
  match permit.authorize requested with
  | .error _ => none
  | .ok target =>
      match (openReconciled store snapshot
          (permit.readinessTarget target)).queryReadiness with
      | .error _ => none
      | .ok () => some target

/-- An admitted query sees the canonical projection of its target. -/
def ServesCanonicalProjection
    (permit : QueryReadPermit) (requested : RequestTarget) : Prop :=
  ∀ target, admitQuery store snapshot permit requested = some target →
    (physicalInventory store).projection target =
      (canonicalInventory snapshot).projection target

variable {store snapshot}

/-- Damage is always examined: a target nobody names holds nothing on either
side and no revision. -/
theorem mem_examinedTargets_of_isDamaged {target : SearchTarget}
    (hdamaged : isDamaged store snapshot target) :
    target ∈ examinedTargets store snapshot := by
  by_contra hunexamined
  simp only [examinedTargets, List.mem_append, not_or, List.mem_filterMap,
    not_exists, not_and] at hunexamined
  obtain ⟨⟨⟨hclosures, htargets⟩, hrevisions⟩, hnames⟩ := hunexamined
  have hrevision : store.readRevision target = none := by
    rw [SearchStore.readRevision, List.find?_eq_none.mpr]
    · rfl
    · intro row hrow hdisplay
      refine hrevisions row.1 (List.mem_map_of_mem hrow) ?_
      rw [of_decide_eq_true hdisplay, parseTarget_display]
  have hexpected : expectedRevision snapshot target = none := by
    rw [expectedRevision, List.find?_eq_none.mpr]
    · rfl
    · intro entry hentry heq
      exact htargets (List.mem_map.mpr
        ⟨entry, hentry, of_decide_eq_true heq⟩)
  have hphysical : (physicalInventory store).projection target = 0 := by
    refine SearchInventory.projection_eq_zero fun hname => ?_
    exact hnames _ hname (parseTarget_display target)
  have hcanonical : (canonicalInventory snapshot).projection target = 0 := by
    refine SearchInventory.projection_eq_zero fun hname => ?_
    obtain ⟨item, hitem, other, hother, hdisplay⟩ :=
      exists_closure_of_mem_targetNames hname
    rw [SearchTarget.display_injective hdisplay] at hother
    exact hclosures (List.mem_flatMap.mpr ⟨item, hitem, hother⟩)
  simp [isDamaged, hrevision, hexpected, hphysical, hcanonical] at hdamaged

theorem projection_eq_of_revisionsMatch
    (hmatch : revisionsMatch store snapshot) (target : SearchTarget) :
    (physicalInventory store).projection target =
      (canonicalInventory snapshot).projection target := by
  simp only [revisionsMatch, Bool.and_eq_true, decide_eq_true_eq] at hmatch
  exact SearchInventory.projection_eq_of_encode hmatch.2 target

theorem projection_eq_of_not_isDamaged {target : SearchTarget}
    (hintact : isDamaged store snapshot target = false) :
    (physicalInventory store).projection target =
      (canonicalInventory snapshot).projection target := by
  simp only [isDamaged, Bool.or_eq_false_iff, ne_eq, decide_not,
    Bool.not_eq_eq_eq_not, Bool.not_false, decide_eq_true_eq] at hintact
  exact hintact.2.symm

/-- Which targets answer queries after startup. -/
theorem queryReadiness_openReconciled {target : SearchTarget} :
    (openReconciled store snapshot target).queryReadiness = .ok () ↔
      revisionsMatch store snapshot ∨ isDamaged store snapshot target = false := by
  rw [TargetRuntime.queryReadiness_eq_ok_iff, openReconciled]
  by_cases hmatch : revisionsMatch store snapshot
  · simp [hmatch, TargetRuntime.absent]
  · by_cases hdamaged : isDamaged store snapshot target
    · have hmem : target ∈ damagedTargets store snapshot :=
        List.mem_filter.mpr
          ⟨mem_examinedTargets_of_isDamaged hdamaged, hdamaged⟩
      simp [hmatch, hmem, hdamaged, TargetRuntime.markRebuilding]
    · have hnotmem : target ∉ damagedTargets store snapshot := fun hmem =>
        hdamaged (List.mem_filter.mp hmem).2
      simp [hmatch, hnotmem, hdamaged, TargetRuntime.absent]

theorem admitQuery_eq_some_iff {permit : QueryReadPermit}
    {requested : RequestTarget} {target : SearchTarget} :
    admitQuery store snapshot permit requested = some target ↔
      permit.authorize requested = .ok target ∧
        (revisionsMatch store snapshot ∨
          isDamaged store snapshot (permit.readinessTarget target) = false) := by
  rw [← queryReadiness_openReconciled, admitQuery]
  cases permit.authorize requested with
  | error err => simp
  | ok authorized =>
      simp only [Except.ok.injEq]
      constructor
      · intro hadmitted
        split at hadmitted
        · cases hadmitted
        · rename_i hready
          obtain rfl : authorized = target := Option.some.inj hadmitted
          exact ⟨rfl, hready⟩
      · rintro ⟨rfl, hready⟩
        rw [hready]

/-- A target whose own readiness decides is served intact. -/
theorem projection_eq_of_own_readiness {permit : QueryReadPermit}
    {requested : RequestTarget} {target : SearchTarget}
    (hadmitted : admitQuery store snapshot permit requested = some target)
    (hown : permit.readinessTarget target = target) :
    (physicalInventory store).projection target =
      (canonicalInventory snapshot).projection target := by
  obtain ⟨-, hmatch | hintact⟩ := admitQuery_eq_some_iff.mp hadmitted
  · exact projection_eq_of_revisionsMatch hmatch target
  · rw [hown] at hintact
    exact projection_eq_of_not_isDamaged hintact

variable (store snapshot)

/-- A permit for a thread inside a project sees the thread's damage only when
the project itself is found damaged. -/
def ThreadDamageReachesProject
    (permit : QueryReadPermit) (requested : RequestTarget) : Prop :=
  ∀ project thread, permit.project = some project →
    permit.authorize requested = .ok (.thread thread) →
      isDamaged store snapshot (.project project) ∨
        (physicalInventory store).projection (.thread thread) =
          (canonicalInventory snapshot).projection (.thread thread)

end Startup

/-! ## A thread damaged alone -/

/-- A closure of one interaction in thread 41 of project 7, whose answer is a
layer of one node. -/
def answeredInteraction : AcceptedGraphPublication :=
  let interaction : GraphNode :=
    { id := ⟨1⟩
      clientKey := none
      leasedActionId := none
      kind := "user-interaction"
      icon := "user"
      title := "Question"
      detail := "Why?"
      authoredDetail := none
      artifact := none
      state := .accepted }
  let answer : GraphNode :=
    { interaction with
      id := ⟨2⟩
      clientKey := some "answer"
      kind := "concept"
      icon := "box"
      title := "Answer" }
  { nodeId := ⟨1⟩
    interaction
    rootAction := none
    rootLayerId := ⟨1⟩
    layers :=
      [{ layer :=
          { defaultNodeId := none
            id := ⟨1⟩
            clientKey := some "layer"
            nodes := [⟨2⟩]
            edges := []
            layout := some
              { version := 1
                placements := [⟨⟨2⟩, 0, 0⟩]
                edgeShape := some "default"
                edgeRoutes := [] }
            renderer := none
            state := .accepted }
         nodes := [answer]
         edges := []
         actions := [] }] }

def project7 : ProjectId := ⟨⟨7, by decide, by decide⟩⟩

def thread41 : ThreadId := ⟨⟨41, by decide, by decide⟩⟩

def answeredSnapshot : SearchIndexRebuildSnapshot where
  targets := [(.project project7, 1)]
  closures :=
    [{ target := .project project7
       publishedTo := publicationTargets (some project7) thread41
       closure := answeredInteraction }]

/-- The canonical store, except that the answer is no longer published to its
thread. -/
def threadlessStore : SearchStore :=
  let store := (SearchStore.empty.applyClosure
    (publicationTargets (some project7) thread41) answeredInteraction)
    |>.writeRevision (.project project7) 1
  { store with
    vertices := store.vertices.map fun row =>
      if row.key.id = "content:2" then
        { row with publishedTargets := ["project:7"] }
      else
        row }

/-- A permit for the project and its thread. -/
def projectPermit : QueryReadPermit where
  currentThread := thread41
  project := some project7
  readableThreads := [thread41]
  foreignDraftAttempt := false

theorem threadlessStore_admits :
    admitQuery threadlessStore answeredSnapshot projectPermit ⟨.thread, 41⟩ =
      some (.thread thread41) := by
  decide

end RelayerGraph
