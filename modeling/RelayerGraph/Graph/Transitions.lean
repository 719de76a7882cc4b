import RelayerGraph.Graph.Finalizing

/-!
# What a transition does

A transition replays a committed operation key, or commits: it publishes or
ends, then appends one revision, moves the head and appends one event.
-/

namespace RelayerGraph

open Foundation Checked Worklist

namespace GraphDatabase

variable {db db' : GraphDatabase} {scope : InteractionScope} {host : Host}
variable {expectedRevision : ℕ} {operationKey : String}
variable {intent : CurrentTransition} {index : IndexAnswers}

/-! ## Completions -/

theorem completionState_eq_ok_iff {interaction : NodeId} {row : CompletionRow} :
    db.completionState interaction = .ok row ↔
      db.completion? interaction = some row := by
  rw [completionState, orThrow_eq_ok_iff]

theorem completion?_eq_some_iff {interaction : NodeId} {row : CompletionRow} :
    db.completion? interaction = some row ↔
      ∃ node, db.nodes.get? interaction = some node ∧
        node.completion = some row := by
  simp only [completion?, Option.bind_eq_some_iff]

theorem completion?_updateCompletion (interaction other : NodeId)
    (f : CompletionRow → CompletionRow) :
    (db.updateCompletion interaction f).completion? other =
      if other = interaction then (db.completion? other).map f
      else db.completion? other := by
  simp only [completion?, updateCompletion, Table.get?_mapRows]
  by_cases hsame : other = interaction
  · subst hsame
    cases db.nodes.get? other <;> simp
  · cases db.nodes.get? other <;> simp [hsame]

theorem completion?_updateCompletion_self (interaction : NodeId)
    (f : CompletionRow → CompletionRow) :
    (db.updateCompletion interaction f).completion? interaction =
      (db.completion? interaction).map f := by
  rw [completion?_updateCompletion, if_pos rfl]

/-- The layers a completion names are accepted. -/
theorem WellFormed.currentLayer (h : db.WellFormed) (hscope : db.Issued scope)
    {row : CompletionRow} (hrow : db.completion? scope.root = some row)
    {layer : LayerId} (hlayer : row.currentLayer = some layer) :
    db.AcceptedLayer scope.target layer := by
  obtain ⟨node, hnode, hcompletion⟩ := completion?_eq_some_iff.mp hrow
  obtain ⟨root, hroot, -, hsame⟩ := hscope
  obtain rfl : node = root := by simpa [hnode] using hroot
  have hok := ((h.nodes _ node hnode).completion row hcompletion).currentLayer
    layer hlayer
  rwa [show node.target = scope.target by rw [hsame]] at hok

/-! ## Recording -/

/-- What is recorded of a transition: the revision, the head, and the event. -/
structure Recorded (published : Published) (scope : InteractionScope)
    (host : Host) (expectedRevision : ℕ) (operationKey : String)
    (intent : CurrentTransition) (recorded : GraphDatabase) : Prop where
  bounded : expectedRevision + 1 < 2 ^ 63
  stored : ∃ row, published.db.completion? scope.root = some row ∧
    row.lifecycle = .active ∧ row.headRevision = expectedRevision ∧
    ∀ old ∈ row.revisions, old.revision ≠ expectedRevision + 1 ∧
      old.operationKey ≠ some operationKey
  result : recorded =
    { (published.db.updateCompletion scope.root
          (published.revisionRow host expectedRevision operationKey
            intent).appendTo).updateCompletion scope.root
        (published.headMove scope.root expectedRevision intent).apply with
      outbox := published.db.outbox ++
        [⟨scope.root, expectedRevision + 1, intent.eventKind⟩] }

theorem record_ok {published : Published} {sequence : ℕ}
    {recorded : GraphDatabase}
    (hrun : published.record scope host expectedRevision operationKey intent =
      .ok (sequence, recorded)) :
    sequence = published.db.outbox.length + 1 ∧
      Recorded published scope host expectedRevision operationKey intent
        recorded := by
  simp only [Published.record, bind_eq_ok_iff, require_eq_ok_iff,
    orThrow_eq_ok_iff, pure_eq_ok_iff, appendRevision,
    completionState_eq_ok_iff, moveHead, appendProjection, Prod.mk.injEq] at hrun
  obtain ⟨-, hbounded, appended, ⟨row, hrow, -, hfresh, rfl⟩, moved, hmoved,
    hsequence, hresult⟩ := hrun
  split at hmoved
  · rename_i hactive
    obtain rfl := Option.some.inj hmoved
    refine ⟨hsequence.symm, hbounded, ⟨row, hrow, ?_⟩, hresult.symm⟩
    have hstored := @completion?_updateCompletion_self published.db
      scope.root
      (published.revisionRow host expectedRevision operationKey intent).appendTo
    rw [hrow] at hstored
    simp only [Published.headMove, hstored, Option.map_some, Option.any_some,
      RevisionRow.appendTo] at hactive
    obtain ⟨hlifecycle, hhead⟩ := of_decide_eq_true hactive
    refine ⟨hlifecycle, hhead, fun old hold => ⟨fun hsame => ?_, fun hsame => ?_⟩⟩
    · exact hfresh (List.any_eq_true.mpr ⟨old, hold, by
        simp [hsame, Published.revisionRow]⟩)
    · exact hfresh (List.any_eq_true.mpr ⟨old, hold, by
        simp [hsame, Published.revisionRow]⟩)
  · cases hmoved

/-- The rows of the recorded completion. -/
theorem Recorded.completion? {published : Published} {recorded : GraphDatabase}
    (h : Recorded published scope host expectedRevision operationKey intent
      recorded) (interaction : NodeId) :
    recorded.completion? interaction =
      if interaction = scope.root then
        (published.db.completion? interaction).map fun row =>
          (published.headMove scope.root expectedRevision intent).apply
            ((published.revisionRow host expectedRevision operationKey
              intent).appendTo row)
      else
        published.db.completion? interaction := by
  rw [h.result]
  change ((published.db.updateCompletion _ _).updateCompletion _ _).completion?
    interaction = _
  rw [completion?_updateCompletion, completion?_updateCompletion]
  split
  · rw [Option.map_map]
    rfl
  · rfl

theorem Recorded.sameGraph {published : Published} {recorded : GraphDatabase}
    (h : Recorded published scope host expectedRevision operationKey intent
      recorded) : published.db.SameGraph recorded := by
  rw [h.result]
  exact ⟨rfl, rfl, rfl⟩

theorem Recorded.sound {published : Published} {recorded : GraphDatabase}
    (h : Recorded published scope host expectedRevision operationKey intent
      recorded) (hwell : published.db.WellFormed)
    (hscope : published.db.Issued scope)
    (hcurrent : ∀ layer, published.currentLayer = some layer →
      published.db.AcceptedLayer scope.target layer) :
    published.db.Sound recorded := by
  have happended := @WellFormed.updateCompletion_of_currentLayer _
    hwell scope.root ((published.revisionRow host expectedRevision operationKey
      intent).appendTo) fun _ => rfl
  have hmoved := @WellFormed.updateCompletion _ happended.wellFormed
    scope.root ((published.headMove scope.root expectedRevision intent).apply) <| by
      intro row completion hrow _
      obtain ⟨root, hroot, -, hsame⟩ := happended.retains.issued hscope
      obtain rfl : row = root := by simpa [hrow] using hroot
      refine ⟨fun layer hlayer => ?_⟩
      rw [hsame]
      exact happended.retains.acceptedLayer (hcurrent layer hlayer)
  rw [h.result]
  exact (happended.trans hmoved).trans
    (hmoved.wellFormed.congr rfl rfl ⟨rfl, rfl, rfl⟩)

/-! ## Committing -/

/-- A transition whose operation key is new. -/
structure Committed (db : GraphDatabase) (scope : InteractionScope) (host : Host)
    (expectedRevision : ℕ) (operationKey : String) (intent : CurrentTransition)
    (persisted : CompletionRow) (published : Published)
    (recorded : GraphDatabase) : Prop where
  fresh : db.receipt scope.root operationKey = none
  stored : db.completion? scope.root = some persisted
  active : persisted.lifecycle = .active
  head : persisted.headRevision = expectedRevision
  body : db.transitionBody scope host persisted (expectedRevision + 1) intent =
    .ok published
  record : Recorded published scope host expectedRevision operationKey intent
    recorded

theorem transition_ok {result : Transitioned}
    (hrun : db.transition scope host expectedRevision operationKey intent index =
      .ok result) :
    (∃ receipt, db.receipt scope.root operationKey = some receipt ∧
      receipt.requestDigest = requestDigest host expectedRevision intent ∧
      result = { receipt, db, publications := [] }) ∨
    ∃ persisted published recorded,
      Committed db scope host expectedRevision operationKey intent persisted
        published recorded ∧
      (result.db = recorded ∨ ∃ target revision,
        result.db = recorded.recordRevision target revision) ∧
      result.receipt = {
        completionId := scope.root
        revision := expectedRevision + 1
        lifecycle := intent.lifecycle
        currentLayerId := published.currentLayer
        finalLayerId := published.finalLayer
        operationKey
        requestDigest := requestDigest host expectedRevision intent
        snapshotDigest := published.snapshotDigest
        projectionSequence := published.db.outbox.length + 1 } := by
  simp only [transition, bind_eq_ok_iff] at hrun
  obtain ⟨-, -, -, -, -, -, -, -, -, -, hrun⟩ := hrun
  split at hrun
  · rename_i receipt hreceipt
    split at hrun
    · rename_i hdigest
      simp only [bind_eq_ok_iff, pure_eq_ok_iff] at hrun
      obtain ⟨-, -, rfl⟩ := hrun
      exact .inl ⟨receipt, hreceipt, hdigest, rfl⟩
    · cases hrun
  · rename_i hfresh
    simp only [commitTransition, bind_eq_ok_iff, completionState_eq_ok_iff,
      require_eq_ok_iff] at hrun
    obtain ⟨persisted, hstored, -, hactive, -, hhead, published, hbody,
      ⟨sequence, recorded⟩, hrecord, hrun⟩ := hrun
    obtain ⟨rfl, hrecorded⟩ := record_ok hrecord
    refine .inr ⟨persisted, published, recorded,
      ⟨hfresh, hstored, hactive, hhead, hbody, hrecorded⟩, ?_⟩
    split at hrun
    · obtain rfl := pure_eq_ok_iff.mp hrun
      exact ⟨.inl rfl, rfl⟩
    · simp only [bind_eq_ok_iff, pure_eq_ok_iff] at hrun
      obtain ⟨_, -, revision, -, -, -, rfl⟩ := hrun
      exact ⟨.inr ⟨scope.target, revision, rfl⟩, rfl⟩

/-! ## The bodies of transitions -/

/-- What Advance publishes. -/
structure Advanced (db : GraphDatabase) (scope : InteractionScope)
    (persisted : CompletionRow) (revision : ℕ) (layer : LayerId)
    (plan : CompletionPlan) (published : Published) : Prop where
  planned : AdvancePlan db scope plan
  rootLayer : plan.rootLayer = layer
  accessible : db.requireAccessibility scope persisted.currentLayer layer = .ok ()
  publishes : db.publish scope plan revision = .ok published.db
  currentLayer : published.currentLayer = some layer
  finalLayer : published.finalLayer = none

theorem advance_ok {persisted : CompletionRow} {revision : ℕ} {layer : LayerId}
    {published : Published}
    (hrun : db.advance scope host persisted revision layer = .ok published) :
    ∃ plan, Advanced db scope persisted revision layer plan published := by
  simp only [advance, bind_eq_ok_iff, require_eq_ok_iff, pure_eq_ok_iff] at hrun
  obtain ⟨-, -, plan, hplan, ⟨⟩, haccessible, graph, hpublish, -, -, rfl⟩ := hrun
  obtain ⟨hroot, hadvance⟩ := buildCurrentPlan_ok hplan
  exact ⟨plan, hadvance, hroot, haccessible, hpublish, rfl, rfl⟩

/-- What Return publishes. -/
structure Returned (db : GraphDatabase) (scope : InteractionScope) (host : Host)
    (persisted : CompletionRow) (revision : ℕ) (layer : LayerId)
    (plan : CompletionPlan) (rootId : ActionId) (rootRow : ActionRow)
    (graph : GraphDatabase) (published : Published) : Prop where
  planned : ReturnPlan db scope plan rootId rootRow
  lease : LeasePlanned db scope plan
  held : LeaseHeld db scope plan
  valid : db.validateAttached scope host = .ok ()
  rootLayer : plan.rootLayer = layer
  accessible : db.requireAccessibility scope persisted.currentLayer layer = .ok ()
  publishes : db.publish scope plan revision = .ok graph
  finalizes : graph.finalize scope host plan = .ok published.db
  currentLayer : published.currentLayer = some layer
  finalLayer : published.finalLayer = some layer

theorem returnCurrent_ok {persisted : CompletionRow} {revision : ℕ}
    {layer : LayerId} {published : Published}
    (hrun : db.returnCurrent scope host persisted revision layer =
      .ok published) :
    ∃ plan rootId rootRow graph,
      Returned db scope host persisted revision layer plan rootId rootRow graph
        published := by
  simp only [returnCurrent, bind_eq_ok_iff, pure_eq_ok_iff] at hrun
  obtain ⟨plan, hplan, ⟨⟩, haccessible, graph, hpublish, finalized, hfinalize, -, -,
    -, -, -, -, rfl⟩ := hrun
  obtain ⟨hroot, ⟨rootId, rootRow, hreturn⟩, hlease, hheld, hvalid⟩ :=
    buildReturnPlan_ok hplan
  exact ⟨plan, rootId, rootRow, graph, hreturn, hlease, hheld, hvalid, hroot,
    haccessible, hpublish, hfinalize, rfl, rfl⟩

end GraphDatabase

end RelayerGraph
