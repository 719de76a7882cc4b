import RelayerGraph.Graph.Immutable

/-!
# The history of a completion

What one operation does to the rows of each completion.  Only a committed
transition of its own interaction appends to the history of a completion, and
only the interaction itself stages presentations or drops them.
-/

namespace RelayerGraph

open Foundation Checked

/-! ## Rows of completions -/

/-- The head of a completion with its revisions. -/
def CompletionRow.history (row : CompletionRow) :
    CompletionLifecycle × ℕ × Option LayerId × Option LayerId × Option String ×
      List RevisionRow :=
  (row.lifecycle, row.headRevision, row.currentLayer, row.finalLayer,
    row.safeReason, row.revisions)

/-- The layers a transition leaves as current and final. -/
def CurrentTransition.Leaves (intent : CurrentTransition)
    (row : CompletionRow) (current final : Option LayerId) : Prop :=
  match intent with
  | .advance layer => current = some layer ∧ final = none
  | .return layer => current = some layer ∧ final = some layer
  | .stop _ => current = row.currentLayer ∧ final = none
  | .fail _ => current = row.currentLayer ∧ final = none

/-- The presentations a transition leaves pending. -/
def CurrentTransition.pending (intent : CurrentTransition)
    (row : CompletionRow) : List PendingPresentation :=
  match intent with
  | .advance _ => row.pendingPresentations
  | _ => []

namespace GraphDatabase

variable {db db' : GraphDatabase} {scope : InteractionScope} {host : Host}
variable {plan : CompletionPlan} {revision : ℕ}

/-! ## Completions through a transition -/

theorem completion?_of_nodes (hnodes : db'.nodes = db.nodes)
    (interaction : NodeId) :
    db'.completion? interaction = db.completion? interaction := by
  rw [completion?, completion?, hnodes]

theorem completion?_publishPresentations (presentations : List PendingPresentation)
    (interaction : NodeId) :
    (presentations.foldl publishPresentation db).completion? interaction =
      db.completion? interaction := by
  induction presentations generalizing db with
  | nil => rfl
  | cons presentation rest ih =>
      have hfirst : (db.publishPresentation presentation).completion? interaction =
          db.completion? interaction := by
        simp only [completion?, publishPresentation, Table.get?_mapRows]
        cases db.nodes.get? interaction with
        | none => rfl
        | some row =>
            simp only [Option.map_some, Option.bind_some]
            split <;> rfl
      exact ih.trans hfirst

/-- No presentation is pending. -/
def clearedRow (row : CompletionRow) : CompletionRow :=
  { row with pendingPresentations := [] }

theorem completion?_publishAttached (hrun : db.publishAttached scope = .ok db')
    (interaction : NodeId) :
    db'.completion? interaction =
      if interaction = scope.root then
        (db.completion? interaction).map clearedRow
      else
        db.completion? interaction := by
  simp only [publishAttached, bind_eq_ok_iff, require_eq_ok_iff, pure_eq_ok_iff]
    at hrun
  obtain ⟨-, -, rfl⟩ := hrun
  have hgrow := @grows_showAdditions db (db.acceptedAdditions scope.root)
  have hsame := (@completion?_publishPresentations
    ((db.acceptedAdditions scope.root).foldl showAddition db)
    (db.pendingPresentations scope.root) interaction).trans
    (completion?_of_nodes hgrow.nodes interaction)
  rw [discardPending, completion?_updateCompletion, hsame]
  rfl

theorem LeaseResolved.nodes (h : LeaseResolved db scope plan db') :
    db'.nodes = db.nodes := by
  cases h with
  | unleased hsame => rw [hsame]
  | untyped lease _ _ hupdated => rw [hupdated]; rfl
  | typed lease _ hrun => exact (resolveTyped_ok hrun).2.2.nodes

theorem LeaseResolved.outbox (h : LeaseResolved db scope plan db') :
    db'.outbox = db.outbox := by
  cases h with
  | unleased hsame => rw [hsame]
  | untyped lease _ _ hupdated => rw [hupdated]; rfl
  | typed lease _ hrun =>
      obtain ⟨-, -, hgrow⟩ := resolveTyped_ok hrun
      rw [hgrow.rest]
      rfl

theorem outbox_publish (hrun : db.publish scope plan revision = .ok db') :
    db'.outbox = db.outbox := by
  rw [(publish_ok hrun).1.rest]
  rfl

theorem outbox_publishPresentations (presentations : List PendingPresentation) :
    (presentations.foldl publishPresentation db).outbox = db.outbox := by
  induction presentations generalizing db with
  | nil => rfl
  | cons presentation rest ih => exact ih.trans rfl

theorem outbox_publishAttached (hrun : db.publishAttached scope = .ok db') :
    db'.outbox = db.outbox := by
  simp only [publishAttached, bind_eq_ok_iff, require_eq_ok_iff, pure_eq_ok_iff]
    at hrun
  obtain ⟨-, -, rfl⟩ := hrun
  have hgrow := @grows_showAdditions db (db.acceptedAdditions scope.root)
  change (List.foldl publishPresentation _ _).outbox = _
  rw [outbox_publishPresentations, hgrow.rest]

/-- The body of a transition changes only the completion it ends, and nothing
of its history. -/
theorem transitionBody_completion? {persisted : CompletionRow}
    {intent : CurrentTransition} {published : Published}
    (hstored : db.completion? scope.root = some persisted)
    (hrun : db.transitionBody scope host persisted revision intent =
      .ok published) :
    intent.Leaves persisted published.currentLayer published.finalLayer ∧
      published.db.outbox = db.outbox ∧
      (∃ row, published.db.completion? scope.root = some row ∧
        row.history = persisted.history ∧
        row.pendingPresentations = intent.pending persisted) ∧
      ∀ other, other ≠ scope.root →
        published.db.completion? other = db.completion? other := by
  have hended : published = db.endWithoutPublication scope host persisted →
      (published.currentLayer = persisted.currentLayer ∧
        published.finalLayer = none) ∧
      published.db.outbox = db.outbox ∧
      (∃ row, published.db.completion? scope.root = some row ∧
        row.history = persisted.history ∧ row.pendingPresentations = []) ∧
      ∀ other, other ≠ scope.root →
        published.db.completion? other = db.completion? other := by
    rintro rfl
    refine ⟨⟨rfl, rfl⟩, rfl, ⟨clearedRow persisted, ?_, rfl, rfl⟩, ?_⟩
    · exact (completion?_updateCompletion_self scope.root clearedRow).trans
        (by rw [hstored]; rfl)
    · intro other hother
      exact (completion?_updateCompletion scope.root other clearedRow).trans
        (if_neg hother)
  cases intent with
  | advance layer =>
      obtain ⟨plan, hadvanced⟩ := advance_ok hrun
      have hsame := completion?_publish hadvanced.publishes
      refine ⟨⟨hadvanced.currentLayer, hadvanced.finalLayer⟩,
        outbox_publish hadvanced.publishes,
        ⟨persisted, (hsame scope.root).trans hstored, rfl, rfl⟩,
        fun other _ => hsame other⟩
  | «return» layer =>
      obtain ⟨plan, rootId, rootRow, graph, hreturned⟩ := returnCurrent_ok hrun
      obtain ⟨attached, resolved, root, hattached, hresolved, -, -, hfinal⟩ :=
        finalize_stages hreturned.finalizes
      have hpublished := completion?_publish hreturned.publishes
      have hshown := completion?_publishAttached hattached
      have hleased := completion?_of_nodes hresolved.nodes
      refine ⟨⟨hreturned.currentLayer, hreturned.finalLayer⟩, ?_, ?_, ?_⟩
      · rw [hfinal]
        exact hresolved.outbox.trans ((outbox_publishAttached hattached).trans
          (outbox_publish hreturned.publishes))
      · refine ⟨returnedRow root.id (clearedRow persisted), ?_, rfl, rfl⟩
        rw [hfinal, completion?_updateCompletion_self, hleased, hshown, if_pos rfl,
          hpublished, hstored]
        rfl
      · intro other hother
        rw [hfinal, completion?_updateCompletion, if_neg hother, hleased, hshown,
          if_neg hother, hpublished]
  | stop reason => exact hended (Except.ok.inj hrun).symm
  | fail reason => exact hended (Except.ok.inj hrun).symm

/-! ## Completions through an operation -/

/-- A committed transition of the completion. -/
structure Commits (host : Host) (interaction : NodeId)
    (intent : CurrentTransition) (operationKey : String) (published : Published)
    (row row' : CompletionRow) : Prop where
  active : row.lifecycle = .active
  bounded : row.headRevision + 1 < 2 ^ 63
  fresh : ∀ old ∈ row.revisions, old.revision ≠ row.headRevision + 1 ∧
    old.operationKey ≠ some operationKey
  leaves : intent.Leaves row published.currentLayer published.finalLayer
  history : row'.history =
    ((published.headMove interaction row.headRevision intent).apply
      ((published.revisionRow host row.headRevision operationKey intent).appendTo
        row)).history
  pending : row'.pendingPresentations = intent.pending row

/-- A rewrite which appends nothing to the history: presentations stay pending,
or an active interaction stages one. -/
inductive Rewrites (row row' : CompletionRow) : Prop
  | kept (history : row'.history = row.history)
      (pending : row'.pendingPresentations = row.pendingPresentations)
  | staged (active : row.lifecycle = .active)
      (presentation : PendingPresentation)
      (written : row' = stagedRow presentation row)

/-- What one operation does to the completions and to the outbox. -/
inductive Evolves (host : Host) (db db' : GraphDatabase) : Prop
  | created (scope : RowScope) (preparation : Preparation)
      (events : db'.outbox = db.outbox ++ [⟨db.nodes.nextKey, 0, "initialized"⟩])
      (initial : db'.completion? db.nodes.nextKey =
        some (db.initialCompletion host scope preparation))
      (others : ∀ other, other ≠ db.nodes.nextKey →
        db'.completion? other = db.completion? other)
  | rewritten (interaction : NodeId) (row row' : CompletionRow)
      (events : db'.outbox = db.outbox)
      (before : db.completion? interaction = some row)
      (after : db'.completion? interaction = some row')
      (rewrites : Rewrites row row')
      (others : ∀ other, other ≠ interaction →
        db'.completion? other = db.completion? other)
  | committed (interaction : NodeId) (row row' : CompletionRow)
      (intent : CurrentTransition) (operationKey : String) (published : Published)
      (events : db'.outbox =
        db.outbox ++ [⟨interaction, row.headRevision + 1, intent.eventKind⟩])
      (before : db.completion? interaction = some row)
      (after : db'.completion? interaction = some row')
      (commits : Commits host interaction intent operationKey published row row')
      (others : ∀ other, other ≠ interaction →
        db'.completion? other = db.completion? other)
  | same (events : db'.outbox = db.outbox)
      (completions : ∀ other, db'.completion? other = db.completion? other)

theorem evolves_of_nodes (hnodes : db'.nodes = db.nodes)
    (houtbox : db'.outbox = db.outbox) : Evolves host db db' :=
  .same houtbox (completion?_of_nodes hnodes)

theorem completion?_insert (db : GraphDatabase) (row : NodeRow)
    (outbox : List ProjectionRow) (other : NodeId) :
    ({ db with nodes := db.nodes.insert row, outbox } : GraphDatabase).completion?
        other =
      if other = db.nodes.nextKey then row.completion
      else db.completion? other := by
  simp only [completion?, Table.get?_insert]
  split <;> rfl

theorem completion?_nextKey (db : GraphDatabase) :
    db.completion? db.nodes.nextKey = none := by
  rw [completion?, Table.get?_nextKey, Option.bind_none]

theorem evolves_createInteraction {target : RowScope} {text : String}
    {preparation : Preparation} {id : NodeId}
    (hrun : db.createInteraction host target text preparation = .ok (id, db')) :
    Evolves host db db' := by
  obtain ⟨-, row, -, -, -, -, hcompletion, rfl⟩ := createInteraction_ok hrun
  refine .created target preparation rfl ?_ ?_
  · rw [completion?_insert, if_pos rfl, hcompletion]
  · intro other hother
    rw [completion?_insert, if_neg hother]

/-- A rewrite of one completion which is there. -/
theorem evolves_updateCompletion {interaction : NodeId} {row : CompletionRow}
    {f : CompletionRow → CompletionRow}
    (hrow : db.completion? interaction = some row) (hf : Rewrites row (f row)) :
    Evolves host db (db.updateCompletion interaction f) := by
  refine .rewritten interaction row (f row) rfl hrow ?_ hf ?_
  · rw [completion?_updateCompletion_self, hrow, Option.map_some]
  · intro other hother
    rw [completion?_updateCompletion, if_neg hother]

theorem evolves_activateAuthority {interaction : NodeId} {epoch : ℕ}
    (hrun : db.activateAuthority interaction = .ok (epoch, db')) :
    Evolves host db db' := by
  have hresult := activateAuthority_ok hrun
  simp only [activateAuthority, bind_eq_ok_iff, completionState_eq_ok_iff] at hrun
  obtain ⟨row, hrow, -⟩ := hrun
  rw [hresult]
  exact evolves_updateCompletion hrow (.kept rfl rfl)

theorem evolves_submitNode {draft : NodeDraft}
    {contents : NodeContents} {id : NodeId}
    (hrun : db.submitNode scope host draft contents = .ok (id, db')) :
    Evolves host db db' := by
  obtain ⟨-, draft, ⟨row, hrow, -, -, rfl⟩ | hinsert⟩ := submitNode_ok hrun
  · refine .same rfl fun other => ?_
    simp only [completion?, updateDraftNode, Table.get?_mapRows]
    cases db.nodes.get? other with
    | none => rfl
    | some stored =>
        simp only [Option.map_some, Option.bind_some]
        split <;> rfl
  · simp only [insertDraftNode, Prod.mk.injEq] at hinsert
    obtain ⟨-, rfl⟩ := hinsert
    refine .same rfl fun other => ?_
    refine (completion?_insert db _ db.outbox other).trans ?_
    split
    · rename_i hother
      rw [hother, completion?_nextKey]
    · rfl

theorem evolves_transition {expectedRevision : ℕ} {operationKey : String}
    {intent : CurrentTransition} {index : IndexAnswers} {result : Transitioned}
    (hrun : db.transition scope host expectedRevision operationKey intent index =
      .ok result) : Evolves host db result.db := by
  rcases transition_ok hrun with ⟨receipt, -, -, rfl⟩ |
    ⟨persisted, published, recorded, hcommitted, hresult, -⟩
  · exact .same rfl fun _ => rfl
  · obtain ⟨hleaves, houtbox, ⟨row, hrow, hhistory, hpending⟩, hothers⟩ :=
      transitionBody_completion? hcommitted.stored hcommitted.body
    have hrecord := hcommitted.record
    have hhead := hcommitted.head
    obtain ⟨stored, hstored, -, -, hfresh⟩ := hrecord.stored
    obtain rfl : row = stored := by simpa [hrow] using hstored
    have hsame : result.db.nodes = recorded.nodes ∧
        result.db.outbox = recorded.outbox := by
      rcases hresult with h | ⟨target, revision, h⟩
      · exact ⟨by rw [h], by rw [h]⟩
      · exact ⟨by rw [h]; rfl, by rw [h]; rfl⟩
    simp only [CompletionRow.history, Prod.mk.injEq] at hhistory
    obtain ⟨hlifecycle, hheadRow, hcurrent, hfinal, hreason, hrevisions⟩ := hhistory
    have hcompletions := completion?_of_nodes hsame.1
    have hafter := hcompletions scope.root
    rw [hrecord.completion?, if_pos rfl, hrow, Option.map_some] at hafter
    refine .committed scope.root persisted _ intent operationKey published ?_
      hcommitted.stored hafter ?_ ?_
    · rw [hsame.2, hrecord.result, hhead, houtbox]
    · refine ⟨hcommitted.active, hhead ▸ hrecord.bounded, ?_, hleaves, ?_, hpending⟩
      · rw [← hrevisions, hhead]
        exact hfresh
      · simp only [CompletionRow.history, HeadMove.apply, RevisionRow.appendTo,
          hrevisions, hhead]
    · intro other hother
      rw [hcompletions, hrecord.completion?, if_neg hother, hothers other hother]

/-- What every operation does to the completions. -/
theorem evolves_of_step {operation : Operation}
    (hstep : (native host).step db operation db') : Evolves host db db' := by
  change db.perform host operation = .ok db' at hstep
  cases operation with
  | createInteraction target text preparation =>
      obtain ⟨id, hrun⟩ := map_snd_eq_ok hstep
      exact evolves_createInteraction hrun
  | activateAuthority interaction =>
      obtain ⟨epoch, hrun⟩ := map_snd_eq_ok hstep
      exact evolves_activateAuthority hrun
  | submitNode author draft contents =>
      obtain ⟨scope, -, hrun⟩ := bind_eq_ok_iff.mp hstep
      obtain ⟨id, hrun⟩ := map_snd_eq_ok hrun
      exact evolves_submitNode hrun
  | createEdge author draft =>
      obtain ⟨scope, -, hrun⟩ := bind_eq_ok_iff.mp hstep
      obtain ⟨id, hrun⟩ := map_snd_eq_ok hrun
      rcases createEdge_ok hrun with rfl | ⟨endpoints, hinsert⟩
      · exact evolves_of_nodes rfl rfl
      · simp only [insertDraftEdge, Prod.mk.injEq] at hinsert
        obtain ⟨-, rfl⟩ := hinsert
        exact evolves_of_nodes rfl rfl
  | submitLayer author draft renderer =>
      obtain ⟨scope, -, hrun⟩ := bind_eq_ok_iff.mp hstep
      obtain ⟨id, hrun⟩ := map_snd_eq_ok hrun
      obtain ⟨-, nodes, edges, -, -, -, hwrite⟩ := submitLayer_ok hrun
      rcases upsertDraftLayer_ok hwrite with ⟨row, -, -, -, rfl⟩ |
        ⟨row, -, -, -, -, -, rfl⟩
      · exact evolves_of_nodes rfl rfl
      · exact evolves_of_nodes rfl rfl
  | addAction author draft preparedIcon =>
      obtain ⟨scope, -, hrun⟩ := bind_eq_ok_iff.mp hstep
      obtain ⟨id, hrun⟩ := map_snd_eq_ok hrun
      obtain ⟨-, -, source, icon, -, -, -, hwrite⟩ := addAction_ok hrun
      rcases hwrite with ⟨row, -, -, -, -, rfl⟩ | rfl
      · exact evolves_of_nodes rfl rfl
      · exact evolves_of_nodes rfl rfl
  | discardLayer author layer =>
      obtain ⟨scope, -, hrun⟩ := bind_eq_ok_iff.mp hstep
      obtain ⟨id, hrun⟩ := map_snd_eq_ok hrun
      rcases discardLayer_ok hrun with rfl | rfl
      · exact evolves_of_nodes rfl rfl
      · exact evolves_of_nodes rfl rfl
  | stagePresentation author node expectedRevision package assets =>
      obtain ⟨scope, -, hrun⟩ := bind_eq_ok_iff.mp hstep
      obtain ⟨hwritable, -, rfl⟩ := stagePresentation_ok hrun
      obtain ⟨-, row, hrow, hactive⟩ := ensureWritable_ok hwritable
      exact evolves_updateCompletion hrow (.staged hactive _ rfl)
  | transition author expectedRevision operationKey intent index =>
      obtain ⟨scope, -, hrun⟩ := bind_eq_ok_iff.mp hstep
      obtain ⟨result, hresult, rfl⟩ := exceptMap_eq_ok_iff.mp hrun
      exact evolves_transition hresult

/-! ## Linear histories -/

/-- The revisions of a completion are the numbers up to its head, each based on
the one before it, and the head summarises the last of them. -/
structure Linear (host : Host) (row : CompletionRow) : Prop where
  numbers : row.revisions.map (·.revision) = List.range (row.headRevision + 1)
  bases : ∀ r ∈ row.revisions,
    r.baseRevision = if r.revision = 0 then none else some (r.revision - 1)
  requests : ∀ r ∈ row.revisions, r.revision ≠ 0 →
    ∃ intent : CurrentTransition,
      r.requestDigest = some (requestDigest host (r.revision - 1) intent) ∧
      r.snapshotDigest.isSome ∧ r.operationKey.isSome ∧
      r.transition = intent.name ∧ r.lifecycle = intent.lifecycle
  initial : ∀ r ∈ row.revisions, r.revision = 0 → r.operationKey = none
  keys : (row.revisions.filterMap (·.operationKey)).Nodup
  earlier : ∀ r ∈ row.revisions, r.revision ≠ row.headRevision →
    r.lifecycle = .active
  head : ∀ r ∈ row.revisions, r.revision = row.headRevision →
    r.lifecycle = row.lifecycle ∧ r.currentLayer = row.currentLayer
  final : row.finalLayer =
    if row.lifecycle = .succeeded then row.currentLayer else none
  succeeded : row.lifecycle = .succeeded → row.currentLayer.isSome
  pendingNodes : (row.pendingPresentations.map (·.node)).Nodup
  ended : row.lifecycle ≠ .active → row.pendingPresentations = []

theorem linear_initialCompletion (scope : RowScope) (preparation : Preparation) :
    Linear host (db.initialCompletion host scope preparation) := by
  constructor <;> simp [initialCompletion]

theorem Linear.rewrites {row row' : CompletionRow} (h : Linear host row)
    (hrewrites : Rewrites row row') : Linear host row' := by
  cases hrewrites with
  | kept hhistory hpending =>
      simp only [CompletionRow.history, Prod.mk.injEq] at hhistory
      obtain ⟨hlifecycle, hhead, hcurrent, hfinal, -, hrevisions⟩ := hhistory
      constructor <;>
        simp only [hlifecycle, hhead, hcurrent, hfinal, hrevisions, hpending]
      exacts [h.numbers, h.bases, h.requests, h.initial, h.keys, h.earlier, h.head,
        h.final, h.succeeded, h.pendingNodes, h.ended]
  | staged hactive presentation hwritten =>
      subst hwritten
      refine ⟨h.numbers, h.bases, h.requests, h.initial, h.keys, h.earlier, h.head,
        h.final, h.succeeded, ?_, fun hended => absurd hactive hended⟩
      simp only [stagedRow, List.map_append, List.map_cons, List.map_nil]
      refine List.nodup_append.mpr ⟨?_, by simp, ?_⟩
      · exact (List.filter_sublist.map _).nodup h.pendingNodes
      · intro node hnode other hother
        obtain ⟨p, hp, rfl⟩ := List.mem_map.mp hnode
        rw [List.mem_singleton.mp hother]
        exact of_decide_eq_true (List.mem_filter.mp hp).2

theorem CurrentTransition.lifecycle_eq_succeeded {intent : CurrentTransition} :
    intent.lifecycle = .succeeded ↔ ∃ layer, intent = .return layer := by
  cases intent <;> simp [CurrentTransition.lifecycle]

/-- One more transition. -/
theorem Linear.commits {interaction : NodeId} {intent : CurrentTransition}
    {operationKey : String} {published : Published} {row row' : CompletionRow}
    (h : Linear host row)
    (hcommits : Commits host interaction intent operationKey published row row') :
    Linear host row' := by
  obtain ⟨hactive, -, hfresh, hleaves, hhistory, hpending⟩ := hcommits
  simp only [CompletionRow.history, HeadMove.apply, RevisionRow.appendTo,
    Published.headMove, Published.revisionRow, Prod.mk.injEq] at hhistory
  obtain ⟨hlifecycle, hhead, hcurrent, hfinal, -, hrevisions⟩ := hhistory
  have hlast : ∀ r ∈ row.revisions, r.revision ≤ row.headRevision := by
    intro r hr
    have hmem : r.revision ∈ List.range (row.headRevision + 1) :=
      h.numbers ▸ List.mem_map_of_mem hr
    have := List.mem_range.mp hmem
    omega
  have hstill : ∀ r ∈ row.revisions, r.lifecycle = .active := by
    intro r hr
    by_cases hrevision : r.revision = row.headRevision
    · exact ((h.head r hr hrevision).1).trans hactive
    · exact h.earlier r hr hrevision
  constructor
  · rw [hrevisions, hhead, List.map_append, h.numbers]
    exact List.range_succ.symm
  · intro r hr
    rw [hrevisions] at hr
    rcases List.mem_append.mp hr with hold | hnew
    · exact h.bases r hold
    · rw [List.mem_singleton.mp hnew]
      simp
  · intro r hr hne
    rw [hrevisions] at hr
    rcases List.mem_append.mp hr with hold | hnew
    · exact h.requests r hold hne
    · rw [List.mem_singleton.mp hnew]
      exact ⟨intent, by simp⟩
  · intro r hr hzero
    rw [hrevisions] at hr
    rcases List.mem_append.mp hr with hold | hnew
    · exact h.initial r hold hzero
    · rw [List.mem_singleton.mp hnew] at hzero
      cases hzero
  · rw [hrevisions, List.filterMap_append]
    refine List.nodup_append.mpr ⟨h.keys, by simp, ?_⟩
    intro key hkey other hother
    obtain ⟨r, hr, hsome⟩ := List.mem_filterMap.mp hkey
    obtain rfl : other = operationKey := by simpa using hother
    rintro rfl
    exact (hfresh r hr).2 hsome
  · intro r hr hne
    rw [hrevisions] at hr
    rcases List.mem_append.mp hr with hold | hnew
    · exact hstill r hold
    · rw [List.mem_singleton.mp hnew, hhead] at hne
      exact absurd rfl hne
  · intro r hr hsame
    rw [hrevisions] at hr
    rcases List.mem_append.mp hr with hold | hnew
    · have hle := hlast r hold
      rw [hsame, hhead] at hle
      omega
    · rw [List.mem_singleton.mp hnew, hlifecycle, hcurrent]
      exact ⟨rfl, rfl⟩
  · rw [hfinal, hlifecycle, hcurrent]
    cases intent with
    | advance layer => simp [CurrentTransition.lifecycle, hleaves.2]
    | «return» layer => simp [CurrentTransition.lifecycle, hleaves.1, hleaves.2]
    | stop reason => simp [CurrentTransition.lifecycle, hleaves.2]
    | fail reason => simp [CurrentTransition.lifecycle, hleaves.2]
  · rw [hlifecycle, hcurrent]
    intro hsucceeded
    obtain ⟨layer, rfl⟩ := CurrentTransition.lifecycle_eq_succeeded.mp hsucceeded
    simp [hleaves.1]
  · rw [hpending]
    cases intent with
    | advance layer => exact h.pendingNodes
    | _ => exact List.nodup_nil
  · rw [hlifecycle, hpending]
    cases intent with
    | advance layer => exact fun hended => absurd rfl hended
    | _ => exact fun _ => rfl

/-- Every completion of the database is linear. -/
theorem linear_of_reachable (hreach : (native host).Reachable db) :
    ∀ interaction row, db.completion? interaction = some row →
      Linear host row := by
  refine hreach.invariant
    (P := fun db => ∀ interaction row, db.completion? interaction = some row →
      Linear host row) ?_ ?_
  · rintro _ ⟨permissionsEnabled, temporalFeatures, rfl⟩ interaction row hrow
    simp [initial, completion?] at hrow
  · intro s operation t _ hs hstep interaction row hrow
    cases evolves_of_step hstep with
    | created scope preparation _ hinitial hothers =>
        by_cases hnew : interaction = s.nodes.nextKey
        · rw [hnew, hinitial, Option.some.injEq] at hrow
          exact hrow ▸ linear_initialCompletion scope preparation
        · exact hs interaction row (hothers interaction hnew ▸ hrow)
    | rewritten changed before after _ hbefore hafter hrewrites hothers =>
        by_cases hchanged : interaction = changed
        · rw [hchanged, hafter, Option.some.injEq] at hrow
          exact hrow ▸ (hs changed before hbefore).rewrites hrewrites
        · exact hs interaction row (hothers interaction hchanged ▸ hrow)
    | committed changed before after intent operationKey published _ hbefore hafter
        hcommits hothers =>
        by_cases hchanged : interaction = changed
        · rw [hchanged, hafter, Option.some.injEq] at hrow
          exact hrow ▸ (hs changed before hbefore).commits hcommits
        · exact hs interaction row (hothers interaction hchanged ▸ hrow)
    | same _ hcompletions =>
        exact hs interaction row (hcompletions interaction ▸ hrow)

end GraphDatabase

end RelayerGraph
