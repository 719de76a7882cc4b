import RelayerGraph.Graph.Planned

/-!
# Publishing keeps databases well formed

Accepting the rows of a plan, giving its layers their snapshots, adding
attached additions and resolving a lease.  After the rows are accepted, only
the lists of actions of layers grow.
-/

namespace RelayerGraph

open Foundation Checked Worklist

namespace GraphDatabase

variable {db db' : GraphDatabase} {scope : InteractionScope} {host : Host}
variable {plan : CompletionPlan} {revision : ℕ}

/-! ## Publishable plans -/

/-- What publication relies on: the rows which a plan accepts refer to rows it
accepts as well, or to accepted ones. -/
structure Publishable (db : GraphDatabase) (scope : InteractionScope)
    (plan : CompletionPlan) : Prop where
  layers : ∀ layer ∈ plan.layers, ∃ row, db.layers.get? layer = some row ∧
    row.state = .draft ∧ row.owner = scope.root ∧
    (∀ id ∈ row.nodes, id ∈ plan.nodes) ∧ ∀ id ∈ row.edges, id ∈ plan.edges
  leads : ∀ id ∈ plan.actions, ∀ row, db.actions.get? id = some row →
    row.kind = .navigate → ∃ target, row.targetLayer = some target ∧
      (target ∈ plan.layers ∨ db.AcceptedLayer scope.target target)
  sources : ∀ id ∈ plan.actions, ∀ row, db.actions.get? id = some row →
    row.attached = false → ∀ layer, row.sourceLayer = some layer →
      layer ∈ plan.layers

theorem Walked.publishable {origin : LayerId → Prop} {given : ActionId → Prop}
    (h : Walked db scope origin given plan [])
    (hleads : ∀ id, given id → ∀ row, db.actions.get? id = some row →
      row.kind = .navigate → ∃ target, row.targetLayer = some target ∧
        (target ∈ plan.layers ∨ db.AcceptedLayer scope.target target))
    (hsources : ∀ id, given id → ∀ row, db.actions.get? id = some row →
      row.attached = false → row.sourceLayer = none) :
    Publishable db scope plan where
  layers layer hlayer := by
    obtain ⟨row, resolved, hread, hdraft, howner, -, hnodes, hedges⟩ :=
      h.layers layer hlayer
    exact ⟨row, hread.stored, hdraft, howner, hnodes, hedges⟩
  leads id hid row hrow hkind := by
    rcases h.actions id hid with hgiven | ⟨layer, hlayer, stored, hauthored⟩
    · exact hleads id hgiven row hrow hkind
    · obtain rfl : row = stored := by simpa [hrow] using hauthored.1
      obtain ⟨-, -, -, hnavigate⟩ := h.authored layer hlayer id row hauthored
      obtain ⟨target, htarget, hknown⟩ := hnavigate hkind
      exact ⟨target, htarget, by simpa [Known] using hknown⟩
  sources id hid row hrow hattached layer hlayer := by
    rcases h.actions id hid with hgiven | ⟨source, hsource, stored, hauthored⟩
    · rw [hsources id hgiven row hrow hattached] at hlayer
      cases hlayer
    · obtain rfl : row = stored := by simpa [hrow] using hauthored.1
      obtain rfl : source = layer := by
        simpa using hauthored.2.2.1.symm.trans hlayer
      exact hsource

theorem AdvancePlan.publishable (h : AdvancePlan db scope plan) :
    Publishable db scope plan :=
  h.walked.publishable (fun _ hgiven => hgiven.elim) fun _ hgiven => hgiven.elim

theorem ReturnPlan.publishable {rootId : ActionId} {rootRow : ActionRow}
    (h : ReturnPlan db scope plan rootId rootRow) :
    Publishable db scope plan := by
  refine h.walked.publishable ?_ ?_
  · rintro id (rfl | hid) row hrow -
    · obtain rfl : row = rootRow := by simpa [hrow] using h.rootRow.stored
      exact ⟨plan.rootLayer, h.rootRow.targetLayer, h.root⟩
    · obtain ⟨-, stored, target, hstored, htarget, hmem⟩ := h.additions id hid
      obtain rfl : row = stored := by simpa [hrow] using hstored
      exact ⟨target, htarget, hmem⟩
  · rintro id (rfl | hid) row hrow hattached
    · obtain rfl : row = rootRow := by simpa [hrow] using h.rootRow.stored
      exact h.rootRow.sourceLayer
    · obtain ⟨stored, hstored, hmarked, -⟩ := mem_draftAdditions.mp hid
      obtain rfl : row = stored := by simpa [hrow] using hstored
      rw [hattached] at hmarked
      cases hmarked

/-! ## Accepting rows -/

section AcceptRows

theorem retains_acceptRows (scope : InteractionScope) (plan : CompletionPlan)
    (revision : ℕ) : db.Retains (db.acceptRows scope plan revision) where
  imports := rfl
  nodes := .mapRows fun id row _ => by
    split
    · exact ⟨rfl, rfl, fun _ => rfl, fun _ => rfl, rfl⟩
    · exact .refl row
  edges := .mapRows fun id row _ => by
    split
    · exact ⟨rfl, rfl, rfl, fun _ => rfl⟩
    · exact .refl row
  layers := .mapRows fun id row _ => by
    split
    · exact ⟨rfl, rfl, fun _ => rfl, fun _ => rfl, fun _ h => h⟩
    · exact .refl row
  actions := .mapRows fun id row _ => by
    split
    · exact ⟨rfl, rfl, fun _ => rfl, fun _ => rfl, fun _ _ => rfl, fun _ => rfl⟩
    · exact .refl row

theorem acceptedNode_acceptRows {target : SearchTarget} {id : NodeId}
    {row : NodeRow} (hrow : db.nodes.get? id = some row)
    (htarget : row.target = target)
    (hstate : row.state = .accepted ∨
      id ∈ plan.nodes ∧ row.owner = some scope.root) :
    (db.acceptRows scope plan revision).AcceptedNode target id := by
  rcases hstate with haccepted | hplanned
  · exact (retains_acceptRows scope plan revision).acceptedNode
      ⟨row, hrow, htarget, haccepted⟩
  · refine ⟨_, by simp [acceptRows, hrow, hplanned]; rfl, ?_, ?_⟩
    · exact htarget
    · rfl

theorem acceptedEdge_acceptRows {target : SearchTarget} {id : EdgeId}
    {row : EdgeRow} (hrow : db.edges.get? id = some row)
    (htarget : row.target = target)
    (hstate : row.state = .accepted ∨
      id ∈ plan.edges ∧ row.owner = scope.root) :
    (db.acceptRows scope plan revision).AcceptedEdge target id := by
  rcases hstate with haccepted | hplanned
  · exact (retains_acceptRows scope plan revision).acceptedEdge
      ⟨row, hrow, htarget, haccepted⟩
  · refine ⟨_, by simp [acceptRows, hrow, hplanned]; rfl, ?_, ?_⟩
    · exact htarget
    · rfl

theorem Publishable.acceptedLayer (hplan : Publishable db scope plan)
    (h : db.WellFormed) (hscope : db.Issued scope) {layer : LayerId}
    (hlayer : layer ∈ plan.layers ∨ db.AcceptedLayer scope.target layer) :
    (db.acceptRows scope plan revision).AcceptedLayer scope.target layer := by
  rcases hlayer with hplanned | haccepted
  · obtain ⟨row, hrow, -, howner, -⟩ := hplan.layers layer hplanned
    have htarget : row.target = scope.target :=
      h.layer_target hscope hrow howner
    refine ⟨_, by simp [acceptRows, hrow, hplanned, howner]; rfl, ?_, ?_⟩
    · exact htarget
    · rfl
  · exact (retains_acceptRows scope plan revision).acceptedLayer haccepted

/-- An action of an interaction lies in the interaction's target. -/
theorem WellFormed.action_target (h : db.WellFormed) (hscope : db.Issued scope)
    {id : ActionId} {row : ActionRow} (hrow : db.actions.get? id = some row)
    (howner : row.owner = scope.root) : row.target = scope.target :=
  ((howner ▸ (h.actions id row hrow).owner :
    db.Interaction row.target scope.root)).target_unique hscope.interaction

theorem layerRow_ok_acceptRows {row : LayerRow} (hrow : row.Ok db)
    (hstate : row.state ≠ .accepted) (howner : row.owner = scope.root)
    (hnodes : ∀ id ∈ row.nodes, id ∈ plan.nodes)
    (hedges : ∀ id ∈ row.edges, id ∈ plan.edges) (published : Option ℕ) :
    LayerRow.Ok (db.acceptRows scope plan revision)
      { row with state := .accepted, publishedRevision := published } := by
  have hkeep := hrow.mono (retains_acceptRows scope plan revision)
  have hempty := hrow.actions_eq_nil hstate
  refine ⟨hkeep.owner, hkeep.consistent, hkeep.nodes, hkeep.edges,
    fun _ => ⟨?_, ?_⟩, ?_⟩
  · intro id hid
    obtain ⟨node, hnode, htarget, hvisible⟩ := hrow.nodes id hid
    exact acceptedNode_acceptRows hnode htarget
      (hvisible.imp_right fun hown => ⟨hnodes id hid, howner ▸ hown⟩)
  · intro id hid
    obtain ⟨edge, hedge, htarget, -, -, hvisible⟩ := hrow.edges id hid
    exact acceptedEdge_acceptRows hedge htarget
      (hvisible.imp_right fun hown => ⟨hedges id hid, hown.trans howner⟩)
  · intro id hid
    simp [hempty] at hid

theorem actionRow_ok_acceptRows (h : db.WellFormed) (hscope : db.Issued scope)
    (hplan : Publishable db scope plan) {id : ActionId} {row : ActionRow}
    (hid : id ∈ plan.actions) (hrow : db.actions.get? id = some row)
    (howner : row.owner = scope.root) (published : Option ℕ) :
    ActionRow.Ok (db.acceptRows scope plan revision)
      { row with state := .accepted, publishedRevision := published } := by
  have hok := h.actions id row hrow
  have hkeep := hok.mono (retains_acceptRows scope plan revision)
  have htarget := h.action_target hscope hrow howner
  refine ⟨hkeep.owner, hkeep.source, by simp, hkeep.navigate, ?_, ?_⟩
  · refine ⟨hkeep.authored.attached, hkeep.authored.root, ?_⟩
    intro hattached layer hlayer
    obtain ⟨hsource, hstored, -⟩ := hkeep.authored.fromLayer hattached layer hlayer
    refine ⟨hsource, hstored, fun _ => ?_⟩
    have hplanned := hplan.sources id hid row hrow hattached layer hlayer
    exact htarget ▸ hplan.acceptedLayer h hscope (.inl hplanned)
  · intro _ hkind
    obtain ⟨layer, hlayer, hsettled⟩ := hplan.leads id hid row hrow hkind
    exact ⟨layer, hlayer, htarget ▸ hplan.acceptedLayer h hscope hsettled⟩

theorem WellFormed.acceptRows (h : db.WellFormed) (hscope : db.Issued scope)
    (hplan : Publishable db scope plan) (revision : ℕ) :
    db.Sound (db.acceptRows scope plan revision) := by
  have hret := @retains_acceptRows db scope plan revision
  refine ⟨hret, h.of_retains hret ?_ ?_ ?_⟩
  · intro id found hfound
    simp only [GraphDatabase.acceptRows, Table.get?_mapRows,
      Option.map_eq_some_iff] at hfound
    obtain ⟨row, hrow, rfl⟩ := hfound
    split
    · rename_i hplanned
      have hok := (h.nodes id row hrow).mono hret
      refine .inr ⟨hok.owner, fun hnone => ?_, hok.completion⟩
      exact absurd (hplanned.2.symm.trans hnone) (by simp)
    · exact .inl hrow
  · intro id found hfound
    simp only [GraphDatabase.acceptRows, Table.get?_mapRows,
      Option.map_eq_some_iff] at hfound
    obtain ⟨row, hrow, rfl⟩ := hfound
    split
    · rename_i hplanned
      obtain ⟨stored, hstored, hdraft, howner, hnodes, hedges⟩ :=
        hplan.layers id hplanned.1
      obtain rfl : row = stored := by simpa [hrow] using hstored
      exact .inr (layerRow_ok_acceptRows (h.layers id row hrow) (by simp [hdraft])
        howner hnodes hedges _)
    · exact .inl hrow
  · intro id found hfound
    simp only [GraphDatabase.acceptRows, Table.get?_mapRows,
      Option.map_eq_some_iff] at hfound
    obtain ⟨row, hrow, rfl⟩ := hfound
    split
    · rename_i hplanned
      exact .inr (actionRow_ok_acceptRows h hscope hplan hplanned.1 hrow
        hplanned.2 _)
    · exact .inl hrow

end AcceptRows

/-! ## Growing snapshots -/

/-- Only the lists of actions of layers grew, by actions of a given kind. -/
structure Grows (added : LayerId → ActionId → Prop) (db db' : GraphDatabase) :
    Prop where
  rest : db' = { db with layers := db'.layers }
  rows : ∀ id, ∃ extra, (∀ action ∈ extra, added id action) ∧
    db'.layers.get? id = (db.layers.get? id).map fun row =>
      { row with actions := row.actions ++ extra }

namespace Grows

variable {added added' : LayerId → ActionId → Prop}

theorem refl (db : GraphDatabase) : Grows added db db where
  rest := rfl
  rows id := ⟨[], by simp, by simp⟩

theorem mono (h : Grows added db db') (hsub : ∀ id a, added id a → added' id a) :
    Grows added' db db' where
  rest := h.rest
  rows id := by
    obtain ⟨extra, hextra, hrow⟩ := h.rows id
    exact ⟨extra, fun a ha => hsub id a (hextra a ha), hrow⟩

theorem trans {middle : GraphDatabase} (h : Grows added db middle)
    (h' : Grows added middle db') : Grows added db db' where
  rest := by
    rw [h'.rest, h.rest]
  rows id := by
    obtain ⟨extra, hextra, hrow⟩ := h.rows id
    obtain ⟨extra', hextra', hrow'⟩ := h'.rows id
    refine ⟨extra ++ extra', ?_, ?_⟩
    · intro action haction
      exact (List.mem_append.mp haction).elim (hextra action) (hextra' action)
    · simp [hrow', hrow, Function.comp_def]

theorem nodes (h : Grows added db db') : db'.nodes = db.nodes := by
  rw [h.rest]

theorem edges (h : Grows added db db') : db'.edges = db.edges := by
  rw [h.rest]

theorem actions (h : Grows added db db') : db'.actions = db.actions := by
  rw [h.rest]

/-- A layer of the grown database, with what it was before. -/
theorem of_get? (h : Grows added db db') {id : LayerId} {row' : LayerRow}
    (hrow' : db'.layers.get? id = some row') :
    ∃ row extra, db.layers.get? id = some row ∧
      row' = { row with actions := row.actions ++ extra } ∧
      ∀ action ∈ extra, added id action := by
  obtain ⟨extra, hextra, hrow⟩ := h.rows id
  rw [hrow', eq_comm, Option.map_eq_some_iff] at hrow
  obtain ⟨row, hstored, rfl⟩ := hrow
  exact ⟨row, extra, hstored, rfl, hextra⟩

/-- A layer of the grown database keeps the actions it listed. -/
theorem get? (h : Grows added db db') {id : LayerId} {row : LayerRow}
    (hrow : db.layers.get? id = some row) :
    ∃ extra, db'.layers.get? id =
      some { row with actions := row.actions ++ extra } := by
  obtain ⟨extra, -, hrow'⟩ := h.rows id
  exact ⟨extra, by rw [hrow', hrow]; rfl⟩

theorem of_mapRows {f : LayerId → LayerRow → LayerRow}
    (hf : ∀ id row, db.layers.get? id = some row → ∃ extra,
      (∀ action ∈ extra, added id action) ∧
        f id row = { row with actions := row.actions ++ extra }) :
    Grows added db { db with layers := db.layers.mapRows f } where
  rest := rfl
  rows id := by
    simp only [Table.get?_mapRows]
    cases hrow : db.layers.get? id with
    | none => exact ⟨[], by simp, rfl⟩
    | some row =>
        obtain ⟨extra, hextra, heq⟩ := hf id row hrow
        exact ⟨extra, hextra, by simp [heq]⟩

theorem retains (h : Grows added db db') : db.Retains db' where
  imports := by rw [h.rest]
  nodes := h.nodes ▸ .refl (fun _ => NodeRow.Retains.refl) _
  edges := h.edges ▸ .refl (fun _ => EdgeRow.Retains.refl) _
  actions := h.actions ▸ .refl (fun _ => ActionRow.Retains.refl) _
  layers := by
    intro id row hrow
    obtain ⟨extra, hrow'⟩ := h.get? hrow
    exact ⟨_, hrow', rfl, rfl, fun hstate => hstate, fun _ => rfl,
      fun action haction => List.mem_append_left _ haction⟩

end Grows

/-- A layer may list an action: both are accepted, and the layer shows the
source of the action. -/
def Listable (db : GraphDatabase) (layer : LayerId) (id : ActionId) : Prop :=
  ∃ row action, db.layers.get? layer = some row ∧ row.state = .accepted ∧
    db.actions.get? id = some action ∧ action.state = .accepted ∧
    action.target = row.target ∧ action.source ∈ row.nodes

/-- Layers may grow by what they may list. -/
theorem WellFormed.grow {added : LayerId → ActionId → Prop} (h : db.WellFormed)
    (hgrow : Grows added db db')
    (hadded : ∀ layer id, added layer id → db.Listable layer id) :
    db.Sound db' := by
  have hret := hgrow.retains
  refine ⟨hret, h.of_retains hret ?_ ?_ ?_⟩
  · rw [hgrow.nodes]
    exact fun _ _ => .inl
  · intro id row' hrow'
    obtain ⟨row, extra, hrow, rfl, hextra⟩ := hgrow.of_get? hrow'
    have hok := (h.layers id row hrow).mono hret
    refine .inr ⟨hok.owner, hok.consistent, hok.nodes, hok.edges, hok.accepted, ?_⟩
    intro action haction
    rcases List.mem_append.mp haction with hold | hnew
    · exact hok.actions action hold
    · obtain ⟨stored, listed, hstored, hstate, hlisted, haccepted, htarget,
        hsource⟩ := hadded id action (hextra action hnew)
      obtain rfl : row = stored := by simpa [hrow] using hstored
      exact ⟨hstate, listed, hgrow.actions ▸ hlisted, haccepted, htarget, hsource⟩
  · rw [hgrow.actions]
    exact fun _ _ => .inl

/-! ## Snapshots -/

/-- The layer is an accepted layer of the interaction. -/
def OwnAccepted (db : GraphDatabase) (scope : InteractionScope)
    (layer : LayerId) : Prop :=
  ∃ row, db.layers.get? layer = some row ∧ row.owner = scope.root ∧
    row.state = .accepted

theorem snapshotActions_ok {layer : LayerId} {actions : List ActionId}
    (hrun : db.snapshotActions scope layer actions = .ok db') :
    Grows (fun id action => id = layer ∧ action ∈ actions ∧
      db.OwnAccepted scope id) db db' ∧
      (db.OwnAccepted scope layer → ∀ row', db'.layers.get? layer = some row' →
        ∀ action ∈ actions, action ∈ row'.actions) := by
  simp only [snapshotActions, bind_eq_ok_iff, pure_eq_ok_iff] at hrun
  obtain ⟨-, -, rfl⟩ := hrun
  constructor
  · refine .of_mapRows fun id row hrow => ?_
    by_cases hsnapshot : id = layer ∧ row.owner = scope.root ∧
        row.state = .accepted
    · rw [if_pos hsnapshot]
      exact ⟨actions, fun action haction =>
        ⟨hsnapshot.1, haction, row, hrow, hsnapshot.2⟩, rfl⟩
    · rw [if_neg hsnapshot]
      exact ⟨[], by simp, by simp⟩
  · rintro ⟨row, hrow, hown⟩ row' hrow' action haction
    rw [Table.get?_mapRows, hrow, Option.map_some, if_pos ⟨rfl, hown⟩,
      Option.some.injEq] at hrow'
    subst hrow'
    exact List.mem_append_right _ haction

/-- An accepted invoke of the interaction on a node of the layer. -/
def OwnInvoke (db : GraphDatabase) (scope : InteractionScope)
    (layer : LayerId) (id : ActionId) : Prop :=
  ∃ row action, db.layers.get? layer = some row ∧
    db.actions.get? id = some action ∧ action.source ∈ row.nodes ∧
    action.owner = scope.root ∧ action.kind = .invoke ∧
    action.state = .accepted

theorem mem_acceptedInvokesIn {layer : LayerId} {id : ActionId} :
    id ∈ db.acceptedInvokesIn scope layer ↔ db.OwnInvoke scope layer id := by
  rw [acceptedInvokesIn, OwnInvoke]
  split
  · rename_i hnone
    simp [hnone]
  · rename_i stored hstored
    simp only [Table.mem_select, decide_eq_true_eq, hstored, Option.some.injEq]
    constructor
    · rintro ⟨action, haction, hrest⟩
      exact ⟨stored, action, rfl, haction, hrest⟩
    · rintro ⟨_, action, rfl, haction, hrest⟩
      exact ⟨action, haction, hrest⟩

theorem Grows.ownAccepted_iff {added : LayerId → ActionId → Prop}
    (h : Grows added db db') {layer : LayerId} :
    db'.OwnAccepted scope layer ↔ db.OwnAccepted scope layer := by
  constructor
  · rintro ⟨row', hrow', hown⟩
    obtain ⟨row, extra, hrow, rfl, -⟩ := h.of_get? hrow'
    exact ⟨row, hrow, hown⟩
  · rintro ⟨row, hrow, hown⟩
    obtain ⟨extra, hrow'⟩ := h.get? hrow
    exact ⟨_, hrow', hown⟩

theorem Grows.ownInvoke {added : LayerId → ActionId → Prop}
    (h : Grows added db db') {layer : LayerId} {id : ActionId}
    (hinvoke : db'.OwnInvoke scope layer id) : db.OwnInvoke scope layer id := by
  obtain ⟨row', action, hrow', haction, hsource, hrest⟩ := hinvoke
  obtain ⟨row, extra, hrow, rfl, -⟩ := h.of_get? hrow'
  exact ⟨row, action, hrow, h.actions ▸ haction, hsource, hrest⟩

/-- What publication may add to a layer's snapshot: what the plan resolved for
it, and accepted invokes on its nodes. -/
def Snapshot (db : GraphDatabase) (scope : InteractionScope)
    (plan : CompletionPlan) (layer : LayerId) (id : ActionId) : Prop :=
  db.OwnAccepted scope layer ∧ ∃ actions, (layer, actions) ∈ plan.layerActions ∧
    (id ∈ actions ∨ db.OwnInvoke scope layer id)

theorem publish_ok (hrun : db.publish scope plan revision = .ok db') :
    Grows ((db.acceptRows scope plan revision).Snapshot scope plan)
        (db.acceptRows scope plan revision) db' ∧
      ∀ layer actions, (layer, actions) ∈ plan.layerActions →
        (db.acceptRows scope plan revision).OwnAccepted scope layer →
        ∀ row', db'.layers.get? layer = some row' →
          ∀ action ∈ actions, action ∈ row'.actions := by
  rw [publish] at hrun
  generalize db.acceptRows scope plan revision = base at hrun ⊢
  refine foldlM_induction
    (P := fun (state : GraphDatabase) done =>
      Grows (base.Snapshot scope plan) base state ∧
        ∀ layer actions, (layer, actions) ∈ done →
          base.OwnAccepted scope layer →
          ∀ row', state.layers.get? layer = some row' →
            ∀ action ∈ actions, action ∈ row'.actions)
    ?_ ?_ hrun
  · rintro state done ⟨layer, actions⟩ next hentry ⟨hgrow, hdone⟩ hstep
    obtain ⟨hgrow', hlisted⟩ := snapshotActions_ok hstep
    have hsnapshot : ∀ action ∈ state.snapshotOf scope plan layer actions,
        action ∈ actions ∨ state.OwnInvoke scope layer action := by
      intro action haction
      rw [snapshotOf] at haction
      split at haction
      · rcases List.mem_append.mp haction with hold | hinvoke
        · exact .inl hold
        · exact .inr (mem_acceptedInvokesIn.mp (List.mem_filter.mp hinvoke).1)
      · exact .inl haction
    have hcovers : ∀ action ∈ actions,
        action ∈ state.snapshotOf scope plan layer actions := by
      intro action haction
      rw [snapshotOf]
      split
      · exact List.mem_append_left _ haction
      · exact haction
    constructor
    · refine hgrow.trans (hgrow'.mono ?_)
      rintro id action ⟨rfl, haction, hown⟩
      exact ⟨hgrow.ownAccepted_iff.mp hown, actions, hentry,
        (hsnapshot action haction).imp_right hgrow.ownInvoke⟩
    · intro other others hother hown row' hrow' action haction
      rcases List.mem_append.mp hother with hold | hnew
      · obtain ⟨row, extra, hrow, rfl, -⟩ := hgrow'.of_get? hrow'
        exact List.mem_append_left _ (hdone other others hold hown row hrow action
          haction)
      · obtain ⟨rfl, rfl⟩ : other = layer ∧ others = actions := by
          simpa using hnew
        exact hlisted (hgrow.ownAccepted_iff.mpr hown) row' hrow' action
          (hcovers action haction)
  · exact ⟨.refl base, by simp⟩

/-- What a plan recorded for a layer: actions on its nodes which are accepted
or were authored from it. -/
theorem Walked.recorded {origin : LayerId → Prop} {given : ActionId → Prop}
    (h : Walked db scope origin given plan []) (hdb : db.WellFormed)
    {layer : LayerId} {actions : List ActionId}
    (hentry : (layer, actions) ∈ plan.layerActions) {id : ActionId}
    (hid : id ∈ actions) :
    ∃ row action, db.layers.get? layer = some row ∧ layer ∈ plan.layers ∧
      db.actions.get? id = some action ∧ action.source ∈ row.nodes ∧
      action.target = scope.target ∧
      (action.state = .accepted ∨ db.AuthoredFrom scope layer id action) := by
  obtain ⟨hlayer, row, resolved, hread, hactions⟩ := h.snapshots _ hentry
  obtain ⟨stored, _, hread', hdraft, -⟩ := h.layers layer hlayer
  have hsame : row = stored := by
    simpa [hread.stored] using hread'.stored
  have hstate : row.state ≠ .accepted := by simp [hsame, hdraft]
  have hid' : id ∈ resolved.actions.map (·.id) := hactions ▸ hid
  obtain ⟨record, hrecord, rfl⟩ := List.mem_map.mp hid'
  obtain ⟨id, action, haction, ⟨hsource, hin, hshown⟩, rfl⟩ :=
    hread.shown hstate record hrecord
  refine ⟨row, action, hread.stored, hlayer, haction, hsource,
    inScope_iff.mp hin, ?_⟩
  rcases hshown with haccepted | ⟨howner, hfrom, node, hnode, hnodeDraft⟩
  · exact .inl haccepted
  · refine .inr ⟨haction, howner, hfrom, ?_, hin⟩
    -- An addition sits on an accepted node, so this one is none.
    by_contra hattached
    obtain ⟨-, ⟨other, hother, -, hotherState⟩, -⟩ :=
      (hdb.actions _ action haction).authored.attached (by simpa using hattached)
    rw [hnode, Option.some.injEq] at hother
    rw [← hother, hnodeDraft] at hotherState
    cases hotherState

theorem acceptRows_action {id : ActionId} {row : ActionRow}
    (hrow : db.actions.get? id = some row)
    (hplanned : row.state = .accepted ∨
      id ∈ plan.actions ∧ row.owner = scope.root) :
    ∃ row', (db.acceptRows scope plan revision).actions.get? id = some row' ∧
      row'.state = .accepted ∧ row'.toRowScope = row.toRowScope ∧
      row'.origin = row.origin ∧ row'.lead = row.lead := by
  by_cases haccepts : id ∈ plan.actions ∧ row.owner = scope.root
  · exact ⟨{ row with
      state := .accepted
      publishedRevision := some (row.publishedRevision.getD revision) },
      by simp [acceptRows, hrow, haccepts], rfl, rfl, rfl, rfl⟩
  · exact ⟨row, by simp [acceptRows, hrow, haccepts],
      hplanned.resolve_right haccepts, rfl, rfl, rfl⟩

/-- A snapshot lists only what its layer may list. -/
theorem Snapshot.listable {origin : LayerId → Prop} {given : ActionId → Prop}
    (hdb : db.WellFormed) (hscope : db.Issued scope)
    (h : Walked db scope origin given plan [])
    (hplan : Publishable db scope plan) {layer : LayerId} {id : ActionId}
    (hsnapshot : (db.acceptRows scope plan revision).Snapshot scope plan layer id) :
    (db.acceptRows scope plan revision).Listable layer id := by
  have hret := @retains_acceptRows db scope plan revision
  obtain ⟨⟨row', hrow', howner, hstate⟩, actions, hentry, hid | hinvoke⟩ :=
    hsnapshot
  · obtain ⟨row, action, hrow, hlayer, haction, hsource, htarget, hshown⟩ :=
      h.recorded hdb hentry hid
    obtain ⟨found, hfound, hkeep⟩ := hret.layers layer row hrow
    obtain rfl : row' = found := by simpa [hrow'] using hfound
    have hrowTarget : row.target = scope.target :=
      hdb.layer_target hscope hrow (hkeep.owner.symm.trans howner)
    have hrowNodes : row'.nodes = row.nodes := by
      simp only [acceptRows, Table.get?_mapRows, hrow, Option.map_some,
        Option.some.injEq] at hrow'
      rw [← hrow']
      split <;> rfl
    have hplanned : action.state = .accepted ∨
        id ∈ plan.actions ∧ action.owner = scope.root :=
      hshown.imp_right fun hauthored =>
        ⟨(h.authored layer hlayer id action hauthored).1, hauthored.2.1⟩
    obtain ⟨action', haction', hstate', hscope', horigin, -⟩ :=
      @acceptRows_action _ scope plan revision _ _
        haction hplanned
    refine ⟨row', action', hrow', hstate, haction', hstate', ?_, ?_⟩
    · rw [hscope', htarget, hkeep.scope, hrowTarget]
    · rw [hrowNodes, show action'.source = action.source from
        congrArg Prod.fst horigin]
      exact hsource
  · obtain ⟨stored, action, hstored, haction, hsource, hactionOwner, -, hactionState⟩ :=
      hinvoke
    obtain rfl : row' = stored := by simpa [hrow'] using hstored
    have hbase := (hdb.acceptRows hscope hplan revision).wellFormed
    have hissued := hret.issued hscope
    refine ⟨row', action, hrow', hstate, haction, hactionState, ?_, hsource⟩
    rw [hbase.action_target hissued haction hactionOwner,
      hbase.layer_target hissued hrow' howner]

theorem WellFormed.publish {origin : LayerId → Prop} {given : ActionId → Prop}
    (hdb : db.WellFormed) (hscope : db.Issued scope)
    (h : Walked db scope origin given plan [])
    (hplan : Publishable db scope plan)
    (hrun : db.publish scope plan revision = .ok db') : db.Sound db' := by
  have hbase := hdb.acceptRows hscope hplan revision
  obtain ⟨hgrow, -⟩ := publish_ok hrun
  exact hbase.trans (hbase.wellFormed.grow hgrow fun layer id hsnapshot =>
    hsnapshot.listable hdb hscope h hplan)

/-! ## Attached additions -/

/-- Appending one action to the layers a condition selects. -/
theorem grows_appendToLayers (id : ActionId) (selected : LayerRow → Bool) :
    Grows (fun layer action => action = id ∧ ∃ row,
      db.layers.get? layer = some row ∧ selected row = true) db
      (db.appendToLayers id selected) := by
  refine .of_mapRows fun layer row hrow => ?_
  by_cases hselected : selected row ∧ id ∉ row.actions
  · rw [if_pos hselected]
    exact ⟨[id], fun action haction =>
      ⟨List.mem_singleton.mp haction, row, hrow, hselected.1⟩, rfl⟩
  · rw [if_neg hselected]
    exact ⟨[], by simp, by simp⟩

/-- What the layers gain when additions are shown. -/
def ShownAddition (db : GraphDatabase) (ids : List ActionId)
    (layer : LayerId) (id : ActionId) : Prop :=
  id ∈ ids ∧ ∃ row action, db.layers.get? layer = some row ∧
    row.state = .accepted ∧ db.actions.get? id = some action ∧
    action.source ∈ row.nodes

theorem grows_showAddition {id : ActionId} {ids : List ActionId}
    (hid : id ∈ ids) :
    Grows (db.ShownAddition ids) db (db.showAddition id) := by
  rw [showAddition]
  split
  · exact .refl db
  · rename_i action haction
    refine (grows_appendToLayers id _).mono ?_
    rintro layer other ⟨rfl, row, hrow, hselected⟩
    obtain ⟨hsource, hstate, -⟩ := of_decide_eq_true hselected
    exact ⟨hid, row, action, hrow, hstate, haction, hsource⟩

theorem Grows.shownAddition {added : LayerId → ActionId → Prop}
    (h : Grows added db db') {ids : List ActionId} {layer : LayerId}
    {id : ActionId} (hshown : db'.ShownAddition ids layer id) :
    db.ShownAddition ids layer id := by
  obtain ⟨hid, row', action, hrow', hstate, haction, hsource⟩ := hshown
  obtain ⟨row, extra, hrow, rfl, -⟩ := h.of_get? hrow'
  exact ⟨hid, row, action, hrow, hstate, h.actions ▸ haction, hsource⟩

theorem grows_showAdditions (ids : List ActionId) :
    Grows (db.ShownAddition ids) db (ids.foldl showAddition db) := by
  have hgeneral : ∀ rest : List ActionId, (∀ id ∈ rest, id ∈ ids) →
      ∀ state, Grows (db.ShownAddition ids) db state →
        Grows (db.ShownAddition ids) db (rest.foldl showAddition state) := by
    intro rest
    induction rest with
    | nil => exact fun _ _ hstate => hstate
    | cons id rest ih =>
        intro hsub state hstate
        refine ih (fun other hother => hsub other (List.mem_cons_of_mem _ hother))
          _ (hstate.trans ?_)
        exact (grows_showAddition (hsub id List.mem_cons_self)).mono
          fun _ _ hshown => hstate.shownAddition hshown
  exact hgeneral ids (fun _ hid => hid) db (.refl db)

theorem ShownAddition.listable (hdb : db.WellFormed) {owner : NodeId}
    {layer : LayerId} {id : ActionId}
    (h : db.ShownAddition (db.acceptedAdditions owner) layer id) :
    db.Listable layer id := by
  obtain ⟨hid, row, action, hrow, hstate, haction, hsource⟩ := h
  obtain ⟨stored, hstored, -, -, haccepted⟩ := mem_acceptedAdditions.mp hid
  obtain rfl : action = stored := by simpa [haction] using hstored
  obtain ⟨node, hnode, hnodeTarget⟩ := (hdb.actions id action haction).source
  obtain ⟨node', hnode', hnodeTarget', -⟩ :=
    (hdb.layers layer row hrow).nodes _ hsource
  obtain rfl : node = node' := by simpa [hnode] using hnode'
  exact ⟨row, action, hrow, hstate, haction, haccepted,
    hnodeTarget.symm.trans hnodeTarget', hsource⟩

end GraphDatabase

end RelayerGraph
