import RelayerGraph.Graph.Navigation

/-!
# What the reads return

One lemma for each statement of the storage layer, in terms of the rows, so
that no later proof unfolds a read.
-/

namespace RelayerGraph

open Foundation Checked

variable {db : GraphDatabase} {scope : InteractionScope}

/-! ## Rows as records -/

@[simp]
theorem NodeRow.record_id (id : NodeId) (row : NodeRow) :
    (row.record id).id = id := rfl

@[simp]
theorem NodeRow.record_state (id : NodeId) (row : NodeRow) :
    (row.record id).state = row.state := rfl

@[simp]
theorem EdgeRow.record_id (id : EdgeId) (row : EdgeRow) :
    (row.record id).id = id := rfl

@[simp]
theorem EdgeRow.record_endpoints (id : EdgeId) (row : EdgeRow) :
    (row.record id).endpoints = row.endpoints := rfl

@[simp]
theorem EdgeRow.record_state (id : EdgeId) (row : EdgeRow) :
    (row.record id).state = row.state := rfl

@[simp]
theorem LayerRow.record_id (id : LayerId) (row : LayerRow) :
    (row.record id).id = id := rfl

/-- The stored default node and layout fit the membership of the layer. -/
def LayerRow.Consistent (row : LayerRow) : Prop :=
  (∀ node, row.defaultNode = some node → node ∈ row.nodes) ∧
    ∀ layout, row.layout = some layout →
      validateAuthoredLayout (some layout) row.nodes row.edges = .ok ()

namespace GraphDatabase

@[simp]
theorem actionRecord_id (id : ActionId) (row : ActionRow) :
    (db.actionRecord id row).id = id := rfl

@[simp]
theorem actionRecord_state (id : ActionId) (row : ActionRow) :
    (db.actionRecord id row).state = row.state := rfl

@[simp]
theorem actionRecord_kind (id : ActionId) (row : ActionRow) :
    (db.actionRecord id row).kind = row.kind := rfl

@[simp]
theorem actionRecord_relation (id : ActionId) (row : ActionRow) :
    (db.actionRecord id row).relation = row.relation := rfl

@[simp]
theorem actionRecord_sourceNodeId (id : ActionId) (row : ActionRow) :
    (db.actionRecord id row).sourceNodeId = row.source := rfl

@[simp]
theorem actionRecord_sourceLayerId (id : ActionId) (row : ActionRow) :
    (db.actionRecord id row).sourceLayerId = row.sourceLayer := rfl

@[simp]
theorem actionRecord_targetLayerId (id : ActionId) (row : ActionRow) :
    (db.actionRecord id row).targetLayerId = row.targetLayer := rfl

@[simp]
theorem actionRecord_inputActionIds (id : ActionId) (row : ActionRow) :
    (db.actionRecord id row).inputActionIds = row.inputs := rfl

/-! ## Single records -/

theorem visibleNode_eq_ok_iff {id : NodeId} {node : GraphNode} :
    db.visibleNode scope id = .ok node ↔
      ∃ row, db.nodes.get? id = some row ∧ InScope scope row.toRowScope ∧
        (row.state = .accepted ∨
          row.state = .draft ∧ row.owner = some scope.root) ∧
        row.record id = node := by
  rw [visibleNode]
  cases hrow : db.nodes.get? id with
  | none => simp
  | some row =>
      by_cases hvisible : InScope scope row.toRowScope ∧
          (row.state = .accepted ∨
            row.state = .draft ∧ row.owner = some scope.root)
      · simp [hvisible]
      · simp only [if_neg hvisible, Option.some.injEq, reduceCtorEq, false_iff]
        rintro ⟨_, rfl, hscope, hstate, -⟩
        exact hvisible ⟨hscope, hstate⟩

theorem visibleEdge_eq_ok_iff {id : EdgeId} {edge : GraphEdge} :
    db.visibleEdge scope id = .ok edge ↔
      ∃ row, db.edges.get? id = some row ∧ InScope scope row.toRowScope ∧
        (row.state = .accepted ∨ row.state = .draft ∧ row.owner = scope.root) ∧
        row.record id = edge := by
  rw [visibleEdge]
  cases hrow : db.edges.get? id with
  | none => simp
  | some row =>
      by_cases hscope : InScope scope row.toRowScope
      · by_cases hstate : row.state = .accepted ∨
            row.state = .draft ∧ row.owner = scope.root
        · simp [hscope, hstate]
        · simp only [hscope, not_true_eq_false, if_false, if_neg hstate,
            Option.some.injEq, reduceCtorEq, false_iff]
          rintro ⟨_, rfl, -, h, -⟩
          exact hstate h
      · simp [hscope]

theorem layerRecord_eq_some {id : LayerId} {row : LayerRow}
    (hread : db.layerRecord scope id = .ok (some row)) :
    db.layers.get? id = some row ∧ InScope scope row.toRowScope := by
  rw [layerRecord] at hread
  split at hread
  · simp at hread
  · rename_i stored hstored
    split at hread
    · simp at hread
    · rename_i hscope
      have hsame : stored = row := by
        split at hread
        · cases hread
        · split at hread
          · simpa using hread
          · split at hread
            · simpa using hread
            · cases hread
      subst hsame
      exact ⟨hstored, not_not.mp hscope⟩

/-- A consistent layer of the scope is read without an error. -/
theorem layerRecord_of_consistent {id : LayerId} {row : LayerRow}
    (hstored : db.layers.get? id = some row)
    (hscope : InScope scope row.toRowScope) (hrow : row.Consistent) :
    db.layerRecord scope id = .ok (some row) := by
  have hdefault :
      (row.defaultNode.any fun node => !row.nodes.contains node) = false := by
    cases hnode : row.defaultNode with
    | none => rfl
    | some node => simpa using hrow.1 node hnode
  simp only [layerRecord, hstored, hscope, not_true_eq_false, if_false,
    hdefault, Bool.false_eq_true]
  cases hlayout : row.layout with
  | none => rfl
  | some layout => simp [hrow.2 layout hlayout]

theorem visibleLayer_eq_ok {id : LayerId} {row : LayerRow}
    (hread : db.visibleLayer scope id = .ok row) :
    db.layers.get? id = some row ∧ InScope scope row.toRowScope ∧
      (row.state = .accepted ∨ row.owner = scope.root) := by
  rw [visibleLayer, bind_eq_ok_iff] at hread
  obtain ⟨found, hfound, hrest⟩ := hread
  cases found with
  | none => simp at hrest
  | some stored =>
      simp only [bind_eq_ok_iff, require_eq_ok_iff, pure_eq_ok_iff] at hrest
      obtain ⟨-, hvisible, rfl⟩ := hrest
      obtain ⟨hstored, hscope⟩ := layerRecord_eq_some hfound
      exact ⟨hstored, hscope, hvisible⟩

theorem visibleLayer_of_accepted {id : LayerId} {row : LayerRow}
    (hstored : db.layers.get? id = some row)
    (hscope : InScope scope row.toRowScope) (hrow : row.Consistent)
    (hstate : row.state = .accepted) :
    db.visibleLayer scope id = .ok row := by
  simp [visibleLayer, layerRecord_of_consistent hstored hscope hrow, hstate]

theorem action_eq_some_iff {id : ActionId} {action : GraphAction} :
    db.action scope id = some action ↔
      ∃ row, db.actions.get? id = some row ∧ InScope scope row.toRowScope ∧
        db.actionRecord id row = action := by
  simp only [GraphDatabase.action, Option.bind_eq_some_iff]
  constructor
  · rintro ⟨row, hrow, haction⟩
    split at haction
    · exact ⟨row, hrow, ‹_›, Option.some.inj haction⟩
    · cases haction
  · rintro ⟨row, hrow, hscope, rfl⟩
    exact ⟨row, hrow, by rw [if_pos hscope]⟩

/-! ## Selections of actions -/

theorem mem_actionsWhere {p : ActionRow → Bool} {action : GraphAction} :
    action ∈ db.actionsWhere p ↔
      ∃ id row, db.actions.get? id = some row ∧ p row = true ∧
        db.actionRecord id row = action := by
  simp only [actionsWhere, List.mem_filterMap, Table.mem_select,
    Option.map_eq_some_iff]
  constructor
  · rintro ⟨id, ⟨row, hrow, hp⟩, _, hsame, haction⟩
    rw [hrow, Option.some.injEq] at hsame
    subst hsame
    exact ⟨id, row, hrow, hp, haction⟩
  · rintro ⟨id, row, hrow, hp, haction⟩
    exact ⟨id, ⟨row, hrow, hp⟩, row, hrow, haction⟩

/-- What an interaction authored from a layer. -/
def AuthoredFrom (db : GraphDatabase) (scope : InteractionScope)
    (layer : LayerId) (id : ActionId) (row : ActionRow) : Prop :=
  db.actions.get? id = some row ∧ row.owner = scope.root ∧
    row.sourceLayer = some layer ∧ row.attached = false ∧
    InScope scope row.toRowScope

theorem mem_actionsFromLayer {layer : LayerId} {action : GraphAction} :
    action ∈ db.actionsFromLayer scope layer ↔
      ∃ id row, db.AuthoredFrom scope layer id row ∧
        db.actionRecord id row = action := by
  simp only [actionsFromLayer, mem_actionsWhere, AuthoredFrom,
    decide_eq_true_eq]
  constructor
  · rintro ⟨id, row, hrow, h, haction⟩
    exact ⟨id, row, ⟨hrow, h⟩, haction⟩
  · rintro ⟨id, row, ⟨hrow, h⟩, haction⟩
    exact ⟨id, row, hrow, h, haction⟩

theorem mem_actionsOfSource {source : NodeId} {acceptedOnly : Bool}
    {action : GraphAction} :
    action ∈ db.actionsOfSource scope source acceptedOnly ↔
      ∃ id row, db.actions.get? id = some row ∧ row.source = source ∧
        (row.state = .accepted ∨
          acceptedOnly = false ∧ row.owner = scope.root) ∧
        InScope scope row.toRowScope ∧ db.actionRecord id row = action := by
  simp only [actionsOfSource, mem_actionsWhere, decide_eq_true_eq]
  constructor
  · rintro ⟨id, row, hrow, ⟨hsource, hstate, hscope⟩, haction⟩
    exact ⟨id, row, hrow, hsource, hstate, hscope, haction⟩
  · rintro ⟨id, row, hrow, hsource, hstate, hscope, haction⟩
    exact ⟨id, row, hrow, ⟨hsource, hstate, hscope⟩, haction⟩

theorem mem_draftAdditions {owner : NodeId} {id : ActionId} :
    id ∈ db.draftAdditions owner ↔
      ∃ row, db.actions.get? id = some row ∧ row.attached = true ∧
        row.owner = owner ∧ row.state = .draft := by
  simp [draftAdditions]

theorem mem_acceptedAdditions {owner : NodeId} {id : ActionId} :
    id ∈ db.acceptedAdditions owner ↔
      ∃ row, db.actions.get? id = some row ∧ row.attached = true ∧
        row.owner = owner ∧ row.state = .accepted := by
  simp [acceptedAdditions]

theorem mem_draftLayers {owner : NodeId} {id : LayerId} :
    id ∈ db.draftLayers owner ↔
      ∃ row, db.layers.get? id = some row ∧ row.owner = owner ∧
        row.state = .draft := by
  simp [draftLayers]

/-! ## Layers with their records -/

/-- A layer without a snapshot shows an action of its interaction when the
action is accepted, or was authored from the layer on a node that is a draft. -/
def Shows (db : GraphDatabase) (scope : InteractionScope) (layer : LayerId)
    (nodes : List NodeId) (row : ActionRow) : Prop :=
  row.source ∈ nodes ∧ InScope scope row.toRowScope ∧
    (row.state = .accepted ∨
      row.owner = scope.root ∧ row.sourceLayer = some layer ∧
        ∃ node, db.nodes.get? row.source = some node ∧ node.state = .draft)

/-- What a resolved layer holds, in terms of the rows. -/
structure Resolved (db : GraphDatabase) (scope : InteractionScope)
    (id : LayerId) (row : LayerRow) (resolved : ResolvedLayer) : Prop where
  stored : db.layers.get? id = some row
  inScope : InScope scope row.toRowScope
  visible : row.state = .accepted ∨ row.owner = scope.root
  layer : resolved.layer = row.record id
  nodes : List.Forall₂ (fun node record =>
    db.visibleNode scope node = .ok record) row.nodes resolved.nodes
  edges : List.Forall₂ (fun edge record =>
    db.visibleEdge scope edge = .ok record) row.edges resolved.edges
  snapshot : row.state = .accepted →
    List.Forall₂ (fun action record => db.action scope action = some record)
      row.actions resolved.actions
  shown : row.state ≠ .accepted → ∀ action, action ∈ resolved.actions →
    ∃ id' stored, db.actions.get? id' = some stored ∧
      db.Shows scope id row.nodes stored ∧
      db.actionRecord id' stored = action
  shows : row.state ≠ .accepted → ∀ id' stored,
    db.actions.get? id' = some stored → db.Shows scope id row.nodes stored →
      db.actionRecord id' stored ∈ resolved.actions

theorem layerActions_eq_ok {id : LayerId} {row : LayerRow}
    {nodes : List GraphNode} {acceptedOnly : Bool} {actions : List GraphAction}
    (hnodes : ∀ node ∈ nodes, ∃ stored, db.nodes.get? node.id = some stored ∧
      stored.state = node.state)
    (hmembers : ∀ node ∈ row.nodes, ∃ member ∈ nodes, member.id = node)
    (hread : db.layerActions scope id row nodes acceptedOnly = .ok actions)
    (hstate : row.state ≠ .accepted) :
    (∀ action ∈ actions, ∃ id' stored, db.actions.get? id' = some stored ∧
      db.Shows scope id row.nodes stored ∧
      db.actionRecord id' stored = action) ∧
    (acceptedOnly = false → ∀ id' stored, db.actions.get? id' = some stored →
      db.Shows scope id row.nodes stored →
      db.actionRecord id' stored ∈ actions) := by
  rw [layerActions, if_neg hstate, Except.ok.injEq] at hread
  subst hread
  constructor
  · intro action haction
    obtain ⟨node, hnode, haction⟩ := List.mem_flatMap.mp haction
    obtain ⟨hsource, hshown⟩ := List.mem_filter.mp haction
    obtain ⟨id', stored, hstored, rfl, howned, hscope, rfl⟩ :=
      mem_actionsOfSource.mp hsource
    refine ⟨id', stored, hstored, ⟨hnode, hscope, ?_⟩, rfl⟩
    rcases of_decide_eq_true hshown with haccepted | ⟨hlayer, member, hmember, hsame, hdraft⟩
    · exact .inl haccepted
    · rcases howned with haccepted | ⟨-, howner⟩
      · exact .inl haccepted
      · obtain ⟨node, hnode, hnodeState⟩ := hnodes member hmember
        refine .inr ⟨howner, hlayer, node, ?_, hnodeState.trans hdraft⟩
        simpa [hsame] using hnode
  · rintro hall id' stored hstored ⟨hnode, hscope, hshown⟩
    refine List.mem_flatMap.mpr ⟨stored.source, hnode, List.mem_filter.mpr ⟨?_, ?_⟩⟩
    · refine mem_actionsOfSource.mpr ⟨id', stored, hstored, rfl, ?_, hscope, rfl⟩
      rcases hshown with haccepted | ⟨howner, -, -⟩
      · exact .inl haccepted
      · exact .inr ⟨hall, howner⟩
    · refine decide_eq_true ?_
      rcases hshown with haccepted | ⟨-, hlayer, node, hsource, hdraft⟩
      · exact .inl haccepted
      · obtain ⟨member, hmember, hsame⟩ := hmembers _ hnode
        obtain ⟨found, hfound, hfoundState⟩ := hnodes member hmember
        rw [hsame, hsource, Option.some.injEq] at hfound
        subst hfound
        exact .inr ⟨hlayer, member, hmember, hsame, hfoundState.symm.trans hdraft⟩

/-- A resolved layer holds the records of the rows, and of an accepted layer
only accepted ones when only those are asked for. -/
theorem resolve_eq_ok {id : LayerId} {acceptedOnly : Bool}
    {resolved : ResolvedLayer}
    (hread : db.resolve scope id acceptedOnly = .ok resolved) :
    ∃ row, db.Resolved scope id row resolved ∧
      (acceptedOnly = true → row.state = .accepted) := by
  simp only [resolve, bind_eq_ok_iff, require_eq_ok_iff, pure_eq_ok_iff]
    at hread
  obtain ⟨row, hrow, -, haccepted, nodes, hnodes, edges, hedges, actions,
    hactions, rfl⟩ := hread
  obtain ⟨hstored, hscope, hvisible⟩ := visibleLayer_eq_ok hrow
  have hnodeRecords : List.Forall₂ (fun node record =>
      db.visibleNode scope node = .ok record) row.nodes nodes := by
    refine (mapM_eq_ok_iff.mp hnodes).imp fun node record h => ?_
    simp only [bind_eq_ok_iff, require_eq_ok_iff, pure_eq_ok_iff] at h
    obtain ⟨found, hfound, -, -, rfl⟩ := h
    exact hfound
  have hedgeRecords : List.Forall₂ (fun edge record =>
      db.visibleEdge scope edge = .ok record) row.edges edges := by
    refine (mapM_eq_ok_iff.mp hedges).imp fun edge record h => ?_
    simp only [bind_eq_ok_iff, require_eq_ok_iff, pure_eq_ok_iff] at h
    obtain ⟨found, hfound, -, -, rfl⟩ := h
    exact hfound
  have hread := mapM_eq_ok_iff.mpr hnodeRecords
  have hrows : ∀ node ∈ nodes, ∃ stored,
      db.nodes.get? node.id = some stored ∧ stored.state = node.state := by
    intro node hnode
    obtain ⟨key, -, hkey⟩ := exists_of_mem_mapM hread hnode
    obtain ⟨stored, hstored, -, -, rfl⟩ := visibleNode_eq_ok_iff.mp hkey
    exact ⟨stored, hstored, rfl⟩
  have hmembers : ∀ node ∈ row.nodes, ∃ member ∈ nodes, member.id = node := by
    intro node hnode
    obtain ⟨member, hmember, hkey⟩ := exists_mem_of_mapM hread hnode
    obtain ⟨stored, -, -, -, rfl⟩ := visibleNode_eq_ok_iff.mp hkey
    exact ⟨_, hmember, rfl⟩
  refine ⟨row, ⟨hstored, hscope, hvisible, rfl, hnodeRecords, hedgeRecords,
    ?_, ?_, ?_⟩, haccepted⟩
  · intro hstate
    rw [layerActions, if_pos hstate] at hactions
    refine (mapM_eq_ok_iff.mp hactions).imp fun action record h => ?_
    exact orThrow_eq_ok_iff.mp h
  · intro hstate
    exact (layerActions_eq_ok hrows hmembers hactions hstate).1
  · intro hstate
    have hall : acceptedOnly = false := by
      by_contra h
      exact hstate (haccepted (by simpa using h))
    exact (layerActions_eq_ok hrows hmembers hactions hstate).2 hall

variable {id : LayerId} {row : LayerRow} {resolved : ResolvedLayer}

theorem Resolved.map_nodes (h : db.Resolved scope id row resolved) :
    resolved.nodes.map (·.id) = row.nodes := by
  have hview : ∀ (node : NodeId) (record : GraphNode),
      db.visibleNode scope node = .ok record → record.id = node := by
    intro node record hnode
    obtain ⟨_, -, -, -, rfl⟩ := visibleNode_eq_ok_iff.mp hnode
    rfl
  have hids := @map_eq_of_mapM _ _ _ _ _ _ _ _ (fun node => node) hview
    (mapM_eq_ok_iff.mpr h.nodes)
  rwa [List.map_id'] at hids

theorem Resolved.map_edges (h : db.Resolved scope id row resolved) :
    resolved.edges.map (·.id) = row.edges := by
  have hview : ∀ (edge : EdgeId) (record : GraphEdge),
      db.visibleEdge scope edge = .ok record → record.id = edge := by
    intro edge record hedge
    obtain ⟨_, -, -, -, rfl⟩ := visibleEdge_eq_ok_iff.mp hedge
    rfl
  have hids := @map_eq_of_mapM _ _ _ _ _ _ _ _ (fun edge => edge) hview
    (mapM_eq_ok_iff.mpr h.edges)
  rwa [List.map_id'] at hids

end GraphDatabase

end RelayerGraph
