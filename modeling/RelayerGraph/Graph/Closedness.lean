import RelayerGraph.Graph.Reachable

/-!
# The accepted graph is closed

What an accepted layer lists is accepted, and where an accepted action leads is
an accepted layer.  Reading a publication therefore never meets one of its
internal errors.
-/

namespace RelayerGraph

open Foundation Checked Worklist

namespace GraphDatabase

variable {db : GraphDatabase} {scope : InteractionScope} {host : Host}

/-- The accepted records of a database refer to accepted records only. -/
structure Closed (db : GraphDatabase) : Prop where
  nodes : ∀ layer row, db.layers.get? layer = some row → row.state = .accepted →
    ∀ id ∈ row.nodes, ∃ node, db.nodes.get? id = some node ∧
      node.state = .accepted
  edges : ∀ layer row, db.layers.get? layer = some row → row.state = .accepted →
    ∀ id ∈ row.edges, ∃ edge, db.edges.get? id = some edge ∧
      edge.state = .accepted ∧ edge.endpoints.1 ∈ row.nodes ∧
      edge.endpoints.2 ∈ row.nodes
  actions : ∀ layer row, db.layers.get? layer = some row →
    row.state = .accepted → ∀ id ∈ row.actions, ∃ action,
      db.actions.get? id = some action ∧ action.state = .accepted ∧
      action.source ∈ row.nodes
  targets : ∀ id action, db.actions.get? id = some action →
    action.state = .accepted → action.kind = .navigate →
    ∃ target row, action.targetLayer = some target ∧
      db.layers.get? target = some row ∧ row.state = .accepted

theorem WellFormed.closed (h : db.WellFormed) : db.Closed where
  nodes layer row hrow hstate id hid := by
    obtain ⟨node, hnode, -, haccepted⟩ :=
      ((h.layers layer row hrow).accepted hstate).1 id hid
    exact ⟨node, hnode, haccepted⟩
  edges layer row hrow hstate id hid := by
    have hok := h.layers layer row hrow
    obtain ⟨edge, hedge, -, hleft, hright, -⟩ := hok.edges id hid
    obtain ⟨stored, hstored, -, haccepted⟩ := (hok.accepted hstate).2 id hid
    obtain rfl : edge = stored := by simpa [hedge] using hstored
    exact ⟨edge, hedge, haccepted, hleft, hright⟩
  actions layer row hrow hstate id hid := by
    obtain ⟨-, action, haction, haccepted, -, hsource⟩ :=
      (h.layers layer row hrow).actions id hid
    exact ⟨action, haction, haccepted, hsource⟩
  targets id action haction hstate hkind := by
    obtain ⟨target, htarget, row, hrow, -, haccepted⟩ :=
      (h.actions id action haction).leads hstate hkind
    exact ⟨target, row, htarget, hrow, haccepted⟩

/-! ## Reading accepted layers -/

theorem exists_visibleNode_of_accepted {id : NodeId}
    (hnode : db.AcceptedNode scope.target id) :
    ∃ node, db.visibleNode scope id = .ok node ∧ node.state = .accepted := by
  obtain ⟨row, hrow, htarget, hstate⟩ := hnode
  refine ⟨row.record id, ?_, hstate⟩
  exact visibleNode_eq_ok_iff.mpr
    ⟨row, hrow, inScope_iff.mpr htarget, .inl hstate, rfl⟩

theorem exists_visibleEdge_of_accepted {id : EdgeId}
    (hedge : db.AcceptedEdge scope.target id) :
    ∃ edge, db.visibleEdge scope id = .ok edge ∧ edge.state = .accepted := by
  obtain ⟨row, hrow, htarget, hstate⟩ := hedge
  refine ⟨row.record id, ?_, hstate⟩
  exact visibleEdge_eq_ok_iff.mpr
    ⟨row, hrow, inScope_iff.mpr htarget, .inl hstate, rfl⟩

/-- An accepted layer of the target is always resolved. -/
theorem WellFormed.exists_resolve_eq_ok (h : db.WellFormed) {layer : LayerId}
    (hlayer : db.AcceptedLayer scope.target layer) :
    ∃ resolved, db.resolve scope layer true = .ok resolved := by
  obtain ⟨row, hrow, htarget, hstate⟩ := hlayer
  have hok := h.layers layer row hrow
  have hscope : InScope scope row.toRowScope := inScope_iff.mpr htarget
  obtain ⟨nodes, hnodes⟩ : ∃ nodes, row.nodes.mapM (fun node => do
      let record ← db.visibleNode scope node
      require (true = true → record.state = RecordState.accepted)
        (GraphError.forbidden s!"node {node} has not been accepted")
      return record) = .ok nodes := by
    refine exists_mapM_eq_ok fun node hnode => ?_
    obtain ⟨record, hrecord, haccepted⟩ := exists_visibleNode_of_accepted
      (htarget ▸ (hok.accepted hstate).1 node hnode)
    exact ⟨record, by simp [hrecord, haccepted]⟩
  obtain ⟨edges, hedges⟩ : ∃ edges, row.edges.mapM (fun edge => do
      let record ← db.visibleEdge scope edge
      require (true = true → record.state = RecordState.accepted)
        (GraphError.forbidden s!"edge {edge} has not been accepted")
      return record) = .ok edges := by
    refine exists_mapM_eq_ok fun edge hedge => ?_
    obtain ⟨record, hrecord, haccepted⟩ := exists_visibleEdge_of_accepted
      (htarget ▸ (hok.accepted hstate).2 edge hedge)
    exact ⟨record, by simp [hrecord, haccepted]⟩
  obtain ⟨actions, hactions⟩ : ∃ actions,
      db.layerActions scope layer row nodes true = .ok actions := by
    rw [layerActions, if_pos hstate]
    refine exists_mapM_eq_ok fun id hid => ?_
    obtain ⟨-, action, haction, -, hactionTarget, -⟩ := hok.actions id hid
    refine ⟨db.actionRecord id action, orThrow_eq_ok_iff.mpr ?_⟩
    exact action_eq_some_iff.mpr ⟨action, haction,
      inScope_iff.mpr (hactionTarget.trans htarget), rfl⟩
  refine ⟨{ layer := row.record layer, nodes, edges, actions }, ?_⟩
  refine bind_eq_ok_iff.mpr
    ⟨row, visibleLayer_of_accepted hrow hscope hok.consistent hstate, ?_⟩
  refine bind_eq_ok_iff.mpr ⟨(), require_eq_ok_iff.mpr fun _ => hstate, ?_⟩
  refine bind_eq_ok_iff.mpr ⟨nodes, hnodes, ?_⟩
  refine bind_eq_ok_iff.mpr ⟨edges, hedges, ?_⟩
  exact bind_eq_ok_iff.mpr ⟨actions, hactions, rfl⟩

/-- The actions of a resolved accepted layer are accepted, and its navigate
actions lead to accepted layers of the target. -/
theorem WellFormed.resolved_actions (h : db.WellFormed) {layer : LayerId}
    {resolved : ResolvedLayer}
    (hread : db.resolve scope layer true = .ok resolved) :
    ∀ action ∈ resolved.actions, action.state = .accepted ∧
      (action.kind = .navigate → ∃ target, action.targetLayerId = some target ∧
        db.AcceptedLayer scope.target target) := by
  intro action haction
  obtain ⟨row, hresolved, hstate⟩ := resolve_eq_ok hread
  obtain ⟨id, hid, hrecord⟩ := exists_of_mem_mapM
    (mapM_eq_ok_iff.mpr ((hresolved.snapshot (hstate rfl)).imp fun id record h =>
      orThrow_eq_ok_iff.mpr h)) (f := fun id =>
        orThrow (db.action scope id) (GraphError.internal "")) haction
  obtain ⟨stored, hstored, hin, rfl⟩ :=
    action_eq_some_iff.mp (orThrow_eq_ok_iff.mp hrecord)
  obtain ⟨-, listed, hlisted, haccepted, -, -⟩ :=
    (h.layers layer row hresolved.stored).actions id hid
  obtain rfl : stored = listed := by simpa [hstored] using hlisted
  refine ⟨haccepted, fun hkind => ?_⟩
  obtain ⟨target, htarget, hlayer⟩ :=
    (h.actions id stored hstored).leads haccepted hkind
  exact ⟨target, htarget, inScope_iff.mp hin ▸ hlayer⟩

/-! ## Reading a publication -/

/-- How many layers have not been seen yet. -/
def unvisited (db : GraphDatabase) (visited : List LayerId) : ℕ :=
  ((db.layers.entries.map Prod.fst).filter (· ∉ visited)).length

/-- Seeing a stored layer for the first time pays for its place in the queue. -/
theorem unvisited_cons_lt {visited : List LayerId} {layer : LayerId}
    {row : LayerRow} (hrow : db.layers.get? layer = some row)
    (hnew : layer ∉ visited) :
    db.unvisited (layer :: visited) < db.unvisited visited := by
  have hsplit : (db.layers.entries.map Prod.fst).filter (· ∉ layer :: visited) =
      ((db.layers.entries.map Prod.fst).filter (· ∉ visited)).filter
        (· ≠ layer) := by
    rw [List.filter_filter]
    refine List.filter_congr fun other _ => ?_
    simp [not_or]
  rw [unvisited, unvisited, hsplit]
  refine List.length_filter_lt_length_iff_exists.mpr ⟨layer, ?_, by simp⟩
  refine List.mem_filter.mpr ⟨?_, by simpa using hnew⟩
  exact List.mem_map.mpr ⟨(layer, row), Table.mem_entries.mpr hrow, rfl⟩

/-- One layer of a publication: nothing it lists stops the reading. -/
theorem WellFormed.exists_readLayer (h : db.WellFormed) (read : ClosureRead)
    {layer : ResolvedLayer}
    (hlayer : ∃ id, db.resolve scope id true = .ok layer) :
    ∃ next more, db.readLayer scope read layer = .ok (.proceed next more) ∧
      (∀ found ∈ more, ∃ id, db.resolve scope id true = .ok found) ∧
      db.unvisited next.visited + more.length ≤ db.unvisited read.visited := by
  obtain ⟨id, hread⟩ := hlayer
  have hactions := h.resolved_actions hread
  obtain ⟨⟨visited, found⟩, hfold, hfound, hpaid⟩ : ∃ final,
      layer.actions.foldlM (db.followAction scope layer.layer.id)
        (read.visited, []) = .ok final ∧
      (∀ found ∈ final.2, ∃ id, db.resolve scope id true = .ok found) ∧
        db.unvisited final.1 + final.2.length ≤ db.unvisited read.visited := by
    refine exists_foldlM_eq_ok
      (P := fun state : List LayerId × List ResolvedLayer =>
        (∀ found ∈ state.2, ∃ id, db.resolve scope id true = .ok found) ∧
          db.unvisited state.1 + state.2.length ≤ db.unvisited read.visited)
      ?_ ⟨by simp, by simp⟩
    rintro ⟨visited, found⟩ action haction ⟨hfound, hpaid⟩
    obtain ⟨hstate, hleads⟩ := hactions action haction
    by_cases hkind : action.kind = .navigate
    · obtain ⟨target, htarget, haccepted⟩ := hleads hkind
      by_cases hseen : target ∈ visited
      · exact ⟨(visited, found),
          by simp [followAction, hstate, hkind, htarget, hseen], hfound, hpaid⟩
      · obtain ⟨resolved, hresolved⟩ := h.exists_resolve_eq_ok haccepted
        obtain ⟨row, hrow, -⟩ := haccepted
        refine ⟨(target :: visited, found ++ [resolved]),
          by simp [followAction, hstate, hkind, htarget, hseen, hresolved], ?_, ?_⟩
        · intro other hother
          rcases List.mem_append.mp hother with hold | hnew
          · exact hfound other hold
          · exact ⟨target, List.mem_singleton.mp hnew ▸ hresolved⟩
        · have hless := unvisited_cons_lt hrow hseen
          simp only [List.length_append, List.length_singleton] at hpaid ⊢
          omega
    · exact ⟨(visited, found), by simp [followAction, hstate, hkind], hfound,
        hpaid⟩
  refine ⟨{ visited, layers := read.layers ++ [layer] }, found, ?_, hfound, hpaid⟩
  simp [readLayer, hfold]

/-- The publication of an accepted layer is always read. -/
theorem WellFormed.exists_readAcceptedPublication (h : db.WellFormed)
    {layer : LayerId} {root : NodeRow}
    (hlayer : db.AcceptedLayer scope.target layer)
    (hroot : db.nodes.get? scope.root = some root)
    (rootAction : Option GraphAction) :
    ∃ publication,
      db.readAcceptedPublication scope layer rootAction = .ok publication := by
  obtain ⟨resolved, hresolved⟩ := h.exists_resolve_eq_ok hlayer
  have hbound : db.unvisited [layer] + 1 ≤ db.layers.entries.length + 1 := by
    have hle := List.length_filter_le (fun id => decide (id ∉ [layer]))
      (db.layers.entries.map Prod.fst)
    rw [List.length_map] at hle
    exact Nat.succ_le_succ hle
  have hpays : ∀ (read : ClosureRead) (item : ResolvedLayer)
      (rest : List ResolvedLayer),
      (∀ found ∈ item :: rest, ∃ id, db.resolve scope id true = .ok found) →
      (∃ result, db.readLayer scope read item = .ok (.stop result)) ∨
        ∃ next more, db.readLayer scope read item = .ok (.proceed next more) ∧
          (∀ found ∈ rest ++ more, ∃ id, db.resolve scope id true = .ok found) ∧
          db.unvisited next.visited + more.length ≤ db.unvisited read.visited := by
    intro read item rest hpending
    obtain ⟨next, more, hturn, hmore, hpaid⟩ :=
      h.exists_readLayer read (hpending item List.mem_cons_self)
    refine .inr ⟨next, more, hturn, ?_, hpaid⟩
    intro found hfound
    rcases List.mem_append.mp hfound with hold | hnew
    · exact hpending found (List.mem_cons_of_mem _ hold)
    · exact hmore found hnew
  have hstart : ∀ found ∈ [resolved],
      ∃ id, db.resolve scope id true = .ok found := by
    intro found hfound
    exact ⟨layer, List.mem_singleton.mp hfound ▸ hresolved⟩
  obtain ⟨layers, hlayers⟩ : ∃ layers,
      drain (db.readLayer scope) (fun read => read.layers)
        (GraphError.internal "publication exhausted")
        (db.layers.entries.length + 1) { visited := [layer], layers := [] }
        [resolved] = .ok layers :=
    exists_drain_eq_ok (P := fun _ pending => ∀ found ∈ pending,
      ∃ id, db.resolve scope id true = .ok found) hpays hstart hbound
  simp [readAcceptedPublication, hresolved, hlayers, hroot]

/-! ## Reachable databases -/

/-- A completion belongs to an interaction, so that it has a scope. -/
theorem WellFormed.exists_interactionScope (h : db.WellFormed)
    {interaction : NodeId} {row : CompletionRow}
    (hrow : db.completion? interaction = some row) :
    ∃ scope, db.interactionScope interaction = .ok scope := by
  obtain ⟨node, hnode, hcompletion⟩ := completion?_eq_some_iff.mp hrow
  have hok := h.nodes interaction node hnode
  have howner : node.owner = none := by
    cases howner : node.owner with
    | none => rfl
    | some owner => simp [(hok.owner owner howner).2] at hcompletion
  obtain ⟨hkind, hstate, -⟩ := hok.interaction howner
  exact ⟨_, by simp [interactionScope, hnode, hkind, hstate, howner]; rfl⟩

/-- In every reachable database the accepted graph is closed, and the
publication of every completion with a current layer is read without an error,
in the scope of its interaction under every authority. -/
theorem acceptedGraph_closed (host : Host) (db : GraphDatabase)
    (hreach : (native host).Reachable db) :
    db.Closed ∧ ∀ interaction row layer,
      db.completion? interaction = some row → row.currentLayer = some layer →
      ∃ scope, db.interactionScope interaction = .ok scope ∧
        ∀ epoch rootAction, ∃ publication,
          db.readAcceptedPublication { scope with authorityEpoch := epoch }
            layer rootAction = .ok publication := by
  have h := wellFormed_of_reachable hreach
  refine ⟨h.closed, ?_⟩
  intro interaction row layer hrow hlayer
  obtain ⟨scope, hscope⟩ := h.exists_interactionScope hrow
  obtain ⟨hissued, rfl⟩ := issued_of_interactionScope hscope
  refine ⟨scope, hscope, fun epoch rootAction => ?_⟩
  have haccepted := h.currentLayer hissued hrow hlayer
  obtain ⟨root, hroot, -⟩ := hissued
  exact h.exists_readAcceptedPublication haccepted hroot rootAction

/-- The sample conversation is closed, and its publication is read. -/
theorem acceptedGraph_closed_sample :
    Sample.database.Closed ∧ ∃ publication,
      Sample.database.readAcceptedPublication
        ⟨Sample.thread, ⟨1⟩, false, none⟩ ⟨1⟩ none = .ok publication := by
  obtain ⟨hclosed, hread⟩ := acceptedGraph_closed Sample.host Sample.database
    Sample.reachable_database
  have hcurrent : (Sample.database.completion? ⟨1⟩).bind (·.currentLayer) =
      some ⟨1⟩ := by decide
  obtain ⟨row, hrow, hlayer⟩ := Option.bind_eq_some_iff.mp hcurrent
  obtain ⟨scope, hscope, hpublication⟩ := hread ⟨1⟩ row ⟨1⟩ hrow hlayer
  have hstored : Sample.database.interactionScope ⟨1⟩ =
      .ok ⟨Sample.thread, ⟨1⟩, false, none⟩ := by decide
  obtain rfl := Except.ok.inj (hscope.symm.trans hstored)
  exact ⟨hclosed, hpublication none none⟩

end GraphDatabase

end RelayerGraph
