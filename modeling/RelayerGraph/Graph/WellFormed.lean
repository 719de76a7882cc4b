import RelayerGraph.Graph.Retention

/-!
# Well-formed databases

What every row says about the rows it names.  Each condition on a row refers
to other rows only through facts which are retained, so that a step has to be
checked on the rows it writes and on no others.
-/

namespace RelayerGraph

open Foundation Checked GraphDatabase

/-! ## Conditions on rows -/

/-- The layers a completion names are accepted. -/
structure CompletionRow.Ok (db : GraphDatabase) (target : SearchTarget)
    (row : CompletionRow) : Prop where
  currentLayer : ∀ layer, row.currentLayer = some layer →
    db.AcceptedLayer target layer

structure NodeRow.Ok (db : GraphDatabase) (row : NodeRow) : Prop where
  owner : ∀ owner, row.owner = some owner →
    db.Interaction row.target owner ∧ row.completion = none
  interaction : row.owner = none →
    row.kind = "user-interaction" ∧ row.state = .accepted ∧
      row.completion.isSome
  completion : ∀ completion, row.completion = some completion →
    completion.Ok db row.target

structure LayerRow.Ok (db : GraphDatabase) (row : LayerRow) : Prop where
  owner : db.Interaction row.target row.owner
  consistent : row.Consistent
  nodes : ∀ id ∈ row.nodes, ∃ node, db.nodes.get? id = some node ∧
    node.target = row.target ∧
      (node.state = .accepted ∨ node.owner = some row.owner)
  edges : ∀ id ∈ row.edges, ∃ edge, db.edges.get? id = some edge ∧
    edge.target = row.target ∧ edge.endpoints.1 ∈ row.nodes ∧
      edge.endpoints.2 ∈ row.nodes ∧
      (edge.state = .accepted ∨ edge.owner = row.owner)
  accepted : row.state = .accepted →
    (∀ id ∈ row.nodes, db.AcceptedNode row.target id) ∧
      ∀ id ∈ row.edges, db.AcceptedEdge row.target id
  actions : ∀ id ∈ row.actions, row.state = .accepted ∧
    ∃ action, db.actions.get? id = some action ∧ action.state = .accepted ∧
      action.target = row.target ∧ action.source ∈ row.nodes

/-- Where an action may have been authored: an attached addition on an accepted
node of somebody else, the root action on the interaction, or any other action
from a layer of its own interaction. -/
structure ActionRow.Authored (db : GraphDatabase) (row : ActionRow) : Prop where
  attached : row.attached = true → row.kind = .navigate ∧
    db.AcceptedNode row.target row.source ∧ row.source ≠ row.owner
  root : row.attached = false → row.sourceLayer = none →
    row.source = row.owner ∧ row.kind = .navigate ∧
      row.relation = some .expand
  fromLayer : row.attached = false → ∀ layer, row.sourceLayer = some layer →
    row.source ≠ row.owner ∧
    (∃ stored, db.layers.get? layer = some stored ∧
      stored.owner = row.owner ∧ stored.target = row.target) ∧
    (row.state = .accepted → db.AcceptedLayer row.target layer)

structure ActionRow.Ok (db : GraphDatabase) (row : ActionRow) : Prop where
  owner : db.Interaction row.target row.owner
  source : ∃ node, db.nodes.get? row.source = some node ∧
    node.target = row.target
  state : row.state ≠ .stopped
  navigate : row.kind = .navigate → row.relation.isSome ∧ row.targetLayer.isSome
  authored : row.Authored db
  leads : row.state = .accepted → row.kind = .navigate →
    ∃ layer, row.targetLayer = some layer ∧ db.AcceptedLayer row.target layer

/-- A layer that is not accepted has no snapshot. -/
theorem LayerRow.Ok.actions_eq_nil {row : LayerRow} {db : GraphDatabase}
    (hrow : row.Ok db)
    (hstate : row.state ≠ .accepted) : row.actions = [] := by
  cases hactions : row.actions with
  | nil => rfl
  | cons id rest =>
      exact absurd (hrow.actions id (by simp [hactions])).1 hstate

/-! ## Conditions are retained -/

section Retained

variable {db db' : GraphDatabase} (hret : db.Retains db')
include hret

theorem CompletionRow.Ok.mono {row : CompletionRow} {target : SearchTarget}
    (hrow : row.Ok db target) : row.Ok db' target where
  currentLayer layer hlayer := hret.acceptedLayer (hrow.currentLayer layer hlayer)

theorem NodeRow.Ok.mono {row : NodeRow} (hrow : row.Ok db) : row.Ok db' where
  owner o ho := ⟨hret.interaction (hrow.owner o ho).1, (hrow.owner o ho).2⟩
  interaction := hrow.interaction
  completion c hc := (hrow.completion c hc).mono hret

theorem LayerRow.Ok.mono {row : LayerRow} (hrow : row.Ok db) : row.Ok db' where
  owner := hret.interaction hrow.owner
  consistent := hrow.consistent
  nodes := by
    intro id hid
    obtain ⟨node, hnode, htarget, hstate⟩ := hrow.nodes id hid
    obtain ⟨node', hnode', hkeep⟩ := hret.nodes id node hnode
    refine ⟨node', hnode', by rw [hkeep.scope, htarget], ?_⟩
    exact hstate.imp hkeep.accepted fun h => hkeep.owner.trans h
  edges := by
    intro id hid
    obtain ⟨edge, hedge, htarget, hleft, hright, hstate⟩ := hrow.edges id hid
    obtain ⟨edge', hedge', hkeep⟩ := hret.edges id edge hedge
    refine ⟨edge', hedge', by rw [hkeep.scope, htarget],
      hkeep.endpoints ▸ hleft, hkeep.endpoints ▸ hright, ?_⟩
    exact hstate.imp hkeep.accepted fun h => hkeep.owner.trans h
  accepted hstate :=
    ⟨fun id hid => hret.acceptedNode ((hrow.accepted hstate).1 id hid),
      fun id hid => hret.acceptedEdge ((hrow.accepted hstate).2 id hid)⟩
  actions := by
    intro id hid
    obtain ⟨haccepted, action, haction, hstate, htarget, hsource⟩ :=
      hrow.actions id hid
    obtain ⟨action', haction', hkeep⟩ := hret.actions id action haction
    exact ⟨haccepted, action', haction', hkeep.accepted hstate,
      by rw [hkeep.scope, htarget], (hkeep.source hstate).symm ▸ hsource⟩

theorem ActionRow.Authored.mono {row : ActionRow} (hrow : row.Authored db) :
    row.Authored db' where
  attached h :=
    ⟨(hrow.attached h).1, hret.acceptedNode (hrow.attached h).2.1,
      (hrow.attached h).2.2⟩
  root := hrow.root
  fromLayer := by
    intro hattached layer hlayer
    obtain ⟨hsource, ⟨stored, hstored, howner, htarget⟩, haccepted⟩ :=
      hrow.fromLayer hattached layer hlayer
    obtain ⟨stored', hstored', hkeep⟩ := hret.layers layer stored hstored
    exact ⟨hsource, ⟨stored', hstored', hkeep.owner.trans howner,
      by rw [hkeep.scope, htarget]⟩, fun h => hret.acceptedLayer (haccepted h)⟩

theorem ActionRow.Ok.mono {row : ActionRow} (hrow : row.Ok db) : row.Ok db' where
  owner := hret.interaction hrow.owner
  source := by
    obtain ⟨node, hnode, htarget⟩ := hrow.source
    obtain ⟨node', hnode', hkeep⟩ := hret.nodes _ node hnode
    exact ⟨node', hnode', by rw [hkeep.scope, htarget]⟩
  state := hrow.state
  navigate := hrow.navigate
  authored := hrow.authored.mono hret
  leads := by
    intro hstate hkind
    obtain ⟨layer, hlayer, haccepted⟩ := hrow.leads hstate hkind
    exact ⟨layer, hlayer, hret.acceptedLayer haccepted⟩

end Retained

/-! ## The database -/

namespace GraphDatabase

structure WellFormed (db : GraphDatabase) : Prop where
  imports : db.imports = []
  nodes : ∀ id row, db.nodes.get? id = some row → row.Ok db
  layers : ∀ id row, db.layers.get? id = some row → row.Ok db
  actions : ∀ id row, db.actions.get? id = some row → row.Ok db

/-- A step which retains what was said is checked on the rows it writes. -/
theorem WellFormed.of_retains {db db' : GraphDatabase} (h : db.WellFormed)
    (hret : db.Retains db')
    (hnodes : ∀ id row, db'.nodes.get? id = some row →
      db.nodes.get? id = some row ∨ row.Ok db')
    (hlayers : ∀ id row, db'.layers.get? id = some row →
      db.layers.get? id = some row ∨ row.Ok db')
    (hactions : ∀ id row, db'.actions.get? id = some row →
      db.actions.get? id = some row ∨ row.Ok db') : db'.WellFormed where
  imports := hret.imports.trans h.imports
  nodes id row hrow :=
    (hnodes id row hrow).elim (fun hold => (h.nodes id row hold).mono hret)
      fun hnew => hnew
  layers id row hrow :=
    (hlayers id row hrow).elim (fun hold => (h.layers id row hold).mono hret)
      fun hnew => hnew
  actions id row hrow :=
    (hactions id row hrow).elim (fun hold => (h.actions id row hold).mono hret)
      fun hnew => hnew

end GraphDatabase

end RelayerGraph
