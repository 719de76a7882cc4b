import RelayerGraph.Graph.Reading
import RelayerGraph.Graph.System

/-!
# What every operation retains

Rows are never deleted, and what a row says once it is accepted stays: an
accepted layer keeps its membership and only gains actions, and an accepted
navigate action keeps its target.  Everything which refers to accepted records
survives every operation for this one reason.
-/

namespace RelayerGraph

open Foundation Checked

/-! ## Single rows -/

structure NodeRow.Retains (row row' : NodeRow) : Prop where
  scope : row'.toRowScope = row.toRowScope
  owner : row'.owner = row.owner
  kind : row.owner = none → row'.kind = row.kind
  accepted : row.state = .accepted → row'.state = .accepted
  initialized : row'.completion.isSome = row.completion.isSome

structure EdgeRow.Retains (row row' : EdgeRow) : Prop where
  scope : row'.toRowScope = row.toRowScope
  endpoints : row'.endpoints = row.endpoints
  owner : row'.owner = row.owner
  accepted : row.state = .accepted → row'.state = .accepted

/-- The membership and the presentation of a layer. -/
def LayerRow.content (row : LayerRow) :
    List NodeId × List EdgeId × Option LayerLayout × Option NodeId ×
      Option String :=
  (row.nodes, row.edges, row.layout, row.defaultNode, row.renderer)

structure LayerRow.Retains (row row' : LayerRow) : Prop where
  scope : row'.toRowScope = row.toRowScope
  owner : row'.owner = row.owner
  accepted : row.state = .accepted → row'.state = .accepted
  content : row.state = .accepted → row'.content = row.content
  actions : ∀ id ∈ row.actions, id ∈ row'.actions

/-- Where an action was authored. -/
def ActionRow.origin (row : ActionRow) : NodeId × Option LayerId × Bool :=
  (row.source, row.sourceLayer, row.attached)

/-- Where an action leads. -/
def ActionRow.lead (row : ActionRow) :
    ActionKind × Option NavigateRelation × Option LayerId :=
  (row.kind, row.relation, row.targetLayer)

structure ActionRow.Retains (row row' : ActionRow) : Prop where
  scope : row'.toRowScope = row.toRowScope
  owner : row'.owner = row.owner
  accepted : row.state = .accepted → row'.state = .accepted
  origin : row.state = .accepted → row'.origin = row.origin
  lead : row.state = .accepted → row.kind = .navigate → row'.lead = row.lead
  inputs : row.state = .accepted → row'.inputs = row.inputs

namespace NodeRow.Retains

theorem refl (row : NodeRow) : row.Retains row :=
  ⟨rfl, rfl, fun _ => rfl, id, rfl⟩

theorem trans {a b c : NodeRow} (hab : a.Retains b) (hbc : b.Retains c) :
    a.Retains c where
  scope := hbc.scope.trans hab.scope
  owner := hbc.owner.trans hab.owner
  kind h := (hbc.kind (hab.owner.trans h)).trans (hab.kind h)
  accepted h := hbc.accepted (hab.accepted h)
  initialized := hbc.initialized.trans hab.initialized

end NodeRow.Retains

namespace EdgeRow.Retains

theorem refl (row : EdgeRow) : row.Retains row := ⟨rfl, rfl, rfl, id⟩

theorem trans {a b c : EdgeRow} (hab : a.Retains b) (hbc : b.Retains c) :
    a.Retains c where
  scope := hbc.scope.trans hab.scope
  endpoints := hbc.endpoints.trans hab.endpoints
  owner := hbc.owner.trans hab.owner
  accepted h := hbc.accepted (hab.accepted h)

end EdgeRow.Retains

namespace LayerRow.Retains

theorem refl (row : LayerRow) : row.Retains row :=
  ⟨rfl, rfl, id, fun _ => rfl, fun _ h => h⟩

theorem trans {a b c : LayerRow} (hab : a.Retains b) (hbc : b.Retains c) :
    a.Retains c where
  scope := hbc.scope.trans hab.scope
  owner := hbc.owner.trans hab.owner
  accepted h := hbc.accepted (hab.accepted h)
  content h := (hbc.content (hab.accepted h)).trans (hab.content h)
  actions id h := hbc.actions id (hab.actions id h)

theorem nodes {row row' : LayerRow} (h : row.Retains row')
    (hstate : row.state = .accepted) : row'.nodes = row.nodes :=
  congrArg Prod.fst (h.content hstate)

theorem edges {row row' : LayerRow} (h : row.Retains row')
    (hstate : row.state = .accepted) : row'.edges = row.edges :=
  congrArg (fun content => content.2.1) (h.content hstate)

end LayerRow.Retains

namespace ActionRow.Retains

theorem refl (row : ActionRow) : row.Retains row :=
  ⟨rfl, rfl, id, fun _ => rfl, fun _ _ => rfl, fun _ => rfl⟩

theorem source {row row' : ActionRow} (h : row.Retains row')
    (hstate : row.state = .accepted) : row'.source = row.source :=
  congrArg Prod.fst (h.origin hstate)

theorem kind {row row' : ActionRow} (h : row.Retains row')
    (hstate : row.state = .accepted) (hkind : row.kind = .navigate) :
    row'.kind = .navigate :=
  (congrArg Prod.fst (h.lead hstate hkind)).trans hkind

theorem relation {row row' : ActionRow} (h : row.Retains row')
    (hstate : row.state = .accepted) (hkind : row.kind = .navigate) :
    row'.relation = row.relation :=
  congrArg (fun lead => lead.2.1) (h.lead hstate hkind)

theorem targetLayer {row row' : ActionRow} (h : row.Retains row')
    (hstate : row.state = .accepted) (hkind : row.kind = .navigate) :
    row'.targetLayer = row.targetLayer :=
  congrArg (fun lead => lead.2.2) (h.lead hstate hkind)

theorem trans {a b c : ActionRow} (hab : a.Retains b) (hbc : b.Retains c) :
    a.Retains c where
  scope := hbc.scope.trans hab.scope
  owner := hbc.owner.trans hab.owner
  accepted h := hbc.accepted (hab.accepted h)
  origin h := (hbc.origin (hab.accepted h)).trans (hab.origin h)
  lead h hkind :=
    (hbc.lead (hab.accepted h) (hab.kind h hkind)).trans (hab.lead h hkind)
  inputs h := (hbc.inputs (hab.accepted h)).trans (hab.inputs h)

/-- An action which is not accepted yet may change, but for its scope and its
owner. -/
theorem of_not_accepted {row row' : ActionRow} (hstate : row.state ≠ .accepted)
    (hscope : row'.toRowScope = row.toRowScope) (howner : row'.owner = row.owner) :
    row.Retains row' where
  scope := hscope
  owner := howner
  accepted h := absurd h hstate
  origin h := absurd h hstate
  lead h := absurd h hstate
  inputs h := absurd h hstate

end ActionRow.Retains

/-! ## The database -/

namespace GraphDatabase

structure Retains (db db' : GraphDatabase) : Prop where
  imports : db'.imports = db.imports
  nodes : db.nodes.Retained (fun _ => NodeRow.Retains) db'.nodes
  edges : db.edges.Retained (fun _ => EdgeRow.Retains) db'.edges
  layers : db.layers.Retained (fun _ => LayerRow.Retains) db'.layers
  actions : db.actions.Retained (fun _ => ActionRow.Retains) db'.actions

namespace Retains

theorem refl (db : GraphDatabase) : db.Retains db where
  imports := rfl
  nodes := .refl (fun _ => NodeRow.Retains.refl) _
  edges := .refl (fun _ => EdgeRow.Retains.refl) _
  layers := .refl (fun _ => LayerRow.Retains.refl) _
  actions := .refl (fun _ => ActionRow.Retains.refl) _

theorem trans {a b c : GraphDatabase} (hab : a.Retains b) (hbc : b.Retains c) :
    a.Retains c where
  imports := hbc.imports.trans hab.imports
  nodes := hab.nodes.trans (fun _ _ _ _ => NodeRow.Retains.trans) hbc.nodes
  edges := hab.edges.trans (fun _ _ _ _ => EdgeRow.Retains.trans) hbc.edges
  layers := hab.layers.trans (fun _ _ _ _ => LayerRow.Retains.trans) hbc.layers
  actions := hab.actions.trans (fun _ _ _ _ => ActionRow.Retains.trans) hbc.actions

end Retains

variable {db db' : GraphDatabase}

/-! ## Accepted records -/

/-- The node is accepted, in the given target. -/
def AcceptedNode (db : GraphDatabase) (target : SearchTarget) (id : NodeId) :
    Prop :=
  ∃ row, db.nodes.get? id = some row ∧ row.target = target ∧
    row.state = .accepted

/-- The edge is accepted, in the given target. -/
def AcceptedEdge (db : GraphDatabase) (target : SearchTarget) (id : EdgeId) :
    Prop :=
  ∃ row, db.edges.get? id = some row ∧ row.target = target ∧
    row.state = .accepted

/-- The layer is accepted, in the given target. -/
def AcceptedLayer (db : GraphDatabase) (target : SearchTarget) (id : LayerId) :
    Prop :=
  ∃ row, db.layers.get? id = some row ∧ row.target = target ∧
    row.state = .accepted

/-- The row is an interaction of the given target. -/
def Interaction (db : GraphDatabase) (target : SearchTarget) (id : NodeId) :
    Prop :=
  ∃ row, db.nodes.get? id = some row ∧ row.target = target ∧ row.owner = none

theorem Retains.acceptedNode (h : db.Retains db') {target : SearchTarget}
    {id : NodeId} (hnode : db.AcceptedNode target id) :
    db'.AcceptedNode target id := by
  obtain ⟨row, hrow, htarget, hstate⟩ := hnode
  obtain ⟨row', hrow', hret⟩ := h.nodes id row hrow
  exact ⟨row', hrow', by rw [hret.scope, htarget], hret.accepted hstate⟩

theorem Retains.acceptedEdge (h : db.Retains db') {target : SearchTarget}
    {id : EdgeId} (hedge : db.AcceptedEdge target id) :
    db'.AcceptedEdge target id := by
  obtain ⟨row, hrow, htarget, hstate⟩ := hedge
  obtain ⟨row', hrow', hret⟩ := h.edges id row hrow
  exact ⟨row', hrow', by rw [hret.scope, htarget], hret.accepted hstate⟩

theorem Retains.acceptedLayer (h : db.Retains db') {target : SearchTarget}
    {id : LayerId} (hlayer : db.AcceptedLayer target id) :
    db'.AcceptedLayer target id := by
  obtain ⟨row, hrow, htarget, hstate⟩ := hlayer
  obtain ⟨row', hrow', hret⟩ := h.layers id row hrow
  exact ⟨row', hrow', by rw [hret.scope, htarget], hret.accepted hstate⟩

theorem Retains.interaction (h : db.Retains db') {target : SearchTarget}
    {id : NodeId} (hroot : db.Interaction target id) :
    db'.Interaction target id := by
  obtain ⟨row, hrow, htarget, howner⟩ := hroot
  obtain ⟨row', hrow', hret⟩ := h.nodes id row hrow
  exact ⟨row', hrow', by rw [hret.scope, htarget], hret.owner.trans howner⟩

/-- The navigation of the accepted graph: an accepted navigate action in the
snapshot of the first layer leads to the second. -/
def Navigates (db : GraphDatabase) (layer target : LayerId) : Prop :=
  db.LeadsTo (db.navigates layer) target

theorem navigates_iff {layer target : LayerId} :
    db.Navigates layer target ↔
      ∃ stored id row, db.layers.get? layer = some stored ∧
        id ∈ stored.actions ∧ db.actions.get? id = some row ∧
        row.state = .accepted ∧ row.kind = .navigate ∧
        row.targetLayer = some target := by
  simp only [Navigates, LeadsTo, navigates, ActionRow.isAcceptedNavigate,
    Option.any_eq_true, Bool.and_eq_true, List.contains_iff_mem,
    decide_eq_true_eq]
  constructor
  · rintro ⟨id, row, hrow, ⟨stored, hstored, hid, hstate, hkind⟩, htarget⟩
    exact ⟨stored, id, row, hstored, hid, hrow, hstate, hkind, htarget⟩
  · rintro ⟨stored, id, row, hstored, hid, hrow, hstate, hkind, htarget⟩
    exact ⟨id, row, hrow, ⟨stored, hstored, hid, hstate, hkind⟩, htarget⟩

/-- Navigation is never lost. -/
theorem Retains.navigates (h : db.Retains db') {layer target : LayerId}
    (harc : db.Navigates layer target) : db'.Navigates layer target := by
  obtain ⟨stored, id, row, hstored, hid, hrow, hstate, hkind, htarget⟩ :=
    navigates_iff.mp harc
  obtain ⟨stored', hstored', hlayer⟩ := h.layers layer stored hstored
  obtain ⟨row', hrow', haction⟩ := h.actions id row hrow
  exact navigates_iff.mpr ⟨stored', id, row', hstored', hlayer.actions id hid,
    hrow', haction.accepted hstate, haction.kind hstate hkind,
    (haction.targetLayer hstate hkind).trans htarget⟩

end GraphDatabase

end RelayerGraph
