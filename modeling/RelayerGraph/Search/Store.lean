import RelayerGraph.Graph.Records
import RelayerGraph.Search.Target

/-!
# The derived search store

The tables of the Ladybug store, the lowering which writes an accepted
publication into them, and the removal of an imported publication.  Writes are
merges keyed on stable graph identities: a vertex on its table and id, a
relationship on its table, id and endpoints.  A relationship write sits behind
a match of its endpoints, so it writes nothing when one is missing.
-/

namespace RelayerGraph

/-- A scalar the store holds.  Floats are normalized to finite values without
a negative zero, so they are rationals. -/
inductive SearchValue
  | null
  | bool (value : Bool)
  | int64 (value : ℤ)
  | double (value : ℚ)
  | string (value : String)
deriving DecidableEq

/-- Named values in the order of the table's columns. -/
abbrev Properties := List (String × SearchValue)

/-- The node tables. -/
inductive VertexTable
  | content
  | layer
deriving DecidableEq, Repr

def VertexTable.name : VertexTable → String
  | .content => "Content"
  | .layer => "Layer"

/-- The relationship tables. -/
inductive RelationshipTable
  | connected
  | contains
  | expands
  | references
deriving DecidableEq, Repr

namespace RelationshipTable

def name : RelationshipTable → String
  | .connected => "CONNECTED"
  | .contains => "CONTAINS"
  | .expands => "EXPANDS"
  | .references => "REFERENCES"

/-- The node table a relationship starts in. -/
def sourceTable : RelationshipTable → VertexTable
  | .contains => .layer
  | .connected | .expands | .references => .content

/-- The node table a relationship ends in. -/
def targetTable : RelationshipTable → VertexTable
  | .connected | .contains => .content
  | .expands | .references => .layer

end RelationshipTable

/-- The primary key of a vertex. -/
structure VertexKey where
  table : VertexTable
  id : String
deriving DecidableEq, Repr

/-- What a merge of a relationship matches on. -/
structure RelationshipKey where
  table : RelationshipTable
  id : String
  source : String
  target : String
deriving DecidableEq, Repr

namespace RelationshipKey

def sourceKey (key : RelationshipKey) : VertexKey :=
  ⟨key.table.sourceTable, key.source⟩

def targetKey (key : RelationshipKey) : VertexKey :=
  ⟨key.table.targetTable, key.target⟩

end RelationshipKey

structure VertexRow where
  key : VertexKey
  properties : Properties
  publishedTargets : List String
deriving DecidableEq

structure RelationshipRow where
  key : RelationshipKey
  properties : Properties
  publishedTargets : List String
deriving DecidableEq

/-- The contents of a store.  `revisions` is the `IndexRevision` table. -/
structure SearchStore where
  vertices : List VertexRow
  relationships : List RelationshipRow
  revisions : List (String × ℤ)
deriving DecidableEq

namespace SearchStore

/-- The store `create` leaves behind. -/
def empty : SearchStore := ⟨[], [], []⟩

def hasVertex (store : SearchStore) (key : VertexKey) : Bool :=
  store.vertices.any fun row => row.key = key

end SearchStore

/-! ## Stored identities and properties -/

def contentId (id : NodeId) : String := "content:" ++ Nat.repr id.val

def layerId (id : LayerId) : String := "layer:" ++ Nat.repr id.val

def membershipId (layer : LayerId) (position : ℕ) (node : NodeId) : String :=
  "membership:" ++ Nat.repr layer.val ++ ":" ++ Nat.repr position ++ ":" ++
    Nat.repr node.val

def edgeId (id : EdgeId) : String := "edge:" ++ Nat.repr id.val

def actionId (id : ActionId) : String := "action:" ++ Nat.repr id.val

/-- `content_properties`. -/
def contentProperties (node : GraphNode) : Properties :=
  [("kind", .string node.kind), ("icon", .string node.icon),
    ("title", .string node.title), ("detail", .string node.detail),
    ("state", .string node.state.wire)]

/-- `layer_properties`. -/
def layerProperties (layer : ResolvedLayer) : Properties :=
  [("state", .string layer.layer.state.wire),
    ("layout_version",
      match layer.layer.layout with
      | some layout => .int64 layout.version
      | none => .null),
    ("has_layout", .bool layer.layer.layout.isSome)]

/-- The placement a layer's layout gives one of its nodes. -/
def placementOf (layer : GraphLayer) (node : NodeId) : Option NodePlacement :=
  layer.layout.bind fun layout =>
    layout.placements.find? fun placement => placement.nodeId = node

def membershipProperties
    (layer : GraphLayer) (position : ℕ) (node : NodeId) : Properties :=
  let placement := placementOf layer node
  [("member_order", .int64 position),
    ("x", .double ((placement.map NodePlacement.x).getD 0)),
    ("y", .double ((placement.map NodePlacement.y).getD 0)),
    ("has_xy", .bool placement.isSome)]

def edgeProperties (edge : GraphEdge) : Properties :=
  [("state", .string edge.state.wire)]

/-- `action_properties`. -/
def actionProperties
    (action : GraphAction) (relation : NavigateRelation) : Properties :=
  [("source_layer_id", .string ((action.sourceLayerId.map layerId).getD "")),
    ("label", .string action.label),
    ("variant", .string action.variant.wire),
    ("icon", .string (action.icon.getD "")),
    ("description", .string (action.description.getD "")),
    ("relation", .string relation.wire),
    ("state", .string action.state.wire)]

/-! ## Writes -/

/-- The publication list after a merge: new for a new row, else a distinct
union. -/
def mergeTargets (stored targets : List String) : List String :=
  (stored ++ targets).dedup

namespace SearchStore

/-- `MERGE (n {id}) SET …` on a node table. -/
def mergeVertex (store : SearchStore) (key : VertexKey)
    (properties : Properties) (targets : List String) : SearchStore :=
  { store with
    vertices :=
      if store.hasVertex key then
        store.vertices.map fun row =>
          if row.key = key then
            { row with
              properties
              publishedTargets := mergeTargets row.publishedTargets targets }
          else
            row
      else
        store.vertices ++ [⟨key, properties, targets⟩] }

/-- `MATCH (a), (b) … MERGE (a)-[r {id}]->(b) SET …`. -/
def mergeRelationship (store : SearchStore) (key : RelationshipKey)
    (properties : Properties) (targets : List String) : SearchStore :=
  if store.hasVertex key.sourceKey && store.hasVertex key.targetKey then
    { store with
      relationships :=
        if store.relationships.any fun row => row.key = key then
          store.relationships.map fun row =>
            if row.key = key then
              { row with
                properties
                publishedTargets := mergeTargets row.publishedTargets targets }
            else
              row
        else
          store.relationships ++ [⟨key, properties, targets⟩] }
  else
    store

/-- `write_node`. -/
def writeNode (targets : List String) (store : SearchStore)
    (node : GraphNode) : SearchStore :=
  store.mergeVertex ⟨.content, contentId node.id⟩ (contentProperties node)
    targets

/-- `write_layer_node`. -/
def writeLayerNode (targets : List String) (store : SearchStore)
    (layer : ResolvedLayer) : SearchStore :=
  store.mergeVertex ⟨.layer, layerId layer.layer.id⟩ (layerProperties layer)
    targets

/-- `write_edge`. -/
def writeEdge (targets : List String) (store : SearchStore)
    (edge : GraphEdge) : SearchStore :=
  store.mergeRelationship
    ⟨.connected, edgeId edge.id, contentId edge.endpoints.1,
      contentId edge.endpoints.2⟩
    (edgeProperties edge) targets

end SearchStore

/-- The relationship table of a navigate action. -/
def navigateTable : NavigateRelation → RelationshipTable
  | .expand => .expands
  | .reference => .references

/-- The relation and the target of an action that is searchable topology. -/
def searchableNavigation (action : GraphAction) :
    Option (NavigateRelation × LayerId) :=
  if action.kind = .navigate then
    match action.relation, action.targetLayerId with
    | some relation, some target => some (relation, target)
    | _, _ => none
  else
    none

namespace SearchStore

/-- `write_action`. -/
def writeAction (targets : List String) (store : SearchStore)
    (action : GraphAction) : SearchStore :=
  match searchableNavigation action with
  | none => store
  | some (relation, target) =>
      store.mergeRelationship
        ⟨navigateTable relation, actionId action.id,
          contentId action.sourceNodeId, layerId target⟩
        (actionProperties action relation) targets

/-- `write_layer_relationships`. -/
def writeLayerRelationships (targets : List String) (store : SearchStore)
    (layer : ResolvedLayer) : SearchStore :=
  let members := layer.layer.nodes.zipIdx.foldl
    (fun store (node, position) =>
      store.mergeRelationship
        ⟨.contains, membershipId layer.layer.id position node,
          layerId layer.layer.id, contentId node⟩
        (membershipProperties layer.layer position node) targets)
    store
  let edges := layer.edges.foldl (writeEdge targets) members
  layer.actions.foldl (writeAction targets) edges

/-- `apply_closure`: every node before every relationship, since the layers
arrive in breadth-first order and name child layers not yet written. -/
def applyClosure (store : SearchStore) (publishedTo : List SearchTarget)
    (closure : AcceptedGraphPublication) : SearchStore :=
  let targets := publishedTo.map SearchTarget.display
  let interaction := store.writeNode targets closure.interaction
  let nodes := closure.layers.foldl
    (fun store layer =>
      layer.nodes.foldl (writeNode targets) (store.writeLayerNode targets layer))
    interaction
  let relationships :=
    closure.layers.foldl (writeLayerRelationships targets) nodes
  match closure.rootAction with
  | none => relationships
  | some action => relationships.writeAction targets action

/-! ## Removal of an imported publication -/

end SearchStore

/-- `searchable_action_kind`. -/
def searchableActionKind (action : GraphAction) : Option RelationshipTable :=
  if action.kind = .navigate then action.relation.map navigateTable else none

namespace SearchStore

/-- `MATCH ()-[r:kind]->() WHERE r.id = … DELETE r`. -/
def deleteRelationships (store : SearchStore)
    (table : RelationshipTable) (id : String) : SearchStore :=
  { store with
    relationships := store.relationships.filter fun row =>
      ¬ (row.key.table = table ∧ row.key.id = id) }

/-- `MATCH (n) WHERE n.id = … DETACH DELETE n`. -/
def detachDelete (store : SearchStore) (key : VertexKey) : SearchStore :=
  { store with
    vertices := store.vertices.filter fun row => row.key ≠ key
    relationships := store.relationships.filter fun row =>
      row.key.sourceKey ≠ key ∧ row.key.targetKey ≠ key }

/-- The relationships a closure owns, by table and id. -/
def ownedRelationships (closure : AcceptedGraphPublication) :
    List (RelationshipTable × String) :=
  let ofAction (action : GraphAction) :=
    ((searchableActionKind action).map fun table =>
      (table, actionId action.id)).toList
  let ofLayer (layer : ResolvedLayer) :=
    layer.layer.nodes.zipIdx.map
        (fun (node, position) =>
          (RelationshipTable.contains,
            membershipId layer.layer.id position node)) ++
      layer.edges.map (fun edge => (.connected, edgeId edge.id)) ++
      layer.actions.flatMap ofAction
  closure.layers.flatMap ofLayer ++ closure.rootAction.toList.flatMap ofAction

/-- `remove_closure`: relationships, then layers, then content. -/
def removeClosure (store : SearchStore) (closure : AcceptedGraphPublication) :
    SearchStore :=
  let relationships := (ownedRelationships closure).foldl
    (fun store (table, id) => store.deleteRelationships table id) store
  let layers := closure.layers.foldl
    (fun store layer => store.detachDelete ⟨.layer, layerId layer.layer.id⟩)
    relationships
  let content := contentId closure.interaction.id ::
    closure.layers.flatMap fun layer =>
      layer.nodes.map fun node => contentId node.id
  content.foldl (fun store id => store.detachDelete ⟨.content, id⟩) layers

/-! ## Revisions -/

/-- `write_revision`. -/
def writeRevision (store : SearchStore) (target : SearchTarget)
    (revision : ℤ) : SearchStore :=
  { store with
    revisions :=
      if store.revisions.any fun row => row.1 = target.display then
        store.revisions.map fun row =>
          if row.1 = target.display then (row.1, revision) else row
      else
        store.revisions ++ [(target.display, revision)] }

/-- `read_revision`; a revision which is not positive reads as none. -/
def readRevision (store : SearchStore) (target : SearchTarget) : Option ℤ :=
  (store.revisions.find? fun row => row.1 = target.display).bind fun row =>
    if 0 < row.2 then some row.2 else none

end SearchStore

end RelayerGraph
