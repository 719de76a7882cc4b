import RelayerGraph.Graph.Database
import RelayerGraph.Graph.Drafts

/-!
# Reading the tables

The statements of the storage layer: the records a scope can see, the actions
of a node or of a layer, and a layer with everything it lists.
-/

namespace RelayerGraph

open Foundation Checked

/-! ## Rows as records -/

def NodeRow.record (id : NodeId) (row : NodeRow) : GraphNode where
  id := id
  clientKey := row.clientKey
  leasedActionId := row.lease.map (·.actionId)
  kind := row.kind
  icon := row.icon
  title := row.title
  detail := row.detail
  authoredDetail := row.authoredDetail
  artifact := row.artifact
  state := row.state

def EdgeRow.record (id : EdgeId) (row : EdgeRow) : GraphEdge where
  id := id
  endpoints := row.endpoints
  state := row.state

def LayerRow.record (id : LayerId) (row : LayerRow) : GraphLayer where
  defaultNodeId := row.defaultNode
  id := id
  clientKey := some row.clientKey
  nodes := row.nodes
  edges := row.edges
  layout := row.layout
  renderer := row.renderer
  state := row.state

/-- The receipt of a resolved invoke, as the projection reads it back. -/
def ActionRow.resolvedInvoke (row : ActionRow) : Option NodeId :=
  match row.resolution with
  | some (interaction, target) =>
      if row.targetLayer = some target ∧ row.kind = .navigate ∧
          row.relation = some .expand ∧ row.state = .accepted then
        some interaction
      else
        none
  | none => none

namespace GraphDatabase

variable (db : GraphDatabase)

/-- The projection every statement on actions selects. -/
def actionRecord (id : ActionId) (row : ActionRow) : GraphAction where
  convertedFromInvoke := false
  id := id
  resolvedInvokeInteractionId := row.resolvedInvoke
  clientKey := some row.clientKey
  sourceNodeId := row.source
  sourceLayerId := row.sourceLayer
  sourceLayerClientKey :=
    row.sourceLayer.bind fun layer => (db.layers.get? layer).map (·.clientKey)
  kind := row.kind
  relation := row.relation
  label := row.label
  variant := row.variant
  icon := row.icon
  description := row.description
  targetLayerId := row.targetLayer
  interactionText := row.interactionText
  inputActionIds := row.inputs
  reusable := row.reusable
  input := row.input
  state := row.state

/-- `NOT EXISTS(SELECT 1 FROM graph_imports …)` for a thread. -/
def Native (thread : ThreadId) : Prop :=
  thread ∉ db.imports

instance (thread : ThreadId) : Decidable (db.Native thread) := by
  unfold Native
  infer_instance

/-! ## Visible records -/

/-- `NodeTable::visible`. -/
def visibleNode (scope : InteractionScope) (id : NodeId) :
    GraphResult GraphNode :=
  match db.nodes.get? id with
  | none => .error (.notFound s!"node {id}")
  | some row =>
      if InScope scope row.toRowScope ∧
          (row.state = .accepted ∨
            row.state = .draft ∧ row.owner = some scope.root) then
        .ok (row.record id)
      else
        .error (.forbidden s!"node {id} is not readable by this interaction")

/-- `EdgeTable::visible`. -/
def visibleEdge (scope : InteractionScope) (id : EdgeId) :
    GraphResult GraphEdge :=
  match db.edges.get? id with
  | none => .error (.notFound s!"edge {id}")
  | some row =>
      if ¬ InScope scope row.toRowScope then
        .error (.notFound s!"edge {id}")
      else if row.state = .accepted ∨
          row.state = .draft ∧ row.owner = scope.root then
        .ok (row.record id)
      else
        .error (.forbidden s!"edge {id} is not readable by this interaction")

/-- `LayerTable::record`.  A stored layer whose default node or layout no
longer fits its membership is an internal error. -/
def layerRecord (scope : InteractionScope) (id : LayerId) :
    GraphResult (Option LayerRow) :=
  match db.layers.get? id with
  | none => .ok none
  | some row =>
      if ¬ InScope scope row.toRowScope then
        .ok none
      else if row.defaultNode.any fun node => !row.nodes.contains node then
        .error (.internal
          s!"layer {id} has a default node outside its membership")
      else
        match row.layout with
        | none => .ok (some row)
        | some layout =>
            match validateAuthoredLayout (some layout) row.nodes row.edges with
            | .ok () => .ok (some row)
            | .error issues =>
                .error (.internal
                  s!"layer {id} has invalid stored layout: {issues.text}")

/-- `LayerTable::visible`. -/
def visibleLayer (scope : InteractionScope) (id : LayerId) :
    GraphResult LayerRow := do
  match ← db.layerRecord scope id with
  | none => .error (.notFound s!"layer {id}")
  | some row =>
      require (row.state = .accepted ∨ row.owner = scope.root)
        (.forbidden s!"layer {id} is not readable by this interaction")
      return row

/-- `ActionTable::record`. -/
def action (scope : InteractionScope) (id : ActionId) : Option GraphAction :=
  (db.actions.get? id).bind fun row =>
    if InScope scope row.toRowScope then some (db.actionRecord id row) else none

/-! ## Selections of actions -/

/-- The selected actions in the order of their ids. -/
def actionsWhere (p : ActionRow → Bool) : List GraphAction :=
  (db.actions.select fun _ row => p row).filterMap fun id =>
    (db.actions.get? id).map (db.actionRecord id)

/-- `ActionTable::for_source` for the actions of an owner. -/
def ownedActionsOfSource (scope : InteractionScope) (source owner : NodeId) :
    List GraphAction :=
  db.actionsWhere fun row =>
    decide (row.source = source ∧ row.owner = owner ∧
      InScope scope row.toRowScope)

/-- `ActionTable::for_source` without an owner. -/
def actionsOfSource (scope : InteractionScope) (source : NodeId)
    (acceptedOnly : Bool) : List GraphAction :=
  db.actionsWhere fun row =>
    decide (row.source = source ∧
      (row.state = .accepted ∨ acceptedOnly = false ∧ row.owner = scope.root) ∧
      InScope scope row.toRowScope)

/-- `ActionTable::for_source_layer`: what the interaction authored from a
layer, without its attached additions. -/
def actionsFromLayer (scope : InteractionScope) (layer : LayerId) :
    List GraphAction :=
  db.actionsWhere fun row =>
    decide (row.owner = scope.root ∧ row.sourceLayer = some layer ∧
      row.attached = false ∧ InScope scope row.toRowScope)

/-- `ActionTable::relations_for_owned_target`. -/
def relationsToTarget (owner : NodeId) (target : LayerId) :
    List NavigateRelation :=
  (db.actionsWhere fun row =>
    decide (row.owner = owner ∧ row.kind = .navigate ∧
      row.targetLayer = some target)).filterMap (·.relation)

/-- `ActionTable::by_owner_and_key`. -/
def actionByKey (owner source : NodeId) (clientKey : String) :
    Option ActionId :=
  (db.actions.select fun _ row =>
    decide (row.owner = owner ∧ row.source = source ∧
      row.clientKey = clientKey)).head?

/-- `ActionTable::active_root_identity`. -/
def activeRootAction (owner : NodeId) : Option ActionId :=
  (db.actions.select fun _ row =>
    decide (row.owner = owner ∧ row.source = owner ∧ row.sourceLayer = none ∧
      (row.state = .draft ∨ row.state = .accepted))).head?

/-- `attached_navigation::draft_actions`. -/
def draftAdditions (owner : NodeId) : List ActionId :=
  db.actions.select fun _ row =>
    decide (row.attached = true ∧ row.owner = owner ∧ row.state = .draft)

/-- The accepted attached additions of an interaction. -/
def acceptedAdditions (owner : NodeId) : List ActionId :=
  db.actions.select fun _ row =>
    decide (row.attached = true ∧ row.owner = owner ∧ row.state = .accepted)

/-! ## Lookups by client key -/

/-- `NodeTable::by_owner_and_key`. -/
def nodeByKey (owner : NodeId) (clientKey : String) : Option NodeId :=
  (db.nodes.select fun _ row =>
    decide (row.owner = some owner ∧ row.clientKey = some clientKey)).head?

/-- `EdgeTable::by_owner_and_key`. -/
def edgeByKey (owner : NodeId) (clientKey : String) : Option EdgeId :=
  (db.edges.select fun _ row =>
    decide (row.owner = owner ∧ row.clientKey = clientKey)).head?

/-- `LayerTable::by_owner_and_key`. -/
def layerByKey (owner : NodeId) (clientKey : String) : Option LayerId :=
  (db.layers.select fun _ row =>
    decide (row.owner = owner ∧ row.clientKey = clientKey)).head?

/-- `LayerTable::draft_ids_by_owner`. -/
def draftLayers (owner : NodeId) : List LayerId :=
  db.layers.select fun _ row =>
    decide (row.owner = owner ∧ row.state = .draft)

/-- `EdgeTable::duplicate`. -/
def duplicateEdge (scope : InteractionScope) (endpoints : NodeId × NodeId) :
    Option EdgeId :=
  (db.edges.select fun _ row =>
    decide (row.endpoints = endpoints ∧ InScope scope row.toRowScope ∧
      (row.state = .accepted ∨ row.owner = scope.root))).head?

/-- `EdgeTable::accepted_duplicate`. -/
def acceptedDuplicateEdge (scope : InteractionScope) (edge : EdgeId)
    (endpoints : NodeId × NodeId) : Option EdgeId :=
  (db.edges.select fun id row =>
    decide (id ≠ edge ∧ row.endpoints = endpoints ∧ row.state = .accepted ∧
      InScope scope row.toRowScope)).head?

/-- `LayerTable::other_artifact_layer_for`. -/
def otherArtifactLayer (node owner : NodeId) (clientKey : String) :
    Option LayerId :=
  (db.layers.select fun _ row =>
    decide (node ∈ row.nodes ∧ row.renderer = some artifactRenderer ∧
      row.state ≠ .stopped ∧
      ¬ (row.owner = owner ∧ row.clientKey = clientKey))).head?

/-! ## Layers with their records -/

/-- The actions of a resolved layer.  An accepted layer shows its snapshot; any
other layer shows the accepted actions of its nodes and what this interaction
authored from it on nodes that are still drafts. -/
def layerActions (scope : InteractionScope) (id : LayerId) (layer : LayerRow)
    (nodes : List GraphNode) (acceptedOnly : Bool) :
    GraphResult (List GraphAction) :=
  if layer.state = .accepted then
    layer.actions.mapM fun action =>
      orThrow (db.action scope action)
        (.internal s!"snapshotted action {action} is missing")
  else
    .ok <| layer.nodes.flatMap fun node =>
      (db.actionsOfSource scope node acceptedOnly).filter fun action =>
        decide (action.state = .accepted ∨
          action.sourceLayerId = some id ∧
            ∃ member ∈ nodes, member.id = action.sourceNodeId ∧
              member.state = .draft)

/-- `layers::resolve`. -/
def resolve (scope : InteractionScope) (id : LayerId) (acceptedOnly : Bool) :
    GraphResult ResolvedLayer := do
  let layer ← db.visibleLayer scope id
  require (acceptedOnly = true → layer.state = .accepted)
    (.forbidden s!"layer {id} has not been accepted")
  let nodes ← layer.nodes.mapM fun node => do
    let record ← db.visibleNode scope node
    require (acceptedOnly = true → record.state = .accepted)
      (.forbidden s!"node {node} has not been accepted")
    return record
  let edges ← layer.edges.mapM fun edge => do
    let record ← db.visibleEdge scope edge
    require (acceptedOnly = true → record.state = .accepted)
      (.forbidden s!"edge {edge} has not been accepted")
    return record
  let actions ← db.layerActions scope id layer nodes acceptedOnly
  return { layer := layer.record id, nodes, edges, actions }

end GraphDatabase

end RelayerGraph
