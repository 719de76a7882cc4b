import RelayerGraph.Foundation.Table
import RelayerGraph.Graph.Error

/-!
# Graph records

The records a reader of the graph sees: nodes, edges, layers and actions.
JSON payloads which the engine stores and returns unread are kept as their
text.  Layout coordinates come from JSON numbers, which are finite, so they
are rationals.
-/

namespace RelayerGraph

open Foundation

/-- The four kinds of graph record, each with keys of its own. -/
inductive Entity
  | node
  | edge
  | layer
  | action
deriving DecidableEq, Repr

abbrev NodeId := Key Entity.node
abbrev EdgeId := Key Entity.edge
abbrev LayerId := Key Entity.layer
abbrev ActionId := Key Entity.action

instance : LawfulBEq NodeId := inferInstance
instance : LawfulBEq LayerId := inferInstance

/-- `RecordState`. -/
inductive RecordState
  | draft
  | accepted
  | stopped
deriving DecidableEq, Repr

/-- The serialized spelling of a record state. -/
def RecordState.wire : RecordState → String
  | .draft => "draft"
  | .accepted => "accepted"
  | .stopped => "stopped"

/-- `GraphNode`. -/
structure GraphNode where
  id : NodeId
  clientKey : Option String
  leasedActionId : Option ActionId
  kind : String
  icon : String
  title : String
  detail : String
  authoredDetail : Option String
  artifact : Option String
  state : RecordState
deriving DecidableEq, Repr

/-- `GraphEdge`; the endpoints are stored in key order. -/
structure GraphEdge where
  id : EdgeId
  endpoints : NodeId × NodeId
  state : RecordState
deriving DecidableEq, Repr

/-! ## Layers -/

structure NodePlacement where
  nodeId : NodeId
  x : ℚ
  y : ℚ
deriving DecidableEq, Repr

structure EdgeEnd where
  nodeId : NodeId
  side : Option String
deriving DecidableEq, Repr

structure LayoutPoint where
  x : ℚ
  y : ℚ
deriving DecidableEq, Repr

/-- One edge's own shape, attachment sides and waypoints. -/
structure EdgeRoute where
  edgeId : EdgeId
  shape : Option String
  ends : List EdgeEnd
  waypoints : List LayoutPoint
deriving DecidableEq, Repr

/-- `LayerLayout`; the order of the placements is the reading order. -/
structure LayerLayout where
  version : ℕ
  placements : List NodePlacement
  edgeShape : Option String
  edgeRoutes : List EdgeRoute
deriving DecidableEq, Repr

/-- `GraphLayer`. -/
structure GraphLayer where
  defaultNodeId : Option NodeId
  id : LayerId
  clientKey : Option String
  nodes : List NodeId
  edges : List EdgeId
  layout : Option LayerLayout
  renderer : Option String
  state : RecordState
deriving DecidableEq, Repr

/-! ## Actions -/

/-- `ActionKind`.  An `interaction.context` record is created by graph control
only, and is stored with the kind `invoke`. -/
inductive ActionKind
  | navigate
  | invoke
  | input
  | interactionContext
deriving DecidableEq, Repr

inductive NavigateRelation
  | expand
  | reference
deriving DecidableEq, Repr

def NavigateRelation.wire : NavigateRelation → String
  | .expand => "expand"
  | .reference => "reference"

/-- `ActionVariant`. -/
inductive ActionVariant
  | chip
  | pill
  | wide
  | card
  | unsupported (value : String)
deriving DecidableEq, Repr

def ActionVariant.wire : ActionVariant → String
  | .chip => "chip"
  | .pill => "pill"
  | .wide => "wide"
  | .card => "card"
  | .unsupported value => value

inductive InputControl
  | text
  | singleSelect
  | multiSelect
  | unsupported
deriving DecidableEq, Repr

/-- `InputOption`; of the fields outside the grammar only the names matter. -/
structure InputOption where
  key : String
  label : String
  unsupportedFields : List String
deriving DecidableEq, Repr

/-- `InputAction`. -/
structure InputAction where
  control : InputControl
  prompt : String
  options : List InputOption
  minimumSelections : Option ℕ
  unsupportedFields : List String
deriving DecidableEq, Repr

/-- `GraphAction`. -/
structure GraphAction where
  convertedFromInvoke : Bool
  id : ActionId
  resolvedInvokeInteractionId : Option NodeId
  clientKey : Option String
  sourceNodeId : NodeId
  sourceLayerId : Option LayerId
  sourceLayerClientKey : Option String
  kind : ActionKind
  relation : Option NavigateRelation
  label : String
  variant : ActionVariant
  icon : Option String
  description : Option String
  targetLayerId : Option LayerId
  interactionText : Option String
  inputActionIds : List ActionId
  reusable : Option Bool
  input : Option InputAction
  state : RecordState
deriving DecidableEq, Repr

/-- A layer with the records it lists. -/
structure ResolvedLayer where
  layer : GraphLayer
  nodes : List GraphNode
  edges : List GraphEdge
  actions : List GraphAction
deriving DecidableEq, Repr

/-- `AcceptedGraphPublication`: what one current publishes to search. -/
structure AcceptedGraphPublication where
  nodeId : NodeId
  interaction : GraphNode
  rootAction : Option GraphAction
  rootLayerId : LayerId
  layers : List ResolvedLayer
deriving DecidableEq, Repr

end RelayerGraph
