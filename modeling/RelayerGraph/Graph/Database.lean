import RelayerGraph.Graph.Records
import RelayerGraph.Search.Target

/-!
# The canonical graph database

The tables of the native graph database, as one record.  Rows which belong to
exactly one interaction (`completion_states`, `completion_authorities`,
`current_revisions`, `completions`, `interaction_permissions`,
`completion_contracts`, `pending_node_presentations`) are kept with that
interaction's node.  The membership tables of a layer are the layer's lists in
position order, and the bindings, the attached mark and the resolution receipt
of an action are fields of its row.
-/

namespace RelayerGraph

open Foundation

/-! ## Interactions -/

/-- `CompletionLifecycle`. -/
inductive CompletionLifecycle
  | active
  | succeeded
  | stopped
  | failed
deriving DecidableEq, Repr

/-- `TemporalFeatureConfig`. -/
structure TemporalFeatureConfig where
  configVersion : ℕ
  schemaRead : Bool
  rootCurrentWrite : Bool
  projectionUi : Bool
  invokeResolution : Bool
  providerRecursion : Bool
deriving DecidableEq

/-- `InteractionPermission`. -/
inductive InteractionPermission
  | invokeResolve (actionId : ActionId)
  | navigateAdd (nodeId : NodeId)
deriving DecidableEq

/-- `InteractionPermissions::V2`, the only version preparation stores. -/
structure InteractionPermissions where
  enabled : Bool
  permissions : List InteractionPermission
deriving DecidableEq

/-- `CompletionInvocationReference`, by the identities it names. -/
structure InvocationReference where
  sourceCompletionId : NodeId
  sourceActionId : ActionId
  parentNodeId : NodeId
deriving DecidableEq

/-- What a sealed `CompletionContract` decides.  Each return requirement asks
for a response link on the node it names. -/
structure CompletionContract where
  invocationReferences : List InvocationReference
  authorities : List InteractionPermission
  returnRequirements : List NodeId
deriving DecidableEq

/-- `InteractionLease`. -/
structure InteractionLease where
  sourceInteractionId : NodeId
  actionId : ActionId
deriving DecidableEq

/-- A row of `completion_authorities`. -/
structure CompletionAuthority where
  authorEligible : Bool
  readEntitlement : String
  readEntitlementDigest : String
  epoch : ℕ
deriving DecidableEq

/-- A row of `current_revisions`.  The initial revision has no base, no
operation key and no digests. -/
structure RevisionRow where
  revision : ℕ
  transition : String
  baseRevision : Option ℕ
  currentLayer : Option LayerId
  lifecycle : CompletionLifecycle
  operationKey : Option String
  requestDigest : Option String
  snapshotDigest : Option String
  safeReason : Option String
deriving DecidableEq

/-- A row of `pending_node_presentations`. -/
structure PendingPresentation where
  node : NodeId
  expectedRevision : ℕ
  package : String
deriving DecidableEq

/-- The rows keyed by one interaction.  `rootAction` is its `completions` row,
which exists once the interaction has returned. -/
structure CompletionRow where
  lifecycle : CompletionLifecycle
  headRevision : ℕ
  currentLayer : Option LayerId
  finalLayer : Option LayerId
  safeReason : Option String
  temporal : TemporalFeatureConfig
  authority : CompletionAuthority
  permissions : InteractionPermissions
  contract : CompletionContract
  rootAction : Option ActionId
  revisions : List RevisionRow
  pendingPresentations : List PendingPresentation

/-! ## Graph rows -/

/-- The columns every scoped row carries. -/
structure RowScope where
  project : Option ProjectId
  thread : ThreadId
deriving DecidableEq

/-- The search target a row belongs to. -/
def RowScope.target (scope : RowScope) : SearchTarget :=
  .new scope.project scope.thread

/-- A row of `nodes` with its presentation revision. -/
structure NodeRow extends RowScope where
  kind : String
  icon : String
  title : String
  detail : String
  authoredDetail : Option String
  artifact : Option String
  state : RecordState
  owner : Option NodeId
  clientKey : Option String
  lease : Option InteractionLease
  publishedRevision : Option ℕ
  presentationRevision : ℕ
  completion : Option CompletionRow

/-- A row of `edges`; the left endpoint has the smaller key. -/
structure EdgeRow extends RowScope where
  endpoints : NodeId × NodeId
  state : RecordState
  owner : NodeId
  clientKey : String
  publishedRevision : Option ℕ

/-- A row of `layers` with `layer_nodes`, `layer_edges` and, in `actions`,
`layer_actions`. -/
structure LayerRow extends RowScope where
  state : RecordState
  owner : NodeId
  clientKey : String
  nodes : List NodeId
  edges : List EdgeId
  layout : Option LayerLayout
  defaultNode : Option NodeId
  renderer : Option String
  actions : List ActionId
  publishedRevision : Option ℕ

/-- A row of `actions` with its input payload, its bindings, its mark in
`attached_navigation_actions` and its receipt in
`invoke_resolution_transitions`.  A mark names the action's own owner and
source, so that it is a flag. -/
structure ActionRow extends RowScope where
  source : NodeId
  sourceLayer : Option LayerId
  kind : ActionKind
  relation : Option NavigateRelation
  label : String
  variant : ActionVariant
  icon : Option String
  description : Option String
  targetLayer : Option LayerId
  interactionText : Option String
  state : RecordState
  owner : NodeId
  clientKey : String
  reusable : Option Bool
  input : Option InputAction
  inputs : List ActionId
  attached : Bool
  resolution : Option (NodeId × LayerId)
  publishedRevision : Option ℕ

/-- A row of `graph_projection_outbox`; its sequence is its place. -/
structure ProjectionRow where
  interaction : NodeId
  revision : ℕ
  eventKind : String
deriving DecidableEq

/-- The whole database.  `imports` lists the threads of `graph_imports`, and
`searchRevisions` the rows of `search_index_targets`. -/
structure GraphDatabase where
  nodes : Table Entity.node NodeRow
  edges : Table Entity.edge EdgeRow
  layers : Table Entity.layer LayerRow
  actions : Table Entity.action ActionRow
  outbox : List ProjectionRow
  imports : List ThreadId
  searchRevisions : List (SearchTarget × ℕ)
  permissionsEnabled : Bool
  temporalFeatures : TemporalFeatureConfig

/-! ## Scopes -/

/-- `InteractionScope`. -/
structure InteractionScope extends RowScope where
  root : NodeId
  readOnly : Bool
  authorityEpoch : Option ℕ
deriving DecidableEq

/-- The condition every scoped statement repeats: the same project, or, for a
standalone scope, the same standalone thread. -/
def InScope (scope : InteractionScope) (row : RowScope) : Prop :=
  match scope.project with
  | some own => row.project = some own
  | none => row.project = none ∧ row.thread = scope.thread

instance (scope : InteractionScope) (row : RowScope) :
    Decidable (InScope scope row) := by
  unfold InScope
  split <;> infer_instance

/-- A scope sees exactly the rows of its own search target. -/
theorem inScope_iff {scope : InteractionScope} {row : RowScope} :
    InScope scope row ↔ row.target = scope.target := by
  cases hproject : scope.project <;> cases hrow : row.project <;>
    simp [InScope, RowScope.target, SearchTarget.new, hproject, hrow]

end RelayerGraph
