import RelayerGraph.Foundation.Digraph
import RelayerGraph.Graph.Navigation

/-!
# Completion plans

What a transition would publish, and every check it makes before publishing
it.  A plan walks the layers authored below its root, collects the attached
additions of the interaction, and is then validated as a whole.
-/

namespace RelayerGraph

open Foundation Checked Worklist

/-- `CompletionPlan`.  The sets of the source are lists without repetition
that matters. -/
structure CompletionPlan where
  rootAction : Option GraphAction
  rootLayer : LayerId
  lease : Option InteractionLease
  nodes : List NodeId
  edges : List EdgeId
  layers : List LayerId
  actions : List ActionId
  layerActions : List (LayerId × List ActionId)
  arrivals : List (LayerId × NavigateRelation)

namespace CompletionPlan

/-- A plan which publishes nothing yet. -/
def empty (rootLayer : LayerId) : CompletionPlan where
  rootAction := none
  rootLayer := rootLayer
  lease := none
  nodes := []
  edges := []
  layers := []
  actions := []
  layerActions := []
  arrivals := []

/-- `register_arrival`: all arrivals at a layer have one relation. -/
def registerArrival (plan : CompletionPlan) (layer : LayerId)
    (relation : NavigateRelation) : GraphResult CompletionPlan := do
  require (∀ entry ∈ plan.arrivals, entry.1 = layer → entry.2 = relation)
    (.validation "mixed_target_relations" "targetLayerId"
      s!"Layer {layer} is targeted as both expand and reference in this interaction. Use one relation for that target layer.")
  return { plan with arrivals := (layer, relation) :: plan.arrivals }

end CompletionPlan

namespace GraphDatabase

variable (db : GraphDatabase) (scope : InteractionScope)

/-! ## Checks of single actions -/

/-- `ActionTable::validate_invoke_inputs`. -/
def validateInvokeInputs (source : NodeId) (inputs : List ActionId) :
    GraphResult Unit :=
  forM inputs.zipIdx fun entry => do
    let input ← orThrow (db.action scope entry.1)
      (.validation "invoke_input_unavailable" s!"inputActionIds[{entry.2}]"
        "Bind a visible input action.")
    let owned := (db.actions.get? entry.1).any fun row =>
      decide (row.owner = scope.root)
    require
      (input.kind = .input ∧ input.sourceNodeId = source ∧
        (input.state = .accepted ∨ owned = true ∧ input.state = .draft))
      (.validation "invoke_input_invalid" s!"inputActionIds[{entry.2}]"
        "Bind an input action on this Node, accepted or owned by the current draft.")

/-- The layers a source completion published: what its root action targets
and, under provider recursion, its current of every revision. -/
def publishedRoots (completion : CompletionRow) : List LayerId :=
  let rootTarget : Option LayerId := do
    let row ← db.actions.get? (← completion.rootAction)
    if row.state = .accepted then row.targetLayer else none
  let currents :=
    if completion.temporal.providerRecursion then
      completion.revisions.filterMap (·.currentLayer)
    else
      []
  rootTarget.toList ++ currents

/-- The action is published by the source completion: it is the root action,
or a published layer of the completion lists it. -/
def publishedIn (completion : CompletionRow) (id : ActionId) : Bool :=
  decide (completion.rootAction = some id) ||
    (db.layersReached db.navigates (db.publishedRoots completion)).any fun layer =>
      (db.layers.get? layer).any fun row => row.actions.contains id

/-- The query of `ActionTable::validate_unresolved_lease`. -/
def leaseInSource (lease : InteractionLease) : Bool :=
  (db.actions.get? lease.actionId).isSome &&
    (db.nodes.get? lease.sourceInteractionId).any fun row =>
      decide (row.kind = "user-interaction" ∧ row.state = .accepted ∧
        row.owner = none ∧ InScope scope row.toRowScope) &&
      row.completion.any fun completion =>
        (completion.rootAction.isSome || completion.temporal.providerRecursion) &&
          db.publishedIn completion lease.actionId

/-- `ActionTable::validate_unresolved_lease`. -/
def validateUnresolvedLease (lease : InteractionLease) : GraphResult Unit := do
  db.requireNativeProvenance lease.actionId
  require (db.leaseInSource scope lease)
    (.validation "invalid_invoke_lease" "interactionNode.leasedActionId"
      "The interaction lease no longer identifies an action in its exact accepted source completion.")
  let action ← orThrow (db.action scope lease.actionId)
    (.validation "invalid_invoke_lease" "interactionNode.leasedActionId"
      "The interaction lease action is not visible in this graph scope.")
  require (action.state = .accepted ∧ action.kind = .invoke)
    (.validation "invalid_invoke_lease" "interactionNode.leasedActionId"
      "The interaction lease must identify an accepted invoke action.")
  require (action.targetLayerId = none)
    (.validation "invoke_lease_already_consumed" "interactionNode.leasedActionId"
      "The leased invoke action already has a result target and cannot be redirected.")

/-- `NodeTable::interaction_lease`. -/
def interactionLease (interaction : NodeId) :
    GraphResult (Option InteractionLease) :=
  match db.nodes.get? interaction with
  | some row =>
      if row.kind = "user-interaction" ∧ row.state = .accepted ∧
          row.owner = none then
        .ok row.lease
      else
        .error (.notFound s!"interaction node {interaction}")
  | none => .error (.notFound s!"interaction node {interaction}")

/-! ## Walking authored layers -/

/-- One authored action of a walked layer: its checks, and the target a
navigate action leaves to visit. -/
def walkAction (layer : LayerId) (arrival : NavigateRelation)
    (nodeIds : List NodeId)
    (walked : CompletionPlan × List (LayerId × NavigateRelation))
    (action : GraphAction) :
    GraphResult (CompletionPlan × List (LayerId × NavigateRelation)) := do
  let (plan, more) := walked
  db.validateInvokeInputs scope action.sourceNodeId action.inputActionIds
  require (action.sourceNodeId ∈ nodeIds)
    (.validation "source_node_outside_layer" s!"action[{action.id}].sourceNodeId"
      s!"Action {action.id} claims source layer {layer}, but source node {action.sourceNodeId} is not in that layer. Choose a containing source layer.")
  require
    (¬ (arrival = .reference ∧
      (action.kind ≠ .navigate ∨ action.relation ≠ some .reference)))
    (.validation "reference_layer_authoring_restricted"
      s!"action[{action.id}].relation"
      "A reference layer may author only reference navigation. Change this action to reference, or author it from an expansion layer.")
  let plan := { plan with actions := plan.actions.insert action.id }
  if action.kind ≠ .navigate then
    return (plan, more)
  else
    let relation ← orThrow action.relation
      (.validation "missing_navigate_relation" s!"action[{action.id}].relation"
        "Choose relation=expand for deeper explanation or relation=reference for supporting evidence or context.")
    let target ← orThrow action.targetLayerId
      (.validation "missing_target_layer" s!"action[{action.id}].targetLayerId"
        "Submit or select the navigate target layer and retry.")
    let plan ← plan.registerArrival target relation
    return (plan, more ++ [(target, relation)])

/-- What a newly entered layer adds to the plan, once its records pass. -/
def enterLayer (plan : CompletionPlan) (layer : LayerId) (row : LayerRow) :
    GraphResult (ResolvedLayer × CompletionPlan) := do
  let resolved ← db.resolve scope layer false
  validateLayerRenderer row.renderer resolved.nodes resolved.edges.length
  validateConnected row.nodes resolved.edges
  forSome row.layout fun layout => validateEdgeRouteEnds layout resolved.edges
  let nodeIds := resolved.nodes.map (·.id)
  forM resolved.edges fun edge =>
    require (edge.endpoints.1 ∈ nodeIds ∧ edge.endpoints.2 ∈ nodeIds)
      (.validation "edge_outside_layer" s!"layer[{layer}].edges"
        s!"Edge {edge.id} does not stay within this layer.")
  forM resolved.nodes fun node =>
    require
      (node.state = .draft →
        (db.nodes.get? node.id).bind (·.owner) = some scope.root)
      (.forbidden s!"node {node.id} belongs to another interaction")
  return (resolved,
    { plan with
      layers := layer :: plan.layers
      edges := resolved.edges.map (·.id) ∪ plan.edges
      nodes := nodeIds ∪ plan.nodes
      layerActions :=
        (layer, resolved.actions.map (·.id)) :: plan.layerActions })

/-- The body of the loop of `walk_layers`. -/
def walkLayer (plan : CompletionPlan) (item : LayerId × NavigateRelation) :
    GraphResult (Turn CompletionPlan (LayerId × NavigateRelation) CompletionPlan) := do
  let (layer, arrival) := item
  let plan ← plan.registerArrival layer arrival
  let row ← orThrow (← db.layerRecord scope layer)
    (.validation "missing_layer" "targetLayerId"
      s!"A navigate action points to missing layer {layer}. Submit that layer first.")
  if row.state = .accepted then
    require (arrival = .reference)
      (.validation "expand_target_must_be_current_draft" "targetLayerId"
        s!"Expand points to accepted layer {layer}. Use relation=reference for accepted context, or create a current draft expansion layer.")
    return .proceed plan []
  else
    require (row.state ≠ .stopped)
      (.validation "discarded_layer_target" "targetLayerId"
        s!"A navigate action points to discarded layer {layer}. Retarget that action to a current draft or visible accepted layer.")
    require (row.owner = scope.root)
      (.forbidden s!"draft layer {layer} belongs to another interaction")
    require (¬ (layer = plan.rootLayer ∧ row.renderer.isSome))
      (.validation "artifact_layer_as_response" "rootAction.targetLayerId"
        "The answer's root layer must be a graph. Put an ordinary node in it and open the artifact layer from that node with a navigate action.")
    validateAuthoredLayout row.layout row.nodes row.edges
    if layer ∈ plan.layers then
      return .proceed plan []
    else
      let (resolved, plan) ← db.enterLayer scope plan layer row
      let nodeIds := resolved.nodes.map (·.id)
      let (plan, more) ← (db.actionsFromLayer scope layer).foldlM
        (db.walkAction scope layer arrival nodeIds) (plan, [])
      return .proceed plan more

/-- `walk_layers`.  Every visit after the first is paid for by an action. -/
def walkLayers (plan : CompletionPlan) (root : LayerId)
    (relation : NavigateRelation) : GraphResult CompletionPlan :=
  drain (db.walkLayer scope) id (.internal "walk exhausted")
    (db.actions.entries.length + 1) plan [(root, relation)]

/-! ## Attached additions -/

/-- `attached_navigation::has_pending_addition`. -/
def hasPendingAddition (node : NodeId) : Bool :=
  (db.draftAdditions scope.root).any fun id =>
    (db.actions.get? id).any fun row => decide (row.source = node)

/-- `validate_bindings`. -/
def validateBindings (host : Host) (node : NodeId)
    (package : String) : GraphResult Unit := do
  let source ← db.visibleNode scope node
  require (db.hasPendingAddition scope node)
    (.validation "attached_addition_required" "authoredDetail"
      "Replacement requires at least one new authorized navigate action.")
  host.bindings source.clientKey (db.actionsOfSource scope node false) package

/-- `check_revision`. -/
def checkRevision (node : NodeId) (expected : ℕ) : GraphResult Unit :=
  require
    (((db.nodes.get? node).map (·.presentationRevision)).getD 0 = expected)
    (.validation "stale_presentation_revision" "expectedRevision"
      "The node presentation changed. Reread its presentation and actions, then repair the full replacement.")

/-- The pending presentations of an interaction. -/
def pendingPresentations (interaction : NodeId) : List PendingPresentation :=
  ((db.completion? interaction).map (·.pendingPresentations)).getD []

/-- `attached_navigation::validate`. -/
def validateAttached (host : Host) :
    GraphResult Unit := do
  let pending := db.pendingPresentations scope.root
  forM (db.draftAdditions scope.root) fun id => do
    let action ← orThrow (db.action scope id)
      (.internal "Missing attached action.")
    if action.sourceNodeId ∈ pending.map (·.node) then
      return
    else
      let node ← db.visibleNode scope action.sourceNodeId
      match node.authoredDetail with
      | some package => db.validateBindings scope host node.id package
      | none => return
  forM pending fun presentation => do
    db.authorize host scope (.navigateAdd presentation.node)
    db.checkRevision presentation.node presentation.expectedRevision
    db.validateBindings scope host presentation.node presentation.package

/-- One draft addition joins the plan; the second component lists the required
response links still missing. -/
def collectAddition (host : Host)
    (collected : CompletionPlan × List NodeId) (id : ActionId) :
    GraphResult (CompletionPlan × List NodeId) := do
  let (plan, missing) := collected
  let action ← orThrow (db.action scope id)
    (.internal "Missing attached action.")
  db.authorize host scope (.navigateAdd action.sourceNodeId)
  let target ← orThrow action.targetLayerId
    (.internal "Missing attached target.")
  let missing :=
    if target = plan.rootLayer then
      missing.filter (· ≠ action.sourceNodeId)
    else
      missing
  let layer ← db.visibleLayer scope target
  let relation ← orThrow action.relation
    (.internal "Missing attached relation.")
  -- A backlink to the response root does not reclassify it as a reference.
  if target = plan.rootLayer ∧ relation = .reference then
    return ({ plan with actions := plan.actions.insert id }, missing)
  else
    let plan ← plan.registerArrival target relation
    let plan ←
      (if layer.state ≠ .accepted then
        db.walkLayers scope plan target relation
      else
        .ok plan)
    return ({ plan with actions := plan.actions.insert id }, missing)

/-- `collect_attached`. -/
def collectAttached (host : Host)
    (plan : CompletionPlan) : GraphResult CompletionPlan := do
  let row ← db.completionState scope.root
  forM row.contract.invocationReferences fun invocation => do
    let parent ← orThrow (db.nodes.get? invocation.parentNodeId)
      (.notFound s!"invocation parent {invocation.parentNodeId}")
    require (parent.state = .accepted)
      (.validation "invocation_parent_unpublished"
        "invocationReferences.parentNodeId"
        s!"Publish the enclosing response containing parent Node {invocation.parentNodeId} before advancing or returning this child. Its revised overall analysis must remain linked from that parent.")
  let (plan, missing) ← (db.draftAdditions scope.root).foldlM
    (db.collectAddition scope host) (plan, row.contract.returnRequirements)
  let missingText := ", ".intercalate (missing.map toString)
  require (missing = [])
    (.validation "attached_response_navigation_required" "interaction.context"
      s!"Add a new navigate action from each attached node [{missingText}] to this interaction's response layer {plan.rootLayer}. Expose each addition through a usable control; preserve and rebind existing rich controls in a full presentation replacement. Repair the drafts and retry terminal submission.")
  db.validateAttached scope host
  return plan

/-! ## Checks of the whole plan -/

/-- `validate_edge_uniqueness`. -/
def validateEdgeUniqueness (plan : CompletionPlan) : GraphResult Unit :=
  forM plan.edges fun id => do
    let edge ← db.visibleEdge scope id
    match db.acceptedDuplicateEdge scope edge.id edge.endpoints with
    | none => .ok ()
    | some existing =>
        .error (.validation "duplicate_edge" "edges"
          s!"Nodes {edge.endpoints.1} and {edge.endpoints.2} are already connected by accepted edge {existing}. Reuse that edge instead of accepting edge {edge.id}.")

/-- The expand targets authored from a layer of the plan. -/
def authoredExpansions (plan : CompletionPlan) (layer : LayerId) :
    List LayerId :=
  if layer ∈ plan.layers then
    ((db.actionsFromLayer scope layer).filter fun action =>
      decide (action.kind = .navigate ∧ action.relation = some .expand)).filterMap
        (·.targetLayerId)
  else
    []

/-- `validate_expand_acyclic`. -/
def validateExpandAcyclic (plan : CompletionPlan) : GraphResult Unit :=
  match Digraph.findCycle (db.authoredExpansions scope plan) plan.layers with
  | none => .ok ()
  | some cycle =>
      let path := " -> ".intercalate (cycle.map toString)
      .error (.validation "expand_cycle" "actions"
        s!"Expand navigation must be acyclic. This expand path repeats a layer: {path}. Change one link to reference or remove it.")

/-- `validate_no_orphan_layers`. -/
def validateNoOrphanLayers (plan : CompletionPlan) : GraphResult Unit :=
  let orphaned := (db.draftLayers scope.root).filter (· ∉ plan.layers)
  let names := ", ".intercalate (orphaned.map toString)
  require (orphaned = [])
    (.validation "orphan_draft_layers" "layers"
      s!"Current draft layers are not reachable from the root action: {names}. Connect each intended layer with a current expand or reference action, or explicitly discard each intentionally abandoned layer with the client API (discardLayer in TypeScript; discard_layer in Python).")

/-- The lease of the interaction, once it is still unresolved. -/
def planLease : GraphResult (Option InteractionLease) := do
  let lease ← db.interactionLease scope.root
  forSome lease fun lease => db.validateUnresolvedLease scope lease
  return lease

/-- The single root action of the interaction; the message tells how many
there are instead. -/
def singleRootAction (message : ℕ → String) : GraphResult GraphAction :=
  match db.ownedActionsOfSource scope scope.root scope.root with
  | [action] => .ok action
  | actions =>
      .error (.validation "root_action_count" "interactionNode"
        (message actions.length))

/-! ## The plans of the two publishing transitions -/

/-- `CompletionPlan::build`. -/
def buildPlan (host : Host) :
    GraphResult CompletionPlan := do
  let rootAction ← db.singleRootAction scope fun found =>
    s!"The interaction needs exactly one new root action; found {found}. Create one navigate action with relation=expand from the interaction."
  require
    (rootAction.kind = .navigate ∧ rootAction.relation = some .expand ∧
      rootAction.sourceLayerId = none)
    (.validation "invalid_root_action" "interactionNode"
      "The single root action must be navigate with relation=expand and no sourceLayerId.")
  let rootLayer ← orThrow rootAction.targetLayerId
    (.validation "missing_target_layer" "rootAction.targetLayerId"
      "The root expand action needs a submitted current-interaction draft layer.")
  let plan :=
    { CompletionPlan.empty rootLayer with
      rootAction := some rootAction
      actions := [rootAction.id] }
  let plan ← db.walkLayers scope plan rootLayer .expand
  let plan ← db.collectAttached scope host plan
  db.validateExpandAcyclic scope plan
  db.validateNoOrphanLayers scope plan
  db.validateEdgeUniqueness scope plan
  let lease ← db.planLease scope
  return { plan with lease }

/-- `CompletionPlan::build_current`.  An interaction is always sealed, so the
whole prospective Return is validated while only the walk is published. -/
def buildCurrentPlan (host : Host)
    (rootLayer : LayerId) : GraphResult CompletionPlan := do
  let plan ← db.walkLayers scope (.empty rootLayer) rootLayer .expand
  let prospective ← db.buildPlan scope host
  require (prospective.rootLayer = rootLayer)
    (.validation "advance_layer_mismatch" "layerId"
      "The root expand action must target the exact layer being Advanced.")
  db.validateExpandAcyclic scope plan
  db.validateEdgeUniqueness scope plan
  return plan

/-- `CompletionPlan::build_return`. -/
def buildReturnPlan (host : Host)
    (returned : LayerId) (persistedCurrent : Option LayerId) :
    GraphResult CompletionPlan := do
  let row ← orThrow (← db.layerRecord scope returned)
    (.notFound s!"layer {returned}")
  if row.state ≠ .accepted then
    let plan ← db.buildPlan scope host
    require (plan.rootLayer = returned)
      (.validation "return_layer_mismatch" "layerId"
        "The returned layer must match the interaction root action target.")
    return plan
  else
    require (row.owner = scope.root ∧ persistedCurrent = some returned)
      (.validation "foreign_current" "layerId"
        "A completion may return only its own draft layer or its exact persisted current layer.")
    let rootAction ← db.singleRootAction scope fun found =>
      s!"The interaction needs exactly one root action; found {found}."
    require
      (rootAction.kind = .navigate ∧ rootAction.relation = some .expand ∧
        rootAction.sourceLayerId = none ∧
        rootAction.targetLayerId = some returned)
      (.validation "invalid_root_action" "interactionNode"
        "The root action must expand to the exact returned current layer.")
    let lease ← db.planLease scope
    let plan :=
      { CompletionPlan.empty returned with
        rootAction := some rootAction
        lease
        actions := [rootAction.id]
        arrivals := [(returned, .expand)] }
    let plan ← db.collectAttached scope host plan
    db.validateExpandAcyclic scope plan
    db.validateEdgeUniqueness scope plan
    db.validateNoOrphanLayers scope plan
    return plan

end GraphDatabase

end RelayerGraph
