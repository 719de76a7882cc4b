import RelayerGraph.Graph.Current

/-!
# The graph writer

The operations an interaction authors with.  Each runs in one write
transaction and returns the record it wrote with the new database.
-/

namespace RelayerGraph

open Foundation Checked Worklist

/-! ## Preparing an interaction -/

/-- What the trusted preparation of an interaction freezes: the lease of a
recursive call, the attached context and answer nodes, and the durable
invocations that name the new interaction as their child. -/
structure Preparation where
  lease : Option InteractionLease
  contextNodes : List NodeId
  answeredNodes : List NodeId
  invocations : List InvocationReference

/-- What a node submission carries beside its draft. -/
structure NodeContents where
  authoredDetail : AuthoredDetailUpdate
  preparedAssets : List PreparedDetailAsset
  preparedIcon : Option PreparedDetailAsset
  artifact : Option String

/-- The columns of an action row which a draft sets. -/
def ActionRow.withDraft (row : ActionRow) (draft : ActionDraft) : ActionRow :=
  { row with
    source := draft.sourceNodeId
    sourceLayer := draft.sourceLayerId
    kind := draft.kind
    relation := draft.relation
    label := draft.label
    variant := draft.variant
    icon := draft.icon
    description := draft.description
    targetLayer := draft.targetLayerId
    interactionText := draft.interactionText
    reusable :=
      if draft.kind = .invoke then some (draft.reusable.getD false) else none
    input := draft.input
    inputs := draft.inputActionIds }

namespace GraphDatabase

variable (db : GraphDatabase)

/-- The thread of a node is native. -/
def nativeNode (id : NodeId) : Bool :=
  (db.nodes.get? id).any fun row => decide (db.Native row.thread)

/-- `permissions::prepare`. -/
def preparePermissions (preparation : Preparation) : InteractionPermissions :=
  let lease := preparation.lease.toList.map fun lease =>
    InteractionPermission.invokeResolve lease.actionId
  let context := (preparation.contextNodes.filter db.nativeNode).map
    InteractionPermission.navigateAdd
  let answered := (preparation.answeredNodes.filter fun node =>
    db.nativeNode node && (db.nodes.get? node).any fun row =>
      decide (row.state = .accepted)).map InteractionPermission.navigateAdd
  { enabled := db.permissionsEnabled
    permissions := answered.foldl
      (fun granted permission =>
        if permission ∈ granted then granted else granted ++ [permission])
      (lease ++ context) }

/-- `contracts::prepare`: enabled permissions, the integration of every
invocation into its parent, and a response link for each node so named. -/
def prepareContract (permissions : InteractionPermissions)
    (preparation : Preparation) : CompletionContract :=
  let granted := if permissions.enabled then permissions.permissions else []
  let authorities := preparation.invocations.foldl
    (fun granted invocation =>
      let integration := InteractionPermission.navigateAdd invocation.parentNodeId
      if integration ∈ granted then granted else granted ++ [integration])
    granted
  { invocationReferences := preparation.invocations
    authorities
    returnRequirements := authorities.filterMap fun permission =>
      match permission with
      | .navigateAdd node => some node
      | .invokeResolve _ => none }

/-- The rows `CurrentTable::initialize` gives a new interaction. -/
def initialCompletion (host : Host) (scope : RowScope)
    (preparation : Preparation) : CompletionRow :=
  let permissions := db.preparePermissions preparation
  let entitlement := scope.target.display
  { lifecycle := .active
    headRevision := 0
    currentLayer := none
    finalLayer := none
    safeReason := none
    temporal := db.temporalFeatures
    authority :=
      { authorEligible := true
        readEntitlement := entitlement
        readEntitlementDigest := host.digest entitlement
        epoch := 0 }
    permissions
    contract := prepareContract permissions preparation
    rootAction := none
    revisions :=
      [{ revision := 0
         transition := "initial"
         baseRevision := none
         currentLayer := none
         lifecycle := .active
         operationKey := none
         requestDigest := none
         snapshotDigest := none
         safeReason := none }]
    pendingPresentations := [] }

/-- `insert_interaction` and `initialize_completion` in a native thread. -/
def createInteraction (host : Host) (scope : RowScope) (text : String)
    (preparation : Preparation) : GraphResult (NodeId × GraphDatabase) := do
  require (db.Native scope.thread)
    (.forbidden "imported conversation graphs are immutable")
  let id := db.nodes.nextKey
  let row : NodeRow :=
    { toRowScope := scope
      kind := "user-interaction"
      icon := "user"
      title := text
      detail := text
      authoredDetail := none
      artifact := none
      state := .accepted
      owner := none
      clientKey := none
      lease := preparation.lease
      publishedRevision := none
      presentationRevision := 0
      completion := some (db.initialCompletion host scope preparation) }
  return (id, { db with
    nodes := db.nodes.insert row
    outbox := db.outbox ++ [⟨id, 0, "initialized"⟩] })

/-- `activate_authority`: a new broker generation. -/
def activateAuthority (interaction : NodeId) : GraphResult (ℕ × GraphDatabase) := do
  let row ← db.completionState interaction
  require (row.authority.authorEligible ∧ row.lifecycle = .active)
    (.validation "terminal_completion" "completion"
      "Only an active author-eligible completion can activate execution authority.")
  return (row.authority.epoch + 1, db.updateCompletion interaction fun row =>
    { row with
      authority := { row.authority with epoch := row.authority.epoch + 1 } })

variable (scope : InteractionScope)

/-! ## Nodes and edges -/

/-- `immutable_node`. -/
def immutableNode : GraphError :=
  .validation "immutable_node" "node"
    "This node was already accepted. Create a new node and connect it to the old node instead of editing history."

/-- `NodeTable::insert_draft`. -/
def insertDraftNode (draft : NodeDraft) (authoredDetail artifact : Option String) :
    NodeId × GraphDatabase :=
  (db.nodes.nextKey, { db with
    nodes := db.nodes.insert
      { toRowScope := scope.toRowScope
        kind := draft.kind
        icon := draft.icon
        title := draft.title
        detail := draft.detail
        authoredDetail
        artifact
        state := .draft
        owner := some scope.root
        clientKey := some draft.clientKey
        lease := none
        publishedRevision := none
        presentationRevision := 0
        completion := none } })

/-- `NodeTable::update_draft`. -/
def updateDraftNode (id : NodeId) (draft : NodeDraft)
    (update : AuthoredDetailUpdate) (artifact : Option String) : GraphDatabase :=
  { db with
    nodes := db.nodes.mapRows fun other row =>
      if other = id then
        { row with
          kind := draft.kind
          icon := draft.icon
          title := draft.title
          detail := draft.detail
          authoredDetail :=
            match update with
            | .retain => row.authoredDetail
            | _ => update.replacement
          artifact }
      else
        row }

/-- The checks of `submit_node` before its transaction, with the canonical
icon of the draft. -/
def checkSubmission (host : Host) (draft : NodeDraft) (contents : NodeContents) :
    GraphResult String := do
  forSome contents.artifact host.validateArtifact
  (match contents.authoredDetail with
  | .replace package =>
      host.validateAuthoredDetail package contents.preparedAssets
  | _ =>
      require (contents.preparedAssets = [])
        (.validation "authored_detail_asset_snapshot_unexpected"
          "authoredDetail.assets"
          "Visual asset snapshots require a replacement package."))
  draft.requireFields
  host.canonicalIcon draft.icon contents.preparedIcon

/-- `submit_node_with_artifact`.  A broker's authority is checked before the
existing node, a trusted writer's after it. -/
def submitNode (host : Host) (draft : NodeDraft) (contents : NodeContents) :
    GraphResult (NodeId × GraphDatabase) := do
  let icon ← checkSubmission host draft contents
  let draft := { draft with icon }
  onlyIf scope.authorityEpoch.isSome (db.ensureWritable host scope)
  let existing := db.nodeByKey scope.root draft.clientKey
  require
    (existing.all fun id => (db.nodes.get? id).all fun row =>
      decide (row.state = .draft))
    immutableNode
  onlyIf scope.authorityEpoch.isNone (db.ensureWritable host scope)
  match existing with
  | some id =>
      return (id, db.updateDraftNode id draft contents.authoredDetail
        contents.artifact)
  | none =>
      return db.insertDraftNode scope draft contents.authoredDetail.replacement
        contents.artifact

/-- `EdgeTable::insert_draft`. -/
def insertDraftEdge (draft : EdgeDraft) (endpoints : NodeId × NodeId) :
    EdgeId × GraphDatabase :=
  (db.edges.nextKey, { db with
    edges := db.edges.insert
      { toRowScope := scope.toRowScope
        endpoints
        state := .draft
        owner := scope.root
        clientKey := draft.clientKey
        publishedRevision := none } })

/-- An endpoint of a new edge. -/
def checkEndpoint (node : NodeId) (index : ℕ) : GraphResult Unit :=
  match db.visibleNode scope node with
  | .ok _ => .ok ()
  | .error _ =>
      .error (.validation "unknown_endpoint" s!"endpoints[{index}]"
        s!"Node {node} is not available in this graph. Use a node returned by submitNode or getNode.")

/-- `create_edge`. -/
def createEdge (host : Host) (draft : EdgeDraft) :
    GraphResult (EdgeId × GraphDatabase) := do
  let endpoints ← draft.validate
  db.ensureWritable host scope
  db.checkEndpoint scope endpoints.1 0
  db.checkEndpoint scope endpoints.2 1
  match db.edgeByKey scope.root draft.clientKey with
  | some id =>
      require ((db.edges.get? id).any fun row => decide (row.endpoints = endpoints))
        (.validation "edge_key_reused" "clientKey"
          "This edge key already identifies another edge. Reuse the returned edge or choose a new local key.")
      return (id, db)
  | none =>
      match db.duplicateEdge scope endpoints with
      | some id =>
          .error (.validation "duplicate_edge" "endpoints"
            s!"Nodes {endpoints.1} and {endpoints.2} are already connected by edge {id}. Reuse that edge instead.")
      | none => return db.insertDraftEdge scope draft endpoints

/-! ## Layers -/

/-- `LayerTable::upsert_draft`. -/
def upsertDraftLayer (draft : LayerDraft) (renderer : Option String) :
    GraphResult (LayerId × GraphDatabase) :=
  match db.layerByKey scope.root draft.clientKey with
  | none =>
      .ok (db.layers.nextKey, { db with
        layers := db.layers.insert
          { toRowScope := scope.toRowScope
            state := .draft
            owner := scope.root
            clientKey := draft.clientKey
            nodes := draft.nodes
            edges := draft.edges
            layout := draft.layout
            defaultNode := draft.defaultNodeId
            renderer
            actions := []
            publishedRevision := none } })
  | some id =>
      match (db.layers.get? id).map fun row : LayerRow => row.state with
      | some .accepted =>
          .error (.validation "immutable_layer" "layer"
            "This layer was already accepted. Create a new layer instead of editing history.")
      | some .stopped =>
          .error (.validation "discarded_layer" "layer"
            "This layer was discarded and cannot be revived. Create a new layer with a new client key instead.")
      | _ =>
          .ok (id, { db with
            layers := db.layers.mapRows fun other row =>
              if other = id then
                { row with
                  nodes := draft.nodes
                  edges := draft.edges
                  layout := draft.layout
                  defaultNode := draft.defaultNodeId
                  renderer }
              else
                row })

/-- Two views of one artifact are two nodes. -/
def checkArtifactLayer (draft : LayerDraft) (renderer : Option String) :
    GraphResult Unit :=
  match renderer, draft.nodes with
  | some renderer, node :: _ =>
      if renderer = artifactRenderer then
        match db.otherArtifactLayer node scope.root draft.clientKey with
        | some other =>
            .error (.validation "artifact_node_in_another_layer" "nodes"
              s!"Node {node} already has artifact layer {other}. Show another view of the same file as a new artifact node in its own layer.")
        | none => .ok ()
      else
        .ok ()
  | _, _ => .ok ()

/-- `submit_layer_with_renderer`. -/
def submitLayer (host : Host) (draft : LayerDraft) (renderer : Option String) :
    GraphResult (LayerId × GraphDatabase) := do
  db.ensureWritable host scope
  let nodes ← draft.nodes.mapM (db.visibleNode scope)
  let edges ← draft.edges.mapM (db.visibleEdge scope)
  validateLayerRenderer renderer nodes edges.length
  db.checkArtifactLayer scope draft renderer
  validateLayerCandidate draft nodes edges
  db.upsertDraftLayer scope draft renderer

/-- The draft navigate actions of an interaction that leave one of its
layers. -/
def draftNavigates (owner : NodeId) (layer : LayerId) (_ : ActionId)
    (row : ActionRow) : Bool :=
  decide (row.sourceLayer = some layer ∧ row.owner = owner ∧
    row.state = .draft ∧ row.kind = .navigate)

/-- `is_reachable_from_root`. -/
def reachableFromRoot (owner : NodeId) (layer : LayerId) : Bool :=
  let seeds := db.targetsWhere fun _ row =>
    decide (row.owner = owner ∧ row.source = owner ∧ row.sourceLayer = none ∧
      row.state = .draft ∧ row.kind = .navigate)
  decide (layer ∈ db.layersReached (draftNavigates owner) seeds)

/-- `stop_owned_draft`. -/
def stopOwnedDraft (layer : LayerId) : GraphDatabase :=
  { db with
    layers := db.layers.mapRows fun id row =>
      if id = layer ∧ row.owner = scope.root ∧ row.state = .draft then
        { row with state := .stopped }
      else
        row }

/-- `discard_layer`. -/
def discardLayer (host : Host) (layer : LayerId) :
    GraphResult (LayerId × GraphDatabase) := do
  onlyIf scope.authorityEpoch.isSome (db.ensureWritable host scope)
  let row ← orThrow (← db.layerRecord scope layer)
    (.notFound s!"layer {layer}")
  require (row.owner = scope.root)
    (.forbidden s!"layer {layer} belongs to another interaction")
  match row.state with
  | .stopped => return (layer, db)
  | .accepted =>
      .error (.validation "immutable_layer" "layer"
        "This layer was already accepted and cannot be discarded.")
  | .draft => do
      onlyIf scope.authorityEpoch.isNone (db.ensureWritable host scope)
      require (db.reachableFromRoot scope.root layer = false)
        (.validation "reachable_layer" "layer"
          s!"Layer {layer} is reachable from the current root action. Retarget the incoming action before discarding this layer.")
      return (layer, db.stopOwnedDraft scope layer)

/-! ## Actions -/

/-- The source of an action is an attached node: accepted, and not the root. -/
def isAttachedSource (source : NodeId) : Bool :=
  (db.nodes.get? source).any fun row =>
    decide (row.state = .accepted ∧ source ≠ scope.root)

/-- `attached_navigation::identity_collision`. -/
def identityCollision (source : NodeId) (clientKey : String) : Bool :=
  db.actions.entries.any fun entry =>
    decide (entry.2.source = source ∧ entry.2.clientKey = clientKey ∧
      entry.2.owner ≠ scope.root ∧
      (entry.2.state = .accepted ∨ entry.2.state = .draft ∧
        (db.completion? entry.2.owner).any fun row =>
          decide (row.lifecycle = .active)))

/-- The checks of an addition to an attached node. -/
def checkAddition (host : Host) (draft : ActionDraft) : GraphResult Unit := do
  db.authorize host scope (.navigateAdd draft.sourceNodeId)
  let _ ← db.visibleNode scope draft.sourceNodeId
  require (draft.kind = .navigate)
    (.forbidden "Attached nodes authorize navigate additions only.")
  forSome draft.sourceLayerId fun id => do
    let layer ← db.visibleLayer scope id
    require (layer.state = .accepted ∧ draft.sourceNodeId ∈ layer.nodes)
      (.validation "invalid_source_provenance" "sourceLayerId"
        "Optional source-layer provenance must be an accepted visible occurrence of this node.")
  require (db.identityCollision scope draft.sourceNodeId draft.clientKey = false)
    (.validation "action_identity_conflict" "clientKey"
      "This persistent node already has that action identity. Preserve it and use a new clientKey for the addition.")

/-- The checks of a root action. -/
def checkRootAction (draft : ActionDraft) : GraphResult Unit := do
  require (draft.sourceLayerId = none)
    (.validation "unexpected_root_source_layer" "sourceLayerId"
      "The interaction root is not authored from a layer. Remove sourceLayerId and retry.")
  require (draft.kind = .navigate ∧ draft.relation = some .expand)
    (.validation "invalid_root_action" "relation"
      "The interaction root action must be navigate with relation=expand.")
  forSome (db.activeRootAction scope.root) fun id =>
    let key := ((db.actions.get? id).map (·.clientKey)).getD ""
    require (key = draft.clientKey)
      (.validation "root_action_already_exists" "clientKey"
        s!"This interaction already has active root action {id} with clientKey {quoted key}. Reuse that clientKey to update the existing draft root action, or call graph.submit(interactionNode) if it is already correct.")

/-- The layer is what the interaction's single root action expands to. -/
def isResponseRoot (layer : LayerId) : Bool :=
  match db.ownedActionsOfSource scope scope.root scope.root with
  | [root] =>
      decide (root.kind = .navigate ∧ root.relation = some .expand ∧
        root.sourceLayerId = none ∧ root.targetLayerId = some layer)
  | _ => false

/-- The checks of an action authored from a draft layer. -/
def checkAuthored (draft : ActionDraft) (source : NodeRow) :
    GraphResult Unit := do
  require (source.state = .draft ∧ source.owner = some scope.root)
    (.validation "immutable_action_source" "sourceNodeId"
      "New actions can only be authored on a draft node created for this interaction. Reused accepted nodes keep their existing actions.")
  let layerId ← orThrow draft.sourceLayerId
    (.validation "missing_source_layer" "sourceLayerId"
      "Identify the layer you are authoring from with sourceLayerId and retry.")
  let layer ← orThrow (← db.layerRecord scope layerId)
    (.validation "unknown_source_layer" "sourceLayerId"
      s!"Source layer {layerId} does not exist. Submit that layer first.")
  require (layer.owner = scope.root ∧ layer.state = .draft)
    (.validation "invalid_source_layer" "sourceLayerId"
      "New actions must be authored from a current-interaction draft layer.")
  require (draft.sourceNodeId ∈ layer.nodes)
    (.validation "source_node_outside_layer" "sourceNodeId"
      s!"Node {draft.sourceNodeId} is not in source layer {layerId}. Choose a source layer that contains the node.")
  require
    (.reference ∈ db.relationsToTarget scope.root layerId →
      (draft.kind = .navigate ∧ draft.relation = some .reference) ∨
        db.isResponseRoot scope layerId)
    (.validation "reference_layer_authoring_restricted" "relation"
      "This action starts from a reference layer. Reference layers may author only reference navigation. Change the relation to reference, or author the action from an expansion layer.")

/-- The root action may keep targeting the layer that is the current. -/
def rootReusesCurrent (draft : ActionDraft) (target : LayerRow)
    (layer : LayerId) : GraphResult Bool :=
  if draft.sourceNodeId = scope.root ∧ draft.relation = some .expand ∧
      target.owner = scope.root ∧ target.state = .accepted then do
    let current ← db.completionState scope.root
    return decide (current.lifecycle = .active ∧
      current.currentLayer = some layer)
  else
    return false

/-- The checks of an action's target. -/
def checkTarget (draft : ActionDraft) (attached : Bool) (layer : LayerId) :
    GraphResult Unit := do
  let target ← orThrow (← db.layerRecord scope layer)
    (.validation "unknown_target_layer" "targetLayerId"
      s!"Target layer {layer} does not exist. Submit that layer first.")
  let reuses ← db.rootReusesCurrent scope draft target layer
  require
    (draft.relation = some .expand → attached = false →
      target.owner = scope.root ∧ (target.state = .draft ∨ reuses))
    (.validation "expand_target_must_be_current_draft" "targetLayerId"
      "Expand actions must target a draft layer created for the current interaction. Create a current draft layer, or use relation=reference for visible accepted context.")
  require
    (draft.relation.isSome → target.state = .accepted ∨
      target.owner = scope.root ∧ target.state = .draft)
    (.validation "reference_target_not_visible" "targetLayerId"
      "Reference actions may target a current draft layer or a visible accepted layer.")

/-- The row of a new action. -/
def newAction (draft : ActionDraft) (attached : Bool) : ActionRow :=
  ActionRow.withDraft
    { toRowScope := scope.toRowScope
      source := draft.sourceNodeId
      sourceLayer := none
      kind := draft.kind
      relation := none
      label := ""
      variant := draft.variant
      icon := none
      description := none
      targetLayer := none
      interactionText := none
      state := .draft
      owner := scope.root
      clientKey := draft.clientKey
      reusable := none
      input := none
      inputs := []
      attached
      resolution := none
      publishedRevision := none }
    draft

/-- The calls made of an action by durable invocations. -/
def invocationsOf (id : ActionId) : ℕ :=
  (db.nodes.entries.flatMap fun entry =>
    (entry.2.completion.map (·.contract.invocationReferences)).getD []).countP
      fun reference => decide (reference.sourceActionId = id)

/-- `ActionTable::insert_draft` or `update_draft`, with the attached mark. -/
def writeAction (draft : ActionDraft) (attached : Bool) :
    GraphResult (ActionId × GraphDatabase) :=
  match db.actionByKey scope.root draft.sourceNodeId draft.clientKey with
  | none => do
      require
        (attached = false → draft.sourceNodeId = scope.root →
          draft.sourceLayerId = none → db.activeRootAction scope.root = none)
        (.storage "root_action_already_exists")
      return (db.actions.nextKey, { db with
        actions := db.actions.insert (newAction scope draft attached) })
  | some id => do
      require ((db.actions.get? id).all fun row => decide (row.state = .draft))
        (.validation "immutable_action" "action"
          "This action was already accepted. Create a new node and action instead of editing history.")
      require
        (¬ (draft.kind = .invoke ∧ draft.reusable.getD false = false ∧
          1 < db.invocationsOf id))
        (.validation "invoke_reuse_policy_conflict" "reusable"
          "This Invoke already has multiple calls and must retain reusable=true.")
      return (id, db.updateAction id fun row =>
        { ActionRow.withDraft row draft with attached := row.attached || attached })

/-- The checks an action's source asks for. -/
def checkSource (host : Host) (draft : ActionDraft) (source : NodeRow) :
    GraphResult Unit := do
  let attached := db.isAttachedSource scope draft.sourceNodeId
  onlyIf attached (db.checkAddition scope host draft)
  onlyIf (draft.sourceNodeId = scope.root) (db.checkRootAction scope draft)
  onlyIf (draft.sourceNodeId ≠ scope.root ∧ attached = false)
    (db.checkAuthored scope draft source)

/-- `add_action`. -/
def addAction (host : Host) (draft : ActionDraft)
    (preparedIcon : Option PreparedDetailAsset) :
    GraphResult (ActionId × GraphDatabase) := do
  let icon ← draft.validateShape fun icon => host.canonicalIcon icon preparedIcon
  let draft := { draft with icon }
  db.ensureWritable host scope
  db.validateInvokeInputs scope draft.sourceNodeId draft.inputActionIds
  let source ← orThrow (db.nodes.get? draft.sourceNodeId)
    (.notFound s!"source node {draft.sourceNodeId}")
  let attached := db.isAttachedSource scope draft.sourceNodeId
  db.checkSource scope host draft source
  forSome draft.targetLayerId (db.checkTarget scope draft attached)
  db.writeAction scope draft attached

/-! ## Presentations -/

/-- `attached_navigation::stage`. -/
def stagePresentation (host : Host) (node : NodeId) (expectedRevision : ℕ)
    (package : String) (assets : List PreparedDetailAsset) :
    GraphResult GraphDatabase := do
  db.ensureWritable host scope
  db.authorize host scope (.navigateAdd node)
  host.validateAuthoredDetail package assets
  db.checkRevision node expectedRevision
  db.validateBindings scope host node package
  return db.updateCompletion scope.root fun row =>
    { row with
      pendingPresentations :=
        (row.pendingPresentations.filter fun old => decide (old.node ≠ node)) ++
          [⟨node, expectedRevision, package⟩] }

end GraphDatabase

end RelayerGraph
