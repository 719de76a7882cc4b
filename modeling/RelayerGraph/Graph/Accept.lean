import RelayerGraph.Graph.Plan

/-!
# Publishing a plan

`accept.rs` and the statements it runs: rows of a plan become accepted, layers
receive their snapshots, attached additions and a resolved lease join the
layers which show their node, and the accepted closure is read back.
-/

namespace RelayerGraph

open Foundation Checked Worklist

namespace GraphDatabase

variable (db : GraphDatabase) (scope : InteractionScope)

/-! ## Accepting rows -/

/-- `publish_owned` on every row of a plan: only the interaction's own rows
change. -/
def acceptRows (plan : CompletionPlan) (revision : ℕ) : GraphDatabase :=
  let published (stored : Option ℕ) : Option ℕ := some (stored.getD revision)
  { db with
    layers := db.layers.mapRows fun id row =>
      if id ∈ plan.layers ∧ row.owner = scope.root then
        { row with
          state := .accepted
          publishedRevision := published row.publishedRevision }
      else
        row
    nodes := db.nodes.mapRows fun id row =>
      if id ∈ plan.nodes ∧ row.owner = some scope.root then
        { row with
          state := .accepted
          publishedRevision := published row.publishedRevision }
      else
        row
    edges := db.edges.mapRows fun id row =>
      if id ∈ plan.edges ∧ row.owner = scope.root then
        { row with
          state := .accepted
          publishedRevision := published row.publishedRevision }
      else
        row
    actions := db.actions.mapRows fun id row =>
      if id ∈ plan.actions ∧ row.owner = scope.root then
        { row with
          state := .accepted
          publishedRevision := published row.publishedRevision }
      else
        row }

/-- `accepted_owned_invokes_in_layer`. -/
def acceptedInvokesIn (layer : LayerId) : List ActionId :=
  match db.layers.get? layer with
  | none => []
  | some stored =>
      db.actions.select fun _ row =>
        decide (row.source ∈ stored.nodes ∧ row.owner = scope.root ∧
          row.kind = .invoke ∧ row.state = .accepted)

/-- The snapshot of a layer.  Under typed permissions an accepted invoke of
the plan also appears in the other layers which show its node. -/
def snapshotOf (plan : CompletionPlan) (layer : LayerId)
    (actions : List ActionId) : List ActionId :=
  if db.typedPermissions scope.root then
    actions ++ (db.acceptedInvokesIn scope layer).filter fun id =>
      decide (id ∈ plan.actions ∧ id ∉ actions)
  else
    actions

/-- `LayerTable::snapshot_actions`: an accepted own layer receives its list,
and two rows of one action or of one position are refused. -/
def snapshotActions (layer : LayerId) (actions : List ActionId) :
    GraphResult GraphDatabase := do
  let empty := (db.layers.get? layer).all fun row =>
    decide (row.owner = scope.root ∧ row.state = .accepted →
      row.actions = [] ∨ actions = [])
  require (empty ∧ actions.Nodup)
    (.storage "UNIQUE constraint failed: layer_actions")
  return { db with
    layers := db.layers.mapRows fun id row =>
      if id = layer ∧ row.owner = scope.root ∧ row.state = .accepted then
        { row with actions := row.actions ++ actions }
      else
        row }

/-- `accept::publish`. -/
def publish (plan : CompletionPlan) (revision : ℕ) :
    GraphResult GraphDatabase :=
  plan.layerActions.foldlM
    (fun db entry =>
      db.snapshotActions scope entry.1
        (db.snapshotOf scope plan entry.1 entry.2))
    (db.acceptRows scope plan revision)

/-! ## Attached additions -/

/-- The arcs which `attached_navigation::expand_cycle` follows from a layer:
those of its snapshot, and those of the additions it is about to receive. -/
def followsAddition (layer : LayerId) (id : ActionId) (row : ActionRow) : Bool :=
  row.isAcceptedExpand && (db.layers.get? layer).any fun stored =>
    stored.nodes.contains row.source &&
      (stored.actions.contains id ||
        (row.attached && decide (row.owner = scope.root) &&
          decide (stored.state = .accepted ∧ db.Native stored.thread)))

/-- `attached_navigation::expand_cycle`. -/
def additionCycle : Bool :=
  (db.acceptedAdditions scope.root).any fun id =>
    (db.actions.get? id).any fun row =>
      decide (row.relation = some .expand) &&
        (db.layersReached (db.followsAddition scope) row.targetLayer.toList).any
          fun layer =>
            (db.layers.get? layer).any fun stored =>
              stored.nodes.contains row.source

/-- Append an action to the snapshot of the selected layers which do not list
it yet. -/
def appendToLayers (id : ActionId) (selected : LayerRow → Bool) :
    GraphDatabase :=
  { db with
    layers := db.layers.mapRows fun _ row =>
      if selected row ∧ id ∉ row.actions then
        { row with actions := row.actions ++ [id] }
      else
        row }

/-- One addition appears in every accepted native layer showing its node. -/
def showAddition (id : ActionId) : GraphDatabase :=
  match db.actions.get? id with
  | none => db
  | some action =>
      db.appendToLayers id fun row =>
        decide (action.source ∈ row.nodes ∧ row.state = .accepted ∧
          db.Native row.thread)

/-- A pending presentation replaces the detail of its accepted node. -/
def publishPresentation (presentation : PendingPresentation) : GraphDatabase :=
  { db with
    nodes := db.nodes.mapRows fun id row =>
      if id = presentation.node then
        { row with
          authoredDetail :=
            if row.state = .accepted then
              some presentation.package
            else
              row.authoredDetail
          presentationRevision := row.presentationRevision + 1 }
      else
        row }

/-- `attached_navigation::discard_pending`. -/
def discardPending : GraphDatabase :=
  db.updateCompletion scope.root fun row =>
    { row with pendingPresentations := [] }

/-- `attached_navigation::publish`. -/
def publishAttached : GraphResult GraphDatabase := do
  require (db.additionCycle scope = false)
    (.validation "expand_cycle" "navigate.add"
      "Attached navigation would create a node-owned expansion cycle. Use reference for cyclic context.")
  let shown := (db.acceptedAdditions scope.root).foldl showAddition db
  let presented := (db.pendingPresentations scope.root).foldl
    publishPresentation shown
  return presented.discardPending scope

/-! ## Resolving a lease -/

/-- The arcs which the typed resolution follows: the accepted expand actions on
the nodes of a layer. -/
def nodeExpands (layer : LayerId) (_ : ActionId) (row : ActionRow) : Bool :=
  row.isAcceptedExpand && db.lists layer row.source

/-- Resolving the action into the target would close a cycle. -/
def resolutionCycle (id : ActionId) (target : LayerId) : Bool :=
  (db.actions.get? id).any fun row =>
    (db.layersReached db.nodeExpands [target]).any fun layer =>
      db.lists layer row.source

/-- Rewrite one action. -/
def updateAction (id : ActionId) (f : ActionRow → ActionRow) : GraphDatabase :=
  { db with
    actions := db.actions.mapRows fun other row =>
      if other = id then f row else row }

/-- An accepted invoke which is not resolved yet. -/
def resolvable (id : ActionId) : Bool :=
  (db.actions.get? id).any fun row =>
    decide (row.state = .accepted ∧ row.kind = .invoke ∧ row.targetLayer = none)

/-- The error of a lease that was resolved already. -/
def leaseConsumed : GraphError :=
  .validation "invoke_lease_already_consumed" "interactionNode.leasedActionId"
    "The leased invoke action was already resolved or is no longer eligible for resolution."

/-- `ActionTable::resolve_leased_invoke` without a typed interaction: the
invoke keeps its kind. -/
def resolveUntyped (id : ActionId) (target : LayerId) :
    GraphResult GraphDatabase := do
  require (db.resolvable id) leaseConsumed
  return db.updateAction id fun row => { row with targetLayer := some target }

/-- The same with a typed interaction: the invoke becomes an expand action and
appears in every accepted native layer showing its node. -/
def resolveTyped (id : ActionId) (target : LayerId) (interaction : NodeId) :
    GraphResult GraphDatabase := do
  require (db.resolutionCycle id target = false)
    (.validation "expand_cycle" "invoke.resolve"
      "Resolving this invoke would create a node-owned expansion cycle.")
  require (db.resolvable id) leaseConsumed
  let converted := db.updateAction id fun row =>
    { row with
      kind := .navigate
      relation := some .expand
      interactionText := none
      targetLayer := some target
      resolution := some (interaction, target) }
  return match converted.actions.get? id with
  | none => converted
  | some action =>
      converted.appendToLayers id fun row =>
        decide (action.source ∈ row.nodes ∧ row.state = .accepted ∧
          row.toRowScope.target = action.toRowScope.target ∧
          db.Native row.thread)

/-! ## Completing -/

/-- `CompletionTable::insert`. -/
def insertCompletion (interaction : NodeId) (rootAction : ActionId) :
    GraphResult GraphDatabase := do
  let row ← db.completionState interaction
  require (row.rootAction = none)
    (.storage "UNIQUE constraint failed: completions.interaction_node_id")
  return db.updateCompletion interaction fun row =>
    { row with rootAction := some rootAction }

/-- The part of `accept::finalize` for a lease. -/
def resolveLease (host : Host) (plan : CompletionPlan) :
    GraphResult GraphDatabase :=
  match plan.lease with
  | none => .ok db
  | some lease =>
      if db.typedPermissions scope.root then do
        db.authorize host scope (.invokeResolve lease.actionId)
        db.resolveTyped lease.actionId plan.rootLayer scope.root
      else
        db.resolveUntyped lease.actionId plan.rootLayer

/-- `accept::finalize`. -/
def finalize (host : Host) (plan : CompletionPlan) :
    GraphResult GraphDatabase := do
  let db ← db.publishAttached scope
  let db ← db.resolveLease scope host plan
  let rootAction ← orThrow plan.rootAction
    (.internal "terminal completion plan has no root action")
  db.insertCompletion scope.root rootAction.id

/-! ## Reading what was published -/

/-- The layers seen so far and, in reading order, the layers read. -/
structure ClosureRead where
  visited : List LayerId
  layers : List ResolvedLayer

/-- One action of a read layer: the layers it adds to the queue. -/
def followAction (layer : LayerId)
    (read : List LayerId × List ResolvedLayer) (action : GraphAction) :
    GraphResult (List LayerId × List ResolvedLayer) := do
  let (visited, found) := read
  require (action.state = .accepted)
    (.internal
      s!"accepted layer {layer} contains non-accepted action {action.id}")
  if action.kind = .navigate then
    let target ← orThrow action.targetLayerId
      (.internal s!"accepted navigate action {action.id} has no target layer")
    if target ∈ visited then
      return (visited, found)
    else
      let resolved ← db.resolve scope target true
      return (target :: visited, found ++ [resolved])
  else
    return (visited, found)

/-- The body of the loop of `read_accepted_publication_on`. -/
def readLayer (read : ClosureRead) (layer : ResolvedLayer) :
    GraphResult (Turn ClosureRead ResolvedLayer (List ResolvedLayer)) := do
  let (visited, found) ← layer.actions.foldlM
    (db.followAction scope layer.layer.id) (read.visited, [])
  return .proceed { visited, layers := read.layers ++ [layer] } found

/-- `read_accepted_publication_on`. -/
def readAcceptedPublication (rootLayer : LayerId)
    (rootAction : Option GraphAction) :
    GraphResult AcceptedGraphPublication := do
  let root ← db.resolve scope rootLayer true
  let layers ← drain (db.readLayer scope) (·.layers)
    (.internal "publication exhausted") (db.layers.entries.length + 1)
    { visited := [rootLayer], layers := [] } [root]
  let interaction ← orThrow (db.nodes.get? scope.root)
    (.internal "accepted interaction node is missing")
  return {
    nodeId := scope.root
    interaction := interaction.record scope.root
    rootAction
    rootLayerId := rootLayer
    layers }

/-- The accepted root action a completion returned with, as `read_output_on`
finds it. -/
def readOutputAction : GraphResult (Option GraphAction) :=
  match (db.completion? scope.root).bind (·.rootAction) with
  | none => .ok none
  | some id => do
      let action ← orThrow (db.action scope id)
        (.internal "completion root action is missing")
      require
        (action.state = .accepted ∧ action.kind = .navigate ∧
          action.relation = some .expand ∧ action.sourceLayerId = none)
        (.internal
          "completion root action is not an accepted root expand action")
      let layer ← orThrow action.targetLayerId
        (.internal "completion root action target is missing")
      let _ ← db.resolve scope layer true
      return some action

end GraphDatabase

end RelayerGraph
