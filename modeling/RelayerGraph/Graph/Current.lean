import RelayerGraph.Graph.Accept

/-!
# Current transitions

`current.rs`: Advance, Return, Stop and Fail.  A transition runs in one write
transaction, so that an error leaves the database as it was.  What the derived
search index answers is an input of the transition.
-/

namespace RelayerGraph

open Foundation Checked Worklist

/-- What the search index answers in the course of one transition: whether the
target becomes available in time, whether a replay finds the two stores at one
revision, the revision the closure is indexed under, and whether the indexed
write commits. -/
structure IndexAnswers where
  available : GraphResult Unit
  matching : GraphResult Bool
  indexed : GraphResult ℕ
  commit : GraphResult Unit

/-- `FAILURE_REASONS`. -/
def failureReasons : List String :=
  ["authentication", "model_not_found", "rate_limit", "provider_5xx",
    "provider_timeout", "transport", "provider_disconnected",
    "model_unavailable", "configuration", "permission_receipt_mismatch",
    "application_restart", "provider_crashed",
    "provider_exited_without_return", "provider_start_failed",
    "provider_attachment_persist_failed", "graph_observation_failed",
    "approval_observation_failed", "capability_activation_failed",
    "preparation_failed", "execution"]

/-- `char::is_control`: the general category `Cc`. -/
def isControl (c : Char) : Bool :=
  decide (c.val.toNat < 0x20 ∨ 0x7F ≤ c.val.toNat ∧ c.val.toNat < 0xA0)

/-- `validate_operation_key`. -/
def validateOperationKey (value : String) : GraphResult Unit :=
  require
    (value.isEmpty = false ∧ value.utf8ByteSize ≤ 200 ∧
      value.toList.any isControl = false)
    (.validation "invalid_operation_key" "operationKey"
      "Operation key must contain 1-200 non-control UTF-8 characters.")

/-- `validate_terminal_reason`. -/
def validateTerminalReason (intent : CurrentTransition) : GraphResult Unit :=
  let valid : Bool :=
    match intent with
    | .stop reason => decide (reason = "cancelled_by_user")
    | .fail reason => failureReasons.contains reason
    | _ => true
  require valid
    (.validation "invalid_terminal_reason" "reason"
      "Terminal reason must be a canonical user-safe reason code.")

/-- `snapshot_digest`, over the sorted identities of a plan. -/
def snapshotDigest (host : Host) (plan : CompletionPlan) : String :=
  let ids (values : List ℕ) : String :=
    "[" ++ ",".intercalate ((values.dedup.mergeSort).map toString) ++ "]"
  host.digest <| "[" ++ ",".intercalate
    [toString plan.rootLayer, ids (plan.nodes.map (·.val)),
      ids (plan.edges.map (·.val)), ids (plan.layers.map (·.val)),
      ids (plan.actions.map (·.val))] ++ "]"

namespace GraphDatabase

variable (db : GraphDatabase) (scope : InteractionScope)

/-! ## Accessibility of the previous current -/

/-- One layer of `layer_reachable`. -/
def searchLayer (expected : LayerId) (visited : List LayerId)
    (layer : LayerId) : GraphResult (Turn (List LayerId) LayerId Bool) :=
  if layer ∈ visited then
    .ok (.proceed visited [])
  else if layer = expected then
    .ok (.stop true)
  else do
    let resolved ← db.resolve scope layer false
    let targets := resolved.actions.filterMap fun action =>
      if action.kind = .navigate ∧ action.relation.isSome then
        action.targetLayerId
      else
        none
    return .proceed (layer :: visited) targets

/-- `layer_reachable`.  An action can lead out of every layer which shows its
node, and no layer is left twice. -/
def layerReachable (start expected : LayerId) : GraphResult Bool :=
  drain (db.searchLayer scope expected) (fun _ => false)
    (.internal "search exhausted")
    (db.layers.entries.length * db.actions.entries.length + 1) [] [start]

/-- `require_accessibility`. -/
def requireAccessibility (old : Option LayerId) (new : LayerId) :
    GraphResult Unit :=
  forSome old fun old => onlyIf (old ≠ new) do
    let reachable ← db.layerReachable scope new old
    require reachable
      (.validation "current_accessibility_lost" "layerId"
        s!"The proposed current layer {new} does not preserve graph navigation to prior current layer {old}. Add a genuine reference path to that exact layer.")

/-! ## The publications of a transition -/

/-- The layers which show a changed action or node, and their ancestors. -/
def affectedLayers (converted : Option ActionId) (mutated : List NodeId) :
    List LayerId :=
  let changed := db.layers.select fun _ row =>
    (converted.any fun id => row.actions.contains id) ||
      row.nodes.any fun node => mutated.contains node
  let parents (child : LayerId) : List LayerId :=
    db.layers.select fun _ row => row.actions.any fun id =>
      (db.actions.get? id).any fun action =>
        action.isAcceptedNavigate && decide (action.targetLayer = some child)
  closure parents (changed.length + db.layers.entries.length) changed

/-- `published_currents_for_changes`, up to the order of the currents. -/
def publishedCurrentsForChanges (converted : Option ActionId)
    (mutated : List NodeId) : List (NodeId × LayerId) :=
  db.nodes.entries.filterMap fun entry =>
    (entry.2.completion.bind (·.currentLayer)).bind fun layer =>
      if (converted = none ∧ mutated = []) ∨
          layer ∈ db.affectedLayers converted mutated then
        some (entry.1, layer)
      else
        none

/-- The action an interaction resolved, by its receipt. -/
def convertedAction (interaction : NodeId) : Option ActionId :=
  (db.actions.select fun _ row =>
    row.resolution.any fun receipt => decide (receipt.1 = interaction)).head?

/-- `changed_nodes`: the nodes with accepted additions of an interaction. -/
def changedNodes (interaction : NodeId) : List NodeId :=
  ((db.acceptedAdditions interaction).filterMap fun id =>
    (db.actions.get? id).map (·.source)).dedup

/-- A publication with the targets it is published to. -/
abbrev Publication := AcceptedGraphPublication × List SearchTarget

/-- The closure of another current, when it shows a changed record. -/
def affectedPublication (converted : Option ActionId) (mutated : List NodeId)
    (current : NodeId × LayerId) : GraphResult (Option Publication) := do
  if current.1 = scope.root then
    return none
  else
    let presenting ← db.interactionScope current.1
    if presenting.target ≠ scope.target then
      return none
    else
      let root ← db.readOutputAction presenting
      let closure ← db.readAcceptedPublication presenting current.2 root
      let shows := closure.layers.any fun layer =>
        (layer.actions.any fun action => decide (some action.id = converted)) ||
          layer.nodes.any fun node => mutated.contains node.id
      return if shows then
        some (closure,
          publicationTargets presenting.project presenting.thread)
      else
        none

/-- Everything a publishing transition hands to the index: its own closure and
the closures it changed. -/
def transitionPublications (own : AcceptedGraphPublication) :
    GraphResult (List Publication) := do
  let converted := db.convertedAction scope.root
  let mutated := db.changedNodes scope.root
  let affected ←
    if converted = none ∧ mutated = [] then
      pure []
    else
      (db.publishedCurrentsForChanges converted mutated).mapM
        (db.affectedPublication scope converted mutated)
  return (own, publicationTargets scope.project scope.thread) ::
    affected.filterMap id

/-! ## The transition -/

/-- What the body of a transition leaves to be recorded. -/
structure Published where
  db : GraphDatabase
  currentLayer : Option LayerId
  finalLayer : Option LayerId
  snapshotDigest : String
  publication : Option AcceptedGraphPublication

/-- The body of Advance. -/
def advance (host : Host) (persisted : CompletionRow) (revision : ℕ)
    (layer : LayerId) : GraphResult Published := do
  require (persisted.currentLayer ≠ some layer)
    (.validation "current_unchanged" "layerId"
      "Advance must publish a new current layer.")
  let plan ← db.buildCurrentPlan scope host layer
  db.requireAccessibility scope persisted.currentLayer layer
  let published ← db.publish scope plan revision
  let publication ← published.readAcceptedPublication scope layer none
  return {
    db := published
    currentLayer := some layer
    finalLayer := none
    snapshotDigest := snapshotDigest host plan
    publication := some publication }

/-- The body of Return. -/
def returnCurrent (host : Host) (persisted : CompletionRow) (revision : ℕ)
    (layer : LayerId) : GraphResult Published := do
  let plan ← db.buildReturnPlan scope host layer persisted.currentLayer
  db.requireAccessibility scope persisted.currentLayer layer
  let published ← db.publish scope plan revision
  let finalized ← published.finalize scope host plan
  let root ← orThrow plan.rootAction
    (.internal "terminal completion plan has no root action")
  let rootAction ← orThrow (finalized.action scope root.id)
    (.internal "accepted root action is missing")
  let publication ← finalized.readAcceptedPublication scope layer (some rootAction)
  return {
    db := finalized
    currentLayer := some layer
    finalLayer := some layer
    snapshotDigest := snapshotDigest host plan
    publication := some publication }

/-- The body of Stop and Fail: staged presentations are dropped. -/
def endWithoutPublication (host : Host) (persisted : CompletionRow) :
    Published where
  db := db.discardPending scope
  currentLayer := persisted.currentLayer
  finalLayer := none
  snapshotDigest := host.digest "no-publication"
  publication := none

/-- The body of a transition. -/
def transitionBody (host : Host) (persisted : CompletionRow) (revision : ℕ) :
    CurrentTransition → GraphResult Published
  | .advance layer => db.advance scope host persisted revision layer
  | .return layer => db.returnCurrent scope host persisted revision layer
  | .stop _ => .ok (db.endWithoutPublication scope host persisted)
  | .fail _ => .ok (db.endWithoutPublication scope host persisted)

/-- `stale_revision` at the head of a transition. -/
def staleRevision (expected head : ℕ) : GraphError :=
  .validation "stale_revision" "expectedRevision"
    s!"Expected revision {expected}, but the durable current is revision {head}."

/-- The revision a transition appends. -/
def Published.revisionRow (published : Published) (host : Host)
    (expectedRevision : ℕ) (operationKey : String) (intent : CurrentTransition) :
    RevisionRow where
  revision := expectedRevision + 1
  transition := intent.name
  baseRevision := some expectedRevision
  currentLayer := published.currentLayer
  lifecycle := intent.lifecycle
  operationKey := some operationKey
  requestDigest := some (requestDigest host expectedRevision intent)
  snapshotDigest := some published.snapshotDigest
  safeReason := intent.safeReason

/-- The move of the head a transition makes. -/
def Published.headMove (published : Published) (interaction : NodeId)
    (expectedRevision : ℕ) (intent : CurrentTransition) : HeadMove where
  interaction
  expectedRevision
  revision := expectedRevision + 1
  lifecycle := intent.lifecycle
  currentLayer := published.currentLayer
  finalLayer := published.finalLayer
  safeReason := intent.safeReason

/-- The revision, the head and the event of a committed transition. -/
def Published.record (published : Published) (scope : InteractionScope)
    (host : Host) (expectedRevision : ℕ) (operationKey : String)
    (intent : CurrentTransition) : GraphResult (ℕ × GraphDatabase) := do
  require (expectedRevision + 1 < 2 ^ 63)
    (.validation "invalid_revision" "revision" "revision is too large")
  let appended ← published.db.appendRevision scope.root
    (published.revisionRow host expectedRevision operationKey intent)
  let moved ← orThrow
    (appended.moveHead (published.headMove scope.root expectedRevision intent))
    (.validation "stale_revision" "expectedRevision"
      "The completion current changed before this transition committed.")
  return moved.appendProjection scope.root (expectedRevision + 1)
    intent.eventKind

/-- What a transition commits. -/
structure Transitioned where
  receipt : CurrentTransitionReceipt
  db : GraphDatabase
  publications : List Publication

/-- A transition whose operation key is new. -/
def commitTransition (host : Host) (expectedRevision : ℕ)
    (operationKey : String) (intent : CurrentTransition)
    (index : IndexAnswers) : GraphResult Transitioned := do
  let persisted ← db.completionState scope.root
  require (persisted.lifecycle = .active)
    (.validation "terminal_completion" "completion"
      "This completion is terminal and cannot publish more graph work.")
  require (persisted.headRevision = expectedRevision)
    (staleRevision expectedRevision persisted.headRevision)
  let published ← db.transitionBody scope host persisted (expectedRevision + 1)
    intent
  let (sequence, recorded) ← published.record scope host expectedRevision
    operationKey intent
  let receipt : CurrentTransitionReceipt :=
    { completionId := scope.root
      revision := expectedRevision + 1
      lifecycle := intent.lifecycle
      currentLayerId := published.currentLayer
      finalLayerId := published.finalLayer
      operationKey
      requestDigest := requestDigest host expectedRevision intent
      snapshotDigest := published.snapshotDigest
      projectionSequence := sequence }
  match published.publication with
  | none => return { receipt, db := recorded, publications := [] }
  | some own =>
      let publications ← recorded.transitionPublications scope own
      let revision ← index.indexed
      let indexed := recorded.recordRevision scope.target revision
      index.commit
      return { receipt, db := indexed, publications }

/-- `transition`.  A committed operation key is answered with its receipt. -/
def transition (host : Host) (expectedRevision : ℕ) (operationKey : String)
    (intent : CurrentTransition) (index : IndexAnswers) :
    GraphResult Transitioned := do
  validateOperationKey operationKey
  require
    (¬ (scope.authorityEpoch.isSome ∧ intent.isFail))
    (.forbidden
      "Completion failure is owned by trusted control and is not available through the model broker.")
  validateTerminalReason intent
  onlyIf intent.publishesGraph index.available
  db.requireActiveAuthority host scope
  match db.receipt scope.root operationKey with
  | some receipt =>
      if receipt.requestDigest = requestDigest host expectedRevision intent then
        onlyIf intent.publishesGraph (index.matching.map fun _ => ())
        return { receipt, db, publications := [] }
      else
        .error (.validation "idempotency_conflict" "operationKey"
          "This operation key is already committed with different transition input.")
  | none =>
      db.commitTransition scope host expectedRevision operationKey intent index

end GraphDatabase

end RelayerGraph
