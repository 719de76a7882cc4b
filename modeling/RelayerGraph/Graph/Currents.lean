import RelayerGraph.Graph.Storage

/-!
# Completions and their authority

The statements on `completion_states`, `current_revisions` and the projection
outbox, and the checks of authority every write begins with.

What the engine computes from the contents of a text alone (digests, icon
names, artifact details and authored packages) is a parameter, because nothing
in the graph depends on how it is computed.
-/

namespace RelayerGraph

open Foundation Checked

/-- `PreparedDetailAsset`, by what a package pins. -/
structure PreparedDetailAsset where
  assetId : String
  digestSha256 : String
  mediaType : String
deriving DecidableEq

/-- The computations on contents.  `bindings` is the part of
`validate_bindings` which compares a package with the actions of its node. -/
structure Host where
  digest : String → String
  canonicalIcon : String → Option PreparedDetailAsset → GraphResult String
  validateArtifact : String → GraphResult Unit
  validateAuthoredDetail : String → List PreparedDetailAsset → GraphResult Unit
  bindings : Option String → List GraphAction → String → GraphResult Unit

/-! ## Transitions -/

/-- `CurrentTransition`. -/
inductive CurrentTransition
  | advance (layerId : LayerId)
  | return (layerId : LayerId)
  | stop (reason : String)
  | fail (reason : String)
deriving DecidableEq

namespace CurrentTransition

def name : CurrentTransition → String
  | .advance _ => "advance"
  | .return _ => "return"
  | .stop _ => "stop"
  | .fail _ => "fail"

/-- The lifecycle a transition leaves. -/
def lifecycle : CurrentTransition → CompletionLifecycle
  | .advance _ => .active
  | .return _ => .succeeded
  | .stop _ => .stopped
  | .fail _ => .failed

def safeReason : CurrentTransition → Option String
  | .stop reason => some reason
  | .fail reason => some reason
  | _ => none

/-- The event a transition appends to the projection. -/
def eventKind : CurrentTransition → String
  | .advance _ => "advanced"
  | .return _ => "returned"
  | .stop _ => "stopped"
  | .fail _ => "failed"

/-- Advance and Return publish graph work. -/
def publishesGraph : CurrentTransition → Bool
  | .advance _ => true
  | .return _ => true
  | _ => false

/-- Fail is reserved to trusted control. -/
def isFail : CurrentTransition → Bool
  | .fail _ => true
  | _ => false

/-- The JSON of a transition. -/
def canonical : CurrentTransition → String
  | .advance layer => "\x7b\"kind\":\"advance\",\"layerId\":" ++ toString layer ++ "\x7d"
  | .return layer => "\x7b\"kind\":\"return\",\"layerId\":" ++ toString layer ++ "\x7d"
  | .stop reason => "\x7b\"kind\":\"stop\",\"reason\":" ++ quoted reason ++ "\x7d"
  | .fail reason => "\x7b\"kind\":\"fail\",\"reason\":" ++ quoted reason ++ "\x7d"

end CurrentTransition

/-- `current_transition_request_digest`. -/
def requestDigest (host : Host) (expectedRevision : ℕ)
    (intent : CurrentTransition) : String :=
  host.digest ("[" ++ toString expectedRevision ++ "," ++ intent.canonical ++ "]")

/-- `CurrentTransitionReceipt`. -/
structure CurrentTransitionReceipt where
  completionId : NodeId
  revision : ℕ
  lifecycle : CompletionLifecycle
  currentLayerId : Option LayerId
  finalLayerId : Option LayerId
  operationKey : String
  requestDigest : String
  snapshotDigest : String
  projectionSequence : ℕ
deriving DecidableEq

/-! ## The rows of a completion -/

/-- One more revision of a completion. -/
def RevisionRow.appendTo (row : RevisionRow) (stored : CompletionRow) :
    CompletionRow :=
  { stored with revisions := stored.revisions ++ [row] }

namespace GraphDatabase

variable (db : GraphDatabase)

/-- The rows keyed by an interaction, when it is initialized. -/
def completion? (interaction : NodeId) : Option CompletionRow :=
  (db.nodes.get? interaction).bind (·.completion)

/-- `CurrentTable::state`. -/
def completionState (interaction : NodeId) : GraphResult CompletionRow :=
  orThrow (db.completion? interaction)
    (.notFound s!"completion {interaction}")

/-- Rewrite the rows of one completion. -/
def updateCompletion (interaction : NodeId)
    (f : CompletionRow → CompletionRow) : GraphDatabase :=
  { db with
    nodes := db.nodes.mapRows fun id row =>
      if id = interaction then
        { row with completion := row.completion.map f }
      else
        row }

/-- `NodeTable::interaction_scope`, the scope of a trusted writer. -/
def interactionScope (id : NodeId) : GraphResult InteractionScope :=
  match db.nodes.get? id with
  | some row =>
      if row.kind = "user-interaction" ∧ row.state = .accepted ∧
          row.owner = none then
        .ok
          { project := row.project
            thread := row.thread
            root := id
            readOnly := decide (¬ db.Native row.thread)
            authorityEpoch := none }
      else
        .error (.forbidden
          "graph writer requires an accepted user-interaction node")
  | none =>
      .error (.forbidden
        "graph writer requires an accepted user-interaction node")

/-! ## Authority -/

/-- `InteractionScope::read_entitlement`. -/
def readEntitlement (scope : InteractionScope) : String :=
  scope.target.display

/-- `CurrentTable::validate_authority`. -/
def validateAuthority (host : Host) (scope : InteractionScope)
    (epoch : ℕ) : GraphResult Unit :=
  require
    ((db.completion? scope.root).any fun row =>
      row.authority.authorEligible && decide (row.authority.epoch = epoch) &&
        decide (row.authority.readEntitlement = readEntitlement scope) &&
        decide (row.authority.readEntitlementDigest =
          host.digest (readEntitlement scope)) &&
        decide (row.lifecycle = .active))
    (.validation "authority_generation_expired" "authority"
      "This completion broker generation is expired or terminal.")

/-- `InteractionScope::require_active_authority`.  A trusted writer has no
epoch and always passes. -/
def requireActiveAuthority (host : Host) (scope : InteractionScope) :
    GraphResult Unit :=
  forSome scope.authorityEpoch fun epoch => db.validateAuthority host scope epoch

/-- `GraphWriter::ensure_writable`. -/
def ensureWritable (host : Host) (scope : InteractionScope) :
    GraphResult Unit := do
  require (scope.readOnly = false)
    (.forbidden "imported conversation graphs are immutable")
  db.requireActiveAuthority host scope
  let current ← db.completionState scope.root
  require (current.lifecycle = .active)
    (.forbidden
      "this interaction already has an accepted completion or terminal completion state")

/-- `ActionTable::require_native_provenance`. -/
def requireNativeProvenance (id : ActionId) : GraphResult Unit :=
  let native : Option Bool := do
    let action ← db.actions.get? id
    let source ← db.nodes.get? action.source
    let owner ← db.nodes.get? action.owner
    let sourceOwner ← source.owner
    let sourceOwner ← db.nodes.get? sourceOwner
    return decide (db.Native action.thread ∧ db.Native source.thread ∧
      db.Native owner.thread ∧ db.Native sourceOwner.thread)
  require (native = some true)
    (.forbidden
      "Imported actions and source nodes cannot acquire invoke mutation authority.")

/-- The node a `navigate.add` permission may name: native, accepted and owned
by an interaction. -/
def attachable (id : NodeId) : Bool :=
  (db.nodes.get? id).any fun row =>
    decide (row.state = .accepted ∧ row.owner ≠ none ∧ db.Native row.thread)

/-- `permissions::authorize`. -/
def authorize (host : Host) (scope : InteractionScope)
    (permission : InteractionPermission) : GraphResult Unit := do
  db.requireActiveAuthority host scope
  match permission with
  | .invokeResolve action => db.requireNativeProvenance action
  | .navigateAdd node => do
      require (db.attachable node)
        (.forbidden
          "Only a native accepted attached node may receive navigation.")
      let _ ← db.visibleNode scope node
  let row := db.completion? scope.root
  require
    (scope.readOnly = false ∧
      (row.any fun row => decide (row.lifecycle = .active)) ∧
      (row.any fun row => row.contract.authorities.contains permission))
    (.forbidden "This interaction does not authorize the exact operation.")

/-- Whether the permissions stored for an interaction are enabled. -/
def typedPermissions (interaction : NodeId) : Bool :=
  (db.completion? interaction).any fun row => row.permissions.enabled

/-! ## Revisions -/

/-- `CurrentTable::append_revision`; the operation key is unique within the
completion. -/
def appendRevision (interaction : NodeId) (row : RevisionRow) :
    GraphResult GraphDatabase := do
  let stored ← db.completionState interaction
  require
    (¬ stored.revisions.any fun old =>
      decide (old.revision = row.revision) ||
        decide (old.operationKey = row.operationKey))
    (.storage "UNIQUE constraint failed: current_revisions")
  return db.updateCompletion interaction row.appendTo

/-- `HeadMove`. -/
structure HeadMove where
  interaction : NodeId
  expectedRevision : ℕ
  revision : ℕ
  lifecycle : CompletionLifecycle
  currentLayer : Option LayerId
  finalLayer : Option LayerId
  safeReason : Option String

/-- The columns a head move sets. -/
def HeadMove.apply (move : HeadMove) (row : CompletionRow) : CompletionRow :=
  { row with
    lifecycle := move.lifecycle
    headRevision := move.revision
    currentLayer := move.currentLayer
    finalLayer := move.finalLayer
    safeReason := move.safeReason }

/-- `CurrentTable::move_head`: only the expected active head moves. -/
def moveHead (move : HeadMove) : Option GraphDatabase :=
  if (db.completion? move.interaction).any fun row =>
      decide (row.lifecycle = .active ∧
        row.headRevision = move.expectedRevision) then
    some (db.updateCompletion move.interaction move.apply)
  else
    none

/-- `CurrentTable::append_projection`, with the sequence of the new event. -/
def appendProjection (interaction : NodeId) (revision : ℕ)
    (eventKind : String) : ℕ × GraphDatabase :=
  (db.outbox.length + 1,
    { db with outbox := db.outbox ++ [⟨interaction, revision, eventKind⟩] })

/-- The sequence of the event of a revision. -/
def projectionSequence (interaction : NodeId) (revision : ℕ) : Option ℕ :=
  (db.outbox.findIdx? fun event =>
    decide (event.interaction = interaction ∧ event.revision = revision)).map
      (· + 1)

/-- `CurrentTable::receipt`: the receipt is rebuilt from the stored revision
and its event. -/
def receipt (interaction : NodeId) (operationKey : String) :
    Option CurrentTransitionReceipt := do
  let stored ← db.completion? interaction
  let row ← stored.revisions.find? fun row =>
    decide (row.operationKey = some operationKey)
  let sequence ← db.projectionSequence interaction row.revision
  let requestDigest ← row.requestDigest
  let snapshotDigest ← row.snapshotDigest
  return {
    completionId := interaction
    revision := row.revision
    lifecycle := row.lifecycle
    currentLayerId := row.currentLayer
    finalLayerId := if row.lifecycle = .succeeded then row.currentLayer else none
    operationKey := operationKey
    requestDigest := requestDigest
    snapshotDigest := snapshotDigest
    projectionSequence := sequence }

/-- `SearchIndexTable::record_revision`. -/
def recordRevision (target : SearchTarget) (revision : ℕ) : GraphDatabase :=
  { db with
    searchRevisions :=
      (db.searchRevisions.filter fun row => decide (row.1 ≠ target)) ++
        [(target, revision)] }

end GraphDatabase

end RelayerGraph
