import RelayerGraph.Foundation.Keyed
import RelayerGraph.Foundation.TransitionSystem
import RelayerGraph.Recorder.Receipts

/-!
# The graph operation recorder

A proxy before the graph server.  It learns from the control requests it passes
on which capability belongs to which interaction, keeps a receipt of every graph
operation that arrives with such a capability, and exports the receipts of an
interaction once the operations under way are settled.

A request is taken from its arrival to its end in the steps between which the
process waits: for the body of the request, and for the answer of the server.
What follows the last wait of a request, its receipt and its release, is one
step; so is what an export does between two waits.
-/

namespace RelayerGraph

namespace GraphOperationRecorder

open Foundation

/-! ## State -/

/-- The bounds a recorder is started with; they are refused when they are not
positive. -/
structure Settings where
  maxEventsPerInteraction : ℕ
  maxAuthoringDiagnosticsPerInteraction : ℕ
  maxBytesPerInteraction : ℕ
  maxEvents_pos : 0 < maxEventsPerInteraction
  maxAuthoringDiagnostics_pos : 0 < maxAuthoringDiagnosticsPerInteraction
  maxBytes_pos : 0 < maxBytesPerInteraction

structure Event where
  receipt : Receipt
  sequence : ℕ
  interactionNodeId : ℕ

/-- What is kept for one interaction. -/
structure InteractionState where
  events : List Event
  graphEventCount : ℕ
  diagnosticEventCount : ℕ
  diagnosticBytes : ℕ
  diagnosticDiscarded : ℕ
  diagnosticIds : List String
  byteLength : ℕ
  discardedEvents : ℕ
  discardedBytes : ℕ

def InteractionState.empty : InteractionState := ⟨[], 0, 0, 0, 0, [], 0, 0, 0⟩

structure AttributedOperation where
  interactionNodeId : ℕ
  method : String
  path : String

/-- A request that has not ended.  `entered` is the interaction state among
whose pending activities it is; it stays there until it ends. -/
structure Request where
  method : String
  path : String
  interactionNodeId : Option ℕ
  attributedOperation : Option AttributedOperation
  entered : Option ℕ
  accounted : Bool
  aborted : Bool

structure Descriptor where
  status : String
  promotable : Bool
  events : List Event
  byteLength : ℕ
  eventCount : ℕ
  truncated : Bool
  authoringDiagnosticsDiscarded : Option ℕ
  discardedEvents : Option ℕ
  discardedBytes : Option ℕ

/-- Where an export waits: for the activities pending at the beginning of its
turn or the timeout, for the activities it has cancelled, or for the files. -/
inductive ExportStage where
  | settling (activities : List ℕ)
  | cancelling (activities : List ℕ)
  | writing (descriptor : Descriptor)

structure Export where
  interactionNodeId : ℕ
  state : ℕ
  stage : ExportStage

/-- The recorder.  Requests, exports and interaction states are numbered in the
order they are made. -/
structure Recorder where
  capabilityOwners : Keyed String ℕ
  knownSecrets : List String
  states : Keyed ℕ InteractionState
  nextState : ℕ
  interactions : Keyed ℕ ℕ
  exportedInteractions : List ℕ
  requests : Keyed ℕ Request
  nextRequest : ℕ
  exports : Keyed ℕ Export
  nextExport : ℕ
  sequence : ℕ
  closed : Bool

def Recorder.start : Recorder :=
  ⟨.empty, [], .empty, 0, .empty, [], .empty, 0, .empty, 0, 0, false⟩

/-! ## Capabilities -/

def authoringErrorsPath : String := "/api/graph/authoring-errors"

def isGraphPath (path : String) : Bool :=
  "/api/graph/".toList.isPrefixOf path.toList

/-- What `\s` matches. -/
def isSpace (c : Char) : Bool :=
  c.toNat ∈ [0x20, 0xa0, 0x1680, 0x2028, 0x2029, 0x202f, 0x205f, 0x3000,
    0xfeff] || (9 ≤ c.toNat && c.toNat ≤ 13) ||
    (0x2000 ≤ c.toNat && c.toNat ≤ 0x200a)

/-- `bearerToken`. -/
def bearerToken (header : Option String) : Option String := do
  let text ← header
  let token ← "Bearer ".toList.isPrefixOf? text.toList
  if token ≠ [] ∧ token.all fun c => !isSpace c then
    some (String.ofList token)
  else none

/-- What a control request changes about the capabilities. -/
inductive CapabilityChange where
  | issue (token : String) (node : ℕ)
  | revoke (token : Option String) (node : Option ℕ)
  deriving DecidableEq

/-- The capability a value names under a token and a node. -/
def issueOf (token node : Option Json) : Option CapabilityChange := do
  let token ← token.bind Json.asString
  let node ← node.bind Json.positiveInteger
  if token ≠ "" then some (.issue token node) else none

def capabilityChange (method path : String) (status : ℕ)
    (request response : Option Json) : Option CapabilityChange :=
  if method = "POST" ∧ path = "/api/control/capabilities" ∧ isOk status then
    issueOf (field request "graphToken") (field request "nodeId")
  else if method = "POST" ∧ path = "/api/control/interactions" ∧
      isOk status then
    issueOf (field response "graphToken") (field (field response "node") "id")
  else if method = "DELETE" ∧ path = "/api/control/capabilities" ∧
      isOk status then
    request.map fun value =>
      .revoke ((value.get? "graphToken").bind Json.asString)
        ((value.get? "nodeId").bind Json.positiveInteger)
  else none

/-- `knownSecrets.add`. -/
def Recorder.learn (r : Recorder) (token : String) : Recorder :=
  { r with
    knownSecrets :=
      if token ∈ r.knownSecrets then r.knownSecrets
      else r.knownSecrets ++ [token] }

def replaceCapabilityOwner (owners : Keyed String ℕ) (token : String)
    (node : ℕ) : Keyed String ℕ :=
  (owners.keep fun _ owner => decide (owner ≠ node)).put token node

def revokeCapabilityOwner (owners : Keyed String ℕ) (token : Option String)
    (node : Option ℕ) : Keyed String ℕ :=
  owners.keep fun held owner =>
    decide (some held ≠ token) && decide (some owner ≠ node)

def Recorder.applyChange (r : Recorder) : Option CapabilityChange → Recorder
  | some (.issue token node) =>
      { r.learn token with
        capabilityOwners :=
          replaceCapabilityOwner r.capabilityOwners token node }
  | some (.revoke token node) =>
      { r with
        capabilityOwners :=
          revokeCapabilityOwner r.capabilityOwners token node }
  | none => r

/-! ## Recording -/

/-- `stateFor`: the state of an interaction, made when there is none. -/
def Recorder.stateFor (r : Recorder) (node : ℕ) : Recorder × ℕ :=
  match r.interactions.get? node with
  | some ref => (r, ref)
  | none =>
      ({ r with
          states := r.states.put r.nextState .empty
          nextState := r.nextState + 1
          interactions := r.interactions.put node r.nextState },
        r.nextState)

def Recorder.updateState (r : Recorder) (ref : ℕ)
    (f : InteractionState → InteractionState) : Recorder :=
  { r with states := r.states.mapRows fun key state =>
      if key = ref then f state else state }

def maxDiagnosticBytes : ℕ := 256 * 1024

-- The bytes of an event are those of the line it is written as.
variable (settings : Settings) (eventBytes : Event → ℕ)

/-- An event of the compiler or the client, told apart by its own number. -/
def InteractionState.takeDiagnostic (state : InteractionState) (event : Event)
    (id : String) : InteractionState :=
  let bytes := eventBytes event
  if id ∈ state.diagnosticIds then state
  else if settings.maxAuthoringDiagnosticsPerInteraction ≤
        state.diagnosticEventCount ∨
      maxDiagnosticBytes < state.diagnosticBytes + bytes then
    { state with diagnosticDiscarded := state.diagnosticDiscarded + 1 }
  else
    { state with
      diagnosticIds := state.diagnosticIds ++ [id]
      events := state.events ++ [event]
      diagnosticEventCount := state.diagnosticEventCount + 1
      diagnosticBytes := state.diagnosticBytes + bytes }

def InteractionState.takeGraphEvent (state : InteractionState)
    (event : Event) : InteractionState :=
  let bytes := eventBytes event
  if settings.maxEventsPerInteraction ≤ state.graphEventCount ∨
      settings.maxBytesPerInteraction < state.byteLength + bytes then
    { state with
      discardedEvents := state.discardedEvents + 1
      discardedBytes := state.discardedBytes + bytes }
  else
    { state with
      events := state.events ++ [event]
      graphEventCount := state.graphEventCount + 1
      byteLength := state.byteLength + bytes }

def InteractionState.take (state : InteractionState) (event : Event) :
    InteractionState :=
  match event.receipt.authoringError with
  | some diagnostic =>
      state.takeDiagnostic settings eventBytes event diagnostic.id
  | none => state.takeGraphEvent settings eventBytes event

/-- `record`: nothing for an interaction that has been exported. -/
def Recorder.record (r : Recorder) : Option (ℕ × Receipt) → Recorder
  | none => r
  | some (node, receipt) =>
      if node ∈ r.exportedInteractions then r
      else
        let event : Event := ⟨receipt, r.sequence + 1, node⟩
        let found :=
          Recorder.stateFor { r with sequence := r.sequence + 1 } node
        found.1.updateState found.2 fun state =>
          state.take settings eventBytes event

/-! ## Requests -/

/-- The end of a request: it is no longer pending. -/
def Recorder.release (r : Recorder) (id : ℕ) : Recorder :=
  { r with requests := r.requests.erase id }

/-- The interaction whose receipt the end of a request is. -/
def Request.recordedFor (request : Request) : Option ℕ :=
  if isGraphPath request.path then request.interactionNodeId else none

/-- The token of a request becomes known. -/
def Recorder.learnFrom (r : Recorder) (authorization : Option String) :
    Recorder :=
  match bearerToken authorization with
  | some token => r.learn token
  | none => r

/-- The interaction that holds the capability of a request. -/
def Recorder.holderOf (r : Recorder) (authorization : Option String) :
    Option ℕ :=
  (bearerToken authorization).bind r.capabilityOwners.get?

/-- A graph operation enters the pending activities of its interaction; a
report of authoring errors is no operation. -/
def Recorder.enter (r : Recorder) (request : Request) : Recorder × Request :=
  match request.recordedFor with
  | none => (r, request)
  | some node =>
      let found := r.stateFor node
      (found.1, { request with
        attributedOperation :=
          if request.path = authoringErrorsPath then none
          else some ⟨node, request.method,
            scrubText r.knownSecrets request.path⟩
        entered := some found.2 })

def Recorder.admit (r : Recorder) (request : Request) : Recorder :=
  let entering := r.enter request
  { entering.1 with
    requests := entering.1.requests.put entering.1.nextRequest entering.2
    nextRequest := entering.1.nextRequest + 1 }

/-- A request with a target of this origin arrives. -/
def Recorder.arrive (r : Recorder) (method path : String)
    (authorization : Option String) : Recorder :=
  let known := r.learnFrom authorization
  known.admit
    ⟨method, path, known.holderOf authorization, none, none, false, false⟩

/-- The receipt of an attempt that the proxy has failed. -/
def proxyFailure (operation : AttributedOperation) : Receipt :=
  ⟨operation.method, operation.path, 502, ["graph_operation_proxy_failed"], [],
    none⟩

/-- What is recorded of a request that ends with an error. -/
def Request.failureReceipt (request : Request) : Option (ℕ × Receipt) :=
  match request.attributedOperation with
  | some operation =>
      if request.accounted then none
      else some (operation.interactionNodeId, proxyFailure operation)
  | none => none

/-- A request ends with an error, whatever it was waiting for. -/
def Recorder.fail (r : Recorder) (id : ℕ) (request : Request) : Recorder :=
  (r.record settings eventBytes request.failureReceipt).release id

/-- The server's answer has arrived whole, and the body is JSON where it has
to be.  No answer arrives once the request is aborted. -/
def Request.answered (request : Request) (status : ℕ)
    (response : Option Json) : Bool :=
  !request.aborted && request.path ≠ authoringErrorsPath &&
    !(request.attributedOperation.isSome && isOk status &&
      request.method ≠ "HEAD" && response.isNone)

def Request.changes (request : Request) (status : ℕ)
    (requestValue responseValue : Option Json) : Option CapabilityChange :=
  capabilityChange request.method request.path status requestValue responseValue

def Request.answerReceipt (request : Request) (status : ℕ)
    (requestValue responseValue : Option Json) (knownSecrets : List String) :
    Option (ℕ × Receipt) :=
  request.recordedFor.map fun node =>
    (node, sanitizeReceipt request.method request.path status requestValue
      responseValue knownSecrets)

def Recorder.answer (r : Recorder) (id : ℕ) (request : Request) (status : ℕ)
    (requestValue responseValue : Option Json) : Recorder :=
  let changed := r.applyChange
    (request.changes status requestValue responseValue)
  (changed.record settings eventBytes (request.answerReceipt status requestValue
    responseValue changed.knownSecrets)).release id

/-- The numbers of the events go on, with one passed over or not. -/
def Recorder.passNumber (r : Recorder) (passed : Bool) : Recorder :=
  { r with sequence := if passed then r.sequence + 1 else r.sequence }

/-- The event of an answer gets its number before it is written. -/
def Recorder.numbers (r : Recorder) (request : Request) : Bool :=
  request.recordedFor.any fun node => decide (node ∉ r.exportedInteractions)

/-- The answer has arrived, but its receipt cannot be made, or not be written
after the event has got its number. -/
def Recorder.breakOff (r : Recorder) (id : ℕ) (request : Request) (status : ℕ)
    (requestValue responseValue : Option Json) (numbered : Bool) : Recorder :=
  let changed := r.applyChange
    (request.changes status requestValue responseValue)
  Recorder.fail settings eventBytes
    (changed.passNumber (numbered && changed.numbers request)) id request

def authoringErrorCodes : String → List String
  | "client" => ["invalid_arguments", "client_validation"]
  | "compiler" => ["compiler_validation", "unsafe_css", "detail_template_nested"]
  | _ => []

def isDiagnosticId (text : String) : Bool :=
  text.length = 36 && text.toList.all fun c => c ∈ "0123456789abcdef-".toList

/-- The diagnostic a body is, when it is one. -/
def authoringError? (method : String) (body : Option Json) :
    Option AuthoringError := do
  let value ← body
  let id ← (value.get? "id").bind Json.asString
  let phase ← (value.get? "phase").bind Json.asString
  let listed ← (value.get? "codes").bind Json.asArray
  let codes ← listed.mapM Json.asString
  let fields : List String := match value with
    | .object entries => entries.map Prod.fst
    | _ => []
  if method = "POST" ∧
      (∀ key ∈ fields, key ∈ ["schemaVersion", "id", "phase", "codes"]) ∧
      (value.get? "schemaVersion").bind Json.positiveInteger = some 1 ∧
      isDiagnosticId id ∧ codes ≠ [] ∧ codes.length ≤ 16 ∧
      ∀ code ∈ codes, code ∈ authoringErrorCodes phase then
    some ⟨id, phase, codes.eraseDups⟩
  else none

def Request.diagnosticReceipt (request : Request) (body : Option Json)
    (knownSecrets : List String) : Option (ℕ × Receipt) := do
  let node ← request.interactionNodeId
  let diagnostic ← authoringError? request.method body
  some (node, ⟨request.method, request.path, 202, [], [],
    some { diagnostic with
      codes := diagnostic.codes.map (scrubText knownSecrets) }⟩)

/-- The body of a request to report an authoring error is read. -/
def Recorder.diagnose (r : Recorder) (id : ℕ) (request : Request)
    (body : Option Json) : Recorder :=
  (r.record settings eventBytes
    (request.diagnosticReceipt body r.knownSecrets)).release id

/-- The downstream of a request closes. -/
def Recorder.abort (r : Recorder) (id : ℕ) : Recorder :=
  { r with requests := r.requests.mapRows fun key request =>
      if key = id then { request with aborted := true } else request }

/-! ## Exports -/

/-- The requests pending in an interaction state, diagnostics or others. -/
def Recorder.pendingIn (r : Recorder) (ref : ℕ) (diagnostics : Bool) : List ℕ :=
  (r.requests.rows.filter fun entry =>
    decide (entry.2.entered = some ref) &&
      decide (decide (entry.2.path = authoringErrorsPath) = diagnostics)).map
        Prod.fst

def Recorder.allPendingIn (r : Recorder) (ref : ℕ) : List ℕ :=
  r.pendingIn ref false ++ r.pendingIn ref true

def Recorder.stateAt (r : Recorder) (ref : ℕ) : InteractionState :=
  (r.states.get? ref).getD .empty

def descriptorOf (state : InteractionState) : Descriptor :=
  let truncated := decide (0 < state.discardedEvents)
  { status := if truncated then "partial" else "complete"
    promotable := !truncated
    events := state.events
    byteLength := (state.events.map eventBytes).sum
    eventCount := state.events.length
    truncated := truncated
    authoringDiagnosticsDiscarded :=
      if state.diagnosticDiscarded = 0 then none
      else some state.diagnosticDiscarded
    discardedEvents := if truncated then some state.discardedEvents else none
    discardedBytes := if truncated then some state.discardedBytes else none }

/-- One turn of an export: it waits for what is pending, or describes what has
been recorded, and nothing is recorded for the interaction any more. -/
def Recorder.turn (r : Recorder) (id node ref : ℕ) : Recorder :=
  let pending := r.allPendingIn ref
  if pending ≠ [] then
    { r with exports := r.exports.put id ⟨node, ref, .settling pending⟩ }
  else
    let descriptor := descriptorOf eventBytes (r.stateAt ref)
    { r with
      exportedInteractions := node :: r.exportedInteractions
      exports := r.exports.put id ⟨node, ref, .writing descriptor⟩ }

def Recorder.beginExport (r : Recorder) (node : ℕ) : Recorder :=
  let found := r.stateFor node
  Recorder.turn eventBytes { found.1 with nextExport := r.nextExport + 1 }
    r.nextExport node found.2

/-- None of the activities is pending any more. -/
def Recorder.settled (r : Recorder) (activities : List ℕ) : Bool :=
  activities.all fun id => (r.requests.get? id).isNone

/-- The export's wait has lasted too long: what is pending counts as lost and
is cancelled. -/
def Recorder.timeOut (r : Recorder) (id node ref : ℕ) : Recorder :=
  let lost := r.allPendingIn ref
  let counted := r.updateState ref fun state =>
    { state with
      discardedEvents :=
        state.discardedEvents + (r.pendingIn ref false).length
      diagnosticDiscarded :=
        state.diagnosticDiscarded + (r.pendingIn ref true).length }
  { counted with
    requests := r.requests.mapRows fun key request =>
      if key ∈ lost then { request with accounted := true, aborted := true }
      else request
    exports := r.exports.put id ⟨node, ref, .cancelling lost⟩ }

/-! ## Steps -/

inductive Step where
  | arrive (method path : String) (authorization : Option String)
  | answer (request status : ℕ) (requestValue responseValue : Option Json)
  | breakOff (request status : ℕ) (requestValue responseValue : Option Json)
      (numbered : Bool)
  | diagnose (request : ℕ) (body : Option Json)
  | fail (request : ℕ)
  | abort (request : ℕ)
  | beginExport (node : ℕ)
  | exportSettled (id : ℕ)
  | exportTimedOut (id : ℕ)
  | exportResumed (id : ℕ)
  | exportWritten (id : ℕ)
  | exportRefused (id : ℕ)
  | close

def Recorder.next (r : Recorder) : Step → Option Recorder
  | .arrive method path authorization =>
      if r.closed then none else some (r.arrive method path authorization)
  | .answer id status requestValue responseValue => do
      let request ← r.requests.get? id
      guard (request.answered status responseValue)
      return r.answer settings eventBytes id request status requestValue
        responseValue
  | .breakOff id status requestValue responseValue numbered => do
      let request ← r.requests.get? id
      guard (request.answered status responseValue)
      return r.breakOff settings eventBytes id request status requestValue
        responseValue numbered
  | .diagnose id body => do
      let request ← r.requests.get? id
      guard (request.path = authoringErrorsPath)
      return r.diagnose settings eventBytes id request body
  | .fail id => do
      let request ← r.requests.get? id
      return r.fail settings eventBytes id request
  | .abort id => some (r.abort id)
  | .beginExport node => do
      guard (0 < node)
      return r.beginExport eventBytes node
  | .exportSettled id => do
      match ← r.exports.get? id with
      | ⟨node, ref, .settling activities⟩ => do
          guard (r.settled activities)
          return r.turn eventBytes id node ref
      | _ => none
  | .exportTimedOut id => do
      match ← r.exports.get? id with
      | ⟨node, ref, .settling activities⟩ => do
          guard (!r.settled activities)
          return r.timeOut id node ref
      | _ => none
  | .exportResumed id => do
      match ← r.exports.get? id with
      | ⟨node, ref, .cancelling activities⟩ => do
          guard (r.settled activities)
          return r.turn eventBytes id node ref
      | _ => none
  | .exportWritten id => do
      match ← r.exports.get? id with
      | ⟨node, _, .writing _⟩ =>
          return { r with
            interactions := r.interactions.erase node
            exports := r.exports.erase id }
      | _ => none
  | .exportRefused id => do
      match ← r.exports.get? id with
      | ⟨_, _, .writing _⟩ => return { r with exports := r.exports.erase id }
      | _ => none
  | .close =>
      some { r with
        closed := true
        requests := r.requests.mapRows fun _ request =>
          { request with aborted := true } }

end GraphOperationRecorder

end RelayerGraph
