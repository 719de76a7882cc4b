import RelayerGraph.Harness.Approval
import RelayerGraph.Foundation.Keyed

/-!
# The approval coordinator

The approvals of one live harness session: the completions that may ask, the
requests that wait for a decision, the grants the user left, and one stream of
events for each interaction.  An operation returns what it answers together
with the coordinator it leaves, also where it throws.

The environment is part of the state: how often the clock was read, which
provider signals have fired, which promises were handed out, and a journal of
the events appended and of the promises settled, in their order.
-/

namespace RelayerGraph

open Foundation Checked

/-! ## Events -/

inductive HarnessApprovalTerminalOutcome
  | approved
  | denied
  | cancelled
  | expired
  | aborted
  deriving Repr, DecidableEq

inductive HarnessApprovalResolutionActor
  | user
  | sessionGrant
  | harness
  | host
  deriving Repr, DecidableEq

structure PublicHarnessApprovalCorrelation where
  threadId : ℤ
  interactionId : ℤ
  completeCallId : String
  harnessSessionId : String
  deriving Repr, DecidableEq

/-- A request without the adapter's own routing data. -/
structure PublicHarnessApprovalRequest where
  requestId : String
  correlation : PublicHarnessApprovalCorrelation
  title : String
  reason : String
  action : HarnessApprovalAction
  scopeKeys : List String
  scopeDescription : String
  createdAt : String
  expiresAt : Option String
  deriving Repr, DecidableEq

structure HarnessApprovalResolution where
  requestId : String
  correlation : PublicHarnessApprovalCorrelation
  outcome : HarnessApprovalTerminalOutcome
  actor : HarnessApprovalResolutionActor
  resolvedAt : String
  decision : Option HarnessApprovalDecisionKind
  rationale : Option String
  sourceRequestId : Option String
  deriving Repr, DecidableEq

inductive HarnessApprovalNotice
  | requested (request : PublicHarnessApprovalRequest)
  | resolved (resolution : HarnessApprovalResolution)
  deriving Repr, DecidableEq

def HarnessApprovalNotice.interactionId : HarnessApprovalNotice → ℤ
  | .requested request => request.correlation.interactionId
  | .resolved resolution => resolution.correlation.interactionId

structure HarnessApprovalEvent where
  sequence : ℕ
  notice : HarnessApprovalNotice
  deriving Repr, DecidableEq

def publicCorrelation (request : HarnessApprovalRequest) :
    PublicHarnessApprovalCorrelation :=
  ⟨request.correlation.threadId, request.correlation.interactionId,
    request.correlation.completeCallId, request.correlation.harnessSessionId⟩

def publicRequest (request : HarnessApprovalRequest) :
    PublicHarnessApprovalRequest :=
  ⟨request.requestId, publicCorrelation request, request.title,
    request.reason, request.action, request.scopeKeys,
    request.scopeDescription, request.createdAt, request.expiresAt⟩

/-! ## The state -/

def maxHarnessApprovalRetainedEvents : ℕ := 1024
def maxHarnessApprovalSessionRetainedEvents : ℕ := 4096
def abandonedStreamGraceMs : ℤ := 60000
def maxHarnessApprovalTerminalTombstones : ℕ := 256
def maxHarnessApprovalSessionGrants : ℕ := 128

/-- A monotone clock: the answer to its `k`-th reading, with the time that
`Date.parse` reads in it. -/
structure ApprovalClock where
  now : ℕ → String
  time : ℕ → ℤ
  timestamp : ∀ k label, approvalTimestamp (now k) label = .ok (now k)
  parsed : ∀ k, dateParse (now k) = some (time k)
  monotone : Monotone time

inductive CoordinatorErrorCode
  | invalidApprovalRequest
  | approvalRequestNotFound
  | approvalRequestResolved
  | approvalCompletionInactive
  | approvalEventBacklogFull
  deriving Repr, DecidableEq

/-- A coordinator error, or an error of a parser that the caller did not
wrap. -/
inductive ApprovalFailure
  | coordinator (code : CoordinatorErrorCode) (message : String)
  | error (message : String)
  deriving Repr, DecidableEq

/-- The name of a provider's `AbortSignal`. -/
abbrev ProviderSignal := ℕ

/-- Why a signal fired: the message of an `Error`, or another reason. -/
abbrev AbortReason := Option String

inductive HarnessApprovalRequestTerminationOutcome
  | expired
  | aborted
  deriving Repr, DecidableEq

structure HarnessApprovalRequestOptions where
  signal : Option ProviderSignal
  terminationOutcome : Option HarnessApprovalRequestTerminationOutcome
  terminationRationale : Option String
  deriving Repr, DecidableEq

/-- A request that waits, with the number of the promise of a decision that
its provider was handed. -/
structure PendingApproval where
  request : HarnessApprovalRequest
  promise : ℕ
  options : HarnessApprovalRequestOptions
  deriving Repr, DecidableEq

structure ApprovalEventStream where
  events : List HarnessApprovalEvent
  nextSequence : ℕ
  lastEventAt : ℤ
  deriving Repr, DecidableEq

inductive PromiseSettlement
  | resolve (decision : HarnessApprovalDecision)
  | reject (resolution : HarnessApprovalResolution)
  deriving Repr, DecidableEq

inductive ApprovalEntry
  | event (promise : ℕ) (event : HarnessApprovalEvent)
  | settled (promise : ℕ) (settlement : PromiseSettlement)
  deriving Repr, DecidableEq

structure HarnessApprovalCoordinator where
  threadId : ℤ
  harnessSessionId : String
  graceMs : ℤ
  activeCompletions : Keyed String ℤ
  pending : Keyed String PendingApproval
  terminal : Keyed String HarnessApprovalResolution
  grants : List HarnessApprovalSessionGrant
  streams : Keyed ℤ ApprovalEventStream
  closed : Bool
  clockReads : ℕ
  aborted : Keyed ProviderSignal AbortReason
  promises : ℕ
  journal : List ApprovalEntry

namespace HarnessApprovalCoordinator

/-- The constructor, where it does not throw. -/
def create (threadId : ℤ) (harnessSessionId : String) (graceMs : ℤ) :
    HarnessApprovalCoordinator where
  threadId := threadId
  harnessSessionId := harnessSessionId
  graceMs := graceMs
  activeCompletions := .empty
  pending := .empty
  terminal := .empty
  grants := []
  streams := .empty
  closed := false
  clockReads := 0
  aborted := .empty
  promises := 0
  journal := []

variable (clock : ApprovalClock) (c : HarnessApprovalCoordinator)

/-- The coordinator after one more reading of the clock. -/
def ticked : HarnessApprovalCoordinator :=
  { c with clockReads := c.clockReads + 1 }

def interactionActive (interactionId : ℤ) : Bool :=
  c.activeCompletions.rows.any fun row => row.2 = interactionId

def pendingCount (interactionId : ℤ) : ℕ :=
  c.pending.rows.countP fun row =>
    row.2.request.correlation.interactionId = interactionId

def interactionPending (interactionId : ℤ) : Bool :=
  decide (c.pendingCount interactionId > 0)

/-- The retained events of an interaction. -/
def retained (interactionId : ℤ) : List HarnessApprovalEvent :=
  match c.streams.get? interactionId with
  | some stream => stream.events
  | none => []

/-- `latestSequence` of a snapshot. -/
def latestSequence (interactionId : ℤ) : ℕ :=
  match c.streams.get? interactionId with
  | some stream => stream.nextSequence - 1
  | none => 0

def forgetTerminal (interactionId : ℤ) : HarnessApprovalCoordinator :=
  { c with terminal := c.terminal.keep fun _ resolution =>
      decide (resolution.correlation.interactionId ≠ interactionId) }

/-- The stream of an interaction is deleted. -/
def deleteStream (interactionId : ℤ) : HarnessApprovalCoordinator :=
  { c with streams := c.streams.erase interactionId }

def append (promise : ℕ) (notice : HarnessApprovalNotice) :
    HarnessApprovalCoordinator :=
  let stream := (c.streams.get? notice.interactionId).getD ⟨[], 1, 0⟩
  let event : HarnessApprovalEvent := ⟨stream.nextSequence, notice⟩
  { c with
    clockReads := c.clockReads + 1
    streams := c.streams.put notice.interactionId {
      events := stream.events ++ [event]
      nextSequence := stream.nextSequence + 1
      lastEventAt := clock.time c.clockReads }
    journal := c.journal ++ [.event promise event] }

/-! ## Settling -/

/-- `finish`.  The oldest tombstones beyond the bound are deleted. -/
def finish (pending : PendingApproval) (resolution : HarnessApprovalResolution) :
    HarnessApprovalCoordinator :=
  let terminal := c.terminal.put pending.request.requestId resolution
  { c with
    pending := c.pending.erase pending.request.requestId
    terminal := terminal.dropOldest
      (terminal.rows.length - maxHarnessApprovalTerminalTombstones)
    : HarnessApprovalCoordinator }.append clock pending.promise
      (.resolved resolution)

/-- The promise of a request is resolved or rejected. -/
def settle (promise : ℕ) (settlement : PromiseSettlement) :
    HarnessApprovalCoordinator :=
  { c with journal := c.journal ++ [.settled promise settlement] }

/-- The resolution that records a decision. -/
def decisionResolution (request : HarnessApprovalRequest)
    (decision : HarnessApprovalDecision) : HarnessApprovalResolution where
  requestId := request.requestId
  correlation := publicCorrelation request
  outcome := match decision.decision with
    | .deny => .denied
    | _ => .approved
  actor := match decision.actor with
    | .user => .user
    | .sessionGrant _ => .sessionGrant
  resolvedAt := decision.decidedAt
  decision := some decision.decision
  rationale := decision.rationale
  sourceRequestId := match decision.actor with
    | .user => none
    | .sessionGrant sourceRequestId => some sourceRequestId

def resolveWithDecision (pending : PendingApproval)
    (decision : HarnessApprovalDecision) : HarnessApprovalCoordinator :=
  (c.finish clock pending (decisionResolution pending.request decision)).settle
    pending.promise (.resolve decision)

/-- The resolution of a request that ends without a decision. -/
def terminalResolution (request : HarnessApprovalRequest)
    (outcome : HarnessApprovalTerminalOutcome)
    (actor : HarnessApprovalResolutionActor) (resolvedAt rationale : String) :
    HarnessApprovalResolution where
  requestId := request.requestId
  correlation := publicCorrelation request
  outcome := outcome
  actor := actor
  resolvedAt := resolvedAt
  decision := none
  rationale := some rationale
  sourceRequestId := none

def terminate (requestId : String) (outcome : HarnessApprovalTerminalOutcome)
    (actor : HarnessApprovalResolutionActor) (rationale : String) :
    HarnessApprovalCoordinator :=
  match c.pending.get? requestId with
  | none => c
  | some pending =>
      let resolution := terminalResolution pending.request outcome actor
        (clock.now c.clockReads) rationale
      (c.ticked.finish clock pending resolution).settle pending.promise
        (.reject resolution)

def terminateMatching (matching : HarnessApprovalRequest → Bool)
    (outcome : HarnessApprovalTerminalOutcome)
    (actor : HarnessApprovalResolutionActor) (rationale : String) :
    HarnessApprovalCoordinator :=
  (c.pending.rows.map Prod.snd).foldl (fun c pending =>
    if matching pending.request then
      c.terminate clock pending.request.requestId outcome actor rationale
    else c) c

def approvalRationale (value label : String) : Except String String := do
  require (trimSpaces value ≠ [] ∧ hasControlCharacter value = false)
    ("Harness approval " ++ label ++
      " must be a non-empty string without control characters")
  require ((utf16Units value).length ≤ maxHarnessApprovalTextLength)
    s!"Harness approval {label} exceeds the maximum length of 65536"
  pure value

def providerAbortRationale (reason : AbortReason) : String :=
  match reason with
  | some message =>
      match approvalRationale message "provider abort rationale" with
      | .ok rationale => rationale
      | .error _ => "Provider approval request ended before a user decision."
  | none => "Provider approval request ended before a user decision."

def terminationOutcome (options : HarnessApprovalRequestOptions) :
    HarnessApprovalTerminalOutcome :=
  match options.terminationOutcome with
  | some .expired => .expired
  | _ => .aborted

/-- The listener of a request on its provider's signal. -/
def abortProvider (pending : PendingApproval) (reason : AbortReason) :
    HarnessApprovalCoordinator :=
  c.terminate clock pending.request.requestId
    (terminationOutcome pending.options) .harness
    (pending.options.terminationRationale.getD (providerAbortRationale reason))

/-- A signal fires, once, and runs the listeners still attached to it. -/
def abort (signal : ProviderSignal) (reason : AbortReason) :
    HarnessApprovalCoordinator :=
  if (c.aborted.get? signal).isSome then c else
    (c.pending.rows.map Prod.snd).foldl (fun c pending =>
      if pending.options.signal = some signal then
        c.abortProvider clock pending reason
      else c) { c with aborted := c.aborted.put signal reason }

/-! ## Completions -/

structure CompletionAuthority where
  interactionId : ℤ
  completeCallId : String
  deriving Repr, DecidableEq

def beginCompletion (authority : CompletionAuthority) :
    Except ApprovalFailure Unit × HarnessApprovalCoordinator :=
  if c.closed then
    (.error (.coordinator .approvalCompletionInactive
      "Harness approval session is closed"), c)
  else if ¬ positiveInteger authority.interactionId ∨
      trimSpaces authority.completeCallId = [] then
    (.error (.coordinator .invalidApprovalRequest
      "Harness approval completion authority is invalid"), c)
  else if (c.activeCompletions.get? authority.completeCallId).isSome then
    (.error (.coordinator .invalidApprovalRequest
      ("Duplicate harness completion ID: " ++ authority.completeCallId)), c)
  else
    let c' := if c.interactionActive authority.interactionId ∨
        c.interactionPending authority.interactionId then c
      else c.deleteStream authority.interactionId
    (.ok (), { c' with
      activeCompletions := c'.activeCompletions.put authority.completeCallId
        authority.interactionId })

/-- The completion is no longer active and each of its requests ends. -/
def endRequests (completeCallId : String)
    (outcome : HarnessApprovalTerminalOutcome) (rationale : String) :
    HarnessApprovalCoordinator :=
  if (c.activeCompletions.get? completeCallId).isSome then
    { c with activeCompletions := c.activeCompletions.erase completeCallId
      : HarnessApprovalCoordinator }.terminateMatching clock
        (fun request => request.correlation.completeCallId = completeCallId)
        outcome .host rationale
  else c

def failClosedCompletion (completeCallId rationale : String) :
    HarnessApprovalCoordinator :=
  c.endRequests clock completeCallId .aborted rationale

inductive CompletionOutcome
  | cancelled
  | aborted
  deriving Repr, DecidableEq

def CompletionOutcome.terminal :
    CompletionOutcome → HarnessApprovalTerminalOutcome
  | .cancelled => .cancelled
  | .aborted => .aborted

def endCompletion (completeCallId : String)
    (outcome : Supplied CompletionOutcome) (rationale : Supplied String) :
    Except ApprovalFailure Unit × HarnessApprovalCoordinator :=
  match outcome with
  | .malformed text =>
      (.error (.coordinator .invalidApprovalRequest
        ("Unsupported harness completion approval outcome: " ++ text)),
        c.failClosedCompletion clock completeCallId
          "Harness completion supplied an invalid terminal approval outcome.")
  | .given outcome =>
      match rationale.read >>= (approvalRationale ·
          "completion termination rationale") with
      | .error message =>
          (.error (.coordinator .invalidApprovalRequest message),
            c.failClosedCompletion clock completeCallId
              ("Harness completion supplied an invalid terminal approval " ++
                "rationale."))
      | .ok rationale =>
          (.ok (), c.endRequests clock completeCallId outcome.terminal
            rationale)

def close (rationale : String) : HarnessApprovalCoordinator :=
  if c.closed then c else
    let c' := { c with
      closed := true
      activeCompletions := .empty
      : HarnessApprovalCoordinator }.terminateMatching clock (fun _ => true)
        .aborted .host rationale
    { c' with grants := [] }

/-! ## Decisions -/

structure DecisionBody where
  decision : HarnessApprovalDecisionKind
  rationale : Option String
  deriving Repr, DecidableEq

/-- The pending requests a new grant covers are approved by it. -/
def approveGranted (grant : HarnessApprovalSessionGrant) :
    List PendingApproval → HarnessApprovalCoordinator →
      Except ApprovalFailure Unit × HarnessApprovalCoordinator
  | [], c => (.ok (), c)
  | candidate :: rest, c =>
      if requestMatchesHarnessApprovalSessionGrant candidate.request grant then
        match createHarnessApprovalDecision
            ⟨candidate.request.requestId, .approveOnce, none⟩
            (.sessionGrant grant.sourceRequestId) (clock.now c.clockReads) with
        | .error message => (.error (.error message), c.ticked)
        | .ok decision =>
            approveGranted grant rest
              (c.ticked.resolveWithDecision clock candidate decision)
      else approveGranted grant rest c

/-- The grants with one more, the oldest shifted out beyond the bound. -/
def pushGrant (grant : HarnessApprovalSessionGrant) :
    HarnessApprovalCoordinator :=
  let grants := c.grants ++ [grant]
  { c with grants :=
      if grants.length > maxHarnessApprovalSessionGrants then grants.tail
      else grants }

/-- What `approve_always` does after its own request is resolved. -/
def grantAlways (request : HarnessApprovalRequest) :
    Except ApprovalFailure Unit × HarnessApprovalCoordinator :=
  match createHarnessApprovalSessionGrant request with
  | .error message => (.error (.error message), c)
  | .ok grant =>
      (c.pushGrant grant).approveGranted clock grant
        (c.pending.rows.map Prod.snd)

def decide (requestId : String) (input : Supplied DecisionBody) :
    Except ApprovalFailure HarnessApprovalResolution ×
      HarnessApprovalCoordinator :=
  match c.pending.get? requestId with
  | none =>
      if (c.terminal.get? requestId).isSome then
        (.error (.coordinator .approvalRequestResolved
          s!"Harness approval request {requestId} is already resolved"), c)
      else
        (.error (.coordinator .approvalRequestNotFound
          s!"Unknown harness approval request: {requestId}"), c)
  | some pending =>
      match input.read >>= fun body =>
          parseHarnessApprovalDecisionSubmission
            ⟨requestId, body.decision, body.rationale⟩ with
      | .error message =>
          (.error (.coordinator .invalidApprovalRequest message), c)
      | .ok submission =>
          match createHarnessApprovalDecision submission .user
              (clock.now c.clockReads) with
          | .error message => (.error (.error message), c.ticked)
          | .ok decision =>
              let resolved := c.ticked.resolveWithDecision clock pending
                decision
              let resolution := decisionResolution pending.request decision
              if decision.decision = .approveAlways then
                match resolved.grantAlways clock pending.request with
                | (.ok _, c') => (.ok resolution, c')
                | (.error failure, c') => (.error failure, c')
              else (.ok resolution, resolved)

/-! ## Requests -/

/-- The loop of `reserveSessionBacklog` over the streams, with the number of
events still retained. -/
def reserveStreams (interactionId now : ℤ) :
    List (ℤ × ApprovalEventStream) → ℕ → HarnessApprovalCoordinator →
      ℕ × HarnessApprovalCoordinator
  | [], retained, c => (retained, c)
  | (candidate, stream) :: rest, retained, c =>
      if retained + c.pending.rows.length + 2 ≤
          maxHarnessApprovalSessionRetainedEvents then (retained, c)
      else if candidate = interactionId ∨ c.interactionActive candidate ∨
          c.interactionPending candidate then
        reserveStreams interactionId now rest retained c
      else if now - stream.lastEventAt < c.graceMs then
        reserveStreams interactionId now rest retained c
      else
        reserveStreams interactionId now rest
          (retained - stream.events.length)
          ((c.deleteStream candidate).forgetTerminal candidate)

/-- The events retained in every stream of the session. -/
def sessionRetained : ℕ :=
  (c.streams.rows.map fun row => row.2.events.length).sum

def reserveSessionBacklog (interactionId : ℤ) :
    Bool × HarnessApprovalCoordinator :=
  let reserved := reserveStreams interactionId (clock.time c.clockReads)
    c.streams.rows c.sessionRetained c.ticked
  (Decidable.decide (reserved.1 + reserved.2.pending.rows.length + 2 ≤
    maxHarnessApprovalSessionRetainedEvents), reserved.2)

def normalizeRequestOptions
    (options : Option (Supplied HarnessApprovalRequestOptions)) :
    Except String HarnessApprovalRequestOptions :=
  match options with
  | none => pure ⟨none, none, none⟩
  | some options => do
      let options ← options.read
      let terminationRationale ← parseOptional (approvalRationale ·
        "request termination rationale") options.terminationRationale
      pure ⟨options.signal, options.terminationOutcome, terminationRationale⟩

/-- The request is pending and announced, and its promise is handed out. -/
def admitRequest (request : HarnessApprovalRequest)
    (options : HarnessApprovalRequestOptions) : HarnessApprovalCoordinator :=
  { c with
    promises := c.promises + 1
    pending := c.pending.put request.requestId ⟨request, c.promises, options⟩
    : HarnessApprovalCoordinator }.append clock c.promises
      (.requested (publicRequest request))

/-- What follows the announcement: a signal that has fired ends the request,
a grant that covers it approves it. -/
def settleAdmitted (pending : PendingApproval) :
    Except ApprovalFailure ℕ × HarnessApprovalCoordinator :=
  match pending.options.signal.bind c.aborted.get? with
  | some reason => (.ok pending.promise, c.abortProvider clock pending reason)
  | none =>
      match c.grants.find? fun candidate =>
          requestMatchesHarnessApprovalSessionGrant pending.request
            candidate with
      | none => (.ok pending.promise, c)
      | some grant =>
          match createHarnessApprovalDecision
              ⟨pending.request.requestId, .approveOnce, none⟩
              (.sessionGrant grant.sourceRequestId)
              (clock.now c.clockReads) with
          | .error message => (.error (.error message), c.ticked)
          | .ok decision =>
              (.ok pending.promise,
                c.ticked.resolveWithDecision clock pending decision)

/-- The request channel of a completion. -/
def request (authority : CompletionAuthority) (nextRequestId : String)
    (input : Supplied HarnessApprovalRequestInput)
    (options : Option (Supplied HarnessApprovalRequestOptions)) :
    Except ApprovalFailure ℕ × HarnessApprovalCoordinator :=
  if c.activeCompletions.get? authority.completeCallId ≠
      some authority.interactionId then
    (.error (.coordinator .approvalCompletionInactive
      "Harness approval completion is no longer active"), c)
  else
    match normalizeRequestOptions options with
    | .error message =>
        (.error (.coordinator .invalidApprovalRequest message), c)
    | .ok options =>
        match createHarnessApprovalRequest input {
            requestId := nextRequestId
            threadId := c.threadId
            interactionId := authority.interactionId
            completeCallId := authority.completeCallId
            harnessSessionId := c.harnessSessionId
            createdAt := clock.now c.clockReads } with
        | .error message =>
            (.error (.coordinator .invalidApprovalRequest message), c.ticked)
        | .ok request =>
            if (c.pending.get? request.requestId).isSome ∨
                (c.terminal.get? request.requestId).isSome then
              (.error (.coordinator .invalidApprovalRequest
                ("Duplicate harness approval request ID: " ++
                  request.requestId)), c.ticked)
            else if (c.retained authority.interactionId).length +
                c.pendingCount authority.interactionId + 2 >
                maxHarnessApprovalRetainedEvents then
              (.error (.coordinator .approvalEventBacklogFull
                ("Harness approval event backlog is full; wait for product " ++
                  "acknowledgement before requesting another approval")),
                c.ticked)
            else
              match c.ticked.reserveSessionBacklog clock
                  authority.interactionId with
              | (false, c') =>
                  (.error (.coordinator .approvalEventBacklogFull
                    ("Harness approval event backlog is full; wait for " ++
                      "product acknowledgement before requesting another " ++
                      "approval")), c')
              | (true, c') =>
                  ( c'.admitRequest clock request options).settleAdmitted clock
                    ⟨request, c'.promises, options⟩

/-! ## Observers -/

structure HarnessApprovalSnapshot where
  harnessSessionId : String
  latestSequence : ℕ
  pendingRequests : List PublicHarnessApprovalRequest
  events : List HarnessApprovalEvent
  deriving Repr, DecidableEq

def snapshot (interactionId after : ℤ) :
    Except ApprovalFailure HarnessApprovalSnapshot ×
      HarnessApprovalCoordinator :=
  if ¬ positiveInteger interactionId then
    (.error (.coordinator .invalidApprovalRequest
      "Approval event interaction ID must be a positive integer"), c)
  else if ¬ (0 ≤ after ∧ after ≤ 2 ^ 53 - 1) then
    (.error (.coordinator .invalidApprovalRequest
      "Approval event cursor must be a non-negative integer"), c)
  else
    let latest := c.latestSequence interactionId
    let answer : HarnessApprovalSnapshot := {
      harnessSessionId := c.harnessSessionId
      latestSequence := latest
      pendingRequests := (c.pending.rows.filter fun row =>
        row.2.request.correlation.interactionId = interactionId).map
          fun row => publicRequest row.2.request
      events := (c.retained interactionId).filter fun event =>
        after < (event.sequence : ℤ) }
    if after = latest ∧ c.interactionActive interactionId = false ∧
        c.interactionPending interactionId = false then
      (.ok answer,
        (c.deleteStream interactionId).forgetTerminal interactionId)
    else (.ok answer, c)

end HarnessApprovalCoordinator

end RelayerGraph
