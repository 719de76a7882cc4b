import RelayerGraph.Product.Executions
import RelayerGraph.Foundation.TransitionSystem

/-!
# Runs of the execution operations

The execution operations interleaved with what moves the interaction beside
them: claiming it to run, a request for approval, and the cancellation of an
approval, which stops an interaction no agent launched.  A call that fails
leaves the store it found.
-/

namespace RelayerGraph

open Foundation Checked

variable {Value : Type}

inductive ExecutionOperation (Value : Type)
  | reserve (binding : CompletionExecutionBinding) (timestamp : String)
  | claimLaunching (interaction : InteractionId)
      (permissionOriginDigest timestamp : String)
  | attach (interaction : InteractionId) (permissionOriginDigest : String)
      (attachment : Value) (timestamp : String)
  | finalizeAccepted (completion : AcceptedInteractionCompletion Value)
      (permissionOriginDigest timestamp : String)
  | finalizeFailed (interaction : InteractionId)
      (permissionOriginDigest harnessConfigurationName safeReason
        timestamp : String)
  | failUnlaunched (interaction : InteractionId) (graphCompletionId : ℤ)
      (harnessConfigurationName safeReason : String)
      (interrupted graphPending : Bool) (timestamp : String)
  | reconcileOnRestart (interaction : InteractionId)
      (permissionOriginDigest : String)
      (settlement : CompletionExecutionRestartSettlement Value)
      (timestamp : String)
  | endAttempt (interaction : InteractionId) (timestamp : String)
  | claimRunning (interaction : InteractionId)
      (harnessConfigurationName : String)
  | requestApproval (interaction : InteractionId)
  | cancelApproval (interaction : InteractionId) (othersOpen : Bool)

namespace ProductStore

variable (json : JsonLibrary Value) (store : ProductStore)

/-! ## Moves of the interaction alone -/

/-- A statement's answer: whether it affected its row. -/
def affected (updated : Option ProductStore) : Bool × ProductStore :=
  match updated with
  | some store' => (true, store')
  | none => (false, store)

/-- `claim_interaction_running`. -/
def claimInteractionRunning (interaction : InteractionId)
    (harnessConfigurationName : String) :
    StorageResult (Bool × ProductStore) :=
  store.affected <$> store.updateInteraction interaction
    (fun row =>
      row.completionStatus = .submitted ∧ row.graphNodeId.isSome ∧
        row.harnessConfigurationName = some harnessConfigurationName ∧
        row.harnessConfigurationDigest.isSome ∧
        row.effectiveExecutionDigest.isSome ∧
        row.effectivePermissionReceiptJson.isSome)
    (fun row => { row with completionStatus := .running, completionError := none })

/-- Whether an agent invoked the interaction, authoritatively or not. -/
def agentInvoked (interaction : InteractionId) : Bool :=
  store.actionInvocations.any fun invocation =>
    invocation.resultInteractionId = interaction ∧ invocation.agentInvoked

/-- What `record_approval_request` does to the interaction. -/
def requestApproval (interaction : InteractionId) :
    StorageResult (Bool × ProductStore) := do
  let row ← orThrow (store.interactions interaction)
    (.database "no row returned")
  if row.completionStatus = .running then
    store.affected <$> store.updateInteraction interaction
      (fun row => row.completionStatus = .running)
      (fun row => { row with completionStatus := .waitingForApproval })
  else
    require
      (row.completionStatus = .waitingForApproval ∨
        (row.completionStatus ∈ [.accepted, .failed, .stopped] ∧
          store.agentInvoked interaction ∧
          ¬ store.onArchivedThread interaction))
      (.approvalConflict "interaction cannot request approval")
    return (false, store)

/-- What `record_approval_resolution` does to the interaction when the request
was cancelled; `othersOpen` says whether another request still waits. -/
def cancelApproval (interaction : InteractionId) (othersOpen : Bool) :
    StorageResult (Bool × ProductStore) :=
  if store.agentInvoked interaction then
    store.affected <$> store.updateInteraction interaction
      (fun row => row.completionStatus = .waitingForApproval ∧ ¬ othersOpen)
      (fun row => { row with completionStatus := .running })
  else if (store.stopRequests interaction).isNone then
    store.affected <$> store.updateInteraction interaction
      (fun row => row.completionStatus ∈ [.running, .waitingForApproval])
      (fun row =>
        { row with
          completionStatus := .stopped
          completionError := some "Approval request was cancelled." })
  else
    -- A Stop waits for the execution's observer to settle the interaction.
    store.affected <$> store.updateInteraction interaction
      (fun row => row.completionStatus = .waitingForApproval)
      (fun row => { row with completionStatus := .running })

/-! ## The system -/

/-- Whether a reservation was made by this call. -/
def reserveAnswer
    (result : CompletionExecutionReserveOutcome Value × ProductStore) :
    Bool × ProductStore :=
  match result with
  | (.created _, store') => (true, store')
  | (.existing _, store') => (false, store')

/-- A call: whether it made its change, and the store it leaves. -/
def call : ExecutionOperation Value → StorageResult (Bool × ProductStore)
  | .reserve binding timestamp =>
      reserveAnswer <$> store.reserveCompletionExecution json binding timestamp
  | .claimLaunching interaction origin timestamp =>
      store.claimCompletionExecutionLaunching json interaction origin timestamp
  | .attach interaction origin attachment timestamp =>
      store.attachCompletionExecution json interaction origin attachment
        timestamp
  | .finalizeAccepted completion origin timestamp =>
      store.finalizeCompletionExecutionAccepted json completion origin timestamp
  | .finalizeFailed interaction origin harness safeReason timestamp =>
      store.finalizeCompletionExecutionFailed json interaction origin harness
        safeReason timestamp
  | .failUnlaunched interaction graphCompletionId harness safeReason
      interrupted graphPending timestamp =>
      store.failUnlaunchedRecursiveChild json interaction graphCompletionId
        harness safeReason interrupted graphPending timestamp
  | .reconcileOnRestart interaction origin settlement timestamp =>
      store.reconcileCompletionExecutionOnRestart json interaction origin
        settlement timestamp
  | .endAttempt interaction timestamp =>
      store.endCompletionExecutionAttempt interaction timestamp
  | .claimRunning interaction harness =>
      store.claimInteractionRunning interaction harness
  | .requestApproval interaction => store.requestApproval interaction
  | .cancelApproval interaction othersOpen =>
      store.cancelApproval interaction othersOpen

/-- The store a call leaves: a failed transaction leaves what it found. -/
def afterCall (operation : ExecutionOperation Value) : ProductStore :=
  match store.call json operation with
  | .ok (_, store') => store'
  | .error _ => store

/-- Whether a call answers that it made its change. -/
def callAnswers (operation : ExecutionOperation Value) : Bool :=
  match store.call json operation with
  | .ok (changed, _) => changed
  | .error _ => false

end ProductStore

/-- Runs of the execution operations from a store in which no execution is
reserved yet and no interaction has two attempts running. -/
def executionSystem (json : JsonLibrary Value) :
    TransitionSystem ProductStore (ExecutionOperation Value) where
  init store :=
    store.executions = ∅ ∧
      ∀ interaction,
        store.attempts.countP (ProductStore.runsAttemptOf interaction) ≤ 1
  step store operation store' := store' = store.afterCall json operation

end RelayerGraph
