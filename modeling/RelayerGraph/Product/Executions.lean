import RelayerGraph.Product.Store

/-!
# Executions of recursive completions

The operations on `completion_executions`.  Each is one transaction: it
compares the execution with what its caller expects, moves the execution, and
projects the result into the product's interaction under conditions of its
own.  An error rolls the whole transaction back.

JSON documents are stored as text.  How a document is written, read back and
compared is the library's, so these three functions are a parameter, and with
them the icon a completion's output proposes for its thread.
-/

namespace RelayerGraph

open Foundation Checked

/-- What the operations ask of a JSON library. -/
structure JsonLibrary (Value : Type) where
  encode : Value → String
  decode : String → Option Value
  same : Value → Value → Bool
  /-- `threadIconProposal` of an output, resolved to an icon's name. -/
  threadIconProposal : Value → Option String

/-- `CompletionExecution`: a row with its documents read back. -/
structure CompletionExecution (Value : Type) where
  row : ExecutionRow
  attachment : Option Value
  settlement : Option Value

structure CompletionExecutionBinding where
  interactionId : InteractionId
  graphCompletionId : ℤ
  harnessConfigurationName : String
  harnessConfigurationDigest : String
  modelExecutionDigest : String
  permissionOriginDigest : String

inductive CompletionExecutionReserveOutcome (Value : Type)
  | created (execution : CompletionExecution Value)
  | existing (execution : CompletionExecution Value)

structure AcceptedInteractionCompletion (Value : Type) where
  interactionId : InteractionId
  graphNodeId : ℤ
  harnessConfigurationName : String
  harnessConfigurationDigest : String
  effectiveExecutionDigest : String
  effectivePermissionReceipt : Value
  output : Value

inductive CompletionExecutionRestartSettlement (Value : Type)
  | accepted (output : Value)
  | failed (safeReason : String)

/-- An error of these operations. -/
def conflict (message : String) : StorageError :=
  .completionExecutionConflict message

def validateBinding (binding : CompletionExecutionBinding) :
    StorageResult Unit :=
  require
    (¬ (binding.graphCompletionId ≤ 0 ∨ binding.harnessConfigurationName = "" ∨
      binding.harnessConfigurationDigest = "" ∨
      binding.modelExecutionDigest = "" ∨ binding.permissionOriginDigest = ""))
    (conflict "execution binding identity is incomplete")

def requireBinding (existing : ExecutionRow)
    (binding : CompletionExecutionBinding) : StorageResult Unit :=
  require
    (existing.graphCompletionId = binding.graphCompletionId ∧
      existing.harnessConfigurationName = binding.harnessConfigurationName ∧
      existing.harnessConfigurationDigest = binding.harnessConfigurationDigest ∧
      existing.modelExecutionDigest = binding.modelExecutionDigest ∧
      existing.permissionOriginDigest = binding.permissionOriginDigest)
    (conflict "execution binding identity does not match durable history")

def requireOrigin (existing : ExecutionRow) (permissionOriginDigest : String) :
    StorageResult Unit :=
  require (existing.permissionOriginDigest = permissionOriginDigest)
    (conflict "execution binding identity does not match")

namespace ProductStore

variable {Value : Type} (json : JsonLibrary Value) (store : ProductStore)

def decodeJson : Option String → StorageResult (Option Value)
  | none => .ok none
  | some text =>
      some <$> orThrow (json.decode text)
        (.serialization "stored product JSON is invalid")

def executionFromRow (row : ExecutionRow) :
    StorageResult (CompletionExecution Value) := do
  let attachment ← decodeJson json row.attachmentJson
  let settlement ← decodeJson json row.settlementJson
  return ⟨row, attachment, settlement⟩

def fetchExecution (interaction : InteractionId) :
    StorageResult (Option (CompletionExecution Value)) :=
  match store.executions.lookup interaction with
  | none => .ok none
  | some row => some <$> executionFromRow json row

/-- `fetch_execution`, for the operations which need one. -/
def requireExecution (interaction : InteractionId) :
    StorageResult (CompletionExecution Value) := do
  let existing ← store.fetchExecution json interaction
  orThrow existing (conflict "completion execution does not exist")

/-- The binding of an interaction which is durably bound for execution. -/
def durableBinding (interaction : InteractionId) :
    Option (ℤ × String × String × String) :=
  match store.interactions interaction with
  | none => none
  | some row =>
      if row.completionStatus ∈ [.submitted, .running] ∧
          row.effectivePermissionReceiptJson.isSome then do
        let graphNodeId ← row.graphNodeId
        let name ← row.harnessConfigurationName
        let digest ← row.harnessConfigurationDigest
        let execution ← row.effectiveExecutionDigest
        return (graphNodeId, name, digest, execution)
      else
        none

/-- The row `reserve_completion_execution` inserts. -/
def reservedRow (binding : CompletionExecutionBinding) (timestamp : String) :
    ExecutionRow where
  graphCompletionId := binding.graphCompletionId
  harnessConfigurationName := binding.harnessConfigurationName
  harnessConfigurationDigest := binding.harnessConfigurationDigest
  modelExecutionDigest := binding.modelExecutionDigest
  permissionOriginDigest := binding.permissionOriginDigest
  phase := .reserved
  attachmentJson := none
  settlementJson := none
  safeReason := none
  createdAt := timestamp
  updatedAt := timestamp

def reserveCompletionExecution (binding : CompletionExecutionBinding)
    (timestamp : String) :
    StorageResult (CompletionExecutionReserveOutcome Value × ProductStore) := do
  validateBinding binding
  match ← store.fetchExecution json binding.interactionId with
  | some existing =>
      requireBinding existing.row binding
      return (.existing existing, store)
  | none =>
      let bound ← orThrow (store.durableBinding binding.interactionId)
        (conflict "interaction is not durably bound for execution")
      require
        (bound = (binding.graphCompletionId, binding.harnessConfigurationName,
          binding.harnessConfigurationDigest, binding.modelExecutionDigest))
        (conflict
          "execution identity does not match the durable interaction binding")
      require (¬ store.onArchivedThread binding.interactionId)
        (.database "thread_archived")
      require
        (∀ entry ∈ store.executions.entries,
          entry.2.graphCompletionId ≠ binding.graphCompletionId)
        (conflict
          "graph completion is already bound to another product interaction")
      let row := reservedRow binding timestamp
      return (.created ⟨row, none, none⟩,
        { store with
          executions := store.executions.insert binding.interactionId row })

/-- `claim_completion_execution_launching`: the only transition which
authorises a provider launch. -/
def claimCompletionExecutionLaunching (interaction : InteractionId)
    (permissionOriginDigest timestamp : String) :
    StorageResult (Bool × ProductStore) := do
  match ← store.updateExecution interaction
      (fun row =>
        row.permissionOriginDigest = permissionOriginDigest ∧
          row.phase = .reserved)
      (fun row => { row with phase := .launching, updatedAt := timestamp }) with
  | some store' => return (true, store')
  | none =>
      let existing ← store.requireExecution json interaction
      requireOrigin existing.row permissionOriginDigest
      return (false, store)

def attachCompletionExecution (interaction : InteractionId)
    (permissionOriginDigest : String) (attachment : Value)
    (timestamp : String) : StorageResult (Bool × ProductStore) := do
  let existing ← store.requireExecution json interaction
  requireOrigin existing.row permissionOriginDigest
  match existing.attachment with
  | some stored =>
      require (json.same stored attachment)
        (conflict "provider attachment does not match durable history")
      return (false, store)
  | none =>
      require (existing.row.phase ≠ .reserved)
        (conflict "provider attachment cannot precede launch ownership")
      let nextPhase :=
        if existing.row.phase = .launching then .attached
        else existing.row.phase
      let attached ← store.updateExecution interaction
        (fun row =>
          row.attachmentJson.isNone ∧ row.phase = existing.row.phase)
        (fun row =>
          { row with
            attachmentJson := some (json.encode attachment)
            phase := nextPhase
            updatedAt := timestamp })
      let store' ← orThrow attached
        (conflict "provider attachment compare-and-swap lost ownership")
      return (true, store')

/-- A row with its settlement. -/
def settledRow (row : ExecutionRow) (settlementJson safeReason : Option String)
    (timestamp : String) : ExecutionRow :=
  { row with
    settlementJson := settlementJson
    safeReason := safeReason
    phase := .settled
    updatedAt := timestamp }

/-- The update which settles an execution: it must still have the phase it was
read with and carry no settlement. -/
def settleExecution (interaction : InteractionId)
    (permissionOriginDigest : String) (phase : CompletionExecutionPhase)
    (settlementJson safeReason : Option String) (timestamp : String) :
    StorageResult (Option ProductStore) :=
  store.updateExecution interaction
    (fun row =>
      row.permissionOriginDigest = permissionOriginDigest ∧
        row.phase = phase ∧ row.settlementJson.isNone ∧ row.safeReason.isNone)
    (fun row => settledRow row settlementJson safeReason timestamp)

/-- The execution half of both finalisations: a launched execution settles, a
settled one must have settled the same way. -/
def settleOnce (interaction : InteractionId) (permissionOriginDigest : String)
    (existing : ExecutionRow) (settlementJson safeReason : Option String)
    (sameHistory : Bool) (lost different timestamp : String) :
    StorageResult (Bool × ProductStore) :=
  match existing.phase with
  | .launching | .attached => do
      let settled ← store.settleExecution interaction permissionOriginDigest
        existing.phase settlementJson safeReason timestamp
      let store' ← orThrow settled (conflict lost)
      return (true, store')
  | .settled => do
      require sameHistory (conflict different)
      return (false, store)
  | .reserved =>
      .error (conflict
        "completion execution cannot settle before launch ownership")

/-- `commit_thread_icon`. -/
def commitThreadIcon (interaction : InteractionId) (output : Value) :
    ProductStore :=
  match json.threadIconProposal output, store.interactions interaction with
  | some icon, some row =>
      match store.threads row.threadId with
      | some thread =>
          if row.completionStatus = .accepted ∧ thread.icon.isNone ∧
              thread.iconSelectionEligible ∧ thread.surface = "conversation" ∧
              thread.conversationImportId.isNone then
            { store with
              threads :=
                Function.update store.threads row.threadId
                  (some { thread with icon := some icon }) }
          else
            store
      | none => store
  | _, _ => store

/-- The stored result of an interaction. -/
def completionResult (interaction : InteractionId) :
    Option (CompletionStatus × Option String × Option String) :=
  (store.interactions interaction).map fun row =>
    (row.completionStatus, row.completionOutputJson, row.completionError)

def finalizeCompletionExecutionAccepted
    (completion : AcceptedInteractionCompletion Value)
    (permissionOriginDigest timestamp : String) :
    StorageResult (Bool × ProductStore) := do
  let output := json.encode completion.output
  let existing ← store.requireExecution json completion.interactionId
  requireOrigin existing.row permissionOriginDigest
  require
    (existing.row.graphCompletionId = completion.graphNodeId ∧
      existing.row.harnessConfigurationName =
        completion.harnessConfigurationName ∧
      existing.row.harnessConfigurationDigest =
        completion.harnessConfigurationDigest ∧
      existing.row.modelExecutionDigest = completion.effectiveExecutionDigest)
    (conflict
      "accepted completion does not match its durable execution binding")
  let (executionChanged, settledStore) ←
    store.settleOnce completion.interactionId permissionOriginDigest
      existing.row (some output) none
      ((existing.settlement.any fun stored =>
          json.same stored completion.output) ∧
        existing.row.safeReason.isNone)
      "accepted settlement compare-and-swap lost ownership"
      "accepted settlement does not match durable history" timestamp
  let interaction ← settledStore.updateInteraction completion.interactionId
    (fun row =>
      row.graphNodeId = some completion.graphNodeId ∧
        row.completionStatus ∈ [.running, .waitingForApproval] ∧
        row.harnessConfigurationName =
          some completion.harnessConfigurationName ∧
        row.harnessConfigurationDigest =
          some completion.harnessConfigurationDigest ∧
        row.effectiveExecutionDigest =
          some completion.effectiveExecutionDigest ∧
        row.effectivePermissionReceiptJson =
          some (json.encode completion.effectivePermissionReceipt))
    (fun row =>
      { row with
        completionStatus := .accepted
        completionOutputJson := some output
        completionError := none })
  match interaction with
  | some accepted =>
      return (true,
        accepted.commitThreadIcon json completion.interactionId
          completion.output)
  | none =>
      require
        (settledStore.completionResult completion.interactionId =
          some (.accepted, some output, none))
        (conflict "product interaction changed during accepted settlement")
      return (executionChanged,
        settledStore.commitThreadIcon json completion.interactionId
          completion.output)

/-- The statuses a failing execution takes its interaction out of. -/
def unfinished : List CompletionStatus :=
  [.notStarted, .running, .submitted, .waitingForApproval]

/-- A cancelled approval already stopped the interaction. -/
def alreadyStopped (interaction : InteractionId) : Bool :=
  (store.interactions interaction).any fun row =>
    row.completionStatus = .stopped ∧ row.completionOutputJson.isNone

def finalizeCompletionExecutionFailed (interaction : InteractionId)
    (permissionOriginDigest harnessConfigurationName safeReason
      timestamp : String) : StorageResult (Bool × ProductStore) := do
  require (safeReason ≠ "")
    (conflict "failed settlement requires a safe reason")
  let existing ← store.requireExecution json interaction
  requireOrigin existing.row permissionOriginDigest
  require (existing.row.harnessConfigurationName = harnessConfigurationName)
    (conflict "failed completion does not match its durable harness binding")
  let (executionChanged, settledStore) ←
    store.settleOnce interaction permissionOriginDigest existing.row none
      (some safeReason)
      (existing.row.settlementJson.isNone ∧
        existing.row.safeReason = some safeReason)
      "failed settlement compare-and-swap lost ownership"
      "failed settlement does not match durable history" timestamp
  let failed ← settledStore.updateInteraction interaction
    (fun row =>
      row.graphNodeId = some existing.row.graphCompletionId ∧
        row.completionStatus ∈ unfinished)
    (fun row =>
      { row with
        completionStatus := .failed
        harnessConfigurationName :=
          row.harnessConfigurationName <|> some harnessConfigurationName
        completionOutputJson := none
        completionError := some safeReason })
  match failed with
  | some store' => return (true, store')
  | none =>
      require
        (settledStore.alreadyStopped interaction ∨
          settledStore.completionResult interaction =
            some (.failed, none, some safeReason))
        (conflict "product interaction changed during failed settlement")
      return (executionChanged, settledStore)

/-- `settled_recursive_attempt_outcome`. -/
def settledRecursiveAttemptOutcome :
    CompletionStatus → AttemptOutcome × Option String × String
  | .accepted => (.accepted, none, "graph_write")
  | .stopped => (.cancelled, none, "unknown")
  | _ => (.executionFailed, some "recursive_completion", "unknown")

/-- An attempt ended with the outcome of its settled interaction. -/
def endedAttempt (status : CompletionStatus) (timestamp : String)
    (attempt : AttemptRow) : AttemptRow :=
  let (outcome, failureCategory, effectBoundary) :=
    settledRecursiveAttemptOutcome status
  { attempt with
    finishedAt := some timestamp
    outcome := outcome
    failureCategory := failureCategory
    effectBoundary := effectBoundary }

/-- Whether an attempt of the interaction is still running. -/
def runsAttemptOf (interaction : InteractionId) (attempt : AttemptRow) : Bool :=
  attempt.interactionId = interaction ∧ attempt.outcome = .running

def endCompletionExecutionAttempt (interaction : InteractionId)
    (timestamp : String) : StorageResult (Bool × ProductStore) :=
  match store.executions.lookup interaction, store.interactions interaction with
  | some execution, some row => do
      require (execution.phase = .settled)
        (conflict "a recursive attempt ends only after its execution settles")
      let attempts := store.attempts.map fun attempt =>
        if runsAttemptOf interaction attempt then
          endedAttempt row.completionStatus timestamp attempt
        else
          attempt
      return (store.attempts.countP (runsAttemptOf interaction) = 1,
        { store with attempts := attempts })
  | _, _ => .ok (false, store)

/-- Whether an agent launched the interaction as a child. -/
def agentChild (interaction : InteractionId) : Bool :=
  store.actionInvocations.any fun invocation =>
    invocation.resultInteractionId = interaction ∧ invocation.authoritative ∧
      invocation.agentInvoked

/-- The invocations of a child, marked until its graph half is failed too. -/
def markGraphFailurePending (interaction : InteractionId) : ProductStore :=
  { store with
    actionInvocations := store.actionInvocations.map fun invocation =>
      if invocation.resultInteractionId = interaction ∧
          invocation.authoritative then
        { invocation with graphFailurePending := true }
      else
        invocation }

/-- Whether some launch may still own the child. -/
def launchOwned (existing : Option (CompletionExecution Value))
    (interrupted : Bool) : Bool :=
  existing.any fun execution =>
    ¬ (execution.row.phase = .reserved ∨
      (interrupted ∧ execution.row.phase = .settled))

def failUnlaunchedRecursiveChild (interaction : InteractionId)
    (graphCompletionId : ℤ) (harnessConfigurationName safeReason : String)
    (interrupted graphPending : Bool) (timestamp : String) :
    StorageResult (Bool × ProductStore) := do
  require (safeReason ≠ "")
    (conflict "failed settlement requires a safe reason")
  let existing ← store.fetchExecution json interaction
  if launchOwned existing interrupted then
    return (false, store)
  else
    let failed ← store.updateInteraction interaction
      (fun row =>
        (row.graphNodeId = none ∨ row.graphNodeId = some graphCompletionId) ∧
          (row.completionStatus ∈ [.notStarted, .submitted] ∨
            (interrupted ∧
              row.completionStatus ∈ [.running, .waitingForApproval])) ∧
          store.agentChild interaction)
      (fun row =>
        { row with
          completionStatus := .failed
          graphNodeId := row.graphNodeId <|> some graphCompletionId
          harnessConfigurationName :=
            row.harnessConfigurationName <|> some harnessConfigurationName
          completionOutputJson := none
          completionError := some safeReason })
    match failed with
    | none => return (false, store)
    | some failedStore =>
        let settled ← failedStore.updateExecution interaction
          (fun row => row.phase = .reserved)
          (fun row => settledRow row none (some safeReason) timestamp)
        let settledStore := settled.getD failedStore
        return (true,
          if graphPending then settledStore.markGraphFailurePending interaction
          else settledStore)

/-- The settlement, safe reason, status, output and error a restart writes. -/
def restartColumns :
    CompletionExecutionRestartSettlement Value →
      StorageResult
        (Option String × Option String × CompletionStatus ×
          Option String × Option String)
  | .accepted output =>
      .ok (some (json.encode output), none, .accepted,
        some (json.encode output), none)
  | .failed safeReason => do
      require (safeReason ≠ "")
        (conflict "restart failure requires a safe reason")
      return (none, some safeReason, .failed, none, some safeReason)

def reconcileCompletionExecutionOnRestart (interaction : InteractionId)
    (permissionOriginDigest : String)
    (settlement : CompletionExecutionRestartSettlement Value)
    (timestamp : String) : StorageResult (Bool × ProductStore) := do
  let existing ← store.requireExecution json interaction
  requireOrigin existing.row permissionOriginDigest
  if existing.row.phase = .settled then
    return (false, store)
  else
    require
      (existing.row.phase = .launching ∨ existing.row.phase = .attached)
      (conflict
        "only a launched completion execution can be reconciled after restart")
    let (settlementJson, safeReason, status, output, error) ←
      restartColumns json settlement
    let fence ← store.settleExecution interaction permissionOriginDigest
      existing.row.phase settlementJson safeReason timestamp
    let settledStore ← orThrow fence
      (conflict "restart reconciliation compare-and-swap lost ownership")
    let projected ← settledStore.updateInteraction interaction
      (fun row =>
        row.graphNodeId = some existing.row.graphCompletionId ∧
          row.completionStatus ∈ unfinished)
      (fun row =>
        { row with
          completionStatus := status
          completionOutputJson := output
          completionError := error })
    match projected with
    | some store' => return (true, store')
    | none =>
        require (settledStore.alreadyStopped interaction ∧ status = .failed)
          (conflict "product interaction changed during restart reconciliation")
        return (true, settledStore)

end ProductStore

end RelayerGraph
