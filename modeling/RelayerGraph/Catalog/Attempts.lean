import RelayerGraph.Catalog.Turns

/-!
# Attempts

An attempt is one execution of a turn under one plan.  It begins running,
leaves that outcome once, and the lease its execution held is owed until it
is acknowledged.  The statements that end an attempt all select the running
ones; which outcome they write depends on the turn.
-/

namespace RelayerGraph

open Foundation Checked

def pendingPrefix : String := "Canonical reconciliation pending:"

/-- `LIKE 'Canonical reconciliation pending:%'`. -/
def pendingLike (error : Option String) : Bool :=
  (nocase pendingPrefix).isPrefixOf (nocase (error.getD ""))

/-- `starts_with`. -/
def startsWith (start text : String) : Bool :=
  start.toList.isPrefixOf text.toList

/-! ## Statuses and the submitted input they carry -/

def submittedInputRestored : String :=
  "Submitted input was restored after the attempt ended before graph acceptance."

/-- The triggers on a changed status: the submitted input follows the turn,
and one that ends before its acceptance is restored, which leaves its turn
failed. -/
def afterStatus (row : TurnRow) :
    Option SubmittedInputState → TurnRow × Option SubmittedInputState
  | none => (row, none)
  | some state =>
      match row.completionStatus with
      | .submitted =>
          (row, some (if state = .reserved then .preparing else state))
      | .running =>
          (row, some (if state = .preparing ∨ state = .bound then .running
            else state))
      | .accepted => (row, some (if state.ended then state else .accepted))
      | .failed | .stopped | .notStarted =>
          if state.ended = true ∨ pendingLike row.completionError = true then
            (row, some state)
          else
            (if row.completionStatus = .notStarted then
              { row with
                completionStatus := .failed
                completionError :=
                  some (row.completionError.getD submittedInputRestored) }
            else row,
              some (if row.completionStatus = .stopped then .stopped
                else .failed))
      | _ => (row, some state)

namespace CatalogDatabase

variable (library : CatalogLibrary) (db : CatalogDatabase)

/-- An update of one turn, with the triggers on its status. -/
def writeTurn (turn : TurnId) (change : TurnRow → TurnRow) : CatalogDatabase :=
  match db.turns.get? turn with
  | none => db
  | some old =>
      let (row, state) :=
        if (change old).completionStatus = old.completionStatus then
          (change old, db.submittedInputs turn)
        else
          afterStatus (change old) (db.submittedInputs turn)
      { db with
        turns := db.turns.mapRows fun key other =>
          if key = turn then row else other
        submittedInputs := Function.update db.submittedInputs turn state }

/-- Updates of all the turns a condition selects. -/
def writeTurns (condition : TurnId → TurnRow → Bool)
    (change : TurnRow → TurnRow) : CatalogDatabase :=
  (db.turns.select condition).foldl
    (fun state turn => state.writeTurn turn change) db

/-- The turn belongs to a thread of this store, not to an imported one. -/
def nativeTurn (row : TurnRow) : Bool :=
  (db.threads.get? row.threadId).any fun thread => !thread.imported

/-- A submitted input of the turn has not ended. -/
def submittedInputOpen (turn : TurnId) : Bool :=
  (db.submittedInputs turn).any fun state => !state.ended

/-- The turn is the result of an invocation. -/
def invoked (turn : TurnId) : Bool :=
  db.invocations.any fun invocation => invocation.resultTurn = turn

/-- The turn returned to unsent by a model failure, or before any attempt. -/
def returnedToUnsent (turn : TurnId) (row : TurnRow) : Bool :=
  match db.latestAttempt turn with
  | some attempt => decide (attempt.2.outcome = .modelFailed)
  | none => row.harnessConfigurationName.isSome

def staleReturnedMessage : String :=
  "This message could not run, and a later message was sent before it was retried. Send it again to run it."

/-- `fail_stale_returned_messages_beside`. -/
def failStaleReturnedMessagesBeside (turn : TurnId) : CatalogDatabase :=
  match db.turns.get? turn with
  | none => db
  | some beside =>
      db.writeTurns
        (fun key row => decide (row.threadId = beside.threadId) &&
          decide (row.completionStatus = .notStarted) &&
          db.returnedToUnsent key row && !db.invoked key &&
          db.laterMessage key row)
        fun row => { row with
          completionStatus := .failed
          completionError := some staleReturnedMessage }

/-- The turn as it is returned to unsent. -/
def unsent (harness : HarnessId) (row : TurnRow) : TurnRow :=
  { row with
    graphNodeId := none
    completionStatus := .notStarted
    harnessConfigurationName := some harness
    harnessConfigurationDigest := none
    effectiveExecutionDigest := none
    effectivePermissionReceiptJson := none
    completionOutputJson := none
    completionError := none }

/-! ## Attempt rows -/

/-- An attempt with its outcome. -/
def ended (now : String) (outcome : AttemptOutcome)
    (failureCategory : Option String) (effectBoundary : String)
    (row : TurnAttemptRow) : TurnAttemptRow :=
  { row with
    finishedAt := some now
    outcome := outcome
    failureCategory := failureCategory
    effectBoundary := effectBoundary }

/-- An update of the running attempts a condition selects. -/
def updateRunning (condition : AttemptId → TurnAttemptRow → Bool)
    (change : TurnAttemptRow → TurnAttemptRow) : CatalogDatabase :=
  { db with
    attempts := db.attempts.mapRows fun key row =>
      if row.outcome = .running ∧ condition key row = true then change row
      else row }

/-- Some running attempt meets the condition. -/
def someRunning (condition : AttemptId → TurnAttemptRow → Bool) : Bool :=
  db.attempts.entries.any fun entry =>
    decide (entry.2.outcome = .running) && condition entry.1 entry.2

/-- `SELECT COALESCE(MAX(attempt_number),0)+1`. -/
def nextAttemptNumber (turn : TurnId) : ℕ :=
  (((db.attempts.entries.filter fun entry => entry.2.turn = turn).map
    fun entry => entry.2.attemptNumber).foldl max 0) + 1

/-- `INSERT INTO interaction_attempts`, with its checks and indexes. -/
def insertAttempt (row : TurnAttemptRow) : CatalogResult CatalogDatabase := do
  require ((db.attempts.entries.all fun entry =>
      decide (entry.2.turn ≠ row.turn) ||
        decide (entry.2.attemptNumber ≠ row.attemptNumber)) = true ∧
      (db.attempts.entries.all fun entry =>
        row.admissionId.isNone ||
          decide (entry.2.admissionId ≠ row.admissionId)) = true)
    (.constraint "interaction_attempts")
  pure { db with attempts := db.attempts.insert row }

/-! ## Beginning an attempt -/

/-- `BeginInteractionAttempt`. -/
structure BeginTurnAttempt where
  turn : TurnId
  admissionId : String
  harnessName : HarnessId
  route : ExecutionModelSelection
  modelPlan : ExecutionModelPlan
  admittedPlan : AdmittedExecutionModelPlan
  adapterVersion : ℕ
  expectedPolicy : Option (ℕ × String)
  executionLeaseId : String
deriving DecidableEq

/-- The plan an admitted plan stands for: its routes without the version of
the adapter that runs them. -/
def plannedRoute (route : AdmittedExecutionModelRoute) : ExecutionModelRoute :=
  route.toExecutionModelRoute

def AdmittedExecutionModelPlan.planned (plan : AdmittedExecutionModelPlan) :
    ExecutionModelPlan :=
  { schemaVersion := plan.schemaVersion
    familyId := plan.familyId
    familyRevision := plan.familyRevision
    orchestrator := plannedRoute plan.orchestrator
    roster := plan.roster.map plannedRoute }

/-- The row an admitted receipt records. -/
def attemptRow (receipt : BeginTurnAttempt) (number : ℕ) (now : String)
    (policy : ℕ × String) : TurnAttemptRow :=
  { turn := receipt.turn
    attemptNumber := number
    startedAt := now
    finishedAt := none
    familyId := receipt.route.familyId
    familyRevision := receipt.modelPlan.familyRevision
    harnessName := receipt.harnessName
    harnessRevision := policy.1
    harnessDigest := policy.2
    providerId := receipt.route.providerId
    adapterId := receipt.route.adapterId
    adapterVersion := receipt.adapterVersion
    modelId := receipt.route.modelId
    accessContract := receipt.route.accessContract
    outcome := .running
    failureCategory := none
    effectBoundary := "unknown"
    admissionId := some receipt.admissionId
    admittedPlan := some receipt.admittedPlan
    executionLeaseId := some receipt.executionLeaseId
    executionLeaseReconciledAt := none
    nativeWaitEndedAt := none }

/-- The turn is running and no attempt of it is. -/
def admitsAttempt (turn : TurnId) (refusal : String) :
    CatalogResult TurnRow := do
  let row ← orThrow (db.turns.get? turn) .rowNotFound
  require (row.completionStatus = .running ∧
      db.someRunning (fun _ attempt => attempt.turn = turn) = false)
    (.incompatibleSchema refusal)
  pure row

/-- `begin_interaction_attempt`. -/
def beginInteractionAttempt
    (compatible : ValidateModelSelectionCommand → Bool)
    (receipt : BeginTurnAttempt) (now : String) :
    CatalogResult CatalogDatabase := do
  let row ← db.admitsAttempt receipt.turn
    "a new execution attempt requires one running interaction with no active attempt"
  require (receipt.admissionId ≠ "")
    (.incompatibleSchema
      "an execution attempt requires a non-empty admission id")
  require (receipt.executionLeaseId ≠ "")
    (.incompatibleSchema
      "an execution attempt requires a non-empty execution lease id")
  let selection : InteractionModelSelection :=
    ⟨receipt.route.familyId, receipt.route.providerId, receipt.route.modelId⟩
  let command : ValidateModelSelectionCommand :=
    ⟨receipt.harnessName, selection.familyId, selection.providerId,
      selection.modelId⟩
  require (db.invoked receipt.turn = true ∨ compatible command = true)
    (.selection "conversation_route_incompatible"
      "This route cannot safely continue the conversation." command)
  let (plan, admitted) ←
    db.resolveExecutionModelPlan library receipt.harnessName selection
  let required := (db.threads.get? row.threadId).bind fun thread =>
    thread.requiredProviderAdapterId
  require (∀ adapter ∈ required, adapter = admitted.adapterId)
    (.invalid "execution_provider_not_authorized"
      "This task requires the Codex subscription; API spending is not authorized.")
  require (plan = receipt.modelPlan)
    (.incompatibleSchema
      "the model family plan changed between resolution and atomic attempt admission")
  require (admitted = receipt.route)
    (.incompatibleSchema
      "the execution route changed between resolution and atomic attempt admission")
  require (AdmittedExecutionModelPlan.planned receipt.admittedPlan =
      receipt.modelPlan)
    (.incompatibleSchema
      "the provider broker admitted a different model family plan")
  require (library.admittedPlanDigest receipt.admittedPlan =
      some receipt.admittedPlan.digest)
    (.incompatibleSchema "invalid admitted model-plan digest")
  let harness ← orThrow
    ((db.harnesses.get? receipt.harnessName).filter fun harness =>
      harness.productVisible && harness.available) .rowNotFound
  let policy := (harness.configurationRevision, harness.configurationDigest)
  require (∀ expected ∈ receipt.expectedPolicy, expected = policy)
    (.incompatibleSchema
      "the harness model policy changed between resolution and atomic attempt admission")
  let db ← db.insertAttempt
    (attemptRow receipt (db.nextAttemptNumber receipt.turn) now policy)
  pure { db with
    turns := db.turns.mapRows fun key old =>
      if key = receipt.turn then old.withSelection (some selection) else old }

/-! ## Failures before and at admission -/

/-- `PreExecutionModelFailure`. -/
structure PreExecutionFailure where
  turn : TurnId
  harnessName : HarnessId
  selection : InteractionModelSelection
  route : Option ExecutionModelSelection
  policy : Option (ℕ × String)
  adapterVersion : Option ℕ
  failureCategory : String
  error : String
deriving DecidableEq

/-- The adapter and access contract of the failure's route, or those of its
provider. -/
def failureRoute (failure : PreExecutionFailure) :
    CatalogResult (String × String) :=
  match failure.route with
  | some route => pure (route.adapterId, route.accessContract)
  | none => do
      let provider ← orThrow (db.providers.get? failure.selection.providerId)
        .rowNotFound
      pure (provider.adapterId, provider.accessContract)

/-- The failure's harness policy, or the one the store holds. -/
def failurePolicy (failure : PreExecutionFailure) :
    CatalogResult (ℕ × String) :=
  match failure.policy with
  | some policy => pure policy
  | none => do
      let harness ← orThrow (db.harnesses.get? failure.harnessName)
        .rowNotFound
      pure (harness.configurationRevision, harness.configurationDigest)

/-- The row of an attempt that never ran. -/
def failedAttempt (failure : PreExecutionFailure) (now : String)
    (route : String × String) (familyRevision : ℕ) (policy : ℕ × String) :
    TurnAttemptRow :=
  { turn := failure.turn
    attemptNumber := db.nextAttemptNumber failure.turn
    startedAt := now
    finishedAt := some now
    familyId := failure.selection.familyId
    familyRevision := familyRevision
    harnessName := failure.harnessName
    harnessRevision := policy.1
    harnessDigest := policy.2
    providerId := failure.selection.providerId
    adapterId := route.1
    adapterVersion := failure.adapterVersion.getD 0
    modelId := failure.selection.modelId
    accessContract := route.2
    outcome := .modelFailed
    failureCategory := some failure.failureCategory
    effectBoundary := "none"
    admissionId := none
    admittedPlan := none
    executionLeaseId := none
    executionLeaseReconciledAt := none
    nativeWaitEndedAt := none }

/-- The turn of the failure: failed while its submitted input is open, and
returned to unsent otherwise. -/
def returnedTurn (failure : PreExecutionFailure) : CatalogDatabase :=
  if db.submittedInputOpen failure.turn then
    db.writeTurn failure.turn fun row => { row with
      completionStatus := .failed
      harnessConfigurationName := some failure.harnessName
      completionError := some failure.error }
  else
    { db with
      stopRequests := Function.update db.stopRequests failure.turn false
    }.writeTurn failure.turn (unsent failure.harnessName)

/-- The turn waits for an execution. -/
def waitingTurn (row : TurnRow) : Bool :=
  decide (row.completionStatus = .submitted) ||
    decide (row.completionStatus = .running)

/-- `record_pre_execution_model_failure`. -/
def recordPreExecutionModelFailure (failure : PreExecutionFailure)
    (restoreSafe : Bool) (now : String) : CatalogResult CatalogDatabase := do
  let route ← db.failureRoute failure
  let family ← orThrow (db.families.get? failure.selection.familyId)
    .rowNotFound
  let policy ← db.failurePolicy failure
  require (((db.turns.get? failure.turn).any waitingTurn) = true ∧
      db.someRunning (fun _ attempt => attempt.turn = failure.turn) = false)
    (.incompatibleSchema
      "pre-execution model failure requires one submitted or running interaction with no active attempt")
  let db ← db.insertAttempt
    (db.failedAttempt failure now route family.revision policy)
  let db := db.returnedTurn failure
  require (restoreSafe = true) (.constraint "node_context_drafts")
  pure (db.failStaleReturnedMessagesBeside failure.turn)

/-- `record_model_attempt_admission_failure`. -/
def recordModelAttemptAdmissionFailure (receipt : BeginTurnAttempt)
    (failureCategory : String) (executionLeaseReconciled restoreSafe : Bool)
    (now : String) : CatalogResult CatalogDatabase := do
  let _ ← db.admitsAttempt receipt.turn
    "a failed attempt admission requires one running interaction with no active attempt"
  let policy ← orThrow receipt.expectedPolicy
    (.incompatibleSchema
      "failed attempt admission requires its expected harness policy snapshot")
  let db ← db.insertAttempt
    { attemptRow receipt (db.nextAttemptNumber receipt.turn) now policy with
      finishedAt := some now
      outcome := .modelFailed
      failureCategory := some failureCategory
      effectBoundary := "none"
      executionLeaseReconciledAt :=
        if executionLeaseReconciled then some now else none }
  let db := { db with
    stopRequests := Function.update db.stopRequests receipt.turn false
    }.writeTurn receipt.turn (unsent receipt.harnessName)
  require (restoreSafe = true) (.constraint "node_context_drafts")
  pure (db.failStaleReturnedMessagesBeside receipt.turn)

/-! ## Completions -/

/-- What an accepted completion records of its execution. -/
structure AcceptedCompletion where
  turn : TurnId
  graphNodeId : ℤ
  harnessName : HarnessId
  harnessDigest : String
  executionDigest : String
  permissionReceipt : String
  output : String
deriving DecidableEq

/-- The attempt is running and belongs to the turn. -/
def runningAttempt (attempt : AttemptId) (turn : TurnId) : CatalogResult Unit :=
  require (((db.attempts.get? attempt).any fun row =>
      decide (row.turn = turn) && decide (row.outcome = .running)) = true)
    (.incompatibleSchema
      "interaction attempt was already terminal, missing, or owned by another interaction")

/-- `accept_interaction_completion_with_attempt`. -/
def acceptCompletionWithAttempt (attempt : AttemptId)
    (completion : AcceptedCompletion) (now : String) :
    CatalogResult CatalogDatabase := do
  db.runningAttempt attempt completion.turn
  let db := db.updateRunning (fun key _ => key = attempt)
    (ended now .accepted none "graph_write")
  require (((db.turns.get? completion.turn).any fun row =>
      row.completionStatus = .running) = true)
    (.incompatibleSchema
      "interaction was not running while accepting its attempt")
  pure (db.writeTurn completion.turn fun row => { row with
    graphNodeId := some completion.graphNodeId
    completionStatus := .accepted
    harnessConfigurationName := some completion.harnessName
    harnessConfigurationDigest := some completion.harnessDigest
    effectiveExecutionDigest := some completion.executionDigest
    effectivePermissionReceiptJson := some completion.permissionReceipt
    completionOutputJson := some completion.output
    completionError := none })

/-- `FailedInteractionCompletion`. -/
structure FailedCompletion where
  attempt : AttemptId
  turn : TurnId
  harnessName : HarnessId
  error : String
  outcome : AttemptOutcome
  failureCategory : String
  effectBoundary : String
  returnToUnsent : Bool
  graphNodeId : Option ℤ
deriving DecidableEq

/-- The turn of a failed completion. -/
def failedTurn (failure : FailedCompletion) : CatalogDatabase :=
  if failure.returnToUnsent && db.submittedInputOpen failure.turn then
    db.writeTurn failure.turn fun row => { row with
      completionStatus := .failed
      harnessConfigurationName := some failure.harnessName
      completionError := some failure.error }
  else if failure.returnToUnsent then
    db.writeTurn failure.turn (unsent failure.harnessName)
  else
    db.writeTurn failure.turn fun row => { row with
      graphNodeId := failure.graphNodeId
      completionStatus := .failed
      harnessConfigurationName := some failure.harnessName
      completionError := some failure.error }

/-- `fail_interaction_completion_with_attempt`. -/
def failCompletionWithAttempt (failure : FailedCompletion)
    (restoreSafe : Bool) (now : String) : CatalogResult CatalogDatabase := do
  db.runningAttempt failure.attempt failure.turn
  require (failure.outcome ≠ .running ∧ failure.outcome ≠ .accepted)
    (.constraint "interaction_attempts.outcome")
  let db := db.updateRunning (fun key _ => key = failure.attempt)
    (ended now failure.outcome (some failure.failureCategory)
      failure.effectBoundary)
  require (((db.turns.get? failure.turn).any fun row =>
      row.completionStatus = .running) = true)
    (.incompatibleSchema
      "interaction was not running while finalizing its attempt")
  let db := db.failedTurn failure
  if failure.returnToUnsent then do
    require (restoreSafe = true) (.constraint "node_context_drafts")
    pure (db.failStaleReturnedMessagesBeside failure.turn)
  else
    pure db

/-! ## The end of a wait -/

/-- The outcome a turn already decided for its attempt. -/
def decidedOutcome (row : TurnRow) : Option (AttemptOutcome × String) :=
  let error := row.completionError.getD ""
  if startsWith pendingPrefix error then
    none
  else
    match row.completionStatus with
    | .stopped => some (.cancelled, "approval_cancelled")
    | .failed =>
        some (.executionFailed,
          if startsWith "Approval request expired" error then
            "approval_expired"
          else if startsWith "Approval request was aborted" error then
            "approval_aborted"
          else
            "execution_failed")
    | _ => none

/-- `end_attempt_native_wait`. -/
def endAttemptNativeWait (attempt : AttemptId) (now : String) :
    CatalogDatabase :=
  match (db.attempts.get? attempt).filter fun row =>
      decide (row.outcome = .running) && row.nativeWaitEndedAt.isNone with
  | none => db
  | some row =>
      match (db.turns.get? row.turn).bind decidedOutcome with
      | some (outcome, category) =>
          db.updateRunning (fun key _ => key = attempt)
            (ended now outcome (some category) "unknown")
      | none =>
          db.updateRunning (fun key row =>
              decide (key = attempt) && row.nativeWaitEndedAt.isNone)
            fun row => { row with nativeWaitEndedAt := some now }

/-- `settled_recursive_attempt_outcome`. -/
def settledRecursiveOutcome :
    CompletionStatus → AttemptOutcome × Option String × String
  | .accepted => (.accepted, none, "graph_write")
  | .stopped => (.cancelled, none, "unknown")
  | _ => (.executionFailed, some "recursive_completion", "unknown")

/-- `end_completion_execution_attempt`. -/
def endCompletionExecutionAttempt (turn : TurnId) (now : String) :
    CatalogResult CatalogDatabase :=
  match db.executionPhases turn, db.turns.get? turn with
  | some phase, some row => do
      require (phase = .settled)
        (.invalid "completion_execution_conflict"
          "a recursive attempt ends only after its execution settles")
      let (outcome, category, boundary) :=
        settledRecursiveOutcome row.completionStatus
      pure (db.updateRunning (fun _ attempt => attempt.turn = turn)
        (ended now outcome category boundary))
  | _, _ => pure db

/-! ## Restarts -/

/-- The submitted input of the turn waits for canonical reconciliation. -/
def quarantined (turn : TurnId) : Bool :=
  ((db.turns.get? turn).any fun row =>
    decide (row.completionStatus = .failed) &&
      pendingLike row.completionError) && db.submittedInputOpen turn

/-- The recursive execution of the turn has settled. -/
def settledExecution (turn : TurnId) : Bool :=
  decide (db.executionPhases turn = some .settled)

def restartInterrupted : String :=
  "Relayer restarted while this run was in progress. Resume runs it again."

/-- `recover_interrupted_interactions`. -/
def recoverInterruptedInteractions (error : String) (preserveIdentified : Bool)
    (now : String) : CatalogDatabase :=
  let failed := db.updateRunning
    (fun _ attempt => !db.settledExecution attempt.turn &&
      !db.quarantined attempt.turn)
    (ended now .executionFailed (some "application_restart") "unknown")
  let waited := failed.updateRunning
    (fun _ attempt => attempt.nativeWaitEndedAt.isNone &&
      !failed.settledExecution attempt.turn)
    fun row => { row with nativeWaitEndedAt := some now }
  let interrupted := waited.writeTurns
    (fun turn row =>
      decide (row.completionStatus ∈
        [CompletionStatus.running, .submitted, .waitingForApproval]) &&
      !waited.invoked turn && (waited.submittedInputs turn).isNone &&
      !waited.stopRequests turn && waited.nativeTurn row)
    fun row => { row with
      completionStatus := .interrupted
      completionError := some restartInterrupted }
  interrupted.writeTurns
    (fun turn row =>
      decide (row.completionStatus ∈ [CompletionStatus.running, .submitted]) &&
      (!preserveIdentified || row.inputIdentity.isNone) &&
      !(interrupted.invocations.any fun invocation =>
        decide (invocation.resultTurn = turn) && invocation.authoritative) &&
      interrupted.nativeTurn row)
    fun row => { row with
      completionStatus := .failed
      completionError := some error }

/-- The turn carries an open submitted input and has not ended. -/
def interruptedInput (turn : TurnId) : Bool :=
  ((db.turns.get? turn).any fun row =>
    decide (row.completionStatus ∈
      [CompletionStatus.notStarted, .running, .submitted,
        .waitingForApproval]) && db.nativeTurn row) &&
    db.submittedInputOpen turn

/-- The turn of an interrupted submitted input, with its error. -/
def withInputError (harness : HarnessId) (error : String) (row : TurnRow) :
    TurnRow :=
  { row with
    completionStatus := .failed
    harnessConfigurationName :=
      some (row.harnessConfigurationName.getD harness)
    completionError := some error }

/-- `fail_interrupted_submitted_input`. -/
def failInterruptedSubmittedInput (turn : TurnId) (harness : HarnessId)
    (error now : String) : CatalogDatabase :=
  let failed := db.updateRunning (fun _ attempt => attempt.turn = turn)
    (ended now .executionFailed (some "application_restart") "unknown")
  if failed.interruptedInput turn then
    failed.writeTurn turn (withInputError harness error)
  else
    db

/-- `quarantine_interrupted_submitted_input`. -/
def quarantineInterruptedSubmittedInput (turn : TurnId) (harness : HarnessId)
    (error : String) : CatalogDatabase :=
  if db.interruptedInput turn then
    db.writeTurn turn (withInputError harness error)
  else
    db

/-- `finalize_quarantined_submitted_input_failure`. -/
def finalizeQuarantinedSubmittedInputFailure (turn : TurnId)
    (error now : String) : CatalogDatabase :=
  let failed := db.updateRunning (fun _ attempt => attempt.turn = turn)
    (ended now .executionFailed (some "application_restart") "unknown")
  if failed.quarantined turn ∧
      (failed.turns.get? turn).any failed.nativeTurn = true then
    failed.writeTurn turn fun row => { row with
      completionStatus := .notStarted
      completionError := some error }
  else
    db

/-! ## Settlement by the graph or by a Stop -/

/-- The statuses a canonical acceptance settles. -/
def acceptableTurn (row : TurnRow) : Bool :=
  row.graphNodeId.isSome && row.harnessConfigurationName.isSome &&
    row.harnessConfigurationDigest.isSome &&
    row.effectiveExecutionDigest.isSome &&
    row.effectivePermissionReceiptJson.isSome &&
    (decide (row.completionStatus ∈
        [CompletionStatus.notStarted, .running, .submitted,
          .waitingForApproval, .interrupted]) ||
      (decide (row.completionStatus = .failed) &&
        pendingLike row.completionError))

/-- A canonical acceptance of the turn, read back from the graph. -/
def reconcileAccepted (turn : TurnId) (output now : String) :
    CatalogDatabase :=
  if ((db.turns.get? turn).any acceptableTurn) = true then
    (db.writeTurn turn fun row => { row with
      completionStatus := .accepted
      completionOutputJson := some output
      completionError := none }).updateRunning
        (fun _ attempt => attempt.turn = turn)
        (ended now .accepted none "graph_write")
  else
    db

def stoppedNote : String := "Stopped. Send a follow-up to continue."

/-- `finish_interaction_stopped` and `finish_restart_stopped`. -/
def finishStopped (statuses : List CompletionStatus) (turn : TurnId)
    (now : String) : CatalogDatabase :=
  if ((db.turns.get? turn).any fun row =>
      decide (row.completionStatus ∈ statuses)) = true then
    (db.writeTurn turn fun row => { row with
      completionStatus := .stopped
      completionError := some stoppedNote }).updateRunning
        (fun _ attempt => attempt.turn = turn)
        (ended now .cancelled (some "cancelled_by_user") "unknown")
  else
    db

/-! ## Execution leases -/

/-- The attempt no longer counts as running: it ended, or nothing waits on
its native run. -/
def leaseOwed (row : TurnAttemptRow) : Bool :=
  row.executionLeaseId.isSome && row.executionLeaseReconciledAt.isNone &&
    (decide (row.outcome ≠ .running) || row.nativeWaitEndedAt.isSome)

/-- `unreconciled_execution_lease_debts`: the attempts with their leases. -/
def unreconciledLeaseDebts : List (AttemptId × Option String) :=
  (db.attempts.entries.filter fun entry => leaseOwed entry.2).map
    fun entry => (entry.1, entry.2.executionLeaseId)

/-- `acknowledge_execution_lease_reconciled`: whether the lease was, with the
store. -/
def acknowledgeLeaseReconciled (attempt : AttemptId) (lease now : String) :
    Bool × CatalogDatabase :=
  let owes (row : TurnAttemptRow) : Bool :=
    leaseOwed row && decide (row.executionLeaseId = some lease)
  ((db.attempts.get? attempt).any owes,
    { db with
      attempts := db.attempts.mapRows fun key row =>
        if key = attempt ∧ owes row = true then
          { row with executionLeaseReconciledAt := some now }
        else
          row })

end CatalogDatabase

end RelayerGraph
