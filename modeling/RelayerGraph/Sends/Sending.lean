import RelayerGraph.Catalog.AttemptAccounts
import RelayerGraph.Sends.DiscardEffects

/-!
# Runs with Sends and discards

A Send inserts its interaction and consumes confirmations, or finds the
interaction an earlier delivery of it inserted.  The executions of the
interactions are those of the catalog; an operation that returns a message to
unsent releases what it had consumed, in the same transaction.
-/

namespace RelayerGraph

open Foundation Checked TransitionSystem

/-! ## Sends -/

/-- What a Send asks for. -/
structure SendCommand where
  thread : ThreadId
  inputIdentity : String
  inputDigest : String
  contexts : List (ContextOccurrence × List String)
  confirmationIds : List String
  given : Option InteractionModelSelection
  requireModelSelection : Bool
  reservesInputs : Bool
  now : String

/-- The annotations of the contexts, each with its occurrence. -/
def SendCommand.annotations (command : SendCommand) :
    List (ContextOccurrence × String) :=
  command.contexts.flatMap fun context =>
    context.2.map fun annotation => (context.1, annotation)

/-- The rows of the contexts of a turn. -/
def SendCommand.intents (command : SendCommand) (turn : TurnId) :
    List ReferenceRow :=
  command.contexts.flatMap fun context =>
    ⟨.contextIntents, turn, ""⟩ ::
      context.2.map fun annotation => ⟨.contextAnnotations, turn, annotation⟩

/-- The ids are given once each, and none is blank. -/
def validConfirmationIds (ids : List String) : Bool :=
  decide ids.Nodup && ids.all fun id => decide (trimmed id ≠ "")

def sortedIds (ids : List String) : List String :=
  ids.insertionSort (· ≤ ·)

/-- A catalog operation within a Send. -/
def ofCatalog {α : Type} : CatalogResult α → SendResult α
  | .ok value => .ok value
  | .error failure => .error (.catalog failure)

namespace SendDatabase

variable (library : CatalogLibrary) (db : SendDatabase)

/-- The interaction of the thread with the identity of the input. -/
def existingSend (thread : ThreadId) (identity : String) : Option TurnId :=
  (db.catalog.turns.select fun _ row =>
    decide (row.threadId = thread) &&
      decide (row.inputIdentity = some identity)).head?

/-- `insert_interaction_input` of an input that is known already. -/
def replaySend (turn : TurnId) (command : SendCommand) :
    SendResult SendDatabase := do
  require ((db.sends turn).bind SendRow.inputDigest = some command.inputDigest)
    (.incompatibleSchema
      "interaction input identity was reused with different content")
  let row ← orThrow (db.catalog.turns.get? turn) .rowNotFound
  let selection ← ofCatalog row.selection
  require (∀ given ∈ command.given,
      selection.map InteractionModelSelection.familyId = some given.familyId)
    (.incompatibleSchema
      "interaction input identity was reused with a different model selection")
  require (validConfirmationIds command.confirmationIds = true)
    (.incompatibleSchema
      "context confirmation IDs must be non-empty and unique")
  let consumed := sortedIds (db.resolutions.consumedIds turn)
  if consumed = sortedIds command.confirmationIds then
    pure db
  else do
    require (row.completionStatus = .notStarted ∧
        ∀ id ∈ consumed, id ∈ command.confirmationIds)
      (.incompatibleSchema
        "interaction input identity was reused with different context confirmations")
    let resolutions ← db.resolutions.claim turn command.thread
      command.annotations (sortedIds command.confirmationIds)
    pure { db with resolutions := resolutions }

/-- `insert_interaction_input` of a new input. -/
def firstSend (compatible : ValidateModelSelectionCommand → Bool)
    (command : SendCommand) : SendResult SendDatabase := do
  require ((db.catalog.threads.get? command.thread).any
      (fun thread => !thread.imported) = true)
    (.incompatibleSchema "thread is missing or immutable")
  let turn := db.catalog.turns.nextKey
  let catalog ← ofCatalog (db.catalog.insertInteraction library compatible
    command.thread command.given command.requireModelSelection
    (some command.inputIdentity))
  require (validConfirmationIds command.confirmationIds = true)
    (.incompatibleSchema
      "context confirmation IDs must be non-empty and unique")
  let resolutions ← db.resolutions.claim turn command.thread
    command.annotations (sortedIds command.confirmationIds)
  let reserved : CatalogDatabase := { catalog with
    submittedInputs :=
      if command.reservesInputs then
        Function.update catalog.submittedInputs turn (some .reserved)
      else
        catalog.submittedInputs }
  pure { db with
    catalog := reserved.failStaleReturnedMessagesBeside turn
    sends := Function.update db.sends turn
      (some ⟨command.now, some command.inputDigest⟩)
    threadTimes := db.threadTimes.mapRows fun key times =>
      if key = command.thread then { times with updatedAt := command.now }
      else times
    resolutions := resolutions
    references := db.references ++ command.intents turn }

/-- `insert_interaction_input`. -/
def insertInteractionInput
    (compatible : ValidateModelSelectionCommand → Bool)
    (command : SendCommand) : SendResult SendDatabase :=
  match db.existingSend command.thread command.inputIdentity with
  | some turn => db.replaySend turn command
  | none => db.firstSend library compatible command

/-! ## Drafts and starts -/

/-- The statuses of a turn that may still use what it consumed. -/
def holdsConfirmations (row : TurnRow) : Bool :=
  decide (row.completionStatus ∈ [CompletionStatus.notStarted, .queued,
    .paused, .interrupted, .submitted, .running, .waitingForApproval]) ||
    (decide (row.completionStatus = .failed) && row.graphNodeId.isNone)

/-- Another occurrence of the node is attached, or held by a turn. -/
def targetAlreadyConfirmed (draftId : String) (row : ContextResolution) :
    Bool :=
  db.resolutions.rows.any fun other =>
    decide (other.2.threadId = row.threadId) &&
      decide (other.2.occurrence.targetNodeId = row.occurrence.targetNodeId) &&
      other.2.attached && decide (other.1 ≠ draftId) &&
      decide (other.2.occurrence ≠ row.occurrence) &&
      (other.2.consumedInteraction.isNone ||
        other.2.consumedInteraction.any fun turn =>
          (db.catalog.turns.get? turn).any holdsConfirmations)

/-- The row `confirm_node_context_draft` or `discard_node_context_draft`
inserts for a draft. -/
def resolveDraft (draftId : String) (row : ContextResolution) :
    SendResult SendDatabase := do
  require (db.resolutions.get? draftId = none)
    (.constraint "node_context_draft_resolutions")
  require (row.consumedInteraction = none ∧ row.dismissedAt = none)
    (.constraint "node_context_draft_resolutions")
  require (row.outcome = .confirmed → db.targetAlreadyConfirmed draftId row = false)
    (.contextDraftConflict "context_target_already_confirmed"
      "This node is already attached from another occurrence.")
  pure { db with resolutions := db.resolutions.put draftId row }

/-- `claim_interaction_preparing`. -/
def claimInteractionPreparing (turn : TurnId) : SendDatabase :=
  if ((db.catalog.turns.get? turn).any fun row =>
      decide (row.completionStatus = .notStarted) &&
        row.graphNodeId.isNone) = true then
    { db with
      catalog := db.catalog.writeTurn turn fun row => { row with
        completionStatus := .submitted
        completionError := none } }
  else
    db

/-- `bind_prepared_interaction` of a claimed turn, and the claim to run it. -/
def bindAndRun (turn : TurnId) (node : ℤ) (harness : HarnessId) :
    SendDatabase :=
  if ((db.catalog.turns.get? turn).any fun row =>
      decide (row.completionStatus = .submitted) &&
        row.graphNodeId.isNone) = true then
    { db with
      catalog := db.catalog.writeTurn turn fun row => { row with
        graphNodeId := some node
        harnessConfigurationName := some harness
        completionStatus := .running } }
  else
    db

/-- `return_interaction_to_unsent`. -/
def returnInteractionToUnsent (turn : TurnId) (harness : HarnessId) :
    SendResult SendDatabase := do
  require (((db.catalog.turns.get? turn).any fun row =>
      decide (row.completionStatus = .running)) = true)
    (.incompatibleSchema
      "interaction was not running while returning its draft to unsent")
  require (db.resolutions.restoreSafe turn = true) restoreConflict
  let catalog := db.catalog.writeTurn turn fun row =>
    { CatalogDatabase.unsent harness row with graphNodeId := row.graphNodeId }
  pure { db with
    catalog := catalog.failStaleReturnedMessagesBeside turn
    resolutions := db.resolutions.release turn }

end SendDatabase

/-! ## The system -/

/-- The turn whose confirmations an operation releases, with the answer it was
given to the check of that. -/
def restoredTurn : CatalogLabel → Option (TurnId × Bool)
  | .turn (.recordPreExecutionFailure failure safe _) =>
      some (failure.turn, safe)
  | .turn (.recordAdmissionFailure receipt _ _ safe _) =>
      some (receipt.turn, safe)
  | .turn (.failCompletion failure safe _) =>
      if failure.returnToUnsent then some (failure.turn, safe) else none
  | _ => none

/-- The confirmations after an operation of the catalog. -/
def ContextResolutions.restored (rows : ContextResolutions)
    (label : CatalogLabel) : ContextResolutions :=
  match restoredTurn label with
  | some (turn, _) => rows.release turn
  | none => rows

inductive SendLabel
  | send (compatible : ValidateModelSelectionCommand → Bool)
      (command : SendCommand)
  | claimForRetry (turn : TurnId) (thread : ThreadId)
      (annotations : List (ContextOccurrence × String))
      (draftIds : List String)
  | resolveDraft (draftId : String) (row : ContextResolution)
  | editConfirmation (draftId : String) (thread : ThreadId)
      (expectedRevision : ℕ) ( annotation : String)
  | dismissConfirmation (draftId : String) (thread : ThreadId)
      (expectedRevision : ℕ) (now : String)
  | claimPreparing (turn : TurnId)
  | bindAndRun (turn : TurnId) (node : ℤ) (harness : HarnessId)
  | returnToUnsent (turn : TurnId) (harness : HarnessId)
  | catalog (label : CatalogLabel)
  | discard (turn : TurnId)
  | other

variable (library : CatalogLibrary)

inductive SendStep : SendDatabase → SendLabel → SendDatabase → Prop
  | send {db db' : SendDatabase}
      {compatible : ValidateModelSelectionCommand → Bool}
      {command : SendCommand} :
      db.insertInteractionInput library compatible command = .ok db' →
      SendStep db (.send compatible command) db'
  | claimForRetry {db : SendDatabase} {turn : TurnId} {thread : ThreadId}
      {annotations : List (ContextOccurrence × String)}
      {draftIds : List String} {resolutions : ContextResolutions} :
      db.resolutions.claim turn thread annotations draftIds = .ok resolutions →
      SendStep db (.claimForRetry turn thread annotations draftIds)
        { db with resolutions := resolutions }
  | resolveDraft {db db' : SendDatabase} {draftId : String}
      {row : ContextResolution} :
      db.resolveDraft draftId row = .ok db' →
      SendStep db (.resolveDraft draftId row) db'
  | editConfirmation {db : SendDatabase} {draftId : String}
      {thread : ThreadId} {expectedRevision : ℕ} { annotation : String} :
      SendStep db
        (.editConfirmation draftId thread expectedRevision annotation)
        { db with
          resolutions := db.resolutions.changePending draftId thread
            expectedRevision fun row => row.edited annotation }
  | dismissConfirmation {db : SendDatabase} {draftId : String}
      {thread : ThreadId} {expectedRevision : ℕ} {now : String} :
      SendStep db (.dismissConfirmation draftId thread expectedRevision now)
        { db with
          resolutions := db.resolutions.changePending draftId thread
            expectedRevision fun row => row.dismissed now }
  | claimPreparing {db : SendDatabase} {turn : TurnId} :
      SendStep db (.claimPreparing turn) (db.claimInteractionPreparing turn)
  | bindAndRun {db : SendDatabase} {turn : TurnId} {node : ℤ}
      {harness : HarnessId} :
      SendStep db (.bindAndRun turn node harness)
        (db.bindAndRun turn node harness)
  | returnToUnsent {db db' : SendDatabase} {turn : TurnId}
      {harness : HarnessId} :
      db.returnInteractionToUnsent turn harness = .ok db' →
      SendStep db (.returnToUnsent turn harness) db'
  | catalog {db : SendDatabase} {label : CatalogLabel}
      {stored : CatalogDatabase} :
      CatalogStep library db.catalog label stored →
      (∀ turn safe, restoredTurn label = some (turn, safe) →
        safe = db.resolutions.restoreSafe turn) →
      SendStep db (.catalog label)
        { db with
          catalog := stored
          resolutions := db.resolutions.restored label }
  | discard {db : SendDatabase} {turn : TurnId} :
      SendStep db (.discard turn)
        (db.afterCall (db.discardUnboundInteractionInput turn))
  | other {db db' : SendDatabase} :
      db'.catalog = db.catalog → db'.resolutions = db.resolutions →
      SendStep db .other db'

/-- Runs from a store in which nothing was sent or attempted. -/
def sendSystem : TransitionSystem SendDatabase SendLabel where
  init := fun db => db.catalog.turns = Table.empty ∧
    db.catalog.attempts = Table.empty ∧ db.resolutions = Keyed.empty
  step := SendStep library

end RelayerGraph
