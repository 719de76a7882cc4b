import RelayerGraph.Catalog.Harnesses

/-!
# Interactions and their model identity

The operations that create an interaction or send one again, as far as the
catalog goes: whatever selection they are given or inherit is resolved to a
plan first, and the columns of the model identity receive what the plan says.
-/

namespace RelayerGraph

open Foundation Checked

/-- The model identity of a row, when all its columns are set. -/
def TurnRow.selection (row : TurnRow) :
    CatalogResult (Option InteractionModelSelection) :=
  match row.modelProviderId, row.providerModelId, row.modelFamilyId with
  | none, none, none => pure none
  | some provider, some modelId, some family =>
      if 0 < family then
        pure (some ⟨⟨family.toNat⟩, provider, modelId⟩)
      else
        invalid
  | _, _, _ => invalid
where
  invalid : CatalogResult (Option InteractionModelSelection) :=
    .error (.incompatibleSchema
      "interaction model selection is partially populated or invalid")

/-- The row with the identity of a selection. -/
def TurnRow.withSelection (row : TurnRow)
    (selection : Option InteractionModelSelection) : TurnRow :=
  { row with
    modelProviderId := selection.map fun s => s.providerId
    providerModelId := selection.map fun s => s.modelId
    modelFamilyId := selection.map fun s => (s.familyId.val : ℤ) }

/-- A row as it is inserted. -/
def TurnRow.new (threadId : ThreadId) (sequence : ℕ)
    (inputIdentity : Option String) : TurnRow where
  threadId := threadId
  sequence := sequence
  completionStatus := .notStarted
  completionError := none
  graphNodeId := none
  harnessConfigurationName := none
  harnessConfigurationDigest := none
  effectiveExecutionDigest := none
  effectivePermissionReceiptJson := none
  completionOutputJson := none
  modelProviderId := none
  providerModelId := none
  modelFamilyId := none
  inputIdentity := inputIdentity

variable (library : CatalogLibrary)

namespace CatalogDatabase

variable (db : CatalogDatabase)

/-- `LATEST_HUMAN_TURN_MODEL`: the last turn of the thread no agent
launched. -/
def latestHumanTurn (thread : ThreadId) : Option TurnRow :=
  ((db.turns.entries.filter fun entry =>
      decide (entry.2.threadId = thread) &&
        !(db.invocations.any fun invocation =>
          decide (invocation.resultTurn = entry.1) &&
            invocation.agentInvoked)).map Prod.snd).foldl
    (fun latest row =>
      match latest with
      | none => some row
      | some other =>
          if other.sequence < row.sequence then some row else some other)
    none

/-- The sequence of the next turn of the thread. -/
def nextSequence (thread : ThreadId) : ℕ :=
  (((db.turns.entries.filter fun entry => entry.2.threadId = thread).map
    fun entry => entry.2.sequence).foldl max 0) + 1

/-- A selection resolved to the route of its plan. -/
def resolvedSelection (harness : HarnessId)
    (selection : InteractionModelSelection) :
    CatalogResult InteractionModelSelection := do
  let (_, route) ← db.resolveExecutionModelPlan library harness selection
  pure ⟨route.familyId, route.providerId, route.modelId⟩

/-- `conversation_compatibility::validate_on` may refuse a route; then the
selection is validated once more. -/
def validateRoute (compatible : ValidateModelSelectionCommand → Bool)
    (harness : HarnessId) (selection : InteractionModelSelection) :
    CatalogResult Unit := do
  let command : ValidateModelSelectionCommand :=
    ⟨harness, selection.familyId, selection.providerId, selection.modelId⟩
  require (compatible command = true)
    (.selection "conversation_route_incompatible"
      "This route cannot safely continue the conversation." command)
  db.validateModelSelection library command

/-- The selection a turn is sent with: the given one, or the one the thread's
latest human turn has. -/
def inheritedSelection (thread : ThreadId)
    (given : Option InteractionModelSelection) :
    CatalogResult (Option InteractionModelSelection) :=
  match given, db.latestHumanTurn thread with
  | some selection, _ => pure (some selection)
  | none, some row => row.selection
  | none, none => pure none

/-- The selection a turn is inserted with: resolved, and validated against the
thread's conversation. -/
def admittedSelection (compatible : ValidateModelSelectionCommand → Bool)
    (harness : HarnessId) (requireModelSelection : Bool) :
    Option InteractionModelSelection →
      CatalogResult (Option InteractionModelSelection)
  | some selection => do
      let resolved ← db.resolvedSelection library harness selection
      db.validateRoute library compatible harness resolved
      pure (some resolved)
  | none => do
      require (requireModelSelection = false)
        (.invalid "model_selection_required"
          "The previous interaction has no model selection to inherit.")
      pure none

/-- `insert_interaction` and `insert_interaction_input`: a turn with the given
selection, or with the one the thread's latest human turn has. -/
def insertInteraction (compatible : ValidateModelSelectionCommand → Bool)
    (thread : ThreadId) (given : Option InteractionModelSelection)
    (requireModelSelection : Bool) (inputIdentity : Option String) :
    CatalogResult CatalogDatabase := do
  let threadRow ← orThrow (db.threads.get? thread) .rowNotFound
  let inherited ← db.inheritedSelection thread given
  let selection ← db.admittedSelection library compatible
    threadRow.harnessConfigurationName requireModelSelection inherited
  pure { db with
    turns := db.turns.insert
      ((TurnRow.new thread (db.nextSequence thread)
        inputIdentity).withSelection selection) }

/-- The selection of a first turn, authorized for the thread. -/
def initialSelection (harness : HarnessId)
    (requiredProviderAdapterId : Option String) :
    Option InteractionModelSelection →
      CatalogResult (Option InteractionModelSelection)
  | some selection => do
      let (_, route) ← db.resolveExecutionModelPlan library harness selection
      require (∀ required ∈ requiredProviderAdapterId,
          required = route.adapterId)
        (.invalid "execution_provider_not_authorized"
          "This task requires the Codex subscription; API spending is not authorized.")
      pure (some ⟨route.familyId, route.providerId, route.modelId⟩)
  | none => pure none

/-- `insert_thread_with_initial_interaction`. -/
def insertThread (thread : ThreadId) (harness : HarnessId)
    (requiredProviderAdapterId : Option String)
    (given : Option InteractionModelSelection) :
    CatalogResult CatalogDatabase := do
  require (db.threads.get? thread = none) (.constraint "threads")
  let selection ← db.initialSelection library harness
    requiredProviderAdapterId given
  pure { db with
    threads := db.threads.put thread
      ⟨harness, false, requiredProviderAdapterId⟩
    turns := db.turns.insert
      ((TurnRow.new thread 1 none).withSelection selection) }

/-- The selection the source of an invocation hands on; an accepted source
may have none. -/
def sourceSelection (row : TurnRow) :
    CatalogResult (Option InteractionModelSelection) :=
  let accepted :=
    decide (row.completionStatus = .accepted) && row.graphNodeId.isSome
  let missing : CatalogFailure :=
    .invalid "source_model_selection_missing"
      "The source interaction has no model selection to inherit."
  match row.selection with
  | .ok none => do
      require (accepted = true) missing
      pure none
  | .ok (some selection) => pure (some selection)
  | .error _ => .error missing

/-- The selection an invocation inherits, resolved again. -/
def resolvedSource (harness : HarnessId) :
    Option InteractionModelSelection →
      CatalogResult (Option InteractionModelSelection)
  | some selection => do
      let resolved ← db.resolvedSelection library harness selection
      pure (some resolved)
  | none => pure none

/-- The result turn of `insert_action_invocation`: it inherits the selection
of its source. -/
def insertActionInvocation (source : TurnId)
    (recursive authoritative agentInvoked : Bool) :
    CatalogResult CatalogDatabase := do
  let row ← orThrow (db.turns.get? source) .rowNotFound
  let threadRow ← orThrow (db.threads.get? row.threadId) .rowNotFound
  require (recursive = true → row.graphNodeId.isSome ∧
      row.completionStatus ∈
        [CompletionStatus.running, .submitted, .accepted])
    (.invalid "recursive_source_inactive"
      "Recursive Complete requires an active or accepted graph-bound source completion.")
  let inherited ← sourceSelection row
  let selection ← db.resolvedSource library
    threadRow.harnessConfigurationName inherited
  pure { db with
    turns := db.turns.insert
      ((TurnRow.new row.threadId (db.nextSequence row.threadId)
        none).withSelection selection)
    invocations := db.invocations ++
      [⟨db.turns.nextKey, authoritative, agentInvoked⟩] }

/-- An imported turn records no model identity. -/
def insertImportedTurn (thread : ThreadId) (sequence : ℕ) : CatalogDatabase :=
  { db with turns := db.turns.insert (TurnRow.new thread sequence none) }

/-- A turn of the thread after the given one that is not the result of an
invocation. -/
def laterMessage (turn : TurnId) (row : TurnRow) : Bool :=
  db.turns.entries.any fun later =>
    decide (later.2.threadId = row.threadId) &&
      decide (row.sequence < later.2.sequence) &&
      !(db.invocations.any fun invocation =>
        decide (invocation.resultTurn = later.1)) && decide (later.1 ≠ turn)

/-- The last attempt of a turn. -/
def latestAttempt (turn : TurnId) : Option (AttemptId × TurnAttemptRow) :=
  (db.attempts.entries.filter fun entry => entry.2.turn = turn).getLast?

/-- `claim_interaction_retry`, when it changes the store: a draft returned by
a model failure is sent again, in place. -/
def claimInteractionRetry (compatible : ValidateModelSelectionCommand → Bool)
    (turn : TurnId) (expectedAttempt : AttemptId) (harness : HarnessId)
    (given : InteractionModelSelection) (inputIdentity : String) :
    CatalogResult CatalogDatabase := do
  require (db.submittedInputs turn = none)
    (.invalid "submitted_input_retry_requires_new_send"
      "Send the restored committed inputs again to create a new immutable root and attempt.")
  require (((db.attempts.get? expectedAttempt).any fun attempt =>
      decide (attempt.turn = turn) &&
        decide (attempt.outcome = .modelFailed)) = true)
    (.invalid "interaction_retry_not_recoverable"
      "Only a model failure can be retried in place.")
  let row ← orThrow (db.turns.get? turn) .rowNotFound
  require (row.completionStatus = .notStarted)
    (.invalid "interaction_retry_stale"
      "This draft has already changed. Refresh it before sending again.")
  require ((db.latestAttempt turn).map Prod.fst = some expectedAttempt)
    (.invalid "interaction_retry_stale"
      "This draft has a newer attempt. Refresh it before sending again.")
  let selection ← db.resolvedSelection library harness given
  db.validateRoute library compatible harness selection
  require (db.laterMessage turn row = false)
    (.invalid "interaction_retry_stale"
      "This draft is no longer the latest interaction. Refresh it before sending again.")
  pure { db with
    turns := db.turns.mapRows fun key old =>
      if key = turn then
        { old.withSelection (some selection) with
          completionStatus := .submitted
          completionError := none
          harnessConfigurationName := some harness
          harnessConfigurationDigest := none
          effectiveExecutionDigest := none
          effectivePermissionReceiptJson := none
          completionOutputJson := none
          inputIdentity := some inputIdentity }
      else
        old }

end CatalogDatabase

end RelayerGraph
