import RelayerGraph.Catalog.TurnEffects
import RelayerGraph.Foundation.TransitionSystem

/-!
# Runs of the catalog

Every operation runs in one transaction, and one that fails is rolled back and
leaves no trace in the run.  The rest of the application works on the same
interactions and threads, and leaves the catalog and every attempt alone.
-/

namespace RelayerGraph

open Foundation Checked

/-! ## The operations -/

/-- What Settings, the providers and the runtime ask of the catalog. -/
inductive CatalogOperation
  | initializeCatalog (defaultHarness : HarnessId)
      (runtimeHarnesses : List RuntimeProductHarness)
  | updateRules (command : UpdateHarnessModelRulesCommand)
  | publishReadiness (accepted : HarnessId → Option ℕ)
      (updates : List HarnessRuntimeAvailabilityUpdate)
  | createProvider (definition : ProviderDefinition)
      (snapshot : ProviderCatalogSnapshot)
      (policy : Option FamilyPolicyReference) (now : String)
  | publishCatalog (snapshot : ProviderCatalogSnapshot)
      (stamp : ProviderConnectionStamp)
      (policy : Option FamilyPolicyReference) (now : String)
  | syncProviders (definitions : List ProviderDefinition) (now : String)
  | createFamily (command : CreateModelFamilyCommand)
  | updateFamily (command : UpdateModelFamilyCommand)
  | deleteFamily (id : ModelFamilyId) (now : String)
  | reorderFamilies (familyIds : List ModelFamilyId)
  | updateDefaults (command : UpdateModelSettingsDefaultsCommand)
      (appDefault : HarnessId) (permitted : List HarnessId)
  | completeOnboarding
      (revision : CatalogDatabase.OnboardingProjection → String)
      (command : CompleteProviderOnboardingCommand)
      (permitted : List HarnessId) (now : String)

/-- What the execution of interactions asks of it. -/
inductive TurnOperation
  | insertInteraction (compatible : ValidateModelSelectionCommand → Bool)
      (thread : ThreadId) (given : Option InteractionModelSelection)
      (requireModelSelection : Bool) (inputIdentity : Option String)
  | insertThread (thread : ThreadId) (harness : HarnessId)
      (requiredProviderAdapterId : Option String)
      (given : Option InteractionModelSelection)
  | insertInvocation (source : TurnId)
      (recursive authoritative agentInvoked : Bool)
  | insertImported (thread : ThreadId) (sequence : ℕ)
  | claimRetry (compatible : ValidateModelSelectionCommand → Bool)
      (turn : TurnId) (expectedAttempt : AttemptId) (harness : HarnessId)
      (given : InteractionModelSelection) (inputIdentity : String)
  | beginAttempt (compatible : ValidateModelSelectionCommand → Bool)
      (receipt : CatalogDatabase.BeginTurnAttempt) (now : String)
  | recordPreExecutionFailure (failure : CatalogDatabase.PreExecutionFailure)
      (restoreSafe : Bool) (now : String)
  | recordAdmissionFailure (receipt : CatalogDatabase.BeginTurnAttempt)
      (failureCategory : String) (leaseReconciled restoreSafe : Bool)
      (now : String)
  | acceptCompletion (attempt : AttemptId)
      (completion : CatalogDatabase.AcceptedCompletion) (now : String)
  | failCompletion (failure : CatalogDatabase.FailedCompletion)
      (restoreSafe : Bool) (now : String)
  | endNativeWait (attempt : AttemptId) (now : String)
  | endExecution (turn : TurnId) (now : String)
  | recoverInterrupted (error : String) (preserveIdentified : Bool)
      (now : String)
  | failInterruptedInput (turn : TurnId) (harness : HarnessId)
      (error now : String)
  | quarantineInput (turn : TurnId) (harness : HarnessId) (error : String)
  | finalizeInput (turn : TurnId) (error now : String)
  | reconcileAccepted (turn : TurnId) (output now : String)
  | finishStopped (statuses : List CompletionStatus) (turn : TurnId)
      (now : String)
  | acknowledgeLease (attempt : AttemptId) (lease now : String)

variable (library : CatalogLibrary)

namespace CatalogDatabase

variable (db : CatalogDatabase)

/-- One operation of the catalog, with the checks its callers make. -/
def runCatalog : CatalogOperation → CatalogResult CatalogDatabase
  | .initializeCatalog defaultHarness runtimeHarnesses => do
      forM runtimeHarnesses RuntimeProductHarness.validateCompatibility
      db.initializeModelCatalog library defaultHarness runtimeHarnesses
  | .updateRules command => do
      validateHarnessModelRules library command.rules
      db.updateHarnessModelRules library command
  | .publishReadiness accepted updates => do
      let (db, _) ← db.updateHarnessRuntimeAvailability library accepted updates
      pure db
  | .createProvider definition snapshot policy now => do
      admitsProvider definition snapshot
      db.createProviderWithCatalog library definition snapshot policy now
  | .publishCatalog snapshot stamp policy now =>
      db.publishProviderCatalog library snapshot stamp policy now
  | .syncProviders definitions now =>
      db.syncProviderDefinitions library definitions now
  | .createFamily command => do
      let _ ← validateFamily library command.name command.members
      db.createModelFamily command
  | .updateFamily command => do
      db.admitsUpdate library command
      db.updateModelFamily command
  | .deleteFamily id now => do
      let (_, db) ← db.deleteModelFamily id now
      pure db
  | .reorderFamilies familyIds => db.reorderModelFamilies familyIds
  | .updateDefaults command appDefault permitted =>
      db.updateModelSettingsDefaults library command appDefault permitted
  | .completeOnboarding revision command permitted now =>
      db.completeProviderOnboarding library revision command permitted now

/-- One operation of an interaction. -/
def runTurn : TurnOperation → CatalogResult CatalogDatabase
  | .insertInteraction compatible thread given requireSelection identity =>
      db.insertInteraction library compatible thread given requireSelection
        identity
  | .insertThread thread harness required given =>
      db.insertThread library thread harness required given
  | .insertInvocation source recursive authoritative agentInvoked =>
      db.insertActionInvocation library source recursive authoritative
        agentInvoked
  | .insertImported thread sequence => pure (db.insertImportedTurn thread sequence)
  | .claimRetry compatible turn expectedAttempt harness given identity =>
      db.claimInteractionRetry library compatible turn expectedAttempt harness
        given identity
  | .beginAttempt compatible receipt now =>
      db.beginInteractionAttempt library compatible receipt now
  | .recordPreExecutionFailure failure restoreSafe now =>
      db.recordPreExecutionModelFailure failure restoreSafe now
  | .recordAdmissionFailure receipt category leaseReconciled restoreSafe now =>
      db.recordModelAttemptAdmissionFailure receipt category leaseReconciled
        restoreSafe now
  | .acceptCompletion attempt completion now =>
      db.acceptCompletionWithAttempt attempt completion now
  | .failCompletion failure restoreSafe now =>
      db.failCompletionWithAttempt failure restoreSafe now
  | .endNativeWait attempt now => pure (db.endAttemptNativeWait attempt now)
  | .endExecution turn now => db.endCompletionExecutionAttempt turn now
  | .recoverInterrupted error preserveIdentified now =>
      pure (db.recoverInterruptedInteractions error preserveIdentified now)
  | .failInterruptedInput turn harness error now =>
      pure (db.failInterruptedSubmittedInput turn harness error now)
  | .quarantineInput turn harness error =>
      pure (db.quarantineInterruptedSubmittedInput turn harness error)
  | .finalizeInput turn error now =>
      pure (db.finalizeQuarantinedSubmittedInputFailure turn error now)
  | .reconcileAccepted turn output now =>
      pure (db.reconcileAccepted turn output now)
  | .finishStopped statuses turn now =>
      pure (db.finishStopped statuses turn now)
  | .acknowledgeLease attempt lease now =>
      pure (db.acknowledgeLeaseReconciled attempt lease now).2

variable {library db} {db' : CatalogDatabase}

/-- An operation of an interaction leaves the catalog alone. -/
theorem sameCatalog_runTurn {operation : TurnOperation}
    (hrun : db.runTurn library operation = .ok db') : SameCatalog db db' := by
  have hattempts : ∀ attempts, SameCatalog db { db with attempts := attempts } :=
    fun _ => ⟨rfl, rfl, rfl, rfl, rfl, rfl, rfl, rfl, rfl⟩
  cases operation with
  | insertInteraction => exact (insertInteraction_ok hrun).catalog
  | insertThread => exact (insertThread_ok hrun).catalog
  | insertInvocation => exact (insertActionInvocation_ok hrun).catalog
  | insertImported thread sequence =>
      obtain rfl := pure_eq_ok_iff.mp hrun
      exact (insertImportedTurn_ok thread sequence).catalog
  | claimRetry => exact (claimInteractionRetry_ok hrun).1
  | beginAttempt => exact (beginInteractionAttempt_ok hrun).catalog
  | recordPreExecutionFailure =>
      obtain ⟨row, -, -, -, heffect⟩ := recordPreExecutionModelFailure_ok hrun
      exact (hattempts _).trans heffect.catalog
  | recordAdmissionFailure =>
      obtain ⟨row, -, heffect⟩ := recordModelAttemptAdmissionFailure_ok hrun
      exact (hattempts _).trans heffect.catalog
  | acceptCompletion => exact (effect_acceptCompletion hrun).catalog
  | failCompletion => exact (effect_failCompletion hrun).catalog
  | endNativeWait attempt now =>
      obtain rfl := pure_eq_ok_iff.mp hrun
      exact (effect_endNativeWait attempt now).catalog
  | endExecution => exact (effect_endExecution hrun).catalog
  | recoverInterrupted error preserveIdentified now =>
      obtain rfl := pure_eq_ok_iff.mp hrun
      exact (effect_recoverInterrupted error preserveIdentified now).catalog
  | failInterruptedInput turn harness error now =>
      obtain rfl := pure_eq_ok_iff.mp hrun
      exact (effect_failInterruptedInput turn harness error now).catalog
  | quarantineInput turn harness error =>
      obtain rfl := pure_eq_ok_iff.mp hrun
      exact (effect_quarantineInput turn harness error).catalog
  | finalizeInput turn error now =>
      obtain rfl := pure_eq_ok_iff.mp hrun
      exact (effect_finalizeInput turn error now).catalog
  | reconcileAccepted turn output now =>
      obtain rfl := pure_eq_ok_iff.mp hrun
      exact (effect_reconcileAccepted turn output now).catalog
  | finishStopped statuses turn now =>
      obtain rfl := pure_eq_ok_iff.mp hrun
      exact (effect_finishStopped statuses turn now).catalog
  | acknowledgeLease attempt lease now =>
      obtain rfl := pure_eq_ok_iff.mp hrun
      rw [acknowledgeLeaseReconciled_ok]
      exact hattempts _

/-! ## Runs -/

/-- What the rest of the application does between two operations: it changes
interactions and threads, but no model identity, no attempt and no table of
the catalog. -/
structure Beside (db db' : CatalogDatabase) : Prop where
  catalog : SameCatalog db db'
  attempts : db'.attempts = db.attempts
  identity : ∀ id row', db'.turns.get? id = some row' →
    row'.identity = (none, none, none) ∨
      ∃ row, db.turns.get? id = some row ∧ row'.identity = row.identity

end CatalogDatabase

inductive CatalogLabel
  | catalog (operation : CatalogOperation)
  | turn (operation : TurnOperation)
  | beside

inductive CatalogStep :
    CatalogDatabase → CatalogLabel → CatalogDatabase → Prop
  | catalog {db db' : CatalogDatabase} {operation : CatalogOperation} :
      db.runCatalog library operation = .ok db' →
      CatalogStep db (.catalog operation) db'
  | turn {db db' : CatalogDatabase} {operation : TurnOperation} :
      db.runTurn library operation = .ok db' →
      CatalogStep db (.turn operation) db'
  | beside {db db' : CatalogDatabase} :
      db.Beside db' → CatalogStep db .beside db'

/-- The store the migrations create. -/
def CatalogDatabase.fresh : CatalogDatabase where
  providers := Keyed.empty.put "codex"
    { label := "Codex"
      connected := false
      unavailableReason :=
        some ⟨"provider_disconnected", "Codex is not connected."⟩
      refreshedAt := "0"
      adapterId := "codex-subscription"
      accessContract := "managed-runtime@1"
      endpoint := none
      credentialReference := none
      lifecycleState := .active
      removedAt := none
      connectionGeneration := 1 }
  models := Keyed.empty
  families := Table.empty
  members := fun _ => []
  harnesses := Keyed.empty.put "codex-basic"
    { label := "Codex Basic"
      productVisible := true
      available := false
      unavailableReason := some harnessUnavailable
      configurationRevision := 1
      configurationDigest := "sha256:legacy"
      modelRulesPresent := false
      modelRulesModified := false
      executionAccessContracts := []
      familyPolicy := none
      runtimeConfigurationRevision := 1
      runtimeConfigurationDigest := ""
      readinessUpdateDue := false
      runtimeRecipe := "" }
  providerCompatibility := [⟨"codex-basic", "codex", true, none⟩]
  modelCompatibility := []
  modelRules := []
  preferences :=
    { defaultHarness := "codex-basic"
      defaultProvider := "codex"
      defaultFamily := none
      defaultsModified := false }
  threads := Keyed.empty
  turns := Table.empty
  invocations := []
  submittedInputs := fun _ => none
  executionPhases := fun _ => none
  stopRequests := fun _ => false
  attempts := Table.empty

/-- The catalog over the operations of one run, from the stores a condition
admits. -/
def catalogSystem (init : CatalogDatabase → Prop) :
    TransitionSystem CatalogDatabase CatalogLabel where
  init := init
  step := CatalogStep library

/-! ## Computed runs -/

/-- The store after an operation that succeeds. -/
def nextCatalog (db : CatalogDatabase) : CatalogLabel → Option CatalogDatabase
  | .catalog operation => (db.runCatalog library operation).toOption
  | .turn operation => (db.runTurn library operation).toOption
  | .beside => none

theorem toOption_eq_some {α : Type} {result : CatalogResult α} {value : α}
    (h : result.toOption = some value) : result = .ok value := by
  cases result with
  | error failure => cases h
  | ok stored =>
      obtain rfl := Option.some.inj h
      rfl

theorem step_of_nextCatalog {db db' : CatalogDatabase} {label : CatalogLabel}
    (h : nextCatalog library db label = some db') :
    CatalogStep library db label db' := by
  cases label with
  | catalog operation => exact .catalog (toOption_eq_some h)
  | turn operation => exact .turn (toOption_eq_some h)
  | beside => cases h

/-- A library for computed runs: its patterns match only themselves. -/
def plainLibrary : CatalogLibrary where
  regexIsMatch pattern text := some (decide (pattern = text))
  toLowercase := String.toLower
  overlayDigest digest _ revision := digest ++ "#" ++ toString revision
  admittedPlanDigest plan := some ("plan:" ++ toString plan.familyRevision)

end RelayerGraph
