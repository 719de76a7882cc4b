import RelayerGraph.Product.Store
import RelayerGraph.Foundation.Keyed
import RelayerGraph.Foundation.Table

/-!
# Catalog records

The values the model catalog is about: what a provider reports, what the
runtime reports of its harnesses, the commands of Settings, and the rows the
catalog keeps of them.
-/

namespace RelayerGraph

open Foundation

abbrev ProviderId := String
abbrev ModelId := String
abbrev HarnessId := String

/-- The tables whose keys the store hands out. -/
inductive CatalogTable
  | modelFamily
  | interaction
  | attempt
deriving DecidableEq

abbrev ModelFamilyId := Key CatalogTable.modelFamily
abbrev TurnId := Key CatalogTable.interaction
abbrev AttemptId := Key CatalogTable.attempt

structure UnavailableReason where
  code : String
  message : String
deriving DecidableEq, Repr

/-! ## Providers and what they report -/

/-- `model_providers.lifecycle_state`. -/
inductive ProviderLifecycle
  | active
  | removalPending
  | tombstoned
deriving DecidableEq, Repr

/-- The columns of `model_providers`. -/
structure ProviderRow where
  label : String
  connected : Bool
  unavailableReason : Option UnavailableReason
  refreshedAt : String
  adapterId : String
  accessContract : String
  endpoint : Option String
  credentialReference : Option String
  lifecycleState : ProviderLifecycle
  removedAt : Option String
  connectionGeneration : ℤ
deriving DecidableEq

/-- The columns of `provider_models`. -/
structure ProviderModelRow where
  label : String
  order : ℕ
  visible : Bool
  available : Bool
  unavailableReason : Option UnavailableReason
  providerDefault : Bool
  replacementModelId : Option ModelId
  metadata : String
deriving DecidableEq

structure CatalogModelSnapshot extends ProviderModelRow where
  id : ModelId
deriving DecidableEq

structure SystemFamilySnapshot where
  key : String
  name : String
  modelIds : List ModelId
deriving DecidableEq

structure ProviderCatalogSnapshot where
  providerId : ProviderId
  label : String
  connected : Bool
  unavailableReason : Option UnavailableReason
  models : List CatalogModelSnapshot
  systemFamily : Option SystemFamilySnapshot
deriving DecidableEq

structure FamilyPolicyReference where
  id : String
  version : ℕ
deriving DecidableEq, Repr

structure ProviderDefinition where
  id : ProviderId
  adapterId : String
  label : String
  endpoint : Option String
  accessContract : String
  credentialReference : Option String
  lifecycleState : ProviderLifecycle
  removedAt : Option String
deriving DecidableEq

/-- The lifecycle event a catalog publish commits, if any. -/
inductive ProviderConnectionEvent
  | reconnected
  | signedOut
deriving DecidableEq, Repr

/-- The connection generation a catalog result started with. -/
structure ProviderConnectionStamp where
  generation : ℤ
  event : Option ProviderConnectionEvent
deriving DecidableEq

/-! ## Model families -/

inductive ModelFamilyKind
  | system
  | custom
deriving DecidableEq, Repr

inductive FamilyLifecycle
  | active
  | tombstoned
deriving DecidableEq, Repr

/-- `model_families.tombstone_cause`, when there is one. -/
inductive TombstoneCause
  | noEligibleModels
deriving DecidableEq, Repr

/-- The columns of `model_families`. -/
structure FamilyRow where
  name : String
  kind : ModelFamilyKind
  systemKey : Option String
  enabled : Bool
  position : ℕ
  revision : ℕ
  managedProviderId : Option ProviderId
  policy : Option FamilyPolicyReference
  lifecycleState : FamilyLifecycle
  removedAt : Option String
  tombstoneCause : Option TombstoneCause
deriving DecidableEq

structure ModelFamilyRole where
  name : String
  description : Option String
deriving DecidableEq

def ModelFamilyRole.orchestrator : ModelFamilyRole :=
  ⟨"orchestrator", none⟩

structure ModelFamilyMember where
  roles : List ModelFamilyRole
  providerId : ProviderId
  modelId : ModelId
  position : ℕ
deriving DecidableEq

/-- A member with the orchestrator role. -/
def ModelFamilyMember.orchestrates (member : ModelFamilyMember) : Bool :=
  member.roles.any fun role => role.name = "orchestrator"

def maxModelsPerFamily : ℕ := 5

/-! ## Harnesses -/

structure HarnessModelRule where
  adapterId : String
  modelIdExact : Option String
  modelIdRegex : Option String
deriving DecidableEq

structure HarnessModelRules where
  allow : List HarnessModelRule
  deny : List HarnessModelRule
deriving DecidableEq

structure HarnessModelCompatibility where
  providerId : ProviderId
  modelIds : Option (List ModelId)
  preferredModelId : Option ModelId
deriving DecidableEq

/-- What the runtime reports of one harness at a start. -/
structure RuntimeProductHarness where
  id : HarnessId
  configurationDigest : String
  modelCompatibility : List HarnessModelCompatibility
  configurationRevision : ℕ
  modelRules : Option HarnessModelRules
  executionAccessContracts : List String
  familyPolicy : Option FamilyPolicyReference
  restorePriorReadiness : Bool
  runtimeRecipe : Option String
  runtimeUpdated : Bool
  runtimeAvailable : Bool
  unavailableReason : Option UnavailableReason
deriving DecidableEq

/-- The columns of `product_harnesses`. -/
structure HarnessRow where
  label : String
  productVisible : Bool
  available : Bool
  unavailableReason : Option UnavailableReason
  configurationRevision : ℕ
  configurationDigest : String
  modelRulesPresent : Bool
  modelRulesModified : Bool
  executionAccessContracts : List String
  familyPolicy : Option FamilyPolicyReference
  runtimeConfigurationRevision : ℕ
  runtimeConfigurationDigest : String
  readinessUpdateDue : Bool
  runtimeRecipe : String
deriving DecidableEq

/-- The columns of `harness_provider_compatibility`. -/
structure ProviderCompatibilityRow where
  harness : HarnessId
  provider : ProviderId
  allModels : Bool
  preferredModelId : Option ModelId
deriving DecidableEq

/-- The columns of `harness_model_compatibility`. -/
structure ModelCompatibilityRow where
  harness : HarnessId
  provider : ProviderId
  modelId : ModelId
deriving DecidableEq

inductive RuleEffect
  | allow
  | deny
deriving DecidableEq, Repr

/-- How a stored rule matches a model: by its id or by a pattern. -/
inductive RuleMatcher
  | exact (modelId : String)
  | regex (pattern : String)
deriving DecidableEq

/-- The columns of `harness_model_rules`. -/
structure ModelRuleRow where
  harness : HarnessId
  effect : RuleEffect
  position : ℕ
  adapterId : String
  matcher : RuleMatcher
deriving DecidableEq

structure HarnessReadinessProviderConnection where
  providerId : ProviderId
  generation : ℤ
  modelIds : List ModelId
deriving DecidableEq

/-- One element of a readiness batch. -/
structure HarnessRuntimeAvailabilityUpdate where
  harnessId : HarnessId
  configurationDigest : String
  generation : ℕ
  providerConnections : Option (List HarnessReadinessProviderConnection)
  available : Bool
  unavailableReason : Option UnavailableReason
deriving DecidableEq

/-! ## Selections and commands -/

structure InteractionModelSelection where
  familyId : ModelFamilyId
  providerId : ProviderId
  modelId : ModelId
deriving DecidableEq

structure ExecutionModelSelection where
  familyId : ModelFamilyId
  providerId : ProviderId
  adapterId : String
  accessContract : String
  modelId : ModelId
deriving DecidableEq

structure ExecutionModelRoute where
  roles : Option (List ModelFamilyRole)
  providerId : ProviderId
  adapterId : String
  accessContract : String
  modelId : ModelId
deriving DecidableEq

structure ExecutionModelPlan where
  schemaVersion : ℕ
  familyId : ModelFamilyId
  familyRevision : ℕ
  orchestrator : ExecutionModelRoute
  roster : List ExecutionModelRoute
deriving DecidableEq

structure ValidateModelSelectionCommand where
  harnessId : HarnessId
  familyId : ModelFamilyId
  providerId : ProviderId
  modelId : ModelId
deriving DecidableEq

structure CreateModelFamilyCommand where
  name : String
  enabled : Bool
  members : List ModelFamilyMember
deriving DecidableEq

structure UpdateModelFamilyCommand where
  id : ModelFamilyId
  name : Option String
  enabled : Bool
  members : Option (List ModelFamilyMember)
deriving DecidableEq

structure UpdateModelSettingsDefaultsCommand where
  harnessId : Option HarnessId
  providerId : Option ProviderId
  familyId : Option ModelFamilyId
deriving DecidableEq

structure UpdateHarnessModelRulesCommand where
  harnessId : HarnessId
  expectedRevision : ℕ
  rules : HarnessModelRules
deriving DecidableEq

inductive ProviderOnboardingFamilyIntent
  | existing (familyId : ModelFamilyId)
  | managed (policy : FamilyPolicyReference)
  | create (name : String) (members : List ModelFamilyMember)
deriving DecidableEq

structure CompleteProviderOnboardingCommand where
  providerId : ProviderId
  harnessId : HarnessId
  expectedProjectionRevision : String
  family : ProviderOnboardingFamilyIntent
deriving DecidableEq

/-- The row of `product_model_preferences`. -/
structure ModelPreferences where
  defaultHarness : HarnessId
  defaultProvider : ProviderId
  defaultFamily : Option ModelFamilyId
  defaultsModified : Bool
deriving DecidableEq

/-! ## Threads, interactions and attempts -/

/-- The columns of `threads` that an execution is admitted under. -/
structure CatalogThreadRow where
  harnessConfigurationName : HarnessId
  imported : Bool
  requiredProviderAdapterId : Option String
deriving DecidableEq

/-- The columns of `interactions`; the model identity has three of its own. -/
structure TurnRow where
  threadId : ThreadId
  sequence : ℕ
  completionStatus : CompletionStatus
  completionError : Option String
  graphNodeId : Option ℤ
  harnessConfigurationName : Option HarnessId
  harnessConfigurationDigest : Option String
  effectiveExecutionDigest : Option String
  effectivePermissionReceiptJson : Option String
  completionOutputJson : Option String
  modelProviderId : Option ProviderId
  providerModelId : Option ModelId
  modelFamilyId : Option ℤ
  inputIdentity : Option String
deriving DecidableEq

/-- The columns of `action_invocations` beside their keys. -/
structure TurnInvocationRow where
  resultTurn : TurnId
  authoritative : Bool
  agentInvoked : Bool
deriving DecidableEq

/-- `interaction_submitted_input_attempts.state`. -/
inductive SubmittedInputState
  | reserved
  | preparing
  | bound
  | running
  | accepted
  | failed
  | stopped
deriving DecidableEq, Repr

/-- The states a submitted input ends in. -/
def SubmittedInputState.ended : SubmittedInputState → Bool
  | .accepted | .failed | .stopped => true
  | _ => false

structure AdmittedExecutionModelRoute extends ExecutionModelRoute where
  adapterImplementationVersion : String
deriving DecidableEq

/-- The plan the provider broker admitted. -/
structure AdmittedExecutionModelPlan where
  schemaVersion : ℕ
  familyId : ModelFamilyId
  familyRevision : ℕ
  orchestrator : AdmittedExecutionModelRoute
  roster : List AdmittedExecutionModelRoute
  harnessPolicyDigest : String
  digest : String
deriving DecidableEq

/-- The columns of `interaction_attempts`. -/
structure TurnAttemptRow where
  turn : TurnId
  attemptNumber : ℕ
  startedAt : String
  finishedAt : Option String
  familyId : ModelFamilyId
  familyRevision : ℕ
  harnessName : HarnessId
  harnessRevision : ℕ
  harnessDigest : String
  providerId : ProviderId
  adapterId : String
  adapterVersion : ℕ
  modelId : ModelId
  accessContract : String
  outcome : AttemptOutcome
  failureCategory : Option String
  effectBoundary : String
  admissionId : Option String
  admittedPlan : Option AdmittedExecutionModelPlan
  executionLeaseId : Option String
  executionLeaseReconciledAt : Option String
  nativeWaitEndedAt : Option String
deriving DecidableEq

end RelayerGraph
