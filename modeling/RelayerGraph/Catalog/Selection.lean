import RelayerGraph.Catalog.Database

/-!
# Resolving a model selection

Whether a harness can run a model of a family, and the plan an execution of
that family receives.  A selection names a harness, a family, a provider and
a model; it is valid when each of the four admits it now, and when the rules
of the harness, or its compatibility rows, admit the model.
-/

namespace RelayerGraph

open Foundation Checked

/-- What the catalog uses of the crates it is built on. -/
structure CatalogLibrary where
  /-- `regex::Regex::new(pattern)` and `is_match`; nothing for a pattern that
  does not compile. -/
  regexIsMatch : String → String → Option Bool
  /-- `str::to_lowercase`. -/
  toLowercase : String → String
  /-- The digest of a base configuration, the user's rules and a revision. -/
  overlayDigest : String → HarnessModelRules → ℕ → String
  /-- `admitted_model_plan_digest`; nothing when the plan's roles are
  invalid. -/
  admittedPlanDigest : AdmittedExecutionModelPlan → Option String

/-! ## Names and members of a family -/

def hasControl (text : String) : Bool :=
  text.toList.any fun c =>
    let code := c.val.toNat
    code < 0x20 || (0x7F ≤ code && code < 0xA0)

/-- `validate_stable_id`. -/
def validateStableId (value label : String) : CatalogResult Unit := do
  require (isBlank value = false ∧ trimText value = value.toList)
    (.invalid "stable_id_invalid"
      (label ++ " must be a non-empty string without surrounding whitespace"))
  require (value.length ≤ 200 ∧ hasControl value = false ∧
      ¬ value.toList.any fun c => c.val.toNat = 0x2028 || c.val.toNat = 0x2029)
    (.invalid "stable_id_invalid"
      (label ++ " is not a valid stable identifier"))

variable (library : CatalogLibrary)

/-- `validate_roles`. -/
def validateRoles (roles : List ModelFamilyRole) : CatalogResult Unit := do
  require (roles.length ≤ 32)
    (.invalid "model_family_roles_invalid"
      "A model can carry at most 32 roles.")
  require ((∀ role ∈ roles,
      role.name ≠ "" ∧ role.name.toList = trimText role.name ∧
        role.name.length ≤ 80 ∧
        (nocase role.name = nocase "orchestrator" →
          role.name = "orchestrator") ∧
        ∀ description ∈ role.description, description.length ≤ 240) ∧
      (roles.map fun role => library.toLowercase role.name).Nodup)
    (.invalid "model_family_roles_invalid"
      "Roles require unique names of 1–80 characters and optional descriptions of at most 240 characters. The reserved name is orchestrator.")

/-- `validate_family`: the name without surrounding whitespace. -/
def validateFamily (name : String) (members : List ModelFamilyMember) :
    CatalogResult String := do
  require (isBlank name = false)
    (.invalid "model_family_name_required"
      "model family name must be non-empty")
  require ((trimText name).length ≤ 80)
    (.invalid "model_family_name_too_long"
      "model family name must contain at most 80 characters")
  require (members ≠ [])
    (.invalid "model_family_empty"
      "model family must contain at least one model")
  require (members.length ≤ maxModelsPerFamily)
    (.invalid "model_family_too_large"
      "model family cannot contain more than 5 models")
  forM members fun member => do
    validateRoles library member.roles
    validateStableId member.providerId "providerId"
    validateStableId member.modelId "modelId"
  require ((members.map fun member => (member.providerId, member.modelId)).Nodup)
    (.invalid "model_family_duplicate_model"
      "model family cannot contain the same provider model twice")
  require (members.countP ModelFamilyMember.orchestrates = 1)
    (.invalid "model_family_orchestrator_required"
      "Choose exactly one orchestrator for the family.")
  pure (trimmed name)

namespace CatalogDatabase

variable (db : CatalogDatabase)

/-! ## Recovery -/

/-- `family_in_recovery_sql!`: the managed family a zero-eligible refresh
keeps tombstoned, while its provider is active and either disconnected or
without eligible models. -/
def familyInRecovery (row : FamilyRow) : Bool :=
  decide (row.kind = .system) && decide (row.lifecycleState = .tombstoned) &&
    decide (row.tombstoneCause = some .noEligibleModels) && row.enabled &&
    row.managedProviderId.any fun provider =>
      (db.providers.get? provider).any fun owner =>
        decide (owner.lifecycleState = .active) &&
          (!owner.connected ||
            (owner.unavailableReason.any fun reason =>
              reason.code = "provider_no_eligible_execution_models"))

def modelSetupRecovery : String × String :=
  ("provider_no_eligible_execution_models",
    "This model family needs model setup. Its provider has no models eligible for agent execution. Refresh the provider's models.")

def providerDisconnectedRecovery : String × String :=
  ("provider_disconnected",
    "This model family's provider is not connected. Reconnect it in Settings.")

/-- `family_recovery_on`: the code and message of a family in recovery. -/
def familyRecovery (id : ModelFamilyId) : Option (String × String) := do
  let row ← db.families.get? id
  guard (db.familyInRecovery row = true)
  let provider ← row.managedProviderId
  let owner ← db.providers.get? provider
  pure (if owner.connected then modelSetupRecovery
    else providerDisconnectedRecovery)

/-! ## The rules of a harness -/

/-- The stored rules of a harness, `ORDER BY effect,position`. -/
def rulesOf (harness : HarnessId) : List ModelRuleRow :=
  let rows := db.modelRules.filter fun rule => rule.harness = harness
  let ordered (effect : RuleEffect) : List ModelRuleRow :=
    (rows.filter fun rule => rule.effect = effect).insertionSort
      fun rule other => rule.position ≤ other.position
  ordered .allow ++ ordered .deny

/-- A rule of the adapter matches a model. -/
def ruleMatches (rule : ModelRuleRow) (modelId : ModelId) :
    CatalogResult Bool :=
  match rule.matcher with
  | .exact pattern => pure (decide (pattern = modelId))
  | .regex pattern =>
      orThrow (library.regexIsMatch pattern modelId)
        (.incompatibleSchema "invalid stored harness regex")

/-- The rules of `validate_harness_route`, read in order: how many allow
rules there are, and whether one matched. -/
def readRules (command : ValidateModelSelectionCommand)
    (adapterId : String) :
    ℕ × Bool → ModelRuleRow → CatalogResult (ℕ × Bool)
  | (allowCount, allowed), rule => do
      let allowCount :=
        if rule.effect = .allow then allowCount + 1 else allowCount
      if rule.adapterId ≠ adapterId then
        pure (allowCount, allowed)
      else do
        let isMatch ← ruleMatches library rule command.modelId
        require (¬ (isMatch = true ∧ rule.effect = .deny))
          (.selection "harness_model_incompatible"
            "No available models for this harness" command)
        pure (allowCount,
          allowed || (isMatch && decide (rule.effect = .allow)))

/-- The compatibility rows of the harness admit the model. -/
def compatibilityAdmits (harness : HarnessId) (provider : ProviderId)
    (modelId : ModelId) : Bool :=
  db.providerCompatibility.any fun row =>
    decide (row.harness = harness) && decide (row.provider = provider) &&
      (row.allModels ||
        (db.modelCompatibility.any fun model =>
          decide (model.harness = harness) &&
            decide (model.provider = provider) &&
            decide (model.modelId = modelId)))

/-- `validate_harness_route`. -/
def validateHarnessRoute (harness : HarnessRow) (provider : ProviderRow)
    (command : ValidateModelSelectionCommand) : CatalogResult Unit := do
  require (harness.executionAccessContracts = [] ∨
      provider.accessContract ∈ harness.executionAccessContracts)
    (.selection "harness_access_contract_incompatible"
      "The selected provider access contract is not supported by this harness."
      command)
  let compatible ←
    if harness.modelRulesPresent then do
      let read ← (db.rulesOf command.harnessId).foldlM
        (readRules library command provider.adapterId) (0, false)
      pure (decide (read.1 = 0) || read.2)
    else
      pure (db.compatibilityAdmits command.harnessId command.providerId
        command.modelId)
  require (compatible = true)
    (.selection "harness_model_incompatible"
      "No available models for this harness" command)

/-! ## Validating a selection -/

/-- The rows a selection joins. -/
structure SelectionRows where
  harness : HarnessRow
  provider : ProviderRow
  model : ProviderModelRow
  family : FamilyRow

def selectionRows (command : ValidateModelSelectionCommand) :
    Option SelectionRows := do
  let harness ← db.harnesses.get? command.harnessId
  let provider ← db.providers.get? command.providerId
  let model ← db.models.get? (command.providerId, command.modelId)
  let family ← db.families.get? command.familyId
  pure ⟨harness, provider, model, family⟩

/-- The conditions of a selection with their errors, in the order in which
they are checked. -/
def selectionChecks (command : ValidateModelSelectionCommand)
    (rows : SelectionRows) : List (Bool × String × String) :=
  [(rows.harness.productVisible, "harness_not_product_visible",
      "The selected harness is not available to product callers."),
    (rows.harness.available, "harness_unavailable",
      "No available models for this harness"),
    (rows.provider.connected, "provider_disconnected",
      "The selected provider is not connected."),
    (decide (rows.provider.lifecycleState = .active),
      "provider_removal_pending",
      "The selected provider is unavailable for new interactions."),
    (!db.familyInRecovery rows.family, modelSetupRecovery.1,
      modelSetupRecovery.2),
    (rows.model.visible, "model_hidden", "The selected model is hidden."),
    (rows.model.available, "model_unavailable",
      "The selected model is unavailable."),
    (decide (rows.family.lifecycleState = .active) ||
        decide (rows.family.tombstoneCause = some .noEligibleModels),
      "model_family_removed", "The selected model family was removed."),
    (rows.family.enabled, "model_family_disabled",
      "The selected model family is disabled."),
    (decide (rows.family.lifecycleState = .active), "model_family_removed",
      "The selected model family was removed."),
    ((db.members command.familyId).any fun member =>
        decide (member.providerId = command.providerId) &&
          decide (member.modelId = command.modelId),
      "model_not_in_family", "The selected model is not in this family.")]

/-- The joined rows, checked: what both validations of a selection share. -/
def checkedSelection (unknown : String)
    (command : ValidateModelSelectionCommand) :
    CatalogResult SelectionRows := do
  let rows ← orThrow (db.selectionRows command)
    (.selection "model_selection_unknown" unknown command)
  forM (db.selectionChecks command rows) fun check =>
    require (check.1 = true) (.selection check.2.1 check.2.2 command)
  db.validateHarnessRoute library rows.harness rows.provider command
  pure rows

/-- `validate_model_selection_on`. -/
def validateModelSelection (command : ValidateModelSelectionCommand) :
    CatalogResult Unit := do
  let _ ← db.checkedSelection library
    "The selected harness, family, provider, or model is unknown." command
  pure ()

/-- `validate_execution_model_selection_on`. -/
def validateExecutionModelSelection (harness : HarnessId)
    (selection : InteractionModelSelection) :
    CatalogResult ExecutionModelSelection := do
  let rows ← db.checkedSelection library
    "The selected harness, provider, or model is unknown."
    ⟨harness, selection.familyId, selection.providerId, selection.modelId⟩
  pure
    { familyId := selection.familyId
      providerId := selection.providerId
      adapterId := rows.provider.adapterId
      accessContract := rows.provider.accessContract
      modelId := selection.modelId }

/-- The call is answered `Ok`. -/
def validSelection (command : ValidateModelSelectionCommand) : Bool :=
  match db.validateModelSelection library command with
  | .ok _ => true
  | .error _ => false

/-- `family_resolves_on`: some orchestrator of the family resolves under the
harness. -/
def familyResolves (harness : HarnessId) (family : ModelFamilyId) : Bool :=
  (db.members family).any fun member =>
    member.orchestrates &&
      db.validSelection library
        ⟨harness, family, member.providerId, member.modelId⟩

/-- `harness_uses_configuration_model_on`. -/
def harnessUsesConfigurationModel (harness : HarnessId) : Bool :=
  (db.harnesses.get? harness).any fun row =>
    row.productVisible && row.available && !row.modelRulesPresent &&
      !(db.providerCompatibility.any fun compatible =>
        compatible.harness = harness) &&
      !(db.modelCompatibility.any fun compatible =>
        compatible.harness = harness)

/-! ## The plan of an execution -/

def routeOf (roles : List ModelFamilyRole)
    (selection : ExecutionModelSelection) : ExecutionModelRoute :=
  ⟨some roles, selection.providerId, selection.adapterId,
    selection.accessContract, selection.modelId⟩

/-- One member of the roster: its route, or nothing when the catalog refuses
it. -/
def rosterRoute (harness : HarnessId) (family : ModelFamilyId)
    (member : ModelFamilyMember) :
    CatalogResult (Option ExecutionModelRoute) :=
  match db.validateExecutionModelSelection library harness
      ⟨family, member.providerId, member.modelId⟩ with
  | .ok route => pure (some (routeOf member.roles route))
  | .error failure => do
      require (failure.isCatalog = true) failure
      pure none

/-- `resolve_execution_model_plan_on`. -/
def resolveExecutionModelPlan (harness : HarnessId)
    (selection : InteractionModelSelection) :
    CatalogResult (ExecutionModelPlan × ExecutionModelSelection) := do
  let given : ValidateModelSelectionCommand :=
    ⟨harness, selection.familyId, selection.providerId, selection.modelId⟩
  forSome (db.familyRecovery selection.familyId) fun recovery =>
    .error (.selection recovery.1 recovery.2 given)
  let family ← orThrow (db.families.get? selection.familyId)
    (.invalid "model_family_removed"
      "The selected model family no longer exists.")
  let members := db.members selection.familyId
  let _ ← validateFamily library family.name members
  let orchestrator ← orThrow (members.find? ModelFamilyMember.orchestrates)
    .rowNotFound
  let selected : InteractionModelSelection :=
    ⟨selection.familyId, orchestrator.providerId, orchestrator.modelId⟩
  let route ←
    match db.validateExecutionModelSelection library harness selected with
    | .ok route => pure route
    | .error (.selection code message _) | .error (.invalid code message) =>
        .error (.selection code
          ("The family orchestrator " ++ selected.modelId ++
            " is unavailable or incompatible: " ++ message ++
            " Reconnect its provider or choose an available orchestrator in a custom family in Settings.")
          ⟨harness, selected.familyId, selected.providerId, selected.modelId⟩)
    | .error failure => .error failure
  require (family.enabled = true ∧ family.lifecycleState = .active)
    (.selection "model_family_unresolvable"
      "The selected model family is unavailable for execution." given)
  let roster ← members.mapM (db.rosterRoute library harness selection.familyId)
  let roster := roster.reduceOption
  let orchestratorRoute := routeOf orchestrator.roles route
  require (roster ≠ [] ∧ orchestratorRoute ∈ roster)
    (.selection "orchestrator_not_in_resolved_family"
      "The selected orchestrator is not in the executable family roster."
      given)
  pure
    ({ schemaVersion := 2
       familyId := selection.familyId
       familyRevision := family.revision
       orchestrator := orchestratorRoute
       roster := roster }, route)

end CatalogDatabase

end RelayerGraph
