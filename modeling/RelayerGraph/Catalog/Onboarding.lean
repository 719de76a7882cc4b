import RelayerGraph.Catalog.Providers

/-!
# Defaults and onboarding

The default harness, provider and family are chosen in Settings or when a
provider's onboarding is completed.  Onboarding first projects, for every
available harness, what it could run of the provider; the command is checked
against that projection inside the same transaction.
-/

namespace RelayerGraph

open Foundation Checked

/-! ## Managed family policies -/

/-- `applies_to_adapter`. -/
def appliesToAdapter (policy : FamilyPolicyReference) (adapterId : String) :
    Bool :=
  [("codex-default-family", ["codex-subscription"]),
    ("claude-default-family", ["claude-subscription"]),
    ("provider-default-family", ["openai-api", "anthropic-api"]),
    ("prime-default-family", ["openrouter", "vercel-ai-router"]),
    ("openrouter-default-family", ["openrouter"]),
    ("vercel-ai-router-default-family", ["vercel-ai-router"])].any
      fun entry => decide (entry.1 = policy.id) && entry.2.contains adapterId

/-- `fallback_for_adapter`. -/
def fallbackForAdapter (adapterId : String) : Option FamilyPolicyReference :=
  if adapterId = "openrouter" ∨ adapterId = "vercel-ai-router" then
    some ⟨"prime-default-family", 1⟩
  else if adapterId = "openai-api" ∨ adapterId = "anthropic-api" then
    some ⟨"provider-default-family", 1⟩
  else
    none

def codexFamilyV2Models : List ModelId :=
  ["gpt-5.6-sol", "gpt-5.6-terra", "gpt-5.6-luna"]

def codexFamilyV3Models : List ModelId :=
  ["gpt-6-sol", "gpt-6-astra", "gpt-6-luna"]

def codexFamilyV4Models : List ModelId :=
  ["gpt-6.1-sol", "gpt-6-astra", "gpt-6-luna"]

def primeFamilyV1Models : List ModelId :=
  ["qwen/qwen3.8-max", "alibaba/qwen3.8-max", "deepseek/deepseek-v4-pro-0813",
    "z-ai/glm-5.3", "zai/glm-5.3"]

def openaiApiFamilyV1Models : List ModelId :=
  ["gpt-5.6-sol", "gpt-5.6-terra", "gpt-5.6-luna", "gpt-5.5", "gpt-5.4"]

def openrouterFamilyV1Models : List ModelId :=
  ["deepseek/deepseek-v4-pro-0813", "qwen/qwen3.8-max", "z-ai/glm-5.3"]

def vercelAiRouterFamilyV1Models : List ModelId :=
  ["deepseek/deepseek-v4-pro-0813", "alibaba/qwen3.8-max", "zai/glm-5.3"]

/-- The preferred models the snapshot has, in the order of preference. -/
def preferredModels (models : List CatalogModelSnapshot)
    (preferences : List ModelId) : List CatalogModelSnapshot :=
  preferences.filterMap fun modelId =>
    models.find? fun model => model.id = modelId

/-- The models not selected yet, by provider default and order. -/
def remainingModels (models selected : List CatalogModelSnapshot)
    (key : CatalogModelSnapshot → ℕ) : List CatalogModelSnapshot :=
  (models.filter fun model =>
    !(selected.any fun other => other.id = model.id)).insertionSort
      fun model other => key model < key other ∨
        key model = key other ∧ model.order ≤ other.order

/-- `derive_managed_family_members_unassigned`: the models of a policy. -/
def policyModels (policy : FamilyPolicyReference)
    (snapshot : ProviderCatalogSnapshot) :
    CatalogResult (List CatalogModelSnapshot) :=
  let visible := snapshot.models.filter fun model => model.visible
  let usable := visible.filter fun model => model.available
  let defaults := visible.filter fun model => model.providerDefault
  let withDefaults (preferences : List ModelId) :=
    let selected := preferredModels visible preferences
    (selected ++ remainingModels defaults selected fun _ => 0).take
      maxModelsPerFamily
  if policy.id = "codex-default-family" then
    match policy.version with
    | 1 => pure ((remainingModels defaults [] fun _ => 0).take
        maxModelsPerFamily)
    | 2 => pure (withDefaults codexFamilyV2Models)
    | 3 => pure (withDefaults codexFamilyV3Models)
    | 4 => pure (withDefaults codexFamilyV4Models)
    | _ => unknown
  else if policy.version ≠ 1 then
    unknown
  else if policy.id = "claude-default-family" then
    pure ((remainingModels usable [] fun _ => 0).take maxModelsPerFamily)
  else if policy.id = "provider-default-family" then
    let selected := preferredModels usable openaiApiFamilyV1Models
    pure ((selected ++ remainingModels usable selected fun model =>
      if model.providerDefault then 0 else 1).take maxModelsPerFamily)
  else if policy.id = "openrouter-default-family" then
    pure (preferredModels usable openrouterFamilyV1Models)
  else if policy.id = "prime-default-family" then
    pure (preferredModels usable primeFamilyV1Models)
  else if policy.id = "vercel-ai-router-default-family" then
    pure (preferredModels usable vercelAiRouterFamilyV1Models)
  else
    unknown
where
  unknown : CatalogResult (List CatalogModelSnapshot) :=
    .error (.invalid "family_policy_unknown"
      ("Unknown model-family policy " ++ policy.id ++ "@" ++
        toString policy.version ++ "."))

/-- `derive_managed_family_members`. -/
def deriveManagedFamilyMembers (policy : FamilyPolicyReference)
    (snapshot : ProviderCatalogSnapshot) :
    CatalogResult (List ModelFamilyMember) := do
  let models ← policyModels policy snapshot
  pure (CatalogDatabase.snapshotMembers snapshot.providerId
    (models.map fun model => model.id))

variable (library : CatalogLibrary)

namespace CatalogDatabase

variable (db : CatalogDatabase)

/-! ## Choosing the defaults -/

/-- The pair a defaults update writes, and whether its family is managed. -/
structure PairedDefault where
  provider : Option ProviderId
  family : Option ModelFamilyId
  managed : Bool

/-- The enabled managed family a provider chosen alone brings: the newest. -/
def enabledManagedFamily (provider : ProviderId) : Option ModelFamilyId :=
  (db.families.select fun _ row =>
    decide (row.kind = .system) &&
      decide (row.managedProviderId = some provider) &&
      decide (row.lifecycleState = .active) && row.enabled).getLast?

/-- The provider of a system family. -/
def familyOwner (row : FamilyRow) : Option ProviderId :=
  if row.kind = .system then row.managedProviderId else none

/-- `paired_default_on`. -/
def pairedDefault (provider : Option ProviderId)
    (family : Option ModelFamilyId) : CatalogResult PairedDefault :=
  match provider, family with
  | none, none => pure ⟨none, none, false⟩
  | some provider, none => do
      let managed ← orThrow (db.enabledManagedFamily provider)
        (.invalid "default_provider_family_unavailable"
          "The selected provider has no enabled model family yet. Refresh its models, then choose it again.")
      pure ⟨some provider, some managed, true⟩
  | provider, some family => do
      let row ← orThrow
        ((db.families.get? family).filter fun row =>
          decide (row.lifecycleState = .active) && row.enabled)
        (.invalid "default_family_unavailable"
          "The selected family is unavailable.")
      let owner := familyOwner row
      forSome owner fun owner => do
        require (∀ chosen ∈ provider, chosen = owner)
          (.invalid "default_family_provider_mismatch"
            "The default family belongs to a different provider.")
        require (db.providerReady owner = true)
          (.invalid "provider_disconnected"
            "The selected family's provider is not connected.")
      pure ⟨provider <|> owner, some family, owner.isSome⟩

/-- The available harnesses by name, the application default first. -/
def harnessCandidates (appDefault : HarnessId) : List HarnessId :=
  let names := ((db.harnesses.rows.filter fun entry =>
      entry.2.productVisible && entry.2.available).map
        Prod.fst).insertionSort fun name other => name ≤ other
  names.filter (fun name => name = appDefault) ++
    names.filter fun name => name ≠ appDefault

/-- `default_harness_for_family_on`. -/
def defaultHarnessForFamily (family : ModelFamilyId)
    (stored appDefault : HarnessId) (permitted : List HarnessId) :
    CatalogResult HarnessId :=
  if db.harnessUsesConfigurationModel stored ||
      db.familyResolves library stored family then
    pure stored
  else
    orThrow
      ((db.harnessCandidates appDefault).find? fun harness =>
        permitted.contains harness &&
          !db.harnessUsesConfigurationModel harness &&
          db.familyResolves library harness family)
      (.invalid "default_provider_harness_unavailable"
        "No available harness can run the selected provider's models.")

/-- The checks a defaults update makes of the harness and the provider it
names. -/
def checkDefaultsCommand (command : UpdateModelSettingsDefaultsCommand) :
    CatalogResult Unit := do
  forSome command.harnessId fun harness => do
    let row ← orThrow
      ((db.harnesses.get? harness).filter fun row => row.productVisible)
      (.invalid "harness_unknown" "Unknown product harness.")
    require (row.available = true)
      (.invalid "harness_unavailable" "The selected harness is unavailable.")
  forSome command.providerId fun provider => do
    require ((db.providers.get? provider).isSome)
      (.invalid "provider_unknown" "Unknown provider.")
    require (db.providerReady provider = true)
      (.invalid "provider_disconnected"
        "The selected provider is not connected.")

/-- The default family stays resolvable by the default harness, unless that
harness brings its own model. -/
def checkDefaultFamily (harness : Option HarnessId)
    (family : Option ModelFamilyId) : CatalogResult Unit :=
  onlyIf (harness.isSome ∨ family.isSome) do
    let stored := db.preferences
    let harness := harness.getD stored.defaultHarness
    forSome (family <|> stored.defaultFamily) fun family =>
      onlyIf (db.harnessUsesConfigurationModel harness = false ∧
          db.familyResolves library harness family = false) do
        forSome (db.familyRecovery family) fun recovery =>
          .error (.invalid recovery.1 recovery.2)
        .error (.invalid "default_family_unresolvable"
          "The default family must contain a model resolvable by the default harness.")

/-- `update_model_settings_defaults`. -/
def updateModelSettingsDefaults (command : UpdateModelSettingsDefaultsCommand)
    (appDefault : HarnessId) (permitted : List HarnessId) :
    CatalogResult CatalogDatabase := do
  db.checkDefaultsCommand command
  let stored := db.preferences
  let paired ← db.pairedDefault command.providerId command.familyId
  let harness ←
    match command.harnessId, paired.family with
    | none, some family =>
        if paired.managed then do
          let harness ← db.defaultHarnessForFamily library family
            stored.defaultHarness appDefault permitted
          pure (some harness)
        else
          pure none
    | harness, _ => pure harness
  db.checkDefaultFamily library harness paired.family
  pure { db with
    preferences :=
      { defaultHarness := harness.getD stored.defaultHarness
        defaultProvider := paired.provider.getD stored.defaultProvider
        defaultFamily := paired.family <|> stored.defaultFamily
        defaultsModified := true } }

/-! ## The onboarding projection -/

/-- `provider_catalog_snapshot_on`: what the store holds of an active
provider. -/
def providerCatalogSnapshot (provider : ProviderId) :
    CatalogResult ProviderCatalogSnapshot := do
  let row ← orThrow
    ((db.providers.get? provider).filter fun row =>
      row.lifecycleState = .active)
    (.invalid "provider_unknown" "Unknown active provider definition.")
  let models := ((db.models.rows.filter fun entry =>
      entry.1.1 = provider).insertionSort fun entry other =>
        entry.2.order < other.2.order ∨
          entry.2.order = other.2.order ∧ entry.1.2 ≤ other.1.2).map
    fun entry => { toProviderModelRow := entry.2, id := entry.1.2 }
  pure
    { providerId := provider
      label := row.label
      connected := row.connected
      unavailableReason := row.unavailableReason
      models := models
      systemFamily := none }

/-- `validate_onboarding_model_on`: the checks of a selection without a
family. -/
def validOnboardingModel (harness : HarnessId) (provider : ProviderId)
    (modelId : ModelId) : Bool :=
  ((db.harnesses.get? harness).any fun harnessRow =>
    (db.providers.get? provider).any fun providerRow =>
      (db.models.get? (provider, modelId)).any fun model =>
        harnessRow.productVisible && harnessRow.available &&
          providerRow.connected &&
          decide (providerRow.lifecycleState = .active) && model.visible &&
          model.available &&
          (match db.validateHarnessRoute library harnessRow providerRow
              ⟨harness, ⟨1⟩, provider, modelId⟩ with
            | .ok _ => true
            | .error _ => false))

structure OnboardingFamily where
  id : ModelFamilyId
  name : String
  revision : ℕ
  members : List ModelFamilyMember
deriving DecidableEq

structure OnboardingManagedFamily where
  providerId : ProviderId
  policy : FamilyPolicyReference
  name : String
  members : List ModelFamilyMember
deriving DecidableEq

/-- What onboarding offers of one harness. -/
structure OnboardingHarness where
  id : HarnessId
  label : String
  configurationRevision : ℕ
  matchingAccessContract : Option String
  incompatibilityReason : Option UnavailableReason
  existingCustomFamilies : List OnboardingFamily
  existingManagedFamilies : List OnboardingFamily
  managedFamilyCandidate : Option OnboardingManagedFamily
  eligibleModels : List (ModelId × String)
deriving DecidableEq

def OnboardingHarness.selectable (harness : OnboardingHarness) : Bool :=
  harness.incompatibilityReason.isNone

/-- The active families with a member of the provider which resolves. -/
def resolvingFamilies (harness : HarnessId) (provider : ProviderId) :
    List (ModelFamilyKind × OnboardingFamily) :=
  (orderedIds db.families .active).filterMap fun id => do
    let row ← db.families.get? id
    guard (((db.members id).any fun member =>
        decide (member.providerId = provider) &&
          db.validSelection library
            ⟨harness, id, member.providerId, member.modelId⟩) = true)
    guard (db.familyResolves library harness id = true)
    pure (row.kind, ⟨id, row.name, row.revision, db.members id⟩)

/-- The managed family a harness would give the provider, when one of its
orchestrators is eligible. -/
def managedFamilyCandidate (row : HarnessRow) (adapterId : String)
    (snapshot : ProviderCatalogSnapshot) (eligible : List (ModelId × String)) :
    Option OnboardingManagedFamily := do
  let policy ←
    (row.familyPolicy.filter fun policy => appliesToAdapter policy adapterId) <|>
      fallbackForAdapter adapterId
  let members ← (deriveManagedFamilyMembers policy snapshot).toOption
  guard (members ≠ [])
  let existing := match db.managedFamily snapshot.providerId policy with
    | some id => db.members id
    | none => []
  let members := retainUnavailableManagedOrchestrator members existing snapshot
  guard ((members.any fun member => member.orchestrates &&
    decide (member.providerId = snapshot.providerId) &&
      eligible.any fun model => model.1 = member.modelId) = true)
  pure ⟨snapshot.providerId, policy, snapshot.label ++ " defaults", members⟩

def incompatibilityReason (permitted : Bool)
    (matchingContract : Option String) (eligible : List (ModelId × String)) :
    Option UnavailableReason :=
  if !permitted then
    some ⟨"harness_permission_unavailable",
      "The harness has no enabled permission profile."⟩
  else if matchingContract.isNone then
    some ⟨"harness_access_contract_incompatible",
      "The harness does not support this provider access mode."⟩
  else if eligible = [] then
    some ⟨"harness_model_incompatible",
      "The harness has no eligible models from this provider."⟩
  else
    none

/-- One harness of the projection. -/
def onboardingHarness (provider : ProviderRow)
    (snapshot : ProviderCatalogSnapshot) (permitted : List HarnessId)
    (id : HarnessId) (row : HarnessRow) : OnboardingHarness :=
  let matchingContract :=
    if row.executionAccessContracts.contains provider.accessContract then
      some provider.accessContract
    else
      none
  let eligible := (snapshot.models.filter fun model =>
      db.validOnboardingModel library id snapshot.providerId model.id).map
    fun model => (model.id, model.label)
  let families := db.resolvingFamilies library id snapshot.providerId
  let ofKind (kind : ModelFamilyKind) :=
    (families.filter fun family => family.1 = kind).map Prod.snd
  { id := id
    label := row.label
    configurationRevision := row.configurationRevision
    matchingAccessContract := matchingContract
    incompatibilityReason :=
      incompatibilityReason (permitted.contains id) matchingContract eligible
    existingCustomFamilies := ofKind .custom
    existingManagedFamilies := ofKind .system
    managedFamilyCandidate :=
      db.managedFamilyCandidate row provider.adapterId snapshot eligible
    eligibleModels := eligible }

structure OnboardingProjection where
  snapshot : ProviderCatalogSnapshot
  harnesses : List OnboardingHarness

/-- `provider_onboarding_projection_on`, without the fields only the caller
displays. -/
def onboardingProjection (provider : ProviderId) (permitted : List HarnessId) :
    CatalogResult OnboardingProjection := do
  let snapshot ← db.providerCatalogSnapshot provider
  require (snapshot.connected = true)
    (.invalid "onboarding_provider_disconnected"
      "The provider must be connected before onboarding can continue.")
  let row ← orThrow
    ((db.providers.get? provider).filter fun row =>
      row.lifecycleState = .active)
    (.invalid "onboarding_provider_unavailable"
      "The provider is not available for onboarding.")
  let visible := db.harnesses.rows.filter fun entry =>
    entry.2.productVisible && entry.2.available
  pure
    { snapshot := snapshot
      harnesses := visible.map fun entry =>
        db.onboardingHarness library row snapshot permitted entry.1 entry.2 }

/-! ## Completing onboarding -/

/-- `onboarding_resolution_on`: the family is enabled and active, resolves
under the harness, and does so through a model of the provider. -/
def onboardingResolution (harness : HarnessId) (provider : ProviderId)
    (family : ModelFamilyId) : CatalogResult Unit := do
  require (((db.families.get? family).any fun row =>
      row.enabled && decide (row.lifecycleState = .active)) = true)
    (.invalid "onboarding_family_unavailable"
      "The selected family is unavailable.")
  let resolvable := (db.members family).filter fun member =>
    db.validSelection library
      ⟨harness, family, member.providerId, member.modelId⟩
  require (db.familyResolves library harness family = true ∧
      resolvable ≠ [] ∧
      (resolvable.any fun member => member.providerId = provider) = true)
    (.invalid "onboarding_family_unresolvable"
      "The family must contain a currently resolvable model from the connected provider.")

/-- The family an onboarding command chooses, with the store: an existing
one, the managed one of a policy, or a new one. -/
def onboardingFamily (command : CompleteProviderOnboardingCommand)
    (snapshot : ProviderCatalogSnapshot) (harness : OnboardingHarness)
    (now : String) : CatalogResult (ModelFamilyId × CatalogDatabase) :=
  match command.family with
  | .existing familyId => do
      let family ← orThrow
        ((harness.existingCustomFamilies ++
          harness.existingManagedFamilies).find?
            fun family => family.id = familyId)
        (.invalid "onboarding_family_incompatible"
          "The selected family is no longer resolvable by this harness and provider.")
      pure (family.id, db)
  | .managed policy => do
      let candidate ← orThrow
        (harness.managedFamilyCandidate.filter fun candidate =>
          candidate.policy = policy)
        (.invalid "onboarding_managed_family_changed"
          "The managed family preview changed. Review it before finishing setup.")
      let systemFamily : SystemFamilySnapshot :=
        { key := candidate.policy.id ++ "@" ++ toString candidate.policy.version
          name := candidate.name
          modelIds := candidate.members.map fun member => member.modelId }
      db.replaceSystemFamily library
        { snapshot with systemFamily := some systemFamily } systemFamily policy
        false now
  | .create name members => do
      let normalizedName ← validateFamily library name members
      require ((members.all fun member =>
          decide (member.providerId = command.providerId) &&
            harness.eligibleModels.any fun model =>
              model.1 = member.modelId) = true)
        (.invalid "onboarding_family_member_incompatible"
          "Every new-family member must be an explicitly selected eligible model from this provider.")
      require (db.nameTaken normalizedName none = false)
        (.invalid "model_family_name_duplicate"
          "A model family with this name already exists.")
      let (id, db) ← db.insertFamily
        { name := normalizedName
          kind := .custom
          systemKey := none
          enabled := true
          position := db.nextPosition
          revision := 1
          managedProviderId := none
          policy := none
          lifecycleState := .active
          removedAt := none
          tombstoneCause := none }
      let db ← db.replaceFamilyMembers id members
      pure (id, db)

/-- `complete_provider_onboarding`.  The revision of a projection is the
digest of its serialised form, which the crates compute. -/
def completeProviderOnboarding (revision : OnboardingProjection → String)
    (command : CompleteProviderOnboardingCommand) (permitted : List HarnessId)
    (now : String) : CatalogResult CatalogDatabase := do
  let projection ← db.onboardingProjection library command.providerId permitted
  require (revision projection = command.expectedProjectionRevision)
    (.invalid "onboarding_projection_conflict"
      "Provider, harness, or model-family settings changed. Review the current choices before finishing setup.")
  let harness ← orThrow
    ((projection.harnesses.find? fun harness =>
      harness.id = command.harnessId).filter OnboardingHarness.selectable)
    (.invalid "onboarding_harness_incompatible"
      "The selected harness is not currently compatible with this provider.")
  let (family, db) ←
    db.onboardingFamily library command projection.snapshot harness now
  db.onboardingResolution library command.harnessId command.providerId family
  pure { db with
    preferences :=
      { defaultHarness := command.harnessId
        defaultProvider := command.providerId
        defaultFamily := some family
        defaultsModified := true } }

end CatalogDatabase

end RelayerGraph
