import RelayerGraph.Catalog.Onboarding

/-!
# Harness configurations and their readiness

Each start of the app server loads the harness configurations its runtime
reports, and the row of a harness says whether it is ready.  For a harness
whose readiness is coordinated, a start restores only what the row recorded;
between two starts, readiness batches publish what an evaluation measured.
-/

namespace RelayerGraph

open Foundation Checked

/-! ## The model rules of a configuration -/

def containsText (needle hay : String) : Bool :=
  decide (needle.toList <:+: hay.toList)

/-- `regex_uses_unsupported_class_syntax`, read with its two flags. -/
def nestedClass (escaped inClass : Bool) : List Char → Bool
  | [] => false
  | c :: rest =>
      if escaped then nestedClass false inClass rest
      else if c = '\\' then nestedClass true inClass rest
      else if c = '[' then inClass || nestedClass false true rest
      else if c = ']' then nestedClass false false rest
      else nestedClass false inClass rest

def regexUsesUnsupportedClassSyntax (pattern : String) : Bool :=
  containsText "&&" pattern || containsText "--" pattern ||
    containsText "~~" pattern || nestedClass false false pattern.toList

/-- An escape followed by an ASCII letter. -/
def escapesLetter : List Char → Bool
  | '\\' :: c :: rest => c.isAlpha || escapesLetter (c :: rest)
  | _ :: rest => escapesLetter rest
  | [] => false

def unsupportedRegexTexts : List String :=
  ["(?", "\\1", "\\2", "\\3", "\\4", "\\5", "\\6", "\\7", "\\8", "\\9", "\\k",
    "\\A", "\\z", "\\Z", "\\G"]

/-- The matcher of a rule: exactly one of an id and a pattern. -/
def HarnessModelRule.matcher (rule : HarnessModelRule) : Option RuleMatcher :=
  match rule.modelIdExact, rule.modelIdRegex with
  | some modelId, none => some (.exact modelId)
  | none, some pattern => some (.regex pattern)
  | _, _ => none

def ruleMatcherRequired : CatalogFailure :=
  .invalid "harness_model_rule_invalid"
    "Each model rule requires exactly one exact or regex matcher."

variable (library : CatalogLibrary)

/-- One rule of `validate_harness_model_rules`. -/
def validateHarnessModelRule (rule : HarnessModelRule) :
    CatalogResult Unit := do
  validateStableId rule.adapterId "adapterId"
  match rule.matcher with
  | some (.exact modelId) => validateStableId modelId "modelIdExact"
  | some (.regex pattern) => do
      require (pattern ≠ "" ∧ pattern.utf8ByteSize ≤ 500) ruleMatcherRequired
      require (escapesLetter pattern.toList = false)
        (.invalid "harness_model_regex_invalid"
          "A model regex uses an escaped character class outside the supported cross-runtime subset.")
      require (regexUsesUnsupportedClassSyntax pattern = false)
        (.invalid "harness_model_regex_invalid"
          "A model regex uses character-class set syntax outside the supported cross-runtime subset.")
      require ((unsupportedRegexTexts.any fun text =>
          containsText text pattern) = false)
        (.invalid "harness_model_regex_invalid"
          "A model regex uses syntax outside the supported cross-runtime subset.")
      require ((library.regexIsMatch pattern "").isSome)
        (.invalid "harness_model_regex_invalid" "Invalid model regex")
  | none => .error ruleMatcherRequired

/-- `validate_harness_model_rules`. -/
def validateHarnessModelRules (rules : HarnessModelRules) :
    CatalogResult Unit := do
  require (rules.allow.length + rules.deny.length ≤ 100)
    (.invalid "harness_model_rules_too_large"
      "A harness configuration cannot contain more than 100 model rules.")
  forM (rules.allow ++ rules.deny) (validateHarnessModelRule library)
  require (rules.allow.Nodup ∧ rules.deny.Nodup)
    (.invalid "harness_model_rule_duplicate"
      "A harness configuration cannot contain duplicate model rules.")

/-! ## What the runtime admits of a configuration -/

/-- One compatibility entry of `validate_configuration`. -/
def validateModelCompatibility (compatibility : HarnessModelCompatibility) :
    CatalogResult Unit := do
  validateStableId compatibility.providerId "providerId"
  forSome compatibility.modelIds fun modelIds => do
    require (modelIds ≠ [])
      (.invalid "configuration"
        "harness model compatibility subset cannot be empty")
    forM modelIds fun modelId => validateStableId modelId "modelId"
    require modelIds.Nodup
      (.invalid "configuration" "duplicate harness compatible model ID")
    require (∀ preferred ∈ compatibility.preferredModelId,
        preferred ∈ modelIds)
      (.invalid "configuration"
        "harness preferred model must be included in its model subset")
  forSome compatibility.preferredModelId fun preferred =>
    validateStableId preferred "preferredModelId"

/-- The compatibility checks a configuration passes before the runtime
reports it. -/
def RuntimeProductHarness.validateCompatibility
    (harness : RuntimeProductHarness) : CatalogResult Unit := do
  require ((harness.modelCompatibility.map fun c => c.providerId).Nodup)
    (.invalid "configuration"
      "duplicate harness model compatibility provider")
  forM harness.modelCompatibility validateModelCompatibility

/-! ## The rows of a start -/

/-- `loaded_runtime_digest`: a digest a start actually loaded. -/
def loadedRuntimeDigest (digest : String) : Bool :=
  "sha256:".toList.isPrefixOf digest.toList &&
    decide (digest ≠ "sha256:not-loaded") &&
    decide (digest ≠ "sha256:unavailable")

def harnessUnavailable : UnavailableReason :=
  ⟨"harness_unavailable", "The harness runtime is unavailable."⟩

def readinessPending : UnavailableReason :=
  ⟨"harness_readiness_pending",
    "This execution configuration is currently unavailable."⟩

/-- `harness_label`: the parts of a name, capitalised. -/
def harnessLabel (name : HarnessId) : String :=
  let capitalised (part : List Char) : List Char :=
    match part with
    | [] => []
    | first :: rest => first.toUpper :: rest
  let parts := (name.toList.splitOn '-').filter fun part => part ≠ []
  String.ofList (List.intercalate [' '] (parts.map capitalised))

/-- The default harness as an unavailable configuration, when the runtime
does not report it. -/
def absentDefault (defaultHarness : HarnessId) : RuntimeProductHarness where
  id := defaultHarness
  configurationDigest := "sha256:unavailable"
  modelCompatibility := []
  configurationRevision := 1
  modelRules := none
  executionAccessContracts := []
  familyPolicy := none
  restorePriorReadiness := false
  runtimeRecipe := none
  runtimeUpdated := false
  runtimeAvailable := false
  unavailableReason := some harnessUnavailable

/-- The list without the entries at its head that have the id. -/
def dropSame (id : HarnessId) :
    List RuntimeProductHarness → List RuntimeProductHarness
  | [] => []
  | harness :: rest =>
      if harness.id = id then dropSame id rest
      else harness :: dropSame harness.id rest

/-- Of neighbours with one id the first stays. -/
def dedupById : List RuntimeProductHarness → List RuntimeProductHarness
  | [] => []
  | harness :: rest => harness :: dropSame harness.id rest

/-- The configurations a start loads, by name. -/
def startHarnesses (defaultHarness : HarnessId)
    (runtimeHarnesses : List RuntimeProductHarness) :
    List RuntimeProductHarness :=
  let all :=
    if runtimeHarnesses.any fun harness => harness.id = defaultHarness then
      runtimeHarnesses
    else
      runtimeHarnesses ++ [absentDefault defaultHarness]
  dedupById (all.insertionSort fun harness other => harness.id ≤ other.id)

namespace CatalogDatabase

variable (db : CatalogDatabase)

/-- The row recorded the configuration ready, and the product shows it. -/
def priorReady (harness : HarnessId) (digest : String) : Bool :=
  (db.harnesses.get? harness).any fun row =>
    row.available && row.productVisible &&
      decide (row.runtimeConfigurationDigest = digest)

/-- The row of a harness the product shows. -/
def priorRuntime (harness : HarnessId) : Option HarnessRow :=
  (db.harnesses.get? harness).filter fun row => row.productVisible

/-- An update changed the runtime recipe of a coordinated route that was
loaded before with a recorded recipe, or is the first to record one over a
ready route whose files no longer validate. -/
def recipeChanged (prior : CatalogDatabase) (harness : RuntimeProductHarness) :
    Bool :=
  harness.restorePriorReadiness &&
    (harness.runtimeUpdated ||
      (harness.runtimeRecipe.any fun recipe =>
        match prior.priorRuntime harness.id with
        | none => false
        | some row =>
            if row.runtimeRecipe = "" then
              !harness.runtimeAvailable &&
                prior.priorReady harness.id harness.configurationDigest
            else
              decide (row.runtimeRecipe ≠ recipe)))

/-- Valid files alone never make a coordinated route ready: it waits for an
evaluation unless the row recorded this very configuration ready. -/
def withheld (prior : CatalogDatabase) (harness : RuntimeProductHarness) :
    RuntimeProductHarness :=
  if harness.restorePriorReadiness ∧ harness.runtimeAvailable ∧
      (prior.recipeChanged harness = true ∨
        prior.priorReady harness.id harness.configurationDigest = false) then
    { harness with
      runtimeAvailable := false
      unavailableReason := some readinessPending }
  else
    harness

def modelSelecting (harness : RuntimeProductHarness) : Bool :=
  harness.modelRules.isSome || !harness.modelCompatibility.isEmpty

/-- Whether a start leaves the harness available. -/
def startAvailable (prior : CatalogDatabase) (harness : RuntimeProductHarness) :
    Bool :=
  (prior.withheld harness).runtimeAvailable &&
    (!modelSelecting harness || !harness.executionAccessContracts.isEmpty)

/-- Whether a start leaves the harness due for its evaluation. -/
def startDue (prior : CatalogDatabase) (harness : RuntimeProductHarness) :
    Bool :=
  (prior.priorRuntime harness.id).any fun row =>
    if harness.restorePriorReadiness then
      row.readinessUpdateDue || prior.recipeChanged harness ||
        (loadedRuntimeDigest row.runtimeConfigurationDigest &&
          decide (row.runtimeConfigurationDigest ≠
            harness.configurationDigest))
    else
      row.readinessUpdateDue && !prior.startAvailable harness

/-- The reason an unavailable harness bears. -/
def startReason (prior : CatalogDatabase) (harness : RuntimeProductHarness) :
    Option UnavailableReason :=
  if prior.startAvailable harness then
    none
  else if (prior.withheld harness).runtimeAvailable then
    some ⟨"harness_access_contract_missing",
      "The model-selecting harness has no execution access contract."⟩
  else
    some ((prior.withheld harness).unavailableReason.getD harnessUnavailable)

/-- The rules the store holds for a harness. -/
def loadHarnessRules (harness : HarnessId) : HarnessModelRules :=
  let rule (row : ModelRuleRow) : HarnessModelRule :=
    match row.matcher with
    | .exact modelId => ⟨row.adapterId, some modelId, none⟩
    | .regex pattern => ⟨row.adapterId, none, some pattern⟩
  let ofEffect (effect : RuleEffect) :=
    ((db.rulesOf harness).filter fun row => row.effect = effect).map rule
  ⟨ofEffect .allow, ofEffect .deny⟩

/-- The revision and digest the harness gets: those of its configuration, or
of the user's rules over it. -/
def effectiveConfiguration (harness : RuntimeProductHarness) : ℕ × String :=
  match (db.harnesses.get? harness.id).filter fun row =>
      row.modelRulesModified with
  | none => (harness.configurationRevision, harness.configurationDigest)
  | some row =>
      if row.runtimeConfigurationDigest ≠ harness.configurationDigest then
        (row.configurationRevision + 1,
          library.overlayDigest harness.configurationDigest
            (db.loadHarnessRules harness.id) (row.configurationRevision + 1))
      else
        (row.configurationRevision, row.configurationDigest)

/-- The row a start writes for a harness. -/
def startRow (prior : CatalogDatabase) (harness : RuntimeProductHarness) :
    HarnessRow :=
  let stored := db.harnesses.get? harness.id
  let modified := stored.any fun row => row.modelRulesModified
  let (revision, digest) := db.effectiveConfiguration library harness
  { label := harnessLabel harness.id
    productVisible := true
    available := prior.startAvailable harness
    unavailableReason := prior.startReason harness
    configurationRevision := revision
    configurationDigest := digest
    modelRulesPresent :=
      if modified then stored.any fun row => row.modelRulesPresent
      else harness.modelRules.isSome
    modelRulesModified := modified
    executionAccessContracts := harness.executionAccessContracts
    familyPolicy := harness.familyPolicy
    runtimeConfigurationRevision := harness.configurationRevision
    runtimeConfigurationDigest := harness.configurationDigest
    readinessUpdateDue := prior.startDue harness
    runtimeRecipe :=
      (harness.runtimeRecipe.filter fun _ => harness.restorePriorReadiness).getD
        ((stored.map fun row => row.runtimeRecipe).getD "") }

/-! ## The rules and compatibility of a start -/

/-- The stored rows of one list of rules. -/
def ruleRows (harness : HarnessId) (effect : RuleEffect)
    (rules : List HarnessModelRule) : CatalogResult (List ModelRuleRow) :=
  rules.zipIdx.mapM fun entry => do
    let matcher ← orThrow entry.1.matcher
      (.invalid "harness_model_rule_invalid"
        "Harness model rule requires exactly one matcher.")
    pure ⟨harness, effect, entry.2, entry.1.adapterId, matcher⟩

/-- Replace the rules of a harness by those of its configuration. -/
def replaceRules (harness : HarnessId) (rules : Option HarnessModelRules) :
    CatalogResult CatalogDatabase := do
  let kept := db.modelRules.filter fun row => row.harness ≠ harness
  match rules with
  | none => pure { db with modelRules := kept }
  | some rules => do
      let allow ← ruleRows harness .allow rules.allow
      let deny ← ruleRows harness .deny rules.deny
      pure { db with modelRules := kept ++ allow ++ deny }

/-- `INSERT OR IGNORE INTO model_providers`: a provider only the
configuration names. -/
def namedProvider (provider : ProviderId) : CatalogDatabase :=
  let row : ProviderRow :=
    { label := provider
      connected := false
      unavailableReason := some providerNotConnected
      refreshedAt := "0"
      adapterId := "legacy"
      accessContract := "secret@1"
      endpoint := none
      credentialReference := none
      lifecycleState := .active
      removedAt := none
      connectionGeneration := 1 }
  if (db.providers.get? provider).isSome ||
      db.providerClashes provider row then
    db
  else
    { db with providers := db.providers.put provider row }

/-- `INSERT INTO harness_model_compatibility`. -/
def insertModelCompatibility (harness : HarnessId) (provider : ProviderId)
    (modelId : ModelId) : CatalogResult CatalogDatabase := do
  require (⟨harness, provider, modelId⟩ ∉ db.modelCompatibility)
    (.constraint "harness_model_compatibility")
  pure { db with
    modelCompatibility := db.modelCompatibility ++
      [⟨harness, provider, modelId⟩] }

/-- Insert one compatibility entry with its models. -/
def insertCompatibility (harness : HarnessId)
    (compatibility : HarnessModelCompatibility) :
    CatalogResult CatalogDatabase := do
  let db := db.namedProvider compatibility.providerId
  require ((db.providers.get? compatibility.providerId).isSome ∧
      (db.providerCompatibility.any fun row =>
        decide (row.harness = harness) &&
          decide (row.provider = compatibility.providerId)) = false)
    (.constraint "harness_provider_compatibility")
  let db := { db with
    providerCompatibility := db.providerCompatibility ++
      [⟨harness, compatibility.providerId, compatibility.modelIds.isNone,
        compatibility.preferredModelId⟩] }
  (compatibility.modelIds.getD []).foldlM
    (fun (state : CatalogDatabase) modelId =>
      state.insertModelCompatibility harness compatibility.providerId modelId)
    db

/-- Replace the compatibility rows of a harness. -/
def replaceCompatibility (harness : HarnessId)
    (compatibility : List HarnessModelCompatibility) :
    CatalogResult CatalogDatabase :=
  compatibility.foldlM
    (fun (state : CatalogDatabase) entry =>
      state.insertCompatibility harness entry)
    { db with
      providerCompatibility := db.providerCompatibility.filter fun row =>
        row.harness ≠ harness
      modelCompatibility := db.modelCompatibility.filter fun row =>
        row.harness ≠ harness }

/-- One harness of a start. -/
def startHarness (prior : CatalogDatabase) (runtimeIds : List HarnessId)
    (harness : RuntimeProductHarness) : CatalogResult CatalogDatabase := do
  let row := db.startRow library prior harness
  let db := { db with harnesses := db.harnesses.put harness.id row }
  if runtimeIds.contains harness.id ∧ row.modelRulesModified = false then do
    let db ← db.replaceRules harness.id harness.modelRules
    db.replaceCompatibility harness.id harness.modelCompatibility
  else
    pure db

/-! ## Retired configurations -/

/-- The statuses of a turn whose execution has not ended. -/
def unfinishedTurn : CompletionStatus → Bool
  | .notStarted | .queued | .paused | .interrupted | .running | .submitted
  | .waitingForApproval => true
  | _ => false

/-- A turn bound under the retired configuration whose request can be
repeated. -/
def rebindable (retired : HarnessId) (turn : TurnId) (row : TurnRow) : Bool :=
  decide (row.harnessConfigurationName = some retired) &&
    unfinishedTurn row.completionStatus && row.graphNodeId.isSome &&
    (row.inputIdentity.isSome ||
      (db.invocations.any fun invocation =>
        decide (invocation.resultTurn = turn) && invocation.authoritative))

def rebound (replacement : HarnessId) (row : TurnRow) : TurnRow :=
  { row with
    graphNodeId := none
    completionStatus :=
      match row.completionStatus with
      | .queued => .queued
      | .paused => .paused
      | .interrupted => .interrupted
      | _ => .submitted
    harnessConfigurationName := some replacement
    harnessConfigurationDigest := none
    effectiveExecutionDigest := none
    effectivePermissionReceiptJson := none
    completionOutputJson := none
    completionError :=
      match row.completionStatus with
      | .paused | .interrupted => row.completionError
      | _ => none }

/-- `retire_absent_product_harness`. -/
def retireAbsentProductHarness (runtimeIds : List HarnessId)
    (retired replacement : HarnessId) : CatalogDatabase :=
  if replacement ∉ runtimeIds ∨ retired ∈ runtimeIds then
    db
  else
    { db with
      threads := db.threads.mapRows fun _ row =>
        if row.harnessConfigurationName = retired then
          { row with harnessConfigurationName := replacement }
        else
          row
      turns := db.turns.mapRows fun turn row =>
        if db.rebindable retired turn row then rebound replacement row else row
      preferences :=
        if db.preferences.defaultHarness = retired then
          { db.preferences with defaultHarness := replacement }
        else
          db.preferences
      harnesses := db.harnesses.mapRows fun id row =>
        if id = retired then
          { row with
            productVisible := false
            available := false
            unavailableReason := some ⟨"harness_retired",
              "This product harness has been retired."⟩ }
        else
          row }

/-- The blanket reset of a start: no row is available or loaded. -/
def resetHarnesses : CatalogDatabase :=
  { db with
    harnesses := db.harnesses.mapRows fun _ row =>
      { row with
        available := false
        unavailableReason := some harnessUnavailable
        runtimeConfigurationDigest := "sha256:not-loaded" } }

/-- The default harness of a start, while the user has chosen none. -/
def withDefaultHarness (defaultHarness : HarnessId) : CatalogDatabase :=
  if db.preferences.defaultsModified then
    db
  else
    { db with
      preferences := { db.preferences with defaultHarness := defaultHarness } }

/-- `initialize_model_catalog`. -/
def initializeModelCatalog (defaultHarness : HarnessId)
    (runtimeHarnesses : List RuntimeProductHarness) :
    CatalogResult CatalogDatabase := do
  forM runtimeHarnesses fun harness =>
    forSome harness.modelRules (validateHarnessModelRules library)
  let runtimeIds := runtimeHarnesses.map fun harness => harness.id
  let loaded ← (startHarnesses defaultHarness runtimeHarnesses).foldlM
    (fun (state : CatalogDatabase) harness =>
      state.startHarness library db runtimeIds harness)
    db.resetHarnesses
  pure (((loaded.retireAbsentProductHarness runtimeIds "codex-basic-high"
      "codex-basic").retireAbsentProductHarness runtimeIds "prime-agent-deep"
      "prime-agent-basic").withDefaultHarness defaultHarness)

/-- `update_harness_model_rules`. -/
def updateHarnessModelRules (command : UpdateHarnessModelRulesCommand) :
    CatalogResult CatalogDatabase := do
  let row ← orThrow (db.priorRuntime command.harnessId)
    (.invalid "harness_unknown" "Unknown product harness.")
  require (row.configurationRevision = command.expectedRevision)
    (.invalid "harness_revision_conflict"
      "This harness configuration changed. Refresh Settings before saving.")
  let db ← db.replaceRules command.harnessId (some command.rules)
  let revision := row.configurationRevision + 1
  pure { db with
    harnesses := db.harnesses.put command.harnessId
      { row with
        configurationRevision := revision
        configurationDigest :=
          library.overlayDigest row.configurationDigest command.rules revision
        modelRulesPresent := true
        modelRulesModified := true } }

/-! ## Readiness batches -/

/-- A rule of `harness_route_is_usable` matches. -/
def usableRuleMatches (adapterId : String) (modelId : ModelId)
    (rule : ModelRuleRow) : CatalogResult Bool :=
  if rule.adapterId ≠ adapterId then pure false
  else ruleMatches library rule modelId

/-- `harness_route_is_usable`. -/
def harnessRouteIsUsable (harness : HarnessId) (row : HarnessRow)
    (provider : ProviderId) (providerRow : ProviderRow) (modelId : ModelId) :
    CatalogResult Bool :=
  if ¬ row.executionAccessContracts.isEmpty ∧
      providerRow.accessContract ∉ row.executionAccessContracts then
    pure false
  else if row.modelRulesPresent = false then
    pure (db.compatibilityAdmits harness provider modelId)
  else do
    let rules := db.rulesOf harness
    let deny := rules.filter fun rule => rule.effect = .deny
    let allow := rules.filter fun rule => rule.effect = .allow
    let denied ← deny.anyM
      (usableRuleMatches library providerRow.adapterId modelId)
    if denied then
      pure false
    else if allow.isEmpty then
      pure true
    else
      allow.anyM (usableRuleMatches library providerRow.adapterId modelId)

/-- A connection of a batch has a current route to the harness. -/
def connectionAuthorizes (harness : HarnessId) (row : HarnessRow)
    (connection : HarnessReadinessProviderConnection) : CatalogResult Bool :=
  if connection.generation ≤ 0 ∨ row.executionAccessContracts.isEmpty then
    pure false
  else
    match (db.providers.get? connection.providerId).filter fun provider =>
        decide (provider.lifecycleState = .active) && provider.connected &&
          decide (provider.connectionGeneration = connection.generation) with
    | none => pure false
    | some provider =>
        let routes := db.models.rows.filter fun entry =>
          decide (entry.1.1 = connection.providerId) && entry.2.visible &&
            entry.2.available
        routes.anyM fun entry =>
          if connection.modelIds.contains entry.1.2 then
            db.harnessRouteIsUsable library harness row connection.providerId
              provider entry.1.2
          else
            pure false

/-- Some connection of the element authorizes it. -/
def readinessAuthorized (harness : HarnessId)
    (connections : List HarnessReadinessProviderConnection) :
    CatalogResult Bool :=
  match db.priorRuntime harness with
  | none => pure false
  | some row =>
      connections.anyM (db.connectionAuthorizes library harness row)

/-- The reason an element records: exactly an unavailable one has one. -/
def recordedReason (update : HarnessRuntimeAvailabilityUpdate) :
    CatalogResult (Option UnavailableReason) :=
  match update.available, update.unavailableReason with
  | true, none => pure none
  | false, some reason =>
      if isBlank reason.code = false ∧ isBlank reason.message = false then
        pure (some reason)
      else
        disagree
  | _, _ => disagree
where
  disagree : CatalogResult (Option UnavailableReason) :=
    .error (.invalid "harness_readiness_invalid"
      "Harness readiness availability and unavailable reason do not agree.")

/-- The row of the harness an element was measured for, as it is loaded. -/
def measuredRow (update : HarnessRuntimeAvailabilityUpdate) :
    Option HarnessRow :=
  (db.priorRuntime update.harnessId).filter fun row =>
    row.runtimeConfigurationDigest = update.configurationDigest

/-- One element of `update_harness_runtime_availability`, with the harnesses
of the elements before it. -/
def publishReadiness (accepted : HarnessId → Option ℕ)
    (state : CatalogDatabase × List HarnessId)
    (update : HarnessRuntimeAvailabilityUpdate) :
    CatalogResult (CatalogDatabase × List HarnessId) := do
  let (db, seen) := state
  forSome update.providerConnections fun connections => do
    let authorized ←
      db.readinessAuthorized library update.harnessId connections
    require (authorized = true)
      (.invalid "provider_connection_superseded"
        "No current eligible provider route authorizes readiness.")
  require (update.harnessId ∉ seen ∧ update.generation ≠ 0)
    (.invalid "harness_readiness_invalid"
      "Harness readiness updates require unique harnesses and a positive generation.")
  require (∀ generation ∈ accepted update.harnessId,
      generation ≤ update.generation)
    (.invalid "harness_readiness_superseded"
      "Harness readiness came from an older readiness evaluation than one already published.")
  let reason ← recordedReason update
  let row ← orThrow (db.measuredRow update)
    (.invalid "harness_readiness_stale"
      "Harness readiness was measured for a stale runtime configuration.")
  pure ({ db with
      harnesses := db.harnesses.put update.harnessId
        { row with
          available := update.available
          unavailableReason := reason
          readinessUpdateDue := false } },
    update.harnessId :: seen)

/-- The generations accepted once a batch is committed. -/
def acceptedAfter (accepted : HarnessId → Option ℕ)
    (updates : List HarnessRuntimeAvailabilityUpdate) : HarnessId → Option ℕ :=
  updates.foldl
    (fun accepted update =>
      Function.update accepted update.harnessId (some update.generation))
    accepted

/-- `update_harness_runtime_availability`: the rows and the accepted
generations after the batch. -/
def updateHarnessRuntimeAvailability (accepted : HarnessId → Option ℕ)
    (updates : List HarnessRuntimeAvailabilityUpdate) :
    CatalogResult (CatalogDatabase × (HarnessId → Option ℕ)) := do
  let (db, _) ← updates.foldlM (publishReadiness library accepted) (db, [])
  pure (db, acceptedAfter accepted updates)

end CatalogDatabase

end RelayerGraph
