import RelayerGraph.Catalog.Families

/-!
# Providers

What the store does with a provider: it is created with its first catalog, a
refresh or a lifecycle event publishes another catalog under the connection
generation it started with, and its definition goes from active over removal
pending to tombstoned.
-/

namespace RelayerGraph

open Foundation Checked

variable (library : CatalogLibrary)

namespace CatalogDatabase

variable (db : CatalogDatabase)

/-! ## Creating a provider -/

/-- `validate_provider_lifecycle_shape`. -/
def validateProviderLifecycleShape (definition : ProviderDefinition) :
    CatalogResult Unit :=
  let valid : Bool :=
    match definition.lifecycleState with
    | .active | .removalPending => definition.removedAt.isNone
    | .tombstoned =>
        (definition.removedAt.any fun removed => !isBlank removed) &&
          definition.credentialReference.isNone
  require (valid = true)
    (.invalid "provider_lifecycle_shape_invalid"
      "Provider lifecycle metadata is inconsistent.")

/-- Insert the models of a first catalog, none of them twice. -/
def insertModels (provider : ProviderId) (models : List CatalogModelSnapshot) :
    CatalogResult CatalogDatabase :=
  models.foldlM
    (fun (state : CatalogDatabase) model => do
      require (state.models.get? (provider, model.id) = none)
        (.constraint "provider_models")
      pure { state with
        models := state.models.put (provider, model.id)
          model.toProviderModelRow })
    db

/-- `create_provider_with_catalog`. -/
def createProviderWithCatalog (definition : ProviderDefinition)
    (snapshot : ProviderCatalogSnapshot)
    (managedPolicy : Option FamilyPolicyReference) (now : String) :
    CatalogResult CatalogDatabase := do
  validateProviderLifecycleShape definition
  require (db.providers.get? definition.id = none)
    (.invalid "provider_definition_exists"
      "Provider definition already exists.")
  let db ← db.putProvider definition.id
    { label := definition.label
      connected := snapshot.connected
      unavailableReason := snapshot.unavailableReason
      refreshedAt := now
      adapterId := definition.adapterId
      accessContract := definition.accessContract
      endpoint := definition.endpoint
      credentialReference := definition.credentialReference
      lifecycleState := .active
      removedAt := none
      connectionGeneration := 1 }
  let db ← db.insertModels definition.id snapshot.models
  match snapshot.systemFamily, managedPolicy with
  | some systemFamily, some policy =>
      if systemFamily.modelIds = [] then
        pure db
      else do
        let (_, db) ←
          db.replaceSystemFamily library snapshot systemFamily policy false now
        pure db
  | _, _ => pure db

/-- The checks `ProductService::create_provider_with_catalog` makes before it
calls the store. -/
def admitsProvider (definition : ProviderDefinition)
    (snapshot : ProviderCatalogSnapshot) : CatalogResult Unit := do
  require (definition.id = snapshot.providerId ∧
      definition.lifecycleState = .active)
    (.invalid "provider_definition_invalid"
      "Staged provider identity must match its catalog and be active.")
  require (snapshot.connected = true)
    (.invalid "provider_disconnected"
      "A provider must be connected before it can be created.")

/-! ## Publishing a catalog -/

def modelNotReported : UnavailableReason :=
  ⟨"model_not_reported", "The provider no longer reports this model."⟩

/-- The models after a publish: those not reported are unavailable. -/
def publishModels (provider : ProviderId) (models : List CatalogModelSnapshot) :
    CatalogDatabase :=
  { db with
    models := models.foldl
      (fun table model =>
        table.put (provider, model.id) model.toProviderModelRow)
      (db.models.mapRows fun key row =>
        if key.1 = provider then
          { row with
            available := false
            unavailableReason := some modelNotReported }
        else
          row) }

/-- The provider row a publish writes. -/
def publishedProvider (snapshot : ProviderCatalogSnapshot)
    (stamp : ProviderConnectionStamp) (now : String) (row : ProviderRow) :
    ProviderRow :=
  { row with
    connectionGeneration := row.connectionGeneration +
      if stamp.event.isSome then 1 else 0
    connected := snapshot.connected
    unavailableReason := snapshot.unavailableReason
    refreshedAt := now }

/-- The snapshot says that no model is eligible for execution. -/
def reportsNoEligibleModels (snapshot : ProviderCatalogSnapshot) : Bool :=
  snapshot.unavailableReason.any fun reason =>
    reason.code = "provider_no_eligible_execution_models"

/-- What a publish does to the families: replace the managed family by the
one the catalog names, keep it for recovery when no model is eligible, or
nothing. -/
def publishFamilies (snapshot : ProviderCatalogSnapshot)
    (managedPolicy : Option FamilyPolicyReference) (now : String) :
    CatalogResult CatalogDatabase :=
  match managedPolicy with
  | none => pure db
  | some policy =>
      match snapshot.systemFamily.filter fun family => family.modelIds ≠ [] with
      | some systemFamily => do
          let (_, db) ←
            db.replaceSystemFamily library snapshot systemFamily policy true now
          pure db
      | none =>
          if reportsNoEligibleModels snapshot then
            db.tombstoneManagedProviderFamilies snapshot.providerId now
              .noEligibleModels
          else
            pure db

/-- `publish_provider_catalog`. -/
def publishProviderCatalog (snapshot : ProviderCatalogSnapshot)
    (stamp : ProviderConnectionStamp)
    (managedPolicy : Option FamilyPolicyReference) (now : String) :
    CatalogResult CatalogDatabase := do
  let row ← orThrow (db.providers.get? snapshot.providerId)
    (.invalid "provider_unknown" "Unknown provider definition.")
  require (row.lifecycleState = .active)
    (.invalid "provider_not_active"
      "Only active provider definitions can publish model catalogs.")
  require (row.connectionGeneration = stamp.generation)
    (.invalid "provider_connection_superseded"
      "The provider connection changed after this catalog result started.")
  let db := { db with
    providers := db.providers.put snapshot.providerId
      (publishedProvider snapshot stamp now row) }
  let db := db.publishModels snapshot.providerId snapshot.models
  db.publishFamilies library snapshot managedPolicy now

/-! ## Removing a provider -/

/-- `guard_provider_removal`: the defaults survive the removal. -/
def guardProviderRemoval (provider : ProviderId) : CatalogResult Unit := do
  require (db.preferences.defaultProvider ≠ provider)
    (.invalid "default_provider_removal_blocked"
      "Change the default provider before removing it.")
  let preserved :=
    match db.preferences.defaultFamily with
    | none => true
    | some family =>
        (db.members family).any fun member =>
          decide (member.providerId ≠ provider) && member.orchestrates &&
            db.validSelection library
              ⟨db.preferences.defaultHarness, family, member.providerId,
                member.modelId⟩
  require (preserved = true)
    (.invalid "default_family_provider_removal_blocked"
      "Change the default model family before removing this provider.")

/-- An attempt on the provider is running and still waited on. -/
def executionRunning (provider : ProviderId) : Bool :=
  db.attempts.entries.any fun entry =>
    decide (entry.2.providerId = provider) &&
      decide (entry.2.outcome = .running) && entry.2.nativeWaitEndedAt.isNone

/-- The steps a definition's lifecycle may take. -/
def lifecycleTransition (old new : ProviderLifecycle) : Bool :=
  decide (old = new) ||
    (decide (old = .active) && decide (new = .removalPending)) ||
    (decide (old = .removalPending) && decide (new = .tombstoned))

/-- A definition of a stored provider. -/
def syncExisting (definition : ProviderDefinition) (old : ProviderRow)
    (now : String) : CatalogResult CatalogDatabase := do
  require (old.adapterId = "legacy" ∨
      (old.adapterId = definition.adapterId ∧
        old.endpoint = definition.endpoint ∧
        old.accessContract = definition.accessContract))
    (.invalid "provider_identity_immutable"
      "Provider adapter, endpoint, and access contract cannot be changed.")
  require (lifecycleTransition old.lifecycleState definition.lifecycleState
      = true)
    (.invalid "provider_lifecycle_invalid"
      "Provider lifecycle transition is invalid.")
  let db ←
    if old.lifecycleState = .active ∧
        definition.lifecycleState = .removalPending then do
      db.guardProviderRemoval library definition.id
      db.tombstoneManagedProviderFamilies definition.id now .providerRemoval
    else
      pure db
  onlyIf (old.lifecycleState = .removalPending ∧
      definition.lifecycleState = .tombstoned)
    (require (db.executionRunning definition.id = false)
      (.invalid "provider_execution_drain_incomplete"
        "Provider removal cannot finish while an execution attempt is running."))
  db.putProvider definition.id
    { old with
      adapterId := definition.adapterId
      label := definition.label
      endpoint := definition.endpoint
      accessContract := definition.accessContract
      credentialReference := definition.credentialReference
      lifecycleState := definition.lifecycleState
      removedAt := definition.removedAt
      connectionGeneration := old.connectionGeneration +
        if old.lifecycleState ≠ definition.lifecycleState then 1 else 0 }

def providerNotConnected : UnavailableReason :=
  ⟨"provider_disconnected", "The provider is not connected."⟩

/-- A definition of a provider the store does not know. -/
def syncNew (definition : ProviderDefinition) :
    CatalogResult CatalogDatabase := do
  require (definition.lifecycleState = .active)
    (.invalid "provider_lifecycle_invalid"
      "New provider definitions must be active.")
  db.putProvider definition.id
    { label := definition.label
      connected := false
      unavailableReason := some providerNotConnected
      refreshedAt := "0"
      adapterId := definition.adapterId
      accessContract := definition.accessContract
      endpoint := definition.endpoint
      credentialReference := definition.credentialReference
      lifecycleState := .active
      removedAt := none
      connectionGeneration := 1 }

def syncDefinition (now : String) (definition : ProviderDefinition) :
    CatalogResult CatalogDatabase := do
  validateProviderLifecycleShape definition
  match db.providers.get? definition.id with
  | some old => db.syncExisting library definition old now
  | none => db.syncNew definition

/-- `sync_provider_definitions`, one transaction. -/
def syncProviderDefinitions (definitions : List ProviderDefinition)
    (now : String) : CatalogResult CatalogDatabase :=
  definitions.foldlM
    (fun (state : CatalogDatabase) => state.syncDefinition library now) db

end CatalogDatabase

end RelayerGraph
