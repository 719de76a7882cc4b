import RelayerGraph.Catalog.Selection

/-!
# Model families

The operations on families: a user creates, changes, deletes and reorders
them, and a provider's catalog replaces or retires the family managed for it.
Every one of them leaves the positions contiguous, most by renumbering all
families in two passes.
-/

namespace RelayerGraph

open Foundation Checked

variable (library : CatalogLibrary)

namespace CatalogDatabase

/-! ## Positions -/

/-- `UPDATE model_families SET position=? WHERE id=?`, one row, under the
unique index of the column. -/
def setPosition (position : ℕ) (id : ModelFamilyId)
    (families : Table CatalogTable.modelFamily FamilyRow) :
    CatalogResult (Table CatalogTable.modelFamily FamilyRow) := do
  require ((families.get? id).isSome →
      families.entries.all (fun entry =>
        entry.1 = id || entry.2.position ≠ position) = true)
    (.constraint "model_families.position")
  pure (families.mapRows fun key row =>
    if key = id then { row with position := position } else row)

/-- The ids of the rows in one lifecycle state, `ORDER BY position,id`. -/
def orderedIds (families : Table CatalogTable.modelFamily FamilyRow)
    (state : FamilyLifecycle) : List ModelFamilyId :=
  ((families.entries.filter fun entry =>
      entry.2.lifecycleState = state).insertionSort
    fun entry other => entry.2.position < other.2.position ∨
      entry.2.position = other.2.position ∧ entry.1.val ≤ other.1.val).map
    Prod.fst

/-- The ids the second pass numbers, each with its position. -/
def assignPositions (start : ℕ) (ids : List ModelFamilyId)
    (families : Table CatalogTable.modelFamily FamilyRow) :
    CatalogResult (Table CatalogTable.modelFamily FamilyRow) :=
  (ids.zipIdx start).foldlM
    (fun families entry => setPosition entry.2 entry.1 families) families

/-- `UPDATE model_families SET position=position+?`, row by row. -/
def shiftPositions (offset : ℕ)
    (families : Table CatalogTable.modelFamily FamilyRow) :
    CatalogResult (Table CatalogTable.modelFamily FamilyRow) :=
  families.entries.foldlM
    (fun families entry =>
      setPosition (entry.2.position + offset) entry.1 families) families

variable (db : CatalogDatabase)

/-- `rewrite_family_positions`: every row moves out of the way first, the
active families are numbered from 0 and the tombstoned ones after them. -/
def rewriteFamilyPositions (activeIds : List ModelFamilyId) :
    CatalogResult CatalogDatabase := do
  let tombstoneIds := orderedIds db.families .tombstoned
  let offset := db.nextPosition + db.families.entries.length
  let shifted ← shiftPositions offset db.families
  let numbered ← assignPositions 0 activeIds shifted
  let families ← assignPositions activeIds.length tombstoneIds numbered
  pure { db with families := families }

/-- `compact_family_positions`. -/
def compactFamilyPositions : CatalogResult CatalogDatabase :=
  db.rewriteFamilyPositions (orderedIds db.families .active)

/-! ## The families of a user -/

/-- `create_model_family`. -/
def createModelFamily (command : CreateModelFamilyCommand) :
    CatalogResult CatalogDatabase := do
  let (id, db) ← db.insertFamily
    { name := command.name
      kind := .custom
      systemKey := none
      enabled := command.enabled
      position := db.nextPosition
      revision := 1
      managedProviderId := none
      policy := none
      lifecycleState := .active
      removedAt := none
      tombstoneCause := none }
  let db ← db.replaceFamilyMembers id command.members
  db.compactFamilyPositions

/-- The row an update writes: its revision counts a changed switch and a
rewritten membership. -/
def updatedFamily (command : UpdateModelFamilyCommand) (row : FamilyRow) :
    FamilyRow :=
  if row.lifecycleState = .active then
    { row with
      name := command.name.getD row.name
      revision := row.revision +
        if row.enabled ≠ command.enabled ∨ command.members.isSome then 1 else 0
      enabled := command.enabled }
  else
    row

/-- `update_model_family`. -/
def updateModelFamily (command : UpdateModelFamilyCommand) :
    CatalogResult CatalogDatabase := do
  require (command.enabled = false →
      db.preferences.defaultFamily ≠ some command.id)
    (.invalid "default_family_disable_blocked"
      "Change the default model family before disabling it.")
  let db ← db.updateFamily command.id (updatedFamily command)
  let db ←
    match command.members with
    | some members => db.replaceFamilyMembers command.id members
    | none => pure db
  require ((db.families.get? command.id).isSome) .rowNotFound
  pure db

/-- `delete_model_family`: whether a family was deleted, with the store. -/
def deleteModelFamily (id : ModelFamilyId) (now : String) :
    CatalogResult (Bool × CatalogDatabase) := do
  let deletable (row : FamilyRow) : Bool :=
    decide (row.kind = .custom) && decide (row.lifecycleState = .active) &&
      decide (db.preferences.defaultFamily ≠ some id)
  let deleted := (db.families.get? id).any deletable
  let db := db.updateFamiliesWhere
    (fun key row => decide (key = id) && deletable row)
    fun row => { row with
      lifecycleState := .tombstoned
      enabled := false
      removedAt := some now }
  let db ← db.compactFamilyPositions
  pure (deleted, db)

/-- `reorder_model_families`. -/
def reorderModelFamilies (familyIds : List ModelFamilyId) :
    CatalogResult CatalogDatabase := do
  require (familyIds.Nodup ∧
      (familyIds.all fun id => (db.families.get? id).any fun row =>
        decide (row.lifecycleState = .active)) = true ∧
      ((db.families.select fun _ row =>
        decide (row.lifecycleState = .active)).all
          fun id => familyIds.contains id) = true)
    (.invalid "model_family_order_invalid"
      "familyIds must contain every model family exactly once.")
  db.rewriteFamilyPositions familyIds

/-! ## What Settings admits

The service reads the family and checks the command before it calls the
store.  A family never changes its kind, so the kind it read is the kind at
the time of the call. -/

/-- The checks of `ProductService::update_model_family` on the family it
reads. -/
def admitsUpdate (command : UpdateModelFamilyCommand) : CatalogResult Unit := do
  let row ← orThrow (db.families.get? command.id) .rowNotFound
  match row.kind with
  | .system =>
      require (command.name = none ∧ command.members = none)
        (.invalid "system_family_read_only"
          "System model-family names and membership are read-only.")
  | .custom => do
      let _ ← validateFamily library (command.name.getD row.name)
        (command.members.getD (db.members command.id))
      pure ()

/-! ## Managed families -/

/-- `assign_managed_orchestrator`: the first member orchestrates. -/
def assignManagedOrchestrator (members : List ModelFamilyMember) :
    List ModelFamilyMember :=
  members.mapIdx fun index member =>
    { member with
      roles := if index = 0 then [ModelFamilyRole.orchestrator] else [] }

/-- The snapshot reports the model visible and available. -/
def reportsModel (snapshot : ProviderCatalogSnapshot) (modelId : ModelId) :
    Bool :=
  snapshot.models.any fun model =>
    decide (model.id = modelId) && model.visible && model.available

/-- `retain_unavailable_managed_orchestrator`: an orchestrator the snapshot
does not report keeps its place at the head of the family. -/
def retainUnavailableManagedOrchestrator (members : List ModelFamilyMember)
    (existing : List ModelFamilyMember) (snapshot : ProviderCatalogSnapshot) :
    List ModelFamilyMember :=
  match existing.find? ModelFamilyMember.orchestrates with
  | none => members
  | some orchestrator =>
      if reportsModel snapshot orchestrator.modelId then
        members
      else
        let others := members.filter fun member =>
          member.providerId ≠ orchestrator.providerId ∨
            member.modelId ≠ orchestrator.modelId
        let retained : List ModelFamilyMember :=
          (⟨[], orchestrator.providerId, orchestrator.modelId, 0⟩ ::
            others).take maxModelsPerFamily
        assignManagedOrchestrator
          (retained.mapIdx fun index member =>
            { member with position := index })

/-- The members a catalog names, in its order. -/
def snapshotMembers (providerId : ProviderId) (modelIds : List ModelId) :
    List ModelFamilyMember :=
  assignManagedOrchestrator
    (modelIds.mapIdx fun index modelId => ⟨[], providerId, modelId, index⟩)

/-- A candidate name: the preferred one, then numbered ones that fit. -/
def candidateName (preferred : String) (ordinal : ℕ) : String :=
  if ordinal = 1 then
    preferred
  else
    let suffix := (" (" ++ toString ordinal ++ ")").toList
    let stem := preferred.toList.take (80 - suffix.length)
    String.ofList
      ((stem.reverse.dropWhile isWhitespace).reverse ++ suffix)

/-- Some other active family bears the name. -/
def nameTaken (name : String) (except : Option ModelFamilyId) : Bool :=
  db.families.entries.any fun entry =>
    decide (entry.2.lifecycleState = .active) &&
      decide (nocase entry.2.name = nocase name) &&
      decide (some entry.1 ≠ except)

/-- `collision_free_managed_family_name`, its loop given a number of turns.
The second candidate may repeat the first; the others are all different, so
with two turns more than there are families some candidate is free. -/
def collisionFreeName (preferred : String) (except : Option ModelFamilyId) :
    ℕ → ℕ → CatalogResult String
  | 0, _ =>
      .error (.invalid "model_family_name_exhausted"
        "No unique managed model-family name is available.")
  | turns + 1, ordinal =>
      if db.nameTaken (candidateName preferred ordinal) except then
        collisionFreeName preferred except turns (ordinal + 1)
      else
        pure (candidateName preferred ordinal)

/-- A legacy system family whose members all belong to the provider. -/
def soleLegacyFamily (provider : ProviderId) (id : ModelFamilyId)
    (row : FamilyRow) : Bool :=
  decide (row.kind = .system) && decide (row.managedProviderId = none) &&
    decide (row.lifecycleState = .active) &&
    ((db.members id).any fun member => member.providerId = provider) &&
    ((db.members id).all fun member => member.providerId = provider)

/-- The family of a managed policy. -/
def managedFamily (provider : ProviderId) (policy : FamilyPolicyReference) :
    Option ModelFamilyId :=
  (db.families.select fun _ row =>
    decide (row.managedProviderId = some provider) &&
      decide (row.policy = some policy)).head?

def retired (now : String) (row : FamilyRow) : FamilyRow :=
  { row with
    lifecycleState := .tombstoned
    enabled := false
    removedAt := some now }

/-- What a refresh makes of the stored family of its policy: it is active
again, and enabled unless it is off by the user's choice. -/
def refreshedFamily (name key : String) (changed : Bool) (row : FamilyRow) :
    FamilyRow :=
  { row with
    name := name
    revision := row.revision + if changed then 1 else 0
    systemKey := some key
    enabled :=
      if row.lifecycleState = .active ∨
          row.tombstoneCause = some .noEligibleModels then
        row.enabled
      else
        true
    lifecycleState := .active
    tombstoneCause := none
    removedAt := none }

/-- `replace_system_family` moves the default: it is a retired legacy family,
or managed by the provider, or unset while no other ready provider is the
chosen one. -/
def reconcilesDefault (legacyDefault : Bool) (provider : ProviderId) : Bool :=
  legacyDefault ||
    (db.defaultFamilyRow.any fun family =>
      decide (family.2.kind = .system) &&
        decide (family.2.managedProviderId = some provider)) ||
    (db.preferences.defaultFamily.isNone &&
      (decide (db.preferences.defaultProvider = provider) ||
        !db.providerReady db.preferences.defaultProvider))

/-- The stored family of the policy, or a new one, with its members. -/
def upsertManagedFamily (snapshot : ProviderCatalogSnapshot)
    (systemFamily : SystemFamilySnapshot) (policy : FamilyPolicyReference)
    (members : List ModelFamilyMember) :
    CatalogResult (ModelFamilyId × List ModelFamilyMember ×
      CatalogDatabase) := do
  let key := snapshot.providerId ++ ":" ++ policy.id ++ "@" ++
    toString policy.version
  let stored := db.managedFamily snapshot.providerId policy
  let name ← db.collisionFreeName systemFamily.name stored
    (db.families.rows.length + 2) 1
  match stored with
  | some id => do
      let existing := db.members id
      let members :=
        retainUnavailableManagedOrchestrator members existing snapshot
      let _ ← validateFamily library systemFamily.name members
      let changed := decide
        (existing.map (fun member =>
            (member.providerId, member.modelId, member.roles)) ≠
          members.map fun member =>
            (member.providerId, member.modelId, member.roles))
      let db ← db.updateFamily id (refreshedFamily name key changed)
      pure (id, members, db)
  | none => do
      let (id, db) ← db.insertFamily
        { name := name
          kind := .system
          systemKey := some key
          enabled := true
          position := db.nextPosition
          revision := 1
          managedProviderId := some snapshot.providerId
          policy := some policy
          lifecycleState := .active
          removedAt := none
          tombstoneCause := none }
      pure (id, members, db)

/-- `replace_system_family`: the family with the store. -/
def replaceSystemFamily (snapshot : ProviderCatalogSnapshot)
    (systemFamily : SystemFamilySnapshot) (policy : FamilyPolicyReference)
    (reconcileManagedDefault : Bool) (now : String) :
    CatalogResult (ModelFamilyId × CatalogDatabase) := do
  let provider := snapshot.providerId
  let members := snapshotMembers provider systemFamily.modelIds
  let _ ← validateFamily library systemFamily.name members
  let legacyDefault := db.defaultFamilyRow.any fun family =>
    db.soleLegacyFamily provider family.1 family.2
  let db := db.updateFamiliesWhere (db.soleLegacyFamily provider) (retired now)
  let db := db.updateFamiliesWhere
    (fun _ row => decide (row.managedProviderId = some provider) &&
      (row.policy.any fun stored => decide (stored ≠ policy)) &&
      decide (row.lifecycleState = .active))
    (retired now)
  let (id, members, db) ←
    db.upsertManagedFamily library snapshot systemFamily policy members
  let db := db.updateFamiliesWhere
    (fun key row => decide (row.managedProviderId = some provider) &&
      decide (key ≠ id))
    fun row => { row with tombstoneCause := none }
  let db ← db.replaceFamilyMembers id members
  let db ← db.compactFamilyPositions
  if reconcileManagedDefault ∧
      db.reconcilesDefault legacyDefault provider = true then
    pure (id, { db with
      preferences := { db.preferences with
        defaultFamily := some id
        defaultProvider := provider } })
  else
    pure (id, db)

/-- Why a provider's active managed families are tombstoned. -/
inductive ManagedFamilyTombstone
  | noEligibleModels
  | providerRemoval
deriving DecidableEq

/-- `tombstone_managed_provider_families`. -/
def tombstoneManagedProviderFamilies (provider : ProviderId) (now : String) :
    ManagedFamilyTombstone → CatalogResult CatalogDatabase
  | .noEligibleModels =>
      (db.updateFamiliesWhere
        (fun _ row => decide (row.managedProviderId = some provider) &&
          decide (row.lifecycleState = .active))
        fun row => { row with
          lifecycleState := .tombstoned
          tombstoneCause := some .noEligibleModels
          removedAt := some now }).compactFamilyPositions
  | .providerRemoval =>
      ((db.updateFamiliesWhere
          (fun _ row => decide (row.managedProviderId = some provider) &&
            decide (row.lifecycleState = .active))
          fun row => { row with
            lifecycleState := .tombstoned
            enabled := false
            tombstoneCause := none
            removedAt := some now }).updateFamiliesWhere
        (fun _ row => decide (row.managedProviderId = some provider))
        fun row => { row with
          enabled := false
          tombstoneCause := none }).compactFamilyPositions

end CatalogDatabase

end RelayerGraph
