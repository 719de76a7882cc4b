import RelayerGraph.Catalog.Records
import RelayerGraph.Foundation.Checked
import RelayerGraph.Graph.Drafts

/-!
# The catalog database

The tables of the product store that the catalog operations read or write,
and the statements that meet a constraint of the schema: a family's position,
its managed policy and its name among the active families are unique, and a
family's members are models the store knows.
-/

namespace RelayerGraph

open Foundation Checked

/-- The errors of a catalog operation. -/
inductive CatalogFailure
  | invalid (code message : String)
  | selection (code message : String) (command : ValidateModelSelectionCommand)
  | incompatibleSchema (message : String)
  | rowNotFound
  | constraint (name : String)
deriving DecidableEq

/-- The failures that `StorageError::Catalog` carries. -/
def CatalogFailure.isCatalog : CatalogFailure → Bool
  | .invalid .. | .selection .. => true
  | _ => false

abbrev CatalogResult := Except CatalogFailure

structure CatalogDatabase where
  providers : Keyed ProviderId ProviderRow
  models : Keyed (ProviderId × ModelId) ProviderModelRow
  families : Table CatalogTable.modelFamily FamilyRow
  members : ModelFamilyId → List ModelFamilyMember
  harnesses : Keyed HarnessId HarnessRow
  providerCompatibility : List ProviderCompatibilityRow
  modelCompatibility : List ModelCompatibilityRow
  modelRules : List ModelRuleRow
  preferences : ModelPreferences
  threads : Keyed ThreadId CatalogThreadRow
  turns : Table CatalogTable.interaction TurnRow
  invocations : List TurnInvocationRow
  submittedInputs : TurnId → Option SubmittedInputState
  executionPhases : TurnId → Option CompletionExecutionPhase
  stopRequests : TurnId → Bool
  attempts : Table CatalogTable.attempt TurnAttemptRow

/-- A text under `COLLATE NOCASE`. -/
def nocase (text : String) : List Char :=
  text.toList.map Char.toLower

/-- The row's text without surrounding whitespace, as a string. -/
def trimmed (text : String) : String :=
  String.ofList (trimText text)

namespace CatalogDatabase

/-! ## The unique indexes of `model_families` -/

/-- Both rows have the managed policy of one provider. -/
def sameManagedPolicy (row other : FamilyRow) : Bool :=
  row.managedProviderId.isSome && row.policy.isSome &&
    decide (row.managedProviderId = other.managedProviderId) &&
    decide (row.policy = other.policy)

/-- Both rows are active and share their name. -/
def sameActiveName (row other : FamilyRow) : Bool :=
  decide (row.lifecycleState = .active) &&
    decide (other.lifecycleState = .active) &&
    decide (nocase row.name = nocase other.name)

/-- A unique index of the table admits only one of the two rows. -/
def clashes (row other : FamilyRow) : Bool :=
  decide (row.position = other.position) || sameManagedPolicy row other ||
    (row.systemKey.isSome && decide (row.systemKey = other.systemKey)) ||
    sameActiveName row other

/-- Some row but the given one clashes with it. -/
def clashesElsewhere (families : Table CatalogTable.modelFamily FamilyRow)
    (id : ModelFamilyId) (row : FamilyRow) : Bool :=
  families.entries.any fun entry => entry.1 ≠ id && clashes row entry.2

variable (db : CatalogDatabase)

/-- `INSERT INTO model_families`: the id of the new row with the store. -/
def insertFamily (row : FamilyRow) :
    CatalogResult (ModelFamilyId × CatalogDatabase) := do
  require (clashesElsewhere db.families db.families.nextKey row = false)
    (.constraint "model_families")
  pure (db.families.nextKey, { db with families := db.families.insert row })

/-- `UPDATE model_families … WHERE id=?`: at most one row changes. -/
def updateFamily (id : ModelFamilyId) (change : FamilyRow → FamilyRow) :
    CatalogResult CatalogDatabase :=
  match db.families.get? id with
  | none => pure db
  | some row => do
      require (clashesElsewhere db.families id (change row) = false)
        (.constraint "model_families")
      pure { db with
        families := db.families.mapRows fun key old =>
          if key = id then change old else old }

/-- An `UPDATE model_families` over the rows a condition selects, of columns
no unique index names. -/
def updateFamiliesWhere (condition : ModelFamilyId → FamilyRow → Bool)
    (change : FamilyRow → FamilyRow) : CatalogDatabase :=
  { db with
    families := db.families.mapRows fun key old =>
      if condition key old then change old else old }

/-- `COALESCE(MAX(position),-1)+1`. -/
def nextPosition : ℕ :=
  (db.families.entries.map fun entry => entry.2.position + 1).foldl max 0

/-! ## Family members -/

/-- `INSERT INTO model_family_members`, with the checks of its table. -/
def insertMember (id : ModelFamilyId) (position : ℕ)
    (member : ModelFamilyMember) : CatalogResult CatalogDatabase := do
  require (position < 5) (.constraint "model_family_members.position")
  require ((db.models.get? (member.providerId, member.modelId)).isSome)
    (.constraint "model_family_members.provider_models")
  require ((db.members id).all fun other =>
      other.position ≠ position &&
        (other.providerId ≠ member.providerId ||
          other.modelId ≠ member.modelId))
    (.constraint "model_family_members")
  pure { db with
    members := Function.update db.members id
      (db.members id ++ [{ member with position := position }]) }

/-- `replace_family_members`. -/
def replaceFamilyMembers (id : ModelFamilyId)
    (members : List ModelFamilyMember) : CatalogResult CatalogDatabase :=
  members.zipIdx.foldlM
    (fun (state : CatalogDatabase) entry =>
      state.insertMember id entry.2 entry.1)
    { db with members := Function.update db.members id [] }

/-! ## Providers -/

/-- A live row bears the label already, or a row the credential. -/
def providerClashes (id : ProviderId) (row : ProviderRow) : Bool :=
  db.providers.rows.any fun entry =>
    entry.1 ≠ id &&
      ((decide (row.lifecycleState ≠ .tombstoned) &&
          decide (entry.2.lifecycleState ≠ .tombstoned) &&
          decide (nocase row.label = nocase entry.2.label)) ||
        (row.credentialReference.isSome &&
          decide (row.credentialReference = entry.2.credentialReference)))

/-- Store a provider row, when the unique indexes admit it. -/
def putProvider (id : ProviderId) (row : ProviderRow) :
    CatalogResult CatalogDatabase := do
  require (db.providerClashes id row = false) (.constraint "model_providers")
  pure { db with providers := db.providers.put id row }

/-! ## What an operation reads -/

/-- The family the default names, with its row. -/
def defaultFamilyRow : Option (ModelFamilyId × FamilyRow) := do
  let id ← db.preferences.defaultFamily
  let row ← db.families.get? id
  pure (id, row)

/-- Connected and not being removed. -/
def providerReady (id : ProviderId) : Bool :=
  (db.providers.get? id).any fun row =>
    row.connected && decide (row.lifecycleState = .active)

end CatalogDatabase

end RelayerGraph
