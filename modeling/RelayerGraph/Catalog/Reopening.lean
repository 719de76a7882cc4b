import RelayerGraph.Catalog.ProviderEffects
import RelayerGraph.Catalog.StartEffects

/-!
# Every catalog reopens

A start refuses a store whose catalog rows are inconsistent.  No operation
leaves such a store: families are numbered without a gap, a family has at most
five members, a restricted compatibility list has models and its preferred one
among them, and a model identity is stored completely or not at all.
-/

namespace RelayerGraph

open Foundation Checked

namespace CatalogDatabase

/-! ## The check of a start -/

section Check

variable (db : CatalogDatabase)

/-- The harness lists a model of the provider that the condition admits. -/
def listsModel (row : ProviderCompatibilityRow)
    (admits : ModelId → Bool) : Bool :=
  db.modelCompatibility.any fun model =>
    decide (model.harness = row.harness) &&
      decide (model.provider = row.provider) && admits model.modelId

/-- A restricted list is empty, or excludes its preferred model. -/
def invalidHarnessSubset (row : ProviderCompatibilityRow) : Bool :=
  (!row.allModels && !db.listsModel row fun _ => true) ||
    row.preferredModelId.any fun preferred =>
      !row.allModels && !db.listsModel row fun modelId => modelId = preferred

/-- An identity that is neither absent nor complete. -/
def partialModelIdentity (row : TurnRow) : Bool :=
  !(row.modelProviderId.isNone && row.providerModelId.isNone &&
      row.modelFamilyId.isNone ||
    row.modelProviderId.isSome && row.providerModelId.isSome &&
      row.modelFamilyId.any fun family => 0 < family)

/-- `validate_catalog_rows`. -/
def validateCatalogRows : CatalogResult Unit := do
  require ((db.providerCompatibility.any db.invalidHarnessSubset) = false)
    (.incompatibleSchema
      "stored harness model compatibility is empty or excludes its preferred model")
  require ((db.families.entries.any fun entry =>
      5 < (db.members entry.1).length) = false)
    (.incompatibleSchema "stored model family contains more than five models")
  let positions := (db.families.entries.map fun entry =>
    entry.2.position).insertionSort (· ≤ ·)
  require ((positions.zipIdx.any fun entry => entry.1 ≠ entry.2) = false)
    (.incompatibleSchema "stored model family positions must be contiguous")
  require ((db.turns.entries.any fun entry =>
      partialModelIdentity entry.2) = false)
    (.incompatibleSchema
      "stored interaction model family, provider, and model ID must be present together")

end Check

/-! ## The invariant -/

/-- The models a compatibility row needs are listed. -/
def Listed (models : List ModelCompatibilityRow)
    (row : ProviderCompatibilityRow) : Prop :=
  row.allModels = true ∨
    (∃ modelId, ⟨row.harness, row.provider, modelId⟩ ∈ models) ∧
      ∀ preferred, row.preferredModelId = some preferred →
        ⟨row.harness, row.provider, preferred⟩ ∈ models

/-- Families are numbered without a gap and have at most five members. -/
structure Fit (db : CatalogDatabase) : Prop where
  contiguous : Contiguous db.families
  members : ∀ id, (db.members id).length ≤ 5

/-- What a start accepts. -/
structure Reopenable (db : CatalogDatabase) : Prop where
  fit : Fit db
  listed : ∀ row ∈ db.providerCompatibility, Listed db.modelCompatibility row
  identities : ∀ id row, db.turns.get? id = some row → row.Complete

variable {library : CatalogLibrary} {db db' : CatalogDatabase}

theorem invalidHarnessSubset_of_listed {row : ProviderCompatibilityRow}
    (h : Listed db.modelCompatibility row) :
    db.invalidHarnessSubset row = false := by
  rcases h with hall | ⟨⟨modelId, hmem⟩, hpreferred⟩
  · cases hrow : row.preferredModelId <;>
      simp [invalidHarnessSubset, hall, hrow]
  · have hlists : db.listsModel row (fun _ => true) = true :=
      List.any_eq_true.mpr ⟨_, hmem, by simp⟩
    cases hrow : row.preferredModelId with
    | none => simp [invalidHarnessSubset, hlists, hrow]
    | some preferred =>
        have hlisted : db.listsModel row
            (fun modelId => modelId = preferred) = true :=
          List.any_eq_true.mpr ⟨_, hpreferred preferred hrow, by simp⟩
        simp [invalidHarnessSubset, hlists, hrow, hlisted]

theorem partialModelIdentity_of_complete {row : TurnRow} (h : row.Complete) :
    partialModelIdentity row = false := by
  rcases h with hnone | ⟨provider, modelId, family, hpos, hsome⟩
  · simp only [TurnRow.identity, Prod.mk.injEq] at hnone
    simp [partialModelIdentity, hnone]
  · simp only [TurnRow.identity, Prod.mk.injEq] at hsome
    simp [partialModelIdentity, hsome, hpos]

/-- Contiguous positions, in their order, are 0, 1, 2, … -/
theorem sorted_positions (h : Contiguous db.families) :
    (db.families.entries.map fun entry =>
      entry.2.position).insertionSort (· ≤ ·) =
        List.range db.families.entries.length := by
  apply List.Perm.eq_of_sortedLE List.sortedLE_insertionSort
  · exact List.pairwise_le_range.sortedLE
  · exact (List.perm_insertionSort _ _).trans h

/-- The check of a start accepts what the invariant describes. -/
theorem validateCatalogRows_of_reopenable (h : Reopenable db) :
    db.validateCatalogRows = .ok () := by
  have hlisted : (db.providerCompatibility.any
      db.invalidHarnessSubset) = false := by
    rw [List.any_eq_false]
    intro row hrow
    simp [invalidHarnessSubset_of_listed (h.listed row hrow)]
  have hmembers : (db.families.entries.any fun entry =>
      5 < (db.members entry.1).length) = false := by
    rw [List.any_eq_false]
    intro entry _
    have hle := h.fit.members entry.1
    simpa using hle
  have hpositions : (((db.families.entries.map fun entry =>
      entry.2.position).insertionSort (· ≤ ·)).zipIdx.any fun entry =>
        entry.1 ≠ entry.2) = false := by
    rw [sorted_positions h.fit.contiguous, List.any_eq_false]
    rintro ⟨position, index⟩ hmem
    have hget := List.mk_mem_zipIdx_iff_getElem?.mp hmem
    have hsame := List.getElem?_eq_some_iff.mp hget
    obtain ⟨hlt, hvalue⟩ := hsame
    simpa using hvalue.symm
  have hidentities : (db.turns.entries.any fun entry =>
      partialModelIdentity entry.2) = false := by
    rw [List.any_eq_false]
    intro entry hentry
    have hcomplete := h.identities _ _ (Table.mem_entries.mp hentry)
    simp [partialModelIdentity_of_complete hcomplete]
  simp only [validateCatalogRows, bind_eq_ok_iff, require_eq_ok_iff]
  exact ⟨(), hlisted, (), hmembers, (), hpositions, hidentities⟩

/-! ## Families and members -/

/-- The next position is the number of rows. -/
theorem nextPosition_of_contiguous (h : Contiguous db.families) :
    db.nextPosition = db.families.entries.length := by
  apply Nat.le_antisymm
  · have hfold : ∀ (bound : ℕ) (positions : List ℕ) (start : ℕ),
        start ≤ bound → (∀ p ∈ positions, p ≤ bound) →
          positions.foldl max start ≤ bound := by
      intro bound positions
      induction positions with
      | nil => intro start hstart _; exact hstart
      | cons head positions ih =>
          intro start hstart hall
          exact ih _ (max_le hstart (hall head List.mem_cons_self))
            fun p hp => hall p (List.mem_cons_of_mem _ hp)
    apply hfold _ _ _ (Nat.zero_le _)
    intro p hp
    obtain ⟨entry, hentry, rfl⟩ := List.mem_map.mp hp
    exact h.lt_length (Table.mem_entries.mp hentry)
  · by_contra hlt
    have hmem : db.nextPosition ∈
        db.families.entries.map fun entry => entry.2.position :=
      h.mem_iff.mpr (List.mem_range.mpr (Nat.lt_of_not_le hlt))
    obtain ⟨entry, hentry, hposition⟩ := List.mem_map.mp hmem
    have hbelow := lt_nextPosition (Table.mem_entries.mp hentry)
    omega

/-- A row at the next position keeps the numbering. -/
theorem contiguous_insert {row : FamilyRow} (h : Contiguous db.families)
    (hposition : row.position = db.nextPosition) :
    Contiguous (db.families.insert row) := by
  unfold Contiguous
  rw [Table.entries_insert, List.map_append, List.length_append,
    List.length_singleton, List.range_succ, List.map_singleton, hposition,
    nextPosition_of_contiguous h]
  exact List.Perm.append_right _ h

/-- An update that moves no row keeps the numbering. -/
theorem contiguous_mapRows {families : FamilyTable}
    {change : ModelFamilyId → FamilyRow → FamilyRow}
    (h : Contiguous families)
    (hchange : ∀ id row, (change id row).position = row.position) :
    Contiguous (families.mapRows change) := by
  have hpositions : ((families.mapRows change).entries.map fun entry =>
      entry.2.position) = families.entries.map fun entry =>
        entry.2.position := by
    simp [hchange]
  unfold Contiguous
  rw [hpositions, Table.entries_mapRows, List.length_map]
  exact h

theorem length_storedMembers (members : List ModelFamilyMember) :
    (storedMembers members).length = members.length := by
  simp [storedMembers]

/-- A membership of at most five is replaced by another. -/
theorem members_update {members : ModelFamilyId → List ModelFamilyMember}
    {id : ModelFamilyId} {stored : List ModelFamilyMember}
    (h : ∀ id, (members id).length ≤ 5) (hstored : stored.length ≤ 5)
    (other : ModelFamilyId) :
    (Function.update members id (storedMembers stored) other).length ≤ 5 := by
  by_cases hother : other = id
  · rw [hother, Function.update_self, length_storedMembers]
    exact hstored
  · rw [Function.update_of_ne hother]
    exact h other

theorem Fit.of_renumbered {ids : List ModelFamilyId}
    (h : Renumbered db ids db') (hmembers : ∀ id, (db.members id).length ≤ 5) :
    Fit db' :=
  ⟨h.contiguous, fun id => by rw [h.members]; exact hmembers id⟩

/-- The operation keeps the families fit and the runtime's tables. -/
def KeepsFit (db db' : CatalogDatabase) : Prop :=
  SameRuntime db db' ∧ (Fit db → Fit db')

theorem KeepsFit.refl (db : CatalogDatabase) : KeepsFit db db :=
  ⟨.refl db, id⟩

theorem KeepsFit.trans {db db' db'' : CatalogDatabase}
    (h : KeepsFit db db') (h' : KeepsFit db' db'') : KeepsFit db db'' :=
  ⟨h.1.trans h'.1, fun hfit => h'.2 (h.2 hfit)⟩

/-- Other providers, models and defaults keep the families fit. -/
theorem keepsFit_of_same
    (providers : Keyed ProviderId ProviderRow)
    (models : Keyed (ProviderId × ModelId) ProviderModelRow)
    (preferences : ModelPreferences) :
    KeepsFit db { db with
      providers := providers
      models := models
      preferences := preferences } :=
  ⟨⟨rfl, rfl, rfl, rfl, rfl, rfl, rfl, rfl, rfl, rfl, rfl⟩,
    fun h => ⟨h.contiguous, h.members⟩⟩

theorem keepsFit_withFamily {name : String} {enabled : Bool}
    {members : List ModelFamilyMember} (hlength : members.length ≤ 5) :
    KeepsFit db (db.withFamily (db.customFamily name enabled) members) :=
  ⟨⟨rfl, rfl, rfl, rfl, rfl, rfl, rfl, rfl, rfl, rfl, rfl⟩,
    fun h => ⟨contiguous_insert h.contiguous rfl,
      members_update h.members hlength⟩⟩

theorem keepsFit_renumbered {ids : List ModelFamilyId}
    (h : Renumbered db ids db') : KeepsFit db db' :=
  ⟨h.sameRuntime, fun hfit => .of_renumbered h hfit.members⟩

theorem keepsFit_mapRows
    (change : ModelFamilyId → FamilyRow → FamilyRow)
    (hchange : ∀ id row, (change id row).position = row.position) :
    KeepsFit db { db with families := db.families.mapRows change } :=
  ⟨⟨rfl, rfl, rfl, rfl, rfl, rfl, rfl, rfl, rfl, rfl, rfl⟩,
    fun h => ⟨contiguous_mapRows h.contiguous hchange, h.members⟩⟩

theorem keepsFit_createModelFamily {command : CreateModelFamilyCommand}
    (hrun : db.createModelFamily command = .ok db') : KeepsFit db db' := by
  obtain ⟨hlength, middle, rfl, hnumbered⟩ := createModelFamily_ok hrun
  exact (keepsFit_withFamily hlength).trans (keepsFit_renumbered hnumbered)

theorem updatedFamily_position (command : UpdateModelFamilyCommand)
    (row : FamilyRow) :
    (updatedFamily command row).position = row.position := by
  unfold updatedFamily
  split <;> rfl

theorem keepsFit_updateModelFamily {command : UpdateModelFamilyCommand}
    (hrun : db.updateModelFamily command = .ok db') : KeepsFit db db' := by
  obtain ⟨-, hlength, rfl⟩ := updateModelFamily_ok hrun
  refine ⟨⟨rfl, rfl, rfl, rfl, rfl, rfl, rfl, rfl, rfl, rfl, rfl⟩, ?_⟩
  intro h
  constructor
  · apply contiguous_mapRows h.contiguous
    intro id row
    split
    · exact updatedFamily_position command row
    · rfl
  · intro id
    cases hmembers : command.members with
    | none =>
        simpa [updatedMembers, hmembers] using h.members id
    | some members =>
        simpa [updatedMembers, hmembers] using
          members_update h.members (hlength members hmembers) id

theorem keepsFit_deleteModelFamily {id : ModelFamilyId} {now : String}
    {deleted : Bool} (hrun : db.deleteModelFamily id now = .ok (deleted, db')) :
    KeepsFit db db' := by
  obtain ⟨middle, rfl, hnumbered⟩ := deleteModelFamily_ok hrun
  refine .trans (keepsFit_mapRows _ ?_) (keepsFit_renumbered hnumbered)
  intro key row
  unfold deletedFamily
  split <;> rfl

theorem tombstonedFamily_position {provider : ProviderId} {now : String}
    (cause : ManagedFamilyTombstone) (row : FamilyRow) :
    (tombstonedFamily provider now cause row).position = row.position := by
  cases cause with
  | noEligibleModels =>
      simp only [tombstonedFamily]
      split <;> rfl
  | providerRemoval =>
      simp only [tombstonedFamily]
      split <;> rfl

theorem keepsFit_tombstone {provider : ProviderId} {now : String}
    {cause : ManagedFamilyTombstone}
    (hrun : db.tombstoneManagedProviderFamilies provider now cause =
      .ok db') : KeepsFit db db' := by
  obtain ⟨middle, rfl, hnumbered⟩ := tombstoneManagedProviderFamilies_ok hrun
  refine .trans (keepsFit_mapRows _ ?_) (keepsFit_renumbered hnumbered)
  intro key row
  exact tombstonedFamily_position cause row

theorem keepsFit_updateFamiliesWhere
    {condition : ModelFamilyId → FamilyRow → Bool}
    {change : FamilyRow → FamilyRow}
    (hchange : ∀ row, (change row).position = row.position) :
    KeepsFit db (db.updateFamiliesWhere condition change) := by
  apply keepsFit_mapRows
  intro id row
  split
  · exact hchange row
  · rfl

theorem keepsFit_upsert {snapshot : ProviderCatalogSnapshot}
    {systemFamily : SystemFamilySnapshot} {policy : FamilyPolicyReference}
    {members stored : List ModelFamilyMember} {id : ModelFamilyId}
    (hrun : db.upsertManagedFamily library snapshot systemFamily policy
      members = .ok (id, stored, db')) : KeepsFit db db' := by
  rcases upsertManagedFamily_ok hrun with
    ⟨name, key, changed, -, -, rfl⟩ | ⟨name, key, -, -, -, rfl⟩
  · apply keepsFit_mapRows
    intro other row
    split <;> rfl
  · exact ⟨⟨rfl, rfl, rfl, rfl, rfl, rfl, rfl, rfl, rfl, rfl, rfl⟩,
      fun h => ⟨contiguous_insert h.contiguous rfl, h.members⟩⟩

theorem keepsFit_replaceSystemFamily {snapshot : ProviderCatalogSnapshot}
    {systemFamily : SystemFamilySnapshot} {policy : FamilyPolicyReference}
    {reconcile : Bool} {now : String} {id : ModelFamilyId}
    (hrun : db.replaceSystemFamily library snapshot systemFamily policy
      reconcile now = .ok (id, db')) : KeepsFit db db' := by
  obtain ⟨stored, upserted, numbered, hupsert, hlength, hnumbered, rfl⟩ :=
    replaceSystemFamily_ok hrun
  have hretired : KeepsFit db
      (db.retiredBefore snapshot.providerId policy now) := by
    unfold retiredBefore
    refine .trans ?_ (keepsFit_updateFamiliesWhere fun _ => rfl)
    exact keepsFit_updateFamiliesWhere fun _ => rfl
  have hbeside : KeepsFit upserted
      (upserted.withoutCauseBeside snapshot.providerId id) :=
    keepsFit_updateFamiliesWhere fun _ => rfl
  have hmembers : KeepsFit
      (upserted.withoutCauseBeside snapshot.providerId id)
      { upserted.withoutCauseBeside snapshot.providerId id with
        members := Function.update upserted.members id
          (storedMembers stored) } :=
    ⟨⟨rfl, rfl, rfl, rfl, rfl, rfl, rfl, rfl, rfl, rfl, rfl⟩,
      fun h => ⟨h.contiguous, members_update h.members hlength⟩⟩
  exact ((((hretired.trans (keepsFit_upsert hupsert)).trans hbeside).trans
    hmembers).trans (keepsFit_renumbered hnumbered)).trans
      (keepsFit_of_same numbered.providers numbered.models _)

theorem keepsFit_createProvider {definition : ProviderDefinition}
    {snapshot : ProviderCatalogSnapshot}
    {policy : Option FamilyPolicyReference} {now : String}
    (hrun : db.createProviderWithCatalog library definition snapshot policy
      now = .ok db') : KeepsFit db db' := by
  obtain ⟨-, row, models, middle, -, hmiddle, hfamily⟩ :=
    createProviderWithCatalog_ok hrun
  have hkept : KeepsFit db middle := by
    rw [hmiddle]
    exact keepsFit_of_same _ models db.preferences
  rcases hfamily with rfl | ⟨systemFamily, stated, id, hreplace⟩
  · exact hkept
  · exact hkept.trans (keepsFit_replaceSystemFamily hreplace)

theorem keepsFit_publish {snapshot : ProviderCatalogSnapshot}
    {stamp : ProviderConnectionStamp}
    {policy : Option FamilyPolicyReference} {now : String}
    (hrun : db.publishProviderCatalog library snapshot stamp policy now =
      .ok db') : KeepsFit db db' := by
  obtain ⟨row, -, -, hfamilies⟩ := publishProviderCatalog_ok hrun
  have hkept : KeepsFit db (db.published snapshot stamp now row) :=
    keepsFit_of_same _ _ db.preferences
  rcases hfamilies with ⟨systemFamily, stated, id, -, -, hreplace⟩ |
    ⟨-, htombstone | rfl⟩
  · exact hkept.trans (keepsFit_replaceSystemFamily hreplace)
  · exact hkept.trans (keepsFit_tombstone htombstone)
  · exact hkept

theorem keepsFit_syncDefinition {definition : ProviderDefinition}
    {now : String}
    (hrun : db.syncDefinition library now definition = .ok db') :
    KeepsFit db db' := by
  simp only [syncDefinition, bind_eq_ok_iff] at hrun
  obtain ⟨_, -, hdefinition⟩ := hrun
  split at hdefinition
  · obtain ⟨-, -, middle, row, -, rfl, hmiddle⟩ := syncExisting_ok hdefinition
    have hkept : KeepsFit db middle := by
      rcases hmiddle with ⟨-, -, -, htombstone⟩ | ⟨-, rfl⟩
      · exact keepsFit_tombstone htombstone
      · exact .refl _
    exact hkept.trans (keepsFit_of_same _ middle.models middle.preferences)
  · obtain ⟨row, -, rfl⟩ := syncNew_ok hdefinition
    exact keepsFit_of_same _ db.models db.preferences

theorem keepsFit_sync {definitions : List ProviderDefinition} {now : String}
    (hrun : db.syncProviderDefinitions library definitions now = .ok db') :
    KeepsFit db db' := by
  refine foldlM_induction (P := fun state _ => KeepsFit db state) ?_
    (.refl db) hrun
  intro state done definition next _ hP hnext
  exact hP.trans (keepsFit_syncDefinition hnext)

theorem keepsFit_completeOnboarding
    {revision : OnboardingProjection → String}
    {command : CompleteProviderOnboardingCommand} {permitted : List HarnessId}
    {now : String}
    (hrun : db.completeProviderOnboarding library revision command permitted
      now = .ok db') : KeepsFit db db' := by
  obtain ⟨snapshot, harness, family, middle, -, -, hfamily, -, -, rfl⟩ :=
    completeProviderOnboarding_ok hrun
  have hkept : KeepsFit db middle := by
    rcases onboardingFamily_ok hfamily with rfl |
      ⟨stated, systemFamily, policy, -, hreplace⟩ |
      ⟨name, members, hlength, -, rfl⟩
    · exact .refl _
    · exact keepsFit_replaceSystemFamily hreplace
    · exact keepsFit_withFamily hlength
  exact hkept.trans (keepsFit_of_same middle.providers middle.models _)

/-! ## Compatibility rows -/

theorem Listed.mono {models models' : List ModelCompatibilityRow}
    {row : ProviderCompatibilityRow} (h : Listed models row)
    (hkept : ∀ model ∈ models, model.harness = row.harness →
      model ∈ models') : Listed models' row := by
  rcases h with hall | ⟨⟨modelId, hmem⟩, hpreferred⟩
  · exact .inl hall
  · right
    refine ⟨⟨modelId, hkept _ hmem rfl⟩, ?_⟩
    intro preferred hrow
    exact hkept _ (hpreferred preferred hrow) rfl

/-- An admitted entry lists what its row needs. -/
theorem listed_of_validated {harness : HarnessId}
    {compatibility : HarnessModelCompatibility}
    (hvalid : validateModelCompatibility compatibility = .ok ()) :
    Listed (compatibilityModels harness compatibility)
      (compatibilityRow harness compatibility) := by
  cases hmodels : compatibility.modelIds with
  | none =>
      left
      simp [compatibilityRow, hmodels]
  | some modelIds =>
      right
      simp only [validateModelCompatibility, hmodels, bind_eq_ok_iff,
        forSome_eq_ok_iff, require_eq_ok_iff] at hvalid
      obtain ⟨_, -, _, hlist, -⟩ := hvalid
      obtain ⟨_, hnonempty, _, -, _, -, hpreferred⟩ := hlist modelIds rfl
      have hmem : ∀ modelId ∈ modelIds,
          (⟨harness, compatibility.providerId, modelId⟩ :
            ModelCompatibilityRow) ∈
              compatibilityModels harness compatibility := by
        intro modelId hmodelId
        simp only [compatibilityModels, hmodels, Option.getD_some]
        exact List.mem_map_of_mem hmodelId
      obtain ⟨modelId, hmodelId⟩ := List.exists_mem_of_ne_nil _ hnonempty
      refine ⟨⟨modelId, hmem modelId hmodelId⟩, ?_⟩
      intro preferred hrow
      exact hmem preferred (hpreferred preferred hrow)

theorem listed_startHarness {prior : CatalogDatabase}
    {runtimeIds : List HarnessId} {harness : RuntimeProductHarness}
    (hvalid : ∀ entry ∈ harness.modelCompatibility,
      validateModelCompatibility entry = .ok ())
    (h : ∀ row ∈ db.providerCompatibility, Listed db.modelCompatibility row)
    (hrun : db.startHarness library prior runtimeIds harness = .ok db') :
    ∀ row ∈ db'.providerCompatibility,
      Listed db'.modelCompatibility row := by
  intro row hrow
  rcases (startHarness_ok hrun).2 with
    ⟨hproviders, hmodels⟩ | ⟨hproviders, hmodels⟩
  · rw [hmodels]
    rw [hproviders] at hrow
    exact h row hrow
  · rw [hmodels]
    rw [hproviders] at hrow
    rcases List.mem_append.mp hrow with hkept | hnew
    · obtain ⟨hold, hother⟩ := List.mem_filter.mp hkept
      have hother : row.harness ≠ harness.id := of_decide_eq_true hother
      apply (h row hold).mono
      intro model hmodel hsame
      apply List.mem_append_left
      refine List.mem_filter.mpr ⟨hmodel, decide_eq_true ?_⟩
      rw [hsame]
      exact hother
    · obtain ⟨entry, hentry, rfl⟩ := List.mem_map.mp hnew
      apply (listed_of_validated (hvalid entry hentry)).mono
      intro model hmodel _
      apply List.mem_append_right
      exact List.mem_flatMap.mpr ⟨entry, hentry, hmodel⟩

/-- A start with harnesses its callers admit lists what it needs. -/
theorem listed_initializeCatalog {defaultHarness : HarnessId}
    {runtimeHarnesses : List RuntimeProductHarness}
    (hvalid : ∀ harness ∈ runtimeHarnesses,
      harness.validateCompatibility = .ok ())
    (h : ∀ row ∈ db.providerCompatibility, Listed db.modelCompatibility row)
    (hrun : db.initializeModelCatalog library defaultHarness runtimeHarnesses =
      .ok db') :
    ∀ row ∈ db'.providerCompatibility,
      Listed db'.modelCompatibility row := by
  simp only [initializeModelCatalog, bind_eq_ok_iff, pure_eq_ok_iff] at hrun
  obtain ⟨_, -, loaded, hloop, rfl⟩ := hrun
  have hloaded : ∀ row ∈ loaded.providerCompatibility,
      Listed loaded.modelCompatibility row := by
    refine foldlM_induction (P := fun state _ =>
      ∀ row ∈ state.providerCompatibility,
        Listed state.modelCompatibility row) ?_ h hloop
    intro state done harness next hmem hP hnext
    refine listed_startHarness ?_ hP hnext
    intro entry hentry
    rcases mem_startHarnesses hmem with hruntime | rfl
    · have hchecked := hvalid harness hruntime
      simp only [RuntimeProductHarness.validateCompatibility,
        bind_eq_ok_iff] at hchecked
      obtain ⟨_, -, hentries⟩ := hchecked
      exact forM_eq_ok_iff.mp hentries entry hentry
    · cases hentry
  intro row hrow
  rw [(withDefaultHarness_frame _).2.1, (retireAbsent_frame _ _ _).2.1,
    (retireAbsent_frame _ _ _).2.1] at hrow
  rw [(withDefaultHarness_frame _).2.2, (retireAbsent_frame _ _ _).2.2,
    (retireAbsent_frame _ _ _).2.2]
  exact hloaded row hrow

/-! ## One step -/

theorem Reopenable.of_sameCatalog (h : Reopenable db)
    (hsame : SameCatalog db db') (hturns : CompleteTurns db') :
    Reopenable db' where
  fit := ⟨by rw [hsame.families]; exact h.fit.contiguous,
    fun id => by rw [hsame.members]; exact h.fit.members id⟩
  listed := by
    rw [hsame.providerCompatibility, hsame.modelCompatibility]
    exact h.listed
  identities := hturns

theorem Reopenable.of_effect (h : Reopenable db) (heffect : TurnEffect db db') :
    Reopenable db' :=
  h.of_sameCatalog heffect.catalog (heffect.identity.completeTurns h.identities)

theorem Reopenable.of_attempts (h : Reopenable db)
    (attempts : Table CatalogTable.attempt TurnAttemptRow) :
    Reopenable { db with attempts := attempts } :=
  ⟨⟨h.fit.contiguous, h.fit.members⟩, h.listed, h.identities⟩

theorem Reopenable.of_harnesses (h : Reopenable db)
    (harnesses : Keyed HarnessId HarnessRow) (rules : List ModelRuleRow) :
    Reopenable { db with harnesses := harnesses, modelRules := rules } :=
  ⟨⟨h.fit.contiguous, h.fit.members⟩, h.listed, h.identities⟩

theorem Reopenable.of_insertsTurn (h : Reopenable db)
    (hinserts : InsertsTurn db db') : Reopenable db' := by
  obtain ⟨row, hrow, hturns⟩ := hinserts.turns
  exact h.of_sameCatalog hinserts.catalog
    (completeTurns_insert h.identities hrow hturns)

theorem Reopenable.of_keepsFit (h : Reopenable db) (hkept : KeepsFit db db') :
    Reopenable db' where
  fit := hkept.2 h.fit
  listed := by
    rw [hkept.1.providerCompatibility, hkept.1.modelCompatibility]
    exact h.listed
  identities := by
    rw [hkept.1.turns]
    exact h.identities

/-- An operation of an interaction leaves a store that reopens. -/
theorem reopenable_runTurn {operation : TurnOperation} (h : Reopenable db)
    (hrun : db.runTurn library operation = .ok db') : Reopenable db' := by
  cases operation with
  | insertInteraction => exact h.of_insertsTurn (insertInteraction_ok hrun)
  | insertThread => exact h.of_insertsTurn (insertThread_ok hrun)
  | insertInvocation =>
      exact h.of_insertsTurn (insertActionInvocation_ok hrun)
  | insertImported thread sequence =>
      obtain rfl := pure_eq_ok_iff.mp hrun
      exact h.of_insertsTurn (insertImportedTurn_ok thread sequence)
  | claimRetry =>
      obtain ⟨hsame, -, hturns⟩ := claimInteractionRetry_ok hrun
      exact h.of_sameCatalog hsame (hturns h.identities)
  | beginAttempt =>
      have hbegins := beginInteractionAttempt_ok hrun
      exact h.of_sameCatalog hbegins.catalog (hbegins.identities h.identities)
  | recordPreExecutionFailure =>
      obtain ⟨row, -, -, -, heffect⟩ := recordPreExecutionModelFailure_ok hrun
      exact (h.of_attempts _).of_effect heffect
  | recordAdmissionFailure =>
      obtain ⟨row, -, heffect⟩ := recordModelAttemptAdmissionFailure_ok hrun
      exact (h.of_attempts _).of_effect heffect
  | acceptCompletion => exact h.of_effect (effect_acceptCompletion hrun)
  | failCompletion => exact h.of_effect (effect_failCompletion hrun)
  | endNativeWait attempt now =>
      obtain rfl := pure_eq_ok_iff.mp hrun
      exact h.of_effect (effect_endNativeWait attempt now)
  | endExecution => exact h.of_effect (effect_endExecution hrun)
  | recoverInterrupted error preserveIdentified now =>
      obtain rfl := pure_eq_ok_iff.mp hrun
      exact h.of_effect (effect_recoverInterrupted error preserveIdentified now)
  | failInterruptedInput turn harness error now =>
      obtain rfl := pure_eq_ok_iff.mp hrun
      exact h.of_effect (effect_failInterruptedInput turn harness error now)
  | quarantineInput turn harness error =>
      obtain rfl := pure_eq_ok_iff.mp hrun
      exact h.of_effect (effect_quarantineInput turn harness error)
  | finalizeInput turn error now =>
      obtain rfl := pure_eq_ok_iff.mp hrun
      exact h.of_effect (effect_finalizeInput turn error now)
  | reconcileAccepted turn output now =>
      obtain rfl := pure_eq_ok_iff.mp hrun
      exact h.of_effect (effect_reconcileAccepted turn output now)
  | finishStopped statuses turn now =>
      obtain rfl := pure_eq_ok_iff.mp hrun
      exact h.of_effect (effect_finishStopped statuses turn now)
  | acknowledgeLease attempt lease now =>
      obtain rfl := pure_eq_ok_iff.mp hrun
      rw [acknowledgeLeaseReconciled_ok]
      exact h.of_attempts _

theorem reopenable_initializeCatalog {defaultHarness : HarnessId}
    {runtimeHarnesses : List RuntimeProductHarness} (h : Reopenable db)
    (hrun : db.runCatalog library
      (.initializeCatalog defaultHarness runtimeHarnesses) = .ok db') :
    Reopenable db' := by
  simp only [runCatalog, bind_eq_ok_iff] at hrun
  obtain ⟨_, hadmitted, hstart⟩ := hrun
  have hvalid := forM_eq_ok_iff.mp hadmitted
  have hframe := initializeModelCatalog_frame hstart
  refine ⟨⟨?_, ?_⟩, listed_initializeCatalog hvalid h.listed hstart,
    hframe.identity.completeTurns h.identities⟩
  · rw [hframe.families]
    exact h.fit.contiguous
  · rw [hframe.members]
    exact h.fit.members

/-- An operation of the catalog leaves a store that reopens. -/
theorem reopenable_runCatalog {operation : CatalogOperation}
    (h : Reopenable db) (hrun : db.runCatalog library operation = .ok db') :
    Reopenable db' := by
  cases operation with
  | initializeCatalog => exact reopenable_initializeCatalog h hrun
  | updateRules command =>
      simp only [runCatalog, updateHarnessModelRules, bind_eq_ok_iff,
        pure_eq_ok_iff] at hrun
      obtain ⟨_, -, row, -, _, -, middle, hrules, rfl⟩ := hrun
      obtain ⟨rows, rfl⟩ := replaceRules_ok hrules
      exact h.of_harnesses _ rows
  | publishReadiness accepted updates =>
      simp only [runCatalog, bind_eq_ok_iff, pure_eq_ok_iff] at hrun
      obtain ⟨⟨final, generations⟩, hbatch, rfl⟩ := hrun
      obtain ⟨harnesses, rfl⟩ := updateHarnessRuntimeAvailability_ok hbatch
      exact h.of_harnesses harnesses db.modelRules
  | createProvider =>
      simp only [runCatalog, bind_eq_ok_iff] at hrun
      obtain ⟨_, -, hcreate⟩ := hrun
      exact h.of_keepsFit (keepsFit_createProvider hcreate)
  | publishCatalog => exact h.of_keepsFit (keepsFit_publish hrun)
  | syncProviders => exact h.of_keepsFit (keepsFit_sync hrun)
  | createFamily command =>
      simp only [runCatalog, bind_eq_ok_iff] at hrun
      obtain ⟨_, -, hcreate⟩ := hrun
      exact h.of_keepsFit (keepsFit_createModelFamily hcreate)
  | updateFamily command =>
      simp only [runCatalog, bind_eq_ok_iff] at hrun
      obtain ⟨_, -, hupdate⟩ := hrun
      exact h.of_keepsFit (keepsFit_updateModelFamily hupdate)
  | deleteFamily id now =>
      simp only [runCatalog, bind_eq_ok_iff, pure_eq_ok_iff] at hrun
      obtain ⟨⟨deleted, final⟩, hdelete, rfl⟩ := hrun
      exact h.of_keepsFit (keepsFit_deleteModelFamily hdelete)
  | reorderFamilies familyIds =>
      exact h.of_keepsFit (keepsFit_renumbered (reorderModelFamilies_ok hrun))
  | updateDefaults =>
      obtain ⟨hsame, -⟩ := updateModelSettingsDefaults_ok hrun
      rw [hsame]
      exact h.of_keepsFit (keepsFit_of_same _ _ _)
  | completeOnboarding =>
      exact h.of_keepsFit (keepsFit_completeOnboarding hrun)

/-- What the rest of the application does leaves a store that reopens. -/
theorem reopenable_beside (h : Reopenable db) (hbeside : db.Beside db') :
    Reopenable db' := by
  apply h.of_sameCatalog hbeside.catalog
  intro id row' hrow'
  rcases hbeside.identity id row' hrow' with hnone | ⟨row, hrow, hsame⟩
  · exact .inl hnone
  · exact complete_of_identity (h.identities id row hrow) hsame

theorem reopenable_fresh : Reopenable fresh where
  fit := ⟨List.Perm.refl _, fun _ => Nat.zero_le _⟩
  listed := by
    intro row hrow
    obtain rfl := List.mem_singleton.mp hrow
    exact .inl rfl
  identities := by
    intro id row hrow
    rw [show fresh.turns.get? id = none from Table.get?_empty id] at hrow
    cases hrow

end CatalogDatabase

open CatalogDatabase

/-! ## Every run -/

variable {library : CatalogLibrary} {db : CatalogDatabase}

/-- Every store a run reaches from the fresh one reopens. -/
theorem reopenable_of_reachable
    (hdb : (catalogSystem library fun store => store = fresh).Reachable db) :
    Reopenable db := by
  refine hdb.invariant ?_ ?_
  · rintro store rfl
    exact reopenable_fresh
  · intro store label next _ h hstep
    cases hstep with
    | catalog hrun => exact reopenable_runCatalog h hrun
    | turn hrun => exact reopenable_runTurn h hrun
    | beside hbeside => exact reopenable_beside h hbeside

/-- The check of the next start accepts every store a run reaches.  Whenever
an operation renumbers the families, the positions are contiguous again, the
active families come first and in the order asked for, and a compaction asks
for the order they have; it is refused for no store a run reaches. -/
theorem catalog_reopens
    (hdb : (catalogSystem library fun store => store = fresh).Reachable db) :
    db.validateCatalogRows = .ok () ∧
      (∃ compacted, db.compactFamilyPositions = .ok compacted) ∧
      (∀ store compacted, store.compactFamilyPositions = .ok compacted →
        Renumbered store (orderedIds store.families .active) compacted) ∧
      ∀ store familyIds reordered,
        store.reorderModelFamilies familyIds = .ok reordered →
          Renumbered store familyIds reordered := by
  have h := reopenable_of_reachable hdb
  refine ⟨validateCatalogRows_of_reopenable h, ?_, ?_, ?_⟩
  · exact exists_renumbered (List.Perm.refl _) h.fit.contiguous.distinct
  · intro store compacted hrun
    exact compactFamilyPositions_ok hrun
  · intro store familyIds reordered hrun
    exact reorderModelFamilies_ok hrun

/-- A provider with a managed family, and a family of the user that is deleted
again. -/
def deletedFamilyRun : List CatalogLabel :=
  let model : CatalogModelSnapshot :=
    { id := "m-1", label := "M1", order := 0, visible := true,
      available := true, unavailableReason := none, providerDefault := true,
      replacementModelId := none, metadata := "{}" }
  [.catalog (.createProvider
      { id := "acme", adapterId := "openai-api", label := "Acme",
        endpoint := none, accessContract := "secret@1",
        credentialReference := none, lifecycleState := .active,
        removedAt := none }
      { providerId := "acme", label := "Acme", connected := true,
        unavailableReason := none, models := [model],
        systemFamily := some ⟨"acme", "Acme defaults", ["m-1"]⟩ }
      (some ⟨"provider-default-family", 1⟩) "1"),
    .catalog (.createFamily
      ⟨"Mine", true, [⟨[.orchestrator], "acme", "m-1", 0⟩]⟩),
    .catalog (.deleteFamily ⟨2⟩ "2")]

theorem catalog_reopens_deletedFamilyRun :
    ∃ db, deletedFamilyRun.foldlM (nextCatalog plainLibrary) fresh = some db ∧
      db.validateCatalogRows = .ok () := by
  obtain ⟨db, hrun⟩ := Option.isSome_iff_exists.mp
    (show (deletedFamilyRun.foldlM (nextCatalog plainLibrary)
      fresh).isSome = true by decide)
  have hreached : (catalogSystem plainLibrary
      fun store => store = fresh).Reachable db :=
    TransitionSystem.Reachable.of_foldlM
      (fun _ _ _ => step_of_nextCatalog plainLibrary) (.init rfl) hrun
  exact ⟨db, hrun, (catalog_reopens hreached).1⟩

end RelayerGraph
