import RelayerGraph.Catalog.FamilyEffects

/-!
# What an operation on providers changes

The operations of a provider's lifecycle, of the defaults and of onboarding,
each as the statements it makes: an update of the provider's row and its
models, and then at most one operation on the families.
-/

namespace RelayerGraph

open Foundation Checked

namespace CatalogDatabase

variable {library : CatalogLibrary} {db db' : CatalogDatabase}

theorem putProvider_ok {id : ProviderId} {row : ProviderRow}
    (hrun : db.putProvider id row = .ok db') :
    db' = { db with providers := db.providers.put id row } := by
  simp only [putProvider, bind_eq_ok_iff, pure_eq_ok_iff] at hrun
  obtain ⟨_, -, rfl⟩ := hrun
  rfl

theorem insertModels_ok {provider : ProviderId}
    {models : List CatalogModelSnapshot}
    (hrun : db.insertModels provider models = .ok db') :
    ∃ stored, db' = { db with models := stored } := by
  refine foldlM_induction (P := fun (state : CatalogDatabase) _ =>
    ∃ stored, state = { db with models := stored }) ?_ ⟨db.models, rfl⟩ hrun
  intro state done model next _ hP hnext
  obtain ⟨stored, rfl⟩ := hP
  simp only [bind_eq_ok_iff, pure_eq_ok_iff] at hnext
  obtain ⟨_, -, rfl⟩ := hnext
  exact ⟨_, rfl⟩

/-- A provider is new, and its first catalog names at most one family. -/
theorem createProviderWithCatalog_ok {definition : ProviderDefinition}
    {snapshot : ProviderCatalogSnapshot}
    {policy : Option FamilyPolicyReference} {now : String}
    (hrun : db.createProviderWithCatalog library definition snapshot policy
      now = .ok db') :
    db.providers.get? definition.id = none ∧
      ∃ row models middle, row.lifecycleState = .active ∧
        middle = { db with
          providers := db.providers.put definition.id row
          models := models } ∧
        (db' = middle ∨ ∃ systemFamily stated id,
          middle.replaceSystemFamily library snapshot systemFamily stated
            false now = .ok (id, db')) := by
  simp only [createProviderWithCatalog, bind_eq_ok_iff,
    require_eq_ok_iff] at hrun
  obtain ⟨_, -, _, hnew, stored, hput, middle, hmodels, hfamily⟩ := hrun
  refine ⟨hnew, ?_⟩
  obtain rfl := putProvider_ok hput
  obtain ⟨models, hmiddle⟩ := insertModels_ok hmodels
  refine ⟨_, models, middle, rfl, hmiddle, ?_⟩
  split at hfamily
  case h_1 _ systemFamily stated _ =>
      split at hfamily
      · obtain rfl := pure_eq_ok_iff.mp hfamily
        exact .inl rfl
      · simp only [bind_eq_ok_iff, pure_eq_ok_iff] at hfamily
        obtain ⟨⟨id, final⟩, hreplace, rfl⟩ := hfamily
        exact .inr ⟨systemFamily, stated, id, hreplace⟩
  case h_2 =>
      obtain rfl := pure_eq_ok_iff.mp hfamily
      exact .inl rfl

/-- The store after a publish has written the provider and its models. -/
def published (db : CatalogDatabase) (snapshot : ProviderCatalogSnapshot)
    (stamp : ProviderConnectionStamp) (now : String) (row : ProviderRow) :
    CatalogDatabase :=
  { db with
    providers := db.providers.put snapshot.providerId
      (publishedProvider snapshot stamp now row)
  }.publishModels snapshot.providerId snapshot.models

/-- The family an eligible publish names. -/
def eligibleFamily (snapshot : ProviderCatalogSnapshot) :
    Option SystemFamilySnapshot :=
  snapshot.systemFamily.filter fun family => family.modelIds ≠ []

/-- A publish for an active provider replaces its managed family, keeps it for
recovery, or leaves the families alone. -/
theorem publishProviderCatalog_ok {snapshot : ProviderCatalogSnapshot}
    {stamp : ProviderConnectionStamp}
    {policy : Option FamilyPolicyReference} {now : String}
    (hrun : db.publishProviderCatalog library snapshot stamp policy now =
      .ok db') :
    ∃ row, db.providers.get? snapshot.providerId = some row ∧
      row.lifecycleState = .active ∧
      ((∃ systemFamily stated id, policy = some stated ∧
          eligibleFamily snapshot = some systemFamily ∧
          (db.published snapshot stamp now row).replaceSystemFamily library
            snapshot systemFamily stated true now = .ok (id, db')) ∨
        (policy = none ∨ eligibleFamily snapshot = none) ∧
          ((db.published snapshot stamp now
              row).tombstoneManagedProviderFamilies snapshot.providerId now
                .noEligibleModels = .ok db' ∨
            db' = db.published snapshot stamp now row)) := by
  simp only [publishProviderCatalog, bind_eq_ok_iff, orThrow_eq_ok_iff,
    require_eq_ok_iff] at hrun
  obtain ⟨row, hrow, _, hactive, _, -, hfamilies⟩ := hrun
  refine ⟨row, hrow, hactive, ?_⟩
  change (db.published snapshot stamp now row).publishFamilies library
    snapshot policy now = .ok db' at hfamilies
  unfold publishFamilies at hfamilies
  cases policy with
  | none =>
      obtain rfl := pure_eq_ok_iff.mp hfamilies
      exact .inr ⟨.inl rfl, .inr rfl⟩
  | some stated =>
      cases heligible : eligibleFamily snapshot with
      | some systemFamily =>
          rw [eligibleFamily] at heligible
          simp only [heligible, bind_eq_ok_iff, pure_eq_ok_iff] at hfamilies
          obtain ⟨⟨id, final⟩, hreplace, rfl⟩ := hfamilies
          exact .inl ⟨systemFamily, stated, id, rfl, rfl, hreplace⟩
      | none =>
          rw [eligibleFamily] at heligible
          simp only [heligible] at hfamilies
          right
          refine ⟨.inr rfl, ?_⟩
          split at hfamilies
          · exact .inl hfamilies
          · obtain rfl := pure_eq_ok_iff.mp hfamilies
            exact .inr rfl

/-- A definition of a stored provider writes its row; one that begins the
removal is guarded and tombstones its families first. -/
theorem syncExisting_ok {definition : ProviderDefinition} {old : ProviderRow}
    {now : String}
    (hrun : db.syncExisting library definition old now = .ok db') :
    lifecycleTransition old.lifecycleState definition.lifecycleState = true ∧
      (old.lifecycleState = .removalPending →
        definition.lifecycleState = .tombstoned →
          db.executionRunning definition.id = false) ∧
      ∃ middle row, row.lifecycleState = definition.lifecycleState ∧
        db' = { middle with
          providers := middle.providers.put definition.id row } ∧
        (old.lifecycleState = .active ∧
            definition.lifecycleState = .removalPending ∧
            db.guardProviderRemoval library definition.id = .ok () ∧
            db.tombstoneManagedProviderFamilies definition.id now
              .providerRemoval = .ok middle ∨
          ¬ (old.lifecycleState = .active ∧
              definition.lifecycleState = .removalPending) ∧
            middle = db) := by
  simp only [syncExisting, bind_eq_ok_iff, require_eq_ok_iff] at hrun
  obtain ⟨_, -, _, htransition, hrest⟩ := hrun
  refine ⟨htransition, ?_⟩
  split at hrest
  case isTrue hremoval =>
      simp only [bind_eq_ok_iff, onlyIf_eq_ok_iff] at hrest
      obtain ⟨_, hguard, middle, htombstone, _, -, hput⟩ := hrest
      refine ⟨?_, middle, _, rfl, putProvider_ok hput,
        .inl ⟨hremoval.1, hremoval.2, hguard, htombstone⟩⟩
      intro hpending
      rw [hremoval.1] at hpending
      cases hpending
  case isFalse hremoval =>
      simp only [bind_eq_ok_iff, pure_eq_ok_iff, onlyIf_eq_ok_iff,
        require_eq_ok_iff] at hrest
      obtain ⟨middle, rfl, _, hdrained, hput⟩ := hrest
      exact ⟨fun hpending htombstoned =>
          hdrained ⟨hpending, htombstoned⟩, _, _, rfl, putProvider_ok hput,
        .inr ⟨hremoval, rfl⟩⟩

theorem syncNew_ok {definition : ProviderDefinition}
    (hrun : db.syncNew definition = .ok db') :
    ∃ row, row.lifecycleState = .active ∧
      db' = { db with providers := db.providers.put definition.id row } := by
  simp only [syncNew, bind_eq_ok_iff, require_eq_ok_iff] at hrun
  obtain ⟨_, -, hput⟩ := hrun
  exact ⟨_, rfl, putProvider_ok hput⟩

/-! ## Defaults -/

/-- The family a default can be: active, enabled, and its provider, when it is
managed, ready. -/
structure Choosable (db : CatalogDatabase) (family : ModelFamilyId)
    (row : FamilyRow) : Prop where
  stored : db.families.get? family = some row
  active : row.lifecycleState = .active
  enabled : row.enabled = true
  owner : ∀ owner, familyOwner row = some owner → db.providerReady owner = true

theorem pairedDefault_ok {provider : Option ProviderId}
    {family : Option ModelFamilyId} {paired : PairedDefault}
    (hready : ∀ chosen, provider = some chosen →
      db.providerReady chosen = true)
    (hrun : db.pairedDefault provider family = .ok paired) :
    provider = none ∧ family = none ∧ paired = ⟨none, none, false⟩ ∨
      ∃ chosen row, paired.family = some chosen ∧ db.Choosable chosen row ∧
        ∀ owner, familyOwner row = some owner →
          paired.provider = some owner := by
  unfold pairedDefault at hrun
  split at hrun
  · obtain rfl := pure_eq_ok_iff.mp hrun
    exact .inl ⟨rfl, rfl, rfl⟩
  case h_2 provider =>
      simp only [bind_eq_ok_iff, orThrow_eq_ok_iff, pure_eq_ok_iff] at hrun
      obtain ⟨chosen, hchosen, rfl⟩ := hrun
      right
      obtain ⟨row, hrow, hmanaged⟩ := Table.mem_select.mp
        (List.mem_of_getLast? hchosen)
      simp only [Bool.and_eq_true, decide_eq_true_eq] at hmanaged
      obtain ⟨⟨⟨hsystem, hprovider⟩, hactive⟩, henabled⟩ := hmanaged
      have howner : familyOwner row = some provider := by
        simp [familyOwner, hsystem, hprovider]
      refine ⟨chosen, row, rfl, ⟨hrow, hactive, henabled, ?_⟩, ?_⟩
      · intro owner hsome
        obtain rfl : provider = owner := by
          rw [howner] at hsome
          exact Option.some.inj hsome
        exact hready provider rfl
      · intro owner hsome
        rw [howner] at hsome
        exact hsome
  case h_3 _ chosen =>
      simp only [bind_eq_ok_iff, orThrow_eq_ok_iff, pure_eq_ok_iff,
        forSome_eq_ok_iff, require_eq_ok_iff,
        Option.filter_eq_some_iff, Bool.and_eq_true,
        decide_eq_true_eq] at hrun
      obtain ⟨row, ⟨hrow, hactive, henabled⟩, _, howner, rfl⟩ := hrun
      right
      refine ⟨chosen, row, rfl, ⟨hrow, hactive, henabled, ?_⟩, ?_⟩
      · intro owner hsome
        obtain ⟨_, -, hready⟩ := howner owner hsome
        exact hready
      · intro owner hsome
        obtain ⟨_, hsame, -⟩ := howner owner hsome
        cases provider with
        | none => simpa using hsome
        | some stated =>
            obtain rfl := hsame stated rfl
            rfl

/-- A defaults update keeps the pair, or chooses a family that can be the
default and pairs it with its provider. -/
theorem updateModelSettingsDefaults_ok
    {command : UpdateModelSettingsDefaultsCommand} {appDefault : HarnessId}
    {permitted : List HarnessId}
    (hrun : db.updateModelSettingsDefaults library command appDefault
      permitted = .ok db') :
    db' = { db with preferences := db'.preferences } ∧
      (db'.preferences.defaultFamily = db.preferences.defaultFamily ∧
          db'.preferences.defaultProvider = db.preferences.defaultProvider ∨
        ∃ chosen row, db'.preferences.defaultFamily = some chosen ∧
          db.Choosable chosen row ∧
          ∀ owner, familyOwner row = some owner →
            db'.preferences.defaultProvider = owner) := by
  simp only [updateModelSettingsDefaults, bind_eq_ok_iff] at hrun
  obtain ⟨_, hcommand, paired, hpaired, hrest⟩ := hrun
  have hready : ∀ chosen, command.providerId = some chosen →
      db.providerReady chosen = true := by
    intro chosen hchosen
    simp only [checkDefaultsCommand, bind_eq_ok_iff, forSome_eq_ok_iff,
      require_eq_ok_iff] at hcommand
    obtain ⟨_, -, hprovider⟩ := hcommand
    obtain ⟨_, -, hready⟩ := hprovider chosen hchosen
    exact hready
  have hfinal : ∃ harness, db' = { db with
      preferences :=
        { defaultHarness := harness
          defaultProvider :=
            paired.provider.getD db.preferences.defaultProvider
          defaultFamily := paired.family <|> db.preferences.defaultFamily
          defaultsModified := true } } := by
    split at hrest
    · split at hrest
      · simp only [bind_eq_ok_iff, pure_eq_ok_iff] at hrest
        obtain ⟨_, -, _, rfl, _, -, rfl⟩ := hrest
        exact ⟨_, rfl⟩
      · simp only [bind_eq_ok_iff, pure_eq_ok_iff] at hrest
        obtain ⟨_, -, _, -, rfl⟩ := hrest
        exact ⟨_, rfl⟩
    · simp only [bind_eq_ok_iff, pure_eq_ok_iff] at hrest
      obtain ⟨_, -, _, -, rfl⟩ := hrest
      exact ⟨_, rfl⟩
  obtain ⟨harness, rfl⟩ := hfinal
  refine ⟨rfl, ?_⟩
  rcases pairedDefault_ok hready hpaired with ⟨-, -, rfl⟩ |
    ⟨chosen, row, hfamily, hchoosable, howner⟩
  · exact .inl ⟨rfl, rfl⟩
  · right
    refine ⟨chosen, row, by simp [hfamily], hchoosable, ?_⟩
    intro owner hsome
    simp [howner owner hsome]

/-! ## Onboarding -/

/-- The family onboarding chooses: one there is, the managed one of a policy,
or a new one of the user. -/
theorem onboardingFamily_ok {command : CompleteProviderOnboardingCommand}
    {snapshot : ProviderCatalogSnapshot} {harness : OnboardingHarness}
    {now : String} {family : ModelFamilyId}
    (hrun : db.onboardingFamily library command snapshot harness now =
      .ok (family, db')) :
    db' = db ∨
      (∃ stated systemFamily policy,
        stated.providerId = snapshot.providerId ∧
        db.replaceSystemFamily library stated systemFamily policy false now =
          .ok (family, db')) ∨
      ∃ name members, members.length ≤ 5 ∧
        family = db.families.nextKey ∧
        db' = db.withFamily (db.customFamily name true) members := by
  unfold onboardingFamily at hrun
  split at hrun
  · simp only [bind_eq_ok_iff, pure_eq_ok_iff, Prod.mk.injEq] at hrun
    obtain ⟨_, -, -, rfl⟩ := hrun
    exact .inl rfl
  · simp only [bind_eq_ok_iff] at hrun
    obtain ⟨candidate, -, hreplace⟩ := hrun
    exact .inr (.inl ⟨_, _, _, rfl, hreplace⟩)
  · simp only [bind_eq_ok_iff, pure_eq_ok_iff, Prod.mk.injEq] at hrun
    obtain ⟨name, -, _, -, _, -, ⟨id, inserted⟩, hinsert, replaced, hmembers,
      rfl, rfl⟩ := hrun
    obtain ⟨rfl, rfl⟩ := insertFamily_ok hinsert
    obtain ⟨hlength, rfl⟩ := replaceFamilyMembers_ok hmembers
    exact .inr (.inr ⟨name, _, hlength, rfl, rfl⟩)

theorem onboardingProjection_providerId {provider : ProviderId}
    {permitted : List HarnessId} {projection : OnboardingProjection}
    (hrun : db.onboardingProjection library provider permitted =
      .ok projection) :
    projection.snapshot.providerId = provider ∧
      ∃ row, db.providers.get? provider = some row ∧
        row.lifecycleState = .active := by
  simp only [onboardingProjection, bind_eq_ok_iff, orThrow_eq_ok_iff,
    Option.filter_eq_some_iff, decide_eq_true_eq, pure_eq_ok_iff] at hrun
  obtain ⟨snapshot, hsnapshot, _, -, row, ⟨hrow, hactive⟩, rfl⟩ := hrun
  simp only [providerCatalogSnapshot, bind_eq_ok_iff,
    pure_eq_ok_iff] at hsnapshot
  obtain ⟨_, -, rfl⟩ := hsnapshot
  exact ⟨rfl, row, hrow, hactive⟩

/-- A completed onboarding makes a family the default that is active, enabled
and has a member of the provider, which becomes the default provider. -/
theorem completeProviderOnboarding_ok
    {revision : OnboardingProjection → String}
    {command : CompleteProviderOnboardingCommand} {permitted : List HarnessId}
    {now : String}
    (hrun : db.completeProviderOnboarding library revision command permitted
      now = .ok db') :
    ∃ snapshot harness family middle,
      snapshot.providerId = command.providerId ∧
      (∃ row, db.providers.get? command.providerId = some row ∧
        row.lifecycleState = .active) ∧
      db.onboardingFamily library command snapshot harness now =
        .ok (family, middle) ∧
      (∃ row, middle.families.get? family = some row ∧ row.enabled = true ∧
        row.lifecycleState = .active) ∧
      (∃ member ∈ middle.members family,
        member.providerId = command.providerId) ∧
      db' = { middle with
        preferences :=
          { defaultHarness := command.harnessId
            defaultProvider := command.providerId
            defaultFamily := some family
            defaultsModified := true } } := by
  simp only [completeProviderOnboarding, bind_eq_ok_iff,
    pure_eq_ok_iff] at hrun
  obtain ⟨projection, hprojection, _, -, harness, -, ⟨family, middle⟩,
    hfamily, _, hresolution, rfl⟩ := hrun
  obtain ⟨hsnapshot, hprovider⟩ := onboardingProjection_providerId hprojection
  simp only [onboardingResolution, bind_eq_ok_iff,
    require_eq_ok_iff] at hresolution
  obtain ⟨_, hstored, -, -, hresolvable⟩ := hresolution
  obtain ⟨row, hrow, hstate⟩ := (Option.any_eq_true _ _).mp hstored
  simp only [Bool.and_eq_true, decide_eq_true_eq] at hstate
  obtain ⟨member, hmember, howned⟩ := List.any_eq_true.mp hresolvable
  refine ⟨projection.snapshot, harness, family, middle, hsnapshot, hprovider,
    hfamily, ⟨row, hrow, hstate⟩, ⟨member, ?_, of_decide_eq_true howned⟩, rfl⟩
  exact (List.mem_filter.mp hmember).1

end CatalogDatabase

end RelayerGraph
