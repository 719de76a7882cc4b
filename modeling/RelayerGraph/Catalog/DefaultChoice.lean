import RelayerGraph.Catalog.DefaultMoves

/-!
# The choice of a default

Every operation keeps the default standing but one: a publish that finds no
default set takes the provider's family as it is, also when the user has
switched it off.  Settings and onboarding check the family they are given.
-/

namespace RelayerGraph

open Foundation Checked TransitionSystem

namespace CatalogDatabase

variable {library : CatalogLibrary} {db db' : CatalogDatabase}

/-! ## The other operations -/

/-- The families of a new provider are none of the old ones. -/
theorem keepsDefault_createProvider {definition : ProviderDefinition}
    {snapshot : ProviderCatalogSnapshot}
    {policy : Option FamilyPolicyReference} {now : String}
    (hsame : definition.id = snapshot.providerId)
    (hrun : db.createProviderWithCatalog library definition snapshot policy
      now = .ok db') : KeepsDefault db db' := by
  obtain ⟨hnew, row, models, middle, hactive, hmiddle, hfamily⟩ :=
    createProviderWithCatalog_ok hrun
  have hput : KeepsDefault db middle := by
    rw [hmiddle]
    refine keepsDefault_of_same ⟨rfl, rfl⟩ rfl rfl
      (keepsProviders_put definition.id _ rfl ?_)
    intro old hold
    rw [hnew] at hold
    cases hold
  have hbook : middle.book = db.book := by
    rw [hmiddle]
    exact book_congr rfl
  rcases hfamily with rfl | ⟨systemFamily, stated, id, hreplace⟩
  · exact hput
  · intro h
    obtain ⟨hsettled, husable⟩ := hput h
    have heffect := replaceSystemFamily_effect hsettled hreplace
    have hprovider : middle.ActiveProvider snapshot.providerId := by
      refine ⟨row, ?_, hactive⟩
      rw [hmiddle, ← hsame]
      exact Keyed.get?_put_self _ _ _
    have hkept : db'.preferences = middle.preferences :=
      heffect.stayed fun hmoved => by cases hmoved.1
    refine ⟨hsettled.refreshed heffect hprovider, ?_⟩
    intro hdb
    apply usable_beside hsettled heffect hkept ?_ (husable hdb)
    intro key state hkey hstate howned
    rw [hbook] at hstate
    have hstored := h.owned key state snapshot.providerId hstate howned
    rw [← hsame, hnew] at hstored
    cases hstored

theorem keepsDefault_syncExisting {definition : ProviderDefinition}
    {old : ProviderRow} {now : String}
    (hold : db.providers.get? definition.id = some old)
    (hrun : db.syncExisting library definition old now = .ok db') :
    KeepsDefault db db' := by
  obtain ⟨htransition, -, middle, row, hrow, rfl, hmiddle⟩ :=
    syncExisting_ok hrun
  rcases hmiddle with ⟨hactive, hpending, hguard, htombstone⟩ |
    ⟨hother, rfl⟩
  · have hdefault : db.preferences.defaultProvider ≠ definition.id := by
      simp only [guardProviderRemoval, bind_eq_ok_iff,
        require_eq_ok_iff] at hguard
      obtain ⟨_, hne, -⟩ := hguard
      exact hne
    have hpreferences : middle.preferences = db.preferences := by
      obtain ⟨_, rfl, hnumbered⟩ :=
        tombstoneManagedProviderFamilies_ok htombstone
      exact hnumbered.preferences
    refine (keepsDefault_dismissed hdefault htombstone).trans
      (keepsDefault_of_same ⟨rfl, rfl⟩ rfl rfl
        (keepsProviders_put definition.id _ rfl ?_))
    intro _ _ _ hid
    rw [hpreferences] at hid
    exact absurd hid.symm hdefault
  · refine keepsDefault_of_same ⟨rfl, rfl⟩ rfl rfl
      (keepsProviders_put definition.id _ rfl ?_)
    intro stored hstored hactive _
    rw [hold] at hstored
    obtain rfl := Option.some.inj hstored
    rw [hrow]
    simp only [lifecycleTransition, hactive, Bool.or_eq_true,
      Bool.and_eq_true, decide_eq_true_eq] at htransition
    rcases htransition with (hsame | ⟨-, hpending⟩) | ⟨hfalse, -⟩
    · exact hsame.symm
    · exact absurd ⟨hactive, hpending⟩ hother
    · cases hfalse

theorem keepsDefault_syncDefinition {definition : ProviderDefinition}
    {now : String}
    (hrun : db.syncDefinition library now definition = .ok db') :
    KeepsDefault db db' := by
  simp only [syncDefinition, bind_eq_ok_iff] at hrun
  obtain ⟨_, -, hrun⟩ := hrun
  cases hget : db.providers.get? definition.id with
  | some old =>
      rw [hget] at hrun
      exact keepsDefault_syncExisting hget hrun
  | none =>
      rw [hget] at hrun
      obtain ⟨row, -, rfl⟩ := syncNew_ok hrun
      refine keepsDefault_of_same ⟨rfl, rfl⟩ rfl rfl
        (keepsProviders_put definition.id _ rfl ?_)
      intro old hold
      rw [hget] at hold
      cases hold

theorem keepsDefault_sync {definitions : List ProviderDefinition}
    {now : String}
    (hrun : db.syncProviderDefinitions library definitions now = .ok db') :
    KeepsDefault db db' := by
  refine foldlM_induction (P := fun state _ => KeepsDefault db state) ?_
    (.refl db) hrun
  intro state done definition next _ hkept hnext
  exact hkept.trans (keepsDefault_syncDefinition hnext)

theorem keepsDefault_start (h : StartFrame db db') : KeepsDefault db db' := by
  refine keepsDefault_of_same ⟨h.defaultFamily, h.defaultProvider⟩ h.families
    h.members ⟨?_, ?_⟩
  · intro id hid
    obtain ⟨row, hrow⟩ := Option.isSome_iff_exists.mp hid
    rw [h.providers id row hrow]
    rfl
  · rintro ⟨row, hrow, hactive⟩
    exact ⟨row, h.providers _ row hrow, hactive⟩

theorem keepsDefault_sameCatalog (h : SameCatalog db db') :
    KeepsDefault db db' :=
  keepsDefault_of_same (.of_eq h.preferences) h.families h.members
    (.of_eq h.providers)

/-- Settings names a family that can be chosen, or keeps the pair. -/
theorem keepsDefault_updateDefaults
    {command : UpdateModelSettingsDefaultsCommand} {appDefault : HarnessId}
    {permitted : List HarnessId}
    (hrun : db.updateModelSettingsDefaults library command appDefault
      permitted = .ok db') : KeepsDefault db db' := by
  obtain ⟨hrest, hpair⟩ := updateModelSettingsDefaults_ok hrun
  have hfamilies : db'.families = db.families := by rw [hrest]
  have hmembers : db'.members = db.members := by rw [hrest]
  have hproviders : db'.providers = db.providers := by rw [hrest]
  rcases hpair with ⟨hfamily, hprovider⟩ |
    ⟨chosen, row, hfamily, hchoosable, howner⟩
  · exact keepsDefault_of_same ⟨hfamily, hprovider⟩ hfamilies hmembers
      (.of_eq hproviders)
  · intro h
    have hbook : db'.book = db.book := book_congr hfamilies
    have hchosen : db'.book chosen = some row.state := by
      rw [hbook]
      exact book_of_row hchoosable.stored
    refine ⟨⟨?_, ?_, ?_, ?_, ?_⟩, ?_⟩
    · rw [hbook]
      exact h.orderly
    · intro id state provider hstate howned
      rw [hbook] at hstate
      rw [hproviders]
      exact h.owned id state provider hstate howned
    · intro id state provider hstate howned
      rw [hbook] at hstate
      rw [hmembers]
      exact h.members id state provider hstate howned
    · intro id hid
      rw [hfamily] at hid
      obtain rfl := Option.some.inj hid
      rw [hchosen]
      rfl
    · intro id state provider hid hstate howned
      rw [hfamily] at hid
      obtain rfl := Option.some.inj hid
      rw [hchosen] at hstate
      obtain rfl := Option.some.inj hstate
      have hown : familyOwner row = some provider :=
        h.familyOwner hchoosable.stored howned
      refine ⟨howner provider hown, ?_⟩
      obtain ⟨owner, hstored, hready⟩ := (Option.any_eq_true _ _).mp
        (hchoosable.owner provider hown)
      simp only [Bool.and_eq_true, decide_eq_true_eq] at hready
      exact ⟨owner, by rw [hproviders]; exact hstored, hready.2⟩
    · intro _ id state hid hstate
      rw [hfamily] at hid
      obtain rfl := Option.some.inj hid
      rw [hchosen] at hstate
      obtain rfl := Option.some.inj hstate
      exact ⟨hchoosable.enabled, .inl hchoosable.active⟩

/-- The family onboarding chooses leaves the store settled. -/
theorem settled_onboardingFamily {command : CompleteProviderOnboardingCommand}
    {snapshot : ProviderCatalogSnapshot} {harness : OnboardingHarness}
    {now : String} {family : ModelFamilyId} (h : Settled db)
    (hactive : db.ActiveProvider snapshot.providerId)
    (hrun : db.onboardingFamily library command snapshot harness now =
      .ok (family, db')) :
    Settled db' ∧ db'.ActiveProvider snapshot.providerId := by
  rcases onboardingFamily_ok hrun with rfl |
    ⟨stated, systemFamily, policy, hsame, hreplace⟩ |
    ⟨name, members, -, -, rfl⟩
  · exact ⟨h, hactive⟩
  · have heffect := replaceSystemFamily_effect h hreplace
    rw [← hsame] at hactive ⊢
    refine ⟨h.refreshed heffect hactive, ?_⟩
    obtain ⟨row, hrow, hstate⟩ := hactive
    exact ⟨row, by rw [heffect.providers]; exact hrow, hstate⟩
  · exact ⟨(keepsDefault_withFamily name true members h).1, hactive⟩

/-- The family onboarding chooses is active, enabled and, when it is managed,
managed by the provider it has a member of. -/
theorem keepsDefault_completeOnboarding
    {revision : OnboardingProjection → String}
    {command : CompleteProviderOnboardingCommand} {permitted : List HarnessId}
    {now : String}
    (hrun : db.completeProviderOnboarding library revision command permitted
      now = .ok db') : KeepsDefault db db' := by
  obtain ⟨snapshot, harness, family, middle, hsnapshot, hprovider, hfamily,
    ⟨row, hrow, henabled, hactive⟩, ⟨member, hmember, hmemberOf⟩, rfl⟩ :=
    completeProviderOnboarding_ok hrun
  intro h
  obtain ⟨hmiddle, hstands⟩ := settled_onboardingFamily h
    (by rw [hsnapshot]; exact hprovider) hfamily
  rw [hsnapshot] at hstands
  have hstate : middle.book family = some row.state := book_of_row hrow
  refine ⟨⟨hmiddle.orderly, hmiddle.owned, hmiddle.members, ?_, ?_⟩, ?_⟩
  · intro id hid
    obtain rfl := Option.some.inj hid
    exact Option.isSome_iff_exists.mpr ⟨row.state, hstate⟩
  · intro id state provider hid hstored howned
    obtain rfl := Option.some.inj hid
    have hmembers := hmiddle.members family state provider hstored howned
    obtain rfl : command.providerId = provider :=
      hmemberOf.symm.trans (hmembers member hmember)
    exact ⟨rfl, hstands⟩
  · intro _ id state hid hstored
    obtain rfl := Option.some.inj hid
    change middle.book family = some state at hstored
    rw [hstate] at hstored
    obtain rfl := Option.some.inj hstored
    exact ⟨henabled, .inl hactive⟩

/-! ## Every step -/

/-- A step that keeps the default, and has no guard to meet. -/
theorem DefaultEffect.of_unguarded {label : CatalogLabel} (h : Settled db)
    (hkeeps : KeepsDefault db db') (hguard : db.KeepsChoice label)
    (hleaves : db.LeavesDefault label db') : DefaultEffect db label db' := by
  obtain ⟨hsettled, husable⟩ := hkeeps h
  exact ⟨hsettled, fun hdb => ⟨fun _ => hguard, fun _ => husable hdb⟩, hleaves⟩

theorem effect_runCatalog {operation : CatalogOperation} (h : Settled db)
    (hrun : db.runCatalog library operation = .ok db') :
    DefaultEffect db (.catalog operation) db' := by
  cases operation with
  | publishCatalog => exact publishProviderCatalog_effect h hrun
  | initializeCatalog =>
      simp only [runCatalog, bind_eq_ok_iff] at hrun
      obtain ⟨_, -, hstart⟩ := hrun
      exact .of_unguarded h
        (keepsDefault_start (initializeModelCatalog_frame hstart)) trivial
        trivial
  | updateRules command =>
      simp only [runCatalog, updateHarnessModelRules, bind_eq_ok_iff,
        pure_eq_ok_iff] at hrun
      obtain ⟨_, -, row, -, _, -, middle, hrules, rfl⟩ := hrun
      obtain ⟨rows, rfl⟩ := replaceRules_ok hrules
      exact .of_unguarded h
        (keepsDefault_of_same ⟨rfl, rfl⟩ rfl rfl (.of_eq rfl)) trivial trivial
  | publishReadiness accepted updates =>
      simp only [runCatalog, bind_eq_ok_iff, pure_eq_ok_iff] at hrun
      obtain ⟨⟨final, generations⟩, hbatch, rfl⟩ := hrun
      obtain ⟨harnesses, rfl⟩ := updateHarnessRuntimeAvailability_ok hbatch
      exact .of_unguarded h
        (keepsDefault_of_same ⟨rfl, rfl⟩ rfl rfl (.of_eq rfl)) trivial trivial
  | createProvider definition snapshot policy now =>
      simp only [runCatalog, admitsProvider, bind_eq_ok_iff,
        require_eq_ok_iff] at hrun
      obtain ⟨_, ⟨_, hadmitted, -⟩, hcreate⟩ := hrun
      exact .of_unguarded h (keepsDefault_createProvider hadmitted.1 hcreate)
        trivial trivial
  | syncProviders =>
      exact .of_unguarded h (keepsDefault_sync hrun) trivial trivial
  | createFamily command =>
      simp only [runCatalog, bind_eq_ok_iff] at hrun
      obtain ⟨_, -, hcreate⟩ := hrun
      exact .of_unguarded h (keepsDefault_createModelFamily hcreate) trivial
        trivial
  | updateFamily command =>
      simp only [runCatalog, bind_eq_ok_iff] at hrun
      obtain ⟨_, hadmitted, hupdate⟩ := hrun
      exact .of_unguarded h
        (keepsDefault_updateModelFamily hadmitted hupdate) trivial trivial
  | deleteFamily id now =>
      simp only [runCatalog, bind_eq_ok_iff, pure_eq_ok_iff] at hrun
      obtain ⟨⟨deleted, final⟩, hdelete, rfl⟩ := hrun
      exact .of_unguarded h (keepsDefault_deleteModelFamily hdelete) trivial
        trivial
  | reorderFamilies familyIds =>
      exact .of_unguarded h
        (keepsDefault_renumbered (reorderModelFamilies_ok hrun)) trivial
        trivial
  | updateDefaults =>
      exact .of_unguarded h (keepsDefault_updateDefaults hrun) trivial trivial
  | completeOnboarding =>
      exact .of_unguarded h (keepsDefault_completeOnboarding hrun) trivial
        trivial

theorem effect_step {label : CatalogLabel} (h : Settled db)
    (hstep : CatalogStep library db label db') : DefaultEffect db label db' := by
  cases hstep with
  | catalog hrun => exact effect_runCatalog h hrun
  | turn hrun =>
      exact .of_unguarded h (keepsDefault_sameCatalog (sameCatalog_runTurn hrun))
        trivial trivial
  | beside hbeside =>
      exact .of_unguarded h (keepsDefault_sameCatalog hbeside.catalog) trivial
        trivial

end CatalogDatabase

open CatalogDatabase

/-! ## Every run -/

variable {library : CatalogLibrary} {db : CatalogDatabase}
  {steps : List (CatalogDatabase × CatalogLabel)}

theorem settled_of_reachable
    (hdb : (catalogSystem library WithoutFamilies).Reachable db) :
    Settled db := by
  refine hdb.invariant ?_ ?_
  · intro store hstore
    exact settled_of_withoutFamilies hstore
  · intro store label next _ h hstep
    exact (effect_step h hstep).settled

/-- The default stands throughout a run exactly when no publish of the run
moves an unset default to a family that is switched off; a publish for one
provider never moves a default of the user or of another provider. -/
theorem defaultStands_along_iff
    (htrace : (catalogSystem library WithoutFamilies).Trace steps db) :
    (HoldsAlong DefaultStands steps db ↔ GuardedBy KeepsChoice steps) ∧
      ∀ label db', CatalogStep library db label db' →
        db.LeavesDefault label db' := by
  constructor
  · apply htrace.holdsAlong_iff_guardedBy
    · intro store hstore
      rw [defaultStands_iff (settled_of_withoutFamilies hstore)]
      exact usable_of_withoutFamilies hstore
    · intro store label next hreached hstands hstep
      have hsettled := settled_of_reachable hreached
      have heffect := effect_step hsettled hstep
      rw [defaultStands_iff heffect.settled]
      exact heffect.usable ((defaultStands_iff hsettled).mp hstands)
  · intro label db' hstep
    exact (effect_step (settled_of_reachable htrace.reachable) hstep).leaves

/-- A provider is created, the user switches its family off, and the provider
publishes its catalog again. -/
def disabledDefaultRun : List CatalogLabel :=
  let model : CatalogModelSnapshot :=
    { id := "m-1", label := "M1", order := 0, visible := true,
      available := true, unavailableReason := none, providerDefault := true,
      replacementModelId := none, metadata := "{}" }
  let snapshot : ProviderCatalogSnapshot :=
    { providerId := "acme", label := "Acme", connected := true,
      unavailableReason := none, models := [model],
      systemFamily := some ⟨"acme", "Acme defaults", ["m-1"]⟩ }
  let policy : Option FamilyPolicyReference :=
    some ⟨"provider-default-family", 1⟩
  [.catalog (.createProvider
      { id := "acme", adapterId := "openai-api", label := "Acme",
        endpoint := none, accessContract := "secret@1",
        credentialReference := none, lifecycleState := .active,
        removedAt := none } snapshot policy "1"),
    .catalog (.updateFamily ⟨⟨1⟩, none, false, none⟩),
    .catalog (.publishCatalog snapshot ⟨1, none⟩ policy "2")]

/-- The default is the family, and it is off. -/
def disabledDefault (db : CatalogDatabase) : Bool :=
  decide (db.preferences.defaultFamily = some ⟨1⟩) &&
    (db.families.get? ⟨1⟩).any fun row =>
      decide (row.lifecycleState = .active) && !row.enabled

theorem withoutFamilies_fresh : WithoutFamilies fresh :=
  ⟨fun id => Table.get?_empty id, rfl⟩

theorem not_stands_of_disabledDefault (h : disabledDefault db = true) :
    ¬ DefaultStands db := by
  simp only [disabledDefault, Bool.and_eq_true, decide_eq_true_eq,
    Option.any_eq_true, Bool.not_eq_true'] at h
  obtain ⟨hdefault, row, hrow, hactive, hoff⟩ := h
  intro hstands
  obtain ⟨stored, hstored, hchoice⟩ := hstands.usable ⟨1⟩ hdefault
  rw [hrow] at hstored
  obtain rfl := Option.some.inj hstored
  rcases hchoice with ⟨-, hon⟩ | ⟨-, htombstoned, -⟩
  · rw [hoff] at hon
    cases hon
  · rw [hactive] at htombstoned
    cases htombstoned

theorem exists_disabledDefault : ∃ db,
    disabledDefaultRun.foldlM (nextCatalog plainLibrary) fresh = some db ∧
      disabledDefault db = true ∧
        (catalogSystem plainLibrary WithoutFamilies).Reachable db := by
  have hrun : (disabledDefaultRun.foldlM (nextCatalog plainLibrary)
      fresh).any disabledDefault = true := by decide
  obtain ⟨db, hrun, hoff⟩ := (Option.any_eq_true _ _).mp hrun
  refine ⟨db, hrun, hoff, ?_⟩
  exact Reachable.of_foldlM (fun _ _ _ => step_of_nextCatalog plainLibrary)
    (.init withoutFamilies_fresh) hrun

/-- A refresh makes a family the default that the user has switched off. -/
theorem refresh_chooses_disabledFamily : ∃ db,
    disabledDefaultRun.foldlM (nextCatalog plainLibrary) fresh = some db ∧
      (catalogSystem plainLibrary WithoutFamilies).Reachable db ∧
        disabledDefault db = true ∧ ¬ DefaultStands db := by
  obtain ⟨db, hrun, hoff, hreached⟩ := exists_disabledDefault
  exact ⟨db, hrun, hreached, hoff, not_stands_of_disabledDefault hoff⟩

theorem defaultStands_along_disabledDefault : ∃ steps db,
    (catalogSystem plainLibrary WithoutFamilies).Trace steps db ∧
      disabledDefaultRun.foldlM (nextCatalog plainLibrary) fresh = some db ∧
        ¬ GuardedBy KeepsChoice steps := by
  obtain ⟨db, hrun, hoff, hreached⟩ := exists_disabledDefault
  obtain ⟨steps, htrace⟩ := hreached.exists_trace
  refine ⟨steps, db, htrace, hrun, ?_⟩
  intro hguarded
  have hholds := (defaultStands_along_iff htrace).1.mpr hguarded
  exact not_stands_of_disabledDefault hoff hholds.2

end RelayerGraph
