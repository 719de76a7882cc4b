import RelayerGraph.Catalog.DefaultFamily

/-!
# What moves the default

A refresh replaces the managed family of a provider, and a publish then moves
the default to it when the old one was managed by the provider, or when none
was set and no other ready provider is the chosen one.  Settings and
onboarding name a family that is active and enabled.
-/

namespace RelayerGraph

open Foundation Checked

namespace CatalogDatabase

variable {library : CatalogLibrary} {db db' : CatalogDatabase}

/-! ## A refresh -/

/-- A publish for the provider moves the default. -/
def MovesDefault (db : CatalogDatabase) (provider : ProviderId) : Prop :=
  (∃ id state, db.preferences.defaultFamily = some id ∧
      db.book id = some state ∧ state.managedProviderId = some provider) ∨
    db.preferences.defaultFamily = none ∧
      (db.preferences.defaultProvider = provider ∨
        db.providerReady db.preferences.defaultProvider = false)

/-- What a refresh leaves of families, members and the default. -/
structure RefreshEffect (db : CatalogDatabase) (provider : ProviderId)
    (policy : FamilyPolicyReference) (reconcile : Bool) (id : ModelFamilyId)
    (db' : CatalogDatabase) : Prop where
  refreshes : db.book.Refreshes provider policy id
  book : db'.book = db.book.refreshed provider policy id
  providers : db'.providers = db.providers
  members : ∃ stored, MembersOf provider stored ∧
    db'.members = Function.update db.members id stored
  moved : reconcile = true → db.MovesDefault provider →
    db'.preferences.defaultFamily = some id ∧
      db'.preferences.defaultProvider = provider
  stayed : ¬ (reconcile = true ∧ db.MovesDefault provider) →
    db'.preferences = db.preferences

theorem defaultFamilyRow_eq_some_iff {id : ModelFamilyId} {row : FamilyRow} :
    db.defaultFamilyRow = some (id, row) ↔
      db.preferences.defaultFamily = some id ∧
        db.families.get? id = some row := by
  constructor
  · intro h
    simp only [defaultFamilyRow, Option.bind_eq_bind, Option.bind_eq_some_iff,
      Option.pure_def, Option.some.injEq, Prod.mk.injEq] at h
    obtain ⟨stored, hstored, found, hfound, rfl, rfl⟩ := h
    exact ⟨hstored, hfound⟩
  · rintro ⟨hid, hrow⟩
    simp [defaultFamilyRow, hid, hrow]

/-- No default is a legacy family. -/
theorem Settled.legacyDefault (h : Settled db) (provider : ProviderId) :
    (db.defaultFamilyRow.any fun family =>
      db.soleLegacyFamily provider family.1 family.2) = false := by
  cases hdefault : db.defaultFamilyRow with
  | none => rfl
  | some family =>
      obtain ⟨-, hrow⟩ := defaultFamilyRow_eq_some_iff.mp hdefault
      exact soleLegacyFamily_eq_false h.orderly hrow provider

/-- What manages a stored family stays through a refresh. -/
theorem refreshed_managed {book : FamilyBook} {provider : ProviderId}
    {policy : FamilyPolicyReference} {id key : ModelFamilyId}
    {state : FamilyState} (hrefreshes : book.Refreshes provider policy id)
    (hstate : book key = some state) :
    ∃ state', book.refreshed provider policy id key = some state' ∧
      state'.managedProviderId = state.managedProviderId := by
  by_cases hkey : key = id
  · subst hkey
    refine ⟨_, FamilyBook.refreshed_self, ?_⟩
    rcases hrefreshes with ⟨stored, hstored, howned, -⟩ | ⟨hnone, -⟩
    · rw [hstate] at hstored
      obtain rfl := Option.some.inj hstored
      exact howned.symm
    · rw [hstate] at hnone
      cases hnone
  · have hmanaged :
        (FamilyBook.besideRefreshed provider policy state).managedProviderId =
          state.managedProviderId := FamilyBook.besideRefreshed_managed state
    refine ⟨_, ?_, hmanaged⟩
    rw [FamilyBook.refreshed_of_ne hkey, hstate]
    rfl

/-- The condition on the default, read after the refresh, is the one on the
store before it. -/
theorem reconcilesDefault_iff {numbered : CatalogDatabase}
    {provider : ProviderId} {policy : FamilyPolicyReference}
    {id : ModelFamilyId} (h : Settled db)
    (hrefreshes : db.book.Refreshes provider policy id)
    (hbook : numbered.book = db.book.refreshed provider policy id)
    (hproviders : numbered.providers = db.providers)
    (hpreferences : numbered.preferences = db.preferences) :
    numbered.reconcilesDefault false provider = true ↔
      db.MovesDefault provider := by
  have horderly : numbered.book.Orderly := by
    rw [hbook]
    exact h.orderly.refreshed hrefreshes
  have hready : numbered.providerReady db.preferences.defaultProvider =
      db.providerReady db.preferences.defaultProvider := by
    simp only [providerReady, hproviders]
  have hunset : (numbered.preferences.defaultFamily.isNone &&
        (decide (numbered.preferences.defaultProvider = provider) ||
          !numbered.providerReady numbered.preferences.defaultProvider)) =
        true ↔ db.preferences.defaultFamily = none ∧
          (db.preferences.defaultProvider = provider ∨
            db.providerReady db.preferences.defaultProvider = false) := by
    rw [hpreferences, hready]
    simp
  have hmanaged : (numbered.defaultFamilyRow.any fun family =>
        decide (family.2.kind = .system) &&
          decide (family.2.managedProviderId = some provider)) = true ↔
      ∃ key state, db.preferences.defaultFamily = some key ∧
        db.book key = some state ∧
          state.managedProviderId = some provider := by
    rw [Option.any_eq_true]
    constructor
    · rintro ⟨⟨key, row⟩, hdefault, hrow⟩
      obtain ⟨hkey, hstored⟩ := defaultFamilyRow_eq_some_iff.mp hdefault
      simp only [Bool.and_eq_true, decide_eq_true_eq] at hrow
      rw [hpreferences] at hkey
      obtain ⟨state, hstate⟩ :=
        Option.isSome_iff_exists.mp (h.stored key hkey)
      obtain ⟨state', hstate', hsame⟩ := refreshed_managed hrefreshes hstate
      rw [← hbook, book_of_row hstored] at hstate'
      obtain rfl := Option.some.inj hstate'
      exact ⟨key, state, hkey, hstate, hsame.symm.trans hrow.2⟩
    · rintro ⟨key, state, hkey, hstate, howned⟩
      obtain ⟨state', hstate', hsame⟩ := refreshed_managed hrefreshes hstate
      rw [← hbook] at hstate'
      obtain ⟨row, hrow, rfl⟩ := book_eq_some_iff.mp hstate'
      have hprovider : row.managedProviderId = some provider :=
        hsame.trans howned
      have hsystem : row.kind = .system := by
        apply (horderly.managed key row.state hstate').1.mpr
        simp [FamilyRow.state, hprovider]
      refine ⟨(key, row), defaultFamilyRow_eq_some_iff.mpr ⟨?_, hrow⟩, ?_⟩
      · rw [hpreferences]
        exact hkey
      · simp [hsystem, hprovider]
  unfold reconcilesDefault MovesDefault
  rw [Bool.false_or, Bool.or_eq_true, hmanaged, hunset]

/-- A refresh stores members of the provider. -/
theorem membersOf_upserted {snapshot : ProviderCatalogSnapshot}
    {systemFamily : SystemFamilySnapshot} {policy : FamilyPolicyReference}
    {members stored : List ModelFamilyMember} {id : ModelFamilyId}
    (hown : ∀ key row, db.families.get? key = some row →
      row.managedProviderId = some snapshot.providerId →
        MembersOf snapshot.providerId (db.members key))
    (hmembers : MembersOf snapshot.providerId members)
    (hrun : db.upsertManagedFamily library snapshot systemFamily policy
      members = .ok (id, stored, db')) :
    MembersOf snapshot.providerId stored ∧ db'.members = db.members ∧
      db'.providers = db.providers ∧ db'.preferences = db.preferences := by
  rcases upsertManagedFamily_ok hrun with
    ⟨name, key, changed, hfound, rfl, rfl⟩ | ⟨name, key, -, -, rfl, rfl⟩
  · obtain ⟨row, hrow, hmanaged⟩ := Table.get?_of_head?_select hfound
    simp only [Bool.and_eq_true, decide_eq_true_eq] at hmanaged
    exact ⟨membersOf_retain hmembers (hown id row hrow hmanaged.1), rfl, rfl,
      rfl⟩
  · exact ⟨hmembers, rfl, rfl, rfl⟩

theorem replaceSystemFamily_effect {snapshot : ProviderCatalogSnapshot}
    {systemFamily : SystemFamilySnapshot} {policy : FamilyPolicyReference}
    {reconcile : Bool} {now : String} {id : ModelFamilyId} (h : Settled db)
    (hrun : db.replaceSystemFamily library snapshot systemFamily policy
      reconcile now = .ok (id, db')) :
    RefreshEffect db snapshot.providerId policy reconcile id db' := by
  obtain ⟨hrefreshes, hbook⟩ := replaceSystemFamily_book h.orderly hrun
  obtain ⟨stored, upserted, numbered, hupsert, -, hnumbered, hfinal⟩ :=
    replaceSystemFamily_ok hrun
  have hretired : (db.retiredBefore snapshot.providerId policy now).book =
      fun key => (db.book key).map
        (retiredState snapshot.providerId policy) :=
    book_retiredBefore h.orderly
  have hown : ∀ key row,
      (db.retiredBefore snapshot.providerId policy now).families.get? key =
        some row → row.managedProviderId = some snapshot.providerId →
        MembersOf snapshot.providerId
          ((db.retiredBefore snapshot.providerId policy now).members key) := by
    intro key row hrow howned
    have hstate := book_of_row hrow
    rw [hretired] at hstate
    obtain ⟨state, hold, hsame⟩ := Option.map_eq_some_iff.mp hstate
    have hmanaged :
        (retiredState snapshot.providerId policy state).managedProviderId =
          state.managedProviderId := retiredState_managed state
    refine h.members key state snapshot.providerId hold ?_
    rw [← hmanaged, hsame]
    exact howned
  obtain ⟨hstored, hmembers, hproviders, hpreferences⟩ :=
    membersOf_upserted hown (membersOf_snapshot _ _) hupsert
  have hnumberedBook : numbered.book =
      db.book.refreshed snapshot.providerId policy id := by
    rw [← hbook, hfinal]
    exact (book_congr rfl).symm
  have hnumberedProviders : numbered.providers = db.providers :=
    hnumbered.providers.trans hproviders
  have hnumberedPreferences : numbered.preferences = db.preferences :=
    hnumbered.preferences.trans hpreferences
  have hmoves := reconcilesDefault_iff h hrefreshes hnumberedBook
    hnumberedProviders hnumberedPreferences
  rw [h.legacyDefault] at hfinal
  have hresult : db'.preferences =
      numbered.reconciledPreferences reconcile false snapshot.providerId id := by
    rw [hfinal]
  refine ⟨hrefreshes, hbook, ?_, ⟨storedMembers stored,
    membersOf_stored hstored, ?_⟩, ?_, ?_⟩
  · rw [hfinal]
    exact hnumberedProviders
  · rw [hfinal]
    refine hnumbered.members.trans ?_
    dsimp only
    rw [hmembers]
    rfl
  · intro hreconcile hmoved
    rw [hresult, reconciledPreferences,
      if_pos ⟨hreconcile, hmoves.mpr hmoved⟩]
    exact ⟨rfl, rfl⟩
  · intro hstays
    rw [hresult, reconciledPreferences, if_neg, hnumberedPreferences]
    exact fun hmoved => hstays ⟨hmoved.1, hmoves.mp hmoved.2⟩

/-! ## The default after a refresh -/

section Refresh

variable {provider : ProviderId} {policy : FamilyPolicyReference}
  {reconcile : Bool} {id : ModelFamilyId}

theorem Settled.refreshed (h : Settled db)
    (heffect : RefreshEffect db provider policy reconcile id db')
    (hactive : db.ActiveProvider provider) : Settled db' := by
  obtain ⟨stored, hstored, hmembers⟩ := heffect.members
  have hstands : ∀ owner, db.ActiveProvider owner →
      db'.ActiveProvider owner := by
    rintro owner ⟨row, hrow, hactive⟩
    exact ⟨row, by rw [heffect.providers]; exact hrow, hactive⟩
  refine ⟨?_, ?_, ?_, ?_, ?_⟩
  · rw [heffect.book]
    exact h.orderly.refreshed heffect.refreshes
  · intro key state' owner hstate' howned
    rw [heffect.book] at hstate'
    rw [heffect.providers]
    rcases FamilyBook.refreshed_cases hstate' with
      ⟨-, rfl⟩ | ⟨-, state, hstate, rfl⟩
    · obtain rfl : provider = owner := Option.some.inj howned
      obtain ⟨row, hrow, -⟩ := hactive
      rw [hrow]
      rfl
    · rw [FamilyBook.besideRefreshed_managed] at howned
      exact h.owned key state owner hstate howned
  · intro key state' owner hstate' howned
    rw [heffect.book] at hstate'
    rw [hmembers]
    rcases FamilyBook.refreshed_cases hstate' with
      ⟨hkey, rfl⟩ | ⟨hkey, state, hstate, rfl⟩
    · obtain rfl : provider = owner := Option.some.inj howned
      rw [hkey, Function.update_self]
      exact hstored
    · rw [FamilyBook.besideRefreshed_managed] at howned
      rw [Function.update_of_ne hkey]
      exact h.members key state owner hstate howned
  · intro key hkey
    by_cases hmoved : reconcile = true ∧ db.MovesDefault provider
    · obtain ⟨hfamily, -⟩ := heffect.moved hmoved.1 hmoved.2
      rw [hfamily] at hkey
      obtain rfl := Option.some.inj hkey
      rw [heffect.book, FamilyBook.refreshed_self]
      rfl
    · rw [heffect.stayed hmoved] at hkey
      obtain ⟨state, hstate⟩ := Option.isSome_iff_exists.mp (h.stored key hkey)
      obtain ⟨state', hstate', -⟩ :=
        refreshed_managed heffect.refreshes hstate
      rw [heffect.book, hstate']
      rfl
  · intro key state' owner hkey hstate' howned
    rw [heffect.book] at hstate'
    by_cases hmoved : reconcile = true ∧ db.MovesDefault provider
    · obtain ⟨hfamily, hprovider⟩ := heffect.moved hmoved.1 hmoved.2
      rw [hfamily] at hkey
      obtain rfl := Option.some.inj hkey
      rw [FamilyBook.refreshed_self] at hstate'
      obtain rfl := Option.some.inj hstate'
      obtain rfl : provider = owner := Option.some.inj howned
      exact ⟨hprovider, hstands provider hactive⟩
    · rw [heffect.stayed hmoved] at hkey ⊢
      obtain ⟨state, hstate⟩ := Option.isSome_iff_exists.mp (h.stored key hkey)
      obtain ⟨stored', hstored', hsame⟩ :=
        refreshed_managed heffect.refreshes hstate
      rw [hstate'] at hstored'
      obtain rfl := Option.some.inj hstored'
      obtain ⟨hpaired, hactive'⟩ :=
        h.paired key state owner hkey hstate (hsame.symm.trans howned)
      exact ⟨hpaired, hstands owner hactive'⟩

/-- A moved default is usable exactly when the refreshed family is on. -/
theorem usable_moved
    (heffect : RefreshEffect db provider policy reconcile id db')
    (hreconcile : reconcile = true) (hmoves : db.MovesDefault provider) :
    Usable db' ↔
      (FamilyBook.refreshedState provider policy (db.book id)).enabled =
        true := by
  obtain ⟨hfamily, -⟩ := heffect.moved hreconcile hmoves
  have hstate : db'.book id =
      some (FamilyBook.refreshedState provider policy (db.book id)) := by
    rw [heffect.book, FamilyBook.refreshed_self]
  constructor
  · intro husable
    exact (husable id _ hfamily hstate).1
  · intro henabled key state hkey hstored
    rw [hfamily] at hkey
    obtain rfl := Option.some.inj hkey
    rw [hstate] at hstored
    obtain rfl := Option.some.inj hstored
    exact ⟨henabled, .inl rfl⟩

/-- A default the provider does not manage is untouched by its refresh. -/
theorem usable_beside (h : Settled db)
    (heffect : RefreshEffect db provider policy reconcile id db')
    (hsame : db'.preferences = db.preferences)
    (hother : ∀ key state, db.preferences.defaultFamily = some key →
      db.book key = some state → state.managedProviderId ≠ some provider)
    (husable : Usable db) : Usable db' := by
  apply husable.carried h (.of_eq hsame)
  intro key state state' hkey hstate hstate' henabled hstands
  have hne := hother key state hkey hstate
  have hkeyNe : key ≠ id := by
    rintro rfl
    rcases heffect.refreshes with ⟨stored, hstored, howned, -⟩ | ⟨hnone, -⟩
    · rw [hstate] at hstored
      obtain rfl := Option.some.inj hstored
      exact hne howned
    · rw [hstate] at hnone
      cases hnone
  rw [heffect.book, FamilyBook.refreshed_of_ne hkeyNe, hstate,
    Option.map_some, FamilyBook.besideRefreshed_of_ne hne] at hstate'
  obtain rfl := Option.some.inj hstate'
  exact ⟨henabled, hstands⟩

/-- The refreshed family is on unless it stood switched off. -/
theorem enabled_refreshedState_iff {old : Option FamilyState} :
    (FamilyBook.refreshedState provider policy old).enabled = true ↔
      ∀ state, old = some state → state.standing → state.enabled = true := by
  cases old with
  | none => simp [FamilyBook.refreshedState]
  | some state =>
      by_cases hstands : state.standing
      · simp [FamilyBook.refreshedState, hstands]
      · simp [FamilyBook.refreshedState, hstands]

/-- When the default was managed by the provider and usable, the refreshed
family is on: it is the default itself, or none of its policy stood. -/
theorem enabled_of_managedDefault (h : Settled db) (husable : Usable db)
    (hrefreshes : db.book.Refreshes provider policy id)
    {key : ModelFamilyId} {state : FamilyState}
    (hkey : db.preferences.defaultFamily = some key)
    (hstate : db.book key = some state)
    (howned : state.managedProviderId = some provider) :
    (FamilyBook.refreshedState provider policy (db.book id)).enabled =
      true := by
  obtain ⟨henabled, hstands⟩ := husable key state hkey hstate
  rw [enabled_refreshedState_iff]
  intro stored hstored hstanding
  rcases hrefreshes with ⟨found, hfound, howner, -⟩ | ⟨hnone, -⟩
  · rw [hstored] at hfound
    obtain rfl := Option.some.inj hfound
    obtain rfl : id = key := h.orderly.oneStands id stored key state provider
      hstored hstate howner howned hstanding hstands
    rw [hstate] at hstored
    obtain rfl := Option.some.inj hstored
    exact henabled
  · rw [hstored] at hnone
    cases hnone

end Refresh

/-! ## A publish -/

theorem published_book {snapshot : ProviderCatalogSnapshot}
    {stamp : ProviderConnectionStamp} {now : String} {row : ProviderRow} :
    (db.published snapshot stamp now row).book = db.book := book_congr rfl

theorem keepsProviders_put (id : ProviderId) (row : ProviderRow)
    (h : db'.providers = db.providers.put id row)
    (hactive : ∀ old, db.providers.get? id = some old →
      old.lifecycleState = .active → id = db.preferences.defaultProvider →
        row.lifecycleState = .active) : KeepsProviders db db' := by
  refine ⟨?_, ?_⟩
  · intro other hother
    rw [h, Keyed.get?_put]
    split
    · rfl
    · exact hother
  · rintro ⟨old, hold, holdActive⟩
    by_cases hid : id = db.preferences.defaultProvider
    · refine ⟨row, ?_, hactive old (by rw [hid]; exact hold) holdActive hid⟩
      rw [h, ← hid, Keyed.get?_put_self]
    · refine ⟨old, ?_, holdActive⟩
      rw [h, Keyed.get?_put_of_ne _ _ (Ne.symm hid)]
      exact hold

theorem keepsDefault_published {snapshot : ProviderCatalogSnapshot}
    {stamp : ProviderConnectionStamp} {now : String} {row : ProviderRow}
    (hactive : row.lifecycleState = .active) :
    KeepsDefault db (db.published snapshot stamp now row) :=
  keepsDefault_of_same ⟨rfl, rfl⟩ rfl rfl
    (keepsProviders_put snapshot.providerId _ rfl fun _ _ _ _ => hactive)

theorem activeProvider_published {snapshot : ProviderCatalogSnapshot}
    {stamp : ProviderConnectionStamp} {now : String} {row : ProviderRow}
    (hactive : row.lifecycleState = .active) :
    (db.published snapshot stamp now row).ActiveProvider
      snapshot.providerId :=
  ⟨publishedProvider snapshot stamp now row, Keyed.get?_put_self _ _ _,
    hactive⟩

/-- Whether the provider's publish moves the default is read off the store
before it. -/
theorem movesDefault_published {snapshot : ProviderCatalogSnapshot}
    {stamp : ProviderConnectionStamp} {now : String} {row : ProviderRow} :
    (db.published snapshot stamp now row).MovesDefault snapshot.providerId ↔
      db.MovesDefault snapshot.providerId := by
  have hready : db.preferences.defaultProvider ≠ snapshot.providerId →
      (db.published snapshot stamp now row).providerReady
          db.preferences.defaultProvider =
        db.providerReady db.preferences.defaultProvider := by
    intro hne
    have hget : (db.published snapshot stamp now row).providers.get?
          db.preferences.defaultProvider =
        db.providers.get? db.preferences.defaultProvider :=
      Keyed.get?_put_of_ne _ _ hne
    simp only [providerReady, hget]
  have hunset : (db.preferences.defaultProvider = snapshot.providerId ∨
        (db.published snapshot stamp now row).providerReady
          db.preferences.defaultProvider = false) ↔
      db.preferences.defaultProvider = snapshot.providerId ∨
        db.providerReady db.preferences.defaultProvider = false := by
    by_cases hsame : db.preferences.defaultProvider = snapshot.providerId
    · simp only [hsame, true_or]
    · rw [hready hsame]
  unfold MovesDefault
  rw [published_book]
  exact or_congr Iff.rfl (and_congr Iff.rfl hunset)

/-- A zero-eligible refresh keeps the provider's family for recovery, with the
user's choice. -/
theorem keepsDefault_suspended {provider : ProviderId} {now : String}
    (hrun : db.tombstoneManagedProviderFamilies provider now
      .noEligibleModels = .ok db') : KeepsDefault db db' := by
  have hbook := book_tombstoned hrun
  obtain ⟨middle, rfl, hnumbered⟩ := tombstoneManagedProviderFamilies_ok hrun
  have hmanaged : ∀ state : FamilyState,
      (if state.managedProviderId = some provider ∧
          state.lifecycleState = .active then
        { state with
          lifecycleState := .tombstoned
          tombstoneCause := some .noEligibleModels }
      else state).managedProviderId = state.managedProviderId := by
    intro state
    split <;> rfl
  intro h
  have hdefault : SameDefault db db' := .of_eq hnumbered.preferences
  refine ⟨h.carried hdefault (.of_eq hnumbered.providers)
    (.of_map hbook ?_ ?_ ?_), ?_⟩
  · rw [hbook]
    exact h.orderly.suspended provider
  · intro id state
    exact hmanaged state
  · intro id state owner _ _
    rw [hnumbered.members]
  · intro husable
    apply husable.carried h hdefault
    intro id state state' _ hstate hstate' henabled hstands
    simp only [hbook, FamilyBook.suspended, hstate, Option.map_some,
      Option.some.injEq] at hstate'
    subst hstate'
    split
    · exact ⟨henabled, .inr rfl⟩
    · exact ⟨henabled, hstands⟩

/-- The removal of a provider is not that of the default one, so the default
stays. -/
theorem keepsDefault_dismissed {provider : ProviderId} {now : String}
    (hother : db.preferences.defaultProvider ≠ provider)
    (hrun : db.tombstoneManagedProviderFamilies provider now
      .providerRemoval = .ok db') : KeepsDefault db db' := by
  have hbook := book_dismissed hrun
  obtain ⟨middle, rfl, hnumbered⟩ := tombstoneManagedProviderFamilies_ok hrun
  have hmanaged : ∀ state : FamilyState,
      (if state.managedProviderId = some provider then
        { state with
          lifecycleState := .tombstoned
          enabled := false
          tombstoneCause := none }
      else state).managedProviderId = state.managedProviderId := by
    intro state
    split <;> rfl
  intro h
  have hdefault : SameDefault db db' := .of_eq hnumbered.preferences
  refine ⟨h.carried hdefault (.of_eq hnumbered.providers)
    (.of_map hbook ?_ ?_ ?_), ?_⟩
  · rw [hbook]
    exact h.orderly.dismissed provider
  · intro id state
    exact hmanaged state
  · intro id state owner _ _
    rw [hnumbered.members]
  · intro husable
    apply husable.carried h hdefault
    intro id state state' hid hstate hstate' henabled hstands
    have hne : state.managedProviderId ≠ some provider := fun howned =>
      hother (h.paired id state provider hid hstate howned).1
    simp only [hbook, FamilyBook.dismissed, hstate, Option.map_some,
      Option.some.injEq, if_neg hne] at hstate'
    subst hstate'
    exact ⟨henabled, hstands⟩

/-- The guard of a publish that refreshes: with an unset default that it
moves, the refreshed family is on. -/
theorem keepsChoice_refresh_iff {snapshot : ProviderCatalogSnapshot}
    {stamp : ProviderConnectionStamp} {policy : FamilyPolicyReference}
    {now : String} {id : ModelFamilyId} (h : Settled db)
    (heligible : eligibleFamily snapshot ≠ none)
    (hunset : db.preferences.defaultFamily = none)
    (hmoves : db.MovesDefault snapshot.providerId)
    (hrefreshes : db.book.Refreshes snapshot.providerId policy id) :
    db.KeepsChoice (.catalog (.publishCatalog snapshot stamp (some policy)
        now)) ↔
      (FamilyBook.refreshedState snapshot.providerId policy
        (db.book id)).enabled = true := by
  have hcondition : db.preferences.defaultProvider = snapshot.providerId ∨
      db.providerReady db.preferences.defaultProvider = false := by
    rcases hmoves with ⟨key, state, hkey, -⟩ | ⟨-, hcondition⟩
    · rw [hunset] at hkey
      cases hkey
    · exact hcondition
  rw [enabled_refreshedState_iff]
  constructor
  · intro hguard state hstate hstands
    obtain ⟨row, hrow, rfl⟩ := book_eq_some_iff.mp hstate
    rcases hrefreshes with ⟨stored, hstored, howned, hpolicy⟩ | ⟨hnone, -⟩
    · rw [hstate] at hstored
      obtain rfl := Option.some.inj hstored
      exact hguard heligible hunset hcondition id row hrow howned hpolicy
        hstands
    · rw [hstate] at hnone
      cases hnone
  · intro henabled _ _ _ key row hrow howned hpolicy hstands
    obtain rfl : key = id := h.orderly.only_refreshed hrefreshes
      (book_of_row hrow) howned hpolicy
    exact henabled row.state (book_of_row hrow) hstands

/-- What a step does to the default. -/
structure DefaultEffect (db : CatalogDatabase) (label : CatalogLabel)
    (db' : CatalogDatabase) : Prop where
  settled : Settled db'
  usable : Usable db → (Usable db' ↔ db.KeepsChoice label)
  leaves : db.LeavesDefault label db'

/-- A publish that leaves the default pair alone. -/
theorem DefaultEffect.of_keeps {snapshot : ProviderCatalogSnapshot}
    {stamp : ProviderConnectionStamp}
    {policy : Option FamilyPolicyReference} {now : String} (h : Settled db)
    (hkeeps : KeepsDefault db db')
    (hsame : db'.preferences = db.preferences)
    (hguard : db.KeepsChoice
      (.catalog (.publishCatalog snapshot stamp policy now))) :
    DefaultEffect db (.catalog (.publishCatalog snapshot stamp policy now))
      db' := by
  obtain ⟨hsettled, husable⟩ := hkeeps h
  refine ⟨hsettled, ?_, ?_⟩
  · intro hdb
    exact ⟨fun _ => hguard, fun _ => husable hdb⟩
  · intro id row _ _ _
    exact hsame

theorem publishProviderCatalog_effect {snapshot : ProviderCatalogSnapshot}
    {stamp : ProviderConnectionStamp}
    {policy : Option FamilyPolicyReference} {now : String} (h : Settled db)
    (hrun : db.publishProviderCatalog library snapshot stamp policy now =
      .ok db') :
    DefaultEffect db (.catalog (.publishCatalog snapshot stamp policy now))
      db' := by
  obtain ⟨row, hrow, hactive, hfamilies⟩ := publishProviderCatalog_ok hrun
  have hpublished : KeepsDefault db (db.published snapshot stamp now row) :=
    keepsDefault_published hactive
  rcases hfamilies with
    ⟨systemFamily, stated, id, rfl, heligible, hreplace⟩ |
    ⟨hnone, hrest⟩
  · obtain ⟨hmiddle, husableMiddle⟩ := hpublished h
    have heffect := replaceSystemFamily_effect hmiddle hreplace
    have hsettled := hmiddle.refreshed heffect (activeProvider_published hactive)
    have hrefreshes : db.book.Refreshes snapshot.providerId stated id :=
      heffect.refreshes
    have hsome : eligibleFamily snapshot ≠ none := by
      rw [heligible]
      exact fun hnone => by cases hnone
    by_cases hmoves : db.MovesDefault snapshot.providerId
    · have hmoved := usable_moved heffect rfl
        (movesDefault_published.mpr hmoves)
      rw [published_book] at hmoved
      refine ⟨hsettled, ?_, ?_⟩
      · intro husable
        rw [hmoved]
        rcases hmoves with ⟨key, state, hkey, hstate, howned⟩ |
          ⟨hunset, hcondition⟩
        · have henabled := enabled_of_managedDefault h husable hrefreshes hkey
            hstate howned
          refine ⟨fun _ => ?_, fun _ => henabled⟩
          intro _ hunset
          rw [hkey] at hunset
          cases hunset
        · exact (keepsChoice_refresh_iff h hsome hunset
            (.inr ⟨hunset, hcondition⟩) hrefreshes).symm
      · intro key old hkey hold hother
        rcases hmoves with ⟨stored, state, hstored, hstate, howned⟩ |
          ⟨hunset, -⟩
        · rw [hkey] at hstored
          obtain rfl := Option.some.inj hstored
          rw [book_of_row hold] at hstate
          obtain rfl := Option.some.inj hstate
          exact absurd howned hother
        · rw [hkey] at hunset
          cases hunset
    · have hsame : db'.preferences = db.preferences :=
        heffect.stayed fun hmoved =>
          hmoves (movesDefault_published.mp hmoved.2)
      have hkept : Usable db → Usable db' := by
        intro husable
        apply usable_beside hmiddle heffect hsame ?_ (husableMiddle husable)
        intro key state hkey hstate howned
        exact hmoves (.inl ⟨key, state, hkey, hstate, howned⟩)
      refine .of_keeps h (fun _ => ⟨hsettled, hkept⟩) hsame ?_
      intro _ hunset hcondition
      exact absurd (.inr ⟨hunset, hcondition⟩) hmoves
  · have hguard : db.KeepsChoice
        (.catalog (.publishCatalog snapshot stamp policy now)) := by
      rcases hnone with rfl | hineligible
      · trivial
      · cases policy with
        | none => trivial
        | some stated =>
            intro heligible
            exact absurd hineligible heligible
    rcases hrest with htombstone | rfl
    · have hsame : db'.preferences = db.preferences := by
        obtain ⟨middle, rfl, hnumbered⟩ :=
          tombstoneManagedProviderFamilies_ok htombstone
        exact hnumbered.preferences
      exact .of_keeps h (hpublished.trans (keepsDefault_suspended htombstone))
        hsame hguard
    · exact .of_keeps h hpublished rfl hguard

end CatalogDatabase

end RelayerGraph
