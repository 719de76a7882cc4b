import RelayerGraph.Catalog.FamilyEffects

/-!
# The book of families

Seen from the defaults, a family is what manages it, whether it is active and
enabled, and whether it is kept for recovery.  The book holds that of every
family.  Renumbering leaves the book as it is, and each operation on families
is one of a few moves: an entry is added, switched, retired, refreshed for a
policy, or a provider's entries are suspended or dismissed.
-/

namespace RelayerGraph

open Foundation Checked

/-- What decides whether a family can be the default. -/
structure FamilyState where
  kind : ModelFamilyKind
  managedProviderId : Option ProviderId
  policy : Option FamilyPolicyReference
  lifecycleState : FamilyLifecycle
  enabled : Bool
  tombstoneCause : Option TombstoneCause
deriving DecidableEq

def FamilyRow.state (row : FamilyRow) : FamilyState where
  kind := row.kind
  managedProviderId := row.managedProviderId
  policy := row.policy
  lifecycleState := row.lifecycleState
  enabled := row.enabled
  tombstoneCause := row.tombstoneCause

/-- The family stands: it is active, or kept for recovery. -/
def FamilyState.standing (state : FamilyState) : Prop :=
  state.lifecycleState = .active ∨
    state.tombstoneCause = some .noEligibleModels

instance (state : FamilyState) : Decidable state.standing := by
  unfold FamilyState.standing
  infer_instance

abbrev FamilyBook := ModelFamilyId → Option FamilyState

namespace FamilyBook

/-! ## Orderly books -/

/-- Managed families have a provider and a policy, no provider has two of one
policy, at most one of them stands, and only a tombstoned managed family is
kept for recovery. -/
structure Orderly (book : FamilyBook) : Prop where
  managed : ∀ id state, book id = some state →
    (state.kind = .system ↔ state.managedProviderId.isSome) ∧
      (state.policy.isSome ↔ state.managedProviderId.isSome)
  policies : ∀ id state id' state' provider,
    book id = some state → book id' = some state' →
      state.managedProviderId = some provider →
        state'.managedProviderId = some provider →
          state.policy = state'.policy → id = id'
  kept : ∀ id state cause, book id = some state →
    state.tombstoneCause = some cause →
      state.lifecycleState = .tombstoned ∧ state.managedProviderId.isSome
  oneStands : ∀ id state id' state' provider,
    book id = some state → book id' = some state' →
      state.managedProviderId = some provider →
        state'.managedProviderId = some provider →
          state.standing → state'.standing → id = id'

/-! ## The moves -/

/-- A managed family after its refresh: active, and enabled unless it is off
by the user's choice. -/
def refreshedState (provider : ProviderId) (policy : FamilyPolicyReference)
    (old : Option FamilyState) : FamilyState where
  kind := .system
  managedProviderId := some provider
  policy := some policy
  lifecycleState := .active
  enabled :=
    match old with
    | some state => if state.standing then state.enabled else true
    | none => true
  tombstoneCause := none

/-- Another family of the refreshed provider. -/
def besideRefreshed (provider : ProviderId) (policy : FamilyPolicyReference)
    (state : FamilyState) : FamilyState :=
  if state.managedProviderId = some provider then
    if state.policy ≠ some policy ∧ state.lifecycleState = .active then
      { state with
        lifecycleState := .tombstoned
        enabled := false
        tombstoneCause := none }
    else
      { state with tombstoneCause := none }
  else
    state

/-- The book after a refresh of the provider's family. -/
def refreshed (book : FamilyBook) (provider : ProviderId)
    (policy : FamilyPolicyReference) (id : ModelFamilyId) : FamilyBook :=
  fun key =>
    if key = id then some (refreshedState provider policy (book id))
    else (book key).map (besideRefreshed provider policy)

/-- The provider's active family is kept for recovery. -/
def suspended (book : FamilyBook) (provider : ProviderId) : FamilyBook :=
  fun key => (book key).map fun state =>
    if state.managedProviderId = some provider ∧
        state.lifecycleState = .active then
      { state with
        lifecycleState := .tombstoned
        tombstoneCause := some .noEligibleModels }
    else
      state

/-- The provider's families are retired with it. -/
def dismissed (book : FamilyBook) (provider : ProviderId) : FamilyBook :=
  fun key => (book key).map fun state =>
    if state.managedProviderId = some provider then
      { state with
        lifecycleState := .tombstoned
        enabled := false
        tombstoneCause := none }
    else
      state

/-- The entry a refresh is for: the provider's family of the policy, or a new
one when there is none. -/
def Refreshes (book : FamilyBook) (provider : ProviderId)
    (policy : FamilyPolicyReference) (id : ModelFamilyId) : Prop :=
  (∃ state, book id = some state ∧
      state.managedProviderId = some provider ∧ state.policy = some policy) ∨
    book id = none ∧ ∀ key state, book key = some state →
      state.managedProviderId = some provider → state.policy ≠ some policy

variable {book : FamilyBook}

/-! ## The moves keep a book orderly -/

theorem orderly_empty : Orderly fun _ => none where
  managed := fun _ _ h => by cases h
  policies := fun _ _ _ _ _ h => by cases h
  kept := fun _ _ _ h => by cases h
  oneStands := fun _ _ _ _ _ h => by cases h

/-- An entry of the user is added, or changed in its switch and lifecycle. -/
theorem Orderly.custom {id : ModelFamilyId} {state : FamilyState}
    (h : book.Orderly) (hkind : state.kind = .custom)
    (hmanaged : state.managedProviderId = none) (hpolicy : state.policy = none)
    (hcause : state.tombstoneCause = none) :
    Orderly (Function.update book id (some state)) := by
  have hother : ∀ key entry provider,
      Function.update book id (some state) key = some entry →
        entry.managedProviderId = some provider → book key = some entry := by
    intro key entry provider hentry howned
    by_cases hkey : key = id
    · rw [hkey, Function.update_self] at hentry
      obtain rfl := Option.some.inj hentry
      rw [hmanaged] at howned
      cases howned
    · rwa [Function.update_of_ne hkey] at hentry
  refine ⟨?_, ?_, ?_, ?_⟩
  · intro key entry hentry
    by_cases hkey : key = id
    · rw [hkey, Function.update_self] at hentry
      obtain rfl := Option.some.inj hentry
      simp [hkind, hmanaged, hpolicy]
    · rw [Function.update_of_ne hkey] at hentry
      exact h.managed key entry hentry
  · intro key entry key' entry' provider hentry hentry' howned howned'
    exact h.policies key entry key' entry' provider
      (hother key entry provider hentry howned)
      (hother key' entry' provider hentry' howned') howned howned'
  · intro key entry cause hentry hkept
    by_cases hkey : key = id
    · rw [hkey, Function.update_self] at hentry
      obtain rfl := Option.some.inj hentry
      rw [hcause] at hkept
      cases hkept
    · rw [Function.update_of_ne hkey] at hentry
      exact h.kept key entry cause hentry hkept
  · intro key entry key' entry' provider hentry hentry' howned howned'
    exact h.oneStands key entry key' entry' provider
      (hother key entry provider hentry howned)
      (hother key' entry' provider hentry' howned') howned howned'

/-- A move that keeps what manages each entry, and makes none stand. -/
theorem Orderly.map {change : ModelFamilyId → FamilyState → FamilyState}
    (h : book.Orderly)
    (hkind : ∀ id state, (change id state).kind = state.kind)
    (hmanaged : ∀ id state,
      (change id state).managedProviderId = state.managedProviderId)
    (hpolicy : ∀ id state, (change id state).policy = state.policy)
    (hkept : ∀ id state cause, book id = some state →
      (change id state).tombstoneCause = some cause →
        (change id state).lifecycleState = .tombstoned ∧
          state.managedProviderId.isSome)
    (hstands : ∀ id state, book id = some state →
      state.managedProviderId.isSome → (change id state).standing →
        state.standing) :
    Orderly fun id => (book id).map (change id) := by
  refine ⟨?_, ?_, ?_, ?_⟩
  · intro id entry hentry
    obtain ⟨state, hstate, rfl⟩ := Option.map_eq_some_iff.mp hentry
    rw [hkind, hmanaged, hpolicy]
    exact h.managed id state hstate
  · intro id entry id' entry' provider hentry hentry' howned howned' hsame
    obtain ⟨state, hstate, rfl⟩ := Option.map_eq_some_iff.mp hentry
    obtain ⟨state', hstate', rfl⟩ := Option.map_eq_some_iff.mp hentry'
    rw [hmanaged] at howned howned'
    rw [hpolicy, hpolicy] at hsame
    exact h.policies id state id' state' provider hstate hstate' howned howned'
      hsame
  · intro id entry cause hentry hcause
    obtain ⟨state, hstate, rfl⟩ := Option.map_eq_some_iff.mp hentry
    rw [hmanaged]
    exact hkept id state cause hstate hcause
  · intro id entry id' entry' provider hentry hentry' howned howned' hst hst'
    obtain ⟨state, hstate, rfl⟩ := Option.map_eq_some_iff.mp hentry
    obtain ⟨state', hstate', rfl⟩ := Option.map_eq_some_iff.mp hentry'
    rw [hmanaged] at howned howned'
    exact h.oneStands id state id' state' provider hstate hstate' howned
      howned' (hstands id state hstate (by rw [howned]; rfl) hst)
      (hstands id' state' hstate' (by rw [howned']; rfl) hst')

theorem Orderly.suspended (h : book.Orderly) (provider : ProviderId) :
    Orderly (book.suspended provider) := by
  apply h.map
  · intro id state
    split <;> rfl
  · intro id state
    split <;> rfl
  · intro id state
    split <;> rfl
  · intro id state cause hstate hcause
    split at hcause
    case isTrue hactive =>
        rw [if_pos hactive]
        exact ⟨rfl, by rw [hactive.1]; rfl⟩
    case isFalse hother =>
        rw [if_neg hother]
        exact h.kept id state cause hstate hcause
  · intro id state hstate _ hstands
    split at hstands
    case isTrue hactive => exact .inl hactive.2
    case isFalse => exact hstands

theorem Orderly.dismissed (h : book.Orderly) (provider : ProviderId) :
    Orderly (book.dismissed provider) := by
  apply h.map
  · intro id state
    split <;> rfl
  · intro id state
    split <;> rfl
  · intro id state
    split <;> rfl
  · intro id state cause hstate hcause
    split at hcause
    case isTrue => cases hcause
    case isFalse hother =>
        rw [if_neg hother]
        exact h.kept id state cause hstate hcause
  · intro id state hstate _ hstands
    split at hstands
    case isTrue =>
        rcases hstands with hactive | hcause
        · cases hactive
        · cases hcause
    case isFalse => exact hstands

section Refresh

variable {provider : ProviderId} {policy : FamilyPolicyReference}
  {id : ModelFamilyId}

theorem besideRefreshed_kind (state : FamilyState) :
    (besideRefreshed provider policy state).kind = state.kind := by
  unfold besideRefreshed
  split
  · split <;> rfl
  · rfl

theorem besideRefreshed_managed (state : FamilyState) :
    (besideRefreshed provider policy state).managedProviderId =
      state.managedProviderId := by
  unfold besideRefreshed
  split
  · split <;> rfl
  · rfl

theorem besideRefreshed_policy (state : FamilyState) :
    (besideRefreshed provider policy state).policy = state.policy := by
  unfold besideRefreshed
  split
  · split <;> rfl
  · rfl

/-- The families of another provider, and those of the user, stay. -/
theorem besideRefreshed_of_ne {state : FamilyState}
    (h : state.managedProviderId ≠ some provider) :
    besideRefreshed provider policy state = state :=
  if_neg h

/-- No other family of the provider stands after the refresh. -/
theorem not_standing_besideRefreshed {state : FamilyState}
    (howned : state.managedProviderId = some provider)
    (hpolicy : state.policy ≠ some policy) :
    ¬ (besideRefreshed provider policy state).standing := by
  unfold besideRefreshed
  rw [if_pos howned]
  by_cases hactive : state.lifecycleState = .active
  · rw [if_pos ⟨hpolicy, hactive⟩]
    rintro (h | h)
    · cases h
    · cases h
  · rw [if_neg fun h => hactive h.2]
    rintro (h | h)
    · exact hactive h
    · cases h

/-- Only the refreshed family has the provider's policy. -/
theorem Orderly.only_refreshed (h : book.Orderly)
    (hrefreshes : book.Refreshes provider policy id) {key : ModelFamilyId}
    {state : FamilyState} (hstate : book key = some state)
    (howned : state.managedProviderId = some provider)
    (hpolicy : state.policy = some policy) : key = id := by
  rcases hrefreshes with ⟨stored, hstored, howner, hsame⟩ | ⟨-, hnone⟩
  · exact h.policies key state id stored provider hstate hstored howned howner
      (hpolicy.trans hsame.symm)
  · exact absurd hpolicy (hnone key state hstate howned)

theorem refreshed_self :
    book.refreshed provider policy id id =
      some (refreshedState provider policy (book id)) :=
  if_pos rfl

theorem refreshed_of_ne {key : ModelFamilyId} (hkey : key ≠ id) :
    book.refreshed provider policy id key =
      (book key).map (besideRefreshed provider policy) :=
  if_neg hkey

/-- An entry of the refreshed book is the refreshed one, or another entry
beside it. -/
theorem refreshed_cases {key : ModelFamilyId} {entry : FamilyState}
    (hentry : book.refreshed provider policy id key = some entry) :
    key = id ∧ entry = refreshedState provider policy (book id) ∨
      key ≠ id ∧ ∃ state, book key = some state ∧
        entry = besideRefreshed provider policy state := by
  by_cases hkey : key = id
  · rw [hkey, refreshed_self] at hentry
    exact .inl ⟨hkey, (Option.some.inj hentry).symm⟩
  · rw [refreshed_of_ne hkey] at hentry
    obtain ⟨state, hstate, rfl⟩ := Option.map_eq_some_iff.mp hentry
    exact .inr ⟨hkey, state, hstate, rfl⟩

/-- A standing family of the provider is the refreshed one. -/
theorem Orderly.stands_refreshed (h : book.Orderly)
    (hrefreshes : book.Refreshes provider policy id) {key : ModelFamilyId}
    {entry : FamilyState}
    (hentry : book.refreshed provider policy id key = some entry)
    (howned : entry.managedProviderId = some provider)
    (hstands : entry.standing) : key = id := by
  rcases refreshed_cases hentry with ⟨hkey, -⟩ | ⟨hkey, state, hstate, rfl⟩
  · exact hkey
  · rw [besideRefreshed_managed] at howned
    by_cases hpolicy : state.policy = some policy
    · exact h.only_refreshed hrefreshes hstate howned hpolicy
    · exact absurd hstands (not_standing_besideRefreshed howned hpolicy)

theorem Orderly.refreshed (h : book.Orderly)
    (hrefreshes : book.Refreshes provider policy id) :
    Orderly (book.refreshed provider policy id) := by
  refine ⟨?_, ?_, ?_, ?_⟩
  · intro key entry hentry
    rcases refreshed_cases hentry with ⟨-, rfl⟩ | ⟨-, state, hstate, rfl⟩
    · simp [refreshedState]
    · rw [besideRefreshed_kind, besideRefreshed_managed,
        besideRefreshed_policy]
      exact h.managed key state hstate
  · intro key entry key' entry' owner hentry hentry' howned howned' hsame
    rcases refreshed_cases hentry with ⟨hkey, rfl⟩ | ⟨hkey, state, hstate, rfl⟩
    · rcases refreshed_cases hentry' with
        ⟨hkey', -⟩ | ⟨hkey', state', hstate', rfl⟩
      · rw [hkey, hkey']
      · rw [besideRefreshed_managed] at howned'
        rw [besideRefreshed_policy] at hsame
        obtain rfl : provider = owner := Option.some.inj howned
        rw [hkey]
        exact (h.only_refreshed hrefreshes hstate' howned' hsame.symm).symm
    · rw [besideRefreshed_managed] at howned
      rw [besideRefreshed_policy] at hsame
      rcases refreshed_cases hentry' with
        ⟨hkey', rfl⟩ | ⟨hkey', state', hstate', rfl⟩
      · obtain rfl : provider = owner := Option.some.inj howned'
        rw [hkey']
        exact h.only_refreshed hrefreshes hstate howned hsame
      · rw [besideRefreshed_managed] at howned'
        rw [besideRefreshed_policy] at hsame
        exact h.policies key state key' state' owner hstate hstate' howned
          howned' hsame
  · intro key entry cause hentry hcause
    rcases refreshed_cases hentry with ⟨-, rfl⟩ | ⟨-, state, hstate, rfl⟩
    · cases hcause
    · by_cases howned : state.managedProviderId = some provider
      · exfalso
        unfold besideRefreshed at hcause
        rw [if_pos howned] at hcause
        split at hcause
        · cases hcause
        · cases hcause
      · rw [besideRefreshed_of_ne howned] at hcause ⊢
        exact h.kept key state cause hstate hcause
  · intro key entry key' entry' owner hentry hentry' howned howned' hst hst'
    by_cases howner : owner = provider
    · rw [howner] at howned howned'
      rw [h.stands_refreshed hrefreshes hentry howned hst,
        h.stands_refreshed hrefreshes hentry' howned' hst']
    · have hold : ∀ {key entry},
          book.refreshed provider policy id key = some entry →
            entry.managedProviderId = some owner →
              book key = some entry := by
        intro key entry hentry howned
        rcases refreshed_cases hentry with ⟨-, rfl⟩ | ⟨-, state, hstate, rfl⟩
        · exact absurd (Option.some.inj howned).symm howner
        · rw [besideRefreshed_managed] at howned
          have hne : state.managedProviderId ≠ some provider := by
            rw [howned]
            exact fun hsame => howner (Option.some.inj hsame)
          rw [besideRefreshed_of_ne hne]
          exact hstate
      exact h.oneStands key entry key' entry' owner (hold hentry howned)
        (hold hentry' howned') howned howned' hst hst'

end Refresh

end FamilyBook

/-! ## The book of a store -/

namespace CatalogDatabase

/-- The book of a store's families. -/
def book (db : CatalogDatabase) : FamilyBook :=
  fun id => (db.families.get? id).map FamilyRow.state

variable {db db' : CatalogDatabase}

theorem book_eq_some_iff {id : ModelFamilyId} {state : FamilyState} :
    db.book id = some state ↔
      ∃ row, db.families.get? id = some row ∧ row.state = state :=
  Option.map_eq_some_iff

theorem book_eq_none_iff {id : ModelFamilyId} :
    db.book id = none ↔ db.families.get? id = none :=
  Option.map_eq_none_iff

theorem book_of_row {id : ModelFamilyId} {row : FamilyRow}
    (h : db.families.get? id = some row) : db.book id = some row.state :=
  book_eq_some_iff.mpr ⟨row, h, rfl⟩

theorem book_congr (h : db'.families = db.families) : db'.book = db.book := by
  funext id
  simp only [book, h]

/-- Renumbering leaves the book as it is. -/
theorem book_renumbered {ids : List ModelFamilyId}
    (h : Renumbered db ids db') : db'.book = db.book := by
  funext id
  simp only [book, h.families, get?_numbering, Option.map_map]
  rfl

theorem book_insert {row : FamilyRow}
    (h : db'.families = db.families.insert row) :
    db'.book = Function.update db.book db.families.nextKey
      (some row.state) := by
  funext id
  simp only [book, h, Table.get?_insert, Function.update_apply]
  split <;> rfl

theorem book_mapRows (change : ModelFamilyId → FamilyRow → FamilyRow)
    (move : ModelFamilyId → FamilyState → FamilyState)
    (h : db'.families = db.families.mapRows change)
    (hchange : ∀ id row, db.families.get? id = some row →
      (change id row).state = move id row.state) :
    db'.book = fun id => (db.book id).map (move id) := by
  funext id
  simp only [book, h, Table.get?_mapRows, Option.map_map]
  cases hrow : db.families.get? id with
  | none => rfl
  | some row =>
      simp only [Option.map_some, Function.comp_apply]
      rw [hchange id row hrow]

theorem book_updateFamiliesWhere
    {condition : ModelFamilyId → FamilyRow → Bool}
    {change : FamilyRow → FamilyRow}
    (move : ModelFamilyId → FamilyState → FamilyState)
    (hchange : ∀ id row, db.families.get? id = some row →
      (if condition id row = true then change row else row).state =
        move id row.state) :
    (db.updateFamiliesWhere condition change).book =
      fun id => (db.book id).map (move id) := by
  have hfamilies : (db.updateFamiliesWhere condition change).families =
      db.families.mapRows fun id row =>
        if condition id row = true then change row else row := rfl
  exact book_mapRows _ move hfamilies hchange

theorem book_tombstoned {provider : ProviderId} {now : String}
    (hrun : db.tombstoneManagedProviderFamilies provider now
      .noEligibleModels = .ok db') :
    db'.book = db.book.suspended provider := by
  obtain ⟨middle, rfl, hnumbered⟩ := tombstoneManagedProviderFamilies_ok hrun
  rw [book_renumbered hnumbered]
  refine book_mapRows (fun _ row => tombstonedFamily provider now _ row)
    (fun _ state => _) rfl ?_
  intro id row _
  by_cases hactive : row.managedProviderId = some provider ∧
      row.lifecycleState = .active
  · simp [tombstonedFamily, FamilyRow.state, hactive]
  · simp [tombstonedFamily, FamilyRow.state, hactive]

theorem book_dismissed {provider : ProviderId} {now : String}
    (hrun : db.tombstoneManagedProviderFamilies provider now
      .providerRemoval = .ok db') :
    db'.book = db.book.dismissed provider := by
  obtain ⟨middle, rfl, hnumbered⟩ := tombstoneManagedProviderFamilies_ok hrun
  rw [book_renumbered hnumbered]
  refine book_mapRows (fun _ row => tombstonedFamily provider now _ row)
    (fun _ state => _) rfl ?_
  intro id row _
  by_cases howned : row.managedProviderId = some provider
  · simp [tombstonedFamily, FamilyRow.state, howned]
  · simp [tombstonedFamily, FamilyRow.state, howned]

/-! ## A refresh -/

/-- In an orderly book every system family is managed, so none is a legacy
family. -/
theorem soleLegacyFamily_eq_false (h : db.book.Orderly) {id : ModelFamilyId}
    {row : FamilyRow} (hrow : db.families.get? id = some row)
    (provider : ProviderId) : db.soleLegacyFamily provider id row = false := by
  have hmanaged := (h.managed id row.state (book_of_row hrow)).1
  cases howner : row.managedProviderId with
  | none =>
      have hkind : row.kind ≠ .system := by
        intro hsystem
        have hsome := hmanaged.mp hsystem
        simp [FamilyRow.state, howner] at hsome
      simp [soleLegacyFamily, hkind]
  | some owner => simp [soleLegacyFamily, howner]

/-- What the first statements of a refresh do to a row. -/
def retiredState (provider : ProviderId) (policy : FamilyPolicyReference)
    (state : FamilyState) : FamilyState :=
  if state.managedProviderId = some provider ∧ state.policy ≠ some policy ∧
      state.lifecycleState = .active then
    { state with lifecycleState := .tombstoned, enabled := false }
  else
    state

theorem book_retiredBefore (h : db.book.Orderly) {provider : ProviderId}
    {policy : FamilyPolicyReference} {now : String} :
    (db.retiredBefore provider policy now).book =
      fun id => (db.book id).map (retiredState provider policy) := by
  have hlegacy : db.updateFamiliesWhere (db.soleLegacyFamily provider)
      (retired now) = db := by
    have hrows : (db.families.mapRows fun id row =>
        if db.soleLegacyFamily provider id row then retired now row
        else row) = db.families := by
      rw [← Table.mapRows_self db.families, Table.mapRows_mapRows]
      apply Table.mapRows_congr
      intro id row hrow
      simp [soleLegacyFamily_eq_false h hrow provider]
    simp only [updateFamiliesWhere, hrows]
  unfold retiredBefore
  rw [hlegacy]
  refine book_updateFamiliesWhere (fun _ => retiredState provider policy) ?_
  intro id row hrow
  have hpolicy := (h.managed id row.state (book_of_row hrow)).2
  by_cases howned : row.managedProviderId = some provider
  · obtain ⟨stored, hstored⟩ : ∃ stored, row.policy = some stored := by
      apply Option.isSome_iff_exists.mp
      apply hpolicy.mpr
      simp [FamilyRow.state, howned]
    by_cases hretires : stored ≠ policy ∧ row.lifecycleState = .active
    · have hcondition : (decide (row.managedProviderId = some provider) &&
          (row.policy.any fun stored => decide (stored ≠ policy)) &&
            decide (row.lifecycleState = .active)) = true := by
        simp [howned, hstored, hretires.1, hretires.2]
      rw [if_pos hcondition]
      simp [retiredState, FamilyRow.state, retired, howned, hstored, hretires]
    · have hcondition : ¬ (decide (row.managedProviderId = some provider) &&
          (row.policy.any fun stored => decide (stored ≠ policy)) &&
            decide (row.lifecycleState = .active)) = true := by
        simpa [howned, hstored] using hretires
      rw [if_neg hcondition]
      have hstate : ¬ (row.managedProviderId = some provider ∧
          row.policy ≠ some policy ∧ row.lifecycleState = .active) := by
        rintro ⟨-, hne, hactive⟩
        apply hretires
        exact ⟨fun hsame => hne (by rw [hstored, hsame]), hactive⟩
      exact (if_neg hstate).symm
  · simp [retiredState, FamilyRow.state, howned]

theorem retiredState_managed {provider : ProviderId}
    {policy : FamilyPolicyReference} (state : FamilyState) :
    (retiredState provider policy state).managedProviderId =
      state.managedProviderId := by
  unfold retiredState
  split <;> rfl

theorem retiredState_policy {provider : ProviderId}
    {policy : FamilyPolicyReference} (state : FamilyState) :
    (retiredState provider policy state).policy = state.policy := by
  unfold retiredState
  split <;> rfl

theorem retiredState_of_policy {provider : ProviderId}
    {policy : FamilyPolicyReference} {state : FamilyState}
    (h : state.policy = some policy) :
    retiredState provider policy state = state :=
  if_neg fun hretires => hretires.2.1 h

/-- Retiring makes no family stand. -/
theorem orderly_retired {book : FamilyBook} (h : book.Orderly)
    (provider : ProviderId) (policy : FamilyPolicyReference) :
    FamilyBook.Orderly fun id =>
      (book id).map (retiredState provider policy) := by
  apply FamilyBook.Orderly.map h
  · intro id state
    unfold retiredState
    split <;> rfl
  · intro id state
    exact retiredState_managed state
  · intro id state
    exact retiredState_policy state
  · intro id state cause hstate hcause
    unfold retiredState at hcause ⊢
    split at hcause
    case isTrue hretires =>
        rw [if_pos hretires]
        exact ⟨rfl, by rw [hretires.1]; rfl⟩
    case isFalse hother =>
        rw [if_neg hother]
        exact h.kept id state cause hstate hcause
  · intro id state _ _ hstands
    unfold retiredState at hstands
    split at hstands
    case isTrue hretires => exact .inl hretires.2.2
    case isFalse => exact hstands

/-- A family that is no longer kept for recovery. -/
def withoutCause (provider : ProviderId) (id key : ModelFamilyId)
    (state : FamilyState) : FamilyState :=
  if state.managedProviderId = some provider ∧ key ≠ id then
    { state with tombstoneCause := none }
  else
    state

theorem book_withoutCauseBeside (provider : ProviderId) (id : ModelFamilyId) :
    (db.withoutCauseBeside provider id).book =
      fun key => (db.book key).map (withoutCause provider id key) := by
  refine book_updateFamiliesWhere (withoutCause provider id) ?_
  intro key row _
  by_cases hother : row.managedProviderId = some provider ∧ key ≠ id
  · simp [withoutCause, FamilyRow.state, hother]
  · have hcondition : ¬ (decide (row.managedProviderId = some provider) &&
        decide (key ≠ id)) = true := by
      simpa using hother
    rw [if_neg hcondition]
    exact (if_neg hother).symm

/-- Retired and no longer kept is what a refresh makes of another family. -/
theorem withoutCause_retiredState {provider : ProviderId}
    {policy : FamilyPolicyReference} {id key : ModelFamilyId}
    (hkey : key ≠ id) (state : FamilyState) :
    withoutCause provider id key (retiredState provider policy state) =
      FamilyBook.besideRefreshed provider policy state := by
  unfold FamilyBook.besideRefreshed
  by_cases howned : state.managedProviderId = some provider
  · rw [if_pos howned, withoutCause, retiredState_managed,
      if_pos ⟨howned, hkey⟩]
    by_cases hretires : state.policy ≠ some policy ∧
        state.lifecycleState = .active
    · rw [if_pos hretires, retiredState, if_pos ⟨howned, hretires⟩]
    · rw [if_neg hretires, retiredState,
        if_neg fun h => hretires ⟨h.2.1, h.2.2⟩]
  · rw [if_neg howned, withoutCause, retiredState_managed,
      if_neg fun h => howned h.1, retiredState, if_neg fun h => howned h.1]

/-- The state of the family an update refreshes. -/
theorem refreshedFamily_state {provider : ProviderId}
    {policy : FamilyPolicyReference} {name key : String} {changed : Bool}
    {row : FamilyRow} (hkind : row.kind = .system)
    (howned : row.managedProviderId = some provider)
    (hpolicy : row.policy = some policy) :
    (refreshedFamily name key changed row).state =
      FamilyBook.refreshedState provider policy (some row.state) := by
  simp [refreshedFamily, FamilyRow.state, FamilyBook.refreshedState, hkind,
    howned, hpolicy, FamilyState.standing]

/-- A refresh finds the provider's family of the policy or makes one, and
moves the book accordingly. -/
theorem book_upserted {library : CatalogLibrary}
    {snapshot : ProviderCatalogSnapshot} {systemFamily : SystemFamilySnapshot}
    {policy : FamilyPolicyReference} {members stored : List ModelFamilyMember}
    {id : ModelFamilyId} (h : db.book.Orderly)
    (hrun : db.upsertManagedFamily library snapshot systemFamily policy
      members = .ok (id, stored, db')) :
    db.book.Refreshes snapshot.providerId policy id ∧
      db'.book = fun key =>
        if key = id then
          some (FamilyBook.refreshedState snapshot.providerId policy
            (db.book id))
        else db.book key := by
  rcases upsertManagedFamily_ok hrun with
    ⟨name, systemKey, changed, hfound, -, rfl⟩ |
    ⟨name, systemKey, hfound, rfl, -, rfl⟩
  · obtain ⟨row, hrow, hmanaged⟩ := Table.get?_of_head?_select hfound
    simp only [Bool.and_eq_true, decide_eq_true_eq] at hmanaged
    obtain ⟨howned, hpolicy⟩ := hmanaged
    have hkind : row.kind = .system := by
      apply (h.managed id row.state (book_of_row hrow)).1.mpr
      simp [FamilyRow.state, howned]
    refine ⟨.inl ⟨row.state, book_of_row hrow, howned, hpolicy⟩, ?_⟩
    funext key
    by_cases hkey : key = id
    · subst hkey
      simp only [book, Table.get?_mapRows, hrow, Option.map_some, if_pos]
      rw [refreshedFamily_state hkind howned hpolicy]
    · simp only [book, Table.get?_mapRows, if_neg hkey, Option.map_id']
  · have hnone : db.book db.families.nextKey = none :=
      book_eq_none_iff.mpr (Table.get?_nextKey _)
    refine ⟨.inr ⟨hnone, ?_⟩, ?_⟩
    · intro key state hstate howned hpolicy
      obtain ⟨row, hrow, rfl⟩ := book_eq_some_iff.mp hstate
      have hselected : key ∈ db.families.select fun _ row =>
          decide (row.managedProviderId = some snapshot.providerId) &&
            decide (row.policy = some policy) :=
        Table.mem_select.mpr ⟨row, hrow, by
          simp only [Bool.and_eq_true, decide_eq_true_eq]
          exact ⟨howned, hpolicy⟩⟩
      rw [managedFamily, List.head?_eq_none_iff] at hfound
      rw [hfound] at hselected
      cases hselected
    · rw [book_insert rfl]
      funext key
      rw [Function.update_apply, hnone]
      rfl

/-- A refresh moves the book as `FamilyBook.refreshed` says. -/
theorem replaceSystemFamily_book {library : CatalogLibrary}
    {snapshot : ProviderCatalogSnapshot} {systemFamily : SystemFamilySnapshot}
    {policy : FamilyPolicyReference} {reconcile : Bool} {now : String}
    {id : ModelFamilyId} (h : db.book.Orderly)
    (hrun : db.replaceSystemFamily library snapshot systemFamily policy
      reconcile now = .ok (id, db')) :
    db.book.Refreshes snapshot.providerId policy id ∧
      db'.book = db.book.refreshed snapshot.providerId policy id := by
  obtain ⟨stored, upserted, numbered, hupsert, -, hnumbered, rfl⟩ :=
    replaceSystemFamily_ok hrun
  let provider := snapshot.providerId
  have hretired : (db.retiredBefore provider policy now).book =
      fun key => (db.book key).map (retiredState provider policy) :=
    book_retiredBefore h
  have horderly : (db.retiredBefore provider policy now).book.Orderly := by
    rw [hretired]
    exact orderly_retired h provider policy
  obtain ⟨hrefreshes, hupserted⟩ := book_upserted horderly hupsert
  rw [hretired] at hrefreshes hupserted
  have hsame : FamilyBook.refreshedState provider policy
        ((db.book id).map (retiredState provider policy)) =
      FamilyBook.refreshedState provider policy (db.book id) := by
    rcases hrefreshes with ⟨state, hstate, -, hpolicy⟩ | ⟨hnone, -⟩
    · obtain ⟨old, hold, rfl⟩ := Option.map_eq_some_iff.mp hstate
      rw [retiredState_policy] at hpolicy
      rw [hold, Option.map_some, retiredState_of_policy hpolicy]
    · have habsent : db.book id = none := Option.map_eq_none_iff.mp hnone
      rw [habsent]
      rfl
  refine ⟨?_, ?_⟩
  · rcases hrefreshes with ⟨state, hstate, howned, hpolicy⟩ | ⟨hnone, hothers⟩
    · obtain ⟨old, hold, rfl⟩ := Option.map_eq_some_iff.mp hstate
      rw [retiredState_managed] at howned
      rw [retiredState_policy] at hpolicy
      exact .inl ⟨old, hold, howned, hpolicy⟩
    · refine .inr ⟨Option.map_eq_none_iff.mp hnone, ?_⟩
      intro key state hstate howned
      have hretiredKey : (db.book key).map (retiredState provider policy) =
          some (retiredState provider policy state) := by
        rw [hstate]
        rfl
      have hother := hothers key _ hretiredKey
        (by rw [retiredState_managed]; exact howned)
      rwa [retiredState_policy] at hother
  · have hnumberedBook : numbered.book =
        (upserted.withoutCauseBeside provider id).book :=
      (book_renumbered hnumbered).trans (book_congr rfl)
    have hfinal : ({ numbered with
        preferences := numbered.reconciledPreferences reconcile
          (db.defaultFamilyRow.any fun family =>
            db.soleLegacyFamily provider family.1 family.2)
          provider id } : CatalogDatabase).book = numbered.book :=
      book_congr rfl
    rw [hfinal, hnumberedBook, book_withoutCauseBeside, hupserted]
    funext key
    beta_reduce
    by_cases hkey : key = id
    · rw [if_pos hkey, hkey, FamilyBook.refreshed_self, hsame, Option.map_some,
        withoutCause, if_neg fun hne => hne.2 rfl]
    · rw [if_neg hkey, FamilyBook.refreshed_of_ne hkey, Option.map_map]
      congr 1
      funext state
      exact withoutCause_retiredState hkey state

end CatalogDatabase

end RelayerGraph
