import RelayerGraph.Catalog.ManagedFamilies
import RelayerGraph.Catalog.ProviderEffects
import RelayerGraph.Catalog.StartEffects

/-!
# The default family

The default stays a family that can be used, as long as no refresh chooses the
default by provider alone.  What every operation keeps is that the default is
a stored family, paired with its provider while it is managed.  What one step
can break is that the family stands and is enabled: a publish moves an unset
default to the refreshed family, switched on or not.
-/

namespace RelayerGraph

open Foundation Checked

namespace CatalogDatabase

/-! ## The default of a store -/

/-- The provider is stored and active. -/
def ActiveProvider (db : CatalogDatabase) (provider : ProviderId) : Prop :=
  ∃ row, db.providers.get? provider = some row ∧ row.lifecycleState = .active

/-- The managed family kept for the recovery of an active provider: it is in
recovery, or awaits the provider's next eligible refresh. -/
def KeptForRecovery (db : CatalogDatabase) (row : FamilyRow) : Prop :=
  row.kind = .system ∧ row.lifecycleState = .tombstoned ∧
    row.tombstoneCause = some .noEligibleModels ∧ row.enabled = true ∧
      ∃ provider, row.managedProviderId = some provider ∧
        db.ActiveProvider provider

/-- The default can be used and is paired with its provider, and a provider
has at most one active family and one in recovery. -/
structure DefaultStands (db : CatalogDatabase) : Prop where
  usable : ∀ id, db.preferences.defaultFamily = some id →
    ∃ row, db.families.get? id = some row ∧
      (row.lifecycleState = .active ∧ row.enabled = true ∨
        db.KeptForRecovery row)
  paired : ∀ id row provider, db.preferences.defaultFamily = some id →
    db.families.get? id = some row →
      row.managedProviderId = some provider →
        db.preferences.defaultProvider = provider
  oneActive : ∀ id row id' row' provider,
    db.families.get? id = some row → db.families.get? id' = some row' →
      row.managedProviderId = some provider →
        row'.managedProviderId = some provider →
          row.lifecycleState = .active → row'.lifecycleState = .active →
            id = id'
  oneInRecovery : ∀ id row id' row' provider,
    db.families.get? id = some row → db.families.get? id' = some row' →
      row.managedProviderId = some provider →
        row'.managedProviderId = some provider →
          db.familyInRecovery row = true → db.familyInRecovery row' = true →
            id = id'

/-- A publish for a provider leaves a default alone that is the user's or
managed by another provider. -/
def LeavesDefault (db : CatalogDatabase) :
    CatalogLabel → CatalogDatabase → Prop
  | .catalog (.publishCatalog snapshot _ _ _), db' =>
      ∀ id row, db.preferences.defaultFamily = some id →
        db.families.get? id = some row →
          row.managedProviderId ≠ some snapshot.providerId →
            db'.preferences = db.preferences
  | _, _ => True

/-- A publish that moves an unset default finds no family of its policy that
is switched off. -/
def KeepsChoice (db : CatalogDatabase) : CatalogLabel → Prop
  | .catalog (.publishCatalog snapshot _ (some policy) _) =>
      eligibleFamily snapshot ≠ none →
        db.preferences.defaultFamily = none →
          (db.preferences.defaultProvider = snapshot.providerId ∨
            db.providerReady db.preferences.defaultProvider = false) →
            ∀ id row, db.families.get? id = some row →
              row.managedProviderId = some snapshot.providerId →
                row.policy = some policy →
                  (row.lifecycleState = .active ∨
                    row.tombstoneCause = some .noEligibleModels) →
                    row.enabled = true
  | _ => True

/-- No family is stored and none is the default. -/
def WithoutFamilies (db : CatalogDatabase) : Prop :=
  (∀ id, db.families.get? id = none) ∧ db.preferences.defaultFamily = none

/-! ## What every operation keeps -/

/-- The book is orderly, managed families belong to stored providers and have
only their models, and the default is stored and paired with its provider. -/
structure Settled (db : CatalogDatabase) : Prop where
  orderly : db.book.Orderly
  owned : ∀ id state provider, db.book id = some state →
    state.managedProviderId = some provider →
      (db.providers.get? provider).isSome
  members : ∀ id state provider, db.book id = some state →
    state.managedProviderId = some provider →
      MembersOf provider (db.members id)
  stored : ∀ id, db.preferences.defaultFamily = some id →
    (db.book id).isSome
  paired : ∀ id state provider, db.preferences.defaultFamily = some id →
    db.book id = some state → state.managedProviderId = some provider →
      db.preferences.defaultProvider = provider ∧ db.ActiveProvider provider

/-- The default stands and is enabled. -/
def Usable (db : CatalogDatabase) : Prop :=
  ∀ id state, db.preferences.defaultFamily = some id →
    db.book id = some state → state.enabled = true ∧ state.standing

variable {library : CatalogLibrary} {db db' : CatalogDatabase}

theorem settled_of_withoutFamilies (h : WithoutFamilies db) : Settled db := by
  have hempty : ∀ id, db.book id = none := fun id =>
    book_eq_none_iff.mpr (h.1 id)
  have hbook : db.book = fun _ => none := funext hempty
  refine ⟨?_, ?_, ?_, ?_, ?_⟩
  · rw [hbook]
    exact FamilyBook.orderly_empty
  · intro id state provider hstate
    rw [hempty] at hstate
    cases hstate
  · intro id state provider hstate
    rw [hempty] at hstate
    cases hstate
  · intro id hid
    rw [h.2] at hid
    cases hid
  · intro id state provider hid
    rw [h.2] at hid
    cases hid

theorem usable_of_withoutFamilies (h : WithoutFamilies db) : Usable db := by
  intro id state hid
  rw [h.2] at hid
  cases hid

/-- A managed family of the store is a system family. -/
theorem Settled.system (h : Settled db) {id : ModelFamilyId} {row : FamilyRow}
    {provider : ProviderId} (hrow : db.families.get? id = some row)
    (howned : row.managedProviderId = some provider) : row.kind = .system := by
  apply (h.orderly.managed id row.state (book_of_row hrow)).1.mpr
  simp [FamilyRow.state, howned]

theorem Settled.familyOwner (h : Settled db) {id : ModelFamilyId}
    {row : FamilyRow} {provider : ProviderId}
    (hrow : db.families.get? id = some row)
    (howned : row.managedProviderId = some provider) :
    familyOwner row = some provider := by
  rw [CatalogDatabase.familyOwner, if_pos (h.system hrow howned)]
  exact howned

/-- In a settled store the default stands exactly when it can be used. -/
theorem defaultStands_iff (h : Settled db) : DefaultStands db ↔ Usable db := by
  constructor
  · intro hstands id state hid hstate
    obtain ⟨row, hrow, hchoice⟩ := hstands.usable id hid
    rw [book_of_row hrow] at hstate
    obtain rfl := Option.some.inj hstate
    rcases hchoice with ⟨hactive, henabled⟩ | hkept
    · exact ⟨henabled, .inl hactive⟩
    · exact ⟨hkept.2.2.2.1, .inr hkept.2.2.1⟩
  · intro husable
    refine ⟨?_, ?_, ?_, ?_⟩
    · intro id hid
      obtain ⟨state, hstate⟩ := Option.isSome_iff_exists.mp (h.stored id hid)
      obtain ⟨row, hrow, rfl⟩ := book_eq_some_iff.mp hstate
      refine ⟨row, hrow, ?_⟩
      obtain ⟨henabled, hactive | hcause⟩ := husable id _ hid hstate
      · exact .inl ⟨hactive, henabled⟩
      · right
        obtain ⟨htombstoned, howned⟩ := h.orderly.kept id _ _ hstate hcause
        obtain ⟨provider, hprovider⟩ := Option.isSome_iff_exists.mp howned
        exact ⟨h.system hrow hprovider, htombstoned, hcause, henabled,
          provider, hprovider, (h.paired id _ provider hid hstate hprovider).2⟩
    · intro id row provider hid hrow howned
      exact (h.paired id _ provider hid (book_of_row hrow) howned).1
    · intro id row id' row' provider hrow hrow' howned howned' hactive hactive'
      exact h.orderly.oneStands id row.state id' row'.state provider
        (book_of_row hrow) (book_of_row hrow') howned howned' (.inl hactive)
        (.inl hactive')
    · intro id row id' row' provider hrow hrow' howned howned' hkept hkept'
      have hcause : ∀ {row : FamilyRow}, db.familyInRecovery row = true →
          row.state.standing := by
        intro row hrecovery
        simp only [familyInRecovery, Bool.and_eq_true,
          decide_eq_true_eq] at hrecovery
        exact .inr hrecovery.1.1.2
      exact h.orderly.oneStands id row.state id' row'.state provider
        (book_of_row hrow) (book_of_row hrow') howned howned' (hcause hkept)
        (hcause hkept')

/-! ## Steps that leave the default pair alone -/

/-- A step between settled stores that breaks no usable default. -/
def KeepsDefault (db db' : CatalogDatabase) : Prop :=
  Settled db → Settled db' ∧ (Usable db → Usable db')

theorem KeepsDefault.refl (db : CatalogDatabase) : KeepsDefault db db :=
  fun h => ⟨h, id⟩

theorem KeepsDefault.trans {db'' : CatalogDatabase} (h : KeepsDefault db db')
    (h' : KeepsDefault db' db'') : KeepsDefault db db'' := by
  intro hsettled
  obtain ⟨hmiddle, husable⟩ := h hsettled
  obtain ⟨hfinal, husable'⟩ := h' hmiddle
  exact ⟨hfinal, husable' ∘ husable⟩

/-- The default pair stays. -/
structure SameDefault (db db' : CatalogDatabase) : Prop where
  family : db'.preferences.defaultFamily = db.preferences.defaultFamily
  provider : db'.preferences.defaultProvider = db.preferences.defaultProvider

/-- Providers stay stored, and the default one stays active. -/
structure KeepsProviders (db db' : CatalogDatabase) : Prop where
  stored : ∀ id, (db.providers.get? id).isSome →
    (db'.providers.get? id).isSome
  active : db.ActiveProvider db.preferences.defaultProvider →
    db'.ActiveProvider db.preferences.defaultProvider

theorem KeepsProviders.of_eq (h : db'.providers = db.providers) :
    KeepsProviders db db' := by
  refine ⟨?_, ?_⟩
  · intro id hid
    rwa [h]
  · rintro ⟨row, hrow, hactive⟩
    exact ⟨row, by rw [h]; exact hrow, hactive⟩

/-- Every family stays with what manages it, and the managed families that
there are were there with the same members. -/
structure KeepsFamilies (db db' : CatalogDatabase) : Prop where
  orderly : db'.book.Orderly
  stays : ∀ id state, db.book id = some state → ∃ state',
    db'.book id = some state' ∧
      state'.managedProviderId = state.managedProviderId
  managed : ∀ id state' provider, db'.book id = some state' →
    state'.managedProviderId = some provider →
      ∃ state, db.book id = some state ∧
        state.managedProviderId = some provider ∧
        db'.members id = db.members id

theorem Settled.carried (h : Settled db) (hdefault : SameDefault db db')
    (hproviders : KeepsProviders db db') (hfamilies : KeepsFamilies db db') :
    Settled db' := by
  refine ⟨hfamilies.orderly, ?_, ?_, ?_, ?_⟩
  · intro id state' provider hstate' howned
    obtain ⟨state, hstate, hsame, -⟩ :=
      hfamilies.managed id state' provider hstate' howned
    exact hproviders.stored provider (h.owned id state provider hstate hsame)
  · intro id state' provider hstate' howned
    obtain ⟨state, hstate, hsame, hmembers⟩ :=
      hfamilies.managed id state' provider hstate' howned
    rw [hmembers]
    exact h.members id state provider hstate hsame
  · intro id hid
    rw [hdefault.family] at hid
    obtain ⟨state, hstate⟩ := Option.isSome_iff_exists.mp (h.stored id hid)
    obtain ⟨state', hstate', -⟩ := hfamilies.stays id state hstate
    rw [hstate']
    rfl
  · intro id state' provider hid hstate' howned
    rw [hdefault.family] at hid
    obtain ⟨state, hstate, hsame, -⟩ :=
      hfamilies.managed id state' provider hstate' howned
    obtain ⟨hprovider, hactive⟩ := h.paired id state provider hid hstate hsame
    rw [hdefault.provider]
    refine ⟨hprovider, ?_⟩
    have hkept := hproviders.active (by rw [hprovider]; exact hactive)
    rwa [hprovider] at hkept

/-- The default stays usable when its own entry does. -/
theorem Usable.carried (h : Usable db) (hsettled : Settled db)
    (hdefault : SameDefault db db')
    (hentry : ∀ id state state', db.preferences.defaultFamily = some id →
      db.book id = some state → db'.book id = some state' →
        state.enabled = true → state.standing →
          state'.enabled = true ∧ state'.standing) : Usable db' := by
  intro id state' hid hstate'
  rw [hdefault.family] at hid
  obtain ⟨state, hstate⟩ :=
    Option.isSome_iff_exists.mp (hsettled.stored id hid)
  obtain ⟨henabled, hstands⟩ := h id state hid hstate
  exact hentry id state state' hid hstate hstate' henabled hstands

/-- A step that changes neither the families nor the default. -/
theorem keepsDefault_of_same (hdefault : SameDefault db db')
    (hfamilies : db'.families = db.families)
    (hmembers : db'.members = db.members)
    (hproviders : KeepsProviders db db') : KeepsDefault db db' := by
  intro h
  have hbook : db'.book = db.book := book_congr hfamilies
  refine ⟨h.carried hdefault hproviders ⟨?_, ?_, ?_⟩, ?_⟩
  · rw [hbook]
    exact h.orderly
  · intro id state hstate
    exact ⟨state, by rw [hbook]; exact hstate, rfl⟩
  · intro id state provider hstate howned
    rw [hbook] at hstate
    exact ⟨state, hstate, howned, by rw [hmembers]⟩
  · intro husable
    apply husable.carried h hdefault
    intro id state state' _ hstate hstate' henabled hstands
    rw [hbook, hstate] at hstate'
    obtain rfl := Option.some.inj hstate'
    exact ⟨henabled, hstands⟩

/-- A move of the entries that keeps what manages them. -/
theorem KeepsFamilies.of_map {move : ModelFamilyId → FamilyState → FamilyState}
    (hbook : db'.book = fun id => (db.book id).map (move id))
    (horderly : db'.book.Orderly)
    (hmanaged : ∀ id state,
      (move id state).managedProviderId = state.managedProviderId)
    (hmembers : ∀ id state provider, db.book id = some state →
      state.managedProviderId = some provider →
        db'.members id = db.members id) : KeepsFamilies db db' := by
  refine ⟨horderly, ?_, ?_⟩
  · intro id state hstate
    refine ⟨move id state, ?_, hmanaged id state⟩
    rw [hbook]
    simp only [hstate, Option.map_some]
  · intro id state' provider hstate' howned
    rw [hbook] at hstate'
    obtain ⟨state, hstate, rfl⟩ := Option.map_eq_some_iff.mp hstate'
    rw [hmanaged] at howned
    exact ⟨state, hstate, howned, hmembers id state provider hstate howned⟩

/-! ## The families of a user -/

theorem SameDefault.of_eq (h : db'.preferences = db.preferences) :
    SameDefault db db' :=
  ⟨by rw [h], by rw [h]⟩

theorem keepsDefault_renumbered {ids : List ModelFamilyId}
    (h : Renumbered db ids db') : KeepsDefault db db' := by
  intro hsettled
  have hbook : db'.book = db.book := book_renumbered h
  have hdefault : SameDefault db db' := .of_eq h.preferences
  refine ⟨hsettled.carried hdefault (.of_eq h.providers) ⟨?_, ?_, ?_⟩, ?_⟩
  · rw [hbook]
    exact hsettled.orderly
  · intro id state hstate
    exact ⟨state, by rw [hbook]; exact hstate, rfl⟩
  · intro id state provider hstate howned
    rw [hbook] at hstate
    exact ⟨state, hstate, howned, by rw [h.members]⟩
  · intro husable
    apply husable.carried hsettled hdefault
    intro id state state' _ hstate hstate' henabled hstands
    rw [hbook, hstate] at hstate'
    obtain rfl := Option.some.inj hstate'
    exact ⟨henabled, hstands⟩

/-- A new family of the user is not the default yet. -/
theorem keepsDefault_withFamily (name : String) (enabled : Bool)
    (members : List ModelFamilyMember) :
    KeepsDefault db (db.withFamily (db.customFamily name enabled) members) := by
  intro h
  have hbook : (db.withFamily (db.customFamily name enabled) members).book =
      Function.update db.book db.families.nextKey
        (some (db.customFamily name enabled).state) := book_insert rfl
  have hfresh : db.book db.families.nextKey = none :=
    book_eq_none_iff.mpr (Table.get?_nextKey _)
  have hother : ∀ {id state}, db.book id = some state →
      id ≠ db.families.nextKey := by
    rintro id state hstate rfl
    rw [hfresh] at hstate
    cases hstate
  have hdefault : SameDefault db
      (db.withFamily (db.customFamily name enabled) members) := ⟨rfl, rfl⟩
  refine ⟨h.carried hdefault (.of_eq rfl) ⟨?_, ?_, ?_⟩, ?_⟩
  · rw [hbook]
    exact h.orderly.custom rfl rfl rfl rfl
  · intro id state hstate
    refine ⟨state, ?_, rfl⟩
    rw [hbook, Function.update_of_ne (hother hstate)]
    exact hstate
  · intro id state' provider hstate' howned
    rw [hbook] at hstate'
    by_cases hid : id = db.families.nextKey
    · rw [hid, Function.update_self] at hstate'
      obtain rfl := Option.some.inj hstate'
      cases howned
    · rw [Function.update_of_ne hid] at hstate'
      refine ⟨state', hstate', howned, ?_⟩
      exact Function.update_of_ne hid _ _
  · intro husable
    apply husable.carried h hdefault
    intro id state state' _ hstate hstate' henabled hstands
    rw [hbook, Function.update_of_ne (hother hstate), hstate] at hstate'
    obtain rfl := Option.some.inj hstate'
    exact ⟨henabled, hstands⟩

theorem keepsDefault_createModelFamily {command : CreateModelFamilyCommand}
    (hrun : db.createModelFamily command = .ok db') : KeepsDefault db db' := by
  obtain ⟨-, middle, hmiddle, hnumbered⟩ := createModelFamily_ok hrun
  have hinserted : KeepsDefault db middle := by
    rw [hmiddle]
    exact keepsDefault_withFamily _ _ _
  exact hinserted.trans (keepsDefault_renumbered hnumbered)

/-- An update switches one active family. -/
def switched (id : ModelFamilyId) (enabled : Bool) (key : ModelFamilyId)
    (state : FamilyState) : FamilyState :=
  if key = id ∧ state.lifecycleState = .active then
    { state with enabled := enabled }
  else
    state

theorem switched_managed (id : ModelFamilyId) (enabled : Bool)
    (key : ModelFamilyId) (state : FamilyState) :
    (switched id enabled key state).managedProviderId =
      state.managedProviderId := by
  unfold switched
  split <;> rfl

theorem standing_switched {id : ModelFamilyId} {enabled : Bool}
    {key : ModelFamilyId} {state : FamilyState} :
    (switched id enabled key state).standing ↔ state.standing := by
  unfold switched
  split <;> rfl

theorem orderly_switched {book : FamilyBook} (h : book.Orderly)
    (id : ModelFamilyId) (enabled : Bool) :
    FamilyBook.Orderly fun key => (book key).map (switched id enabled key) := by
  apply FamilyBook.Orderly.map h
  · intro key state
    unfold switched
    split <;> rfl
  · intro key state
    exact switched_managed id enabled key state
  · intro key state
    unfold switched
    split <;> rfl
  · intro key state cause hstate hcause
    have hkept : state.tombstoneCause = some cause := by
      unfold switched at hcause
      split at hcause
      · exact hcause
      · exact hcause
    have hsame : (switched id enabled key state).lifecycleState =
        state.lifecycleState := by
      unfold switched
      split <;> rfl
    rw [hsame]
    exact h.kept key state cause hstate hkept
  · intro key state _ _ hstands
    exact standing_switched.mp hstands

theorem updatedFamily_state (command : UpdateModelFamilyCommand)
    (key : ModelFamilyId) (row : FamilyRow) :
    (if key = command.id then updatedFamily command row else row).state =
      switched command.id command.enabled key row.state := by
  by_cases hkey : key = command.id
  · by_cases hactive : row.lifecycleState = .active
    · simp [updatedFamily, switched, FamilyRow.state, hkey, hactive]
    · simp [updatedFamily, switched, FamilyRow.state, hkey, hactive]
  · simp [switched, FamilyRow.state, hkey]

theorem updatedMembers_eq {command : UpdateModelFamilyCommand}
    {id : ModelFamilyId} (h : command.members.isSome → id ≠ command.id) :
    db.updatedMembers command id = db.members id := by
  cases hmembers : command.members with
  | none => simp only [updatedMembers, hmembers]
  | some members =>
      have hne : id ≠ command.id := h (by rw [hmembers]; rfl)
      simp only [updatedMembers, hmembers]
      exact Function.update_of_ne hne _ _

/-- The service refuses to replace the members of a system family. -/
theorem custom_of_admitsUpdate {command : UpdateModelFamilyCommand}
    {row : FamilyRow} (hadmitted : db.admitsUpdate library command = .ok ())
    (hrow : db.families.get? command.id = some row)
    (hmembers : command.members.isSome) : row.kind ≠ .system := by
  intro hsystem
  simp only [admitsUpdate, hrow, bind_eq_ok_iff,
    orThrow_eq_ok_iff] at hadmitted
  obtain ⟨stored, hstored, hadmitted⟩ := hadmitted
  obtain rfl := Option.some.inj hstored
  rw [hsystem] at hadmitted
  simp only [require_eq_ok_iff] at hadmitted
  rw [hadmitted.2] at hmembers
  cases hmembers

/-- The default is not switched off, and only the members of a family of the
user are replaced. -/
theorem keepsDefault_updateModelFamily {command : UpdateModelFamilyCommand}
    (hadmitted : db.admitsUpdate library command = .ok ())
    (hrun : db.updateModelFamily command = .ok db') : KeepsDefault db db' := by
  obtain ⟨hdefaultOn, -, rfl⟩ := updateModelFamily_ok hrun
  intro h
  have hbook : ({ db with
      families := db.families.mapRows fun key old =>
        if key = command.id then updatedFamily command old else old
      members := db.updatedMembers command } : CatalogDatabase).book =
      fun id => (db.book id).map (switched command.id command.enabled id) :=
    book_mapRows _ (switched command.id command.enabled) rfl
      fun key row _ => updatedFamily_state command key row
  have hdefault : SameDefault db { db with
      families := db.families.mapRows fun key old =>
        if key = command.id then updatedFamily command old else old
      members := db.updatedMembers command } := ⟨rfl, rfl⟩
  refine ⟨h.carried hdefault (.of_eq rfl) (.of_map hbook ?_ ?_ ?_), ?_⟩
  · rw [hbook]
    exact orderly_switched h.orderly _ _
  · intro id state
    exact switched_managed _ _ id state
  · intro id state provider hstate howned
    apply updatedMembers_eq
    rintro hmembers rfl
    obtain ⟨row, hrow, rfl⟩ := book_eq_some_iff.mp hstate
    exact custom_of_admitsUpdate hadmitted hrow hmembers
      (h.system hrow howned)
  · intro husable
    apply husable.carried h hdefault
    intro id state state' hid hstate hstate' henabled hstands
    rw [hbook] at hstate'
    simp only [hstate, Option.map_some, Option.some.injEq] at hstate'
    subst hstate'
    refine ⟨?_, standing_switched.mpr hstands⟩
    unfold switched
    split
    case isTrue hswitched =>
        by_cases hon : command.enabled = true
        · exact hon
        · have hoff : command.enabled = false := by simpa using hon
          rw [hswitched.1] at hid
          exact absurd hid (hdefaultOn hoff)
    case isFalse => exact henabled

/-- A deletion tombstones one active family of the user. -/
def discarded (db : CatalogDatabase) (id key : ModelFamilyId)
    (state : FamilyState) : FamilyState :=
  if key = id ∧ state.kind = .custom ∧ state.lifecycleState = .active ∧
      db.preferences.defaultFamily ≠ some id then
    { state with lifecycleState := .tombstoned, enabled := false }
  else
    state

theorem discarded_managed (id key : ModelFamilyId) (state : FamilyState) :
    (db.discarded id key state).managedProviderId =
      state.managedProviderId := by
  unfold discarded
  split <;> rfl

theorem orderly_discarded {book : FamilyBook} (h : book.Orderly)
    (id : ModelFamilyId) :
    FamilyBook.Orderly fun key => (book key).map (db.discarded id key) := by
  apply FamilyBook.Orderly.map h
  · intro key state
    unfold discarded
    split <;> rfl
  · intro key state
    exact discarded_managed id key state
  · intro key state
    unfold discarded
    split <;> rfl
  · intro key state cause hstate hcause
    have hkept : state.tombstoneCause = some cause := by
      unfold discarded at hcause
      split at hcause
      · exact hcause
      · exact hcause
    obtain ⟨htombstoned, howned⟩ := h.kept key state cause hstate hkept
    refine ⟨?_, howned⟩
    unfold discarded
    split
    · rfl
    · exact htombstoned
  · intro key state _ _ hstands
    unfold discarded at hstands
    split at hstands
    case isTrue hdiscards => exact .inl hdiscards.2.2.1
    case isFalse => exact hstands

theorem keepsDefault_deleteModelFamily {id : ModelFamilyId} {now : String}
    {deleted : Bool} (hrun : db.deleteModelFamily id now = .ok (deleted, db')) :
    KeepsDefault db db' := by
  obtain ⟨middle, rfl, hnumbered⟩ := deleteModelFamily_ok hrun
  refine KeepsDefault.trans ?_ (keepsDefault_renumbered hnumbered)
  intro h
  have hbook : ({ db with
      families := db.families.mapRows (db.deletedFamily id now) } :
        CatalogDatabase).book =
      fun key => (db.book key).map (db.discarded id key) := by
    refine book_mapRows _ (db.discarded id) rfl ?_
    intro key row _
    unfold deletedFamily discarded
    split
    case isTrue hdeletes =>
        exact (if_pos hdeletes).symm
    case isFalse hstays =>
        exact (if_neg hstays).symm
  have hdefault : SameDefault db { db with
      families := db.families.mapRows (db.deletedFamily id now) } := ⟨rfl, rfl⟩
  refine ⟨h.carried hdefault (.of_eq rfl) (.of_map hbook ?_ ?_ ?_), ?_⟩
  · rw [hbook]
    exact orderly_discarded h.orderly id
  · intro key state
    exact discarded_managed id key state
  · intro key state provider _ _
    rfl
  · intro husable
    apply husable.carried h hdefault
    intro key state state' hid hstate hstate' henabled hstands
    rw [hbook] at hstate'
    simp only [hstate, Option.map_some, Option.some.injEq] at hstate'
    have hstays : db.discarded id key state = state := by
      apply if_neg
      rintro ⟨rfl, -, -, hother⟩
      exact hother hid
    rw [hstays] at hstate'
    subst hstate'
    exact ⟨henabled, hstands⟩

end CatalogDatabase

end RelayerGraph
