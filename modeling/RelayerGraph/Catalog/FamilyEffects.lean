import RelayerGraph.Catalog.Onboarding
import RelayerGraph.Catalog.Positions

/-!
# What an operation on families changes

One lemma for each statement and each operation: which tables it leaves alone,
and what becomes of the families and their members.
-/

namespace RelayerGraph

open Foundation Checked

namespace CatalogDatabase

/-! ## The runtime's tables stay -/

/-- The harnesses, the interactions and the attempts stay. -/
structure SameRuntime (db db' : CatalogDatabase) : Prop where
  harnesses : db'.harnesses = db.harnesses
  providerCompatibility : db'.providerCompatibility = db.providerCompatibility
  modelCompatibility : db'.modelCompatibility = db.modelCompatibility
  modelRules : db'.modelRules = db.modelRules
  threads : db'.threads = db.threads
  turns : db'.turns = db.turns
  invocations : db'.invocations = db.invocations
  submittedInputs : db'.submittedInputs = db.submittedInputs
  executionPhases : db'.executionPhases = db.executionPhases
  stopRequests : db'.stopRequests = db.stopRequests
  attempts : db'.attempts = db.attempts

theorem SameRuntime.refl (db : CatalogDatabase) : SameRuntime db db :=
  ⟨rfl, rfl, rfl, rfl, rfl, rfl, rfl, rfl, rfl, rfl, rfl⟩

theorem SameRuntime.trans {db db' db'' : CatalogDatabase}
    (h : SameRuntime db db') (h' : SameRuntime db' db'') :
    SameRuntime db db'' where
  harnesses := h'.harnesses.trans h.harnesses
  providerCompatibility :=
    h'.providerCompatibility.trans h.providerCompatibility
  modelCompatibility := h'.modelCompatibility.trans h.modelCompatibility
  modelRules := h'.modelRules.trans h.modelRules
  threads := h'.threads.trans h.threads
  turns := h'.turns.trans h.turns
  invocations := h'.invocations.trans h.invocations
  submittedInputs := h'.submittedInputs.trans h.submittedInputs
  executionPhases := h'.executionPhases.trans h.executionPhases
  stopRequests := h'.stopRequests.trans h.stopRequests
  attempts := h'.attempts.trans h.attempts

variable {db db' : CatalogDatabase}

/-! ## Statements -/

/-- The rows a list of members is stored as. -/
def storedMembers (members : List ModelFamilyMember) :
    List ModelFamilyMember :=
  members.mapIdx fun index member => { member with position := index }

theorem insertMember_ok {id : ModelFamilyId} {position : ℕ}
    {member : ModelFamilyMember}
    (hrun : db.insertMember id position member = .ok db') :
    position < 5 ∧
      db' = { db with
        members := Function.update db.members id
          (db.members id ++ [{ member with position := position }]) } := by
  simp only [insertMember, bind_eq_ok_iff, require_eq_ok_iff,
    pure_eq_ok_iff] at hrun
  obtain ⟨_, hposition, _, -, _, -, rfl⟩ := hrun
  exact ⟨hposition, rfl⟩

/-- A replaced membership is stored in its order, and no more than five. -/
theorem replaceFamilyMembers_ok {id : ModelFamilyId}
    {members : List ModelFamilyMember}
    (hrun : db.replaceFamilyMembers id members = .ok db') :
    members.length ≤ 5 ∧
      db' = { db with
        members := Function.update db.members id (storedMembers members) } := by
  have hloop : ∀ (rest : List ModelFamilyMember) (start : ℕ)
      (stored : List ModelFamilyMember) (state final : CatalogDatabase),
      state = { db with members := Function.update db.members id stored } →
      start ≤ 5 →
      (rest.zipIdx start).foldlM
        (fun (state : CatalogDatabase) entry =>
          state.insertMember id entry.2 entry.1) state = .ok final →
      start + rest.length ≤ 5 ∧
        final = { db with
          members := Function.update db.members id
            (stored ++ rest.mapIdx fun index member =>
              { member with position := start + index }) } := by
    intro rest
    induction rest with
    | nil =>
        intro start stored state final hstate hstart hfold
        obtain rfl : state = final := by simpa using hfold
        simpa [hstate] using hstart
    | cons member rest ih =>
        intro start stored state final hstate hstart hfold
        rw [List.zipIdx_cons, List.foldlM_cons, bind_eq_ok_iff] at hfold
        obtain ⟨next, hinsert, hrest⟩ := hfold
        obtain ⟨hposition, hnext⟩ := insertMember_ok hinsert
        have hstored : next = { db with
            members := Function.update db.members id
              (stored ++ [{ member with position := start }]) } := by
          rw [hnext, hstate]
          simp
        obtain ⟨hlength, hfinal⟩ :=
          ih (start + 1) _ next final hstored hposition hrest
        refine ⟨by rw [List.length_cons]; omega, ?_⟩
        rw [hfinal]
        simp [List.mapIdx_cons, Nat.add_assoc, Nat.add_comm 1]
  obtain ⟨hlength, hfinal⟩ := hloop members 0 [] _ db' rfl (by omega) hrun
  refine ⟨by omega, ?_⟩
  rw [hfinal]
  simp [storedMembers]

theorem insertFamily_ok {row : FamilyRow} {id : ModelFamilyId}
    (hrun : db.insertFamily row = .ok (id, db')) :
    id = db.families.nextKey ∧
      db' = { db with families := db.families.insert row } := by
  simp only [insertFamily, bind_eq_ok_iff, require_eq_ok_iff, pure_eq_ok_iff,
    Prod.mk.injEq] at hrun
  obtain ⟨_, -, rfl, rfl⟩ := hrun
  exact ⟨rfl, rfl⟩

theorem updateFamily_ok {id : ModelFamilyId} {change : FamilyRow → FamilyRow}
    (hrun : db.updateFamily id change = .ok db') :
    db' = { db with
      families := db.families.mapRows fun key old =>
        if key = id then change old else old } := by
  unfold updateFamily at hrun
  cases hrow : db.families.get? id with
  | none =>
      rw [hrow] at hrun
      obtain rfl := pure_eq_ok_iff.mp hrun
      have hsame : (db.families.mapRows fun key old =>
          if key = id then change old else old) = db.families := by
        rw [← Table.mapRows_self db.families, Table.mapRows_mapRows]
        apply Table.mapRows_congr
        intro key old hold
        have hkey : key ≠ id := by
          rintro rfl
          rw [hrow] at hold
          cases hold
        rw [if_neg hkey]
      rw [hsame]
  | some row =>
      rw [hrow] at hrun
      simp only [bind_eq_ok_iff, require_eq_ok_iff, pure_eq_ok_iff] at hrun
      obtain ⟨_, -, rfl⟩ := hrun
      rfl

/-- A compaction keeps the order of the active families. -/
theorem compactFamilyPositions_ok
    (hrun : db.compactFamilyPositions = .ok db') :
    Renumbered db (orderedIds db.families .active) db' :=
  rewriteFamilyPositions_spec (List.Perm.refl _) hrun

theorem Renumbered.sameRuntime {ids : List ModelFamilyId}
    (h : Renumbered db ids db') : SameRuntime db db' := by
  rw [h.rows]
  exact ⟨rfl, rfl, rfl, rfl, rfl, rfl, rfl, rfl, rfl, rfl, rfl⟩

theorem Renumbered.members {ids : List ModelFamilyId}
    (h : Renumbered db ids db') : db'.members = db.members := by
  rw [h.rows]

theorem Renumbered.providers {ids : List ModelFamilyId}
    (h : Renumbered db ids db') : db'.providers = db.providers := by
  rw [h.rows]

theorem Renumbered.preferences {ids : List ModelFamilyId}
    (h : Renumbered db ids db') : db'.preferences = db.preferences := by
  rw [h.rows]

theorem Renumbered.families {ids : List ModelFamilyId}
    (h : Renumbered db ids db') :
    db'.families = numbering (db.numberedIds ids) db.families := by
  rw [h.rows]

/-! ## The families of a user -/

/-- A family of the user, as it is inserted. -/
def customFamily (db : CatalogDatabase) (name : String) (enabled : Bool) :
    FamilyRow where
  name := name
  kind := .custom
  systemKey := none
  enabled := enabled
  position := db.nextPosition
  revision := 1
  managedProviderId := none
  policy := none
  lifecycleState := .active
  removedAt := none
  tombstoneCause := none

/-- The store with one more family and its members. -/
def withFamily (db : CatalogDatabase) (row : FamilyRow)
    (members : List ModelFamilyMember) : CatalogDatabase :=
  { db with
    families := db.families.insert row
    members := Function.update db.members db.families.nextKey
      (storedMembers members) }

theorem createModelFamily_ok {command : CreateModelFamilyCommand}
    (hrun : db.createModelFamily command = .ok db') :
    command.members.length ≤ 5 ∧
      ∃ middle, middle = db.withFamily
          (db.customFamily command.name command.enabled) command.members ∧
        Renumbered middle (orderedIds middle.families .active) db' := by
  simp only [createModelFamily, bind_eq_ok_iff] at hrun
  obtain ⟨⟨id, inserted⟩, hinsert, middle, hmembers, hcompact⟩ := hrun
  obtain ⟨rfl, rfl⟩ := insertFamily_ok hinsert
  obtain ⟨hlength, rfl⟩ := replaceFamilyMembers_ok hmembers
  exact ⟨hlength, _, rfl, compactFamilyPositions_ok hcompact⟩

/-- The members an update leaves. -/
def updatedMembers (db : CatalogDatabase) (command : UpdateModelFamilyCommand) :
    ModelFamilyId → List ModelFamilyMember :=
  match command.members with
  | some members =>
      Function.update db.members command.id (storedMembers members)
  | none => db.members

theorem updateModelFamily_ok {command : UpdateModelFamilyCommand}
    (hrun : db.updateModelFamily command = .ok db') :
    (command.enabled = false →
        db.preferences.defaultFamily ≠ some command.id) ∧
      (∀ members, command.members = some members → members.length ≤ 5) ∧
      db' = { db with
        families := db.families.mapRows fun key old =>
          if key = command.id then updatedFamily command old else old
        members := db.updatedMembers command } := by
  simp only [updateModelFamily, bind_eq_ok_iff, require_eq_ok_iff] at hrun
  obtain ⟨_, hdefault, updated, hupdate, hmembers⟩ := hrun
  obtain rfl := updateFamily_ok hupdate
  refine ⟨hdefault, ?_⟩
  cases hcommand : command.members with
  | none =>
      simp only [hcommand, bind_eq_ok_iff, pure_eq_ok_iff,
        require_eq_ok_iff] at hmembers
      obtain ⟨_, rfl, _, -, rfl⟩ := hmembers
      exact ⟨(fun _ h => by cases h), by simp [updatedMembers, hcommand]⟩
  | some members =>
      simp only [hcommand, bind_eq_ok_iff, pure_eq_ok_iff,
        require_eq_ok_iff] at hmembers
      obtain ⟨stored, hreplace, _, -, rfl⟩ := hmembers
      obtain ⟨hlength, rfl⟩ := replaceFamilyMembers_ok hreplace
      refine ⟨?_, by simp [updatedMembers, hcommand]⟩
      intro other hother
      obtain rfl := Option.some.inj hother
      exact hlength

/-- The rows a deletion leaves. -/
def deletedFamily (db : CatalogDatabase) (id : ModelFamilyId) (now : String)
    (key : ModelFamilyId) (row : FamilyRow) : FamilyRow :=
  if key = id ∧ row.kind = .custom ∧ row.lifecycleState = .active ∧
      db.preferences.defaultFamily ≠ some id then
    retired now row
  else
    row

theorem deleteModelFamily_ok {id : ModelFamilyId} {now : String}
    {deleted : Bool} (hrun : db.deleteModelFamily id now = .ok (deleted, db')) :
    ∃ middle, middle = { db with
          families := db.families.mapRows (db.deletedFamily id now) } ∧
        Renumbered middle (orderedIds middle.families .active) db' := by
  simp only [deleteModelFamily, bind_eq_ok_iff, pure_eq_ok_iff,
    Prod.mk.injEq] at hrun
  obtain ⟨compacted, hcompact, -, rfl⟩ := hrun
  refine ⟨_, ?_, compactFamilyPositions_ok hcompact⟩
  simp only [updateFamiliesWhere]
  congr 1
  apply Table.mapRows_congr
  intro key row _
  simp [deletedFamily, retired, and_assoc]

theorem reorderModelFamilies_ok {familyIds : List ModelFamilyId}
    (hrun : db.reorderModelFamilies familyIds = .ok db') :
    Renumbered db familyIds db' := by
  simp only [reorderModelFamilies, bind_eq_ok_iff, require_eq_ok_iff,
    List.all_eq_true] at hrun
  obtain ⟨_, ⟨hnodup, hactive, hcomplete⟩, hrewrite⟩ := hrun
  refine rewriteFamilyPositions_spec ?_ hrewrite
  rw [List.perm_ext_iff_of_nodup hnodup (nodup_orderedIds _ _)]
  intro id
  rw [mem_orderedIds]
  constructor
  · intro hid
    obtain ⟨row, hrow, hstate⟩ :=
      (Option.any_eq_true _ _).mp (hactive id hid)
    exact ⟨row, hrow, of_decide_eq_true hstate⟩
  · rintro ⟨row, hrow, hstate⟩
    have hselected : id ∈ db.families.select fun _ row =>
        decide (row.lifecycleState = .active) :=
      Table.mem_select.mpr ⟨row, hrow, decide_eq_true hstate⟩
    simpa using hcomplete id hselected

/-! ## Managed families -/

/-- A managed family, as it is inserted. -/
def insertedManaged (db : CatalogDatabase) (provider : ProviderId)
    (policy : FamilyPolicyReference) (name key : String) : FamilyRow where
  name := name
  kind := .system
  systemKey := some key
  enabled := true
  position := db.nextPosition
  revision := 1
  managedProviderId := some provider
  policy := some policy
  lifecycleState := .active
  removedAt := none
  tombstoneCause := none

/-- Every member belongs to the provider. -/
def MembersOf (provider : ProviderId) (members : List ModelFamilyMember) :
    Prop :=
  ∀ member ∈ members, member.providerId = provider

theorem membersOf_mapIdx {provider : ProviderId}
    {members : List ModelFamilyMember}
    {change : ℕ → ModelFamilyMember → ModelFamilyMember}
    (hchange : ∀ index member,
      (change index member).providerId = member.providerId)
    (h : MembersOf provider members) :
    MembersOf provider (members.mapIdx change) := by
  intro member hmember
  obtain ⟨index, hindex, rfl⟩ := List.mem_mapIdx.mp hmember
  rw [hchange]
  exact h _ (List.getElem_mem hindex)

theorem membersOf_assign {provider : ProviderId}
    {members : List ModelFamilyMember} (h : MembersOf provider members) :
    MembersOf provider (assignManagedOrchestrator members) :=
  membersOf_mapIdx (fun _ _ => rfl) h

theorem membersOf_stored {provider : ProviderId}
    {members : List ModelFamilyMember} (h : MembersOf provider members) :
    MembersOf provider (storedMembers members) :=
  membersOf_mapIdx (fun _ _ => rfl) h

theorem membersOf_snapshot (provider : ProviderId) (modelIds : List ModelId) :
    MembersOf provider (snapshotMembers provider modelIds) := by
  apply membersOf_assign
  intro member hmember
  obtain ⟨index, hindex, rfl⟩ := List.mem_mapIdx.mp hmember
  rfl

theorem membersOf_retain {provider : ProviderId}
    {members existing : List ModelFamilyMember}
    {snapshot : ProviderCatalogSnapshot} (hmembers : MembersOf provider members)
    (hexisting : MembersOf provider existing) :
    MembersOf provider
      (retainUnavailableManagedOrchestrator members existing snapshot) := by
  unfold retainUnavailableManagedOrchestrator
  split
  · exact hmembers
  case h_2 orchestrator hfind =>
      split
      · exact hmembers
      · apply membersOf_assign
        refine membersOf_mapIdx (fun _ _ => rfl) ?_
        intro member hmember
        have hkept := List.mem_of_mem_take hmember
        rcases List.mem_cons.mp hkept with hhead | hrest
        · rw [hhead]
          exact hexisting orchestrator (List.mem_of_find?_eq_some hfind)
        · exact hmembers member (List.mem_filter.mp hrest).1

/-- The family a refresh finds or makes, with the members it stores. -/
theorem upsertManagedFamily_ok {library : CatalogLibrary}
    {snapshot : ProviderCatalogSnapshot} {systemFamily : SystemFamilySnapshot}
    {policy : FamilyPolicyReference} {members stored : List ModelFamilyMember}
    {id : ModelFamilyId}
    (hrun : db.upsertManagedFamily library snapshot systemFamily policy
      members = .ok (id, stored, db')) :
    (∃ name key changed,
        db.managedFamily snapshot.providerId policy = some id ∧
        stored = retainUnavailableManagedOrchestrator members (db.members id)
          snapshot ∧
        db' = { db with
          families := db.families.mapRows fun row old =>
            if row = id then refreshedFamily name key changed old else old }) ∨
      ∃ name key,
        db.managedFamily snapshot.providerId policy = none ∧
        id = db.families.nextKey ∧ stored = members ∧
        db' = { db with
          families := db.families.insert
            (db.insertedManaged snapshot.providerId policy name key) } := by
  simp only [upsertManagedFamily, bind_eq_ok_iff] at hrun
  obtain ⟨name, -, hrun⟩ := hrun
  cases hfound : db.managedFamily snapshot.providerId policy with
  | some found =>
      left
      simp only [hfound, bind_eq_ok_iff, pure_eq_ok_iff,
        Prod.mk.injEq] at hrun
      obtain ⟨_, -, updated, hupdate, rfl, rfl, rfl⟩ := hrun
      exact ⟨name, _, _, rfl, rfl, updateFamily_ok hupdate⟩
  | none =>
      right
      simp only [hfound, bind_eq_ok_iff, pure_eq_ok_iff,
        Prod.mk.injEq] at hrun
      obtain ⟨⟨key, inserted⟩, hinsert, rfl, rfl, rfl⟩ := hrun
      obtain ⟨hkey, hinserted⟩ := insertFamily_ok hinsert
      exact ⟨name, _, rfl, hkey, rfl, hinserted⟩

/-- The rows the first statements of a refresh leave: legacy families of the
provider and its families of another policy are retired. -/
def retiredBefore (db : CatalogDatabase) (provider : ProviderId)
    (policy : FamilyPolicyReference) (now : String) : CatalogDatabase :=
  (db.updateFamiliesWhere (db.soleLegacyFamily provider)
    (retired now)).updateFamiliesWhere
      (fun _ row => decide (row.managedProviderId = some provider) &&
        (row.policy.any fun stored => decide (stored ≠ policy)) &&
        decide (row.lifecycleState = .active))
      (retired now)

/-- The other families of the provider are no longer kept for recovery. -/
def withoutCauseBeside (db : CatalogDatabase) (provider : ProviderId)
    (id : ModelFamilyId) : CatalogDatabase :=
  db.updateFamiliesWhere
    (fun key row => decide (row.managedProviderId = some provider) &&
      decide (key ≠ id))
    fun row => { row with tombstoneCause := none }

/-- The defaults a refresh leaves. -/
def reconciledPreferences (db : CatalogDatabase) (reconcile legacyDefault : Bool)
    (provider : ProviderId) (id : ModelFamilyId) : ModelPreferences :=
  if reconcile = true ∧ db.reconcilesDefault legacyDefault provider = true then
    { db.preferences with
      defaultFamily := some id
      defaultProvider := provider }
  else
    db.preferences

theorem replaceSystemFamily_ok {library : CatalogLibrary}
    {snapshot : ProviderCatalogSnapshot} {systemFamily : SystemFamilySnapshot}
    {policy : FamilyPolicyReference} {reconcile : Bool} {now : String}
    {id : ModelFamilyId}
    (hrun : db.replaceSystemFamily library snapshot systemFamily policy
      reconcile now = .ok (id, db')) :
    ∃ stored upserted numbered,
      (db.retiredBefore snapshot.providerId policy now).upsertManagedFamily
          library snapshot systemFamily policy
          (snapshotMembers snapshot.providerId systemFamily.modelIds) =
        .ok (id, stored, upserted) ∧
      stored.length ≤ 5 ∧
      Renumbered
        { upserted.withoutCauseBeside snapshot.providerId id with
          members := Function.update upserted.members id
            (storedMembers stored) }
        (orderedIds (upserted.withoutCauseBeside snapshot.providerId
          id).families .active) numbered ∧
      db' = { numbered with
        preferences := numbered.reconciledPreferences reconcile
          (db.defaultFamilyRow.any fun family =>
            db.soleLegacyFamily snapshot.providerId family.1 family.2)
          snapshot.providerId id } := by
  simp only [replaceSystemFamily, bind_eq_ok_iff] at hrun
  obtain ⟨_, -, ⟨found, stored, upserted⟩, hupsert, replaced, hmembers,
    numbered, hcompact, hfinal⟩ := hrun
  obtain ⟨hlength, rfl⟩ := replaceFamilyMembers_ok hmembers
  have hnumbered := compactFamilyPositions_ok hcompact
  split at hfinal
  case isTrue hreconcile =>
      simp only [pure_eq_ok_iff, Prod.mk.injEq] at hfinal
      obtain ⟨rfl, rfl⟩ := hfinal
      refine ⟨stored, upserted, numbered, hupsert, hlength, hnumbered, ?_⟩
      rw [reconciledPreferences, if_pos hreconcile]
  case isFalse hreconcile =>
      simp only [pure_eq_ok_iff, Prod.mk.injEq] at hfinal
      obtain ⟨rfl, rfl⟩ := hfinal
      refine ⟨stored, upserted, numbered, hupsert, hlength, hnumbered, ?_⟩
      rw [reconciledPreferences, if_neg hreconcile]

/-- What becomes of a provider's family when it is tombstoned. -/
def tombstonedFamily (provider : ProviderId) (now : String) :
    ManagedFamilyTombstone → FamilyRow → FamilyRow
  | .noEligibleModels, row =>
      if row.managedProviderId = some provider ∧
          row.lifecycleState = .active then
        { row with
          lifecycleState := .tombstoned
          tombstoneCause := some .noEligibleModels
          removedAt := some now }
      else
        row
  | .providerRemoval, row =>
      if row.managedProviderId = some provider then
        { row with
          lifecycleState := .tombstoned
          enabled := false
          tombstoneCause := none
          removedAt :=
            if row.lifecycleState = .active then some now else row.removedAt }
      else
        row

theorem tombstoneManagedProviderFamilies_ok {provider : ProviderId}
    {now : String} {cause : ManagedFamilyTombstone}
    (hrun : db.tombstoneManagedProviderFamilies provider now cause =
      .ok db') :
    ∃ middle, middle = { db with
          families := db.families.mapRows fun _ row =>
            tombstonedFamily provider now cause row } ∧
        Renumbered middle (orderedIds middle.families .active) db' := by
  cases cause with
  | noEligibleModels =>
      refine ⟨_, ?_, compactFamilyPositions_ok hrun⟩
      simp only [updateFamiliesWhere]
      congr 1
      apply Table.mapRows_congr
      intro key row _
      simp [tombstonedFamily]
  | providerRemoval =>
      refine ⟨_, ?_, compactFamilyPositions_ok hrun⟩
      simp only [updateFamiliesWhere, Table.mapRows_mapRows]
      congr 1
      apply Table.mapRows_congr
      intro key row _
      by_cases hmanaged : row.managedProviderId = some provider
      · by_cases hactive : row.lifecycleState = .active
        · simp [tombstonedFamily, hmanaged, hactive]
        · have htombstoned : row.lifecycleState = .tombstoned := by
            cases hstate : row.lifecycleState with
            | active => exact absurd hstate hactive
            | tombstoned => rfl
          simp [tombstonedFamily, hmanaged, htombstoned]
      · simp [tombstonedFamily, hmanaged]

end CatalogDatabase

end RelayerGraph
