import RelayerGraph.Catalog.Operations

/-!
# What a start changes

A start rewrites the harnesses with their rules and compatibility, and may add
a provider that only a configuration names.  Families, models and attempts
stay, and so does every provider there was.
-/

namespace RelayerGraph

open Foundation Checked

namespace CatalogDatabase

/-- What a start leaves alone. -/
structure StartFrame (db db' : CatalogDatabase) : Prop where
  models : db'.models = db.models
  families : db'.families = db.families
  members : db'.members = db.members
  attempts : db'.attempts = db.attempts
  defaultFamily : db'.preferences.defaultFamily = db.preferences.defaultFamily
  defaultProvider :
    db'.preferences.defaultProvider = db.preferences.defaultProvider
  identity : KeepsIdentity db db'
  providers : ∀ id row, db.providers.get? id = some row →
    db'.providers.get? id = some row
  newProviders : ∀ id row, db'.providers.get? id = some row →
    db.providers.get? id = some row ∨
      db.providers.get? id = none ∧ row.lifecycleState = .active

theorem StartFrame.refl (db : CatalogDatabase) : StartFrame db db :=
  ⟨rfl, rfl, rfl, rfl, rfl, rfl, .of_eq rfl, fun _ _ h => h,
    fun _ _ h => .inl h⟩

theorem StartFrame.trans {db db' db'' : CatalogDatabase}
    (h : StartFrame db db') (h' : StartFrame db' db'') :
    StartFrame db db'' where
  models := h'.models.trans h.models
  families := h'.families.trans h.families
  members := h'.members.trans h.members
  attempts := h'.attempts.trans h.attempts
  defaultFamily := h'.defaultFamily.trans h.defaultFamily
  defaultProvider := h'.defaultProvider.trans h.defaultProvider
  identity := h.identity.trans h'.identity
  providers := fun id row hrow => h'.providers id row (h.providers id row hrow)
  newProviders := by
    intro id row hrow
    rcases h'.newProviders id row hrow with hold | ⟨hnone, hactive⟩
    · exact h.newProviders id row hold
    · right
      refine ⟨?_, hactive⟩
      cases hget : db.providers.get? id with
      | none => rfl
      | some old =>
          rw [h.providers id old hget] at hnone
          cases hnone

variable {library : CatalogLibrary} {db db' : CatalogDatabase}

/-! ## The rules and compatibility of a harness -/

theorem replaceRules_ok {harness : HarnessId} {rules : Option HarnessModelRules}
    (hrun : db.replaceRules harness rules = .ok db') :
    ∃ rows, db' = { db with modelRules := rows } := by
  unfold replaceRules at hrun
  cases rules with
  | none =>
      obtain rfl := pure_eq_ok_iff.mp hrun
      exact ⟨_, rfl⟩
  | some rules =>
      simp only [bind_eq_ok_iff, pure_eq_ok_iff] at hrun
      obtain ⟨_, -, _, -, rfl⟩ := hrun
      exact ⟨_, rfl⟩

/-- Only the providers change, and only by a new one. -/
theorem namedProvider_frame (provider : ProviderId) :
    StartFrame db (db.namedProvider provider) ∧
      (db.namedProvider provider).providerCompatibility =
        db.providerCompatibility ∧
      (db.namedProvider provider).modelCompatibility =
        db.modelCompatibility := by
  unfold namedProvider
  dsimp only
  split
  · exact ⟨.refl db, rfl, rfl⟩
  case isFalse hnew =>
      have habsent : db.providers.get? provider = none := by
        cases hget : db.providers.get? provider with
        | none => rfl
        | some old => simp [hget] at hnew
      refine ⟨⟨rfl, rfl, rfl, rfl, rfl, rfl, .of_eq rfl, ?_, ?_⟩, rfl, rfl⟩
      · intro id row hrow
        have hne : id ≠ provider := by
          rintro rfl
          rw [habsent] at hrow
          cases hrow
        rw [Keyed.get?_put_of_ne _ _ hne]
        exact hrow
      · intro id row hrow
        rw [Keyed.get?_put] at hrow
        split at hrow
        case isTrue hid =>
            obtain rfl := Option.some.inj hrow
            exact .inr ⟨by rw [hid]; exact habsent, rfl⟩
        case isFalse => exact .inl hrow

/-- The rows one entry adds. -/
def compatibilityRow (harness : HarnessId)
    (compatibility : HarnessModelCompatibility) : ProviderCompatibilityRow :=
  ⟨harness, compatibility.providerId, compatibility.modelIds.isNone,
    compatibility.preferredModelId⟩

def compatibilityModels (harness : HarnessId)
    (compatibility : HarnessModelCompatibility) : List ModelCompatibilityRow :=
  (compatibility.modelIds.getD []).map fun modelId =>
    ⟨harness, compatibility.providerId, modelId⟩

theorem insertModels_compatibility {harness : HarnessId} {provider : ProviderId}
    {modelIds : List ModelId}
    (hrun : modelIds.foldlM
      (fun (state : CatalogDatabase) modelId =>
        state.insertModelCompatibility harness provider modelId) db =
          .ok db') :
    db' = { db with
      modelCompatibility := db.modelCompatibility ++
        modelIds.map fun modelId => ⟨harness, provider, modelId⟩ } := by
  induction modelIds generalizing db with
  | nil =>
      obtain rfl : db = db' := by simpa using hrun
      simp
  | cons modelId modelIds ih =>
      rw [List.foldlM_cons, bind_eq_ok_iff] at hrun
      obtain ⟨next, hinsert, hrest⟩ := hrun
      simp only [insertModelCompatibility, bind_eq_ok_iff, require_eq_ok_iff,
        pure_eq_ok_iff] at hinsert
      obtain ⟨_, -, rfl⟩ := hinsert
      rw [ih hrest]
      simp

theorem insertCompatibility_ok {harness : HarnessId}
    {compatibility : HarnessModelCompatibility}
    (hrun : db.insertCompatibility harness compatibility = .ok db') :
    StartFrame db db' ∧
      db'.providerCompatibility = db.providerCompatibility ++
        [compatibilityRow harness compatibility] ∧
      db'.modelCompatibility = db.modelCompatibility ++
        compatibilityModels harness compatibility := by
  simp only [insertCompatibility, bind_eq_ok_iff, require_eq_ok_iff] at hrun
  obtain ⟨_, -, hmodels⟩ := hrun
  obtain ⟨hframe, hproviders, hstored⟩ :=
    @namedProvider_frame db compatibility.providerId
  have hfinal := insertModels_compatibility hmodels
  rw [hfinal]
  refine ⟨hframe.trans ?_, ?_, ?_⟩
  · exact ⟨rfl, rfl, rfl, rfl, rfl, rfl, .of_eq rfl, fun _ _ h => h,
      fun _ _ h => .inl h⟩
  · simp only [hproviders, compatibilityRow]
  · simp only [hstored, compatibilityModels]

/-- The compatibility rows of a harness are those of its entries. -/
theorem replaceCompatibility_ok {harness : HarnessId}
    {compatibility : List HarnessModelCompatibility}
    (hrun : db.replaceCompatibility harness compatibility = .ok db') :
    StartFrame db db' ∧
      db'.providerCompatibility =
        (db.providerCompatibility.filter fun row => row.harness ≠ harness) ++
          compatibility.map (compatibilityRow harness) ∧
      db'.modelCompatibility =
        (db.modelCompatibility.filter fun row => row.harness ≠ harness) ++
          compatibility.flatMap (compatibilityModels harness) := by
  let cleared : CatalogDatabase := { db with
    providerCompatibility := db.providerCompatibility.filter fun row =>
      row.harness ≠ harness
    modelCompatibility := db.modelCompatibility.filter fun row =>
      row.harness ≠ harness }
  have hcleared : StartFrame db cleared :=
    ⟨rfl, rfl, rfl, rfl, rfl, rfl, .of_eq rfl, fun _ _ h => h,
      fun _ _ h => .inl h⟩
  unfold replaceCompatibility at hrun
  refine foldlM_induction (P := fun (state : CatalogDatabase) done =>
    StartFrame db state ∧
      state.providerCompatibility = cleared.providerCompatibility ++
        done.map (compatibilityRow harness) ∧
      state.modelCompatibility = cleared.modelCompatibility ++
        done.flatMap (compatibilityModels harness)) ?_ ?_ hrun
  · intro state done entry next _ hP hnext
    obtain ⟨hframe, hproviders, hmodels⟩ := insertCompatibility_ok hnext
    refine ⟨hP.1.trans hframe, ?_, ?_⟩
    · rw [hproviders, hP.2.1]
      simp
    · rw [hmodels, hP.2.2]
      simp
  · exact ⟨hcleared, by simp [cleared], by simp [cleared]⟩

/-! ## One harness of a start -/

/-- Only the compatibility rows of the harness change, and only to those of
its configuration. -/
theorem startHarness_ok {prior : CatalogDatabase} {runtimeIds : List HarnessId}
    {harness : RuntimeProductHarness}
    (hrun : db.startHarness library prior runtimeIds harness = .ok db') :
    StartFrame db db' ∧
      (db'.providerCompatibility = db.providerCompatibility ∧
          db'.modelCompatibility = db.modelCompatibility ∨
        db'.providerCompatibility =
            (db.providerCompatibility.filter fun row =>
              row.harness ≠ harness.id) ++
              harness.modelCompatibility.map (compatibilityRow harness.id) ∧
          db'.modelCompatibility =
            (db.modelCompatibility.filter fun row =>
              row.harness ≠ harness.id) ++
              harness.modelCompatibility.flatMap
                (compatibilityModels harness.id)) := by
  have hstored : ∀ (rules : List ModelRuleRow) (row : HarnessRow),
      StartFrame db { db with
        harnesses := db.harnesses.put harness.id row
        modelRules := rules } :=
    fun _ _ => ⟨rfl, rfl, rfl, rfl, rfl, rfl, .of_eq rfl, fun _ _ h => h,
      fun _ _ h => .inl h⟩
  unfold startHarness at hrun
  dsimp only at hrun
  split at hrun
  · simp only [bind_eq_ok_iff] at hrun
    obtain ⟨middle, hrules, hcompatibility⟩ := hrun
    obtain ⟨rows, rfl⟩ := replaceRules_ok hrules
    obtain ⟨hframe, hproviders, hmodels⟩ :=
      replaceCompatibility_ok hcompatibility
    exact ⟨(hstored rows _).trans hframe, .inr ⟨hproviders, hmodels⟩⟩
  · obtain rfl := pure_eq_ok_iff.mp hrun
    exact ⟨hstored db.modelRules _, .inl ⟨rfl, rfl⟩⟩

/-! ## The rest of a start -/

theorem rebound_identity (replacement : HarnessId) (row : TurnRow) :
    (rebound replacement row).identity = row.identity := rfl

theorem retireAbsent_frame (runtimeIds : List HarnessId)
    (retired replacement : HarnessId) :
    StartFrame db
        (db.retireAbsentProductHarness runtimeIds retired replacement) ∧
      (db.retireAbsentProductHarness runtimeIds retired
          replacement).providerCompatibility = db.providerCompatibility ∧
      (db.retireAbsentProductHarness runtimeIds retired
          replacement).modelCompatibility = db.modelCompatibility := by
  unfold retireAbsentProductHarness
  split
  · exact ⟨.refl db, rfl, rfl⟩
  · refine ⟨⟨rfl, rfl, rfl, rfl, ?_, ?_, ?_, fun _ _ h => h,
      fun _ _ h => .inl h⟩, rfl, rfl⟩
    · dsimp only
      split <;> rfl
    · dsimp only
      split <;> rfl
    · intro id row' hrow'
      simp only [Table.get?_mapRows] at hrow'
      obtain ⟨row, hrow, rfl⟩ := Option.map_eq_some_iff.mp hrow'
      refine ⟨row, hrow, ?_⟩
      split
      · exact rebound_identity replacement row
      · rfl

theorem withDefaultHarness_frame (harness : HarnessId) :
    StartFrame db (db.withDefaultHarness harness) ∧
      (db.withDefaultHarness harness).providerCompatibility =
        db.providerCompatibility ∧
      (db.withDefaultHarness harness).modelCompatibility =
        db.modelCompatibility := by
  unfold withDefaultHarness
  split
  · exact ⟨.refl db, rfl, rfl⟩
  · exact ⟨⟨rfl, rfl, rfl, rfl, rfl, rfl, .of_eq rfl, fun _ _ h => h,
      fun _ _ h => .inl h⟩, rfl, rfl⟩

theorem resetHarnesses_frame : StartFrame db db.resetHarnesses :=
  ⟨rfl, rfl, rfl, rfl, rfl, rfl, .of_eq rfl, fun _ _ h => h,
    fun _ _ h => .inl h⟩

/-! ## The harnesses a start loads -/

theorem mem_of_mem_dropSame {id : HarnessId}
    {harnesses : List RuntimeProductHarness} {harness : RuntimeProductHarness}
    (hmem : harness ∈ dropSame id harnesses) : harness ∈ harnesses := by
  induction harnesses generalizing id with
  | nil => cases hmem
  | cons head rest ih =>
      unfold dropSame at hmem
      split at hmem
      · exact List.mem_cons_of_mem _ (ih hmem)
      · rcases List.mem_cons.mp hmem with rfl | hrest
        · exact List.mem_cons_self
        · exact List.mem_cons_of_mem _ (ih hrest)

theorem mem_of_mem_dedupById {harnesses : List RuntimeProductHarness}
    {harness : RuntimeProductHarness}
    (hmem : harness ∈ dedupById harnesses) : harness ∈ harnesses := by
  cases harnesses with
  | nil => cases hmem
  | cons head rest =>
      rcases List.mem_cons.mp hmem with rfl | hrest
      · exact List.mem_cons_self
      · exact List.mem_cons_of_mem _ (mem_of_mem_dropSame hrest)

/-- A start loads harnesses the runtime reports, and perhaps the default one
as an unavailable configuration. -/
theorem mem_startHarnesses {defaultHarness : HarnessId}
    {runtimeHarnesses : List RuntimeProductHarness}
    {harness : RuntimeProductHarness}
    (hmem : harness ∈ startHarnesses defaultHarness runtimeHarnesses) :
    harness ∈ runtimeHarnesses ∨ harness = absentDefault defaultHarness := by
  unfold startHarnesses at hmem
  have hall := (List.mem_insertionSort _).mp (mem_of_mem_dedupById hmem)
  split at hall
  · exact .inl hall
  · simpa using hall

/-- What a whole start leaves alone. -/
theorem initializeModelCatalog_frame {defaultHarness : HarnessId}
    {runtimeHarnesses : List RuntimeProductHarness}
    (hrun : db.initializeModelCatalog library defaultHarness runtimeHarnesses =
      .ok db') : StartFrame db db' := by
  simp only [initializeModelCatalog, bind_eq_ok_iff, pure_eq_ok_iff] at hrun
  obtain ⟨_, -, loaded, hloop, rfl⟩ := hrun
  have hloaded : StartFrame db loaded := by
    refine foldlM_induction (P := fun state _ => StartFrame db state) ?_ ?_
      hloop
    · intro state done harness next _ hP hnext
      exact hP.trans (startHarness_ok hnext).1
    · exact resetHarnesses_frame
  exact ((hloaded.trans (retireAbsent_frame _ _ _).1).trans
    (retireAbsent_frame _ _ _).1).trans (withDefaultHarness_frame _).1

/-! ## Readiness batches -/

theorem publishReadiness_ok {accepted : HarnessId → Option ℕ}
    {seen seen' : List HarnessId} {update : HarnessRuntimeAvailabilityUpdate}
    (hrun : publishReadiness library accepted (db, seen) update =
      .ok (db', seen')) :
    update.harnessId ∉ seen ∧ seen' = update.harnessId :: seen ∧
      (∀ generation, accepted update.harnessId = some generation →
        generation ≤ update.generation) ∧
      ∃ row reason, db.measuredRow update = some row ∧
        db' = { db with
          harnesses := db.harnesses.put update.harnessId
            { row with
              available := update.available
              unavailableReason := reason
              readinessUpdateDue := false } } := by
  simp only [publishReadiness, bind_eq_ok_iff, orThrow_eq_ok_iff,
    require_eq_ok_iff, pure_eq_ok_iff, Prod.mk.injEq] at hrun
  obtain ⟨_, -, _, ⟨hnew, -⟩, _, hgeneration, reason, -, row, hrow, rfl,
    rfl⟩ := hrun
  exact ⟨hnew, rfl, hgeneration, row, reason, hrow, rfl⟩

/-- A batch changes nothing but harness rows. -/
theorem updateHarnessRuntimeAvailability_ok
    {accepted generations : HarnessId → Option ℕ}
    {updates : List HarnessRuntimeAvailabilityUpdate}
    (hrun : db.updateHarnessRuntimeAvailability library accepted updates =
      .ok (db', generations)) :
    ∃ harnesses, db' = { db with harnesses := harnesses } := by
  simp only [updateHarnessRuntimeAvailability, bind_eq_ok_iff, pure_eq_ok_iff,
    Prod.mk.injEq] at hrun
  obtain ⟨⟨final, seen⟩, hloop, rfl, -⟩ := hrun
  have hresult : ∃ harnesses,
      (final, seen).1 = { db with harnesses := harnesses } := by
    refine foldlM_induction
      (P := fun (state : CatalogDatabase × List HarnessId) _ =>
        ∃ harnesses, state.1 = { db with harnesses := harnesses })
      ?_ ⟨db.harnesses, rfl⟩ hloop
    rintro ⟨state, seen⟩ done update ⟨next, seen'⟩ _ ⟨harnesses, hstate⟩ hnext
    obtain ⟨-, -, -, row, reason, -, hnext⟩ := publishReadiness_ok hnext
    dsimp only at hstate
    subst hstate
    exact ⟨_, hnext⟩
  exact hresult

end CatalogDatabase

end RelayerGraph
