import RelayerGraph.Catalog.Reopening

/-!
# The rows of the harnesses

What a start and a batch of readiness results make of each harness row.  A
start loads every configuration once, so its row is a function of the rows
before the start; a batch names every harness once, so its row is the one
loaded with the digest the result was measured for.
-/

namespace RelayerGraph

open Foundation Checked

/-! ## Every configuration of a start is loaded once -/

theorem dropSame_above {id : HarnessId}
    {harnesses : List RuntimeProductHarness}
    (hsorted : harnesses.Pairwise fun harness other => harness.id ≤ other.id)
    (habove : ∀ harness ∈ harnesses, id ≤ harness.id) :
    (dropSame id harnesses).Pairwise
        (fun harness other => harness.id < other.id) ∧
      ∀ harness ∈ dropSame id harnesses, id < harness.id := by
  induction harnesses generalizing id with
  | nil => exact ⟨List.Pairwise.nil, (fun _ h => by cases h)⟩
  | cons head rest ih =>
      obtain ⟨hhead, hrest⟩ := List.pairwise_cons.mp hsorted
      unfold dropSame
      by_cases hsame : head.id = id
      · rw [if_pos hsame]
        exact ih hrest fun harness hmem =>
          habove harness (List.mem_cons_of_mem _ hmem)
      · rw [if_neg hsame]
        obtain ⟨hstrict, hover⟩ := ih hrest hhead
        have hlt : id < head.id :=
          lt_of_le_of_ne (habove head List.mem_cons_self) (Ne.symm hsame)
        refine ⟨List.pairwise_cons.mpr ⟨hover, hstrict⟩, ?_⟩
        intro harness hmem
        rcases List.mem_cons.mp hmem with rfl | hmem
        · exact hlt
        · exact hlt.trans (hover harness hmem)

theorem dedupById_strict {harnesses : List RuntimeProductHarness}
    (hsorted : harnesses.Pairwise fun harness other =>
      harness.id ≤ other.id) :
    (dedupById harnesses).Pairwise fun harness other =>
      harness.id < other.id := by
  cases harnesses with
  | nil => exact List.Pairwise.nil
  | cons head rest =>
      obtain ⟨hhead, hrest⟩ := List.pairwise_cons.mp hsorted
      obtain ⟨hstrict, hover⟩ := dropSame_above hrest hhead
      exact List.pairwise_cons.mpr ⟨hover, hstrict⟩

/-- No two configurations of a start have one id. -/
theorem startHarnesses_nodup (defaultHarness : HarnessId)
    (runtimeHarnesses : List RuntimeProductHarness) :
    ((startHarnesses defaultHarness runtimeHarnesses).map
      fun harness => harness.id).Nodup := by
  have hsorted := dedupById_strict (List.pairwise_insertionSort
    (fun harness other : RuntimeProductHarness => harness.id ≤ other.id)
    (if runtimeHarnesses.any fun harness => harness.id = defaultHarness then
      runtimeHarnesses
    else
      runtimeHarnesses ++ [absentDefault defaultHarness]))
  rw [List.nodup_iff_pairwise_ne, List.pairwise_map]
  exact hsorted.imp fun hlt => ne_of_lt hlt

namespace CatalogDatabase

variable {library : CatalogLibrary} {db db' : CatalogDatabase}

/-! ## One configuration -/

theorem namedProvider_harnesses (provider : ProviderId) :
    (db.namedProvider provider).harnesses = db.harnesses := by
  unfold namedProvider
  dsimp only
  split <;> rfl

theorem insertCompatibility_harnesses {harness : HarnessId}
    {compatibility : HarnessModelCompatibility}
    (hrun : db.insertCompatibility harness compatibility = .ok db') :
    db'.harnesses = db.harnesses := by
  simp only [insertCompatibility, bind_eq_ok_iff] at hrun
  obtain ⟨_, -, hmodels⟩ := hrun
  rw [insertModels_compatibility hmodels]
  exact namedProvider_harnesses compatibility.providerId

theorem startHarness_harnesses {prior : CatalogDatabase}
    {runtimeIds : List HarnessId} {harness : RuntimeProductHarness}
    (hrun : db.startHarness library prior runtimeIds harness = .ok db') :
    db'.harnesses = db.harnesses.put harness.id
      (db.startRow library prior harness) := by
  unfold startHarness at hrun
  dsimp only at hrun
  split at hrun
  · simp only [bind_eq_ok_iff] at hrun
    obtain ⟨middle, hrules, hcompatibility⟩ := hrun
    obtain ⟨rows, rfl⟩ := replaceRules_ok hrules
    unfold replaceCompatibility at hcompatibility
    refine foldlM_induction (P := fun (state : CatalogDatabase) _ =>
      state.harnesses = db.harnesses.put harness.id
        (db.startRow library prior harness)) ?_ rfl hcompatibility
    intro state done entry next _ hP hnext
    rw [insertCompatibility_harnesses hnext, hP]
  · obtain rfl := pure_eq_ok_iff.mp hrun
    rfl

/-! ## The rows of a start -/

/-- The row of a configuration once it is loaded. -/
structure LoadedRow (prior : CatalogDatabase)
    (harness : RuntimeProductHarness) (row : HarnessRow) : Prop where
  visible : row.productVisible = true
  available : row.available = prior.startAvailable harness
  digest : row.runtimeConfigurationDigest = harness.configurationDigest
  due : row.readinessUpdateDue = prior.startDue harness
  recipe : row.runtimeRecipe =
    (harness.runtimeRecipe.filter fun _ => harness.restorePriorReadiness).getD
      (((prior.harnesses.get? harness.id).map
        fun old => old.runtimeRecipe).getD "")

theorem loadedRow_startRow {prior : CatalogDatabase}
    {harness : RuntimeProductHarness}
    (hsame : db.harnesses.get? harness.id =
      prior.resetHarnesses.harnesses.get? harness.id) :
    LoadedRow prior harness (db.startRow library prior harness) := by
  refine ⟨rfl, rfl, rfl, rfl, ?_⟩
  simp only [startRow, hsame, resetHarnesses, Keyed.get?_mapRows,
    Option.map_map]
  rfl

/-- The rows once the configurations of a start are loaded: those it names,
and the others as the reset left them. -/
theorem loaded_rows {prior loaded : CatalogDatabase}
    {runtimeIds : List HarnessId} {harnesses : List RuntimeProductHarness}
    (hnodup : (harnesses.map fun harness => harness.id).Nodup)
    (hrun : harnesses.foldlM
      (fun (state : CatalogDatabase) harness =>
        state.startHarness library prior runtimeIds harness)
      prior.resetHarnesses = .ok loaded) :
    (∀ harness ∈ harnesses, ∃ row,
      loaded.harnesses.get? harness.id = some row ∧
        LoadedRow prior harness row) ∧
    ∀ id, (∀ harness ∈ harnesses, harness.id ≠ id) →
      loaded.harnesses.get? id = prior.resetHarnesses.harnesses.get? id := by
  have hgeneral : ∀ (rest : List RuntimeProductHarness)
      (state final : CatalogDatabase),
      (rest.map fun harness => harness.id).Nodup →
      (∀ harness ∈ rest, state.harnesses.get? harness.id =
        prior.resetHarnesses.harnesses.get? harness.id) →
      rest.foldlM (fun (state : CatalogDatabase) harness =>
        state.startHarness library prior runtimeIds harness) state =
          .ok final →
      (∀ harness ∈ rest, ∃ row, final.harnesses.get? harness.id = some row ∧
        LoadedRow prior harness row) ∧
      ∀ id, (∀ harness ∈ rest, harness.id ≠ id) →
        final.harnesses.get? id = state.harnesses.get? id := by
    intro rest
    induction rest with
    | nil =>
        intro state final _ _ hfold
        obtain rfl : state = final := by simpa using hfold
        exact ⟨(fun _ h => by cases h), fun _ _ => rfl⟩
    | cons harness rest ih =>
        intro state final hnodup hsame hfold
        rw [List.foldlM_cons, bind_eq_ok_iff] at hfold
        obtain ⟨next, hstart, hrest⟩ := hfold
        have hput := startHarness_harnesses hstart
        rw [List.map_cons, List.nodup_cons] at hnodup
        have hfresh : ∀ other ∈ rest, other.id ≠ harness.id := by
          intro other hother hid
          exact hnodup.1 (List.mem_map.mpr ⟨other, hother, hid⟩)
        have hnext : ∀ other ∈ rest, next.harnesses.get? other.id =
            prior.resetHarnesses.harnesses.get? other.id := by
          intro other hother
          rw [hput, Keyed.get?_put_of_ne _ _ (hfresh other hother)]
          exact hsame other (List.mem_cons_of_mem _ hother)
        obtain ⟨hloaded, hothers⟩ := ih next final hnodup.2 hnext hrest
        refine ⟨?_, ?_⟩
        · intro other hother
          rcases List.mem_cons.mp hother with rfl | hother
          · refine ⟨state.startRow library prior other, ?_,
              loadedRow_startRow (hsame other List.mem_cons_self)⟩
            rw [hothers other.id hfresh, hput]
            exact Keyed.get?_put_self _ _ _
          · exact hloaded other hother
        · intro id hid
          rw [hothers id fun other hother =>
            hid other (List.mem_cons_of_mem _ hother), hput]
          exact Keyed.get?_put_of_ne _ _
            (Ne.symm (hid harness List.mem_cons_self))
  exact hgeneral harnesses prior.resetHarnesses loaded hnodup
    (fun _ _ => rfl) hrun

/-- A retired configuration is hidden and unavailable, and no other row
changes. -/
theorem retireAbsent_row {runtimeIds : List HarnessId}
    {retired replacement : HarnessId} {id : HarnessId} {row' : HarnessRow}
    (hrow' : (db.retireAbsentProductHarness runtimeIds retired
      replacement).harnesses.get? id = some row') :
    ∃ row, db.harnesses.get? id = some row ∧
      (row' = row ∨ row' = { row with
        productVisible := false
        available := false
        unavailableReason := some ⟨"harness_retired",
          "This product harness has been retired."⟩ }) := by
  unfold retireAbsentProductHarness at hrow'
  split at hrow'
  · exact ⟨row', hrow', .inl rfl⟩
  · simp only [Keyed.get?_mapRows] at hrow'
    obtain ⟨row, hrow, hresult⟩ := Option.map_eq_some_iff.mp hrow'
    refine ⟨row, hrow, ?_⟩
    split at hresult
    · exact .inr hresult.symm
    · exact .inl hresult.symm

theorem retireAbsent_isSome (runtimeIds : List HarnessId)
    (retired replacement : HarnessId) {id : HarnessId} {row : HarnessRow}
    (hrow : db.harnesses.get? id = some row) :
    ∃ row', (db.retireAbsentProductHarness runtimeIds retired
        replacement).harnesses.get? id = some row' := by
  unfold retireAbsentProductHarness
  split
  · exact ⟨row, hrow⟩
  · simp only [Keyed.get?_mapRows, hrow, Option.map_some]
    exact ⟨_, rfl⟩

theorem withDefaultHarness_harnesses (harness : HarnessId) :
    (db.withDefaultHarness harness).harnesses = db.harnesses := by
  unfold withDefaultHarness
  split <;> rfl

/-- A row after a start stands for a loaded row: it is that row, or it is
hidden and unavailable with the same mark, digest and recipe. -/
structure Shows (row row' : HarnessRow) : Prop where
  available : row'.available = true → row' = row
  due : row'.readinessUpdateDue = row.readinessUpdateDue
  digest : row'.runtimeConfigurationDigest = row.runtimeConfigurationDigest
  recipe : row'.runtimeRecipe = row.runtimeRecipe

theorem Shows.refl (row : HarnessRow) : Shows row row :=
  ⟨fun _ => rfl, rfl, rfl, rfl⟩

theorem Shows.trans {row row' row'' : HarnessRow} (h : Shows row row')
    (h' : Shows row' row'') : Shows row row'' := by
  refine ⟨?_, h'.due.trans h.due, h'.digest.trans h.digest,
    h'.recipe.trans h.recipe⟩
  intro havailable
  have hsame := h'.available havailable
  rw [hsame] at havailable ⊢
  exact h.available havailable

theorem shows_retired {row row' : HarnessRow}
    (h : row' = row ∨ row' = { row with
      productVisible := false
      available := false
      unavailableReason := some ⟨"harness_retired",
        "This product harness has been retired."⟩ }) : Shows row row' := by
  rcases h with rfl | rfl
  · exact .refl _
  · exact ⟨(fun h => by cases h), rfl, rfl, rfl⟩

/-- The rows a start leaves. -/
structure StartRows (prior : CatalogDatabase) (defaultHarness : HarnessId)
    (runtimeHarnesses : List RuntimeProductHarness)
    (db' : CatalogDatabase) : Prop where
  row : ∀ id row', db'.harnesses.get? id = some row' →
    (∃ harness ∈ startHarnesses defaultHarness runtimeHarnesses,
      harness.id = id ∧ ∃ row, LoadedRow prior harness row ∧ Shows row row') ∨
    row'.available = false ∧ ∃ row, prior.harnesses.get? id = some row ∧
      row'.readinessUpdateDue = row.readinessUpdateDue ∧
      row'.runtimeRecipe = row.runtimeRecipe
  stored : ∀ harness ∈ startHarnesses defaultHarness runtimeHarnesses,
    ∃ row', db'.harnesses.get? harness.id = some row' ∧
      row'.readinessUpdateDue = prior.startDue harness

theorem initializeModelCatalog_rows {defaultHarness : HarnessId}
    {runtimeHarnesses : List RuntimeProductHarness}
    (hrun : db.initializeModelCatalog library defaultHarness
      runtimeHarnesses = .ok db') :
    StartRows db defaultHarness runtimeHarnesses db' := by
  simp only [initializeModelCatalog, bind_eq_ok_iff, pure_eq_ok_iff] at hrun
  obtain ⟨_, -, loaded, hloop, rfl⟩ := hrun
  obtain ⟨hloaded, hothers⟩ := loaded_rows (startHarnesses_nodup _ _) hloop
  have hshows : ∀ {id row'},
      (((loaded.retireAbsentProductHarness
          (runtimeHarnesses.map fun harness => harness.id) "codex-basic-high"
          "codex-basic").retireAbsentProductHarness
            (runtimeHarnesses.map fun harness => harness.id)
            "prime-agent-deep" "prime-agent-basic").withDefaultHarness
              defaultHarness).harnesses.get? id = some row' →
        ∃ row, loaded.harnesses.get? id = some row ∧ Shows row row' := by
    intro id row' hrow'
    rw [withDefaultHarness_harnesses] at hrow'
    obtain ⟨middle, hmiddle, hsecond⟩ := retireAbsent_row hrow'
    obtain ⟨row, hrow, hfirst⟩ := retireAbsent_row hmiddle
    exact ⟨row, hrow, (shows_retired hfirst).trans (shows_retired hsecond)⟩
  refine ⟨?_, ?_⟩
  · intro id row' hrow'
    obtain ⟨row, hrow, hshow⟩ := hshows hrow'
    by_cases hnamed : ∃ harness ∈ startHarnesses defaultHarness
        runtimeHarnesses, harness.id = id
    · obtain ⟨harness, hmem, rfl⟩ := hnamed
      obtain ⟨stored, hstored, hloadedRow⟩ := hloaded harness hmem
      rw [hrow] at hstored
      obtain rfl := Option.some.inj hstored
      exact .inl ⟨harness, hmem, rfl, row, hloadedRow, hshow⟩
    · right
      have hreset := hothers id fun harness hmem hid =>
        hnamed ⟨harness, hmem, hid⟩
      rw [hrow, resetHarnesses, Keyed.get?_mapRows] at hreset
      obtain ⟨old, hold, rfl⟩ := Option.map_eq_some_iff.mp hreset.symm
      refine ⟨?_, old, hold, hshow.due, hshow.recipe⟩
      by_contra havailable
      have hon : row'.available = true := by simpa using havailable
      have hsame := hshow.available hon
      rw [hsame] at hon
      cases hon
  · intro harness hmem
    obtain ⟨row, hrow, hloadedRow⟩ := hloaded harness hmem
    obtain ⟨middle, hmiddle⟩ := retireAbsent_isSome
      (runtimeHarnesses.map fun harness => harness.id) "codex-basic-high"
      "codex-basic" hrow
    obtain ⟨row', hrow'⟩ := retireAbsent_isSome
      (runtimeHarnesses.map fun harness => harness.id) "prime-agent-deep"
      "prime-agent-basic" hmiddle
    rw [← withDefaultHarness_harnesses defaultHarness] at hrow'
    obtain ⟨stored, hstored, hshow⟩ := hshows hrow'
    rw [hrow] at hstored
    obtain rfl := Option.some.inj hstored
    exact ⟨row', hrow', hshow.due.trans hloadedRow.due⟩

/-! ## The rows of a batch -/

/-- What a committed batch makes of the row of a harness: that of its result,
which was measured for the digest the row was loaded with, or the row it
was. -/
def BatchRow (db : CatalogDatabase)
    (updates : List HarnessRuntimeAvailabilityUpdate) (id : HarnessId)
    (after : Option HarnessRow) : Prop :=
  (∃ update ∈ updates, update.harnessId = id ∧
    ∃ row reason, db.harnesses.get? id = some row ∧
      row.productVisible = true ∧
      row.runtimeConfigurationDigest = update.configurationDigest ∧
      after = some { row with
        available := update.available
        unavailableReason := reason
        readinessUpdateDue := false }) ∨
  (∀ update ∈ updates, update.harnessId ≠ id) ∧
    after = db.harnesses.get? id

theorem measuredRow_eq_some_iff {update : HarnessRuntimeAvailabilityUpdate}
    {row : HarnessRow} :
    db.measuredRow update = some row ↔
      db.harnesses.get? update.harnessId = some row ∧
        row.productVisible = true ∧
        row.runtimeConfigurationDigest = update.configurationDigest := by
  simp only [measuredRow, priorRuntime, Option.filter_eq_some_iff,
    decide_eq_true_eq, and_assoc]

theorem updateHarnessRuntimeAvailability_rows
    {accepted generations : HarnessId → Option ℕ}
    {updates : List HarnessRuntimeAvailabilityUpdate}
    (hrun : db.updateHarnessRuntimeAvailability library accepted updates =
      .ok (db', generations)) :
    (∀ id, BatchRow db updates id (db'.harnesses.get? id)) ∧
      generations = acceptedAfter accepted updates ∧
      ∀ update ∈ updates, ∀ generation,
        accepted update.harnessId = some generation →
          generation ≤ update.generation := by
  simp only [updateHarnessRuntimeAvailability, bind_eq_ok_iff, pure_eq_ok_iff,
    Prod.mk.injEq] at hrun
  obtain ⟨⟨final, seen⟩, hloop, rfl, rfl⟩ := hrun
  have hresult : (∀ id, BatchRow db updates id (final.harnesses.get? id)) ∧
      (∀ update ∈ updates, update.harnessId ∈ seen) ∧
      ∀ update ∈ updates, ∀ generation,
        accepted update.harnessId = some generation →
          generation ≤ update.generation := by
    refine foldlM_induction
      (P := fun (state : CatalogDatabase × List HarnessId) done =>
        (∀ id, BatchRow db done id (state.1.harnesses.get? id)) ∧
        (∀ update ∈ done, update.harnessId ∈ state.2) ∧
        ∀ update ∈ done, ∀ generation,
          accepted update.harnessId = some generation →
            generation ≤ update.generation) ?_ ?_ hloop
    · rintro ⟨state, seen⟩ done update ⟨next, seen'⟩ _
        ⟨hrows, hseen, hgenerations⟩ hnext
      obtain ⟨hnew, hseen', hgeneration, row, reason, hmeasured, hnextState⟩ :=
        publishReadiness_ok hnext
      dsimp only at hrows hseen
      have hfresh : ∀ other ∈ done, other.harnessId ≠ update.harnessId := by
        intro other hother hid
        exact hnew (hid ▸ hseen other hother)
      obtain ⟨hrow, hvisible, hdigest⟩ := measuredRow_eq_some_iff.mp hmeasured
      have hstored : db.harnesses.get? update.harnessId = some row := by
        rcases hrows update.harnessId with
          ⟨other, hother, hid, -⟩ | ⟨-, hsame⟩
        · exact absurd hid (hfresh other hother)
        · rw [← hsame]
          exact hrow
      refine ⟨?_, ?_, ?_⟩
      · intro id
        dsimp only
        rw [hnextState, Keyed.get?_put]
        by_cases hid : id = update.harnessId
        · rw [if_pos hid]
          refine .inl ⟨update, by simp, hid.symm, row, reason, ?_, hvisible,
            hdigest, rfl⟩
          rw [hid]
          exact hstored
        · rw [if_neg hid]
          rcases hrows id with ⟨other, hother, hotherId, hrest⟩ |
            ⟨hnone, hsame⟩
          · exact .inl ⟨other, by simp [hother], hotherId, hrest⟩
          · refine .inr ⟨?_, hsame⟩
            intro other hother
            rcases List.mem_append.mp hother with hold | hlast
            · exact hnone other hold
            · rw [List.mem_singleton.mp hlast]
              exact Ne.symm hid
      · intro other hother
        dsimp only
        rw [hseen']
        rcases List.mem_append.mp hother with hold | hlast
        · exact List.mem_cons_of_mem _ (hseen other hold)
        · rw [List.mem_singleton.mp hlast]
          exact List.mem_cons_self
      · intro other hother
        rcases List.mem_append.mp hother with hold | hlast
        · exact hgenerations other hold
        · rw [List.mem_singleton.mp hlast]
          exact hgeneration
    · exact ⟨fun _ => .inr ⟨(fun _ h => by cases h), rfl⟩,
        (fun _ h => by cases h), (fun _ h => by cases h)⟩
  exact ⟨hresult.1, rfl, hresult.2.2⟩

end CatalogDatabase

end RelayerGraph
