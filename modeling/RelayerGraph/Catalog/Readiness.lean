import RelayerGraph.Catalog.HarnessRows

/-!
# Readiness

The row of a harness is the only record of its readiness.  Over every run of
starts and batches, a harness that is available was measured ready, or loaded
ready by a start that does not coordinate it, and no start since withdrew it;
a harness that is due for its evaluation after an update is not available.
-/

namespace RelayerGraph

open Foundation Checked TransitionSystem

/-! ## The system -/

/-- The store with the generations its process has accepted. -/
structure ReadinessStore where
  db : CatalogDatabase
  accepted : HarnessId → Option ℕ

inductive ReadinessLabel
  | start (defaultHarness : HarnessId)
      (runtimeHarnesses : List RuntimeProductHarness)
  | batch (updates : List HarnessRuntimeAvailabilityUpdate)
  | failed (updates : List HarnessRuntimeAvailabilityUpdate)
  | other (label : CatalogLabel)

/-- The operation neither starts the catalog nor publishes readiness. -/
def CatalogLabel.besideReadiness : CatalogLabel → Bool
  | .catalog (.initializeCatalog _ _) => false
  | .catalog (.publishReadiness _ _) => false
  | _ => true

variable (library : CatalogLibrary)

namespace ReadinessStore

/-- `update_harness_runtime_availability`, one transaction under the lock of
the accepted generations: what it answers, with the store. -/
def publish (store : ReadinessStore)
    (updates : List HarnessRuntimeAvailabilityUpdate) :
    CatalogResult Unit × ReadinessStore :=
  match store.db.updateHarnessRuntimeAvailability library store.accepted
      updates with
  | .ok (db, accepted) => (.ok (), ⟨db, accepted⟩)
  | .error failure => (.error failure, store)

end ReadinessStore

inductive ReadinessStep :
    ReadinessStore → ReadinessLabel → ReadinessStore → Prop
  /-- A new process has accepted no generation. -/
  | start {store : ReadinessStore} {db' : CatalogDatabase}
      {defaultHarness : HarnessId}
      {runtimeHarnesses : List RuntimeProductHarness} :
      store.db.runCatalog library
        (.initializeCatalog defaultHarness runtimeHarnesses) = .ok db' →
      ReadinessStep store (.start defaultHarness runtimeHarnesses)
        ⟨db', fun _ => none⟩
  | batch {store : ReadinessStore}
      {updates : List HarnessRuntimeAvailabilityUpdate} :
      ReadinessStep store (.batch updates) (store.publish library updates).2
  /-- The transaction of a batch fails in the database. -/
  | failed {store : ReadinessStore}
      {updates : List HarnessRuntimeAvailabilityUpdate} :
      ReadinessStep store (.failed updates) store
  | other {store : ReadinessStore} {db' : CatalogDatabase}
      {label : CatalogLabel} :
      label.besideReadiness = true → CatalogStep library store.db label db' →
      ReadinessStep store (.other label) ⟨db', store.accepted⟩

/-- No harness is available yet, and no generation accepted. -/
def Unmeasured (store : ReadinessStore) : Prop :=
  (∀ id row, store.db.harnesses.get? id = some row → row.available = false) ∧
    store.accepted = fun _ => none

def readinessSystem : TransitionSystem ReadinessStore ReadinessLabel where
  init := Unmeasured
  step := ReadinessStep library

/-! ## What a run says of a harness -/

/-- The harness is shown and available, loaded with the digest. -/
def ReadinessStore.Ready (store : ReadinessStore) (id : HarnessId)
    (digest : String) : Prop :=
  ∃ row, store.db.harnesses.get? id = some row ∧ row.productVisible = true ∧
    row.available = true ∧ row.runtimeConfigurationDigest = digest

/-- The recipe recorded for the harness. -/
def ReadinessStore.recipe (store : ReadinessStore) (id : HarnessId) : String :=
  ((store.db.harnesses.get? id).map fun row => row.runtimeRecipe).getD ""

/-- The batch is committed and has a result for the harness. -/
def ReadinessStore.measures (store : ReadinessStore) (id : HarnessId) :
    ReadinessLabel → Prop
  | .batch updates => (store.publish library updates).1 = .ok () ∧
      ∃ update ∈ updates, update.harnessId = id
  | _ => False

/-- What last decided the readiness of a harness in a run said that it is
ready for the digest, and no step since withdrew it or changed a recorded
recipe: a committed result, or a start that did not coordinate it. -/
inductive Granted (id : HarnessId) (digest : String) :
    List (ReadinessStore × ReadinessLabel) → ReadinessStore → Prop
  | result {steps : List (ReadinessStore × ReadinessLabel)}
      {store : ReadinessStore}
      {updates : List HarnessRuntimeAvailabilityUpdate}
      {update : HarnessRuntimeAvailabilityUpdate} :
      (store.publish library updates).1 = .ok () → update ∈ updates →
      update.harnessId = id → update.available = true →
      update.configurationDigest = digest →
      Granted id digest (steps ++ [(store, .batch updates)])
        (store.publish library updates).2
  | loaded {steps : List (ReadinessStore × ReadinessLabel)}
      {store next : ReadinessStore} {defaultHarness : HarnessId}
      {runtimeHarnesses : List RuntimeProductHarness}
      {harness : RuntimeProductHarness} :
      harness ∈ startHarnesses defaultHarness runtimeHarnesses →
      harness.id = id → harness.restorePriorReadiness = false →
      harness.configurationDigest = digest →
      store.db.startAvailable harness = true →
      Granted id digest
        (steps ++ [(store, .start defaultHarness runtimeHarnesses)]) next
  | kept {steps : List (ReadinessStore × ReadinessLabel)}
      {store next : ReadinessStore} {label : ReadinessLabel} :
      Granted id digest steps store → store.Ready id digest →
      ¬ store.measures library id label →
      (store.recipe id = "" ∨ next.recipe id = store.recipe id) →
      Granted id digest (steps ++ [(store, label)]) next

/-- Every available harness is shown, and was granted its readiness for the
digest it is loaded with. -/
def ReadyGranted (steps : List (ReadinessStore × ReadinessLabel))
    (store : ReadinessStore) : Prop :=
  ∀ id row, store.db.harnesses.get? id = some row → row.available = true →
    row.productVisible = true ∧
      Granted library id row.runtimeConfigurationDigest steps store

/-- A harness that is due for its evaluation is not available. -/
def DueWithheld (store : ReadinessStore) : Prop :=
  ∀ id row, store.db.harnesses.get? id = some row →
    row.readinessUpdateDue = true → row.available = false

/-- What one step does to marks, generations and rows. -/
structure ReadinessAccounts (store : ReadinessStore) (label : ReadinessLabel)
    (next : ReadinessStore) : Prop where
  /-- A start that coordinates a shown harness marks it when its loaded digest
  or its recorded recipe changes. -/
  marks : ∀ defaultHarness runtimeHarnesses harness row,
    label = .start defaultHarness runtimeHarnesses →
      harness ∈ startHarnesses defaultHarness runtimeHarnesses →
        harness.restorePriorReadiness = true →
          store.db.harnesses.get? harness.id = some row →
            row.productVisible = true →
              (loadedRuntimeDigest row.runtimeConfigurationDigest = true ∧
                  row.runtimeConfigurationDigest ≠
                    harness.configurationDigest ∨
                row.runtimeRecipe ≠ "" ∧
                  ∃ recipe, harness.runtimeRecipe = some recipe ∧
                    row.runtimeRecipe ≠ recipe) →
                ∃ row', next.db.harnesses.get? harness.id = some row' ∧
                  row'.readinessUpdateDue = true
  /-- Only a start that coordinates the harness sets its mark. -/
  marked : ∀ id row', next.db.harnesses.get? id = some row' →
    row'.readinessUpdateDue = true →
      (∃ row, store.db.harnesses.get? id = some row ∧
        row.readinessUpdateDue = true) ∨
      ∃ defaultHarness runtimeHarnesses harness,
        label = .start defaultHarness runtimeHarnesses ∧
          harness ∈ startHarnesses defaultHarness runtimeHarnesses ∧
          harness.id = id ∧ harness.restorePriorReadiness = true
  /-- A mark is cleared by a committed result, by a start that leaves the
  harness available without coordinating it, or by one that loads it again
  after it was retired. -/
  cleared : ∀ id row row', store.db.harnesses.get? id = some row →
    row.readinessUpdateDue = true →
      next.db.harnesses.get? id = some row' →
        row'.readinessUpdateDue = false →
          store.measures library id label ∨
          ∃ defaultHarness runtimeHarnesses harness,
            label = .start defaultHarness runtimeHarnesses ∧
              harness ∈ startHarnesses defaultHarness runtimeHarnesses ∧
              harness.id = id ∧
              (row.productVisible = false ∨
                harness.restorePriorReadiness = false ∧
                  store.db.startAvailable harness = true)
  /-- In one process an accepted generation never decreases. -/
  generations : (∀ defaultHarness runtimeHarnesses,
      label ≠ .start defaultHarness runtimeHarnesses) →
    ∀ id generation, store.accepted id = some generation →
      ∃ generation', next.accepted id = some generation' ∧
        generation ≤ generation'
  /-- A refused batch changes nothing. -/
  refused : ∀ updates, label = .batch updates →
    (store.publish library updates).1 ≠ .ok () → next = store
  /-- A batch changes a row only by a result for the digest it is loaded
  with. -/
  measured : ∀ updates id, label = .batch updates →
    next.db.harnesses.get? id ≠ store.db.harnesses.get? id →
      ∃ update ∈ updates, ∃ row, update.harnessId = id ∧
        store.db.harnesses.get? id = some row ∧
          row.runtimeConfigurationDigest = update.configurationDigest

/-! ## The other operations -/

/-- What a row says of readiness. -/
def HarnessRow.readiness (row : HarnessRow) :
    Bool × Bool × String × Bool × String :=
  (row.productVisible, row.available, row.runtimeConfigurationDigest,
    row.readinessUpdateDue, row.runtimeRecipe)

namespace CatalogDatabase

/-- No row changes in what it says of readiness. -/
def SameReadiness (db db' : CatalogDatabase) : Prop :=
  ∀ id, (db'.harnesses.get? id).map HarnessRow.readiness =
    (db.harnesses.get? id).map HarnessRow.readiness

variable {library} {db db' : CatalogDatabase}

theorem SameReadiness.of_eq (h : db'.harnesses = db.harnesses) :
    SameReadiness db db' := by
  intro id
  rw [h]

theorem sameReadiness_updateRules {command : UpdateHarnessModelRulesCommand}
    (hrun : db.updateHarnessModelRules library command = .ok db') :
    SameReadiness db db' := by
  simp only [updateHarnessModelRules, bind_eq_ok_iff, orThrow_eq_ok_iff,
    pure_eq_ok_iff] at hrun
  obtain ⟨row, hrow, _, -, middle, hrules, rfl⟩ := hrun
  obtain ⟨rows, rfl⟩ := replaceRules_ok hrules
  have hstored : db.harnesses.get? command.harnessId = some row :=
    (Option.filter_eq_some_iff.mp hrow).1
  intro id
  dsimp only
  rw [Keyed.get?_put]
  split
  case isTrue hid =>
      rw [hid, hstored]
      rfl
  case isFalse => rfl

theorem sameReadiness_runCatalog {operation : CatalogOperation}
    (hbeside : (CatalogLabel.catalog operation).besideReadiness = true)
    (hrun : db.runCatalog library operation = .ok db') :
    SameReadiness db db' := by
  cases operation with
  | initializeCatalog => cases hbeside
  | publishReadiness => cases hbeside
  | updateRules command =>
      simp only [runCatalog, bind_eq_ok_iff] at hrun
      obtain ⟨_, -, hupdate⟩ := hrun
      exact sameReadiness_updateRules hupdate
  | createProvider =>
      simp only [runCatalog, bind_eq_ok_iff] at hrun
      obtain ⟨_, -, hcreate⟩ := hrun
      exact .of_eq (keepsFit_createProvider hcreate).1.harnesses
  | publishCatalog => exact .of_eq (keepsFit_publish hrun).1.harnesses
  | syncProviders => exact .of_eq (keepsFit_sync hrun).1.harnesses
  | createFamily command =>
      simp only [runCatalog, bind_eq_ok_iff] at hrun
      obtain ⟨_, -, hcreate⟩ := hrun
      exact .of_eq (keepsFit_createModelFamily hcreate).1.harnesses
  | updateFamily command =>
      simp only [runCatalog, bind_eq_ok_iff] at hrun
      obtain ⟨_, -, hupdate⟩ := hrun
      exact .of_eq (keepsFit_updateModelFamily hupdate).1.harnesses
  | deleteFamily id now =>
      simp only [runCatalog, bind_eq_ok_iff, pure_eq_ok_iff] at hrun
      obtain ⟨⟨deleted, final⟩, hdelete, rfl⟩ := hrun
      exact .of_eq (keepsFit_deleteModelFamily hdelete).1.harnesses
  | reorderFamilies familyIds =>
      exact .of_eq
        (keepsFit_renumbered (reorderModelFamilies_ok hrun)).1.harnesses
  | updateDefaults =>
      obtain ⟨hrest, -⟩ := updateModelSettingsDefaults_ok hrun
      apply SameReadiness.of_eq
      rw [hrest]
  | completeOnboarding =>
      exact .of_eq (keepsFit_completeOnboarding hrun).1.harnesses

theorem sameReadiness_step {label : CatalogLabel}
    (hbeside : label.besideReadiness = true)
    (hstep : CatalogStep library db label db') : SameReadiness db db' := by
  cases hstep with
  | catalog hrun => exact sameReadiness_runCatalog hbeside hrun
  | turn hrun => exact .of_eq (sameCatalog_runTurn hrun).harnesses
  | beside hother => exact .of_eq hother.catalog.harnesses

/-- Every row after the step stands for one before it. -/
theorem SameReadiness.row (h : SameReadiness db db') {id : HarnessId}
    {row' : HarnessRow} (hrow' : db'.harnesses.get? id = some row') :
    ∃ row, db.harnesses.get? id = some row ∧
      row'.readiness = row.readiness := by
  have hsame := h id
  rw [hrow', Option.map_some] at hsame
  obtain ⟨row, hrow, hview⟩ := Option.map_eq_some_iff.mp hsame.symm
  exact ⟨row, hrow, hview.symm⟩

/-! ## What a start decides -/

/-- A coordinated configuration is left available only when its row recorded
it ready, with its recipe unchanged. -/
theorem ready_of_startAvailable {harness : RuntimeProductHarness}
    (hcoordinated : harness.restorePriorReadiness = true)
    (havailable : db.startAvailable harness = true) :
    (∃ row, db.harnesses.get? harness.id = some row ∧
      row.available = true ∧ row.productVisible = true ∧
      row.runtimeConfigurationDigest = harness.configurationDigest) ∧
    db.recipeChanged harness = false := by
  have hruntime : (db.withheld harness).runtimeAvailable = true := by
    simp only [startAvailable, Bool.and_eq_true] at havailable
    exact havailable.1
  unfold withheld at hruntime
  split at hruntime
  case isTrue => cases hruntime
  case isFalse hkept =>
      have hopen : ¬ (db.recipeChanged harness = true ∨
          db.priorReady harness.id harness.configurationDigest = false) :=
        fun hwithheld => hkept ⟨hcoordinated, hruntime, hwithheld⟩
      have hready : db.priorReady harness.id harness.configurationDigest =
          true := by
        by_contra hunready
        exact hopen (.inr (by simpa using hunready))
      refine ⟨?_, ?_⟩
      · obtain ⟨row, hrow, hstate⟩ := (Option.any_eq_true _ _).mp hready
        simp only [Bool.and_eq_true, decide_eq_true_eq] at hstate
        exact ⟨row, hrow, hstate.1.1, hstate.1.2, hstate.2⟩
      · by_contra hchanged
        exact hopen (.inl (by simpa using hchanged))

/-- A start leaves no harness available that is due. -/
theorem due_withheld_start {harness : RuntimeProductHarness}
    (hdue : ∀ row, db.harnesses.get? harness.id = some row →
      row.readinessUpdateDue = true → row.available = false)
    (hmarked : db.startDue harness = true) :
    db.startAvailable harness = false := by
  obtain ⟨row, hrow, hcase⟩ := (Option.any_eq_true _ _).mp hmarked
  have hstored : db.harnesses.get? harness.id = some row :=
    (Option.filter_eq_some_iff.mp hrow).1
  by_cases hcoordinated : harness.restorePriorReadiness = true
  · by_contra havailable
    obtain ⟨⟨old, hold, holdAvailable, -, hdigest⟩, hrecipe⟩ :=
      ready_of_startAvailable hcoordinated (by simpa using havailable)
    rw [hstored] at hold
    obtain rfl := Option.some.inj hold
    simp only [hcoordinated, if_true, hrecipe, Bool.or_false,
      Bool.or_eq_true, Bool.and_eq_true, decide_eq_true_eq] at hcase
    rcases hcase with hdueRow | ⟨-, hchanged⟩
    · rw [hdue row hstored hdueRow] at holdAvailable
      cases holdAvailable
    · exact hchanged hdigest
  · simp only [hcoordinated, Bool.false_eq_true, if_false,
      Bool.and_eq_true, Bool.not_eq_true'] at hcase
    exact hcase.2

/-- An unchanged recipe stays recorded. -/
theorem recipe_of_unchanged {harness : RuntimeProductHarness}
    {row loaded : HarnessRow} (hloaded : LoadedRow db harness loaded)
    (hrow : db.harnesses.get? harness.id = some row)
    (hvisible : row.productVisible = true)
    (hcoordinated : harness.restorePriorReadiness = true)
    (hunchanged : db.recipeChanged harness = false) :
    row.runtimeRecipe = "" ∨ loaded.runtimeRecipe = row.runtimeRecipe := by
  have hprior : db.priorRuntime harness.id = some row := by
    simp [priorRuntime, hrow, hvisible]
  rw [hloaded.recipe, hrow]
  cases hrecipe : harness.runtimeRecipe with
  | none => exact .inr rfl
  | some recipe =>
      by_cases hempty : row.runtimeRecipe = ""
      · exact .inl hempty
      · right
        simp only [recipeChanged, hcoordinated, hrecipe, hprior, hempty,
          Bool.true_and, Option.any_some, if_false, Bool.or_eq_false_iff,
          decide_eq_false_iff_not, ne_eq, Decidable.not_not] at hunchanged
        simp [hcoordinated, hunchanged.2, Option.filter]

end CatalogDatabase

open CatalogDatabase

/-! ## Every step -/

section Steps

variable {library} {store next : ReadinessStore} {label : ReadinessLabel}

/-- What a batch answers, and the store it leaves. -/
theorem publish_cases (library : CatalogLibrary) (store : ReadinessStore)
    (updates : List HarnessRuntimeAvailabilityUpdate) :
    (∃ db accepted, store.db.updateHarnessRuntimeAvailability library
        store.accepted updates = .ok (db, accepted) ∧
      store.publish library updates = (.ok (), ⟨db, accepted⟩)) ∨
    ∃ failure, store.publish library updates = (.error failure, store) := by
  unfold ReadinessStore.publish
  cases hrun : store.db.updateHarnessRuntimeAvailability library
      store.accepted updates with
  | ok result => exact .inl ⟨result.1, result.2, rfl, rfl⟩
  | error failure => exact .inr ⟨failure, rfl⟩

theorem acceptedAfter_le {accepted : HarnessId → Option ℕ}
    {updates : List HarnessRuntimeAvailabilityUpdate} {id : HarnessId}
    {generation : ℕ} (haccepted : accepted id = some generation)
    (hupdates : ∀ update ∈ updates, update.harnessId = id →
      generation ≤ update.generation) :
    ∃ generation', acceptedAfter accepted updates id = some generation' ∧
      generation ≤ generation' := by
  have hgeneral : ∀ (rest : List HarnessRuntimeAvailabilityUpdate)
      (current : HarnessId → Option ℕ),
      (∀ update ∈ rest, update.harnessId = id →
        generation ≤ update.generation) →
      (∃ held, current id = some held ∧ generation ≤ held) →
      ∃ held, acceptedAfter current rest id = some held ∧
        generation ≤ held := by
    intro rest
    induction rest with
    | nil => exact fun _ _ hheld => hheld
    | cons update rest ih =>
        intro current hrest hheld
        refine ih _ (fun other hother =>
          hrest other (List.mem_cons_of_mem _ hother)) ?_
        beta_reduce
        by_cases hid : id = update.harnessId
        · refine ⟨update.generation, ?_,
            hrest update List.mem_cons_self hid.symm⟩
          rw [hid, Function.update_self]
        · rw [Function.update_of_ne hid]
          exact hheld
  exact hgeneral updates accepted hupdates ⟨generation, haccepted, le_refl _⟩

theorem startRows_of_run {defaultHarness : HarnessId}
    {runtimeHarnesses : List RuntimeProductHarness}
    {db db' : CatalogDatabase}
    (hrun : db.runCatalog library
      (.initializeCatalog defaultHarness runtimeHarnesses) = .ok db') :
    StartRows db defaultHarness runtimeHarnesses db' := by
  simp only [runCatalog, bind_eq_ok_iff] at hrun
  obtain ⟨_, -, hstart⟩ := hrun
  exact initializeModelCatalog_rows hstart

theorem dueWithheld_step (h : DueWithheld store)
    (hstep : ReadinessStep library store label next) : DueWithheld next := by
  cases hstep with
  | start hrun =>
      intro id row' hrow' hdue
      rcases (startRows_of_run hrun).row id row' hrow' with
        ⟨harness, -, rfl, row, hloaded, hshows⟩ | ⟨hoff, -⟩
      · by_contra havailable
        have hon : row'.available = true := by simpa using havailable
        have hsame := hshows.available hon
        rw [hsame] at hon hdue
        rw [hloaded.due] at hdue
        rw [hloaded.available] at hon
        have hoff := due_withheld_start (h harness.id) hdue
        rw [hoff] at hon
        cases hon
      · exact hoff
  | @batch updates =>
      rcases publish_cases library store updates with
        ⟨db, accepted, hrun, hresult⟩ | ⟨failure, hresult⟩
      · rw [hresult]
        intro id row' hrow' hdue
        rcases (updateHarnessRuntimeAvailability_rows hrun).1 id with
          ⟨update, -, -, row, reason, -, -, -, hafter⟩ | ⟨-, hafter⟩
        · dsimp only at hrow'
          rw [hrow'] at hafter
          obtain rfl := Option.some.inj hafter
          cases hdue
        · dsimp only at hrow'
          rw [hrow'] at hafter
          exact h id row' hafter.symm hdue
      · rw [hresult]
        exact h
  | failed => exact h
  | other hbeside hother =>
      intro id row' hrow' hdue
      obtain ⟨row, hrow, hview⟩ :=
        (sameReadiness_step hbeside hother).row hrow'
      simp only [HarnessRow.readiness, Prod.mk.injEq] at hview
      rw [hview.2.1]
      rw [hview.2.2.2.1] at hdue
      exact h id row hrow hdue

/-- A row that stands for a ready one before the step stays granted. -/
theorem granted_kept {steps : List (ReadinessStore × ReadinessLabel)}
    {id : HarnessId} {row : HarnessRow} {digest : String}
    (h : ReadyGranted library steps store)
    (hrow : store.db.harnesses.get? id = some row)
    (havailable : row.available = true)
    (hdigest : row.runtimeConfigurationDigest = digest)
    (hquiet : ¬ store.measures library id label)
    (hrecipe : store.recipe id = "" ∨ next.recipe id = store.recipe id) :
    Granted library id digest (steps ++ [(store, label)]) next := by
  obtain ⟨hvisible, hgranted⟩ := h id row hrow havailable
  rw [hdigest] at hgranted
  exact .kept hgranted ⟨row, hrow, hvisible, havailable, hdigest⟩ hquiet
    hrecipe

theorem readyGranted_start {steps : List (ReadinessStore × ReadinessLabel)}
    {db' : CatalogDatabase} {defaultHarness : HarnessId}
    {runtimeHarnesses : List RuntimeProductHarness}
    (h : ReadyGranted library steps store)
    (hrun : store.db.runCatalog library
      (.initializeCatalog defaultHarness runtimeHarnesses) = .ok db') :
    ReadyGranted library
      (steps ++ [(store, .start defaultHarness runtimeHarnesses)])
      ⟨db', fun _ => none⟩ := by
  intro id row' hrow' havailable
  rcases (startRows_of_run hrun).row id row' hrow' with
    ⟨harness, hmem, rfl, row, hloaded, hshows⟩ | ⟨hoff, -⟩
  · obtain rfl := hshows.available havailable
    refine ⟨hloaded.visible, ?_⟩
    rw [hloaded.available] at havailable
    rw [hloaded.digest]
    by_cases hcoordinated : harness.restorePriorReadiness = true
    · obtain ⟨⟨old, hold, holdAvailable, hvisible, hdigest⟩, hunchanged⟩ :=
        ready_of_startAvailable hcoordinated havailable
      refine granted_kept h hold holdAvailable hdigest (fun hm => hm) ?_
      have hrecipe := recipe_of_unchanged hloaded hold hvisible hcoordinated
        hunchanged
      simpa [ReadinessStore.recipe, hold, hrow'] using hrecipe
    · exact .loaded hmem rfl (by simpa using hcoordinated) rfl havailable
  · rw [hoff] at havailable
    cases havailable

theorem readyGranted_batch {steps : List (ReadinessStore × ReadinessLabel)}
    (h : ReadyGranted library steps store)
    (updates : List HarnessRuntimeAvailabilityUpdate) :
    ReadyGranted library (steps ++ [(store, .batch updates)])
      (store.publish library updates).2 := by
  intro id row' hrow' havailable
  rcases publish_cases library store updates with
    ⟨db, accepted, hrun, hresult⟩ | ⟨failure, hresult⟩
  · have hcommitted : (store.publish library updates).1 = .ok () := by
      rw [hresult]
    have hstored : db.harnesses.get? id = some row' := by
      rw [hresult] at hrow'
      exact hrow'
    have hbatch := (updateHarnessRuntimeAvailability_rows hrun).1 id
    rw [hstored] at hbatch
    rcases hbatch with
      ⟨update, hmem, hid, row, reason, -, hvisible, hdigest, hafter⟩ |
      ⟨hnone, hafter⟩
    · obtain rfl := Option.some.inj hafter
      exact ⟨hvisible, .result hcommitted hmem hid havailable hdigest.symm⟩
    · have hvisible := (h id row' hafter.symm havailable).1
      refine ⟨hvisible, granted_kept h hafter.symm havailable rfl ?_ ?_⟩
      · rintro ⟨-, update, hmem, hid⟩
        exact hnone update hmem hid
      · right
        simp only [ReadinessStore.recipe, hrow', ← hafter]
  · have hsame : (store.publish library updates).2 = store := by rw [hresult]
    rw [hsame] at hrow' ⊢
    refine ⟨(h id row' hrow' havailable).1,
      granted_kept h hrow' havailable rfl ?_ (.inr rfl)⟩
    rintro ⟨hcommitted, -⟩
    rw [hresult] at hcommitted
    cases hcommitted

theorem readyGranted_step {steps : List (ReadinessStore × ReadinessLabel)}
    (h : ReadyGranted library steps store)
    (hstep : ReadinessStep library store label next) :
    ReadyGranted library (steps ++ [(store, label)]) next := by
  cases hstep with
  | start hrun => exact readyGranted_start h hrun
  | batch => exact readyGranted_batch h _
  | failed =>
      intro id row hrow havailable
      exact ⟨(h id row hrow havailable).1,
        granted_kept h hrow havailable rfl (fun hm => hm) (.inr rfl)⟩
  | other hbeside hother =>
      intro id row' hrow' havailable
      obtain ⟨row, hrow, hview⟩ :=
        (sameReadiness_step hbeside hother).row hrow'
      simp only [HarnessRow.readiness, Prod.mk.injEq] at hview
      obtain ⟨hvisible, hsameAvailable, hdigest, -, hrecipe⟩ := hview
      rw [hsameAvailable] at havailable
      refine ⟨hvisible.trans (h id row hrow havailable).1,
        granted_kept h hrow havailable hdigest.symm (fun hm => hm) ?_⟩
      right
      dsimp only at hrow'
      simp only [ReadinessStore.recipe, hrow', hrow, Option.map_some,
        Option.getD_some]
      exact hrecipe

/-! ## The accounts of a step -/

/-- A coordinated start of a shown harness marks a changed digest or
recipe. -/
theorem startDue_of_changed {db : CatalogDatabase}
    {harness : RuntimeProductHarness} {row : HarnessRow}
    (hcoordinated : harness.restorePriorReadiness = true)
    (hrow : db.harnesses.get? harness.id = some row)
    (hvisible : row.productVisible = true)
    (hchanged : loadedRuntimeDigest row.runtimeConfigurationDigest = true ∧
        row.runtimeConfigurationDigest ≠ harness.configurationDigest ∨
      row.runtimeRecipe ≠ "" ∧ ∃ recipe,
        harness.runtimeRecipe = some recipe ∧ row.runtimeRecipe ≠ recipe) :
    db.startDue harness = true := by
  have hprior : db.priorRuntime harness.id = some row := by
    simp [priorRuntime, hrow, hvisible]
  rcases hchanged with ⟨hloaded, hdigest⟩ | ⟨hempty, recipe, hrecipe, hother⟩
  · simp [startDue, hprior, hcoordinated, hloaded, hdigest]
  · have hrecipeChanged : db.recipeChanged harness = true := by
      simp [recipeChanged, hcoordinated, hrecipe, hprior, hempty, hother]
    simp [startDue, hprior, hcoordinated, hrecipeChanged]

theorem accounts_start {db' : CatalogDatabase} {defaultHarness : HarnessId}
    {runtimeHarnesses : List RuntimeProductHarness}
    (hrun : store.db.runCatalog library
      (.initializeCatalog defaultHarness runtimeHarnesses) = .ok db') :
    ReadinessAccounts library store (.start defaultHarness runtimeHarnesses)
      ⟨db', fun _ => none⟩ := by
  have hrows := startRows_of_run hrun
  refine ⟨?_, ?_, ?_, ?_, ?_, ?_⟩
  · intro named runtime harness row hlabel hmem hcoordinated hrow hvisible
      hchanged
    obtain ⟨rfl, rfl⟩ := ReadinessLabel.start.inj hlabel
    obtain ⟨row', hrow', hdue⟩ := hrows.stored harness hmem
    refine ⟨row', hrow', ?_⟩
    rw [hdue]
    exact startDue_of_changed hcoordinated hrow hvisible hchanged
  · intro id row' hrow' hdue
    rcases hrows.row id row' hrow' with
      ⟨harness, hmem, rfl, row, hloaded, hshows⟩ | ⟨-, row, hrow, hsame, -⟩
    · by_cases hcoordinated : harness.restorePriorReadiness = true
      · exact .inr ⟨_, _, harness, rfl, hmem, rfl, hcoordinated⟩
      · left
        rw [hshows.due, hloaded.due] at hdue
        obtain ⟨old, hold, hcase⟩ := (Option.any_eq_true _ _).mp hdue
        simp only [hcoordinated, Bool.false_eq_true, if_false,
          Bool.and_eq_true] at hcase
        exact ⟨old, (Option.filter_eq_some_iff.mp hold).1, hcase.1⟩
    · exact .inl ⟨row, hrow, by rw [← hsame]; exact hdue⟩
  · intro id row row' hrow hdue hrow' hcleared
    right
    rcases hrows.row id row' hrow' with
      ⟨harness, hmem, rfl, loaded, hloaded, hshows⟩ |
      ⟨-, old, hold, hsame, -⟩
    · refine ⟨_, _, harness, rfl, hmem, rfl, ?_⟩
      by_cases hvisible : row.productVisible = true
      · right
        have hprior : store.db.priorRuntime harness.id = some row := by
          simp [priorRuntime, hrow, hvisible]
        rw [hshows.due, hloaded.due] at hcleared
        by_cases hcoordinated : harness.restorePriorReadiness = true
        · simp [startDue, hprior, hcoordinated, hdue] at hcleared
        · refine ⟨by simpa using hcoordinated, ?_⟩
          simpa [startDue, hprior, hcoordinated, hdue] using hcleared
      · exact .inl (by simpa using hvisible)
    · rw [hrow] at hold
      obtain rfl := Option.some.inj hold
      rw [hsame, hdue] at hcleared
      cases hcleared
  · intro hother
    exact absurd rfl (hother defaultHarness runtimeHarnesses)
  · exact fun _ hlabel => by cases hlabel
  · exact fun _ _ hlabel => by cases hlabel

/-- A step that leaves the store as it is. -/
theorem accounts_same
    (hother : ∀ defaultHarness runtimeHarnesses,
      label ≠ .start defaultHarness runtimeHarnesses) :
    ReadinessAccounts library store label store := by
  refine ⟨?_, ?_, ?_, ?_, fun _ _ _ => rfl, ?_⟩
  · intro defaultHarness runtimeHarnesses _ _ hlabel
    exact absurd hlabel (hother defaultHarness runtimeHarnesses)
  · intro id row' hrow' hdue
    exact .inl ⟨row', hrow', hdue⟩
  · intro id row row' hrow hdue hrow' hcleared
    rw [hrow] at hrow'
    obtain rfl := Option.some.inj hrow'
    rw [hdue] at hcleared
    cases hcleared
  · intro _ id generation haccepted
    exact ⟨generation, haccepted, le_refl _⟩
  · intro updates id _ hchanged
    exact absurd rfl hchanged

theorem accounts_batch (updates : List HarnessRuntimeAvailabilityUpdate) :
    ReadinessAccounts library store (.batch updates)
      (store.publish library updates).2 := by
  rcases publish_cases library store updates with
    ⟨db, accepted, hrun, hresult⟩ | ⟨failure, hresult⟩
  · obtain ⟨hrows, haccepted, hgenerations⟩ :=
      updateHarnessRuntimeAvailability_rows hrun
    have hcommitted : (store.publish library updates).1 = .ok () := by
      rw [hresult]
    have hmeasures : ∀ id, (∃ update ∈ updates, update.harnessId = id) →
        store.measures library id (.batch updates) :=
      fun id hupdate => ⟨hcommitted, hupdate⟩
    rw [hresult]
    refine ⟨?_, ?_, ?_, ?_, ?_, ?_⟩
    · exact fun _ _ _ _ hlabel => by cases hlabel
    · intro id row' hrow' hdue
      dsimp only at hrow'
      rcases hrows id with ⟨update, -, -, row, reason, -, -, -, hafter⟩ |
        ⟨-, hafter⟩
      · rw [hrow'] at hafter
        obtain rfl := Option.some.inj hafter
        cases hdue
      · rw [hrow'] at hafter
        exact .inl ⟨row', hafter.symm, hdue⟩
    · intro id row row' hrow hdue hrow' hcleared
      dsimp only at hrow'
      rcases hrows id with ⟨update, hmem, hid, -⟩ | ⟨-, hafter⟩
      · exact .inl (hmeasures id ⟨update, hmem, hid⟩)
      · rw [hrow', hrow] at hafter
        obtain rfl := Option.some.inj hafter
        rw [hdue] at hcleared
        cases hcleared
    · intro _ id generation hheld
      dsimp only
      rw [haccepted]
      apply acceptedAfter_le hheld
      intro update hmem hid
      exact hgenerations update hmem generation (by rw [hid]; exact hheld)
    · intro other hlabel hrefused
      obtain rfl := ReadinessLabel.batch.inj hlabel
      exact absurd hcommitted hrefused
    · intro other id hlabel hchanged
      obtain rfl := ReadinessLabel.batch.inj hlabel
      rcases hrows id with
        ⟨update, hmem, hid, row, reason, hrow, -, hdigest, -⟩ | ⟨-, hafter⟩
      · exact ⟨update, hmem, row, hid, hrow, hdigest⟩
      · exact absurd hafter hchanged
  · have hsame : (store.publish library updates).2 = store := by rw [hresult]
    rw [hsame]
    exact accounts_same fun _ _ hlabel => by cases hlabel

theorem accounts_step (hstep : ReadinessStep library store label next) :
    ReadinessAccounts library store label next := by
  cases hstep with
  | start hrun => exact accounts_start hrun
  | batch => exact accounts_batch _
  | failed => exact accounts_same fun _ _ hlabel => by cases hlabel
  | other hbeside hother =>
      have hsame := sameReadiness_step hbeside hother
      refine ⟨?_, ?_, ?_, ?_, ?_, ?_⟩
      · exact fun _ _ _ _ hlabel => by cases hlabel
      · intro id row' hrow' hdue
        obtain ⟨row, hrow, hview⟩ := hsame.row hrow'
        simp only [HarnessRow.readiness, Prod.mk.injEq] at hview
        exact .inl ⟨row, hrow, by rw [← hview.2.2.2.1]; exact hdue⟩
      · intro id row row' hrow hdue hrow' hcleared
        obtain ⟨old, hold, hview⟩ := hsame.row hrow'
        rw [hrow] at hold
        obtain rfl := Option.some.inj hold
        simp only [HarnessRow.readiness, Prod.mk.injEq] at hview
        rw [hview.2.2.2.1, hdue] at hcleared
        cases hcleared
      · intro _ id generation haccepted
        exact ⟨generation, haccepted, le_refl _⟩
      · exact fun _ hlabel => by cases hlabel
      · exact fun _ _ hlabel => by cases hlabel

end Steps

/-! ## Every run -/

variable {library} {store : ReadinessStore}
  {steps : List (ReadinessStore × ReadinessLabel)}

/-- Readiness is what the last measure or uncoordinated load of a harness
said, and no start since withdrew it; a marked harness is not available; and
marks, generations and rows change only as `ReadinessAccounts` says. -/
theorem readiness_measured
    (htrace : (readinessSystem library).Trace steps store) :
    ReadyGranted library steps store ∧ DueWithheld store ∧
      ∀ label next, ReadinessStep library store label next →
        ReadinessAccounts library store label next := by
  refine ⟨?_, ?_, fun label next hstep => accounts_step hstep⟩
  · induction htrace with
    | init hinit =>
        intro id row hrow havailable
        rw [hinit.1 id row hrow] at havailable
        cases havailable
    | step _ hstep ih => exact readyGranted_step ih hstep
  · refine htrace.reachable.invariant ?_ ?_
    · intro first hinit id row hrow _
      exact hinit.1 id row hrow
    · intro first label next _ hwithheld hstep
      exact dueWithheld_step hwithheld hstep

/-! ## A start that does not coordinate -/

/-- The configuration of the default harness, with valid files. -/
def plainHarness (coordinated : Bool) : RuntimeProductHarness where
  id := "codex-basic"
  configurationDigest := "sha256:a"
  modelCompatibility := []
  configurationRevision := 1
  modelRules := none
  executionAccessContracts := []
  familyPolicy := none
  restorePriorReadiness := coordinated
  runtimeRecipe := none
  runtimeUpdated := false
  runtimeAvailable := true
  unavailableReason := none

def plainStart (coordinated : Bool) : ReadinessLabel :=
  .start "codex-basic" [plainHarness coordinated]

/-- The store after a start that succeeds. -/
def nextStart (coordinated : Bool) (db : CatalogDatabase) :
    Option CatalogDatabase :=
  nextCatalog plainLibrary db
    (.catalog (.initializeCatalog "codex-basic" [plainHarness coordinated]))

theorem unmeasured_fresh : Unmeasured ⟨fresh, fun _ => none⟩ := by
  refine ⟨?_, rfl⟩
  intro id row hrow
  change (Keyed.empty.put "codex-basic" _).get? id = some row at hrow
  rw [Keyed.get?_put] at hrow
  split at hrow
  · obtain rfl := Option.some.inj hrow
    rfl
  · cases hrow

theorem trace_plainStarts {first second : CatalogDatabase}
    (hfirst : nextStart false fresh = some first)
    (hsecond : nextStart true first = some second) :
    (readinessSystem plainLibrary).Trace
      [(⟨fresh, fun _ => none⟩, plainStart false),
        (⟨first, fun _ => none⟩, plainStart true)]
      ⟨second, fun _ => none⟩ := by
  have hstart : (readinessSystem plainLibrary).Trace
      ([] ++ [(⟨fresh, fun _ => none⟩, plainStart false)])
      ⟨first, fun _ => none⟩ :=
    .step (.init unmeasured_fresh) (.start (toOption_eq_some hfirst))
  exact .step hstart (.start (toOption_eq_some hsecond))

theorem exists_plainStarts : ∃ first second,
    nextStart false fresh = some first ∧
      nextStart true first = some second ∧
        (second.harnesses.get? "codex-basic").any
          (fun row => row.available) = true := by
  have hrun : ((nextStart false fresh).bind fun first =>
      (nextStart true first).filter fun second =>
        (second.harnesses.get? "codex-basic").any
          fun row => row.available).isSome = true := by decide
  obtain ⟨second, hrun⟩ := Option.isSome_iff_exists.mp hrun
  obtain ⟨first, hfirst, hsecond⟩ := Option.bind_eq_some_iff.mp hrun
  obtain ⟨hsecond, havailable⟩ := Option.filter_eq_some_iff.mp hsecond
  exact ⟨first, second, hfirst, hsecond, havailable⟩

/-- A coordinated start leaves a harness available that no result was ever
committed for: the start before it, which did not coordinate the harness,
loaded it from valid files. -/
theorem readiness_without_result : ∃ steps store,
    (readinessSystem plainLibrary).Trace steps store ∧
      steps.map Prod.snd = [plainStart false, plainStart true] ∧
        (store.db.harnesses.get? "codex-basic").any
          (fun row => row.available) = true := by
  obtain ⟨first, second, hfirst, hsecond, havailable⟩ := exists_plainStarts
  exact ⟨_, _, trace_plainStarts hfirst hsecond, rfl, havailable⟩

theorem readiness_measured_plainStarts : ∃ steps store,
    (readinessSystem plainLibrary).Trace steps store ∧
      (∃ row, store.db.harnesses.get? "codex-basic" = some row ∧
        row.available = true) ∧ DueWithheld store := by
  obtain ⟨first, second, hfirst, hsecond, havailable⟩ := exists_plainStarts
  have htrace := trace_plainStarts hfirst hsecond
  obtain ⟨row, hrow, hon⟩ := (Option.any_eq_true _ _).mp havailable
  exact ⟨_, _, htrace, ⟨row, hrow, hon⟩, (readiness_measured htrace).2.1⟩

end RelayerGraph
