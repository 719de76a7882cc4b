import RelayerGraph.Catalog.Reopening

/-!
# The accounts of attempts and leases

Every operation leaves each attempt as it is, ends it while it runs, or
acknowledges the lease it owes.  From that, a turn has one running attempt at
most, a decided attempt stays decided, and a lease is owed until its one
acknowledgement.
-/

namespace RelayerGraph

open Foundation Checked TransitionSystem

namespace CatalogDatabase

/-! ## What the accounts say -/

/-- No two attempts of one turn are running. -/
def OneRunning (db : CatalogDatabase) : Prop :=
  ∀ id row id' row', db.attempts.get? id = some row →
    db.attempts.get? id' = some row' → row.turn = row'.turn →
      row.outcome = .running → row'.outcome = .running → id = id'

/-- Every attempt that ended, or that nothing waits on, is listed with its
lease until the lease is acknowledged. -/
def ListsDebts (db : CatalogDatabase) : Prop :=
  ∀ id row lease, db.attempts.get? id = some row →
    row.executionLeaseId = some lease →
      row.executionLeaseReconciledAt = none →
        (row.outcome ≠ .running ∨ row.nativeWaitEndedAt.isSome) →
          (id, some lease) ∈ db.unreconciledLeaseDebts

/-- A decided attempt keeps its decision, and an acknowledged lease its
acknowledgement. -/
structure KeepsAccounts (db db' : CatalogDatabase) : Prop where
  decided : ∀ id row, db.attempts.get? id = some row →
    row.outcome ≠ .running →
      ∃ row', db'.attempts.get? id = some row' ∧
        row'.outcome = row.outcome ∧
        row'.failureCategory = row.failureCategory ∧
        row'.effectBoundary = row.effectBoundary
  acknowledged : ∀ id row time, db.attempts.get? id = some row →
    row.executionLeaseReconciledAt = some time →
      ∃ row', db'.attempts.get? id = some row' ∧
        row'.executionLeaseReconciledAt = some time

/-- What one step does to leases, attempts and the removal of providers. -/
structure StepAccounts (library : CatalogLibrary) (db : CatalogDatabase)
    (label : CatalogLabel) (db' : CatalogDatabase) : Prop where
  /-- A stored lease is acknowledged by its own acknowledgement only, once the
  attempt ended or nothing waits on it. -/
  acknowledges : ∀ id row row', db.attempts.get? id = some row →
    db'.attempts.get? id = some row' →
      row'.executionLeaseReconciledAt ≠ row.executionLeaseReconciledAt →
        row.executionLeaseReconciledAt = none ∧
          (row.outcome ≠ .running ∨ row.nativeWaitEndedAt.isSome) ∧
          ∃ lease now, label = .turn (.acknowledgeLease id lease now) ∧
            row.executionLeaseId = some lease
  /-- An attempt that is inserted with its lease acknowledged has ended. -/
  inserted : ∀ id row', db.attempts.get? id = none →
    db'.attempts.get? id = some row' →
      row'.executionLeaseReconciledAt.isSome → row'.outcome ≠ .running
  /-- An attempt begins on an active provider, with the plan the catalog
  resolves. -/
  begins : ∀ id row', db.attempts.get? id = none →
    db'.attempts.get? id = some row' → row'.outcome = .running →
      (∃ provider, db.providers.get? row'.providerId = some provider ∧
        provider.lifecycleState = .active) ∧
      ∃ plan route, row'.admittedPlan = some plan ∧
        db.resolveExecutionModelPlan library row'.harnessName
            ⟨row'.familyId, row'.providerId, row'.modelId⟩ =
          .ok (AdmittedExecutionModelPlan.planned plan, route)
  /-- A provider is tombstoned when no attempt on it is running and still
  waited on. -/
  tombstones : ∀ provider row', db'.providers.get? provider = some row' →
    row'.lifecycleState = .tombstoned →
      (∃ row, db.providers.get? provider = some row ∧
        row.lifecycleState = .tombstoned) ∨
      ∀ id row, db'.attempts.get? id = some row → row.providerId = provider →
        row.outcome = .running → row.nativeWaitEndedAt.isSome

/-- No attempt is stored. -/
def WithoutAttempts (db : CatalogDatabase) : Prop :=
  ∀ id, db.attempts.get? id = none

/-! ## One row -/

/-- What becomes of an attempt in one step. -/
structure Forward (row row' : TurnAttemptRow) : Prop where
  turn : row'.turn = row.turn
  lease : row'.executionLeaseId = row.executionLeaseId
  decided : row.outcome ≠ .running → row'.outcome = row.outcome ∧
    row'.failureCategory = row.failureCategory ∧
    row'.effectBoundary = row.effectBoundary
  acknowledged : row.executionLeaseReconciledAt.isSome →
    row'.executionLeaseReconciledAt = row.executionLeaseReconciledAt

theorem Forward.refl (row : TurnAttemptRow) : Forward row row :=
  ⟨rfl, rfl, fun _ => ⟨rfl, rfl, rfl⟩, fun _ => rfl⟩

/-- An attempt that runs after the step ran before it. -/
theorem Forward.running {row row' : TurnAttemptRow} (h : Forward row row')
    (hrunning : row'.outcome = .running) : row.outcome = .running := by
  by_cases hended : row.outcome = .running
  · exact hended
  · rw [(h.decided hended).1] at hrunning
    exact absurd hrunning hended

theorem Progress.reconciled {row row' : TurnAttemptRow}
    (h : Progress row row') :
    row'.executionLeaseReconciledAt = row.executionLeaseReconciledAt := by
  rw [h.receipt]

theorem Progress.forward {row row' : TurnAttemptRow} (h : Progress row row') :
    Forward row row' := by
  refine ⟨?_, ?_, ?_, fun _ => h.reconciled⟩
  · rw [h.receipt]
  · rw [h.receipt]
  · intro hended
    rw [h.decided hended]
    exact ⟨rfl, rfl, rfl⟩

theorem leaseOwed_iff {row : TurnAttemptRow} :
    leaseOwed row = true ↔ row.executionLeaseId.isSome = true ∧
      row.executionLeaseReconciledAt = none ∧
        (row.outcome ≠ .running ∨ row.nativeWaitEndedAt.isSome = true) := by
  simp [leaseOwed, and_assoc]

theorem forward_acknowledged (lease now : String) (row : TurnAttemptRow) :
    Forward row (acknowledged lease now row) := by
  unfold acknowledged
  split
  case isTrue howed =>
      have hfree := (leaseOwed_iff.mp howed.1).2.1
      refine ⟨rfl, rfl, fun _ => ⟨rfl, rfl, rfl⟩, ?_⟩
      intro hsome
      rw [hfree] at hsome
      cases hsome
  case isFalse => exact .refl row

/-! ## One step -/

variable {library : CatalogLibrary} {db db' : CatalogDatabase}

/-- Attempts move forward, and at most one is added, which ended or begins on
an idle turn. -/
structure AttemptsMove (db db' : CatalogDatabase) : Prop where
  kept : ∀ id row, db.attempts.get? id = some row →
    ∃ row', db'.attempts.get? id = some row' ∧ Forward row row'
  added : ∀ id row', db.attempts.get? id = none →
    db'.attempts.get? id = some row' → row'.outcome = .running →
      id = db.attempts.nextKey ∧
        ∀ other row, db.attempts.get? other = some row →
          row.turn = row'.turn → row.outcome ≠ .running

theorem AttemptsMove.of_eq (h : db'.attempts = db.attempts) :
    AttemptsMove db db' := by
  refine ⟨?_, ?_⟩
  · intro id row hrow
    exact ⟨row, by rw [h]; exact hrow, .refl row⟩
  · intro id row' hnone hrow'
    rw [h, hnone] at hrow'
    cases hrow'

theorem AttemptsMove.of_mapRows
    {change : AttemptId → TurnAttemptRow → TurnAttemptRow}
    (h : db'.attempts = db.attempts.mapRows change)
    (hchange : ∀ id row, db.attempts.get? id = some row →
      Forward row (change id row)) : AttemptsMove db db' := by
  refine ⟨?_, ?_⟩
  · intro id row hrow
    refine ⟨change id row, ?_, hchange id row hrow⟩
    rw [h, Table.get?_mapRows, hrow]
    rfl
  · intro id row' hnone hrow'
    rw [h, Table.get?_mapRows, hnone] at hrow'
    cases hrow'

theorem AttemptsMove.of_progress
    (h : AttemptsProgress db.attempts db'.attempts) : AttemptsMove db db' := by
  obtain ⟨next, hnext, hprogress⟩ := h
  exact .of_mapRows hnext fun id row hrow => (hprogress id row hrow).forward

/-- The step of a running attempt that begins. -/
theorem AttemptsMove.of_insert {row : TurnAttemptRow}
    (h : db'.attempts = db.attempts.insert row)
    (hidle : ∀ id old, db.attempts.get? id = some old →
      old.turn = row.turn → old.outcome ≠ .running) : AttemptsMove db db' := by
  refine ⟨?_, ?_⟩
  · intro id old hold
    refine ⟨old, ?_, .refl old⟩
    rw [h]
    exact Table.get?_insert_of_get? hold
  · intro id row' hnone hrow' _
    rw [h, Table.get?_insert] at hrow'
    split at hrow'
    case isTrue hid =>
        obtain rfl := Option.some.inj hrow'
        exact ⟨hid, hidle⟩
    case isFalse =>
        rw [hnone] at hrow'
        cases hrow'

/-- The step of an attempt that is inserted as ended. -/
theorem AttemptsMove.of_insertEnded (row : TurnAttemptRow)
    (hended : row.outcome ≠ .running)
    (h : AttemptsProgress (db.attempts.insert row) db'.attempts) :
    AttemptsMove db db' := by
  obtain ⟨next, hnext, hprogress⟩ := h
  refine ⟨?_, ?_⟩
  · intro id old hold
    have hstored : (db.attempts.insert row).get? id = some old :=
      Table.get?_insert_of_get? hold
    refine ⟨next id old, ?_, (hprogress id old hstored).forward⟩
    rw [hnext, Table.get?_mapRows, hstored]
    rfl
  · intro id row' hnone hrow' hrunning
    rw [hnext, Table.get?_mapRows, Table.get?_insert] at hrow'
    split at hrow'
    case isTrue hid =>
        obtain rfl := Option.some.inj hrow'
        have hstored : (db.attempts.insert row).get? id = some row := by
          rw [hid]
          exact Table.get?_insert_nextKey _ _
        exact absurd ((hprogress id row hstored).forward.running hrunning)
          hended
    case isFalse =>
        rw [hnone] at hrow'
        cases hrow'

/-- One step leaves at most one running attempt of each turn. -/
theorem AttemptsMove.oneRunning (h : AttemptsMove db db')
    (hone : OneRunning db) : OneRunning db' := by
  intro id row' id' other' hrow' hother' hturn hrunning hrunning'
  cases hrow : db.attempts.get? id with
  | none =>
      obtain ⟨hid, hidle⟩ := h.added id row' hrow hrow' hrunning
      cases hother : db.attempts.get? id' with
      | none =>
          obtain ⟨hid', -⟩ := h.added id' other' hother hother' hrunning'
          rw [hid, hid']
      | some other =>
          obtain ⟨stored, hstored, hforward⟩ := h.kept id' other hother
          rw [hother'] at hstored
          obtain rfl := Option.some.inj hstored
          exact absurd (hforward.running hrunning')
            (hidle id' other hother (hforward.turn.symm.trans hturn.symm))
  | some row =>
      obtain ⟨stored, hstored, hforward⟩ := h.kept id row hrow
      rw [hrow'] at hstored
      obtain rfl := Option.some.inj hstored
      cases hother : db.attempts.get? id' with
      | none =>
          obtain ⟨-, hidle⟩ := h.added id' other' hother hother' hrunning'
          exact absurd (hforward.running hrunning)
            (hidle id row hrow (hforward.turn.symm.trans hturn))
      | some other =>
          obtain ⟨stored, hstored, hforward'⟩ := h.kept id' other hother
          rw [hother'] at hstored
          obtain rfl := Option.some.inj hstored
          have hsame : row.turn = other.turn := by
            rw [← hforward.turn, ← hforward'.turn]
            exact hturn
          exact hone id row id' other hrow hother hsame
            (hforward.running hrunning) (hforward'.running hrunning')

theorem AttemptsMove.keepsAccounts (h : AttemptsMove db db') :
    KeepsAccounts db db' := by
  refine ⟨?_, ?_⟩
  · intro id row hrow hended
    obtain ⟨row', hrow', hforward⟩ := h.kept id row hrow
    exact ⟨row', hrow', hforward.decided hended⟩
  · intro id row time hrow htime
    obtain ⟨row', hrow', hforward⟩ := h.kept id row hrow
    refine ⟨row', hrow', ?_⟩
    rw [hforward.acknowledged (by rw [htime]; rfl), htime]

theorem KeepsAccounts.refl (db : CatalogDatabase) : KeepsAccounts db db :=
  ⟨fun _ row hrow _ => ⟨row, hrow, rfl, rfl, rfl⟩,
    fun _ row _ hrow htime => ⟨row, hrow, htime⟩⟩

theorem KeepsAccounts.trans {db'' : CatalogDatabase}
    (h : KeepsAccounts db db') (h' : KeepsAccounts db' db'') :
    KeepsAccounts db db'' := by
  refine ⟨?_, ?_⟩
  · intro id row hrow hended
    obtain ⟨row', hrow', houtcome, hcategory, hboundary⟩ :=
      h.decided id row hrow hended
    obtain ⟨row'', hrow'', houtcome', hcategory', hboundary'⟩ :=
      h'.decided id row' hrow' (by rw [houtcome]; exact hended)
    exact ⟨row'', hrow'', houtcome'.trans houtcome,
      hcategory'.trans hcategory, hboundary'.trans hboundary⟩
  · intro id row time hrow htime
    obtain ⟨row', hrow', htime'⟩ := h.acknowledged id row time hrow htime
    exact h'.acknowledged id row' time hrow' htime'

/-- The debts are those of the stored attempts that owe a lease. -/
theorem listsDebts (db : CatalogDatabase) : ListsDebts db := by
  intro id row lease hrow hlease hfree hover
  have howed : leaseOwed row = true :=
    leaseOwed_iff.mpr ⟨by rw [hlease]; rfl, hfree, hover⟩
  refine List.mem_map.mpr ⟨(id, row), List.mem_filter.mpr ⟨?_, howed⟩, ?_⟩
  · exact Table.mem_entries.mpr hrow
  · rw [hlease]

/-! ## The steps of an interaction -/

/-- No lease is acknowledged, and no attempt begins. -/
structure Quiet (db db' : CatalogDatabase) : Prop where
  move : AttemptsMove db db'
  unchanged : ∀ id row row', db.attempts.get? id = some row →
    db'.attempts.get? id = some row' →
      row'.executionLeaseReconciledAt = row.executionLeaseReconciledAt
  ended : ∀ id row', db.attempts.get? id = none →
    db'.attempts.get? id = some row' → row'.outcome ≠ .running

theorem Quiet.of_eq (h : db'.attempts = db.attempts) : Quiet db db' := by
  refine ⟨.of_eq h, ?_, ?_⟩
  · intro id row row' hrow hrow'
    rw [h, hrow] at hrow'
    obtain rfl := Option.some.inj hrow'
    rfl
  · intro id row' hnone hrow'
    rw [h, hnone] at hrow'
    cases hrow'

theorem Quiet.of_progress (h : AttemptsProgress db.attempts db'.attempts) :
    Quiet db db' := by
  refine ⟨.of_progress h, ?_, ?_⟩
  · obtain ⟨next, hnext, hprogress⟩ := h
    intro id row row' hrow hrow'
    rw [hnext, Table.get?_mapRows, hrow] at hrow'
    obtain rfl := Option.some.inj hrow'
    exact (hprogress id row hrow).reconciled
  · obtain ⟨next, hnext, -⟩ := h
    intro id row' hnone hrow'
    rw [hnext, Table.get?_mapRows, hnone] at hrow'
    cases hrow'

theorem Quiet.of_insertEnded (row : TurnAttemptRow)
    (hended : row.outcome ≠ .running)
    (h : AttemptsProgress (db.attempts.insert row) db'.attempts) :
    Quiet db db' := by
  refine ⟨.of_insertEnded row hended h, ?_, ?_⟩
  · obtain ⟨next, hnext, hprogress⟩ := h
    intro id old old' hold hold'
    have hstored : (db.attempts.insert row).get? id = some old :=
      Table.get?_insert_of_get? hold
    rw [hnext, Table.get?_mapRows, hstored] at hold'
    obtain rfl := Option.some.inj hold'
    exact (hprogress id old hstored).reconciled
  · obtain ⟨next, hnext, hprogress⟩ := h
    intro id row' hnone hrow' hrunning
    cases hstored : (db.attempts.insert row).get? id with
    | none =>
        rw [hnext, Table.get?_mapRows, hstored] at hrow'
        cases hrow'
    | some old =>
        rw [hnext, Table.get?_mapRows, hstored] at hrow'
        obtain rfl := Option.some.inj hrow'
        have hold := (hprogress id old hstored).forward.running hrunning
        rw [Table.get?_insert] at hstored
        split at hstored
        · obtain rfl := Option.some.inj hstored
          exact hended hold
        · rw [hnone] at hstored
          cases hstored

/-- The providers stay. -/
theorem tombstones_of_eq (h : db'.providers = db.providers)
    {provider : ProviderId} {row' : ProviderRow}
    (hrow' : db'.providers.get? provider = some row')
    (htombstoned : row'.lifecycleState = .tombstoned) :
    ∃ row, db.providers.get? provider = some row ∧
      row.lifecycleState = .tombstoned :=
  ⟨row', by rw [← h]; exact hrow', htombstoned⟩

theorem Quiet.stepAccounts {label : CatalogLabel} (h : Quiet db db')
    (htombstones : ∀ provider row', db'.providers.get? provider = some row' →
      row'.lifecycleState = .tombstoned →
        (∃ row, db.providers.get? provider = some row ∧
          row.lifecycleState = .tombstoned) ∨
        ∀ id row, db'.attempts.get? id = some row →
          row.providerId = provider → row.outcome = .running →
            row.nativeWaitEndedAt.isSome) :
    StepAccounts library db label db' := by
  refine ⟨?_, ?_, ?_, htombstones⟩
  · intro id row row' hrow hrow' hchanged
    exact absurd (h.unchanged id row row' hrow hrow') hchanged
  · intro id row' hnone hrow' _
    exact h.ended id row' hnone hrow'
  · intro id row' hnone hrow' hrunning
    exact absurd hrunning (h.ended id row' hnone hrow')

/-- The row of an attempt that begins. -/
theorem stepAccounts_begin
    {compatible : ValidateModelSelectionCommand → Bool}
    {receipt : BeginTurnAttempt} {now : String}
    (hrun : db.beginInteractionAttempt library compatible receipt now =
      .ok db') :
    AttemptsMove db db' ∧ StepAccounts library db
      (.turn (.beginAttempt compatible receipt now)) db' := by
  have hbegins := beginInteractionAttempt_ok hrun
  obtain ⟨number, policy, hinserted⟩ := hbegins.attempts
  have hnew : ∀ {id row'}, db.attempts.get? id = none →
      db'.attempts.get? id = some row' →
        row' = attemptRow receipt number now policy := by
    intro id row' hnone hrow'
    rw [hinserted, Table.get?_insert] at hrow'
    split at hrow'
    · exact (Option.some.inj hrow').symm
    · rw [hnone] at hrow'
      cases hrow'
  have hidle : ∀ id old, db.attempts.get? id = some old →
      old.turn = receipt.turn → old.outcome ≠ .running := by
    intro id old hold hturn hrunning
    have hsome : db.someRunning
        (fun _ attempt => attempt.turn = receipt.turn) = true :=
      List.any_eq_true.mpr ⟨(id, old), Table.mem_entries.mpr hold, by
        simp [hrunning, hturn]⟩
    rw [hbegins.idle] at hsome
    cases hsome
  refine ⟨.of_insert hinserted hidle, ?_, ?_, ?_, ?_⟩
  · intro id row row' hrow hrow' hchanged
    rw [hinserted, Table.get?_insert_of_get? hrow] at hrow'
    obtain rfl := Option.some.inj hrow'
    exact absurd rfl hchanged
  · intro id row' hnone hrow' hsome
    rw [hnew hnone hrow'] at hsome
    cases hsome
  · intro id row' hnone hrow' _
    rw [hnew hnone hrow']
    obtain ⟨-, -, hactive⟩ := resolveExecutionModelPlan_ok hbegins.resolved
    refine ⟨hactive, receipt.admittedPlan, receipt.route, rfl, ?_⟩
    rw [hbegins.planned]
    exact hbegins.resolved
  · intro provider row' hrow' htombstoned
    exact .inl (tombstones_of_eq hbegins.catalog.providers hrow' htombstoned)

theorem stepAccounts_acknowledge (attempt : AttemptId) (lease now : String) :
    AttemptsMove db (db.acknowledgeLeaseReconciled attempt lease now).2 ∧
      StepAccounts library db (.turn (.acknowledgeLease attempt lease now))
        (db.acknowledgeLeaseReconciled attempt lease now).2 := by
  rw [acknowledgeLeaseReconciled_ok]
  have hforward : ∀ id (row : TurnAttemptRow), Forward row
      (if id = attempt then acknowledged lease now row else row) := by
    intro id row
    split
    · exact forward_acknowledged lease now row
    · exact .refl row
  refine ⟨.of_mapRows rfl fun id row _ => hforward id row, ?_, ?_, ?_, ?_⟩
  · intro id row row' hrow hrow' hchanged
    simp only [Table.get?_mapRows, hrow, Option.map_some,
      Option.some.injEq] at hrow'
    by_cases hid : id = attempt
    · rw [if_pos hid] at hrow'
      by_cases howes : leaseOwed row = true ∧ row.executionLeaseId = some lease
      · obtain ⟨-, hfree, hover⟩ := leaseOwed_iff.mp howes.1
        exact ⟨hfree, hover, lease, now, by rw [hid], howes.2⟩
      · rw [acknowledged, if_neg howes] at hrow'
        rw [← hrow'] at hchanged
        exact absurd rfl hchanged
    · rw [if_neg hid] at hrow'
      rw [← hrow'] at hchanged
      exact absurd rfl hchanged
  · intro id row' hnone hrow'
    simp only [Table.get?_mapRows, hnone, Option.map_none] at hrow'
    cases hrow'
  · intro id row' hnone hrow'
    simp only [Table.get?_mapRows, hnone, Option.map_none] at hrow'
    cases hrow'
  · intro provider row' hrow' htombstoned
    exact .inl ⟨row', hrow', htombstoned⟩

/-- A turn's operation other than a begin or an acknowledgement. -/
theorem stepAccounts_quiet {operation : TurnOperation}
    (hrun : db.runTurn library operation = .ok db')
    (hquiet : Quiet db db') :
    AttemptsMove db db' ∧ StepAccounts library db (.turn operation) db' := by
  refine ⟨hquiet.move, hquiet.stepAccounts ?_⟩
  intro provider row' hrow' htombstoned
  exact .inl (tombstones_of_eq (sameCatalog_runTurn hrun).providers hrow'
    htombstoned)

theorem stepAccounts_runTurn {operation : TurnOperation}
    (hrun : db.runTurn library operation = .ok db') :
    AttemptsMove db db' ∧ StepAccounts library db (.turn operation) db' := by
  cases operation with
  | beginAttempt => exact stepAccounts_begin hrun
  | acknowledgeLease attempt lease now =>
      obtain rfl := pure_eq_ok_iff.mp hrun
      exact stepAccounts_acknowledge attempt lease now
  | insertInteraction =>
      exact stepAccounts_quiet hrun (.of_eq (insertInteraction_ok hrun).attempts)
  | insertThread =>
      exact stepAccounts_quiet hrun (.of_eq (insertThread_ok hrun).attempts)
  | insertInvocation =>
      exact stepAccounts_quiet hrun
        (.of_eq (insertActionInvocation_ok hrun).attempts)
  | insertImported thread sequence =>
      have hinserted := pure_eq_ok_iff.mp hrun
      refine stepAccounts_quiet hrun (.of_eq ?_)
      rw [← hinserted]
      exact (insertImportedTurn_ok thread sequence).attempts
  | claimRetry =>
      exact stepAccounts_quiet hrun (.of_eq (claimInteractionRetry_ok hrun).2.1)
  | recordPreExecutionFailure =>
      obtain ⟨row, hended, -, -, heffect⟩ := recordPreExecutionModelFailure_ok hrun
      refine stepAccounts_quiet hrun
        (.of_insertEnded row ?_ heffect.attempts)
      rw [hended]
      exact fun hrunning => by cases hrunning
  | recordAdmissionFailure =>
      obtain ⟨row, hended, heffect⟩ := recordModelAttemptAdmissionFailure_ok hrun
      refine stepAccounts_quiet hrun
        (.of_insertEnded row ?_ heffect.attempts)
      rw [hended]
      exact fun hrunning => by cases hrunning
  | acceptCompletion =>
      exact stepAccounts_quiet hrun
        (.of_progress (effect_acceptCompletion hrun).attempts)
  | failCompletion =>
      exact stepAccounts_quiet hrun
        (.of_progress (effect_failCompletion hrun).attempts)
  | endNativeWait attempt now =>
      obtain rfl := pure_eq_ok_iff.mp hrun
      exact stepAccounts_quiet rfl
        (.of_progress (effect_endNativeWait attempt now).attempts)
  | endExecution =>
      exact stepAccounts_quiet hrun
        (.of_progress (effect_endExecution hrun).attempts)
  | recoverInterrupted error preserveIdentified now =>
      obtain rfl := pure_eq_ok_iff.mp hrun
      exact stepAccounts_quiet rfl (.of_progress
        (effect_recoverInterrupted error preserveIdentified now).attempts)
  | failInterruptedInput turn harness error now =>
      obtain rfl := pure_eq_ok_iff.mp hrun
      exact stepAccounts_quiet rfl (.of_progress
        (effect_failInterruptedInput turn harness error now).attempts)
  | quarantineInput turn harness error =>
      obtain rfl := pure_eq_ok_iff.mp hrun
      exact stepAccounts_quiet rfl
        (.of_progress (effect_quarantineInput turn harness error).attempts)
  | finalizeInput turn error now =>
      obtain rfl := pure_eq_ok_iff.mp hrun
      exact stepAccounts_quiet rfl
        (.of_progress (effect_finalizeInput turn error now).attempts)
  | reconcileAccepted turn output now =>
      obtain rfl := pure_eq_ok_iff.mp hrun
      exact stepAccounts_quiet rfl
        (.of_progress (effect_reconcileAccepted turn output now).attempts)
  | finishStopped statuses turn now =>
      obtain rfl := pure_eq_ok_iff.mp hrun
      exact stepAccounts_quiet rfl
        (.of_progress (effect_finishStopped statuses turn now).attempts)

/-! ## The steps of the catalog -/

/-- No provider becomes tombstoned while an attempt on it is waited on. -/
structure Drains (db db' : CatalogDatabase) : Prop where
  attempts : db'.attempts = db.attempts
  tombstones : ∀ provider row', db'.providers.get? provider = some row' →
    row'.lifecycleState = .tombstoned →
      (∃ row, db.providers.get? provider = some row ∧
        row.lifecycleState = .tombstoned) ∨
      db.executionRunning provider = false

theorem Drains.refl (db : CatalogDatabase) : Drains db db :=
  ⟨rfl, fun _ row' hrow' htombstoned => .inl ⟨row', hrow', htombstoned⟩⟩

theorem Drains.trans {db'' : CatalogDatabase} (h : Drains db db')
    (h' : Drains db' db'') : Drains db db'' := by
  refine ⟨h'.attempts.trans h.attempts, ?_⟩
  intro provider row'' hrow'' htombstoned
  rcases h'.tombstones provider row'' hrow'' htombstoned with
    ⟨row', hrow', htombstoned'⟩ | hidle
  · exact h.tombstones provider row' hrow' htombstoned'
  · right
    unfold executionRunning at hidle ⊢
    rwa [h.attempts] at hidle

theorem Drains.of_providers (hattempts : db'.attempts = db.attempts)
    (hproviders : db'.providers = db.providers) : Drains db db' :=
  ⟨hattempts, fun _ _ hrow' htombstoned =>
    .inl (tombstones_of_eq hproviders hrow' htombstoned)⟩

/-- A provider's row is written. -/
theorem Drains.of_put (id : ProviderId) (row : ProviderRow)
    (hattempts : db'.attempts = db.attempts)
    (hproviders : db'.providers = db.providers.put id row)
    (hrow : row.lifecycleState = .tombstoned →
      (∃ old, db.providers.get? id = some old ∧
        old.lifecycleState = .tombstoned) ∨
      db.executionRunning id = false) : Drains db db' := by
  refine ⟨hattempts, ?_⟩
  intro provider row' hrow' htombstoned
  rw [hproviders, Keyed.get?_put] at hrow'
  split at hrow'
  case isTrue hid =>
      obtain rfl := Option.some.inj hrow'
      rw [hid]
      exact hrow htombstoned
  case isFalse => exact .inl ⟨row', hrow', htombstoned⟩

theorem replaceSystemFamily_providers {snapshot : ProviderCatalogSnapshot}
    {systemFamily : SystemFamilySnapshot} {policy : FamilyPolicyReference}
    {reconcile : Bool} {now : String} {id : ModelFamilyId}
    (hrun : db.replaceSystemFamily library snapshot systemFamily policy
      reconcile now = .ok (id, db')) : db'.providers = db.providers := by
  obtain ⟨stored, upserted, numbered, hupsert, -, hnumbered, rfl⟩ :=
    replaceSystemFamily_ok hrun
  have hupserted : upserted.providers = db.providers := by
    rcases upsertManagedFamily_ok hupsert with
      ⟨name, key, changed, -, -, rfl⟩ | ⟨name, key, -, -, -, rfl⟩
    · rfl
    · rfl
  exact hnumbered.providers.trans hupserted

theorem drains_replaceSystemFamily {snapshot : ProviderCatalogSnapshot}
    {systemFamily : SystemFamilySnapshot} {policy : FamilyPolicyReference}
    {reconcile : Bool} {now : String} {id : ModelFamilyId}
    (hrun : db.replaceSystemFamily library snapshot systemFamily policy
      reconcile now = .ok (id, db')) : Drains db db' :=
  .of_providers (keepsFit_replaceSystemFamily hrun).1.attempts
    (replaceSystemFamily_providers hrun)

theorem drains_tombstone {provider : ProviderId} {now : String}
    {cause : ManagedFamilyTombstone}
    (hrun : db.tombstoneManagedProviderFamilies provider now cause =
      .ok db') : Drains db db' := by
  obtain ⟨middle, rfl, hnumbered⟩ := tombstoneManagedProviderFamilies_ok hrun
  exact .of_providers hnumbered.sameRuntime.attempts hnumbered.providers

theorem drains_createProvider {definition : ProviderDefinition}
    {snapshot : ProviderCatalogSnapshot}
    {policy : Option FamilyPolicyReference} {now : String}
    (hrun : db.createProviderWithCatalog library definition snapshot policy
      now = .ok db') : Drains db db' := by
  obtain ⟨-, row, models, middle, hactive, hmiddle, hfamily⟩ :=
    createProviderWithCatalog_ok hrun
  have hput : Drains db middle := by
    rw [hmiddle]
    refine .of_put definition.id row rfl rfl ?_
    rw [hactive]
    exact fun htombstoned => by cases htombstoned
  rcases hfamily with rfl | ⟨systemFamily, stated, id, hreplace⟩
  · exact hput
  · exact hput.trans (drains_replaceSystemFamily hreplace)

theorem drains_publish {snapshot : ProviderCatalogSnapshot}
    {stamp : ProviderConnectionStamp}
    {policy : Option FamilyPolicyReference} {now : String}
    (hrun : db.publishProviderCatalog library snapshot stamp policy now =
      .ok db') : Drains db db' := by
  obtain ⟨row, hrow, hactive, hfamilies⟩ := publishProviderCatalog_ok hrun
  have hpublished : Drains db (db.published snapshot stamp now row) := by
    refine .of_put snapshot.providerId
      (publishedProvider snapshot stamp now row) rfl rfl ?_
    intro htombstoned
    have hstate : row.lifecycleState = .tombstoned := htombstoned
    rw [hactive] at hstate
    cases hstate
  rcases hfamilies with ⟨systemFamily, stated, id, -, -, hreplace⟩ |
    ⟨-, htombstone | rfl⟩
  · exact hpublished.trans (drains_replaceSystemFamily hreplace)
  · exact hpublished.trans (drains_tombstone htombstone)
  · exact hpublished

/-- The removal of a provider ends only once its attempts have drained. -/
theorem drains_syncExisting {definition : ProviderDefinition}
    {old : ProviderRow} {now : String}
    (hold : db.providers.get? definition.id = some old)
    (hrun : db.syncExisting library definition old now = .ok db') :
    Drains db db' := by
  obtain ⟨htransition, hdrained, middle, row, hrow, rfl, hmiddle⟩ :=
    syncExisting_ok hrun
  have hfamilies : Drains db middle ∧
      middle.providers = db.providers := by
    rcases hmiddle with ⟨-, -, -, htombstone⟩ | ⟨-, rfl⟩
    · obtain ⟨_, rfl, hnumbered⟩ :=
        tombstoneManagedProviderFamilies_ok htombstone
      exact ⟨drains_tombstone htombstone, hnumbered.providers⟩
    · exact ⟨.refl _, rfl⟩
  obtain ⟨hdrains, hproviders⟩ := hfamilies
  refine .of_put definition.id row hdrains.attempts ?_ ?_
  · rw [← hproviders]
  · intro htombstoned
    rw [hrow] at htombstoned
    simp only [lifecycleTransition, htombstoned, Bool.or_eq_true,
      Bool.and_eq_true, decide_eq_true_eq] at htransition
    rcases htransition with (hsame | ⟨-, hfalse⟩) | ⟨hpending, -⟩
    · exact .inl ⟨old, hold, hsame⟩
    · cases hfalse
    · exact .inr (hdrained hpending htombstoned)

theorem drains_sync {definitions : List ProviderDefinition} {now : String}
    (hrun : db.syncProviderDefinitions library definitions now = .ok db') :
    Drains db db' := by
  refine foldlM_induction (P := fun state _ => Drains db state) ?_
    (.refl db) hrun
  intro state done definition next _ hdrains hnext
  refine hdrains.trans ?_
  simp only [syncDefinition, bind_eq_ok_iff] at hnext
  obtain ⟨_, -, hnext⟩ := hnext
  cases hget : state.providers.get? definition.id with
  | some old =>
      rw [hget] at hnext
      exact drains_syncExisting hget hnext
  | none =>
      rw [hget] at hnext
      obtain ⟨row, hactive, rfl⟩ := syncNew_ok hnext
      refine .of_put definition.id row rfl rfl ?_
      rw [hactive]
      exact fun htombstoned => by cases htombstoned

theorem drains_start (h : StartFrame db db') : Drains db db' := by
  refine ⟨h.attempts, ?_⟩
  intro provider row' hrow' htombstoned
  rcases h.newProviders provider row' hrow' with hold | ⟨-, hactive⟩
  · exact .inl ⟨row', hold, htombstoned⟩
  · rw [hactive] at htombstoned
    cases htombstoned

theorem drains_completeOnboarding
    {revision : OnboardingProjection → String}
    {command : CompleteProviderOnboardingCommand} {permitted : List HarnessId}
    {now : String}
    (hrun : db.completeProviderOnboarding library revision command permitted
      now = .ok db') : Drains db db' := by
  obtain ⟨snapshot, harness, family, middle, -, -, hfamily, -, -, rfl⟩ :=
    completeProviderOnboarding_ok hrun
  have hmiddle : Drains db middle := by
    rcases onboardingFamily_ok hfamily with rfl |
      ⟨stated, systemFamily, policy, -, hreplace⟩ | ⟨name, members, -, -, rfl⟩
    · exact .refl _
    · exact drains_replaceSystemFamily hreplace
    · exact .of_providers rfl rfl
  exact hmiddle.trans (.of_providers rfl rfl)

theorem drains_runCatalog {operation : CatalogOperation}
    (hrun : db.runCatalog library operation = .ok db') : Drains db db' := by
  cases operation with
  | initializeCatalog =>
      simp only [runCatalog, bind_eq_ok_iff] at hrun
      obtain ⟨_, -, hstart⟩ := hrun
      exact drains_start (initializeModelCatalog_frame hstart)
  | updateRules command =>
      simp only [runCatalog, updateHarnessModelRules, bind_eq_ok_iff,
        pure_eq_ok_iff] at hrun
      obtain ⟨_, -, row, -, _, -, middle, hrules, rfl⟩ := hrun
      obtain ⟨rows, rfl⟩ := replaceRules_ok hrules
      exact .of_providers rfl rfl
  | publishReadiness accepted updates =>
      simp only [runCatalog, bind_eq_ok_iff, pure_eq_ok_iff] at hrun
      obtain ⟨⟨final, generations⟩, hbatch, rfl⟩ := hrun
      obtain ⟨harnesses, rfl⟩ := updateHarnessRuntimeAvailability_ok hbatch
      exact .of_providers rfl rfl
  | createProvider =>
      simp only [runCatalog, bind_eq_ok_iff] at hrun
      obtain ⟨_, -, hcreate⟩ := hrun
      exact drains_createProvider hcreate
  | publishCatalog => exact drains_publish hrun
  | syncProviders => exact drains_sync hrun
  | createFamily command =>
      simp only [runCatalog, bind_eq_ok_iff] at hrun
      obtain ⟨_, -, hcreate⟩ := hrun
      obtain ⟨-, middle, rfl, hnumbered⟩ := createModelFamily_ok hcreate
      exact .of_providers hnumbered.sameRuntime.attempts hnumbered.providers
  | updateFamily command =>
      simp only [runCatalog, bind_eq_ok_iff] at hrun
      obtain ⟨_, -, hupdate⟩ := hrun
      obtain ⟨-, -, rfl⟩ := updateModelFamily_ok hupdate
      exact .of_providers rfl rfl
  | deleteFamily id now =>
      simp only [runCatalog, bind_eq_ok_iff, pure_eq_ok_iff] at hrun
      obtain ⟨⟨deleted, final⟩, hdelete, rfl⟩ := hrun
      obtain ⟨middle, rfl, hnumbered⟩ := deleteModelFamily_ok hdelete
      exact .of_providers hnumbered.sameRuntime.attempts hnumbered.providers
  | reorderFamilies familyIds =>
      have hnumbered := reorderModelFamilies_ok hrun
      exact .of_providers hnumbered.sameRuntime.attempts hnumbered.providers
  | updateDefaults =>
      obtain ⟨hrest, -⟩ := updateModelSettingsDefaults_ok hrun
      rw [hrest]
      exact .of_providers rfl rfl
  | completeOnboarding => exact drains_completeOnboarding hrun

theorem stepAccounts_of_step {label : CatalogLabel}
    (hstep : CatalogStep library db label db') :
    AttemptsMove db db' ∧ StepAccounts library db label db' := by
  cases hstep with
  | turn hrun => exact stepAccounts_runTurn hrun
  | beside hbeside =>
      have hquiet : Quiet db db' := .of_eq hbeside.attempts
      refine ⟨hquiet.move, hquiet.stepAccounts ?_⟩
      intro provider row' hrow' htombstoned
      exact .inl (tombstones_of_eq hbeside.catalog.providers hrow' htombstoned)
  | catalog hrun =>
      have hdrains := drains_runCatalog hrun
      have hquiet : Quiet db db' := .of_eq hdrains.attempts
      refine ⟨hquiet.move, hquiet.stepAccounts ?_⟩
      intro provider row' hrow' htombstoned
      rcases hdrains.tombstones provider row' hrow' htombstoned with
        hold | hidle
      · exact .inl hold
      · right
        intro id row hrow howned hrunning
        rw [hdrains.attempts] at hrow
        by_contra hwaited
        have hwaiting : row.nativeWaitEndedAt = none := by
          simpa using hwaited
        have hbusy : db.executionRunning provider = true :=
          List.any_eq_true.mpr ⟨(id, row), Table.mem_entries.mpr hrow, by
            simp [howned, hrunning, hwaiting]⟩
        rw [hidle] at hbusy
        cases hbusy

end CatalogDatabase

open CatalogDatabase

/-! ## Every run -/

variable {library : CatalogLibrary} {db : CatalogDatabase}
  {steps : List (CatalogDatabase × CatalogLabel)}

theorem oneRunning_of_reachable
    (hdb : (catalogSystem library WithoutAttempts).Reachable db) :
    OneRunning db := by
  refine hdb.invariant ?_ ?_
  · intro store hempty id row id' row' hrow
    rw [hempty] at hrow
    cases hrow
  · intro store label next _ hone hstep
    exact (stepAccounts_of_step hstep).1.oneRunning hone

/-- From every store a run visits on, decisions and acknowledgements stay. -/
theorem keepsAccounts_of_trace
    (htrace : (catalogSystem library WithoutAttempts).Trace steps db) :
    ∀ visited ∈ steps, KeepsAccounts visited.1 db := by
  induction htrace with
  | init => exact fun visited hvisited => by cases hvisited
  | @step steps store next label hprefix hstep ih =>
      have hnext : KeepsAccounts store next :=
        (stepAccounts_of_step hstep).1.keepsAccounts
      intro visited hvisited
      rcases List.mem_append.mp hvisited with hold | hnew
      · exact (ih visited hold).trans hnext
      · rw [List.mem_singleton.mp hnew]
        exact hnext

theorem withoutAttempts_fresh : WithoutAttempts fresh :=
  fun id => Table.get?_empty id

end RelayerGraph
