import RelayerGraph.Product.ExecutionSystem

/-!
# What a call does to its execution and its interaction

One lemma for each operation says what a call that returned found and what it
left.  They are summed up in `Moves`: for every interaction, whatever the
call, its row and its execution move in one of a few ways.
-/

namespace RelayerGraph

open Foundation Checked

variable {Value : Type} {json : JsonLibrary Value}

/-! ## Agreement of the two rows -/

/-- The interaction's row agrees with its execution: while the execution is
open the interaction is not accepted, and a settled execution has settled the
way its interaction ended. -/
structure Agrees (row : InteractionRow) (execution : ExecutionRow) : Prop where
  unsettled : execution.phase ≠ .settled →
    execution.settlementJson = none ∧ execution.safeReason = none ∧
      row.completionStatus ≠ .accepted
  settled : execution.phase = .settled →
    (execution.settlementJson.isSome ∧ execution.safeReason = none ∧
        row.completionStatus = .accepted ∧
        row.completionOutputJson = execution.settlementJson) ∨
      (execution.settlementJson = none ∧ execution.safeReason.isSome ∧
        (row.completionStatus = .failed ∨ row.completionStatus = .stopped) ∧
        row.completionOutputJson = none)

namespace Agrees

variable {row : InteractionRow} {execution : ExecutionRow}

theorem of_unsettled (hphase : execution.phase ≠ .settled)
    (hsettlement : execution.settlementJson = none)
    (hreason : execution.safeReason = none)
    (hstatus : row.completionStatus ≠ .accepted) : Agrees row execution where
  unsettled _ := ⟨hsettlement, hreason, hstatus⟩
  settled hsettled := absurd hsettled hphase

/-- The interaction of a settled execution has ended. -/
theorem ended_of_settled (h : Agrees row execution)
    (hsettled : execution.phase = .settled) :
    row.completionStatus = .accepted ∨ row.completionStatus = .failed ∨
      row.completionStatus = .stopped := by
  rcases h.settled hsettled with ⟨-, -, haccepted, -⟩ | ⟨-, -, hended, -⟩
  · exact .inl haccepted
  · exact .inr hended

end Agrees

/-- A step of one interaction's row and execution under an operation. -/
inductive Moves : ExecutionOperation Value →
    Option InteractionRow → Option ExecutionRow →
    Option InteractionRow → Option ExecutionRow → Prop
  | kept (operation row execution) :
      Moves operation row execution row execution
  | reserved {binding timestamp row} :
      row.completionStatus ∈ [CompletionStatus.submitted, .running] →
      Moves (.reserve binding timestamp) (some row) none (some row)
        (some (ProductStore.reservedRow binding timestamp))
  | launched {interaction origin timestamp row execution} :
      execution.phase = .reserved →
      Moves (.claimLaunching interaction origin timestamp)
        row (some execution) row
        (some { execution with phase := .launching, updatedAt := timestamp })
  | attached {interaction origin attachment timestamp row}
      {execution execution' : ExecutionRow} :
      execution.attachmentJson = none → execution.phase ≠ .reserved →
      execution'.attachmentJson.isSome →
      execution'.settlementJson = execution.settlementJson →
      execution'.safeReason = execution.safeReason →
      execution'.phase =
        (if execution.phase = .launching then .attached
          else execution.phase) →
      Moves (.attach interaction origin attachment timestamp)
        row (some execution) row (some execution')
  | settled {operation} {row row' : InteractionRow}
      {execution execution' : ExecutionRow} :
      execution.phase = .launching ∨ execution.phase = .attached →
      execution'.phase = .settled →
      execution'.attachmentJson = execution.attachmentJson →
      Agrees row' execution' →
      Moves operation (some row) (some execution) (some row')
        (some execution')
  | refused {interaction graphCompletionId harness safeReason interrupted
      graphPending timestamp} {row row' : InteractionRow}
      {execution execution' : ExecutionRow} :
      execution.phase = .reserved → execution'.phase = .settled →
      execution'.attachmentJson = execution.attachmentJson →
      Agrees row' execution' →
      Moves
        (.failUnlaunched interaction graphCompletionId harness safeReason
          interrupted graphPending timestamp)
        (some row) (some execution) (some row') (some execution')
  | moved {operation} {row row' : InteractionRow} {execution} :
      row.completionStatus ∈ ProductStore.unfinished →
      row'.completionStatus ≠ .accepted →
      Moves operation (some row) execution (some row') execution

namespace ProductStore

variable {store store' : ProductStore}

/-- Every execution agrees with its interaction. -/
def Agreement (store : ProductStore) : Prop :=
  ∀ interaction execution,
    store.executions.lookup interaction = some execution →
    ∃ row, store.interactions interaction = some row ∧ Agrees row execution

/-! ## What each operation found and left -/

theorem fetchExecution_ok {interaction : InteractionId}
    {existing : Option (CompletionExecution Value)}
    (h : store.fetchExecution json interaction = .ok existing) :
    existing.map CompletionExecution.row =
      store.executions.lookup interaction := by
  unfold fetchExecution at h
  split at h
  · rename_i hnone
    obtain rfl : none = existing := by simpa using h
    simp [hnone]
  · rename_i row hrow
    simp only [executionFromRow, map_eq_ok_iff, bind_eq_ok_iff,
      pure_eq_ok_iff] at h
    obtain ⟨execution, ⟨attachment, _, settlement, _, rfl⟩, rfl⟩ := h
    simp [hrow]

theorem requireExecution_ok {interaction : InteractionId}
    {existing : CompletionExecution Value}
    (h : store.requireExecution json interaction = .ok existing) :
    store.executions.lookup interaction = some existing.row := by
  simp only [requireExecution, bind_eq_ok_iff, orThrow_eq_ok_iff] at h
  obtain ⟨fetched, hfetched, rfl⟩ := h
  exact (fetchExecution_ok hfetched).symm

theorem attachment_of_requireExecution {interaction : InteractionId}
    {existing : CompletionExecution Value}
    (h : store.requireExecution json interaction = .ok existing) :
    existing.attachment = none ↔ existing.row.attachmentJson = none := by
  simp only [requireExecution, bind_eq_ok_iff, orThrow_eq_ok_iff] at h
  obtain ⟨fetched, hfetched, rfl⟩ := h
  unfold fetchExecution at hfetched
  split at hfetched
  · simp at hfetched
  · rename_i row hrow
    simp only [executionFromRow, map_eq_ok_iff, bind_eq_ok_iff,
      pure_eq_ok_iff, Option.some.injEq] at hfetched
    obtain ⟨_, ⟨attachment, hattachment, settlement, _, rfl⟩, rfl⟩ := hfetched
    cases hjson : row.attachmentJson with
    | none =>
        rw [hjson] at hattachment
        have hnone : none = attachment := by
          simpa [decodeJson] using hattachment
        simp [← hnone]
    | some text =>
        rw [hjson] at hattachment
        simp only [decodeJson, map_eq_ok_iff] at hattachment
        obtain ⟨value, _, rfl⟩ := hattachment
        simp

/-- A reservation finds the execution it asks for, or inserts it for an
interaction which is submitted or running. -/
theorem reserveCompletionExecution_ok {binding : CompletionExecutionBinding}
    {timestamp : String} {outcome : CompletionExecutionReserveOutcome Value}
    (h : store.reserveCompletionExecution json binding timestamp =
      .ok (outcome, store')) :
    (∃ existing, outcome = .existing existing ∧ store' = store) ∨
      ∃ row execution, outcome = .created execution ∧
        store.interactions binding.interactionId = some row ∧
        row.completionStatus ∈ [CompletionStatus.submitted, .running] ∧
        store.executions.lookup binding.interactionId = none ∧
        store' =
          { store with
            executions := store.executions.insert binding.interactionId
              (reservedRow binding timestamp) } := by
  simp only [reserveCompletionExecution, bind_eq_ok_iff] at h
  obtain ⟨⟨⟩, -, existing, hfetch, h⟩ := h
  have hlookup := fetchExecution_ok hfetch
  cases existing with
  | some existing =>
      simp only [bind_eq_ok_iff, pure_eq_ok_iff, Prod.mk.injEq] at h
      obtain ⟨⟨⟩, -, houtcome, hstore⟩ := h
      exact .inl ⟨existing, houtcome.symm, hstore.symm⟩
  | none =>
      simp only [bind_eq_ok_iff, pure_eq_ok_iff, Prod.mk.injEq,
        orThrow_eq_ok_iff] at h
      obtain ⟨bound, hbound, ⟨⟩, -, ⟨⟩, -, ⟨⟩, -, houtcome, hstore⟩ := h
      unfold durableBinding at hbound
      split at hbound
      · simp at hbound
      · rename_i row hrow
        split at hbound
        · rename_i hstatus
          exact .inr ⟨row, _, houtcome.symm, hrow, hstatus.1,
            by simpa using hlookup.symm, hstore.symm⟩
        · simp at hbound

theorem claimCompletionExecutionLaunching_ok {interaction : InteractionId}
    {origin timestamp : String} {changed : Bool}
    (h : store.claimCompletionExecutionLaunching json interaction origin
      timestamp = .ok (changed, store')) :
    (changed = false ∧ store' = store) ∨
      ∃ row, changed = true ∧
        store.executions.lookup interaction = some row ∧
        row.phase = .reserved ∧
        store' =
          { store with
            executions := store.executions.insert interaction
              { row with phase := .launching, updatedAt := timestamp } } := by
  simp only [claimCompletionExecutionLaunching, bind_eq_ok_iff] at h
  obtain ⟨updated, hupdated, h⟩ := h
  cases updated with
  | none =>
      simp only [bind_eq_ok_iff, pure_eq_ok_iff, Prod.mk.injEq] at h
      obtain ⟨_, -, ⟨⟩, -, hchanged, hstore⟩ := h
      exact .inl ⟨hchanged.symm, hstore.symm⟩
  | some store'' =>
      simp only [pure_eq_ok_iff, Prod.mk.injEq] at h
      obtain ⟨hchanged, rfl⟩ := h
      obtain ⟨row, hrow, hcondition, hstore⟩ := updateExecution_some hupdated
      simp only [decide_eq_true_eq] at hcondition
      exact .inr ⟨row, hchanged.symm, hrow, hcondition.2, hstore⟩

theorem attachCompletionExecution_ok {interaction : InteractionId}
    {origin timestamp : String} {attachment : Value} {changed : Bool}
    (h : store.attachCompletionExecution json interaction origin attachment
      timestamp = .ok (changed, store')) :
    (changed = false ∧ store' = store) ∨
      ∃ row, changed = true ∧
        store.executions.lookup interaction = some row ∧
        row.phase ≠ .reserved ∧ row.attachmentJson = none ∧
        store' =
          { store with
            executions := store.executions.insert interaction
              { row with
                attachmentJson := some (json.encode attachment)
                phase :=
                  if row.phase = .launching then .attached else row.phase
                updatedAt := timestamp } } := by
  simp only [attachCompletionExecution, bind_eq_ok_iff] at h
  obtain ⟨existing, hexisting, ⟨⟩, -, h⟩ := h
  have hlookup := requireExecution_ok hexisting
  split at h
  · simp only [bind_eq_ok_iff, pure_eq_ok_iff, Prod.mk.injEq] at h
    obtain ⟨⟨⟩, -, hchanged, hstore⟩ := h
    exact .inl ⟨hchanged.symm, hstore.symm⟩
  · simp only [bind_eq_ok_iff, pure_eq_ok_iff, Prod.mk.injEq,
      require_eq_ok_iff, orThrow_eq_ok_iff] at h
    obtain ⟨⟨⟩, hphase, _, hupdated, _, rfl, hchanged, rfl⟩ := h
    obtain ⟨row, hrow, hcondition, hstore⟩ := updateExecution_some hupdated
    obtain rfl : existing.row = row :=
      Option.some.inj (hlookup.symm.trans hrow)
    simp only [Option.isNone_iff_eq_none, decide_eq_true_eq] at hcondition
    exact .inr ⟨_, hchanged.symm, hrow, hphase, hcondition.1, hstore⟩

/-- Both finalisations settle a launched execution, or leave a settled one
whose history is the same. -/
theorem settleOnce_ok {interaction : InteractionId} {origin : String}
    {existing : ExecutionRow} {settlementJson safeReason : Option String}
    {sameHistory : Bool} {lost different timestamp : String} {changed : Bool}
    (hexisting : store.executions.lookup interaction = some existing)
    (h : store.settleOnce interaction origin existing settlementJson safeReason
      sameHistory lost different timestamp = .ok (changed, store')) :
    (changed = false ∧ store' = store ∧ existing.phase = .settled ∧
        sameHistory = true) ∨
      (changed = true ∧
        (existing.phase = .launching ∨ existing.phase = .attached) ∧
        store' =
          { store with
            executions := store.executions.insert interaction
              (settledRow existing settlementJson safeReason timestamp) }) := by
  have hsettle : ∀ updated : Option ProductStore,
      store.settleExecution interaction origin existing.phase settlementJson
        safeReason timestamp = .ok updated → updated = some store' →
      store' =
        { store with
          executions := store.executions.insert interaction
            (settledRow existing settlementJson safeReason timestamp) } := by
    rintro updated hupdated rfl
    obtain ⟨row, hrow, -, hstore⟩ := updateExecution_some hupdated
    obtain rfl : existing = row := Option.some.inj (hexisting.symm.trans hrow)
    exact hstore
  unfold settleOnce at h
  split at h
  · rename_i hphase
    simp only [bind_eq_ok_iff, orThrow_eq_ok_iff, pure_eq_ok_iff,
      Prod.mk.injEq] at h
    obtain ⟨updated, hupdated, _, hsome, hchanged, rfl⟩ := h
    exact .inr ⟨hchanged.symm, .inl hphase, hsettle updated hupdated hsome⟩
  · rename_i hphase
    simp only [bind_eq_ok_iff, orThrow_eq_ok_iff, pure_eq_ok_iff,
      Prod.mk.injEq] at h
    obtain ⟨updated, hupdated, _, hsome, hchanged, rfl⟩ := h
    exact .inr ⟨hchanged.symm, .inr hphase, hsettle updated hupdated hsome⟩
  · rename_i hphase
    simp only [bind_eq_ok_iff, require_eq_ok_iff, pure_eq_ok_iff,
      Prod.mk.injEq] at h
    obtain ⟨⟨⟩, hsame, hchanged, hstore⟩ := h
    exact .inl ⟨hchanged.symm, hstore.symm, hphase, hsame⟩
  · simp at h

@[simp]
theorem commitThreadIcon_interactions (interaction : InteractionId)
    (output : Value) :
    (store.commitThreadIcon json interaction output).interactions =
      store.interactions := by
  unfold commitThreadIcon
  repeat' split
  all_goals rfl

@[simp]
theorem commitThreadIcon_executions (interaction : InteractionId)
    (output : Value) :
    (store.commitThreadIcon json interaction output).executions =
      store.executions := by
  unfold commitThreadIcon
  repeat' split
  all_goals rfl

@[simp]
theorem commitThreadIcon_attempts (interaction : InteractionId)
    (output : Value) :
    (store.commitThreadIcon json interaction output).attempts =
      store.attempts := by
  unfold commitThreadIcon
  repeat' split
  all_goals rfl

/-- An acceptance settles a launched execution, or finds it settled with that
output; it accepts a running interaction, or finds it accepted. -/
theorem finalizeCompletionExecutionAccepted_ok
    {completion : AcceptedInteractionCompletion Value}
    {origin timestamp : String} {changed : Bool}
    (h : store.finalizeCompletionExecutionAccepted json completion origin
      timestamp = .ok (changed, store')) :
    ∃ existing executionChanged settledStore,
      store.executions.lookup completion.interactionId = some existing ∧
      ((executionChanged = false ∧ settledStore = store ∧
          existing.phase = .settled) ∨
        (executionChanged = true ∧
          (existing.phase = .launching ∨ existing.phase = .attached) ∧
          settledStore =
            { store with
              executions := store.executions.insert completion.interactionId
                (settledRow existing (some (json.encode completion.output))
                  none timestamp) })) ∧
      ((∃ row, changed = true ∧
          store.interactions completion.interactionId = some row ∧
          row.completionStatus ∈
            [CompletionStatus.running, .waitingForApproval] ∧
          store' =
            { settledStore with
              interactions :=
                Function.update store.interactions completion.interactionId
                  (some
                    { row with
                      completionStatus := .accepted
                      completionOutputJson :=
                        some (json.encode completion.output)
                      completionError := none }) }.commitThreadIcon json
                completion.interactionId completion.output) ∨
        (changed = executionChanged ∧
          store.completionResult completion.interactionId =
            some (.accepted, some (json.encode completion.output), none) ∧
          store' = settledStore.commitThreadIcon json completion.interactionId
            completion.output)) := by
  simp only [finalizeCompletionExecutionAccepted, bind_eq_ok_iff] at h
  obtain ⟨existing, hexisting, ⟨⟩, -, ⟨⟩, -, ⟨executionChanged, settledStore⟩,
    hsettled, updated, hupdated, h⟩ := h
  have hlookup := requireExecution_ok hexisting
  have hstage := settleOnce_ok hlookup hsettled
  have hinteractions : settledStore.interactions = store.interactions := by
    rcases hstage with ⟨-, rfl, -⟩ | ⟨-, -, rfl⟩ <;> rfl
  refine ⟨existing.row, executionChanged, settledStore, hlookup, ?_, ?_⟩
  · rcases hstage with ⟨hchanged, hstore, hphase, -⟩ | hstage
    · exact .inl ⟨hchanged, hstore, hphase⟩
    · exact .inr hstage
  · cases updated with
    | some accepted =>
        simp only [pure_eq_ok_iff, Prod.mk.injEq] at h
        obtain ⟨row, hrow, hcondition, rfl⟩ := updateInteraction_some hupdated
        simp only [decide_eq_true_eq] at hcondition
        rw [hinteractions] at hrow h
        exact .inl ⟨row, h.1.symm, hrow, hcondition.2.1, h.2.symm⟩
    | none =>
        simp only [bind_eq_ok_iff, require_eq_ok_iff, pure_eq_ok_iff,
          Prod.mk.injEq] at h
        obtain ⟨⟨⟩, hresult, hchanged, hstore⟩ := h
        refine .inr ⟨hchanged.symm, ?_, hstore.symm⟩
        rwa [completionResult, hinteractions] at hresult

/-- A failure settles a launched execution, or finds it settled with that
reason; it fails an unfinished interaction, or finds it stopped or failed. -/
theorem finalizeCompletionExecutionFailed_ok {interaction : InteractionId}
    {origin harness reason timestamp : String} {changed : Bool}
    (h : store.finalizeCompletionExecutionFailed json interaction origin harness
      reason timestamp = .ok (changed, store')) :
    ∃ existing executionChanged settledStore,
      store.executions.lookup interaction = some existing ∧
      ((executionChanged = false ∧ settledStore = store ∧
          existing.phase = .settled) ∨
        (executionChanged = true ∧
          (existing.phase = .launching ∨ existing.phase = .attached) ∧
          settledStore =
            { store with
              executions := store.executions.insert interaction
                (settledRow existing none (some reason) timestamp) })) ∧
      ((∃ row, changed = true ∧ store.interactions interaction = some row ∧
          row.completionStatus ∈ unfinished ∧
          store' =
            { settledStore with
              interactions :=
                Function.update store.interactions interaction
                  (some
                    { row with
                      completionStatus := .failed
                      harnessConfigurationName :=
                        row.harnessConfigurationName <|> some harness
                      completionOutputJson := none
                      completionError := some reason }) }) ∨
        (changed = executionChanged ∧ store' = settledStore ∧
          ∃ row, store.interactions interaction = some row ∧
            (row.completionStatus = .failed ∨
              row.completionStatus = .stopped) ∧
            row.completionOutputJson = none)) := by
  simp only [finalizeCompletionExecutionFailed, bind_eq_ok_iff] at h
  obtain ⟨⟨⟩, -, existing, hexisting, ⟨⟩, -, ⟨⟩, -,
    ⟨executionChanged, settledStore⟩, hsettled, updated, hupdated, h⟩ := h
  have hlookup := requireExecution_ok hexisting
  have hstage := settleOnce_ok hlookup hsettled
  have hinteractions : settledStore.interactions = store.interactions := by
    rcases hstage with ⟨-, rfl, -⟩ | ⟨-, -, rfl⟩ <;> rfl
  refine ⟨existing.row, executionChanged, settledStore, hlookup, ?_, ?_⟩
  · rcases hstage with ⟨hchanged, hstore, hphase, -⟩ | hstage
    · exact .inl ⟨hchanged, hstore, hphase⟩
    · exact .inr hstage
  · cases updated with
    | some failed =>
        simp only [pure_eq_ok_iff, Prod.mk.injEq] at h
        obtain ⟨hchanged, rfl⟩ := h
        obtain ⟨row, hrow, hcondition, hstore⟩ :=
          updateInteraction_some hupdated
        simp only [decide_eq_true_eq] at hcondition
        rw [hinteractions] at hrow hstore
        exact .inl ⟨row, hchanged.symm, hrow, hcondition.2, hstore⟩
    | none =>
        simp only [bind_eq_ok_iff, require_eq_ok_iff, pure_eq_ok_iff,
          Prod.mk.injEq] at h
        obtain ⟨⟨⟩, hended, hchanged, hstore⟩ := h
        refine .inr ⟨hchanged.symm, hstore.symm, ?_⟩
        rw [alreadyStopped, completionResult, hinteractions] at hended
        cases hrow : store.interactions interaction with
        | none => simp [hrow] at hended
        | some row =>
            simp only [hrow, Option.any_some, decide_eq_true_eq,
              Option.isNone_iff_eq_none, Option.map_some, Option.some.injEq,
              Prod.mk.injEq] at hended
            rcases hended with ⟨hstopped, houtput⟩ | ⟨hfailed, houtput, -⟩
            · exact ⟨row, rfl, .inr hstopped, houtput⟩
            · exact ⟨row, rfl, .inl hfailed, houtput⟩

/-- A refused launch fails an unfinished interaction, and settles its execution
when one is reserved. -/
theorem failUnlaunchedRecursiveChild_ok {interaction : InteractionId}
    {graphCompletionId : ℤ} {harness reason timestamp : String}
    {interrupted graphPending changed : Bool}
    (h : store.failUnlaunchedRecursiveChild json interaction graphCompletionId
      harness reason interrupted graphPending timestamp =
        .ok (changed, store')) :
    (changed = false ∧ store' = store) ∨
      ∃ row row', changed = true ∧
        store.interactions interaction = some row ∧
        row.completionStatus ∈ unfinished ∧ row'.completionStatus = .failed ∧
        row'.completionOutputJson = none ∧ store'.attempts = store.attempts ∧
        store'.interactions =
          Function.update store.interactions interaction (some row') ∧
        ((∀ execution, store.executions.lookup interaction = some execution →
            execution.phase = .settled) ∧
            store'.executions = store.executions ∨
          ∃ execution, store.executions.lookup interaction = some execution ∧
            execution.phase = .reserved ∧
            store'.executions = store.executions.insert interaction
              (settledRow execution none (some reason) timestamp)) := by
  simp only [failUnlaunchedRecursiveChild, bind_eq_ok_iff] at h
  obtain ⟨⟨⟩, -, existing, hfetch, h⟩ := h
  have hlookup := fetchExecution_ok hfetch
  split at h
  · simp only [pure_eq_ok_iff, Prod.mk.injEq] at h
    exact .inl ⟨h.1.symm, h.2.symm⟩
  · rename_i howned
    have hphase : ∀ execution,
        store.executions.lookup interaction = some execution →
        execution.phase = .reserved ∨ execution.phase = .settled := by
      intro execution hexecution
      rw [← hlookup, Option.map_eq_some_iff] at hexecution
      obtain ⟨fetched, rfl, rfl⟩ := hexecution
      by_contra hother
      rw [not_or] at hother
      simp [launchOwned, hother.1, hother.2] at howned
    simp only [bind_eq_ok_iff] at h
    obtain ⟨updated, hupdated, h⟩ := h
    cases updated with
    | none =>
        simp only [pure_eq_ok_iff, Prod.mk.injEq] at h
        exact .inl ⟨h.1.symm, h.2.symm⟩
    | some failedStore =>
        simp only [bind_eq_ok_iff, pure_eq_ok_iff, Prod.mk.injEq] at h
        obtain ⟨settled, hsettled, hchanged, hstore⟩ := h
        obtain ⟨row, hrow, hcondition, hfailed⟩ :=
          updateInteraction_some hupdated
        have hstatus : row.completionStatus ∈ unfinished := by
          simp only [decide_eq_true_eq] at hcondition
          rcases hcondition.2.1 with hstart | ⟨-, hrun⟩
          · revert hstart
            simp only [unfinished, List.mem_cons, List.not_mem_nil, or_false]
            rintro (h | h) <;> simp [h]
          · revert hrun
            simp only [unfinished, List.mem_cons, List.not_mem_nil, or_false]
            rintro (h | h) <;> simp [h]
        have hmarked : ∀ marked : ProductStore,
            (if graphPending then marked.markGraphFailurePending interaction
              else marked).interactions = marked.interactions ∧
            (if graphPending then marked.markGraphFailurePending interaction
              else marked).executions = marked.executions ∧
            (if graphPending then marked.markGraphFailurePending interaction
              else marked).attempts = marked.attempts := by
          intro marked
          cases graphPending <;> exact ⟨rfl, rfl, rfl⟩
        refine .inr
          ⟨row,
            { row with
              completionStatus := .failed
              graphNodeId := row.graphNodeId <|> some graphCompletionId
              harnessConfigurationName :=
                row.harnessConfigurationName <|> some harness
              completionOutputJson := none
              completionError := some reason },
            hchanged.symm, hrow, hstatus, rfl, rfl, ?_, ?_, ?_⟩
        · rw [← hstore, (hmarked _).2.2]
          cases settled with
          | none => simp [hfailed]
          | some settledStore =>
              obtain ⟨execution, -, -, rfl⟩ := updateExecution_some hsettled
              simp [hfailed]
        · rw [← hstore, (hmarked _).1]
          cases settled with
          | none => simp [hfailed]
          | some settledStore =>
              obtain ⟨execution, -, -, rfl⟩ := updateExecution_some hsettled
              simp [hfailed]
        · rw [← hstore, (hmarked _).2.1]
          cases settled with
          | none =>
              refine .inl ⟨?_, by simp [hfailed]⟩
              intro execution hexecution
              refine (hphase execution hexecution).resolve_left ?_
              intro hreserved
              simp [updateExecution, hfailed, hexecution, hreserved, settledRow]
                at hsettled
          | some settledStore =>
              obtain ⟨execution, hexecution, hreserved, rfl⟩ :=
                updateExecution_some hsettled
              refine .inr ⟨execution, ?_, by simpa using hreserved, ?_⟩
              · simpa [hfailed] using hexecution
              · simp [hfailed]

/-- A restart finds the execution settled, or settles a launched one together
with an unfinished interaction; a failure may find the interaction stopped. -/
theorem reconcileCompletionExecutionOnRestart_ok {interaction : InteractionId}
    {origin timestamp : String}
    {settlement : CompletionExecutionRestartSettlement Value} {changed : Bool}
    (h : store.reconcileCompletionExecutionOnRestart json interaction origin
      settlement timestamp = .ok (changed, store')) :
    (changed = false ∧ store' = store) ∨
      ∃ existing settled, changed = true ∧
        store.executions.lookup interaction = some existing ∧
        (existing.phase = .launching ∨ existing.phase = .attached) ∧
        settled.phase = .settled ∧
        settled.attachmentJson = existing.attachmentJson ∧
        store'.attempts = store.attempts ∧
        store'.executions = store.executions.insert interaction settled ∧
        ∃ row row', store.interactions interaction = some row ∧
          store'.interactions =
            Function.update store.interactions interaction (some row') ∧
          Agrees row' settled := by
  simp only [reconcileCompletionExecutionOnRestart, bind_eq_ok_iff] at h
  obtain ⟨existing, hexisting, ⟨⟩, -, h⟩ := h
  have hlookup := requireExecution_ok hexisting
  split at h
  · simp only [pure_eq_ok_iff, Prod.mk.injEq] at h
    exact .inl ⟨h.1.symm, h.2.symm⟩
  simp only [bind_eq_ok_iff, require_eq_ok_iff, orThrow_eq_ok_iff] at h
  obtain ⟨⟨⟩, hphase, ⟨settlementJson, reason, status, output, error⟩, hcolumns,
    _, hfence, settledStore, rfl, updated, hupdated, h⟩ := h
  obtain ⟨execution, hexecution, -, rfl⟩ := updateExecution_some hfence
  obtain rfl : existing.row = execution :=
    Option.some.inj (hlookup.symm.trans hexecution)
  -- What the restart writes agrees with itself, whichever way it ends.
  have hagrees : ∀ row : InteractionRow,
      row.completionStatus = status → row.completionOutputJson = output →
      Agrees row (settledRow existing.row settlementJson reason timestamp) := by
    intro row hstatus houtput
    refine ⟨fun h => absurd rfl h, fun _ => ?_⟩
    cases settlement with
    | accepted value =>
        simp only [restartColumns, Except.ok.injEq, Prod.mk.injEq] at hcolumns
        obtain ⟨rfl, rfl, rfl, rfl, -⟩ := hcolumns
        exact .inl ⟨rfl, rfl, hstatus, houtput⟩
    | failed safeReason =>
        simp only [restartColumns, bind_eq_ok_iff, pure_eq_ok_iff,
          Prod.mk.injEq] at hcolumns
        obtain ⟨⟨⟩, -, rfl, rfl, rfl, rfl, -⟩ := hcolumns
        exact .inr ⟨rfl, rfl, .inl hstatus, houtput⟩
  cases updated with
  | some projected =>
      simp only [pure_eq_ok_iff, Prod.mk.injEq] at h
      obtain ⟨hchanged, rfl⟩ := h
      obtain ⟨row, hrow, -, rfl⟩ := updateInteraction_some hupdated
      exact .inr
        ⟨existing.row, settledRow existing.row settlementJson reason timestamp,
          hchanged.symm, hlookup, hphase, rfl, rfl, rfl, rfl, row, _, hrow,
          rfl, hagrees _ rfl rfl⟩
  | none =>
      simp only [bind_eq_ok_iff, require_eq_ok_iff, pure_eq_ok_iff,
        Prod.mk.injEq] at h
      obtain ⟨⟨⟩, ⟨hstopped, hfailed⟩, hchanged, rfl⟩ := h
      cases settlement with
      | accepted value =>
          simp only [restartColumns, Except.ok.injEq, Prod.mk.injEq] at hcolumns
          obtain ⟨-, -, rfl, -⟩ := hcolumns
          cases hfailed
      | failed safeReason =>
          simp only [restartColumns, bind_eq_ok_iff, pure_eq_ok_iff,
            Prod.mk.injEq] at hcolumns
          obtain ⟨⟨⟩, -, rfl, rfl, rfl, rfl, -⟩ := hcolumns
          unfold alreadyStopped at hstopped
          cases hrow : store.interactions interaction with
          | none => simp [hrow] at hstopped
          | some row =>
              simp only [hrow, Option.any_some, decide_eq_true_eq,
                Option.isNone_iff_eq_none] at hstopped
              refine .inr
                ⟨existing.row,
                  settledRow existing.row none (some safeReason) timestamp,
                  hchanged.symm, hlookup, hphase, rfl, rfl, rfl, rfl, row, row,
                  rfl, ?_, ?_⟩
              · rw [← hrow, Function.update_eq_self]
              · refine ⟨fun h => absurd rfl h, fun _ => ?_⟩
                exact .inr ⟨rfl, rfl, .inr hstopped.1, hstopped.2⟩

theorem endCompletionExecutionAttempt_ok {interaction : InteractionId}
    {timestamp : String} {changed : Bool}
    (h : store.endCompletionExecutionAttempt interaction timestamp =
      .ok (changed, store')) :
    (changed = false ∧ store' = store) ∨
      ∃ attempts,
        store' = { store with attempts := attempts } ∧
        (changed = true ↔
          store.attempts.countP (runsAttemptOf interaction) = 1) ∧
        (∀ other, attempts.countP (runsAttemptOf other) =
          if other = interaction then 0
          else store.attempts.countP (runsAttemptOf other)) ∧
        (store.attempts.countP (runsAttemptOf interaction) = 0 →
          attempts = store.attempts) := by
  unfold endCompletionExecutionAttempt at h
  split at h
  · rename_i execution row hexecution hrow
    simp only [bind_eq_ok_iff, require_eq_ok_iff, pure_eq_ok_iff,
      Prod.mk.injEq] at h
    obtain ⟨⟨⟩, hsettled, hchanged, hstore⟩ := h
    have hended :
        (settledRecursiveAttemptOutcome row.completionStatus).1 ≠ .running := by
      unfold settledRecursiveAttemptOutcome
      split <;> simp
    refine .inr ⟨_, hstore.symm, ?_, ?_, ?_⟩
    · rw [← hchanged, decide_eq_true_eq]
    · intro other
      rw [List.countP_map]
      split
      · rename_i hother
        subst hother
        rw [List.countP_eq_zero]
        intro attempt _
        rw [Function.comp_apply]
        split
        · simp [runsAttemptOf, endedAttempt, hended]
        · assumption
      · rename_i hother
        apply List.countP_congr
        intro attempt _
        rw [Function.comp_apply]
        split
        · rename_i hruns
          have hof : attempt.interactionId = interaction := by
            simp only [runsAttemptOf, decide_eq_true_eq] at hruns
            exact hruns.1
          have hne : attempt.interactionId ≠ other := by
            rw [hof]
            exact fun h => hother h.symm
          simp [runsAttemptOf, endedAttempt, hne]
        · rfl
    · intro hnone
      rw [List.countP_eq_zero] at hnone
      refine (List.map_congr_left fun attempt hattempt => ?_).trans
        (List.map_id _)
      simp [hnone attempt hattempt]
  · simp only [Except.ok.injEq, Prod.mk.injEq] at h
    exact .inl ⟨h.1.symm, h.2.symm⟩

/-- A call which is one update of the interaction. -/
theorem affected_ok {interaction : InteractionId}
    {condition : InteractionRow → Bool}
    {change : InteractionRow → InteractionRow} {changed : Bool}
    (h : store.affected <$> store.updateInteraction interaction condition
      change = .ok (changed, store')) :
    (changed = false ∧ store' = store) ∨
      ∃ row, changed = true ∧ store.interactions interaction = some row ∧
        condition row = true ∧
        store' =
          { store with
            interactions :=
              Function.update store.interactions interaction
                (some (change row)) } := by
  simp only [map_eq_ok_iff] at h
  obtain ⟨updated, hupdated, h⟩ := h
  cases updated with
  | none =>
      simp only [affected, Prod.mk.injEq] at h
      exact .inl ⟨h.1.symm, h.2.symm⟩
  | some store'' =>
      simp only [affected, Prod.mk.injEq] at h
      obtain ⟨hchanged, rfl⟩ := h
      obtain ⟨row, hrow, hcondition, hstore⟩ := updateInteraction_some hupdated
      exact .inr ⟨row, hchanged.symm, hrow, hcondition, hstore⟩

/-- An update that affected no row found its row not meeting the condition. -/
theorem affected_false {interaction : InteractionId}
    {condition : InteractionRow → Bool}
    {change : InteractionRow → InteractionRow} {row : InteractionRow}
    (h : store.affected <$> store.updateInteraction interaction condition
      change = .ok (false, store'))
    (hrow : store.interactions interaction = some row) :
    condition row = false := by
  simp only [map_eq_ok_iff] at h
  obtain ⟨updated, hupdated, h⟩ := h
  cases updated with
  | none => exact updateInteraction_none hupdated hrow
  | some store'' => simp [affected] at h

end ProductStore

end RelayerGraph
