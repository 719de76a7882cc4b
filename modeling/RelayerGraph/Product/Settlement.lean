import RelayerGraph.Product.Repetition

/-!
# Recursive executions settle once

From the moves of one call to whole runs: every execution agrees with its
interaction, its phase advances, what is written once stays, and at most one
claim of a launch succeeds.
-/

namespace RelayerGraph

open Foundation Checked

variable {Value : Type} {json : JsonLibrary Value}

namespace ProductStore

variable {store store' : ProductStore} {operation : ExecutionOperation Value}

/-! ## Every call moves -/

/-- A call which touches one interaction only. -/
theorem moves_of_target (target : InteractionId)
    (hframe : ∀ interaction, interaction ≠ target →
      store'.interactions interaction = store.interactions interaction ∧
        store'.executions.lookup interaction =
          store.executions.lookup interaction)
    (hmove : Moves operation (store.interactions target)
      (store.executions.lookup target) (store'.interactions target)
      (store'.executions.lookup target)) (interaction : InteractionId) :
    Moves operation (store.interactions interaction)
      (store.executions.lookup interaction) (store'.interactions interaction)
      (store'.executions.lookup interaction) := by
  by_cases h : interaction = target
  · subst h
    exact hmove
  · rw [(hframe interaction h).1, (hframe interaction h).2]
    exact .kept ..

theorem moves_of_eq (h : store' = store) (interaction : InteractionId) :
    Moves operation (store.interactions interaction)
      (store.executions.lookup interaction) (store'.interactions interaction)
      (store'.executions.lookup interaction) := by
  subst h
  exact .kept ..

/-- The interaction alone moves, out of an unfinished status. -/
theorem moves_of_interaction {target : InteractionId}
    {row row' : InteractionRow}
    (hrow : store.interactions target = some row)
    (hlive : row.completionStatus ∈ unfinished)
    (hopen : row'.completionStatus ≠ .accepted)
    (hrows : store'.interactions =
      Function.update store.interactions target (some row'))
    (hexecutions : store'.executions = store.executions)
    (interaction : InteractionId) :
    Moves operation (store.interactions interaction)
      (store.executions.lookup interaction) (store'.interactions interaction)
      (store'.executions.lookup interaction) := by
  refine moves_of_target target (fun other hother => ?_) ?_ interaction
  · rw [hrows, hexecutions, Function.update_of_ne hother]
    exact ⟨rfl, rfl⟩
  · rw [hrow, hrows, hexecutions, Function.update_self]
    exact .moved hlive hopen

/-- Both rows of an interaction are replaced. -/
theorem moves_of_both {target : InteractionId} {row' : InteractionRow}
    {execution' : ExecutionRow}
    (hrows : store'.interactions =
      Function.update store.interactions target (some row'))
    (hexecutions : store'.executions =
      store.executions.insert target execution')
    (hmove : Moves operation (store.interactions target)
      (store.executions.lookup target) (some row') (some execution'))
    (interaction : InteractionId) :
    Moves operation (store.interactions interaction)
      (store.executions.lookup interaction) (store'.interactions interaction)
      (store'.executions.lookup interaction) := by
  refine moves_of_target target (fun other hother => ?_) ?_ interaction
  · rw [hrows, hexecutions, Function.update_of_ne hother,
      AList.lookup_insert_ne hother]
    exact ⟨rfl, rfl⟩
  · rwa [hrows, hexecutions, Function.update_self, AList.lookup_insert]

/-- The execution alone moves. -/
theorem moves_of_execution {target : InteractionId} {execution' : ExecutionRow}
    (hrows : store'.interactions = store.interactions)
    (hexecutions : store'.executions =
      store.executions.insert target execution')
    (hmove : Moves operation (store.interactions target)
      (store.executions.lookup target) (store.interactions target)
      (some execution')) (interaction : InteractionId) :
    Moves operation (store.interactions interaction)
      (store.executions.lookup interaction) (store'.interactions interaction)
      (store'.executions.lookup interaction) := by
  refine moves_of_target target (fun other hother => ?_) ?_ interaction
  · rw [hrows, hexecutions, AList.lookup_insert_ne hother]
    exact ⟨rfl, rfl⟩
  · rwa [hrows, hexecutions, AList.lookup_insert]

theorem mem_unfinished_of_running {status : CompletionStatus}
    (h : status ∈ [CompletionStatus.running, .waitingForApproval]) :
    status ∈ unfinished := by
  revert h
  cases status <;> decide

theorem not_ended_of_unfinished {status : CompletionStatus}
    (h : status ∈ unfinished) :
    status ≠ .accepted ∧ status ≠ .failed ∧ status ≠ .stopped := by
  revert h
  cases status <;> decide

/-- The interaction of an unfinished status has no settled execution. -/
theorem Agreement.not_settled (hagree : store.Agreement)
    {interaction : InteractionId} {row : InteractionRow}
    {execution : ExecutionRow}
    (hrow : store.interactions interaction = some row)
    (hexecution : store.executions.lookup interaction = some execution)
    (hlive : row.completionStatus ∈ unfinished) :
    execution.phase ≠ .settled := by
  intro hsettled
  obtain ⟨row', hrow', hagrees⟩ := hagree interaction execution hexecution
  obtain rfl : row = row' := Option.some.inj (hrow.symm.trans hrow')
  obtain ⟨haccepted, hfailed, hstopped⟩ := not_ended_of_unfinished hlive
  rcases hagrees.ended_of_settled hsettled with h | h | h
  · exact haccepted h
  · exact hfailed h
  · exact hstopped h

theorem moves_finalizeAccepted (hagree : store.Agreement)
    {completion : AcceptedInteractionCompletion Value}
    {origin timestamp : String} {changed : Bool}
    (h : store.finalizeCompletionExecutionAccepted json completion origin
      timestamp = .ok (changed, store')) (interaction : InteractionId) :
    Moves (.finalizeAccepted completion origin timestamp)
      (store.interactions interaction)
      (store.executions.lookup interaction) (store'.interactions interaction)
      (store'.executions.lookup interaction) := by
  obtain ⟨existing, executionChanged, settledStore, hlookup, hstage, hproduct⟩ :=
    finalizeCompletionExecutionAccepted_ok h
  obtain ⟨row₀, hrow₀, hagrees⟩ := hagree _ _ hlookup
  rcases hproduct with ⟨row, -, hrow, hlive, rfl⟩ | ⟨-, hresult, rfl⟩
  · have hopen := hagree.not_settled hrow hlookup (mem_unfinished_of_running hlive)
    rcases hstage with ⟨-, -, hsettled⟩ | ⟨-, hphase, rfl⟩
    · exact absurd hsettled hopen
    · refine moves_of_both (by simp; rfl) (by simp; rfl) ?_ interaction
      rw [hrow, hlookup]
      refine .settled hphase rfl rfl ⟨fun h => absurd rfl h, fun _ => .inl ?_⟩
      exact ⟨rfl, rfl, rfl, rfl⟩
  · rcases hstage with ⟨-, rfl, -⟩ | ⟨-, hphase, rfl⟩
    · refine moves_of_target completion.interactionId
        (fun other _ => by simp) ?_ interaction
      simp only [commitThreadIcon_interactions, commitThreadIcon_executions]
      exact .kept ..
    · -- An open execution's interaction is not accepted.
      rw [completionResult, hrow₀, Option.map_some, Option.some.injEq,
        Prod.mk.injEq] at hresult
      have hunsettled : existing.phase ≠ .settled := by
        rcases hphase with hphase | hphase <;> simp [hphase]
      exact absurd hresult.1 (hagrees.unsettled hunsettled).2.2

theorem moves_finalizeFailed (hagree : store.Agreement)
    {target : InteractionId} {origin harness reason timestamp : String}
    {changed : Bool}
    (h : store.finalizeCompletionExecutionFailed json target origin harness
      reason timestamp = .ok (changed, store')) (interaction : InteractionId) :
    Moves
      (.finalizeFailed target origin harness reason timestamp :
        ExecutionOperation Value)
      (store.interactions interaction)
      (store.executions.lookup interaction) (store'.interactions interaction)
      (store'.executions.lookup interaction) := by
  obtain ⟨existing, executionChanged, settledStore, hlookup, hstage, hproduct⟩ :=
    finalizeCompletionExecutionFailed_ok h
  rcases hproduct with ⟨row, -, hrow, hlive, rfl⟩ |
    ⟨-, rfl, row, hrow, hended, houtput⟩
  · have hopen := hagree.not_settled hrow hlookup hlive
    rcases hstage with ⟨-, -, hsettled⟩ | ⟨-, hphase, rfl⟩
    · exact absurd hsettled hopen
    · refine moves_of_both rfl rfl ?_ interaction
      rw [hrow, hlookup]
      refine .settled hphase rfl rfl ⟨fun h => absurd rfl h, fun _ => .inr ?_⟩
      exact ⟨rfl, rfl, .inl rfl, rfl⟩
  · rcases hstage with ⟨-, rfl, -⟩ | ⟨-, hphase, rfl⟩
    · exact moves_of_eq rfl interaction
    · refine moves_of_execution (by rfl) (by rfl) ?_ interaction
      rw [hrow, hlookup]
      refine .settled hphase rfl rfl ⟨fun h => absurd rfl h, fun _ => .inr ?_⟩
      exact ⟨rfl, rfl, hended, houtput⟩

theorem moves_failUnlaunched {target : InteractionId} {graphCompletionId : ℤ}
    {harness reason timestamp : String}
    {interrupted graphPending changed : Bool}
    (h : store.failUnlaunchedRecursiveChild json target graphCompletionId
      harness reason interrupted graphPending timestamp =
        .ok (changed, store')) (interaction : InteractionId) :
    Moves
      (.failUnlaunched target graphCompletionId harness reason interrupted
        graphPending timestamp : ExecutionOperation Value)
      (store.interactions interaction)
      (store.executions.lookup interaction) (store'.interactions interaction)
      (store'.executions.lookup interaction) := by
  rcases failUnlaunchedRecursiveChild_ok h with ⟨-, hstore⟩ |
    ⟨row, row', -, hrow, hlive, hfailed, houtput, -, hrows, hexecutions⟩
  · exact moves_of_eq hstore interaction
  · rcases hexecutions with ⟨-, hexecutions⟩ |
      ⟨execution, hexecution, hreserved, hexecutions⟩
    · exact moves_of_interaction hrow hlive (by simp [hfailed]) hrows
        hexecutions interaction
    · refine moves_of_both hrows hexecutions ?_ interaction
      rw [hrow, hexecution]
      refine .refused hreserved rfl rfl
        ⟨fun h => absurd rfl h, fun _ => .inr ?_⟩
      exact ⟨rfl, rfl, .inl hfailed, houtput⟩

theorem moves_affected {target : InteractionId}
    {condition : InteractionRow → Bool}
    {change : InteractionRow → InteractionRow} {changed : Bool}
    (hlive : ∀ row, condition row = true → row.completionStatus ∈ unfinished)
    (hopen : ∀ row, (change row).completionStatus ≠ .accepted)
    (h : store.affected <$> store.updateInteraction target condition change =
      .ok (changed, store')) (interaction : InteractionId) :
    Moves operation (store.interactions interaction)
      (store.executions.lookup interaction) (store'.interactions interaction)
      (store'.executions.lookup interaction) := by
  rcases affected_ok h with ⟨-, hstore⟩ | ⟨row, -, hrow, hcondition, rfl⟩
  · exact moves_of_eq hstore interaction
  · refine moves_of_interaction hrow (hlive row hcondition) (hopen row) ?_ ?_
      interaction
    · rfl
    · rfl

/-- Whatever the call and the interaction, its two rows make a move. -/
theorem moves_of_call (hagree : store.Agreement) {changed : Bool}
    (h : store.call json operation = .ok (changed, store'))
    (interaction : InteractionId) :
    Moves operation (store.interactions interaction)
      (store.executions.lookup interaction) (store'.interactions interaction)
      (store'.executions.lookup interaction) := by
  cases operation with
  | reserve binding timestamp =>
      simp only [call, map_eq_ok_iff] at h
      obtain ⟨⟨outcome, store''⟩, hreserve, hanswer⟩ := h
      rcases reserveCompletionExecution_ok hreserve with
        ⟨existing, rfl, rfl⟩ |
          ⟨row, execution, rfl, hrow, hstatus, hnone, rfl⟩
      · simp only [reserveAnswer, Prod.mk.injEq] at hanswer
        exact moves_of_eq hanswer.2.symm interaction
      · simp only [reserveAnswer, Prod.mk.injEq] at hanswer
        obtain ⟨-, rfl⟩ := hanswer
        refine moves_of_execution (by rfl) (by rfl) ?_ interaction
        rw [hrow, hnone]
        exact .reserved hstatus
  | claimLaunching target origin timestamp =>
      rcases claimCompletionExecutionLaunching_ok h with ⟨-, hstore⟩ |
        ⟨row, -, hrow, hreserved, rfl⟩
      · exact moves_of_eq hstore interaction
      · refine moves_of_execution (by rfl) (by rfl) ?_ interaction
        rw [hrow]
        exact .launched hreserved
  | attach target origin attachment timestamp =>
      rcases attachCompletionExecution_ok h with ⟨-, hstore⟩ |
        ⟨row, -, hrow, hreserved, hnone, rfl⟩
      · exact moves_of_eq hstore interaction
      · refine moves_of_execution (by rfl) (by rfl) ?_ interaction
        rw [hrow]
        exact .attached hnone hreserved rfl rfl rfl rfl
  | finalizeAccepted completion origin timestamp =>
      exact moves_finalizeAccepted hagree h interaction
  | finalizeFailed target origin harness reason timestamp =>
      exact moves_finalizeFailed hagree h interaction
  | failUnlaunched target graphCompletionId harness reason interrupted
      graphPending timestamp =>
      exact moves_failUnlaunched h interaction
  | reconcileOnRestart target origin settlement timestamp =>
      rcases reconcileCompletionExecutionOnRestart_ok h with ⟨-, hstore⟩ |
        ⟨existing, settled, -, hlookup, hphase, hsettled, hattachment, -,
          hexecutions, row, row', hrow, hrows, hagrees⟩
      · exact moves_of_eq hstore interaction
      · refine moves_of_both hrows hexecutions ?_ interaction
        rw [hrow, hlookup]
        exact .settled hphase hsettled hattachment hagrees
  | endAttempt target timestamp =>
      rcases endCompletionExecutionAttempt_ok h with ⟨-, hstore⟩ |
        ⟨attempts, rfl, -⟩
      · exact moves_of_eq hstore interaction
      · exact .kept ..
  | claimRunning target harness =>
      refine moves_affected ?_ (fun row => by simp) h interaction
      intro row hcondition
      simp only [decide_eq_true_eq] at hcondition
      simp [unfinished, hcondition.1]
  | requestApproval target =>
      simp only [call, requestApproval, bind_eq_ok_iff, orThrow_eq_ok_iff] at h
      obtain ⟨row, hrow, h⟩ := h
      split at h
      · refine moves_affected ?_ (fun row => by simp) h interaction
        intro row hcondition
        simp only [decide_eq_true_eq] at hcondition
        simp [unfinished, hcondition]
      · simp only [bind_eq_ok_iff, pure_eq_ok_iff, Prod.mk.injEq] at h
        obtain ⟨⟨⟩, -, -, hstore⟩ := h
        exact moves_of_eq hstore.symm interaction
  | cancelApproval target othersOpen =>
      simp only [call, cancelApproval] at h
      split at h
      · refine moves_affected ?_ (fun row => by simp) h interaction
        intro row hcondition
        simp only [decide_eq_true_eq] at hcondition
        simp [unfinished, hcondition.1]
      · split at h
        · refine moves_affected ?_ (fun row => by simp) h interaction
          intro row hcondition
          simp only [decide_eq_true_eq] at hcondition
          exact mem_unfinished_of_running hcondition
        · refine moves_affected ?_ (fun row => by simp) h interaction
          intro row hcondition
          simp only [decide_eq_true_eq] at hcondition
          simp [unfinished, hcondition]

/-! ## Invariants of a run -/

theorem agrees_of_moves {row row' : Option InteractionRow}
    {execution execution' : Option ExecutionRow}
    (hmoves : Moves operation row execution row' execution')
    (hagrees : ∀ stored, execution = some stored →
      ∃ known, row = some known ∧ Agrees known stored) :
    ∀ stored, execution' = some stored →
      ∃ known, row' = some known ∧ Agrees known stored := by
  intro stored hstored
  cases hmoves with
  | kept => exact hagrees stored hstored
  | @reserved binding timestamp row hstatus =>
      obtain rfl := Option.some.inj hstored
      refine ⟨row, rfl, .of_unsettled (by simp [reservedRow]) rfl rfl ?_⟩
      intro haccepted
      simp [haccepted] at hstatus
  | @launched _ _ _ _ execution hreserved =>
      obtain rfl := Option.some.inj hstored
      obtain ⟨known, hknown, h⟩ := hagrees execution rfl
      obtain ⟨hsettlement, hreason, hstatus⟩ := h.unsettled (by simp [hreserved])
      exact ⟨known, hknown, .of_unsettled (by simp) hsettlement hreason hstatus⟩
  | @attached _ _ _ _ _ execution execution' hnone hphase hattached
      hsettlement hreason hnext =>
      obtain rfl := Option.some.inj hstored
      obtain ⟨known, hknown, h⟩ := hagrees execution rfl
      have hsame : execution'.phase = .settled ↔ execution.phase = .settled := by
        rw [hnext]
        split <;> simp_all
      refine ⟨known, hknown, ?_, ?_⟩
      · intro hopen
        rw [hsettlement, hreason]
        exact h.unsettled fun hsettled => hopen (hsame.mpr hsettled)
      · intro hsettled
        rw [hsettlement, hreason]
        exact h.settled (hsame.mp hsettled)
  | @settled _ _ row' _ execution' _ _ _ hagrees' =>
      obtain rfl := Option.some.inj hstored
      exact ⟨row', rfl, hagrees'⟩
  | @refused _ _ _ _ _ _ _ _ row' _ execution' _ _ _ hagrees' =>
      obtain rfl := Option.some.inj hstored
      exact ⟨row', rfl, hagrees'⟩
  | @moved _ row row' _ hlive hopen =>
      obtain ⟨known, hknown, h⟩ := hagrees stored hstored
      obtain rfl := Option.some.inj hknown
      have hunsettled : stored.phase ≠ .settled := by
        intro hsettled
        obtain ⟨haccepted, hfailed, hstopped⟩ := not_ended_of_unfinished hlive
        rcases h.ended_of_settled hsettled with h | h | h
        · exact haccepted h
        · exact hfailed h
        · exact hstopped h
      obtain ⟨hsettlement, hreason, -⟩ := h.unsettled hunsettled
      exact ⟨row', rfl, .of_unsettled hunsettled hsettlement hreason hopen⟩

theorem moves_afterCall (hagree : store.Agreement)
    (interaction : InteractionId) :
    Moves operation (store.interactions interaction)
      (store.executions.lookup interaction)
      ((store.afterCall json operation).interactions interaction)
      ((store.afterCall json operation).executions.lookup interaction) := by
  unfold afterCall
  split
  · rename_i hcall
    exact moves_of_call hagree hcall interaction
  · exact .kept ..

theorem Agreement.afterCall (hagree : store.Agreement)
    (operation : ExecutionOperation Value) :
    (store.afterCall json operation).Agreement := fun interaction =>
  agrees_of_moves (moves_afterCall hagree interaction) (hagree interaction)

/-- Ending an attempt is the only call that touches attempts. -/
theorem attempts_of_call {changed : Bool}
    (h : store.call json operation = .ok (changed, store')) :
    store'.attempts = store.attempts ∨
      ∃ target, ∀ other, store'.attempts.countP (runsAttemptOf other) =
        if other = target then 0
        else store.attempts.countP (runsAttemptOf other) := by
  have haffected : ∀ {target : InteractionId}
      {condition : InteractionRow → Bool}
      {change : InteractionRow → InteractionRow},
      store.affected <$> store.updateInteraction target condition change =
        .ok (changed, store') → store'.attempts = store.attempts := by
    intro target condition change h
    rcases affected_ok h with ⟨-, rfl⟩ | ⟨_, -, -, -, rfl⟩ <;> rfl
  cases operation with
  | reserve binding timestamp =>
      simp only [call, map_eq_ok_iff] at h
      obtain ⟨⟨outcome, _⟩, hreserve, hanswer⟩ := h
      rcases reserveCompletionExecution_ok hreserve with
        ⟨existing, rfl, rfl⟩ | ⟨row, execution, rfl, -, -, -, rfl⟩
      · simp only [reserveAnswer, Prod.mk.injEq] at hanswer
        exact .inl (hanswer.2 ▸ rfl)
      · simp only [reserveAnswer, Prod.mk.injEq] at hanswer
        exact .inl (hanswer.2 ▸ rfl)
  | claimLaunching target origin timestamp =>
      rcases claimCompletionExecutionLaunching_ok h with ⟨-, rfl⟩ |
        ⟨row, -, -, -, rfl⟩ <;> exact .inl rfl
  | attach target origin attachment timestamp =>
      rcases attachCompletionExecution_ok h with ⟨-, rfl⟩ |
        ⟨row, -, -, -, -, rfl⟩ <;> exact .inl rfl
  | finalizeAccepted completion origin timestamp =>
      obtain ⟨existing, executionChanged, settledStore, -, hstage, hproduct⟩ :=
        finalizeCompletionExecutionAccepted_ok h
      have hsettled : settledStore.attempts = store.attempts := by
        rcases hstage with ⟨-, rfl, -⟩ | ⟨-, -, rfl⟩ <;> rfl
      rcases hproduct with ⟨row, -, -, -, rfl⟩ | ⟨-, -, rfl⟩
      · exact .inl (by simpa using hsettled)
      · exact .inl (by simpa using hsettled)
  | finalizeFailed target origin harness reason timestamp =>
      obtain ⟨existing, executionChanged, settledStore, -, hstage, hproduct⟩ :=
        finalizeCompletionExecutionFailed_ok h
      have hsettled : settledStore.attempts = store.attempts := by
        rcases hstage with ⟨-, rfl, -⟩ | ⟨-, -, rfl⟩ <;> rfl
      rcases hproduct with ⟨row, -, -, -, rfl⟩ | ⟨-, rfl, -⟩
      · exact .inl hsettled
      · exact .inl hsettled
  | failUnlaunched target graphCompletionId harness reason interrupted
      graphPending timestamp =>
      rcases failUnlaunchedRecursiveChild_ok h with ⟨-, rfl⟩ |
        ⟨row, row', -, -, -, -, -, hattempts, -⟩
      · exact .inl rfl
      · exact .inl hattempts
  | reconcileOnRestart target origin settlement timestamp =>
      rcases reconcileCompletionExecutionOnRestart_ok h with ⟨-, rfl⟩ |
        ⟨existing, settled, -, -, -, -, -, hattempts, -⟩
      · exact .inl rfl
      · exact .inl hattempts
  | endAttempt target timestamp =>
      rcases endCompletionExecutionAttempt_ok h with ⟨-, rfl⟩ |
        ⟨attempts, rfl, -, hcounts, -⟩
      · exact .inl rfl
      · exact .inr ⟨target, hcounts⟩
  | claimRunning target harness => exact .inl (haffected h)
  | requestApproval target =>
      simp only [call, requestApproval, bind_eq_ok_iff] at h
      obtain ⟨row, -, h⟩ := h
      split at h
      · exact .inl (haffected h)
      · simp only [bind_eq_ok_iff, pure_eq_ok_iff, Prod.mk.injEq] at h
        obtain ⟨⟨⟩, -, -, rfl⟩ := h
        exact .inl rfl
  | cancelApproval target othersOpen =>
      simp only [call, cancelApproval] at h
      split at h
      · exact .inl (haffected h)
      · split at h <;> exact .inl (haffected h)

theorem OneAttempt.afterCall (hone : store.OneAttempt)
    (operation : ExecutionOperation Value) :
    (store.afterCall json operation).OneAttempt := by
  unfold ProductStore.afterCall
  split
  · rename_i hcall
    intro interaction
    rcases attempts_of_call hcall with hsame | ⟨target, hcounts⟩
    · rw [hsame]
      exact hone interaction
    · rw [hcounts]
      split
      · omega
      · exact hone interaction
  · exact hone

/-! ## Phases and what is written once -/

/-- The phase of the interaction's execution, when it has one. -/
def phaseOf (store : ProductStore) (interaction : InteractionId) :
    Option CompletionExecutionPhase :=
  (store.executions.lookup interaction).map ExecutionRow.phase

/-- The order of phases: reserved, launching, attached, settled, where only
attached may be skipped. -/
inductive PhaseInOrder : Option CompletionExecutionPhase →
    Option CompletionExecutionPhase → Prop
  | kept (phase) : PhaseInOrder phase phase
  | reserved : PhaseInOrder none (some .reserved)
  | launched : PhaseInOrder (some .reserved) (some .launching)
  | attached : PhaseInOrder (some .launching) (some .attached)
  | settledLaunching : PhaseInOrder (some .launching) (some .settled)
  | settledAttached : PhaseInOrder (some .attached) (some .settled)

/-- The operation fails a child no launch owns. -/
def FailsUnlaunched : ExecutionOperation Value → Prop
  | .failUnlaunched .. => True
  | _ => False

/-- Phases advance in order, except that failing a child no launch owns
settles its reserved execution at once. -/
def PhaseAdvances (operation : ExecutionOperation Value)
    (phase phase' : Option CompletionExecutionPhase) : Prop :=
  PhaseInOrder phase phase' ∨
    (FailsUnlaunched operation ∧ phase = some .reserved ∧
      phase' = some .settled)

theorem phaseAdvances_of_moves {row row' : Option InteractionRow}
    {execution execution' : Option ExecutionRow}
    (hmoves : Moves operation row execution row' execution') :
    PhaseAdvances operation (execution.map ExecutionRow.phase)
      (execution'.map ExecutionRow.phase) := by
  cases hmoves with
  | kept => exact .inl (.kept _)
  | reserved => exact .inl .reserved
  | launched hreserved =>
      left
      simp only [Option.map_some, hreserved]
      exact .launched
  | attached hnone hphase hattached hsettlement hreason hnext =>
      left
      simp only [Option.map_some, hnext]
      split
      · rename_i hlaunching
        rw [hlaunching]
        exact .attached
      · exact .kept _
  | settled hphase hsettled =>
      left
      simp only [Option.map_some, hsettled]
      rcases hphase with hphase | hphase
      · rw [hphase]
        exact .settledLaunching
      · rw [hphase]
        exact .settledAttached
  | refused hreserved hsettled =>
      right
      exact ⟨trivial, congrArg some hreserved, congrArg some hsettled⟩
  | moved => exact .inl (.kept _)

/-- What a later state keeps of an execution: its attachment once written, and
settlement and safe reason once settled. -/
structure Preserves (execution execution' : ExecutionRow) : Prop where
  attachment : execution.attachmentJson.isSome →
    execution'.attachmentJson = execution.attachmentJson
  settled : execution.phase = .settled → execution'.phase = .settled ∧
    execution'.settlementJson = execution.settlementJson ∧
    execution'.safeReason = execution.safeReason

theorem Preserves.refl (execution : ExecutionRow) :
    Preserves execution execution where
  attachment _ := rfl
  settled h := ⟨h, rfl, rfl⟩

theorem Preserves.trans {first second third : ExecutionRow}
    (h : Preserves first second) (h' : Preserves second third) :
    Preserves first third where
  attachment hsome := by
    have hkept := h.attachment hsome
    rw [h'.attachment (hkept ▸ hsome), hkept]
  settled hsettled := by
    obtain ⟨hphase, hsettlement, hreason⟩ := h.settled hsettled
    obtain ⟨hphase', hsettlement', hreason'⟩ := h'.settled hphase
    exact ⟨hphase', hsettlement'.trans hsettlement, hreason'.trans hreason⟩

theorem preserves_of_moves {row row' : Option InteractionRow}
    {execution : ExecutionRow} {execution' : Option ExecutionRow}
    (hmoves : Moves operation row (some execution) row' execution') :
    ∃ stored, execution' = some stored ∧ Preserves execution stored := by
  cases hmoves with
  | kept => exact ⟨execution, rfl, .refl _⟩
  | launched hreserved =>
      exact ⟨_, rfl, fun _ => rfl, fun h => by simp [hreserved] at h⟩
  | attached hnone hphase hattached hsettlement hreason hnext =>
      refine ⟨_, rfl, fun h => ?_, fun h => ⟨?_, hsettlement, hreason⟩⟩
      · simp [hnone] at h
      · rw [hnext, if_neg (by simp [h]), h]
  | settled hphase hsettled hattachment =>
      refine ⟨_, rfl, fun _ => hattachment, fun h => ?_⟩
      rw [h] at hphase
      simp at hphase
  | refused hreserved hsettled hattachment =>
      exact ⟨_, rfl, fun _ => hattachment, fun h => by simp [hreserved] at h⟩
  | moved => exact ⟨execution, rfl, .refl _⟩

/-! ## One launch -/

/-- The operation claims the launch of the interaction's execution. -/
def ClaimsLaunch (interaction : InteractionId) :
    ExecutionOperation Value → Bool
  | .claimLaunching target _ _ => target = interaction
  | _ => false

/-- The execution is past its reservation. -/
def Launched (store : ProductStore) (interaction : InteractionId) : Prop :=
  ∃ execution, store.executions.lookup interaction = some execution ∧
    execution.phase ≠ .reserved

theorem phase_of_claimed {interaction : InteractionId}
    (hclaims : ClaimsLaunch interaction operation)
    (hanswers : store.callAnswers json operation) :
    ¬ store.Launched interaction ∧
      (store.afterCall json operation).Launched interaction := by
  cases operation with
  | claimLaunching target origin timestamp =>
      obtain rfl : target = interaction := by simpa [ClaimsLaunch] using hclaims
      cases hcall : store.call json (.claimLaunching target origin timestamp) with
      | error error => simp [callAnswers, hcall] at hanswers
      | ok result =>
          obtain ⟨changed, store'⟩ := result
          have hchanged : changed = true := by
            simpa [callAnswers, hcall] using hanswers
          rcases claimCompletionExecutionLaunching_ok hcall with ⟨hfalse, -⟩ |
            ⟨row, -, hrow, hreserved, rfl⟩
          · cases hchanged.symm.trans hfalse
          · constructor
            · rintro ⟨execution, hexecution, hlaunched⟩
              obtain rfl : row = execution :=
                Option.some.inj (hrow.symm.trans hexecution)
              exact hlaunched hreserved
            · simp [Launched, afterCall, hcall]
  | _ => simp [ClaimsLaunch] at hclaims

theorem launched_of_moves {row row' : Option InteractionRow}
    {execution : ExecutionRow} {execution' : Option ExecutionRow}
    (hmoves : Moves operation row (some execution) row' execution')
    (hphase : execution.phase ≠ .reserved) :
    ∃ stored, execution' = some stored ∧ stored.phase ≠ .reserved := by
  cases hmoves with
  | kept => exact ⟨execution, rfl, hphase⟩
  | launched => exact ⟨_, rfl, by simp⟩
  | attached hnone hreserved hattached hsettlement hreason hnext =>
      refine ⟨_, rfl, ?_⟩
      rw [hnext]
      split
      · simp
      · exact hphase
  | settled _ hsettled => exact ⟨_, rfl, by simp [hsettled]⟩
  | refused _ hsettled => exact ⟨_, rfl, by simp [hsettled]⟩
  | moved => exact ⟨execution, rfl, hphase⟩

theorem Launched.afterCall {interaction : InteractionId}
    (hlaunched : store.Launched interaction) (hagree : store.Agreement)
    (operation : ExecutionOperation Value) :
    (store.afterCall json operation).Launched interaction := by
  obtain ⟨execution, hexecution, hphase⟩ := hlaunched
  have hmoves := @moves_afterCall _ json _ operation hagree
    interaction
  rw [hexecution] at hmoves
  exact launched_of_moves hmoves hphase

/-! ## Whole runs -/

/-- A step of a run which answers that it claimed the interaction's launch. -/
def claimedLaunch (json : JsonLibrary Value) (interaction : InteractionId)
    (step : ProductStore × ExecutionOperation Value) : Bool :=
  ClaimsLaunch interaction step.2 && step.1.callAnswers json step.2

end ProductStore

open ProductStore

theorem invariants_of_reachable {store : ProductStore}
    (hreach : (executionSystem json).Reachable store) :
    store.Agreement ∧ store.OneAttempt := by
  refine hreach.invariant
    (P := fun store => store.Agreement ∧ store.OneAttempt) ?_ ?_
  · rintro store ⟨hempty, hone⟩
    refine ⟨?_, hone⟩
    intro interaction execution hexecution
    simp [hempty] at hexecution
  · rintro store operation store' - ⟨hagree, hone⟩ rfl
    exact ⟨hagree.afterCall operation, hone.afterCall operation⟩

theorem claimedLaunch_le_one
    {steps : List (ProductStore × ExecutionOperation Value)}
    {store : ProductStore} (htrace : (executionSystem json).Trace steps store)
    (interaction : InteractionId) :
    steps.countP (claimedLaunch json interaction) ≤ 1 ∧
      (steps.countP (claimedLaunch json interaction) = 1 →
        store.Launched interaction) := by
  induction htrace with
  | init => simp
  | @step steps store store' operation hprefix hstep ih =>
      obtain rfl : store' = store.afterCall json operation := hstep
      obtain ⟨hle, hlaunched⟩ := ih
      have hagree := (invariants_of_reachable hprefix.reachable).1
      rw [List.countP_append]
      by_cases hclaimed : claimedLaunch json interaction (store, operation)
      · have hboth : ClaimsLaunch interaction operation = true ∧
            store.callAnswers json operation = true := by
          simpa [claimedLaunch] using hclaimed
        obtain ⟨hbefore, hafter⟩ := phase_of_claimed hboth.1 hboth.2
        have hzero : steps.countP (claimedLaunch json interaction) = 0 := by
          by_contra hne
          exact hbefore (hlaunched (by omega))
        simp [hclaimed, hzero, hafter]
      · simp only [List.countP_singleton, hclaimed]
        exact ⟨by simpa using hle, fun hone =>
          (hlaunched (by simpa using hone)).afterCall hagree operation⟩

theorem preserves_of_trace
    {steps : List (ProductStore × ExecutionOperation Value)}
    {store : ProductStore} (htrace : (executionSystem json).Trace steps store)
    {visited : ProductStore × ExecutionOperation Value}
    (hvisited : visited ∈ steps) {interaction : InteractionId}
    {execution : ExecutionRow}
    (hexecution : visited.1.executions.lookup interaction = some execution) :
    ∃ stored, store.executions.lookup interaction = some stored ∧
      Preserves execution stored := by
  induction htrace with
  | init => simp at hvisited
  | @step steps store store' operation hprefix hstep ih =>
      obtain rfl : store' = store.afterCall json operation := hstep
      have hagree := (invariants_of_reachable hprefix.reachable).1
      have hmoves := @moves_afterCall _ json _ operation
        hagree interaction
      have hbefore : ∃ stored,
          store.executions.lookup interaction = some stored ∧
            Preserves execution stored := by
        rcases List.mem_append.mp hvisited with hold | hnew
        · exact ih hold
        · rw [List.mem_singleton.mp hnew] at hexecution
          exact ⟨execution, hexecution, .refl _⟩
      obtain ⟨stored, hstored, hpreserves⟩ := hbefore
      rw [hstored] at hmoves
      obtain ⟨stored', hstored', hpreserves'⟩ := preserves_of_moves hmoves
      exact ⟨stored', hstored', hpreserves.trans hpreserves'⟩

/-- What is promised of one interaction along a run of the execution
operations. -/
structure SettlesOnce (json : JsonLibrary Value)
    (steps : List (ProductStore × ExecutionOperation Value))
    (store : ProductStore) (interaction : InteractionId) : Prop where
  /-- Every step advances the phase. -/
  advances : ∀ visited ∈ steps,
    PhaseAdvances visited.2 (visited.1.phaseOf interaction)
      ((visited.1.afterCall json visited.2).phaseOf interaction)
  /-- At most one claim of a launch answered `true`. -/
  launchedOnce : steps.countP (claimedLaunch json interaction) ≤ 1
  /-- Attachment, settlement and safe reason stay as they were written. -/
  writtenOnce : ∀ visited ∈ steps, ∀ execution,
    visited.1.executions.lookup interaction = some execution →
    ∃ stored, store.executions.lookup interaction = some stored ∧
      Preserves execution stored
  /-- An execution is settled with an output exactly when its interaction is
  accepted with that output. -/
  accepted : ∀ execution,
    store.executions.lookup interaction = some execution →
    ∃ row, store.interactions interaction = some row ∧
      ∀ output, execution.phase = .settled ∧
          execution.settlementJson = some output ↔
        row.completionStatus = .accepted ∧
          row.completionOutputJson = some output
  /-- An execution settled with a safe reason belongs to a failed or stopped
  interaction without output. -/
  failed : ∀ execution reason,
    store.executions.lookup interaction = some execution →
    execution.safeReason = some reason →
    ∃ row, store.interactions interaction = some row ∧
      (row.completionStatus = .failed ∨ row.completionStatus = .stopped) ∧
      row.completionOutputJson = none
  /-- A call that answers `false` or fails changes nothing, but for the icon an
  acceptance found complete may commit. -/
  refused : ∀ operation : ExecutionOperation Value,
    store.callAnswers json operation = false →
    SameButIcons store (store.afterCall json operation) ∧
      ((∀ completion origin timestamp,
          operation ≠ .finalizeAccepted completion origin timestamp) →
        store.afterCall json operation = store)
  /-- A call that fails changes nothing. -/
  unchanged : ∀ (operation : ExecutionOperation Value) (error : StorageError),
    store.call json operation = .error error →
    store.afterCall json operation = store
  /-- A call made again changes nothing. -/
  repeated : ∀ operation : ExecutionOperation Value,
    (store.afterCall json operation).afterCall json operation =
      store.afterCall json operation

/-- Along every run, and for every interaction: the execution settles once and
agrees with the product's row. -/
theorem settlesOnce
    {steps : List (ProductStore × ExecutionOperation Value)}
    {store : ProductStore} (htrace : (executionSystem json).Trace steps store)
    (interaction : InteractionId) :
    SettlesOnce json steps store interaction := by
  obtain ⟨hagree, hone⟩ := invariants_of_reachable htrace.reachable
  have hsteps : ∀ visited ∈ steps, visited.1.Agreement := by
    clear hagree hone
    induction htrace with
    | init => simp
    | @step steps store store' operation hprefix hstep ih =>
        intro visited hvisited
        rcases List.mem_append.mp hvisited with hold | hnew
        · exact ih visited hold
        · rw [List.mem_singleton.mp hnew]
          exact (invariants_of_reachable hprefix.reachable).1
  constructor
  case advances =>
    intro visited hvisited
    exact phaseAdvances_of_moves
      (moves_afterCall (hsteps visited hvisited) interaction)
  case launchedOnce => exact (claimedLaunch_le_one htrace interaction).1
  case writtenOnce =>
    intro visited hvisited execution hexecution
    exact preserves_of_trace htrace hvisited hexecution
  case accepted =>
    intro execution hexecution
    obtain ⟨row, hrow, hagrees⟩ := hagree interaction execution hexecution
    refine ⟨row, hrow, fun output => ⟨?_, ?_⟩⟩
    · rintro ⟨hsettled, hsettlement⟩
      rcases hagrees.settled hsettled with ⟨-, -, haccepted, houtput⟩ | ⟨hnone, -⟩
      · exact ⟨haccepted, houtput.trans hsettlement⟩
      · cases hnone.symm.trans hsettlement
    · rintro ⟨haccepted, houtput⟩
      have hsettled : execution.phase = .settled := by
        by_contra hopen
        exact (hagrees.unsettled hopen).2.2 haccepted
      rcases hagrees.settled hsettled with ⟨-, -, -, hsame⟩ | ⟨-, -, hended, -⟩
      · exact ⟨hsettled, hsame ▸ houtput⟩
      · simp [haccepted] at hended
  case failed =>
    intro execution reason hexecution hreason
    obtain ⟨row, hrow, hagrees⟩ := hagree interaction execution hexecution
    have hsettled : execution.phase = .settled := by
      by_contra hopen
      cases (hagrees.unsettled hopen).2.1.symm.trans hreason
    rcases hagrees.settled hsettled with ⟨-, hnone, -⟩ | ⟨-, -, hended, houtput⟩
    · cases hnone.symm.trans hreason
    · exact ⟨row, hrow, hended, houtput⟩
  case refused =>
    intro operation hfalse
    cases hcall : store.call json operation with
    | error error => simp [ProductStore.afterCall, hcall, SameButIcons]
    | ok result =>
        obtain ⟨changed, store'⟩ := result
        obtain rfl : changed = false := by
          simpa [callAnswers, hcall] using hfalse
        simpa [ProductStore.afterCall, hcall] using call_false hone hcall
  case unchanged =>
    intro operation error hcall
    simp [ProductStore.afterCall, hcall]
  case repeated =>
    intro operation
    exact afterCall_afterCall operation

/-! ## A child whose launch was refused -/

namespace ExecutionSample

/-- Documents which are their own text, and propose it as an icon. -/
def plainText : JsonLibrary String where
  encode := id
  decode := some
  same stored given := stored = given
  threadIconProposal := some

def thread : ThreadId := ⟨.early 0⟩

def child : InteractionId := ⟨.early 1⟩

/-- An agent's child, submitted and durably bound. -/
def bound : ProductStore where
  threads _ :=
    some
      { archivedAt := none
        icon := none
        iconSelectionEligible := true
        surface := "conversation"
        conversationImportId := none }
  interactions interaction :=
    if interaction = child then
      some
        { threadId := thread
          completionStatus := .submitted
          graphNodeId := some 41
          harnessConfigurationName := some "codex-basic"
          harnessConfigurationDigest := some "sha256:config"
          effectiveExecutionDigest := some "sha256:model"
          effectivePermissionReceiptJson := some "{}"
          completionOutputJson := none
          completionError := none }
    else
      none
  executions := ∅
  actionInvocations :=
    [{ resultInteractionId := child
       authoritative := true
       agentInvoked := true
       preparedGraphNodeId := some 41
       graphFailurePending := false }]
  attempts := []
  stopRequests _ := none
  nodeRuns _ := none
  capacityWaits _ := false

def reserve : ExecutionOperation String :=
  .reserve
    { interactionId := child
      graphCompletionId := 41
      harnessConfigurationName := "codex-basic"
      harnessConfigurationDigest := "sha256:config"
      modelExecutionDigest := "sha256:model"
      permissionOriginDigest := "sha256:origin" } "1"

def refuse : ExecutionOperation String :=
  .failUnlaunched child 41 "codex-basic" "The launch was refused." false false
    "2"

def reserved : ProductStore := bound.afterCall plainText reserve

def claim : ExecutionOperation String := .claimLaunching child "sha256:origin" "2"

def launching : ProductStore := reserved.afterCall plainText claim

def restart : ExecutionOperation String :=
  .reconcileOnRestart child "sha256:origin" (.accepted "rocket") "3"

def reconciled : ProductStore := launching.afterCall plainText restart

/-- The acceptance which finds everything done by the restart. -/
def accept : ExecutionOperation String :=
  .finalizeAccepted
    { interactionId := child
      graphNodeId := 41
      harnessConfigurationName := "codex-basic"
      harnessConfigurationDigest := "sha256:config"
      effectiveExecutionDigest := "sha256:model"
      effectivePermissionReceipt := "{}"
      output := "rocket" } "sha256:origin" "4"

theorem trace :
    (executionSystem plainText).Trace [(bound, reserve), (reserved, refuse)]
      (reserved.afterCall plainText refuse) :=
  have hstart : (executionSystem plainText).Trace [] bound :=
    .init ⟨rfl, fun _ => Nat.zero_le 1⟩
  .step (.step hstart rfl) rfl

end ExecutionSample

/-- Failing a child no launch owns settles its reserved execution, which never
was launching; and an acceptance that answers `false`, because a restart did
everything before it, still commits the thread's icon. -/
theorem refusedLaunch_settles_reserved :
    (¬ ∀ (steps : List (ProductStore × ExecutionOperation String))
        (store : ProductStore),
      (executionSystem ExecutionSample.plainText).Trace steps store →
      ∀ visited ∈ steps, ∀ interaction,
        PhaseInOrder (visited.1.phaseOf interaction)
          ((visited.1.afterCall ExecutionSample.plainText visited.2).phaseOf
            interaction)) ∧
    ¬ ∀ (store : ProductStore) (operation : ExecutionOperation String),
      (executionSystem ExecutionSample.plainText).Reachable store →
      store.callAnswers ExecutionSample.plainText operation = false →
      store.afterCall ExecutionSample.plainText operation = store := by
  constructor
  · intro hordered
    have hlast := hordered _ _ ExecutionSample.trace
      (ExecutionSample.reserved, ExecutionSample.refuse) (by simp)
      ExecutionSample.child
    have hbefore : ExecutionSample.reserved.phaseOf ExecutionSample.child =
        some .reserved := by decide
    have hafter : (ExecutionSample.reserved.afterCall ExecutionSample.plainText
        ExecutionSample.refuse).phaseOf ExecutionSample.child =
          some .settled := by decide
    rw [hbefore, hafter] at hlast
    cases hlast
  · intro hunchanged
    have hstart : (executionSystem ExecutionSample.plainText).Reachable
        ExecutionSample.bound := .init ⟨rfl, fun _ => Nat.zero_le 1⟩
    have hreach : (executionSystem ExecutionSample.plainText).Reachable
        ExecutionSample.reconciled :=
      .step (l := ExecutionSample.restart)
        (.step (l := ExecutionSample.claim)
          (.step (l := ExecutionSample.reserve) hstart rfl) rfl) rfl
    have hsame := hunchanged ExecutionSample.reconciled ExecutionSample.accept
      hreach (by decide)
    have hicon :
        ((ExecutionSample.reconciled.afterCall ExecutionSample.plainText
            ExecutionSample.accept).threads ExecutionSample.thread).bind
          ThreadRow.icon = some "rocket" ∧
        (ExecutionSample.reconciled.threads ExecutionSample.thread).bind
          ThreadRow.icon = none := by
      decide
    rw [hsame] at hicon
    cases hicon.1.symm.trans hicon.2

theorem settlesOnce_refusedLaunch :
    SettlesOnce ExecutionSample.plainText
      [(ExecutionSample.bound, ExecutionSample.reserve),
        (ExecutionSample.reserved, ExecutionSample.refuse)]
      (ExecutionSample.reserved.afterCall ExecutionSample.plainText
        ExecutionSample.refuse)
      ExecutionSample.child :=
  settlesOnce ExecutionSample.trace ExecutionSample.child

end RelayerGraph
