import RelayerGraph.Product.ExecutionMoves

/-!
# Refused and repeated calls

A call which answers that it changed nothing leaves the store it found, and a
call repeated in the store it left finds nothing more to do.  One write is
outside this: an acceptance found complete still commits the icon its output
proposes, which a restart that accepted the interaction did not.
-/

namespace RelayerGraph

open Foundation Checked

variable {Value : Type} {json : JsonLibrary Value}

namespace ProductStore

variable {store store' store'' : ProductStore}

/-- At most one attempt of each interaction is running. -/
def OneAttempt (store : ProductStore) : Prop :=
  ∀ interaction, store.attempts.countP (runsAttemptOf interaction) ≤ 1

/-! ## Calls that change nothing -/

/-- Only the icons of threads may differ. -/
def SameButIcons (store store' : ProductStore) : Prop :=
  store' = { store with threads := store'.threads }

theorem SameButIcons.refl (store : ProductStore) : SameButIcons store store :=
  rfl

theorem sameButIcons_commitThreadIcon (interaction : InteractionId)
    (output : Value) :
    SameButIcons store (store.commitThreadIcon json interaction output) := by
  unfold SameButIcons commitThreadIcon
  repeat' split
  all_goals rfl

theorem commitThreadIcon_commitThreadIcon (interaction : InteractionId)
    (output : Value) :
    (store.commitThreadIcon json interaction output).commitThreadIcon json
        interaction output =
      store.commitThreadIcon json interaction output := by
  unfold commitThreadIcon
  cases json.threadIconProposal output with
  | none => rfl
  | some icon =>
      cases hrow : store.interactions interaction with
      | none => simp [hrow]
      | some row =>
          cases hthread : store.threads row.threadId with
          | none => simp [hrow, hthread]
          | some thread =>
              simp only [hthread]
              by_cases heligible : row.completionStatus = .accepted ∧
                  thread.icon.isNone ∧ thread.iconSelectionEligible ∧
                  thread.surface = "conversation" ∧
                  thread.conversationImportId.isNone
              · simp only [if_pos heligible, hrow, Function.update_self]
                rw [if_neg (by simp)]
              · simp only [if_neg heligible, hrow, hthread]

/-- A call which answers `false` leaves the store it found, except that an
acceptance may still commit its thread's icon. -/
theorem call_false {operation : ExecutionOperation Value}
    (hone : store.OneAttempt)
    (h : store.call json operation = .ok (false, store')) :
    SameButIcons store store' ∧
      ((∀ completion origin timestamp,
          operation ≠ .finalizeAccepted completion origin timestamp) →
        store' = store) := by
  have hsame : store' = store → SameButIcons store store' ∧
      ((∀ completion origin timestamp,
          operation ≠ .finalizeAccepted completion origin timestamp) →
        store' = store) := by
    rintro rfl
    exact ⟨.refl _, fun _ => rfl⟩
  cases operation with
  | reserve binding timestamp =>
      simp only [call, map_eq_ok_iff] at h
      obtain ⟨⟨outcome, _⟩, hreserve, hanswer⟩ := h
      rcases reserveCompletionExecution_ok hreserve with
        ⟨existing, rfl, rfl⟩ | ⟨row, execution, rfl, -⟩
      · simp only [reserveAnswer, Prod.mk.injEq] at hanswer
        exact hsame hanswer.2.symm
      · simp [reserveAnswer] at hanswer
  | claimLaunching target origin timestamp =>
      rcases claimCompletionExecutionLaunching_ok h with ⟨-, hstore⟩ |
        ⟨row, hchanged, -⟩
      · exact hsame hstore
      · cases hchanged
  | attach target origin attachment timestamp =>
      rcases attachCompletionExecution_ok h with ⟨-, hstore⟩ |
        ⟨row, hchanged, -⟩
      · exact hsame hstore
      · cases hchanged
  | finalizeAccepted completion origin timestamp =>
      obtain ⟨existing, executionChanged, settledStore, -, hstage, hproduct⟩ :=
        finalizeCompletionExecutionAccepted_ok h
      rcases hproduct with ⟨row, hchanged, -⟩ | ⟨rfl, -, rfl⟩
      · cases hchanged
      · rcases hstage with ⟨-, rfl, -⟩ | ⟨hchanged, -⟩
        · exact ⟨sameButIcons_commitThreadIcon _ _,
            fun hnot => absurd rfl (hnot _ _ _)⟩
        · cases hchanged
  | finalizeFailed target origin harness reason timestamp =>
      obtain ⟨existing, executionChanged, settledStore, -, hstage, hproduct⟩ :=
        finalizeCompletionExecutionFailed_ok h
      rcases hproduct with ⟨row, hchanged, -⟩ | ⟨rfl, rfl, -⟩
      · cases hchanged
      · rcases hstage with ⟨-, hstore, -⟩ | ⟨hchanged, -⟩
        · exact hsame hstore
        · cases hchanged
  | failUnlaunched target graphCompletionId harness reason interrupted
      graphPending timestamp =>
      rcases failUnlaunchedRecursiveChild_ok h with ⟨-, hstore⟩ |
        ⟨row, row', hchanged, -⟩
      · exact hsame hstore
      · cases hchanged
  | reconcileOnRestart target origin settlement timestamp =>
      rcases reconcileCompletionExecutionOnRestart_ok h with ⟨-, hstore⟩ |
        ⟨existing, settled, hchanged, -⟩
      · exact hsame hstore
      · cases hchanged
  | endAttempt target timestamp =>
      rcases endCompletionExecutionAttempt_ok h with ⟨-, hstore⟩ |
        ⟨attempts, rfl, hcount, -, hnone⟩
      · exact hsame hstore
      · have hzero : store.attempts.countP (runsAttemptOf target) = 0 := by
          have hle := hone target
          have hne : store.attempts.countP (runsAttemptOf target) ≠ 1 :=
            fun heq => by cases hcount.mpr heq
          omega
        refine hsame ?_
        rw [hnone hzero]
  | claimRunning target harness =>
      rcases affected_ok h with ⟨-, hstore⟩ | ⟨row, hchanged, -⟩
      · exact hsame hstore
      · cases hchanged
  | requestApproval target =>
      simp only [call, requestApproval, bind_eq_ok_iff] at h
      obtain ⟨row, hrow, h⟩ := h
      split at h
      · rcases affected_ok h with ⟨-, hstore⟩ | ⟨row, hchanged, -⟩
        · exact hsame hstore
        · cases hchanged
      · simp only [bind_eq_ok_iff, pure_eq_ok_iff, Prod.mk.injEq] at h
        obtain ⟨⟨⟩, -, -, hstore⟩ := h
        exact hsame hstore.symm
  | cancelApproval target othersOpen =>
      simp only [call, cancelApproval] at h
      split at h
      · rcases affected_ok h with ⟨-, hstore⟩ | ⟨row, hchanged, -⟩
        · exact hsame hstore
        · cases hchanged
      · split at h
        · rcases affected_ok h with ⟨-, hstore⟩ | ⟨row, hchanged, -⟩
          · exact hsame hstore
          · cases hchanged
        · rcases affected_ok h with ⟨-, hstore⟩ | ⟨row, hchanged, -⟩
          · exact hsame hstore
          · cases hchanged

/-! ## Calls made twice -/

/-- An update repeated in the store it left finds no row to affect, when its
change falsifies its condition. -/
theorem affected_again {target : InteractionId}
    {condition : InteractionRow → Bool}
    {change : InteractionRow → InteractionRow} {changed changed' : Bool}
    (honce : ∀ row, condition row = true → condition (change row) = false)
    (h : store.affected <$> store.updateInteraction target condition change =
      .ok (changed, store'))
    (h' : store'.affected <$> store'.updateInteraction target condition change =
      .ok (changed', store'')) : store'' = store' := by
  rcases affected_ok h with ⟨-, rfl⟩ | ⟨row, -, hrow, hcondition, rfl⟩
  · rw [h, Except.ok.injEq, Prod.mk.injEq] at h'
    exact h'.2.symm
  · rcases affected_ok h' with ⟨-, hstore⟩ | ⟨row', -, hrow', hcondition', -⟩
    · exact hstore
    · simp only [Function.update_self, Option.some.injEq] at hrow'
      subst hrow'
      exact absurd hcondition' (by simp [honce row hcondition])

theorem ended_of_finalizeAccepted
    {completion : AcceptedInteractionCompletion Value}
    {origin timestamp : String} {changed : Bool}
    (h : store.finalizeCompletionExecutionAccepted json completion origin
      timestamp = .ok (changed, store')) :
    (∃ execution,
        store'.executions.lookup completion.interactionId = some execution ∧
          execution.phase = .settled) ∧
      (∃ row, store'.interactions completion.interactionId = some row ∧
        row.completionStatus = .accepted) ∧
      store'.commitThreadIcon json completion.interactionId completion.output =
        store' := by
  obtain ⟨existing, executionChanged, settledStore, hlookup, hstage, hproduct⟩ :=
    finalizeCompletionExecutionAccepted_ok h
  have hsettled : ∃ execution,
      settledStore.executions.lookup completion.interactionId =
        some execution ∧ execution.phase = .settled := by
    rcases hstage with ⟨-, rfl, hphase⟩ | ⟨-, -, rfl⟩
    · exact ⟨existing, hlookup, hphase⟩
    · exact ⟨_, AList.lookup_insert _, rfl⟩
  have hinteractions : settledStore.interactions = store.interactions := by
    rcases hstage with ⟨-, rfl, -⟩ | ⟨-, -, rfl⟩ <;> rfl
  rcases hproduct with ⟨row, -, hrow, -, rfl⟩ | ⟨-, hresult, rfl⟩
  · refine ⟨by simpa using hsettled, ?_, commitThreadIcon_commitThreadIcon _ _⟩
    simp
  · refine ⟨by simpa using hsettled, ?_, commitThreadIcon_commitThreadIcon _ _⟩
    rw [completionResult, Option.map_eq_some_iff] at hresult
    obtain ⟨row, hrow, hvalues⟩ := hresult
    rw [Prod.mk.injEq] at hvalues
    exact ⟨row, by rw [commitThreadIcon_interactions, hinteractions, hrow],
      hvalues.1⟩

theorem ended_of_finalizeFailed {target : InteractionId}
    {origin harness reason timestamp : String} {changed : Bool}
    (h : store.finalizeCompletionExecutionFailed json target origin harness
      reason timestamp = .ok (changed, store')) :
    (∃ execution, store'.executions.lookup target = some execution ∧
        execution.phase = .settled) ∧
      ∃ row, store'.interactions target = some row ∧
        (row.completionStatus = .failed ∨ row.completionStatus = .stopped) := by
  obtain ⟨existing, executionChanged, settledStore, hlookup, hstage, hproduct⟩ :=
    finalizeCompletionExecutionFailed_ok h
  have hsettled : ∃ execution,
      settledStore.executions.lookup target = some execution ∧
        execution.phase = .settled := by
    rcases hstage with ⟨-, rfl, hphase⟩ | ⟨-, -, rfl⟩
    · exact ⟨existing, hlookup, hphase⟩
    · exact ⟨_, AList.lookup_insert _, rfl⟩
  have hinteractions : settledStore.interactions = store.interactions := by
    rcases hstage with ⟨-, rfl, -⟩ | ⟨-, -, rfl⟩ <;> rfl
  rcases hproduct with ⟨row, -, hrow, -, rfl⟩ | ⟨-, rfl, row, hrow, hended, -⟩
  · exact ⟨hsettled, _, Function.update_self _ _ _, .inl rfl⟩
  · exact ⟨hsettled, row, by rw [hinteractions, hrow], hended⟩

/-- A call made again in the store it left leaves that store. -/
theorem call_again {operation : ExecutionOperation Value}
    {changed changed' : Bool}
    (h : store.call json operation = .ok (changed, store'))
    (h' : store'.call json operation = .ok (changed', store'')) :
    store'' = store' := by
  -- A first call that changed nothing is simply made again.
  have hidle : store' = store → store'' = store' := by
    rintro rfl
    rw [h, Except.ok.injEq, Prod.mk.injEq] at h'
    exact h'.2.symm
  cases operation with
  | reserve binding timestamp =>
      simp only [call, map_eq_ok_iff] at h h'
      obtain ⟨⟨outcome, middle⟩, hfirst, hanswer⟩ := h
      obtain ⟨⟨outcome', final⟩, hsecond, hanswer'⟩ := h'
      obtain rfl : middle = store' := by
        cases outcome <;> simp only [reserveAnswer, Prod.mk.injEq] at hanswer
        · exact hanswer.2
        · exact hanswer.2
      obtain rfl : final = store'' := by
        cases outcome' <;> simp only [reserveAnswer, Prod.mk.injEq] at hanswer'
        · exact hanswer'.2
        · exact hanswer'.2
      rcases reserveCompletionExecution_ok hfirst with
        ⟨_, -, hstore⟩ | ⟨row, execution, -, hrow, hstatus, hnone, rfl⟩
      · exact hidle hstore
      · rcases reserveCompletionExecution_ok hsecond with
          ⟨_, -, hstore⟩ | ⟨_, _, -, -, -, hnone', -⟩
        · exact hstore
        · simp at hnone'
  | claimLaunching target origin timestamp =>
      rcases claimCompletionExecutionLaunching_ok h with ⟨-, hstore⟩ |
        ⟨row, -, hrow, hreserved, rfl⟩
      · exact hidle hstore
      · rcases claimCompletionExecutionLaunching_ok h' with ⟨-, hstore⟩ |
          ⟨row', -, hrow', hreserved', -⟩
        · exact hstore
        · rw [AList.lookup_insert, Option.some.injEq] at hrow'
          subst hrow'
          cases hreserved'
  | attach target origin attachment timestamp =>
      rcases attachCompletionExecution_ok h with ⟨-, hstore⟩ |
        ⟨row, -, hrow, hphase, hnone, rfl⟩
      · exact hidle hstore
      · rcases attachCompletionExecution_ok h' with ⟨-, hstore⟩ |
          ⟨row', -, hrow', -, hnone', -⟩
        · exact hstore
        · rw [AList.lookup_insert, Option.some.injEq] at hrow'
          subst hrow'
          cases hnone'
  | finalizeAccepted completion origin timestamp =>
      obtain ⟨⟨execution, hexecution, hsettled⟩, ⟨row, hrow, haccepted⟩, hicon⟩ :=
        ended_of_finalizeAccepted h
      obtain ⟨existing, _, settledStore, hlookup, hstage, hproduct⟩ :=
        finalizeCompletionExecutionAccepted_ok h'
      obtain rfl : existing = execution :=
        Option.some.inj (hlookup.symm.trans hexecution)
      obtain rfl : settledStore = store' := by
        rcases hstage with ⟨-, hstore, -⟩ | ⟨-, hphase, -⟩
        · exact hstore
        · rw [hsettled] at hphase
          simp at hphase
      rcases hproduct with ⟨row', -, hrow', hstatus, -⟩ | ⟨-, -, hstore⟩
      · obtain rfl : row = row' := Option.some.inj (hrow.symm.trans hrow')
        rw [haccepted] at hstatus
        simp at hstatus
      · exact hstore.trans hicon
  | finalizeFailed target origin harness reason timestamp =>
      obtain ⟨⟨execution, hexecution, hsettled⟩, row, hrow, hended⟩ :=
        ended_of_finalizeFailed h
      obtain ⟨existing, _, settledStore, hlookup, hstage, hproduct⟩ :=
        finalizeCompletionExecutionFailed_ok h'
      obtain rfl : existing = execution :=
        Option.some.inj (hlookup.symm.trans hexecution)
      obtain rfl : settledStore = store' := by
        rcases hstage with ⟨-, hstore, -⟩ | ⟨-, hphase, -⟩
        · exact hstore
        · rw [hsettled] at hphase
          simp at hphase
      rcases hproduct with ⟨row', -, hrow', hstatus, -⟩ | ⟨-, hstore, -⟩
      · obtain rfl : row = row' := Option.some.inj (hrow.symm.trans hrow')
        rcases hended with hended | hended <;>
          simp [hended, unfinished] at hstatus
      · exact hstore
  | failUnlaunched target graphCompletionId harness reason interrupted
      graphPending timestamp =>
      rcases failUnlaunchedRecursiveChild_ok h with ⟨-, hstore⟩ |
        ⟨row, row', -, hrow, -, hfailed, -, -, hrows, -⟩
      · exact hidle hstore
      · rcases failUnlaunchedRecursiveChild_ok h' with ⟨-, hstore⟩ |
          ⟨again, _, -, hagain, hlive, -⟩
        · exact hstore
        · rw [hrows, Function.update_self, Option.some.injEq] at hagain
          subst hagain
          simp [hfailed, unfinished] at hlive
  | reconcileOnRestart target origin settlement timestamp =>
      rcases reconcileCompletionExecutionOnRestart_ok h with ⟨-, hstore⟩ |
        ⟨existing, settled, -, -, -, hsettled, -, -, hexecutions, -⟩
      · exact hidle hstore
      · rcases reconcileCompletionExecutionOnRestart_ok h' with ⟨-, hstore⟩ |
          ⟨again, _, -, hagain, hphase, -⟩
        · exact hstore
        · rw [hexecutions, AList.lookup_insert, Option.some.injEq] at hagain
          subst hagain
          simp [hsettled] at hphase
  | endAttempt target timestamp =>
      rcases endCompletionExecutionAttempt_ok h with ⟨-, hstore⟩ |
        ⟨attempts, rfl, -, hcounts, -⟩
      · exact hidle hstore
      · rcases endCompletionExecutionAttempt_ok h' with ⟨-, hstore⟩ |
          ⟨attempts', rfl, -, -, hnone⟩
        · exact hstore
        · have hzero : attempts.countP (runsAttemptOf target) = 0 := by
            simpa using hcounts target
          rw [hnone hzero]
  | claimRunning target harness =>
      refine affected_again (fun row _ => ?_) h h'
      simp
  | requestApproval target =>
      simp only [call, requestApproval, bind_eq_ok_iff, orThrow_eq_ok_iff]
        at h h'
      obtain ⟨row, hrow, h⟩ := h
      split at h
      · rcases affected_ok h with ⟨-, hstore⟩ | ⟨_, -, -, -, rfl⟩
        · exact hidle hstore
        · obtain ⟨row', hrow', h'⟩ := h'
          simp only [Function.update_self, Option.some.injEq] at hrow'
          subst hrow'
          rw [if_neg (by simp)] at h'
          simp only [bind_eq_ok_iff, pure_eq_ok_iff, Prod.mk.injEq] at h'
          obtain ⟨⟨⟩, -, -, hstore⟩ := h'
          exact hstore.symm
      · simp only [bind_eq_ok_iff, pure_eq_ok_iff, Prod.mk.injEq] at h
        obtain ⟨⟨⟩, -, -, hstore⟩ := h
        exact hidle hstore.symm
  | cancelApproval target othersOpen =>
      simp only [call, cancelApproval] at h h'
      have hinvoked : store'.agentInvoked target = store.agentInvoked target ∧
          store'.stopRequests target = store.stopRequests target := by
        split at h
        · rcases affected_ok h with ⟨-, rfl⟩ | ⟨_, -, -, -, rfl⟩ <;>
            exact ⟨rfl, rfl⟩
        · split at h
          · rcases affected_ok h with ⟨-, rfl⟩ | ⟨_, -, -, -, rfl⟩ <;>
              exact ⟨rfl, rfl⟩
          · rcases affected_ok h with ⟨-, rfl⟩ | ⟨_, -, -, -, rfl⟩ <;>
              exact ⟨rfl, rfl⟩
      rw [hinvoked.1, hinvoked.2] at h'
      by_cases hagent : store.agentInvoked target
      · rw [if_pos hagent] at h h'
        refine affected_again (fun row _ => ?_) h h'
        simp
      · rw [if_neg hagent] at h h'
        by_cases hstop : (store.stopRequests target).isNone
        · rw [if_pos hstop] at h h'
          refine affected_again (fun row _ => ?_) h h'
          simp
        · rw [if_neg hstop] at h h'
          refine affected_again (fun row _ => ?_) h h'
          simp

/-- Repeating a call changes nothing, whatever it answered. -/
theorem afterCall_afterCall (operation : ExecutionOperation Value) :
    (store.afterCall json operation).afterCall json operation =
      store.afterCall json operation := by
  cases hfirst : store.call json operation with
  | error error =>
      have hsame : store.afterCall json operation = store := by
        simp [afterCall, hfirst]
      rw [hsame, hsame]
  | ok result =>
      obtain ⟨changed, store'⟩ := result
      have hstore : store.afterCall json operation = store' := by
        simp [afterCall, hfirst]
      rw [hstore]
      cases hsecond : store'.call json operation with
      | error error => simp [afterCall, hsecond]
      | ok result' =>
          obtain ⟨changed', store''⟩ := result'
          simpa [afterCall, hsecond] using call_again hfirst hsecond

end ProductStore

end RelayerGraph
