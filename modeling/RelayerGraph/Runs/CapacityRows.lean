import RelayerGraph.Product.ExecutionMoves
import RelayerGraph.Runs.Capacity

/-!
# The rows of runs that wait for capacity

What the statements of the store and the moves of others keep: a row that
waits for capacity carries no pending Stop, and the row of a run on the live
wait waits, was claimed back, or was stopped.
-/

namespace RelayerGraph

open Foundation Checked

namespace ProductStore

variable {store store' : ProductStore} {run other : InteractionId}

/-- No run that waits for capacity carries a pending Stop. -/
def UnstoppedWaits (store : ProductStore) : Prop :=
  ∀ run, store.waitsForCapacity run → ¬ store.stopPending run

/-- The row of a run on the live wait. -/
def Waits (store : ProductStore) (run : InteractionId) : Prop :=
  ∃ row, store.interactions run = some row ∧
    ((row.completionStatus = .queued ∧ store.capacityWaits run = true) ∨
      row.completionStatus = .submitted ∨ row.completionStatus = .stopped)

/-- The run was stopped: its row is, or it carries a pending Stop before its
start. -/
def WasStopped (store : ProductStore) (run : InteractionId) : Prop :=
  ∃ row, store.interactions run = some row ∧
    (row.completionStatus = .stopped ∨
      (row.completionStatus = .submitted ∧ store.stopPending run = true))

theorem waitsForCapacity_iff : store.waitsForCapacity run = true ↔
    ∃ row, store.interactions run = some row ∧
      row.completionStatus = .queued ∧ store.capacityWaits run = true := by
  unfold waitsForCapacity
  cases store.interactions run <;> simp

theorem SameRun.waits (h : store.SameRun store' run) (hwaits : store.Waits run) :
    store'.Waits run := by
  unfold Waits
  rwa [h.1, h.2.2]

theorem SameRun.waitsForCapacity (h : store.SameRun store' run) :
    store'.waitsForCapacity run = store.waitsForCapacity run := by
  rw [ProductStore.waitsForCapacity, ProductStore.waitsForCapacity, h.1, h.2.2]

theorem SameRun.stopPending (h : store.SameRun store' run) :
    store'.stopPending run = store.stopPending run := by
  rw [ProductStore.stopPending, ProductStore.stopPending, h.2.1]

/-- The row a statement changes is the only one it changes. -/
theorem updateInteraction_other {condition : InteractionRow → Bool}
    {change : InteractionRow → InteractionRow}
    (h : store.updateInteraction run condition change = .ok (some store'))
    (hother : other ≠ run) :
    store.SameRun store' other := by
  obtain ⟨row, -, -, rfl⟩ := updateInteraction_some h
  exact ⟨Function.update_of_ne hother _ _, rfl, rfl⟩

/-! ## What each statement does to a run -/

/-- A run's columns after a step, when they differ from those before. -/
structure Rewritten (store store' : ProductStore) (run : InteractionId)
    (P : CompletionStatus → CompletionStatus → Prop) : Prop where
  others : ∀ other, other ≠ run → store.SameRun store' other
  row : ∃ row row', store.interactions run = some row ∧
    store'.interactions run = some row' ∧
    P row.completionStatus row'.completionStatus

theorem queueRunForCapacity_ok {queued : Bool}
    (h : store.queueRunForCapacity run = .ok (queued, store')) :
    (queued = false ∧ store' = store) ∨
      (queued = true ∧ store.stopPending run = false ∧
        store'.capacityWaits run = true ∧
        store'.stopRequests run = store.stopRequests run ∧
        store.Rewritten store' run fun before after =>
          before = .submitted ∧ after = .queued) := by
  simp only [queueRunForCapacity, bind_eq_ok_iff] at h
  obtain ⟨updated, hupdated, h⟩ := h
  cases updated with
  | none =>
      simp only [pure_eq_ok_iff, Prod.mk.injEq] at h
      exact .inl ⟨h.1.symm, h.2.symm⟩
  | some middle =>
      simp only [pure_eq_ok_iff, Prod.mk.injEq] at h
      obtain ⟨hqueued, rfl⟩ := h
      obtain ⟨row, hrow, hcondition, rfl⟩ := updateInteraction_some hupdated
      simp only [decide_eq_true_eq] at hcondition
      refine .inr ⟨hqueued.symm, by simpa using hcondition.2.1, by simp, rfl,
        ?_, ?_⟩
      · intro other hother
        exact ⟨Function.update_of_ne hother _ _, rfl,
          Function.update_of_ne hother _ _⟩
      · exact ⟨row, _, hrow, Function.update_self _ _ _, hcondition.1, rfl⟩

theorem claimCapacityRun_ok {claimed : Bool}
    (h : store.claimCapacityRun run = .ok (claimed, store')) :
    store'.capacityWaits run = false ∧
      store'.stopRequests run = store.stopRequests run ∧
      ((claimed = false ∧ store.waitsForCapacity run = false ∧
          store'.interactions run = store.interactions run ∧
          ∀ other, other ≠ run → store.SameRun store' other) ∨
        (claimed = true ∧ store.waitsForCapacity run = true ∧
          store.Rewritten store' run fun before after =>
            before = .queued ∧ after = .submitted)) := by
  simp only [claimCapacityRun, bind_eq_ok_iff, pure_eq_ok_iff,
    Prod.mk.injEq] at h
  obtain ⟨updated, hupdated, hclaimed, rfl⟩ := h
  cases updated with
  | none =>
      refine ⟨by simp, rfl, .inl ⟨by simpa using hclaimed.symm, ?_, rfl, ?_⟩⟩
      · rw [← Bool.not_eq_true, waitsForCapacity_iff]
        rintro ⟨row, hrow, hqueued, hwaits⟩
        have hfalse := updateInteraction_none hupdated hrow
        simp [hqueued, hwaits] at hfalse
      · intro other hother
        exact ⟨rfl, rfl, Function.update_of_ne hother _ _⟩
  | some middle =>
      obtain ⟨row, hrow, hcondition, rfl⟩ := updateInteraction_some hupdated
      simp only [decide_eq_true_eq] at hcondition
      refine ⟨by simp, rfl, .inr ⟨by simpa using hclaimed.symm, ?_, ?_, ?_⟩⟩
      · exact waitsForCapacity_iff.mpr ⟨row, hrow, hcondition⟩
      · intro other hother
        exact ⟨Function.update_of_ne hother _ _, rfl,
          Function.update_of_ne hother _ _⟩
      · exact ⟨row, _, hrow, Function.update_self _ _ _, hcondition.1, rfl⟩

theorem stopUnstartedRun_ok {stopped : Bool}
    (h : store.stopUnstartedRun run = .ok (stopped, store')) :
    store' = store ∨
      store'.stopRequests = store.stopRequests ∧
        store'.capacityWaits = store.capacityWaits ∧
        store.Rewritten store' run fun before after =>
          before = .submitted ∧ after = .stopped := by
  rcases affected_ok h with ⟨-, hstore⟩ | ⟨row, -, hrow, hcondition, rfl⟩
  · exact .inl hstore
  · simp only [decide_eq_true_eq] at hcondition
    refine .inr ⟨rfl, rfl, ?_, ?_⟩
    · intro other hother
      exact ⟨Function.update_of_ne hother _ _, rfl, rfl⟩
    · exact ⟨row, _, hrow, Function.update_self _ _ _, hcondition.1, rfl⟩

theorem finishInteractionStopped_ok {timestamp : String}
    (h : store.finishInteractionStopped run timestamp = .ok store') :
    store'.stopRequests = store.stopRequests ∧
      store'.capacityWaits = store.capacityWaits ∧
      store.Rewritten store' run fun before after =>
        before ≠ .queued ∧ after = .stopped := by
  simp only [finishInteractionStopped, bind_eq_ok_iff, orThrow_eq_ok_iff,
    pure_eq_ok_iff] at h
  obtain ⟨updated, hupdated, middle, rfl, rfl⟩ := h
  obtain ⟨row, hrow, hcondition, rfl⟩ := updateInteraction_some hupdated
  refine ⟨rfl, rfl, ?_, row, _, hrow, Function.update_self _ _ _, ?_, rfl⟩
  · intro other hother
    exact ⟨Function.update_of_ne hother _ _, rfl, rfl⟩
  · intro hqueued
    simp [hqueued] at hcondition

/-- A Stop takes a queued run out of the queue; any other it only marks. -/
theorem requestInteractionStop_ok {thread : ThreadId} {outcome : QueuedStop}
    (h : store.requestInteractionStop run thread = .ok (outcome, store')) :
    (∀ other, other ≠ run → store.SameRun store' other) ∧
      ∃ row, store.interactions run = some row ∧
        ((row.completionStatus ≠ .queued ∧
            store'.interactions run = store.interactions run ∧
            store'.capacityWaits run = store.capacityWaits run) ∨
          (row.completionStatus = .queued ∧
            ∃ row', store'.interactions run = some row' ∧
              (row'.completionStatus = .stopped ∨
                (row'.completionStatus = .submitted ∧
                  store'.stopPending run = true)))) := by
  unfold requestInteractionStop at h
  split at h
  · simp at h
  rename_i row hrow
  simp only [bind_eq_ok_iff] at h
  obtain ⟨⟨⟩, -, h⟩ := h
  split at h
  · rename_i hqueued
    split at h
    · simp only [bind_eq_ok_iff, pure_eq_ok_iff, Prod.mk.injEq] at h
      obtain ⟨updated, hupdated, -, rfl⟩ := h
      cases updated with
      | none =>
          have hfalse := updateInteraction_none hupdated hrow
          simp [hqueued.2.1] at hfalse
      | some middle =>
          obtain ⟨row₁, hrow₁, -, rfl⟩ := updateInteraction_some hupdated
          refine ⟨fun other hother => ?_, row, hrow, .inr ⟨hqueued.2.1, ?_⟩⟩
          · simp [SameRun, withStopRequest, withoutCapacityWait, hother]
          · refine ⟨_, Function.update_self _ _ _, .inr ⟨rfl, ?_⟩⟩
            simp [stopPending, withStopRequest]
    · simp only [bind_eq_ok_iff, pure_eq_ok_iff, Prod.mk.injEq] at h
      obtain ⟨updated, hupdated, -, rfl⟩ := h
      cases updated with
      | none =>
          have hfalse := updateInteraction_none hupdated hrow
          simp [hqueued.2.1] at hfalse
      | some middle =>
          obtain ⟨row₁, hrow₁, -, rfl⟩ := updateInteraction_some hupdated
          refine ⟨fun other hother => ?_, row, hrow, .inr ⟨hqueued.2.1, ?_⟩⟩
          · simp [SameRun, withoutCapacityWait, hother]
          · exact ⟨_, Function.update_self _ _ _, .inl rfl⟩
  · split at h
    · rename_i hactive
      simp only [pure_eq_ok_iff, Prod.mk.injEq] at h
      obtain ⟨-, rfl⟩ := h
      refine ⟨fun other hother => ?_, row, hrow, .inl ⟨?_, rfl, rfl⟩⟩
      · simp [SameRun, withStopRequest, hother]
      · intro hqueued
        simp [hqueued] at hactive
    · simp only [bind_eq_ok_iff, require_eq_ok_iff, pure_eq_ok_iff,
        Prod.mk.injEq] at h
      obtain ⟨⟨⟩, hended, -, rfl⟩ := h
      refine ⟨fun other _ => ⟨rfl, rfl, rfl⟩, row, hrow, .inl ⟨?_, rfl, rfl⟩⟩
      intro hqueued
      simp [hqueued] at hended

/-! ## What others do to a run -/

/-- A Stop of a run marks it, or ends it. -/
inductive StopMoves (store store' : ProductStore) (run : InteractionId) : Prop
  | marked :
      store'.interactions run = store.interactions run →
      store'.capacityWaits run = store.capacityWaits run →
      ((∀ row, store.interactions run = some row →
          row.completionStatus ≠ .queued) ∨
        store'.stopPending run = false) →
      StopMoves store store' run
  | ended (row' : InteractionRow) :
      store'.interactions run = some row' →
      (row'.completionStatus = .stopped ∨
        (row'.completionStatus = .submitted ∧ store'.stopPending run = true)) →
      StopMoves store store' run

/-- Others leave a run as it is, stop it, or, when it is not held, do anything
but put it into the wait for capacity. -/
theorem runMoves_cases {held : List InteractionId}
    (hmove : RunMoves held store store') (run : InteractionId) :
    store.SameRun store' run ∨ StopMoves store store' run ∨
      (run ∉ held ∧ store'.waitsForCapacity run = false) := by
  have hsame : store' = store → store.SameRun store' run := by
    rintro rfl
    exact ⟨rfl, rfl, rfl⟩
  cases hmove with
  | @stop _ thread target outcome h =>
      obtain ⟨hothers, row, hrow, hcases⟩ := requestInteractionStop_ok h
      by_cases htarget : run = target
      · subst htarget
        rcases hcases with ⟨hqueued, hinteractions, hwaits⟩ | ⟨-, row', hrow', hend⟩
        · refine .inr (.inl (.marked hinteractions hwaits (.inl ?_)))
          intro row₁ hrow₁
          obtain rfl : row = row₁ := Option.some.inj (hrow.symm.trans hrow₁)
          exact hqueued
        · exact .inr (.inl (.ended row' hrow' hend))
      · exact .inl (hothers run htarget)
  | stopFailed target error =>
      by_cases htarget : run = target
      · subst htarget
        refine .inr (.inl (.marked rfl rfl (.inr ?_)))
        simp only [stopPending, recordStopError, Function.update_self]
        cases store.stopRequests run <;> simp
      · exact .inl ⟨rfl, Function.update_of_ne htarget _ _, rfl⟩
  | @stopUnstarted _ target stopped h =>
      rcases stopUnstartedRun_ok h with hstore | ⟨-, -, hothers, hrows⟩
      · exact .inl (hsame hstore)
      · by_cases htarget : run = target
        · subst htarget
          obtain ⟨row, row', -, hrow', -, hstopped⟩ := hrows
          exact .inr (.inl (.ended row' hrow' (.inl hstopped)))
        · exact .inl (hothers run htarget)
  | @stopSettled _ target timestamp h =>
      obtain ⟨-, -, hothers, hrows⟩ := finishInteractionStopped_ok h
      by_cases htarget : run = target
      · subst htarget
        obtain ⟨row, row', -, hrow', -, hstopped⟩ := hrows
        exact .inr (.inl (.ended row' hrow' (.inl hstopped)))
      · exact .inl (hothers run htarget)
  | others h =>
      rcases h run with hsame | hother
      · exact .inl hsame
      · exact .inr (.inr hother)

theorem StopMoves.waits (hmove : StopMoves store store' run)
    (hwaits : store.Waits run) : store'.Waits run := by
  cases hmove with
  | marked hinteractions hcapacity _ =>
      unfold Waits
      rwa [hinteractions, hcapacity]
  | ended row' hrow' hend =>
      refine ⟨row', hrow', ?_⟩
      rcases hend with hstopped | ⟨hsubmitted, -⟩
      · exact .inr (.inr hstopped)
      · exact .inr (.inl hsubmitted)

theorem StopMoves.not_waitsForCapacity (hmove : StopMoves store store' run)
    (hwaits : store.waitsForCapacity run = false) :
    store'.waitsForCapacity run = false := by
  rw [← Bool.not_eq_true] at hwaits ⊢
  rw [waitsForCapacity_iff] at hwaits ⊢
  rintro ⟨row, hrow, hqueued, hcapacity⟩
  cases hmove with
  | marked hinteractions hsame _ =>
      exact hwaits ⟨row, hinteractions ▸ hrow, hqueued, hsame ▸ hcapacity⟩
  | ended row' hrow' hend =>
      obtain rfl : row = row' := Option.some.inj (hrow.symm.trans hrow')
      rcases hend with hstopped | ⟨hsubmitted, -⟩
      · cases hqueued.symm.trans hstopped
      · cases hqueued.symm.trans hsubmitted

theorem StopMoves.unstopped (hmove : StopMoves store store' run)
    (hwaits : store'.waitsForCapacity run) : ¬ store'.stopPending run := by
  obtain ⟨row, hrow, hqueued, hcapacity⟩ := waitsForCapacity_iff.mp hwaits
  cases hmove with
  | marked hinteractions hsame hpending =>
      rcases hpending with hnot | hpending
      · exact absurd hqueued (hnot row (hinteractions ▸ hrow))
      · simp [hpending]
  | ended row' hrow' hend =>
      obtain rfl : row = row' := Option.some.inj (hrow.symm.trans hrow')
      rcases hend with hstopped | ⟨hsubmitted, -⟩
      · cases hqueued.symm.trans hstopped
      · cases hqueued.symm.trans hsubmitted

theorem runMoves_unstopped {held : List InteractionId}
    (hmove : RunMoves held store store') (hunstopped : store.UnstoppedWaits) :
    store'.UnstoppedWaits := by
  intro run hwaits
  rcases runMoves_cases hmove run with hsame | hstop | ⟨-, hnot⟩
  · rw [hsame.stopPending]
    exact hunstopped run (hsame.waitsForCapacity ▸ hwaits)
  · exact hstop.unstopped hwaits
  · simp [hnot] at hwaits

theorem runMoves_waits {held : List InteractionId}
    (hmove : RunMoves held store store') (hheld : run ∈ held)
    (hwaits : store.Waits run) : store'.Waits run := by
  rcases runMoves_cases hmove run with hsame | hstop | ⟨hnot, -⟩
  · exact hsame.waits hwaits
  · exact hstop.waits hwaits
  · exact absurd hheld hnot

theorem runMoves_not_waitsForCapacity {held : List InteractionId}
    (hmove : RunMoves held store store')
    (hwaits : store.waitsForCapacity run = false) :
    store'.waitsForCapacity run = false := by
  rcases runMoves_cases hmove run with hsame | hstop | ⟨-, hnot⟩
  · rw [hsame.waitsForCapacity, hwaits]
  · exact hstop.not_waitsForCapacity hwaits
  · exact hnot

/-! ## What the statements keep -/

theorem serve_unstopped {held : List InteractionId} (c : CapacityCall)
    (hunstopped : store.UnstoppedWaits) :
    ((capacityService held).serve c store).2.UnstoppedWaits := by
  cases c with
  | getInteraction target => exact hunstopped
  | queueRunForCapacity target =>
      cases hcall : store.queueRunForCapacity target with
      | error error => simpa [capacityService, served, hcall] using hunstopped
      | ok result =>
          obtain ⟨queued, store'⟩ := result
          simp only [capacityService, served, hcall]
          rcases queueRunForCapacity_ok hcall with ⟨-, rfl⟩ |
            ⟨-, hpending, -, hrequests, hothers, -⟩
          · exact hunstopped
          · intro run hwaits
            by_cases htarget : run = target
            · subst htarget
              rw [stopPending, hrequests]
              simpa [stopPending] using hpending
            · rw [(hothers run htarget).stopPending]
              exact hunstopped run
                ((hothers run htarget).waitsForCapacity ▸ hwaits)
  | claimCapacityRun target =>
      cases hcall : store.claimCapacityRun target with
      | error error => simpa [capacityService, served, hcall] using hunstopped
      | ok result =>
          obtain ⟨claimed, store'⟩ := result
          simp only [capacityService, served, hcall]
          obtain ⟨hcapacity, -, hcases⟩ := claimCapacityRun_ok hcall
          have hothers : ∀ other, other ≠ target → store.SameRun store' other := by
            rcases hcases with ⟨-, -, -, hothers⟩ | ⟨-, -, hothers, -⟩
            · exact hothers
            · exact hothers
          intro run hwaits
          by_cases htarget : run = target
          · subst htarget
            obtain ⟨row, -, -, htrue⟩ := waitsForCapacity_iff.mp hwaits
            cases hcapacity.symm.trans htrue
          · rw [(hothers run htarget).stopPending]
            exact hunstopped run
              ((hothers run htarget).waitsForCapacity ▸ hwaits)

theorem serve_waits {held : List InteractionId} (c : CapacityCall)
    (hwaits : store.Waits run) :
    ((capacityService held).serve c store).2.Waits run := by
  cases c with
  | getInteraction target => exact hwaits
  | queueRunForCapacity target =>
      cases hcall : store.queueRunForCapacity target with
      | error error => simpa [capacityService, served, hcall] using hwaits
      | ok result =>
          obtain ⟨queued, store'⟩ := result
          simp only [capacityService, served, hcall]
          rcases queueRunForCapacity_ok hcall with ⟨-, rfl⟩ |
            ⟨-, -, hcapacity, -, hothers, row, row', -, hrow', -, hqueued⟩
          · exact hwaits
          · by_cases htarget : run = target
            · subst htarget
              exact ⟨row', hrow', .inl ⟨hqueued, hcapacity⟩⟩
            · exact (hothers run htarget).waits hwaits
  | claimCapacityRun target =>
      cases hcall : store.claimCapacityRun target with
      | error error => simpa [capacityService, served, hcall] using hwaits
      | ok result =>
          obtain ⟨claimed, store'⟩ := result
          simp only [capacityService, served, hcall]
          obtain ⟨-, -, hcases⟩ := claimCapacityRun_ok hcall
          rcases hcases with ⟨-, hnot, hinteractions, hothers⟩ |
            ⟨-, -, hothers, row, row', -, hrow', -, hsubmitted⟩
          · by_cases htarget : run = target
            · subst htarget
              obtain ⟨row, hrow, hstatus⟩ := hwaits
              refine ⟨row, hinteractions.trans hrow, .inr ?_⟩
              rcases hstatus with hqueued | hstatus
              · have htrue := waitsForCapacity_iff.mpr ⟨row, hrow, hqueued⟩
                cases hnot.symm.trans htrue
              · exact hstatus
            · exact (hothers run htarget).waits hwaits
          · by_cases htarget : run = target
            · subst htarget
              exact ⟨row', hrow', .inr (.inl hsubmitted)⟩
            · exact (hothers run htarget).waits hwaits

end ProductStore

end RelayerGraph
