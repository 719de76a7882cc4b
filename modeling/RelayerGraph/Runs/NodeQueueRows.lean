import RelayerGraph.Runs.NodeQueueOrder

/-!
# Rows and the node queue agree

When no call reports an error after it took effect, every row that waits behind
its node has a ready waiter, every claim is answered to one caller, and a run
leaves the queue only for its node, by a Stop, or by a request of its own.  A
call that does so breaks this: a claim that took effect unreported loses its
run.
-/

namespace RelayerGraph

open Foundation Checked NodeState ProductStore

/-! ## Rows -/

/-- A wait for capacity is recorded of a queued run some request of which was
told to start. -/
def CapacityRows (mayWait : InteractionId → Prop) (store : ProductStore) : Prop :=
  ∀ run, store.capacityWaits run = true →
    store.waitsForCapacity run = true ∧ mayWait run

/-- A run that was ready still waits, was stopped, or was claimed since. -/
def KeptSince (claims : List InteractionId) (run : InteractionId)
    (s : QueueStore) : Prop :=
  claims.count run ≤ s.claims.count run ∧
    (s.store.queuedBehindNode run = true ∨ run ∈ s.stops ∨
      claims.count run < s.claims.count run)

section Rows

variable {mayWait : InteractionId → Prop} {s s' : QueueStore}
  {store store' : ProductStore} {run other : InteractionId}
  {claims : List InteractionId}

theorem waitsForCapacity_congr
    (hrow : store'.interactions run = store.interactions run)
    (hwaits : store'.capacityWaits run = store.capacityWaits run) :
    store'.waitsForCapacity run = store.waitsForCapacity run := by
  rw [waitsForCapacity, waitsForCapacity, hrow, hwaits]

/-- A Stop records no wait, and keeps one only with its row. -/
theorem requestInteractionStop_capacity {thread : ThreadId}
    {outcome : QueuedStop}
    (h : store.requestInteractionStop run thread = .ok (outcome, store'))
    (hwaits : store'.capacityWaits other = true) :
    store.capacityWaits other = true ∧
      store'.interactions other = store.interactions other := by
  by_cases hother : other = run
  case neg =>
    have hsame := (requestInteractionStop_ok h).1 other hother
    exact ⟨hsame.2.2 ▸ hwaits, hsame.1⟩
  case pos =>
    subst hother
    unfold requestInteractionStop at h
    split at h
    · simp at h
    simp only [bind_eq_ok_iff] at h
    obtain ⟨⟨⟩, -, h⟩ := h
    split at h
    · split at h
      · simp only [bind_eq_ok_iff, pure_eq_ok_iff, Prod.mk.injEq] at h
        obtain ⟨updated, -, -, rfl⟩ := h
        simp [withStopRequest, withoutCapacityWait] at hwaits
      · simp only [bind_eq_ok_iff, pure_eq_ok_iff, Prod.mk.injEq] at h
        obtain ⟨updated, -, -, rfl⟩ := h
        simp [withoutCapacityWait] at hwaits
    · split at h
      · simp only [pure_eq_ok_iff, Prod.mk.injEq] at h
        obtain ⟨-, rfl⟩ := h
        exact ⟨hwaits, rfl⟩
      · simp only [bind_eq_ok_iff, pure_eq_ok_iff, Prod.mk.injEq] at h
        obtain ⟨-, -, -, rfl⟩ := h
        exact ⟨hwaits, rfl⟩

theorem CapacityRows.moves (hmove : NodeMoves mayWait s s')
    (hrows : CapacityRows mayWait s.store) : CapacityRows mayWait s'.store := by
  intro run hwaits
  cases hmove with
  | stop h =>
      obtain ⟨hbefore, hrow⟩ := requestInteractionStop_capacity h hwaits
      obtain ⟨hqueued, hmay⟩ := hrows run hbefore
      exact ⟨(waitsForCapacity_congr hrow (hwaits.trans hbefore.symm)).trans
        hqueued, hmay⟩
  | others h =>
      rcases h run with ⟨hrow, hsame⟩ | ⟨-, -, hnew⟩
      · obtain ⟨hqueued, hmay⟩ := hrows run (hsame ▸ hwaits)
        exact ⟨(waitsForCapacity_congr hrow hsame).trans hqueued, hmay⟩
      · exact hnew hwaits

/-- What queueing answers and leaves. -/
theorem queue_ok {queued : Bool} (h : s.queue run = (.ok queued, s')) :
    (queued = false ∧ s' = s) ∨
      (queued = true ∧ s.store.queuedBehindNode run = false ∧
        s.store.waitsForCapacity run = false ∧
        (∃ row, s'.store.interactions run = some row ∧
          row.completionStatus = .queued) ∧
        s'.store.capacityWaits = s.store.capacityWaits ∧
        (∀ other, other ≠ run →
          s'.store.interactions other = s.store.interactions other) ∧
        s'.claims = s.claims ∧ s'.stops = s.stops.filter (· ≠ run)) := by
  unfold QueueStore.queue at h
  split at h
  · simp at h
  · rename_i after hcall
    obtain ⟨hqueued, rfl⟩ := Prod.mk.inj h
    obtain rfl := Except.ok.inj hqueued
    rcases queueNodeRun_ok hcall with ⟨hfalse, -⟩ |
      ⟨-, hwaits, hothers, row, hrow, hstatus, before, hbefore, hbefore'⟩
    · cases hfalse
    · have hnot : before.completionStatus ≠ .queued := by
        intro hqueued
        simp [hqueued] at hbefore'
      refine .inr ⟨rfl, not_queuedBehindNode hbefore hnot, ?_,
        ⟨row, hrow, hstatus⟩, hwaits, hothers, rfl, rfl⟩
      simp [waitsForCapacity, hbefore, hnot]
  · rename_i after hcall
    obtain ⟨hqueued, rfl⟩ := Prod.mk.inj h
    obtain rfl := Except.ok.inj hqueued
    rcases queueNodeRun_ok hcall with ⟨-, rfl⟩ | ⟨htrue, -⟩
    · exact .inl ⟨rfl, rfl⟩
    · cases htrue

theorem queue_error {error : StorageError}
    (h : s.queue run = (.error error, s')) : s' = s := by
  unfold QueueStore.queue at h
  split at h
  · exact (Prod.mk.inj h).2.symm
  · simp at h
  · simp at h

theorem CapacityRows.queue (hrows : CapacityRows mayWait s.store) :
    CapacityRows mayWait (s.queue run).2.store := by
  cases hqueue : s.queue run with
  | mk answer s' =>
      cases answer with
      | error error => exact queue_error hqueue ▸ hrows
      | ok queued =>
          rcases queue_ok hqueue with ⟨-, rfl⟩ |
            ⟨-, -, hnot, -, hwaits, hothers, -, -⟩
          · exact hrows
          · intro other hother
            have hbefore : s.store.capacityWaits other = true := by
              rwa [← hwaits]
            obtain ⟨hqueued, hmay⟩ := hrows other hbefore
            by_cases hsame : other = run
            · subst hsame
              cases hnot.symm.trans hqueued
            · refine ⟨?_, hmay⟩
              rw [waitsForCapacity_congr (hothers other hsame)
                (congrFun hwaits other)]
              exact hqueued

theorem CapacityRows.claim (hrows : CapacityRows mayWait s.store) :
    CapacityRows mayWait (s.claim run).2.store := by
  unfold QueueStore.claim
  cases hcall : s.store.claimQueuedNodeRun run with
  | error error => exact hrows
  | ok result =>
      obtain ⟨claimed, store'⟩ := result
      obtain ⟨hqueued, -, hwaits, hfalse, hothers⟩ := claimQueuedNodeRun_ok hcall
      have hafter : CapacityRows mayWait store' := by
        intro other hother
        have hbefore : s.store.capacityWaits other = true := by
          rwa [← hwaits]
        obtain ⟨hcapacity, hmay⟩ := hrows other hbefore
        refine ⟨?_, hmay⟩
        by_cases hsame : other = run
        · subst hsame
          cases claimed with
          | false => rwa [hfalse rfl]
          | true =>
              obtain ⟨row, -, -, hnot⟩ := queuedBehindNode_iff.mp hqueued
              cases hnot.symm.trans hbefore
        · rw [waitsForCapacity_congr (hothers other hsame)
            (congrFun hwaits other)]
          exact hcapacity
      cases claimed <;> exact hafter

/-! ## Ready runs -/

theorem KeptSince.moves (hmove : NodeMoves mayWait s s')
    (hkept : KeptSince claims run s) : KeptSince claims run s' := by
  obtain ⟨hle, hkept⟩ := hkept
  cases hmove with
  | @stop target thread outcome store' h =>
      refine ⟨hle, ?_⟩
      rcases hkept with hqueued | hstopped | hclaimed
      · by_cases hafter : store'.queuedBehindNode run = true
        · exact .inl hafter
        · refine .inr (.inl ?_)
          have htarget : run = target := by
            by_contra hother
            have hsame := (requestInteractionStop_ok h).1 run hother
            rw [queuedBehindNode_congr hsame.1 hsame.2.2] at hafter
            exact hafter hqueued
          subst htarget
          simp [QueueStore.stop, hqueued, hafter]
      · refine .inr (.inl ?_)
        simp only [QueueStore.stop]
        split
        · exact List.mem_append_left _ hstopped
        · exact hstopped
      · exact .inr (.inr hclaimed)
  | others h =>
      refine ⟨hle, ?_⟩
      rcases hkept with hqueued | hstopped | hclaimed
      · rcases h run with ⟨hrow, hsame⟩ | ⟨hnot, -⟩
        · refine .inl ?_
          rw [← hqueued]
          exact queuedBehindNode_congr hrow hsame
        · cases hnot.symm.trans hqueued
      · exact .inr (.inl hstopped)
      · exact .inr (.inr hclaimed)

/-- A run that queueing left or made `queued` waits behind its node, unless it
waits for capacity. -/
theorem KeptSince.queue (hrows : CapacityRows mayWait s.store)
    (hnot : ¬ mayWait run) (hkept : KeptSince claims run s) :
    KeptSince claims run (s.queue other).2 := by
  obtain ⟨hle, hkept⟩ := hkept
  cases hqueue : s.queue other with
  | mk answer s' =>
      cases answer with
      | error error => exact queue_error hqueue ▸ ⟨hle, hkept⟩
      | ok queued =>
          rcases queue_ok hqueue with ⟨-, rfl⟩ |
            ⟨-, hbefore, -, hrow, hwaits, hothers, hclaims, hstops⟩
          · exact ⟨hle, hkept⟩
          · refine ⟨hclaims ▸ hle, ?_⟩
            by_cases hsame : run = other
            · subst hsame
              obtain ⟨row, hrow, hstatus⟩ := hrow
              refine .inl (queuedBehindNode_iff.mpr ⟨row, hrow, hstatus, ?_⟩)
              rw [hwaits, ← Bool.not_eq_true]
              exact fun hcapacity => hnot (hrows run hcapacity).2
            · rcases hkept with hqueued | hstopped | hclaimed
              · refine .inl ?_
                rw [← hqueued]
                exact queuedBehindNode_congr (hothers run hsame)
                  (congrFun hwaits run)
              · refine .inr (.inl ?_)
                rw [hstops]
                exact List.mem_filter.mpr ⟨hstopped, by simpa using hsame⟩
              · exact .inr (.inr (hclaims ▸ hclaimed))

theorem KeptSince.claim (hkept : KeptSince claims run s) :
    KeptSince claims run (s.claim other).2 := by
  obtain ⟨hle, hkept⟩ := hkept
  cases hclaim : s.claim other with
  | mk answer s' =>
      cases answer with
      | error error => exact claim_error hclaim ▸ ⟨hle, hkept⟩
      | ok claimed =>
          obtain ⟨hbefore, -, hothers, -, hstops, hclaims⟩ := claim_ok hclaim
          have hgrows : s.claims.count run ≤ s'.claims.count run := by
            rw [hclaims, List.count_append]
            exact Nat.le_add_right _ _
          refine ⟨hle.trans hgrows, ?_⟩
          rcases hkept with hqueued | hstopped | hclaimed
          · by_cases hsame : run = other
            · subst hsame
              obtain rfl : true = claimed := hqueued.symm.trans hbefore
              refine .inr (.inr (hle.trans_lt ?_))
              simp [hclaims]
            · exact .inl ((hothers run hsame).trans hqueued)
          · exact .inr (.inl (hstops ▸ hstopped))
          · exact .inr (.inr (hclaimed.trans_le hgrows))

end Rows

/-! ## Calls of admissions and of releases -/

section Calls

variable {ambiguous : Bool} {mayWait : InteractionId → Prop}
  {state : NodeState} {run other : InteractionId} {sequence : ℤ}
  {asked : Option Arrival} {s t : QueueStore} {passed : List QueueStore}
  {claims : List InteractionId}

/-- Admissions claim nothing. -/
def queues : NodeCall → Prop
  | .claimQueuedNodeRun _ => False
  | _ => True

theorem admit_queues : (state.admitRun run sequence asked).Calls queues := by
  unfold NodeState.admitRun
  split
  · split
    · trivial
    · refine ⟨trivial, fun queued => ?_⟩
      rcases queued with error | queued
      · trivial
      · cases queued with
        | true => trivial
        | false =>
            refine ⟨trivial, fun current => ?_⟩
            rcases current with error | current
            · trivial
            · dsimp only
              split <;> trivial
  · trivial

theorem serve_capacityRows {c : NodeCall}
    (hrows : CapacityRows mayWait s.store) :
    CapacityRows mayWait (QueueStore.serve c s).2.store := by
  cases c with
  | queueNodeRun target => exact hrows.queue
  | getInteraction target => exact hrows
  | claimQueuedNodeRun target => exact hrows.claim

theorem serve_kept {c : NodeCall} (hrows : CapacityRows mayWait s.store)
    (hnot : ¬ mayWait run) (hkept : KeptSince claims run s) :
    KeptSince claims run (QueueStore.serve c s).2 := by
  cases c with
  | queueNodeRun target => exact hkept.queue hrows hnot
  | getInteraction target => exact hkept
  | claimQueuedNodeRun target => exact hkept.claim

variable {α : Type} {p : NodeProgram α} {result : α}

/-- A wait for capacity stays recorded only of runs that may have one. -/
theorem capacityRows_of_runs
    (hrun : (nodeService ambiguous mayWait).Runs p s passed result t)
    (hrows : CapacityRows mayWait s.store) : CapacityRows mayWait t.store :=
  hrun.invariant (P := fun s => CapacityRows mayWait s.store)
    (fun _ _ hmove hrows => hrows.moves hmove)
    (fun _ _ hrows => serve_capacityRows hrows) hrows _ hrun.final_mem

/-- A ready run still waits after a call, was stopped, or was claimed by it. -/
theorem kept_of_runs
    (hrun : (nodeService ambiguous mayWait).Runs p s passed result t)
    (hrows : CapacityRows mayWait s.store) (hnot : ¬ mayWait run)
    (hkept : KeptSince claims run s) : KeptSince claims run t :=
  (hrun.invariant
    (P := fun s => CapacityRows mayWait s.store ∧ KeptSince claims run s)
    (fun _ _ hmove h => ⟨h.1.moves hmove, h.2.moves hmove⟩)
    (fun _ _ h => ⟨serve_capacityRows h.1, serve_kept h.1 hnot h.2⟩)
    ⟨hrows, hkept⟩ _ hrun.final_mem).2

theorem moves_claims {s' : QueueStore} (hmove : NodeMoves mayWait s s') :
    s'.claims = s.claims := by
  cases hmove with
  | stop => rfl
  | others => rfl

theorem claims_of_admitRun {answer : StorageResult NodeAdmission}
    {state' : NodeState}
    (hrun : (nodeService ambiguous mayWait).Runs (state.admitRun run sequence asked)
      s passed (answer, state') t) : t.claims = s.claims := by
  refine hrun.invariant_of_calls (P := fun at' => at'.claims = s.claims) ?_ ?_
    admit_queues rfl _ hrun.final_mem
  · intro at' after hmove hclaims
    exact (moves_claims hmove).trans hclaims
  · intro c at' hallowed hclaims
    cases c with
    | queueNodeRun target =>
        refine Eq.trans ?_ hclaims
        show (at'.queue target).2.claims = at'.claims
        unfold QueueStore.queue
        split <;> rfl
    | getInteraction target => exact hclaims
    | claimQueuedNodeRun target => exact hallowed.elim

theorem moved_rows {s' : QueueStore}
    (hmoved : (nodeService ambiguous mayWait).Moved s s') :
    s'.claims = s.claims ∧
      (CapacityRows mayWait s.store → CapacityRows mayWait s'.store) ∧
      ∀ claims run, KeptSince claims run s → KeptSince claims run s' := by
  induction hmoved with
  | refl => exact ⟨rfl, id, fun _ _ => id⟩
  | tail _ hmove ih =>
      obtain ⟨hclaims, hrows, hkept⟩ := ih
      exact ⟨(moves_claims hmove).trans hclaims,
        fun h => (hrows h).moves hmove,
        fun claims run h => (hkept claims run h).moves hmove⟩

/-- A row that is `queued` waits behind its node when the run may not wait for
capacity. -/
theorem kept_of_queued {row : InteractionRow}
    (hrows : CapacityRows mayWait s.store) (hnot : ¬ mayWait run)
    (hrow : s.store.interactions run = some row)
    (hstatus : row.completionStatus = .queued) :
    KeptSince s.claims run s := by
  refine ⟨le_rfl, .inl (queuedBehindNode_iff.mpr ⟨row, hrow, hstatus, ?_⟩)⟩
  rw [← Bool.not_eq_true]
  exact fun hcapacity => hnot (hrows run hcapacity).2

/-- An admission makes no other row wait behind a node, and its own only when
it answers that it waits; then the run is kept. -/
theorem admitToWait_rows {answer : StorageResult NodeAdmission}
    {state' : NodeState} (hrows : CapacityRows mayWait s.store)
    (hrun : (nodeService false mayWait).Runs (state.admitToWait run sequence)
      s passed (answer, state') t) :
    (∀ other, t.store.queuedBehindNode other = true →
      s.store.queuedBehindNode other = true ∨
        (other = run ∧ answer = .ok .waiting)) ∧
      (answer = .ok .waiting → ¬ mayWait run → KeptSince t.claims run t) := by
  unfold NodeState.admitToWait at hrun
  obtain ⟨at', -, hmoved, queued, after, passed₁, -, hrun, hreplies⟩ :=
    hrun.of_call
  obtain ⟨-, hrows', -⟩ := moved_rows hmoved
  have hrows' := hrows' hrows
  rcases nodeReplies hreplies with hserved | ⟨error, rfl, rfl | ⟨hfalse, -⟩⟩
  case inr.inl =>
    obtain ⟨hresult, hmoved'⟩ := hrun.of_done
    obtain ⟨rfl, rfl⟩ := Prod.mk.inj hresult
    exact ⟨fun other hqueued =>
      .inl (moved_queued hmoved (moved_queued hmoved' hqueued)),
      (fun h => by cases h)⟩
  case inr.inr => cases hfalse
  case inl =>
    have hserved : at'.queue run = (queued, after) := hserved
    cases queued with
    | error error =>
        obtain rfl := queue_error hserved
        obtain ⟨hresult, hmoved'⟩ := hrun.of_done
        obtain ⟨rfl, rfl⟩ := Prod.mk.inj hresult
        exact ⟨fun other hqueued =>
          .inl (moved_queued hmoved (moved_queued hmoved' hqueued)),
          (fun h => by cases h)⟩
    | ok queued =>
        rcases queue_ok hserved with ⟨rfl, rfl⟩ |
          ⟨rfl, -, -, ⟨row, hrow, hstatus⟩, hwaits, hothers, -, -⟩
        · obtain ⟨at₂, -, hmoved₂, current, after₂, passed₂, -, hrun, hreplies₂⟩ :=
            hrun.of_call
          have hafter : after₂ = at₂ := by
            rcases nodeReplies hreplies₂ with hserved₂ | ⟨error, -, rfl | ⟨-, rfl⟩⟩
            · exact (Prod.mk.inj hserved₂).2.symm
            · rfl
            · rfl
          subst hafter
          have hback : ∀ other, after₂.store.queuedBehindNode other = true →
              s.store.queuedBehindNode other = true := fun other hqueued =>
            moved_queued hmoved (moved_queued hmoved₂ hqueued)
          cases current with
          | error error =>
              obtain ⟨hresult, hmoved'⟩ := hrun.of_done
              obtain ⟨rfl, rfl⟩ := Prod.mk.inj hresult
              exact ⟨fun other hqueued =>
                .inl (hback other (moved_queued hmoved' hqueued)),
                (fun h => by cases h)⟩
          | ok current =>
              dsimp only at hrun
              split at hrun
              · rename_i hstatus
                obtain ⟨hresult, hmoved'⟩ := hrun.of_done
                obtain ⟨rfl, rfl⟩ := Prod.mk.inj hresult
                refine ⟨fun other hqueued =>
                  .inl (hback other (moved_queued hmoved' hqueued)), ?_⟩
                intro _ hnot
                have hview : after₂.store.getInteraction run = .ok current := by
                  rcases nodeReplies hreplies₂ with hserved₂ | ⟨error, herror, -⟩
                  · exact (Prod.mk.inj hserved₂).1
                  · cases herror
                simp only [getInteraction, bind_eq_ok_iff, orThrow_eq_ok_iff,
                  pure_eq_ok_iff] at hview
                obtain ⟨row, hrow, rfl⟩ := hview
                obtain ⟨-, hrows₂, -⟩ := moved_rows hmoved₂
                obtain ⟨hclaims, -, hkept⟩ := moved_rows hmoved'
                rw [hclaims]
                exact hkept _ _ (kept_of_queued (hrows₂ hrows') hnot hrow hstatus)
              · obtain ⟨hresult, hmoved'⟩ := hrun.of_done
                obtain ⟨rfl, rfl⟩ := Prod.mk.inj hresult
                exact ⟨fun other hqueued =>
                  .inl (hback other (moved_queued hmoved' hqueued)),
                  (fun h => by cases (Except.ok.inj h))⟩
        · obtain ⟨hresult, hmoved'⟩ := hrun.of_done
          obtain ⟨rfl, rfl⟩ := Prod.mk.inj hresult
          obtain ⟨hclaims, -, hkept⟩ := moved_rows hmoved'
          constructor
          · intro other hqueued
            by_cases hsame : other = run
            · exact .inr ⟨hsame, rfl⟩
            · have hafter := moved_queued hmoved' hqueued
              rw [queuedBehindNode_congr (hothers other hsame)
                (congrFun hwaits other)] at hafter
              exact .inl (moved_queued hmoved hafter)
          · intro _ hnot
            rw [hclaims]
            refine hkept _ _ (kept_of_queued ?_ hnot hrow hstatus)
            have hqueue := @CapacityRows.queue _ _ run hrows'
            rwa [hserved] at hqueue

theorem admit_rows {answer : StorageResult NodeAdmission}
    {state' : NodeState} (hrows : CapacityRows mayWait s.store)
    (hrun : (nodeService false mayWait).Runs (state.admitRun run sequence asked)
      s passed (answer, state') t) :
    (∀ other, t.store.queuedBehindNode other = true →
      s.store.queuedBehindNode other = true ∨
        (other = run ∧ answer = .ok .waiting)) ∧
      (answer = .ok .waiting → ¬ mayWait run → KeptSince t.claims run t) := by
  have hdone : ∀ {answer₀ : StorageResult NodeAdmission} {state₀ : NodeState},
      answer₀ ≠ .ok .waiting →
      (nodeService false mayWait).Runs (.done (answer₀, state₀)) s passed
        (answer, state') t →
      (∀ other, t.store.queuedBehindNode other = true →
        s.store.queuedBehindNode other = true ∨
          (other = run ∧ answer = .ok .waiting)) ∧
        (answer = .ok .waiting → ¬ mayWait run → KeptSince t.claims run t) := by
    intro answer₀ state₀ hne hrun
    obtain ⟨hresult, hmoved⟩ := hrun.of_done
    obtain ⟨rfl, rfl⟩ := Prod.mk.inj hresult
    exact ⟨fun other hqueued => .inl (moved_queued hmoved hqueued),
      fun h => absurd h hne⟩
  unfold NodeState.admitRun at hrun
  split at hrun
  · split at hrun
    · exact hdone (by simp) hrun
    · exact admitToWait_rows hrows hrun
  · exact hdone (by simp) hrun

/-- The run a release dispatches. -/
def dispatched : StorageResult (Option InteractionId) → List InteractionId
  | .ok (some next) => [next]
  | _ => []

@[simp]
theorem dispatched_none : dispatched (.ok none) = [] := rfl

@[simp]
theorem dispatched_error {error : StorageError} :
    dispatched (.error error) = [] := rfl

@[simp]
theorem dispatched_some {next : InteractionId} :
    dispatched (.ok (some next)) = [next] := rfl

/-- Every claim of a walk that takes effect is the walk's answer. -/
theorem claims_of_passOn {holder : NodeHolder}
    {places : List (Position × Waiter)}
    {hsorted : places.Pairwise fun e f => e.1 < f.1}
    {answer : StorageResult (Option InteractionId)} {node' : Option NodeState}
    (hrun : (nodeService false mayWait).Runs
      (NodeState.passOn holder places hsorted) s passed (answer, node') t) :
    t.claims = s.claims ++ dispatched answer := by
  induction places generalizing s passed with
  | nil =>
      unfold NodeState.passOn at hrun
      obtain ⟨hresult, hmoved⟩ := hrun.of_done
      obtain ⟨rfl, rfl⟩ := Prod.mk.inj hresult
      rw [(moved_rows hmoved).1, dispatched_none, List.append_nil]
  | cons place rest ih =>
      obtain ⟨position, waiter⟩ := place
      unfold NodeState.passOn at hrun
      dsimp only at hrun
      split at hrun
      · obtain ⟨at', -, hmoved, claimed, after, passed', -, hrun, hreplies⟩ :=
          hrun.of_call
        have hbefore := (moved_rows hmoved).1
        have hserved : (∃ error, claimed = .error error ∧ after = at') ∨
            ∃ answer, claimed = .ok answer ∧
              at'.claim waiter.run = (.ok answer, after) := by
          rcases nodeReplies hreplies with hserved | ⟨error, rfl, rfl | ⟨hfalse, -⟩⟩
          · cases claimed with
            | error error => exact .inl ⟨error, rfl, claim_error hserved⟩
            | ok answer => exact .inr ⟨answer, rfl, hserved⟩
          · exact .inl ⟨error, rfl, rfl⟩
          · cases hfalse
        rcases hserved with ⟨error, rfl, rfl⟩ | ⟨claimed, rfl, hclaim⟩
        · obtain ⟨hresult, hmoved'⟩ := hrun.of_done
          obtain ⟨rfl, rfl⟩ := Prod.mk.inj hresult
          rw [(moved_rows hmoved').1, hbefore, dispatched_error, List.append_nil]
        · obtain ⟨-, -, -, -, -, hclaims⟩ := claim_ok hclaim
          cases claimed with
          | true =>
              obtain ⟨hresult, hmoved'⟩ := hrun.of_done
              obtain ⟨rfl, rfl⟩ := Prod.mk.inj hresult
              rw [(moved_rows hmoved').1, hclaims, hbefore]
              rfl
          | false =>
              rw [ih hrun, hclaims, hbefore]
              simp
      · obtain ⟨hresult, hmoved⟩ := hrun.of_done
        obtain ⟨rfl, rfl⟩ := Prod.mk.inj hresult
        rw [(moved_rows hmoved).1, dispatched_none, List.append_nil]

theorem claims_of_release {node node' : Option NodeState}
    {answer : StorageResult (Option InteractionId)}
    (hrun : (nodeService false mayWait).Runs (NodeState.release node run) s
      passed (answer, node') t) :
    t.claims = s.claims ++ dispatched answer := by
  have hdone : ∀ {node₀ : Option NodeState},
      (nodeService false mayWait).Runs (.done (.ok none, node₀)) s passed
        (answer, node') t → t.claims = s.claims ++ dispatched answer := by
    intro node₀ hrun
    obtain ⟨hresult, hmoved⟩ := hrun.of_done
    obtain ⟨rfl, rfl⟩ := Prod.mk.inj hresult
    rw [(moved_rows hmoved).1, dispatched_none, List.append_nil]
  unfold NodeState.release at hrun
  cases node with
  | none => exact hdone hrun
  | some state =>
      dsimp only at hrun
      split at hrun
      · exact hdone hrun
      · split at hrun
        · split at hrun
          · exact hdone hrun
          · exact claims_of_passOn hrun
        · exact hdone hrun

end Calls

end RelayerGraph
