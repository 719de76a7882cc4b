import RelayerGraph.Runs.CapacityRows

/-!
# What an admission and a release do

Every way an admission or a release can end, whatever the faults of its calls
and whatever others do to the store meanwhile.
-/

namespace RelayerGraph

open Foundation Checked ProductStore

variable {held : List InteractionId} {limit : ℕ} {slots : Slots}
  {run : InteractionId} {store store' : ProductStore}
  {passed : List ProductStore}

/-- The ways an admission ends. -/
inductive Admitted (limit : ℕ) (slots : Slots) (run : InteractionId)
    (passed : List ProductStore) (store' : ProductStore) :
    StorageResult CapacityAdmission → Slots → Prop
  | joined (admissions : ℕ) :
      slots.executing.lookup run = some admissions →
      Admitted limit slots run passed store' (.ok .start)
        { slots with
          executing := slots.executing.insert run (admissions + 1) }
  | again :
      slots.executing.lookup run = none → run ∈ slots.waiting →
      Admitted limit slots run passed store' (.ok .alreadyWaiting) slots
  | refused (answer : StorageResult CapacityAdmission) :
      slots.executing.lookup run = none → run ∉ slots.waiting →
      answer ≠ .ok .start → answer ≠ .ok .waiting →
      Admitted limit slots run passed store' answer slots
  | started :
      slots.executing.lookup run = none → run ∉ slots.waiting →
      slots.executing.keys.length < limit → slots.waiting = [] →
      (∃ at' ∈ passed, at'.stopPending run = false) →
      Admitted limit slots run passed store' (.ok .start) (slots.started run)
  | queued :
      slots.executing.lookup run = none → run ∉ slots.waiting →
      ¬ (slots.executing.keys.length < limit ∧ slots.waiting = []) →
      store'.Waits run →
      Admitted limit slots run passed store' (.ok .waiting) (slots.queued run)

/-- Why a release passes over a waiting run: its waiter is gone, or it was
stopped. -/
def PassedOver (passed : List ProductStore) (gone : List InteractionId)
    (run : InteractionId) : Prop :=
  run ∈ gone ∨ ∃ at' ∈ passed, at'.WasStopped run

/-- The ways a release of a run's last admission ends: the wait is taken from
its front, passing over runs that cannot start. -/
inductive PassedOn (executing : AList fun _ : InteractionId => ℕ)
    (run : InteractionId) (waiting : List InteractionId)
    (passed : List ProductStore) : SlotRelease → Prop
  | freed (gone : List InteractionId) :
      (∀ skipped ∈ waiting, PassedOver passed gone skipped) →
      PassedOn executing run waiting passed
        ⟨.ok none, ⟨executing.erase run, []⟩, gone⟩
  | granted (skipped rest gone : List InteractionId) (next : InteractionId) :
      waiting = skipped ++ next :: rest →
      (∀ before ∈ skipped, PassedOver passed gone before) →
      (∃ at' ∈ passed, at'.stopPending next = false) →
      PassedOn executing run waiting passed
        ⟨.ok (some next), ⟨(executing.erase run).insert next 1, rest⟩, gone⟩
  | failed (skipped rest gone : List InteractionId) (error : StorageError) :
      waiting = skipped ++ rest →
      (∀ before ∈ skipped, PassedOver passed gone before) →
      PassedOn executing run waiting passed
        ⟨.error error, ⟨executing, rest⟩, gone⟩

/-! ## Reading a row -/

theorem getInteraction_ok {view : InteractionView}
    (h : store.getInteraction run = .ok view) :
    ∃ row, store.interactions run = some row ∧
      view.completionStatus = row.completionStatus ∧
      view.stopPending = store.stopPending run ∧
      view.queuedForCapacity = store.waitsForCapacity run := by
  simp only [getInteraction, bind_eq_ok_iff, orThrow_eq_ok_iff,
    pure_eq_ok_iff] at h
  obtain ⟨row, hrow, rfl⟩ := h
  refine ⟨row, hrow, rfl, ?_, ?_⟩
  · simp only [InteractionView.stopPending, stopPending]
    cases store.stopRequests run with
    | none => simp
    | some request => cases request with | mk error => cases error <;> simp
  · simp only [InteractionView.queuedForCapacity, waitsForCapacity, hrow,
      Option.any_some]
    by_cases hqueued : row.completionStatus = .queued <;> simp [hqueued]

/-- A read that answers has read some state the run passed. -/
theorem of_getInteraction {α : Type}
    {next : StorageResult InteractionView → CapacityProgram α}
    {final : ProductStore} {result : α}
    (hrun : (capacityService held).Runs (.call (.getInteraction run) next) store
      passed result final) :
    ∃ at' ∈ passed, (capacityService held).Moved store at' ∧
      ∃ answer passed', passed' ⊆ passed ∧
        (capacityService held).Runs (next answer) at' passed' result final ∧
        ∀ view, answer = .ok view → at'.getInteraction run = .ok view := by
  obtain ⟨at', hat, hmoved, answer, after, passed', hsub, hrest, hanswer⟩ :=
    hrun.of_call
  have hafter : after = at' := by
    rcases hanswer with ⟨-, hafter⟩ | ⟨error, -, hafter | ⟨-, hafter⟩⟩
    · exact hafter
    · exact hafter
    · exact hafter
  subst hafter
  refine ⟨after, hat, hmoved, answer, passed', hsub, hrest, ?_⟩
  rintro view rfl
  rcases hanswer with ⟨hview, -⟩ | ⟨error, herror, -⟩
  · exact hview.symm
  · cases herror

theorem moved_waits (hheld : run ∈ held)
    (hmoved : (capacityService held).Moved store store')
    (hwaits : store.Waits run) : store'.Waits run :=
  Service.Stable.moved (S := capacityService held)
    (fun _ _ hmove hwaits => runMoves_waits hmove hheld hwaits) hmoved hwaits

/-! ## Admissions -/

/-- A free slot is taken only by a run that was read without a pending Stop. -/
theorem admitToFreeSlot_cases
    {answer : StorageResult CapacityAdmission} {slots' : Slots}
    (hrun : (capacityService held).Runs (slots.admitToFreeSlot run) store passed
      (answer, slots') store') :
    (slots' = slots ∧ answer ≠ .ok .start ∧ answer ≠ .ok .waiting) ∨
      (answer = .ok .start ∧ slots' = slots.started run ∧
        ∃ at' ∈ passed, at'.stopPending run = false) := by
  have hdone : ∀ {answer₀ : StorageResult CapacityAdmission} {slots₀ : Slots}
      {at' : ProductStore} {passed' : List ProductStore},
      (capacityService held).Runs (.done (answer₀, slots₀)) at' passed'
        (answer, slots') store' → answer = answer₀ ∧ slots' = slots₀ := by
    intro answer₀ slots₀ at' passed' hrun
    exact Prod.mk.inj hrun.of_done.1
  unfold Slots.admitToFreeSlot at hrun
  obtain ⟨at', hat, -, read, passed', -, hrun, hread⟩ := of_getInteraction hrun
  cases read with
  | error error =>
      obtain ⟨rfl, rfl⟩ := hdone hrun
      exact .inl ⟨rfl, by simp, by simp⟩
  | ok current =>
      obtain ⟨row, -, -, hpending, -⟩ := getInteraction_ok (hread current rfl)
      dsimp only at hrun
      split at hrun
      · obtain ⟨rfl, rfl⟩ := hdone hrun
        exact .inl ⟨rfl, by simp, by simp⟩
      rename_i hnot
      have hunstopped : at'.stopPending run = false := by
        rw [← hpending]
        simpa using hnot
      split at hrun
      · obtain ⟨_, -, -, claimed, _, passed'', -, hrun, -⟩ := hrun.of_call
        cases claimed with
        | ok claimed =>
            cases claimed with
            | true =>
                obtain ⟨rfl, rfl⟩ := hdone hrun
                exact .inr ⟨rfl, rfl, at', hat, hunstopped⟩
            | false =>
                obtain ⟨rfl, rfl⟩ := hdone hrun
                exact .inl ⟨rfl, by simp, by simp⟩
        | error error =>
            obtain ⟨_, -, -, reread, _, -, hrun, -⟩ := of_getInteraction hrun
            cases reread with
            | error error' =>
                obtain ⟨rfl, rfl⟩ := hdone hrun
                exact .inl ⟨rfl, by simp, by simp⟩
            | ok reread =>
                dsimp only at hrun
                split at hrun
                · obtain ⟨rfl, rfl⟩ := hdone hrun
                  exact .inl ⟨rfl, by simp, by simp⟩
                split at hrun
                · obtain ⟨rfl, rfl⟩ := hdone hrun
                  exact .inl ⟨rfl, by simp, by simp⟩
                · obtain ⟨rfl, rfl⟩ := hdone hrun
                  exact .inr ⟨rfl, rfl, at', hat, hunstopped⟩
      · obtain ⟨rfl, rfl⟩ := hdone hrun
        exact .inr ⟨rfl, rfl, at', hat, hunstopped⟩

/-- A run joins the wait only when its row waits. -/
theorem admitToWait_cases (hheld : run ∈ held)
    {answer : StorageResult CapacityAdmission} {slots' : Slots}
    (hrun : (capacityService held).Runs (slots.admitToWait run) store passed
      (answer, slots') store') :
    (slots' = slots ∧ answer ≠ .ok .start ∧ answer ≠ .ok .waiting) ∨
      (answer = .ok .waiting ∧ slots' = slots.queued run ∧
        store'.Waits run) := by
  unfold Slots.admitToWait at hrun
  obtain ⟨at', -, -, queued, after, passed', -, hrun, hqueued⟩ := hrun.of_call
  cases queued with
  | error error =>
      obtain ⟨hresult, -⟩ := hrun.of_done
      obtain ⟨rfl, rfl⟩ := Prod.mk.inj hresult
      exact .inl ⟨rfl, by simp, by simp⟩
  | ok queued =>
      cases queued with
      | true =>
          obtain ⟨hresult, hmoved⟩ := hrun.of_done
          obtain ⟨rfl, rfl⟩ := Prod.mk.inj hresult
          refine .inr ⟨rfl, rfl, moved_waits hheld hmoved ?_⟩
          rcases hqueued with ⟨hanswer, rfl⟩ | ⟨error, herror, -⟩
          · cases hcall : at'.queueRunForCapacity run with
            | error error =>
                simp [capacityService, served, hcall] at hanswer
            | ok result =>
                obtain ⟨changed, store''⟩ := result
                simp only [capacityService, served, hcall, Except.ok.injEq]
                  at hanswer ⊢
                rcases queueRunForCapacity_ok hcall with ⟨hfalse, -⟩ |
                  ⟨-, -, hcapacity, -, -, row, row', -, hrow', -, hstatus⟩
                · cases hanswer.trans hfalse
                · exact ⟨row', hrow', .inl ⟨hstatus, hcapacity⟩⟩
          · cases herror
      | false =>
          obtain ⟨at'', -, -, read, passed'', -, hrun, hread⟩ :=
            of_getInteraction hrun
          cases read with
          | error error =>
              obtain ⟨hresult, -⟩ := hrun.of_done
              obtain ⟨rfl, rfl⟩ := Prod.mk.inj hresult
              exact .inl ⟨rfl, by simp, by simp⟩
          | ok current =>
              obtain ⟨row, -, -, -, hwaits⟩ :=
                getInteraction_ok (hread current rfl)
              dsimp only at hrun
              split at hrun
              · rename_i hadopted
                obtain ⟨hresult, hmoved⟩ := hrun.of_done
                obtain ⟨rfl, rfl⟩ := Prod.mk.inj hresult
                refine .inr ⟨rfl, rfl, moved_waits hheld hmoved ?_⟩
                rw [hwaits, waitsForCapacity_iff] at hadopted
                obtain ⟨row', hrow', hstatus⟩ := hadopted
                exact ⟨row', hrow', .inl hstatus⟩
              · obtain ⟨hresult, -⟩ := hrun.of_done
                obtain ⟨rfl, rfl⟩ := Prod.mk.inj hresult
                exact .inl ⟨rfl, by simp, by simp⟩

theorem admitted_of_runs (hheld : run ∈ held)
    {answer : StorageResult CapacityAdmission} {slots' : Slots}
    (hrun : (capacityService held).Runs (slots.admitRun limit run) store passed
      (answer, slots') store') :
    Admitted limit slots run passed store' answer slots' := by
  unfold Slots.admitRun at hrun
  split at hrun
  · rename_i admissions hlookup
    obtain ⟨rfl, rfl⟩ := Prod.mk.inj hrun.of_done.1
    exact .joined admissions hlookup
  rename_i hlookup
  split at hrun
  · rename_i hwaiting
    obtain ⟨rfl, rfl⟩ := Prod.mk.inj hrun.of_done.1
    exact .again hlookup hwaiting
  rename_i hwaiting
  split at hrun
  · rename_i hfree
    rcases admitToFreeSlot_cases hrun with ⟨rfl, hstart, hwait⟩ |
      ⟨rfl, rfl, hread⟩
    · exact .refused answer hlookup hwaiting hstart hwait
    · exact .started hlookup hwaiting hfree.1 hfree.2 hread
  · rename_i hfull
    rcases admitToWait_cases hheld hrun with ⟨rfl, hstart, hwait⟩ |
      ⟨rfl, rfl, hwaits⟩
    · exact .refused answer hlookup hwaiting hstart hwait
    · exact .queued hlookup hwaiting hfull hwaits

/-! ## Releases -/

/-- The store is ready for the runs of a live wait: their rows wait, were
claimed back or stopped, and no durable wait carries a pending Stop. -/
structure ReadyFor (waiting : List InteractionId) (store : ProductStore) :
    Prop where
  unstopped : store.UnstoppedWaits
  waits : ∀ run ∈ waiting, store.Waits run

theorem ReadyFor.moved {waiting : List InteractionId}
    (hready : ReadyFor waiting store) (hheld : ∀ run ∈ waiting, run ∈ held)
    (hmoved : (capacityService held).Moved store store') :
    ReadyFor waiting store' where
  unstopped :=
    Service.Stable.moved (S := capacityService held)
      (fun _ _ hmove h => runMoves_unstopped hmove h) hmoved hready.unstopped
  waits run hrun := moved_waits (hheld run hrun) hmoved (hready.waits run hrun)

theorem ReadyFor.serve {waiting : List InteractionId}
    (hready : ReadyFor waiting store) (c : CapacityCall) :
    ReadyFor waiting ((capacityService held).serve c store).2 where
  unstopped := serve_unstopped c hready.unstopped
  waits run hrun := serve_waits c (hready.waits run hrun)

/-- After a call the store is as ready as it was before. -/
theorem ReadyFor.after {waiting : List InteractionId} {c : CapacityCall}
    {answer : Except StorageError (capacityInterface.Answer c)}
    (hready : ReadyFor waiting store)
    (hanswer : (capacityService held).Replies c store answer store') :
    ReadyFor waiting store' := by
  rcases hanswer with ⟨-, rfl⟩ | ⟨error, -, rfl | ⟨-, rfl⟩⟩
  · exact hready.serve c
  · exact hready
  · exact hready.serve c

theorem ReadyFor.mono {waiting rest : List InteractionId}
    (hready : ReadyFor waiting store) (hsub : ∀ run ∈ rest, run ∈ waiting) :
    ReadyFor rest store where
  unstopped := hready.unstopped
  waits run hrun := hready.waits run (hsub run hrun)

theorem PassedOver.mono {passed passed' : List ProductStore}
    {gone : List InteractionId} (hsub : passed' ⊆ passed)
    (h : PassedOver passed' gone run) : PassedOver passed gone run := by
  rcases h with hgone | ⟨at', hat, hstopped⟩
  · exact .inl hgone
  · exact .inr ⟨at', hsub hat, hstopped⟩

/-- The wait passed over its oldest run before it was taken from further on. -/
theorem PassedOn.cons {executing : AList fun _ : InteractionId => ℕ}
    {next : InteractionId} {rest : List InteractionId}
    {passed passed' : List ProductStore} {release : SlotRelease}
    (hsub : passed' ⊆ passed) (hover : PassedOver passed release.gone next)
    (h : PassedOn executing run rest passed' release) :
    PassedOn executing run (next :: rest) passed release := by
  cases h with
  | freed gone hskipped =>
      refine .freed gone ?_
      intro skipped hmem
      rcases List.mem_cons.mp hmem with rfl | hmem
      · exact hover
      · exact (hskipped skipped hmem).mono hsub
  | granted skipped rest' gone next' hwaiting hskipped hread =>
      obtain ⟨at', hat, hunstopped⟩ := hread
      refine .granted (next :: skipped) rest' gone next' (by simp [hwaiting]) ?_
        ⟨at', hsub hat, hunstopped⟩
      intro before hmem
      rcases List.mem_cons.mp hmem with rfl | hmem
      · exact hover
      · exact (hskipped before hmem).mono hsub
  | failed skipped rest' gone error hwaiting hskipped =>
      refine .failed (next :: skipped) rest' gone error (by simp [hwaiting]) ?_
      intro before hmem
      rcases List.mem_cons.mp hmem with rfl | hmem
      · exact hover
      · exact (hskipped before hmem).mono hsub

/-- The claim of a run that answered has found what it says. -/
theorem of_claimCapacityRun {claimed : Bool} {at' after : ProductStore}
    (hanswer : (capacityService held).Replies (.claimCapacityRun run) at'
      (.ok claimed) after) :
    at'.waitsForCapacity run = claimed ∧
      after.waitsForCapacity run = false := by
  rcases hanswer with ⟨hclaimed, rfl⟩ | ⟨error, herror, -⟩
  · cases hcall : at'.claimCapacityRun run with
    | error error => simp [capacityService, served, hcall] at hclaimed
    | ok result =>
        obtain ⟨changed, store''⟩ := result
        simp only [capacityService, served, hcall, Except.ok.injEq]
          at hclaimed ⊢
        subst hclaimed
        obtain ⟨hcapacity, -, hcases⟩ := claimCapacityRun_ok hcall
        constructor
        · rcases hcases with ⟨rfl, hwaits, -⟩ | ⟨rfl, hwaits, -⟩
          · exact hwaits
          · exact hwaits
        · rw [← Bool.not_eq_true, waitsForCapacity_iff]
          rintro ⟨row, -, -, htrue⟩
          cases hcapacity.symm.trans htrue
  · cases herror

/-- A waiting run that cannot be claimed and is no claimed start was stopped. -/
theorem wasStopped_of_not (hwaits : store.Waits run)
    (hclaimed : store.waitsForCapacity run = false)
    {view : InteractionView} (hread : store.getInteraction run = .ok view)
    (hnot : ¬ (view.completionStatus = .submitted ∧ ¬ view.stopPending)) :
    store.WasStopped run := by
  obtain ⟨row, hrow, hstatus⟩ := hwaits
  obtain ⟨row', hrow', hview, hpending, -⟩ := getInteraction_ok hread
  obtain rfl : row = row' := Option.some.inj (hrow.symm.trans hrow')
  refine ⟨row, hrow, ?_⟩
  rcases hstatus with hqueued | hsubmitted | hstopped
  · have htrue := waitsForCapacity_iff.mpr ⟨row, hrow, hqueued⟩
    cases hclaimed.symm.trans htrue
  · refine .inr ⟨hsubmitted, ?_⟩
    rw [hview, hpending] at hnot
    simpa [hsubmitted] using hnot
  · exact .inl hstopped

theorem passedOn_of_runs {executing : AList fun _ : InteractionId => ℕ}
    {waiting gone : List InteractionId} {release : SlotRelease}
    (hheld : ∀ waiter ∈ waiting, waiter ∈ held)
    (hready : ReadyFor waiting store)
    (hrun : (capacityService held).Runs (Slots.passOn run executing waiting gone)
      store passed release store') :
    gone ⊆ release.gone ∧ PassedOn executing run waiting passed release := by
  induction waiting generalizing store passed gone with
  | nil =>
      obtain ⟨rfl, -⟩ := hrun.of_done
      exact ⟨List.Subset.refl _, .freed gone (by simp)⟩
  | cons next rest ih =>
      have hrestHeld : ∀ waiter ∈ rest, waiter ∈ held := fun waiter hmem =>
        hheld waiter (List.mem_cons_of_mem _ hmem)
      -- The wait goes on without the waiter of `next`.
      have hgone : ∀ {at' : ProductStore} {passed' : List ProductStore},
          ReadyFor (next :: rest) at' → passed' ⊆ passed →
          (capacityService held).Runs
            (Slots.passOn run executing rest (gone ++ [next])) at' passed'
            release store' →
          gone ⊆ release.gone ∧
            PassedOn executing run (next :: rest) passed release := by
        intro at' passed' hat hsub hrun
        obtain ⟨hsubset, hpassed⟩ := ih hrestHeld
          (hat.mono fun waiter hmem => List.mem_cons_of_mem _ hmem) hrun
        refine ⟨fun waiter hmem => hsubset (by simp [hmem]), ?_⟩
        exact hpassed.cons hsub (.inl (hsubset (by simp)))
      -- The waiter of `next` is told, or turns out to be gone.
      have hsend : ∀ {at' : ProductStore} {passed' : List ProductStore}
          {told : Bool → CapacityProgram SlotRelease},
          (∀ sent, told sent = if sent then
              .done ⟨.ok (some next),
                ⟨(executing.erase run).insert next 1, rest⟩, gone⟩
            else Slots.passOn run executing rest (gone ++ [next])) →
          ReadyFor (next :: rest) at' → passed' ⊆ passed →
          (∃ read ∈ passed, read.stopPending next = false) →
          (capacityService held).Runs (.ask told) at' passed' release store' →
          gone ⊆ release.gone ∧
            PassedOn executing run (next :: rest) passed release := by
        intro at' passed' told htold hat hsub hread hrun
        obtain ⟨sent, after, passed'', hmoved, hsub', hrun⟩ := hrun.of_ask
        rw [htold] at hrun
        cases sent with
        | true =>
            rw [if_pos rfl] at hrun
            obtain ⟨rfl, -⟩ := hrun.of_done
            exact ⟨List.Subset.refl _,
              .granted [] rest gone next rfl (by simp) hread⟩
        | false =>
            rw [if_neg (by simp)] at hrun
            exact hgone (hat.moved hheld hmoved) (List.Subset.trans hsub' hsub) hrun
      unfold Slots.passOn at hrun
      obtain ⟨closed, start, passed₁, hmoved, hsub₁, hrun⟩ := hrun.of_ask
      have hstart := hready.moved hheld hmoved
      dsimp only at hrun
      split at hrun
      · exact hgone hstart hsub₁ hrun
      obtain ⟨at', hat, hmoved', claimed, after, passed₂, hsub₂, hrun, hanswer⟩ :=
        hrun.of_call
      have hat' := hstart.moved hheld hmoved'
      have hafter := hat'.after hanswer
      cases claimed with
      | error error =>
          obtain ⟨rfl, -⟩ := hrun.of_done
          exact ⟨List.Subset.refl _,
            .failed [] (next :: rest) gone error rfl (by simp)⟩
      | ok claimed =>
          obtain ⟨hwaits, hnotWaits⟩ := of_claimCapacityRun hanswer
          cases claimed with
          | true =>
              refine hsend (fun _ => rfl) hafter (List.Subset.trans hsub₂ hsub₁)
                ⟨at', hsub₁ hat, ?_⟩ hrun
              simpa using hat'.unstopped next hwaits
          | false =>
              obtain ⟨read, hreadMem, hreadMoved, answer, passed₃, hsub₃, hrun,
                hread⟩ := of_getInteraction hrun
              have hreadReady := hafter.moved hheld hreadMoved
              cases answer with
              | error error =>
                  obtain ⟨rfl, -⟩ := hrun.of_done
                  exact ⟨List.Subset.refl _,
                    .failed [] (next :: rest) gone error rfl (by simp)⟩
              | ok current =>
                  have hcurrent := hread current rfl
                  have hreadNot : read.waitsForCapacity next = false :=
                    Service.Stable.moved (S := capacityService held)
                      (P := fun store => store.waitsForCapacity next = false)
                      (fun _ _ hmove h =>
                        runMoves_not_waitsForCapacity hmove h)
                      hreadMoved hnotWaits
                  dsimp only at hrun
                  split at hrun
                  · rename_i hstarts
                    obtain ⟨row, -, -, hpending, -⟩ :=
                      getInteraction_ok hcurrent
                    refine hsend (fun _ => rfl) hreadReady
                      (List.Subset.trans hsub₃ (List.Subset.trans hsub₂ hsub₁))
                      ⟨read, hsub₁ (hsub₂ hreadMem), ?_⟩ hrun
                    rw [← hpending]
                    simpa using hstarts.2
                  · rename_i hnot
                    obtain ⟨hsubset, hpassed⟩ := ih hrestHeld
                      (hreadReady.mono fun waiter hmem =>
                        List.mem_cons_of_mem _ hmem) hrun
                    refine ⟨hsubset, hpassed.cons
                      (List.Subset.trans hsub₃ (List.Subset.trans hsub₂ hsub₁)) (.inr ?_)⟩
                    exact ⟨read, hsub₁ (hsub₂ hreadMem),
                      wasStopped_of_not
                        (hreadReady.waits next List.mem_cons_self) hreadNot
                        hcurrent hnot⟩

/-- The ways a release ends. -/
inductive Released (slots : Slots) (run : InteractionId)
    (passed : List ProductStore) : SlotRelease → Prop
  | idle :
      slots.executing.lookup run = none →
      Released slots run passed ⟨.ok none, slots, []⟩
  | fewer (admissions : ℕ) :
      slots.executing.lookup run = some admissions → 1 < admissions →
      Released slots run passed
        ⟨.ok none,
          { slots with
            executing := slots.executing.insert run (admissions - 1) }, []⟩
  | last (admissions : ℕ) (release : SlotRelease) :
      slots.executing.lookup run = some admissions → admissions ≤ 1 →
      PassedOn slots.executing run slots.waiting passed release →
      Released slots run passed release

theorem released_of_runs {release : SlotRelease}
    (hheld : ∀ waiter ∈ slots.waiting, waiter ∈ held)
    (hready : ReadyFor slots.waiting store)
    (hrun : (capacityService held).Runs (slots.release run) store passed release
      store') : Released slots run passed release := by
  unfold Slots.release at hrun
  split at hrun
  · rename_i hlookup
    obtain ⟨rfl, -⟩ := hrun.of_done
    exact .idle hlookup
  · rename_i admissions hlookup
    split at hrun
    · rename_i hmore
      obtain ⟨rfl, -⟩ := hrun.of_done
      exact .fewer admissions hlookup hmore
    · rename_i hlast
      exact .last admissions release hlookup (by omega)
        (passedOn_of_runs hheld hready hrun).2

end RelayerGraph
