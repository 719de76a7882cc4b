import RelayerGraph.Runs.CapacityCalls
import RelayerGraph.Foundation.TransitionSystem

/-!
# Run capacity is safe and fair

Runs of admissions, releases, forgotten waits and moves of the store, in any
order and over any number of runs.  The limit holds, a wait exists only while
every slot is taken, slots pass on in the order of the wait, and every
admission of a run is paid back before its slot moves on.
-/

namespace RelayerGraph

open Foundation Checked ProductStore

/-- The store and the slots of one process. -/
structure CapacityState where
  store : ProductStore
  slots : Slots

/-- What happened: a call with its answer and the stores it passed, a wait
forgotten, or a move of others. -/
inductive CapacityEvent
  | admitted (run : InteractionId) (answer : StorageResult CapacityAdmission)
      (passed : List ProductStore)
  | released (run : InteractionId) (answer : StorageResult (Option InteractionId))
      (gone : List InteractionId) (passed : List ProductStore)
  | forgotten (run : InteractionId)
  | moved

/-- One event.  A call holds the lock, so only the store moves beneath it. -/
inductive CapacityStep (limit : ℕ) :
    CapacityState → CapacityEvent → CapacityState → Prop
  | admitRun {s : CapacityState} {run : InteractionId}
      {answer : StorageResult CapacityAdmission} {slots' : Slots}
      {passed : List ProductStore} {store' : ProductStore} :
      (capacityService (run :: s.slots.waiting)).Runs (s.slots.admitRun limit run)
        s.store passed (answer, slots') store' →
      CapacityStep limit s (.admitted run answer passed) ⟨store', slots'⟩
  | release {s : CapacityState} {run : InteractionId} {release : SlotRelease}
      {passed : List ProductStore} {store' : ProductStore} :
      (capacityService s.slots.waiting).Runs (s.slots.release run) s.store passed
        release store' →
      CapacityStep limit s (.released run release.answer release.gone passed)
        ⟨store', release.slots⟩
  | forget {s : CapacityState} {run : InteractionId} :
      CapacityStep limit s (.forgotten run) ⟨s.store, s.slots.forget run⟩
  | move {s : CapacityState} {store' : ProductStore} :
      RunMoves s.slots.waiting s.store store' →
      CapacityStep limit s .moved ⟨store', s.slots⟩

/-- A process starts with free slots and an empty wait; a run that still waits
durably carries no pending Stop. -/
def capacitySystem (limit : ℕ) :
    TransitionSystem CapacityState CapacityEvent where
  init s := s.slots = ⟨∅, []⟩ ∧ s.store.UnstoppedWaits
  step := CapacityStep limit

/-! ## The invariant -/

/-- What holds between events. -/
structure CapacityInvariant (limit : ℕ) (s : CapacityState) : Prop where
  bounded : s.slots.executing.keys.length ≤ limit
  positive : ∀ run admissions,
    s.slots.executing.lookup run = some admissions → 0 < admissions
  apart : ∀ run ∈ s.slots.waiting, s.slots.executing.lookup run = none
  full : s.slots.waiting ≠ [] → s.slots.executing.keys.length = limit
  nodup : s.slots.waiting.Nodup
  ready : ReadyFor s.slots.waiting s.store

section Executing

variable {executing : AList fun _ : InteractionId => ℕ} {run : InteractionId}

theorem length_keys_insert_of_lookup {admissions n : ℕ}
    (h : executing.lookup run = some admissions) :
    (executing.insert run n).keys.length = executing.keys.length := by
  have hmem : run ∈ executing.keys :=
    AList.mem_keys.mp (AList.lookup_isSome.mp (by simp [h]))
  rw [AList.keys_insert, List.length_cons, List.length_erase_of_mem hmem]
  have hpos : 0 < executing.keys.length := List.length_pos_of_mem hmem
  omega

theorem length_keys_insert_of_none {n : ℕ} (h : executing.lookup run = none) :
    (executing.insert run n).keys.length = executing.keys.length + 1 := by
  have hnot : run ∉ executing.keys := fun hmem =>
    AList.lookup_eq_none.mp h (AList.mem_keys.mpr hmem)
  rw [AList.keys_insert, List.length_cons, List.erase_of_not_mem hnot]

theorem length_keys_erase {admissions : ℕ}
    (h : executing.lookup run = some admissions) :
    (executing.erase run).keys.length + 1 = executing.keys.length := by
  have hmem : run ∈ executing.keys :=
    AList.mem_keys.mp (AList.lookup_isSome.mp (by simp [h]))
  rw [AList.keys_erase, List.length_erase_of_mem hmem]
  have hpos : 0 < executing.keys.length := List.length_pos_of_mem hmem
  omega

theorem lookup_insert_of {other : InteractionId} {n : ℕ} :
    (executing.insert run n).lookup other =
      if other = run then some n else executing.lookup other := by
  split
  · rename_i h
    rw [h, AList.lookup_insert]
  · rename_i h
    exact AList.lookup_insert_ne h

theorem lookup_erase_of {other : InteractionId} :
    (executing.erase run).lookup other =
      if other = run then none else executing.lookup other := by
  split
  · rename_i h
    rw [h, AList.lookup_erase]
  · rename_i h
    exact AList.lookup_erase_ne h

end Executing

section Steps

variable {limit : ℕ} {s t : CapacityState} {run : InteractionId}

theorem admitted_of_step {answer : StorageResult CapacityAdmission}
    {passed : List ProductStore}
    (hstep : CapacityStep limit s (.admitted run answer passed) t) :
    Admitted limit s.slots run passed t.store answer t.slots := by
  cases hstep with
  | admitRun hrun => exact admitted_of_runs List.mem_cons_self hrun

theorem released_of_step {answer : StorageResult (Option InteractionId)}
    {gone : List InteractionId} {passed : List ProductStore}
    (hready : ReadyFor s.slots.waiting s.store)
    (hstep : CapacityStep limit s (.released run answer gone passed) t) :
    Released s.slots run passed ⟨answer, t.slots, gone⟩ := by
  cases hstep with
  | release hrun => exact released_of_runs (fun _ h => h) hready hrun

/-- The store stays ready for every run that stays on the wait. -/
theorem ready_of_runs {held waiting : List InteractionId} {α : Type}
    {p : CapacityProgram α} {store store' : ProductStore}
    {passed : List ProductStore} {result : α}
    (hheld : ∀ waiter ∈ waiting, waiter ∈ held)
    (hready : ReadyFor waiting store)
    (hrun : (capacityService held).Runs p store passed result store') :
    ReadyFor waiting store' := by
  refine hrun.invariant (P := ReadyFor waiting) ?_ ?_ hready _ hrun.final_mem
  · intro store store' hmove hready
    exact hready.moved hheld (.single hmove)
  · intro c store hready
    exact hready.serve c

theorem CapacityInvariant.admitRun {slots' : Slots} {store' : ProductStore}
    {answer : StorageResult CapacityAdmission} {passed : List ProductStore}
    (hinv : CapacityInvariant limit s)
    (hready : ReadyFor s.slots.waiting store')
    (h : Admitted limit s.slots run passed store' answer slots') :
    CapacityInvariant limit ⟨store', slots'⟩ := by
  cases h with
  | joined admissions hlookup =>
      have hlength := length_keys_insert_of_lookup (n := admissions + 1) hlookup
      constructor
      case bounded => exact hlength ▸ hinv.bounded
      case positive =>
        intro other n hother
        rw [lookup_insert_of] at hother
        split at hother
        · obtain rfl := Option.some.inj hother
          omega
        · exact hinv.positive other n hother
      case apart =>
        intro waiter hwaiter
        have hnone := hinv.apart waiter hwaiter
        rw [lookup_insert_of, if_neg, hnone]
        rintro rfl
        cases hnone.symm.trans hlookup
      case full => exact fun hne => hlength.trans (hinv.full hne)
      case nodup => exact hinv.nodup
      case ready => exact hready
  | again => exact { hinv with ready := hready }
  | refused => exact { hinv with ready := hready }
  | started hnone hwaiting hfree hempty _ =>
      have hlength := length_keys_insert_of_none (n := 1) hnone
      constructor
      case bounded =>
        simp only [Slots.started, hlength]
        omega
      case positive =>
        intro other n hother
        simp only [Slots.started, lookup_insert_of] at hother
        split at hother
        · obtain rfl := Option.some.inj hother
          omega
        · exact hinv.positive other n hother
      case apart => simp [Slots.started, hempty]
      case full => simp [Slots.started, hempty]
      case nodup => exact hinv.nodup
      case ready => exact hready
  | queued hnone hwaiting hfull hwaits =>
      have htaken : s.slots.executing.keys.length = limit := by
        by_cases hempty : s.slots.waiting = []
        · have hnot : ¬ s.slots.executing.keys.length < limit := fun hlt =>
            hfull ⟨hlt, hempty⟩
          have hle := hinv.bounded
          omega
        · exact hinv.full hempty
      constructor
      case bounded => exact hinv.bounded
      case positive => exact hinv.positive
      case apart =>
        intro waiter hwaiter
        rcases List.mem_append.mp hwaiter with hold | hnew
        · exact hinv.apart waiter hold
        · rw [List.mem_singleton.mp hnew]
          exact hnone
      case full => exact fun _ => htaken
      case nodup =>
        refine List.nodup_append.mpr ⟨hinv.nodup, List.nodup_singleton run, ?_⟩
        rintro waiter hold other hnew rfl
        rw [List.mem_singleton.mp hnew] at hold
        exact hwaiting hold
      case ready =>
        refine ⟨hready.unstopped, fun waiter hwaiter => ?_⟩
        rcases List.mem_append.mp hwaiter with hold | hnew
        · exact hready.waits waiter hold
        · rw [List.mem_singleton.mp hnew]
          exact hwaits

theorem CapacityInvariant.passOn {release : SlotRelease}
    {store' : ProductStore} {passed : List ProductStore} {admissions : ℕ}
    (hinv : CapacityInvariant limit s)
    (hready : ReadyFor s.slots.waiting store')
    (hholds : s.slots.executing.lookup run = some admissions)
    (h : PassedOn s.slots.executing run s.slots.waiting passed release) :
    CapacityInvariant limit ⟨store', release.slots⟩ := by
  have herased := length_keys_erase hholds
  cases h with
  | freed gone hskipped =>
      constructor
      case bounded =>
        have hle := hinv.bounded
        simp only
        omega
      case positive =>
        intro other n hother
        rw [lookup_erase_of] at hother
        split at hother
        · cases hother
        · exact hinv.positive other n hother
      case apart => simp
      case full => exact fun hne => absurd rfl hne
      case nodup => exact List.nodup_nil
      case ready => exact ⟨hready.unstopped, by simp⟩
  | granted skipped rest gone next hwaiting hskipped _ =>
      have hnext : next ∈ s.slots.waiting := by simp [hwaiting]
      have hfull := hinv.full (List.ne_nil_of_mem hnext)
      have hnone : (s.slots.executing.erase run).lookup next = none := by
        rw [lookup_erase_of]
        split
        · rfl
        · exact hinv.apart next hnext
      have hlength := length_keys_insert_of_none (n := 1) hnone
      have hrest : ∀ waiter ∈ rest, waiter ∈ s.slots.waiting := by
        intro waiter hmem
        simp [hwaiting, hmem]
      have hnodup : (next :: rest).Nodup := by
        have hall := hinv.nodup
        rw [hwaiting] at hall
        exact (List.nodup_append.mp hall).2.1
      constructor
      case bounded =>
        simp only
        omega
      case positive =>
        intro other n hother
        rw [lookup_insert_of] at hother
        split at hother
        · obtain rfl := Option.some.inj hother
          omega
        · rw [lookup_erase_of] at hother
          split at hother
          · cases hother
          · exact hinv.positive other n hother
      case apart =>
        intro waiter hmem
        have hne : waiter ≠ next := by
          rintro rfl
          exact (List.nodup_cons.mp hnodup).1 hmem
        rw [lookup_insert_of, if_neg hne, lookup_erase_of]
        split
        · rfl
        · exact hinv.apart waiter (hrest waiter hmem)
      case full =>
        intro _
        simp only
        omega
      case nodup => exact (List.nodup_cons.mp hnodup).2
      case ready => exact hready.mono hrest
  | failed skipped rest gone error hwaiting hskipped =>
      have hrest : ∀ waiter ∈ rest, waiter ∈ s.slots.waiting := by
        intro waiter hmem
        simp [hwaiting, hmem]
      constructor
      case bounded => exact hinv.bounded
      case positive => exact hinv.positive
      case apart => exact fun waiter hmem => hinv.apart waiter (hrest waiter hmem)
      case full =>
        intro hne
        refine hinv.full ?_
        rw [hwaiting]
        simp [hne]
      case nodup =>
        have hall := hinv.nodup
        rw [hwaiting] at hall
        exact (List.nodup_append.mp hall).2.1
      case ready => exact hready.mono hrest

theorem CapacityInvariant.step {event : CapacityEvent}
    (hinv : CapacityInvariant limit s) (hstep : CapacityStep limit s event t) :
    CapacityInvariant limit t := by
  cases hstep with
  | admitRun hrun =>
      exact hinv.admitRun
        (ready_of_runs (fun _ h => List.mem_cons_of_mem _ h) hinv.ready hrun)
        (admitted_of_runs List.mem_cons_self hrun)
  | @release run release passed store' hrun =>
      have hready := ready_of_runs (fun _ h => h) hinv.ready hrun
      cases released_of_runs (fun _ h => h) hinv.ready hrun with
      | idle => exact { hinv with ready := hready }
      | fewer admissions hlookup hmore =>
          have hlength :=
            length_keys_insert_of_lookup (n := admissions - 1) hlookup
          constructor
          case bounded => exact hlength ▸ hinv.bounded
          case positive =>
            intro other n hother
            rw [lookup_insert_of] at hother
            split at hother
            · obtain rfl := Option.some.inj hother
              omega
            · exact hinv.positive other n hother
          case apart =>
            intro waiter hwaiter
            have hnone := hinv.apart waiter hwaiter
            rw [lookup_insert_of, if_neg, hnone]
            rintro rfl
            cases hnone.symm.trans hlookup
          case full => exact fun hne => hlength.trans (hinv.full hne)
          case nodup => exact hinv.nodup
          case ready => exact hready
      | last admissions release hlookup _ hpassed =>
          exact hinv.passOn hready hlookup hpassed
  | @forget run =>
      have hrest : ∀ waiter ∈ (s.slots.forget run).waiting,
          waiter ∈ s.slots.waiting := fun waiter hmem =>
        List.mem_of_mem_filter hmem
      constructor
      case bounded => exact hinv.bounded
      case positive => exact hinv.positive
      case apart => exact fun waiter hmem => hinv.apart waiter (hrest waiter hmem)
      case full =>
        intro hne
        refine hinv.full ?_
        intro hempty
        simp [Slots.forget, hempty] at hne
      case nodup => exact hinv.nodup.filter _
      case ready => exact hinv.ready.mono hrest
  | move hmove =>
      exact { hinv with
        ready := @ReadyFor.moved s.slots.waiting _ _ _ hinv.ready (fun _ h => h)
          (.single hmove) }

end Steps

theorem capacityInvariant_of_reachable {limit : ℕ} {s : CapacityState}
    (hreach : (capacitySystem limit).Reachable s) :
    CapacityInvariant limit s := by
  refine hreach.invariant (P := CapacityInvariant limit) ?_ ?_
  · rintro s ⟨hslots, hunstopped⟩
    constructor
    case bounded => simp [hslots]
    case positive => simp [hslots]
    case apart => simp [hslots]
    case full => simp [hslots]
    case nodup => simp [hslots]
    case ready => exact ⟨hunstopped, by simp [hslots]⟩
  · intro s event t _ hinv hstep
    exact hinv.step hstep

/-! ## Accounts -/

/-- The admissions an event starts of a run: its own, or a grant. -/
def CapacityEvent.starts (run : InteractionId) : CapacityEvent → ℕ
  | .admitted started (.ok .start) _ => if started = run then 1 else 0
  | .released _ (.ok (some next)) _ _ => if next = run then 1 else 0
  | _ => 0

/-- The admissions an event ends of a run which holds a slot. -/
def endsAdmission (run : InteractionId)
    (step : CapacityState × CapacityEvent) : ℕ :=
  match step.2 with
  | .released released (.ok _) _ _ =>
      if released = run ∧ (step.1.slots.executing.lookup run).isSome then 1
      else 0
  | _ => 0

/-- The run an event puts at the end of the wait. -/
def CapacityEvent.joins : CapacityEvent → List InteractionId
  | .admitted run (.ok .waiting) _ => [run]
  | _ => []

/-- The admissions a run holds its slot with; none when it holds no slot. -/
def Slots.admissionsOf (slots : Slots) (run : InteractionId) : ℕ :=
  (slots.executing.lookup run).getD 0

/-- The admissions of a run started in a run of events. -/
def startsOf (run : InteractionId)
    (steps : List (CapacityState × CapacityEvent)) : ℕ :=
  (steps.map fun step => step.2.starts run).sum

/-- The admissions of a run ended in a run of events. -/
def endsOf (run : InteractionId)
    (steps : List (CapacityState × CapacityEvent)) : ℕ :=
  (steps.map (endsAdmission run)).sum

/-- The runs that began to wait, in that order. -/
def beganToWait (steps : List (CapacityState × CapacityEvent)) :
    List InteractionId :=
  steps.flatMap fun step => step.2.joins

section Accounts

variable {limit : ℕ} {s t : CapacityState}

theorem accounts_of_step {event : CapacityEvent}
    (hinv : CapacityInvariant limit s) (hstep : CapacityStep limit s event t)
    (run : InteractionId) :
    t.slots.admissionsOf run + endsAdmission run (s, event) =
      s.slots.admissionsOf run + event.starts run := by
  cases hstep with
  | @admitRun admitted answer slots' passed store' hrun =>
      have hends : endsAdmission run (s, .admitted admitted answer passed) = 0 :=
        rfl
      rw [hends]
      cases admitted_of_runs List.mem_cons_self hrun with
      | joined admissions hlookup =>
          simp only [Slots.admissionsOf, CapacityEvent.starts, lookup_insert_of]
          by_cases heq : run = admitted
          · subst heq
            simp [hlookup]
          · rw [if_neg heq, if_neg fun h => heq h.symm]
      | again => simp [CapacityEvent.starts]
      | refused answer _ _ hstart =>
          have hnone : CapacityEvent.starts run
              (.admitted admitted answer passed) = 0 := by
            unfold CapacityEvent.starts
            split
            · rename_i heq
              injection heq with _ hanswer
              exact absurd hanswer hstart
            · rename_i heq
              cases heq
            · rfl
          rw [hnone]
      | started hnone =>
          simp only [Slots.admissionsOf, Slots.started, CapacityEvent.starts,
            lookup_insert_of]
          by_cases heq : run = admitted
          · subst heq
            simp [hnone]
          · rw [if_neg heq, if_neg fun h => heq h.symm]
      | queued => simp [CapacityEvent.starts, Slots.admissionsOf, Slots.queued]
  | @release released release passed store' hrun =>
      cases released_of_runs (fun _ h => h) hinv.ready hrun with
      | idle hnone =>
          simp only [endsAdmission, CapacityEvent.starts]
          rw [if_neg]
          rintro ⟨rfl, hsome⟩
          simp [hnone] at hsome
      | fewer admissions hlookup hmore =>
          simp only [endsAdmission, CapacityEvent.starts, Slots.admissionsOf,
            lookup_insert_of]
          by_cases heq : run = released
          · subst heq
            simp only [hlookup, if_true, Option.getD_some, Option.isSome_some,
              and_self]
            omega
          · rw [if_neg heq, if_neg fun h => heq h.1.symm]
      | last admissions release hlookup hlast hpassed =>
          have hpos := hinv.positive released admissions hlookup
          cases hpassed with
          | freed gone hskipped =>
              simp only [endsAdmission, CapacityEvent.starts,
                Slots.admissionsOf, lookup_erase_of]
              by_cases heq : run = released
              · subst heq
                simp only [hlookup, if_true, Option.getD_none,
                  Option.getD_some, Option.isSome_some, and_self]
                omega
              · rw [if_neg heq, if_neg fun h => heq h.1.symm]
          | granted skipped rest gone next hwaiting =>
              have hnext : s.slots.executing.lookup next = none :=
                hinv.apart next (by simp [hwaiting])
              have hne : next ≠ released := by
                rintro rfl
                cases hnext.symm.trans hlookup
              simp only [endsAdmission, CapacityEvent.starts,
                Slots.admissionsOf, lookup_insert_of, lookup_erase_of]
              by_cases heq : run = released
              · subst heq
                rw [if_neg hne.symm, if_neg hne]
                simp only [hlookup, if_true, Option.getD_none,
                  Option.getD_some, Option.isSome_some, and_self]
                omega
              · have hreleased : ¬ (released = run ∧
                    (s.slots.executing.lookup run).isSome = true) :=
                  fun h => heq h.1.symm
                rw [if_neg hreleased, if_neg heq]
                by_cases hgranted : run = next
                · subst hgranted
                  simp [hnext]
                · rw [if_neg hgranted, if_neg fun h => hgranted h.symm]
          | failed => rfl
  | forget => rfl
  | move => rfl

theorem order_of_step {event : CapacityEvent} {began : List InteractionId}
    (hinv : CapacityInvariant limit s) (hstep : CapacityStep limit s event t)
    (hbegan : s.slots.waiting.Sublist began) :
    t.slots.waiting.Sublist (began ++ event.joins) := by
  cases hstep with
  | @admitRun admitted answer slots' passed store' hrun =>
      cases admitted_of_runs List.mem_cons_self hrun with
      | joined => exact hbegan.trans (List.sublist_append_left _ _)
      | again => exact hbegan.trans (List.sublist_append_left _ _)
      | refused => exact hbegan.trans (List.sublist_append_left _ _)
      | started => exact hbegan.trans (List.sublist_append_left _ _)
      | queued => exact hbegan.append (List.Sublist.refl _)
  | @release released release passed store' hrun =>
      have hjoins : CapacityEvent.joins
          (.released released release.answer release.gone passed) = [] := rfl
      rw [hjoins, List.append_nil]
      cases released_of_runs (fun _ h => h) hinv.ready hrun with
      | idle => exact hbegan
      | fewer => exact hbegan
      | last admissions release hlookup hlast hpassed =>
          refine List.Sublist.trans ?_ hbegan
          cases hpassed with
          | freed => exact List.nil_sublist _
          | granted skipped rest gone next hwaiting =>
              rw [hwaiting]
              exact (List.sublist_cons_self next rest).trans
                (List.sublist_append_right skipped _)
          | failed skipped rest gone error hwaiting =>
              rw [hwaiting]
              exact List.sublist_append_right skipped rest
  | forget =>
      rw [show CapacityEvent.joins (.forgotten _) = [] from rfl, List.append_nil]
      exact List.Sublist.trans List.filter_sublist hbegan
  | move => simpa [CapacityEvent.joins] using hbegan

end Accounts

/-! ## The guarantee -/

/-- What is promised of the run capacity after any run of events. -/
structure CapacityFair (limit : ℕ)
    (steps : List (CapacityState × CapacityEvent)) (s : CapacityState) : Prop where
  /-- At most `limit` distinct runs hold slots. -/
  bounded : s.slots.executing.keys.Nodup ∧
    s.slots.executing.keys.length ≤ limit
  /-- No run holds a slot and waits. -/
  apart : ∀ run ∈ s.slots.waiting, s.slots.executing.lookup run = none
  /-- While a run waits every slot is taken. -/
  full : s.slots.waiting ≠ [] → s.slots.executing.keys.length = limit
  /-- The wait is in the order the runs began to wait, each run once. -/
  ordered : s.slots.waiting.Sublist (beganToWait steps) ∧
    s.slots.waiting.Nodup
  /-- A run holds a slot exactly while fewer of its admissions have ended than
  were started. -/
  accounted : ∀ run,
    s.slots.admissionsOf run + endsOf run steps = startsOf run steps ∧
      ((s.slots.executing.lookup run).isSome ↔
        endsOf run steps < startsOf run steps)
  /-- The next admission: only a run read without a pending Stop takes a free
  slot, and only while none waits; a duplicate joins its run's slot. -/
  admits : ∀ run answer passed t,
    CapacityStep limit s (.admitted run answer passed) t →
    Admitted limit s.slots run passed t.store answer t.slots
  /-- The next release: the oldest waiting run that is neither stopped nor gone
  takes the slot, read or claimed without a pending Stop. -/
  releases : ∀ run answer gone passed t,
    CapacityStep limit s (.released run answer gone passed) t →
    Released s.slots run passed ⟨answer, t.slots, gone⟩

theorem capacityFair {limit : ℕ}
    {steps : List (CapacityState × CapacityEvent)} {s : CapacityState}
    (htrace : (capacitySystem limit).Trace steps s) :
    CapacityFair limit steps s := by
  have hinv := capacityInvariant_of_reachable htrace.reachable
  have haccounts : ∀ run,
      s.slots.admissionsOf run + endsOf run steps = startsOf run steps := by
    intro run
    clear hinv
    induction htrace with
    | init h => simp [h.1, Slots.admissionsOf, endsOf, startsOf]
    | @step steps s t event hprefix hstep ih =>
        have hinv := capacityInvariant_of_reachable hprefix.reachable
        have hlast := accounts_of_step hinv hstep run
        simp only [endsOf, startsOf, List.map_append, List.map_cons,
          List.map_nil, List.sum_append, List.sum_cons, List.sum_nil] at ih ⊢
        omega
  have horder : s.slots.waiting.Sublist (beganToWait steps) := by
    clear hinv haccounts
    induction htrace with
    | init h => simp [h.1]
    | @step steps s t event hprefix hstep ih =>
        have hinv := capacityInvariant_of_reachable hprefix.reachable
        have hlast := order_of_step hinv hstep ih
        simpa [beganToWait, List.flatMap_append] using hlast
  constructor
  case bounded => exact ⟨s.slots.executing.keys_nodup, hinv.bounded⟩
  case apart => exact hinv.apart
  case full => exact hinv.full
  case ordered => exact ⟨horder, hinv.nodup⟩
  case accounted =>
    intro run
    refine ⟨haccounts run, ?_⟩
    have hsum := haccounts run
    cases hlookup : s.slots.executing.lookup run with
    | none =>
        simp only [Slots.admissionsOf, hlookup, Option.getD_none] at hsum
        simp only [Option.isSome_none, Bool.false_eq_true, false_iff]
        omega
    | some admissions =>
        have hpos := hinv.positive run admissions hlookup
        simp only [Slots.admissionsOf, hlookup, Option.getD_some] at hsum
        simp only [Option.isSome_some, true_iff]
        omega
  case admits =>
    intro run answer passed t hstep
    exact admitted_of_step hstep
  case releases =>
    intro run answer gone passed t hstep
    exact released_of_step hinv.ready hstep

/-! ## A run with a Stop that is delivered again -/

namespace CapacitySample

def thread : ThreadId := ⟨.early 0⟩

def run : InteractionId := ⟨.early 1⟩

/-- A person's run whose start was claimed. -/
def claimed : ProductStore where
  threads _ :=
    some
      { archivedAt := none
        icon := none
        iconSelectionEligible := true
        surface := "conversation"
        conversationImportId := none }
  interactions interaction :=
    if interaction = run then
      some
        { threadId := thread
          completionStatus := .submitted
          graphNodeId := none
          harnessConfigurationName := none
          harnessConfigurationDigest := none
          effectiveExecutionDigest := none
          effectivePermissionReceiptJson := none
          completionOutputJson := none
          completionError := none }
    else
      none
  executions := ∅
  actionInvocations := []
  attempts := []
  stopRequests _ := none
  nodeRuns _ := none
  capacityWaits _ := false

def stopping : ProductStore := claimed.withStopRequest run

/-- The slots once the run was admitted. -/
def executing : Slots := Slots.started ⟨∅, []⟩ run

theorem admitted :
    CapacityStep 1 ⟨claimed, ⟨∅, []⟩⟩
      (.admitted run (.ok .start) [claimed, claimed]) ⟨claimed, executing⟩ :=
  .admitRun (.served (.done _ _))

theorem stopped :
    CapacityStep 1 ⟨claimed, executing⟩ .moved ⟨stopping, executing⟩ :=
  .move (@RunMoves.stop _ _ _ thread run .notQueued rfl)

theorem joined :
    CapacityStep 1 ⟨stopping, executing⟩
      (.admitted run (.ok .start) [stopping])
      ⟨stopping, ⟨executing.executing.insert run 2, []⟩⟩ :=
  .admitRun (.done _ _)

theorem began : (capacitySystem 1).init ⟨claimed, ⟨∅, []⟩⟩ := by
  refine ⟨rfl, fun interaction hwaits => ?_⟩
  simp [waitsForCapacity, claimed] at hwaits

/-- The run starts and is asked to stop. -/
theorem trace :
    (capacitySystem 1).Trace
      [(⟨claimed, ⟨∅, []⟩⟩, .admitted run (.ok .start) [claimed, claimed]),
        (⟨claimed, executing⟩, .moved)]
      ⟨stopping, executing⟩ :=
  .step (.step (.init began) admitted) stopped

end CapacitySample

/-- A second delivery of a run that holds a slot is told to start although the
run carries a pending Stop. -/
theorem capacitySample_starts_stopped :
    ¬ ∀ (limit : ℕ) (steps : List (CapacityState × CapacityEvent))
        (s : CapacityState),
      (capacitySystem limit).Trace steps s →
      ∀ run passed t,
        CapacityStep limit s (.admitted run (.ok .start) passed) t →
        ¬ ∀ at' ∈ passed, at'.stopPending run = true := by
  intro hnever
  refine hnever 1 _ _ CapacitySample.trace _ _ _ CapacitySample.joined ?_
  intro at' hat
  rw [List.mem_singleton.mp hat]
  decide

theorem capacityFair_sample :
    CapacityFair 1
      [(⟨CapacitySample.claimed, ⟨∅, []⟩⟩,
          .admitted CapacitySample.run (.ok .start)
            [CapacitySample.claimed, CapacitySample.claimed]),
        (⟨CapacitySample.claimed, CapacitySample.executing⟩, .moved)]
      ⟨CapacitySample.stopping, CapacitySample.executing⟩ :=
  capacityFair CapacitySample.trace

end RelayerGraph
