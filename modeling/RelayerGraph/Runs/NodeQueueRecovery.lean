import RelayerGraph.Runs.NodeQueueRows

/-!
# No run is lost while no commit is ambiguous

Along runs in which a call that reports an error has left its row alone, the
live queue and the rows agree.  A claim that took effect unreported breaks
this: its run is neither queued nor started.
-/

namespace RelayerGraph

open Foundation NodeState ProductStore

/-- The run waits at the node and is ready. -/
def ReadyIn (node : Option NodeState) (run : InteractionId) : Prop :=
  ∃ state, node = some state ∧
    ∃ position, (position, ⟨run, true⟩) ∈ state.waiting.entries

/-- The run waits at the node. -/
def WaitsIn (node : Option NodeState) (run : InteractionId) : Prop :=
  ∃ state, node = some state ∧ ∃ place ∈ state.waiting.entries, place.2.run = run

/-- Rows and the live queues agree. -/
structure RowsInvariant (runs : NodeRuns) (s : NodeQueueState) : Prop where
  capacity : CapacityRows (mayWait s.requests) s.store.store
  queued : ∀ run, s.store.store.queuedBehindNode run = true →
    ReadyIn (s.nodes (runs.key run)) run
  kept : ∀ run, ReadyIn (s.nodes (runs.key run)) run →
    s.store.store.queuedBehindNode run = true ∨ run ∈ s.store.stops

section Nodes

variable {runs : NodeRuns} {key : NodeRunKey} {node node' : Option NodeState}
  {state state' : NodeState} {requests : Multiset Request}
  {run other : InteractionId} {position : Position} {arrival : Arrival}

theorem readyIn_some : ReadyIn (some state) run ↔
    ∃ position, (position, ⟨run, true⟩) ∈ state.waiting.entries := by
  simp [ReadyIn]

theorem waitsIn_some : WaitsIn (some state) run ↔
    ∃ place ∈ state.waiting.entries, place.2.run = run := by
  simp [WaitsIn]

theorem readyIn_default : ReadyIn (some (node.getD .free)) run ↔
    ReadyIn node run := by
  cases node with
  | none => simp [ReadyIn, free]
  | some state => rfl

theorem waitsIn_default : WaitsIn (some (node.getD .free)) run ↔
    WaitsIn node run := by
  cases node with
  | none => simp [WaitsIn, free]
  | some state => rfl

theorem ReadyIn.waits (h : ReadyIn node run) : WaitsIn node run := by
  obtain ⟨state, rfl, position, hmem⟩ := h
  exact ⟨state, rfl, _, hmem, rfl⟩

/-- A waiting run has no request that was told to start. -/
theorem QueueInvariant.not_mayWait
    (hqueue : QueueInvariant runs key node requests) (hkey : runs.key run = key)
    (hwaits : WaitsIn node run) : ¬ mayWait requests run := by
  intro hstarted
  have hpos := owed_pos_of_started hstarted
  obtain ⟨state, rfl, place, hplace, hrun⟩ := hwaits
  have hnode := hqueue.wellFormed state rfl
  cases hholder : state.holder with
  | none => simp [hnode.behind hholder] at hplace
  | some holder =>
      have hother : holder.run ≠ run := fun hsame =>
        hnode.apart holder hholder place hplace (hrun.trans hsame.symm)
      have hzero := (hqueue.owed_of_other hholder hother hkey).1
      omega

/-! ## What each operation keeps of a queue -/

/-- Both readiness and waiting survive, and nothing becomes ready. -/
structure KeepsPlaces (node node' : Option NodeState) : Prop where
  ready : ∀ run, ReadyIn node' run ↔ ReadyIn node run
  waits : ∀ run, WaitsIn node run → WaitsIn node' run

theorem KeepsPlaces.of_same (h : state'.waiting = state.waiting) :
    KeepsPlaces (some state) (some state') := by
  constructor
  · intro run
    rw [readyIn_some, readyIn_some, h]
  · intro run hwaits
    rw [waitsIn_some] at hwaits ⊢
    rwa [h]

theorem keepsPlaces_join
    (hfree : state.waiting.waits run = false →
      ∀ place ∈ state.waiting.entries, place.1 ≠ position)
    (hjoined : Joined state run position arrival state') :
    KeepsPlaces (some state) (some state') := by
  cases hjoined with
  | again => exact .of_same rfl
  | waits => exact .of_same rfl
  | takes => exact .of_same rfl
  | behind holder hholder hother hwaits =>
      constructor
      · intro other
        rw [readyIn_some, readyIn_some]
        constructor
        · rintro ⟨at', hmem⟩
          rcases OrderedMap.mem_insert.mp hmem with hnew | ⟨hold, -⟩
          · simp at hnew
          · exact ⟨at', hold⟩
        · rintro ⟨at', hmem⟩
          exact ⟨at', OrderedMap.mem_insert.mpr
            (.inr ⟨hmem, hfree hwaits _ hmem⟩)⟩
      · intro other hthere
        rw [waitsIn_some] at hthere ⊢
        obtain ⟨place, hplace, hrun⟩ := hthere
        exact ⟨place, OrderedMap.mem_insert.mpr
          (.inr ⟨hplace, hfree hwaits _ hplace⟩), hrun⟩

theorem keepsPlaces_append {placed : List (Position × Waiter)}
    (hentries : state'.waiting.entries = state.waiting.entries ++ placed)
    (hunready : ∀ place ∈ placed, place.2.ready = false) :
    KeepsPlaces (some state) (some state') := by
  constructor
  · intro run
    rw [readyIn_some, readyIn_some, hentries]
    constructor
    · rintro ⟨at', hmem⟩
      rcases List.mem_append.mp hmem with hold | hnew
      · exact ⟨at', hold⟩
      · cases hunready _ hnew
    · rintro ⟨at', hmem⟩
      exact ⟨at', List.mem_append_left _ hmem⟩
  · intro run hthere
    rw [waitsIn_some] at hthere ⊢
    obtain ⟨place, hplace, hrun⟩ := hthere
    exact ⟨place, hentries ▸ List.mem_append_left _ hplace, hrun⟩

theorem keepsPlaces_restore : KeepsPlaces node (restorePromotion node run) := by
  cases node with
  | none => exact ⟨fun _ => Iff.rfl, fun _ => id⟩
  | some state => exact .of_same rfl

/-- A departure's first part drops at most an unready waiter of its run. -/
theorem depart_places {owns : Bool}
    (hdepart : NodeState.depart node run arrival = (owns, node')) :
    (∀ other, ReadyIn node' other ↔ ReadyIn node other) ∧
      ∀ other, other ≠ run → WaitsIn node other → WaitsIn node' other := by
  have hkeeps : KeepsPlaces node node' →
      (∀ other, ReadyIn node' other ↔ ReadyIn node other) ∧
        ∀ other, other ≠ run → WaitsIn node other → WaitsIn node' other :=
    fun hkeeps => ⟨hkeeps.ready, fun other _ => hkeeps.waits other⟩
  unfold NodeState.depart at hdepart
  split at hdepart
  · obtain ⟨-, rfl⟩ := Prod.mk.inj hdepart
    exact hkeeps ⟨fun _ => Iff.rfl, fun _ => id⟩
  · split at hdepart
    · obtain ⟨-, rfl⟩ := Prod.mk.inj hdepart
      exact hkeeps (.of_same rfl)
    · obtain ⟨-, rfl⟩ := Prod.mk.inj hdepart
      constructor
      · intro other
        rw [readyIn_some, readyIn_some]
        constructor
        · rintro ⟨at', hmem⟩
          exact ⟨at', (OrderedMap.mem_retain.mp hmem).1⟩
        · rintro ⟨at', hmem⟩
          exact ⟨at', OrderedMap.mem_retain.mpr ⟨hmem, by simp⟩⟩
      · intro other hother hthere
        rw [waitsIn_some] at hthere ⊢
        obtain ⟨place, hplace, hrun⟩ := hthere
        exact ⟨place, OrderedMap.mem_retain.mpr
          ⟨hplace, by simp [hrun, hother]⟩, hrun⟩
    · split at hdepart
      · obtain ⟨-, rfl⟩ := Prod.mk.inj hdepart
        exact hkeeps (.of_same rfl)
      · obtain ⟨-, rfl⟩ := Prod.mk.inj hdepart
        exact hkeeps (.of_same rfl)
    · obtain ⟨-, rfl⟩ := Prod.mk.inj hdepart
      exact hkeeps (.of_same rfl)

theorem enqueued_places
    (hfree : state.waiting.waits run = false →
      ∀ place ∈ state.waiting.entries,
        place.1 ≠ NodeState.position run (runs.sequence run)) :
    (∀ place ∈ state.waiting.entries,
      place ∈ (state.enqueued run (runs.sequence run)).entries) ∧
      ∃ place ∈ (state.enqueued run (runs.sequence run)).entries,
        place.2.run = run := by
  unfold NodeState.enqueued
  split
  · rename_i hwaits
    exact ⟨fun place hplace => hplace, waits_iff.mp hwaits⟩
  · rename_i hwaits
    have hwaits : state.waiting.waits run = false := by simpa using hwaits
    exact ⟨fun place hplace => OrderedMap.mem_insert.mpr
        (.inr ⟨hplace, hfree hwaits place hplace⟩),
      _, OrderedMap.mem_insert.mpr (.inl rfl), rfl⟩

theorem markReady_places {places : Places} {place : Position × Waiter}
    (hplace : place ∈ places.entries) :
    ∃ after ∈ (places.markReady run).entries, after.2.run = place.2.run ∧
      (place.2.run = run ∨ place.2.ready = true → after.2.ready = true) := by
  refine ⟨(place.1, if place.2.run = run then
      { place.2 with ready := true } else place.2),
    OrderedMap.mem_mapValues.mpr ⟨place, hplace, rfl, rfl⟩, ?_, ?_⟩
  · dsimp only
    split <;> rfl
  · dsimp only
    rintro (hrun | hready)
    · rw [if_pos hrun]
    · split
      · rfl
      · exact hready

/-- An admission keeps every ready waiter, makes only its own run ready, which
then waits, and drops at most its own run. -/
theorem admitted_places {asked : Option Arrival}
    {answer : StorageResult NodeAdmission}
    (hqueue : QueueInvariant runs key (some state) requests)
    (hkey : runs.key run = key)
    (hadmitted : NodeAdmitted state run (runs.sequence run) asked answer
      state') :
    (∀ other, ReadyIn (some state) other → ReadyIn (some state') other) ∧
      (∀ other, ReadyIn (some state') other → ReadyIn (some state) other ∨
        (other = run ∧ answer = .ok .waiting)) ∧
      (answer = .ok .waiting → ReadyIn (some state') run) ∧
      ∀ other, WaitsIn (some state) other → ¬ WaitsIn (some state') other →
        other = run ∧ answer = .ok .notQueued := by
  have hnode := hqueue.wellFormed state rfl
  have hfree : state.waiting.waits run = false →
      ∀ place ∈ state.waiting.entries,
        place.1 ≠ NodeState.position run (runs.sequence run) :=
    fun hwaits => hnode.free_of_own hkey hwaits
  obtain ⟨hkept, own, hown, hownRun⟩ := enqueued_places hfree
  cases hadmitted with
  | holds holder hholder hrun =>
      have hsame : KeepsPlaces (some state) (some { state with
          holder := some (holder.admitRun asked) }) := .of_same rfl
      exact ⟨fun other h => (hsame.ready other).mpr h,
        fun other h => .inl ((hsame.ready other).mp h), (fun h => by cases h),
        fun other h hnot => absurd (hsame.waits other h) hnot⟩
  | takes hholder =>
      have hempty := hnode.behind hholder
      refine ⟨fun other h => ?_, fun other h => ?_, (fun h => by cases h),
        fun other h hnot => ?_⟩
      · rw [readyIn_some, hempty] at h
        simp at h
      · rw [readyIn_some] at h
        simp [taken, Places.removeWaiter, hempty] at h
      · rw [waitsIn_some, hempty] at h
        simp at h
  | waits holder hholder hother =>
      have hready : ReadyIn (some { state with
          waiting := (state.enqueued run (runs.sequence run)).markReady run })
          run := by
        obtain ⟨after, hafter, hrun, hmark⟩ := @markReady_places run _ _ hown
        refine readyIn_some.mpr ⟨after.1, ?_⟩
        have hsame : after = (after.1, ⟨run, true⟩) := by
          obtain ⟨at', waiter⟩ := after
          cases waiter
          simp only at hrun hmark
          rw [hrun, hownRun, hmark (.inl hownRun)]
        exact hsame ▸ hafter
      refine ⟨fun other h => ?_, fun other h => ?_, fun _ => hready,
        fun other h hnot => ?_⟩
      · obtain ⟨at', hmem⟩ := readyIn_some.mp h
        obtain ⟨after, hafter, hrun, hmark⟩ :=
          @markReady_places run _ _ (hkept _ hmem)
        refine readyIn_some.mpr ⟨after.1, ?_⟩
        have hsame : after = (after.1, ⟨other, true⟩) := by
          obtain ⟨at', waiter⟩ := after
          cases waiter
          simp only at hrun hmark
          rw [hrun, hmark (.inr trivial)]
        exact hsame ▸ hafter
      · obtain ⟨at', hmem⟩ := readyIn_some.mp h
        obtain ⟨before, hbefore, -, hrun, ⟨hown, -⟩ | ⟨hne, rfl⟩⟩ :=
          mem_markReady hmem
        · exact .inr ⟨hrun.symm.trans hown, rfl⟩
        · rcases mem_enqueued hbefore with hold | hnew
          · exact .inl (readyIn_some.mpr ⟨at', hold⟩)
          · simp at hnew
      · obtain ⟨place, hplace, hrun⟩ := waitsIn_some.mp h
        obtain ⟨after, hafter, hsame, -⟩ :=
          @markReady_places run _ _ (hkept _ hplace)
        exact absurd (waitsIn_some.mpr ⟨after, hafter, hsame.trans hrun⟩) hnot
  | refused holder hholder hother =>
      refine ⟨fun other h => ?_, fun other h => ?_, (fun h => by cases h),
        fun other h hnot => ?_⟩
      · obtain ⟨at', hmem⟩ := readyIn_some.mp h
        exact readyIn_some.mpr ⟨at', OrderedMap.mem_retain.mpr
          ⟨hkept _ hmem, by simp⟩⟩
      · obtain ⟨at', hmem⟩ := readyIn_some.mp h
        rcases mem_enqueued (OrderedMap.mem_retain.mp hmem).1 with hold | hnew
        · exact .inl (readyIn_some.mpr ⟨at', hold⟩)
        · simp at hnew
      · obtain ⟨place, hplace, hrun⟩ := waitsIn_some.mp h
        refine ⟨?_, rfl⟩
        by_contra hother'
        exact hnot (waitsIn_some.mpr ⟨place, OrderedMap.mem_retain.mpr
          ⟨hkept _ hplace, by simp [hrun, hother']⟩, hrun⟩)
  | failed holder error hholder hother =>
      have hunqueued : ∀ place ∈ state.waiting.entries,
          place ∈ (state.unqueued run (runs.sequence run)).entries := by
        intro place hplace
        unfold NodeState.unqueued
        split
        · exact hplace
        · rename_i hwaits
          have hwaits : state.waiting.waits run = false := by simpa using hwaits
          exact OrderedMap.mem_retain.mpr
            ⟨hkept _ hplace, by simpa using not_waits_iff.mp hwaits place hplace⟩
      refine ⟨fun other h => ?_, fun other h => ?_, (fun h => by cases h),
        fun other h hnot => ?_⟩
      · obtain ⟨at', hmem⟩ := readyIn_some.mp h
        exact readyIn_some.mpr ⟨at', hunqueued _ hmem⟩
      · obtain ⟨at', hmem⟩ := readyIn_some.mp h
        exact .inl (readyIn_some.mpr ⟨at', mem_unqueued hmem⟩)
      · obtain ⟨place, hplace, hrun⟩ := waitsIn_some.mp h
        exact absurd (waitsIn_some.mpr ⟨place, hunqueued _ hplace, hrun⟩) hnot

/-- A release passes over ready runs that left the queue; every other place
stays, or its run gets the node. -/
theorem released_places {t : QueueStore}
    {answer : StorageResult (Option InteractionId)}
    (hqueue : QueueInvariant runs key node requests)
    (hreleased : NodeReleased node run t answer node') :
    (∀ other, ReadyIn node' other → ReadyIn node other ∧
      other ∉ dispatched answer) ∧
      (∀ other, ReadyIn node other → ReadyIn node' other ∨
        t.store.queuedBehindNode other = false) ∧
      (∀ next ∈ dispatched answer, (holderOf node' next).isSome) ∧
      ∀ other, WaitsIn node other → WaitsIn node' other ∨
        (holderOf node' other).isSome ∨
        (ReadyIn node other ∧ t.store.queuedBehindNode other = false ∧
          other ∉ dispatched answer) := by
  have hkeeps : KeepsPlaces node node' → dispatched answer = [] →
      (∀ other, ReadyIn node' other → ReadyIn node other ∧
        other ∉ dispatched answer) ∧
      (∀ other, ReadyIn node other → ReadyIn node' other ∨
        t.store.queuedBehindNode other = false) ∧
      (∀ next ∈ dispatched answer, (holderOf node' next).isSome) ∧
      ∀ other, WaitsIn node other → WaitsIn node' other ∨
        (holderOf node' other).isSome ∨
        (ReadyIn node other ∧ t.store.queuedBehindNode other = false ∧
          other ∉ dispatched answer) := by
    intro hkeeps hnone
    rw [hnone]
    exact ⟨fun other h => ⟨(hkeeps.ready other).mp h, by simp⟩,
      fun other h => .inl ((hkeeps.ready other).mpr h), by simp,
      fun other h => .inl (hkeeps.waits other h)⟩
  cases hreleased with
  | idle hnot => exact hkeeps ⟨fun _ => Iff.rfl, fun _ => id⟩ rfl
  | fewer state holder hstate hholder hrun hmore =>
      subst hstate
      exact hkeeps (.of_same rfl) rfl
  | last state holder answer node' hstate hholder hrun hlast hhanded =>
      subst hstate
      have hnode := hqueue.wellFormed state rfl
      -- A place passed over is one of a ready run that left the queue.
      have hleft : ∀ place ∈ state.waiting.entries, LeftQueue t place →
          ReadyIn (some state) place.2.run ∧
            t.store.queuedBehindNode place.2.run = false := by
        rintro ⟨position, waiter⟩ hplace ⟨hready, hnot⟩
        refine ⟨readyIn_some.mpr ⟨position, ?_⟩, hnot⟩
        cases waiter
        simp only at hready
        exact hready ▸ hplace
      cases hhanded with
      | freed hskipped =>
          refine ⟨?_, ?_, by simp, ?_⟩
          · rintro other ⟨state', hstate', -⟩
            cases hstate'
          · intro other hready
            obtain ⟨position, hmem⟩ := readyIn_some.mp hready
            exact .inr (hskipped _ hmem).2
          · intro other hwaits
            obtain ⟨place, hplace, rfl⟩ := waitsIn_some.mp hwaits
            obtain ⟨hready, hnot⟩ := hleft place hplace (hskipped place hplace)
            exact .inr (.inr ⟨hready, hnot, by simp⟩)
      | claimed skipped rest position next hrest hplaces hskipped hnext =>
          have hholds : (holderOf (some ⟨some ⟨next.run, 1, false⟩,
              ⟨rest, hrest⟩⟩) next.run).isSome := by
            simp [holderOf]
          have hcases : ∀ place ∈ state.waiting.entries,
              place ∈ skipped ∨ place = (position, next) ∨ place ∈ rest := by
            simp [hplaces]
          refine ⟨?_, ?_, by simpa using hholds, ?_⟩
          · intro other hready
            obtain ⟨at', hmem⟩ := readyIn_some.mp hready
            refine ⟨readyIn_some.mpr ⟨at', ?_⟩, ?_⟩
            · rw [hplaces]
              exact List.mem_append_right _ (List.mem_cons_of_mem _ hmem)
            · rw [dispatched_some, List.mem_singleton]
              exact hnode.apart_of_rest hplaces _ hmem
          · intro other hready
            obtain ⟨at', hmem⟩ := readyIn_some.mp hready
            rcases hcases _ hmem with hskip | hsame | hrest
            · exact .inr (hskipped _ hskip).2
            · obtain ⟨-, hwaiter⟩ := Prod.mk.inj hsame
              have hrun : other = next.run := congrArg Waiter.run hwaiter
              exact .inr (hrun ▸ hnext.2)
            · exact .inl (readyIn_some.mpr ⟨at', hrest⟩)
          · intro other hwaits
            obtain ⟨place, hplace, rfl⟩ := waitsIn_some.mp hwaits
            by_cases hrun : place.2.run = next.run
            · exact .inr (.inl (hrun ▸ hholds))
            · rcases hcases place hplace with hskip | rfl | hrest
              · obtain ⟨hready, hnot⟩ := hleft place hplace (hskipped place hskip)
                exact .inr (.inr ⟨hready, hnot, by simpa using hrun⟩)
              · exact absurd rfl hrun
              · exact .inl (waitsIn_some.mpr ⟨place, hrest, rfl⟩)
      | promoted skipped rest position next hrest hplaces hskipped hunready =>
          have hholds : (holderOf (some ⟨some ⟨next.run, 1, true⟩,
              ⟨rest, hrest⟩⟩) next.run).isSome := by
            simp [holderOf]
          have hcases : ∀ place ∈ state.waiting.entries,
              place ∈ skipped ∨ place = (position, next) ∨ place ∈ rest := by
            simp [hplaces]
          refine ⟨?_, ?_, by simp, ?_⟩
          · intro other hready
            obtain ⟨at', hmem⟩ := readyIn_some.mp hready
            refine ⟨readyIn_some.mpr ⟨at', ?_⟩, by simp⟩
            rw [hplaces]
            exact List.mem_append_right _ (List.mem_cons_of_mem _ hmem)
          · intro other hready
            obtain ⟨at', hmem⟩ := readyIn_some.mp hready
            rcases hcases _ hmem with hskip | hsame | hrest
            · exact .inr (hskipped _ hskip).2
            · obtain ⟨-, hwaiter⟩ := Prod.mk.inj hsame
              have htrue : true = next.ready := congrArg Waiter.ready hwaiter
              cases htrue.trans hunready
            · exact .inl (readyIn_some.mpr ⟨at', hrest⟩)
          · intro other hwaits
            obtain ⟨place, hplace, rfl⟩ := waitsIn_some.mp hwaits
            rcases hcases place hplace with hskip | rfl | hrest
            · obtain ⟨hready, hnot⟩ := hleft place hplace (hskipped place hskip)
              exact .inr (.inr ⟨hready, hnot, by simp⟩)
            · exact .inr (.inl hholds)
            · exact .inl (waitsIn_some.mpr ⟨place, hrest, rfl⟩)
      | failed skipped rest error hrest hplaces hskipped =>
          have hcases : ∀ place ∈ state.waiting.entries,
              place ∈ skipped ∨ place ∈ rest := by
            simp [hplaces]
          refine ⟨?_, ?_, by simp, ?_⟩
          · intro other hready
            obtain ⟨at', hmem⟩ := readyIn_some.mp hready
            refine ⟨readyIn_some.mpr ⟨at', ?_⟩, by simp⟩
            rw [hplaces]
            exact List.mem_append_right _ hmem
          · intro other hready
            obtain ⟨at', hmem⟩ := readyIn_some.mp hready
            rcases hcases _ hmem with hskip | hrest
            · exact .inr (hskipped _ hskip).2
            · exact .inl (readyIn_some.mpr ⟨at', hrest⟩)
          · intro other hwaits
            obtain ⟨place, hplace, rfl⟩ := waitsIn_some.mp hwaits
            rcases hcases place hplace with hskip | hrest
            · obtain ⟨hready, hnot⟩ := hleft place hplace (hskipped place hskip)
              exact .inr (.inr ⟨hready, hnot, by simp⟩)
            · exact .inl (waitsIn_some.mpr ⟨place, hrest, rfl⟩)

end Nodes

/-! ## Every step -/

section Steps

variable {runs : NodeRuns} {s t : NodeQueueState} {event : NodeEvent}
  {key : NodeRunKey} {node : Option NodeState}

/-- A step which leaves the store and keeps readiness keeps the agreement. -/
theorem RowsInvariant.of_places (hrows : RowsInvariant runs s)
    (hstore : t.store = s.store)
    (hnodes : t.nodes = Function.update s.nodes key node)
    (hready : ∀ run, ReadyIn node run ↔ ReadyIn (s.nodes key) run)
    (hmay : ∀ run, mayWait s.requests run → mayWait t.requests run) :
    RowsInvariant runs t := by
  have hnode : ∀ run, ReadyIn (t.nodes (runs.key run)) run ↔
      ReadyIn (s.nodes (runs.key run)) run := by
    intro run
    rw [hnodes]
    by_cases hkey : runs.key run = key
    · rw [hkey, Function.update_self]
      exact hready run
    · rw [Function.update_of_ne hkey]
  constructor
  case capacity =>
    intro run hwaits
    rw [hstore] at hwaits ⊢
    obtain ⟨hqueued, hwait⟩ := hrows.capacity run hwaits
    exact ⟨hqueued, hmay run hwait⟩
  case queued =>
    intro run hqueued
    rw [hstore] at hqueued
    exact (hnode run).mpr (hrows.queued run hqueued)
  case kept =>
    intro run hthere
    rw [hstore]
    exact hrows.kept run ((hnode run).mp hthere)

/-- A run that stays ready through a call that does not claim it is kept. -/
theorem RowsInvariant.keeps {mayWait' : InteractionId → Prop}
    {ambiguous : Bool} {α : Type} {p : NodeProgram α} {result : α}
    {passed : List QueueStore} {store' : QueueStore} {run : InteractionId}
    {claimed : List InteractionId} (hrows : RowsInvariant runs s)
    (hcapacity : CapacityRows mayWait' s.store.store)
    (hrun : (nodeService ambiguous mayWait').Runs p s.store passed result store')
    (hready : ReadyIn (s.nodes (runs.key run)) run) (hnot : ¬ mayWait' run)
    (hclaims : store'.claims = s.store.claims ++ claimed)
    (hclaimed : run ∉ claimed) :
    store'.store.queuedBehindNode run = true ∨ run ∈ store'.stops := by
  have hkept : KeptSince s.store.claims run s.store :=
    ⟨le_rfl, (hrows.kept run hready).imp id .inl⟩
  obtain ⟨-, hqueued | hstopped | hmore⟩ := kept_of_runs hrun hcapacity hnot hkept
  · exact .inl hqueued
  · exact .inr hstopped
  · rw [hclaims, List.count_append, List.count_eq_zero.mpr hclaimed] at hmore
    exact absurd hmore (lt_irrefl _)

theorem CapacityRows.mono {mayWait mayWait' : InteractionId → Prop}
    {store : ProductStore} (hrows : CapacityRows mayWait store)
    (hmay : ∀ run, store.capacityWaits run = true → mayWait run → mayWait' run) :
    CapacityRows mayWait' store := by
  intro run hwaits
  obtain ⟨hqueued, hwait⟩ := hrows run hwaits
  exact ⟨hqueued, hmay run hwaits hwait⟩

/-- A ready run has no request that was told to start. -/
theorem NodeQueueInvariant.not_mayWait {run : InteractionId}
    (hinv : NodeQueueInvariant runs s)
    (hwaits : WaitsIn (s.nodes (runs.key run)) run) :
    ¬ mayWait s.requests run :=
  (hinv (runs.key run)).not_mayWait rfl hwaits

/-- A release of a run, by whichever request, keeps the agreement. -/
theorem RowsInvariant.of_release {run : InteractionId}
    {requests new : Multiset Request} {store' : QueueStore}
    {answer : StorageResult (Option InteractionId)}
    {passed : List QueueStore} (hrows : RowsInvariant runs s)
    (hinv : NodeQueueInvariant runs s)
    (hsub : ∀ request ∈ requests, request ∈ s.requests)
    (hcapacity : CapacityRows (mayWait requests) s.store.store)
    (hrun : (nodeService false (mayWait requests)).Runs
      (NodeState.release (s.nodes (runs.key run)) run) s.store passed
      (answer, node) store') :
    RowsInvariant runs ⟨store',
      Function.update s.nodes (runs.key run) node, new + requests⟩ := by
  obtain ⟨hreleased, hback⟩ := nodeReleased_of_runs hrun
  obtain ⟨hready, hleft, -, -⟩ :=
    released_places (hinv (runs.key run)) hreleased
  have hclaims := claims_of_release hrun
  have hnot : ∀ other, ReadyIn (s.nodes (runs.key other)) other →
      ¬ mayWait requests other := fun other hother hmay =>
    hinv.not_mayWait hother.waits (hsub _ hmay)
  constructor
  case capacity =>
    refine (capacityRows_of_runs hrun hcapacity).mono fun other _ hmay => ?_
    exact Multiset.mem_add.mpr (.inr hmay)
  case queued =>
    intro other hqueued
    have hbefore := hrows.queued other (hback other hqueued)
    show ReadyIn (Function.update s.nodes (runs.key run) node _) other
    by_cases hkey : runs.key other = runs.key run
    · rw [hkey, Function.update_self]
      rw [hkey] at hbefore
      refine (hleft other hbefore).resolve_right fun hgone => ?_
      cases hgone.symm.trans hqueued
    · rwa [Function.update_of_ne hkey]
  case kept =>
    intro other hother
    have hother : ReadyIn (Function.update s.nodes (runs.key run) node
      (runs.key other)) other := hother
    by_cases hkey : runs.key other = runs.key run
    · rw [hkey, Function.update_self] at hother
      obtain ⟨hbefore, hnext⟩ := hready other hother
      rw [← hkey] at hbefore
      exact hrows.keeps hcapacity hrun hbefore (hnot other hbefore) hclaims hnext
    · rw [Function.update_of_ne hkey] at hother
      refine hrows.keeps hcapacity hrun hother (hnot other hother) hclaims ?_
      intro hmem
      unfold dispatched at hmem
      split at hmem
      · rename_i next
        rw [List.mem_singleton.mp hmem] at hkey
        exact hkey (keyed_of_released (hinv (runs.key run)) hreleased)
      · simp at hmem

theorem RowsInvariant.of_admit {run : InteractionId} {asked : Option Arrival}
    {requests : Multiset Request} {store' : QueueStore} {node : NodeState}
    {answer : StorageResult NodeAdmission} {passed : List QueueStore}
    (hrows : RowsInvariant runs s) (hinv : NodeQueueInvariant runs s)
    (hinv' : NodeQueueInvariant runs ⟨store',
      Function.update s.nodes (runs.key run) (some node),
      admittedRequest run asked answer + requests⟩)
    (hsub : ∀ request ∈ requests, request ∈ s.requests)
    (hcapacity : CapacityRows (mayWait requests) s.store.store)
    (hrun : (nodeService false (mayWait requests)).Runs
      ((s.nodeAt (runs.key run)).admitRun run (runs.sequence run) asked) s.store
      passed (answer, node) store') :
    RowsInvariant runs ⟨store',
      Function.update s.nodes (runs.key run) (some node),
      admittedRequest run asked answer + requests⟩ := by
  obtain ⟨hready, hback, hwaiting, -⟩ :=
    admitted_places (hinv (runs.key run)).default rfl (nodeAdmitted_of_runs hrun)
  obtain ⟨hqueuedBack, hwaitingKept⟩ := admit_rows hcapacity hrun
  have hclaims : store'.claims = s.store.claims ++ [] := by
    rw [claims_of_admitRun hrun, List.append_nil]
  have hnot : ∀ other, ReadyIn (s.nodes (runs.key other)) other →
      ¬ mayWait requests other := fun other hother hmay =>
    hinv.not_mayWait hother.waits (hsub _ hmay)
  constructor
  case capacity =>
    refine (capacityRows_of_runs hrun hcapacity).mono fun other _ hmay => ?_
    exact Multiset.mem_add.mpr (.inr hmay)
  case queued =>
    intro other hqueued
    show ReadyIn (Function.update s.nodes (runs.key run) (some node) _) other
    rcases hqueuedBack other hqueued with hold | ⟨rfl, hanswer⟩
    · have hbefore := hrows.queued other hold
      by_cases hkey : runs.key other = runs.key run
      · rw [hkey, Function.update_self]
        rw [hkey] at hbefore
        exact hready other (readyIn_default.mpr hbefore)
      · rwa [Function.update_of_ne hkey]
    · rw [Function.update_self]
      exact hwaiting hanswer
  case kept =>
    intro other hother
    have hthere : ReadyIn (Function.update s.nodes (runs.key run) (some node)
      (runs.key other)) other := hother
    by_cases hkey : runs.key other = runs.key run
    · rw [hkey, Function.update_self] at hthere
      rcases hback other hthere with hbefore | ⟨rfl, hanswer⟩
      · have hbefore := readyIn_default.mp hbefore
        rw [← hkey] at hbefore
        exact hrows.keeps hcapacity hrun hbefore (hnot other hbefore) hclaims
          (by simp)
      · have hfree : ¬ mayWait requests other := fun hmay =>
          hinv'.not_mayWait hother.waits (Multiset.mem_add.mpr (.inr hmay))
        obtain ⟨-, hqueued | hstopped | hmore⟩ := hwaitingKept hanswer hfree
        · exact .inl hqueued
        · exact .inr hstopped
        · exact absurd hmore (lt_irrefl _)
    · rw [Function.update_of_ne hkey] at hthere
      exact hrows.keeps hcapacity hrun hthere (hnot other hthere) hclaims (by simp)

theorem RowsInvariant.step (hrows : RowsInvariant runs s)
    (hinv : NodeQueueInvariant runs s) (hjoined : DepartsOwning s)
    (hstep : NodeStep runs false s event t) : RowsInvariant runs t := by
  have hinv' := hinv.step hjoined hstep
  cases hstep with
  | @arrive run arrival node harrive =>
      have hqueue := (hinv (runs.key run)).default
      have hkeeps := keepsPlaces_join
        (fun hwaits => (hqueue.wellFormed _ rfl).free_of_own rfl hwaits)
        (joined_of_arriveLocked harrive)
      refine hrows.of_places rfl rfl (fun other => ?_) ?_
      · exact (hkeeps.ready other).trans readyIn_default
      · exact fun other hmay => Multiset.mem_cons_of_mem hmay
  | @arriveAll key chain arrivals node hchain harrive =>
      obtain ⟨-, placed, hentries, -, hunready, -⟩ :=
        ((hinv key).default).joinAll hchain harrive
      have hkeeps := keepsPlaces_append hentries hunready
      refine hrows.of_places rfl rfl (fun other => ?_) ?_
      · exact (hkeeps.ready other).trans readyIn_default
      · exact fun other hmay => Multiset.mem_add.mpr (.inr hmay)
  | @admitRun run asked rest answer node passed store' hrequests hrun =>
      refine hrows.of_admit hinv hinv' ?_ ?_ hrun
      · intro request hmem
        rw [hrequests]
        exact Multiset.mem_add.mpr (.inr hmem)
      · refine hrows.capacity.mono fun other _ hmay => ?_
        rw [hrequests] at hmay
        refine (Multiset.mem_add.mp hmay).resolve_left fun hold => ?_
        cases asked <;> simp [arrivedRequest] at hold
  | @giveUp run arrival rest owns node hrequests hdepart =>
      obtain ⟨hready, -⟩ := depart_places hdepart
      refine hrows.of_places rfl rfl hready fun other hmay => ?_
      rw [hrequests] at hmay
      have hrest : mayWait rest other :=
        (Multiset.mem_cons.mp hmay).resolve_left (by simp)
      cases owns with
      | false => exact hrest
      | true => exact Multiset.mem_cons_of_mem hrest
  | @depart run arrival rest answer node passed store' hrequests hrun =>
      refine hrows.of_release hinv ?_ ?_ hrun
      · intro request hmem
        rw [hrequests]
        exact Multiset.mem_cons_of_mem hmem
      · refine hrows.capacity.mono fun other _ hmay => ?_
        rw [hrequests] at hmay
        exact (Multiset.mem_cons.mp hmay).resolve_left (by simp)
  | @restore run rest hrequests =>
      refine hrows.of_places rfl rfl keepsPlaces_restore.ready
        fun other hmay => ?_
      rw [hrequests] at hmay
      exact Multiset.mem_cons_of_mem
        ((Multiset.mem_cons.mp hmay).resolve_left (by simp))
  | @release run rest answer node passed store' hrequests hsettled hrun =>
      refine hrows.of_release hinv ?_ ?_ hrun
      · intro request hmem
        rw [hrequests]
        exact Multiset.mem_cons_of_mem hmem
      · refine hrows.capacity.mono fun other hwaits hmay => ?_
        rw [hrequests] at hmay
        rcases Multiset.mem_cons.mp hmay with hown | hrest
        · have hsame : other = run := congrArg Request.run hown
          exact hsame ▸ hsettled (hsame ▸ hwaits)
        · exact hrest
  | move hmove =>
      constructor
      case capacity => exact hrows.capacity.moves hmove
      case queued =>
        intro other hqueued
        exact hrows.queued other (nodeMoves_queued hmove hqueued)
      case kept =>
        intro other hother
        have hkept : KeptSince s.store.claims other s.store :=
          ⟨le_rfl, (hrows.kept other hother).imp id .inl⟩
        obtain ⟨-, hqueued | hstopped | hmore⟩ := hkept.moves hmove
        · exact .inl hqueued
        · exact .inr hstopped
        · rw [moves_claims hmove] at hmore
          exact absurd hmore (lt_irrefl _)

end Steps

/-! ## The guarantee -/

/-- The runs an event answers to its caller, to be started. -/
def NodeEvent.dispatches : NodeEvent → List InteractionId
  | .departed _ _ answer => dispatched answer
  | .released _ answer => dispatched answer
  | _ => []

/-- The runs answered to callers in a run of events. -/
def dispatchesOf (steps : List (NodeQueueState × NodeEvent)) :
    List InteractionId :=
  steps.flatMap fun step => step.2.dispatches

/-- A request of the run gives its place up: it departs, or its admission found
the run ended or stopped. -/
def NodeEvent.leavesBy (run : InteractionId) : NodeEvent → Prop
  | .gaveUp own _ => own = run
  | .admitted own _ answer => own = run ∧ answer = .ok .notQueued
  | _ => False

/-- No run is lost, after a run of events. -/
structure NodeQueueKeeps (runs : NodeRuns) (ambiguous : Bool)
    (steps : List (NodeQueueState × NodeEvent)) (s : NodeQueueState) : Prop where
  /-- A row that waits behind its node has a ready waiter. -/
  queued : ∀ run, s.store.store.queuedBehindNode run = true →
    ReadyIn (s.nodes (runs.key run)) run
  /-- Each claim that took a run out of the queue was answered to one caller. -/
  answered : s.store.claims = dispatchesOf steps
  /-- A run answered to be started holds its node, until it has released. -/
  held : (∀ event t, NodeStep runs ambiguous s event t →
      ∀ next ∈ event.dispatches,
        (holderOf (t.nodes (runs.key next)) next).isSome) ∧
    ∀ run, mayWait s.requests run →
      (holderOf (s.nodes (runs.key run)) run).isSome
  /-- A run leaves the queue for its node, by a Stop, or by a request of its
  own. -/
  leaves : ∀ event t, NodeStep runs ambiguous s event t → ∀ run,
    WaitsIn (s.nodes (runs.key run)) run →
    ¬ WaitsIn (t.nodes (runs.key run)) run →
    (holderOf (t.nodes (runs.key run)) run).isSome ∨ run ∈ t.store.stops ∨
      event.leavesBy run

section Guarantee

variable {runs : NodeRuns} {s t : NodeQueueState} {event : NodeEvent}

theorem claims_of_step (hstep : NodeStep runs false s event t) :
    t.store.claims = s.store.claims ++ event.dispatches := by
  cases hstep with
  | arrive => exact (List.append_nil _).symm
  | arriveAll => exact (List.append_nil _).symm
  | admitRun hrequests hrun =>
      exact (claims_of_admitRun hrun).trans (List.append_nil _).symm
  | giveUp => exact (List.append_nil _).symm
  | depart hrequests hrun => exact claims_of_release hrun
  | restore => exact (List.append_nil _).symm
  | release hrequests hsettled hrun => exact claims_of_release hrun
  | move hmove => exact (moves_claims hmove).trans (List.append_nil _).symm

theorem rowsInvariant_of_reachable
    (hreach : (nodeQueueSystem runs false).Reachable s) :
    RowsInvariant runs s := by
  refine hreach.invariant (P := RowsInvariant runs) ?_ ?_
  · rintro s ⟨hnodes, -, -, -, hrows⟩
    constructor
    case capacity =>
      intro run hwaits
      cases (hrows run).2.symm.trans hwaits
    case queued =>
      intro run hqueued
      cases (hrows run).1.symm.trans hqueued
    case kept =>
      rintro run ⟨state, hstate, -⟩
      rw [hnodes] at hstate
      cases hstate
  · intro s event t hreach hrows hstep
    obtain ⟨hinv, hjoined⟩ := nodeQueueInvariant_of_reachable hreach
    exact hrows.step hinv hjoined hstep

/-- A release of a run keeps the place of every run that waits there, unless it
gets the node or was stopped. -/
theorem leaves_of_release {run other : InteractionId} {ambiguous : Bool}
    {requests : Multiset Request} {store' : QueueStore}
    {answer : StorageResult (Option InteractionId)} {node : Option NodeState}
    {passed : List QueueStore} (hrows : RowsInvariant runs s)
    (hinv : NodeQueueInvariant runs s)
    (hsub : ∀ request ∈ requests, request ∈ s.requests)
    (hcapacity : CapacityRows (mayWait requests) s.store.store)
    (hrun : (nodeService ambiguous (mayWait requests)).Runs
      (NodeState.release (s.nodes (runs.key run)) run) s.store passed
      (answer, node) store')
    (hclaims : store'.claims = s.store.claims ++ dispatched answer)
    (hwaits : WaitsIn (s.nodes (runs.key other)) other)
    (hgone : ¬ WaitsIn (Function.update s.nodes (runs.key run) node
      (runs.key other)) other) :
    (holderOf (Function.update s.nodes (runs.key run) node (runs.key other))
      other).isSome ∨ other ∈ store'.stops := by
  obtain ⟨hreleased, -⟩ := nodeReleased_of_runs hrun
  obtain ⟨-, -, -, hleft⟩ := released_places (hinv (runs.key run)) hreleased
  by_cases hkey : runs.key other = runs.key run
  · have hwaits' : WaitsIn (s.nodes (runs.key run)) other := hkey ▸ hwaits
    rw [hkey, Function.update_self] at hgone ⊢
    rcases hleft other hwaits' with hthere | hholds | ⟨hready, hnot, hnext⟩
    · exact absurd hthere hgone
    · exact .inl hholds
    · rw [← hkey] at hready
      have hfree : ¬ mayWait requests other := fun hmay =>
        hinv.not_mayWait hwaits (hsub _ hmay)
      refine .inr ((hrows.keeps hcapacity hrun hready hfree hclaims
        hnext).resolve_left ?_)
      simp [hnot]
  · rw [Function.update_of_ne hkey] at hgone
    exact absurd hwaits hgone

theorem leaves_of_step (hrows : RowsInvariant runs s)
    (hinv : NodeQueueInvariant runs s) (hstep : NodeStep runs false s event t)
    {run : InteractionId} (hwaits : WaitsIn (s.nodes (runs.key run)) run)
    (hgone : ¬ WaitsIn (t.nodes (runs.key run)) run) :
    (holderOf (t.nodes (runs.key run)) run).isSome ∨ run ∈ t.store.stops ∨
      event.leavesBy run := by
  have hkept : ∀ {key : NodeRunKey} {node : Option NodeState},
      (runs.key run = key → WaitsIn (s.nodes key) run → WaitsIn node run) →
      WaitsIn (Function.update s.nodes key node (runs.key run)) run := by
    intro key node hnode
    by_cases hkey : runs.key run = key
    · rw [hkey, Function.update_self]
      exact hnode hkey (hkey ▸ hwaits)
    · rwa [Function.update_of_ne hkey]
  cases hstep with
  | @arrive own arrival node harrive =>
      have hqueue := (hinv (runs.key own)).default
      have hkeeps := keepsPlaces_join
        (fun hwaits => (hqueue.wellFormed _ rfl).free_of_own rfl hwaits)
        (joined_of_arriveLocked harrive)
      exact absurd (hkept fun _ hthere =>
        hkeeps.waits run (waitsIn_default.mpr hthere)) hgone
  | @arriveAll key chain arrivals node hchain harrive =>
      obtain ⟨-, placed, hentries, -, hunready, -⟩ :=
        ((hinv key).default).joinAll hchain harrive
      have hkeeps := keepsPlaces_append hentries hunready
      exact absurd (hkept fun _ hthere =>
        hkeeps.waits run (waitsIn_default.mpr hthere)) hgone
  | @admitRun own asked rest answer node passed store' hrequests hrun =>
      obtain ⟨-, -, -, hdrops⟩ := admitted_places (hinv (runs.key own)).default
        rfl (nodeAdmitted_of_runs hrun)
      refine .inr (.inr ?_)
      by_contra hother
      refine hgone (hkept fun _ hthere => ?_)
      by_contra hnot
      obtain ⟨hown, hanswer⟩ := hdrops run (waitsIn_default.mpr hthere) hnot
      exact hother ⟨hown.symm, hanswer⟩
  | @giveUp own arrival rest owns node hrequests hdepart =>
      obtain ⟨-, hothers⟩ := depart_places hdepart
      refine .inr (.inr ?_)
      by_contra hother
      have hne : run ≠ own := fun hsame => hother hsame.symm
      exact hgone (hkept fun _ hthere => hothers run hne hthere)
  | @depart own arrival rest answer node passed store' hrequests hrun =>
      have hleaves := leaves_of_release hrows hinv ?_ ?_ hrun
        (claims_of_release hrun) hwaits hgone
      · exact hleaves.imp id .inl
      · intro request hmem
        rw [hrequests]
        exact Multiset.mem_cons_of_mem hmem
      · refine hrows.capacity.mono fun other _ hmay => ?_
        rw [hrequests] at hmay
        exact (Multiset.mem_cons.mp hmay).resolve_left (by simp)
  | restore hrequests =>
      exact absurd (hkept fun _ hthere => keepsPlaces_restore.waits run hthere)
        hgone
  | @release own rest answer node passed store' hrequests hsettled hrun =>
      have hleaves := leaves_of_release hrows hinv ?_ ?_ hrun
        (claims_of_release hrun) hwaits hgone
      · exact hleaves.imp id .inl
      · intro request hmem
        rw [hrequests]
        exact Multiset.mem_cons_of_mem hmem
      · refine hrows.capacity.mono fun other hcapacity hmay => ?_
        rw [hrequests] at hmay
        rcases Multiset.mem_cons.mp hmay with hown | hrest
        · have hsame : other = own := congrArg Request.run hown
          exact hsame ▸ hsettled (hsame ▸ hcapacity)
        · exact hrest
  | move hmove => exact absurd hwaits hgone

/-- The run an event dispatches has a request that was told to start. -/
theorem mayWait_of_dispatches (hstep : NodeStep runs false s event t)
    {next : InteractionId} (hnext : next ∈ event.dispatches) :
    mayWait t.requests next := by
  have hanswer : ∀ {answer : StorageResult (Option InteractionId)}
      {retry : Request}, next ∈ dispatched answer →
      mayWait (releasedRequest retry answer) next := by
    intro answer retry hmem
    unfold dispatched at hmem
    split at hmem
    · rw [List.mem_singleton.mp hmem]
      exact Multiset.mem_singleton_self _
    · simp at hmem
  cases hstep with
  | arrive => simp [NodeEvent.dispatches] at hnext
  | arriveAll => simp [NodeEvent.dispatches] at hnext
  | admitRun => simp [NodeEvent.dispatches] at hnext
  | giveUp => simp [NodeEvent.dispatches] at hnext
  | depart => exact Multiset.mem_add.mpr (.inl (hanswer hnext))
  | restore => simp [NodeEvent.dispatches] at hnext
  | release => exact Multiset.mem_add.mpr (.inl (hanswer hnext))
  | move => simp [NodeEvent.dispatches] at hnext

end Guarantee

/-- Along a run in which no call that took effect reports an error. -/
theorem nodeQueueKeeps {runs : NodeRuns}
    {steps : List (NodeQueueState × NodeEvent)} {s : NodeQueueState}
    (htrace : (nodeQueueSystem runs false).Trace steps s) :
    NodeQueueKeeps runs false steps s := by
  have hreach := htrace.reachable
  obtain ⟨hinv, hjoined⟩ := nodeQueueInvariant_of_reachable hreach
  have hrows := rowsInvariant_of_reachable hreach
  have hholds : ∀ {s : NodeQueueState}, NodeQueueInvariant runs s →
      ∀ run, mayWait s.requests run →
        (holderOf (s.nodes (runs.key run)) run).isSome := by
    intro s hinv run hstarted
    rw [holderOf_isSome_iff (hinv (runs.key run)) rfl]
    exact Nat.add_pos_left (owed_pos_of_started hstarted) _
  constructor
  case queued => exact hrows.queued
  case answered =>
    clear hreach hinv hjoined hrows hholds
    induction htrace with
    | init h => exact h.2.2.1
    | step hprefix hstep ih =>
        rw [claims_of_step hstep, ih]
        simp [dispatchesOf]
  case held =>
    refine ⟨fun event t hstep next hnext => ?_, hholds hinv⟩
    exact hholds (hinv.step hjoined hstep) next (mayWait_of_dispatches hstep hnext)
  case leaves =>
    intro event t hstep run hwaits hgone
    exact leaves_of_step hrows hinv hstep hwaits hgone

/-! ## A claim that took effect and reported an error -/

namespace NodeQueueSample

def row (status : CompletionStatus) : InteractionRow where
  threadId := thread
  completionStatus := status
  graphNodeId := none
  harnessConfigurationName := none
  harnessConfigurationDigest := none
  effectiveExecutionDigest := none
  effectivePermissionReceiptJson := none
  completionOutputJson := none
  completionError := none

/-- Two runs of one node, not started. -/
def created : QueueStore where
  store :=
    { threads := fun _ =>
        some
          { archivedAt := none
            icon := none
            iconSelectionEligible := true
            surface := "conversation"
            conversationImportId := none }
      interactions := fun run =>
        if run = head ∨ run = waiting then some (row .notStarted) else none
      executions := ∅
      actionInvocations := []
      attempts := []
      stopRequests := fun _ => none
      nodeRuns := fun _ => some key
      capacityWaits := fun _ => false }
  claims := []
  stops := []

/-- The second run is queued behind the first. -/
def behind : QueueStore := (created.queue waiting).2

/-- A claim of it landed. -/
def claimed : QueueStore := (behind.claim waiting).2

def failure : StorageError := .database "disk I/O error"

/-- The node once the first run started, and once the second waits. -/
def held₁ : NodeState := NodeState.free.taken head

def held₂ : NodeState :=
  { held₁ with waiting := (held₁.enqueued waiting 4).markReady waiting }

/-- One node in that state, with the first run's request. -/
def holding (store : QueueStore) (node : NodeState) : NodeQueueState where
  store := store
  nodes := Function.update (fun _ => none) key (some node)
  requests := {⟨head, .started⟩}

def fresh : NodeQueueState := ⟨created, fun _ => none, 0⟩

/-- Nobody holds the node. -/
def lost : NodeQueueState :=
  ⟨claimed, Function.update (fun _ => none) key none, 0⟩

theorem began {ambiguous : Bool} : (nodeQueueSystem runs ambiguous).init fresh := by
  refine ⟨rfl, rfl, rfl, rfl, fun run => ⟨?_, rfl⟩⟩
  by_cases h : run = head ∨ run = waiting <;>
    simp [fresh, created, queuedBehindNode, h, row]

/-- The first run starts on its node. -/
theorem starts {ambiguous : Bool} : NodeStep runs ambiguous fresh (.admitted head none (.ok .start))
    (holding created held₁) := by
  have hstep : NodeStep runs ambiguous fresh (.admitted head none (.ok .start))
      ⟨created, Function.update fresh.nodes key (some held₁),
        admittedRequest head none (.ok .start) + 0⟩ :=
    .admitRun (zero_add 0).symm (.done _ _)
  exact hstep

/-- The second waits behind it. -/
theorem waits {ambiguous : Bool} : NodeStep runs ambiguous (holding created held₁)
    (.admitted waiting none (.ok .waiting)) (holding behind held₂) := by
  have hstep : NodeStep runs ambiguous (holding created held₁)
      (.admitted waiting none (.ok .waiting))
      ⟨behind, Function.update (holding created held₁).nodes key (some held₂),
        admittedRequest waiting none (.ok .waiting) + {⟨head, .started⟩}⟩ :=
    .admitRun (zero_add _).symm (.served (.done _ _))
  rwa [show Function.update (holding created held₁).nodes key (some held₂) =
    (holding behind held₂).nodes from Function.update_idem _ _ _] at hstep

/-- The first run ends; the claim of the second takes effect and reports an
error. -/
theorem fails : NodeStep runs true (holding behind held₂)
    (.released head (.error failure)) (holding claimed held₂) := by
  have hwaits : behind.store.capacityWaits head = false := by decide
  have hstep : NodeStep runs true (holding behind held₂)
      (.released head (.error failure))
      ⟨claimed, Function.update (holding behind held₂).nodes key (some held₂),
        releasedRequest ⟨head, .started⟩ (.error failure) + 0⟩ :=
    .release rfl (fun h => by cases hwaits.symm.trans h)
      (.ambiguous failure (.inl rfl) (.done _ _))
  rwa [show Function.update (holding behind held₂).nodes key (some held₂) =
    (holding claimed held₂).nodes from Function.update_idem _ _ _] at hstep

/-- The release is retried: the claim finds nothing to claim. -/
theorem retries : NodeStep runs true (holding claimed held₂)
    (.released head (.ok none)) lost := by
  have hwaits : claimed.store.capacityWaits head = false := by decide
  have hstep : NodeStep runs true (holding claimed held₂)
      (.released head (.ok none))
      ⟨claimed, Function.update (holding claimed held₂).nodes key none,
        releasedRequest ⟨head, .started⟩ (.ok none) + 0⟩ :=
    .release rfl (fun h => by cases hwaits.symm.trans h) (.served (.done _ _))
  rwa [show Function.update (holding claimed held₂).nodes key none =
    lost.nodes from Function.update_idem _ _ _] at hstep

theorem trace : (nodeQueueSystem runs true).Trace
    [(fresh, .admitted head none (.ok .start)),
      (holding created held₁, .admitted waiting none (.ok .waiting)),
      (holding behind held₂, .released head (.error failure)),
      (holding claimed held₂, .released head (.ok none))] lost :=
  .step (.step (.step (.step (.init began) starts) waits) fails) retries

end NodeQueueSample

/-- The run whose claim took effect unreported is answered to nobody. -/
theorem nodeQueueSample_loses :
    ¬ ∀ (runs : NodeRuns) (steps : List (NodeQueueState × NodeEvent))
        (s : NodeQueueState),
      (nodeQueueSystem runs true).Trace steps s →
      NodeQueueKeeps runs true steps s := by
  intro hkeeps
  have hanswered := (hkeeps _ _ _ NodeQueueSample.trace).answered
  have hclaims : NodeQueueSample.lost.store.claims =
      [NodeQueueSample.waiting] := by
    decide
  rw [hclaims] at hanswered
  cases hanswered

theorem nodeQueueKeeps_behind :
    NodeQueueKeeps NodeQueueSample.runs false
      [(NodeQueueSample.fresh, .admitted NodeQueueSample.head none (.ok .start)),
        (NodeQueueSample.holding NodeQueueSample.created NodeQueueSample.held₁,
          .admitted NodeQueueSample.waiting none (.ok .waiting))]
      (NodeQueueSample.holding NodeQueueSample.behind NodeQueueSample.held₂) :=
  nodeQueueKeeps (.step (.step (.init NodeQueueSample.began)
    NodeQueueSample.starts) NodeQueueSample.waits)

end RelayerGraph
