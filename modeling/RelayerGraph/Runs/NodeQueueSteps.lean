import RelayerGraph.Runs.NodeQueueAccounts

/-!
# Every step keeps a node's accounts

One lemma for each operation on a node, and the invariant of all nodes along a
run.
-/

namespace RelayerGraph

open Foundation NodeState

section Requests

variable {requests rest : Multiset Request} {request : Request}
  {run other : InteractionId}

theorem owed_add : owed (requests + rest) run =
    owed requests run + owed rest run :=
  Multiset.countP_add _ _ _

theorem borrowed_add : borrowed (requests + rest) run =
    borrowed requests run + borrowed rest run :=
  Multiset.countP_add _ _ _

theorem expects_add : expects (requests + rest) run ↔
    expects requests run ∨ expects rest run :=
  Multiset.mem_add

@[simp]
theorem owed_zero : owed 0 run = 0 := rfl

@[simp]
theorem borrowed_zero : borrowed 0 run = 0 := rfl

@[simp]
theorem not_expects_zero : ¬ expects 0 run := Multiset.notMem_zero _

theorem owed_singleton : owed {request} run =
    if request.run = run ∧ request.standing.owns then 1 else 0 := by
  rw [← Multiset.cons_zero, owed_cons, owed_zero, Nat.zero_add]

theorem borrowed_singleton : borrowed {request} run =
    if request.run = run ∧ request.standing.borrows then 1 else 0 := by
  rw [← Multiset.cons_zero, borrowed_cons, borrowed_zero, Nat.zero_add]

theorem expects_singleton : expects {request} run ↔
    request = ⟨run, .arrived .waiting⟩ := by
  rw [expects, Multiset.mem_singleton, eq_comm]

end Requests

section Steps

variable {runs : NodeRuns} {key : NodeRunKey} {node : Option NodeState}
  {state : NodeState} {requests rest : Multiset Request}
  {run : InteractionId} {position : Position} {arrival : Arrival}

/-- A node that is not there is a free one. -/
theorem QueueInvariant.default (hqueue : QueueInvariant runs key node requests) :
    QueueInvariant runs key (some (node.getD .free)) requests := by
  cases node with
  | some state => exact hqueue
  | none =>
      constructor
      case wellFormed =>
        intro state hstate
        obtain rfl := Option.some.inj hstate
        constructor <;> simp [free]
      case accounted => exact hqueue.accounted
      case single => exact hqueue.single
      case expected =>
        intro other hother hexpected
        refine hqueue.expected other hother (.inl ?_)
        rcases hexpected with hpromoted | hprepares
        · exact hpromoted
        · rw [prepares_some] at hprepares
          simp [free] at hprepares

/-- A run of another queue, or one which neither holds nor waits, owes
nothing. -/
theorem QueueInvariant.owed_of_other {holder : NodeHolder}
    (hqueue : QueueInvariant runs key (some state) requests)
    (hholder : state.holder = some holder) (hother : holder.run ≠ run)
    (hkey : runs.key run = key) :
    owed requests run = 0 ∧ promotionOf (some state) run = 0 := by
  have haccounted := hqueue.accounted run hkey
  rw [admissionsOf_some hholder, if_neg hother] at haccounted
  omega

theorem QueueInvariant.owed_of_free
    (hqueue : QueueInvariant runs key (some state) requests)
    (hholder : state.holder = none) (hkey : runs.key run = key) :
    owed requests run = 0 := by
  have haccounted := hqueue.accounted run hkey
  rw [admissionsOf_free hholder, promotionOf_free hholder] at haccounted
  omega

/-! ### Joining -/

theorem QueueInvariant.join {state' : NodeState}
    (hqueue : QueueInvariant runs key (some state) requests)
    (hkey : runs.key run = key)
    (hfree : state.waiting.waits run = false →
      ∀ place ∈ state.waiting.entries, place.1 ≠ position)
    (hplaced : runs.Placed (position, ⟨run, false⟩))
    (hjoined : Joined state run position arrival state') :
    QueueInvariant runs key (some state')
      (⟨run, .arrived arrival⟩ ::ₘ requests) := by
  have hnode := hqueue.wellFormed state rfl
  cases hjoined with
  | again holder hholder hrun =>
      subst hrun
      constructor
      case wellFormed =>
        intro state' hstate
        obtain rfl := Option.some.inj hstate
        exact hnode.withHolder hholder rfl (Nat.succ_pos _)
      case accounted =>
        intro other hother
        have haccounted := hqueue.accounted other hother
        rw [admissionsOf_some hholder, promotionOf_some hholder] at haccounted
        rw [admissionsOf_some rfl, promotionOf_some rfl, owed_cons]
        simp only [Standing.owns, and_true] at *
        by_cases hsame : holder.run = other
        · simp only [hsame, if_true, true_and] at haccounted ⊢
          omega
        · simp only [hsame, if_false, false_and] at haccounted ⊢
          omega
      case single =>
        intro other hother
        have hsingle := hqueue.single other hother
        rw [promotionOf_some hholder] at hsingle
        rw [promotionOf_some rfl, borrowed_cons]
        simpa [Standing.borrows] using hsingle
      case expected =>
        intro other hother hexpected
        rw [promotionOf_some rfl, prepares_some] at hexpected
        refine expects_cons.mpr (.inr (hqueue.expected other hother ?_))
        rwa [promotionOf_some hholder, prepares_some]
  | waits holder hholder hrun hwaits =>
      constructor
      case wellFormed => exact hqueue.wellFormed
      case accounted =>
        intro other hother
        rw [owed_cons]
        simpa [Standing.owns] using hqueue.accounted other hother
      case single =>
        intro other hother
        rw [borrowed_cons]
        simpa [Standing.borrows] using hqueue.single other hother
      case expected =>
        intro other hother hexpected
        exact expects_cons.mpr (.inr (hqueue.expected other hother hexpected))
  | behind holder hholder hrun hwaits =>
      have hholder' : (NodeState.mk state.holder
          (state.waiting.insert position ⟨run, false⟩)).holder = some holder :=
        hholder
      constructor
      case wellFormed =>
        intro state' hstate
        obtain rfl := Option.some.inj hstate
        exact hnode.insert hholder hrun hkey hwaits (hfree hwaits) hplaced
      case accounted =>
        intro other hother
        have haccounted := hqueue.accounted other hother
        rw [admissionsOf_some hholder, promotionOf_some hholder] at haccounted
        rw [admissionsOf_some hholder', promotionOf_some hholder', owed_cons]
        simpa [Standing.owns] using haccounted
      case single =>
        intro other hother
        have hsingle := hqueue.single other hother
        rw [promotionOf_some hholder] at hsingle
        rw [promotionOf_some hholder', borrowed_cons]
        simpa [Standing.borrows] using hsingle
      case expected =>
        intro other hother hexpected
        rw [promotionOf_some hholder', prepares_some] at hexpected
        rw [expects_cons]
        rcases hexpected with hpromoted | ⟨at', hat⟩
        · refine .inr (hqueue.expected other hother (.inl ?_))
          rwa [promotionOf_some hholder]
        · rcases OrderedMap.mem_insert.mp hat with hnew | ⟨hold, -⟩
          · obtain ⟨-, hwaiter⟩ := Prod.mk.inj hnew
            exact .inl (by rw [(Waiter.mk.inj hwaiter).1])
          · exact .inr (hqueue.expected other hother
              (.inr (prepares_some.mpr ⟨at', hold⟩)))
  | takes hholder =>
      have hempty := hnode.behind hholder
      have howed : ∀ other, runs.key other = key → owed requests other = 0 :=
        fun other hother => hqueue.owed_of_free hholder hother
      constructor
      case wellFormed =>
        intro state' hstate
        obtain rfl := Option.some.inj hstate
        exact hnode.sublist (List.Sublist.refl _) hkey Nat.one_pos
          (by simp [hempty])
      case accounted =>
        intro other hother
        rw [admissionsOf_some (show (state.taken run).holder = _ from rfl),
          promotionOf_some (show (state.taken run).holder = _ from rfl),
          owed_cons, howed other hother]
        simp [Standing.owns]
      case single =>
        intro other hother
        have hsingle := hqueue.single other hother
        rw [promotionOf_some (show (state.taken run).holder = _ from rfl),
          borrowed_cons]
        rw [promotionOf_free hholder] at hsingle
        simpa [Standing.borrows] using hsingle
      case expected =>
        intro other hother hexpected
        rw [promotionOf_some (show (state.taken run).holder = _ from rfl),
          prepares_some] at hexpected
        simp [taken, hempty] at hexpected

/-! ### Admitting -/

theorem mem_markReady {places : Places} {place : Position × Waiter} :
    place ∈ (places.markReady run).entries →
      ∃ before ∈ places.entries, before.1 = place.1 ∧
        before.2.run = place.2.run ∧
        ((before.2.run = run ∧ place.2.ready = true) ∨
          (before.2.run ≠ run ∧ before = place)) := by
  intro hplace
  obtain ⟨before, hbefore, hkey, hvalue⟩ := OrderedMap.mem_mapValues.mp hplace
  refine ⟨before, hbefore, hkey, ?_⟩
  by_cases hrun : before.2.run = run
  · rw [if_pos hrun] at hvalue
    rw [← hvalue]
    exact ⟨rfl, .inl ⟨hrun, rfl⟩⟩
  · rw [if_neg hrun] at hvalue
    exact ⟨congrArg Waiter.run hvalue, .inr ⟨hrun, Prod.ext hkey hvalue⟩⟩

theorem runs_markReady {places : Places} :
    ((places.markReady run).entries.map fun place => place.2.run) =
      places.entries.map fun place => place.2.run := by
  simp only [Places.markReady, OrderedMap.mapValues, List.map_map]
  refine List.map_congr_left fun place _ => ?_
  simp only [Function.comp_apply]
  split <;> rfl

/-- Which runs of a queue are ready does not matter to its form. -/
theorem NodeInvariant.markReady (hnode : NodeInvariant runs key state) :
    NodeInvariant runs key
      { state with waiting := state.waiting.markReady run } := by
  constructor
  case holds => exact hnode.holds
  case keyed =>
    intro place hplace
    obtain ⟨before, hbefore, -, hrun, -⟩ := mem_markReady hplace
    exact hrun ▸ hnode.keyed before hbefore
  case once => rw [runs_markReady]; exact hnode.once
  case apart =>
    intro holder hholder place hplace
    obtain ⟨before, hbefore, -, hrun, -⟩ := mem_markReady hplace
    exact hrun ▸ hnode.apart holder hholder before hbefore
  case behind =>
    intro hfree
    simp [Places.markReady, OrderedMap.mapValues, hnode.behind hfree]
  case placed =>
    intro place hplace
    obtain ⟨before, hbefore, hposition, hrun, -⟩ := mem_markReady hplace
    have hplaced := hnode.placed before hbefore
    unfold NodeRuns.Placed at hplaced ⊢
    rwa [hposition, hrun] at hplaced

/-- Taking waiters out keeps the queue well formed. -/
theorem NodeInvariant.retain {keep : Position × Waiter → Bool}
    (hnode : NodeInvariant runs key state) :
    NodeInvariant runs key
      { state with waiting := state.waiting.retain keep } := by
  have hsub : (state.waiting.retain keep).entries.Sublist
      state.waiting.entries := List.filter_sublist
  constructor
  case holds => exact hnode.holds
  case keyed => exact fun place hplace => hnode.keyed place (hsub.subset hplace)
  case once => exact hnode.once.sublist (hsub.map _)
  case apart =>
    exact fun holder hholder place hplace =>
      hnode.apart holder hholder place (hsub.subset hplace)
  case behind =>
    intro hfree
    simp [OrderedMap.retain, hnode.behind hfree]
  case placed => exact fun place hplace => hnode.placed place (hsub.subset hplace)

theorem NodeInvariant.enqueued {holder : NodeHolder}
    (hnode : NodeInvariant runs key state) (hholder : state.holder = some holder)
    (hother : holder.run ≠ run) (hkey : runs.key run = key) :
    NodeInvariant runs key
      { state with waiting := state.enqueued run (runs.sequence run) } := by
  unfold NodeState.enqueued
  split
  · exact hnode
  · rename_i hwaits
    have hwaits : state.waiting.waits run = false := by simpa using hwaits
    exact hnode.insert hholder hother hkey hwaits
      (hnode.free_of_own hkey hwaits) placed_own

theorem mem_enqueued {sequence : ℤ} {place : Position × Waiter}
    (hplace : place ∈ (state.enqueued run sequence).entries) :
    place ∈ state.waiting.entries ∨
      place = (NodeState.position run sequence, ⟨run, false⟩) := by
  unfold NodeState.enqueued at hplace
  split at hplace
  · exact .inl hplace
  · rcases OrderedMap.mem_insert.mp hplace with hnew | ⟨hold, -⟩
    · exact .inr hnew
    · exact .inl hold

theorem mem_unqueued {sequence : ℤ} {place : Position × Waiter}
    (hplace : place ∈ (state.unqueued run sequence).entries) :
    place ∈ state.waiting.entries := by
  unfold NodeState.unqueued at hplace
  split at hplace
  · exact hplace
  · obtain ⟨hmem, hrun⟩ := OrderedMap.mem_retain.mp hplace
    rcases mem_enqueued hmem with hold | rfl
    · exact hold
    · simp at hrun

theorem NodeInvariant.unqueued {holder : NodeHolder}
    (hnode : NodeInvariant runs key state) (hholder : state.holder = some holder)
    (hother : holder.run ≠ run) (hkey : runs.key run = key) :
    NodeInvariant runs key
      { state with waiting := state.unqueued run (runs.sequence run) } := by
  unfold NodeState.unqueued
  split
  · exact hnode
  · exact NodeInvariant.retain
      (hnode.enqueued hholder hother hkey)

/-- A request that waits behind the holder leaves the accounts as they are. -/
theorem QueueInvariant.behind {holder : NodeHolder} {places : Places}
    {old new : Multiset Request}
    (hqueue : QueueInvariant runs key (some state) (old + rest))
    (hholder : state.holder = some holder) (hother : holder.run ≠ run)
    (hkey : runs.key run = key)
    (hnode : NodeInvariant runs key { state with waiting := places })
    (hold : ∀ request ∈ old, request.run = run)
    (hnew : new = 0 ∨ new = old)
    (hprepares : ∀ position other,
      (position, (⟨other, false⟩ : Waiter)) ∈ places.entries →
      (other ≠ run ∨ new = old) ∧
        (position, (⟨other, false⟩ : Waiter)) ∈ state.waiting.entries) :
    QueueInvariant runs key (some { state with waiting := places })
      (new + rest) := by
  have hholder' : (NodeState.mk state.holder places).holder = some holder :=
    hholder
  have hzero := hqueue.owed_of_other hholder hother hkey
  rw [owed_add] at hzero
  have hcount : ∀ other, runs.key other = key →
      owed new other = owed old other ∧ borrowed new other ≤ borrowed old other := by
    intro other hother'
    rcases hnew with rfl | rfl
    · refine ⟨?_, Nat.zero_le _⟩
      by_cases hsame : other = run
      · subst hsame
        rw [owed_zero]
        omega
      · symm
        refine Multiset.countP_eq_zero.mpr ?_
        rintro request hmem ⟨hrun, -⟩
        exact hsame (hrun.symm.trans (hold request hmem))
    · exact ⟨rfl, le_rfl⟩
  constructor
  case wellFormed =>
    intro state' hstate
    obtain rfl := Option.some.inj hstate
    exact hnode
  case accounted =>
    intro other hother'
    have haccounted := hqueue.accounted other hother'
    rw [admissionsOf_some hholder, promotionOf_some hholder, owed_add]
      at haccounted
    rw [admissionsOf_some hholder', promotionOf_some hholder', owed_add,
      (hcount other hother').1]
    exact haccounted
  case single =>
    intro other hother'
    have hsingle := hqueue.single other hother'
    rw [promotionOf_some hholder, borrowed_add] at hsingle
    rw [promotionOf_some hholder', borrowed_add]
    have hle := (hcount other hother').2
    omega
  case expected =>
    intro other hother' hexpected
    rw [promotionOf_some hholder', prepares_some] at hexpected
    have hbefore : expects (old + rest) other := by
      refine hqueue.expected other hother' ?_
      rw [promotionOf_some hholder, prepares_some]
      refine hexpected.imp id ?_
      rintro ⟨position, hmem⟩
      exact ⟨position, (hprepares position other hmem).2⟩
    rw [expects_add] at hbefore ⊢
    rcases hbefore with hthere | hrest
    · have hrun : other = run := hold _ hthere
      rcases hexpected with hpromoted | ⟨position, hmem⟩
      · subst hrun
        rw [if_neg fun h => hother h.1] at hpromoted
        cases hpromoted
      · rcases (hprepares position other hmem).1 with hne | hsame
        · exact absurd hrun hne
        · exact .inl (hsame ▸ hthere)
    · exact .inr hrest

theorem arrivedRequest_run {asked : Option Arrival} :
    ∀ request ∈ arrivedRequest run asked, request.run = run := by
  intro request hmem
  cases asked with
  | none => exact absurd hmem (Multiset.notMem_zero _)
  | some arrival => rw [Multiset.mem_singleton.mp hmem]

/-- One while the holder was promoted and no request took that. -/
def NodeHolder.token (holder : NodeHolder) : ℕ :=
  if holder.promoted then 1 else 0

theorem promotionOf_holder {holder : NodeHolder}
    (hholder : state.holder = some holder) :
    promotionOf (some state) holder.run = holder.token := by
  rw [promotionOf_some hholder, NodeHolder.token]
  simp

theorem admissionsOf_holder {holder : NodeHolder}
    (hholder : state.holder = some holder) :
    admissionsOf (some state) holder.run = holder.admissions := by
  rw [admissionsOf_some hholder, if_pos rfl]

/-- Requests of one run leave what every other run is owed. -/
theorem count_of_runs {old : Multiset Request} {other : InteractionId}
    (hold : ∀ request ∈ old, request.run = run) (hother : other ≠ run) :
    owed old other = 0 ∧ borrowed old other = 0 ∧ ¬ expects old other := by
  refine ⟨Multiset.countP_eq_zero.mpr ?_, Multiset.countP_eq_zero.mpr ?_, ?_⟩
  · rintro request hmem ⟨hrun, -⟩
    exact hother (hrun.symm.trans (hold request hmem))
  · rintro request hmem ⟨hrun, -⟩
    exact hother (hrun.symm.trans (hold request hmem))
  · exact fun hmem => hother (hold _ hmem)

/-- The holder's own requests and admissions change together. -/
theorem QueueInvariant.rehold {holder holder' : NodeHolder}
    {old new : Multiset Request}
    (hqueue : QueueInvariant runs key (some state) (old + rest))
    (hholder : state.holder = some holder) (hrun : holder'.run = holder.run)
    (hpos : 0 < holder'.admissions)
    (hold : ∀ request ∈ old, request.run = holder.run)
    (hnew : ∀ request ∈ new, request.run = holder.run)
    (haccount : holder'.admissions + owed old holder.run + holder.token =
      holder.admissions + owed new holder.run + holder'.token)
    (hsingle : borrowed new holder.run + holder'.token ≤
      borrowed old holder.run + holder.token)
    (hexpected : holder'.promoted = true → expects new holder.run ∨
      (holder.promoted = true ∧ ¬ expects old holder.run)) :
    QueueInvariant runs key (some { state with holder := some holder' })
      (new + rest) := by
  have hnode := hqueue.wellFormed state rfl
  have hholder' : (NodeState.mk (some holder') state.waiting).holder =
      some holder' := rfl
  have hne : ∀ other, other ≠ holder.run → holder'.run ≠ other :=
    fun other hother hsame => hother (hsame.symm.trans hrun)
  constructor
  case wellFormed =>
    intro state' hstate
    obtain rfl := Option.some.inj hstate
    exact hnode.withHolder hholder hrun hpos
  case accounted =>
    intro other hother
    have haccounted := hqueue.accounted other hother
    by_cases hsame : other = holder.run
    · subst hsame
      rw [admissionsOf_holder hholder, promotionOf_holder hholder, owed_add]
        at haccounted
      rw [← hrun, admissionsOf_holder hholder', promotionOf_holder hholder',
        hrun, owed_add]
      omega
    · rw [admissionsOf_some hholder, if_neg (Ne.symm hsame),
        promotionOf_some hholder, if_neg fun h => hsame h.1.symm, owed_add,
        (count_of_runs hold hsame).1] at haccounted
      rw [admissionsOf_some hholder', if_neg (hne other hsame),
        promotionOf_some hholder', if_neg fun h => hne other hsame h.1, owed_add,
        (count_of_runs hnew hsame).1]
      exact haccounted
  case single =>
    intro other hother
    have hbefore := hqueue.single other hother
    by_cases hsame : other = holder.run
    · subst hsame
      rw [promotionOf_holder hholder, borrowed_add] at hbefore
      rw [← hrun, promotionOf_holder hholder', hrun, borrowed_add]
      omega
    · rw [promotionOf_some hholder, if_neg fun h => hsame h.1.symm, borrowed_add,
        (count_of_runs hold hsame).2.1] at hbefore
      rw [promotionOf_some hholder', if_neg fun h => hne other hsame h.1,
        borrowed_add, (count_of_runs hnew hsame).2.1]
      exact hbefore
  case expected =>
    intro other hother hwants
    rw [expects_add]
    by_cases hsame : other = holder.run
    · subst hsame
      rcases hwants with hpromoted | hprepares
      · rw [← hrun, promotionOf_holder hholder'] at hpromoted
        have hpromoted' : holder'.promoted = true := by
          by_contra hnot
          simp [NodeHolder.token, hnot] at hpromoted
        rcases hexpected hpromoted' with hthere | ⟨hbefore, hgone⟩
        · exact .inl hthere
        · have hthere := hqueue.expected holder.run hother
            (.inl (by simp [promotionOf_holder hholder, NodeHolder.token, hbefore]))
          exact .inr ((expects_add.mp hthere).resolve_left hgone)
      · obtain ⟨position, hmem⟩ := prepares_some.mp hprepares
        exact absurd rfl (hnode.apart holder hholder _ hmem)
    · have hthere : expects (old + rest) other := by
        refine hqueue.expected other hother ?_
        rcases hwants with hpromoted | hprepares
        · rw [promotionOf_some hholder', if_neg fun h => hne other hsame h.1]
            at hpromoted
          cases hpromoted
        · rw [prepares_some] at hprepares
          exact .inr (prepares_some.mpr hprepares)
      exact .inr ((expects_add.mp hthere).resolve_left
        (count_of_runs hold hsame).2.2)

/-- A free node has no places and its runs own nothing. -/
theorem QueueInvariant.take {old new : Multiset Request}
    (hqueue : QueueInvariant runs key (some state) (old + rest))
    (hholder : state.holder = none) (hkey : runs.key run = key)
    (hnew : new = {⟨run, .started⟩}) {places : Places}
    (hplaces : places.entries.Sublist state.waiting.entries) :
    QueueInvariant runs key (some ⟨some ⟨run, 1, false⟩, places⟩)
      (new + rest) := by
  have hnode := hqueue.wellFormed state rfl
  have hempty : places.entries = [] := by
    rw [hnode.behind hholder] at hplaces
    exact List.sublist_nil.mp hplaces
  have howed : ∀ other, runs.key other = key → owed (old + rest) other = 0 :=
    fun other hother => hqueue.owed_of_free hholder hother
  have hholder' : (NodeState.mk (some ⟨run, 1, false⟩) places).holder =
    some ⟨run, 1, false⟩ := rfl
  subst hnew
  constructor
  case wellFormed =>
    intro state' hstate
    obtain rfl := Option.some.inj hstate
    exact hnode.sublist hplaces hkey Nat.one_pos (by simp [hempty])
  case accounted =>
    intro other hother
    have hzero := howed other hother
    rw [owed_add] at hzero
    rw [admissionsOf_some hholder', promotionOf_some hholder', owed_add,
      owed_singleton]
    simp only [Standing.owns, and_true, and_false, if_false, Bool.false_eq_true]
    omega
  case single =>
    intro other hother
    have hle := @borrowed_le_owed (old + rest) other
    rw [howed other hother, borrowed_add] at hle
    rw [promotionOf_some hholder', borrowed_add, borrowed_singleton]
    simp only [Standing.borrows, and_false, if_false, Bool.false_eq_true]
    omega
  case expected =>
    intro other hother hwants
    rw [promotionOf_some hholder', prepares_some] at hwants
    simp [hempty] at hwants

theorem QueueInvariant.admitRun {asked : Option Arrival}
    {answer : StorageResult NodeAdmission} {state' : NodeState}
    (hqueue : QueueInvariant runs key (some state)
      (arrivedRequest run asked + rest))
    (hkey : runs.key run = key)
    (hadmitted : NodeAdmitted state run (runs.sequence run) asked answer
      state') :
    QueueInvariant runs key (some state')
      (admittedRequest run asked answer + rest) := by
  have hnode := hqueue.wellFormed state rfl
  cases hadmitted with
  | holds holder hholder hrun =>
      subst hrun
      have hpos := (hnode.holds holder hholder).2
      have hnew : ∀ request ∈ admittedRequest holder.run asked (.ok .start),
          request.run = holder.run := by
        intro request hmem
        rw [Multiset.mem_singleton.mp hmem]
      -- Which admission the request owns depends on how it arrived.
      rcases asked with _ | ⟨_ | _ | _⟩
      case none =>
        have hadmitted : holder.admitRun none =
            { holder with admissions := holder.admissions + 1 } := rfl
        rw [hadmitted]
        refine hqueue.rehold hholder rfl (Nat.succ_pos _) arrivedRequest_run hnew
          ?_ ?_ ?_
        · simp [admittedRequest, arrivedRequest, owed_singleton, Standing.owns,
            NodeHolder.token]
        · simp [admittedRequest, arrivedRequest, borrowed_singleton,
            Standing.borrows, NodeHolder.token]
        · exact fun hpromoted => .inr ⟨hpromoted, not_expects_zero⟩
      case some.held =>
        refine hqueue.rehold hholder rfl hpos arrivedRequest_run hnew ?_ ?_ ?_
        · simp [admittedRequest, arrivedRequest, owed_singleton, Standing.owns,
            NodeHolder.admitRun]
        · simp [admittedRequest, arrivedRequest, borrowed_singleton,
            Standing.borrows, NodeHolder.admitRun]
        · refine fun hpromoted => .inr ⟨hpromoted, ?_⟩
          simp [arrivedRequest, expects_singleton]
      case some.waiting =>
        by_cases hpromoted : holder.promoted = true
        · have hadmitted : holder.admitRun (some .waiting) =
              { holder with promoted := false } := by
            simp [NodeHolder.admitRun, hpromoted]
          rw [hadmitted]
          refine hqueue.rehold hholder rfl hpos arrivedRequest_run hnew ?_ ?_ ?_
          · simp [admittedRequest, arrivedRequest, owed_singleton, Standing.owns,
              NodeHolder.token, hpromoted]
          · simp [admittedRequest, arrivedRequest, borrowed_singleton,
              Standing.borrows, NodeHolder.token]
          · exact fun h => by cases h
        · have hadmitted : holder.admitRun (some .waiting) =
              { holder with admissions := holder.admissions + 1 } := by
            simp [NodeHolder.admitRun, hpromoted]
          rw [hadmitted]
          refine hqueue.rehold hholder rfl (Nat.succ_pos _) arrivedRequest_run
            hnew ?_ ?_ ?_
          · simp [admittedRequest, arrivedRequest, owed_singleton, Standing.owns,
              NodeHolder.token]
          · simp [admittedRequest, arrivedRequest, borrowed_singleton,
              Standing.borrows, NodeHolder.token]
          · exact fun h => absurd h hpromoted
      case some.joined =>
        have hadmitted : holder.admitRun (some .joined) =
            { holder with admissions := holder.admissions + 1 } := rfl
        rw [hadmitted]
        refine hqueue.rehold hholder rfl (Nat.succ_pos _) arrivedRequest_run hnew
          ?_ ?_ ?_
        · simp [admittedRequest, arrivedRequest, owed_singleton, Standing.owns,
            NodeHolder.token]
        · simp [admittedRequest, arrivedRequest, borrowed_singleton,
            Standing.borrows, NodeHolder.token]
        · refine fun hpromoted => .inr ⟨hpromoted, ?_⟩
          simp [arrivedRequest, expects_singleton]
  | takes hholder =>
      exact hqueue.take hholder hkey rfl List.filter_sublist
  | waits holder hholder hother =>
      refine hqueue.behind hholder hother hkey ?_ arrivedRequest_run (.inl rfl) ?_
      · exact NodeInvariant.markReady
          (hnode.enqueued hholder hother hkey)
      · intro position other hmem
        obtain ⟨before, hbefore, -, -, hready | ⟨hne, rfl⟩⟩ := mem_markReady hmem
        · cases hready.2
        · rcases mem_enqueued hbefore with hold | hnew
          · exact ⟨.inl hne, hold⟩
          · rw [hnew] at hne
            exact absurd rfl hne
  | refused holder hholder hother =>
      refine hqueue.behind hholder hother hkey ?_ arrivedRequest_run (.inl rfl) ?_
      · exact NodeInvariant.retain
          (hnode.enqueued hholder hother hkey)
      · intro position other hmem
        obtain ⟨hmem, hkeep⟩ := OrderedMap.mem_retain.mp hmem
        have hne : other ≠ run := by simpa using hkeep
        rcases mem_enqueued hmem with hold | hnew
        · exact ⟨.inl hne, hold⟩
        · exact absurd (Waiter.mk.inj (Prod.mk.inj hnew).2).1 hne
  | failed holder error hholder hother =>
      refine hqueue.behind hholder hother hkey
        (hnode.unqueued hholder hother hkey) arrivedRequest_run (.inr rfl) ?_
      intro position other hmem
      exact ⟨.inr rfl, mem_unqueued hmem⟩

/-! ### Departing -/

/-- What the first part of a departure leaves of its request. -/
def gaveUpRequest (run : InteractionId) (arrival : Arrival) (owns : Bool) :
    Multiset Request :=
  if owns then {⟨run, .departing arrival⟩} else 0

/-- A request that owns nothing and expects nothing ends. -/
theorem QueueInvariant.forget {request : Request}
    (hqueue : QueueInvariant runs key node ({request} + rest))
    (hzero : owed {request} request.run = 0)
    (hgone : NodeState.promotionOf node request.run = 1 ∨
      NodeState.prepares node request.run →
      request ≠ ⟨request.run, .arrived .waiting⟩) :
    QueueInvariant runs key node rest := by
  have howns : request.standing.owns = false := by
    rw [owed_singleton] at hzero
    by_contra hnot
    rw [Bool.not_eq_false] at hnot
    simp [hnot] at hzero
  have hcount : ∀ other, owed {request} other = 0 := by
    intro other
    rw [owed_singleton, howns]
    simp
  constructor
  case wellFormed => exact hqueue.wellFormed
  case accounted =>
    intro other hother
    have haccounted := hqueue.accounted other hother
    rw [owed_add, hcount other] at haccounted
    omega
  case single =>
    intro other hother
    have hsingle := hqueue.single other hother
    rw [borrowed_add] at hsingle
    omega
  case expected =>
    intro other hother hwants
    rcases expects_add.mp (hqueue.expected other hother hwants) with hthere | hrest
    · have hsame := expects_singleton.mp hthere
      have hrun : other = request.run := by rw [hsame]
      subst hrun
      exact absurd hsame (hgone hwants)
    · exact hrest

/-- A request that arrived waiting and ends takes its unready waiter along. -/
theorem QueueInvariant.dropUnready
    (hqueue : QueueInvariant runs key (some state)
      ({⟨run, .arrived .waiting⟩} + rest))
    (hkey : runs.key run = key)
    (hnotHolder : ∀ holder, state.holder = some holder → holder.run ≠ run) :
    QueueInvariant runs key
      (some { state with waiting := state.waiting.dropUnready run }) rest := by
  have hnode := hqueue.wellFormed state rfl
  have hold : ∀ request ∈ ({⟨run, .arrived .waiting⟩} : Multiset Request),
      request.run = run := by simp
  cases hholder : state.holder with
  | some holder =>
      have hother := hnotHolder holder hholder
      have hbehind := @QueueInvariant.behind _ _ _ _ _ _
        (state.waiting.dropUnready run) _ 0 hqueue hholder hother hkey hnode.retain hold (.inl rfl) ?_
      · rw [zero_add, hholder] at hbehind
        exact hbehind
      · intro position other hmem
        obtain ⟨hmem, hkeep⟩ := OrderedMap.mem_retain.mp hmem
        exact ⟨.inl (by simpa using hkeep), hmem⟩
  | none =>
      have hempty := hnode.behind hholder
      have hsame : (NodeState.mk none (state.waiting.dropUnready run)) = state := by
        cases state with
        | mk holder waiting =>
            cases waiting with
            | mk entries sorted =>
                simp only at hholder hempty
                subst hholder hempty
                rfl
      rw [hsame]
      refine hqueue.forget (by simp [owed_singleton, Standing.owns]) ?_
      rintro (hpromoted | hprepares)
      · rw [promotionOf_free hholder] at hpromoted
        cases hpromoted
      · rw [prepares_some, hempty] at hprepares
        simp at hprepares

theorem QueueInvariant.giveUp {owns : Bool} {node' : Option NodeState}
    (hqueue : QueueInvariant runs key node ({⟨run, .arrived arrival⟩} + rest))
    (hkey : runs.key run = key)
    (hdepart : NodeState.depart node run arrival = (owns, node')) :
    QueueInvariant runs key node' (gaveUpRequest run arrival owns + rest) := by
  cases node with
  | none =>
      obtain ⟨rfl, rfl⟩ := Prod.mk.inj hdepart
      have haccounted := hqueue.accounted run hkey
      rw [owed_add, admissionsOf_none, promotionOf_none] at haccounted
      rw [gaveUpRequest, if_neg (by simp), zero_add]
      have hzero : owed {⟨run, .arrived arrival⟩} run = 0 := by omega
      refine hqueue.forget hzero ?_
      rintro (hpromoted | hprepares)
      · cases hpromoted
      · exact absurd hprepares not_prepares_none
  | some state =>
      have hnode := hqueue.wellFormed state rfl
      cases arrival with
      | joined =>
          obtain ⟨rfl, rfl⟩ := Prod.mk.inj hdepart
          rw [gaveUpRequest, if_neg (by simp), zero_add]
          exact hqueue.forget (by simp [owed_singleton, Standing.owns])
            (by simp)
      | held =>
          obtain ⟨rfl, rfl⟩ := Prod.mk.inj hdepart
          have haccounted := hqueue.accounted run hkey
          cases hholder : state.holder with
          | none =>
              rw [admissionsOf_free hholder, owed_add, owed_singleton] at haccounted
              simp [Standing.owns] at haccounted
              omega
          | some holder =>
              by_cases hrun : holder.run = run
              · subst hrun
                have hsame : state = { state with holder := some holder } := by
                  rw [← hholder]
                rw [hsame]
                refine hqueue.rehold hholder rfl (hnode.holds holder hholder).2
                  (by simp) (by simp [gaveUpRequest]) ?_ ?_ ?_
                · simp [gaveUpRequest, owed_singleton, Standing.owns]
                · simp [gaveUpRequest, borrowed_singleton, Standing.borrows]
                · exact fun hpromoted => .inr ⟨hpromoted, by simp [expects_singleton]⟩
              · have hzero := (hqueue.owed_of_other hholder hrun hkey).1
                rw [owed_add, owed_singleton] at hzero
                simp [Standing.owns] at hzero
      | waiting =>
          cases hfilter : state.holder.filter (·.run = run) with
          | none =>
              simp only [depart, hfilter, Prod.mk.injEq] at hdepart
              obtain ⟨rfl, rfl⟩ := hdepart
              rw [gaveUpRequest, if_neg (by simp), zero_add]
              have hnotHolder : ∀ holder, state.holder = some holder →
                  holder.run ≠ run := by
                intro holder hholder hrun
                simp [hholder, hrun] at hfilter
              exact hqueue.dropUnready hkey hnotHolder
          | some holder =>
              obtain ⟨hholder, hrun⟩ := Option.filter_eq_some_iff.mp hfilter
              have hrun : holder.run = run := by simpa using hrun
              subst hrun
              simp only [depart, hfilter] at hdepart
              split at hdepart
              · rename_i hpromoted
                obtain ⟨rfl, rfl⟩ := Prod.mk.inj hdepart
                refine hqueue.rehold hholder rfl (hnode.holds holder hholder).2
                  (by simp) (by simp [gaveUpRequest]) ?_ ?_ (fun h => by cases h)
                · simp [gaveUpRequest, owed_singleton, Standing.owns,
                    NodeHolder.token, hpromoted]
                · simp [gaveUpRequest, borrowed_singleton, Standing.borrows,
                    NodeHolder.token, hpromoted]
              · rename_i hpromoted
                obtain ⟨rfl, rfl⟩ := Prod.mk.inj hdepart
                rw [gaveUpRequest, if_neg (by simp), zero_add]
                refine hqueue.forget (by simp [owed_singleton, Standing.owns]) ?_
                rintro (htoken | hprepares)
                · rw [promotionOf_holder hholder, NodeHolder.token,
                    if_neg hpromoted] at htoken
                  cases htoken
                · obtain ⟨position, hmem⟩ := prepares_some.mp hprepares
                  exact absurd rfl (hnode.apart holder hholder _ hmem)

theorem QueueInvariant.restore
    (hqueue : QueueInvariant runs key node ({⟨run, .restoring⟩} + rest))
    (hkey : runs.key run = key) :
    QueueInvariant runs key (restorePromotion node run)
      ({⟨run, .arrived .waiting⟩} + rest) := by
  have haccounted := hqueue.accounted run hkey
  have hsingle := hqueue.single run hkey
  rw [owed_add, owed_singleton] at haccounted
  rw [borrowed_add, borrowed_singleton] at hsingle
  simp only [Standing.owns, Standing.borrows, and_self, if_true] at haccounted hsingle
  cases node with
  | none =>
      rw [admissionsOf_none] at haccounted
      omega
  | some state =>
      have hnode := hqueue.wellFormed state rfl
      cases hholder : state.holder with
      | none =>
          rw [admissionsOf_free hholder] at haccounted
          omega
      | some holder =>
          by_cases hrun : holder.run = run
          · subst hrun
            have hstate : restorePromotion (some state) holder.run =
                some { state with
                  holder := some { holder with promoted := true } } := by
              simp [restorePromotion, hholder]
            have htoken : holder.token = 0 := by
              rw [promotionOf_holder hholder] at hsingle
              omega
            rw [hstate]
            refine hqueue.rehold hholder rfl (hnode.holds holder hholder).2
              (by simp) (by simp) ?_ ?_ ?_
            · rw [htoken]
              simp [owed_singleton, Standing.owns, NodeHolder.token]
            · rw [htoken]
              simp [borrowed_singleton, Standing.borrows, NodeHolder.token]
            · exact fun _ => .inl (expects_singleton.mpr rfl)
          · rw [admissionsOf_some hholder, if_neg hrun] at haccounted
            omega

/-- Behind the run that gets the node wait other runs. -/
theorem NodeInvariant.apart_of_rest {skipped rest : List (Position × Waiter)}
    {next : Waiter} (hnode : NodeInvariant runs key state)
    (hplaces : state.waiting.entries = skipped ++ (position, next) :: rest) :
    ∀ place ∈ rest, place.2.run ≠ next.run := by
  intro place hplace hsame
  have honce := hnode.once
  rw [hplaces, List.map_append, List.map_cons] at honce
  have hnodup := (List.nodup_append.mp honce).2.1
  refine (List.nodup_cons.mp hnodup).1 ?_
  exact List.mem_map.mpr ⟨place, hplace, hsame⟩

/-- Waiters that left the queue leave the accounts as they are. -/
theorem QueueInvariant.sublist {holder : NodeHolder} {places : Places}
    (hqueue : QueueInvariant runs key (some { state with holder := some holder })
      requests)
    (hsub : places.entries.Sublist state.waiting.entries) :
    QueueInvariant runs key (some ⟨some holder, places⟩) requests := by
  have hnode := hqueue.wellFormed _ rfl
  constructor
  case wellFormed =>
    intro state' hstate
    obtain rfl := Option.some.inj hstate
    obtain ⟨hkey, hpos⟩ := hnode.holds holder rfl
    exact hnode.sublist hsub hkey hpos fun place hplace =>
      hnode.apart holder rfl place (hsub.subset hplace)
  case accounted => exact hqueue.accounted
  case single => exact hqueue.single
  case expected =>
    intro other hother hwants
    refine hqueue.expected other hother (hwants.imp id ?_)
    intro hprepares
    obtain ⟨position, hmem⟩ := prepares_some.mp hprepares
    exact prepares_some.mpr ⟨position, hsub.subset hmem⟩

/-! ### Releasing -/

/-- The node passes to another run once its holder owns nothing more. -/
theorem QueueInvariant.passOn {request : Request} {holder next : NodeHolder}
    {places : Places} {new : Multiset Request}
    (hqueue : QueueInvariant runs key (some state) ({request} + rest))
    (hholder : state.holder = some holder)
    (hrequest : request.run = holder.run)
    (howns : request.standing.owns = true) (hlast : holder.admissions ≤ 1)
    (hsub : places.entries.Sublist state.waiting.entries)
    (hkey : runs.key next.run = key) (hnext : next.admissions = 1)
    (hapart : ∀ place ∈ places.entries, place.2.run ≠ next.run)
    (hnew : new = if next.promoted then 0 else {⟨next.run, .started⟩})
    (hprepares : next.promoted = true →
      NodeState.prepares (some state) next.run) :
    QueueInvariant runs key (some ⟨some next, places⟩) (new + rest) := by
  have hnode := hqueue.wellFormed state rfl
  have hholder' : (NodeState.mk (some next) places).holder = some next := rfl
  have howed : ∀ other, runs.key other = key → owed rest other = 0 := by
    intro other hother
    have haccounted := hqueue.accounted other hother
    rw [admissionsOf_some hholder, owed_add, owed_singleton, howns] at haccounted
    by_cases hsame : holder.run = other
    · rw [if_pos hsame, if_pos ⟨hrequest.trans hsame, rfl⟩] at haccounted
      omega
    · rw [if_neg hsame] at haccounted
      omega
  have hborrowed : ∀ other, runs.key other = key → borrowed rest other = 0 := by
    intro other hother
    have hle := @borrowed_le_owed rest other
    rw [howed other hother] at hle
    omega
  have hwants : ∀ other, expects ({request} + rest) other → expects rest other := by
    intro other hthere
    refine (expects_add.mp hthere).resolve_left fun hsingle => ?_
    rw [expects_singleton.mp hsingle] at howns
    cases howns
  constructor
  case wellFormed =>
    intro state' hstate
    obtain rfl := Option.some.inj hstate
    exact hnode.sublist hsub hkey (by omega) hapart
  case accounted =>
    intro other hother
    rw [admissionsOf_some hholder', promotionOf_some hholder', owed_add,
      howed other hother, hnew, hnext]
    by_cases hpromoted : next.promoted = true
    · simp [hpromoted]
    · simp [hpromoted, owed_singleton, Standing.owns]
  case single =>
    intro other hother
    rw [promotionOf_some hholder', borrowed_add, hborrowed other hother, hnew]
    by_cases hpromoted : next.promoted = true
    · simp only [hpromoted, if_true, borrowed_zero]
      split <;> omega
    · simp [hpromoted, borrowed_singleton, Standing.borrows]
  case expected =>
    intro other hother hexpected
    rw [expects_add]
    refine .inr (hwants other (hqueue.expected other hother (.inr ?_)))
    rcases hexpected with htoken | hpreparing
    · rw [promotionOf_some hholder'] at htoken
      by_cases hpromoted : next.run = other ∧ next.promoted = true
      · exact hpromoted.1 ▸ hprepares hpromoted.2
      · rw [if_neg hpromoted] at htoken
        cases htoken
    · obtain ⟨position, hmem⟩ := prepares_some.mp hpreparing
      exact prepares_some.mpr ⟨position, hsub.subset hmem⟩

theorem QueueInvariant.release {request retry : Request} {t : QueueStore}
    {answer : StorageResult (Option InteractionId)} {node' : Option NodeState}
    (hqueue : QueueInvariant runs key node ({request} + rest))
    (hkey : runs.key run = key) (hrequest : request.run = run)
    (hretry : retry.run = run) (howns : request.standing.owns = true)
    (hretries : retry.standing.owns = true)
    (hborrows : retry.standing.borrows = request.standing.borrows)
    (hreleased : NodeReleased node run t answer node') :
    QueueInvariant runs key node' (releasedRequest retry answer + rest) := by
  have hone : owed {request} run = 1 := by
    rw [owed_singleton, if_pos ⟨hrequest, howns⟩]
  have hnotWaiting : ∀ other, ¬ expects {request} other := by
    intro other hthere
    rw [expects_singleton.mp hthere] at howns
    cases howns
  cases hreleased with
  | idle hnot =>
      have haccounted := hqueue.accounted run hkey
      rw [owed_add, hone] at haccounted
      cases node with
      | none =>
          rw [admissionsOf_none] at haccounted
          omega
      | some state =>
          cases hholder : state.holder with
          | none =>
              rw [admissionsOf_free hholder] at haccounted
              omega
          | some holder =>
              rw [admissionsOf_some hholder, if_neg (hnot state rfl holder hholder)]
                at haccounted
              omega
  | fewer state holder hstate hholder hrun hmore =>
      subst hstate hrun
      refine @QueueInvariant.rehold _ _ _ _ _ _ _ 0 hqueue hholder rfl
        (show 0 < holder.admissions - 1 by omega) (by simp [hrequest]) (by simp)
        ?_ ?_ ?_
      · rw [hone, owed_zero]
        simp only [NodeHolder.token]
        omega
      · rw [borrowed_zero]
        exact Nat.add_le_add_right (Nat.zero_le _) _
      · exact fun hpromoted => .inr ⟨hpromoted, hnotWaiting _⟩
  | last state holder answer node' hstate hholder hrun hlast hhanded =>
      subst hstate hrun
      have hnode := hqueue.wellFormed state rfl
      have hthere := hnode.keyed
      cases hhanded with
      | freed hskipped =>
          have howed : ∀ other, runs.key other = key → owed rest other = 0 := by
            intro other hother
            have haccounted := hqueue.accounted other hother
            rw [admissionsOf_some hholder, owed_add, owed_singleton, howns]
              at haccounted
            by_cases hsame : holder.run = other
            · rw [if_pos hsame, if_pos ⟨hrequest.trans hsame, rfl⟩] at haccounted
              omega
            · rw [if_neg hsame] at haccounted
              omega
          constructor
          case wellFormed => exact fun state hstate => by cases hstate
          case accounted =>
            intro other hother
            rw [releasedRequest, zero_add, howed other hother]
            rfl
          case single =>
            intro other hother
            have hle := @borrowed_le_owed rest other
            rw [howed other hother] at hle
            rw [releasedRequest, zero_add, promotionOf_none]
            omega
          case expected =>
            intro other hother hwants
            rcases hwants with hpromoted | hprepares
            · cases hpromoted
            · exact absurd hprepares not_prepares_none
      | claimed skipped rest' position next hrest hplaces hskipped hnext =>
          have hmem : (position, next) ∈ state.waiting.entries := by simp [hplaces]
          have hsub : rest'.Sublist state.waiting.entries := by
            rw [hplaces]
            exact (List.sublist_cons_self _ rest').trans
              (List.sublist_append_right skipped _)
          refine @QueueInvariant.passOn _ _ _ _ _ _
            ⟨next.run, 1, false⟩ ⟨rest', hrest⟩ _ hqueue hholder hrequest howns hlast hsub
            (hthere _ hmem) rfl ?_ (by simp [releasedRequest]) (by simp)
          exact hnode.apart_of_rest hplaces
      | promoted skipped rest' position next hrest hplaces hskipped hready =>
          have hmem : (position, next) ∈ state.waiting.entries := by simp [hplaces]
          have hsub : rest'.Sublist state.waiting.entries := by
            rw [hplaces]
            exact (List.sublist_cons_self _ rest').trans
              (List.sublist_append_right skipped _)
          refine @QueueInvariant.passOn _ _ _ _ _ _
            ⟨next.run, 1, true⟩ ⟨rest', hrest⟩ _ hqueue hholder hrequest howns hlast hsub
            (hthere _ hmem) rfl ?_ (by simp [releasedRequest]) ?_
          · exact hnode.apart_of_rest hplaces
          · intro _
            refine prepares_some.mpr ⟨position, ?_⟩
            cases next with
            | mk run ready =>
                simp only at hready
                subst hready
                exact hmem
      | failed skipped rest' error hrest hplaces hskipped =>
          have hsub : rest'.Sublist state.waiting.entries := by
            rw [hplaces]
            exact List.sublist_append_right skipped rest'
          have hkept := @QueueInvariant.rehold _ _ _ _ _ _ _ {retry} hqueue
            hholder rfl
            (hnode.holds holder hholder).2 (by simp [hrequest]) (by simp [hretry])
            ?_ ?_ ?_
          · exact hkept.sublist hsub
          · rw [hone, owed_singleton, if_pos ⟨hretry, hretries⟩]
          · rw [borrowed_singleton, borrowed_singleton, hborrows, hretry, hrequest]
          · exact fun hpromoted => .inr ⟨hpromoted, hnotWaiting _⟩

end Steps

end RelayerGraph
