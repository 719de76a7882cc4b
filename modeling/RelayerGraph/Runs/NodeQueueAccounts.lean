import RelayerGraph.Runs.NodeQueueCalls

/-!
# Accounts of a node

What holds of every node between two steps: its queue is well formed, and its
holder's admissions are those the holder's requests own, with one more while a
promotion has not been taken.
-/

namespace RelayerGraph

open Foundation

/-! ## Admissions -/

/-- The request owns an admission of its run. -/
def Standing.owns : Standing → Bool
  | .arrived .held => true
  | .arrived _ => false
  | _ => true

/-- The request took its run's promotion, to give it up. -/
def Standing.borrows : Standing → Bool
  | .departing .waiting => true
  | .restoring => true
  | _ => false

/-- The admissions which requests of the run own. -/
def owed (requests : Multiset Request) (run : InteractionId) : ℕ :=
  requests.countP fun request => request.run = run ∧ request.standing.owns

/-- The promotions of the run which requests took to give up. -/
def borrowed (requests : Multiset Request) (run : InteractionId) : ℕ :=
  requests.countP fun request => request.run = run ∧ request.standing.borrows

/-- A request of the run that arrived waiting and goes on. -/
def expects (requests : Multiset Request) (run : InteractionId) : Prop :=
  (⟨run, .arrived .waiting⟩ : Request) ∈ requests

namespace NodeState

/-- The holder of a node, when it is the run. -/
def holderOf (node : Option NodeState) (run : InteractionId) :
    Option NodeHolder :=
  (node.bind NodeState.holder).filter (·.run = run)

def admissionsOf (node : Option NodeState) (run : InteractionId) : ℕ :=
  ((holderOf node run).map NodeHolder.admissions).getD 0

/-- One while the run was promoted and no request took that. -/
def promotionOf (node : Option NodeState) (run : InteractionId) : ℕ :=
  ((holderOf node run).map fun holder => if holder.promoted then 1 else 0).getD 0

/-- The run waits and is not ready. -/
def prepares (node : Option NodeState) (run : InteractionId) : Prop :=
  ∃ state, node = some state ∧
    ∃ position, (position, ⟨run, false⟩) ∈ state.waiting.entries

section

variable {state : NodeState} {holder : NodeHolder} {run : InteractionId}

@[simp]
theorem holderOf_none : holderOf none run = none := rfl

theorem holderOf_some (hholder : state.holder = some holder) :
    holderOf (some state) run = if holder.run = run then some holder else none := by
  simp only [holderOf, Option.bind_some, hholder, Option.filter_some,
    decide_eq_true_eq]

theorem holderOf_free (hholder : state.holder = none) :
    holderOf (some state) run = none := by
  simp [holderOf, hholder]

theorem admissionsOf_some (hholder : state.holder = some holder) :
    admissionsOf (some state) run =
      if holder.run = run then holder.admissions else 0 := by
  rw [admissionsOf, holderOf_some hholder]
  split <;> rfl

theorem promotionOf_some (hholder : state.holder = some holder) :
    promotionOf (some state) run =
      if holder.run = run ∧ holder.promoted then 1 else 0 := by
  rw [promotionOf, holderOf_some hholder]
  by_cases hrun : holder.run = run <;> simp [hrun]

theorem admissionsOf_free (hholder : state.holder = none) :
    admissionsOf (some state) run = 0 := by
  rw [admissionsOf, holderOf_free hholder]
  rfl

theorem promotionOf_free (hholder : state.holder = none) :
    promotionOf (some state) run = 0 := by
  rw [promotionOf, holderOf_free hholder]
  rfl

@[simp]
theorem admissionsOf_none : admissionsOf none run = 0 := rfl

@[simp]
theorem promotionOf_none : promotionOf none run = 0 := rfl

theorem not_prepares_none : ¬ prepares none run := by
  rintro ⟨state, h, -⟩
  cases h

theorem prepares_some : prepares (some state) run ↔
    ∃ position, (position, ⟨run, false⟩) ∈ state.waiting.entries := by
  simp [prepares]

end

end NodeState

section Requests

variable {requests rest : Multiset Request} {request : Request}
  {run : InteractionId}

theorem owed_cons : owed (request ::ₘ rest) run =
    owed rest run + if request.run = run ∧ request.standing.owns then 1 else 0 :=
  Multiset.countP_cons _ _ _

theorem borrowed_cons : borrowed (request ::ₘ rest) run =
    borrowed rest run +
      if request.run = run ∧ request.standing.borrows then 1 else 0 :=
  Multiset.countP_cons _ _ _

theorem expects_cons : expects (request ::ₘ rest) run ↔
    request = ⟨run, .arrived .waiting⟩ ∨ expects rest run := by
  simp only [expects, Multiset.mem_cons, eq_comm]

theorem Standing.owns_of_borrows {standing : Standing}
    (h : standing.borrows = true) : standing.owns = true := by
  cases standing with
  | arrived arrival => simp [borrows] at h
  | departing => rfl
  | restoring => rfl
  | started => rfl

/-- A promotion taken to be given up is owned. -/
theorem borrowed_le_owed : borrowed requests run ≤ owed requests run := by
  induction requests using Multiset.induction with
  | empty => simp [borrowed]
  | cons request rest ih =>
      rw [borrowed_cons, owed_cons]
      by_cases h : request.run = run ∧ request.standing.borrows = true
      · rw [if_pos h, if_pos ⟨h.1, Standing.owns_of_borrows h.2⟩]
        omega
      · rw [if_neg h]
        omega

end Requests

/-! ## Well-formed queues -/

/-- A place is its run's own, or lies just after the place a run of the same
thread had then. -/
def NodeRuns.Placed (runs : NodeRuns) (place : Position × Waiter) : Prop :=
  NodeState.position place.2.run (runs.sequence place.2.run) ≤ place.1 ∧
    (place.1 = NodeState.position place.2.run (runs.sequence place.2.run) ∨
      ∃ ahead, (runs.key ahead).threadId = (runs.key place.2.run).threadId ∧
        (ofLex place.1).1 = runs.sequence ahead ∧
        (ahead.id.value : ℤ) < (ofLex place.1).2)

/-- A well-formed queue of a node. -/
structure NodeInvariant (runs : NodeRuns) (key : NodeRunKey)
    (node : NodeState) : Prop where
  holds : ∀ holder, node.holder = some holder →
    runs.key holder.run = key ∧ 0 < holder.admissions
  keyed : ∀ place ∈ node.waiting.entries, runs.key place.2.run = key
  once : (node.waiting.entries.map fun place => place.2.run).Nodup
  apart : ∀ holder, node.holder = some holder →
    ∀ place ∈ node.waiting.entries, place.2.run ≠ holder.run
  behind : node.holder = none → node.waiting.entries = []
  placed : ∀ place ∈ node.waiting.entries, runs.Placed place

/-- What holds of a node and the requests of its runs between two steps. -/
structure QueueInvariant (runs : NodeRuns) (key : NodeRunKey)
    (node : Option NodeState) (requests : Multiset Request) : Prop where
  wellFormed : ∀ state, node = some state → NodeInvariant runs key state
  accounted : ∀ run, runs.key run = key →
    NodeState.admissionsOf node run =
      owed requests run + NodeState.promotionOf node run
  single : ∀ run, runs.key run = key →
    borrowed requests run + NodeState.promotionOf node run ≤ 1
  expected : ∀ run, runs.key run = key →
    NodeState.promotionOf node run = 1 ∨ NodeState.prepares node run →
    expects requests run

section Places

variable {runs : NodeRuns} {key : NodeRunKey} {node : NodeState}
  {run : InteractionId} {position : Position}

theorem waits_iff {places : Places} : places.waits run = true ↔
    ∃ place ∈ places.entries, place.2.run = run := by
  simp [Places.waits]

theorem not_waits_iff {places : Places} : places.waits run = false ↔
    ∀ place ∈ places.entries, place.2.run ≠ run := by
  simp [Places.waits]

/-- Queues over fewer places stay well formed behind any holder of the node. -/
theorem NodeInvariant.sublist {places : Places} {holder : NodeHolder}
    (hnode : NodeInvariant runs key node)
    (hsub : places.entries.Sublist node.waiting.entries)
    (hkey : runs.key holder.run = key) (hpos : 0 < holder.admissions)
    (hapart : ∀ place ∈ places.entries, place.2.run ≠ holder.run) :
    NodeInvariant runs key ⟨some holder, places⟩ := by
  constructor
  case holds =>
    intro holder' hholder
    obtain rfl := Option.some.inj hholder
    exact ⟨hkey, hpos⟩
  case keyed => exact fun place hplace => hnode.keyed place (hsub.subset hplace)
  case once => exact hnode.once.sublist (hsub.map _)
  case apart =>
    intro holder' hholder
    obtain rfl := Option.some.inj hholder
    exact hapart
  case behind => exact fun h => by cases h
  case placed => exact fun place hplace => hnode.placed place (hsub.subset hplace)

/-- Changing how the places' runs stand keeps the queue well formed. -/
theorem NodeInvariant.withHolder {holder holder' : NodeHolder}
    (hnode : NodeInvariant runs key node) (hholder : node.holder = some holder)
    (hrun : holder'.run = holder.run) (hpos : 0 < holder'.admissions) :
    NodeInvariant runs key { node with holder := some holder' } :=
  hnode.sublist (List.Sublist.refl _) (hrun ▸ (hnode.holds holder hholder).1)
    hpos fun place hplace => hrun ▸ hnode.apart holder hholder place hplace

/-- A run's own position is taken by no other run. -/
theorem NodeInvariant.free_of_own (hnode : NodeInvariant runs key node)
    (hkey : runs.key run = key) (hwaits : node.waiting.waits run = false) :
    ∀ place ∈ node.waiting.entries,
      place.1 ≠ NodeState.position run (runs.sequence run) := by
  intro place hplace hsame
  have hother : place.2.run ≠ run := not_waits_iff.mp hwaits place hplace
  have hthread : (runs.key place.2.run).threadId = (runs.key run).threadId := by
    rw [hnode.keyed place hplace, hkey]
  rcases (hnode.placed place hplace).2 with hown | ⟨ahead, hahead, hseq, hid⟩
  · have hsequence : runs.sequence place.2.run = runs.sequence run := by
      have hpair := hown.symm.trans hsame
      exact congrArg (fun p => (ofLex p).1) hpair
    exact hother (runs.unique _ _ hthread hsequence)
  · rw [hsame] at hseq hid
    have hrun : run = ahead :=
      runs.unique _ _ (hthread.symm.trans hahead.symm) hseq
    subst hrun
    exact lt_irrefl _ hid

theorem placed_own : runs.Placed
    (NodeState.position run (runs.sequence run), ⟨run, false⟩) :=
  ⟨le_rfl, .inl rfl⟩

/-- A resumed run's place lies after every waiter, and is well formed. -/
theorem NodeInvariant.resumedPosition (hnode : NodeInvariant runs key node)
    (hkey : runs.key run = key) :
    (∀ place ∈ node.waiting.entries,
      place.1 < node.resumedPosition run (runs.sequence run)) ∧
    runs.Placed (node.resumedPosition run (runs.sequence run), ⟨run, false⟩) := by
  unfold NodeState.resumedPosition
  cases hlast : node.waiting.lastKey with
  | none =>
      rw [OrderedMap.lastKey_eq_none_iff.mp hlast]
      exact ⟨by simp, placed_own⟩
  | some last =>
      obtain ⟨⟨waiter, hmem⟩, hle⟩ := OrderedMap.of_lastKey hlast
      dsimp only
      split
      · rename_i hbefore
        have hafter : last < toLex ((ofLex last).1, (ofLex last).2 + 1) := by
          refine Prod.Lex.lt_iff.mpr (.inr ⟨rfl, ?_⟩)
          exact lt_add_one _
        refine ⟨fun place hplace => (hle place hplace).trans_lt hafter,
          hbefore.trans hafter.le, .inr ?_⟩
        have hthread : (runs.key waiter.run).threadId = (runs.key run).threadId := by
          rw [hnode.keyed _ hmem, hkey]
        rcases (hnode.placed _ hmem).2 with hown | ⟨ahead, hahead, hseq, hid⟩
        · refine ⟨waiter.run, hthread, ?_, ?_⟩
          · exact congrArg (fun p => (ofLex p).1) hown
          · have hsecond : (ofLex last).2 = waiter.run.id.value :=
              congrArg (fun p => (ofLex p).2) hown
            simp only [ofLex_toLex, hsecond]
            exact lt_add_one _
        · exact ⟨ahead, hahead.trans hthread, hseq, hid.trans (lt_add_one _)⟩
      · rename_i hbefore
        exact ⟨fun place hplace => (hle place hplace).trans_lt (not_le.mp hbefore),
          placed_own⟩

/-- A run that is new to the queue joins it behind the holder. -/
theorem NodeInvariant.insert {holder : NodeHolder}
    (hnode : NodeInvariant runs key node) (hholder : node.holder = some holder)
    (hother : holder.run ≠ run) (hkey : runs.key run = key)
    (hwaits : node.waiting.waits run = false)
    (hfree : ∀ place ∈ node.waiting.entries, place.1 ≠ position)
    (hplaced : runs.Placed (position, ⟨run, false⟩)) :
    NodeInvariant runs key
      { node with waiting := node.waiting.insert position ⟨run, false⟩ } := by
  have hperm := OrderedMap.entries_insert_of_new (v := (⟨run, false⟩ : Waiter))
    hfree
  have hmem : ∀ place ∈ (node.waiting.insert position ⟨run, false⟩).entries,
      place = (position, ⟨run, false⟩) ∨ place ∈ node.waiting.entries := by
    intro place hplace
    exact List.mem_cons.mp (hperm.mem_iff.mp hplace)
  constructor
  case holds => exact hnode.holds
  case keyed =>
    intro place hplace
    rcases hmem place hplace with rfl | hold
    · exact hkey
    · exact hnode.keyed place hold
  case once =>
    refine ((hperm.map _).nodup_iff).mpr (List.nodup_cons.mpr ⟨?_, hnode.once⟩)
    intro hthere
    obtain ⟨place, hplace, hrun⟩ := List.mem_map.mp hthere
    exact not_waits_iff.mp hwaits place hplace hrun
  case apart =>
    intro holder' hholder' place hplace
    obtain rfl := Option.some.inj (hholder.symm.trans hholder')
    rcases hmem place hplace with rfl | hold
    · exact hother.symm
    · exact hnode.apart holder hholder place hold
  case behind => exact fun hnone => by cases hholder.symm.trans hnone
  case placed =>
    intro place hplace
    rcases hmem place hplace with rfl | hold
    · exact hplaced
    · exact hnode.placed place hold

end Places

end RelayerGraph
