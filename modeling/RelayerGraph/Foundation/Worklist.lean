import RelayerGraph.Foundation.Checked

/-!
# Worklists

A worklist algorithm takes the first pending item, does one turn of work on
it, and appends the items that turn found.  The two rules proved here are the
ones every such algorithm needs: an invariant over the remaining work, and a
potential which pays for the appended items and so bounds the number of turns.

The second part is the closure of a set of seeds under a successor function,
as a recursive query computes it.
-/

namespace Foundation

namespace Worklist

/-! ## Draining a queue -/

/-- One turn either ends the whole computation or carries on with a new state
and more items. -/
inductive Turn (σ α β : Type)
  | stop (result : β)
  | proceed (state : σ) (more : List α)

variable {σ α β ε : Type}

/-- Take items from the front of the queue until it is empty. -/
def drain (turn : σ → α → Except ε (Turn σ α β)) (finish : σ → β)
    (exhausted : ε) : ℕ → σ → List α → Except ε β
  | _, state, [] => .ok (finish state)
  | 0, _, _ :: _ => .error exhausted
  | fuel + 1, state, item :: rest =>
      match turn state item with
      | .error e => .error e
      | .ok (.stop result) => .ok result
      | .ok (.proceed next more) =>
          drain turn finish exhausted fuel next (rest ++ more)

variable {turn : σ → α → Except ε (Turn σ α β)} {finish : σ → β}
  {exhausted : ε}

/-- The invariant rule.  An invariant of state and queue which every turn
keeps gives the postcondition of every result. -/
theorem drain_induction {P : σ → List α → Prop} {Q : β → Prop}
    (hproceed : ∀ state item rest next more, P state (item :: rest) →
      turn state item = .ok (.proceed next more) → P next (rest ++ more))
    (hstop : ∀ state item rest result, P state (item :: rest) →
      turn state item = .ok (.stop result) → Q result)
    (hfinish : ∀ state, P state [] → Q (finish state))
    {fuel : ℕ} {state : σ} {pending : List α} {result : β}
    (hP : P state pending)
    (hrun : drain turn finish exhausted fuel state pending = .ok result) :
    Q result := by
  induction fuel generalizing state pending with
  | zero =>
      cases pending with
      | nil =>
          obtain rfl := Except.ok.inj hrun
          exact hfinish state hP
      | cons item rest => cases hrun
  | succ fuel ih =>
      cases pending with
      | nil =>
          obtain rfl := Except.ok.inj hrun
          exact hfinish state hP
      | cons item rest =>
          rw [drain] at hrun
          cases hturn : turn state item with
          | error e => simp [hturn] at hrun
          | ok move =>
              cases move with
              | stop other =>
                  obtain rfl : other = result := by simpa [hturn] using hrun
                  exact hstop _ _ _ _ hP hturn
              | proceed next more =>
                  simp only [hturn] at hrun
                  exact ih (hproceed _ _ _ _ _ hP hturn) hrun

/-- The potential rule.  When every turn pays for the items it appends, enough
fuel for the potential and the queue is never exhausted, whatever the code for
exhaustion is. -/
theorem drain_exhausted_irrel {potential : σ → ℕ}
    (hpays : ∀ state item next more,
      turn state item = .ok (.proceed next more) →
        potential next + more.length ≤ potential state)
    {fuel : ℕ} {state : σ} {pending : List α}
    (hfuel : potential state + pending.length ≤ fuel) (other : ε) :
    drain turn finish exhausted fuel state pending =
      drain turn finish other fuel state pending := by
  induction fuel generalizing state pending with
  | zero =>
      have hempty : pending = [] := List.eq_nil_of_length_eq_zero (by omega)
      rw [hempty, drain, drain]
  | succ fuel ih =>
      cases pending with
      | nil => rfl
      | cons item rest =>
          rw [drain, drain]
          cases hturn : turn state item with
          | error e => rfl
          | ok move =>
              cases move with
              | stop result => rfl
              | proceed next more =>
                  have hpaid := hpays _ _ _ _ hturn
                  refine ih ?_
                  simp only [List.length_append, List.length_cons] at hfuel ⊢
                  omega

/-- The totality rule.  Under an invariant which rules out the errors of every
turn, a paid worklist returns. -/
theorem exists_drain_eq_ok {P : σ → List α → Prop} {potential : σ → ℕ}
    (hturn : ∀ state item rest, P state (item :: rest) →
      (∃ result, turn state item = .ok (.stop result)) ∨
        ∃ next more, turn state item = .ok (.proceed next more) ∧
          P next (rest ++ more) ∧
          potential next + more.length ≤ potential state)
    {fuel : ℕ} {state : σ} {pending : List α} (hP : P state pending)
    (hfuel : potential state + pending.length ≤ fuel) :
    ∃ result, drain turn finish exhausted fuel state pending = .ok result := by
  induction fuel generalizing state pending with
  | zero =>
      have hempty : pending = [] := List.eq_nil_of_length_eq_zero (by omega)
      exact ⟨finish state, by rw [hempty, drain]⟩
  | succ fuel ih =>
      cases pending with
      | nil => exact ⟨finish state, rfl⟩
      | cons item rest =>
          rcases hturn _ _ _ hP with ⟨result, hstop⟩ | ⟨next, more, hgo, hnext, hpaid⟩
          · exact ⟨result, by rw [drain, hstop]⟩
          · simp only [drain, hgo]
            refine ih hnext ?_
            simp only [List.length_append, List.length_cons] at hfuel ⊢
            omega

/-! ## Closures of successor functions -/

variable [DecidableEq α]

/-- Visit every item reached from the queue; only the visit of a new item
costs fuel. -/
def explore (next : α → List α) : ℕ → List α → List α → List α
  | 0, visited, _ => visited
  | fuel + 1, visited, pending =>
      match pending.dropWhile (· ∈ visited) with
      | [] => visited
      | item :: rest =>
          explore next fuel (item :: visited) (rest ++ next item)

/-- Everything reached from the seeds, given a bound on how much that is. -/
def closure (next : α → List α) (bound : ℕ) (seeds : List α) : List α :=
  explore next bound [] seeds

/-- Reached from one of the seeds along the successor function. -/
def ReachedFrom (next : α → List α) (seeds : List α) (item : α) : Prop :=
  ∃ seed ∈ seeds, Relation.ReflTransGen (fun a b => b ∈ next a) seed item

variable {next : α → List α}

theorem mem_of_mem_dropWhile {visited pending : List α} {item : α}
    (h : item ∈ pending.dropWhile (· ∈ visited)) : item ∈ pending :=
  (List.dropWhile_sublist _).subset h

theorem mem_visited_or_mem_dropWhile (visited : List α) {pending : List α}
    {item : α} (h : item ∈ pending) :
    item ∈ visited ∨ item ∈ pending.dropWhile (· ∈ visited) := by
  induction pending with
  | nil => cases h
  | cons head rest ih =>
      by_cases hhead : head ∈ visited
      · rw [List.dropWhile_cons_of_pos (by simpa using hhead)]
        rcases List.mem_cons.mp h with rfl | hrest
        · exact .inl hhead
        · exact ih hrest
      · rw [List.dropWhile_cons_of_neg (by simpa using hhead)]
        exact .inr h

theorem not_mem_of_dropWhile_eq_cons {visited pending rest : List α} {item : α}
    (h : pending.dropWhile (· ∈ visited) = item :: rest) : item ∉ visited := by
  have hhead := List.head?_dropWhile_not (fun a => decide (a ∈ visited)) pending
  rw [h] at hhead
  simpa using hhead

/-- Nothing is visited that the seeds do not reach. -/
theorem explore_sound {P : α → Prop} (hnext : ∀ a, P a → ∀ b ∈ next a, P b)
    {fuel : ℕ} {visited pending : List α} (hvisited : ∀ a ∈ visited, P a)
    (hpending : ∀ a ∈ pending, P a) :
    ∀ a ∈ explore next fuel visited pending, P a := by
  induction fuel generalizing visited pending with
  | zero => exact hvisited
  | succ fuel ih =>
      rw [explore]
      cases hdrop : pending.dropWhile (· ∈ visited) with
      | nil => exact hvisited
      | cons item rest =>
          have hitem : P item :=
            hpending item (mem_of_mem_dropWhile (hdrop ▸ List.mem_cons_self))
          refine ih ?_ ?_
          · intro a ha
            rcases List.mem_cons.mp ha with rfl | ha
            · exact hitem
            · exact hvisited a ha
          · intro a ha
            rcases List.mem_append.mp ha with ha | ha
            · exact hpending a
                (mem_of_mem_dropWhile (hdrop ▸ List.mem_cons_of_mem _ ha))
            · exact hnext item hitem a ha

/-- With fuel for every item that can still be visited, the result contains
the queue and is closed under the successors. -/
theorem explore_complete {domain : List α}
    (hdomain : ∀ a ∈ domain, ∀ b ∈ next a, b ∈ domain) {fuel : ℕ}
    {visited pending : List α} (hpending : ∀ a ∈ pending, a ∈ domain)
    (hvisited : ∀ a ∈ visited, ∀ b ∈ next a, b ∈ visited ∨ b ∈ pending)
    (hfuel : (domain.filter (· ∉ visited)).length ≤ fuel) :
    (∀ a ∈ visited ++ pending, a ∈ explore next fuel visited pending) ∧
      ∀ a ∈ explore next fuel visited pending,
        ∀ b ∈ next a, b ∈ explore next fuel visited pending := by
  induction fuel generalizing visited pending with
  | zero =>
      have hall : ∀ a ∈ domain, a ∈ visited := by
        intro a ha
        by_contra hnot
        have hmem : a ∈ domain.filter (· ∉ visited) :=
          List.mem_filter.mpr ⟨ha, by simpa using hnot⟩
        exact absurd (List.length_pos_of_mem hmem) (by omega)
      refine ⟨?_, ?_⟩
      · intro a ha
        rcases List.mem_append.mp ha with ha | ha
        · exact ha
        · exact hall a (hpending a ha)
      · intro a ha b hb
        rcases hvisited a ha b hb with h | h
        · exact h
        · exact hall b (hpending b h)
  | succ fuel ih =>
      rw [explore]
      cases hdrop : pending.dropWhile (· ∈ visited) with
      | nil =>
          have hall : ∀ a ∈ pending, a ∈ visited := fun a ha => by
            rcases mem_visited_or_mem_dropWhile visited ha with h | h
            · exact h
            · cases hdrop ▸ h
          refine ⟨?_, ?_⟩
          · intro a ha
            rcases List.mem_append.mp ha with ha | ha
            · exact ha
            · exact hall a ha
          · intro a ha b hb
            rcases hvisited a ha b hb with h | h
            · exact h
            · exact hall b h
      | cons item rest =>
          have hitem : item ∈ domain :=
            hpending item (mem_of_mem_dropWhile (hdrop ▸ List.mem_cons_self))
          have hnew : item ∉ visited := not_mem_of_dropWhile_eq_cons hdrop
          have hrest : ∀ a ∈ pending, a ∈ visited ∨ a = item ∨ a ∈ rest := by
            intro a ha
            rcases mem_visited_or_mem_dropWhile visited ha with h | h
            · exact .inl h
            · exact .inr (List.mem_cons.mp (hdrop ▸ h))
          have hstep := @ih (item :: visited) (rest ++ next item) ?_ ?_ ?_
          · refine ⟨fun a ha => hstep.1 a ?_, hstep.2⟩
            simp only [List.mem_append, List.mem_cons] at ha ⊢
            rcases ha with ha | ha
            · exact .inl (.inr ha)
            · rcases hrest a ha with h | h | h
              · exact .inl (.inr h)
              · exact .inl (.inl h)
              · exact .inr (.inl h)
          · intro a ha
            rcases List.mem_append.mp ha with ha | ha
            · exact hpending a
                (mem_of_mem_dropWhile (hdrop ▸ List.mem_cons_of_mem _ ha))
            · exact hdomain item hitem a ha
          · intro a ha b hb
            simp only [List.mem_append, List.mem_cons]
            rcases List.mem_cons.mp ha with rfl | ha
            · exact .inr (.inr hb)
            · rcases hvisited a ha b hb with h | h
              · exact .inl (.inr h)
              · rcases hrest b h with h | h | h
                · exact .inl (.inr h)
                · exact .inl (.inl h)
                · exact .inr (.inl h)
          · have hlt : (domain.filter (· ∉ item :: visited)).length <
                (domain.filter (· ∉ visited)).length := by
              have hsub : domain.filter (· ∉ item :: visited) =
                  (domain.filter (· ∉ visited)).filter (· ≠ item) := by
                rw [List.filter_filter]
                congr 1
                funext a
                simp [not_or]
              rw [hsub]
              refine List.length_filter_lt_length_iff_exists.mpr
                ⟨item, List.mem_filter.mpr ⟨hitem, by simpa using hnew⟩, ?_⟩
              simp
            omega

/-- A closure over a bounded domain holds exactly what the seeds reach. -/
theorem mem_closure_iff {domain seeds : List α} {bound : ℕ} {item : α}
    (hseeds : ∀ a ∈ seeds, a ∈ domain)
    (hdomain : ∀ a ∈ domain, ∀ b ∈ next a, b ∈ domain)
    (hbound : domain.length ≤ bound) :
    item ∈ closure next bound seeds ↔ ReachedFrom next seeds item := by
  constructor
  · intro hitem
    refine explore_sound (P := ReachedFrom next seeds) ?_ ?_ ?_ item hitem
    · rintro a ⟨seed, hseed, hpath⟩ b hb
      exact ⟨seed, hseed, hpath.tail hb⟩
    · intro a ha
      cases ha
    · intro a ha
      exact ⟨a, ha, .refl⟩
  · rintro ⟨seed, hseed, hpath⟩
    have hcomplete : (∀ a ∈ [] ++ seeds, a ∈ closure next bound seeds) ∧
        ∀ a ∈ closure next bound seeds,
          ∀ b ∈ next a, b ∈ closure next bound seeds :=
      explore_complete hdomain hseeds (fun a ha => by cases ha)
        (le_trans (List.length_filter_le _ _) hbound)
    induction hpath with
    | refl => exact hcomplete.1 seed (by simpa using hseed)
    | tail _ hlast ih => exact hcomplete.2 _ ih _ hlast

end Worklist

end Foundation
