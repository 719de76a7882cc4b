import Mathlib

/-!
# Labelled transition systems

The generic part of every argument about runs: reachable states, traces that
remember the state before each step, and the two induction rules used to turn
a fact about one step into a fact about a whole run.

The second rule deals with guards.  When a property survives a step exactly
when a guard held before it, the property holds throughout a trace exactly
when every step of the trace meets the guard.
-/

namespace Foundation

universe u v

/-- A labelled transition system together with its initial states. -/
structure TransitionSystem (σ : Type u) (ℓ : Type v) where
  init : σ → Prop
  step : σ → ℓ → σ → Prop

namespace TransitionSystem

variable {σ : Type u} {ℓ : Type v}

/-- States reached from an initial state by finitely many steps. -/
inductive Reachable (T : TransitionSystem σ ℓ) : σ → Prop
  | init {s : σ} : T.init s → Reachable T s
  | step {s t : σ} {l : ℓ} : Reachable T s → T.step s l t → Reachable T t

/-- Steps computed by a partial function reach what the function computes. -/
theorem Reachable.of_foldlM {T : TransitionSystem σ ℓ}
    {next : σ → ℓ → Option σ}
    (hnext : ∀ s l t, next s l = some t → T.step s l t)
    {labels : List ℓ} {s t : σ} (hs : T.Reachable s)
    (hrun : labels.foldlM next s = some t) : T.Reachable t := by
  induction labels generalizing s with
  | nil =>
      obtain rfl : s = t := by simpa using hrun
      exact hs
  | cons label labels ih =>
      obtain ⟨middle, hlabel, hrest⟩ : ∃ middle,
          next s label = some middle ∧ labels.foldlM next middle = some t := by
        simpa [List.foldlM_cons, Option.bind_eq_some_iff] using hrun
      exact ih (.step hs (hnext _ _ _ hlabel)) hrest

/-- A finite run ending in the given state, listed with the state before each
of its steps. -/
inductive Trace (T : TransitionSystem σ ℓ) : List (σ × ℓ) → σ → Prop
  | init {s : σ} : T.init s → Trace T [] s
  | step {steps : List (σ × ℓ)} {s t : σ} {l : ℓ} :
      Trace T steps s → T.step s l t → Trace T (steps ++ [(s, l)]) t

/-- The system whose steps are further restricted by a guard on the state
before the step. -/
def restrict (T : TransitionSystem σ ℓ) (guard : σ → ℓ → Prop) :
    TransitionSystem σ ℓ where
  init := T.init
  step s l t := T.step s l t ∧ guard s l

variable {T : TransitionSystem σ ℓ}

/-- A property of the initial states which every step preserves holds in every
reachable state. -/
theorem Reachable.invariant {P : σ → Prop} {s : σ} (hs : T.Reachable s)
    (hinit : ∀ s, T.init s → P s)
    (hstep : ∀ s l t, T.Reachable s → P s → T.step s l t → P t) : P s := by
  induction hs with
  | init h => exact hinit _ h
  | step hreach hst ih => exact hstep _ _ _ hreach ih hst

/-- Restricting the steps reaches no new state. -/
theorem Reachable.of_restrict {guard : σ → ℓ → Prop} {s : σ}
    (hs : (T.restrict guard).Reachable s) : T.Reachable s := by
  induction hs with
  | init h => exact .init h
  | step _ hst ih => exact .step ih hst.1

theorem Trace.reachable {steps : List (σ × ℓ)} {s : σ}
    (htrace : T.Trace steps s) : T.Reachable s := by
  induction htrace with
  | init h => exact .init h
  | step _ hst ih => exact .step ih hst

/-- Every reachable state ends a trace. -/
theorem Reachable.exists_trace {s : σ} (hs : T.Reachable s) :
    ∃ steps, T.Trace steps s := by
  induction hs with
  | init h => exact ⟨[], .init h⟩
  | step _ hst ih =>
      obtain ⟨steps, htrace⟩ := ih
      exact ⟨_, .step htrace hst⟩

/-- The property holds in every state a trace visits. -/
def HoldsAlong (P : σ → Prop) (steps : List (σ × ℓ)) (s : σ) : Prop :=
  (∀ visited ∈ steps, P visited.1) ∧ P s

/-- The guard is met before every step of a trace. -/
def GuardedBy (guard : σ → ℓ → Prop) (steps : List (σ × ℓ)) : Prop :=
  ∀ visited ∈ steps, guard visited.1 visited.2

/-- Exact guards.  If the property holds initially and, from a reachable state
that has it, survives a step exactly when the guard holds, then it holds along
a trace exactly when the trace is guarded. -/
theorem Trace.holdsAlong_iff_guardedBy {P : σ → Prop} {guard : σ → ℓ → Prop}
    {steps : List (σ × ℓ)} {s : σ} (htrace : T.Trace steps s)
    (hinit : ∀ s, T.init s → P s)
    (hstep : ∀ s l t, T.Reachable s → P s → T.step s l t →
      (P t ↔ guard s l)) :
    HoldsAlong P steps s ↔ GuardedBy guard steps := by
  induction htrace with
  | init h => simp [HoldsAlong, GuardedBy, hinit _ h]
  | @step steps s t l hprefix hst ih =>
      have hlast : P s → (P t ↔ guard s l) := fun hP =>
        hstep s l t hprefix.reachable hP hst
      constructor
      · rintro ⟨hvisited, hP⟩ visited hmem
        have hPs : P s := hvisited (s, l) (by simp)
        have hearlier : GuardedBy guard steps :=
          ih.mp ⟨fun v hv => hvisited v (by simp [hv]), hPs⟩
        rcases List.mem_append.mp hmem with hold | hnew
        · exact hearlier visited hold
        · rw [List.mem_singleton.mp hnew]
          exact (hlast hPs).mp hP
      · intro hguard
        have hearlier : HoldsAlong P steps s :=
          ih.mpr fun v hv => hguard v (by simp [hv])
        refine ⟨?_, (hlast hearlier.2).mpr (hguard (s, l) (by simp))⟩
        intro visited hmem
        rcases List.mem_append.mp hmem with hold | hnew
        · exact hearlier.1 visited hold
        · rw [List.mem_singleton.mp hnew]
          exact hearlier.2

/-! ## The moves of a trace -/

/-- The steps of a trace, each with the states before and after it. -/
def moves : List (σ × ℓ) → σ → List (σ × ℓ × σ)
  | [], _ => []
  | (before, label) :: rest, last =>
      (before, label, (rest.head?.map Prod.fst).getD last) :: moves rest last

theorem moves_concat (steps : List (σ × ℓ)) (s t : σ) (l : ℓ) :
    moves (steps ++ [(s, l)]) t = moves steps s ++ [(s, l, t)] := by
  induction steps with
  | nil => rfl
  | cons first rest ih =>
      rw [List.cons_append, moves, ih, moves, List.cons_append]
      cases rest <;> rfl

/-- A property of every step between states that have `P` holds of every move
of a trace along which `P` holds. -/
theorem Trace.forall_moves {P : σ → Prop} {Q : σ → ℓ → σ → Prop}
    {steps : List (σ × ℓ)} {s : σ} (htrace : T.Trace steps s)
    (hholds : HoldsAlong P steps s)
    (hstep : ∀ a l b, T.Reachable a → P a → P b → T.step a l b → Q a l b) :
    ∀ move ∈ moves steps s, Q move.1 move.2.1 move.2.2 := by
  induction htrace with
  | init h => simp [moves]
  | @step steps s t l hprefix hst ih =>
      have hbefore : P s := hholds.1 (s, l) (by simp)
      have hearlier : HoldsAlong P steps s :=
        ⟨fun visited hvisited => hholds.1 visited (by simp [hvisited]), hbefore⟩
      intro move hmove
      rw [moves_concat] at hmove
      rcases List.mem_append.mp hmove with hold | hnew
      · exact ih hearlier move hold
      · obtain rfl := List.mem_singleton.mp hnew
        exact hstep s l t hprefix.reachable hbefore hholds.2 hst

/-- A trace whose steps meet a guard is a trace of the restricted system. -/
theorem Trace.restrict {guard : σ → ℓ → Prop} {steps : List (σ × ℓ)} {s : σ}
    (htrace : T.Trace steps s) (hguard : GuardedBy guard steps) :
    (T.restrict guard).Trace steps s := by
  induction htrace with
  | init h => exact .init h
  | @step steps s t l hprefix hst ih =>
      have hearlier : GuardedBy guard steps :=
        fun visited hvisited => hguard visited (by simp [hvisited])
      exact .step (ih hearlier) ⟨hst, hguard (s, l) (by simp)⟩

end TransitionSystem

end Foundation
