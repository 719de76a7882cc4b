import RelayerGraph.Foundation.TransitionSystem

/-!
# Runs that go on

What a run of a transition system keeps between a state and any later one.
-/

namespace Foundation

namespace TransitionSystem

universe u v

variable {σ : Type u} {ℓ : Type v} {T : TransitionSystem σ ℓ}

/-- The second state is reached from the first by some more steps. -/
def Continues (T : TransitionSystem σ ℓ) : σ → σ → Prop :=
  Relation.ReflTransGen fun s t => ∃ l, T.step s l t

theorem Reachable.continues {s t : σ} (hs : T.Reachable s)
    (h : T.Continues s t) : T.Reachable t := by
  induction h with
  | refl => exact hs
  | tail _ hlast ih =>
      obtain ⟨l, hstep⟩ := hlast
      exact ih.step hstep

/-- A preorder which relates the states around every step relates a reachable
state to all later ones. -/
theorem Continues.preserves {R : σ → σ → Prop} [Std.Refl R] [IsTrans σ R]
    (hstep : ∀ s l t, T.Reachable s → T.step s l t → R s t) {s t : σ}
    (hs : T.Reachable s) (h : T.Continues s t) : R s t := by
  induction h with
  | refl => exact Std.Refl.refl s
  | @tail middle last hfirst hlast ih =>
      obtain ⟨l, hl⟩ := hlast
      exact IsTrans.trans _ _ _ ih (hstep _ _ _ (hs.continues hfirst) hl)

end TransitionSystem

end Foundation
