import Mathlib

/-!
# Reading computations

A computation that reads from a state, may refuse it, and may run out of the
steps it was given.  Running out is an outcome of its own, so that a result
about what a reading accepts or refuses is never one about its budget.

Three judgements are developed: what holds after a reading answers, that a
reading does answer, and that two readings answer alike.
-/

namespace Foundation

/-- The outcome of a reading. -/
inductive Reply (ε α : Type) where
  | exhausted
  | failed (error : ε)
  | done (value : α)
deriving DecidableEq

def Reply.isDone {ε α : Type} : Reply ε α → Bool
  | .done _ => true
  | _ => false

theorem Reply.exists_of_isDone {ε α : Type} {reply : Reply ε α}
    (h : reply.isDone = true) : ∃ value, reply = .done value := by
  cases reply with
  | exhausted => cases h
  | failed error => cases h
  | done value => exact ⟨value, rfl⟩

/-- A computation that reads from a state. -/
def Reading (σ ε α : Type) := σ → Reply ε (α × σ)

namespace Reading

variable {σ τ ε α β γ δ : Type}

instance : Monad (Reading σ ε) where
  pure a s := .done (a, s)
  bind x f s :=
    match x s with
    | .exhausted => .exhausted
    | .failed error => .failed error
    | .done (a, t) => f a t

def get : Reading σ ε σ :=
  fun s => .done (s, s)

def modify (f : σ → σ) : Reading σ ε Unit :=
  fun s => .done ((), f s)

def fail (error : ε) : Reading σ ε α :=
  fun _ => .failed error

def exhaust : Reading σ ε α :=
  fun _ => .exhausted

/-- The same reading with its refusals reworded. -/
def mapError (f : ε → ε) (x : Reading σ ε α) : Reading σ ε α :=
  fun s =>
    match x s with
    | .exhausted => .exhausted
    | .failed error => .failed (f error)
    | .done result => .done result

@[simp]
theorem pure_apply (a : α) (s : σ) :
    (pure a : Reading σ ε α) s = .done (a, s) := rfl

@[simp]
theorem get_apply (s : σ) : (get : Reading σ ε σ) s = .done (s, s) := rfl

@[simp]
theorem modify_apply (f : σ → σ) (s : σ) :
    (modify f : Reading σ ε Unit) s = .done ((), f s) := rfl

@[simp]
theorem fail_apply (error : ε) (s : σ) :
    (fail error : Reading σ ε α) s = .failed error := rfl

@[simp]
theorem exhaust_apply (s : σ) :
    (exhaust : Reading σ ε α) s = .exhausted := rfl

theorem get_bind (f : σ → Reading σ ε α) (s : σ) :
    (get >>= f) s = f s s := rfl

theorem bind_of_done {x : Reading σ ε α} {f : α → Reading σ ε β} {s t : σ}
    {a : α} (hx : x s = .done (a, t)) : (x >>= f) s = f a t := by
  simp only [bind, hx]

theorem bind_of_failed {x : Reading σ ε α} {f : α → Reading σ ε β} {s : σ}
    {error : ε} (hx : x s = .failed error) :
    (x >>= f) s = .failed error := by
  simp only [bind, hx]

theorem bind_of_exhausted {x : Reading σ ε α} {f : α → Reading σ ε β} {s : σ}
    (hx : x s = .exhausted) : (x >>= f) s = .exhausted := by
  simp only [bind, hx]

theorem bind_eq_done_iff {x : Reading σ ε α} {f : α → Reading σ ε β} {s u : σ}
    {b : β} :
    (x >>= f) s = .done (b, u) ↔
      ∃ a t, x s = .done (a, t) ∧ f a t = .done (b, u) := by
  cases hx : x s with
  | exhausted =>
      rw [bind_of_exhausted hx]
      simp
  | failed error =>
      rw [bind_of_failed hx]
      simp
  | done result =>
      rw [bind_of_done hx]
      constructor
      · intro hf
        exact ⟨result.1, result.2, rfl, hf⟩
      · rintro ⟨a, t, hresult, hf⟩
        injection hresult with hresult
        rw [hresult]
        exact hf

theorem bind_pure' (x : Reading σ ε α) : x >>= pure = x := by
  funext s
  cases hx : x s with
  | exhausted => rw [bind_of_exhausted hx]
  | failed error => rw [bind_of_failed hx]
  | done result => rw [bind_of_done hx, pure_apply]

theorem bind_assoc' (x : Reading σ ε α) (f : α → Reading σ ε β)
    (g : β → Reading σ ε γ) :
    x >>= f >>= g = x >>= fun a => f a >>= g := by
  funext s
  cases hx : x s with
  | exhausted =>
      rw [bind_of_exhausted hx, bind_of_exhausted (bind_of_exhausted hx)]
  | failed error =>
      rw [bind_of_failed hx, bind_of_failed (bind_of_failed hx)]
  | done result =>
      rw [bind_of_done hx]
      simp only [Bind.bind, hx]

instance : LawfulMonad (Reading σ ε) :=
  LawfulMonad.mk' (Reading σ ε) bind_pure' (fun _ _ => rfl) bind_assoc'

theorem mapError_of_done {f : ε → ε} {x : Reading σ ε α} {s : σ}
    {result : α × σ} (hx : x s = .done result) :
    mapError f x s = .done result := by
  simp only [mapError, hx]

/-! ## What holds after an answer -/

/-- Whatever the reading answers meets the condition. -/
def Ensures (x : Reading σ ε α) (s : σ) (Q : α → σ → Prop) : Prop :=
  ∀ a t, x s = .done (a, t) → Q a t

theorem Ensures.pure {a : α} {s : σ} {Q : α → σ → Prop} (h : Q a s) :
    Ensures (pure a : Reading σ ε α) s Q := by
  intro b t hrun
  simp only [pure_apply, Reply.done.injEq, Prod.mk.injEq] at hrun
  obtain ⟨rfl, rfl⟩ := hrun
  exact h

theorem Ensures.bind {x : Reading σ ε α} {f : α → Reading σ ε β} {s : σ}
    {Q : α → σ → Prop} {R : β → σ → Prop} (hx : Ensures x s Q)
    (hf : ∀ a t, Q a t → Ensures (f a) t R) : Ensures (x >>= f) s R := by
  intro b u hrun
  cases hxs : x s with
  | exhausted => simp [Bind.bind, hxs] at hrun
  | failed error => simp [Bind.bind, hxs] at hrun
  | done result =>
      obtain ⟨a, t⟩ := result
      rw [bind_of_done hxs] at hrun
      exact hf a t (hx a t hxs) b u hrun

theorem Ensures.mono {x : Reading σ ε α} {s : σ} {Q R : α → σ → Prop}
    (hx : Ensures x s Q) (h : ∀ a t, Q a t → R a t) : Ensures x s R :=
  fun a t hrun => h a t (hx a t hrun)

theorem Ensures.and {x : Reading σ ε α} {s : σ} {Q R : α → σ → Prop}
    (hQ : Ensures x s Q) (hR : Ensures x s R) :
    Ensures x s fun a t => Q a t ∧ R a t :=
  fun a t hrun => ⟨hQ a t hrun, hR a t hrun⟩

theorem Ensures.get {s : σ} {Q : σ → σ → Prop} (h : Q s s) :
    Ensures (get : Reading σ ε σ) s Q := by
  intro a t hrun
  simp only [get_apply, Reply.done.injEq, Prod.mk.injEq] at hrun
  obtain ⟨rfl, rfl⟩ := hrun
  exact h

/-- A look at the state; what follows is run from that state. -/
theorem Ensures.getBind {f : σ → Reading σ ε α} {s : σ} {Q : α → σ → Prop}
    (h : Ensures (f s) s Q) : Ensures (Reading.get >>= f) s Q := h

theorem Ensures.ite {c : Prop} [Decidable c] {x y : Reading σ ε α} {s : σ}
    {Q : α → σ → Prop} (hx : c → Ensures x s Q) (hy : ¬ c → Ensures y s Q) :
    Ensures (if c then x else y) s Q := by
  by_cases hc : c
  · simpa only [if_pos hc] using hx hc
  · simpa only [if_neg hc] using hy hc

theorem Ensures.any {x : Reading σ ε α} {s : σ} :
    Ensures x s fun _ _ => True :=
  fun _ _ _ => trivial

theorem Ensures.modify {f : σ → σ} {s : σ} {Q : Unit → σ → Prop}
    (h : Q () (f s)) : Ensures (modify f : Reading σ ε Unit) s Q := by
  intro a t hrun
  simp only [modify_apply, Reply.done.injEq, Prod.mk.injEq, true_and] at hrun
  subst hrun
  exact h

theorem Ensures.fail {error : ε} {s : σ} {Q : α → σ → Prop} :
    Ensures (fail error : Reading σ ε α) s Q := by
  intro a t hrun
  simp at hrun

theorem Ensures.exhaust {s : σ} {Q : α → σ → Prop} :
    Ensures (exhaust : Reading σ ε α) s Q := by
  intro a t hrun
  simp at hrun

theorem Ensures.mapError {f : ε → ε} {x : Reading σ ε α} {s : σ}
    {Q : α → σ → Prop} (hx : Ensures x s Q) : Ensures (mapError f x) s Q := by
  intro a t hrun
  cases hxs : x s with
  | exhausted => simp [Reading.mapError, hxs] at hrun
  | failed error => simp [Reading.mapError, hxs] at hrun
  | done result =>
      rw [mapError_of_done hxs] at hrun
      injection hrun with hresult
      subst hresult
      exact hx a t hxs

/-! ## That a reading answers -/

/-- The reading does not run out of steps, and whatever it answers meets the
condition. -/
def Answers (x : Reading σ ε α) (s : σ) (Q : α → σ → Prop) : Prop :=
  x s ≠ .exhausted ∧ Ensures x s Q

theorem Answers.pure {a : α} {s : σ} {Q : α → σ → Prop} (h : Q a s) :
    Answers (pure a : Reading σ ε α) s Q :=
  ⟨by simp, .pure h⟩

theorem Answers.bind {x : Reading σ ε α} {f : α → Reading σ ε β} {s : σ}
    {Q : α → σ → Prop} {R : β → σ → Prop} (hx : Answers x s Q)
    (hf : ∀ a t, Q a t → Answers (f a) t R) : Answers (x >>= f) s R := by
  refine ⟨?_, hx.2.bind fun a t hq => (hf a t hq).2⟩
  cases hxs : x s with
  | exhausted => exact absurd hxs hx.1
  | failed error => simp [bind_of_failed hxs]
  | done result =>
      obtain ⟨a, t⟩ := result
      rw [bind_of_done hxs]
      exact (hf a t (hx.2 a t hxs)).1

theorem Answers.mono {x : Reading σ ε α} {s : σ} {Q R : α → σ → Prop}
    (hx : Answers x s Q) (h : ∀ a t, Q a t → R a t) : Answers x s R :=
  ⟨hx.1, hx.2.mono h⟩

theorem Answers.get {s : σ} {Q : σ → σ → Prop} (h : Q s s) :
    Answers (get : Reading σ ε σ) s Q :=
  ⟨by simp, .get h⟩

theorem Answers.modify {f : σ → σ} {s : σ} {Q : Unit → σ → Prop}
    (h : Q () (f s)) : Answers (modify f : Reading σ ε Unit) s Q :=
  ⟨by simp, .modify h⟩

theorem Answers.fail {error : ε} {s : σ} {Q : α → σ → Prop} :
    Answers (fail error : Reading σ ε α) s Q :=
  ⟨by simp, .fail⟩

theorem Answers.mapError {f : ε → ε} {x : Reading σ ε α} {s : σ}
    {Q : α → σ → Prop} (hx : Answers x s Q) : Answers (mapError f x) s Q := by
  refine ⟨?_, hx.2.mapError⟩
  cases hxs : x s with
  | exhausted => exact absurd hxs hx.1
  | failed error => simp [Reading.mapError, hxs]
  | done result => simp [mapError_of_done hxs]

/-! ## That two readings answer alike -/

/-- Two outcomes are alike when both ran out, when they are the same refusal, or
when they are two answers in the relation. -/
inductive Alike (R : α × σ → β × τ → Prop) :
    Reply ε (α × σ) → Reply ε (β × τ) → Prop
  | exhausted : Alike R .exhausted .exhausted
  | failed (error : ε) : Alike R (.failed error) (.failed error)
  | done {a : α × σ} {b : β × τ} (h : R a b) : Alike R (.done a) (.done b)

theorem Alike.pure {R : α × σ → β × τ → Prop} {a : α} {b : β} {s : σ} {t : τ}
    (h : R (a, s) (b, t)) :
    Alike R ((pure a : Reading σ ε α) s) ((pure b : Reading τ ε β) t) :=
  .done h

theorem Alike.bind {R : α × σ → β × τ → Prop} {R' : γ × σ → δ × τ → Prop}
    {x : Reading σ ε α} {y : Reading τ ε β} {f : α → Reading σ ε γ}
    {g : β → Reading τ ε δ} {s : σ} {t : τ} (hx : Alike R (x s) (y t))
    (hf : ∀ a s' b t', R (a, s') (b, t') → Alike R' (f a s') (g b t')) :
    Alike R' ((x >>= f) s) ((y >>= g) t) := by
  generalize hxs : x s = reply at hx
  generalize hyt : y t = reply' at hx
  cases hx with
  | exhausted =>
      rw [bind_of_exhausted hxs, bind_of_exhausted hyt]
      exact .exhausted
  | failed error =>
      rw [bind_of_failed hxs, bind_of_failed hyt]
      exact .failed error
  | @done a b h =>
      rw [bind_of_done hxs, bind_of_done hyt]
      exact hf a.1 a.2 b.1 b.2 h

theorem Alike.mono {R R' : α × σ → β × τ → Prop} {r : Reply ε (α × σ)}
    {r' : Reply ε (β × τ)} (h : Alike R r r') (hR : ∀ a b, R a b → R' a b) :
    Alike R' r r' := by
  cases h with
  | exhausted => exact .exhausted
  | failed error => exact .failed error
  | done hab => exact .done (hR _ _ hab)

theorem Alike.mapError {R : α × σ → β × τ → Prop} {x : Reading σ ε α}
    {y : Reading τ ε β} {f : ε → ε} {s : σ} {t : τ}
    (h : Alike R (x s) (y t)) :
    Alike R (mapError f x s) (mapError f y t) := by
  generalize hxs : x s = reply at h
  generalize hyt : y t = reply' at h
  cases h with
  | exhausted =>
      simp only [Reading.mapError, hxs, hyt]
      exact .exhausted
  | failed error =>
      simp only [Reading.mapError, hxs, hyt]
      exact .failed (f error)
  | done hab =>
      rw [mapError_of_done hxs, mapError_of_done hyt]
      exact .done hab

end Reading

end Foundation
