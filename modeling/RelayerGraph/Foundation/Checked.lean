import Mathlib

/-!
# Checked computations

Reasoning about code that stops at its first error.  Each rule says when such
a computation succeeds, so that the inversion of a long function is a chain of
rewrites: every check it passed and every intermediate value it computed.
-/

namespace Foundation

namespace Checked

variable {ε α β γ : Type}

/-- Stop with the given error unless the condition holds. -/
def require (condition : Prop) [Decidable condition] (error : ε) :
    Except ε Unit :=
  if condition then .ok () else .error error

/-- The value of an optional result, or the given error. -/
def orThrow (value : Option α) (error : ε) : Except ε α :=
  match value with
  | some a => .ok a
  | none => .error error

/-- A check made only under a condition. -/
def onlyIf (condition : Prop) [Decidable condition]
    (check : Except ε Unit) : Except ε Unit :=
  if condition then check else .ok ()

/-- A check of an optional value, when there is one. -/
def forSome (value : Option α) (check : α → Except ε Unit) : Except ε Unit :=
  match value with
  | some a => check a
  | none => .ok ()

/-! ## When a computation succeeds -/

@[simp]
theorem bind_eq_ok_iff {x : Except ε α} {f : α → Except ε β} {b : β} :
    x >>= f = .ok b ↔ ∃ a, x = .ok a ∧ f a = .ok b := by
  cases x with
  | error e => simp [bind, Except.bind]
  | ok a => simp [bind, Except.bind]

@[simp]
theorem pure_eq_ok_iff {a b : α} :
    (pure a : Except ε α) = .ok b ↔ a = b := by
  simp [pure, Except.pure]

@[simp]
theorem map_eq_ok_iff {x : Except ε α} {f : α → β} {b : β} :
    f <$> x = .ok b ↔ ∃ a, x = .ok a ∧ f a = b := by
  cases x with
  | error e => simp [Functor.map, Except.map]
  | ok a => simp [Functor.map, Except.map]

@[simp]
theorem require_eq_ok_iff {condition : Prop} [Decidable condition] {error : ε}
    {done : Unit} : require condition error = .ok done ↔ condition := by
  by_cases h : condition <;> simp [require, h]

@[simp]
theorem orThrow_eq_ok_iff {value : Option α} {error : ε} {a : α} :
    orThrow value error = .ok a ↔ value = some a := by
  cases value <;> simp [orThrow]

@[simp]
theorem onlyIf_eq_ok_iff {condition : Prop} [Decidable condition]
    {check : Except ε Unit} {done : Unit} :
    onlyIf condition check = .ok done ↔ (condition → check = .ok ()) := by
  by_cases h : condition <;> simp [onlyIf, h]

@[simp]
theorem forSome_eq_ok_iff {value : Option α} {check : α → Except ε Unit}
    {done : Unit} :
    forSome value check = .ok done ↔ ∀ a, value = some a → check a = .ok () := by
  cases value <;> simp [forSome]

/-! ## Loops -/

/-- A loop of checks succeeds when every check does. -/
theorem forM_eq_ok_iff {xs : List α} {check : α → Except ε Unit} {done : Unit} :
    forM xs check = .ok done ↔ ∀ x ∈ xs, check x = .ok () := by
  induction xs with
  | nil => simp
  | cons x xs ih =>
      simp only [List.forM_cons, bind_eq_ok_iff, ih, List.mem_cons,
        forall_eq_or_imp]
      constructor
      · rintro ⟨⟨⟩, hx, hxs⟩
        exact ⟨hx, hxs⟩
      · rintro ⟨hx, hxs⟩
        exact ⟨(), hx, hxs⟩

/-- The invariant of a loop with an accumulator, over the items done so far. -/
theorem foldlM_induction {σ : Type} {f : σ → α → Except ε σ}
    {P : σ → List α → Prop} {xs : List α} {start final : σ}
    (hstep : ∀ state done x next, x ∈ xs → P state done →
      f state x = .ok next → P next (done ++ [x]))
    (hstart : P start []) (hrun : xs.foldlM f start = .ok final) :
    P final xs := by
  have hgeneral : ∀ (rest done : List α) (state : σ), (∀ x ∈ rest, x ∈ xs) →
      P state done → rest.foldlM f state = .ok final → P final (done ++ rest) := by
    intro rest
    induction rest with
    | nil =>
        intro done state _ hP hrun
        obtain rfl : state = final := by simpa using hrun
        simpa using hP
    | cons x rest ih =>
        intro done state hsub hP hrun
        rw [List.foldlM_cons, bind_eq_ok_iff] at hrun
        obtain ⟨next, hx, hrest⟩ := hrun
        have hnext := hstep _ _ _ _ (hsub x List.mem_cons_self) hP hx
        have hdone := ih (done ++ [x]) next
          (fun y hy => hsub y (List.mem_cons_of_mem _ hy)) hnext hrest
        rwa [List.append_assoc] at hdone
  simpa using hgeneral xs [] start (fun _ hx => hx) hstart hrun

/-- A loop collecting results succeeds when each of its calls does. -/
theorem mapM_eq_ok_iff {xs : List α} {f : α → Except ε β} {ys : List β} :
    xs.mapM f = .ok ys ↔ List.Forall₂ (fun x y => f x = .ok y) xs ys := by
  induction xs generalizing ys with
  | nil => cases ys <;> simp
  | cons x xs ih =>
      simp only [List.mapM_cons, bind_eq_ok_iff, pure_eq_ok_iff]
      constructor
      · rintro ⟨y, hy, rest, hrest, rfl⟩
        exact .cons hy (ih.mp hrest)
      · intro h
        cases h with
        | cons hy hrest => exact ⟨_, hy, _, ih.mpr hrest, rfl⟩

/-- What a collecting loop keeps of its input, when every call keeps it. -/
theorem map_eq_of_mapM {xs : List α} {f : α → Except ε β}
    {ys : List β} {view : β → γ} {key : α → γ}
    (hview : ∀ x y, f x = .ok y → view y = key x) (hrun : xs.mapM f = .ok ys) :
    ys.map view = xs.map key := by
  rw [mapM_eq_ok_iff] at hrun
  induction hrun with
  | nil => rfl
  | cons hhead _ ih => rw [List.map_cons, List.map_cons, hview _ _ hhead, ih]

theorem exists_of_mem_mapM {xs : List α} {f : α → Except ε β} {ys : List β}
    (hrun : xs.mapM f = .ok ys) {y : β} (hy : y ∈ ys) :
    ∃ x ∈ xs, f x = .ok y := by
  rw [mapM_eq_ok_iff] at hrun
  induction hrun with
  | nil => cases hy
  | cons hhead _ ih =>
      rcases List.mem_cons.mp hy with rfl | htail
      · exact ⟨_, List.mem_cons_self, hhead⟩
      · obtain ⟨x, hx, hfx⟩ := ih htail
        exact ⟨x, List.mem_cons_of_mem _ hx, hfx⟩

theorem exists_mem_of_mapM {xs : List α} {f : α → Except ε β} {ys : List β}
    (hrun : xs.mapM f = .ok ys) {x : α} (hx : x ∈ xs) :
    ∃ y ∈ ys, f x = .ok y := by
  rw [mapM_eq_ok_iff] at hrun
  induction hrun with
  | nil => cases hx
  | cons hhead _ ih =>
      rcases List.mem_cons.mp hx with rfl | htail
      · exact ⟨_, List.mem_cons_self, hhead⟩
      · obtain ⟨y, hy, hfx⟩ := ih htail
        exact ⟨y, List.mem_cons_of_mem _ hy, hfx⟩

/-! ## When a loop returns -/

/-- A loop whose every step can be taken from the invariant returns. -/
theorem exists_foldlM_eq_ok {σ : Type} {f : σ → α → Except ε σ}
    {P : σ → Prop} {xs : List α} {start : σ}
    (hstep : ∀ state x, x ∈ xs → P state →
      ∃ next, f state x = .ok next ∧ P next) (hstart : P start) :
    ∃ final, xs.foldlM f start = .ok final ∧ P final := by
  induction xs generalizing start with
  | nil => exact ⟨start, rfl, hstart⟩
  | cons x rest ih =>
      obtain ⟨next, hnext, hP⟩ := hstep start x List.mem_cons_self hstart
      obtain ⟨final, hfinal, hPfinal⟩ :=
        ih (fun state y hy => hstep state y (List.mem_cons_of_mem _ hy)) hP
      refine ⟨final, ?_, hPfinal⟩
      rw [List.foldlM_cons, bind_eq_ok_iff]
      exact ⟨next, hnext, hfinal⟩

/-- A collecting loop returns when each of its calls does. -/
theorem exists_mapM_eq_ok {xs : List α} {f : α → Except ε β}
    (hcall : ∀ x ∈ xs, ∃ y, f x = .ok y) : ∃ ys, xs.mapM f = .ok ys := by
  induction xs with
  | nil => exact ⟨[], rfl⟩
  | cons x rest ih =>
      obtain ⟨y, hy⟩ := hcall x List.mem_cons_self
      obtain ⟨ys, hys⟩ := ih fun z hz => hcall z (List.mem_cons_of_mem _ hz)
      exact ⟨y :: ys, by simp [hy, hys]⟩

end Checked

end Foundation
