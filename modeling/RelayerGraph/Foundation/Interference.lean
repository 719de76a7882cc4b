import Mathlib

/-!
# Programs that call a faulty service

A program holds a lock of its own and calls a service that others use as well.
Between two of its calls the others may move the service's state, and a call
may fail without effect or after its effect became durable.  What the program
learns beside the service, such as whether somebody still listens, is answered
arbitrarily.

`Runs` is the meaning of a program.  The inversion rules below take a run apart
one call at a time, and `Stable` properties carry over what the others do.
-/

namespace Foundation

/-- The calls of a service and what each answers. -/
structure Interface where
  Call : Type
  Answer : Call → Type

/-- A program over an interface. -/
inductive Program (I : Interface) (ε α : Type) : Type
  | done (result : α)
  | call (c : I.Call) (next : Except ε (I.Answer c) → Program I ε α)
  | ask (next : Bool → Program I ε α)

/-- Every call the program may make is one of those allowed. -/
def Program.Calls {I : Interface} {ε α : Type} (allowed : I.Call → Prop) :
    Program I ε α → Prop
  | .done _ => True
  | .call c next => allowed c ∧ ∀ answer, (next answer).Calls allowed
  | .ask next => ∀ answer, (next answer).Calls allowed

/-- A service: its answer and the state it leaves, what others do to its state,
and which calls may report an error although they took effect. -/
structure Service (I : Interface) (ε σ : Type) where
  serve : (c : I.Call) → σ → Except ε (I.Answer c) × σ
  interfere : σ → σ → Prop
  ambiguous : I.Call → σ → Prop := fun _ _ => True

variable {I : Interface} {ε σ α β : Type}

namespace Service

variable {S : Service I ε σ}

/-- A run of a program from one state to another, with the states it passed. -/
inductive Runs (S : Service I ε σ) :
    Program I ε α → σ → List σ → α → σ → Prop
  | done (result : α) (s : σ) : Runs S (.done result) s [s] result s
  | interfere {p : Program I ε α} {s s' t : σ} {passed : List σ} {result : α} :
      S.interfere s s' → Runs S p s' passed result t →
      Runs S p s (s :: passed) result t
  | served {c : I.Call} {next : Except ε (I.Answer c) → Program I ε α}
      {s t : σ} {passed : List σ} {result : α} :
      Runs S (next (S.serve c s).1) (S.serve c s).2 passed result t →
      Runs S (.call c next) s (s :: passed) result t
  | lost {c : I.Call} {next : Except ε (I.Answer c) → Program I ε α}
      (error : ε) {s t : σ} {passed : List σ} {result : α} :
      Runs S (next (.error error)) s passed result t →
      Runs S (.call c next) s (s :: passed) result t
  | ambiguous {c : I.Call} {next : Except ε (I.Answer c) → Program I ε α}
      (error : ε) {s t : σ} {passed : List σ} {result : α} :
      S.ambiguous c s →
      Runs S (next (.error error)) (S.serve c s).2 passed result t →
      Runs S (.call c next) s (s :: passed) result t
  | ask {next : Bool → Program I ε α} (answer : Bool) {s t : σ}
      {passed : List σ} {result : α} :
      Runs S (next answer) s passed result t →
      Runs S (.ask next) s (s :: passed) result t

/-- What a call may answer and leave: it is served, lost, or served and reported
as failed. -/
def Replies (S : Service I ε σ) (c : I.Call) (s : σ)
    (answer : Except ε (I.Answer c)) (s' : σ) : Prop :=
  (answer = (S.serve c s).1 ∧ s' = (S.serve c s).2) ∨
    ∃ error, answer = .error error ∧
      (s' = s ∨ (S.ambiguous c s ∧ s' = (S.serve c s).2))

/-- What the others may do in any number of moves. -/
abbrev Moved (S : Service I ε σ) : σ → σ → Prop :=
  Relation.ReflTransGen S.interfere

/-- A property of states which the others keep. -/
def Stable (S : Service I ε σ) (P : σ → Prop) : Prop :=
  ∀ s s', S.interfere s s' → P s → P s'

theorem Stable.moved {P : σ → Prop} (hstable : S.Stable P) {s s' : σ}
    (hmoved : S.Moved s s') (hs : P s) : P s' := by
  induction hmoved with
  | refl => exact hs
  | tail _ hmove ih => exact hstable _ _ hmove ih

/-! ## Taking a run apart -/

theorem Runs.start_mem {p : Program I ε α} {s t : σ} {passed : List σ}
    {result : α} (hrun : S.Runs p s passed result t) : s ∈ passed := by
  cases hrun <;> simp

theorem Runs.final_mem {p : Program I ε α} {s t : σ} {passed : List σ}
    {result : α} (hrun : S.Runs p s passed result t) : t ∈ passed := by
  induction hrun with
  | done => simp
  | interfere _ _ ih => exact List.mem_cons_of_mem _ ih
  | served _ ih => exact List.mem_cons_of_mem _ ih
  | lost _ _ ih => exact List.mem_cons_of_mem _ ih
  | ambiguous _ _ _ ih => exact List.mem_cons_of_mem _ ih
  | ask _ _ ih => exact List.mem_cons_of_mem _ ih

/-- A finished program leaves what the others make of its last state. -/
theorem Runs.of_done {result result' : α} {s t : σ} {passed : List σ}
    (hrun : S.Runs (.done result) s passed result' t) :
    result' = result ∧ S.Moved s t := by
  generalize hp : (Program.done result : Program I ε α) = p at hrun
  induction hrun with
  | done => exact ⟨(Program.done.inj hp).symm, .refl⟩
  | interfere hmove _ ih =>
      obtain ⟨hresult, hmoved⟩ := ih hp
      exact ⟨hresult, .head hmove hmoved⟩
  | served => cases hp
  | lost => cases hp
  | ambiguous => cases hp
  | ask => cases hp

/-- A call reaches the service in some state the others made, and is served,
lost, or served and reported failed. -/
theorem Runs.of_call {c : I.Call}
    {next : Except ε (I.Answer c) → Program I ε α} {s t : σ}
    {passed : List σ} {result : α}
    (hrun : S.Runs (.call c next) s passed result t) :
    ∃ at' ∈ passed, S.Moved s at' ∧ ∃ answer after passed',
      passed' ⊆ passed ∧ S.Runs (next answer) after passed' result t ∧
      S.Replies c at' answer after := by
  generalize hp : Program.call c next = p at hrun
  induction hrun with
  | done => cases hp
  | @interfere p s s' t passed result hmove hrest ih =>
      obtain ⟨at', hat, hmoved, answer, after, passed', hsub, hrun, hanswer⟩ :=
        ih hp
      exact ⟨at', List.mem_cons_of_mem _ hat, .head hmove hmoved, answer, after,
        passed', fun _ h => List.mem_cons_of_mem _ (hsub h), hrun, hanswer⟩
  | @served c' next' s t passed result hrest ih =>
      obtain ⟨rfl, hnext⟩ := Program.call.inj hp
      obtain rfl := eq_of_heq hnext
      exact ⟨s, List.mem_cons_self, .refl, _, _, passed,
        List.subset_cons_self _ _, hrest, .inl ⟨rfl, rfl⟩⟩
  | @lost c' next' error s t passed result hrest ih =>
      obtain ⟨rfl, hnext⟩ := Program.call.inj hp
      obtain rfl := eq_of_heq hnext
      exact ⟨s, List.mem_cons_self, .refl, _, _, passed,
        List.subset_cons_self _ _, hrest, .inr ⟨error, rfl, .inl rfl⟩⟩
  | @ambiguous c' next' error s t passed result hmay hrest ih =>
      obtain ⟨rfl, hnext⟩ := Program.call.inj hp
      obtain rfl := eq_of_heq hnext
      exact ⟨s, List.mem_cons_self, .refl, _, _, passed,
        List.subset_cons_self _ _, hrest, .inr ⟨error, rfl, .inr ⟨hmay, rfl⟩⟩⟩
  | ask => cases hp

theorem Runs.of_ask {next : Bool → Program I ε α} {s t : σ}
    {passed : List σ} {result : α}
    (hrun : S.Runs (.ask next) s passed result t) :
    ∃ answer after passed', S.Moved s after ∧ passed' ⊆ passed ∧
      S.Runs (next answer) after passed' result t := by
  generalize hp : Program.ask next = p at hrun
  induction hrun with
  | done => cases hp
  | @interfere p s s' t passed result hmove hrest ih =>
      obtain ⟨answer, after, passed', hmoved, hsub, hrun⟩ := ih hp
      exact ⟨answer, after, passed', .head hmove hmoved,
        fun _ h => List.mem_cons_of_mem _ (hsub h), hrun⟩
  | served => cases hp
  | lost => cases hp
  | ambiguous => cases hp
  | @ask next' answer s t passed result hrest ih =>
      obtain rfl := Program.ask.inj hp
      exact ⟨answer, s, passed, .refl, List.subset_cons_self _ _, hrest⟩

/-- What neither the others nor the program's own calls break holds all along a
run. -/
theorem Runs.invariant_of_calls {P : σ → Prop} {allowed : I.Call → Prop}
    (hstable : S.Stable P)
    (hserve : ∀ c s, allowed c → P s → P (S.serve c s).2)
    {p : Program I ε α} {s t : σ} {passed : List σ} {result : α}
    (hcalls : p.Calls allowed) (hrun : S.Runs p s passed result t)
    (hs : P s) : ∀ visited ∈ passed, P visited := by
  induction hrun with
  | done => simpa using hs
  | interfere hmove _ ih =>
      simpa [hs] using ih hcalls (hstable _ _ hmove hs)
  | served _ ih =>
      simpa [hs] using ih (hcalls.2 _) (hserve _ _ hcalls.1 hs)
  | lost error _ ih => simpa [hs] using ih (hcalls.2 _) hs
  | ambiguous error _ _ ih =>
      simpa [hs] using ih (hcalls.2 _) (hserve _ _ hcalls.1 hs)
  | ask answer _ ih => simpa [hs] using ih (hcalls answer) hs

/-- What neither the others nor any call breaks holds all along a run. -/
theorem Runs.invariant {P : σ → Prop} (hstable : S.Stable P)
    (hserve : ∀ c s, P s → P (S.serve c s).2) {p : Program I ε α} {s t : σ}
    {passed : List σ} {result : α} (hrun : S.Runs p s passed result t)
    (hs : P s) : ∀ visited ∈ passed, P visited := by
  have hcalls : p.Calls fun _ => True := by
    clear hrun
    induction p with
    | done result => trivial
    | call c next ih => exact ⟨trivial, ih⟩
    | ask next ih => exact ih
  exact hrun.invariant_of_calls hstable (fun c s _ => hserve c s) hcalls hs

end Service

end Foundation
