import RelayerGraph.Query.PatternSyntax

/-!
# Accepted readings

A query is accepted when its text is read to the end and no plan error is
recorded on the way.  A recorded error stays recorded, so the accepted readings
of a sequence are those of its parts, one after the other.
-/

namespace RelayerGraph.Query

open Foundation Reading

namespace Parser

variable {α β : Type}

/-- No plan error is recorded. -/
def Clean (p : Parser) : Prop :=
  p.deferredPlanError = none

/-- The reading answers, and no plan error is recorded. -/
def Accepts (x : Parsing α) (p : Parser) (a : α) (q : Parser) : Prop :=
  x p = .done (a, q) ∧ q.Clean

/-- A plan error that is recorded stays so. -/
def Keeps (x : Parsing α) : Prop :=
  ∀ p, Ensures x p fun _ q => q.Clean → p.Clean

/-- The names bound so far. -/
def scope (p : Parser) : Scope :=
  ⟨p.bindings, p.relationshipBindings, p.pathBindings⟩

/-- The parser further on, with other names bound. -/
def goOn (p : Parser) (rest : List Token) (s : Scope) : Parser :=
  { p with
    rest
    bindings := s.bindings
    relationshipBindings := s.relationshipBindings
    pathBindings := s.pathBindings }

section

variable (p : Parser) (rest rest' : List Token) (s s' : Scope)

@[simp]
theorem goOn_rest : (p.goOn rest s).rest = rest := rfl

@[simp]
theorem goOn_scope : (p.goOn rest s).scope = s := rfl

@[simp]
theorem goOn_clean : (p.goOn rest s).Clean ↔ p.Clean := Iff.rfl

@[simp]
theorem goOn_goOn : (p.goOn rest s).goOn rest' s' = p.goOn rest' s' := rfl

theorem goOn_self : p.goOn p.rest p.scope = p := rfl

end

/-! ## Readings that keep a plan error -/

namespace Keeps

theorem pure (a : α) : Keeps (pure a : Parsing α) :=
  fun _ => .pure id

theorem fail (error : ParseError) : Keeps (fail error : Parsing α) :=
  fun _ => .fail

theorem exhaust : Keeps (exhaust : Parsing α) :=
  fun _ => .exhaust

theorem bind {x : Parsing α} {f : α → Parsing β} (hx : Keeps x)
    (hf : ∀ a, Keeps (f a)) : Keeps (x >>= f) :=
  fun p => (hx p).bind fun a q hq => (hf a q).mono fun _ _ hr hclean =>
    hq (hr hclean)

theorem getBind {f : Parser → Parsing α} (hf : ∀ p, Keeps (f p)) :
    Keeps (get >>= f) :=
  fun p => .getBind (hf p p)

theorem modify {f : Parser → Parser} (hf : ∀ p, (f p).Clean → p.Clean) :
    Keeps (modify f) :=
  fun p => .modify (hf p)

theorem ite {c : Prop} [Decidable c] {x y : Parsing α} (hx : Keeps x)
    (hy : Keeps y) : Keeps (if c then x else y) :=
  fun p => .ite (fun _ => hx p) fun _ => hy p

theorem mapError {x : Parsing α} {f : ParseError → ParseError}
    (hx : Keeps x) : Keeps (mapError f x) :=
  fun p => (hx p).mapError

end Keeps

theorem keeps_peek : Keeps peek := by
  intro p token q hrun hclean
  cases hrun
  exact hclean

theorem keeps_advance : Keeps advance :=
  .modify fun _ => id

theorem keeps_eat (test : Option Token → Bool) :
    Keeps (fun p => if test p.rest.head? then
      .done (true, { p with rest := p.rest.tail }) else .done (false, p)) := by
  intro p eaten q hrun hclean
  beta_reduce at hrun
  split at hrun
  · cases hrun
    exact hclean
  · cases hrun
    exact hclean

theorem keeps_eatWord (word : String) : Keeps (eatWord word) :=
  keeps_eat (isWord word)

theorem keeps_eatSymbol (symbol : String) : Keeps (eatSymbol symbol) :=
  keeps_eat (isSymbol symbol)

theorem keeps_expectSymbol (symbol : String) :
    Keeps (expectSymbol symbol) :=
  (keeps_eatSymbol symbol).bind fun _ => .ite (.pure ()) (.fail _)

theorem keeps_identifier : Keeps identifier := by
  intro p word q hrun hclean
  unfold identifier at hrun
  split at hrun
  · cases hrun
    exact hclean
  · cases hrun

theorem keeps_deferPlanError (error : QueryError)
    (hphase : error.phase = .plan) : Keeps (deferPlanError error hphase) := by
  refine .modify ?_
  intro p hclean
  by_cases hnone : p.deferredPlanError.isNone
  · exact Option.isNone_iff_eq_none.mp hnone
  · rwa [if_neg hnone] at hclean

theorem keeps_deferWhen (c : Prop) [Decidable c] (error : QueryError)
    (hphase : error.phase = .plan) : Keeps (deferWhen c error hphase) :=
  .ite (keeps_deferPlanError error hphase) (.pure ())

theorem keeps_nodeLabel (occurrence : ℕ) (binding : String) :
    Keeps (nodeLabel occurrence binding) := by
  refine (keeps_eatSymbol ":").bind fun _ => .ite ?_ (.pure none)
  refine keeps_peek.bind fun token => ?_
  split
  · exact .fail _
  · refine keeps_identifier.bind fun name => .getBind fun p => ?_
    exact (keeps_deferWhen _ _ _).bind fun _ => .pure _

theorem keeps_bindNode (occurrence : ℕ) (binding : String)
    (label : Option NodeLabel) : Keeps (bindNode occurrence binding label) := by
  refine .getBind fun p => ?_
  refine (keeps_deferWhen _ _ _).bind fun _ => ?_
  refine (keeps_deferWhen _ _ _).bind fun _ => ?_
  refine (keeps_deferWhen _ _ _).bind fun _ => ?_
  refine Keeps.bind (.modify ?_) fun _ => .pure _
  exact fun _ => id

theorem keeps_nodePattern (occurrence : ℕ) :
    Keeps (nodePattern occurrence) := by
  refine (keeps_expectSymbol "(").bind fun _ => ?_
  refine keeps_identifier.bind fun binding => ?_
  refine (keeps_nodeLabel occurrence binding).bind fun label => ?_
  refine (keeps_expectSymbol ")").bind fun _ => ?_
  exact keeps_bindNode occurrence binding label

theorem keeps_relationshipDirection (incoming : Bool) :
    Keeps (relationshipDirection incoming) := by
  refine .ite ?_ ?_
  · exact (keeps_expectSymbol "-").bind fun _ => .pure _
  · refine (keeps_eatSymbol "->").bind fun _ => .ite (.pure _) ?_
    exact (keeps_eatSymbol "-").bind fun _ => .ite (.pure _) (.fail _)

theorem keeps_admittedType (name : String) (direction : Direction) :
    Keeps (admittedType name direction) := by
  unfold admittedType
  split
  · exact .ite (.fail _) (.ite (.fail _) (.pure _))
  · exact (keeps_deferPlanError _ _).bind fun _ => .pure _

theorem keeps_bindRelationship (relationshipType : RelationshipType)
    (binding : Option String) :
    Keeps (bindRelationship relationshipType binding) := by
  cases binding with
  | none => exact .pure ()
  | some binding =>
      refine .getBind fun p => .ite (keeps_deferPlanError _ _) ?_
      exact .modify fun _ => id

theorem keeps_constrainBinding (binding : String) (required : NodeLabel) :
    Keeps (constrainBinding binding required) := by
  refine .getBind fun p => .ite (keeps_deferPlanError _ _) ?_
  exact .modify fun _ => id

theorem keeps_constrainNode (binding : String) (required : NodeLabel)
    (node : NodePlan) : Keeps (constrainNode binding required node) := by
  refine .ite (.ite ?_ (.pure _)) (.pure _)
  exact (keeps_deferPlanError _ _).bind fun _ => .pure _

theorem keeps_constrainNodes (binding : String) (required : NodeLabel)
    (nodes : List NodePlan) : Keeps (constrainNodes binding required nodes) := by
  induction nodes with
  | nil => exact .pure []
  | cons node nodes ih =>
      refine (keeps_constrainNode binding required node).bind fun _ => ?_
      exact ih.bind fun _ => .pure _

theorem keeps_constrainNodeLabel (nodes : List NodePlan) (binding : String)
    (required : NodeLabel) :
    Keeps (constrainNodeLabel nodes binding required) :=
  (keeps_constrainBinding binding required).bind fun _ =>
    keeps_constrainNodes binding required nodes

theorem keeps_relationshipOpening : Keeps relationshipOpening := by
  refine (keeps_eatSymbol "<-").bind fun _ => .ite ?_ ?_
  · exact (keeps_expectSymbol "[").bind fun _ => .pure _
  · exact (keeps_eatSymbol "-[").bind fun _ => .ite (.pure _) (.pure _)

theorem keeps_relationshipBinding : Keeps relationshipBinding := by
  refine keeps_peek.bind fun token => ?_
  split
  · exact keeps_identifier.bind fun _ => .pure _
  · exact .pure _

theorem keeps_relationshipPattern : Keeps relationshipPattern := by
  refine keeps_relationshipOpening.bind fun opening => ?_
  cases opening with
  | none => exact .pure _
  | some incoming =>
      refine keeps_relationshipBinding.bind fun binding => ?_
      refine (keeps_expectSymbol ":").bind fun _ => ?_
      refine keeps_identifier.bind fun name => ?_
      refine (keeps_expectSymbol "]").bind fun _ => ?_
      refine (keeps_relationshipDirection incoming).bind fun direction => ?_
      refine (keeps_admittedType name direction).bind fun type => ?_
      exact (keeps_bindRelationship type binding).bind fun _ => .pure _

theorem keeps_hops (fuel : ℕ) (nodes : List NodePlan) (last : String)
    (relationships : List RelationshipPlan) :
    Keeps (hops fuel nodes last relationships) := by
  induction fuel generalizing nodes last relationships with
  | zero => exact .exhaust
  | succ fuel ih =>
      refine keeps_relationshipPattern.bind fun relationship => ?_
      rcases relationship with _ | ⟨binding, direction, type⟩
      · exact .pure _
      · refine (keeps_nodePattern _).bind fun target => ?_
        refine (keeps_constrainNodeLabel _ _ _).bind fun nodes => ?_
        refine (keeps_constrainNodeLabel _ _ _).bind fun nodes => ?_
        exact ih _ _ _

theorem keeps_pathName : Keeps pathName := by
  refine .getBind fun p => ?_
  split
  · exact keeps_advance.bind fun _ => keeps_advance.bind fun _ => .pure _
  · exact .pure _

theorem keeps_bindPath (relationships : List RelationshipPlan)
    (binding : Option String) : Keeps (bindPath relationships binding) := by
  cases binding with
  | none => exact .pure ()
  | some binding =>
      refine (keeps_deferWhen _ _ _).bind fun _ => .getBind fun p => ?_
      exact .ite (keeps_deferPlanError _ _) (.modify fun _ => id)

theorem keeps_patternPart : Keeps patternPart := by
  refine keeps_pathName.bind fun path => ?_
  refine (keeps_nodePattern 0).bind fun first => .getBind fun p => ?_
  refine (keeps_hops _ _ _ _).bind fun result => ?_
  exact (keeps_bindPath _ _).bind fun _ => .pure _

theorem keeps_patternParts (fuel : ℕ) : Keeps (patternParts fuel) := by
  induction fuel with
  | zero => exact .exhaust
  | succ fuel ih =>
      refine (keeps_eatSymbol ",").bind fun _ => .ite ?_ (.pure _)
      refine keeps_patternPart.bind fun part => ?_
      exact ih.bind fun parts => .pure _

theorem keeps_checkNodes (patternIndex : ℕ) (part : PatternPart)
    (nodeIndex : ℕ) (nodes : List NodePlan) :
    Keeps (checkNodes patternIndex part nodeIndex nodes) := by
  induction nodes generalizing nodeIndex with
  | nil => exact .pure ()
  | cons node nodes ih => exact (keeps_deferWhen _ _ _).bind fun _ => ih _

theorem keeps_checkPatterns (patternIndex : ℕ) (parts : List PatternPart) :
    Keeps (checkPatterns patternIndex parts) := by
  induction parts generalizing patternIndex with
  | nil => exact .pure ()
  | cons part parts ih => exact (keeps_checkNodes _ _ _ _).bind fun _ => ih _

theorem keeps_checkMatch (patterns : List PatternPart) :
    Keeps (checkMatch patterns) := by
  refine .getBind fun p => (keeps_deferWhen _ _ _).bind fun _ => ?_
  refine (keeps_checkPatterns _ _).bind fun _ => ?_
  exact (keeps_deferWhen _ _ _).bind fun _ => keeps_deferWhen _ _ _

/-! ## Accepted readings of a sequence -/

section

variable {p q : Parser}

theorem accepts_bind {x : Parsing α} {f : α → Parsing β} {b : β}
    (hf : ∀ a, Keeps (f a)) :
    Accepts (x >>= f) p b q ↔
      ∃ a r, Accepts x p a r ∧ Accepts (f a) r b q := by
  unfold Accepts
  rw [bind_eq_done_iff]
  constructor
  · rintro ⟨⟨a, r, hx, hfr⟩, hclean⟩
    exact ⟨a, r, ⟨hx, hf a r b q hfr hclean⟩, hfr, hclean⟩
  · rintro ⟨a, r, ⟨hx, -⟩, hfr, hclean⟩
    exact ⟨⟨a, r, hx, hfr⟩, hclean⟩

theorem accepts_pure {a b : α} :
    Accepts (pure a : Parsing α) p b q ↔ p.Clean ∧ b = a ∧ q = p := by
  simp only [Accepts, pure_apply, Reply.done.injEq, Prod.mk.injEq]
  constructor
  · rintro ⟨⟨rfl, rfl⟩, hclean⟩
    exact ⟨hclean, rfl, rfl⟩
  · rintro ⟨hclean, rfl, rfl⟩
    exact ⟨⟨rfl, rfl⟩, hclean⟩

theorem accepts_fail {a : α} {error : ParseError} :
    ¬ Accepts (fail error) p a q := by
  rintro ⟨hrun, -⟩
  cases hrun

theorem accepts_get_bind {f : Parser → Parsing β} {b : β} :
    Accepts (get >>= f) p b q ↔ Accepts (f p) p b q := Iff.rfl

theorem accepts_modify {f : Parser → Parser} :
    Accepts (modify f) p () q ↔ (f p).Clean ∧ q = f p := by
  simp only [Accepts, modify_apply, Reply.done.injEq, Prod.mk.injEq, true_and]
  constructor
  · rintro ⟨rfl, hclean⟩
    exact ⟨hclean, rfl⟩
  · rintro ⟨hclean, rfl⟩
    exact ⟨rfl, hclean⟩

theorem accepts_deferPlanError {error : QueryError}
    {hphase : error.phase = .plan} :
    ¬ Accepts (deferPlanError error hphase) p () q := by
  rintro ⟨hrun, hclean⟩
  injection hrun with hrun
  injection hrun with _ hq
  subst hq
  unfold Clean at hclean
  beta_reduce at hclean
  split at hclean
  · cases hclean
  · rename_i hsome
    exact hsome (by simp [hclean])

theorem accepts_deferWhen {c : Prop} [Decidable c] {error : QueryError}
    {hphase : error.phase = .plan} :
    Accepts (deferWhen c error hphase) p () q ↔ p.Clean ∧ ¬ c ∧ q = p := by
  by_cases hc : c
  · simp [deferWhen, hc, accepts_deferPlanError]
  · simp [deferWhen, hc, accepts_pure]

theorem accepts_deferWhen_bind {c : Prop} [Decidable c] {error : QueryError}
    {hphase : error.phase = .plan} {f : Unit → Parsing β} {b : β}
    (hf : Keeps (f ())) :
    Accepts (deferWhen c error hphase >>= f) p b q ↔
      ¬ c ∧ Accepts (f ()) p b q := by
  rw [accepts_bind fun _ => hf]
  constructor
  · rintro ⟨_, r, hdefer, hrest⟩
    obtain ⟨_, hc, rfl⟩ := accepts_deferWhen.mp hdefer
    exact ⟨hc, hrest⟩
  · rintro ⟨hc, hrest⟩
    have hclean : p.Clean := hf p _ _ hrest.1 hrest.2
    exact ⟨(), p, accepts_deferWhen.mpr ⟨hclean, hc, rfl⟩, hrest⟩

theorem accepts_identifier_bind {f : String → Parsing β} {b : β} :
    Accepts (identifier >>= f) p b q ↔
      ∃ word rest, p.rest = .word word :: rest ∧
        Accepts (f word) (p.goOn rest p.scope) b q := by
  unfold Accepts
  rw [bind_eq_done_iff]
  constructor
  · rintro ⟨⟨word, r, hword, hf⟩, hclean⟩
    unfold identifier at hword
    split at hword
    · rename_i word' rest hrest
      cases hword
      exact ⟨_, rest, hrest, hf, hclean⟩
    · cases hword
  · rintro ⟨word, rest, hrest, hf, hclean⟩
    refine ⟨⟨word, _, ?_, hf⟩, hclean⟩
    simp only [identifier, hrest]
    rfl

theorem accepts_eatSymbol_bind {symbol : String} {f : Bool → Parsing β}
    {b : β} :
    Accepts (eatSymbol symbol >>= f) p b q ↔
      (∃ rest, p.rest = .symbol symbol :: rest ∧
        Accepts (f true) (p.goOn rest p.scope) b q) ∨
      (p.rest.head? ≠ some (.symbol symbol) ∧ Accepts (f false) p b q) := by
  by_cases hhead : p.rest.head? = some (.symbol symbol)
  · obtain ⟨rest, hrest⟩ : ∃ rest, p.rest = .symbol symbol :: rest :=
      List.head?_eq_some_iff.mp hhead
    have heat : (eatSymbol symbol >>= f) p =
        f true (p.goOn rest p.scope) := by
      apply bind_of_done
      simp [eatSymbol, isSymbol, hrest, goOn, scope]
    simp [Accepts, heat, hrest]
  · have heat : (eatSymbol symbol >>= f) p = f false p := by
      apply bind_of_done
      simp [eatSymbol, isSymbol, hhead]
    have hno : ¬ ∃ rest, p.rest = .symbol symbol :: rest := by
      rintro ⟨rest, hrest⟩
      simp [hrest] at hhead
    unfold Accepts
    rw [heat]
    constructor
    · intro hf
      exact .inr ⟨hhead, hf⟩
    · rintro (⟨rest, hrest, -⟩ | ⟨-, hf⟩)
      · exact absurd ⟨rest, hrest⟩ hno
      · exact hf

theorem accepts_eatWord_bind {expected : String} {f : Bool → Parsing β}
    {b : β} :
    Accepts (eatWord expected >>= f) p b q ↔
      (∃ word rest, p.rest = .word word :: rest ∧
        toAsciiLowercase word = expected ∧
          Accepts (f true) (p.goOn rest p.scope) b q) ∨
      (isWord expected p.rest.head? = false ∧ Accepts (f false) p b q) := by
  by_cases hhead : isWord expected p.rest.head? = true
  · obtain ⟨word, rest, hrest, hword⟩ : ∃ word rest,
        p.rest = .word word :: rest ∧ toAsciiLowercase word = expected := by
      unfold isWord at hhead
      split at hhead
      · rename_i word hword
        obtain ⟨rest, hrest⟩ := List.head?_eq_some_iff.mp hword
        exact ⟨word, rest, hrest, of_decide_eq_true hhead⟩
      · cases hhead
    have heat : (eatWord expected >>= f) p =
        f true (p.goOn rest p.scope) := by
      apply bind_of_done
      simp [eatWord, isWord, hword, hrest, goOn, scope]
    constructor
    · intro h
      exact .inl ⟨word, rest, hrest, hword, by rwa [Accepts, heat] at h⟩
    · rintro (⟨word', rest', hrest', -, h⟩ | ⟨hno, -⟩)
      · rw [hrest] at hrest'
        injection hrest' with _ hrest'
        subst hrest'
        rwa [Accepts, heat]
      · rw [hno] at hhead
        cases hhead
  · have hno : isWord expected p.rest.head? = false :=
      Bool.eq_false_iff.mpr hhead
    have heat : (eatWord expected >>= f) p = f false p := by
      apply bind_of_done
      simp [eatWord, hno]
    constructor
    · intro h
      exact .inr ⟨hno, by rwa [Accepts, heat] at h⟩
    · rintro (⟨word, rest, hrest, hword, -⟩ | ⟨-, h⟩)
      · rw [hrest] at hhead
        exact absurd (decide_eq_true hword) hhead
      · rwa [Accepts, heat]

theorem accepts_expectSymbol_bind {symbol : String} {f : Unit → Parsing β}
    {b : β} :
    Accepts (expectSymbol symbol >>= f) p b q ↔
      ∃ rest, p.rest = .symbol symbol :: rest ∧
        Accepts (f ()) (p.goOn rest p.scope) b q := by
  unfold expectSymbol
  rw [bind_assoc', accepts_eatSymbol_bind]
  constructor
  · rintro (⟨rest, hrest, hf⟩ | ⟨-, hf⟩)
    · exact ⟨rest, hrest, hf⟩
    · cases hf.1
  · rintro ⟨rest, hrest, hf⟩
    exact .inl ⟨rest, hrest, hf⟩

theorem accepts_peek_bind {f : Option Token → Parsing β} {b : β} :
    Accepts (peek >>= f) p b q ↔ Accepts (f p.rest.head?) p b q := Iff.rfl

end

end Parser

end RelayerGraph.Query
