import RelayerGraph.Query.Progress

/-!
# Readings under two depth limits

The depth limit and the recorded plan error decide nothing about what the
parser reads next.  Two states that differ in them only are aligned, and the
readings that do not descend into an expression do alike from aligned states.
-/

namespace RelayerGraph.Query.Parser

open Foundation Reading

variable {α β γ δ : Type}

/-! ## States that differ in their depth limit and in the recorded error -/

/-- The state with another depth limit and another recorded plan error. -/
def adjust (p : Parser) (astDepth : ℕ) (deferred : Option PlanError) :
    Parser :=
  { p with
    limits := { p.limits with astDepth }
    deferredPlanError := deferred }

/-- The states differ at most in the depth limit and in the recorded error. -/
def Aligned (p q : Parser) : Prop :=
  ∃ astDepth deferred, q = p.adjust astDepth deferred

theorem Aligned.refl (p : Parser) : Aligned p p :=
  ⟨p.limits.astDepth, p.deferredPlanError, rfl⟩

theorem Aligned.symm {p q : Parser} (h : Aligned p q) : Aligned q p := by
  obtain ⟨astDepth, deferred, rfl⟩ := h
  exact ⟨p.limits.astDepth, p.deferredPlanError, rfl⟩

theorem Aligned.trans {p q r : Parser} (hpq : Aligned p q)
    (hqr : Aligned q r) : Aligned p r := by
  obtain ⟨astDepth, deferred, rfl⟩ := hpq
  obtain ⟨astDepth', deferred', rfl⟩ := hqr
  exact ⟨astDepth', deferred', rfl⟩

theorem Aligned.rest_eq {p q : Parser} (h : Aligned p q) : q.rest = p.rest := by
  obtain ⟨astDepth, deferred, rfl⟩ := h
  rfl

/-- Moving to other tokens keeps two states aligned. -/
theorem Aligned.withRest {p q : Parser} (h : Aligned p q)
    (rest : List Token) :
    Aligned { p with rest } { q with rest } := by
  obtain ⟨astDepth, deferred, rfl⟩ := h
  exact ⟨astDepth, deferred, rfl⟩

theorem Aligned.bindingIsBound_eq {p q : Parser} (h : Aligned p q)
    (binding : String) : bindingIsBound q binding = bindingIsBound p binding := by
  obtain ⟨astDepth, deferred, rfl⟩ := h
  rfl

theorem Aligned.isUnsupported_eq {p q : Parser} (h : Aligned p q)
    (binding : String) : isUnsupported q binding = isUnsupported p binding := by
  obtain ⟨astDepth, deferred, rfl⟩ := h
  rfl

/-- Recording a plan error keeps a state aligned with itself. -/
theorem exists_deferPlanError (error : QueryError)
    {hphase : error.phase = .plan} (p : Parser) :
    ∃ q, deferPlanError error hphase p = .done ((), q) ∧ Aligned p q := by
  refine ⟨_, rfl, ?_⟩
  beta_reduce
  split
  · exact ⟨p.limits.astDepth, _, rfl⟩
  · exact .refl p

theorem exists_deferWhen (c : Prop) [Decidable c] (error : QueryError)
    {hphase : error.phase = .plan} (p : Parser) :
    ∃ q, deferWhen c error hphase p = .done ((), q) ∧ Aligned p q := by
  by_cases hc : c
  · simpa only [deferWhen, if_pos hc] using exists_deferPlanError error p
  · exact ⟨p, by simp only [deferWhen, if_neg hc]; rfl, .refl p⟩

theorem exists_validateProperty (binding name : String) (p : Parser) :
    ∃ q, validateProperty binding name p = .done ((), q) ∧ Aligned p q := by
  simp only [validateProperty, get_bind]
  rcases allowedProperties p binding with _ | _ | allowed
  · exact exists_deferPlanError _ p
  · exact ⟨p, rfl, .refl p⟩
  · exact exists_deferWhen _ _ p

/-! ## Readings that do alike from aligned states -/

/-- From aligned states the readings refuse alike, or answer values in the
relation and leave aligned states. -/
def Lockstep (R : α → β → Prop) (x : Parsing α) (y : Parsing β) : Prop :=
  ∀ p q, Aligned p q →
    Alike (fun a b => R a.1 b.1 ∧ Aligned a.2 b.2) (x p) (y q)

theorem Lockstep.pure {R : α → β → Prop} {a : α} {b : β} (h : R a b) :
    Lockstep R (pure a) (pure b) :=
  fun _ _ hpq => .done ⟨h, hpq⟩

theorem Lockstep.fail {R : α → β → Prop} (error : ParseError) :
    Lockstep R (fail error) (fail error) :=
  fun _ _ _ => .failed error

theorem Lockstep.bind {R : α → β → Prop} {R' : γ → δ → Prop}
    {x : Parsing α} {y : Parsing β} {f : α → Parsing γ} {g : β → Parsing δ}
    (hx : Lockstep R x y) (hf : ∀ a b, R a b → Lockstep R' (f a) (g b)) :
    Lockstep R' (x >>= f) (y >>= g) := by
  intro p q hpq
  refine (hx p q hpq).bind fun a p' b q' hab => ?_
  exact hf a b hab.1 p' q' hab.2

/-- After equal answers the same reading goes on. -/
theorem Lockstep.andThen {R : β → γ → Prop} {x y : Parsing α}
    {f : α → Parsing β} {g : α → Parsing γ} (hxy : Lockstep (· = ·) x y)
    (hfg : ∀ a, Lockstep R (f a) (g a)) :
    Lockstep R (x >>= f) (y >>= g) := by
  refine hxy.bind fun a b hab => ?_
  subst hab
  exact hfg a

theorem lockstep_get : Lockstep Aligned get get :=
  fun _ _ hpq => .done ⟨hpq, hpq⟩

theorem lockstep_peek : Lockstep (· = ·) peek peek := by
  intro p q hpq
  exact .done ⟨by rw [hpq.rest_eq], hpq⟩

theorem lockstep_eat {eat : Parsing Bool} {test : Option Token → Bool}
    (heat : ∀ p, eat p = if test p.rest.head? then
      .done (true, { p with rest := p.rest.tail }) else .done (false, p)) :
    Lockstep (· = ·) eat eat := by
  intro p q hpq
  rw [heat, heat, hpq.rest_eq]
  split
  · exact .done ⟨rfl, hpq.withRest _⟩
  · exact .done ⟨rfl, hpq⟩

theorem lockstep_eatSymbol (symbol : String) :
    Lockstep (· = ·) (eatSymbol symbol) (eatSymbol symbol) :=
  lockstep_eat fun _ => rfl

theorem lockstep_eatWord (word : String) :
    Lockstep (· = ·) (eatWord word) (eatWord word) :=
  lockstep_eat fun _ => rfl

theorem lockstep_advance : Lockstep (· = ·) advance advance := by
  intro p q hpq
  refine .done ⟨rfl, ?_⟩
  simpa only [hpq.rest_eq] using hpq.withRest p.rest.tail

theorem lockstep_expectSymbol (symbol : String) :
    Lockstep (· = ·) (expectSymbol symbol) (expectSymbol symbol) := by
  refine (lockstep_eatSymbol symbol).bind fun a b hab => ?_
  subst hab
  split
  · exact .pure rfl
  · exact .fail _

theorem lockstep_identifier : Lockstep (· = ·) identifier identifier := by
  intro p q hpq
  unfold identifier
  rw [hpq.rest_eq]
  split
  · exact .done ⟨rfl, hpq.withRest _⟩
  · exact .failed _


theorem lockstep_deferPlanError (error error' : QueryError)
    {hphase : error.phase = .plan} {hphase' : error'.phase = .plan} :
    Lockstep (· = ·) (deferPlanError error hphase)
      (deferPlanError error' hphase') := by
  intro p q hpq
  obtain ⟨p', hp, hpp⟩ := exists_deferPlanError error p
  obtain ⟨q', hq, hqq⟩ := exists_deferPlanError error' q
  rw [hp, hq]
  exact .done ⟨rfl, (hpp.symm.trans hpq).trans hqq⟩

theorem lockstep_deferWhen {c c' : Prop} [Decidable c] [Decidable c']
    (error error' : QueryError) {hphase : error.phase = .plan}
    {hphase' : error'.phase = .plan} :
    Lockstep (· = ·) (deferWhen c error hphase)
      (deferWhen c' error' hphase') := by
  intro p q hpq
  obtain ⟨p', hp, hpp⟩ := exists_deferWhen c error p
  obtain ⟨q', hq, hqq⟩ := exists_deferWhen c' error' q
  rw [hp, hq]
  exact .done ⟨rfl, (hpp.symm.trans hpq).trans hqq⟩

theorem lockstep_validateProperty (binding name : String) :
    Lockstep (· = ·) (validateProperty binding name)
      (validateProperty binding name) := by
  intro p q hpq
  obtain ⟨p', hp, hpp⟩ := exists_validateProperty binding name p
  obtain ⟨q', hq, hqq⟩ := exists_validateProperty binding name q
  rw [hp, hq]
  exact .done ⟨rfl, (hpp.symm.trans hpq).trans hqq⟩

/-- A change of the state that does not touch what may differ. -/
theorem lockstep_modify {f g : Parser → Parser}
    (h : ∀ p q, Aligned p q → Aligned (f p) (g q)) :
    Lockstep (· = ·) (modify f) (modify g) :=
  fun p q hpq => .done ⟨rfl, h p q hpq⟩

theorem lockstep_refuseClause :
    Lockstep (· = ·) refuseClause refuseClause := by
  refine lockstep_peek.andThen fun token => ?_
  split
  · split
    · exact .fail _
    · split
      · exact .fail _
      · exact .pure rfl
  · exact .pure rfl

/-! ## Patterns -/

theorem lockstep_nodeLabel (occurrence : ℕ) (binding : String) :
    Lockstep (· = ·) (nodeLabel occurrence binding)
      (nodeLabel occurrence binding) := by
  refine (lockstep_eatSymbol _).andThen fun colon => ?_
  cases colon with
  | false => exact .pure rfl
  | true =>
      refine lockstep_peek.andThen fun token => ?_
      split
      · exact .fail _
      · refine lockstep_identifier.andThen fun name => ?_
        refine lockstep_get.bind fun p q hpq => ?_
        obtain ⟨astDepth, deferred, rfl⟩ := hpq
        exact (lockstep_deferWhen _ _).andThen fun _ => .pure rfl

theorem lockstep_bindNode (occurrence : ℕ) (binding : String)
    (label : Option NodeLabel) :
    Lockstep (· = ·) (bindNode occurrence binding label)
      (bindNode occurrence binding label) := by
  refine lockstep_get.bind fun p q hpq => ?_
  obtain ⟨astDepth, deferred, rfl⟩ := hpq
  refine (lockstep_deferWhen _ _).andThen fun _ => ?_
  refine (lockstep_deferWhen _ _).andThen fun _ => ?_
  refine (lockstep_deferWhen _ _).andThen fun _ => ?_
  refine (lockstep_modify fun r s hrs => ?_).andThen fun _ => .pure rfl
  obtain ⟨astDepth', deferred', rfl⟩ := hrs
  exact ⟨astDepth', deferred', rfl⟩

theorem lockstep_nodePattern (occurrence : ℕ) :
    Lockstep (· = ·) (nodePattern occurrence) (nodePattern occurrence) := by
  refine (lockstep_expectSymbol _).andThen fun _ => ?_
  refine lockstep_identifier.andThen fun binding => ?_
  refine (lockstep_nodeLabel occurrence binding).andThen fun label => ?_
  refine (lockstep_expectSymbol _).andThen fun _ => ?_
  exact lockstep_bindNode occurrence binding label

theorem lockstep_relationshipOpening :
    Lockstep (· = ·) relationshipOpening relationshipOpening := by
  refine (lockstep_eatSymbol _).andThen fun incoming => ?_
  cases incoming with
  | true => exact (lockstep_expectSymbol _).andThen fun _ => .pure rfl
  | false =>
      refine (lockstep_eatSymbol _).andThen fun outgoing => ?_
      cases outgoing with
      | true => exact .pure rfl
      | false => exact .pure rfl

theorem lockstep_relationshipBinding :
    Lockstep (· = ·) relationshipBinding relationshipBinding := by
  refine lockstep_peek.andThen fun token => ?_
  split
  · refine lockstep_identifier.andThen fun binding => ?_
    exact .pure rfl
  · exact .pure rfl

theorem lockstep_relationshipDirection (incoming : Bool) :
    Lockstep (· = ·) (relationshipDirection incoming)
      (relationshipDirection incoming) := by
  unfold relationshipDirection
  split
  · exact (lockstep_expectSymbol _).andThen fun _ => .pure rfl
  · refine (lockstep_eatSymbol _).andThen fun outgoing => ?_
    cases outgoing with
    | true => exact .pure rfl
    | false =>
        refine (lockstep_eatSymbol _).andThen fun undirected => ?_
        cases undirected with
        | true => exact .pure rfl
        | false => exact .fail _

theorem lockstep_admittedType (name : String) (direction : Direction) :
    Lockstep (· = ·) (admittedType name direction)
      (admittedType name direction) := by
  unfold admittedType
  split
  · split
    · exact .fail _
    · split
      · exact .fail _
      · exact .pure rfl
  · exact (lockstep_deferPlanError _ _).andThen fun _ => .pure rfl

theorem lockstep_bindRelationship (relationshipType : RelationshipType)
    (binding : Option String) :
    Lockstep (· = ·) (bindRelationship relationshipType binding)
      (bindRelationship relationshipType binding) := by
  cases binding with
  | none => exact .pure rfl
  | some binding =>
      refine lockstep_get.bind fun p q hpq => ?_
      rw [hpq.bindingIsBound_eq]
      split
      · exact lockstep_deferPlanError _ _
      · refine lockstep_modify fun r s hrs => ?_
        obtain ⟨astDepth, deferred, rfl⟩ := hrs
        exact ⟨astDepth, deferred, rfl⟩

theorem lockstep_relationshipPattern :
    Lockstep (· = ·) relationshipPattern relationshipPattern := by
  refine lockstep_relationshipOpening.andThen fun opening => ?_
  cases opening with
  | none => exact .pure rfl
  | some incoming =>
      refine lockstep_relationshipBinding.andThen fun binding => ?_
      refine (lockstep_expectSymbol _).andThen fun _ => ?_
      refine lockstep_identifier.andThen fun name => ?_
      refine (lockstep_expectSymbol _).andThen fun _ => ?_
      refine (lockstep_relationshipDirection _).andThen fun direction => ?_
      refine (lockstep_admittedType _ _).andThen fun relationshipType => ?_
      exact (lockstep_bindRelationship _ _).andThen fun _ => .pure rfl

theorem lockstep_constrainNode (binding : String) (required : NodeLabel)
    (node : NodePlan) :
    Lockstep (· = ·) (constrainNode binding required node)
      (constrainNode binding required node) := by
  unfold constrainNode
  split
  · split
    · exact (lockstep_deferPlanError _ _).andThen fun _ => .pure rfl
    · exact .pure rfl
  · exact .pure rfl

theorem lockstep_constrainNodes (binding : String) (required : NodeLabel)
    (nodes : List NodePlan) :
    Lockstep (· = ·) (constrainNodes binding required nodes)
      (constrainNodes binding required nodes) := by
  induction nodes with
  | nil => exact .pure rfl
  | cons node nodes ih =>
      refine (lockstep_constrainNode _ _ _).andThen fun node => ?_
      exact ih.andThen fun nodes => .pure rfl

theorem lockstep_constrainNodeLabel (nodes : List NodePlan)
    (binding : String) (required : NodeLabel) :
    Lockstep (· = ·) (constrainNodeLabel nodes binding required)
      (constrainNodeLabel nodes binding required) := by
  have hbinding : Lockstep (· = ·) (constrainBinding binding required)
      (constrainBinding binding required) := by
    refine lockstep_get.bind fun p q hpq => ?_
    obtain ⟨astDepth, deferred, rfl⟩ := hpq
    change Lockstep _ _ (if (p.bindings.lookup binding).join.any _ then _
      else _)
    split
    · exact lockstep_deferPlanError _ _
    · refine lockstep_modify fun r s hrs => ?_
      obtain ⟨astDepth', deferred', rfl⟩ := hrs
      exact ⟨astDepth', deferred', rfl⟩
  exact hbinding.andThen fun _ => lockstep_constrainNodes _ _ _

theorem lockstep_hops (fuel : ℕ) (nodes : List NodePlan) (last : String)
    (relationships : List RelationshipPlan) :
    Lockstep (· = ·) (hops fuel nodes last relationships)
      (hops fuel nodes last relationships) := by
  induction fuel generalizing nodes last relationships with
  | zero => exact fun _ _ _ => .exhausted
  | succ fuel ih =>
      refine lockstep_relationshipPattern.andThen fun hop => ?_
      cases hop with
      | none => exact .pure rfl
      | some hop =>
          refine (lockstep_nodePattern _).andThen fun target => ?_
          refine (lockstep_constrainNodeLabel _ _ _).andThen fun nodes => ?_
          refine (lockstep_constrainNodeLabel _ _ _).andThen fun nodes => ?_
          exact ih _ _ _

theorem lockstep_pathName : Lockstep (· = ·) pathName pathName := by
  refine lockstep_get.bind fun p q hpq => ?_
  rw [hpq.rest_eq]
  split
  · refine lockstep_advance.andThen fun _ => ?_
    exact lockstep_advance.andThen fun _ => .pure rfl
  · exact .pure rfl

theorem lockstep_bindPath (relationships : List RelationshipPlan)
    (binding : Option String) :
    Lockstep (· = ·) (bindPath relationships binding)
      (bindPath relationships binding) := by
  cases binding with
  | none => exact .pure rfl
  | some binding =>
      refine (lockstep_deferWhen _ _).andThen fun _ => ?_
      refine lockstep_get.bind fun p q hpq => ?_
      rw [hpq.bindingIsBound_eq]
      split
      · exact lockstep_deferPlanError _ _
      · refine lockstep_modify fun r s hrs => ?_
        obtain ⟨astDepth, deferred, rfl⟩ := hrs
        exact ⟨astDepth, deferred, rfl⟩

theorem lockstep_patternPart :
    Lockstep (· = ·) patternPart patternPart := by
  refine lockstep_pathName.andThen fun pathBinding => ?_
  refine (lockstep_nodePattern _).andThen fun first => ?_
  refine lockstep_get.bind fun p q hpq => ?_
  rw [hpq.rest_eq]
  refine (lockstep_hops _ _ _ _).andThen fun result => ?_
  exact (lockstep_bindPath _ _).andThen fun _ => .pure rfl

theorem lockstep_patternParts (fuel : ℕ) :
    Lockstep (· = ·) (patternParts fuel) (patternParts fuel) := by
  induction fuel with
  | zero => exact fun _ _ _ => .exhausted
  | succ fuel ih =>
      refine (lockstep_eatSymbol _).andThen fun comma => ?_
      cases comma with
      | false => exact .pure rfl
      | true =>
          refine lockstep_patternPart.andThen fun part => ?_
          exact ih.andThen fun parts => .pure rfl

theorem lockstep_checkNodes (patternIndex : ℕ) (part : PatternPart)
    (nodeIndex : ℕ) (nodes : List NodePlan) :
    Lockstep (· = ·) (checkNodes patternIndex part nodeIndex nodes)
      (checkNodes patternIndex part nodeIndex nodes) := by
  induction nodes generalizing nodeIndex with
  | nil => exact .pure rfl
  | cons node nodes ih =>
      exact (lockstep_deferWhen _ _).andThen fun _ => ih _

theorem lockstep_checkPatterns (patternIndex : ℕ)
    (patterns : List PatternPart) :
    Lockstep (· = ·) (checkPatterns patternIndex patterns)
      (checkPatterns patternIndex patterns) := by
  induction patterns generalizing patternIndex with
  | nil => exact .pure rfl
  | cons part parts ih =>
      exact (lockstep_checkNodes _ _ _ _).andThen fun _ => ih _

theorem lockstep_checkMatch (patterns : List PatternPart) :
    Lockstep (· = ·) (checkMatch patterns) (checkMatch patterns) := by
  refine lockstep_get.bind fun p q _ => ?_
  refine (lockstep_deferWhen _ _).andThen fun _ => ?_
  refine (lockstep_checkPatterns _ _).andThen fun _ => ?_
  exact (lockstep_deferWhen _ _).andThen fun _ => lockstep_deferWhen _ _

theorem lockstep_matchClause :
    Lockstep (· = ·) matchClause matchClause := by
  refine lockstep_refuseClause.andThen fun _ => ?_
  refine lockstep_get.bind fun p q hpq => ?_
  rw [hpq.rest_eq]
  split
  · exact .fail _
  refine (lockstep_eatWord _).andThen fun isMatch => ?_
  cases isMatch with
  | false => exact .fail _
  | true =>
      refine lockstep_patternPart.andThen fun first => ?_
      refine lockstep_get.bind fun p q hpq => ?_
      rw [hpq.rest_eq]
      refine (lockstep_patternParts _).andThen fun others => ?_
      exact (lockstep_checkMatch _).andThen fun _ => .pure rfl

/-! ## Predicates -/

theorem lockstep_property : Lockstep (· = ·) property property := by
  refine lockstep_identifier.andThen fun binding => ?_
  refine (lockstep_expectSymbol _).andThen fun _ => ?_
  refine lockstep_identifier.andThen fun name => ?_
  exact (lockstep_validateProperty _ _).andThen fun _ => .pure rfl

theorem lockstep_compareOperator :
    Lockstep (· = ·) compareOperator compareOperator := by
  refine lockstep_peek.andThen fun token => ?_
  split
  · split
    · exact lockstep_advance.andThen fun _ => .pure rfl
    · exact .fail _
  · exact .fail _

theorem Aligned.isFunctionCall_eq {p q : Parser} (h : Aligned p q)
    (name : String) : isFunctionCall q name = isFunctionCall p name := by
  obtain ⟨astDepth, deferred, rfl⟩ := h
  rfl

theorem lockstep_predicate : Lockstep (· = ·) predicate predicate := by
  refine lockstep_get.bind fun p q hpq => ?_
  rw [hpq.isFunctionCall_eq, hpq.isFunctionCall_eq]
  split
  · exact .fail _
  split
  · exact .fail _
  refine lockstep_property.andThen fun property => ?_
  refine (lockstep_eatWord _).andThen fun isTest => ?_
  cases isTest with
  | true =>
      refine (lockstep_eatWord _).andThen fun negated => ?_
      refine (lockstep_eatWord _).andThen fun null => ?_
      cases null with
      | true => exact .pure rfl
      | false =>
          refine (lockstep_eatWord _).andThen fun absent => ?_
          cases absent with
          | true => exact .pure rfl
          | false => exact .fail _
  | false =>
      refine lockstep_compareOperator.andThen fun operator => ?_
      refine lockstep_get.bind fun p q hpq => ?_
      rw [hpq.isFunctionCall_eq]
      split
      · exact .fail _
      refine lockstep_peek.andThen fun token => ?_
      split
      · exact lockstep_advance.andThen fun _ => .pure rfl
      · exact .fail _

theorem lockstep_predicates (fuel : ℕ) :
    Lockstep (· = ·) (predicates fuel) (predicates fuel) := by
  induction fuel with
  | zero => exact fun _ _ _ => .exhausted
  | succ fuel ih =>
      refine lockstep_predicate.andThen fun first => ?_
      refine (lockstep_eatWord _).andThen fun more => ?_
      cases more with
      | false => exact .pure rfl
      | true => exact ih.andThen fun others => .pure rfl

theorem lockstep_whereClause :
    Lockstep (· = ·) whereClause whereClause := by
  refine (lockstep_eatWord _).andThen fun present => ?_
  cases present with
  | false => exact .pure rfl
  | true =>
      refine lockstep_get.bind fun p q hpq => ?_
      rw [hpq.rest_eq]
      exact lockstep_predicates _

end RelayerGraph.Query.Parser
