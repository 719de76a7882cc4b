import RelayerGraph.Query.Parser

/-!
# Every budget of the parser suffices

A reading takes tokens from the front of those left.  How many it takes at
least is tracked through the parser, and with it that no loop runs out of the
budget it was given, so that `parse` answers or refuses every text.
-/

namespace RelayerGraph.Query.Parser

open Foundation Reading

variable {α β : Type}

/-- From at most `n` tokens, the reading answers or refuses, and it takes at
least `k` of them when it answers. -/
def Reads (n k : ℕ) (x : Parsing α) : Prop :=
  ∀ p, p.rest.length ≤ n →
    Answers x p fun _ q => q.rest.length + k ≤ p.rest.length

theorem Reads.bindAfter {n j k : ℕ} {x : Parsing α} {f : α → Parsing β}
    (hx : Reads n j x) (hf : ∀ a, j ≤ n → Reads (n - j) (k - j) (f a)) :
    Reads n k (x >>= f) := by
  intro p hp
  refine (hx p hp).bind fun a q hq => ?_
  refine (hf a (by omega) q (by omega)).mono fun b r hr => ?_
  omega

theorem Reads.bind {n k : ℕ} {x : Parsing α} {f : α → Parsing β}
    (hx : Reads n 0 x) (hf : ∀ a, Reads n k (f a)) : Reads n k (x >>= f) :=
  hx.bindAfter fun a _ => hf a

theorem Reads.mono {n j k : ℕ} {x : Parsing α} (hx : Reads n j x)
    (hkj : k ≤ j) : Reads n k x :=
  fun p hp => (hx p hp).mono fun _ _ hq => by omega

theorem Reads.pure {n : ℕ} (a : α) : Reads n 0 (pure a : Parsing α) :=
  fun _ _ => .pure (by omega)

theorem Reads.fail {n k : ℕ} (error : ParseError) :
    Reads n k (fail error : Parsing α) :=
  fun _ _ => .fail

theorem Reads.mapError {n k : ℕ} {x : Parsing α} (f : ParseError → ParseError)
    (hx : Reads n k x) : Reads n k (mapError f x) :=
  fun p hp => (hx p hp).mapError

/-- A change of the state that leaves the tokens where they are. -/
theorem Reads.modify {n : ℕ} {f : Parser → Parser}
    (hf : ∀ p, (f p).rest = p.rest) :
    Reads n 0 (modify f : Parsing Unit) :=
  fun p _ => .modify (by simp [hf])

/-- A look at the state; what follows is run from that state. -/
theorem Reads.get {n k : ℕ} {f : Parser → Parsing β}
    (hf : ∀ p, p.rest.length ≤ n → Reads p.rest.length k (f p)) :
    Reads n k ((get : Parsing Parser) >>= f) := by
  intro p hp
  have hrun := hf p hp p le_rfl
  exact hrun

theorem Reads.ite {n k : ℕ} {c : Prop} [Decidable c] {x y : Parsing α}
    (hx : c → Reads n k x) (hy : ¬ c → Reads n k y) :
    Reads n k (if c then x else y) := by
  by_cases hc : c
  · simpa only [if_pos hc] using hx hc
  · simpa only [if_neg hc] using hy hc

/-! ## Tokens -/

theorem reads_deferPlanError {n : ℕ} (error : QueryError)
    {hphase : error.phase = .plan} :
    Reads n 0 (deferPlanError error hphase) := by
  apply Reads.modify
  intro p
  split <;> rfl

theorem reads_deferWhen {n : ℕ} (c : Prop) [Decidable c]
    (error : QueryError) {hphase : error.phase = .plan} :
    Reads n 0 (deferWhen c error hphase) := by
  apply Reads.ite
  · intro _
    exact reads_deferPlanError error
  · intro _
    exact Reads.pure ()

theorem reads_peek {n : ℕ} : Reads n 0 peek := by
  intro p _
  constructor
  · simp [peek]
  · intro a q hrun
    simp only [peek, Reply.done.injEq, Prod.mk.injEq] at hrun
    obtain ⟨-, rfl⟩ := hrun
    simp

theorem reads_advance {n : ℕ} : Reads n 0 advance := by
  intro p _
  refine Answers.modify ?_
  simp

/-- A token that is eaten is one token read. -/
theorem Reads.eat {n k : ℕ} {eat : Parsing Bool} {test : Option Token → Bool}
    {f : Bool → Parsing β} (htest : test none = false)
    (heat : ∀ p, eat p = if test p.rest.head? then
      .done (true, { p with rest := p.rest.tail }) else .done (false, p))
    (htrue : 0 < n → Reads (n - 1) (k - 1) (f true)) (hfalse : Reads n k (f false)) :
    Reads n k (eat >>= f) := by
  intro p hp
  by_cases h : test p.rest.head?
  · have hrun : eat p = .done (true, { p with rest := p.rest.tail }) := by
      rw [heat, if_pos h]
    have hpos : 0 < p.rest.length := by
      cases hrest : p.rest with
      | nil => simp [hrest, htest] at h
      | cons token rest => simp
    have hlen : p.rest.tail.length = p.rest.length - 1 := by simp
    have htail :=
      htrue (by omega) { p with rest := p.rest.tail } (by simp; omega)
    constructor
    · rw [bind_of_done hrun]
      exact htail.1
    · intro b q hq
      rw [bind_of_done hrun] at hq
      have hbound := htail.2 b q hq
      simp only [hlen] at hbound
      omega
  · have hrun : eat p = .done (false, p) := by rw [heat, if_neg h]
    constructor
    · rw [bind_of_done hrun]
      exact (hfalse p hp).1
    · intro b q hq
      rw [bind_of_done hrun] at hq
      exact (hfalse p hp).2 b q hq

theorem Reads.eatSymbol {n k : ℕ} {symbol : String} {f : Bool → Parsing β}
    (htrue : 0 < n → Reads (n - 1) (k - 1) (f true)) (hfalse : Reads n k (f false)) :
    Reads n k (eatSymbol symbol >>= f) :=
  Reads.eat rfl (fun _ => rfl) htrue hfalse

theorem Reads.eatWord {n k : ℕ} {word : String} {f : Bool → Parsing β}
    (htrue : 0 < n → Reads (n - 1) (k - 1) (f true)) (hfalse : Reads n k (f false)) :
    Reads n k (eatWord word >>= f) :=
  Reads.eat rfl (fun _ => rfl) htrue hfalse

theorem reads_eatWord {n : ℕ} (word : String) : Reads n 0 (eatWord word) := by
  have h : Reads n 0 (eatWord word >>= pure) :=
    .eatWord (fun _ => .pure true) (.pure false)
  simpa only [bind_pure] using h

/-- A look at the next token, which is then taken or left. -/
theorem Reads.peek {n k : ℕ} {f : Option Token → Parsing β}
    (hf : ∀ token, Reads n k (f token) ∨
      ∃ g, f token = (do advance; g) ∧ token.isSome ∧
        (0 < n → Reads (n - 1) (k - 1) g)) :
    Reads n k (peek >>= f) := by
  intro p hp
  change Answers (f p.rest.head?) p _
  rcases hf p.rest.head? with hleft | ⟨g, hg, hsome, htaken⟩
  · exact hleft p hp
  · have hpos : 0 < p.rest.length := by
      cases hrest : p.rest with
      | nil => simp [hrest] at hsome
      | cons token rest => simp
    have hlen : p.rest.tail.length = p.rest.length - 1 := by simp
    rw [hg]
    refine (htaken (by omega) { p with rest := p.rest.tail }
      (by simp; omega)).mono fun b q hq => ?_
    simp only [hlen] at hq
    omega

theorem reads_expectSymbol {n : ℕ} (symbol : String) :
    Reads n 1 (expectSymbol symbol) :=
  .eatSymbol (fun _ => .pure ()) (.fail _)

theorem reads_identifier {n : ℕ} : Reads n 1 identifier := by
  intro p _
  cases hrest : p.rest with
  | nil =>
      refine ⟨by simp [identifier, hrest], ?_⟩
      intro a q hrun
      simp [identifier, hrest] at hrun
  | cons token rest =>
      cases token with
      | word word =>
          refine ⟨by simp [identifier, hrest], ?_⟩
          intro a q hrun
          simp only [identifier, hrest, Reply.done.injEq, Prod.mk.injEq] at hrun
          obtain ⟨-, rfl⟩ := hrun
          simp
      | parameter name =>
          refine ⟨by simp [identifier, hrest], ?_⟩
          intro a q hrun
          simp [identifier, hrest] at hrun
      | number value =>
          refine ⟨by simp [identifier, hrest], ?_⟩
          intro a q hrun
          simp [identifier, hrest] at hrun
      | symbol symbol =>
          refine ⟨by simp [identifier, hrest], ?_⟩
          intro a q hrun
          simp [identifier, hrest] at hrun

theorem reads_refuseClause {n : ℕ} : Reads n 0 refuseClause := by
  refine reads_peek.bind fun token => ?_
  cases token with
  | none => exact Reads.pure ()
  | some token =>
      cases token with
      | word word =>
          refine Reads.ite (fun _ => .fail _) fun _ => ?_
          exact Reads.ite (fun _ => .fail _) fun _ => .pure ()
      | parameter name => exact Reads.pure ()
      | number value => exact Reads.pure ()
      | symbol symbol => exact Reads.pure ()

/-! ## Patterns -/

theorem reads_nodeLabel {n : ℕ} (occurrence : ℕ) (binding : String) :
    Reads n 0 (nodeLabel occurrence binding) := by
  refine .eatSymbol (fun _ => ?_) (.pure none)
  refine reads_peek.bind fun token => ?_
  split
  · exact .fail _
  · refine (reads_identifier.mono (Nat.zero_le 1)).bind fun name => ?_
    refine .get fun p _ => ?_
    exact (reads_deferWhen _ _).bind fun _ => .pure _

theorem reads_bindNode {n : ℕ} (occurrence : ℕ) (binding : String)
    (label : Option NodeLabel) :
    Reads n 0 (bindNode occurrence binding label) := by
  refine .get fun p _ => ?_
  refine (reads_deferWhen _ _).bind fun _ => ?_
  refine (reads_deferWhen _ _).bind fun _ => ?_
  refine (reads_deferWhen _ _).bind fun _ => ?_
  refine Reads.bind (.modify fun _ => ?_) fun _ => .pure _
  rfl

theorem reads_nodePattern {n : ℕ} (occurrence : ℕ) :
    Reads n 1 (nodePattern occurrence) := by
  refine (reads_expectSymbol "(").bindAfter fun _ _ => ?_
  refine (reads_identifier.mono (Nat.zero_le 1)).bind fun binding => ?_
  refine (reads_nodeLabel occurrence binding).bind fun label => ?_
  refine ((reads_expectSymbol ")").mono (Nat.zero_le 1)).bind fun _ => ?_
  exact reads_bindNode occurrence binding label

theorem reads_relationshipBinding {n : ℕ} :
    Reads n 0 relationshipBinding := by
  refine reads_peek.bind fun token => ?_
  split
  · exact (reads_identifier.mono (Nat.zero_le 1)).bind fun _ => .pure _
  · exact .pure none

theorem reads_relationshipDirection {n : ℕ} (incoming : Bool) :
    Reads n 0 (relationshipDirection incoming) := by
  refine Reads.ite (fun _ => ?_) fun _ => ?_
  · refine ((reads_expectSymbol "-").mono (Nat.zero_le 1)).bind fun _ => ?_
    exact .pure _
  · refine .eatSymbol (fun _ => .pure _) ?_
    exact .eatSymbol (fun _ => .pure _) (.fail _)

theorem reads_admittedType {n : ℕ} (name : String) (direction : Direction) :
    Reads n 0 (admittedType name direction) := by
  unfold admittedType
  split
  · refine Reads.ite (fun _ => .fail _) fun _ => ?_
    exact Reads.ite (fun _ => .fail _) fun _ => .pure _
  · exact (reads_deferPlanError _).bind fun _ => .pure _

theorem reads_bindRelationship {n : ℕ} (relationshipType : RelationshipType)
    (binding : Option String) :
    Reads n 0 (bindRelationship relationshipType binding) := by
  cases binding with
  | none => exact .pure ()
  | some binding =>
      refine .get fun p _ => ?_
      refine Reads.ite (fun _ => reads_deferPlanError _) fun _ => ?_
      exact .modify fun _ => rfl

/-- A relationship pattern that is there is at least one token read. -/
theorem Reads.hop {n k : ℕ}
    {f : Option (Option String × Direction × RelationshipType) → Parsing β}
    (hnone : Reads n k (f none))
    (hsome : 0 < n → ∀ hop, Reads (n - 1) (k - 1) (f (some hop))) :
    Reads n k (relationshipPattern >>= f) := by
  have hhop (hn : 0 < n) (incoming : Bool) : Reads (n - 1) (k - 1)
      ((do
        let binding ← relationshipBinding
        expectSymbol ":"
        let name ← identifier
        expectSymbol "]"
        let direction ← relationshipDirection incoming
        let relationshipType ← admittedType name direction
        bindRelationship relationshipType binding
        return some (binding, direction, relationshipType)) >>= f) := by
    simp only [bind_assoc, pure_bind]
    refine reads_relationshipBinding.bind fun binding => ?_
    refine ((reads_expectSymbol _).mono (Nat.zero_le 1)).bind fun _ => ?_
    refine (reads_identifier.mono (Nat.zero_le 1)).bind fun name => ?_
    refine ((reads_expectSymbol _).mono (Nat.zero_le 1)).bind fun _ => ?_
    refine (reads_relationshipDirection _).bind fun direction => ?_
    refine (reads_admittedType _ _).bind fun relationshipType => ?_
    refine (reads_bindRelationship _ _).bind fun _ => ?_
    exact hsome hn (binding, direction, relationshipType)
  unfold relationshipPattern relationshipOpening
  simp only [bind_assoc]
  refine .eatSymbol (fun hn => ?_) ?_
  · simp only [if_true, bind_assoc, pure_bind]
    refine ((reads_expectSymbol _).mono (Nat.zero_le 1)).bind fun _ => ?_
    simpa only [bind_assoc, pure_bind] using hhop hn true
  · simp only [Bool.false_eq_true, if_false, bind_assoc]
    refine .eatSymbol (fun hn => ?_) ?_
    · simpa only [if_true, pure_bind] using hhop hn false
    · simpa only [Bool.false_eq_true, if_false, pure_bind] using hnone

theorem reads_constrainNode {n : ℕ} (binding : String) (required : NodeLabel)
    (node : NodePlan) : Reads n 0 (constrainNode binding required node) := by
  refine Reads.ite (fun _ => ?_) fun _ => .pure _
  refine Reads.ite (fun _ => ?_) fun _ => .pure _
  exact (reads_deferPlanError _).bind fun _ => .pure _

theorem reads_constrainNodes {n : ℕ} (binding : String)
    (required : NodeLabel) (nodes : List NodePlan) :
    Reads n 0 (constrainNodes binding required nodes) := by
  induction nodes with
  | nil => exact .pure _
  | cons node nodes ih =>
      refine (reads_constrainNode _ _ _).bind fun node => ?_
      exact ih.bind fun _ => .pure _

theorem reads_constrainNodeLabel {n : ℕ} (nodes : List NodePlan)
    (binding : String) (required : NodeLabel) :
    Reads n 0 (constrainNodeLabel nodes binding required) := by
  refine Reads.bind ?_ fun _ => reads_constrainNodes binding required nodes
  refine .get fun p _ => ?_
  exact Reads.ite (fun _ => reads_deferPlanError _) fun _ => .modify fun _ => rfl

theorem reads_hops {n fuel : ℕ} (hn : n < fuel) (nodes : List NodePlan)
    (last : String) (relationships : List RelationshipPlan) :
    Reads n 0 (hops fuel nodes last relationships) := by
  induction fuel generalizing n nodes last relationships with
  | zero => omega
  | succ fuel ih =>
      refine .hop (.pure _) fun hpos hop => ?_
      refine ((reads_nodePattern _).mono (Nat.zero_le 1)).bind fun target => ?_
      refine (reads_constrainNodeLabel _ _ _).bind fun nodes => ?_
      refine (reads_constrainNodeLabel _ _ _).bind fun nodes => ?_
      exact ih (by omega) _ _ _

theorem reads_pathName {n : ℕ} : Reads n 0 pathName := by
  refine .get fun p _ => ?_
  split
  · refine reads_advance.bind fun _ => ?_
    exact reads_advance.bind fun _ => .pure _
  · exact .pure none

theorem reads_bindPath {n : ℕ} (relationships : List RelationshipPlan)
    (binding : Option String) : Reads n 0 (bindPath relationships binding) := by
  cases binding with
  | none => exact .pure ()
  | some binding =>
      refine (reads_deferWhen _ _).bind fun _ => ?_
      refine .get fun p _ => ?_
      refine Reads.ite (fun _ => reads_deferPlanError _) fun _ => ?_
      exact .modify fun _ => rfl

theorem reads_patternPart {n : ℕ} : Reads n 1 patternPart := by
  refine reads_pathName.bind fun pathBinding => ?_
  refine (reads_nodePattern _).bindAfter fun first _ => ?_
  refine .get fun p _ => ?_
  refine (reads_hops (Nat.lt_succ_self _) _ _ _).bind fun result => ?_
  exact (reads_bindPath _ _).bind fun _ => .pure _

theorem reads_patternParts {n fuel : ℕ} (hn : n < fuel) :
    Reads n 0 (patternParts fuel) := by
  induction fuel generalizing n with
  | zero => omega
  | succ fuel ih =>
      refine .eatSymbol (fun hpos => ?_) (.pure _)
      refine (reads_patternPart.mono (Nat.zero_le 1)).bind fun part => ?_
      exact (ih (by omega)).bind fun _ => .pure _

theorem reads_checkNodes {n : ℕ} (patternIndex : ℕ) (part : PatternPart)
    (nodeIndex : ℕ) (nodes : List NodePlan) :
    Reads n 0 (checkNodes patternIndex part nodeIndex nodes) := by
  induction nodes generalizing nodeIndex with
  | nil => exact .pure ()
  | cons node nodes ih => exact (reads_deferWhen _ _).bind fun _ => ih _

theorem reads_checkPatterns {n : ℕ} (patternIndex : ℕ)
    (patterns : List PatternPart) :
    Reads n 0 (checkPatterns patternIndex patterns) := by
  induction patterns generalizing patternIndex with
  | nil => exact .pure ()
  | cons part parts ih => exact (reads_checkNodes _ _ _ _).bind fun _ => ih _

theorem reads_checkMatch {n : ℕ} (patterns : List PatternPart) :
    Reads n 0 (checkMatch patterns) := by
  refine .get fun p _ => ?_
  refine (reads_deferWhen _ _).bind fun _ => ?_
  refine (reads_checkPatterns _ _).bind fun _ => ?_
  exact (reads_deferWhen _ _).bind fun _ => reads_deferWhen _ _

theorem reads_matchClause {n : ℕ} : Reads n 0 matchClause := by
  refine reads_refuseClause.bind fun _ => ?_
  refine .get fun p _ => ?_
  refine Reads.ite (fun _ => .fail _) fun _ => ?_
  refine .eatWord (fun _ => ?_) (.fail _)
  refine (reads_patternPart.mono (Nat.zero_le 1)).bind fun first => ?_
  refine .get fun q _ => ?_
  refine (reads_patternParts (Nat.lt_succ_self _)).bind fun others => ?_
  exact (reads_checkMatch _).bind fun _ => .pure _

/-! ## Predicates -/

theorem reads_validateProperty {n : ℕ} (binding name : String) :
    Reads n 0 (validateProperty binding name) := by
  refine .get fun p _ => ?_
  split
  · exact reads_deferWhen _ _
  · exact .pure ()
  · exact reads_deferPlanError _

theorem reads_property {n : ℕ} : Reads n 0 property := by
  refine (reads_identifier.mono (Nat.zero_le 1)).bind fun binding => ?_
  refine ((reads_expectSymbol _).mono (Nat.zero_le 1)).bind fun _ => ?_
  refine (reads_identifier.mono (Nat.zero_le 1)).bind fun name => ?_
  exact (reads_validateProperty _ _).bind fun _ => .pure _

theorem reads_compareOperator {n : ℕ} : Reads n 0 compareOperator := by
  refine reads_peek.bind fun token => ?_
  split
  · split
    · exact reads_advance.bind fun _ => .pure _
    · exact .fail _
  · exact .fail _

theorem reads_predicate {n : ℕ} : Reads n 0 predicate := by
  refine .get fun p _ => ?_
  refine Reads.ite (fun _ => .fail _) fun _ => ?_
  refine Reads.ite (fun _ => .fail _) fun _ => ?_
  refine reads_property.bind fun property => ?_
  refine .eatWord (fun _ => ?_) ?_
  · refine .eatWord (fun _ => ?_) ?_
    · refine .eatWord (fun _ => .pure _) ?_
      exact .eatWord (fun _ => .pure _) (.fail _)
    · refine .eatWord (fun _ => .pure _) ?_
      exact .eatWord (fun _ => .pure _) (.fail _)
  · refine reads_compareOperator.bind fun operator => ?_
    refine .get fun q _ => ?_
    refine Reads.ite (fun _ => .fail _) fun _ => ?_
    refine reads_peek.bind fun token => ?_
    split
    · exact reads_advance.bind fun _ => .pure _
    · exact .fail _

theorem reads_predicates {n fuel : ℕ} (hn : n < fuel) :
    Reads n 0 (predicates fuel) := by
  induction fuel generalizing n with
  | zero => omega
  | succ fuel ih =>
      refine reads_predicate.bind fun first => ?_
      refine .eatWord (fun hpos => ?_) (.pure _)
      exact (ih (by omega)).bind fun _ => .pure _

theorem reads_whereClause {n : ℕ} : Reads n 0 whereClause := by
  refine .eatWord (fun _ => ?_) (.pure _)
  exact .get fun p _ => reads_predicates (Nat.lt_succ_self _)

/-! ## Expressions -/

theorem reads_recoverAggregate {n : ℕ} (binding : String)
    (tasks : List Task) : Reads n 0 (recoverAggregate binding tasks) := by
  refine Reads.ite (fun _ => .fail _) fun _ => ?_
  refine ((reads_expectSymbol _).mono (Nat.zero_le 1)).bind fun _ => ?_
  refine (reads_eatWord _).bind fun distinct => ?_
  refine .eatSymbol (fun _ => ?_) (.pure _)
  exact ((reads_expectSymbol _).mono (Nat.zero_le 1)).bind fun _ => .pure _

theorem reads_recoverTask {n : ℕ} (task : Task) (tasks : List Task) :
    Reads n 1 (recoverTask task tasks) := by
  cases task with
  | expression =>
      refine .eatSymbol (fun _ => ?_) ?_
      · exact .eatSymbol (fun _ => .pure _) (.pure _)
      refine .eatSymbol (fun _ => .pure _) ?_
      refine .peek fun token => ?_
      split
      · exact .inr ⟨_, rfl, rfl, fun _ => .pure _⟩
      · left
        refine reads_identifier.bindAfter fun binding _ => ?_
        refine .get fun p _ => ?_
        refine Reads.ite (fun _ => .fail _) fun _ => ?_
        refine .eatSymbol (fun _ => .fail _) ?_
        refine reads_peek.bind fun token => ?_
        refine Reads.ite (fun _ => reads_recoverAggregate _ _) fun _ => ?_
        refine .eatSymbol (fun _ => ?_) (.pure _)
        exact (reads_identifier.mono (Nat.zero_le 1)).bind fun _ => .pure _
  | listTail =>
      refine .eatSymbol (fun _ => .pure _) ?_
      exact (reads_expectSymbol _).bindAfter fun _ _ => .pure _
  | recordField =>
      refine reads_identifier.bindAfter fun _ _ => ?_
      exact ((reads_expectSymbol _).mono (Nat.zero_le 1)).bind fun _ => .pure _
  | recordTail =>
      refine .eatSymbol (fun _ => .pure _) ?_
      exact (reads_expectSymbol _).bindAfter fun _ _ => .pure _
  | close symbol => exact (reads_expectSymbol _).bindAfter fun _ _ => .pure _

theorem reads_recoverTasks {n fuel : ℕ} (hn : n < fuel) (tasks : List Task) :
    Reads n 0 (recoverTasks fuel tasks) := by
  induction fuel generalizing n tasks with
  | zero => omega
  | succ fuel ih =>
      cases tasks with
      | nil => exact .pure ()
      | cons task tasks =>
          refine (reads_recoverTask task tasks).bindAfter fun tasks hpos => ?_
          exact ih (by omega) tasks

theorem reads_recoverExpressionSyntax {n : ℕ} :
    Reads n 1 recoverExpressionSyntax := by
  refine .get fun p hp => ?_
  refine (reads_recoverTask _ _).bindAfter fun tasks hpos => ?_
  exact reads_recoverTasks (by omega) tasks

/-- What the readings of expressions take, with budgets over `n`. -/
structure ReadsExpressions (n fuel : ℕ) : Prop where
  expressionAt (depth : ℕ) : Reads n 1 (expressionAt fuel depth)
  listItems (depth : ℕ) : Reads n 1 (listItems fuel depth)
  recordFields (depth : ℕ) (seen : List String) :
    Reads n 1 (recordFields fuel depth seen)
  aggregate (name : String) (depth : ℕ) : Reads n 1 (aggregate fuel name depth)

theorem readsExpressions {n fuel : ℕ} (hn : n < fuel) :
    ReadsExpressions n fuel := by
  induction fuel generalizing n with
  | zero => omega
  | succ fuel ih =>
      constructor
      case expressionAt =>
        intro depth
        rw [Parser.expressionAt]
        refine .get fun p hp => ?_
        refine Reads.ite (fun _ => ?_) fun _ => ?_
        · refine (reads_deferPlanError _).bind fun _ => ?_
          exact reads_recoverExpressionSyntax.bindAfter fun _ _ => .pure _
        refine .eatSymbol (fun _ => ?_) ?_
        · have hbelow := ih (by omega : p.rest.length - 1 < fuel)
          refine .eatSymbol (fun _ => .pure _) ?_
          refine ((hbelow.expressionAt _).mono (Nat.zero_le 1)).bind
            fun first => ?_
          exact ((hbelow.listItems _).mono (Nat.zero_le 1)).bind
            fun _ => .pure _
        refine .eatSymbol (fun _ => ?_) ?_
        · have hbelow := ih (by omega : p.rest.length - 1 < fuel)
          exact ((hbelow.recordFields _ _).mono (Nat.zero_le 1)).bind
            fun _ => .pure _
        refine .peek fun token => ?_
        split
        · exact .inr ⟨_, rfl, rfl, fun _ => .pure _⟩
        left
        refine reads_identifier.bindAfter fun binding hpos => ?_
        refine .get fun q hq => ?_
        refine Reads.ite (fun _ => .fail _) fun _ => ?_
        refine .eatSymbol (fun _ => .fail _) ?_
        refine reads_peek.bind fun token => ?_
        refine Reads.ite (fun _ => ?_) fun _ => ?_
        · exact ((ih (by omega)).aggregate _ _).mono (Nat.zero_le 1)
        refine .eatSymbol (fun _ => ?_) ?_
        · refine (reads_identifier.mono (Nat.zero_le 1)).bind fun name => ?_
          exact (reads_validateProperty _ _).bind fun _ => .pure _
        · exact .get fun r _ => (reads_deferWhen _ _).bind fun _ => .pure _
      case listItems =>
        intro depth
        rw [Parser.listItems]
        refine .eatSymbol (fun hpos => ?_) ?_
        · have hbelow := ih (by omega : n - 1 < fuel)
          refine ((hbelow.expressionAt _).mono (Nat.zero_le 1)).bind
            fun item => ?_
          refine ((hbelow.listItems _).mono (Nat.zero_le 1)).bind
            fun items => ?_
          exact .pure _
        · exact (reads_expectSymbol _).bindAfter fun _ _ => .pure _
      case recordFields =>
        intro depth seen
        rw [Parser.recordFields]
        refine reads_identifier.bindAfter fun name hpos => ?_
        have hbelow := ih (by omega : n - 1 < fuel)
        refine ((reads_expectSymbol _).mono (Nat.zero_le 1)).bind fun _ => ?_
        refine ((hbelow.expressionAt _).mono (Nat.zero_le 1)).bind
          fun value => ?_
        refine (reads_deferWhen _ _).bind fun _ => ?_
        refine .eatSymbol (fun _ => ?_) ?_
        · have hnext := ih (by omega : n - 1 - 1 < fuel)
          exact ((hnext.recordFields _ _).mono (Nat.zero_le 1)).bind
            fun _ => .pure _
        · exact ((reads_expectSymbol _).mono (Nat.zero_le 1)).bind
            fun _ => .pure _
      case aggregate =>
        intro name depth
        rw [Parser.aggregate]
        split
        · exact .fail _
        · refine (reads_expectSymbol _).bindAfter fun _ hpos => ?_
          have hbelow := ih (by omega : n - 1 < fuel)
          refine (reads_eatWord _).bind fun distinct => ?_
          refine .eatSymbol (fun _ => ?_) ?_
          · refine ((reads_expectSymbol _).mono (Nat.zero_le 1)).bind
              fun _ => ?_
            exact (reads_deferWhen _ _).bind fun _ => .pure _
          · refine ((hbelow.expressionAt _).mono (Nat.zero_le 1)).bind
              fun argument => ?_
            refine ((reads_expectSymbol _).mono (Nat.zero_le 1)).bind
              fun _ => ?_
            exact (reads_deferWhen _ _).bind fun _ => .pure _

theorem reads_expression {n : ℕ} : Reads n 1 expression :=
  .get fun _ _ => (readsExpressions (Nat.lt_succ_self _)).expressionAt 0

/-! ## The projection and what follows it -/

theorem reads_checkKinds {n : ℕ} (kinds : List String) :
    Reads n 0 (checkKinds kinds) := by
  unfold checkKinds
  split
  · exact .pure ()
  · split
    · exact .pure ()
    · exact reads_deferPlanError _

mutual

theorem reads_checkHomogeneous {n : ℕ} :
    ∀ expression, Reads n 0 (checkHomogeneous expression)
  | .list items => by
      rw [checkHomogeneous]
      refine .get fun p _ => ?_
      refine (reads_checkKinds _).bind fun _ => ?_
      exact reads_checkItems items
  | .record fields => by
      rw [checkHomogeneous]
      exact reads_checkFields fields
  | .binding _ => .pure ()
  | .property _ => .pure ()
  | .parameter _ => .pure ()
  | .aggregate _ _ _ => .pure ()

theorem reads_checkItems {n : ℕ} : ∀ items, Reads n 0 (checkItems items)
  | [] => .pure ()
  | item :: items => by
      rw [checkItems]
      refine (reads_checkHomogeneous item).bind fun _ => ?_
      exact reads_checkItems items

theorem reads_checkFields {n : ℕ} : ∀ fields, Reads n 0 (checkFields fields)
  | [] => .pure ()
  | (_, value) :: fields => by
      rw [checkFields]
      refine (reads_checkHomogeneous value).bind fun _ => ?_
      exact reads_checkFields fields

end

theorem reads_returnItem {n : ℕ} : Reads n 0 returnItem := by
  refine (reads_expression.mono (Nat.zero_le 1)).bind fun expression => ?_
  refine (reads_deferWhen _ _).bind fun _ => ?_
  refine (reads_checkHomogeneous _).bind fun _ => ?_
  refine .eatWord (fun _ => ?_) ?_
  · exact (reads_identifier.mono (Nat.zero_le 1)).bind fun _ => .pure _
  · cases columnName expression with
    | none => exact .fail _
    | some name => exact .pure _

theorem reads_returnColumn {n : ℕ} (index : ℕ) :
    Reads n 0 (returnColumn index) := by
  refine Reads.bind (.modify fun _ => rfl) fun _ => ?_
  refine (reads_returnItem.mapError _).bind fun column => ?_
  exact Reads.bind (.modify fun _ => rfl) fun _ => .pure _

theorem reads_returnColumns {n fuel : ℕ} (hn : n < fuel) (index : ℕ) :
    Reads n 0 (returnColumns fuel index) := by
  induction fuel generalizing n index with
  | zero => omega
  | succ fuel ih =>
      refine (reads_returnColumn index).bind fun column => ?_
      refine .eatSymbol (fun hpos => ?_) (.pure _)
      exact (ih (by omega) _).bind fun _ => .pure _

theorem reads_checkColumnNames {n : ℕ} (index : ℕ) (seen : List String)
    (columns : List Column) :
    Reads n 0 (checkColumnNames index seen columns) := by
  induction columns generalizing index seen with
  | nil => exact .pure ()
  | cons column columns ih => exact (reads_deferWhen _ _).bind fun _ => ih _ _

theorem reads_returnClause {n : ℕ} : Reads n 0 returnClause := by
  refine (reads_eatWord _).bind fun distinct => ?_
  refine .get fun p _ => ?_
  refine (reads_returnColumns (Nat.lt_succ_self _) 0).bind fun columns => ?_
  exact (reads_checkColumnNames _ _ _).bind fun _ => .pure _

theorem reads_sortDirection {n : ℕ} : Reads n 0 sortDirection := by
  refine .eatWord (fun _ => .pure _) ?_
  exact (reads_eatWord _).bind fun _ => .pure _

theorem reads_nullPlacement {n : ℕ} : Reads n 0 nullPlacement := by
  refine .eatWord (fun _ => ?_) (.pure _)
  refine .eatWord (fun _ => .pure _) ?_
  exact .eatWord (fun _ => .pure _) (.fail _)

theorem reads_orderItem {n : ℕ} (projection : Projection) :
    Reads n 0 (orderItem projection) := by
  refine (reads_identifier.mono (Nat.zero_le 1)).bind fun column => ?_
  refine (reads_deferWhen _ _).bind fun _ => ?_
  refine reads_sortDirection.bind fun direction => ?_
  exact reads_nullPlacement.bind fun _ => .pure _

theorem reads_orderItems {n fuel : ℕ} (hn : n < fuel)
    (projection : Projection) :
    Reads n 0 (orderItems projection fuel) := by
  induction fuel generalizing n with
  | zero => omega
  | succ fuel ih =>
      refine (reads_orderItem projection).bind fun first => ?_
      refine .eatSymbol (fun hpos => ?_) (.pure _)
      exact (ih (by omega)).bind fun _ => .pure _

theorem reads_orderClause {n : ℕ} (projection : Projection) :
    Reads n 0 (orderClause projection) := by
  refine .eatWord (fun _ => ?_) (.pure _)
  refine .eatWord (fun _ => ?_) (.fail _)
  exact .get fun p _ => reads_orderItems (Nat.lt_succ_self _) projection

theorem reads_limitClause {n : ℕ} : Reads n 0 limitClause := by
  refine .eatWord (fun _ => ?_) (.pure _)
  refine reads_peek.bind fun token => ?_
  split
  · refine reads_advance.bind fun _ => ?_
    refine .get fun p _ => ?_
    exact (reads_deferWhen _ _).bind fun _ => .pure _
  · exact reads_advance.bind fun _ => .pure _
  · exact .fail _

theorem reads_clauses {n : ℕ} : Reads n 0 clauses := by
  refine reads_matchClause.bind fun patterns => ?_
  refine reads_whereClause.bind fun predicates => ?_
  refine .eatWord (fun _ => ?_) ?_
  · refine reads_returnClause.bind fun projection => ?_
    refine (reads_orderClause projection).bind fun ordering => ?_
    refine reads_limitClause.bind fun limit => ?_
    refine .eatSymbol (fun _ => ?_) ?_
    all_goals
      refine .get fun p _ => ?_
      refine Reads.ite (fun _ => ?_) fun _ => .pure _
      exact reads_refuseClause.bind fun _ => .fail _
  · exact reads_refuseClause.bind fun _ => .fail _

end RelayerGraph.Query.Parser

namespace RelayerGraph.Query

open Foundation

/-- Every text is answered or refused. -/
theorem parse_ne_exhausted (text : String) (limits : QueryLimits) :
    parse text limits ≠ .exhausted := by
  by_cases hbytes : limits.queryBytes < text.utf8ByteSize
  · obtain ⟨message, hparse⟩ := parse_of_long hbytes
    simp [hparse]
  · cases htokens : Lexer.tokenize text with
    | error error => simp [parse_of_unread hbytes htokens]
    | ok tokens =>
        have hanswer := (Parser.reads_clauses (.start tokens limits) le_rfl).1
        rw [parse_of_tokens hbytes htokens]
        simp only [Parser.query]
        cases hrun : Parser.clauses (.start tokens limits) with
        | exhausted => exact absurd hrun hanswer
        | failed error => simp
        | done result =>
            obtain ⟨plan, q⟩ := result
            simp only [Parser.reportDeferred]
            cases q.deferredPlanError with
            | none => simp
            | some planError => simp

end RelayerGraph.Query
