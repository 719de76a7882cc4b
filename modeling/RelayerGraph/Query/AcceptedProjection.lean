import RelayerGraph.Query.AcceptedClauses

/-!
# The accepted clauses after MATCH

The clauses after MATCH bind no name.  Where no plan error is recorded, every
property they name is one of what its binding was matched as, and they order by
columns of the projection.
-/

namespace RelayerGraph.Query

open Foundation Reading

/-! ## Properties in a scope -/

def NodeLabel.properties : NodeLabel → List String
  | .content => contentProperties
  | .layer => layerProperties

def RelationshipType.properties : RelationshipType → List String
  | .connected => connectedProperties
  | .contains => containsProperties
  | .expands | .references => actionProperties

/-- A property is one of the label of its node, where the label is known, or of
the type of its relationship. -/
def Scope.Allows (s : Scope) (property : PropertyRef) : Prop :=
  (property.binding ∈ s.bindings ∧
    ∀ label, s.label property.binding = some label →
      property.name ∈ label.properties) ∨
  ∃ relationshipType,
    s.relationshipBindings.lookup property.binding = some relationshipType ∧
      property.name ∈ relationshipType.properties

def Predicate.property : Predicate → PropertyRef
  | .propertyComparison property _ _ => property
  | .nullTest property _ => property
  | .absenceTest property _ => property

mutual

/-- The properties that an expression names, at any depth. -/
def Expression.properties : Expression → List PropertyRef
  | .property named => [named]
  | .list items => Expression.allProperties items
  | .record fields => Expression.fieldProperties fields
  | .aggregate _ _ argument => Expression.argumentProperties argument
  | .binding _ => []
  | .parameter _ => []

def Expression.allProperties : List Expression → List PropertyRef
  | [] => []
  | item :: items => item.properties ++ Expression.allProperties items

def Expression.fieldProperties :
    List (String × Expression) → List PropertyRef
  | [] => []
  | (_, value) :: fields =>
      value.properties ++ Expression.fieldProperties fields

def Expression.argumentProperties : Option Expression → List PropertyRef
  | none => []
  | some argument => argument.properties

end

namespace Parser

variable {α β : Type}

/-- The reading binds no name, a recorded plan error stays recorded, and
without one its answer meets the condition. -/
def Finds (s : Scope) (x : Parsing α) (Q : α → Prop) : Prop :=
  ∀ p, p.scope = s → Ensures x p fun a q =>
    q.scope = s ∧ (q.Clean → p.Clean ∧ Q a)

/-- A reading that looks for nothing in particular. -/
abbrev Passes (s : Scope) (x : Parsing α) : Prop :=
  Finds s x fun _ => True

namespace Finds

variable {s : Scope} {x : Parsing α} {f : α → Parsing β} {Q : α → Prop}
  {R : β → Prop}

theorem keeps (hx : ∀ s, Finds s x Q) : Keeps x := by
  intro p a q hrun hclean
  exact ((hx p.scope p rfl a q hrun).2 hclean).1

theorem pure {a : α} (ha : Q a) : Finds s (pure a : Parsing α) Q := by
  intro p hscope
  exact .pure ⟨hscope, fun hclean => ⟨hclean, ha⟩⟩

theorem fail {error : ParseError} : Finds s (fail error : Parsing α) Q :=
  fun _ _ => .fail

theorem exhaust : Finds s (exhaust : Parsing α) Q :=
  fun _ _ => .exhaust

theorem mono {Q' : α → Prop} (hx : Finds s x Q) (h : ∀ a, Q a → Q' a) :
    Finds s x Q' := by
  intro p hscope
  refine (hx p hscope).mono ?_
  rintro a q ⟨hq, hclean⟩
  exact ⟨hq, fun h' => ⟨(hclean h').1, h a (hclean h').2⟩⟩

theorem bind (hx : Finds s x Q) (hf : ∀ a, Finds s (f a) fun b => Q a → R b) :
    Finds s (x >>= f) R := by
  intro p hscope
  refine (hx p hscope).bind ?_
  rintro a q ⟨hq, hclean⟩
  refine (hf a q hq).mono ?_
  rintro b r ⟨hr, hclean'⟩
  refine ⟨hr, fun h => ?_⟩
  obtain ⟨hqclean, hb⟩ := hclean' h
  obtain ⟨hpclean, ha⟩ := hclean hqclean
  exact ⟨hpclean, hb ha⟩

/-- What is read before does not matter. -/
theorem after (hx : Passes s x) (hf : ∀ a, Finds s (f a) R) :
    Finds s (x >>= f) R :=
  hx.bind fun a => (hf a).mono fun _ hb _ => hb

theorem getBind {f : Parser → Parsing β}
    (hf : ∀ p, p.scope = s → Finds s (f p) R) : Finds s (get >>= f) R :=
  fun p hscope => .getBind (hf p hscope p hscope)

theorem ite {c : Prop} [Decidable c] {x y : Parsing α}
    (hx : c → Finds s x Q) (hy : ¬ c → Finds s y Q) :
    Finds s (if c then x else y) Q :=
  fun p hscope => .ite (fun h => hx h p hscope) fun h => hy h p hscope

theorem modify {f : Parser → Parser} (hscope : ∀ p, (f p).scope = p.scope)
    (hclean : ∀ p, (f p).Clean → p.Clean) : Passes s (modify f) := by
  intro p hp
  exact .modify ⟨(hscope p).trans hp, fun h => ⟨hclean p h, trivial⟩⟩

theorem mapError {f : ParseError → ParseError} (hx : Finds s x Q) :
    Finds s (mapError f x) Q :=
  fun p hscope => (hx p hscope).mapError

end Finds

/-! ## Steps that bind no name -/

section

variable {s : Scope}

theorem passes_peek : Passes s peek := by
  intro p hscope token q hrun
  cases hrun
  exact ⟨hscope, fun hclean => ⟨hclean, trivial⟩⟩

theorem passes_advance : Passes s advance :=
  .modify (fun _ => rfl) fun _ => id

theorem passes_eat (test : Option Token → Bool) :
    Passes s (fun p => if test p.rest.head? then
      .done (true, { p with rest := p.rest.tail }) else .done (false, p)) := by
  intro p hscope eaten q hrun
  beta_reduce at hrun
  split at hrun
  · cases hrun
    exact ⟨hscope, fun hclean => ⟨hclean, trivial⟩⟩
  · cases hrun
    exact ⟨hscope, fun hclean => ⟨hclean, trivial⟩⟩

theorem passes_eatWord (word : String) : Passes s (eatWord word) :=
  passes_eat (isWord word)

theorem passes_eatSymbol (symbol : String) : Passes s (eatSymbol symbol) :=
  passes_eat (isSymbol symbol)

theorem passes_expectSymbol (symbol : String) :
    Passes s (expectSymbol symbol) :=
  (passes_eatSymbol symbol).after fun _ =>
    .ite (fun _ => .pure trivial) fun _ => .fail

theorem passes_identifier : Passes s identifier := by
  intro p hscope word q hrun
  unfold identifier at hrun
  split at hrun
  · cases hrun
    exact ⟨hscope, fun hclean => ⟨hclean, trivial⟩⟩
  · cases hrun

theorem finds_deferPlanError (error : QueryError)
    (hphase : error.phase = .plan) :
    Finds s (deferPlanError error hphase) fun _ => False := by
  intro p hscope
  refine .modify ⟨?_, ?_⟩
  · split <;> exact hscope
  · intro hclean
    split at hclean
    · cases hclean
    · rename_i hsome
      exact absurd (Option.isNone_iff_eq_none.mpr hclean) hsome

theorem finds_deferWhen (c : Prop) [Decidable c] (error : QueryError)
    (hphase : error.phase = .plan) :
    Finds s (deferWhen c error hphase) fun _ => ¬ c :=
  .ite (fun _ => (finds_deferPlanError error hphase).mono fun _ => False.elim)
    fun hc => .pure hc

theorem passes_deferWhen (c : Prop) [Decidable c] (error : QueryError)
    (hphase : error.phase = .plan) : Passes s (deferWhen c error hphase) :=
  (finds_deferWhen c error hphase).mono fun _ _ => trivial

theorem passes_refuseClause : Passes s refuseClause := by
  refine passes_peek.after fun token => ?_
  split
  · exact .ite (fun _ => .fail) fun _ =>
      .ite (fun _ => .fail) fun _ => .pure trivial
  · exact .pure trivial

/-! ## WHERE -/

/-- A property that is read without a plan error is one of the scope's. -/
theorem finds_validateProperty (binding name : String) :
    Finds s (validateProperty binding name) fun _ =>
      s.Allows { binding, name } := by
  refine .getBind fun p hscope => ?_
  subst hscope
  have hallowed : ∀ allowed, allowedProperties p binding = some allowed →
      (∀ names, allowed = some names → name ∈ names) →
      p.scope.Allows { binding, name } := by
    intro allowed hallowed hname
    unfold allowedProperties at hallowed
    cases hnode : p.bindings.lookup binding with
    | some label =>
        left
        have hmem : binding ∈ p.scope.bindings :=
          Finmap.lookup_isSome.mp (by rw [scope, hnode]; rfl)
        refine ⟨hmem, ?_⟩
        intro label' hlabel
        have hsome : label = some label' := by
          simpa [Scope.label, scope, hnode] using hlabel
        subst hsome
        cases label' with
        | content =>
            simp only [hnode, Option.some.injEq] at hallowed
            exact hname _ hallowed.symm
        | layer =>
            simp only [hnode, Option.some.injEq] at hallowed
            exact hname _ hallowed.symm
    | none =>
        right
        cases htype : p.relationshipBindings.lookup binding with
        | none => simp [hnode, htype] at hallowed
        | some type =>
            refine ⟨type, htype, ?_⟩
            cases type <;>
              simp only [hnode, htype, Option.some.injEq] at hallowed <;>
                exact hname _ hallowed.symm
  split
  · rename_i allowed hsome
    refine (finds_deferWhen _ _ _).mono fun _ hname => ?_
    refine hallowed _ hsome ?_
    rintro names ⟨⟩
    exact not_not.mp hname
  · rename_i hsome
    refine .pure (hallowed _ hsome ?_)
    rintro names ⟨⟩
  · exact (finds_deferPlanError _ _).mono fun _ => False.elim

theorem finds_property : Finds s property s.Allows := by
  refine passes_identifier.after fun binding => ?_
  refine (passes_expectSymbol ".").after fun _ => ?_
  refine passes_identifier.after fun name => ?_
  exact (finds_validateProperty binding name).bind fun _ => .pure id

theorem passes_compareOperator : Passes s compareOperator := by
  refine passes_peek.after fun token => ?_
  split
  · split
    · exact passes_advance.after fun _ => .pure trivial
    · exact .fail
  · exact .fail

theorem finds_predicate :
    Finds s predicate fun predicate => s.Allows predicate.property := by
  refine .getBind fun p _ => .ite (fun _ => .fail) fun _ =>
    .ite (fun _ => .fail) fun _ => ?_
  refine finds_property.bind fun property => ?_
  refine (passes_eatWord "is").after fun is => .ite (fun _ => ?_) fun _ => ?_
  · refine (passes_eatWord "not").after fun negated => ?_
    refine (passes_eatWord "null").after fun _ => .ite (fun _ => .pure id)
      fun _ => ?_
    exact (passes_eatWord "absent").after fun _ =>
      .ite (fun _ => .pure id) fun _ => .fail
  · refine passes_compareOperator.after fun operator => ?_
    refine .getBind fun p _ => .ite (fun _ => .fail) fun _ => ?_
    refine passes_peek.after fun token => ?_
    split
    · exact passes_advance.after fun _ => .pure id
    · exact .fail

theorem finds_predicates (fuel : ℕ) :
    Finds s (predicates fuel) fun predicates =>
      ∀ predicate ∈ predicates, s.Allows predicate.property := by
  induction fuel with
  | zero => exact .exhaust
  | succ fuel ih =>
      refine finds_predicate.bind fun first => ?_
      refine (passes_eatWord "and").after fun _ => .ite (fun _ => ?_) fun _ => ?_
      · refine ih.bind fun others => .pure ?_
        intro hothers hfirst
        exact List.forall_mem_cons.mpr ⟨hfirst, hothers⟩
      · exact .pure fun hfirst => List.forall_mem_singleton.mpr hfirst

theorem finds_whereClause :
    Finds s whereClause fun predicates =>
      ∀ predicate ∈ predicates, s.Allows predicate.property := by
  refine (passes_eatWord "where").after fun _ => .ite (fun _ => ?_) fun _ => ?_
  · exact .getBind fun p _ => finds_predicates _
  · exact .pure (by simp)

/-! ## Expressions -/

theorem passes_recoverAggregate (binding : String) (tasks : List Task) :
    Passes s (recoverAggregate binding tasks) := by
  refine .ite (fun _ => .fail) fun _ => ?_
  refine (passes_expectSymbol "(").after fun _ => ?_
  refine (passes_eatWord "distinct").after fun _ => ?_
  refine (passes_eatSymbol "*").after fun _ => .ite (fun _ => ?_) fun _ => ?_
  · exact (passes_expectSymbol ")").after fun _ => .pure trivial
  · exact .pure trivial

theorem passes_recoverTask (task : Task) (tasks : List Task) :
    Passes s (recoverTask task tasks) := by
  cases task with
  | expression =>
      refine (passes_eatSymbol "[").after fun _ => .ite (fun _ => ?_) fun _ => ?_
      · exact (passes_eatSymbol "]").after fun _ =>
          .ite (fun _ => .pure trivial) fun _ => .pure trivial
      refine (passes_eatSymbol "\x7b").after fun _ =>
        .ite (fun _ => .pure trivial) fun _ => ?_
      refine passes_peek.after fun token => ?_
      split
      · exact passes_advance.after fun _ => .pure trivial
      refine passes_identifier.after fun binding => .getBind fun p _ =>
        .ite (fun _ => .fail) fun _ => ?_
      refine (passes_eatSymbol "[").after fun _ =>
        .ite (fun _ => .fail) fun _ => ?_
      refine passes_peek.after fun token => .ite
        (fun _ => passes_recoverAggregate binding tasks) fun _ => ?_
      refine (passes_eatSymbol ".").after fun _ =>
        .ite (fun _ => ?_) fun _ => .pure trivial
      exact passes_identifier.after fun _ => .pure trivial
  | listTail =>
      refine (passes_eatSymbol ",").after fun _ =>
        .ite (fun _ => .pure trivial) fun _ => ?_
      exact (passes_expectSymbol "]").after fun _ => .pure trivial
  | recordField =>
      refine passes_identifier.after fun _ => ?_
      exact (passes_expectSymbol ":").after fun _ => .pure trivial
  | recordTail =>
      refine (passes_eatSymbol ",").after fun _ =>
        .ite (fun _ => .pure trivial) fun _ => ?_
      exact (passes_expectSymbol "\x7d").after fun _ => .pure trivial
  | close symbol =>
      exact (passes_expectSymbol symbol).after fun _ => .pure trivial

theorem passes_recoverTasks (fuel : ℕ) (tasks : List Task) :
    Passes s (recoverTasks fuel tasks) := by
  induction fuel generalizing tasks with
  | zero =>
      cases tasks with
      | nil => exact .pure trivial
      | cons task tasks => exact .exhaust
  | succ fuel ih =>
      cases tasks with
      | nil => exact .pure trivial
      | cons task tasks => exact (passes_recoverTask task tasks).after ih

theorem passes_recoverExpressionSyntax :
    Passes s recoverExpressionSyntax :=
  .getBind fun _ _ => passes_recoverTasks _ _

/-- What is found by the readings of expressions with the given budget. -/
structure FindsExpressions (s : Scope) (fuel : ℕ) : Prop where
  expressionAt : ∀ depth, Finds s (expressionAt fuel depth) fun expression =>
    ∀ property ∈ expression.properties, s.Allows property
  listItems : ∀ depth, Finds s (listItems fuel depth) fun items =>
    ∀ property ∈ Expression.allProperties items, s.Allows property
  recordFields : ∀ depth seen, Finds s (recordFields fuel depth seen)
    fun fields =>
      ∀ property ∈ Expression.fieldProperties fields, s.Allows property
  aggregate : ∀ name depth, Finds s (aggregate fuel name depth)
    fun expression => ∀ property ∈ expression.properties, s.Allows property

theorem findsExpressions (fuel : ℕ) : FindsExpressions s fuel := by
  induction fuel with
  | zero =>
      constructor
      · intro depth
        rw [expressionAt]
        exact .exhaust
      · intro depth
        rw [listItems]
        exact .exhaust
      · intro depth seen
        rw [recordFields]
        exact .exhaust
      · intro name depth
        rw [aggregate]
        exact .exhaust
  | succ fuel ih =>
      constructor
      · intro depth
        rw [expressionAt]
        refine .getBind fun p _ => .ite (fun _ => ?_) fun _ => ?_
        · -- The expression is read without recursion, and an error is recorded.
          refine Finds.after ((finds_deferPlanError _ _).mono fun _ =>
            False.elim) fun _ => ?_
          refine passes_recoverExpressionSyntax.after fun _ => .pure ?_
          simp [Expression.properties]
        refine (passes_eatSymbol "[").after fun _ =>
          .ite (fun _ => ?_) fun _ => ?_
        · refine (passes_eatSymbol "]").after fun _ =>
            .ite (fun _ => ?_) fun _ => ?_
          · exact .pure (by simp [Expression.properties,
              Expression.allProperties])
          · refine (ih.expressionAt (depth + 1)).bind fun first => ?_
            refine (ih.listItems (depth + 1)).bind fun items => .pure ?_
            intro hitems hfirst
            simp only [Expression.properties, Expression.allProperties]
            exact List.forall_mem_append.mpr ⟨hfirst, hitems⟩
        refine (passes_eatSymbol "\x7b").after fun _ =>
          .ite (fun _ => ?_) fun _ => ?_
        · refine (ih.recordFields (depth + 1) []).bind fun fields => .pure ?_
          simp only [Expression.properties]
          exact id
        refine passes_peek.after fun token => ?_
        split
        · refine passes_advance.after fun _ => .pure ?_
          simp [Expression.properties]
        refine passes_identifier.after fun binding => .getBind fun p _ =>
          .ite (fun _ => .fail) fun _ => ?_
        refine (passes_eatSymbol "[").after fun _ =>
          .ite (fun _ => .fail) fun _ => ?_
        refine passes_peek.after fun token =>
          .ite (fun _ => ih.aggregate binding depth) fun _ => ?_
        refine (passes_eatSymbol ".").after fun _ =>
          .ite (fun _ => ?_) fun _ => ?_
        · refine passes_identifier.after fun name => ?_
          refine (finds_validateProperty binding name).bind fun _ => .pure ?_
          simp only [Expression.properties]
          exact List.forall_mem_singleton.mpr
        · refine .getBind fun p _ => ?_
          refine (passes_deferWhen _ _ _).after fun _ => .pure ?_
          simp [Expression.properties]
      · intro depth
        rw [listItems]
        refine (passes_eatSymbol ",").after fun _ =>
          .ite (fun _ => ?_) fun _ => ?_
        · refine (ih.expressionAt depth).bind fun item => ?_
          refine (ih.listItems depth).bind fun items => .pure ?_
          intro hitems hitem
          simp only [Expression.allProperties]
          exact List.forall_mem_append.mpr ⟨hitem, hitems⟩
        · refine (passes_expectSymbol "]").after fun _ => .pure ?_
          simp [Expression.allProperties]
      · intro depth seen
        rw [recordFields]
        refine passes_identifier.after fun name => ?_
        refine (passes_expectSymbol ":").after fun _ => ?_
        refine (ih.expressionAt depth).bind fun value => ?_
        refine (passes_deferWhen _ _ _).after fun _ => ?_
        refine (passes_eatSymbol ",").after fun _ =>
          .ite (fun _ => ?_) fun _ => ?_
        · refine (ih.recordFields depth (seen ++ [name])).bind fun fields =>
            .pure ?_
          intro hfields hvalue
          simp only [Expression.fieldProperties]
          exact List.forall_mem_append.mpr ⟨hvalue, hfields⟩
        · refine (passes_expectSymbol "\x7d").after fun _ => .pure ?_
          simp [Expression.fieldProperties]
      · intro name depth
        rw [aggregate]
        split
        · exact .fail
        refine (passes_expectSymbol "(").after fun _ => ?_
        refine (passes_eatWord "distinct").after fun distinct => ?_
        refine (passes_eatSymbol "*").after fun _ =>
          .ite (fun _ => ?_) fun _ => ?_
        · refine (passes_expectSymbol ")").after fun _ => ?_
          refine (passes_deferWhen _ _ _).after fun _ => .pure ?_
          simp [Expression.properties, Expression.argumentProperties]
        · refine (ih.expressionAt (depth + 1)).bind fun argument => ?_
          refine (passes_expectSymbol ")").after fun _ => ?_
          refine (passes_deferWhen _ _ _).after fun _ => .pure ?_
          simp only [Expression.properties, Expression.argumentProperties]
          exact id

theorem finds_expression :
    Finds s expression fun expression =>
      ∀ property ∈ expression.properties, s.Allows property :=
  .getBind fun _ _ => (findsExpressions _).expressionAt 0

/-! ## The projection -/

theorem passes_checkKinds (kinds : List String) :
    Passes s (checkKinds kinds) := by
  unfold checkKinds
  split
  · exact .pure trivial
  · split
    · exact .pure trivial
    · exact (finds_deferPlanError _ _).mono fun _ => False.elim

mutual

theorem passes_checkHomogeneous :
    ∀ expression, Passes s (checkHomogeneous expression)
  | .list items => by
      rw [checkHomogeneous]
      refine .getBind fun p _ => ?_
      exact (passes_checkKinds _).after fun _ => passes_checkItems items
  | .record fields => by
      rw [checkHomogeneous]
      exact passes_checkFields fields
  | .binding _ => .pure trivial
  | .property _ => .pure trivial
  | .parameter _ => .pure trivial
  | .aggregate _ _ _ => .pure trivial

theorem passes_checkItems : ∀ items, Passes s (checkItems items)
  | [] => .pure trivial
  | item :: items => by
      rw [checkItems]
      exact (passes_checkHomogeneous item).after fun _ =>
        passes_checkItems items

theorem passes_checkFields : ∀ fields, Passes s (checkFields fields)
  | [] => .pure trivial
  | (_, value) :: fields => by
      rw [checkFields]
      exact (passes_checkHomogeneous value).after fun _ =>
        passes_checkFields fields

end

/-- The properties a column names. -/
def ColumnAllowed (s : Scope) (column : Column) : Prop :=
  ∀ property ∈ column.expression.properties, s.Allows property

theorem finds_returnItem : Finds s returnItem (ColumnAllowed s) := by
  refine finds_expression.bind fun expression => ?_
  refine (passes_deferWhen _ _ _).after fun _ => ?_
  refine (passes_checkHomogeneous expression).after fun _ => ?_
  refine (passes_eatWord "as").after fun _ => .ite (fun _ => ?_) fun _ => ?_
  · exact passes_identifier.after fun name => .pure id
  · split
    · exact .pure id
    · exact .fail

theorem finds_returnColumn (index : ℕ) :
    Finds s (returnColumn index) (ColumnAllowed s) := by
  refine Finds.after (.modify (fun _ => rfl) fun _ => id) fun _ => ?_
  refine Finds.bind (.mapError finds_returnItem) fun column => ?_
  exact Finds.after (.modify (fun _ => rfl) fun _ => id) fun _ => .pure id

theorem finds_returnColumns (fuel index : ℕ) :
    Finds s (returnColumns fuel index) fun columns =>
      ∀ column ∈ columns, ColumnAllowed s column := by
  induction fuel generalizing index with
  | zero => exact .exhaust
  | succ fuel ih =>
      refine (finds_returnColumn index).bind fun column => ?_
      refine (passes_eatSymbol ",").after fun _ => .ite (fun _ => ?_) fun _ => ?_
      · refine (ih (index + 1)).bind fun columns => .pure ?_
        intro hcolumns hcolumn
        exact List.forall_mem_cons.mpr ⟨hcolumn, hcolumns⟩
      · exact .pure fun hcolumn => List.forall_mem_singleton.mpr hcolumn

theorem passes_checkColumnNames (index : ℕ) (seen : List String)
    (columns : List Column) :
    Passes s (checkColumnNames index seen columns) := by
  induction columns generalizing index seen with
  | nil => exact .pure trivial
  | cons column columns ih => exact (passes_deferWhen _ _ _).after fun _ => ih _ _

theorem finds_returnClause :
    Finds s returnClause fun projection =>
      ∀ column ∈ projection.columns, ColumnAllowed s column := by
  refine (passes_eatWord "distinct").after fun distinct => .getBind fun p _ => ?_
  refine (finds_returnColumns _ _).bind fun columns => ?_
  exact (passes_checkColumnNames _ _ _).after fun _ => .pure id

/-! ## ORDER BY and LIMIT -/

theorem passes_sortDirection : Passes s sortDirection := by
  refine (passes_eatWord "desc").after fun _ =>
    .ite (fun _ => .pure trivial) fun _ => ?_
  exact (passes_eatWord "asc").after fun _ => .pure trivial

theorem passes_nullPlacement : Passes s nullPlacement := by
  refine (passes_eatWord "nulls").after fun _ =>
    .ite (fun _ => ?_) fun _ => .pure trivial
  refine (passes_eatWord "first").after fun _ =>
    .ite (fun _ => .pure trivial) fun _ => ?_
  exact (passes_eatWord "last").after fun _ =>
    .ite (fun _ => .pure trivial) fun _ => .fail

theorem finds_orderItem (projection : Projection) :
    Finds s (orderItem projection) fun item =>
      item.column ∈ projection.columns.map (·.name) := by
  refine passes_identifier.after fun column => ?_
  refine (finds_deferWhen _ _ _).bind fun _ => ?_
  refine passes_sortDirection.after fun direction => ?_
  exact passes_nullPlacement.after fun nulls => .pure not_not.mp

theorem finds_orderItems (projection : Projection) (fuel : ℕ) :
    Finds s (orderItems projection fuel) fun items =>
      ∀ item ∈ items, item.column ∈ projection.columns.map (·.name) := by
  induction fuel with
  | zero => exact .exhaust
  | succ fuel ih =>
      refine (finds_orderItem projection).bind fun first => ?_
      refine (passes_eatSymbol ",").after fun _ => .ite (fun _ => ?_) fun _ => ?_
      · refine ih.bind fun others => .pure ?_
        intro hothers hfirst
        exact List.forall_mem_cons.mpr ⟨hfirst, hothers⟩
      · exact .pure fun hfirst => List.forall_mem_singleton.mpr hfirst

theorem finds_orderClause (projection : Projection) :
    Finds s (orderClause projection) fun items =>
      ∀ item ∈ items, item.column ∈ projection.columns.map (·.name) := by
  refine (passes_eatWord "order").after fun _ =>
    .ite (fun _ => ?_) fun _ => .pure (by simp)
  refine (passes_eatWord "by").after fun _ => .ite (fun _ => ?_) fun _ => .fail
  exact .getBind fun p _ => finds_orderItems projection _

theorem passes_limitClause : Passes s limitClause := by
  refine (passes_eatWord "limit").after fun _ =>
    .ite (fun _ => ?_) fun _ => .pure trivial
  refine passes_peek.after fun token => ?_
  split
  · refine passes_advance.after fun _ => .getBind fun p _ => ?_
    exact (passes_deferWhen _ _ _).after fun _ => .pure trivial
  · exact passes_advance.after fun _ => .pure trivial
  · exact .fail

end

end Parser

end RelayerGraph.Query
