import RelayerGraph.Query.Recovery

/-!
# The depth limit hides and invents no parse error

Parsing one text under two depth limits: the parse-stage error is the same, and
so are the tokens read where there is none.
-/

namespace RelayerGraph.Query.Parser

open Foundation Reading

variable {α β γ δ : Type}

/-! ## The name of a column -/

theorem ensures_eatSymbol (symbol : String) (p : Parser) :
    Ensures (eatSymbol symbol) p fun eaten q =>
      eaten = isSymbol symbol p.rest.head? ∧
        q = if eaten then { p with rest := p.rest.tail } else p := by
  intro eaten q hrun
  unfold eatSymbol at hrun
  by_cases h : isSymbol symbol p.rest.head?
  · rw [if_pos h] at hrun
    injection hrun with hrun
    injection hrun with heaten hq
    subst heaten
    exact ⟨h.symm, hq.symm⟩
  · rw [if_neg h] at hrun
    injection hrun with hrun
    injection hrun with heaten hq
    subst heaten
    exact ⟨by simpa using h, hq.symm⟩

theorem ensures_peek (p : Parser) :
    Ensures peek p fun token q => token = p.rest.head? ∧ q = p := by
  intro token q hrun
  injection hrun with hrun
  injection hrun with htoken hq
  exact ⟨htoken.symm, hq.symm⟩

theorem ensures_identifier (p : Parser) :
    Ensures identifier p fun word q =>
      p.rest = .word word :: q.rest ∧ q = { p with rest := q.rest } := by
  intro word q hrun
  unfold identifier at hrun
  split at hrun
  · rename_i word' rest hrest
    injection hrun with hrun
    injection hrun with hword hq
    subst hword hq
    exact ⟨hrest, rfl⟩
  · cases hrun

/-- The name that the expression at the head of the tokens gives its column. -/
def headName : List Token → Option String
  | .word binding :: rest =>
      if isSymbol "(" rest.head? then none
      else if isSymbol "." rest.head? then
        match rest.tail with
        | .word name :: _ => some name
        | _ => none
      else some binding
  | _ => none

theorem headName_of_symbol {symbol : String} {rest : List Token}
    (h : isSymbol symbol rest.head?) : headName rest = none := by
  simp only [isSymbol, decide_eq_true_eq] at h
  cases rest with
  | nil => simp at h
  | cons token rest =>
      simp only [List.head?_cons, Option.some.injEq] at h
      subst h
      rfl

theorem ensures_aggregate (fuel : ℕ) (name : String) (depth : ℕ)
    (p : Parser) :
    Ensures (aggregate fuel name depth) p fun expression _ =>
      columnName expression = none := by
  cases fuel with
  | zero =>
      rw [aggregate]
      exact .exhaust
  | succ fuel =>
      rw [aggregate]
      split
      · exact .fail
      · refine Ensures.any.bind fun _ _ _ => ?_
        refine Ensures.any.bind fun distinct _ _ => ?_
        refine Ensures.any.bind fun star _ _ => ?_
        refine .ite (fun _ => ?_) fun _ => ?_
        · refine Ensures.any.bind fun _ _ _ => ?_
          exact Ensures.any.bind fun _ _ _ => .pure rfl
        · refine Ensures.any.bind fun _ _ _ => ?_
          refine Ensures.any.bind fun _ _ _ => ?_
          exact Ensures.any.bind fun _ _ _ => .pure rfl

theorem ensures_columnName_of_name (fuel depth : ℕ) (p : Parser) :
    Ensures (do
      let binding ← identifier
      let p ← get
      if isUnsupported p binding then fail (notAdmitted binding)
      else if ← eatSymbol "[" then fail dynamicLookup
      else if isSymbol "(" (← peek) then aggregate fuel binding depth
      else if ← eatSymbol "." then
        let name ← identifier
        validateProperty binding name
        return .property { binding, name }
      else
        let p ← get
        deferWhen (¬ bindingIsBound p binding) (.new
          .dynamicSchemaForbidden (p.projectionIndex.elim "query" returnPath)
          s!"`{binding}` is not bound by the MATCH clause")
        return .binding binding) p fun expression _ =>
      columnName expression = headName p.rest := by
  refine (ensures_identifier p).bind fun binding q hbinding => ?_
  obtain ⟨hrest, -⟩ := hbinding
  rw [hrest]
  refine .getBind (.ite (fun _ => .fail) fun _ => ?_)
  refine (ensures_eatSymbol "[" q).bind fun lookup r hlookup => ?_
  obtain ⟨-, hr⟩ := hlookup
  cases lookup with
  | true => exact .fail
  | false =>
      simp only [Bool.false_eq_true, if_false] at hr
      subst hr
      refine (ensures_peek r).bind fun token q htoken => ?_
      obtain ⟨rfl, rfl⟩ := htoken
      refine .ite (fun hcall => ?_) fun hcall => ?_
      · have hhead : headName (.word binding :: q.rest) = none := if_pos hcall
        rw [hhead]
        exact ensures_aggregate fuel binding depth q
      refine (ensures_eatSymbol "." q).bind fun dot r hdot => ?_
      obtain ⟨hdot, hr⟩ := hdot
      cases dot with
      | true =>
          simp only [if_true] at hr
          refine (ensures_identifier r).bind fun name s hname => ?_
          refine Ensures.any.bind fun _ _ _ => .pure ?_
          have hrest : q.rest.tail = .word name :: s.rest := by
            simpa only [hr] using hname.1
          simp only [columnName, headName, hcall, ← hdot, hrest]
          rfl
      | false =>
          refine .getBind (Ensures.any.bind fun _ _ _ => .pure ?_)
          simp only [columnName, headName, hcall, ← hdot]
          rfl

/-- The column name of an expression is decided by the tokens it starts
with. -/
theorem ensures_columnName (fuel : ℕ) (p : Parser) :
    Ensures (expressionAt fuel 0) p fun expression _ =>
      columnName expression = headName p.rest := by
  cases fuel with
  | zero =>
      rw [expressionAt]
      exact .exhaust
  | succ fuel =>
      rw [expressionAt]
      refine .getBind (.ite (fun h => absurd h (Nat.not_lt_zero _)) fun _ => ?_)
      refine (ensures_eatSymbol "[" p).bind fun list q hlist => ?_
      obtain ⟨hlist, hq⟩ := hlist
      cases list with
      | true =>
          have hhead : headName p.rest = none := by
            rw [headName_of_symbol hlist.symm]
          rw [hhead]
          refine Ensures.any.bind fun empty q _ => ?_
          cases empty with
          | true => exact .pure rfl
          | false =>
              refine Ensures.any.bind fun first q _ => ?_
              exact Ensures.any.bind fun items q _ => .pure rfl
      | false =>
          simp only [Bool.false_eq_true, if_false] at hq
          subst hq
          refine (ensures_eatSymbol "\x7b" q).bind fun record r hrecord => ?_
          obtain ⟨hrecord, hr⟩ := hrecord
          cases record with
          | true =>
              rw [headName_of_symbol hrecord.symm]
              exact Ensures.any.bind fun fields q _ => .pure rfl
          | false =>
              simp only [Bool.false_eq_true, if_false] at hr
              subst hr
              refine (ensures_peek r).bind fun token q htoken => ?_
              obtain ⟨htoken, rfl⟩ := htoken
              split
              · have hhead : headName q.rest = none := by
                  cases hrest : q.rest with
                  | nil => rfl
                  | cons first rest =>
                      simp only [hrest, List.head?_cons, Option.some.injEq]
                        at htoken
                      rw [← htoken]
                      rfl
                rw [hhead]
                exact Ensures.any.bind fun _ _ _ => .pure rfl
              · exact ensures_columnName_of_name fuel 0 q

/-! ## What follows the MATCH and WHERE clauses -/

theorem lockstep_expression :
    Lockstep (fun e e' => columnName e = columnName e') expression
      expression := by
  intro p q hpq
  have halike : Alike (fun a b => Aligned a.2 b.2) (expression p)
      (expression q) :=
    alike_expressionAt 0 0 hpq (Nat.lt_succ_self _)
      (by rw [hpq.rest_eq]; exact Nat.lt_succ_self _)
  have hname := ensures_columnName (p.rest.length + 1) p
  have hname' := ensures_columnName (q.rest.length + 1) q
  generalize hrun : expression p = reply at halike
  generalize hrun' : expression q = reply' at halike
  cases halike with
  | exhausted => exact .exhausted
  | failed error => exact .failed error
  | @done a b h =>
      refine .done ⟨?_, h⟩
      change columnName a.1 = columnName b.1
      rw [hname a.1 a.2 hrun, hname' b.1 b.2 hrun', hpq.rest_eq]

/-- A reading that records at most a plan error. -/
def Silent (x : Parsing Unit) : Prop :=
  ∀ p, ∃ q, x p = .done ((), q) ∧ Aligned p q

theorem Silent.andThen {x y : Parsing Unit} (hx : Silent x) (hy : Silent y) :
    Silent (do x; y) := by
  intro p
  obtain ⟨q, hq, hpq⟩ := hx p
  obtain ⟨r, hr, hqr⟩ := hy q
  exact ⟨r, (bind_of_done hq).trans hr, hpq.trans hqr⟩

theorem Silent.lockstep {x y : Parsing Unit} (hx : Silent x)
    (hy : Silent y) : Lockstep (· = ·) x y := by
  intro p q hpq
  obtain ⟨p', hp, hpp⟩ := hx p
  obtain ⟨q', hq, hqq⟩ := hy q
  rw [hp, hq]
  exact .done ⟨rfl, (hpp.symm.trans hpq).trans hqq⟩

theorem silent_pure : Silent (pure ()) :=
  fun p => ⟨p, rfl, .refl p⟩

theorem silent_deferWhen {c : Prop} [Decidable c] {error : QueryError}
    {hphase : error.phase = .plan} : Silent (deferWhen c error hphase) :=
  exists_deferWhen c error

theorem silent_checkKinds (kinds : List String) : Silent (checkKinds kinds) := by
  unfold checkKinds
  split
  · exact silent_pure
  · split
    · exact silent_pure
    · exact exists_deferPlanError _

mutual

theorem silent_checkHomogeneous :
    ∀ expression, Silent (checkHomogeneous expression)
  | .list items => by
      rw [checkHomogeneous]
      intro p
      exact (silent_checkKinds _).andThen (silent_checkItems items) p
  | .record fields => by
      rw [checkHomogeneous]
      exact silent_checkFields fields
  | .binding _ => silent_pure
  | .property _ => silent_pure
  | .parameter _ => silent_pure
  | .aggregate _ _ _ => silent_pure

theorem silent_checkItems : ∀ items, Silent (checkItems items)
  | [] => silent_pure
  | item :: items => by
      rw [checkItems]
      exact (silent_checkHomogeneous item).andThen (silent_checkItems items)

theorem silent_checkFields : ∀ fields, Silent (checkFields fields)
  | [] => silent_pure
  | (_, value) :: fields => by
      rw [checkFields]
      exact (silent_checkHomogeneous value).andThen (silent_checkFields fields)

end

theorem silent_checkColumnNames (index : ℕ) (seen : List String)
    (columns : List Column) : Silent (checkColumnNames index seen columns) := by
  induction columns generalizing index seen with
  | nil => exact silent_pure
  | cons column columns ih => exact silent_deferWhen.andThen (ih _ _)

theorem lockstep_returnItem :
    Lockstep (fun c c' => c.name = c'.name) returnItem returnItem := by
  refine lockstep_expression.bind fun e e' he => ?_
  refine (lockstep_deferWhen _ _).andThen fun _ => ?_
  have hcheck := (silent_checkHomogeneous e).lockstep
    (silent_checkHomogeneous e')
  refine hcheck.andThen fun _ => ?_
  refine (lockstep_eatWord _).andThen fun named => ?_
  cases named with
  | true => exact lockstep_identifier.andThen fun name => .pure rfl
  | false =>
      simp only [Bool.false_eq_true, if_false, ← he]
      cases columnName e with
      | none => exact .fail _
      | some name => exact .pure rfl

theorem lockstep_returnColumn (index : ℕ) :
    Lockstep (fun c c' => c.name = c'.name) (returnColumn index)
      (returnColumn index) := by
  refine (lockstep_modify fun r s hrs => ?_).andThen fun _ => ?_
  · obtain ⟨astDepth, deferred, rfl⟩ := hrs
    exact ⟨astDepth, deferred, rfl⟩
  have hitem : Lockstep (fun c c' => c.name = c'.name)
      (mapError (underColumnParse (some index)) returnItem)
      (mapError (underColumnParse (some index)) returnItem) :=
    fun p q hpq => (lockstep_returnItem p q hpq).mapError
  refine hitem.bind fun column column' hname => ?_
  refine (lockstep_modify fun r s hrs => ?_).andThen fun _ => .pure hname
  obtain ⟨astDepth, deferred, rfl⟩ := hrs
  exact ⟨astDepth, deferred, rfl⟩

theorem lockstep_returnColumns (fuel index : ℕ) :
    Lockstep (fun cs cs' => cs.map (·.name) = cs'.map (·.name))
      (returnColumns fuel index) (returnColumns fuel index) := by
  induction fuel generalizing index with
  | zero => exact fun _ _ _ => .exhausted
  | succ fuel ih =>
      refine (lockstep_returnColumn index).bind fun column column' hname => ?_
      refine (lockstep_eatSymbol _).andThen fun comma => ?_
      cases comma with
      | false => exact .pure (by simp [hname])
      | true =>
          refine (ih _).bind fun columns columns' hnames => ?_
          exact .pure (by simp [hname, hnames])

theorem lockstep_returnClause :
    Lockstep (fun s s' => s.columns.map (·.name) = s'.columns.map (·.name))
      returnClause returnClause := by
  refine (lockstep_eatWord _).andThen fun distinct => ?_
  refine lockstep_get.bind fun p q hpq => ?_
  rw [hpq.rest_eq]
  refine (lockstep_returnColumns _ _).bind fun columns columns' hnames => ?_
  have hcheck := (silent_checkColumnNames 0 [] columns).lockstep
    (silent_checkColumnNames 0 [] columns')
  exact hcheck.andThen fun _ => .pure hnames

theorem lockstep_sortDirection :
    Lockstep (· = ·) sortDirection sortDirection := by
  refine (lockstep_eatWord _).andThen fun desc => ?_
  cases desc with
  | true => exact .pure rfl
  | false => exact (lockstep_eatWord _).andThen fun _ => .pure rfl

theorem lockstep_nullPlacement :
    Lockstep (· = ·) nullPlacement nullPlacement := by
  refine (lockstep_eatWord _).andThen fun nulls => ?_
  cases nulls with
  | false => exact .pure rfl
  | true =>
      refine (lockstep_eatWord _).andThen fun first => ?_
      cases first with
      | true => exact .pure rfl
      | false =>
          refine (lockstep_eatWord _).andThen fun last => ?_
          cases last with
          | true => exact .pure rfl
          | false => exact .fail _

theorem lockstep_orderItem (projection projection' : Projection) :
    Lockstep (· = ·) (orderItem projection) (orderItem projection') := by
  refine lockstep_identifier.andThen fun column => ?_
  refine (lockstep_deferWhen _ _).andThen fun _ => ?_
  refine lockstep_sortDirection.andThen fun direction => ?_
  exact lockstep_nullPlacement.andThen fun nulls => .pure rfl

theorem lockstep_orderItems (projection projection' : Projection)
    (fuel : ℕ) :
    Lockstep (· = ·) (orderItems projection fuel)
      (orderItems projection' fuel) := by
  induction fuel with
  | zero => exact fun _ _ _ => .exhausted
  | succ fuel ih =>
      refine (lockstep_orderItem _ _).andThen fun first => ?_
      refine (lockstep_eatSymbol _).andThen fun comma => ?_
      cases comma with
      | false => exact .pure rfl
      | true => exact ih.andThen fun items => .pure rfl

theorem lockstep_orderClause (projection projection' : Projection) :
    Lockstep (· = ·) (orderClause projection) (orderClause projection') := by
  refine (lockstep_eatWord _).andThen fun order => ?_
  cases order with
  | false => exact .pure rfl
  | true =>
      refine (lockstep_eatWord _).andThen fun by' => ?_
      cases by' with
      | false => exact .fail _
      | true =>
          refine lockstep_get.bind fun p q hpq => ?_
          rw [hpq.rest_eq]
          exact lockstep_orderItems _ _ _

theorem lockstep_limitClause :
    Lockstep (· = ·) limitClause limitClause := by
  refine (lockstep_eatWord _).andThen fun limit => ?_
  cases limit with
  | false => exact .pure rfl
  | true =>
      refine lockstep_peek.andThen fun token => ?_
      split
      · refine lockstep_advance.andThen fun _ => ?_
        refine lockstep_get.bind fun p q _ => ?_
        exact (lockstep_deferWhen _ _).andThen fun _ => .pure rfl
      · exact lockstep_advance.andThen fun _ => .pure rfl
      · exact .fail _

theorem lockstep_clauses :
    Lockstep (fun _ _ => True) clauses clauses := by
  refine lockstep_matchClause.andThen fun patterns => ?_
  refine lockstep_whereClause.andThen fun predicates => ?_
  refine (lockstep_eatWord _).andThen fun isReturn => ?_
  cases isReturn with
  | false => exact lockstep_refuseClause.andThen fun _ => .fail _
  | true =>
      refine lockstep_returnClause.bind fun projection projection' _ => ?_
      refine (lockstep_orderClause _ _).andThen fun ordering => ?_
      refine lockstep_limitClause.andThen fun limit => ?_
      refine (lockstep_eatSymbol _).andThen fun _ => ?_
      refine lockstep_get.bind fun p q hpq => ?_
      rw [hpq.rest_eq]
      split
      · exact lockstep_refuseClause.andThen fun _ => .fail _
      · exact .pure trivial

end RelayerGraph.Query.Parser

namespace RelayerGraph.Query

open Foundation Reading

/-- The parse-stage error of an outcome, when it is one. -/
def parseError {α : Type} : Reply QueryError α → Option QueryError
  | .failed error => if error.phase = .parse then some error else none
  | _ => none

/-- The limits with another depth limit. -/
def QueryLimits.withDepth (limits : QueryLimits) (astDepth : ℕ) :
    QueryLimits :=
  { limits with astDepth }

namespace Parser

/-- The two runs of one text under two depth limits start aligned. -/
theorem aligned_start (tokens : List Token) (limits : QueryLimits)
    (small large : ℕ) :
    Aligned (.start tokens (limits.withDepth small))
      (.start tokens (limits.withDepth large)) :=
  ⟨large, none, rfl⟩

theorem parseError_reportDeferred (plan : QueryPlan) (p : Parser) :
    parseError (reportDeferred plan p) = none := by
  unfold reportDeferred
  split
  · rename_i planError _
    simp [parseError, planError.phase_eq]
  · rfl

theorem parseError_query_eq {p q : Parser} (hpq : Aligned p q) :
    parseError (query p) = parseError (query q) := by
  have halike := lockstep_clauses p q hpq
  unfold query
  generalize clauses p = reply at halike
  generalize clauses q = reply' at halike
  cases halike with
  | exhausted => rfl
  | failed error => rfl
  | @done a b h =>
      exact (parseError_reportDeferred a.1 a.2).trans
        (parseError_reportDeferred b.1 b.2).symm

end Parser

/-- Under any two depth limits a text has the same parse-stage error, and where
it has none the same tokens are read; and recovery reads from every state what
the recursion reads there, or refuses it alike. -/
theorem parse_depthLimit (limits : QueryLimits) (small large : ℕ) :
    (∀ text,
      parseError (parse text (limits.withDepth small)) =
        parseError (parse text (limits.withDepth large))) ∧
    (∀ tokens,
      Alike (fun a b => a.2.rest = b.2.rest)
        (Parser.clauses (.start tokens (limits.withDepth small)))
        (Parser.clauses (.start tokens (limits.withDepth large)))) ∧
    (∀ (p : Parser) (depth : ℕ),
      Alike (fun a b => a.2.rest = b.2.rest)
        (Parser.expressionAt (p.rest.length + 1) depth
          { p with limits := p.limits.withDepth large })
        (Parser.recoverExpressionSyntax
          { p with limits := p.limits.withDepth small })) := by
  refine ⟨fun text => ?_, fun tokens => ?_, fun p depth => ?_⟩
  · by_cases hbytes : limits.queryBytes < text.utf8ByteSize
    · obtain ⟨message, hsmall⟩ :=
        @parse_of_long text (limits.withDepth small) hbytes
      obtain ⟨message', hlarge⟩ :=
        @parse_of_long text (limits.withDepth large) hbytes
      rw [hsmall, hlarge]
      rfl
    · cases htokens : Lexer.tokenize text with
      | error error =>
          rw [@parse_of_unread text (limits.withDepth small) error hbytes htokens,
            @parse_of_unread text (limits.withDepth large) error hbytes htokens]
      | ok tokens =>
          rw [@parse_of_tokens text (limits.withDepth small) tokens hbytes htokens,
            @parse_of_tokens text (limits.withDepth large) tokens hbytes htokens]
          exact Parser.parseError_query_eq
            (Parser.aligned_start tokens limits small large)
  · have halike := Parser.lockstep_clauses _ _
      (Parser.aligned_start tokens limits small large)
    exact halike.mono fun a b hab => hab.2.rest_eq.symm
  · have haligned : Parser.Aligned
        { p with limits := p.limits.withDepth large }
        { p with limits := p.limits.withDepth small } :=
      ⟨small, p.deferredPlanError, rfl⟩
    have halike := Parser.alike_recoverExpressionSyntax depth haligned
      (Nat.lt_succ_self _)
    exact halike.mono fun a b hab => hab.rest_eq.symm

end RelayerGraph.Query
