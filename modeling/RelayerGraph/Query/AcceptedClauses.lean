import RelayerGraph.Query.AcceptedMatch

/-!
# The accepted clauses of a query

The MATCH clause is accepted when its parts are, one after the other, and the
limits hold of the whole.  The clauses after it are read from the parser that
the MATCH clause leaves, whatever its plans are.
-/

namespace RelayerGraph.Query

open Foundation Reading

/-- The parts of a MATCH clause as their plans follow from them, each in the
scope after it. -/
def Elaborates : Scope → List PartSyntax → Scope → List PatternPart → Prop
  | s, [], t, plans => t = s ∧ plans = []
  | s, part :: parts, t, plans =>
      part.Known ∧ ∃ u others, s.claims part.claims = some u ∧
        Elaborates u parts t others ∧ plans = part.plan u :: others

/-- No further hop and no further part follows. -/
def EndsMatch (rest : List Token) : Prop :=
  ¬ StartsHop rest ∧ rest.head? ≠ some (.symbol ",")

/-- No hop follows a part, whether another part follows it or none. -/
theorem not_startsHop_furtherTokens {parts : List PartSyntax}
    {rest : List Token} (h : EndsMatch rest) :
    ¬ StartsHop (furtherTokens parts ++ rest) := by
  cases parts with
  | nil => exact h.1
  | cons part parts => simp [StartsHop, furtherTokens]

namespace Parser

variable {p q : Parser}

/-- Further parts are accepted one after the other. -/
theorem accepts_patternParts {fuel : ℕ} {plans : List PatternPart}
    (hsep : p.scope.Separate) (hend : ¬ StartsHop p.rest) :
    Accepts (patternParts fuel) p plans q ↔
      p.Clean ∧ ∃ (parts : List PartSyntax) (rest : List Token) (s : Scope),
        parts.length < fuel ∧ p.rest = furtherTokens parts ++ rest ∧
          EndsMatch rest ∧ Elaborates p.scope parts s plans ∧
          q = p.goOn rest s := by
  induction fuel generalizing p plans with
  | zero =>
      constructor
      · rintro ⟨hrun, -⟩
        cases hrun
      · rintro ⟨-, parts, rest, s, hlength, -⟩
        exact absurd hlength (Nat.not_lt_zero _)
  | succ fuel ih =>
      have hpart : ∀ part, Keeps (do
          let parts ← patternParts fuel
          return part :: parts) :=
        fun part => (keeps_patternParts fuel).bind fun parts => .pure _
      unfold patternParts
      rw [accepts_eatSymbol_bind]
      constructor
      · rintro (⟨rest, hrest, h⟩ | ⟨hhead, h⟩)
        · obtain ⟨plan, r, hplan, h⟩ := (accepts_bind hpart).mp h
          obtain ⟨hclean, part, rest', s, hrest', hend', hknown, hclaims, rfl,
            rfl⟩ := (accepts_patternPart (p := p.goOn rest p.scope) hsep).mp hplan
          obtain ⟨others, r, hothers, h⟩ := (accepts_bind fun _ => .pure _).mp h
          obtain ⟨-, rfl, rfl⟩ := accepts_pure.mp h
          obtain ⟨-, parts, rest'', s', hlength, hrest'', hends, helaborates,
            rfl⟩ := (ih (p := p.goOn rest' s) (hsep.claims hclaims) hend').mp
              hothers
          refine ⟨hclean, part :: parts, rest'', s', Nat.succ_lt_succ hlength,
            ?_, hends, ⟨hknown, s, others, hclaims, helaborates, rfl⟩, rfl⟩
          simp only [goOn_rest] at hrest' hrest''
          simp [furtherTokens, hrest, hrest', hrest'']
        · obtain ⟨hclean, rfl, rfl⟩ := accepts_pure.mp h
          exact ⟨hclean, [], q.rest, q.scope, Nat.succ_pos _, rfl,
            ⟨hend, hhead⟩, ⟨rfl, rfl⟩, rfl⟩
      · rintro ⟨hclean, parts, rest, s, hlength, hrest, hends, helaborates,
          rfl⟩
        cases parts with
        | nil =>
            obtain ⟨rfl, rfl⟩ := helaborates
            have hstart : p.rest = rest := hrest
            refine .inr ⟨by rw [hstart]; exact hends.2, ?_⟩
            refine accepts_pure.mpr ⟨hclean, rfl, ?_⟩
            rw [← hstart, goOn_self]
        | cons part parts =>
            obtain ⟨hknown, u, others, hclaims, helaborates, rfl⟩ := helaborates
            refine .inl ⟨part.tokens ++ (furtherTokens parts ++ rest), ?_, ?_⟩
            · simp [hrest, furtherTokens]
            · have hend' := @not_startsHop_furtherTokens parts _ hends
              refine (accepts_bind hpart).mpr ⟨_, _,
                (accepts_patternPart (p := p.goOn
                  (part.tokens ++ (furtherTokens parts ++ rest)) p.scope)
                  hsep).mpr ⟨hclean, part, _, u, rfl, hend',
                  hknown, hclaims, rfl, rfl⟩, ?_⟩
              refine (accepts_bind fun _ => .pure _).mpr ⟨others, p.goOn rest s,
                (ih (p := p.goOn _ u) (hsep.claims hclaims) hend').mpr
                  ⟨hclean, parts, rest, s, Nat.lt_of_succ_lt_succ hlength, rfl,
                    hends, helaborates, rfl⟩, ?_⟩
              exact accepts_pure.mpr ⟨hclean, rfl, rfl⟩

/-! ## The checks of the MATCH clause -/

theorem accepts_checkNodes {patternIndex nodeIndex : ℕ} {part : PatternPart}
    {nodes : List NodePlan} :
    Accepts (checkNodes patternIndex part nodeIndex nodes) p () q ↔
      p.Clean ∧ (∀ node ∈ nodes, ¬ unanchored part node = true) ∧ q = p := by
  induction nodes generalizing nodeIndex with
  | nil =>
      rw [checkNodes, accepts_pure]
      simp
  | cons node nodes ih =>
      rw [checkNodes]
      constructor
      · intro h
        obtain ⟨hnode, h⟩ := (accepts_deferWhen_bind
          (by exact keeps_checkNodes _ _ _ _)).mp h
        obtain ⟨hclean, hall, rfl⟩ := ih.mp h
        exact ⟨hclean, List.forall_mem_cons.mpr ⟨hnode, hall⟩, rfl⟩
      · rintro ⟨hclean, hall, rfl⟩
        obtain ⟨hnode, hall⟩ := List.forall_mem_cons.mp hall
        exact (accepts_deferWhen_bind (by exact keeps_checkNodes _ _ _ _)).mpr
          ⟨hnode, ih.mpr ⟨hclean, hall, rfl⟩⟩

/-- Every node occurrence of the parts is typed, by a label or by a
relationship of its part. -/
def Anchored (parts : List PatternPart) : Prop :=
  ∀ part ∈ parts, ∀ node ∈ part.nodes, ¬ unanchored part node = true

theorem accepts_checkPatterns {patternIndex : ℕ} {parts : List PatternPart} :
    Accepts (checkPatterns patternIndex parts) p () q ↔
      p.Clean ∧ Anchored parts ∧ q = p := by
  induction parts generalizing patternIndex with
  | nil =>
      rw [checkPatterns, accepts_pure]
      simp [Anchored]
  | cons part parts ih =>
      rw [checkPatterns, accepts_bind fun _ => keeps_checkPatterns _ _]
      constructor
      · rintro ⟨⟨⟩, r, hpart, h⟩
        obtain ⟨hclean, hnodes, rfl⟩ := accepts_checkNodes.mp hpart
        obtain ⟨-, hall, rfl⟩ := ih.mp h
        exact ⟨hclean, List.forall_mem_cons.mpr ⟨hnodes, hall⟩, rfl⟩
      · rintro ⟨hclean, hall, rfl⟩
        obtain ⟨hnodes, hall⟩ := List.forall_mem_cons.mp hall
        exact ⟨(), q, accepts_checkNodes.mpr ⟨hclean, hnodes, rfl⟩,
          ih.mpr ⟨hclean, hall, rfl⟩⟩

/-- The limits that the MATCH clause as a whole is under. -/
structure WithinLimits (limits : QueryLimits) (s : Scope)
    (parts : List PatternPart) : Prop where
  patternParts : parts.length ≤ limits.patternParts
  anchored : Anchored parts
  traversalHops : joinedTraversalHops parts ≤ limits.traversalHops
  variableCount : s.bindings.keys.card + s.relationshipBindings.keys.card +
    (parts.filterMap (·.pathBinding)).toFinset.card ≤ limits.variableCount

theorem accepts_checkMatch {parts : List PatternPart} :
    Accepts (checkMatch parts) p () q ↔
      p.Clean ∧ WithinLimits p.limits p.scope parts ∧ q = p := by
  unfold checkMatch
  constructor
  · intro h
    obtain ⟨hparts, h⟩ := (accepts_deferWhen_bind (by
      refine (keeps_checkPatterns _ _).bind fun _ => ?_
      exact (keeps_deferWhen _ _ _).bind fun _ => keeps_deferWhen _ _ _)).mp
        (accepts_get_bind.mp h)
    obtain ⟨⟨⟩, r, hpatterns, h⟩ := (accepts_bind (by
      intro _
      exact (keeps_deferWhen _ _ _).bind fun _ => keeps_deferWhen _ _ _)).mp h
    obtain ⟨-, hanchored, rfl⟩ := accepts_checkPatterns.mp hpatterns
    obtain ⟨hhops, h⟩ := (accepts_deferWhen_bind
      (by exact keeps_deferWhen _ _ _)).mp h
    obtain ⟨hclean, hvariables, rfl⟩ := accepts_deferWhen.mp h
    exact ⟨hclean, ⟨not_lt.mp hparts, hanchored, not_lt.mp hhops,
      not_lt.mp hvariables⟩, rfl⟩
  · rintro ⟨hclean, hwithin, rfl⟩
    refine accepts_get_bind.mpr ((accepts_deferWhen_bind (by
      refine (keeps_checkPatterns _ _).bind fun _ => ?_
      exact (keeps_deferWhen _ _ _).bind fun _ => keeps_deferWhen _ _ _)).mpr
        ⟨not_lt.mpr hwithin.patternParts, ?_⟩)
    refine (accepts_bind (by
      intro _
      exact (keeps_deferWhen _ _ _).bind fun _ => keeps_deferWhen _ _ _)).mpr
        ⟨(), q, accepts_checkPatterns.mpr ⟨hclean, hwithin.anchored, rfl⟩, ?_⟩
    refine (accepts_deferWhen_bind (by exact keeps_deferWhen _ _ _)).mpr
      ⟨not_lt.mpr hwithin.traversalHops, ?_⟩
    exact accepts_deferWhen.mpr
      ⟨hclean, not_lt.mpr hwithin.variableCount, rfl⟩

/-! ## The MATCH clause -/

theorem accepts_refuseClause (h : Accepts refuseClause p () q) : q = p := by
  have hmove := accepts_peek_bind.mp h
  split at hmove
  · split at hmove
    · exact absurd hmove accepts_fail
    · split at hmove
      · exact absurd hmove accepts_fail
      · exact (accepts_pure.mp hmove).2.2
  · exact (accepts_pure.mp hmove).2.2

theorem refuseClause_match {word : String} {rest : List Token}
    (hword : toAsciiLowercase word = "match")
    (hrest : p.rest = .word word :: rest) :
    refuseClause p = .done ((), p) := by
  simp only [refuseClause, peek, hrest, List.head?_cons, bind, hword]
  rfl

/-- What is read of the MATCH clause after its word. -/
def matchParts : Parsing (List PatternPart) := do
  let first ← patternPart
  let p ← get
  let others ← patternParts (p.rest.length + 1)
  checkMatch (first :: others)
  return first :: others

theorem keeps_matchParts : Keeps matchParts := by
  refine keeps_patternPart.bind fun first => .getBind fun p => ?_
  refine (keeps_patternParts _).bind fun others => ?_
  exact (keeps_checkMatch _).bind fun _ => .pure _

theorem length_le_length_furtherTokens (parts : List PartSyntax)
    (rest : List Token) :
    parts.length ≤ (furtherTokens parts ++ rest).length := by
  induction parts with
  | nil => exact Nat.zero_le _
  | cons part parts ih =>
      simp only [furtherTokens, List.flatMap_cons, List.cons_append,
        List.append_assoc, List.length_cons, List.length_append] at ih ⊢
      omega

theorem accepts_matchParts {plans : List PatternPart}
    (hsep : p.scope.Separate) :
    Accepts matchParts p plans q ↔
      p.Clean ∧ ∃ (parts : List PartSyntax) (rest : List Token) (s : Scope),
        parts ≠ [] ∧ p.rest = matchTokens parts ++ rest ∧ EndsMatch rest ∧
          Elaborates p.scope parts s plans ∧ WithinLimits p.limits s plans ∧
          q = p.goOn rest s := by
  have hothers (first : PatternPart) (others : List PatternPart) : Keeps (do
      checkMatch (first :: others)
      return first :: others) :=
    (keeps_checkMatch _).bind fun _ => .pure _
  have hfirst (first : PatternPart) : Keeps (do
      let p ← get
      let others ← patternParts (p.rest.length + 1)
      checkMatch (first :: others)
      return first :: others) :=
    .getBind fun p => (keeps_patternParts _).bind (hothers first)
  unfold matchParts
  rw [accepts_bind hfirst]
  constructor
  · rintro ⟨plan, r, hplan, h⟩
    obtain ⟨hclean, part, rest, s, hrest, hend, hknown, hclaims, rfl, rfl⟩ :=
      (accepts_patternPart hsep).mp hplan
    obtain ⟨others, r, hfurther, h⟩ :=
      (accepts_bind (hothers _)).mp (accepts_get_bind.mp h)
    obtain ⟨-, parts, rest', t, -, hrest', hends, helaborates, rfl⟩ :=
      (accepts_patternParts (p := p.goOn rest s) (hsep.claims hclaims)
        hend).mp hfurther
    obtain ⟨⟨⟩, r, hcheck, h⟩ := (accepts_bind fun _ => .pure _).mp h
    obtain ⟨-, rfl, rfl⟩ := accepts_pure.mp h
    obtain ⟨-, hwithin, rfl⟩ := accepts_checkMatch.mp hcheck
    refine ⟨hclean, part :: parts, rest', t, by simp, ?_, hends,
      ⟨hknown, s, others, hclaims, helaborates, rfl⟩, hwithin, rfl⟩
    simp only [goOn_rest] at hrest'
    rw [hrest, hrest', matchTokens, List.append_assoc]
  · rintro ⟨hclean, parts, rest, t, hne, hrest, hends, helaborates, hwithin,
      rfl⟩
    cases parts with
    | nil => exact absurd rfl hne
    | cons part parts =>
        obtain ⟨hknown, s, others, hclaims, helaborates, rfl⟩ := helaborates
        have hend := @not_startsHop_furtherTokens parts _ hends
        refine ⟨_, _, (accepts_patternPart hsep).mpr ⟨hclean, part, _, s, ?_,
          hend, hknown, hclaims, rfl, rfl⟩, ?_⟩
        · rw [hrest, matchTokens, List.append_assoc]
        · refine accepts_get_bind.mpr ((accepts_bind (hothers _)).mpr
            ⟨others, p.goOn rest t, ?_, ?_⟩)
          · exact (accepts_patternParts (p := p.goOn _ s)
              (hsep.claims hclaims) hend).mpr ⟨hclean, parts, rest, t,
                Nat.lt_succ_of_le (length_le_length_furtherTokens _ _), rfl,
                hends, helaborates, rfl⟩
          · refine (accepts_bind fun _ => .pure _).mpr ⟨(), p.goOn rest t,
              accepts_checkMatch.mpr ⟨hclean, hwithin, rfl⟩, ?_⟩
            exact accepts_pure.mpr ⟨hclean, rfl, rfl⟩

/-- The MATCH clause is accepted when its parts are written in the grammar, their
claims fit each other, and the limits hold. -/
theorem accepts_matchClause {plans : List PatternPart}
    (hsep : p.scope.Separate) :
    Accepts matchClause p plans q ↔
      p.Clean ∧ hasStrayStar p.rest = false ∧
        ∃ (word : String) (parts : List PartSyntax) (rest : List Token)
          (s : Scope), toAsciiLowercase word = "match" ∧ parts ≠ [] ∧
            p.rest = .word word :: (matchTokens parts ++ rest) ∧
            EndsMatch rest ∧ Elaborates p.scope parts s plans ∧
            WithinLimits p.limits s plans ∧ q = p.goOn rest s := by
  have hafter : Keeps (do
      let p ← get
      if hasStrayStar p.rest then
        fail (.new .queryConstructForbidden "query"
          "variable-length relationships are forbidden")
      else if ← eatWord "match" then matchParts
      else fail (syntaxError "a query begins with MATCH")) := by
    refine .getBind fun p => .ite (.fail _) ?_
    exact (keeps_eatWord _).bind fun _ => .ite keeps_matchParts (.fail _)
  have heq : matchClause = refuseClause >>= fun _ => (do
      let p ← get
      if hasStrayStar p.rest then
        fail (.new .queryConstructForbidden "query"
          "variable-length relationships are forbidden")
      else if ← eatWord "match" then matchParts
      else fail (syntaxError "a query begins with MATCH")) := rfl
  rw [heq, accepts_bind fun _ => hafter]
  constructor
  · rintro ⟨⟨⟩, r, hrefuse, h⟩
    obtain rfl := accepts_refuseClause hrefuse
    rw [accepts_get_bind] at h
    by_cases hstar : hasStrayStar r.rest = true
    · rw [if_pos hstar] at h
      exact absurd h accepts_fail
    · rw [if_neg hstar] at h
      rcases accepts_eatWord_bind.mp h with ⟨word, rest, hrest, hword, h⟩ | ⟨-, h⟩
      · obtain ⟨hclean, parts, rest', s, hne, hrest', hends, helaborates,
          hwithin, rfl⟩ :=
            (accepts_matchParts (p := r.goOn rest r.scope) hsep).mp h
        refine ⟨hclean, Bool.eq_false_iff.mpr hstar, word, parts, rest', s,
          hword, hne, ?_, hends, helaborates, hwithin, rfl⟩
        simp only [goOn_rest] at hrest'
        rw [hrest, hrest']
      · exact absurd h accepts_fail
  · rintro ⟨hclean, hstar, word, parts, rest, s, hword, hne, hrest, hends,
      helaborates, hwithin, rfl⟩
    refine ⟨(), p, ⟨refuseClause_match hword hrest, hclean⟩, ?_⟩
    rw [accepts_get_bind, if_neg (by simp [hstar])]
    refine accepts_eatWord_bind.mpr (.inl ⟨word, _, hrest, hword, ?_⟩)
    exact (accepts_matchParts (p := p.goOn (matchTokens parts ++ rest) p.scope)
      hsep).mpr ⟨hclean, parts, rest, s, hne, rfl, hends, helaborates, hwithin,
        rfl⟩

end Parser

end RelayerGraph.Query
