import RelayerGraph.Query.AcceptedPlans
import RelayerGraph.Query.UniqueReading
import RelayerGraph.Query.Joins

/-!
# The order of the parts of a MATCH clause

Reordering the parts of a query does not change whether it is accepted, nor the
labels, the hops and the occurrence constraint of its plan, unless one of the
parts is a single node without a label: such a node takes a label only from the
parts before it.
-/

namespace RelayerGraph.Query

open Foundation Reading

/-! ## Answers that agree -/

/-- The two plans resolve every binding alike, and agree on the hops and on the
occurrence constraint. -/
structure SameResolution (plan plan' : QueryPlan) : Prop where
  labels : ∀ binding label,
    plan.EndLabelled binding label ↔ plan'.EndLabelled binding label
  maxTraversalHops : plan.maxTraversalHops = plan'.maxTraversalHops
  requiresOccurrenceConstraint :
    plan.requiresOccurrenceConstraint = plan'.requiresOccurrenceConstraint

theorem SameResolution.refl (plan : QueryPlan) : SameResolution plan plan :=
  ⟨fun _ _ => Iff.rfl, rfl, rfl⟩

theorem SameResolution.symm {plan plan' : QueryPlan}
    (h : SameResolution plan plan') : SameResolution plan' plan :=
  ⟨fun binding label => (h.labels binding label).symm,
    h.maxTraversalHops.symm, h.requiresOccurrenceConstraint.symm⟩

/-- One query is accepted whenever the other is, and resolves alike. -/
def AnswersAlike (reply reply' : Reply QueryError QueryPlan) : Prop :=
  (∀ plan, reply = .done plan →
    ∃ plan', reply' = .done plan' ∧ SameResolution plan plan') ∧
  ∀ plan', reply' = .done plan' →
    ∃ plan, reply = .done plan ∧ SameResolution plan plan'

/-- The tokens of a query: its word, the parts of its MATCH clause, and the
clauses after it. -/
def queryTokens (word : String) (parts : List PartSyntax)
    (rest : List Token) : List Token :=
  .word word :: (matchTokens parts ++ rest)

/-- The parts may be reordered in every query, under all limits. -/
def OrderIrrelevant (parts : List PartSyntax) : Prop :=
  ∀ (reordered : List PartSyntax) (word : String) (rest : List Token)
    (limits : QueryLimits), parts.Perm reordered → EndsMatch rest →
      AnswersAlike
        (Parser.query (.start (queryTokens word parts rest) limits))
        (Parser.query (.start (queryTokens word reordered rest) limits))

/-! ## When the order matters -/

/-- A part that is a single node without a label. -/
def PartSyntax.Bare (part : PartSyntax) : Prop :=
  part.hops = [] ∧ part.first.label = none

instance (part : PartSyntax) : Decidable part.Bare :=
  inferInstanceAs (Decidable (_ ∧ _))

/-- Some part gives the binding a label: it writes one, or a relationship of it
requires one. -/
def Labels (parts : List PartSyntax) (binding : String) : Prop :=
  ∃ part ∈ parts, ∃ label, .node binding (some label) ∈ part.claims

/-- Labels and types are in the schema and in their directions, paths have
hops, and no name has two roles or two labels. -/
def Consistent (parts : List PartSyntax) : Prop :=
  (∀ part ∈ parts, part.Known) ∧
    Scope.empty.claims (parts.flatMap PartSyntax.claims) ≠ none

/-- The parts are refused in any order: they contradict each other, or a single
node is labelled by none of them. -/
def RefusedAnyway (parts : List PartSyntax) : Prop :=
  ¬ Consistent parts ∨
    ∃ part ∈ parts, part.Bare ∧ ¬ Labels parts part.first.binding

section

variable {parts reordered : List PartSyntax}

theorem Consistent.perm (hperm : parts.Perm reordered)
    (h : Consistent parts) : Consistent reordered := by
  refine ⟨fun part hpart => h.1 part (hperm.mem_iff.mpr hpart), ?_⟩
  rw [← Scope.claims_perm (hperm.flatMap_right _)]
  exact h.2

theorem exists_elaborates {s t : Scope} (hknown : ∀ part ∈ parts, part.Known)
    (h : s.claims (parts.flatMap PartSyntax.claims) = some t) :
    ∃ plans, Elaborates s parts t plans := by
  induction parts generalizing s with
  | nil => exact ⟨[], (Option.some.inj h).symm, rfl⟩
  | cons part parts ih =>
      obtain ⟨hpart, hknown⟩ := List.forall_mem_cons.mp hknown
      rw [List.flatMap_cons, Scope.claims_append] at h
      obtain ⟨u, hu, h⟩ := Option.bind_eq_some_iff.mp h
      obtain ⟨plans, hplans⟩ := ih hknown h
      exact ⟨_, hpart, u, plans, hu, hplans, rfl⟩

/-! ## Parts that type their nodes -/

/-- Each node of a part with hops is an end of one of them. -/
theorem exists_end_of_mem {last name : String} {hops : List HopSyntax}
    (h : name ∈ hops.map (·.target.binding)) :
    ∃ relationship ∈ hopPlans last hops, relationship.fromBinding = name ∨
      relationship.toBinding = name := by
  induction hops generalizing last with
  | nil => cases h
  | cons hop hops ih =>
      rcases List.mem_cons.mp h with rfl | h
      · refine ⟨hop.plan last, List.mem_cons_self, ?_⟩
        rcases Parser.hopEnds_cases hop.relationship.direction last
          hop.target.binding with h | h
        · exact .inr (congrArg Prod.snd h)
        · exact .inl (congrArg Prod.fst h)
      · obtain ⟨relationship, hmem, hend⟩ := @ih hop.target.binding h
        exact ⟨relationship, List.mem_cons_of_mem _ hmem, hend⟩

theorem exists_end_of_first {last : String} {hops : List HopSyntax}
    (h : hops ≠ []) :
    ∃ relationship ∈ hopPlans last hops, relationship.fromBinding = last ∨
      relationship.toBinding = last := by
  cases hops with
  | nil => exact absurd rfl h
  | cons hop hops =>
      refine ⟨hop.plan last, List.mem_cons_self, ?_⟩
      rcases Parser.hopEnds_cases hop.relationship.direction last
        hop.target.binding with h | h
      · exact .inl (congrArg Prod.fst h)
      · exact .inr (congrArg Prod.snd h)

/-- A part with a hop types all its nodes, in any scope. -/
theorem PartSyntax.anchored_of_hops {part : PartSyntax} (s : Scope)
    (h : part.hops ≠ []) :
    ∀ node ∈ (part.plan s).nodes,
      ¬ Parser.unanchored (part.plan s) node = true := by
  intro node hnode
  have hname := (mem_occurrences hnode).1
  obtain ⟨relationship, hmem, hend⟩ :
      ∃ relationship ∈ hopPlans part.first.binding part.hops,
        relationship.fromBinding = node.binding ∨
          relationship.toBinding = node.binding := by
    rcases List.mem_cons.mp hname with hfirst | hname
    · rw [hfirst]
      exact exists_end_of_first h
    · exact exists_end_of_mem hname
  have hany : (part.plan s).relationships.any (fun relationship =>
      relationship.fromBinding = node.binding ||
        relationship.toBinding = node.binding) = true := by
    refine List.any_eq_true.mpr ⟨relationship, hmem, ?_⟩
    simpa using hend
  simp [Parser.unanchored, hany]

/-- A single node is typed exactly when the scope has a label for it. -/
theorem PartSyntax.unanchored_single {part : PartSyntax} {s : Scope}
    (h : part.hops = []) :
    (∀ node ∈ (part.plan s).nodes,
      ¬ Parser.unanchored (part.plan s) node = true) ↔
      s.label part.first.binding ≠ none := by
  simp [PartSyntax.plan, PartSyntax.names, h, occurrences, hopPlans,
    Parser.unanchored]

theorem elaborates_append {s t : Scope} {plans : List PatternPart} :
    Elaborates s (parts ++ reordered) t plans ↔
      ∃ u first second, Elaborates s parts u first ∧
        Elaborates u reordered t second ∧ plans = first ++ second := by
  induction parts generalizing s plans with
  | nil =>
      constructor
      · intro h
        exact ⟨s, [], plans, ⟨rfl, rfl⟩, h, rfl⟩
      · rintro ⟨u, first, second, ⟨rfl, rfl⟩, h, rfl⟩
        exact h
  | cons part parts ih =>
      constructor
      · rintro ⟨hknown, v, others, hclaims, h, rfl⟩
        obtain ⟨u, first, second, hfirst, hsecond, rfl⟩ := ih.mp h
        exact ⟨u, part.plan v :: first, second,
          ⟨hknown, v, first, hclaims, hfirst, rfl⟩, hsecond, rfl⟩
      · rintro ⟨u, first, second, ⟨hknown, v, others, hclaims, h, rfl⟩,
          hsecond, rfl⟩
        exact ⟨hknown, v, others ++ second, hclaims,
          ih.mpr ⟨u, others, second, h, hsecond, rfl⟩, rfl⟩

/-- Parts type their nodes when every single node without a label has one in
the scope before them. -/
theorem Elaborates.anchored {s t : Scope} {plans : List PatternPart}
    (h : Elaborates s parts t plans)
    (hbare : ∀ part ∈ parts, part.Bare → s.label part.first.binding ≠ none) :
    Parser.Anchored plans := by
  induction parts generalizing s plans with
  | nil =>
      obtain ⟨-, rfl⟩ := h
      simp [Parser.Anchored]
  | cons part parts ih =>
      obtain ⟨hknown, u, others, hclaims, h, rfl⟩ := h
      obtain ⟨hpart, hparts⟩ := List.forall_mem_cons.mp hbare
      have hkept : ∀ binding, s.label binding ≠ none →
          u.label binding ≠ none := by
        intro binding hsome
        obtain ⟨label, hlabel⟩ := Option.ne_none_iff_exists'.mp hsome
        rw [Scope.label_claims hlabel hclaims]
        exact Option.some_ne_none label
      refine List.forall_mem_cons.mpr ⟨?_, ih h fun other hother hb =>
        hkept _ (hparts other hother hb)⟩
      by_cases hhops : part.hops = []
      · refine (part.unanchored_single hhops).mpr ?_
        cases hwritten : part.first.label with
        | none => exact hkept _ (hpart ⟨hhops, hwritten⟩)
        | some name =>
            obtain ⟨label, hlabel⟩ := Option.ne_none_iff_exists'.mp
              (hknown.1 name hwritten)
            have hclaim : Claim.node part.first.binding (some label) ∈
                part.claims := by
              have hfirst : part.first.claim =
                  .node part.first.binding (some label) := by
                simp [NodeSyntax.claim, NodeSyntax.nodeLabel, hwritten, hlabel]
              rw [← hfirst]
              exact List.mem_cons_self
            rw [Scope.label_of_mem_claims hclaim hclaims]
            exact Option.some_ne_none label
      · exact part.anchored_of_hops u hhops

/-! ## Accepted queries -/

/-- When a query with the given parts is accepted, and with which plan. -/
theorem query_queryTokens {word : String} {rest : List Token}
    {limits : QueryLimits} {plan : QueryPlan} (hparts : parts ≠ [])
    (hend : EndsMatch rest) :
    Parser.query (.start (queryTokens word parts rest) limits) = .done plan ↔
      toAsciiLowercase word = "match" ∧
        Parser.hasStrayStar (queryTokens word parts rest) = false ∧
        ∃ (s : Scope) (plans : List PatternPart) (further : FurtherClauses)
          (q : Parser), Elaborates .empty parts s plans ∧
            Parser.WithinLimits limits s plans ∧
            Parser.Accepts Parser.furtherClauses
              (Parser.goOn (.start [] limits) rest s) further q ∧
            plan = planOf plans further := by
  rw [Parser.query_eq_done_iff]
  constructor
  · rintro ⟨q, h⟩
    obtain ⟨plans, r, further, hmatch, hfurther, rfl⟩ :=
      Parser.accepts_clauses.mp h
    obtain ⟨-, hstar, word', parts', rest', s, hword, hne, htokens, hend',
      helaborates, hwithin, rfl⟩ := (Parser.accepts_matchClause
        (p := .start (queryTokens word parts rest) limits)
        Scope.separate_empty).mp hmatch
    simp only [Parser.start, queryTokens, List.cons.injEq,
      Token.word.injEq] at htokens
    obtain ⟨rfl, htokens⟩ := htokens
    obtain ⟨rfl, rfl⟩ := matchTokens_append_inj hparts hne hend hend' htokens
    exact ⟨hword, hstar, s, plans, further, q, helaborates, hwithin,
      hfurther, rfl⟩
  · rintro ⟨hword, hstar, s, plans, further, q, helaborates, hwithin,
      hfurther, rfl⟩
    refine ⟨q, Parser.accepts_clauses.mpr ⟨plans, _, further, ?_, hfurther,
      rfl⟩⟩
    exact (Parser.accepts_matchClause
      (p := .start (queryTokens word parts rest) limits)
      Scope.separate_empty).mpr ⟨rfl, hstar, word, parts, rest, s, hword, hparts,
        rfl, hend, helaborates, hwithin, rfl⟩

/-! ## Reordered queries -/

theorem hasStrayStar_perm {tokens tokens' : List Token}
    (h : tokens.Perm tokens') :
    Parser.hasStrayStar tokens = Parser.hasStrayStar tokens' := by
  unfold Parser.hasStrayStar
  rw [h.any_eq, h.any_eq]

theorem matchTokens_perm (hperm : parts.Perm reordered) :
    (matchTokens parts).Perm (matchTokens reordered) := by
  have hcommas : ∀ list : List PartSyntax, list ≠ [] →
      (.symbol "," :: matchTokens list) = furtherTokens list := by
    intro list hne
    cases list with
    | nil => exact absurd rfl hne
    | cons part list => rfl
  by_cases hne : parts = []
  · subst hne
    rw [List.nil_perm.mp hperm]
  · have hne' : reordered ≠ [] := by
      rintro rfl
      exact hne (List.perm_nil.mp hperm)
    have hfurther : (furtherTokens parts).Perm (furtherTokens reordered) :=
      hperm.flatMap_right _
    rw [← hcommas parts hne, ← hcommas reordered hne'] at hfurther
    exact hfurther.cons_inv

theorem requiresOccurrenceConstraint_perm {plans plans' : List PatternPart}
    (h : plans.Perm plans') :
    Parser.requiresOccurrenceConstraint plans =
      Parser.requiresOccurrenceConstraint plans' := by
  have hrelationships := h.flatMap_right (·.relationships)
  unfold Parser.requiresOccurrenceConstraint
  dsimp only
  rw [(hrelationships.filter _).any_eq]
  congr 1
  funext membership
  exact (hrelationships.filter _).any_eq

theorem withinLimits_perm {limits : QueryLimits} {s : Scope}
    {plans plans' : List PatternPart} (h : plans.Perm plans')
    (hanchored : Parser.Anchored plans')
    (hwithin : Parser.WithinLimits limits s plans) :
    Parser.WithinLimits limits s plans' where
  patternParts := h.length_eq ▸ hwithin.patternParts
  anchored := hanchored
  traversalHops := by
    rw [joinedTraversalHops_eq, longestTraversal_perm h,
      ← joinedTraversalHops_eq]
    exact hwithin.traversalHops
  variableCount := by
    rw [← List.toFinset_eq_of_perm _ _ (h.filterMap _)]
    exact hwithin.variableCount

theorem sameResolution_planOf {plans plans' : List PatternPart}
    {further : FurtherClauses} (h : plans.Perm plans') :
    SameResolution (planOf plans further) (planOf plans' further) where
  labels := by
    have hnodes : (planOf plans further).nodes.Perm
        (planOf plans' further).nodes := h.flatMap_right _
    have hnames := hnodes.map (·.binding)
    intro binding label
    unfold QueryPlan.EndLabelled QueryPlan.nodeNames
    rw [hnames.mem_iff]
    simp only [hnodes.mem_iff]
  maxTraversalHops := by
    simp only [planOf]
    rw [joinedTraversalHops_eq, joinedTraversalHops_eq,
      longestTraversal_perm h]
  requiresOccurrenceConstraint := requiresOccurrenceConstraint_perm h

/-- Accepted parts contradict each other nowhere, and each single node without a
label is labelled by some part. -/
theorem not_refusedAnyway {s : Scope} {plans : List PatternPart}
    (h : Elaborates .empty parts s plans) (hanchored : Parser.Anchored plans) :
    ¬ RefusedAnyway parts := by
  obtain ⟨-, hlabelled⟩ := h.plans_eq hanchored
  rintro (hinconsistent | ⟨part, hpart, -, hunlabelled⟩)
  · refine hinconsistent ⟨h.known, ?_⟩
    rw [h.claims]
    exact Option.some_ne_none s
  · have hname : part.first.binding ∈ part.names := List.mem_cons_self
    obtain ⟨label, hlabel⟩ := Option.ne_none_iff_exists'.mp
      (hlabelled part hpart _ hname)
    rcases Scope.mem_claims_of_label h.claims hlabel with hempty | hclaim
    · cases hempty
    · obtain ⟨other, hother, hmem⟩ := List.mem_flatMap.mp hclaim
      exact hunlabelled ⟨other, hother, label, hmem⟩

/-- Without a single unlabelled node, a reordered query is accepted too. -/
theorem exists_query_reordered (hperm : parts.Perm reordered)
    (hbare : ∀ part ∈ parts, ¬ part.Bare) {word : String}
    {rest : List Token} {limits : QueryLimits} {plan : QueryPlan}
    (hne : parts ≠ []) (hend : EndsMatch rest)
    (h : Parser.query (.start (queryTokens word parts rest) limits) =
      .done plan) :
    ∃ plan',
      Parser.query (.start (queryTokens word reordered rest) limits) =
        .done plan' ∧ SameResolution plan plan' := by
  obtain ⟨hword, hstar, s, plans, further, q, helaborates, hwithin, hfurther,
    rfl⟩ := (query_queryTokens hne hend).mp h
  have hne' : reordered ≠ [] := by
    rintro rfl
    exact hne (List.perm_nil.mp hperm)
  have hclaims : Scope.empty.claims (reordered.flatMap PartSyntax.claims) =
      some s := by
    rw [← Scope.claims_perm (hperm.flatMap_right _)]
    exact helaborates.claims
  obtain ⟨plans', helaborates'⟩ := exists_elaborates
    (fun part hpart => helaborates.known part (hperm.mem_iff.mpr hpart)) hclaims
  have hanchored' : Parser.Anchored plans' := helaborates'.anchored
    fun part hpart hb => absurd hb (hbare part (hperm.mem_iff.mpr hpart))
  have hplans : plans.Perm plans' := by
    rw [(helaborates.plans_eq hwithin.anchored).1,
      (helaborates'.plans_eq hanchored').1]
    exact hperm.map _
  refine ⟨planOf plans' further, (query_queryTokens hne' hend).mpr
    ⟨hword, ?_, s, plans', further, q, helaborates',
      withinLimits_perm hplans hanchored' hwithin, hfurther, rfl⟩,
    sameResolution_planOf hplans⟩
  rw [← hstar]
  apply hasStrayStar_perm
  exact ((matchTokens_perm hperm.symm).append_right rest).cons _

theorem Labels.perm (hperm : parts.Perm reordered) {binding : String}
    (h : Labels parts binding) : Labels reordered binding := by
  obtain ⟨part, hpart, hlabel⟩ := h
  exact ⟨part, hperm.mem_iff.mp hpart, hlabel⟩

theorem RefusedAnyway.perm (hperm : parts.Perm reordered)
    (h : RefusedAnyway parts) : RefusedAnyway reordered := by
  rcases h with hinconsistent | ⟨part, hpart, hbare, hunlabelled⟩
  · exact .inl fun hconsistent => hinconsistent (hconsistent.perm hperm.symm)
  · exact .inr ⟨part, hperm.mem_iff.mp hpart, hbare,
      fun hlabels => hunlabelled (hlabels.perm hperm.symm)⟩

/-- Parts that are refused anyway are in no accepted query. -/
theorem RefusedAnyway.query_ne (h : RefusedAnyway parts) {word : String}
    {rest : List Token} {limits : QueryLimits} {plan : QueryPlan}
    (hne : parts ≠ []) (hend : EndsMatch rest) :
    Parser.query (.start (queryTokens word parts rest) limits) ≠
      .done plan := by
  intro hquery
  obtain ⟨-, -, s, plans, further, q, helaborates, hwithin, -⟩ :=
    (query_queryTokens hne hend).mp hquery
  exact not_refusedAnyway helaborates hwithin.anchored h

theorem orderIrrelevant_of
    (h : RefusedAnyway parts ∨ ∀ part ∈ parts, ¬ part.Bare) :
    OrderIrrelevant parts := by
  intro reordered word rest limits hperm hend
  by_cases hne : parts = []
  · subst hne
    rw [List.nil_perm.mp hperm]
    exact ⟨fun plan hplan => ⟨plan, hplan, .refl plan⟩,
      fun plan hplan => ⟨plan, hplan, .refl plan⟩⟩
  · have hne' : reordered ≠ [] := by
      rintro rfl
      exact hne (List.perm_nil.mp hperm)
    rcases h with hrefused | hbare
    · exact ⟨fun plan hplan => absurd hplan (hrefused.query_ne hne hend),
        fun plan hplan =>
          absurd hplan ((hrefused.perm hperm).query_ne hne' hend)⟩
    · refine ⟨fun plan hplan =>
        exists_query_reordered hperm hbare hne hend hplan, ?_⟩
      intro plan' hplan'
      obtain ⟨plan, hplan, hsame⟩ := exists_query_reordered hperm.symm
        (fun part hpart => hbare part (hperm.mem_iff.mpr hpart)) hne' hend
        hplan'
      exact ⟨plan, hplan, hsame.symm⟩

/-! ## A single unlabelled node, first and last -/

/-- A single unlabelled node gives no name a label. -/
theorem PartSyntax.Bare.label_notMem {part : PartSyntax} (h : part.Bare)
    (binding : String) (label : NodeLabel) :
    .node binding (some label) ∉ part.claims := by
  simp only [PartSyntax.claims, PartSyntax.pathClaims, h.1, hopClaims,
    NodeSyntax.claim, NodeSyntax.nodeLabel, h.2, List.cons_append,
    List.nil_append, List.mem_cons, not_or]
  refine ⟨by simp, ?_⟩
  cases part.path <;> simp

/-- With a single unlabelled node first, the query is refused. -/
theorem query_ne_of_bare_first {part : PartSyntax} {others : List PartSyntax}
    (hbare : part.Bare) {word : String} {rest : List Token}
    {limits : QueryLimits} {plan : QueryPlan} (hend : EndsMatch rest) :
    Parser.query (.start (queryTokens word (part :: others) rest) limits) ≠
      .done plan := by
  intro hquery
  obtain ⟨-, -, s, plans, further, q, helaborates, hwithin, -⟩ :=
    (query_queryTokens (List.cons_ne_nil _ _) hend).mp hquery
  obtain ⟨-, u, plans, hclaims, -, rfl⟩ := helaborates
  have hanchored := (List.forall_mem_cons.mp hwithin.anchored).1
  obtain ⟨label, hlabel⟩ := Option.ne_none_iff_exists'.mp
    ((part.unanchored_single hbare.1).mp hanchored)
  rcases Scope.mem_claims_of_label hclaims hlabel with hempty | hclaim
  · cases hempty
  · exact hbare.label_notMem _ _ hclaim

/-- A clause that any MATCH clause may be followed by. -/
def plainReturn : List Token :=
  [.word "RETURN", .parameter "p", .word "AS", .word "x"]

theorem endsMatch_plainReturn : EndsMatch plainReturn := by
  simp [EndsMatch, StartsHop, plainReturn]

def plainClauses : FurtherClauses where
  predicates := []
  projection := ⟨false, [⟨"x", .parameter "p"⟩]⟩
  ordering := []
  limit := none

/-- Limits that the given parts just keep. -/
def justEnough (s : Scope) (plans : List PatternPart) : QueryLimits where
  queryBytes := 0
  astDepth := 0
  variableCount := s.bindings.keys.card + s.relationshipBindings.keys.card +
    (plans.filterMap (·.pathBinding)).toFinset.card
  patternParts := plans.length
  traversalHops := Parser.joinedTraversalHops plans
  hardRows := 0

theorem accepts_plainReturn {p : Parser} (hclean : p.Clean)
    (hindex : p.projectionIndex = none) (s : Scope) :
    Parser.Accepts Parser.furtherClauses (p.goOn plainReturn s) plainClauses
      (p.goOn [] s) := by
  have hreturn : toAsciiLowercase "RETURN" = "return" := by decide
  have has : toAsciiLowercase "AS" = "as" := by decide
  refine ⟨?_, hclean⟩
  simp [Parser.furtherClauses, Parser.whereClause, Parser.eatWord,
    Parser.isWord, hreturn, has, plainReturn, bind, Parser.returnClause,
    Parser.returnColumns, Parser.returnColumn, Parser.returnItem,
    Parser.expression, Parser.expressionAt, Parser.eatSymbol, Parser.isSymbol,
    Parser.peek, Parser.advance, Parser.deferWhen, Parser.isEmptyList,
    Parser.checkHomogeneous, Reading.mapError, Parser.identifier,
    Parser.checkColumnNames, Parser.orderClause, Parser.limitClause,
    plainClauses, Parser.goOn, Reading.modify, Reading.get, hindex]

theorem star_notMem_tokens (part : PartSyntax) :
    .symbol "*" ∉ part.tokens := by
  have hnode : ∀ node : NodeSyntax, .symbol "*" ∉ node.tokens := by
    rintro ⟨binding, label⟩
    cases label <;> simp [NodeSyntax.tokens]
  have hrelationship : ∀ relationship : RelationshipSyntax,
      .symbol "*" ∉ relationship.tokens := by
    rintro ⟨direction, binding, typeName⟩
    cases direction <;> cases binding <;>
      simp [RelationshipSyntax.tokens, RelationshipSyntax.opening,
        RelationshipSyntax.body, RelationshipSyntax.closing]
  obtain ⟨path, first, hops⟩ := part
  simp only [PartSyntax.tokens, List.mem_append, List.mem_flatMap, not_or,
    not_exists, not_and]
  refine ⟨⟨?_, hnode first⟩, ?_⟩
  · cases path <;> simp
  · intro hop _ hmem
    rcases List.mem_append.mp hmem with hmem | hmem
    · exact hrelationship _ hmem
    · exact hnode _ hmem

theorem star_notMem_matchTokens (parts : List PartSyntax) :
    .symbol "*" ∉ matchTokens parts := by
  cases parts with
  | nil => simp [matchTokens]
  | cons part parts =>
      intro hmem
      rcases List.mem_append.mp hmem with hmem | hmem
      · exact star_notMem_tokens part hmem
      · obtain ⟨other, -, hmem⟩ := List.mem_flatMap.mp hmem
        rcases List.mem_cons.mp hmem with hcomma | hmem
        · simp at hcomma
        · exact star_notMem_tokens other hmem

/-- The parts with the single unlabelled nodes after all others. -/
def bareLast (parts : List PartSyntax) : List PartSyntax :=
  parts.filter (fun part => ¬ part.Bare) ++ parts.filter (fun part => part.Bare)

theorem bareLast_perm (parts : List PartSyntax) :
    parts.Perm (bareLast parts) := by
  have h := List.filter_append_perm (fun part => decide part.Bare) parts
  refine h.symm.trans (List.perm_append_comm.trans ?_)
  simp [bareLast]

/-- With the single unlabelled nodes last, a query is accepted, unless the parts
are refused anyway. -/
theorem exists_query_bareLast (hne : parts ≠ [])
    (h : ¬ RefusedAnyway parts) :
    ∃ limits plan, Parser.query
      (.start (queryTokens "MATCH" (bareLast parts) plainReturn) limits) =
        .done plan := by
  obtain ⟨hconsistent, hlabelled⟩ : Consistent parts ∧
      ∀ part ∈ parts, part.Bare → Labels parts part.first.binding := by
    unfold RefusedAnyway at h
    push Not at h
    exact h
  have hperm := bareLast_perm parts
  obtain ⟨hknown, hclaims⟩ := hconsistent.perm hperm
  obtain ⟨t, ht⟩ := Option.ne_none_iff_exists'.mp hclaims
  obtain ⟨plans, helaborates⟩ := exists_elaborates hknown ht
  obtain ⟨u, first, second, hfirst, hsecond, rfl⟩ :=
    elaborates_append.mp helaborates
  have hfirstAnchored : Parser.Anchored first := by
    refine hfirst.anchored fun part hpart hbare => ?_
    have hother := (List.mem_filter.mp hpart).2
    simp [hbare] at hother
  have hsecondAnchored : Parser.Anchored second := by
    refine hsecond.anchored fun part hpart hbare => ?_
    obtain ⟨other, hother, label, hlabel⟩ :=
      hlabelled part (List.mem_filter.mp hpart).1 hbare
    have hnotBare : ¬ other.Bare := fun hb => hb.label_notMem _ _ hlabel
    have hmem : other ∈ parts.filter (fun part => ¬ part.Bare) :=
      List.mem_filter.mpr ⟨hother, by simpa using hnotBare⟩
    rw [Scope.label_of_mem_claims
      (List.mem_flatMap.mpr ⟨other, hmem, hlabel⟩) hfirst.claims]
    exact Option.some_ne_none label
  have hanchored : Parser.Anchored (first ++ second) :=
    List.forall_mem_append.mpr ⟨hfirstAnchored, hsecondAnchored⟩
  have hne' : bareLast parts ≠ [] := by
    intro hnil
    rw [hnil] at hperm
    exact hne (List.perm_nil.mp hperm)
  have hstar : Parser.hasStrayStar
      (queryTokens "MATCH" (bareLast parts) plainReturn) = false := by
    have hnone : .symbol "*" ∉
        queryTokens "MATCH" (bareLast parts) plainReturn := by
      simp [queryTokens, plainReturn, star_notMem_matchTokens]
    unfold Parser.hasStrayStar
    rw [Bool.and_eq_false_iff]
    left
    refine List.any_eq_false.mpr fun token hmem hstar => hnone ?_
    have htoken : token = .symbol "*" := by
      simpa [Parser.isSymbol] using hstar
    rwa [← htoken]
  have hclauses := accepts_plainReturn
    (p := .start [] (justEnough t (first ++ second))) rfl rfl t
  exact ⟨justEnough t (first ++ second), planOf (first ++ second) plainClauses,
    (query_queryTokens hne' endsMatch_plainReturn).mpr ⟨by decide,
      hstar, t, _, plainClauses, _, helaborates,
      ⟨le_rfl, hanchored, le_rfl, le_rfl⟩, hclauses, rfl⟩⟩

theorem orderIrrelevant_iff (parts : List PartSyntax) :
    OrderIrrelevant parts ↔
      RefusedAnyway parts ∨ ∀ part ∈ parts, ¬ part.Bare := by
  refine ⟨?_, orderIrrelevant_of⟩
  intro hirrelevant
  by_contra hcond
  obtain ⟨hrefused, hbare⟩ := not_or.mp hcond
  push Not at hbare
  obtain ⟨part, hpart, hbare⟩ := hbare
  have hne : parts ≠ [] := List.ne_nil_of_mem hpart
  obtain ⟨limits, plan, hlast⟩ := exists_query_bareLast hne hrefused
  obtain ⟨plan', hplan', -⟩ := (hirrelevant (bareLast parts) "MATCH"
    plainReturn limits (bareLast_perm parts) endsMatch_plainReturn).2 plan hlast
  obtain ⟨plan'', hfirst, -⟩ := (hirrelevant (part :: parts.erase part) "MATCH"
    plainReturn limits (List.perm_cons_erase hpart)
    endsMatch_plainReturn).1 plan' hplan'
  exact query_ne_of_bare_first hbare endsMatch_plainReturn hfirst

/-- Two texts are answered as their tokens are, when they are equally long. -/
theorem answersAlike_parse {text text' : String} {tokens tokens' : List Token}
    {limits : QueryLimits} (hsize : text.utf8ByteSize = text'.utf8ByteSize)
    (htokens : Lexer.tokenize text = .ok tokens)
    (htokens' : Lexer.tokenize text' = .ok tokens')
    (h : AnswersAlike (Parser.query (.start tokens limits))
      (Parser.query (.start tokens' limits))) :
    AnswersAlike (parse text limits) (parse text' limits) := by
  by_cases hbytes : limits.queryBytes < text.utf8ByteSize
  · obtain ⟨message, hlong⟩ := parse_of_long hbytes
    obtain ⟨message', hlong'⟩ := parse_of_long (hsize ▸ hbytes)
    rw [hlong, hlong']
    exact ⟨by simp, by simp⟩
  · rw [parse_of_tokens hbytes htokens, parse_of_tokens (hsize ▸ hbytes) htokens']
    exact h

/-- The parts of a query may be reordered, whatever its other clauses and its
limits are, exactly if none of them is a single node without a label, or no
order of them is accepted.  Texts of such parts are answered alike. -/
theorem parse_reordered (parts : List PartSyntax) :
    (OrderIrrelevant parts ↔
      RefusedAnyway parts ∨ ∀ part ∈ parts, ¬ part.Bare) ∧
    ((RefusedAnyway parts ∨ ∀ part ∈ parts, ¬ part.Bare) →
      ∀ (reordered : List PartSyntax) (word : String) (rest : List Token)
        (text text' : String) (limits : QueryLimits),
        parts.Perm reordered → EndsMatch rest →
        text.utf8ByteSize = text'.utf8ByteSize →
        Lexer.tokenize text = .ok (queryTokens word parts rest) →
        Lexer.tokenize text' = .ok (queryTokens word reordered rest) →
        AnswersAlike (parse text limits) (parse text' limits)) := by
  refine ⟨orderIrrelevant_iff parts, ?_⟩
  intro hcond reordered word rest text text' limits hperm hend hsize htokens
    htokens'
  exact answersAlike_parse hsize htokens htokens'
    (orderIrrelevant_of hcond reordered word rest limits hperm hend)

end

/-! ## A label that stands too late -/

/-- `(n)` and `(n)-[:CONNECTED]-(m)`. -/
def singleNode : PartSyntax := ⟨none, ⟨"n", none⟩, []⟩

def connectedNodes : PartSyntax :=
  ⟨none, ⟨"n", none⟩, [⟨⟨.undirected, none, "CONNECTED"⟩, ⟨"m", none⟩⟩]⟩

/-- The node is refused before the relationship that labels it, and accepted
after it. -/
theorem parse_reordered_singleNode :
    ¬ OrderIrrelevant [singleNode, connectedNodes] ∧
      (parse "MATCH (n), (n)-[:CONNECTED]-(m) RETURN n" default).isDone =
        false ∧
      (parse "MATCH (n)-[:CONNECTED]-(m), (n) RETURN n" default).isDone =
        true := by
  refine ⟨?_, by decide +kernel, by decide +kernel⟩
  intro hirrelevant
  have hdone : (Parser.query (.start (queryTokens "MATCH"
      [connectedNodes, singleNode] [.word "RETURN", .word "n"])
        default)).isDone = true := by decide +kernel
  have hrefused : (Parser.query (.start (queryTokens "MATCH"
      [singleNode, connectedNodes] [.word "RETURN", .word "n"])
        default)).isDone = false := by decide +kernel
  obtain ⟨plan, hplan⟩ := Reply.exists_of_isDone hdone
  obtain ⟨plan', hplan', -⟩ := (hirrelevant [connectedNodes, singleNode] "MATCH"
    [.word "RETURN", .word "n"] default (.swap _ _ _)
    (by simp [EndsMatch, StartsHop])).2 plan hplan
  rw [hplan'] at hrefused
  cases hrefused

end RelayerGraph.Query
