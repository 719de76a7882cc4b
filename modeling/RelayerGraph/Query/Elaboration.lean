import RelayerGraph.Query.AcceptedClauses

/-!
# The labels of elaborated parts

In a MATCH clause whose node occurrences are all typed, every occurrence has
the label that its name has at the end, wherever it stands.
-/

namespace RelayerGraph.Query

/-! ## The claims of a part -/

section

variable {last name : String} {hops : List HopSyntax}
  {relationship : RelationshipPlan}

theorem HopSyntax.ends_claimed (hop : HopSyntax) (last : String) :
    .node (hop.plan last).fromBinding
        (some (Parser.endpointLabels (hop.plan last).relationshipType).1) ∈
          hop.claims last ∧
      .node (hop.plan last).toBinding
        (some (Parser.endpointLabels (hop.plan last).relationshipType).2) ∈
          hop.claims last := by
  constructor
  · exact List.mem_append_right _ (List.mem_cons_of_mem _ List.mem_cons_self)
  · exact List.mem_append_right _ (List.mem_cons_of_mem _
      (List.mem_cons_of_mem _ List.mem_cons_self))

/-- The ends of a relationship are claimed with the labels of its type. -/
theorem ends_mem_hopClaims (h : relationship ∈ hopPlans last hops) :
    .node relationship.fromBinding
        (some (Parser.endpointLabels relationship.relationshipType).1) ∈
          hopClaims last hops ∧
      .node relationship.toBinding
        (some (Parser.endpointLabels relationship.relationshipType).2) ∈
          hopClaims last hops := by
  induction hops generalizing last with
  | nil => cases h
  | cons hop hops ih =>
      rcases List.mem_cons.mp h with rfl | h
      · obtain ⟨hfrom, hto⟩ := hop.ends_claimed last
        exact ⟨List.mem_append_left _ hfrom, List.mem_append_left _ hto⟩
      · obtain ⟨hfrom, hto⟩ := ih h
        exact ⟨List.mem_append_right _ hfrom, List.mem_append_right _ hto⟩

theorem HopSyntax.ends_mem (hop : HopSyntax) (last : String) :
    (hop.ends last).1 ∈ [last, hop.target.binding] ∧
      (hop.ends last).2 ∈ [last, hop.target.binding] := by
  unfold HopSyntax.ends
  rcases Parser.hopEnds_cases hop.relationship.direction last
    hop.target.binding with h | h <;> simp [h]

/-- The claims of hops name their nodes and their relationships. -/
theorem node_mem_hopClaims {label : Option NodeLabel}
    (h : .node name label ∈ hopClaims last hops) :
    name ∈ last :: hops.map (·.target.binding) := by
  induction hops generalizing last with
  | nil => cases h
  | cons hop hops ih =>
      rcases List.mem_append.mp h with hfirst | hothers
      · rcases List.mem_append.mp hfirst with hrelationship | hnode
        · unfold RelationshipSyntax.claims at hrelationship
          cases hbinding : hop.relationship.binding <;>
            simp [hbinding] at hrelationship
        · obtain ⟨hfrom, hto⟩ := hop.ends_mem last
          simp only [NodeSyntax.claim, List.mem_cons, Claim.node.injEq,
            List.not_mem_nil, or_false] at hnode hfrom hto
          simp only [List.map_cons, List.mem_cons]
          rcases hnode with ⟨rfl, -⟩ | ⟨rfl, -⟩ | ⟨rfl, -⟩
          · exact .inr (.inl rfl)
          · tauto
          · tauto
      · exact List.mem_cons_of_mem _ (ih hothers)

theorem exists_node_hopClaim (h : name ∈ hops.map (·.target.binding)) :
    ∃ label, .node name label ∈ hopClaims last hops := by
  induction hops generalizing last with
  | nil => cases h
  | cons hop hops ih =>
      rcases List.mem_cons.mp h with rfl | h
      · exact ⟨hop.target.nodeLabel, List.mem_append_left _
          (List.mem_append_right _ List.mem_cons_self)⟩
      · obtain ⟨label, hlabel⟩ := @ih hop.target.binding h
        exact ⟨label, List.mem_append_right _ hlabel⟩

theorem relationship_mem_hopClaims {relationshipType : RelationshipType} :
    .relationship name relationshipType ∈ hopClaims last hops ↔
      ∃ relationship ∈ hopPlans last hops, relationship.binding = some name ∧
        relationship.relationshipType = relationshipType := by
  induction hops generalizing last with
  | nil => simp [hopClaims, hopPlans]
  | cons hop hops ih =>
      have hfirst : .relationship name relationshipType ∈ hop.claims last ↔
          hop.relationship.binding = some name ∧
            hop.relationship.relationshipType = relationshipType := by
        unfold HopSyntax.claims RelationshipSyntax.claims
        cases hop.relationship.binding with
        | none => simp [NodeSyntax.claim]
        | some binding => simp [NodeSyntax.claim, eq_comm]
      simp only [hopClaims, hopPlans, List.mem_append, hfirst, ih,
        List.exists_mem_cons_iff]
      rfl

theorem path_notMem_hopClaims : .path name ∉ hopClaims last hops := by
  induction hops generalizing last with
  | nil => simp [hopClaims]
  | cons hop hops ih =>
      simp only [hopClaims, List.mem_append, not_or]
      refine ⟨?_, ih⟩
      unfold HopSyntax.claims RelationshipSyntax.claims
      cases hop.relationship.binding <;> simp [NodeSyntax.claim]

end

namespace PartSyntax

variable {part : PartSyntax} {name : String}

theorem node_mem_claims {label : Option NodeLabel}
    (h : .node name label ∈ part.claims) : name ∈ part.names := by
  simp only [claims, pathClaims, List.cons_append, List.mem_cons,
    List.mem_append] at h
  rcases h with h | h | h
  · simp only [NodeSyntax.claim, Claim.node.injEq] at h
    obtain ⟨rfl, -⟩ := h
    exact List.mem_cons_self
  · exact node_mem_hopClaims h
  · cases hpath : part.path <;> simp [hpath] at h

theorem relationship_mem_claims {relationshipType : RelationshipType} :
    .relationship name relationshipType ∈ part.claims ↔
      ∃ relationship ∈ hopPlans part.first.binding part.hops,
        relationship.binding = some name ∧
          relationship.relationshipType = relationshipType := by
  rw [← relationship_mem_hopClaims]
  simp only [claims, pathClaims, NodeSyntax.claim, List.cons_append,
    List.mem_cons, List.mem_append, reduceCtorEq, false_or]
  cases part.path <;> simp

theorem path_mem_claims : .path name ∈ part.claims ↔ part.path = some name := by
  simp only [claims, pathClaims, NodeSyntax.claim, List.cons_append,
    List.mem_cons, List.mem_append, path_notMem_hopClaims, reduceCtorEq,
    false_or]
  cases part.path <;> simp [eq_comm]

theorem hopClaims_subset {c : Claim}
    (h : c ∈ hopClaims part.first.binding part.hops) : c ∈ part.claims :=
  List.mem_cons_of_mem _ (List.mem_append_left _ h)

theorem exists_node_claim (h : name ∈ part.names) :
    ∃ label, .node name label ∈ part.claims := by
  rcases List.mem_cons.mp h with rfl | h
  · exact ⟨part.first.nodeLabel, List.mem_cons_self⟩
  · obtain ⟨label, hlabel⟩ := exists_node_hopClaim h
    exact ⟨label, hopClaims_subset hlabel⟩

end PartSyntax

/-! ## Labels at the end -/

theorem Elaborates.claims {s t : Scope} {parts : List PartSyntax}
    {plans : List PatternPart} (h : Elaborates s parts t plans) :
    s.claims (parts.flatMap PartSyntax.claims) = some t := by
  induction parts generalizing s plans with
  | nil =>
      obtain ⟨rfl, -⟩ := h
      rfl
  | cons part parts ih =>
      obtain ⟨-, u, others, hclaims, h, -⟩ := h
      rw [List.flatMap_cons, Scope.claims_append, hclaims]
      exact ih h

theorem Elaborates.known {s t : Scope} {parts : List PartSyntax}
    {plans : List PatternPart} (h : Elaborates s parts t plans) :
    ∀ part ∈ parts, part.Known := by
  induction parts generalizing s plans with
  | nil => simp
  | cons part parts ih =>
      obtain ⟨hknown, u, others, -, h, -⟩ := h
      exact List.forall_mem_cons.mpr ⟨hknown, ih h⟩

/-- An occurrence that its part types is labelled once the part is read. -/
theorem PartSyntax.label_ne_none {part : PartSyntax} {s u : Scope}
    {node : NodePlan} (hclaims : s.claims part.claims = some u)
    (hnode : node ∈ (part.plan u).nodes)
    (hanchored : ¬ Parser.unanchored (part.plan u) node = true) :
    u.label node.binding ≠ none := by
  intro hnone
  have hlabel : node.label = none := (mem_occurrences hnode).2.trans hnone
  simp only [Parser.unanchored, hlabel, Option.isNone_none, Bool.true_and,
    Bool.not_eq_true', Bool.not_eq_false, List.any_eq_true, Bool.or_eq_true,
    decide_eq_true_eq] at hanchored
  obtain ⟨relationship, hmem, hend⟩ := hanchored
  obtain ⟨hfrom, hto⟩ := ends_mem_hopClaims hmem
  rcases hend with hend | hend
  · rw [hend] at hfrom
    have hsome := Scope.label_of_mem_claims (hopClaims_subset hfrom) hclaims
    rw [hnone] at hsome
    cases hsome
  · rw [hend] at hto
    have hsome := Scope.label_of_mem_claims (hopClaims_subset hto) hclaims
    rw [hnone] at hsome
    cases hsome

/-- Where every occurrence is typed, the plans are those of the last scope. -/
theorem Elaborates.plans_eq {s t : Scope} {parts : List PartSyntax}
    {plans : List PatternPart} (h : Elaborates s parts t plans)
    (hanchored : Parser.Anchored plans) :
    plans = parts.map (·.plan t) ∧
      ∀ part ∈ parts, ∀ name ∈ part.names, t.label name ≠ none := by
  induction parts generalizing s plans with
  | nil =>
      obtain ⟨-, rfl⟩ := h
      simp
  | cons part parts ih =>
      obtain ⟨-, u, others, hclaims, h, rfl⟩ := h
      obtain ⟨hpart, hothers⟩ := List.forall_mem_cons.mp hanchored
      obtain ⟨rfl, hlabelled⟩ := ih h hothers
      have hlabel : ∀ name ∈ part.names, ∃ label,
          u.label name = some label ∧ t.label name = some label := by
        intro name hname
        obtain ⟨node, hnode, rfl⟩ :
            ∃ node ∈ (part.plan u).nodes, node.binding = name :=
          exists_mem_occurrences hname
        obtain ⟨label, hlabel⟩ := Option.ne_none_iff_exists'.mp
          (part.label_ne_none hclaims hnode (hpart node hnode))
        exact ⟨label, hlabel, Scope.label_claims hlabel h.claims⟩
      have hplan : part.plan u = part.plan t := by
        unfold PartSyntax.plan
        congr 1
        apply occurrences_congr
        intro name hname
        obtain ⟨label, hu, ht⟩ := hlabel name hname
        rw [hu, ht]
      refine ⟨by rw [hplan, List.map_cons], List.forall_mem_cons.mpr
        ⟨?_, hlabelled⟩⟩
      intro name hname
      obtain ⟨label, -, ht⟩ := hlabel name hname
      rw [ht]
      exact Option.some_ne_none label

end RelayerGraph.Query
