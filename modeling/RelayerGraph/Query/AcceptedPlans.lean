import RelayerGraph.Query.AcceptedProjection
import RelayerGraph.Query.Elaboration

/-!
# Accepted plans are well typed

A plan that the parser accepts labels every node, and every occurrence of a node
alike, as the relationships require; gives each name one role; names properties
of what was matched only; and orders by its own columns.
-/

namespace RelayerGraph.Query

open Foundation Reading

/-! ## Well-typed plans -/

namespace QueryPlan

variable (plan : QueryPlan)

/-- The node occurrences of all parts. -/
def nodes : List NodePlan :=
  plan.patterns.flatMap (·.nodes)

def relationships : List RelationshipPlan :=
  plan.patterns.flatMap (·.relationships)

def nodeNames : List String :=
  plan.nodes.map (·.binding)

def relationshipNames : List String :=
  plan.relationships.filterMap (·.binding)

def pathNames : List String :=
  plan.patterns.filterMap (·.pathBinding)

/-- The properties named in WHERE and RETURN. -/
def properties : List PropertyRef :=
  plan.predicates.map Predicate.property ++
    plan.projection.columns.flatMap (·.expression.properties)

/-- A property is bound, and one of the label or the type of its binding. -/
def Admits (property : PropertyRef) : Prop :=
  (∃ node ∈ plan.nodes, ∃ label, node.binding = property.binding ∧
    node.label = some label ∧ property.name ∈ label.properties) ∨
  ∃ relationship ∈ plan.relationships,
    relationship.binding = some property.binding ∧
      property.name ∈ relationship.relationshipType.properties

/-- An end of a relationship is an occurrence of the pattern, and every
occurrence of it has the label. -/
def EndLabelled (binding : String) (label : NodeLabel) : Prop :=
  binding ∈ plan.nodeNames ∧
    ∀ node ∈ plan.nodes, node.binding = binding → node.label = some label

structure WellTyped : Prop where
  labelled : ∀ node ∈ plan.nodes, node.label ≠ none
  agreeing : ∀ node ∈ plan.nodes, ∀ node' ∈ plan.nodes,
    node.binding = node'.binding → node.label = node'.label
  endpoints : ∀ relationship ∈ plan.relationships,
    plan.EndLabelled relationship.fromBinding
        (Parser.endpointLabels relationship.relationshipType).1 ∧
      plan.EndLabelled relationship.toBinding
        (Parser.endpointLabels relationship.relationshipType).2
  nodesNotRelationships : plan.nodeNames.Disjoint plan.relationshipNames
  nodesNotPaths : plan.nodeNames.Disjoint plan.pathNames
  relationshipsNotPaths : plan.relationshipNames.Disjoint plan.pathNames
  properties : ∀ property ∈ plan.properties, plan.Admits property
  ordering : ∀ item ∈ plan.ordering,
    item.column ∈ plan.projection.columns.map (·.name)

end QueryPlan

/-! ## The clauses of an accepted query -/

/-- What the clauses after MATCH say. -/
structure FurtherClauses where
  predicates : List Predicate
  projection : Projection
  ordering : List Ordering
  limit : Option Limit

def planOf (patterns : List PatternPart) (further : FurtherClauses) :
    QueryPlan where
  patterns
  predicates := further.predicates
  projection := further.projection
  ordering := further.ordering
  limit := further.limit
  maxTraversalHops := Parser.joinedTraversalHops patterns
  requiresOccurrenceConstraint := Parser.requiresOccurrenceConstraint patterns

namespace Parser

def furtherClauses : Parsing FurtherClauses := do
  let predicates ← whereClause
  if ← eatWord "return" then
    let projection ← returnClause
    let ordering ← orderClause projection
    let limit ← limitClause
    let _ ← eatSymbol ";"
    let p ← get
    if p.rest ≠ [] then
      refuseClause
      fail (syntaxError "unexpected trailing input")
    else return { predicates, projection, ordering, limit }
  else
    refuseClause
    fail (syntaxError "a query needs a RETURN clause")

theorem fail_bind {α β : Type} (error : ParseError) (f : α → Parsing β) :
    (fail error : Parsing α) >>= f = fail error := rfl

theorem ite_bind {α β : Type} (c : Prop) [Decidable c] (x y : Parsing α)
    (f : α → Parsing β) :
    (if c then x else y) >>= f = if c then x >>= f else y >>= f := by
  split <;> rfl

theorem clauses_eq : clauses = (do
    let patterns ← matchClause
    let further ← furtherClauses
    return planOf patterns further) := by
  unfold clauses furtherClauses
  simp only [bind_assoc, ite_bind, fail_bind, pure_bind]
  rfl

theorem finds_furtherClauses {s : Scope} :
    Finds s furtherClauses fun further =>
      (∀ predicate ∈ further.predicates, s.Allows predicate.property) ∧
      (∀ column ∈ further.projection.columns, ColumnAllowed s column) ∧
      ∀ item ∈ further.ordering,
        item.column ∈ further.projection.columns.map (·.name) := by
  refine finds_whereClause.bind fun predicates => ?_
  refine (passes_eatWord "return").after fun _ => .ite (fun _ => ?_) fun _ => ?_
  · refine finds_returnClause.bind fun projection => ?_
    refine (finds_orderClause projection).bind fun ordering => ?_
    refine passes_limitClause.after fun limit => ?_
    refine (passes_eatSymbol ";").after fun _ => .getBind fun p _ => ?_
    refine .ite (fun _ => ?_) fun _ => .pure ?_
    · exact passes_refuseClause.after fun _ => .fail
    · intro hordering hcolumns hpredicates
      exact ⟨hpredicates, hcolumns, hordering⟩
  · exact passes_refuseClause.after fun _ => .fail

theorem keeps_furtherClauses : Keeps furtherClauses :=
  Finds.keeps (Q := fun _ => True) fun _ =>
    finds_furtherClauses.mono fun _ _ => trivial

theorem accepts_clauses {p q : Parser} {plan : QueryPlan} :
    Accepts clauses p plan q ↔
      ∃ patterns r further, Accepts matchClause p patterns r ∧
        Accepts furtherClauses r further q ∧ plan = planOf patterns further := by
  rw [clauses_eq, accepts_bind fun _ => keeps_furtherClauses.bind fun _ =>
    .pure _]
  constructor
  · rintro ⟨patterns, r, hmatch, h⟩
    obtain ⟨further, r', hfurther, h⟩ := (accepts_bind fun _ => .pure _).mp h
    obtain ⟨-, rfl, rfl⟩ := accepts_pure.mp h
    exact ⟨patterns, r, further, hmatch, hfurther, rfl⟩
  · rintro ⟨patterns, r, further, hmatch, hfurther, rfl⟩
    refine ⟨patterns, r, hmatch, (accepts_bind fun _ => .pure _).mpr
      ⟨further, q, hfurther, accepts_pure.mpr ⟨hfurther.2, rfl, rfl⟩⟩⟩

theorem query_eq_done_iff {p : Parser} {plan : QueryPlan} :
    query p = .done plan ↔ ∃ q, Accepts clauses p plan q := by
  unfold query Accepts
  cases hrun : clauses p with
  | exhausted => simp
  | failed error => simp
  | done result =>
      obtain ⟨plan', q⟩ := result
      simp only [reportDeferred, Clean]
      cases herror : q.deferredPlanError with
      | some error =>
          simp only [reduceCtorEq, Reply.done.injEq, Prod.mk.injEq, false_iff]
          rintro ⟨r, ⟨-, rfl⟩, hclean⟩
          rw [herror] at hclean
          cases hclean
      | none =>
          simp only [Reply.done.injEq, Prod.mk.injEq]
          constructor
          · rintro rfl
            exact ⟨q, ⟨rfl, rfl⟩, herror⟩
          · rintro ⟨r, ⟨rfl, -⟩, -⟩
            rfl

end Parser

theorem parse_eq_done_iff {text : String} {limits : QueryLimits}
    {plan : QueryPlan} :
    parse text limits = .done plan ↔
      text.utf8ByteSize ≤ limits.queryBytes ∧ ∃ tokens,
        Lexer.tokenize text = .ok tokens ∧
          Parser.query (.start tokens limits) = .done plan := by
  by_cases hbytes : limits.queryBytes < text.utf8ByteSize
  · obtain ⟨message, hlong⟩ : ∃ message, parse text limits =
        .failed (.new .queryBytesExceeded "query" message) :=
      parse_of_long hbytes
    rw [hlong]
    constructor
    · rintro ⟨⟩
    · rintro ⟨hshort, -⟩
      exact absurd hbytes (not_lt.mpr hshort)
  · cases htokens : Lexer.tokenize text with
    | error error =>
        rw [parse_of_unread hbytes htokens]
        simp
    | ok tokens =>
        rw [parse_of_tokens hbytes htokens]
        simp [not_lt.mp hbytes]

/-! ## Elaborated plans -/

section

variable {s : Scope} {parts : List PartSyntax} {further : FurtherClauses}

theorem mem_nodes_planOf {node : NodePlan}
    (h : node ∈ (planOf (parts.map (·.plan s)) further).nodes) :
    ∃ part ∈ parts, node.binding ∈ part.names ∧
      node.label = s.label node.binding := by
  simp only [QueryPlan.nodes, planOf, List.mem_flatMap, List.mem_map] at h
  obtain ⟨plan, ⟨part, hpart, rfl⟩, hnode⟩ := h
  exact ⟨part, hpart, mem_occurrences hnode⟩

theorem exists_node_planOf {part : PartSyntax} {name : String}
    (hpart : part ∈ parts) (hname : name ∈ part.names) :
    ∃ node ∈ (planOf (parts.map (·.plan s)) further).nodes,
      node.binding = name := by
  obtain ⟨node, hnode, hbinding⟩ :
      ∃ node ∈ (part.plan s).nodes, node.binding = name :=
    exists_mem_occurrences hname
  exact ⟨node, List.mem_flatMap.mpr
    ⟨_, List.mem_map_of_mem hpart, hnode⟩, hbinding⟩

theorem mem_relationships_planOf {relationship : RelationshipPlan} :
    relationship ∈ (planOf (parts.map (·.plan s)) further).relationships ↔
      ∃ part ∈ parts,
        relationship ∈ hopPlans part.first.binding part.hops := by
  simp [QueryPlan.relationships, planOf, PartSyntax.plan]

variable (hclaims : Scope.empty.claims (parts.flatMap PartSyntax.claims) =
  some s)

include hclaims

theorem nodeName_mem_bindings {name : String}
    (h : name ∈ (planOf (parts.map (·.plan s)) further).nodeNames) :
    name ∈ s.bindings := by
  obtain ⟨node, hnode, rfl⟩ := List.mem_map.mp h
  obtain ⟨part, hpart, hname, -⟩ := mem_nodes_planOf hnode
  obtain ⟨label, hlabel⟩ := PartSyntax.exists_node_claim hname
  exact Scope.mem_bindings_of_mem_claims
    (List.mem_flatMap.mpr ⟨part, hpart, hlabel⟩) hclaims

theorem relationshipName_mem {name : String}
    (h : name ∈ (planOf (parts.map (·.plan s)) further).relationshipNames) :
    name ∈ s.relationshipBindings := by
  obtain ⟨relationship, hmem, hname⟩ := List.mem_filterMap.mp h
  obtain ⟨part, hpart, hmem⟩ := mem_relationships_planOf.mp hmem
  have hclaim := PartSyntax.relationship_mem_claims.mpr
    ⟨relationship, hmem, hname, rfl⟩
  exact Scope.mem_relationships_of_mem_claims
    (List.mem_flatMap.mpr ⟨part, hpart, hclaim⟩) hclaims

theorem pathName_mem {name : String}
    (h : name ∈ (planOf (parts.map (·.plan s)) further).pathNames) :
    name ∈ s.pathBindings := by
  simp only [QueryPlan.pathNames, planOf, List.mem_filterMap,
    List.mem_map] at h
  obtain ⟨plan, ⟨part, hpart, rfl⟩, hname⟩ := h
  exact Scope.mem_paths_of_mem_claims (List.mem_flatMap.mpr
    ⟨part, hpart, PartSyntax.path_mem_claims.mpr hname⟩) hclaims

/-- An end of a relationship has the label that the type of the relationship
requires of it. -/
theorem endLabelled_of_claim {name : String} {label : NodeLabel}
    {part : PartSyntax} (hpart : part ∈ parts)
    (hclaim : .node name (some label) ∈ part.claims) :
    (planOf (parts.map (·.plan s)) further).EndLabelled name label := by
  have hlabel : s.label name = some label := Scope.label_of_mem_claims
    (List.mem_flatMap.mpr ⟨part, hpart, hclaim⟩) hclaims
  refine ⟨?_, ?_⟩
  · obtain ⟨node, hnode, rfl⟩ :
        ∃ node ∈ (planOf (parts.map (·.plan s)) further).nodes,
          node.binding = name :=
      exists_node_planOf hpart (PartSyntax.node_mem_claims hclaim)
    exact List.mem_map_of_mem hnode
  · rintro node hnode rfl
    obtain ⟨-, -, -, hnodeLabel⟩ := mem_nodes_planOf hnode
    rw [hnodeLabel, hlabel]

/-- What the scope allows, the plan admits. -/
theorem admits_of_allows
    (hlabelled : ∀ part ∈ parts, ∀ name ∈ part.names, s.label name ≠ none)
    {property : PropertyRef} (h : s.Allows property) :
    (planOf (parts.map (·.plan s)) further).Admits property := by
  rcases h with ⟨hmem, hname⟩ | ⟨relationshipType, hlookup, hname⟩
  · left
    rcases Scope.mem_claims_of_mem_bindings hclaims hmem with
      hempty | ⟨label, hclaim⟩
    · exact absurd hempty Finmap.notMem_empty
    · obtain ⟨part, hpart, hclaim⟩ := List.mem_flatMap.mp hclaim
      have hnames := PartSyntax.node_mem_claims hclaim
      obtain ⟨node, hnode, hbinding⟩ :
          ∃ node ∈ (planOf (parts.map (·.plan s)) further).nodes,
            node.binding = property.binding :=
        exists_node_planOf hpart hnames
      obtain ⟨label', hlabel⟩ := Option.ne_none_iff_exists'.mp
        (hlabelled part hpart _ hnames)
      obtain ⟨-, -, -, hnodeLabel⟩ := mem_nodes_planOf hnode
      refine ⟨node, hnode, label', hbinding, ?_, hname label' hlabel⟩
      rw [hnodeLabel, hbinding, hlabel]
  · right
    rcases Scope.mem_claims_of_lookup hclaims hlookup with hempty | hclaim
    · cases hempty
    · obtain ⟨part, hpart, hclaim⟩ := List.mem_flatMap.mp hclaim
      obtain ⟨relationship, hmem, hbinding, rfl⟩ :=
        PartSyntax.relationship_mem_claims.mp hclaim
      exact ⟨relationship, mem_relationships_planOf.mpr ⟨part, hpart, hmem⟩,
        hbinding, hname⟩

end

/-- The plan of elaborated parts whose occurrences are all labelled is well
typed, with clauses that name what the scope allows. -/
theorem planOf_wellTyped {s : Scope} {parts : List PartSyntax}
    {further : FurtherClauses}
    (hclaims : Scope.empty.claims (parts.flatMap PartSyntax.claims) = some s)
    (hlabelled : ∀ part ∈ parts, ∀ name ∈ part.names, s.label name ≠ none)
    (hpredicates : ∀ predicate ∈ further.predicates,
      s.Allows predicate.property)
    (hcolumns : ∀ column ∈ further.projection.columns,
      Parser.ColumnAllowed s column)
    (hordering : ∀ item ∈ further.ordering,
      item.column ∈ further.projection.columns.map (·.name)) :
    (planOf (parts.map (·.plan s)) further).WellTyped where
  labelled := by
    intro node hnode
    obtain ⟨part, hpart, hname, hlabel⟩ := mem_nodes_planOf hnode
    rw [hlabel]
    exact hlabelled part hpart _ hname
  agreeing := by
    intro node hnode node' hnode' hsame
    obtain ⟨-, -, -, hlabel⟩ := mem_nodes_planOf hnode
    obtain ⟨-, -, -, hlabel'⟩ := mem_nodes_planOf hnode'
    rw [hlabel, hlabel', hsame]
  endpoints := by
    intro relationship hrelationship
    obtain ⟨part, hpart, hmem⟩ := mem_relationships_planOf.mp hrelationship
    obtain ⟨hfrom, hto⟩ := ends_mem_hopClaims hmem
    exact ⟨endLabelled_of_claim hclaims hpart (PartSyntax.hopClaims_subset hfrom),
      endLabelled_of_claim hclaims hpart (PartSyntax.hopClaims_subset hto)⟩
  nodesNotRelationships := by
    intro name hnode hrelationship
    have hseparate := Scope.separate_empty.claims hclaims
    exact (hseparate.nodes name (nodeName_mem_bindings hclaims hnode)).1
      (relationshipName_mem hclaims hrelationship)
  nodesNotPaths := by
    intro name hnode hpath
    have hseparate := Scope.separate_empty.claims hclaims
    exact (hseparate.nodes name (nodeName_mem_bindings hclaims hnode)).2
      (pathName_mem hclaims hpath)
  relationshipsNotPaths := by
    intro name hrelationship hpath
    have hseparate := Scope.separate_empty.claims hclaims
    exact hseparate.relationships name
      (relationshipName_mem hclaims hrelationship) (pathName_mem hclaims hpath)
  properties := by
    intro property hproperty
    apply admits_of_allows hclaims hlabelled
    rcases List.mem_append.mp hproperty with hwhere | hreturn
    · obtain ⟨predicate, hpredicate, rfl⟩ := List.mem_map.mp hwhere
      exact hpredicates predicate hpredicate
    · obtain ⟨column, hcolumn, hnamed⟩ := List.mem_flatMap.mp hreturn
      exact hcolumns column hcolumn property hnamed
  ordering := hordering

/-- Every plan that is accepted, under whatever limits, is well typed. -/
theorem parse_wellTyped {text : String} {limits : QueryLimits}
    {plan : QueryPlan} (h : parse text limits = .done plan) :
    plan.WellTyped := by
  obtain ⟨-, tokens, -, hquery⟩ := parse_eq_done_iff.mp h
  obtain ⟨q, hclauses⟩ := Parser.query_eq_done_iff.mp hquery
  obtain ⟨patterns, r, further, hmatch, hfurther, rfl⟩ :=
    Parser.accepts_clauses.mp hclauses
  obtain ⟨-, -, word, parts, rest, s, -, -, -, -, helaborates, hwithin, rfl⟩ :=
    (Parser.accepts_matchClause (p := .start tokens limits)
      Scope.separate_empty).mp hmatch
  obtain ⟨rfl, hlabelled⟩ := helaborates.plans_eq hwithin.anchored
  obtain ⟨-, hfound⟩ := Parser.finds_furtherClauses
    (Parser.goOn (.start tokens limits) rest s) rfl further q hfurther.1
  obtain ⟨-, hpredicates, hcolumns, hordering⟩ := hfound hfurther.2
  exact planOf_wellTyped helaborates.claims hlabelled hpredicates hcolumns
    hordering

/-- Two joined parts, with a property in each clause. -/
def joinedText : String :=
  "MATCH (a)-[c:CONTAINS]->(b), (b)-[:CONNECTED]-(d) WHERE c.order = $o " ++
    "RETURN b.title AS t, collect(a.state) AS s ORDER BY t"

theorem parse_wellTyped_joined :
    ∃ plan, parse joinedText default = .done plan ∧ plan.WellTyped := by
  have hchars : joinedText.toList = _ := String.toList_append.trans
    (congrArg₂ (· ++ ·) String.toList_ofList String.toList_ofList)
  have hdone : (parse joinedText default).isDone = true := by
    rw [parse, Lexer.tokenize, hchars]
    decide +kernel
  obtain ⟨plan, hplan⟩ := Reply.exists_of_isDone hdone
  exact ⟨plan, hplan, parse_wellTyped hplan⟩

end RelayerGraph.Query
