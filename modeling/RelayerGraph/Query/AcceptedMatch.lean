import RelayerGraph.Query.AcceptedPatterns

/-!
# The accepted MATCH clauses

The hops of a part give both their ends the labels of their type, and every
occurrence in the part of a node so labelled.  After each hop the occurrences
read so far carry the labels of the scope.
-/

namespace RelayerGraph.Query

open Foundation Reading

namespace Parser

variable {p q : Parser}

/-! ## Labels required by a hop -/

/-- The node with the required label, if it is an occurrence of the binding. -/
def relabel (binding : String) (required : NodeLabel) (node : NodePlan) :
    NodePlan :=
  if node.binding = binding then { node with label := some required }
  else node

theorem fits_some_iff {label : Option NodeLabel} {required : NodeLabel} :
    Scope.Fits label (some required) ↔
      ¬ label.any (· ≠ required) = true := by
  cases label with
  | none => simp [Scope.Fits]
  | some label => simp [Scope.Fits]

theorem accepts_constrainNode {binding : String} {required : NodeLabel}
    {node node' : NodePlan} :
    Accepts (constrainNode binding required node) p node' q ↔
      p.Clean ∧ (node.binding = binding → Scope.Fits node.label (some required)) ∧
        node' = relabel binding required node ∧ q = p := by
  unfold constrainNode relabel
  by_cases hsame : node.binding = binding
  · rw [if_pos hsame, if_pos hsame]
    by_cases hother : node.label.any (· ≠ required) = true
    · rw [if_pos hother]
      have hfits : ¬ Scope.Fits node.label (some required) := by
        rw [fits_some_iff]
        exact not_not_intro hother
      constructor
      · intro h
        obtain ⟨⟨⟩, r, hdefer, -⟩ := (accepts_bind fun _ => .pure _).mp h
        exact absurd hdefer accepts_deferPlanError
      · rintro ⟨-, hall, -⟩
        exact absurd (hall hsame) hfits
    · rw [if_neg hother, accepts_pure]
      have hfits := fits_some_iff.mpr hother
      constructor
      · rintro ⟨hclean, rfl, rfl⟩
        exact ⟨hclean, fun _ => hfits, rfl, rfl⟩
      · rintro ⟨hclean, -, rfl, rfl⟩
        exact ⟨hclean, rfl, rfl⟩
  · rw [if_neg hsame, if_neg hsame, accepts_pure]
    constructor
    · rintro ⟨hclean, rfl, rfl⟩
      exact ⟨hclean, fun h => absurd h hsame, rfl, rfl⟩
    · rintro ⟨hclean, -, rfl, rfl⟩
      exact ⟨hclean, rfl, rfl⟩

theorem accepts_constrainNodes {binding : String} {required : NodeLabel}
    {nodes nodes' : List NodePlan} :
    Accepts (constrainNodes binding required nodes) p nodes' q ↔
      p.Clean ∧
        (∀ node ∈ nodes, node.binding = binding →
          Scope.Fits node.label (some required)) ∧
        nodes' = nodes.map (relabel binding required) ∧ q = p := by
  induction nodes generalizing nodes' q with
  | nil =>
      rw [constrainNodes, accepts_pure]
      simp
  | cons node nodes ih =>
      rw [constrainNodes, accepts_bind fun _ =>
        (keeps_constrainNodes _ _ _).bind fun _ => .pure _]
      constructor
      · rintro ⟨first, r, hfirst, h⟩
        obtain ⟨hclean, hfits, rfl, rfl⟩ := accepts_constrainNode.mp hfirst
        obtain ⟨others, r', hothers, hlast⟩ :=
          (accepts_bind fun _ => .pure _).mp h
        obtain ⟨-, hall, rfl, rfl⟩ := ih.mp hothers
        obtain ⟨-, rfl, rfl⟩ := accepts_pure.mp hlast
        refine ⟨hclean, ?_, rfl, rfl⟩
        intro other hother
        rcases List.mem_cons.mp hother with rfl | hother
        · exact hfits
        · exact hall other hother
      · rintro ⟨hclean, hall, rfl, rfl⟩
        refine ⟨_, _, accepts_constrainNode.mpr
          ⟨hclean, hall node List.mem_cons_self, rfl, rfl⟩, ?_⟩
        refine (accepts_bind fun _ => .pure _).mpr ⟨_, _, ih.mpr
          ⟨hclean, ?_, rfl, rfl⟩, accepts_pure.mpr ⟨hclean, rfl, rfl⟩⟩
        intro other hother
        exact hall other (List.mem_cons_of_mem _ hother)

/-- What a label given to a node adds to the scope. -/
theorem add_node_of_fits {s : Scope} {binding : String}
    {required : NodeLabel} (h : Scope.Fits (s.label binding) (some required)) :
    s.add (.node binding (some required)) =
      { s with bindings := s.bindings.insert binding (some required) } := by
  have hor : (s.label binding).or (some required) = some required := by
    rcases h with h | h | h <;> simp_all
  simp only [Scope.add, hor]

theorem accepts_constrainBinding {binding : String} {required : NodeLabel} :
    Accepts (constrainBinding binding required) p () q ↔
      p.Clean ∧ Scope.Fits (p.scope.label binding) (some required) ∧
        q = p.goOn p.rest (p.scope.add (.node binding (some required))) := by
  unfold constrainBinding
  rw [accepts_get_bind, fits_some_iff]
  by_cases hother : (p.scope.label binding).any (· ≠ required) = true
  · have hcode : (p.bindings.lookup binding).join.any (· ≠ required) = true :=
      hother
    rw [if_pos hcode]
    constructor
    · intro h
      exact absurd h accepts_deferPlanError
    · rintro ⟨-, hfits, -⟩
      exact absurd hother hfits
  · have hcode : ¬ (p.bindings.lookup binding).join.any (· ≠ required) = true :=
      hother
    rw [if_neg hcode, accepts_modify,
      add_node_of_fits (fits_some_iff.mpr hother)]
    constructor
    · rintro ⟨hclean, rfl⟩
      exact ⟨hclean, hother, rfl⟩
    · rintro ⟨hclean, -, rfl⟩
      exact ⟨hclean, rfl⟩

theorem accepts_constrainNodeLabel {binding : String} {required : NodeLabel}
    {nodes nodes' : List NodePlan} :
    Accepts (constrainNodeLabel nodes binding required) p nodes' q ↔
      p.Clean ∧ Scope.Fits (p.scope.label binding) (some required) ∧
        (∀ node ∈ nodes, node.binding = binding →
          Scope.Fits node.label (some required)) ∧
        nodes' = nodes.map (relabel binding required) ∧
        q = p.goOn p.rest (p.scope.add (.node binding (some required))) := by
  unfold constrainNodeLabel
  rw [accepts_bind fun _ => keeps_constrainNodes _ _ _]
  constructor
  · rintro ⟨⟨⟩, r, hbinding, h⟩
    obtain ⟨hclean, hfits, rfl⟩ := accepts_constrainBinding.mp hbinding
    obtain ⟨-, hall, rfl, rfl⟩ := accepts_constrainNodes.mp h
    exact ⟨hclean, hfits, hall, rfl, rfl⟩
  · rintro ⟨hclean, hfits, hall, rfl, rfl⟩
    exact ⟨(), _, accepts_constrainBinding.mpr ⟨hclean, hfits, rfl⟩,
      accepts_constrainNodes.mpr ⟨hclean, hall, rfl, rfl⟩⟩

/-! ## The target of a hop -/

/-- An occurrence has the label of the scope, or none yet. -/
def Below (s : Scope) (node : NodePlan) : Prop :=
  node.label = none ∨ node.label = s.label node.binding

theorem Below.add {s : Scope} {c : Claim} {node : NodePlan}
    (h : Below s node) : Below (s.add c) node := by
  cases hlabel : node.label with
  | none => exact .inl hlabel
  | some label =>
      right
      rcases h with hnone | hsome
      · rw [hnone] at hlabel
        cases hlabel
      · rw [hlabel, Scope.label_add (hsome.symm.trans hlabel)]

theorem Below.fits {s : Scope} {node : NodePlan} {required : NodeLabel}
    (h : Below s node)
    (hfits : Scope.Fits (s.label node.binding) (some required)) :
    Scope.Fits node.label (some required) := by
  rcases h with hnone | hsome
  · exact .inl hnone
  · rwa [hsome]

section

variable {s : Scope} {binding : String} {required : NodeLabel}

theorem label_add_required
    (hfits : Scope.Fits (s.label binding) (some required)) :
    (s.add (.node binding (some required))).label binding =
      some required := by
  rw [Scope.label_add_node_self]
  rcases hfits with h | h | h <;> simp_all

theorem Below.relabel {node : NodePlan} (h : Below s node)
    (hfits : Scope.Fits (s.label binding) (some required)) :
    Below (s.add (.node binding (some required)))
      (relabel binding required node) := by
  unfold Parser.relabel
  by_cases hsame : node.binding = binding
  · subst hsame
    rw [if_pos rfl]
    exact .inr (label_add_required hfits).symm
  · rw [if_neg hsame]
    exact h.add

end

/-- Relabelling the two ends of a hop gives an occurrence the label of the
scope that the hop leads to. -/
theorem relabel_ends {s : Scope} {first second : String}
    {labels : NodeLabel × NodeLabel} {node : NodePlan}
    (hfirst : Scope.Fits (s.label first) (some labels.1))
    (hsecond : Scope.Fits
      ((s.add (.node first (some labels.1))).label second) (some labels.2))
    (hother : node.binding ≠ first → node.binding ≠ second →
      node.label = s.label node.binding) :
    relabel second labels.2 (relabel first labels.1 node) =
      ⟨node.binding,
        ((s.add (.node first (some labels.1))).add
          (.node second (some labels.2))).label node.binding,
        node.occurrence⟩ := by
  obtain ⟨name, label, occurrence⟩ := node
  by_cases hname : name = second
  · subst hname
    rw [label_add_required hsecond]
    unfold relabel
    split <;> simp
  · rw [Scope.label_add_node_of_ne _ _ _ _ hname]
    by_cases hname' : name = first
    · subst hname'
      rw [label_add_required hfirst]
      simp [relabel, hname]
    · rw [Scope.label_add_node_of_ne _ _ _ _ hname']
      simpa [relabel, hname, hname'] using hother hname' hname

theorem hopEnds_cases (direction : Direction) (last target : String) :
    hopEnds direction last target = (last, target) ∨
      hopEnds direction last target = (target, last) := by
  cases direction with
  | incoming => exact .inr rfl
  | outgoing => exact .inl rfl
  | undirected => exact .inl rfl

theorem ends_mem {direction : Direction} {last target : String}
    {s : Scope} (hlast : last ∈ s.bindings) (htarget : target ∈ s.bindings) :
    (hopEnds direction last target).1 ∈ s.bindings ∧
      (hopEnds direction last target).2 ∈ s.bindings := by
  rcases hopEnds_cases direction last target with h | h
  · rw [h]
    exact ⟨hlast, htarget⟩
  · rw [h]
    exact ⟨htarget, hlast⟩

section

variable {s : Scope} {names : List String} {syn : NodeSyntax}
  {last : String} {direction : Direction} {labels : NodeLabel × NodeLabel}

/-- The occurrences of a part with the target of a further hop. -/
def withTarget (s : Scope) (names : List String) (syn : NodeSyntax) :
    List NodePlan :=
  occurrences s 0 names ++ [NodePlan.mk syn.binding
    ((s.add syn.claim).label syn.binding) (occurrences s 0 names).length]

theorem below_of_mem_withTarget {node : NodePlan}
    (h : node ∈ withTarget s names syn) : Below (s.add syn.claim) node := by
  rcases List.mem_append.mp h with hold | hnew
  · exact Below.add (.inr (mem_occurrences hold).2)
  · obtain rfl := List.mem_singleton.mp hnew
    exact .inr rfl

/-- Once its ends are relabelled, the occurrences have the labels of the scope
that the hop leads to. -/
theorem relabel_withTarget
    (hfirst : Scope.Fits ((s.add syn.claim).label
      (hopEnds direction last syn.binding).1) (some labels.1))
    (hsecond : Scope.Fits (((s.add syn.claim).add
      (.node (hopEnds direction last syn.binding).1 (some labels.1))).label
        (hopEnds direction last syn.binding).2) (some labels.2)) :
    ((withTarget s names syn).map
      (relabel (hopEnds direction last syn.binding).1 labels.1)).map
      (relabel (hopEnds direction last syn.binding).2 labels.2) =
    occurrences (((s.add syn.claim).add
      (.node (hopEnds direction last syn.binding).1 (some labels.1))).add
      (.node (hopEnds direction last syn.binding).2 (some labels.2))) 0
        (names ++ [syn.binding]) := by
  rw [withTarget, List.map_map, List.map_append, occurrences_append,
    length_occurrences, Nat.zero_add]
  congr 1
  · apply map_occurrences
    intro name _ occurrence
    apply relabel_ends hfirst hsecond
    intro hne hne'
    have hother : name ≠ syn.binding := by
      rcases hopEnds_cases direction last syn.binding with h | h
      · rw [h] at hne'
        exact hne'
      · rw [h] at hne
        exact hne
    exact (Scope.label_add_node_of_ne _ _ _ _ hother).symm
  · simp only [List.map_cons, List.map_nil, occurrences]
    congr 1
    exact relabel_ends hfirst hsecond fun _ _ => rfl

/-- The claims of a target and of the two ends of its hop. -/
theorem claims_target (hsep : s.Separate) (hlast : last ∈ s.bindings)
    {t : Scope} :
    s.claims [syn.claim,
        .node (hopEnds direction last syn.binding).1 (some labels.1),
        .node (hopEnds direction last syn.binding).2 (some labels.2)] =
      some t ↔
    s.Admits syn.claim ∧
      Scope.Fits ((s.add syn.claim).label
        (hopEnds direction last syn.binding).1) (some labels.1) ∧
      Scope.Fits (((s.add syn.claim).add
        (.node (hopEnds direction last syn.binding).1 (some labels.1))).label
          (hopEnds direction last syn.binding).2) (some labels.2) ∧
      t = ((s.add syn.claim).add
        (.node (hopEnds direction last syn.binding).1 (some labels.1))).add
        (.node (hopEnds direction last syn.binding).2 (some labels.2)) := by
  rw [Scope.claims_cons_eq_some_iff, Scope.claims_cons_eq_some_iff,
    Scope.claims_cons_eq_some_iff]
  constructor
  · rintro ⟨hadmits, hadmits', hadmits'', hlist⟩
    exact ⟨hadmits, hadmits'.2.2, hadmits''.2.2, (Option.some.inj hlist).symm⟩
  · rintro ⟨hadmits, hfirst, hsecond, rfl⟩
    have htarget : syn.binding ∈ (s.add syn.claim).bindings :=
      (Scope.mem_bindings_add_node ..).mpr (.inl rfl)
    obtain ⟨hmem, hmem'⟩ := @ends_mem direction last syn.binding _
      (Scope.mem_bindings_add hlast) htarget
    have hsep' := hsep.add hadmits
    have hadmits' := (hsep'.admits_node_iff hmem).mpr hfirst
    have hadmits'' := ((hsep'.add hadmits').admits_node_iff
      (Scope.mem_bindings_add hmem')).mpr hsecond
    exact ⟨hadmits, hadmits', hadmits'', rfl⟩

end

/-- The target of a hop and the labels of its two ends, as claims. -/
theorem accepts_target {β : Type} (names : List String) {last : String}
    (direction : Direction) (labels : NodeLabel × NodeLabel)
    {k : String → List NodePlan → Parsing β} {b : β}
    (hk : ∀ target nodes, Keeps (k target nodes)) (hsep : p.scope.Separate)
    (hlast : last ∈ p.scope.bindings) :
    Accepts (do
      let target ← nodePattern (occurrences p.scope 0 names).length
      let nodes ← constrainNodeLabel (occurrences p.scope 0 names ++ [target])
        (hopEnds direction last target.binding).1 labels.1
      let nodes ← constrainNodeLabel nodes
        (hopEnds direction last target.binding).2 labels.2
      k target.binding nodes) p b q ↔
    p.Clean ∧ ∃ (syn : NodeSyntax) (rest : List Token) (s : Scope),
      p.rest = syn.tokens ++ rest ∧ syn.Known ∧
        p.scope.claims [syn.claim,
          .node (hopEnds direction last syn.binding).1 (some labels.1),
          .node (hopEnds direction last syn.binding).2 (some labels.2)] =
            some s ∧
        Accepts (k syn.binding (occurrences s 0 (names ++ [syn.binding])))
          (p.goOn rest s) b q := by
  have hkeeps (binding : String) (nodes : List NodePlan) : Keeps (do
      let nodes ← constrainNodeLabel nodes
        (hopEnds direction last binding).2 labels.2
      k binding nodes) :=
    (keeps_constrainNodeLabel _ _ _).bind fun nodes => hk binding nodes
  rw [accepts_bind (by
    intro target
    exact (keeps_constrainNodeLabel _ _ _).bind fun nodes =>
      hkeeps target.binding nodes)]
  constructor
  · rintro ⟨target, r, htarget, h⟩
    obtain ⟨hclean, syn, rest, hrest, hknown, hadmits, rfl, rfl⟩ :=
      accepts_nodePattern.mp htarget
    obtain ⟨nodes, r, hconstrain, h⟩ := (accepts_bind (hkeeps _)).mp h
    obtain ⟨-, hfirst, -, rfl, rfl⟩ := accepts_constrainNodeLabel.mp hconstrain
    obtain ⟨nodes, r, hconstrain, h⟩ := (accepts_bind (hk _)).mp h
    obtain ⟨-, hsecond, -, rfl, rfl⟩ :=
      accepts_constrainNodeLabel.mp hconstrain
    refine ⟨hclean, syn, rest, _, hrest, hknown,
      (claims_target hsep hlast).mpr ⟨hadmits, hfirst, hsecond, rfl⟩, ?_⟩
    rw [← relabel_withTarget hfirst hsecond]
    exact h
  · rintro ⟨hclean, syn, rest, s, hrest, hknown, hclaims, h⟩
    obtain ⟨hadmits, hfirst, hsecond, rfl⟩ :=
      (claims_target hsep hlast).mp hclaims
    refine ⟨_, _, accepts_nodePattern.mpr
      ⟨hclean, syn, rest, hrest, hknown, hadmits, rfl, rfl⟩, ?_⟩
    refine (accepts_bind (hkeeps _)).mpr ⟨_, _,
      accepts_constrainNodeLabel.mpr ⟨hclean, hfirst, ?_, rfl, rfl⟩, ?_⟩
    · intro node hnode hname
      have hbelow : Below (p.scope.add syn.claim) node :=
        below_of_mem_withTarget hnode
      exact hbelow.fits (by rw [hname]; exact hfirst)
    · refine (accepts_bind (hk _)).mpr ⟨_, _,
        accepts_constrainNodeLabel.mpr ⟨hclean, hsecond, ?_, rfl, rfl⟩, ?_⟩
      · intro node hnode hname
        obtain ⟨node', hnode', rfl⟩ := List.mem_map.mp hnode
        have hbelow : Below (p.scope.add syn.claim) node' :=
          below_of_mem_withTarget hnode'
        exact (hbelow.relabel hfirst).fits (by rw [hname]; exact hsecond)
      · rw [← relabel_withTarget hfirst hsecond] at h
        exact h

/-! ## Hops -/

/-- A part goes on with one more hop, or it ends. -/
theorem accepts_hops_succ {fuel : ℕ} {names : List String} {last : String}
    {relationships : List RelationshipPlan}
    {result : List NodePlan × List RelationshipPlan}
    (hsep : p.scope.Separate) (hlast : last ∈ p.scope.bindings) :
    Accepts (hops (fuel + 1) (occurrences p.scope 0 names) last relationships)
        p result q ↔
      p.Clean ∧
        ((¬ StartsHop p.rest ∧
          result = (occurrences p.scope 0 names, relationships) ∧ q = p) ∨
        ∃ (hop : HopSyntax) (rest : List Token) (s : Scope),
          p.rest = hop.tokens ++ rest ∧ hop.Known ∧
            p.scope.claims (hop.claims last) = some s ∧
            Accepts (hops fuel
              (occurrences s 0 (names ++ [hop.target.binding]))
              hop.target.binding (relationships ++ [hop.plan last]))
                (p.goOn rest s) result q) := by
  rw [hops, accepts_bind (by
    intro relationship
    rcases relationship with _ | ⟨binding, direction, type⟩
    · exact .pure _
    · refine (keeps_nodePattern _).bind fun target => ?_
      refine (keeps_constrainNodeLabel _ _ _).bind fun nodes => ?_
      refine (keeps_constrainNodeLabel _ _ _).bind fun nodes => ?_
      exact keeps_hops _ _ _ _)]
  have htarget (syn : RelationshipSyntax) (rest : List Token) (s : Scope)
      (hclaims : p.scope.claims syn.claims = some s) :=
    accepts_target (p := p.goOn rest s) (q := q) (b := result) names
      syn.direction (endpointLabels syn.relationshipType) (k := fun target nodes => hops fuel nodes target (relationships ++
        [RelationshipPlan.mk syn.binding syn.relationshipType syn.direction
          (hopEnds syn.direction last target).1
          (hopEnds syn.direction last target).2]))
      (fun _ _ => keeps_hops _ _ _ _) (hsep.claims hclaims)
      (Scope.mem_bindings_claims hlast hclaims)
  have hlabels (syn : RelationshipSyntax) (s : Scope)
      (hclaims : p.scope.claims syn.claims = some s) :
      occurrences p.scope 0 names = occurrences s 0 names :=
    occurrences_congr fun name _ => (syn.label_claims hclaims name).symm
  constructor
  · rintro ⟨relationship, r, hrelationship, h⟩
    rcases relationship with _ | ⟨binding, direction, type⟩
    · obtain ⟨hclean, hend, rfl⟩ :=
        accepts_relationshipPattern_none.mp hrelationship
      obtain ⟨-, rfl, rfl⟩ := accepts_pure.mp h
      exact ⟨hclean, .inl ⟨hend, rfl, rfl⟩⟩
    · obtain ⟨hclean, syn, rest, s, hrest, hknown, hclaims, rfl, rfl, rfl,
        rfl⟩ := accepts_relationshipPattern.mp hrelationship
      rw [hlabels syn s hclaims] at h
      obtain ⟨-, target, rest', s', hrest', hknown', hclaims', h⟩ :=
        (htarget syn rest s hclaims).mp h
      refine ⟨hclean, .inr ⟨⟨syn, target⟩, rest', s', ?_, ⟨hknown, hknown'⟩,
        ?_, h⟩⟩
      · simp only [goOn_rest] at hrest'
        simp [HopSyntax.tokens, hrest, hrest']
      · rw [HopSyntax.claims, Scope.claims_append, hclaims]
        exact hclaims'
  · rintro ⟨hclean, ⟨hend, rfl, rfl⟩ | ⟨⟨syn, target⟩, rest, s, hrest,
      ⟨hknown, hknown'⟩, hclaims, h⟩⟩
    · exact ⟨none, q, accepts_relationshipPattern_none.mpr
        ⟨hclean, hend, rfl⟩, accepts_pure.mpr ⟨hclean, rfl, rfl⟩⟩
    · rw [HopSyntax.claims, Scope.claims_append] at hclaims
      obtain ⟨s₁, hclaims₁, hclaims⟩ := Option.bind_eq_some_iff.mp hclaims
      refine ⟨some (syn.binding, syn.direction, syn.relationshipType),
        p.goOn (target.tokens ++ rest) s₁, accepts_relationshipPattern.mpr
          ⟨hclean, syn, _, s₁, ?_, hknown, hclaims₁, rfl, rfl, rfl, rfl⟩, ?_⟩
      · rw [hrest, HopSyntax.tokens, List.append_assoc]
      · rw [hlabels syn s₁ hclaims₁]
        exact (htarget syn _ s₁ hclaims₁).mpr
          ⟨hclean, target, rest, s, rfl, hknown', hclaims, h⟩

/-- Hops are accepted when they are written in the grammar and their claims fit
the scope; the occurrences of the part then have its labels. -/
theorem accepts_hops {fuel : ℕ} (names : List String) {last : String}
    {relationships relationships' : List RelationshipPlan}
    {nodes : List NodePlan} (hsep : p.scope.Separate)
    (hlast : last ∈ p.scope.bindings) :
    Accepts (hops fuel (occurrences p.scope 0 names) last relationships) p
        (nodes, relationships') q ↔
      p.Clean ∧ ∃ (syns : List HopSyntax) (rest : List Token) (s : Scope),
        syns.length < fuel ∧
          p.rest = syns.flatMap HopSyntax.tokens ++ rest ∧
          ¬ StartsHop rest ∧ (∀ hop ∈ syns, hop.Known) ∧
          p.scope.claims (hopClaims last syns) = some s ∧
          q = p.goOn rest s ∧
          nodes = occurrences s 0 (names ++ syns.map (·.target.binding)) ∧
          relationships' = relationships ++ hopPlans last syns := by
  induction fuel generalizing p names last relationships with
  | zero =>
      constructor
      · rintro ⟨hrun, -⟩
        cases hrun
      · rintro ⟨-, syns, rest, s, hlength, -⟩
        exact absurd hlength (Nat.not_lt_zero _)
  | succ fuel ih =>
      rw [accepts_hops_succ hsep hlast]
      constructor
      · rintro ⟨hclean, ⟨hend, hresult, rfl⟩ | ⟨hop, rest, s, hrest, hknown,
          hclaims, h⟩⟩
        · injection hresult with hnodes hrelationships
          refine ⟨hclean, [], q.rest, q.scope, Nat.succ_pos _, rfl, hend,
            by simp, rfl, rfl, ?_, ?_⟩
          · simpa using hnodes
          · simpa [hopPlans] using hrelationships
        · obtain ⟨-, syns, rest', s', hlength, hrest', hend, hall, hclaims',
            rfl, rfl, rfl⟩ := (ih (p := p.goOn rest s) _ (hsep.claims hclaims)
              (HopSyntax.mem_bindings_target hclaims)).mp h
          refine ⟨hclean, hop :: syns, rest', s', Nat.succ_lt_succ hlength,
            ?_, hend, ?_, ?_, rfl, ?_, ?_⟩
          · simp only [goOn_rest] at hrest'
            simp [hrest, hrest']
          · exact List.forall_mem_cons.mpr ⟨hknown, hall⟩
          · rw [hopClaims, Scope.claims_append, hclaims]
            exact hclaims'
          · simp
          · simp [hopPlans]
      · rintro ⟨hclean, syns, rest, s, hlength, hrest, hend, hall, hclaims, rfl,
          rfl, rfl⟩
        refine ⟨hclean, ?_⟩
        cases syns with
        | nil =>
            obtain rfl := Option.some.inj hclaims
            have hstart : p.rest = rest := hrest
            refine .inl ⟨by rwa [hstart], by simp [hopPlans], ?_⟩
            rw [← hstart, goOn_self]
        | cons hop syns =>
            rw [hopClaims, Scope.claims_append] at hclaims
            obtain ⟨s', hhop, hclaims⟩ := Option.bind_eq_some_iff.mp hclaims
            refine .inr ⟨hop, syns.flatMap HopSyntax.tokens ++ rest, s', ?_,
              hall _ List.mem_cons_self, hhop, ?_⟩
            · rw [hrest, List.flatMap_cons, List.append_assoc]
            · refine (ih (p := p.goOn _ s') _ (hsep.claims hhop)
                (HopSyntax.mem_bindings_target hhop)).mpr
                  ⟨hclean, syns, rest, s, Nat.lt_of_succ_lt_succ hlength, rfl,
                    hend, ?_, hclaims, rfl, ?_, ?_⟩
              · intro hop hhop
                exact hall hop (List.mem_cons_of_mem _ hhop)
              · simp
              · simp [hopPlans]

/-! ## Parts -/

theorem accepts_pathName {path : Option String} :
    Accepts pathName p path q ↔
      p.Clean ∧
        ((∃ word rest, p.rest = .word word :: .symbol "=" :: rest ∧
          path = some word ∧ q = p.goOn rest p.scope) ∨
        ((∀ word rest, p.rest ≠ .word word :: .symbol "=" :: rest) ∧
          path = none ∧ q = p)) := by
  unfold pathName
  rw [accepts_get_bind]
  split
  · rename_i word rest hrest
    constructor
    · rintro ⟨hrun, hclean⟩
      obtain ⟨rfl, rfl⟩ : some word = path ∧ p.goOn rest p.scope = q := by
        simpa [advance, bind, hrest, goOn, scope] using hrun
      exact ⟨hclean, .inl ⟨word, rest, hrest, rfl, rfl⟩⟩
    · rintro ⟨hclean, ⟨word', rest', hrest', rfl, rfl⟩ | ⟨hno, -⟩⟩
      · rw [hrest] at hrest'
        simp only [List.cons.injEq, Token.word.injEq, true_and] at hrest'
        obtain ⟨rfl, rfl⟩ := hrest'
        refine ⟨?_, hclean⟩
        simp [advance, bind, hrest, goOn, scope]
      · exact absurd hrest (hno word rest)
  · rename_i hno
    rw [accepts_pure]
    constructor
    · rintro ⟨hclean, rfl, rfl⟩
      exact ⟨hclean, .inr ⟨fun word rest => hno word rest, rfl, rfl⟩⟩
    · rintro ⟨hclean, ⟨word, rest, hrest, -⟩ | ⟨-, rfl, rfl⟩⟩
      · exact absurd hrest (hno word rest)
      · exact ⟨hclean, rfl, rfl⟩

theorem accepts_pathTokens {path : Option String}
    (h : Accepts pathName p path q) :
    p.Clean ∧ ∃ rest, p.rest =
      (path.elim [] fun path => [Token.word path, .symbol "="]) ++ rest ∧
        q = p.goOn rest p.scope := by
  obtain ⟨hclean, ⟨word, rest, hrest, rfl, rfl⟩ | ⟨-, rfl, rfl⟩⟩ :=
    accepts_pathName.mp h
  · exact ⟨hclean, rest, hrest, rfl⟩
  · exact ⟨hclean, q.rest, rfl, rfl⟩

theorem accepts_bindPath {relationships : List RelationshipPlan}
    {path : Option String} :
    Accepts (bindPath relationships path) p () q ↔
      p.Clean ∧ (path ≠ none → relationships ≠ []) ∧
        ∃ s, p.scope.claims (path.elim [] fun path => [.path path]) = some s ∧
          q = p.goOn p.rest s := by
  cases path with
  | none =>
      constructor
      · intro h
        obtain ⟨hclean, -, rfl⟩ := accepts_pure.mp h
        exact ⟨hclean, by simp, _, rfl, rfl⟩
      · rintro ⟨hclean, -, s, hclaims, rfl⟩
        obtain rfl := Option.some.inj hclaims
        exact accepts_pure.mpr ⟨hclean, rfl, rfl⟩
  | some path =>
      have hkeeps : Keeps (do
          let p ← get
          if bindingIsBound p path then
            deferPlanError (.new .queryTypeMismatch "query.match"
              s!"path binding `{path}` collides with another MATCH binding")
          else
            modify fun q =>
              { q with pathBindings := insert path q.pathBindings }) := by
        refine .getBind fun p => ?_
        exact .ite (keeps_deferPlanError _ _) (.modify fun _ => id)
      have hclaim : p.scope.claims [.path path] =
          p.scope.claim (.path path) := by
        simp
      simp only [Option.elim_some, hclaim, Scope.claim_eq_some_iff]
      constructor
      · intro h
        obtain ⟨hhops, h⟩ := (accepts_deferWhen_bind hkeeps).mp h
        rw [accepts_get_bind] at h
        by_cases hbound : bindingIsBound p path = true
        · rw [if_pos hbound] at h
          exact absurd h accepts_deferPlanError
        · rw [if_neg hbound] at h
          obtain ⟨hclean, rfl⟩ := accepts_modify.mp h
          exact ⟨hclean, fun _ => hhops, _,
            ⟨mt bindingIsBound_iff.mpr hbound, rfl⟩, rfl⟩
      · rintro ⟨hclean, hhops, s, ⟨hadmits, rfl⟩, rfl⟩
        have hbound : ¬ bindingIsBound p path = true :=
          mt bindingIsBound_iff.mp hadmits
        refine (accepts_deferWhen_bind hkeeps).mpr ⟨hhops (by simp), ?_⟩
        rw [accepts_get_bind, if_neg hbound]
        exact accepts_modify.mpr ⟨hclean, rfl⟩

theorem hopPlans_eq_nil_iff {last : String} {syns : List HopSyntax} :
    hopPlans last syns = [] ↔ syns = [] := by
  cases syns <;> simp [hopPlans]

/-- A part is accepted when it is written in the grammar and its claims fit the
scope. -/
theorem accepts_patternPart {plan : PatternPart} (hsep : p.scope.Separate) :
    Accepts patternPart p plan q ↔
      p.Clean ∧ ∃ (part : PartSyntax) (rest : List Token) (s : Scope),
        p.rest = part.tokens ++ rest ∧ ¬ StartsHop rest ∧ part.Known ∧
          p.scope.claims part.claims = some s ∧ q = p.goOn rest s ∧
          plan = part.plan s := by
  have hafter (path : Option String)
      (result : List NodePlan × List RelationshipPlan) : Keeps (do
        bindPath result.2 path
        return PatternPart.mk path result.1 result.2) :=
    (keeps_bindPath _ _).bind fun _ => .pure _
  have hfirst (path : Option String) (first : NodePlan) : Keeps (do
      let p ← get
      let result ← hops (p.rest.length + 1) [first] first.binding []
      bindPath result.2 path
      return PatternPart.mk path result.1 result.2) :=
    .getBind fun p => (keeps_hops _ _ _ _).bind (hafter path)
  unfold patternPart
  rw [accepts_bind fun path =>
    (keeps_nodePattern 0).bind fun first => hfirst path first]
  constructor
  · rintro ⟨path, r, hname, h⟩
    obtain ⟨first, r', hnode, h⟩ := (accepts_bind (hfirst path)).mp h
    obtain ⟨⟨nodes, relationships⟩, r'', hhops, h⟩ :=
      (accepts_bind (hafter path)).mp (accepts_get_bind.mp h)
    obtain ⟨⟨⟩, r₃, hbind, h⟩ := (accepts_bind fun _ => .pure _).mp h
    obtain ⟨-, rfl, rfl⟩ := accepts_pure.mp h
    obtain ⟨hclean, rest₁, hrest₁, rfl⟩ := accepts_pathTokens hname
    obtain ⟨-, syn, rest₂, hrest₂, hknown, hadmits, rfl, rfl⟩ :=
      accepts_nodePattern.mp hnode
    have hmem : syn.binding ∈ (p.scope.add syn.claim).bindings :=
      (Scope.mem_bindings_add_node ..).mpr (.inl rfl)
    obtain ⟨-, syns, rest, s, -, hrest, hend, hall, hclaims, rfl, rfl, rfl⟩ :=
      (accepts_hops (p := p.goOn rest₂ (p.scope.add syn.claim)) [syn.binding]
        (hsep.add hadmits) hmem).mp hhops
    obtain ⟨-, hpath, t, hclaims', rfl⟩ := accepts_bindPath.mp hbind
    have hpart : p.scope.claims (PartSyntax.claims ⟨path, syn, syns⟩) =
        some t := by
      rw [PartSyntax.claims_eq_some_iff]
      exact ⟨hadmits, s, hclaims, hclaims'⟩
    refine ⟨hclean, ⟨path, syn, syns⟩, rest, t, ?_, hend, ⟨hknown, hall, ?_⟩,
      hpart, rfl, ?_⟩
    · simp only [goOn_rest] at hrest hrest₂
      simp [PartSyntax.tokens, hrest₁, hrest₂, hrest]
    · intro hsome hnil
      exact hpath hsome (hopPlans_eq_nil_iff.mpr hnil)
    · exact @PartSyntax.plan_eq ⟨path, syn, syns⟩ s t hclaims'
  · rintro ⟨hclean, ⟨path, syn, syns⟩, rest, t, hrest, hend,
      ⟨hknown, hall, hpath⟩, hclaims, rfl, rfl⟩
    obtain ⟨hadmits, s, hclaims, hclaims'⟩ :=
      PartSyntax.claims_eq_some_iff.mp hclaims
    have hmem : syn.binding ∈ (p.scope.add syn.claim).bindings :=
      (Scope.mem_bindings_add_node ..).mpr (.inl rfl)
    have hname : Accepts pathName p path
        (p.goOn (syn.tokens ++ (syns.flatMap HopSyntax.tokens ++ rest))
          p.scope) := by
      refine accepts_pathName.mpr ⟨hclean, ?_⟩
      cases path with
      | none =>
          refine .inr ⟨?_, rfl, ?_⟩
          · intro word rest' hword
            rw [hrest] at hword
            cases hword
          · rw [← List.append_assoc, ← goOn_self p, hrest]
            rfl
      | some word =>
          refine .inl ⟨word, _, ?_, rfl, rfl⟩
          simp [hrest, PartSyntax.tokens]
    refine ⟨path, _, hname, ?_⟩
    refine (accepts_bind (hfirst path)).mpr ⟨_, _, accepts_nodePattern.mpr
      ⟨hclean, syn, _, rfl, hknown, hadmits, rfl, rfl⟩, ?_⟩
    have hhops : Accepts
        (hops ((syns.flatMap HopSyntax.tokens ++ rest).length + 1)
          (occurrences (p.scope.add syn.claim) 0 [syn.binding]) syn.binding [])
        (p.goOn (syns.flatMap HopSyntax.tokens ++ rest)
          (p.scope.add syn.claim))
        (occurrences s 0 ([syn.binding] ++ syns.map (·.target.binding)),
          [] ++ hopPlans syn.binding syns) (p.goOn rest s) :=
      (accepts_hops (p := p.goOn _ (p.scope.add syn.claim)) [syn.binding]
        (hsep.add hadmits) hmem).mpr ⟨hclean, syns, rest, s,
          Nat.lt_succ_of_le (length_le_length_append syns rest), rfl, hend,
          hall, hclaims, rfl, rfl, rfl⟩
    refine accepts_get_bind.mpr ((accepts_bind (hafter path)).mpr
      ⟨_, _, hhops, ?_⟩)
    refine (accepts_bind fun _ => .pure _).mpr ⟨(), p.goOn rest t,
      accepts_bindPath.mpr ⟨hclean, ?_, t, hclaims', rfl⟩, ?_⟩
    · intro hsome hnil
      exact hpath hsome (hopPlans_eq_nil_iff.mp hnil)
    · exact accepts_pure.mpr
        ⟨hclean, (@PartSyntax.plan_eq ⟨path, syn, syns⟩ s t hclaims').symm, rfl⟩

end Parser

end RelayerGraph.Query
