import RelayerGraph.Query.Acceptance

/-!
# The accepted MATCH clauses

Pattern parts are accepted exactly when they are written in the grammar, their
labels and types are in the schema, and the claims they make fit the names
bound before them.
-/

namespace RelayerGraph.Query

open Foundation Reading

namespace Parser

/-! ## Accepted nodes -/

section

variable {p q : Parser}

theorem accepts_nodeLabel {occurrence : ℕ} {binding : String}
    {label : Option NodeLabel} :
    Accepts (nodeLabel occurrence binding) p label q ↔
      p.Clean ∧
        ((∃ name rest, p.rest = .symbol ":" :: .word name :: rest ∧
          NodeLabel.parse name ≠ none ∧ label = NodeLabel.parse name ∧
            q = p.goOn rest p.scope) ∨
        (p.rest.head? ≠ some (.symbol ":") ∧ label = none ∧ q = p)) := by
  unfold nodeLabel
  rw [accepts_eatSymbol_bind]
  constructor
  · rintro (⟨rest, hrest, hlabel⟩ | ⟨hhead, hlabel⟩)
    · rw [if_pos rfl, accepts_peek_bind] at hlabel
      split at hlabel
      · exact absurd hlabel accepts_fail
      · rw [accepts_identifier_bind] at hlabel
        obtain ⟨name, rest', hrest', hlabel⟩ := hlabel
        obtain ⟨hknown, hlabel⟩ := (accepts_deferWhen_bind
          (by exact .pure _)).mp (accepts_get_bind.mp hlabel)
        obtain ⟨hclean, rfl, rfl⟩ := accepts_pure.mp hlabel
        obtain ⟨l, hl⟩ := Option.ne_none_iff_exists'.mp hknown
        refine ⟨hclean, .inl ⟨name, rest', ?_, hknown, ?_, rfl⟩⟩
        · rw [hrest]
          exact congrArg _ hrest'
        · simp [hl]
    · obtain ⟨hclean, rfl, rfl⟩ := accepts_pure.mp hlabel
      exact ⟨hclean, .inr ⟨hhead, rfl, rfl⟩⟩
  · rintro ⟨hclean, ⟨name, rest, hrest, hknown, rfl, rfl⟩ | ⟨hhead, rfl, rfl⟩⟩
    · refine .inl ⟨_, hrest, ?_⟩
      rw [if_pos rfl, accepts_peek_bind]
      obtain ⟨l, hl⟩ := Option.ne_none_iff_exists'.mp hknown
      refine accepts_identifier_bind.mpr ⟨name, rest, rfl, ?_⟩
      refine accepts_get_bind.mpr ?_
      refine (accepts_deferWhen_bind (by exact .pure _)).mpr ⟨hknown, ?_⟩
      exact accepts_pure.mpr ⟨hclean, by simp [hl], rfl⟩
    · exact .inr ⟨hhead, accepts_pure.mpr ⟨hclean, rfl, rfl⟩⟩

theorem accepts_bindNode {occurrence : ℕ} {binding : String}
    {label : Option NodeLabel} {node : NodePlan} :
    Accepts (bindNode occurrence binding label) p node q ↔
      p.Clean ∧ p.scope.Admits (.node binding label) ∧
        q = p.goOn p.rest (p.scope.add (.node binding label)) ∧
        node = ⟨binding, (p.scope.label binding).or label, occurrence⟩ := by
  have hfits : (¬ (label ≠ none ∧ p.scope.label binding ≠ none ∧
      p.scope.label binding ≠ label)) ↔
        Scope.Fits (p.scope.label binding) label := by
    rw [Scope.Fits]
    by_cases hlabel : label = none
    · simp [hlabel]
    · by_cases hknown : p.scope.label binding = none
      · simp [hknown]
      · simp [hlabel, hknown]
  have hstate (hpaths : binding ∉ p.pathBindings)
      (hrelationships : binding ∉ p.relationshipBindings) :
      { p with
        bindings :=
          if binding ∈ p.pathBindings ∨ binding ∈ p.relationshipBindings then
            p.bindings
          else
            p.bindings.insert binding ((p.scope.label binding).or label) } =
        p.goOn p.rest (p.scope.add (.node binding label)) := by
    rw [if_neg (not_or.mpr ⟨hpaths, hrelationships⟩)]
    rfl
  constructor
  · intro h
    obtain ⟨hpaths, h⟩ := (accepts_deferWhen_bind (by
      refine (keeps_deferWhen _ _ _).bind fun _ => ?_
      refine (keeps_deferWhen _ _ _).bind fun _ => ?_
      exact Keeps.bind (.modify fun _ => id) fun _ => .pure _)).mp h
    obtain ⟨hrelationships, h⟩ := (accepts_deferWhen_bind (by
      refine (keeps_deferWhen _ _ _).bind fun _ => ?_
      exact Keeps.bind (.modify fun _ => id) fun _ => .pure _)).mp h
    obtain ⟨hlabel, h⟩ := (accepts_deferWhen_bind (by
      exact Keeps.bind (.modify fun _ => id) fun _ => .pure _)).mp h
    obtain ⟨⟨⟩, r, hmodify, h⟩ := (accepts_bind fun _ => .pure _).mp h
    obtain ⟨hclean, rfl⟩ := accepts_modify.mp hmodify
    obtain ⟨-, rfl, rfl⟩ := accepts_pure.mp h
    have hfree : binding ∉ p.relationshipBindings :=
      fun hmem => hrelationships ⟨hpaths, hmem⟩
    exact ⟨hclean, ⟨hfree, hpaths, hfits.mp hlabel⟩, hstate hpaths hfree, rfl⟩
  · rintro ⟨hclean, ⟨hrelationships, hpaths, hlabel⟩, rfl, rfl⟩
    refine (accepts_deferWhen_bind (by
      refine (keeps_deferWhen _ _ _).bind fun _ => ?_
      refine (keeps_deferWhen _ _ _).bind fun _ => ?_
      exact Keeps.bind (.modify fun _ => id) fun _ => .pure _)).mpr
        ⟨hpaths, ?_⟩
    refine (accepts_deferWhen_bind (by
      refine (keeps_deferWhen _ _ _).bind fun _ => ?_
      exact Keeps.bind (.modify fun _ => id) fun _ => .pure _)).mpr
        ⟨fun h => hrelationships h.2, ?_⟩
    refine (accepts_deferWhen_bind (by
      exact Keeps.bind (.modify fun _ => id) fun _ => .pure _)).mpr
        ⟨hfits.mpr hlabel, ?_⟩
    refine (accepts_bind fun _ => .pure _).mpr
      ⟨(), _, accepts_modify.mpr ⟨hclean, rfl⟩, ?_⟩
    exact accepts_pure.mpr ⟨hclean, rfl, (hstate hpaths hrelationships).symm⟩

theorem accepts_nodePattern {occurrence : ℕ} {node : NodePlan} :
    Accepts (nodePattern occurrence) p node q ↔
      p.Clean ∧ ∃ (syn : NodeSyntax) (rest : List Token),
        p.rest = syn.tokens ++ rest ∧ syn.Known ∧
          p.scope.Admits syn.claim ∧
          q = p.goOn rest (p.scope.add syn.claim) ∧
          node = ⟨syn.binding, q.scope.label syn.binding, occurrence⟩ := by
  have hkeeps (binding : String) (label : Option NodeLabel) :
      Keeps (do expectSymbol ")"; bindNode occurrence binding label) :=
    (keeps_expectSymbol ")").bind fun _ => keeps_bindNode _ _ _
  constructor
  · intro h
    obtain ⟨rest₁, hrest₁, h⟩ := accepts_expectSymbol_bind.mp h
    obtain ⟨binding, rest₂, hrest₂, h⟩ := accepts_identifier_bind.mp h
    obtain ⟨label, r, hlabel, h⟩ := (accepts_bind (hkeeps binding)).mp h
    obtain ⟨rest, hrest, h⟩ := accepts_expectSymbol_bind.mp h
    obtain ⟨hclean, hadmits, rfl, rfl⟩ := accepts_bindNode.mp h
    obtain ⟨hclean', hlabel⟩ := accepts_nodeLabel.mp hlabel
    rcases hlabel with
      ⟨name, rest₃, hrest₃, hknown, rfl, rfl⟩ | ⟨hhead, rfl, rfl⟩
    · refine ⟨hclean', ⟨binding, some name⟩, rest, ?_, ?_, hadmits, rfl, ?_⟩
      · simp only [goOn_rest] at hrest hrest₂ hrest₃
        simp [NodeSyntax.tokens, hrest₁, hrest₂, hrest₃, hrest]
      · simpa [NodeSyntax.Known] using hknown
      · simp
    · refine ⟨hclean', ⟨binding, none⟩, rest, ?_, ?_, hadmits, rfl, ?_⟩
      · simp only [goOn_rest] at hrest hrest₂
        simp [NodeSyntax.tokens, hrest₁, hrest₂, hrest]
      · simp [NodeSyntax.Known]
      · simp
  · rintro ⟨hclean, ⟨binding, label⟩, rest, hrest, hknown, hadmits, rfl, rfl⟩
    refine accepts_expectSymbol_bind.mpr ⟨_, hrest, ?_⟩
    refine accepts_identifier_bind.mpr ⟨binding, _, rfl, ?_⟩
    cases label with
    | none =>
        refine (accepts_bind (hkeeps binding)).mpr ⟨none, _,
          accepts_nodeLabel.mpr ⟨hclean, .inr ⟨by simp, rfl, rfl⟩⟩, ?_⟩
        refine accepts_expectSymbol_bind.mpr ⟨rest, rfl, ?_⟩
        refine accepts_bindNode.mpr ⟨hclean, hadmits, rfl, ?_⟩
        simp [NodeSyntax.claim, NodeSyntax.nodeLabel]
    | some name =>
        refine (accepts_bind (hkeeps binding)).mpr ⟨NodeLabel.parse name, _,
          accepts_nodeLabel.mpr ⟨hclean, .inl ⟨name, _, rfl, ?_, rfl, rfl⟩⟩, ?_⟩
        · simpa [NodeSyntax.Known] using hknown
        · refine accepts_expectSymbol_bind.mpr ⟨rest, rfl, ?_⟩
          refine accepts_bindNode.mpr ⟨hclean, hadmits, rfl, ?_⟩
          simp [NodeSyntax.claim, NodeSyntax.nodeLabel]

end

/-! ## Accepted relationships -/

section

variable {p q : Parser}

theorem accepts_relationshipOpening {opening : Option Bool} :
    Accepts relationshipOpening p opening q ↔
      p.Clean ∧
        ((∃ rest, p.rest = .symbol "<-" :: .symbol "[" :: rest ∧
          opening = some true ∧ q = p.goOn rest p.scope) ∨
        (∃ rest, p.rest = .symbol "-[" :: rest ∧
          opening = some false ∧ q = p.goOn rest p.scope) ∨
        (¬ StartsHop p.rest ∧ opening = none ∧ q = p)) := by
  constructor
  · intro h
    rcases accepts_eatSymbol_bind.mp h with ⟨rest, hrest, h⟩ | ⟨hhead, h⟩
    · obtain ⟨rest', hrest', h⟩ := accepts_expectSymbol_bind.mp h
      obtain ⟨hclean, rfl, rfl⟩ := accepts_pure.mp h
      refine ⟨hclean, .inl ⟨rest', ?_, rfl, rfl⟩⟩
      rw [hrest]
      exact congrArg _ hrest'
    · rcases accepts_eatSymbol_bind.mp h with ⟨rest, hrest, h⟩ | ⟨hhead', h⟩
      · obtain ⟨hclean, rfl, rfl⟩ := accepts_pure.mp h
        exact ⟨hclean, .inr (.inl ⟨rest, hrest, rfl, rfl⟩)⟩
      · obtain ⟨hclean, rfl, rfl⟩ := accepts_pure.mp h
        exact ⟨hclean, .inr (.inr ⟨not_or.mpr ⟨hhead, hhead'⟩, rfl, rfl⟩)⟩
  · rintro ⟨hclean, ⟨rest, hrest, rfl, rfl⟩ | ⟨rest, hrest, rfl, rfl⟩ |
      ⟨hhead, rfl, rfl⟩⟩
    · refine accepts_eatSymbol_bind.mpr (.inl ⟨_, hrest, ?_⟩)
      refine accepts_expectSymbol_bind.mpr ⟨rest, rfl, ?_⟩
      exact accepts_pure.mpr ⟨hclean, rfl, rfl⟩
    · refine accepts_eatSymbol_bind.mpr (.inr ⟨by simp [hrest], ?_⟩)
      refine accepts_eatSymbol_bind.mpr (.inl ⟨rest, hrest, ?_⟩)
      exact accepts_pure.mpr ⟨hclean, rfl, rfl⟩
    · obtain ⟨hincoming, houtgoing⟩ := not_or.mp hhead
      refine accepts_eatSymbol_bind.mpr (.inr ⟨hincoming, ?_⟩)
      refine accepts_eatSymbol_bind.mpr (.inr ⟨houtgoing, ?_⟩)
      exact accepts_pure.mpr ⟨hclean, rfl, rfl⟩

theorem accepts_relationshipBinding {binding : Option String} :
    Accepts relationshipBinding p binding q ↔
      p.Clean ∧
        ((∃ word rest, p.rest = .word word :: rest ∧
          binding = some word ∧ q = p.goOn rest p.scope) ∨
        ((∀ word, p.rest.head? ≠ some (.word word)) ∧
          binding = none ∧ q = p)) := by
  unfold relationshipBinding
  constructor
  · intro h
    replace h := accepts_peek_bind.mp h
    split at h
    · obtain ⟨word, rest, hrest, h⟩ := accepts_identifier_bind.mp h
      obtain ⟨hclean, rfl, rfl⟩ := accepts_pure.mp h
      exact ⟨hclean, .inl ⟨word, rest, hrest, rfl, rfl⟩⟩
    · rename_i hhead
      obtain ⟨hclean, rfl, rfl⟩ := accepts_pure.mp h
      exact ⟨hclean, .inr ⟨fun word hword => hhead word hword, rfl, rfl⟩⟩
  · rintro ⟨hclean, ⟨word, rest, hrest, rfl, rfl⟩ | ⟨hhead, rfl, rfl⟩⟩
    · refine accepts_peek_bind.mpr ?_
      rw [hrest]
      refine accepts_identifier_bind.mpr ⟨word, rest, hrest, ?_⟩
      exact accepts_pure.mpr ⟨hclean, rfl, rfl⟩
    · refine accepts_peek_bind.mpr ?_
      split
      · rename_i word hword
        exact absurd hword (hhead word)
      · exact accepts_pure.mpr ⟨hclean, rfl, rfl⟩

theorem accepts_relationshipDirection {incoming : Bool}
    {direction : Direction} :
    Accepts (relationshipDirection incoming) p direction q ↔
      p.Clean ∧ ∃ token rest, p.rest = token :: rest ∧
        q = p.goOn rest p.scope ∧
          ((incoming = true ∧ token = .symbol "-" ∧ direction = .incoming) ∨
          (incoming = false ∧ token = .symbol "->" ∧ direction = .outgoing) ∨
          (incoming = false ∧ token = .symbol "-" ∧
            direction = .undirected)) := by
  unfold relationshipDirection
  cases incoming with
  | true =>
      constructor
      · intro h
        obtain ⟨rest, hrest, h⟩ := accepts_expectSymbol_bind.mp h
        obtain ⟨hclean, rfl, rfl⟩ := accepts_pure.mp h
        exact ⟨hclean, _, rest, hrest, rfl, .inl ⟨rfl, rfl, rfl⟩⟩
      · rintro ⟨hclean, token, rest, hrest, rfl, hshape⟩
        obtain ⟨rfl, rfl⟩ : token = .symbol "-" ∧ direction = .incoming := by
          simpa using hshape
        refine accepts_expectSymbol_bind.mpr ⟨rest, hrest, ?_⟩
        exact accepts_pure.mpr ⟨hclean, rfl, rfl⟩
  | false =>
      constructor
      · intro h
        rcases accepts_eatSymbol_bind.mp h with ⟨rest, hrest, h⟩ | ⟨-, h⟩
        · obtain ⟨hclean, rfl, rfl⟩ := accepts_pure.mp h
          exact ⟨hclean, _, rest, hrest, rfl, .inr (.inl ⟨rfl, rfl, rfl⟩)⟩
        · rcases accepts_eatSymbol_bind.mp h with ⟨rest, hrest, h⟩ | ⟨-, h⟩
          · obtain ⟨hclean, rfl, rfl⟩ := accepts_pure.mp h
            exact ⟨hclean, _, rest, hrest, rfl, .inr (.inr ⟨rfl, rfl, rfl⟩)⟩
          · exact absurd h accepts_fail
      · rintro ⟨hclean, token, rest, hrest, rfl,
          ⟨hincoming, -⟩ | ⟨-, rfl, rfl⟩ | ⟨-, rfl, rfl⟩⟩
        · cases hincoming
        · refine accepts_eatSymbol_bind.mpr (.inl ⟨rest, hrest, ?_⟩)
          exact accepts_pure.mpr ⟨hclean, rfl, rfl⟩
        · refine accepts_eatSymbol_bind.mpr (.inr ⟨by simp [hrest], ?_⟩)
          refine accepts_eatSymbol_bind.mpr (.inl ⟨rest, hrest, ?_⟩)
          exact accepts_pure.mpr ⟨hclean, rfl, rfl⟩

theorem accepts_admittedType {name : String} {direction : Direction}
    {relationshipType : RelationshipType} :
    Accepts (admittedType name direction) p relationshipType q ↔
      p.Clean ∧ RelationshipType.parse name = some relationshipType ∧
        relationshipType.Directed direction ∧ q = p := by
  unfold admittedType
  split
  · rename_i written hparse
    rw [hparse]
    have hdirected : written.Directed direction ↔
        ¬ (written.isUndirected = true ∧ direction ≠ .undirected) ∧
          ¬ (¬ written.isUndirected = true ∧ direction = .undirected) := by
      unfold RelationshipType.Directed
      by_cases hbare : direction = .undirected
      · simp [hbare]
      · simp [hbare]
    constructor
    · intro h
      by_cases harrow : written.isUndirected = true ∧ direction ≠ .undirected
      · exact absurd (by rwa [if_pos harrow] at h) accepts_fail
      · rw [if_neg harrow] at h
        by_cases hbare : ¬ written.isUndirected = true ∧
            direction = .undirected
        · exact absurd (by rwa [if_pos hbare] at h) accepts_fail
        · rw [if_neg hbare] at h
          obtain ⟨hclean, rfl, rfl⟩ := accepts_pure.mp h
          exact ⟨hclean, rfl, hdirected.mpr ⟨harrow, hbare⟩, rfl⟩
    · rintro ⟨hclean, hsome, hwritten, rfl⟩
      obtain rfl := Option.some.inj hsome
      obtain ⟨harrow, hbare⟩ := hdirected.mp hwritten
      rw [if_neg harrow, if_neg hbare]
      exact accepts_pure.mpr ⟨hclean, rfl, rfl⟩
  · rename_i hparse
    constructor
    · intro h
      obtain ⟨⟨⟩, r, hdefer, -⟩ := (accepts_bind fun _ => .pure _).mp h
      exact absurd hdefer accepts_deferPlanError
    · rintro ⟨-, hsome, -⟩
      rw [hparse] at hsome
      cases hsome

theorem bindingIsBound_iff {binding : String} :
    bindingIsBound p binding = true ↔ p.scope.Binds binding := by
  simp [bindingIsBound, Scope.Binds, scope, or_assoc]

theorem accepts_bindRelationship {relationshipType : RelationshipType}
    {binding : Option String} :
    Accepts (bindRelationship relationshipType binding) p () q ↔
      p.Clean ∧ ∃ s, p.scope.claims (binding.elim [] fun binding =>
        [.relationship binding relationshipType]) = some s ∧
          q = p.goOn p.rest s := by
  cases binding with
  | none =>
      constructor
      · intro h
        obtain ⟨hclean, -, rfl⟩ := accepts_pure.mp h
        exact ⟨hclean, _, rfl, rfl⟩
      · rintro ⟨hclean, s, hclaims, rfl⟩
        obtain rfl := Option.some.inj hclaims
        exact accepts_pure.mpr ⟨hclean, rfl, rfl⟩
  | some binding =>
      have hclaim : p.scope.claims [.relationship binding relationshipType] =
          p.scope.claim (.relationship binding relationshipType) := by
        simp
      simp only [Option.elim_some, hclaim, Scope.claim_eq_some_iff]
      by_cases hbound : bindingIsBound p binding = true
      · have hbinds := bindingIsBound_iff.mp hbound
        constructor
        · intro h
          exact absurd (by
            simpa only [bindRelationship, accepts_get_bind, if_pos hbound]
              using h) accepts_deferPlanError
        · rintro ⟨-, s, ⟨hadmits, -⟩, -⟩
          exact absurd hbinds hadmits
      · have hfree := mt bindingIsBound_iff.mpr hbound
        constructor
        · intro h
          simp only [bindRelationship, accepts_get_bind, if_neg hbound] at h
          obtain ⟨hclean, rfl⟩ := accepts_modify.mp h
          exact ⟨hclean, _, ⟨hfree, rfl⟩, rfl⟩
        · rintro ⟨hclean, s, ⟨-, rfl⟩, rfl⟩
          simp only [bindRelationship, accepts_get_bind, if_neg hbound]
          exact accepts_modify.mpr ⟨hclean, rfl⟩

/-- What is read of a relationship once it is open. -/
def relationshipAfter (incoming : Bool) :
    Parsing (Option (Option String × Direction × RelationshipType)) := do
  let binding ← relationshipBinding
  expectSymbol ":"
  let name ← identifier
  expectSymbol "]"
  let direction ← relationshipDirection incoming
  let relationshipType ← admittedType name direction
  bindRelationship relationshipType binding
  return some (binding, direction, relationshipType)

theorem relationshipPattern_eq :
    relationshipPattern = relationshipOpening >>= fun opening =>
      opening.elim (pure none) relationshipAfter := by
  unfold relationshipPattern
  congr 1
  funext opening
  cases opening <;> rfl

theorem keeps_afterName (incoming : Bool) (binding : Option String)
    (name : String) : Keeps (do
      let direction ← relationshipDirection incoming
      let relationshipType ← admittedType name direction
      bindRelationship relationshipType binding
      return some (binding, direction, relationshipType)) := by
  refine (keeps_relationshipDirection incoming).bind fun direction => ?_
  refine (keeps_admittedType name direction).bind fun type => ?_
  exact (keeps_bindRelationship type binding).bind fun _ => .pure _

theorem keeps_afterBinding (incoming : Bool) (binding : Option String) :
    Keeps (do
      expectSymbol ":"
      let name ← identifier
      expectSymbol "]"
      let direction ← relationshipDirection incoming
      let relationshipType ← admittedType name direction
      bindRelationship relationshipType binding
      return some (binding, direction, relationshipType)) := by
  refine (keeps_expectSymbol ":").bind fun _ => ?_
  refine keeps_identifier.bind fun name => ?_
  refine (keeps_expectSymbol "]").bind fun _ => ?_
  exact keeps_afterName incoming binding name

theorem keeps_relationshipAfter (incoming : Bool) :
    Keeps (relationshipAfter incoming) :=
  keeps_relationshipBinding.bind (keeps_afterBinding incoming)

theorem accepts_relationshipAfter {incoming : Bool}
    {relationship : Option (Option String × Direction × RelationshipType)} :
    Accepts (relationshipAfter incoming) p relationship q ↔
      p.Clean ∧ ∃ (syn : RelationshipSyntax) (rest : List Token) (s : Scope),
        (incoming = true ↔ syn.direction = .incoming) ∧
          p.rest = syn.body ++ rest ∧ syn.Known ∧
          p.scope.claims syn.claims = some s ∧ q = p.goOn rest s ∧
          relationship =
            some (syn.binding, syn.direction, syn.relationshipType) := by
  constructor
  · intro h
    obtain ⟨binding, r, hbinding, h⟩ :=
      (accepts_bind (keeps_afterBinding incoming)).mp h
    obtain ⟨hclean, hbinding⟩ := accepts_relationshipBinding.mp hbinding
    obtain ⟨rest₁, hrest₁, h⟩ := accepts_expectSymbol_bind.mp h
    obtain ⟨name, rest₂, hrest₂, h⟩ := accepts_identifier_bind.mp h
    obtain ⟨rest₃, hrest₃, h⟩ := accepts_expectSymbol_bind.mp h
    obtain ⟨direction, r', hdirection, h⟩ := (accepts_bind (by
      intro direction
      refine (keeps_admittedType name direction).bind fun type => ?_
      exact (keeps_bindRelationship type binding).bind fun _ => .pure _)).mp h
    obtain ⟨-, token, rest, hrest, rfl, hshape⟩ :=
      accepts_relationshipDirection.mp hdirection
    obtain ⟨type, r', htype, h⟩ := (accepts_bind (by
      intro type
      exact (keeps_bindRelationship type binding).bind fun _ => .pure _)).mp h
    obtain ⟨-, hparse, hdirected, rfl⟩ := accepts_admittedType.mp htype
    obtain ⟨⟨⟩, r', hbind, h⟩ := (accepts_bind fun _ => .pure _).mp h
    obtain ⟨-, s, hclaims, rfl⟩ := accepts_bindRelationship.mp hbind
    obtain ⟨-, rfl, rfl⟩ := accepts_pure.mp h
    have htypeOf : (⟨direction, binding, name⟩ :
        RelationshipSyntax).relationshipType = type := by
      simp [RelationshipSyntax.relationshipType, hparse]
    have htokens : r.rest = [.symbol ":", .word name, .symbol "]", token] ++
        rest := by
      simp only [goOn_rest] at hrest₂ hrest₃ hrest
      simp [hrest₁, hrest₂, hrest₃, hrest]
    have hclosing : token =
        (⟨direction, binding, name⟩ : RelationshipSyntax).closing ∧
        (incoming = true ↔ direction = .incoming) := by
      rcases hshape with ⟨rfl, rfl, rfl⟩ | ⟨rfl, rfl, rfl⟩ | ⟨rfl, rfl, rfl⟩ <;>
        simp [RelationshipSyntax.closing]
    rw [hclosing.1] at htokens
    refine ⟨hclean, ⟨direction, binding, name⟩, rest, s, hclosing.2, ?_,
      ⟨?_, ?_⟩, ?_, ?_, ?_⟩
    · rcases hbinding with ⟨word, rest', hrest', rfl, rfl⟩ | ⟨-, rfl, rfl⟩
      · simp only [goOn_rest] at htokens
        simp [RelationshipSyntax.body, hrest', htokens]
      · simpa [RelationshipSyntax.body] using htokens
    · simp [hparse]
    · rwa [htypeOf]
    · rw [RelationshipSyntax.claims, htypeOf]
      rcases hbinding with ⟨word, rest', hrest', rfl, rfl⟩ | ⟨-, rfl, rfl⟩ <;>
        exact hclaims
    · rcases hbinding with ⟨word, rest', hrest', rfl, rfl⟩ | ⟨-, rfl, rfl⟩ <;>
        rfl
    · rw [htypeOf]
  · rintro ⟨hclean, ⟨direction, binding, name⟩, rest, s, hincoming, hrest,
      ⟨hparse, hdirected⟩, hclaims, rfl, rfl⟩
    obtain ⟨type, htype⟩ := Option.ne_none_iff_exists'.mp hparse
    have htypeOf : (⟨direction, binding, name⟩ :
        RelationshipSyntax).relationshipType = type := by
      simp only [RelationshipSyntax.relationshipType]
      rw [htype, Option.getD_some]
    rw [htypeOf] at hdirected ⊢
    simp only [RelationshipSyntax.claims, htypeOf] at hclaims
    have hend : Accepts (do
        expectSymbol ":"
        let name ← identifier
        expectSymbol "]"
        let direction ← relationshipDirection incoming
        let relationshipType ← admittedType name direction
        bindRelationship relationshipType binding
        return some (binding, direction, relationshipType))
        (p.goOn ([.symbol ":", .word name, .symbol "]",
          RelationshipSyntax.closing ⟨direction, binding, name⟩] ++ rest)
            p.scope)
        (some (binding, direction, type)) (p.goOn rest s) := by
      refine accepts_expectSymbol_bind.mpr ⟨_, rfl, ?_⟩
      refine accepts_identifier_bind.mpr ⟨name, _, rfl, ?_⟩
      refine accepts_expectSymbol_bind.mpr ⟨_, rfl, ?_⟩
      refine (accepts_bind (by
        intro direction
        refine (keeps_admittedType name direction).bind fun type => ?_
        exact (keeps_bindRelationship type binding).bind fun _ =>
          .pure _)).mpr ⟨direction, p.goOn rest p.scope, ?_, ?_⟩
      · refine accepts_relationshipDirection.mpr
          ⟨hclean, _, rest, rfl, rfl, ?_⟩
        cases incoming <;> cases direction <;>
          simp_all [RelationshipSyntax.closing]
      · refine (accepts_bind (by
          intro type
          exact (keeps_bindRelationship type binding).bind fun _ =>
            .pure _)).mpr ⟨type, _, accepts_admittedType.mpr
              ⟨hclean, htype, hdirected, rfl⟩, ?_⟩
        refine (accepts_bind fun _ => .pure _).mpr ⟨(), _,
          accepts_bindRelationship.mpr ⟨hclean, s, hclaims, rfl⟩, ?_⟩
        exact accepts_pure.mpr ⟨hclean, rfl, rfl⟩
    refine (accepts_bind (keeps_afterBinding incoming)).mpr
      ⟨binding, _, accepts_relationshipBinding.mpr ⟨hclean, ?_⟩, hend⟩
    cases binding with
    | none =>
        refine .inr ⟨?_, rfl, ?_⟩
        · intro word
          simp [hrest, RelationshipSyntax.body]
        · simp only [RelationshipSyntax.body, Option.elim_none,
            List.nil_append] at hrest
          rw [← hrest]
          rfl
    | some word => exact .inl ⟨word, _, hrest, rfl, rfl⟩

theorem accepts_relationshipPattern_none :
    Accepts relationshipPattern p none q ↔
      p.Clean ∧ ¬ StartsHop p.rest ∧ q = p := by
  have hkeeps (opening : Option Bool) :
      Keeps (opening.elim (pure none) relationshipAfter) := by
    cases opening with
    | none => exact .pure none
    | some incoming => exact keeps_relationshipAfter incoming
  rw [relationshipPattern_eq, accepts_bind hkeeps]
  constructor
  · rintro ⟨opening, r, hopening, h⟩
    obtain ⟨hclean, ⟨rest, hrest, rfl, rfl⟩ | ⟨rest, hrest, rfl, rfl⟩ |
      ⟨hhead, rfl, rfl⟩⟩ := accepts_relationshipOpening.mp hopening
    · obtain ⟨-, syn, rest', s, -, -, -, -, -, hnone⟩ :=
        accepts_relationshipAfter.mp h
      cases hnone
    · obtain ⟨-, syn, rest', s, -, -, -, -, -, hnone⟩ :=
        accepts_relationshipAfter.mp h
      cases hnone
    · obtain ⟨-, -, rfl⟩ := accepts_pure.mp h
      exact ⟨hclean, hhead, rfl⟩
  · rintro ⟨hclean, hhead, rfl⟩
    exact ⟨none, _, accepts_relationshipOpening.mpr
      ⟨hclean, .inr (.inr ⟨hhead, rfl, rfl⟩)⟩,
      accepts_pure.mpr ⟨hclean, rfl, rfl⟩⟩

theorem accepts_relationshipPattern {binding : Option String}
    {direction : Direction} {relationshipType : RelationshipType} :
    Accepts relationshipPattern p
        (some (binding, direction, relationshipType)) q ↔
      p.Clean ∧ ∃ (syn : RelationshipSyntax) (rest : List Token) (s : Scope),
        p.rest = syn.tokens ++ rest ∧ syn.Known ∧
          p.scope.claims syn.claims = some s ∧ q = p.goOn rest s ∧
          binding = syn.binding ∧ direction = syn.direction ∧
          relationshipType = syn.relationshipType := by
  have hkeeps (opening : Option Bool) :
      Keeps (opening.elim (pure none) relationshipAfter) := by
    cases opening with
    | none => exact .pure none
    | some incoming => exact keeps_relationshipAfter incoming
  rw [relationshipPattern_eq, accepts_bind hkeeps]
  constructor
  · rintro ⟨opening, r, hopening, h⟩
    obtain ⟨hclean, ⟨rest, hrest, rfl, rfl⟩ | ⟨rest, hrest, rfl, rfl⟩ |
      ⟨-, rfl, rfl⟩⟩ := accepts_relationshipOpening.mp hopening
    · obtain ⟨-, syn, rest', s, hincoming, hrest', hknown, hclaims, rfl,
        hresult⟩ := accepts_relationshipAfter.mp h
      simp only [Option.some.injEq, Prod.mk.injEq] at hresult
      refine ⟨hclean, syn, rest', s, ?_, hknown, hclaims, rfl, hresult⟩
      simp only [goOn_rest] at hrest'
      simp [RelationshipSyntax.tokens, RelationshipSyntax.opening,
        hincoming.mp rfl, hrest, hrest']
    · obtain ⟨-, syn, rest', s, hincoming, hrest', hknown, hclaims, rfl,
        hresult⟩ := accepts_relationshipAfter.mp h
      simp only [Option.some.injEq, Prod.mk.injEq] at hresult
      refine ⟨hclean, syn, rest', s, ?_, hknown, hclaims, rfl, hresult⟩
      have hopen : syn.opening = [.symbol "-["] := by
        unfold RelationshipSyntax.opening
        split
        · rename_i hdirection
          cases hincoming.mpr hdirection
        · rfl
      simp only [goOn_rest] at hrest'
      simp [RelationshipSyntax.tokens, hopen, hrest, hrest']
    · obtain ⟨-, hnone, -⟩ := accepts_pure.mp h
      cases hnone
  · rintro ⟨hclean, syn, rest, s, hrest, hknown, hclaims, rfl, rfl, rfl, rfl⟩
    by_cases hincoming : syn.direction = .incoming
    · refine ⟨some true, p.goOn (syn.body ++ rest) p.scope,
        accepts_relationshipOpening.mpr ⟨hclean, .inl ⟨_, ?_, rfl, rfl⟩⟩,
        accepts_relationshipAfter.mpr ⟨hclean, syn, rest, s,
          iff_of_true rfl hincoming, rfl, hknown, hclaims, rfl, rfl⟩⟩
      simp [hrest, RelationshipSyntax.tokens, RelationshipSyntax.opening,
        hincoming]
    · have hopen : syn.opening = [.symbol "-["] := by
        unfold RelationshipSyntax.opening
        split
        · rename_i hdirection
          exact absurd hdirection hincoming
        · rfl
      refine ⟨some false, p.goOn (syn.body ++ rest) p.scope,
        accepts_relationshipOpening.mpr
          ⟨hclean, .inr (.inl ⟨_, ?_, rfl, rfl⟩)⟩,
        accepts_relationshipAfter.mpr ⟨hclean, syn, rest, s,
          iff_of_false (by simp) hincoming, rfl, hknown, hclaims, rfl, rfl⟩⟩
      simp [hrest, RelationshipSyntax.tokens, hopen]

end

end Parser

end RelayerGraph.Query
