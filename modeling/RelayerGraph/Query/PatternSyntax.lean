import RelayerGraph.Query.Scope

/-!
# Pattern parts as they are written

A part of the MATCH clause as its tokens spell it, the claims it makes about
the names it uses, and the plan it has in a scope.
-/

namespace RelayerGraph.Query

structure NodeSyntax where
  binding : String
  label : Option String
deriving DecidableEq

structure RelationshipSyntax where
  direction : Direction
  binding : Option String
  typeName : String
deriving DecidableEq

structure HopSyntax where
  relationship : RelationshipSyntax
  target : NodeSyntax
deriving DecidableEq

structure PartSyntax where
  path : Option String
  first : NodeSyntax
  hops : List HopSyntax
deriving DecidableEq

/-! ## Tokens -/

def NodeSyntax.tokens (node : NodeSyntax) : List Token :=
  .symbol "(" :: .word node.binding ::
    (node.label.elim [] fun label => [.symbol ":", .word label])
      ++ [.symbol ")"]

namespace RelationshipSyntax

variable (relationship : RelationshipSyntax)

def opening : List Token :=
  match relationship.direction with
  | .incoming => [.symbol "<-", .symbol "["]
  | _ => [.symbol "-["]

def closing : Token :=
  match relationship.direction with
  | .outgoing => .symbol "->"
  | _ => .symbol "-"

/-- What follows the opening bracket. -/
def body : List Token :=
  (relationship.binding.elim [] fun binding => [.word binding]) ++
    [.symbol ":", .word relationship.typeName, .symbol "]",
      relationship.closing]

def tokens : List Token :=
  relationship.opening ++ relationship.body

end RelationshipSyntax

def HopSyntax.tokens (hop : HopSyntax) : List Token :=
  hop.relationship.tokens ++ hop.target.tokens

def PartSyntax.tokens (part : PartSyntax) : List Token :=
  (part.path.elim [] fun path => [.word path, .symbol "="])
    ++ part.first.tokens ++ part.hops.flatMap HopSyntax.tokens

theorem length_le_length_append (syns : List HopSyntax)
    (rest : List Token) :
    syns.length ≤ (syns.flatMap HopSyntax.tokens ++ rest).length := by
  induction syns with
  | nil => exact Nat.zero_le _
  | cons hop syns ih =>
      have hhop : 1 ≤ hop.tokens.length := by
        simp [HopSyntax.tokens, NodeSyntax.tokens]
        omega
      rw [List.flatMap_cons, List.append_assoc, List.length_append,
        List.length_cons]
      omega

/-- The parts of a MATCH clause after its first one. -/
def furtherTokens (parts : List PartSyntax) : List Token :=
  parts.flatMap fun part => .symbol "," :: part.tokens

/-- The parts of a MATCH clause, separated by commas. -/
def matchTokens : List PartSyntax → List Token
  | [] => []
  | first :: others => first.tokens ++ furtherTokens others

/-- A relationship follows. -/
def StartsHop (rest : List Token) : Prop :=
  rest.head? = some (.symbol "<-") ∨ rest.head? = some (.symbol "-[")

/-! ## Claims -/

/-- The label a node is written with. -/
def NodeSyntax.nodeLabel (node : NodeSyntax) : Option NodeLabel :=
  node.label.bind NodeLabel.parse

/-- What a node says of its name. -/
def NodeSyntax.claim (node : NodeSyntax) : Claim :=
  .node node.binding node.nodeLabel

/-- The label, if the node has one, is a label of the schema. -/
def NodeSyntax.Known (node : NodeSyntax) : Prop :=
  ∀ label ∈ node.label, NodeLabel.parse label ≠ none

/-- Only `CONNECTED` is written without an arrow. -/
def RelationshipType.Directed (relationshipType : RelationshipType)
    (direction : Direction) : Prop :=
  relationshipType.isUndirected ↔ direction = .undirected

namespace RelationshipSyntax

variable (relationship : RelationshipSyntax)

def relationshipType : RelationshipType :=
  (RelationshipType.parse relationship.typeName).getD .connected

/-- The type is in the schema and written in a direction of its own. -/
def Known : Prop :=
  RelationshipType.parse relationship.typeName ≠ none ∧
    relationship.relationshipType.Directed relationship.direction

def claims : List Claim :=
  relationship.binding.elim [] fun binding =>
    [.relationship binding relationship.relationshipType]

end RelationshipSyntax

namespace HopSyntax

variable (hop : HopSyntax) (last : String)

def Known : Prop :=
  hop.relationship.Known ∧ hop.target.Known

/-- The ends of a hop from the node `last`, in the direction of its type. -/
def ends : String × String :=
  Parser.hopEnds hop.relationship.direction last hop.target.binding

/-- The labels that a hop requires of its ends. -/
def labels : NodeLabel × NodeLabel :=
  Parser.endpointLabels hop.relationship.relationshipType

def claims : List Claim :=
  hop.relationship.claims ++
    [hop.target.claim, .node (hop.ends last).1 (some hop.labels.1),
      .node (hop.ends last).2 (some hop.labels.2)]

def plan : RelationshipPlan :=
  ⟨hop.relationship.binding, hop.relationship.relationshipType,
    hop.relationship.direction, (hop.ends last).1, (hop.ends last).2⟩

end HopSyntax

theorem RelationshipSyntax.label_claims {relationship : RelationshipSyntax}
    {s t : Scope} (h : s.claims relationship.claims = some t)
    (name : String) : t.label name = s.label name := by
  unfold RelationshipSyntax.claims at h
  cases hbinding : relationship.binding with
  | none =>
      rw [hbinding] at h
      obtain rfl := Option.some.inj h
      rfl
  | some binding =>
      rw [hbinding] at h
      obtain ⟨-, h⟩ := Scope.claims_cons_eq_some_iff.mp h
      obtain rfl := Option.some.inj h
      rfl

theorem HopSyntax.mem_bindings_target {hop : HopSyntax} {last : String}
    {s t : Scope} (h : s.claims (hop.claims last) = some t) :
    hop.target.binding ∈ t.bindings := by
  have hmem : hop.target.claim ∈ hop.claims last :=
    List.mem_append_right _ List.mem_cons_self
  exact Scope.mem_bindings_of_mem_claims hmem h

/-- The claims of hops that start at the node `last`. -/
def hopClaims : String → List HopSyntax → List Claim
  | _, [] => []
  | last, hop :: hops => hop.claims last ++ hopClaims hop.target.binding hops

/-- The relationships of hops that start at the node `last`. -/
def hopPlans : String → List HopSyntax → List RelationshipPlan
  | _, [] => []
  | last, hop :: hops => hop.plan last :: hopPlans hop.target.binding hops

/-- Occurrences of names from the given place of their part on, labelled by a
scope. -/
def occurrences (s : Scope) : ℕ → List String → List NodePlan
  | _, [] => []
  | occurrence, name :: names =>
      ⟨name, s.label name, occurrence⟩ :: occurrences s (occurrence + 1) names

section

variable {s t : Scope} {names names' : List String} {occurrence : ℕ}

theorem occurrences_congr (h : ∀ name ∈ names, s.label name = t.label name) :
    occurrences s occurrence names = occurrences t occurrence names := by
  induction names generalizing occurrence with
  | nil => rfl
  | cons name names ih =>
      simp only [occurrences]
      rw [h name List.mem_cons_self, ih]
      intro other hother
      exact h other (List.mem_cons_of_mem _ hother)

theorem length_occurrences :
    (occurrences s occurrence names).length = names.length := by
  induction names generalizing occurrence with
  | nil => rfl
  | cons name names ih => exact congrArg (· + 1) ih

theorem occurrences_append :
    occurrences s occurrence (names ++ names') =
      occurrences s occurrence names ++
        occurrences s (occurrence + names.length) names' := by
  induction names generalizing occurrence with
  | nil => rfl
  | cons name names ih =>
      simp only [List.cons_append, occurrences, ih, List.length_cons,
        Nat.add_assoc, Nat.add_comm 1]

/-- Relabelling the occurrences under one scope gives those under another. -/
theorem map_occurrences {f : NodePlan → NodePlan}
    (hf : ∀ name ∈ names, ∀ occurrence, f ⟨name, s.label name, occurrence⟩ =
      ⟨name, t.label name, occurrence⟩) :
    (occurrences s occurrence names).map f = occurrences t occurrence names := by
  induction names generalizing occurrence with
  | nil => rfl
  | cons name names ih =>
      simp only [occurrences, List.map_cons]
      rw [hf name List.mem_cons_self, ih]
      intro other hother
      exact hf other (List.mem_cons_of_mem _ hother)

theorem mem_occurrences {node : NodePlan}
    (h : node ∈ occurrences s occurrence names) :
    node.binding ∈ names ∧ node.label = s.label node.binding := by
  induction names generalizing occurrence with
  | nil => cases h
  | cons name names ih =>
      rcases List.mem_cons.mp h with rfl | h
      · exact ⟨List.mem_cons_self, rfl⟩
      · obtain ⟨hname, hlabel⟩ := ih h
        exact ⟨List.mem_cons_of_mem _ hname, hlabel⟩

theorem exists_mem_occurrences {name : String} (h : name ∈ names) :
    ∃ node ∈ occurrences s occurrence names, node.binding = name := by
  induction names generalizing occurrence with
  | nil => cases h
  | cons other names ih =>
      rcases List.mem_cons.mp h with rfl | h
      · exact ⟨_, List.mem_cons_self, rfl⟩
      · obtain ⟨node, hnode, hname⟩ := ih h
        exact ⟨node, List.mem_cons_of_mem _ hnode, hname⟩

end

namespace PartSyntax

variable (part : PartSyntax)

/-- The names of the nodes of a part, one for each occurrence. -/
def names : List String :=
  part.first.binding :: part.hops.map (·.target.binding)

def pathClaims : List Claim :=
  part.path.elim [] fun path => [.path path]

def claims : List Claim :=
  part.first.claim :: hopClaims part.first.binding part.hops ++
    part.pathClaims

theorem label_pathClaims {part : PartSyntax} {s t : Scope}
    (h : s.claims part.pathClaims = some t) (name : String) :
    t.label name = s.label name := by
  unfold pathClaims at h
  cases hpath : part.path with
  | none =>
      rw [hpath] at h
      obtain rfl := Option.some.inj h
      rfl
  | some path =>
      rw [hpath] at h
      obtain ⟨-, h⟩ := Scope.claims_cons_eq_some_iff.mp h
      obtain rfl := Option.some.inj h
      rfl

theorem claims_eq_some_iff {part : PartSyntax} {s t : Scope} :
    s.claims part.claims = some t ↔
      s.Admits part.first.claim ∧ ∃ u,
        (s.add part.first.claim).claims
          (hopClaims part.first.binding part.hops) = some u ∧
        u.claims part.pathClaims = some t := by
  unfold claims
  rw [List.cons_append, Scope.claims_cons_eq_some_iff, Scope.claims_append,
    Option.bind_eq_some_iff]

/-- Labels and types are in the schema, and a path has a hop. -/
def Known : Prop :=
  part.first.Known ∧ (∀ hop ∈ part.hops, hop.Known) ∧
    (part.path ≠ none → part.hops ≠ [])

/-- The plan of a part in a scope. -/
def plan (s : Scope) : PatternPart where
  pathBinding := part.path
  nodes := occurrences s 0 part.names
  relationships := hopPlans part.first.binding part.hops

/-- The name of the path changes no label. -/
theorem plan_eq {part : PartSyntax} {s t : Scope}
    (h : s.claims part.pathClaims = some t) :
    PatternPart.mk part.path
      (occurrences s 0 ([part.first.binding] ++
        part.hops.map (·.target.binding)))
      ([] ++ hopPlans part.first.binding part.hops) = part.plan t := by
  unfold plan
  rw [List.nil_append, List.singleton_append]
  congr 1
  exact occurrences_congr fun name _ => (label_pathClaims h name).symm

end PartSyntax

end RelayerGraph.Query
