import RelayerGraph.Query.Lexer

/-!
# The query parser

A recursive-descent parser over the tokens of a query text.  A plan error is
recorded while the remaining grammar is read, so that a parse error anywhere in
the text comes first.  Every loop takes a budget from the tokens left when it
starts.
-/

namespace RelayerGraph.Query

open Foundation Reading

/-- The state of the parser: the tokens from its position on, and what the
text read so far binds. -/
structure Parser where
  rest : List Token
  limits : QueryLimits
  bindings : Finmap fun _ : String => Option NodeLabel
  relationshipBindings : Finmap fun _ : String => RelationshipType
  pathBindings : Finset String
  deferredPlanError : Option PlanError
  projectionIndex : Option ℕ

abbrev Parsing (α : Type) := Reading Parser ParseError α

def Parser.start (tokens : List Token) (limits : QueryLimits) : Parser where
  rest := tokens
  limits := limits
  bindings := ∅
  relationshipBindings := ∅
  pathBindings := ∅
  deferredPlanError := none
  projectionIndex := none

def contentProperties : List String :=
  ["kind", "icon", "title", "detail", "state"]

def layerProperties : List String :=
  ["state", "layout_version"]

def connectedProperties : List String :=
  ["state"]

def containsProperties : List String :=
  ["order", "x", "y"]

def actionProperties : List String :=
  ["source_layer_id", "label", "variant", "icon", "description", "relation",
    "state"]

def unsupportedKeywords : List String :=
  ["union", "unwind", "optional", "with", "foreach", "case", "exists"]

def forbiddenKeywords : List String :=
  ["create", "merge", "delete", "set", "remove", "detach", "drop", "alter",
    "call", "install", "load"]

namespace Parser

/-! ## Tokens and errors -/

/-- The path a plan error is reported under inside the projection. -/
def returnPath (index : ℕ) : String :=
  s!"query.return[{index}]"

/-- Reports an error of the whole query under the column being read. -/
def underColumn (index : Option ℕ) (error : QueryError) : QueryError :=
  match index with
  | some index =>
      if error.path = "query" then { error with path := returnPath index }
      else error
  | none => error

theorem underColumn_phase (index : Option ℕ) (error : QueryError) :
    (underColumn index error).phase = error.phase := by
  unfold underColumn
  split
  · split <;> rfl
  · rfl

def underColumnParse (index : Option ℕ) (error : ParseError) : ParseError :=
  ⟨underColumn index error.error,
    (underColumn_phase index error.error).trans error.phase_eq⟩

/-- Records the first plan error. -/
def deferPlanError (error : QueryError)
    (hphase : error.phase = .plan := by rfl) : Parsing Unit :=
  modify fun p =>
    if p.deferredPlanError.isNone then
      { p with
        deferredPlanError :=
          some ⟨underColumn p.projectionIndex error,
            (underColumn_phase _ _).trans hphase⟩ }
    else p

/-- Records a plan error when the condition holds. -/
def deferWhen (condition : Prop) [Decidable condition] (error : QueryError)
    (hphase : error.phase = .plan := by rfl) : Parsing Unit :=
  if condition then deferPlanError error hphase else pure ()

def peek : Parsing (Option Token) :=
  fun p => .done (p.rest.head?, p)

def advance : Parsing Unit :=
  modify fun p => { p with rest := p.rest.tail }

def isWord (expected : String) : Option Token → Bool
  | some (.word word) => toAsciiLowercase word = expected
  | _ => false

def isSymbol (expected : String) (token : Option Token) : Bool :=
  token = some (.symbol expected)

def eatWord (expected : String) : Parsing Bool :=
  fun p =>
    if isWord expected p.rest.head? then
      .done (true, { p with rest := p.rest.tail })
    else .done (false, p)

def eatSymbol (expected : String) : Parsing Bool :=
  fun p =>
    if isSymbol expected p.rest.head? then
      .done (true, { p with rest := p.rest.tail })
    else .done (false, p)

def isFunctionCall (p : Parser) (name : String) : Bool :=
  isWord name p.rest.head? && isSymbol "(" p.rest[1]?

def syntaxError (message : String) : ParseError :=
  .new .querySyntaxInvalid "query" message

def expectSymbol (expected : String) : Parsing Unit := do
  if ← eatSymbol expected then pure ()
  else fail (syntaxError s!"expected `{expected}`")

def identifier : Parsing String :=
  fun p =>
    match p.rest with
    | .word word :: rest => .done (word, { p with rest })
    | _ => .failed (syntaxError "expected an identifier")

def bindingIsBound (p : Parser) (binding : String) : Bool :=
  binding ∈ p.bindings || binding ∈ p.relationshipBindings
    || binding ∈ p.pathBindings

/-- Refuses a construct that is forbidden or not admitted where a clause
begins. -/
def refuseClause : Parsing Unit := do
  match ← peek with
  | some (.word word) =>
      if toAsciiLowercase word ∈ forbiddenKeywords then
        fail (.new .queryConstructForbidden "query"
          s!"`{word}` is forbidden by query contract version 1")
      else if toAsciiLowercase word ∈ unsupportedKeywords then
        fail (.new .queryConstructUnsupported "query"
          s!"`{word}` is not admitted by query contract version 1")
      else pure ()
  | _ => pure ()

/-! ## Patterns -/

/-- Reads the label of a node pattern, if it has one; an unknown label counts as
the one the binding has already.  The occurrence is the node's place in its
part. -/
def nodeLabel (occurrence : ℕ) (binding : String) :
    Parsing (Option NodeLabel) := do
  if ← eatSymbol ":" then
    match ← peek with
    | some (.parameter _) =>
        fail ⟨QueryError.withPhase (.new .dynamicSchemaForbidden
          "query.match[0].label" "dynamic node labels are forbidden") .parse,
          rfl⟩
    | _ =>
        let name ← identifier
        let p ← get
        deferWhen (NodeLabel.parse name = none) (.new .unknownLabel
          s!"query.match[0].nodes[{occurrence}].label"
          s!"`{name}` is not a v1 node label")
        return some ((NodeLabel.parse name).getD
          ((p.bindings.lookup binding).join.getD .content))
  else return none

/-- Binds a node; a repeated binding must not contradict its first label. -/
def bindNode (occurrence : ℕ) (binding : String)
    (label : Option NodeLabel) : Parsing NodePlan := do
  let p ← get
  deferWhen (binding ∈ p.pathBindings) (.new .queryTypeMismatch "query.match"
    s!"node binding `{binding}` collides with a path binding")
  deferWhen (binding ∉ p.pathBindings ∧ binding ∈ p.relationshipBindings)
    (.new .queryTypeMismatch "query.match"
      s!"node binding `{binding}` collides with a relationship binding")
  let existing := (p.bindings.lookup binding).join
  deferWhen (label ≠ none ∧ existing ≠ none ∧ existing ≠ label)
    (.new .queryTypeMismatch "query"
      s!"binding `{binding}` is used with two different labels")
  let resolvedLabel := existing.or label
  modify fun q =>
    { q with
      bindings :=
        if binding ∈ p.pathBindings ∨ binding ∈ p.relationshipBindings then
          q.bindings
        else q.bindings.insert binding resolvedLabel }
  return { binding, label := resolvedLabel, occurrence }

def nodePattern (occurrence : ℕ) : Parsing NodePlan := do
  expectSymbol "("
  let binding ← identifier
  let label ← nodeLabel occurrence binding
  expectSymbol ")"
  bindNode occurrence binding label

/-- Whether a relationship follows, and then whether it is incoming. -/
def relationshipOpening : Parsing (Option Bool) := do
  if ← eatSymbol "<-" then
    expectSymbol "["
    return some true
  else if ← eatSymbol "-[" then return some false
  else return none

def relationshipBinding : Parsing (Option String) := do
  match ← peek with
  | some (.word _) =>
      let binding ← identifier
      return some binding
  | _ => return none

def relationshipDirection (incoming : Bool) : Parsing Direction := do
  if incoming then
    expectSymbol "-"
    return .incoming
  else if ← eatSymbol "->" then return .outgoing
  else if ← eatSymbol "-" then return .undirected
  else fail (syntaxError "expected `-` or `->` after a relationship")

/-- The type of a relationship written with the given name and direction. -/
def admittedType (name : String) (direction : Direction) :
    Parsing RelationshipType := do
  match RelationshipType.parse name with
  | some relationshipType =>
      let written := relationshipType.asStr
      if relationshipType.isUndirected ∧ direction ≠ .undirected then
        fail (.new .queryConstructForbidden "query"
          "CONNECTED is undirected and cannot be written with an arrow")
      else if ¬ relationshipType.isUndirected ∧ direction = .undirected then
        fail (.new .queryConstructForbidden "query"
          s!"{written} is directed and needs an arrow")
      else return relationshipType
  | none =>
      deferPlanError (.new .unknownRelationshipType "query"
        s!"`{name}` is not a v1 relationship type")
      return if direction = .undirected then .connected else .contains

def bindRelationship (relationshipType : RelationshipType) :
    Option String → Parsing Unit
  | none => pure ()
  | some binding => do
      let p ← get
      if bindingIsBound p binding then
        deferPlanError (.new .queryTypeMismatch "query.match"
          s!"relationship binding `{binding}` collides with another MATCH binding")
      else
        modify fun q =>
          { q with
            relationshipBindings :=
              q.relationshipBindings.insert binding relationshipType }

def relationshipPattern :
    Parsing (Option (Option String × Direction × RelationshipType)) := do
  match ← relationshipOpening with
  | none => return none
  | some incoming =>
      let binding ← relationshipBinding
      expectSymbol ":"
      let name ← identifier
      expectSymbol "]"
      let direction ← relationshipDirection incoming
      let relationshipType ← admittedType name direction
      bindRelationship relationshipType binding
      return some (binding, direction, relationshipType)

def contradictsEndpoint (binding : String) : QueryError :=
  .new .queryTypeMismatch "query.match"
    s!"binding `{binding}` contradicts the endpoint type required by its relationship"

/-- Gives the required label to an occurrence of the binding. -/
def constrainNode (binding : String) (required : NodeLabel) (node : NodePlan) :
    Parsing NodePlan := do
  if node.binding = binding then
    if node.label.any (· ≠ required) then
      deferPlanError (contradictsEndpoint binding)
      return node
    else return { node with label := some required }
  else return node

def constrainNodes (binding : String) (required : NodeLabel) :
    List NodePlan → Parsing (List NodePlan)
  | [] => pure []
  | node :: nodes => do
      let node ← constrainNode binding required node
      let nodes ← constrainNodes binding required nodes
      return node :: nodes

def constrainBinding (binding : String) (required : NodeLabel) :
    Parsing Unit := do
  let p ← get
  if (p.bindings.lookup binding).join.any (· ≠ required) then
    deferPlanError (contradictsEndpoint binding)
  else
    modify fun q =>
      { q with bindings := q.bindings.insert binding (some required) }

def constrainNodeLabel (nodes : List NodePlan) (binding : String)
    (required : NodeLabel) : Parsing (List NodePlan) := do
  constrainBinding binding required
  constrainNodes binding required nodes

/-- The labels a relationship type requires of its two ends. -/
def endpointLabels : RelationshipType → NodeLabel × NodeLabel
  | .connected => (.content, .content)
  | .contains => (.layer, .content)
  | .expands | .references => (.content, .layer)

/-- The two ends of a hop from `last` to `target`, in the direction its type has
in the graph. -/
def hopEnds (direction : Direction) (last target : String) : String × String :=
  match direction with
  | .incoming => (target, last)
  | _ => (last, target)

/-- Reads the hops of a part, `last` being the binding of its last node. -/
def hops : ℕ → List NodePlan → String → List RelationshipPlan →
    Parsing (List NodePlan × List RelationshipPlan)
  | 0, _, _, _ => exhaust
  | fuel + 1, nodes, last, relationships => do
      match ← relationshipPattern with
      | none => return (nodes, relationships)
      | some (binding, direction, relationshipType) =>
          let target ← nodePattern nodes.length
          let ends := hopEnds direction last target.binding
          let labels := endpointLabels relationshipType
          let nodes ← constrainNodeLabel (nodes ++ [target]) ends.1 labels.1
          let nodes ← constrainNodeLabel nodes ends.2 labels.2
          hops fuel nodes target.binding (relationships ++
            [⟨binding, relationshipType, direction, ends.1, ends.2⟩])

/-- Reads the name of a path, if the part has one. -/
def pathName : Parsing (Option String) := do
  let p ← get
  match p.rest with
  | .word binding :: .symbol "=" :: _ =>
      advance
      advance
      return some binding
  | _ => return none

def bindPath (relationships : List RelationshipPlan) :
    Option String → Parsing Unit
  | none => pure ()
  | some binding => do
      deferWhen (relationships = []) (.new .queryTypeMismatch "query.match"
        "a path binding requires at least one relationship")
      let p ← get
      if bindingIsBound p binding then
        deferPlanError (.new .queryTypeMismatch "query.match"
          s!"path binding `{binding}` collides with another MATCH binding")
      else
        modify fun q =>
          { q with pathBindings := insert binding q.pathBindings }

def patternPart : Parsing PatternPart := do
  let pathBinding ← pathName
  let first ← nodePattern 0
  let p ← get
  let (nodes, relationships) ←
    hops (p.rest.length + 1) [first] first.binding []
  bindPath relationships pathBinding
  return { pathBinding, nodes, relationships }

/-- Reads the further parts of the MATCH clause. -/
def patternParts : ℕ → Parsing (List PatternPart)
  | 0 => exhaust
  | fuel + 1 => do
      if ← eatSymbol "," then
        let part ← patternPart
        let parts ← patternParts fuel
        return part :: parts
      else return []

/-- The node occurrences of a part that no relationship of the part and no
label types. -/
def unanchored (part : PatternPart) (node : NodePlan) : Bool :=
  node.label.isNone &&
    !part.relationships.any fun relationship =>
      relationship.fromBinding = node.binding
        || relationship.toBinding = node.binding

def checkNodes (patternIndex : ℕ) (part : PatternPart) :
    ℕ → List NodePlan → Parsing Unit
  | _, [] => pure ()
  | nodeIndex, node :: nodes => do
      let binding := node.binding
      deferWhen (unanchored part node) (.new .queryTypeMismatch
        s!"query.match[{patternIndex}].nodes[{nodeIndex}]"
        s!"`{binding}` needs a node label")
      checkNodes patternIndex part (nodeIndex + 1) nodes

def checkPatterns : ℕ → List PatternPart → Parsing Unit
  | _, [] => pure ()
  | patternIndex, part :: parts => do
      checkNodes patternIndex part 0 part.nodes
      checkPatterns (patternIndex + 1) parts

/-- Joins a component with those among `components` that share a binding with
it, and returns the others beside it. -/
def joinComponent (bindings : Finset String) (hops : ℕ) :
    List (Finset String × ℕ) →
      List (Finset String × ℕ) × (Finset String × ℕ)
  | [] => ([], (bindings, hops))
  | (existing, existingHops) :: components =>
      if Disjoint existing bindings then
        let (remaining, joined) := joinComponent bindings hops components
        ((existing, existingHops) :: remaining, joined)
      else joinComponent (bindings ∪ existing) (hops + existingHops) components

def joinPart (components : List (Finset String × ℕ)) (part : PatternPart) :
    List (Finset String × ℕ) :=
  let (remaining, joined) :=
    joinComponent (part.nodes.map (·.binding)).toFinset
      part.relationships.length components
  remaining ++ [joined]

/-- Hops across joined pattern parts: parts that share a node binding are one
traversal, so their hops add up. -/
def joinedTraversalHops (patterns : List PatternPart) : ℕ :=
  ((patterns.foldl joinPart []).map (·.2)).foldr max 0

def requiresOccurrenceConstraint (patterns : List PatternPart) : Bool :=
  let relationships := patterns.flatMap (·.relationships)
  let contains := relationships.filter (·.relationshipType = .contains)
  let actions := relationships.filter fun relationship =>
    relationship.relationshipType = .expands
      ∨ relationship.relationshipType = .references
  contains.any fun membership =>
    actions.any fun action => membership.toBinding = action.fromBinding

/-! ## Properties and predicates -/

/-- The properties of what a binding was matched as; an unlabelled node could be
either. -/
def allowedProperties (p : Parser) (binding : String) :
    Option (Option (List String)) :=
  match p.bindings.lookup binding with
  | some (some .content) => some (some contentProperties)
  | some (some .layer) => some (some layerProperties)
  | some none => some none
  | none =>
      match p.relationshipBindings.lookup binding with
      | some .connected => some (some connectedProperties)
      | some .contains => some (some containsProperties)
      | some .expands | some .references => some (some actionProperties)
      | none => none

/-- A property has to exist on whatever the binding was matched as. -/
def validateProperty (binding name : String) : Parsing Unit := do
  let p ← get
  let errorPath := p.projectionIndex.elim "query" returnPath
  match allowedProperties p binding with
  | some (some allowed) =>
      deferWhen (name ∉ allowed) (.new .unknownProperty errorPath
        s!"`{name}` is not a visible property of `{binding}`")
  | some none => pure ()
  | none =>
      deferPlanError (.new .dynamicSchemaForbidden errorPath
        s!"`{binding}` is not bound by the MATCH clause")

def property : Parsing PropertyRef := do
  let binding ← identifier
  expectSymbol "."
  let name ← identifier
  validateProperty binding name
  return { binding, name }

def vectorSearch : ParseError :=
  .new .queryConstructUnsupported "query.where"
    "vector search is deferred from query contract version 1"

def CompareOp.ofSymbol : String → Option CompareOp
  | "=" => some .equal
  | "<>" => some .notEqual
  | "<" => some .less
  | "<=" => some .lessOrEqual
  | ">" => some .greater
  | ">=" => some .greaterOrEqual
  | _ => none

def compareOperator : Parsing CompareOp := do
  match ← peek with
  | some (.symbol symbol) =>
      match CompareOp.ofSymbol symbol with
      | some operator =>
          advance
          return operator
      | none => fail (syntaxError "expected a comparison operator")
  | _ => fail (syntaxError "expected a comparison operator")

def predicate : Parsing Predicate := do
  let p ← get
  if isFunctionCall p "vector_similarity" then fail vectorSearch
  else if isFunctionCall p "exists" then
    fail (.new .queryConstructUnsupported "query"
      "`exists` is not admitted by query contract version 1")
  else
    let property ← property
    if ← eatWord "is" then
      let negated ← eatWord "not"
      if ← eatWord "null" then return .nullTest property negated
      else if ← eatWord "absent" then return .absenceTest property negated
      else fail (syntaxError "expected NULL or ABSENT after IS")
    else
      let operator ← compareOperator
      let p ← get
      if isFunctionCall p "vector_similarity" then fail vectorSearch
      else
        match ← peek with
        | some (.parameter name) =>
            advance
            return .propertyComparison property operator name
        | _ =>
            fail (.new .queryConstructForbidden "query"
              "a comparison compares a property with a parameter")

def predicates : ℕ → Parsing (List Predicate)
  | 0 => exhaust
  | fuel + 1 => do
      let first ← predicate
      if ← eatWord "and" then
        let others ← predicates fuel
        return first :: others
      else return [first]

def whereClause : Parsing (List Predicate) := do
  if ← eatWord "where" then
    let p ← get
    predicates (p.rest.length + 1)
  else return []

/-! ## Expressions -/

/-- What is left to read of an expression whose depth is exceeded. -/
inductive Task where
  | expression
  | listTail
  | recordField
  | recordTail
  | close (symbol : String)
deriving DecidableEq

def notAdmitted (binding : String) : ParseError :=
  .new .queryConstructUnsupported "query"
    s!"`{binding}` is not admitted by query contract version 1"

def dynamicLookup : ParseError :=
  ⟨QueryError.withPhase (.new .dynamicSchemaForbidden "query"
    "dynamic property lookup is forbidden") .parse, rfl⟩

def notAFunction (binding : String) : ParseError :=
  .new .queryConstructForbidden "query"
    s!"`{binding}` is not an admitted function"

/-- Whether the identifier just read is a keyword that is not admitted, used as
one. -/
def isUnsupported (p : Parser) (binding : String) : Bool :=
  toAsciiLowercase binding ∈ unsupportedKeywords
    && !bindingIsBound p binding
    && (toAsciiLowercase binding = "case" || isSymbol "(" p.rest.head?)

def recoverAggregate (binding : String) (tasks : List Task) :
    Parsing (List Task) := do
  if AggregateFunction.parse binding = none then fail (notAFunction binding)
  else
    expectSymbol "("
    let _ ← eatWord "distinct"
    if ← eatSymbol "*" then
      expectSymbol ")"
      return tasks
    else return .expression :: .close ")" :: tasks

/-- Takes one task, and returns the tasks that are left after it. -/
def recoverTask (task : Task) (tasks : List Task) : Parsing (List Task) :=
  match task with
  | .expression => do
      if ← eatSymbol "[" then
        if ← eatSymbol "]" then return tasks
        else return .expression :: .listTail :: tasks
      else if ← eatSymbol "\x7b" then return .recordField :: tasks
      else
        match ← peek with
        | some (.parameter _) =>
            advance
            return tasks
        | _ =>
            let binding ← identifier
            let p ← get
            if isUnsupported p binding then fail (notAdmitted binding)
            else if ← eatSymbol "[" then fail dynamicLookup
            else if isSymbol "(" (← peek) then recoverAggregate binding tasks
            else if ← eatSymbol "." then
              let _ ← identifier
              return tasks
            else return tasks
  | .listTail => do
      if ← eatSymbol "," then return .expression :: .listTail :: tasks
      else
        expectSymbol "]"
        return tasks
  | .recordField => do
      let _ ← identifier
      expectSymbol ":"
      return .expression :: .recordTail :: tasks
  | .recordTail => do
      if ← eatSymbol "," then return .recordField :: tasks
      else
        expectSymbol "\x7d"
        return tasks
  | .close symbol => do
      expectSymbol symbol
      return tasks

def recoverTasks : ℕ → List Task → Parsing Unit
  | _, [] => pure ()
  | 0, _ :: _ => exhaust
  | fuel + 1, task :: tasks => do
      let tasks ← recoverTask task tasks
      recoverTasks fuel tasks

/-- Reads one expression without recursion, once the depth is exceeded. -/
def recoverExpressionSyntax : Parsing Unit := do
  let p ← get
  recoverTasks (p.rest.length + 1) [.expression]

mutual

def expressionAt : ℕ → ℕ → Parsing Expression
  | 0, _ => exhaust
  | fuel + 1, depth => do
      let p ← get
      let astDepth := p.limits.astDepth
      if astDepth < depth then
        deferPlanError (.new .astDepthExceeded "query"
          s!"expressions nest at most {astDepth} deep")
        recoverExpressionSyntax
        return .parameter "__ast_depth_exceeded"
      else if ← eatSymbol "[" then
        if ← eatSymbol "]" then return .list []
        else
          let first ← expressionAt fuel (depth + 1)
          let items ← listItems fuel (depth + 1)
          return .list (first :: items)
      else if ← eatSymbol "\x7b" then
        let fields ← recordFields fuel (depth + 1) []
        return .record fields
      else
        match ← peek with
        | some (.parameter name) =>
            advance
            return .parameter name
        | _ =>
            let binding ← identifier
            let p ← get
            if isUnsupported p binding then fail (notAdmitted binding)
            else if ← eatSymbol "[" then fail dynamicLookup
            else if isSymbol "(" (← peek) then aggregate fuel binding depth
            else if ← eatSymbol "." then
              let name ← identifier
              validateProperty binding name
              return .property { binding, name }
            else
              let p ← get
              deferWhen (¬ bindingIsBound p binding) (.new
                .dynamicSchemaForbidden
                (p.projectionIndex.elim "query" returnPath)
                s!"`{binding}` is not bound by the MATCH clause")
              return .binding binding

/-- Reads the items of a list after its first one, and the bracket that closes
it. -/
def listItems : ℕ → ℕ → Parsing (List Expression)
  | 0, _ => exhaust
  | fuel + 1, depth => do
      if ← eatSymbol "," then
        let item ← expressionAt fuel depth
        let items ← listItems fuel depth
        return item :: items
      else
        expectSymbol "]"
        return []

/-- Reads the fields of a record after the names `seen`, and the brace that
closes it. -/
def recordFields : ℕ → ℕ → List String →
    Parsing (List (String × Expression))
  | 0, _, _ => exhaust
  | fuel + 1, depth, seen => do
      let name ← identifier
      expectSymbol ":"
      let value ← expressionAt fuel depth
      deferWhen (name ∈ seen) (.new .duplicateOutputColumn "query"
        s!"record field `{name}` appears twice")
      if ← eatSymbol "," then
        let fields ← recordFields fuel depth (seen ++ [name])
        return (name, value) :: fields
      else
        expectSymbol "\x7d"
        return [(name, value)]

def aggregate : ℕ → String → ℕ → Parsing Expression
  | 0, _, _ => exhaust
  | fuel + 1, name, depth => do
      match AggregateFunction.parse name with
      | none => fail (notAFunction name)
      | some function =>
          expectSymbol "("
          let distinct ← eatWord "distinct"
          if ← eatSymbol "*" then
            expectSymbol ")"
            deferWhen (function ≠ .count ∨ distinct) (.new .invalidAggregate
              "query"
              "only count(*) takes a star, and it does not take DISTINCT")
            return .aggregate function false none
          else
            let argument ← expressionAt fuel (depth + 1)
            expectSymbol ")"
            deferWhen argument.hasAggregate (.new .invalidAggregate "query"
              "aggregates do not nest")
            return .aggregate function distinct (some argument)

end

def expression : Parsing Expression := do
  let p ← get
  expressionAt (p.rest.length + 1) 0

/-! ## The projection -/

/-- The type an expression carries, where it can be known from the text. -/
def staticType (p : Parser) : Expression → Option String
  | .property property =>
      match p.bindings.lookup property.binding with
      | some (some .layer) =>
          if property.name = "layout_version" then some "integer"
          else some "string"
      | some (some .content) => some "string"
      | _ =>
          match p.relationshipBindings.lookup property.binding with
          | none => none
          | some .contains =>
              if property.name = "order" then some "integer"
              else if property.name = "x" ∨ property.name = "y" then
                some "float"
              else some "string"
          | some _ => some "string"
  | .binding binding =>
      match p.bindings.lookup binding with
      | some (some .content) => some "node"
      | some (some .layer) => some "layer"
      | some none => none
      | none =>
          match p.relationshipBindings.lookup binding with
          | some _ => some "relationship"
          | none => some "path"
  | .list _ => some "list"
  | .record _ => some "record"
  | .parameter _ => none
  | .aggregate _ _ _ => none

def checkKinds (kinds : List String) : Parsing Unit :=
  match kinds with
  | [] => pure ()
  | first :: others =>
      match others.find? (· ≠ first) with
      | none => pure ()
      | some other =>
          deferPlanError (.new .queryTypeMismatch "query"
            s!"a list cannot mix {first} and {other} elements")

mutual

/-- Lists are homogeneous as far as the text tells. -/
def checkHomogeneous : Expression → Parsing Unit
  | .list items => do
      let p ← get
      checkKinds (items.filterMap (staticType p))
      checkItems items
  | .record fields => checkFields fields
  | _ => pure ()

def checkItems : List Expression → Parsing Unit
  | [] => pure ()
  | item :: items => do
      checkHomogeneous item
      checkItems items

def checkFields : List (String × Expression) → Parsing Unit
  | [] => pure ()
  | (_, value) :: fields => do
      checkHomogeneous value
      checkFields fields

end

/-- The name an expression gives its column without an alias. -/
def columnName : Expression → Option String
  | .property property => some property.name
  | .binding binding => some binding
  | _ => none

def isEmptyList : Expression → Bool
  | .list [] => true
  | _ => false

def returnItem : Parsing Column := do
  let expression ← expression
  deferWhen (isEmptyList expression) (.new .queryTypeMismatch "query"
    "an empty list literal has no element type")
  checkHomogeneous expression
  if ← eatWord "as" then
    let name ← identifier
    return { name, expression }
  else
    match columnName expression with
    | some name => return { name, expression }
    | none =>
        fail (.new .querySyntaxInvalid "query"
          "parameter, aggregate, list, and record expressions require AS aliases")

/-- Reads the column of the given index, errors reported under it. -/
def returnColumn (index : ℕ) : Parsing Column := do
  modify fun p => { p with projectionIndex := some index }
  let column ← mapError (underColumnParse (some index)) returnItem
  modify fun p => { p with projectionIndex := none }
  return column

def returnColumns : ℕ → ℕ → Parsing (List Column)
  | 0, _ => exhaust
  | fuel + 1, index => do
      let column ← returnColumn index
      if ← eatSymbol "," then
        let columns ← returnColumns fuel (index + 1)
        return column :: columns
      else return [column]

def checkColumnNames : ℕ → List String → List Column → Parsing Unit
  | _, _, [] => pure ()
  | index, seen, column :: columns => do
      let name := column.name
      deferWhen (name ∈ seen) (.new .duplicateOutputColumn (returnPath index)
        s!"output column `{name}` appears twice")
      checkColumnNames (index + 1) (name :: seen) columns

def returnClause : Parsing Projection := do
  let distinct ← eatWord "distinct"
  let p ← get
  let columns ← returnColumns (p.rest.length + 1) 0
  checkColumnNames 0 [] columns
  return { distinct, columns }

/-! ## Ordering and limit -/

def sortDirection : Parsing SortDirection := do
  if ← eatWord "desc" then return .desc
  else
    let _ ← eatWord "asc"
    return .asc

/-- Nulls are last unless stated; the direction does not flip it. -/
def nullPlacement : Parsing NullPlacement := do
  if ← eatWord "nulls" then
    if ← eatWord "first" then return .first
    else if ← eatWord "last" then return .last
    else fail (syntaxError "expected FIRST or LAST after NULLS")
  else return .last

def orderItem (projection : Projection) : Parsing Ordering := do
  let column ← identifier
  deferWhen (column ∉ projection.columns.map (·.name)) (.new
    .dynamicSchemaForbidden "query"
    s!"ORDER BY `{column}` is not an output column")
  let direction ← sortDirection
  let nulls ← nullPlacement
  return { column, direction, nulls }

def orderItems (projection : Projection) : ℕ → Parsing (List Ordering)
  | 0 => exhaust
  | fuel + 1 => do
      let first ← orderItem projection
      if ← eatSymbol "," then
        let items ← orderItems projection fuel
        return first :: items
      else return [first]

def orderClause (projection : Projection) : Parsing (List Ordering) := do
  if ← eatWord "order" then
    if ← eatWord "by" then
      let p ← get
      orderItems projection (p.rest.length + 1)
    else fail (syntaxError "expected BY after ORDER")
  else return []

def limitClause : Parsing (Option Limit) := do
  if ← eatWord "limit" then
    match ← peek with
    | some (.number value) =>
        advance
        let p ← get
        let hardRows := p.limits.hardRows
        deferWhen (hardRows < value) (.new .rowLimitExceeded "query.limit"
          s!"LIMIT may not exceed {hardRows}")
        return some (.literal value)
    | some (.parameter name) =>
        advance
        return some (.parameter name)
    | _ =>
        fail (syntaxError
          "LIMIT takes a nonnegative integer or a parameter")
  else return none

/-! ## The query -/

/-- Whether the text has a star although it has no word that takes one. -/
def hasStrayStar (tokens : List Token) : Bool :=
  tokens.any (isSymbol "*" ∘ some) &&
    !tokens.any fun token => isWord "count" (some token)
      || isWord "min" (some token)

/-- Checks the limits that the MATCH clause as a whole is under. -/
def checkMatch (patterns : List PatternPart) : Parsing Unit := do
  let p ← get
  let parts := p.limits.patternParts
  deferWhen (parts < patterns.length) (.new .patternPartLimitExceeded "query"
    s!"at most {parts} pattern parts")
  checkPatterns 0 patterns
  let traversal := p.limits.traversalHops
  deferWhen (traversal < joinedTraversalHops patterns) (.new
    .traversalLimitExceeded
    (if patterns.length = 1 then "query.match[0]" else "query.match")
    s!"at most {traversal} traversal hops")
  let variableCount := p.limits.variableCount
  let paths := (patterns.filterMap (·.pathBinding)).toFinset
  deferWhen (variableCount <
      p.bindings.keys.card + p.relationshipBindings.keys.card + paths.card)
    (.new .variableLimitExceeded "query" s!"at most {variableCount} variables")

def matchClause : Parsing (List PatternPart) := do
  refuseClause
  let p ← get
  if hasStrayStar p.rest then
    fail (.new .queryConstructForbidden "query"
      "variable-length relationships are forbidden")
  else if ← eatWord "match" then
    let first ← patternPart
    let p ← get
    let others ← patternParts (p.rest.length + 1)
    checkMatch (first :: others)
    return first :: others
  else fail (syntaxError "a query begins with MATCH")

/-- Reads the whole text; the plan is the one it describes unless a plan error
was recorded. -/
def clauses : Parsing QueryPlan := do
  let patterns ← matchClause
  let predicates ← whereClause
  if ← eatWord "return" then
    let projection ← returnClause
    let ordering ← orderClause projection
    let limit ← limitClause
    let _ ← eatSymbol ";"
    let p ← get
    if p.rest ≠ [] then
      refuseClause
      fail (syntaxError "unexpected trailing input")
    else
      return {
        patterns
        predicates
        projection
        ordering
        limit
        maxTraversalHops := joinedTraversalHops patterns
        requiresOccurrenceConstraint := requiresOccurrenceConstraint patterns }
  else
    refuseClause
    fail (syntaxError "a query needs a RETURN clause")

/-- The first plan error recorded is reported once the text is read. -/
def reportDeferred (plan : QueryPlan) (p : Parser) :
    Reply QueryError QueryPlan :=
  match p.deferredPlanError with
  | some planError => .failed planError.error
  | none => .done plan

def query (p : Parser) : Reply QueryError QueryPlan :=
  match clauses p with
  | .exhausted => .exhausted
  | .failed parseError => .failed parseError.error
  | .done (plan, q) => reportDeferred plan q

end Parser

/-- Parses one query into a typed plan, under the limits of its parse and plan
stages. -/
def parse (query : String) (limits : QueryLimits) :
    Reply QueryError QueryPlan :=
  let bytes := limits.queryBytes
  if bytes < query.utf8ByteSize then
    .failed (.new .queryBytesExceeded "query" s!"query exceeds {bytes} bytes")
  else
    match Lexer.tokenize query with
    | .error error => .failed error
    | .ok tokens => Parser.query (.start tokens limits)

section

variable {text : String} {limits : QueryLimits}

theorem parse_of_long (hbytes : limits.queryBytes < text.utf8ByteSize) :
    ∃ message, parse text limits =
      .failed (.new .queryBytesExceeded "query" message) :=
  ⟨_, if_pos hbytes⟩

theorem parse_of_unread {error : QueryError}
    (hbytes : ¬ limits.queryBytes < text.utf8ByteSize)
    (htokens : Lexer.tokenize text = .error error) :
    parse text limits = .failed error := by
  simp [parse, hbytes, htokens]

theorem parse_of_tokens {tokens : List Token}
    (hbytes : ¬ limits.queryBytes < text.utf8ByteSize)
    (htokens : Lexer.tokenize text = .ok tokens) :
    parse text limits = Parser.query (.start tokens limits) := by
  simp [parse, hbytes, htokens]

end

end RelayerGraph.Query
