import RelayerGraph.Foundation.Reading

/-!
# The typed query plan

The plan a query text parses into, the errors a query is refused with, and the
limits it is read under.
-/

namespace RelayerGraph.Query

/-- ASCII lower case; other characters stay. -/
def toAsciiLowercase (text : String) : String :=
  .ofList (text.toList.map Char.toLower)

/-! ## Errors -/

inductive QueryPhase where
  | envelope
  | parse
  | plan
  | authorize
  | execute
  | normalize
  | encode
deriving DecidableEq

/-- The codes that reading and planning a query report. -/
inductive QueryCode where
  | invalidRequest
  | unsupportedQueryContractVersion
  | queryBytesExceeded
  | querySyntaxInvalid
  | queryConstructForbidden
  | queryConstructUnsupported
  | unknownLabel
  | unknownRelationshipType
  | unknownProperty
  | dynamicSchemaForbidden
  | queryTypeMismatch
  | duplicateOutputColumn
  | invalidAggregate
  | astDepthExceeded
  | variableLimitExceeded
  | patternPartLimitExceeded
  | traversalLimitExceeded
  | rowLimitExceeded
deriving DecidableEq

def QueryCode.phase : QueryCode → QueryPhase
  | .invalidRequest
  | .unsupportedQueryContractVersion
  | .queryBytesExceeded => .envelope
  | .querySyntaxInvalid
  | .queryConstructForbidden
  | .queryConstructUnsupported => .parse
  | .unknownLabel
  | .unknownRelationshipType
  | .unknownProperty
  | .dynamicSchemaForbidden
  | .queryTypeMismatch
  | .duplicateOutputColumn
  | .invalidAggregate
  | .astDepthExceeded
  | .variableLimitExceeded
  | .patternPartLimitExceeded
  | .traversalLimitExceeded
  | .rowLimitExceeded => .plan

structure QueryError where
  code : QueryCode
  phase : QueryPhase
  path : String
  message : String
deriving DecidableEq

def QueryError.new (code : QueryCode) (path message : String) : QueryError :=
  ⟨code, code.phase, path, message⟩

def QueryError.withPhase (error : QueryError) (phase : QueryPhase) :
    QueryError :=
  { error with phase }

/-- An error of the parse stage. -/
structure ParseError where
  error : QueryError
  phase_eq : error.phase = .parse
deriving DecidableEq

def ParseError.new (code : QueryCode) (path message : String)
    (hphase : code.phase = .parse := by rfl) : ParseError :=
  ⟨.new code path message, hphase⟩

/-- An error of the plan stage. -/
structure PlanError where
  error : QueryError
  phase_eq : error.phase = .plan
deriving DecidableEq

/-! ## Limits -/

/-- The limits that reading and planning a query enforce. -/
structure QueryLimits where
  queryBytes : ℕ
  astDepth : ℕ
  variableCount : ℕ
  patternParts : ℕ
  traversalHops : ℕ
  hardRows : ℕ
deriving DecidableEq

instance : Inhabited QueryLimits where
  default :=
    { queryBytes := 8 * 1024
      astDepth := 32
      variableCount := 16
      patternParts := 4
      traversalHops := 2
      hardRows := 8 }

/-! ## Patterns -/

inductive NodeLabel where
  | content
  | layer
deriving DecidableEq

def NodeLabel.parse (value : String) : Option NodeLabel :=
  match toAsciiLowercase value with
  | "content" => some .content
  | "layer" => some .layer
  | _ => none

inductive RelationshipType where
  | connected
  | contains
  | expands
  | references
deriving DecidableEq

def RelationshipType.parse (value : String) : Option RelationshipType :=
  match toAsciiLowercase value with
  | "connected" => some .connected
  | "contains" => some .contains
  | "expands" => some .expands
  | "references" => some .references
  | _ => none

def RelationshipType.asStr : RelationshipType → String
  | .connected => "CONNECTED"
  | .contains => "CONTAINS"
  | .expands => "EXPANDS"
  | .references => "REFERENCES"

def RelationshipType.isUndirected : RelationshipType → Bool
  | .connected => true
  | _ => false

inductive Direction where
  | outgoing
  | incoming
  | undirected
deriving DecidableEq

structure NodePlan where
  binding : String
  label : Option NodeLabel
  occurrence : ℕ
deriving DecidableEq

/-- A relationship of a pattern, its two ends already in the direction its
type has in the graph. -/
structure RelationshipPlan where
  binding : Option String
  relationshipType : RelationshipType
  direction : Direction
  fromBinding : String
  toBinding : String
deriving DecidableEq

structure PatternPart where
  pathBinding : Option String
  nodes : List NodePlan
  relationships : List RelationshipPlan
deriving DecidableEq

/-! ## Predicates -/

inductive CompareOp where
  | equal
  | notEqual
  | less
  | lessOrEqual
  | greater
  | greaterOrEqual
deriving DecidableEq

structure PropertyRef where
  binding : String
  name : String
deriving DecidableEq

inductive Predicate where
  | propertyComparison (property : PropertyRef) (operator : CompareOp)
      (parameter : String)
  | nullTest (property : PropertyRef) (negated : Bool)
  | absenceTest (property : PropertyRef) (negated : Bool)
deriving DecidableEq

/-! ## Expressions -/

inductive AggregateFunction where
  | count
  | min
  | max
  | sum
  | avg
  | collect
deriving DecidableEq

def AggregateFunction.parse (value : String) : Option AggregateFunction :=
  match toAsciiLowercase value with
  | "count" => some .count
  | "min" => some .min
  | "max" => some .max
  | "sum" => some .sum
  | "avg" => some .avg
  | "collect" => some .collect
  | _ => none

/-- A projected expression; the one aggregate without an argument is
`count(*)`. -/
inductive Expression where
  | binding (binding : String)
  | property (property : PropertyRef)
  | parameter (name : String)
  | list (items : List Expression)
  | record (fields : List (String × Expression))
  | aggregate (function : AggregateFunction) (distinct : Bool)
      (argument : Option Expression)

mutual

/-- Whether an expression has an aggregate at any depth. -/
def Expression.hasAggregate : Expression → Bool
  | .aggregate _ _ _ => true
  | .list items => anyHasAggregate items
  | .record fields => anyFieldHasAggregate fields
  | _ => false

def Expression.anyHasAggregate : List Expression → Bool
  | [] => false
  | item :: items => item.hasAggregate || anyHasAggregate items

def Expression.anyFieldHasAggregate : List (String × Expression) → Bool
  | [] => false
  | (_, value) :: fields => value.hasAggregate || anyFieldHasAggregate fields

end

/-! ## The plan -/

structure Column where
  name : String
  expression : Expression

inductive SortDirection where
  | asc
  | desc
deriving DecidableEq

inductive NullPlacement where
  | first
  | last
deriving DecidableEq

structure Ordering where
  column : String
  direction : SortDirection
  nulls : NullPlacement
deriving DecidableEq

inductive Limit where
  | literal (value : ℕ)
  | parameter (name : String)
deriving DecidableEq

structure Projection where
  distinct : Bool
  columns : List Column

/-- The plan of a query; the descriptors of its parameters join it in
`PlannedQuery`, once the request has been checked against it. -/
structure QueryPlan where
  patterns : List PatternPart
  predicates : List Predicate
  projection : Projection
  ordering : List Ordering
  limit : Option Limit
  maxTraversalHops : ℕ
  requiresOccurrenceConstraint : Bool

end RelayerGraph.Query
