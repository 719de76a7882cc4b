import RelayerGraph.Foundation.Scrubbing

/-!
# Receipts of graph operations

What the recorder keeps of a request it has passed on: the method, the path and
the status, the error codes of the answer, and what the route of the request
adds.  The texts a caller writes freely are kept with the known capabilities
struck out.
-/

namespace RelayerGraph

namespace GraphOperationRecorder

open Foundation

/-! ## JSON values -/

inductive Json where
  | null
  | bool (value : Bool)
  | number (value : ℚ)
  | string (value : String)
  | array (items : List Json)
  | object (fields : List (String × Json))

namespace Json

/-- A field of an object; of anything else, what JavaScript has undefined. -/
def get? : Json → String → Option Json
  | .object fields, key => (fields.find? fun entry => entry.1 = key).map Prod.snd
  | _, _ => none

def isObject : Json → Bool
  | .object _ => true
  | _ => false

def asString : Json → Option String
  | .string value => some value
  | _ => none

def asBool : Json → Option Bool
  | .bool value => some value
  | _ => none

def asArray : Json → Option (List Json)
  | .array items => some items
  | _ => none

def isNull : Json → Bool
  | .null => true
  | _ => false

def maxSafeInteger : ℕ := 9007199254740991

def safeInteger : Json → Option ℤ
  | .number value =>
      if value.den = 1 ∧ value.num.natAbs ≤ maxSafeInteger then some value.num
      else none
  | _ => none

/-- A count: a safe integer that is not negative. -/
def naturalInteger (value : Json) : Option ℕ :=
  value.safeInteger.bind fun n => if 0 ≤ n then some n.toNat else none

def positiveInteger (value : Json) : Option ℕ :=
  value.safeInteger.bind fun n => if 0 < n then some n.toNat else none

/-- The text a value becomes where JavaScript needs one.  A list of one item
becomes the text of the item; what else is no string becomes none of the texts
asked for here. -/
def coerced : Json → Option String
  | .string value => some value
  | .array [item] => coerced item
  | _ => none

def ofNat (n : ℕ) : Json := .number n

end Json

/-- A field of a value that may be undefined. -/
def field (value : Option Json) (key : String) : Option Json :=
  value.bind fun found => found.get? key

/-! ## Known secrets -/

def redactedMark : String := "[REDACTED]"

def sensitiveWords : List String :=
  ["authorization", "credential", "password", "secret", "token"]

/-- `SENSITIVE_NAME`. -/
def isSensitiveName (name : String) : Bool :=
  sensitiveWords.any fun word =>
    decide (word.toList <:+: name.toList.map Char.toLower)

def scrubText (knownSecrets : List String) (text : String) : String :=
  String.ofList (Scrubbing.strikeAll redactedMark.toList
    (knownSecrets.map String.toList) text.toList)

/-- An object that is a record: its own fields are listed with their names. -/
def isRecord (fields : List (String × Json)) : Bool :=
  ((Json.object fields).get? "type").bind Json.asString = some "record" &&
    (((Json.object fields).get? "fields").bind Json.asArray).isSome

def fieldName? (fields : List (String × Json)) : Option String :=
  ((Json.object fields).get? "name").bind Json.asString

mutual

def scrubKnownSecrets (knownSecrets : List String) : Json → Json
  | .string value => .string (scrubText knownSecrets value)
  | .array items => .array (scrubItems knownSecrets items)
  | .object fields =>
      if isRecord fields then
        .object (scrubEntries knownSecrets (some "fields") fields ++
          scrubRecordFields knownSecrets fields)
      else .object (scrubEntries knownSecrets none fields)
  | .null => .null
  | .bool value => .bool value
  | .number value => .number value

def scrubItems (knownSecrets : List String) : List Json → List Json
  | [] => []
  | item :: items =>
      scrubKnownSecrets knownSecrets item :: scrubItems knownSecrets items

/-- The entries of an object but the one left for later. -/
def scrubEntries (knownSecrets : List String) (except? : Option String) :
    List (String × Json) → List (String × Json)
  | [] => []
  | (key, value) :: entries =>
      if some key = except? then scrubEntries knownSecrets except? entries
      else
        (key, if isSensitiveName key then .string redactedMark
          else scrubKnownSecrets knownSecrets value) ::
          scrubEntries knownSecrets except? entries

/-- The list of fields of a record. -/
def scrubRecordFields (knownSecrets : List String) :
    List (String × Json) → List (String × Json)
  | [] => []
  | (key, .array items) :: entries =>
      if key = "fields" then
        [("fields", .array (scrubFields knownSecrets items))]
      else scrubRecordFields knownSecrets entries
  | (_, _) :: entries => scrubRecordFields knownSecrets entries

def scrubFields (knownSecrets : List String) : List Json → List Json
  | [] => []
  | .object entries :: rest =>
      (match fieldName? entries with
        | some name =>
            .object (scrubEntries knownSecrets (some "value") entries ++
              scrubFieldValue knownSecrets (isSensitiveName name) entries)
        | none => scrubKnownSecrets knownSecrets (.object entries)) ::
        scrubFields knownSecrets rest
  | value :: rest =>
      scrubKnownSecrets knownSecrets value :: scrubFields knownSecrets rest

/-- The value of a field of a record, hidden under a sensitive name. -/
def scrubFieldValue (knownSecrets : List String) (hidden : Bool) :
    List (String × Json) → List (String × Json)
  | [] => if hidden then [("value", .string redactedMark)] else []
  | (key, value) :: entries =>
      if key = "value" then
        [("value", if hidden then .string redactedMark
          else scrubKnownSecrets knownSecrets value)]
      else scrubFieldValue knownSecrets hidden entries

end

/-! ## Receipts -/

structure AuthoringError where
  id : String
  phase : String
  codes : List String
  deriving DecidableEq

/-- A receipt; `details` are the fields the route adds. -/
structure Receipt where
  method : String
  path : String
  status : ℕ
  errorCodes : List String
  details : List (String × Json)
  authoringError : Option AuthoringError

/-- A field that is there when its value is. -/
def optional (key : String) (value : Option Json) : List (String × Json) :=
  (value.map fun found => (key, found)).toList

def errorCodes (response : Option Json) : List String :=
  let error := (field response "error").filter Json.isObject
  let issues := ((field error "issues").bind Json.asArray).getD []
  let codes := field error "code" :: issues.map fun issue => issue.get? "code"
  (codes.filterMap fun code => code.bind Json.asString).eraseDups

def closedSearchTarget (value : Option Json) : Option Json := do
  let scope ← (field value "scope").bind Json.asString
  let id ← (field value "id").bind Json.positiveInteger
  if scope ∈ ["thread", "project"] then
    some (.object [("scope", .string scope), ("id", .ofNat id)])
  else none

def searchBudgetKeys : List String :=
  ["queryBytes", "astDepth", "variables", "patternParts", "traversalHops",
    "examinedExpansions", "intermediateRows", "wallTimeMs", "resultRows",
    "encodedResultBytes"]

def closedSearchBudget (value : Option Json) : Option Json :=
  let budget := searchBudgetKeys.flatMap fun key =>
    optional key (((field value key).bind Json.naturalInteger).map .ofNat)
  if budget = [] then none else some (.object budget)

/-- What a search adds of its request. -/
def withSearchRequest (request : Option Json) (knownSecrets : List String) :
    List (String × Json) :=
  optional "queryContractVersion"
      (((field request "queryContractVersion").bind Json.safeInteger).map
        fun n => .number n) ++
    optional "target" (closedSearchTarget (field request "target")) ++
    optional "query" (((field request "query").bind Json.asString).map
      fun query => .string (scrubText knownSecrets query)) ++
    optional "parameters" (((field request "parameters").filter
      Json.isObject).map (scrubKnownSecrets knownSecrets)) ++
    optional "budget" (closedSearchBudget (field request "budget"))

def withRecord (recordKind : String) (value : Option Json) :
    List (String × Json) :=
  match (field value "id").bind Json.positiveInteger with
  | none => []
  | some id =>
      [("recordKind", .string recordKind), ("recordId", .ofNat id)] ++
        optional "recordState"
          (((field value "state").bind Json.asString).map .string)

/-- A positive number, or the null that says there is none. -/
def positiveOrNull (value : Json) : Option Json :=
  if value.isNull then some .null else value.positiveInteger.map .ofNat

def textOrNull (value : Json) : Option Json :=
  if value.isNull then some .null else value.asString.map .string

def withAction (value : Option Json) : List (String × Json) :=
  withRecord "action" value ++
    optional "actionKind"
      (((field value "kind").bind Json.asString).map .string) ++
    optional "actionRelation" ((field value "relation").bind textOrNull) ++
    optional "actionSourceNodeId"
      (((field value "sourceNodeId").bind Json.positiveInteger).map .ofNat) ++
    optional "actionSourceLayerId"
      ((field value "sourceLayerId").bind positiveOrNull) ++
    optional "actionTargetLayerId"
      ((field value "targetLayerId").bind positiveOrNull)

/-- The number between a beginning and an end of a text, written without a
leading zero. -/
def numberBetween (before after text : String) : Option ℕ := do
  let rest ← before.toList.isPrefixOf? text.toList
  let digits := rest.takeWhile Char.isDigit
  if rest.dropWhile Char.isDigit = after.toList ∧ digits ≠ [] ∧
      digits.head? ≠ some '0' then
    some (digits.foldl (fun n c => n * 10 + (c.toNat - '0'.toNat)) 0)
  else none

/-- The number of a layer a search has found. -/
def searchLayerId (value : Json) : Option ℕ := do
  let type ← (value.get? "type").bind Json.asString
  let text ← (value.get? "id").bind Json.asString
  let id ← numberBetween "layer:" "" text
  if type = "layer" ∧ id ≤ Json.maxSafeInteger then some id else none

def withSearch (response : Option Json) : List (String × Json) :=
  match (field response "rows").bind Json.asArray with
  | none => []
  | some rows =>
      let found := rows.flatMap fun row =>
        (row.asArray.getD []).filterMap searchLayerId
      ("searchLayerIds", .array (found.map .ofNat)) ::
        optional "resultTruncated"
          (((field response "truncated").bind Json.asBool).map .bool)

def withCompletion (response : Option Json) : List (String × Json) :=
  let rootLayer := field (field response "rootLayer") "layer"
  optional "completionNodeId"
      (((field response "nodeId").bind Json.positiveInteger).map .ofNat) ++
    optional "completionRootLayerId"
      (((field rootLayer "id").bind Json.positiveInteger).map .ofNat)

def instructionPurposes : List String :=
  ["authority", "authoring", "presentation", "navigation", "search", "preview",
    "repair", "delegation", "verification", "recovery"]

def instructionReason (value : Option Json) (knownSecrets : List String) :
    Option Json := do
  let purpose ← (field value "purpose").bind Json.asString
  let detail ← (field value "detail").bind Json.asString
  if purpose ∈ instructionPurposes ∧ 8 ≤ detail.length ∧
      detail.length ≤ 240 then
    some (.object [("purpose", .string purpose),
      ("detail", .string (scrubText knownSecrets detail))])
  else none

/-- The text cut to a number of UTF-16 units; a character that would be cut in
two is left out. -/
def sliceUnits : ℕ → List Char → List Char
  | _, [] => []
  | limit, c :: rest =>
      let units := if c.toNat < 0x10000 then 1 else 2
      if units ≤ limit then c :: sliceUnits (limit - units) rest else []

def shortText (knownSecrets : List String) (text : String) : Json :=
  .string (scrubText knownSecrets (String.ofList (text.toList.take 128)))

def retrievalEntry (knownSecrets : List String) (entry : Json) :
    Option Json := do
  let nodeId ← (entry.get? "nodeId").bind Json.positiveInteger
  let delivery ← (entry.get? "delivery").bind Json.asString
  let key ← (entry.get? "key").bind Json.asString
  let characters ← (entry.get? "bodyCharacters").bind Json.naturalInteger
  let bytes ← (entry.get? "bodyBytes").bind Json.naturalInteger
  if delivery ∈ ["body", "already-returned", "reread"] then
    some (.object ([("nodeId", .ofNat nodeId),
        ("key", .string (String.ofList (sliceUnits 160 key.toList))),
        ("delivery", .string delivery), ("bodyCharacters", .ofNat characters),
        ("bodyBytes", .ofNat bytes)] ++
      optional "firstRequestKey"
        (((entry.get? "firstRequestKey").bind Json.asString).map
          (shortText knownSecrets))))
  else none

def instructionRetrieval (response : Option Json) (knownSecrets : List String) :
    Option Json := do
  let reason ← instructionReason (field response "reason") knownSecrets
  let requestKey ← (field response "requestKey").bind Json.asString
  let replayed ← (field response "replayed").bind Json.asBool
  let listed ← (field response "entries").bind Json.asArray
  if 8 < listed.length then none
  else
    let entries ← listed.mapM (retrievalEntry knownSecrets)
    some (.object ([("requestKey", shortText knownSecrets requestKey),
        ("replayed", .bool replayed), ("reason", reason),
        ("entries", .array entries)] ++
      optional "rereadReason"
        ((((field response "rereadReason").bind Json.asString).filter
          fun text => text.length ≤ 240).map
            fun text => .string (scrubText knownSecrets text))))

def isOk (status : ℕ) : Bool := 200 ≤ status && status < 300

def visualAssetOperationKinds : List String :=
  ["add", "create-tag", "move-tag", "associate", "organize", "archive",
    "list-assets", "list-tags", "list-registries", "find", "inspect",
    "download"]

def lifecycleOf : String → Option String
  | "advance" => some "active"
  | "return" => some "succeeded"
  | "stop" => some "stopped"
  | _ => none

def isDigest (value : Json) : Bool :=
  match value.coerced with
  | some text =>
      text.length = 64 && text.toList.all fun c => c ∈ "abcdef0123456789".toList
  | none => false

/-- What a change of the current layer adds. -/
def withTransition (request response : Option Json) : List (String × Json) :=
  match field (field request "transition") "kind" with
  | none => []
  | some kind =>
      match kind.coerced.bind lifecycleOf,
          (field response "completionId").bind Json.positiveInteger with
      | some lifecycle, some completionId =>
          if (field response "lifecycle").bind Json.asString =
              some lifecycle then
            [("transitionKind", kind), ("completionNodeId", .ofNat completionId),
              ("completionLifecycle", .string lifecycle)] ++
              optional "completionCurrentLayerId"
                (((field response "currentLayerId").bind
                  Json.positiveInteger).map .ofNat) ++
              optional "completionRootLayerId"
                (((field response "finalLayerId").bind
                  Json.positiveInteger).map .ofNat)
          else []
      | _, _ => []

/-- What the route of a request adds to its receipt. -/
def routeDetails (method path : String) (status : ℕ)
    (request response : Option Json) (knownSecrets : List String) :
    List (String × Json) :=
  if method = "GET" ∧ path = "/api/graph/instruction-graph" ∧ isOk status then
    optional "instructionGraphVersionKey"
        (((field response "versionKey").bind Json.asString).map .string) ++
      optional "instructionGraphDigest"
        ((field response "digest").filter isDigest)
  else if method = "GET" ∧
      (numberBetween "/api/graph/instruction-graph/nodes/" "" path).isSome then
    withRecord "instruction-node" (field response "node")
  else if method = "GET" ∧
      (numberBetween "/api/graph/instruction-graph/layers/" "" path).isSome then
    withRecord "instruction-layer" (field response "layer")
  else if method = "POST" ∧
      path = "/api/graph/instruction-graph/retrieve" ∧ isOk status then
    optional "instructionRetrieval" (instructionRetrieval response knownSecrets)
  else if method = "POST" ∧ path = "/api/graph/instruction-graph/search" then
    withSearchRequest request knownSecrets ++ withSearch response ++
      optional "instructionSearchReceipt"
        (if isOk status then
          (instructionReason (field (field response
            "instructionSearchReceipt") "reason") knownSecrets).map
              fun reason => .object [("reason", reason)]
        else none)
  else if method = "POST" ∧ path = "/api/graph/visual-assets/operations" then
    optional "visualAssetOperationKind"
      ((((field (field request "operation") "kind").bind
        Json.asString).filter fun kind =>
          kind ∈ visualAssetOperationKinds).map .string)
  else if method = "POST" ∧ path = "/api/graph/nodes" then
    withRecord "node" (field response "node")
  else if method = "POST" ∧ path = "/api/graph/edges" then
    withRecord "edge" (field response "edge")
  else if method = "POST" ∧ path = "/api/graph/layers" then
    withRecord "layer" (field response "layer")
  else if method = "POST" ∧ path = "/api/graph/actions" then
    withAction (field response "action")
  else if method = "POST" ∧
      (numberBetween "/api/graph/layers/" "/discard" path).isSome then
    withRecord "layer" (field response "layer")
  else if method = "POST" ∧ path = "/api/graph/search" ∧ isOk status then
    withSearchRequest request knownSecrets ++ withSearch response
  else if method = "POST" ∧ path = "/api/graph/submit" ∧ isOk status then
    withCompletion response
  else if method = "POST" ∧ path = "/api/graph/current/transitions" ∧
      isOk status then
    withTransition request response
  else if method = "POST" ∧ path = "/api/graph/search" then
    withSearchRequest request knownSecrets
  else []

def sanitizeReceipt (method path : String) (status : ℕ)
    (request response : Option Json) (knownSecrets : List String) : Receipt where
  method := method
  path := path
  status := status
  errorCodes := errorCodes response
  details := routeDetails method path status request response knownSecrets
  authoringError := none

end GraphOperationRecorder

end RelayerGraph
