import RelayerGraph.Foundation.Checked

/-!
# Approval requests and decisions

The data of the approval contract and the checks every side makes on it.  An
adapter asks with a `HarnessApprovalRequestInput`, the host stamps identity
and correlation on it, and a decision is a submission stamped with its actor
and its time.  A request that a session grant covers needs no decision.
-/

namespace RelayerGraph

open Foundation Checked

/-! ## Texts -/

/-- The UTF-16 code units of a text. -/
def utf16Units (text : String) : List ℕ :=
  text.toList.flatMap fun c =>
    if c.toNat < 0x10000 then [c.toNat]
    else [0xD800 + (c.toNat - 0x10000) / 0x400,
      0xDC00 + (c.toNat - 0x10000) % 0x400]

/-- The white space and line terminators that `String.prototype.trim` removes. -/
def isTrimmedSpace (c : Char) : Bool :=
  decide (0x09 ≤ c.toNat ∧ c.toNat ≤ 0x0D) ||
    decide (0x2000 ≤ c.toNat ∧ c.toNat ≤ 0x200A) ||
    [0x20, 0xA0, 0x1680, 0x2028, 0x2029, 0x202F, 0x205F, 0x3000,
      0xFEFF].contains c.toNat

/-- `text.trim()`, as characters. -/
def trimSpaces (text : String) : List Char :=
  ((text.toList.dropWhile isTrimmedSpace).reverse.dropWhile
    isTrimmedSpace).reverse

/-- `/[\u0000-\u001f\u007f]/.test(text)` -/
def hasControlCharacter (text : String) : Bool :=
  text.toList.any fun c => decide (c.toNat ≤ 0x1F ∨ c.toNat = 0x7F)

/-- A value of JavaScript that a parser reads: one of the expected shape, or
another, with the message of the shape check that refuses it. -/
inductive Supplied (α : Type)
  | malformed (message : String)
  | given (value : α)
  deriving Repr, DecidableEq

def Supplied.read {α : Type} : Supplied α → Except String α
  | .malformed message => .error message
  | .given value => .ok value

def maxHarnessApprovalIdLength : ℕ := 1024
def maxHarnessApprovalTextLength : ℕ := 65536
def maxHarnessApprovalScopeKeys : ℕ := 256
def maxHarnessApprovalScopeKeyLength : ℕ := 4096
def maxHarnessApprovalAffectedFiles : ℕ := 4096

def approvalString (value label : String) (maxLength : ℕ)
    (requireNormalized : Bool) : Except String String := do
  require (trimSpaces value ≠ [] ∧ hasControlCharacter value = false)
    s!"Harness {label} must be a non-empty string without control characters"
  require ((utf16Units value).length ≤ maxLength)
    s!"Harness {label} exceeds the maximum length of {maxLength}"
  require (requireNormalized = true → trimSpaces value = value.toList)
    s!"Harness {label} must not have surrounding whitespace"
  pure value

def approvalId (value label : String) : Except String String :=
  approvalString value label maxHarnessApprovalIdLength true

def approvalText (value label : String) : Except String String :=
  approvalString value label maxHarnessApprovalTextLength false

/-! ## Times -/

/-- The number that `count` decimal digits from position `start` spell. -/
def digitsAt (chars : List Char) (start count : ℕ) : Option ℕ :=
  let digits := (chars.drop start).take count
  if digits.length = count ∧ digits.all Char.isDigit = true then
    some (digits.foldl (fun number c => 10 * number + (c.toNat - 48)) 0)
  else
    none

/-- The days from the start of year 0 to the first of a month. -/
def daysBefore (year month : ℕ) : ℕ :=
  let isLeap := (year % 4 = 0 ∧ year % 100 ≠ 0) ∨ year % 400 = 0
  let lengths := [31, if isLeap then 29 else 28, 31, 30, 31, 30, 31, 31, 30,
    31, 30, 31]
  365 * year + (year + 3) / 4 - (year + 99) / 100 + (year + 399) / 400 +
    (lengths.take (month - 1)).sum

/-- The fraction of a second and the final `Z` of a timestamp. -/
def fractionAt (chars : List Char) (start : ℕ) : Option ℕ :=
  match chars.drop start with
  | ['Z'] => some 0
  | '.' :: fraction =>
      if fraction.drop 3 = ['Z'] then digitsAt fraction 0 3 else none
  | _ => none

/-- `Date.parse` of `YYYY-MM-DDTHH:mm:ss(.sss)Z`: milliseconds since 1970, or
none for another form and for fields out of range. -/
def dateParse (timestamp : String) : Option ℤ := do
  let chars := timestamp.toList
  guard ([(4, '-'), (7, '-'), (10, 'T'), (13, ':'), (16, ':')].all
    fun mark => chars[mark.1]? = some mark.2)
  let year ← digitsAt chars 0 4
  let month ← digitsAt chars 5 2
  let day ← digitsAt chars 8 2
  let hour ← digitsAt chars 11 2
  let minute ← digitsAt chars 14 2
  let second ← digitsAt chars 17 2
  let millisecond ← fractionAt chars 19
  guard (1 ≤ month ∧ month ≤ 12 ∧ 1 ≤ day ∧ day ≤ 31)
  guard ((hour ≤ 23 ∧ minute ≤ 59 ∧ second ≤ 59) ∨
    (hour = 24 ∧ minute = 0 ∧ second = 0 ∧ millisecond = 0))
  let days : ℤ := (daysBefore year month + (day - 1) : ℕ) - 719528
  pure (((days * 24 + hour) * 60 + minute) * 60000 + second * 1000 +
    millisecond)

def approvalTimestamp (value label : String) : Except String String := do
  let timestamp ← approvalString value label 64 true
  require ((dateParse timestamp).isSome = true)
    s!"Harness {label} must be an RFC 3339 UTC timestamp"
  pure timestamp

example : dateParse "2026-08-20T15:05:00.000Z" = some 1787238300000 := by
  decide

/-! ## Requests -/

inductive HarnessApprovalAction
  | command (command workingDirectory : String)
  | fileChange (action workingDirectory : String) (affectedFiles : List String)
  | network (action networkDestination : String)
      (workingDirectory : Option String)
  | other (action : String) (workingDirectory : Option String)
  deriving Repr, DecidableEq

structure HarnessApprovalCorrelation where
  threadId : ℤ
  interactionId : ℤ
  completeCallId : String
  harnessSessionId : String
  providerItemId : String
  deriving Repr, DecidableEq

structure HarnessApprovalRequest where
  requestId : String
  correlation : HarnessApprovalCorrelation
  title : String
  reason : String
  action : HarnessApprovalAction
  scopeKeys : List String
  scopeDescription : String
  createdAt : String
  expiresAt : Option String
  deriving Repr, DecidableEq

/-- What an adapter supplies, before the host stamps request authority. -/
structure HarnessApprovalRequestInput where
  providerItemId : String
  title : String
  reason : String
  action : HarnessApprovalAction
  scopeKeys : List String
  scopeDescription : String
  expiresAt : Option String
  deriving Repr, DecidableEq

structure HarnessApprovalRequestAuthority where
  requestId : String
  threadId : ℤ
  interactionId : ℤ
  completeCallId : String
  harnessSessionId : String
  createdAt : String
  deriving Repr, DecidableEq

/-- A check of an optional value. -/
def parseOptional {α : Type} (parse : α → Except String α) :
    Option α → Except String (Option α)
  | none => pure none
  | some value => do
      let parsed ← parse value
      pure (some parsed)

/-- `Number.isSafeInteger(value) && value > 0` -/
def positiveInteger (value : ℤ) : Prop := 0 < value ∧ value ≤ 2 ^ 53 - 1

instance (value : ℤ) : Decidable (positiveInteger value) :=
  inferInstanceAs (Decidable (_ ∧ _))

def parseAction : HarnessApprovalAction → Except String HarnessApprovalAction
  | .command command workingDirectory => do
      let command ← approvalText command "command approval action command"
      let workingDirectory ← approvalText workingDirectory
        "command approval action workingDirectory"
      pure (.command command workingDirectory)
  | .fileChange action workingDirectory affectedFiles => do
      require (affectedFiles ≠ [] ∧
          affectedFiles.length ≤ maxHarnessApprovalAffectedFiles)
        ("Harness file-change approval action affectedFiles must be a " ++
          "non-empty array")
      let action ← approvalText action "file-change approval action action"
      let workingDirectory ← approvalText workingDirectory
        "file-change approval action workingDirectory"
      let affectedFiles ← affectedFiles.mapM fun file =>
        approvalText file "file-change approval action affectedFiles entry"
      pure (.fileChange action workingDirectory affectedFiles)
  | .network action networkDestination workingDirectory => do
      let workingDirectory ← parseOptional (approvalText ·
        "network approval action workingDirectory") workingDirectory
      let action ← approvalText action "network approval action action"
      let networkDestination ← approvalText networkDestination
        "network approval action networkDestination"
      pure (.network action networkDestination workingDirectory)
  | .other action workingDirectory => do
      let workingDirectory ← parseOptional (approvalText ·
        "other approval action workingDirectory") workingDirectory
      let action ← approvalText action "other approval action action"
      pure (.other action workingDirectory)

/-- Keys are sorted as JavaScript sorts strings, by their code units. -/
def parseScopeKeys (value : List String) : Except String (List String) := do
  require (value ≠ [] ∧ value.length ≤ maxHarnessApprovalScopeKeys)
    "Harness approval scopeKeys must be a non-empty array"
  let keys ← value.mapM fun entry => approvalString entry
    "approval scopeKeys entry" maxHarnessApprovalScopeKeyLength true
  require keys.Nodup "Harness approval scopeKeys must not contain duplicates"
  pure (keys.insertionSort fun a b => utf16Units a ≤ utf16Units b)

def parseCorrelation (value : HarnessApprovalCorrelation) :
    Except String HarnessApprovalCorrelation := do
  require (positiveInteger value.threadId)
    "Harness approval correlation threadId must be a positive integer"
  require (positiveInteger value.interactionId)
    "Harness approval correlation interactionId must be a positive integer"
  let completeCallId ← approvalId value.completeCallId
    "approval correlation completeCallId"
  let harnessSessionId ← approvalId value.harnessSessionId
    "approval correlation harnessSessionId"
  let providerItemId ← approvalId value.providerItemId
    "approval correlation providerItemId"
  pure ⟨value.threadId, value.interactionId, completeCallId, harnessSessionId,
    providerItemId⟩

def parseHarnessApprovalRequestInput
    (value : Supplied HarnessApprovalRequestInput) :
    Except String HarnessApprovalRequestInput := do
  let record ← value.read
  let expiresAt ← parseOptional (approvalTimestamp ·
    "approval request expiresAt") record.expiresAt
  let providerItemId ← approvalId record.providerItemId
    "approval request providerItemId"
  let title ← approvalText record.title "approval request title"
  let reason ← approvalText record.reason "approval request reason"
  let action ← parseAction record.action
  let scopeKeys ← parseScopeKeys record.scopeKeys
  let scopeDescription ← approvalText record.scopeDescription
    "approval request scopeDescription"
  pure ⟨providerItemId, title, reason, action, scopeKeys, scopeDescription,
    expiresAt⟩

/-- A request expires, if it does, after it was created. -/
def expiresAfter (createdAt : String) : Option String → Bool
  | none => true
  | some expiresAt =>
      match dateParse createdAt, dateParse expiresAt with
      | some created, some expires => decide (created < expires)
      | _, _ => true

def parseHarnessApprovalRequest (value : HarnessApprovalRequest) :
    Except String HarnessApprovalRequest := do
  let createdAt ← approvalTimestamp value.createdAt
    "approval request createdAt"
  let expiresAt ← parseOptional (approvalTimestamp ·
    "approval request expiresAt") value.expiresAt
  require (expiresAfter createdAt expiresAt = true)
    "Harness approval request expiresAt must be later than createdAt"
  let requestId ← approvalId value.requestId "approval request requestId"
  let correlation ← parseCorrelation value.correlation
  let title ← approvalText value.title "approval request title"
  let reason ← approvalText value.reason "approval request reason"
  let action ← parseAction value.action
  let scopeKeys ← parseScopeKeys value.scopeKeys
  let scopeDescription ← approvalText value.scopeDescription
    "approval request scopeDescription"
  pure ⟨requestId, correlation, title, reason, action, scopeKeys,
    scopeDescription, createdAt, expiresAt⟩

def createHarnessApprovalRequest (input : Supplied HarnessApprovalRequestInput)
    (authority : HarnessApprovalRequestAuthority) :
    Except String HarnessApprovalRequest := do
  let normalizedInput ← parseHarnessApprovalRequestInput input
  parseHarnessApprovalRequest {
    requestId := authority.requestId
    correlation := {
      threadId := authority.threadId
      interactionId := authority.interactionId
      completeCallId := authority.completeCallId
      harnessSessionId := authority.harnessSessionId
      providerItemId := normalizedInput.providerItemId }
    title := normalizedInput.title
    reason := normalizedInput.reason
    action := normalizedInput.action
    scopeKeys := normalizedInput.scopeKeys
    scopeDescription := normalizedInput.scopeDescription
    createdAt := authority.createdAt
    expiresAt := normalizedInput.expiresAt }

/-! ## Decisions -/

inductive HarnessApprovalDecisionKind
  | approveOnce
  | approveAlways
  | deny
  deriving Repr, DecidableEq

structure HarnessApprovalDecisionSubmission where
  requestId : String
  decision : HarnessApprovalDecisionKind
  rationale : Option String
  deriving Repr, DecidableEq

/-- Who decides: the user, or a grant that an earlier request left. -/
inductive HarnessApprovalDecisionActor
  | user
  | sessionGrant (sourceRequestId : String)
  deriving Repr, DecidableEq

structure HarnessApprovalDecision where
  requestId : String
  decision : HarnessApprovalDecisionKind
  actor : HarnessApprovalDecisionActor
  decidedAt : String
  rationale : Option String
  deriving Repr, DecidableEq

def parseHarnessApprovalDecisionSubmission
    (value : HarnessApprovalDecisionSubmission) :
    Except String HarnessApprovalDecisionSubmission := do
  let requestId ← approvalId value.requestId "approval decision requestId"
  let rationale ← parseOptional (approvalText ·
    "approval decision rationale") value.rationale
  pure ⟨requestId, value.decision, rationale⟩

def parseActor : HarnessApprovalDecisionActor →
    Except String HarnessApprovalDecisionActor
  | .user => pure .user
  | .sessionGrant sourceRequestId => do
      let sourceRequestId ← approvalId sourceRequestId
        "approval decision sourceRequestId"
      pure (.sessionGrant sourceRequestId)

def parseHarnessApprovalDecision (value : HarnessApprovalDecision) :
    Except String HarnessApprovalDecision := do
  let requestId ← approvalId value.requestId "approval decision requestId"
  let decidedAt ← approvalTimestamp value.decidedAt
    "approval decision decidedAt"
  let rationale ← parseOptional (approvalText ·
    "approval decision rationale") value.rationale
  let actor ← parseActor value.actor
  pure ⟨requestId, value.decision, actor, decidedAt, rationale⟩

def createHarnessApprovalDecision
    (submission : HarnessApprovalDecisionSubmission)
    (actor : HarnessApprovalDecisionActor) (decidedAt : String) :
    Except String HarnessApprovalDecision := do
  let normalized ← parseHarnessApprovalDecisionSubmission submission
  parseHarnessApprovalDecision ⟨normalized.requestId, normalized.decision,
    actor, decidedAt, normalized.rationale⟩

/-! ## Session grants -/

structure HarnessApprovalSessionGrant where
  sourceRequestId : String
  threadId : ℤ
  harnessSessionId : String
  scopeKeys : List String
  deriving Repr, DecidableEq

def createHarnessApprovalSessionGrant (request : HarnessApprovalRequest) :
    Except String HarnessApprovalSessionGrant := do
  let validated ← parseHarnessApprovalRequest request
  pure ⟨validated.requestId, validated.correlation.threadId,
    validated.correlation.harnessSessionId, validated.scopeKeys⟩

/-- The body of `requestMatchesHarnessApprovalSessionGrant`, which answers
false where this stops. -/
def matchSessionGrant (request : HarnessApprovalRequest)
    (grant : HarnessApprovalSessionGrant) : Except String Bool := do
  let validatedRequest ← parseHarnessApprovalRequest request
  let grantKeys ← parseScopeKeys grant.scopeKeys
  require (positiveInteger grant.threadId) "threadId"
  let _ ← approvalId grant.sourceRequestId "approval grant sourceRequestId"
  let _ ← approvalId grant.harnessSessionId "approval grant harnessSessionId"
  require (validatedRequest.correlation.threadId = grant.threadId ∧
    validatedRequest.correlation.harnessSessionId = grant.harnessSessionId)
    "correlation"
  pure (validatedRequest.scopeKeys.all grantKeys.contains)

/-- A request consumes a grant of its own thread and live session that has
every key it requires. -/
def requestMatchesHarnessApprovalSessionGrant
    (request : HarnessApprovalRequest) (grant : HarnessApprovalSessionGrant) :
    Bool :=
  match matchSessionGrant request grant with
  | .ok matched => matched
  | .error _ => false

end RelayerGraph
