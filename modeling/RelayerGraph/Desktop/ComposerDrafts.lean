import RelayerGraph.Foundation.Keyed
import RelayerGraph.Foundation.OldestFirst
import RelayerGraph.Foundation.TransitionSystem

/-!
# The composer drafts

The drafts that the composer keeps between restarts: the one of a thread that
does not exist yet, the follow-ups of existing threads, the restorations some
of these grew from, and the sends that have not loaded yet.  They are kept in
plain objects, whose property order is the only record of their age.
-/

namespace RelayerGraph

open Foundation

namespace ComposerDrafts

/-! ## Strings and plain objects -/

/-- A string, as its code units. -/
abbrev JsString := List UInt16

instance : LawfulBEq JsString := inferInstance

def units (text : String) : JsString :=
  text.toList.map fun c => UInt16.ofNat c.toNat

/-- A plain object: its own properties, in the order of their insertion. -/
abbrev JsObject (α : Type) := Keyed JsString α

def isDigit (unit : UInt16) : Bool := 48 ≤ unit && unit ≤ 57

/-- The number that a property key is the canonical text of, if it is an array
index. -/
def arrayIndex? (key : JsString) : Option ℕ :=
  if key ≠ [] ∧ key.all isDigit ∧ (key.length = 1 ∨ key.head? ≠ some 48) then
    let value := key.foldl (fun value unit => 10 * value + (unit.toNat - 48)) 0
    if value ≤ 4294967294 then some value else none
  else none

def isArrayIndex (key : JsString) : Bool := (arrayIndex? key).isSome

def indexValue (key : JsString) : ℕ := (arrayIndex? key).getD 0

/-- The keys as `Object.keys` lists them: the array indices in ascending order,
then the others in the order of their insertion. -/
def listed (keys : List JsString) : List JsString :=
  (keys.filter isArrayIndex).insertionSort
      (fun k l => indexValue k ≤ indexValue l) ++
    keys.filter fun key => !isArrayIndex key

def keys {α : Type} (object : JsObject α) : List JsString :=
  object.rows.map Prod.fst

def objectKeys {α : Type} (object : JsObject α) : List JsString :=
  listed (keys object)

def protoKey : JsString := units "__proto__"

/-- The names that every plain object inherits. -/
def inheritedNames : List JsString :=
  protoKey :: ["constructor", "__defineGetter__", "__defineSetter__",
    "hasOwnProperty", "__lookupGetter__", "__lookupSetter__", "isPrototypeOf",
    "propertyIsEnumerable", "toString", "valueOf", "toLocaleString"].map units

def hasOwn {α : Type} (object : JsObject α) (key : JsString) : Bool :=
  (object.get? key).isSome

/-- The `in` operator, which sees inherited properties too. -/
def isIn {α : Type} (key : JsString) (object : JsObject α) : Bool :=
  hasOwn object key || decide (key ∈ inheritedNames)

/-- Assignment to a property.  `__proto__` sets the prototype, which no copy of
the object keeps. -/
def assign {α : Type} (object : JsObject α) (key : JsString) (value : α) :
    JsObject α :=
  if key = protoKey then object else object.put key value

/-! ## The bytes of a serialized state -/

def isHighSurrogate (unit : UInt16) : Bool := 0xD800 ≤ unit && unit < 0xDC00

def isLowSurrogate (unit : UInt16) : Bool := 0xDC00 ≤ unit && unit < 0xE000

/-- The bytes of a unit of a serialized string that is not half of a pair. -/
def unitBytes (unit : UInt16) : ℕ :=
  if unit ∈ [0x22, 0x5C, 0x08, 0x09, 0x0A, 0x0C, 0x0D] then 2
  else if unit < 0x20 then 6
  else if isHighSurrogate unit || isLowSurrogate unit then 6
  else if unit < 0x80 then 1
  else if unit < 0x800 then 2
  else 3

def escapedBytes : JsString → ℕ
  | [] => 0
  | [unit] => unitBytes unit
  | unit :: next :: rest =>
      if isHighSurrogate unit && isLowSurrogate next then
        4 + escapedBytes rest
      else unitBytes unit + escapedBytes (next :: rest)

def stringBytes (text : JsString) : ℕ := 2 + escapedBytes text

def memberBytes (key : JsString) (valueBytes : ℕ) : ℕ :=
  stringBytes key + 1 + valueBytes

def membersBytes (members : List ℕ) : ℕ :=
  2 + members.sum + (members.length - 1)

def objectBytes {α : Type} (valueBytes : α → ℕ) (object : JsObject α) : ℕ :=
  membersBytes (object.rows.map fun entry =>
    memberBytes entry.1 (valueBytes entry.2))

/-! ## The state -/

/-- The draft of a new thread.  Its scope is any value, kept as its serialized
bytes, or undefined. -/
structure PendingNewThread where
  text : JsString
  scope : Option (List UInt8)
deriving DecidableEq

/-- The counts that a record keeps across a restart. -/
abbrev SendCount := { sends : ℕ // 1 ≤ sends ∧ sends ≤ 9007199254740991 }

/-- A send whose turn has not loaded yet. -/
structure SentRecord where
  scopeKey : JsString
  originScopeKey : JsString
  textDigest : JsString
  edited : Bool
  sends : SendCount
deriving DecidableEq

structure DraftState where
  pendingNewThread : Option PendingNewThread
  threadFollowups : JsObject JsString
  threadFollowupRestorations : JsObject JsString
  sentThreadFollowups : JsObject SentRecord

def emptyState : DraftState := ⟨none, .empty, .empty, .empty⟩

def pendingBytes : Option PendingNewThread → ℕ
  | none => 4
  | some draft =>
      membersBytes (memberBytes (units "text") (stringBytes draft.text) ::
        (draft.scope.map fun scope =>
          memberBytes (units "scope") scope.length).toList)

def recordBytes (record : SentRecord) : ℕ :=
  membersBytes [
    memberBytes (units "scopeKey") (stringBytes record.scopeKey),
    memberBytes (units "originScopeKey") (stringBytes record.originScopeKey),
    memberBytes (units "textDigest") (stringBytes record.textDigest),
    memberBytes (units "edited") (if record.edited then 4 else 5),
    memberBytes (units "sends") (Nat.digits 10 record.sends.1).length]

/-- The byte length of the serialized state. -/
def DraftState.jsonBytes (state : DraftState) : ℕ :=
  membersBytes [
    memberBytes (units "pendingNewThread")
      (pendingBytes state.pendingNewThread),
    memberBytes (units "threadFollowups")
      (objectBytes stringBytes state.threadFollowups),
    memberBytes (units "threadFollowupRestorations")
      (objectBytes stringBytes state.threadFollowupRestorations),
    memberBytes (units "sentThreadFollowups")
      (objectBytes recordBytes state.sentThreadFollowups)]

/-! ## The bounds -/

def maxThreadFollowupDrafts : ℕ := 256

def maxComposerDraftBytes : ℕ := 1024 * 1024

/-- Delete the keys that stand before the last ones allowed. -/
def dropStaleFollowups (followups : JsObject JsString) : JsObject JsString :=
  let followupKeys := objectKeys followups
  let staleKeys :=
    followupKeys.take (followupKeys.length - maxThreadFollowupDrafts)
  followups.keep fun key _ => decide (key ∉ staleKeys)

def protects (records : JsObject SentRecord) (followups : JsObject JsString)
    (key : JsString) : Bool :=
  (records.get? key).any fun record =>
    record.edited && hasOwn followups record.scopeKey

/-- Over the cap, records that protect no draft go first.  The object built
from the entries that remain lists them as before. -/
def boundedSentRecords (records : JsObject SentRecord)
    (followups : JsObject JsString) : JsObject SentRecord :=
  let recordKeys := objectKeys records
  if recordKeys.length ≤ maxThreadFollowupDrafts then records
  else
    let evicted :=
      ((recordKeys.filter fun key => !protects records followups key) ++
        recordKeys.filter (protects records followups)).take
          (recordKeys.length - maxThreadFollowupDrafts)
    records.keep fun key _ => decide (key ∉ evicted)

def DraftState.dropOrphanRestorations (state : DraftState) : DraftState :=
  { state with
    threadFollowupRestorations := state.threadFollowupRestorations.keep
      fun key _ => isIn key state.threadFollowups }

/-- Delete a draft, and the restorations that no draft stands beside. -/
def DraftState.dropFollowup (state : DraftState) (key : JsString) : DraftState :=
  { state with
    threadFollowups := state.threadFollowups.erase key }.dropOrphanRestorations

/-- The state before its bytes are counted. -/
def DraftState.countBounded (value : DraftState) : DraftState :=
  let followups := dropStaleFollowups value.threadFollowups
  { value with
    threadFollowups := followups
    sentThreadFollowups := boundedSentRecords value.sentThreadFollowups
      followups }.dropOrphanRestorations

theorem mem_objectKeys {α : Type} {object : JsObject α} {key : JsString} :
    key ∈ objectKeys object ↔ key ∈ keys object := by
  simp only [objectKeys, listed, List.mem_append, List.mem_insertionSort,
    List.mem_filter, Bool.not_eq_true']
  cases isArrayIndex key <;> simp

theorem length_rows_erase_lt {α : Type} {object : JsObject α} {key : JsString}
    (h : key ∈ keys object) :
    (object.erase key).rows.length < object.rows.length := by
  obtain ⟨entry, hentry, hkey⟩ := List.mem_map.mp h
  refine List.length_filter_lt_length_iff_exists.mpr ⟨entry, hentry, ?_⟩
  simp [hkey]

/-- Delete the first draft listed until the serialized state fits. -/
def DraftState.shrink (state : DraftState) : Option DraftState :=
  if state.jsonBytes ≤ maxComposerDraftBytes then some state
  else
    match h : objectKeys state.threadFollowups with
    | [] => none
    | staleKey :: _ =>
        if staleKey = [] then none
        else (state.dropFollowup staleKey).shrink
termination_by state.threadFollowups.rows.length
decreasing_by
  exact length_rows_erase_lt (mem_objectKeys.mp (by simp [h]))

def DraftState.boundedState (value : DraftState) : Option DraftState :=
  value.countBounded.shrink

/-- Storage accepts the write; a state that cannot be bounded is not written. -/
def DraftState.writeState (stored value : DraftState) : DraftState :=
  value.boundedState.getD stored

/-! ## The operations -/

/-- The fields that a caller gives of a record. -/
structure SentInput where
  scopeKey : JsString
  originScopeKey : JsString
  textDigest : JsString
  edited : Bool
  sends : Option SendCount
deriving DecidableEq

def SentInput.toRecord (record : SentInput) : SentRecord where
  scopeKey := record.scopeKey
  originScopeKey := record.originScopeKey
  textDigest := record.textDigest
  edited := record.edited
  sends := record.sends.getD ⟨1, by omega⟩

variable (state : DraftState)

def persistPendingNewThreadDraft (text : JsString)
    (scope : Option (List UInt8)) : DraftState :=
  state.writeState { state with
    pendingNewThread := if text = [] then none else some ⟨text, scope⟩ }

def clearPendingNewThreadDraft : DraftState :=
  state.writeState { state with pendingNewThread := none }

/-- The state without what a scope has. -/
def DraftState.withoutFollowup (scopeKey : JsString) : DraftState :=
  { state with
    threadFollowups := state.threadFollowups.erase scopeKey
    threadFollowupRestorations :=
      state.threadFollowupRestorations.erase scopeKey }

/-- The state with a draft in its scope, the newest of all. -/
def DraftState.withFollowup (scopeKey text : JsString)
    (restorationId : Option JsString) : DraftState :=
  let state := state.withoutFollowup scopeKey
  { state with
    threadFollowups := assign state.threadFollowups scopeKey text
    threadFollowupRestorations :=
      match restorationId with
      | none => state.threadFollowupRestorations
      | some id => assign state.threadFollowupRestorations scopeKey id }

def persistThreadFollowupDraft (scopeKey text : JsString) (preserveEmpty : Bool)
    (restorationId : Option JsString) : DraftState :=
  if scopeKey = [] then state
  else if text ≠ [] ∨ preserveEmpty then
    let value := state.withFollowup scopeKey text restorationId
    state.writeState { value with
      threadFollowups := dropStaleFollowups value.threadFollowups }
  else state.writeState (state.withoutFollowup scopeKey)

def clearThreadFollowupDraft (scopeKey : JsString) : DraftState :=
  if scopeKey = [] then state
  else state.writeState (state.withoutFollowup scopeKey)

/-- The state with the record of a thread, the newest of all, or without. -/
def DraftState.withSent (threadId : JsString) (record : Option SentInput) :
    DraftState :=
  let records := state.sentThreadFollowups.erase threadId
  { state with
    sentThreadFollowups :=
      match record with
      | none => records
      | some record => assign records threadId record.toRecord }

def persistSentThreadFollowup (threadId : Option JsString)
    (record : Option SentInput) : DraftState :=
  match threadId with
  | none => state
  | some threadId => state.writeState (state.withSent threadId record)

/-! ## Sequences of operations -/

inductive Operation where
  | persistPendingNewThreadDraft (text : JsString) (scope : Option (List UInt8))
  | clearPendingNewThreadDraft
  | persistThreadFollowupDraft (scopeKey text : JsString) (preserveEmpty : Bool)
      (restorationId : Option JsString)
  | clearThreadFollowupDraft (scopeKey : JsString)
  | persistSentThreadFollowup (threadId : Option JsString)
      (record : Option SentInput)

def Operation.run (state : DraftState) : Operation → DraftState
  | .persistPendingNewThreadDraft text scope =>
      ComposerDrafts.persistPendingNewThreadDraft state text scope
  | .clearPendingNewThreadDraft =>
      ComposerDrafts.clearPendingNewThreadDraft state
  | .persistThreadFollowupDraft scopeKey text preserveEmpty restorationId =>
      ComposerDrafts.persistThreadFollowupDraft state scopeKey text
        preserveEmpty restorationId
  | .clearThreadFollowupDraft scopeKey =>
      ComposerDrafts.clearThreadFollowupDraft state scopeKey
  | .persistSentThreadFollowup threadId record =>
      ComposerDrafts.persistSentThreadFollowup state threadId record

/-- The state that contains the new value, before it is bounded. -/
def Operation.propose (state : DraftState) : Operation → DraftState
  | .persistPendingNewThreadDraft text scope =>
      { state with
        pendingNewThread := if text = [] then none else some ⟨text, scope⟩ }
  | .clearPendingNewThreadDraft => { state with pendingNewThread := none }
  | .persistThreadFollowupDraft scopeKey text preserveEmpty restorationId =>
      if scopeKey = [] then state
      else if text ≠ [] ∨ preserveEmpty then
        state.withFollowup scopeKey text restorationId
      else state.withoutFollowup scopeKey
  | .clearThreadFollowupDraft scopeKey =>
      if scopeKey = [] then state else state.withoutFollowup scopeKey
  | .persistSentThreadFollowup none _ => state
  | .persistSentThreadFollowup (some threadId) record =>
      state.withSent threadId record

/-- A store with what happened to it: the scopes and the threads in the order
of the last writes of their values. -/
structure Session where
  state : DraftState
  draftWrites : List JsString
  sentWrites : List JsString

def noteWrite (writes : List JsString) (key : JsString) : List JsString :=
  writes.filter (· ≠ key) ++ [key]

def Operation.noteDraft (writes : List JsString) : Operation → List JsString
  | .persistThreadFollowupDraft scopeKey _ _ _ => noteWrite writes scopeKey
  | _ => writes

def Operation.noteSent (writes : List JsString) : Operation → List JsString
  | .persistSentThreadFollowup (some threadId) _ => noteWrite writes threadId
  | _ => writes

/-- An operation whose state cannot be bounded writes nothing. -/
def Session.next (session : Session) (operation : Operation) : Session :=
  let state := operation.run session.state
  if (operation.propose session.state).boundedState.isNone then
    { session with state := state }
  else
    { state := state
      draftWrites := operation.noteDraft session.draftWrites
      sentWrites := operation.noteSent session.sentWrites }

/-- A store that starts empty and takes any operations. -/
def draftStore : TransitionSystem Session Operation where
  init session := session = ⟨emptyState, [], []⟩
  step session operation session' := session' = session.next operation

end ComposerDrafts

end RelayerGraph
