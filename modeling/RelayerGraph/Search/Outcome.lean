import RelayerGraph.Foundation.CommaSeparated

/-!
# The result envelope

The rows of a query result as they are cut to the row cap and to the bytes of
the encoded envelope.  The row that comes first over the bytes ends the result,
whatever the rows after it are.
-/

namespace RelayerGraph

open Foundation

/-! ## Encoding -/

/-- A JSON value; a number is the text it is written with. -/
inductive JsonValue where
  | null
  | bool (value : Bool)
  | number (text : String)
  | string (value : String)
  | array (items : List JsonValue)
  | object (fields : List (String × JsonValue))

namespace JsonValue

def hexDigit (n : ℕ) : Char :=
  ("0123456789abcdef".toList).getD n '0'

def escapeChar (c : Char) : List Char :=
  if c = '"' then ['\\', '"']
  else if c = '\\' then ['\\', '\\']
  else if c = '\n' then ['\\', 'n']
  else if c = '\r' then ['\\', 'r']
  else if c = '\t' then ['\\', 't']
  else if c.toNat = 8 then ['\\', 'b']
  else if c.toNat = 12 then ['\\', 'f']
  else if c.toNat < 32 then
    ['\\', 'u', '0', '0', hexDigit (c.toNat / 16), hexDigit (c.toNat % 16)]
  else [c]

def encodeString (value : String) : String :=
  "\"" ++ String.ofList (value.toList.flatMap escapeChar) ++ "\""

def encodeArray (items : List String) : String :=
  "[" ++ commaSeparated items ++ "]"

def encodeObject (fields : List String) : String :=
  "\x7b" ++ commaSeparated fields ++ "\x7d"

mutual

def encode : JsonValue → String
  | .null => "null"
  | .bool value => if value then "true" else "false"
  | .number text => text
  | .string value => encodeString value
  | .array items => encodeArray (encodeItems items)
  | .object fields => encodeObject (encodeFields fields)

def encodeItems : List JsonValue → List String
  | [] => []
  | item :: items => item.encode :: encodeItems items

def encodeFields : List (String × JsonValue) → List String
  | [] => []
  | (name, value) :: fields =>
      (encodeString name ++ ":" ++ value.encode) :: encodeFields fields

end

end JsonValue

/-- A normalized result row set, plus whether the byte or row cap truncated
it. -/
structure QueryOutcome where
  queryContractVersion : ℕ
  columns : List String
  rows : List (List JsonValue)
  truncated : Bool

namespace QueryOutcome

open JsonValue

def encode (outcome : QueryOutcome) : String :=
  encodeObject
    ["\"queryContractVersion\":" ++ toString outcome.queryContractVersion,
      "\"columns\":" ++ encodeArray (outcome.columns.map encodeString),
      "\"rows\":" ++
        encodeArray (outcome.rows.map fun row => encodeArray (encodeItems row)),
      "\"truncated\":" ++ if outcome.truncated then "true" else "false"]

/-- The bytes of the encoded envelope. -/
def bytes (outcome : QueryOutcome) : ℕ :=
  outcome.encode.utf8ByteSize

end QueryOutcome

/-! ## Cutting the rows -/

/-- The codes of a result that is not returned; an envelope of JSON values is
always encoded, so that the second one is not met here. -/
inductive ResultCode where
  | resultRowTooLarge
  | invalidEngineValue
deriving DecidableEq

structure ResultError where
  code : ResultCode
  path : String
  message : String
deriving DecidableEq

section

variable (columns : List String) (encodedResultBytes : ℕ)

/-- The envelope of some rows of a result with `total` rows. -/
def envelope (total : ℕ) (rows : List (List JsonValue)) : QueryOutcome where
  queryContractVersion := 1
  columns := columns
  rows := rows
  truncated := rows.length < total

/-- The envelope of one row by itself. -/
def single (row : List JsonValue) : QueryOutcome where
  queryContractVersion := 1
  columns := columns
  rows := [row]
  truncated := false

/-- Appends the rows that are left to those kept so far. -/
def appendRows (total : ℕ) (kept : List (List JsonValue)) :
    List (List JsonValue) → Except ResultError (List (List JsonValue))
  | [] => .ok kept
  | row :: rows =>
      if encodedResultBytes < (single columns row).bytes then
        .error ⟨.resultRowTooLarge, "result",
          "a single row exceeds the encoded result cap"⟩
      else if encodedResultBytes <
          (envelope columns total (kept ++ [row])).bytes then
        .ok kept
      else appendRows total (kept ++ [row]) rows

def boundedOutcome (rows : List (List JsonValue)) (cap : ℕ) :
    Except ResultError QueryOutcome :=
  if encodedResultBytes < (envelope columns rows.length []).bytes then
    .error ⟨.resultRowTooLarge, "result",
      "the result envelope exceeds the encoded result cap"⟩
  else do
    let kept ← appendRows columns encodedResultBytes rows.length []
      (rows.take cap)
    return envelope columns rows.length kept

/-! ## The bytes of a longer result -/

variable {columns encodedResultBytes} {total : ℕ}
  {kept rest result : List (List JsonValue)}

/-- More rows take no fewer bytes, whatever the flag does. -/
theorem bytes_envelope_le_append (more : List (List JsonValue)) :
    (envelope columns total kept).bytes ≤
      (envelope columns total (kept ++ more)).bytes := by
  have hrows := utf8ByteSize_commaSeparated_append
    (kept.map fun row => JsonValue.encodeArray (JsonValue.encodeItems row))
    (more.map fun row => JsonValue.encodeArray (JsonValue.encodeItems row))
  have hflag : (if kept.length < total then "true" else "false").utf8ByteSize ≤
      (if (kept ++ more).length < total then "true"
        else "false").utf8ByteSize := by
    have htrue : "true".utf8ByteSize = 4 := rfl
    have hfalse : "false".utf8ByteSize = 5 := rfl
    rw [List.length_append]
    split <;> split <;> omega
  simp only [QueryOutcome.bytes, QueryOutcome.encode, envelope,
    JsonValue.encodeObject, JsonValue.encodeArray, commaSeparated,
    String.utf8ByteSize_append, List.map_append, decide_eq_true_eq] at *
  omega

/-! ## What is kept -/

variable (columns encodedResultBytes) in
/-- The row does not fit in an otherwise empty envelope. -/
def Oversized (row : List JsonValue) : Prop :=
  encodedResultBytes < (single columns row).bytes

variable (columns encodedResultBytes total) in
/-- The rows fit as the rows of a result with `total` rows. -/
def Fits (rows : List (List JsonValue)) : Prop :=
  (envelope columns total rows).bytes ≤ encodedResultBytes

theorem Fits.of_append {more : List (List JsonValue)}
    (h : Fits columns encodedResultBytes total (kept ++ more)) :
    Fits columns encodedResultBytes total kept :=
  (bytes_envelope_le_append more).trans h

theorem appendRows_cons (row : List JsonValue) :
    appendRows columns encodedResultBytes total kept (row :: rest) =
      if encodedResultBytes < (single columns row).bytes then
        .error ⟨.resultRowTooLarge, "result",
          "a single row exceeds the encoded result cap"⟩
      else if encodedResultBytes <
          (envelope columns total (kept ++ [row])).bytes then
        .ok kept
      else
        appendRows columns encodedResultBytes total (kept ++ [row]) rest := by
  rw [appendRows]

/-- An oversized row fails the result when the rows before it fit. -/
theorem appendRows_eq_error_iff
    (hkept : Fits columns encodedResultBytes total kept) :
    (∃ error, appendRows columns encodedResultBytes total kept rest =
        .error error) ↔
      ∃ before row after, rest = before ++ row :: after ∧
        Oversized columns encodedResultBytes row ∧
          Fits columns encodedResultBytes total (kept ++ before) := by
  induction rest generalizing kept with
  | nil => simp [appendRows]
  | cons row rest ih =>
      rw [appendRows_cons]
      by_cases hrow : encodedResultBytes < (single columns row).bytes
      · rw [if_pos hrow]
        refine iff_of_true ⟨_, rfl⟩ ⟨[], row, rest, rfl, hrow, ?_⟩
        simpa using hkept
      · rw [if_neg hrow]
        by_cases hover : encodedResultBytes <
            (envelope columns total (kept ++ [row])).bytes
        · rw [if_pos hover]
          refine iff_of_false (by simp) ?_
          rintro ⟨before, large, after, hrest, hlarge, hfits⟩
          cases before with
          | nil =>
              obtain ⟨rfl, -⟩ := List.cons.inj hrest
              exact hrow hlarge
          | cons first before =>
              obtain ⟨rfl, -⟩ := List.cons.inj hrest
              rw [← List.singleton_append, ← List.append_assoc] at hfits
              exact absurd hfits.of_append (not_le.mpr hover)
        · rw [if_neg hover, ih (not_lt.mp hover)]
          constructor
          · rintro ⟨before, large, after, rfl, hlarge, hfits⟩
            refine ⟨row :: before, large, after, rfl, hlarge, ?_⟩
            simpa using hfits
          · rintro ⟨before, large, after, hrest, hlarge, hfits⟩
            cases before with
            | nil =>
                obtain ⟨rfl, -⟩ := List.cons.inj hrest
                exact absurd hlarge hrow
            | cons first before =>
                obtain ⟨rfl, rfl⟩ := List.cons.inj hrest
                exact ⟨before, large, after, rfl, hlarge, by simpa using hfits⟩

/-- What is kept is followed by a row that does not fit with it, if by any. -/
theorem appendRows_ok
    (hkept : Fits columns encodedResultBytes total kept)
    (hrun : appendRows columns encodedResultBytes total kept rest =
      .ok result) :
    ∃ taken after, rest = taken ++ after ∧ result = kept ++ taken ∧
      Fits columns encodedResultBytes total result ∧
      ∀ next ∈ after.head?,
        ¬ Fits columns encodedResultBytes total (result ++ [next]) := by
  induction rest generalizing kept with
  | nil =>
      obtain rfl := Except.ok.inj hrun
      exact ⟨[], [], rfl, by simp, hkept, by simp⟩
  | cons row rest ih =>
      rw [appendRows_cons] at hrun
      split at hrun
      · cases hrun
      · split at hrun
        · rename_i hover
          obtain rfl := Except.ok.inj hrun
          refine ⟨[], row :: rest, rfl, by simp, hkept, ?_⟩
          intro next hnext
          obtain rfl : row = next := by simpa using hnext
          exact not_le.mpr hover
        · rename_i hfits
          obtain ⟨taken, after, rfl, rfl, hresult, hnext⟩ :=
            ih (not_lt.mp hfits) hrun
          exact ⟨row :: taken, after, rfl, by simp, hresult, hnext⟩

variable (columns encodedResultBytes) in
/-- The result is the longest prefix of the rows that both caps admit, and it
fails exactly when the empty envelope or a row under the row cap is too large by
itself. -/
structure LongestPrefix (rows : List (List JsonValue)) (cap : ℕ)
    (reply : Except ResultError QueryOutcome) : Prop where
  fails : (∃ error, reply = .error error) ↔
    ¬ Fits columns encodedResultBytes rows.length [] ∨
      ∃ row ∈ rows.take cap, Oversized columns encodedResultBytes row
  code : ∀ error, reply = .error error → error.code = .resultRowTooLarge
  envelope : ∀ outcome, reply = .ok outcome →
    outcome.queryContractVersion = 1 ∧ outcome.columns = columns ∧
      (outcome.truncated = true ↔ outcome.rows.length < rows.length) ∧
      outcome.bytes ≤ encodedResultBytes
  longest : ∀ outcome, reply = .ok outcome →
    ∃ count ≤ cap, outcome.rows = rows.take count ∧
      ∀ other ≤ cap,
        Fits columns encodedResultBytes rows.length (rows.take other) →
          (rows.take other).length ≤ outcome.rows.length

theorem appendRows_error {error : ResultError}
    (hrun : appendRows columns encodedResultBytes total kept rest =
      .error error) : error.code = .resultRowTooLarge := by
  induction rest generalizing kept with
  | nil => cases hrun
  | cons row rest ih =>
      rw [appendRows_cons] at hrun
      split at hrun
      · obtain rfl := Except.error.inj hrun
        rfl
      · split at hrun
        · cases hrun
        · exact ih hrun

section

variable {rows : List (List JsonValue)} {cap : ℕ}

theorem boundedOutcome_of_not_fits
    (h : ¬ Fits columns encodedResultBytes rows.length []) :
    boundedOutcome columns encodedResultBytes rows cap =
      .error ⟨.resultRowTooLarge, "result",
        "the result envelope exceeds the encoded result cap"⟩ :=
  if_pos (not_le.mp h)

theorem boundedOutcome_of_fits
    (h : Fits columns encodedResultBytes rows.length []) :
    boundedOutcome columns encodedResultBytes rows cap =
      (appendRows columns encodedResultBytes rows.length [] (rows.take cap)).map
        (envelope columns rows.length) := by
  unfold boundedOutcome
  rw [if_neg (not_lt.mpr h)]
  cases appendRows columns encodedResultBytes rows.length [] (rows.take cap) <;>
    rfl

theorem ok_of_boundedOutcome {outcome : QueryOutcome}
    (h : Fits columns encodedResultBytes rows.length [])
    (hrun : boundedOutcome columns encodedResultBytes rows cap = .ok outcome) :
    ∃ kept, appendRows columns encodedResultBytes rows.length []
      (rows.take cap) = .ok kept ∧
        outcome = RelayerGraph.envelope columns rows.length kept := by
  rw [boundedOutcome_of_fits h] at hrun
  cases hkept : appendRows columns encodedResultBytes rows.length []
      (rows.take cap) with
  | error error =>
      rw [hkept] at hrun
      cases hrun
  | ok kept =>
      rw [hkept] at hrun
      exact ⟨kept, rfl, (Except.ok.inj hrun).symm⟩

/-- No more rows fit than those before the first one that does not. -/
theorem length_le_of_fits {taken after : List (List JsonValue)}
    (hrows : rows.take cap = taken ++ after)
    (hnext : ∀ next ∈ after.head?,
      ¬ Fits columns encodedResultBytes total (taken ++ [next]))
    {other : ℕ} (hother : other ≤ cap)
    (hfits : Fits columns encodedResultBytes total (rows.take other)) :
    (rows.take other).length ≤ taken.length := by
  have hinitial : rows.take other = (taken ++ after).take other := by
    rw [← hrows, List.take_take, min_eq_left hother]
  cases after with
  | nil => simp [hinitial]
  | cons next after =>
      by_contra hlonger
      have hlength : taken.length < other := by
        have hle : (rows.take other).length ≤ other :=
          List.length_take_le other rows
        omega
      obtain ⟨more, hmore⟩ : taken ++ [next] <+: rows.take other := by
        rw [hinitial, List.prefix_take_iff]
        constructor
        · exact ⟨after, by simp⟩
        · simpa using hlength
      rw [← hmore] at hfits
      exact hnext next rfl hfits.of_append

/-- The result is the longest admissible prefix exactly when no oversized row is
hidden: some oversized row under the row cap follows only rows that fit
together, if there is one at all and the empty envelope fits. -/
theorem longestPrefix_boundedOutcome_iff (columns : List String)
    (encodedResultBytes : ℕ) (rows : List (List JsonValue)) (cap : ℕ) :
    LongestPrefix columns encodedResultBytes rows cap
        (boundedOutcome columns encodedResultBytes rows cap) ↔
      (Fits columns encodedResultBytes rows.length [] →
        (∃ row ∈ rows.take cap, Oversized columns encodedResultBytes row) →
        ∃ before row after, rows.take cap = before ++ row :: after ∧
          Oversized columns encodedResultBytes row ∧
            Fits columns encodedResultBytes rows.length before) := by
  by_cases hempty : Fits columns encodedResultBytes rows.length []
  · have hreply : boundedOutcome columns encodedResultBytes rows cap =
        (appendRows columns encodedResultBytes rows.length []
          (rows.take cap)).map (envelope columns rows.length) :=
      boundedOutcome_of_fits hempty
    have herror : (∃ error, appendRows columns encodedResultBytes rows.length []
          (rows.take cap) = .error error) ↔
        ∃ before row after, rows.take cap = before ++ row :: after ∧
          Oversized columns encodedResultBytes row ∧
            Fits columns encodedResultBytes rows.length ([] ++ before) :=
      appendRows_eq_error_iff hempty
    simp only [List.nil_append] at herror
    have hfails : (∃ error, boundedOutcome columns encodedResultBytes rows cap =
          .error error) ↔
        ∃ error, appendRows columns encodedResultBytes rows.length []
          (rows.take cap) = .error error := by
      rw [hreply]
      cases appendRows columns encodedResultBytes rows.length []
        (rows.take cap) <;> simp [Except.map]
    constructor
    · intro hinitial _ hlarge
      exact herror.mp (hfails.mp (hinitial.fails.mpr (.inr hlarge)))
    · intro hhidden
      constructor
      case fails =>
        rw [hfails, herror]
        constructor
        · rintro ⟨before, row, after, hrows, hlarge, -⟩
          exact .inr ⟨row, by simp [hrows], hlarge⟩
        · rintro (hnot | hlarge)
          · exact absurd hempty hnot
          · exact hhidden hempty hlarge
      case code =>
        intro error hrun
        rw [hreply] at hrun
        cases hkept : appendRows columns encodedResultBytes rows.length []
            (rows.take cap) with
        | error failure =>
            rw [hkept] at hrun
            rw [← Except.error.inj hrun]
            exact appendRows_error hkept
        | ok kept =>
            rw [hkept] at hrun
            cases hrun
      case envelope =>
        intro outcome hrun
        obtain ⟨kept, hkept, rfl⟩ := ok_of_boundedOutcome hempty hrun
        obtain ⟨taken, after, -, -, hfits, -⟩ := appendRows_ok hempty hkept
        exact ⟨rfl, rfl, by simp [envelope], hfits⟩
      case longest =>
        intro outcome hrun
        obtain ⟨kept, hkept, rfl⟩ := ok_of_boundedOutcome hempty hrun
        obtain ⟨taken, after, hrows, htaken, hfits, hnext⟩ :=
          appendRows_ok hempty hkept
        obtain rfl : kept = taken := htaken
        refine ⟨min cap kept.length, min_le_left _ _, ?_, ?_⟩
        · rw [min_comm, ← List.take_take, hrows, List.take_left]
          rfl
        · intro other hother hfit
          exact length_le_of_fits hrows hnext hother hfit
  · have hreply : boundedOutcome columns encodedResultBytes rows cap =
        .error ⟨.resultRowTooLarge, "result",
          "the result envelope exceeds the encoded result cap"⟩ :=
      boundedOutcome_of_not_fits hempty
    refine iff_of_true ?_ fun hfits => absurd hfits hempty
    constructor
    case fails => exact iff_of_true ⟨_, hreply⟩ (.inl hempty)
    case code =>
      intro error hrun
      rw [hreply] at hrun
      rw [← Except.error.inj hrun]
    case envelope =>
      intro outcome hrun
      rw [hreply] at hrun
      cases hrun
    case longest =>
      intro outcome hrun
      rw [hreply] at hrun
      cases hrun

end

end

namespace OutcomeSample

/-- Two rows that do not fit together, and one that does not fit at all. -/
def rows : List (List JsonValue) :=
  [[.string "aaaaaaaa"], [.string "bbbbbbbb"], [.string "cccccccccccccccccccc"]]

theorem hidden_oversized_row :
    ¬ LongestPrefix ["v"] 90 rows 5 (boundedOutcome ["v"] 90 rows 5) := by
  intro hinitial
  have hlarge : ∃ row ∈ rows.take 5, Oversized ["v"] 90 row :=
    ⟨[.string "cccccccccccccccccccc"], by simp [rows], by
      unfold Oversized; decide⟩
  obtain ⟨error, hrun⟩ := hinitial.fails.mpr (.inr hlarge)
  have hok : (boundedOutcome ["v"] 90 rows 5).isOk = true := by decide
  rw [hrun] at hok
  cases hok

end OutcomeSample

end RelayerGraph
