import Mathlib

/-!
# Search targets

A search target names the unit of index ordering and of query visibility: a
project, or a thread.  The stored spelling of a target (`project:7`,
`thread:41`) is what the derived store holds in its `published_targets` lists,
and reading that spelling back gives the target it came from.
-/

namespace RelayerGraph

/-- Identities which exist only in canonical rows: a positive `i64`. -/
structure RowId where
  value : ℕ
  positive : 0 < value
  bounded : value < 2 ^ 63
deriving DecidableEq

namespace RowId

/-- The ids that rows get first, in the order of their insertion. -/
def early (index : UInt8) : RowId where
  value := index.toNat + 1
  positive := Nat.succ_pos _
  bounded := by
    have hindex := index.toNat_lt
    omega

/-- The checked constructor of `integer_id!`. -/
def new? (value : ℤ) : Option RowId :=
  if h : 0 < value ∧ value < 2 ^ 63 then
    some ⟨value.toNat, by omega, by omega⟩
  else
    none

@[simp]
theorem new?_value (id : RowId) : new? (id.value : ℤ) = some id := by
  have hpositive := id.positive
  have hbounded := id.bounded
  have hrange : (0 : ℤ) < id.value ∧ (id.value : ℤ) < 2 ^ 63 := by omega
  rw [new?, dif_pos hrange]
  simp

end RowId

/-- Projects and threads have ids of their own types. -/
structure ProjectId where
  id : RowId
deriving DecidableEq

structure ThreadId where
  id : RowId
deriving DecidableEq

/-- The unit of search-index ordering and of query visibility. -/
inductive SearchTarget
  | project (projectId : ProjectId)
  | thread (threadId : ThreadId)
deriving DecidableEq

namespace SearchTarget

/-- The target a closure is ordered under: its project when it has one, and
its standalone thread otherwise. -/
def new (project : Option ProjectId) (threadId : ThreadId) : SearchTarget :=
  match project with
  | some projectId => .project projectId
  | none => .thread threadId

/-- The discriminant stored in `search_index_targets.target_kind`. -/
def kind : SearchTarget → String
  | .project _ => "project"
  | .thread _ => "thread"

def id : SearchTarget → RowId
  | .project projectId => projectId.id
  | .thread threadId => threadId.id

/-- The spelling of a target in the derived store. -/
def display (target : SearchTarget) : String :=
  target.kind ++ ":" ++ Nat.repr target.id.value

end SearchTarget

/-- Every target a closure is visible to: its project when it has one, and
always its thread. -/
def publicationTargets
    (project : Option ProjectId) (threadId : ThreadId) : List SearchTarget :=
  match project with
  | some projectId => [.project projectId, .thread threadId]
  | none => [.thread threadId]

/-! ## Reading a stored spelling back -/

/-- `str::parse::<i64>`: an optional sign, then at least one ASCII digit, with
a value in range. -/
def parseI64 (text : List Char) : Option ℤ :=
  let magnitude (digits : List Char) : Option ℕ :=
    if digits ≠ [] ∧ digits.all Char.isDigit then
      some (Nat.ofDigitChars 10 digits 0)
    else
      none
  match text with
  | '-' :: digits =>
      (magnitude digits).bind fun value =>
        if value ≤ 2 ^ 63 then some (-(value : ℤ)) else none
  | '+' :: digits =>
      (magnitude digits).bind fun value =>
        if value < 2 ^ 63 then some (value : ℤ) else none
  | digits =>
      (magnitude digits).bind fun value =>
        if value < 2 ^ 63 then some (value : ℤ) else none

/-- `str::split_once(':')`. -/
def splitOnceColon (text : List Char) : Option (List Char × List Char) :=
  match text.dropWhile (· ≠ ':') with
  | [] => none
  | _ :: rest => some (text.takeWhile (· ≠ ':'), rest)

/-- `lifecycle.rs::parse_target`. -/
def parseTarget (value : String) : Option SearchTarget := do
  let (kind, id) ← splitOnceColon value.toList
  let id ← parseI64 id
  if kind = "project".toList then
    (RowId.new? id).map fun id => .project ⟨id⟩
  else if kind = "thread".toList then
    (RowId.new? id).map fun id => .thread ⟨id⟩
  else
    none

theorem parseI64_toDigits (n : ℕ) (hn : n < 2 ^ 63) :
    parseI64 (Nat.toDigits 10 n) = some (n : ℤ) := by
  have hdigit : ∀ c ∈ Nat.toDigits 10 n, c.isDigit := fun c hc =>
    Nat.isDigit_of_mem_toDigits (by omega) (by omega) hc
  have hne : Nat.toDigits 10 n ≠ [] := Nat.toDigits_ne_nil
  unfold parseI64
  split
  · rename_i digits heq
    exact absurd (hdigit '-' (by simp [heq])) (by decide)
  · rename_i digits heq
    exact absurd (hdigit '+' (by simp [heq])) (by decide)
  · have hall : (Nat.toDigits 10 n).all Char.isDigit = true := by
      simpa [List.all_eq_true] using hdigit
    have hlt : n < 9223372036854775808 := hn
    simp [hne, hall, Nat.ofDigitChars_ten_toDigits, hlt]

theorem splitOnceColon_append (kind rest : List Char) (hkind : ':' ∉ kind) :
    splitOnceColon (kind ++ ':' :: rest) = some (kind, rest) := by
  have hpass : ∀ c ∈ kind, decide (c ≠ ':') = true := by
    intro c hc
    simpa using fun h : c = ':' => hkind (h ▸ hc)
  have hdrop : (kind ++ ':' :: rest).dropWhile (· ≠ ':') = ':' :: rest := by
    rw [List.dropWhile_append_of_pos hpass]
    simp
  have htake : (kind ++ ':' :: rest).takeWhile (· ≠ ':') = kind := by
    rw [List.takeWhile_append_of_pos hpass]
    simp
  rw [splitOnceColon, hdrop]
  exact congrArg (fun taken => some (taken, rest)) htake

/-- A stored spelling names exactly the target it was written for. -/
@[simp]
theorem parseTarget_display (target : SearchTarget) :
    parseTarget target.display = some target := by
  have hspelling : target.display.toList =
      target.kind.toList ++ ':' :: Nat.toDigits 10 target.id.value := by
    simp [SearchTarget.display]
  have hkind : ':' ∉ target.kind.toList := by
    cases target <;> simp [SearchTarget.kind]
  have hid := parseI64_toDigits target.id.value target.id.bounded
  simp only [parseTarget, hspelling, splitOnceColon_append _ _ hkind,
    Option.bind_eq_bind, Option.bind_some, hid, RowId.new?_value,
    Option.map_some]
  cases target with
  | project projectId => simp [SearchTarget.kind, SearchTarget.id]
  | thread threadId => simp [SearchTarget.kind, SearchTarget.id]

theorem SearchTarget.display_injective :
    Function.Injective SearchTarget.display := by
  intro target other heq
  have hparse := congrArg parseTarget heq
  simpa using hparse

end RelayerGraph
