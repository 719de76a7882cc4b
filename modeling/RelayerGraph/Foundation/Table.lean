import Mathlib

/-!
# Tables with never-reused row keys

A table hands out the keys 1, 2, 3, … and never reuses one.  Rows are listed
in key order, which is the order of an unfiltered scan.  Three operations are
enough for the usual statements: `insert`, `mapRows` for an update of the rows
a condition selects, and `filterRows` for a deletion.  Each comes with the
lookup it leaves behind.
-/

namespace Foundation

universe u

variable {τ : Type} {tag : τ} {ρ : Type u}

/-- The key of a row in the table with the given tag. -/
structure Key (tag : τ) where
  val : ℕ
deriving Repr

instance : DecidableEq (Key tag) := fun key other =>
  decidable_of_iff (key.val = other.val)
    ⟨fun h => congrArg Key.mk h, fun h => congrArg Key.val h⟩

/-- Rows by key; a deleted row leaves its key unused. -/
structure Table (tag : τ) (ρ : Type u) where
  rows : List (Option ρ)
deriving Repr

instance [DecidableEq ρ] : DecidableEq (Table tag ρ) := fun T S =>
  decidable_of_iff (T.rows = S.rows)
    ⟨fun h => congrArg Table.mk h, fun h => congrArg Table.rows h⟩

namespace Table

def empty : Table tag ρ := ⟨[]⟩

/-- The row stored under a key. -/
def get? (T : Table tag ρ) (key : Key tag) : Option ρ :=
  match key.val with
  | 0 => none
  | index + 1 => T.rows[index]?.join

/-- The key the next inserted row receives. -/
def nextKey (T : Table tag ρ) : Key tag := ⟨T.rows.length + 1⟩

def insert (T : Table tag ρ) (row : ρ) : Table tag ρ :=
  ⟨T.rows ++ [some row]⟩

/-- Rewrite every row in place. -/
def mapRows (T : Table tag ρ) (f : Key tag → ρ → ρ) : Table tag ρ :=
  ⟨T.rows.mapIdx fun index row => row.map (f ⟨index + 1⟩)⟩

/-- Keep the rows a condition selects. -/
def filterRows (T : Table tag ρ) (p : Key tag → ρ → Bool) : Table tag ρ :=
  ⟨T.rows.mapIdx fun index row => row.filter (p ⟨index + 1⟩)⟩

/-- All rows with their keys, in key order. -/
def entries (T : Table tag ρ) : List (Key tag × ρ) :=
  (T.rows.mapIdx fun index row => row.map (Prod.mk (⟨index + 1⟩ : Key tag)))
    |>.filterMap id

/-- The keys of the rows a condition selects, in key order. -/
def select (T : Table tag ρ) (p : Key tag → ρ → Bool) : List (Key tag) :=
  (T.entries.filter fun entry => p entry.1 entry.2).map Prod.fst

/-! ## Lookups -/

@[simp]
theorem get?_empty (key : Key tag) : (empty : Table tag ρ).get? key = none := by
  unfold get?
  split <;> simp [empty]

theorem get?_zero (T : Table tag ρ) : T.get? ⟨0⟩ = none := rfl

theorem get?_succ (T : Table tag ρ) (index : ℕ) :
    T.get? ⟨index + 1⟩ = T.rows[index]?.join := rfl

theorem lt_of_get?_eq_some {T : Table tag ρ} {key : Key tag} {row : ρ}
    (h : T.get? key = some row) : 0 < key.val ∧ key.val < T.nextKey.val := by
  obtain ⟨val⟩ := key
  cases val with
  | zero => cases h
  | succ index =>
      rw [get?_succ] at h
      have hlt : index < T.rows.length := by
        by_contra hge
        rw [List.getElem?_eq_none (Nat.le_of_not_lt hge)] at h
        cases h
      simp only [nextKey]
      omega

@[simp]
theorem get?_nextKey (T : Table tag ρ) : T.get? T.nextKey = none := by
  simp [nextKey, get?_succ]

theorem get?_insert (T : Table tag ρ) (row : ρ) (key : Key tag) :
    (T.insert row).get? key =
      if key = T.nextKey then some row else T.get? key := by
  obtain ⟨val⟩ := key
  cases val with
  | zero => simp [get?_zero, nextKey]
  | succ index =>
      simp only [get?_succ, insert, nextKey, Key.mk.injEq, Nat.add_right_cancel_iff,
        List.getElem?_append]
      by_cases hlt : index < T.rows.length
      · have hne : index ≠ T.rows.length := by omega
        simp [hlt, hne]
      · by_cases heq : index = T.rows.length
        · simp [heq]
        · have hpast : T.rows.length < index := by omega
          have hnone : [some row][index - T.rows.length]? = none := by
            rw [List.getElem?_eq_none_iff]
            simp only [List.length_singleton]
            omega
          simp [hlt, heq, hnone]

@[simp]
theorem get?_insert_nextKey (T : Table tag ρ) (row : ρ) :
    (T.insert row).get? T.nextKey = some row := by
  simp [get?_insert]

theorem get?_insert_of_get? {T : Table tag ρ} {row old : ρ} {key : Key tag}
    (h : T.get? key = some old) : (T.insert row).get? key = some old := by
  have hne : key ≠ T.nextKey := by
    rintro rfl
    simp at h
  rw [get?_insert, if_neg hne, h]

@[simp]
theorem get?_mapRows (T : Table tag ρ) (f : Key tag → ρ → ρ) (key : Key tag) :
    (T.mapRows f).get? key = (T.get? key).map (f key) := by
  obtain ⟨val⟩ := key
  cases val with
  | zero => rfl
  | succ index =>
      simp only [get?_succ, mapRows, List.getElem?_mapIdx]
      cases T.rows[index]? with
      | none => rfl
      | some row => rfl

@[simp]
theorem get?_filterRows (T : Table tag ρ) (p : Key tag → ρ → Bool)
    (key : Key tag) :
    (T.filterRows p).get? key = (T.get? key).filter (p key) := by
  obtain ⟨val⟩ := key
  cases val with
  | zero => rfl
  | succ index =>
      simp only [get?_succ, filterRows, List.getElem?_mapIdx]
      cases T.rows[index]? with
      | none => rfl
      | some row => rfl

@[simp]
theorem nextKey_mapRows (T : Table tag ρ) (f : Key tag → ρ → ρ) :
    (T.mapRows f).nextKey = T.nextKey := by
  simp [nextKey, mapRows]

@[simp]
theorem nextKey_filterRows (T : Table tag ρ) (p : Key tag → ρ → Bool) :
    (T.filterRows p).nextKey = T.nextKey := by
  simp [nextKey, filterRows]

/-! ## Scans -/

theorem mem_entries {T : Table tag ρ} {key : Key tag} {row : ρ} :
    (key, row) ∈ T.entries ↔ T.get? key = some row := by
  have hrows : (key, row) ∈ T.entries ↔
      ∃ index, T.rows[index]? = some (some row) ∧ key = ⟨index + 1⟩ := by
    simp only [entries, List.mem_filterMap, id_eq, exists_eq_right]
    rw [List.mem_iff_getElem?]
    simp only [List.getElem?_mapIdx, Option.map_eq_some_iff, Prod.mk.injEq]
    constructor
    · rintro ⟨index, _, hstored, stored, rfl, rfl, rfl⟩
      exact ⟨index, hstored, rfl⟩
    · rintro ⟨index, hstored, rfl⟩
      exact ⟨index, some row, hstored, row, rfl, rfl, rfl⟩
  rw [hrows]
  obtain ⟨val⟩ := key
  cases val with
  | zero => simp [get?_zero]
  | succ index =>
      simp [get?_succ, Option.join_eq_some_iff]

@[simp]
theorem mem_select {T : Table tag ρ} {p : Key tag → ρ → Bool} {key : Key tag} :
    key ∈ T.select p ↔ ∃ row, T.get? key = some row ∧ p key row = true := by
  simp only [select, List.mem_map, List.mem_filter, Prod.exists,
    exists_and_right, exists_eq_right, mem_entries]

/-- The first selected row. -/
theorem get?_of_head?_select {T : Table tag ρ} {p : Key tag → ρ → Bool}
    {key : Key tag} (h : (T.select p).head? = some key) :
    ∃ row, T.get? key = some row ∧ p key row = true :=
  mem_select.mp (List.mem_of_mem_head? h)

/-- Two rewritings that agree on the rows there leave the same table. -/
theorem mapRows_congr {T : Table tag ρ} {f g : Key tag → ρ → ρ}
    (hsame : ∀ key row, T.get? key = some row → f key row = g key row) :
    T.mapRows f = T.mapRows g := by
  have hrows : (T.rows.mapIdx fun index row =>
      row.map (f (⟨index + 1⟩ : Key tag))) =
      T.rows.mapIdx fun index row => row.map (g (⟨index + 1⟩ : Key tag)) := by
    apply List.ext_getElem?
    intro index
    simp only [List.getElem?_mapIdx]
    cases hrow : T.rows[index]? with
    | none => rfl
    | some stored =>
        cases stored with
        | none => rfl
        | some row =>
            have hget : T.get? ⟨index + 1⟩ = some row := by
              simp [get?_succ, hrow]
            simp [hsame _ _ hget]
  simp only [mapRows, hrows]

theorem mapRows_mapRows (T : Table tag ρ) (f g : Key tag → ρ → ρ) :
    (T.mapRows f).mapRows g = T.mapRows fun key row => g key (f key row) := by
  simp only [mapRows, List.mapIdx_mapIdx]
  congr 1
  apply List.ext_getElem?
  intro index
  simp only [List.getElem?_mapIdx]
  cases T.rows[index]? with
  | none => rfl
  | some row => cases row <;> rfl

theorem mapRows_self (T : Table tag ρ) : (T.mapRows fun _ row => row) = T := by
  have hrows : (T.rows.mapIdx fun _ row => row.map fun old => old) = T.rows := by
    apply List.ext_getElem?
    intro index
    simp
  simp only [mapRows]
  exact congrArg Table.mk hrows

/-- A deletion that selects no row there leaves the table as it is. -/
theorem filterRows_eq_self {T : Table tag ρ} {p : Key tag → ρ → Bool}
    (hall : ∀ key row, T.get? key = some row → p key row = true) :
    T.filterRows p = T := by
  have hrows : (T.rows.mapIdx fun index row =>
      row.filter (p (⟨index + 1⟩ : Key tag))) = T.rows := by
    apply List.ext_getElem?
    intro index
    simp only [List.getElem?_mapIdx]
    cases hrow : T.rows[index]? with
    | none => rfl
    | some stored =>
        cases stored with
        | none => rfl
        | some row =>
            have hget : T.get? ⟨index + 1⟩ = some row := by
              simp [get?_succ, hrow]
            simp [hall _ _ hget]
  simp only [filterRows, hrows]

@[simp]
theorem entries_mapRows (T : Table tag ρ) (f : Key tag → ρ → ρ) :
    (T.mapRows f).entries =
      T.entries.map fun entry => (entry.1, f entry.1 entry.2) := by
  have hid : ∀ (os : List (Option (Key tag × ρ))),
      (os.filterMap id).map (fun entry => (entry.1, f entry.1 entry.2)) =
        (os.map (Option.map fun entry => (entry.1, f entry.1 entry.2))).filterMap
          id := by
    intro os
    rw [List.map_filterMap, List.filterMap_map]
    rfl
  simp only [entries, mapRows, List.mapIdx_mapIdx]
  rw [hid]
  congr 1
  apply List.ext_getElem?
  intro index
  simp only [List.getElem?_mapIdx, List.getElem?_map]
  cases T.rows[index]? with
  | none => rfl
  | some row => cases row <;> rfl

theorem entries_concat (rows : List (Option ρ)) (row : Option ρ) :
    (⟨rows ++ [row]⟩ : Table tag ρ).entries =
      (⟨rows⟩ : Table tag ρ).entries ++
        (row.map (Prod.mk (⟨rows.length + 1⟩ : Key tag))).toList := by
  cases row <;> simp [entries, List.mapIdx_append]

theorem entries_insert (T : Table tag ρ) (row : ρ) :
    (T.insert row).entries = T.entries ++ [(T.nextKey, row)] :=
  entries_concat T.rows (some row)

/-- No key is listed twice. -/
theorem nodup_keys (T : Table tag ρ) : (T.entries.map Prod.fst).Nodup := by
  obtain ⟨rows⟩ := T
  induction rows using List.reverseRecOn with
  | nil => simp [entries]
  | append_singleton rows row ih =>
      rw [entries_concat]
      cases row with
      | none => simpa using ih
      | some row =>
          rw [List.map_append, List.nodup_append]
          refine ⟨ih, by simp, ?_⟩
          intro key hkey other hother
          obtain rfl : other = ⟨rows.length + 1⟩ := by simpa using hother
          obtain ⟨entry, hentry, rfl⟩ := List.mem_map.mp hkey
          have hlt := (lt_of_get?_eq_some (mem_entries.mp hentry)).2
          intro heq
          have hval : entry.1.val = rows.length + 1 := congrArg Key.val heq
          simp only [nextKey] at hlt
          omega

/-! ## Rows that stay -/

/-- Every row is still there, and retains what it said. -/
def Retained (retains : Key tag → ρ → ρ → Prop) (T T' : Table tag ρ) : Prop :=
  ∀ key row, T.get? key = some row →
    ∃ row', T'.get? key = some row' ∧ retains key row row'

namespace Retained

variable {retains retains' : Key tag → ρ → ρ → Prop} {T T' T'' : Table tag ρ}

theorem refl (hrefl : ∀ key row, retains key row row) (T : Table tag ρ) :
    T.Retained retains T :=
  fun key row hrow => ⟨row, hrow, hrefl key row⟩

theorem trans
    (htrans : ∀ key a b c, retains key a b → retains key b c → retains key a c)
    (h : T.Retained retains T') (h' : T'.Retained retains T'') :
    T.Retained retains T'' := by
  intro key row hrow
  obtain ⟨row', hrow', hret⟩ := h key row hrow
  obtain ⟨row'', hrow'', hret'⟩ := h' key row' hrow'
  exact ⟨row'', hrow'', htrans key _ _ _ hret hret'⟩

theorem mono (h : T.Retained retains T')
    (hsub : ∀ key a b, retains key a b → retains' key a b) :
    T.Retained retains' T' := by
  intro key row hrow
  obtain ⟨row', hrow', hret⟩ := h key row hrow
  exact ⟨row', hrow', hsub key row row' hret⟩

theorem insert (hrefl : ∀ key row, retains key row row) (T : Table tag ρ)
    (new : ρ) : T.Retained retains (T.insert new) :=
  fun key row hrow => ⟨row, Table.get?_insert_of_get? hrow, hrefl key row⟩

theorem mapRows {f : Key tag → ρ → ρ}
    (hf : ∀ key row, T.get? key = some row → retains key row (f key row)) :
    T.Retained retains (T.mapRows f) :=
  fun key row hrow => ⟨f key row, by simp [hrow], hf key row hrow⟩

end Retained

end Table

end Foundation
