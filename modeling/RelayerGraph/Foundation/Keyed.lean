import Mathlib

/-!
# Tables with given keys

A table whose rows carry the key they were inserted with, listed in the order
of their insertion, no key twice.  `put` stores a row under a key, in place of
the row there, `mapRows` is an update of the rows a condition selects, `keep`
drops the rows a condition rejects.  Each comes with the lookup it leaves
behind.
-/

namespace Foundation

universe u v

/-- Rows by key, in the order their keys were inserted. -/
structure Keyed (κ : Type u) (ρ : Type v) where
  rows : List (κ × ρ)
  nodup : (rows.map Prod.fst).Nodup

namespace Keyed

variable {κ : Type u} {ρ : Type v}

instance [DecidableEq κ] [DecidableEq ρ] : DecidableEq (Keyed κ ρ) :=
  fun T S => decidable_of_iff (T.rows = S.rows) (by
    obtain ⟨rows, _⟩ := T
    obtain ⟨rows', _⟩ := S
    simp)

def empty : Keyed κ ρ := ⟨[], List.nodup_nil⟩

/-- Rewrite every row in place. -/
def mapRows (T : Keyed κ ρ) (f : κ → ρ → ρ) : Keyed κ ρ where
  rows := T.rows.map fun entry => (entry.1, f entry.1 entry.2)
  nodup := by
    have hkeys : (T.rows.map fun entry => (entry.1, f entry.1 entry.2)).map
        Prod.fst = T.rows.map Prod.fst := by
      simp
    rw [hkeys]
    exact T.nodup

/-- The rows that meet a condition. -/
def keep (T : Keyed κ ρ) (p : κ → ρ → Bool) : Keyed κ ρ where
  rows := T.rows.filter fun entry => p entry.1 entry.2
  nodup := (List.filter_sublist.map Prod.fst).nodup T.nodup

/-- The table with another value under each key. -/
def mapValues {τ : Type*} (T : Keyed κ ρ) (f : ρ → τ) : Keyed κ τ where
  rows := T.rows.map fun entry => (entry.1, f entry.2)
  nodup := by
    have hkeys : (T.rows.map fun entry => (entry.1, f entry.2)).map Prod.fst =
        T.rows.map Prod.fst := by
      simp
    rw [hkeys]
    exact T.nodup

/-- The rows without the oldest `n`. -/
def dropOldest (T : Keyed κ ρ) (n : ℕ) : Keyed κ ρ where
  rows := T.rows.drop n
  nodup := ((List.drop_sublist n T.rows).map Prod.fst).nodup T.nodup

theorem rows_nodup (T : Keyed κ ρ) : T.rows.Nodup := .of_map _ T.nodup

theorem eq_of_rows {T S : Keyed κ ρ} (h : T.rows = S.rows) : T = S := by
  obtain ⟨rows, _⟩ := T
  obtain ⟨rows', _⟩ := S
  obtain rfl : rows = rows' := h
  rfl

theorem keep_congr {T : Keyed κ ρ} {p q : κ → ρ → Bool}
    (h : ∀ entry ∈ T.rows, p entry.1 entry.2 = q entry.1 entry.2) :
    T.keep p = T.keep q :=
  eq_of_rows (List.filter_congr h)

theorem keep_eq_self {T : Keyed κ ρ} {p : κ → ρ → Bool}
    (h : ∀ entry ∈ T.rows, p entry.1 entry.2) : T.keep p = T :=
  eq_of_rows (List.filter_eq_self.mpr h)

theorem keep_keep (T : Keyed κ ρ) (p q : κ → ρ → Bool) :
    (T.keep p).keep q = T.keep fun k row => p k row && q k row := by
  apply eq_of_rows
  simp only [keep, List.filter_filter]
  exact List.filter_congr fun entry _ => Bool.and_comm _ _

theorem rows_keep_sublist (T : Keyed κ ρ) (p : κ → ρ → Bool) :
    (T.keep p).rows.Sublist T.rows :=
  List.filter_sublist

variable [DecidableEq κ]

/-- The table without a key. -/
def erase (T : Keyed κ ρ) (k : κ) : Keyed κ ρ :=
  T.keep fun key _ => decide (key ≠ k)

/-- The row stored under a key. -/
def get? (T : Keyed κ ρ) (k : κ) : Option ρ :=
  (T.rows.find? fun entry => entry.1 = k).map Prod.snd

theorem mem_rows_of_get? {T : Keyed κ ρ} {k : κ} {row : ρ}
    (h : T.get? k = some row) : (k, row) ∈ T.rows := by
  simp only [get?, Option.map_eq_some_iff] at h
  obtain ⟨entry, hfind, rfl⟩ := h
  have hkey : entry.1 = k := by simpa using List.find?_some hfind
  have hmem := List.mem_of_find?_eq_some hfind
  rwa [← hkey]

theorem get?_eq_none_iff {T : Keyed κ ρ} {k : κ} :
    T.get? k = none ↔ ∀ entry ∈ T.rows, entry.1 ≠ k := by
  simp [get?]

theorem get?_of_mem_rows {T : Keyed κ ρ} {k : κ} {row : ρ}
    (h : (k, row) ∈ T.rows) : T.get? k = some row := by
  cases hget : T.get? k with
  | none => exact absurd rfl (get?_eq_none_iff.mp hget _ h)
  | some other =>
      have hother := mem_rows_of_get? hget
      have hsame := List.inj_on_of_nodup_map T.nodup h hother rfl
      rw [(Prod.mk.inj hsame).2]

theorem mem_rows_iff {T : Keyed κ ρ} {k : κ} {row : ρ} :
    (k, row) ∈ T.rows ↔ T.get? k = some row :=
  ⟨get?_of_mem_rows, mem_rows_of_get?⟩

/-- Store a row under a key, in place of the row there. -/
def put (T : Keyed κ ρ) (k : κ) (row : ρ) : Keyed κ ρ :=
  if h : T.get? k = none then
    { rows := T.rows ++ [(k, row)]
      nodup := by
        rw [List.map_append, List.nodup_append]
        refine ⟨T.nodup, by simp, ?_⟩
        intro a ha b hb
        obtain rfl : b = k := by simpa using hb
        obtain ⟨entry, hentry, rfl⟩ := List.mem_map.mp ha
        exact get?_eq_none_iff.mp h entry hentry }
  else
    T.mapRows fun key old => if key = k then row else old

/-- Store several rows, one after the other. -/
def putAll (T : Keyed κ ρ) (entries : List (κ × ρ)) : Keyed κ ρ :=
  entries.foldl (fun table entry => table.put entry.1 entry.2) T

/-! ## Lookups -/

@[simp]
theorem get?_empty (k : κ) : (empty : Keyed κ ρ).get? k = none := rfl

@[simp]
theorem get?_mapRows (T : Keyed κ ρ) (f : κ → ρ → ρ) (k : κ) :
    (T.mapRows f).get? k = (T.get? k).map (f k) := by
  cases hget : T.get? k with
  | none =>
      refine get?_eq_none_iff.mpr fun entry hentry => ?_
      obtain ⟨old, hold, rfl⟩ := List.mem_map.mp hentry
      exact get?_eq_none_iff.mp hget old hold
  | some row =>
      refine get?_of_mem_rows (List.mem_map.mpr ⟨(k, row), ?_, rfl⟩)
      exact mem_rows_of_get? hget

theorem get?_put (T : Keyed κ ρ) (k : κ) (row : ρ) (key : κ) :
    (T.put k row).get? key = if key = k then some row else T.get? key := by
  unfold put
  by_cases h : T.get? k = none
  · rw [dif_pos h]
    by_cases hkey : key = k
    · subst hkey
      rw [if_pos rfl]
      exact get?_of_mem_rows (by simp)
    · rw [if_neg hkey]
      have hne : ¬ k = key := fun heq => hkey heq.symm
      simp [get?, List.find?_append, hne]
  · rw [dif_neg h, get?_mapRows]
    by_cases hkey : key = k
    · subst hkey
      obtain ⟨old, hold⟩ := Option.ne_none_iff_exists'.mp h
      simp [hold]
    · rw [if_neg hkey]
      cases T.get? key <;> simp [hkey]

@[simp]
theorem get?_put_self (T : Keyed κ ρ) (k : κ) (row : ρ) :
    (T.put k row).get? k = some row := by
  rw [get?_put, if_pos rfl]

theorem get?_put_of_ne (T : Keyed κ ρ) {k key : κ} (row : ρ)
    (h : key ≠ k) : (T.put k row).get? key = T.get? key := by
  rw [get?_put, if_neg h]

theorem get?_putAll_of_not_mem {T : Keyed κ ρ} {entries : List (κ × ρ)} {k : κ}
    (h : k ∉ entries.map Prod.fst) : (T.putAll entries).get? k = T.get? k := by
  induction entries generalizing T with
  | nil => rfl
  | cons entry rest ih =>
      have hne : k ≠ entry.1 := fun heq => h (by simp [heq])
      have hrest : k ∉ rest.map Prod.fst := fun hmem =>
        h (List.mem_cons_of_mem _ hmem)
      exact (ih hrest).trans (get?_put_of_ne T entry.2 hne)

theorem get?_putAll_of_mem {T : Keyed κ ρ} {entries : List (κ × ρ)} {k : κ}
    {row : ρ} (hkeys : (entries.map Prod.fst).Nodup) (h : (k, row) ∈ entries) :
    (T.putAll entries).get? k = some row := by
  induction entries generalizing T with
  | nil => simp at h
  | cons entry rest ih =>
      have hnodup := List.nodup_cons.mp hkeys
      rcases List.mem_cons.mp h with hfirst | hrest
      · subst hfirst
        exact (get?_putAll_of_not_mem hnodup.1).trans (get?_put_self T k row)
      · exact ih hnodup.2 hrest

theorem get?_putAll_cases {T : Keyed κ ρ} {entries : List (κ × ρ)} {k : κ}
    {row : ρ} (h : (T.putAll entries).get? k = some row) :
    (k, row) ∈ entries ∨ k ∉ entries.map Prod.fst ∧ T.get? k = some row := by
  induction entries generalizing T with
  | nil => exact .inr ⟨by simp, h⟩
  | cons entry rest ih =>
      rcases ih h with hrest | ⟨hnot, hget⟩
      · exact .inl (List.mem_cons_of_mem _ hrest)
      · rw [get?_put] at hget
        by_cases hkey : k = entry.1
        · rw [if_pos hkey] at hget
          left
          rw [← Option.some.inj hget, hkey]
          exact List.mem_cons_self
        · rw [if_neg hkey] at hget
          exact .inr ⟨by simp [hkey, hnot], hget⟩

@[simp]
theorem get?_mapValues {τ : Type*} (T : Keyed κ ρ) (f : ρ → τ) (k : κ) :
    (T.mapValues f).get? k = (T.get? k).map f := by
  simp [get?, mapValues, List.find?_map, Function.comp_def]

theorem get?_keep_of_eq_some {T : Keyed κ ρ} {p : κ → ρ → Bool} {k : κ} {row : ρ}
    (h : (T.keep p).get? k = some row) : T.get? k = some row ∧ p k row = true := by
  obtain ⟨hmem, hp⟩ := List.mem_filter.mp (mem_rows_of_get? h)
  exact ⟨get?_of_mem_rows hmem, hp⟩

theorem get?_keep (T : Keyed κ ρ) (p : κ → ρ → Bool) (k : κ) :
    (T.keep p).get? k = (T.get? k).filter (p k) := by
  cases hkept : (T.keep p).get? k with
  | some row =>
      obtain ⟨hget, hp⟩ := get?_keep_of_eq_some hkept
      rw [hget, Option.filter_some, if_pos hp]
  | none =>
      cases hget : T.get? k with
      | none => rfl
      | some row =>
          have hp : ¬ p k row := fun hp =>
            get?_eq_none_iff.mp hkept _
              (List.mem_filter.mpr ⟨mem_rows_of_get? hget, hp⟩) rfl
          rw [Option.filter_some, if_neg hp]

theorem get?_erase (T : Keyed κ ρ) (k key : κ) :
    (T.erase k).get? key = if key = k then none else T.get? key := by
  by_cases hkey : key = k
  · subst hkey
    rw [if_pos rfl]
    refine get?_eq_none_iff.mpr fun entry hentry => ?_
    have hne := (List.mem_filter.mp hentry).2
    simpa using hne
  · rw [if_neg hkey]
    cases hget : T.get? key with
    | none =>
        refine get?_eq_none_iff.mpr fun entry hentry => ?_
        exact get?_eq_none_iff.mp hget entry (List.mem_filter.mp hentry).1
    | some row =>
        refine get?_of_mem_rows (List.mem_filter.mpr ⟨?_, by simp [hkey]⟩)
        exact mem_rows_of_get? hget

@[simp]
theorem get?_erase_self (T : Keyed κ ρ) (k : κ) :
    (T.erase k).get? k = none := by
  rw [get?_erase, if_pos rfl]

theorem get?_erase_of_ne (T : Keyed κ ρ) {k key : κ} (h : key ≠ k) :
    (T.erase k).get? key = T.get? key := by
  rw [get?_erase, if_neg h]

theorem mem_rows_put {T : Keyed κ ρ} {k : κ} {row : ρ} {entry : κ × ρ}
    (hentry : entry ∈ (T.put k row).rows) :
    entry = (k, row) ∨ entry ∈ T.rows := by
  obtain ⟨key, stored⟩ := entry
  have hget := get?_of_mem_rows hentry
  rw [get?_put] at hget
  by_cases hkey : key = k
  · rw [if_pos hkey] at hget
    exact .inl (by rw [hkey, ← Option.some.inj hget])
  · rw [if_neg hkey] at hget
    exact .inr (mem_rows_of_get? hget)

theorem rows_put_of_none {T : Keyed κ ρ} {k : κ} (row : ρ)
    (h : T.get? k = none) : (T.put k row).rows = T.rows ++ [(k, row)] := by
  rw [put, dif_pos h]

theorem rows_put_of_some {T : Keyed κ ρ} {k : κ} {old : ρ} (row : ρ)
    (h : T.get? k = some old) : (T.put k row).rows =
      T.rows.map fun entry =>
        (entry.1, if entry.1 = k then row else entry.2) := by
  rw [put, dif_neg (by simp [h])]
  rfl

theorem rows_erase_of_none {T : Keyed κ ρ} {k : κ} (h : T.get? k = none) :
    (T.erase k).rows = T.rows := by
  refine List.filter_eq_self.mpr fun entry hentry => ?_
  simpa using get?_eq_none_iff.mp h entry hentry

theorem mem_rows_erase {T : Keyed κ ρ} {k : κ} {entry : κ × ρ} :
    entry ∈ (T.erase k).rows ↔ entry ∈ T.rows ∧ entry.1 ≠ k := by
  simp [erase, keep]

/-- A row and the others, whatever its place among them. -/
theorem rows_perm_erase {T : Keyed κ ρ} {k : κ} {row : ρ}
    (h : T.get? k = some row) : T.rows.Perm ((k, row) :: (T.erase k).rows) := by
  have hfresh : (k, row) ∉ (T.erase k).rows := fun hmem =>
    (mem_rows_erase.mp hmem).2 rfl
  refine (List.perm_ext_iff_of_nodup T.rows_nodup
    (List.nodup_cons.mpr ⟨hfresh, (T.erase k).rows_nodup⟩)).mpr ?_
  rintro ⟨key, other⟩
  rw [List.mem_cons, mem_rows_erase, mem_rows_iff]
  by_cases hkey : key = k
  · subst hkey
    simp [h, eq_comm]
  · simp [hkey]

theorem rows_put_perm (T : Keyed κ ρ) (k : κ) (row : ρ) :
    (T.put k row).rows.Perm ((k, row) :: (T.erase k).rows) := by
  have hfresh : (k, row) ∉ (T.erase k).rows := fun hmem =>
    (mem_rows_erase.mp hmem).2 rfl
  refine (List.perm_ext_iff_of_nodup (T.put k row).rows_nodup
    (List.nodup_cons.mpr ⟨hfresh, (T.erase k).rows_nodup⟩)).mpr ?_
  rintro ⟨key, other⟩
  rw [List.mem_cons, mem_rows_erase, mem_rows_iff, mem_rows_iff, get?_put]
  by_cases hkey : key = k
  · subst hkey
    simp [eq_comm]
  · simp [hkey]

end Keyed

end Foundation
