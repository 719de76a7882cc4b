import Mathlib

/-!
# Finite maps in key order

A finite map kept as its entries in strictly increasing key order, with the
operations a balanced tree offers: inserting in place of an entry with the same
key, keeping the entries that meet a test, and changing values in place.
-/

namespace Foundation

universe u v

/-- Entries in strictly increasing order of their keys. -/
structure OrderedMap (κ : Type u) (ν : Type v) [LinearOrder κ] where
  entries : List (κ × ν)
  sorted : entries.Pairwise fun e f => e.1 < f.1

namespace OrderedMap

variable {κ : Type u} {ν : Type v} [LinearOrder κ]

def empty : OrderedMap κ ν := ⟨[], List.Pairwise.nil⟩

/-- The entries before a key, and those after it. -/
def before (m : OrderedMap κ ν) (k : κ) : List (κ × ν) :=
  m.entries.filter (·.1 < k)

def after (m : OrderedMap κ ν) (k : κ) : List (κ × ν) :=
  m.entries.filter (k < ·.1)

/-- Puts a value at a key, in place of the value there. -/
def insert (m : OrderedMap κ ν) (k : κ) (v : ν) : OrderedMap κ ν where
  entries := m.before k ++ (k, v) :: m.after k
  sorted := by
    refine List.pairwise_append.mpr ⟨m.sorted.filter _, ?_, ?_⟩
    · refine List.pairwise_cons.mpr ⟨?_, m.sorted.filter _⟩
      intro e he
      simpa using (List.mem_filter.mp he).2
    · intro e he f hf
      have hlt : e.1 < k := by simpa using (List.mem_filter.mp he).2
      rcases List.mem_cons.mp hf with rfl | hf
      · exact hlt
      · exact hlt.trans (by simpa using (List.mem_filter.mp hf).2)

/-- Keeps the entries that meet a test. -/
def retain (m : OrderedMap κ ν) (keep : κ × ν → Bool) : OrderedMap κ ν :=
  ⟨m.entries.filter keep, m.sorted.filter keep⟩

/-- Changes every value in place. -/
def mapValues (m : OrderedMap κ ν) (change : ν → ν) : OrderedMap κ ν where
  entries := m.entries.map fun e => (e.1, change e.2)
  sorted := List.pairwise_map.mpr m.sorted

def lastKey (m : OrderedMap κ ν) : Option κ :=
  m.entries.getLast?.map Prod.fst

variable {m : OrderedMap κ ν} {k : κ} {v : ν} {e : κ × ν}

@[simp]
theorem entries_empty : (empty : OrderedMap κ ν).entries = [] := rfl

theorem mem_insert : e ∈ (m.insert k v).entries ↔
    e = (k, v) ∨ (e ∈ m.entries ∧ e.1 ≠ k) := by
  simp only [insert, before, after, List.mem_append, List.mem_cons,
    List.mem_filter, decide_eq_true_eq]
  constructor
  · rintro (⟨hmem, hlt⟩ | rfl | ⟨hmem, hlt⟩)
    · exact .inr ⟨hmem, hlt.ne⟩
    · exact .inl rfl
    · exact .inr ⟨hmem, hlt.ne'⟩
  · rintro (rfl | ⟨hmem, hne⟩)
    · exact .inr (.inl rfl)
    · rcases lt_or_gt_of_ne hne with hlt | hgt
      · exact .inl ⟨hmem, hlt⟩
      · exact .inr (.inr ⟨hmem, hgt⟩)

@[simp]
theorem mem_retain {keep : κ × ν → Bool} :
    e ∈ (m.retain keep).entries ↔ e ∈ m.entries ∧ keep e = true :=
  List.mem_filter

theorem mem_mapValues {change : ν → ν} :
    e ∈ (m.mapValues change).entries ↔
      ∃ f ∈ m.entries, f.1 = e.1 ∧ change f.2 = e.2 := by
  simp only [mapValues, List.mem_map]
  constructor
  · rintro ⟨f, hf, rfl⟩
    exact ⟨f, hf, rfl, rfl⟩
  · rintro ⟨f, hf, hkey, hvalue⟩
    exact ⟨f, hf, Prod.ext hkey hvalue⟩

/-- A key with no entry is inserted between its neighbours. -/
theorem entries_insert_of_new (hnew : ∀ e ∈ m.entries, e.1 ≠ k) :
    (m.insert k v).entries.Perm ((k, v) :: m.entries) := by
  have hsplit : (m.before k ++ m.after k).Perm m.entries := by
    have hafter : m.after k = m.entries.filter fun e => !decide (e.1 < k) := by
      refine List.filter_congr fun e he => ?_
      rcases lt_or_gt_of_ne (hnew e he) with hlt | hgt
      · simp [hlt, hlt.not_gt]
      · simp [hgt, hgt.not_gt]
    rw [hafter]
    exact List.filter_append_perm _ _
  exact List.perm_middle.trans (hsplit.cons _)

/-- A key above all others is inserted at the end. -/
theorem entries_insert_of_lt (hlast : ∀ e ∈ m.entries, e.1 < k) :
    (m.insert k v).entries = m.entries ++ [(k, v)] := by
  have hbefore : m.before k = m.entries :=
    List.filter_eq_self.mpr fun e he => by simpa using hlast e he
  have hafter : m.after k = [] :=
    List.filter_eq_nil_iff.mpr fun e he => by
      simpa using (hlast e he).le
  simp [insert, hbefore, hafter]

theorem lastKey_eq_none_iff : m.lastKey = none ↔ m.entries = [] := by
  simp [lastKey]

/-- The last key is a key, and no key is above it. -/
theorem of_lastKey (h : m.lastKey = some k) :
    (∃ v, (k, v) ∈ m.entries) ∧ ∀ e ∈ m.entries, e.1 ≤ k := by
  simp only [lastKey, Option.map_eq_some_iff] at h
  obtain ⟨last, hlast, rfl⟩ := h
  obtain ⟨front, hfront⟩ := List.getLast?_eq_some_iff.mp hlast
  refine ⟨⟨last.2, by simp [hfront]⟩, fun e he => ?_⟩
  rw [hfront, List.mem_append, List.mem_singleton] at he
  rcases he with he | rfl
  · have hsorted := m.sorted
    rw [hfront] at hsorted
    exact ((List.pairwise_append.mp hsorted).2.2 e he last (by simp)).le
  · exact le_rfl

end OrderedMap

end Foundation
