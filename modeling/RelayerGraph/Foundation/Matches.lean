import Mathlib

/-!
# Matches in a text

A matcher reads a value at the head of a text and says how many units it takes.
`occurrencesFrom` lists every place it matches, `scanFrom` those a reader finds
who goes on behind each match, as a global regular expression does.  The two
agree on a text whose matches are separate.
-/

namespace Foundation

namespace Matches

universe u v

variable {α : Type u} {β : Type v} (match? : List α → Option β) (size : β → ℕ)

/-- Every match of a text, with its position, counted from the given one. -/
def occurrencesFrom : ℕ → List α → List (ℕ × β)
  | _, [] => []
  | position, unit :: rest =>
      match match? (unit :: rest) with
      | some value =>
          (position, value) :: occurrencesFrom (position + 1) rest
      | none => occurrencesFrom (position + 1) rest

/-- The matches a scan finds that skips the given number of units first. -/
def scanFrom : ℕ → ℕ → List α → List (ℕ × β)
  | _, _, [] => []
  | position, skip + 1, _ :: rest => scanFrom (position + 1) skip rest
  | position, 0, unit :: rest =>
      match match? (unit :: rest) with
      | some value =>
          (position, value) :: scanFrom (position + 1) (size value - 1) rest
      | none => scanFrom (position + 1) 0 rest

/-- Every match ends before the next one begins. -/
def Separate (text : List α) : Prop :=
  ∀ i value j other, i < text.length → j < text.length →
    match? (text.drop i) = some value →
    match? (text.drop j) = some other → i < j → i + size value ≤ j

variable {match? size}

theorem Separate.tail {unit : α} {rest : List α}
    (h : Separate match? size (unit :: rest)) : Separate match? size rest := by
  intro i value j other hi hj hvalue hother hlt
  have hshift := h (i + 1) value (j + 1) other (Nat.succ_lt_succ hi)
    (Nat.succ_lt_succ hj) hvalue hother (Nat.succ_lt_succ hlt)
  omega

/-! ## Occurrences -/

theorem mem_occurrencesFrom {text : List α} {position i : ℕ} {value : β} :
    (i, value) ∈ occurrencesFrom match? position text ↔
      ∃ k, k < text.length ∧ i = position + k ∧
        match? (text.drop k) = some value := by
  induction text generalizing position with
  | nil => simp [occurrencesFrom]
  | cons unit rest ih =>
      have hrest : (i, value) ∈ occurrencesFrom match? (position + 1) rest ↔
          ∃ k, 0 < k ∧ k < (unit :: rest).length ∧ i = position + k ∧
            match? ((unit :: rest).drop k) = some value := by
        rw [ih]
        constructor
        · rintro ⟨k, hk, rfl, hmatch⟩
          refine ⟨k + 1, Nat.succ_pos k, ?_, by omega, hmatch⟩
          simpa using hk
        · rintro ⟨k, hpos, hk, rfl, hmatch⟩
          obtain ⟨k, rfl⟩ := Nat.exists_eq_succ_of_ne_zero
            (Nat.pos_iff_ne_zero.mp hpos)
          refine ⟨k, ?_, by omega, hmatch⟩
          simpa using hk
      have hhead : (∃ k, k < (unit :: rest).length ∧ i = position + k ∧
            match? ((unit :: rest).drop k) = some value) ↔
          (i = position ∧ match? (unit :: rest) = some value) ∨
            ∃ k, 0 < k ∧ k < (unit :: rest).length ∧ i = position + k ∧
              match? ((unit :: rest).drop k) = some value := by
        constructor
        · rintro ⟨k, hk, rfl, hmatch⟩
          cases k with
          | zero => exact .inl ⟨rfl, hmatch⟩
          | succ k => exact .inr ⟨k + 1, Nat.succ_pos k, hk, rfl, hmatch⟩
        · rintro (⟨rfl, hmatch⟩ | ⟨k, -, hfound⟩)
          · exact ⟨0, Nat.succ_pos _, rfl, hmatch⟩
          · exact ⟨k, hfound⟩
      rw [hhead, ← hrest, occurrencesFrom]
      cases hmatch : match? (unit :: rest) with
      | none => simp
      | some found =>
          simp only [List.mem_cons, Prod.mk.injEq, Option.some.injEq]
          constructor
          · rintro (⟨rfl, rfl⟩ | hlater)
            · exact .inl ⟨rfl, rfl⟩
            · exact .inr hlater
          · rintro (⟨rfl, rfl⟩ | hlater)
            · exact .inl ⟨rfl, rfl⟩
            · exact .inr hlater

theorem le_of_mem_occurrencesFrom {text : List α} {position : ℕ}
    {found : ℕ × β} (h : found ∈ occurrencesFrom match? position text) :
    position ≤ found.1 := by
  obtain ⟨i, value⟩ := found
  rw [mem_occurrencesFrom] at h
  obtain ⟨k, -, rfl, -⟩ := h
  exact Nat.le_add_right _ _

/-- Occurrences are listed from left to right. -/
theorem sorted_occurrencesFrom (position : ℕ) (text : List α) :
    (occurrencesFrom match? position text).Pairwise
      fun found other => found.1 < other.1 := by
  induction text generalizing position with
  | nil => exact .nil
  | cons unit rest ih =>
      unfold occurrencesFrom
      cases match? (unit :: rest) with
      | none => exact ih _
      | some value =>
          refine .cons ?_ (ih _)
          intro other hother
          exact le_of_mem_occurrencesFrom hother

/-- Matches are separate when those listed are. -/
theorem separate_of_pairwise {text : List α}
    (h : (occurrencesFrom match? 0 text).Pairwise
      fun found other => found.1 + size found.2 ≤ other.1) :
    Separate match? size text := by
  intro i value j other hi hj hvalue hother hlt
  have hfound : (i, value) ∈ occurrencesFrom match? 0 text := by
    rw [mem_occurrencesFrom]
    exact ⟨i, hi, (Nat.zero_add i).symm, hvalue⟩
  have hnext : (j, other) ∈ occurrencesFrom match? 0 text := by
    rw [mem_occurrencesFrom]
    exact ⟨j, hj, (Nat.zero_add j).symm, hother⟩
  obtain ⟨a, ha, hfirst⟩ := List.mem_iff_getElem.mp hfound
  obtain ⟨b, hb, hsecond⟩ := List.mem_iff_getElem.mp hnext
  have hsorted := List.pairwise_iff_getElem.mp
    (@sorted_occurrencesFrom _ _ match? 0 text)
  rcases lt_trichotomy a b with hab | hab | hab
  · have hapart := List.pairwise_iff_getElem.mp h a b ha hb hab
    rw [hfirst, hsecond] at hapart
    exact hapart
  · subst hab
    have hsame := congrArg Prod.fst (hfirst.symm.trans hsecond)
    simp only at hsame
    omega
  · have hback := hsorted b a hb ha hab
    rw [hfirst, hsecond] at hback
    simp only at hback
    omega

/-! ## Scans -/

/-- A scan finds occurrences only. -/
theorem scanFrom_sublist (position skip : ℕ) (text : List α) :
    (scanFrom match? size position skip text).Sublist
      (occurrencesFrom match? position text) := by
  induction text generalizing position skip with
  | nil => cases skip <;> exact .slnil
  | cons unit rest ih =>
      cases skip with
      | zero =>
          unfold scanFrom occurrencesFrom
          cases match? (unit :: rest) with
          | none => exact ih _ _
          | some value => exact (ih _ _).cons₂ _
      | succ skip =>
          unfold scanFrom occurrencesFrom
          cases match? (unit :: rest) with
          | none => exact ih _ _
          | some value => exact (ih _ _).cons _

/-- A scan misses nothing when the matches are separate and none begins in
what it skips. -/
theorem scanFrom_eq_occurrencesFrom {position skip : ℕ} {text : List α}
    (hseparate : Separate match? size text)
    (hskip : ∀ k value, k < text.length →
      match? (text.drop k) = some value → skip ≤ k) :
    scanFrom match? size position skip text =
      occurrencesFrom match? position text := by
  induction text generalizing position skip with
  | nil => cases skip <;> rfl
  | cons unit rest ih =>
      cases skip with
      | zero =>
          unfold scanFrom occurrencesFrom
          cases hmatch : match? (unit :: rest) with
          | none =>
              exact ih hseparate.tail fun k value _ _ => Nat.zero_le k
          | some value =>
              refine congrArg _ (ih hseparate.tail ?_)
              intro k other hk hother
              have hbehind := hseparate 0 value (k + 1) other (Nat.succ_pos _)
                (Nat.succ_lt_succ hk) hmatch hother (Nat.succ_pos k)
              omega
      | succ skip =>
          have hnone : match? (unit :: rest) = none := by
            cases hmatch : match? (unit :: rest) with
            | none => rfl
            | some value =>
                have hle := hskip 0 value (Nat.succ_pos _) hmatch
                omega
          unfold scanFrom occurrencesFrom
          rw [hnone]
          refine ih hseparate.tail ?_
          intro k value hk hvalue
          have hle := hskip (k + 1) value (Nat.succ_lt_succ hk) hvalue
          omega

end Matches

end Foundation
