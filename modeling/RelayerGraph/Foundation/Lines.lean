import Mathlib

/-!
# Cutting a list at a separator

A list cut at every occurrence of a separator: the pieces that end at one, and
what is left after the last.  The pieces of a list that arrives in parts are
those of the parts, the remainder of one part being the beginning of the next.
-/

namespace Foundation

variable {α : Type} [DecidableEq α] (sep : α)

/-- A piece joined to the beginning of the pieces that follow it. -/
def prependPiece (piece : List α) (cut : List (List α) × List α) :
    List (List α) × List α :=
  match cut with
  | ([], rest) => ([], piece ++ rest)
  | (first :: pieces, rest) => ((piece ++ first) :: pieces, rest)

/-- The pieces before the separators of a list, and the remainder. -/
def cutAt : List α → List (List α) × List α
  | [] => ([], [])
  | x :: xs =>
      if x = sep then ([] :: (cutAt xs).1, (cutAt xs).2)
      else prependPiece [x] (cutAt xs)

theorem prependPiece_nil (cut : List (List α) × List α) :
    prependPiece [] cut = cut := by
  obtain ⟨pieces, rest⟩ := cut
  cases pieces <;> rfl

theorem prependPiece_append (piece piece' : List α)
    (cut : List (List α) × List α) :
    prependPiece (piece ++ piece') cut =
      prependPiece piece (prependPiece piece' cut) := by
  obtain ⟨pieces, rest⟩ := cut
  cases pieces <;> simp [prependPiece]

/-- The pieces of a list that arrives in two parts. -/
theorem cutAt_append (xs ys : List α) :
    cutAt sep (xs ++ ys) =
      ((cutAt sep xs).1 ++ (prependPiece (cutAt sep xs).2 (cutAt sep ys)).1,
        (prependPiece (cutAt sep xs).2 (cutAt sep ys)).2) := by
  induction xs with
  | nil => simp [cutAt, prependPiece_nil]
  | cons x xs ih =>
      rw [List.cons_append, cutAt, cutAt, ih]
      by_cases hx : x = sep
      · simp [hx]
      · simp only [if_neg hx]
        cases hpieces : (cutAt sep xs).1 with
        | nil =>
            have hcut : cutAt sep xs = ([], (cutAt sep xs).2) :=
              Prod.ext hpieces rfl
            rw [hcut, prependPiece]
            simp only [List.nil_append]
            rw [prependPiece_append]
        | cons first pieces =>
            have hcut : cutAt sep xs = (first :: pieces, (cutAt sep xs).2) :=
              Prod.ext hpieces rfl
            rw [hcut]
            simp [prependPiece]

theorem cutAt_of_not_mem {xs : List α} (h : sep ∉ xs) :
    cutAt sep xs = ([], xs) := by
  induction xs with
  | nil => rfl
  | cons x xs ih =>
      rw [List.mem_cons, not_or] at h
      rw [cutAt, if_neg (Ne.symm h.1), ih h.2]
      rfl

end Foundation
