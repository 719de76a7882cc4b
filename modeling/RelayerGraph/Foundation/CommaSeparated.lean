import Mathlib

/-!
# Comma-separated texts

Texts joined by commas, and the bytes they take.
-/

namespace Foundation

/-- The texts with a comma between any two of them. -/
def commaSeparated : List String → String
  | [] => ""
  | [text] => text
  | text :: next :: texts => text ++ "," ++ commaSeparated (next :: texts)

theorem commaSeparated_cons_cons (text next : String) (texts : List String) :
    commaSeparated (text :: next :: texts) =
      text ++ "," ++ commaSeparated (next :: texts) := rfl

theorem commaSeparated_concat {texts : List String} (hne : texts ≠ [])
    (last : String) :
    commaSeparated (texts ++ [last]) = commaSeparated texts ++ "," ++ last := by
  induction texts with
  | nil => exact absurd rfl hne
  | cons text texts ih =>
      cases texts with
      | nil => rfl
      | cons next texts =>
          have hrest := ih (by simp)
          simp only [List.cons_append] at hrest ⊢
          rw [commaSeparated_cons_cons, hrest, commaSeparated_cons_cons]
          simp only [String.append_assoc]

/-- One text more takes no fewer bytes. -/
theorem utf8ByteSize_commaSeparated_concat (texts : List String)
    (last : String) :
    (commaSeparated texts).utf8ByteSize ≤
      (commaSeparated (texts ++ [last])).utf8ByteSize := by
  by_cases hne : texts = []
  · subst hne
    simp [commaSeparated]
  · rw [commaSeparated_concat hne, String.utf8ByteSize_append,
      String.utf8ByteSize_append]
    omega

/-- The first of some texts take no more bytes than all of them. -/
theorem utf8ByteSize_commaSeparated_append (texts more : List String) :
    (commaSeparated texts).utf8ByteSize ≤
      (commaSeparated (texts ++ more)).utf8ByteSize := by
  induction more generalizing texts with
  | nil => simp
  | cons text more ih =>
      have hfirst := utf8ByteSize_commaSeparated_concat texts text
      have hrest := ih (texts ++ [text])
      rw [List.append_assoc, List.singleton_append] at hrest
      exact hfirst.trans hrest

end Foundation
