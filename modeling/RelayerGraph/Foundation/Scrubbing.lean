import Mathlib

/-!
# Texts with words struck out

A text cut at every occurrence of a word, from left to right, and joined again
with a mark in the place of each.  When the mark is fenced, by a unit before it
and one after it that no word contains, what is struck out stays out: neither
this word nor one struck out before can appear across a mark.
-/

namespace Foundation

namespace Scrubbing

universe u

variable {α : Type u} [DecidableEq α]

/-- A unit put before the first of some pieces. -/
def prependUnit (unit : α) : List (List α) → List (List α)
  | [] => [[unit]]
  | piece :: pieces => (unit :: piece) :: pieces

/-- The pieces between the occurrences of a word in a text, after the given
number of units are skipped. -/
def splitFrom (word : List α) : ℕ → List α → List (List α)
  | _, [] => [[]]
  | skip + 1, _ :: rest => splitFrom word skip rest
  | 0, unit :: rest =>
      if word.isPrefixOf (unit :: rest) then
        [] :: splitFrom word (word.length - 1) rest
      else prependUnit unit (splitFrom word 0 rest)

/-- A text cut at every occurrence of a word. -/
def split (word text : List α) : List (List α) := splitFrom word 0 text

/-- Every occurrence of a word in a text, replaced by a mark. -/
def strike (mark word text : List α) : List α :=
  mark.intercalate (split word text)

/-- The words of a list struck out one after the other. -/
def strikeAll (mark : List α) (words : List (List α)) (text : List α) :
    List α :=
  words.foldl (fun scrubbed word =>
    if word ≠ [] then strike mark word scrubbed else scrubbed) text

/-- A mark between two units of which no word has one, around an inside that
contains no word. -/
structure Fenced (mark word : List α) : Prop where
  fence : ∃ opening inside closing, mark = opening :: (inside ++ [closing]) ∧
    opening ∉ word ∧ closing ∉ word ∧ ¬ word <:+: inside

/-! ## The pieces -/

theorem exists_splitFrom (word : List α) (skip : ℕ) (text : List α) :
    ∃ piece pieces, splitFrom word skip text = piece :: pieces := by
  induction text generalizing skip with
  | nil => exact ⟨[], [], by cases skip <;> rfl⟩
  | cons unit rest ih =>
      cases skip with
      | succ skip => exact ih skip
      | zero =>
          rw [splitFrom]
          by_cases hword : word.isPrefixOf (unit :: rest) = true
          · exact ⟨_, _, if_pos hword⟩
          · obtain ⟨piece, pieces, hsplit⟩ := ih 0
            exact ⟨unit :: piece, pieces, by
              rw [if_neg hword, hsplit, prependUnit]⟩

/-- The first piece begins the text, the others are somewhere in it. -/
theorem splitFrom_pieces (word : List α) (skip : ℕ) {text piece : List α}
    {pieces : List (List α)} (hsplit : splitFrom word skip text =
      piece :: pieces) :
    piece <+: text.drop skip ∧ ∀ later ∈ pieces, later <:+: text := by
  induction text generalizing skip piece pieces with
  | nil =>
      have hpieces : ([[]] : List (List α)) = piece :: pieces := by
        rw [← hsplit]
        cases skip <;> rfl
      obtain ⟨rfl, rfl⟩ := List.cons_eq_cons.mp hpieces
      simp
  | cons unit rest ih =>
      cases skip with
      | succ skip =>
          obtain ⟨hfirst, hlater⟩ := ih skip hsplit
          exact ⟨hfirst, fun later hmem =>
            (hlater later hmem).trans (List.suffix_cons unit rest).isInfix⟩
      | zero =>
          rw [splitFrom] at hsplit
          by_cases hword : word.isPrefixOf (unit :: rest) = true
          · rw [if_pos hword] at hsplit
            obtain ⟨rfl, rfl⟩ := List.cons_eq_cons.mp hsplit
            refine ⟨List.nil_prefix, fun later hmem => ?_⟩
            obtain ⟨next, others, hrest⟩ :=
              exists_splitFrom word (word.length - 1) rest
            obtain ⟨hnext, hothers⟩ := ih _ hrest
            have hin : later <:+: rest := by
              rw [hrest] at hmem
              rcases List.mem_cons.mp hmem with hfirst | hlater
              · rw [hfirst]
                exact hnext.isInfix.trans (List.drop_suffix _ _).isInfix
              · exact hothers later hlater
            exact hin.trans (List.suffix_cons unit rest).isInfix
          · obtain ⟨next, others, hrest⟩ := exists_splitFrom word 0 rest
            rw [if_neg hword, hrest, prependUnit] at hsplit
            obtain ⟨rfl, rfl⟩ := List.cons_eq_cons.mp hsplit
            obtain ⟨hnext, hothers⟩ := ih 0 hrest
            refine ⟨?_, fun later hmem => ?_⟩
            · rw [List.drop_zero]
              rw [List.drop_zero] at hnext
              exact (List.prefix_cons_inj unit).mpr hnext
            · exact (hothers later hmem).trans
                (List.suffix_cons unit rest).isInfix

theorem infix_of_mem_split {word text piece : List α}
    (h : piece ∈ split word text) : piece <:+: text := by
  obtain ⟨first, others, hsplit⟩ := exists_splitFrom word 0 text
  obtain ⟨hfirst, hothers⟩ := splitFrom_pieces word 0 hsplit
  rw [split, hsplit] at h
  rcases List.mem_cons.mp h with hpiece | hlater
  · rw [hpiece]
    rw [List.drop_zero] at hfirst
    exact hfirst.isInfix
  · exact hothers piece hlater

/-- No piece contains the word the text was cut at. -/
theorem not_infix_of_mem_splitFrom {word : List α} (hword : word ≠ [])
    (skip : ℕ) {text piece : List α} (h : piece ∈ splitFrom word skip text) :
    ¬ word <:+: piece := by
  induction text generalizing skip piece with
  | nil =>
      have hpiece : piece ∈ ([[]] : List (List α)) := by
        cases skip <;> exact h
      obtain rfl := List.mem_singleton.mp hpiece
      rwa [List.infix_nil]
  | cons unit rest ih =>
      cases skip with
      | succ skip => exact ih skip h
      | zero =>
          rw [splitFrom] at h
          by_cases hhead : word.isPrefixOf (unit :: rest) = true
          · rw [if_pos hhead] at h
            rcases List.mem_cons.mp h with hfirst | hlater
            · rwa [hfirst, List.infix_nil]
            · exact ih _ hlater
          · obtain ⟨next, others, hrest⟩ := exists_splitFrom word 0 rest
            have hbegins := (splitFrom_pieces word 0 hrest).1
            rw [List.drop_zero] at hbegins
            rw [if_neg hhead, hrest, prependUnit] at h
            rcases List.mem_cons.mp h with hfirst | hlater
            · rw [hfirst, List.infix_cons_iff]
              rintro (hstart | hinside)
              · apply hhead
                rw [List.isPrefixOf_iff_prefix]
                exact hstart.trans ((List.prefix_cons_inj unit).mpr hbegins)
              · exact ih 0 (by rw [hrest]; exact List.mem_cons_self) hinside
            · apply ih 0
              rw [hrest]
              exact List.mem_cons_of_mem _ hlater

theorem split_of_not_infix {word text : List α} (h : ¬ word <:+: text) :
    split word text = [text] := by
  induction text with
  | nil => rfl
  | cons unit rest ih =>
      rw [List.infix_cons_iff, not_or] at h
      have hhead : ¬ word.isPrefixOf (unit :: rest) = true := by
        rw [List.isPrefixOf_iff_prefix]
        exact h.1
      have hrest : splitFrom word 0 rest = [rest] := ih h.2
      rw [split, splitFrom, if_neg hhead, hrest, prependUnit]

/-! ## Words across a mark -/

omit [DecidableEq α] in
theorem prefix_of_prefix_append_cons {word before after : List α} {unit : α}
    (hunit : unit ∉ word) (h : word <+: before ++ unit :: after) :
    word <+: before := by
  have hstop : before ++ [unit] <+: before ++ unit :: after := by simp
  rcases List.prefix_or_prefix_of_prefix h hstop with hshort | hlong
  · rcases List.prefix_concat_iff.mp hshort with hall | hbefore
    · exact absurd (by simp [hall]) hunit
    · exact hbefore
  · exact absurd (hlong.subset (by simp)) hunit

omit [DecidableEq α] in
/-- A word that lacks a unit lies on one side of it. -/
theorem infix_append_cons {word before after : List α} {unit : α}
    (hunit : unit ∉ word) (h : word <:+: before ++ unit :: after) :
    word <:+: before ∨ word <:+: after := by
  induction before with
  | nil =>
      rw [List.nil_append, List.infix_cons_iff] at h
      rcases h with hstart | hafter
      · have hnil : word <+: [] ++ unit :: after := hstart
        exact .inl (prefix_of_prefix_append_cons hunit hnil).isInfix
      · exact .inr hafter
  | cons first before ih =>
      rw [List.cons_append, List.infix_cons_iff] at h
      rcases h with hstart | hlater
      · rw [← List.cons_append] at hstart
        exact .inl (prefix_of_prefix_append_cons hunit hstart).isInfix
      · rcases ih hlater with hbefore | hafter
        · exact .inl (hbefore.trans (List.suffix_cons first before).isInfix)
        · exact .inr hafter

omit [DecidableEq α] in
/-- A word that occurs in pieces joined by a fenced mark occurs in a piece. -/
theorem infix_of_intercalate {mark word : List α} (hmark : Fenced mark word)
    {pieces : List (List α)} (hne : pieces ≠ [])
    (h : word <:+: mark.intercalate pieces) :
    ∃ piece ∈ pieces, word <:+: piece := by
  obtain ⟨opening, inside, closing, rfl, hopening, hclosing, hinside⟩ :=
    hmark.fence
  induction pieces with
  | nil => exact absurd rfl hne
  | cons piece pieces ih =>
      cases pieces with
      | nil => exact ⟨piece, by simp, by simpa using h⟩
      | cons next others =>
          rw [List.intercalate_cons_cons] at h
          have hshape : word <:+: piece ++ opening :: (inside ++ closing ::
              (opening :: (inside ++ [closing])).intercalate
                (next :: others)) := by
            simpa using h
          rcases infix_append_cons hopening hshape with hpiece | hrest
          · exact ⟨piece, by simp, hpiece⟩
          · rcases infix_append_cons hclosing hrest with hmiddle | hlater
            · exact absurd hmiddle hinside
            · obtain ⟨found, hfound, hin⟩ := ih (by simp) hlater
              exact ⟨found, List.mem_cons_of_mem _ hfound, hin⟩

/-! ## What is struck out -/

theorem split_ne_nil (word text : List α) : split word text ≠ [] := by
  obtain ⟨piece, pieces, hsplit⟩ := exists_splitFrom word 0 text
  rw [split, hsplit]
  exact List.cons_ne_nil _ _

theorem not_infix_strike {mark word : List α} (hword : word ≠ [])
    (hmark : Fenced mark word) (text : List α) :
    ¬ word <:+: strike mark word text := by
  intro hin
  obtain ⟨piece, hpiece, hfound⟩ :=
    infix_of_intercalate hmark (split_ne_nil word text) hin
  exact not_infix_of_mem_splitFrom hword 0 hpiece hfound

/-- Striking out one word brings no other in. -/
theorem not_infix_strike_of_not_infix {mark other : List α}
    (hmark : Fenced mark other) (word : List α) {text : List α}
    (h : ¬ other <:+: text) : ¬ other <:+: strike mark word text := by
  intro hin
  obtain ⟨piece, hpiece, hfound⟩ :=
    infix_of_intercalate hmark (split_ne_nil word text) hin
  exact h (hfound.trans (infix_of_mem_split hpiece))

theorem not_infix_strikeAll_of_not_infix {mark other : List α}
    (hmark : Fenced mark other) (words : List (List α)) {text : List α}
    (h : ¬ other <:+: text) : ¬ other <:+: strikeAll mark words text := by
  induction words generalizing text with
  | nil => exact h
  | cons word words ih =>
      rw [strikeAll, List.foldl_cons]
      apply ih
      by_cases hword : word ≠ []
      · rw [if_pos hword]
        exact not_infix_strike_of_not_infix hmark word h
      · rwa [if_neg hword]

/-- None of the words is left. -/
theorem not_infix_strikeAll {mark word : List α} {words : List (List α)}
    (hword : word ≠ []) (hmark : Fenced mark word) (hmem : word ∈ words)
    (text : List α) : ¬ word <:+: strikeAll mark words text := by
  induction words generalizing text with
  | nil => simp at hmem
  | cons first words ih =>
      rw [strikeAll, List.foldl_cons]
      rcases List.mem_cons.mp hmem with hfirst | hlater
      · apply not_infix_strikeAll_of_not_infix hmark
        rw [← hfirst, if_pos hword]
        exact not_infix_strike hword hmark text
      · exact ih hlater _

theorem strikeAll_of_not_infix {mark : List α} {words : List (List α)}
    {text : List α} (h : ∀ word ∈ words, word ≠ [] → ¬ word <:+: text) :
    strikeAll mark words text = text := by
  induction words with
  | nil => rfl
  | cons word words ih =>
      have hrest := ih fun other hother => h other (by simp [hother])
      rw [strikeAll, List.foldl_cons]
      by_cases hword : word ≠ []
      · have hone : strike mark word text = text := by
          rw [strike, split_of_not_infix (h word (by simp) hword)]
          simp
        rwa [if_pos hword, hone]
      · rwa [if_neg hword]

end Scrubbing

end Foundation
