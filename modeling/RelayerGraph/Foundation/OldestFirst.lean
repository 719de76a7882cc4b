import Mathlib

/-!
# Dropping the oldest first

Items are listed from the oldest to the newest.  `keepNewest` drops items from
the front of the list until what remains fits, `dropInClasses` drops a number
of items, those of one class before those of the other.  Both remove an item
only together with every older one, the second within the item's class.
-/

namespace Foundation

namespace OldestFirst

universe u

variable {α : Type u}

/-- One item stands before another in the list. -/
def Before (l : List α) (a b : α) : Prop := [a, b].Sublist l

theorem Before.of_sublist {l m : List α} {a b : α} (h : Before l a b)
    (hlm : l.Sublist m) : Before m a b :=
  List.Sublist.trans h hlm

theorem before_append {l m : List α} {a b : α} (ha : a ∈ l) (hb : b ∈ m) :
    Before (l ++ m) a b :=
  (List.singleton_sublist.mpr ha).append (List.singleton_sublist.mpr hb)

/-- What a suffix leaves out stands before what it has. -/
theorem before_of_suffix {l kept : List α} {a b : α} (hsuffix : kept <:+ l)
    (ha : a ∈ l) (hdropped : a ∉ kept) (hb : b ∈ kept) : Before l a b := by
  obtain ⟨dropped, rfl⟩ := hsuffix
  have hfirst : a ∈ dropped := (List.mem_append.mp ha).resolve_right hdropped
  exact before_append hfirst hb

/-! ## Until the rest fits -/

variable (fits : List α → Bool)

/-- The newest items that fit, without the oldest ones. -/
def keepNewest : List α → List α
  | [] => []
  | a :: l => if fits (a :: l) then a :: l else keepNewest l

variable {fits}

theorem keepNewest_nil : keepNewest fits [] = [] := rfl

theorem keepNewest_cons (a : α) (l : List α) :
    keepNewest fits (a :: l) =
      if fits (a :: l) then a :: l else keepNewest fits l := rfl

theorem keepNewest_suffix (l : List α) : keepNewest fits l <:+ l := by
  induction l with
  | nil => exact List.suffix_refl []
  | cons a l ih =>
      rw [keepNewest_cons]
      by_cases hfits : fits (a :: l)
      · rw [if_pos hfits]
      · rw [if_neg hfits]
        exact ih.trans (List.suffix_cons a l)

theorem keepNewest_of_fits {l : List α} (h : fits l) :
    keepNewest fits l = l := by
  cases l with
  | nil => exact keepNewest_nil
  | cons a l => rw [keepNewest_cons, if_pos h]

theorem keepNewest_congr {other : List α → Bool} {l : List α}
    (h : ∀ m, m <:+ l → fits m = other m) :
    keepNewest fits l = keepNewest other l := by
  induction l with
  | nil => exact keepNewest_nil.trans keepNewest_nil.symm
  | cons a l ih =>
      rw [keepNewest_cons, keepNewest_cons, h _ (List.suffix_refl _),
        ih fun m hm => h m (hm.trans (List.suffix_cons a l))]

/-- What is kept fits, unless nothing was kept. -/
theorem fits_keepNewest {l : List α} (h : keepNewest fits l ≠ []) :
    fits (keepNewest fits l) := by
  induction l with
  | nil => exact absurd rfl h
  | cons a l ih =>
      rw [keepNewest_cons] at h ⊢
      by_cases hfits : fits (a :: l)
      · rwa [if_pos hfits]
      · rw [if_neg hfits] at h ⊢
        exact ih h

/-- No more of the newest items would have fitted. -/
theorem not_fits_of_longer {l m : List α} (hm : m <:+ l)
    (hlonger : (keepNewest fits l).length < m.length) : ¬ fits m := by
  induction l with
  | nil =>
      obtain rfl : m = [] := List.suffix_nil.mp hm
      exact absurd hlonger (Nat.not_lt_zero _)
  | cons a l ih =>
      rw [keepNewest_cons] at hlonger
      by_cases hfits : fits (a :: l)
      · rw [if_pos hfits] at hlonger
        have hle := hm.length_le
        omega
      · rw [if_neg hfits] at hlonger
        rcases List.suffix_cons_iff.mp hm with rfl | htail
        · exact hfits
        · exact ih htail hlonger

/-! ## One class before the other -/

/-- The `n` items dropped when those outside a class go first. -/
def dropInClasses (p : α → Bool) (n : ℕ) (l : List α) : List α :=
  ((l.filter fun a => !p a) ++ l.filter p).take n

variable {p : α → Bool} {n : ℕ} {l : List α} {a b : α}

theorem length_dropInClasses (h : n ≤ l.length) :
    (dropInClasses p n l).length = n := by
  have hsplit : (l.filter fun a => !p a).length + (l.filter p).length =
      l.length := by
    have hcount := l.length_eq_length_filter_add p
    omega
  rw [dropInClasses, List.length_take, List.length_append, hsplit]
  exact min_eq_left h

/-- The last class is touched only when the first is gone. -/
theorem mem_dropInClasses_of_other (ha : a ∈ dropInClasses p n l)
    (hp : p a) (hb : b ∈ l) (hpb : ¬ p b) : b ∈ dropInClasses p n l := by
  have hfirst : b ∈ l.filter fun a => !p a :=
    List.mem_filter.mpr ⟨hb, by simpa using hpb⟩
  rw [dropInClasses, List.take_append] at ha ⊢
  rcases List.mem_append.mp ha with hleft | hright
  · have hmem := List.mem_filter.mp (List.mem_of_mem_take hleft)
    simp [hp] at hmem
  · have hlong : (l.filter fun a => !p a).length ≤ n := by
      by_contra hshort
      have hzero : n - (l.filter fun a => !p a).length = 0 := by omega
      rw [hzero] at hright
      simp at hright
    rw [List.take_of_length_le hlong]
    exact List.mem_append_left _ hfirst

theorem before_of_mem_take {m : List α} (ha : a ∈ m.take n) (hb : b ∈ m)
    (hkept : b ∉ m.take n) : Before m a b := by
  have hmem : b ∈ m.take n ++ m.drop n := by rwa [List.take_append_drop]
  have hrest := (List.mem_append.mp hmem).resolve_left hkept
  have hbefore := before_append ha hrest
  rwa [List.take_append_drop] at hbefore

/-- Within a class, everything dropped is older than everything kept. -/
theorem before_of_mem_dropInClasses (ha : a ∈ dropInClasses p n l)
    (hb : b ∈ l) (hkept : b ∉ dropInClasses p n l) (hsame : p a = p b) :
    Before l a b := by
  rw [dropInClasses, List.take_append] at ha hkept
  simp only [List.mem_append, not_or] at hkept
  rcases List.mem_append.mp ha with hleft | hright
  · have hpa := (List.mem_filter.mp (List.mem_of_mem_take hleft)).2
    have hmem : b ∈ l.filter fun a => !p a :=
      List.mem_filter.mpr ⟨hb, by rwa [← hsame]⟩
    exact (before_of_mem_take hleft hmem hkept.1).of_sublist
      List.filter_sublist
  · have hpa := (List.mem_filter.mp (List.mem_of_mem_take hright)).2
    have hmem : b ∈ l.filter p := List.mem_filter.mpr ⟨hb, by rwa [← hsame]⟩
    exact (before_of_mem_take hright hmem hkept.2).of_sublist
      List.filter_sublist

end OldestFirst

end Foundation
