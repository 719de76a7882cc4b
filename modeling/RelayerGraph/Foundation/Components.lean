import Mathlib

/-!
# Items that share tags

Items are linked when they share a tag, and fall into the classes of the
relation this generates.  One pass over the items joins each with the groups
collected so far that share a tag with it, and ends with the classes: groups
that are kept never share a tag with a group that is joined later.
-/

namespace Foundation

namespace Components

open Relation

universe u v

variable {ι : Type u} {τ : Type v} [DecidableEq ι] [DecidableEq τ]
variable (tags : ι → Finset τ)

/-- Two items share a tag. -/
def Linked (i j : ι) : Prop := ¬ Disjoint (tags i) (tags j)

/-- The tags of a group. -/
def groupTags (group : Finset ι) : Finset τ := group.biUnion tags

/-- Join a group with those that share a tag with it, the tags growing on the
way, and return the others beside it. -/
def joinGroup (group : Finset ι) :
    List (Finset ι) → List (Finset ι) × Finset ι
  | [] => ([], group)
  | existing :: groups =>
      if Disjoint (groupTags tags existing) (groupTags tags group) then
        let joined := joinGroup group groups
        (existing :: joined.1, joined.2)
      else joinGroup (group ∪ existing) groups

/-- Take one more item up. -/
def addItem (groups : List (Finset ι)) (item : ι) : List (Finset ι) :=
  let joined := joinGroup tags {item} groups
  joined.1 ++ [joined.2]

def groupAll (items : List ι) : List (Finset ι) :=
  items.foldl (addItem tags) []

variable {tags}

theorem joinGroup_nil (group : Finset ι) :
    joinGroup tags group [] = ([], group) := rfl

theorem joinGroup_cons (group existing : Finset ι)
    (groups : List (Finset ι)) :
    joinGroup tags group (existing :: groups) =
      if Disjoint (groupTags tags existing) (groupTags tags group) then
        let joined := joinGroup tags group groups
        (existing :: joined.1, joined.2)
      else joinGroup tags (group ∪ existing) groups := rfl

/-- The groups share neither items nor tags, and each is connected. -/
structure Separate (tags : ι → Finset τ) (groups : List (Finset ι)) : Prop where
  items : groups.Pairwise Disjoint
  tagged : groups.Pairwise fun g h =>
    Disjoint (groupTags tags g) (groupTags tags h)
  joined : ∀ g ∈ groups, ∀ i ∈ g, ∀ j ∈ g, ReflTransGen (Linked tags) i j

theorem Separate.disjoint_groupTags {groups : List (Finset ι)}
    (h : Separate tags groups) {g k : Finset ι} (hg : g ∈ groups)
    (hk : k ∈ groups) (hne : g ≠ k) :
    Disjoint (groupTags tags g) (groupTags tags k) := by
  have hsymm : Std.Symm fun g k : Finset ι =>
      Disjoint (groupTags tags g) (groupTags tags k) :=
    ⟨fun _ _ hdisjoint => hdisjoint.symm⟩
  exact h.tagged.forall hg hk hne

theorem linked_symm {i j : ι} (h : Linked tags i j) : Linked tags j i :=
  fun hdisjoint => h hdisjoint.symm

theorem connected_symm {i j : ι} (h : ReflTransGen (Linked tags) i j) :
    ReflTransGen (Linked tags) j i := by
  induction h with
  | refl => exact .refl
  | tail _ hlast ih => exact .head (linked_symm hlast) ih

/-- Two connected groups that share a tag are connected together. -/
theorem connected_union {g h : Finset ι}
    (hg : ∀ i ∈ g, ∀ j ∈ g, ReflTransGen (Linked tags) i j)
    (hh : ∀ i ∈ h, ∀ j ∈ h, ReflTransGen (Linked tags) i j)
    (hshare : ¬ Disjoint (groupTags tags h) (groupTags tags g)) :
    ∀ i ∈ g ∪ h, ∀ j ∈ g ∪ h, ReflTransGen (Linked tags) i j := by
  obtain ⟨tag, hth, htg⟩ := Finset.not_disjoint_iff.mp hshare
  obtain ⟨b, hb, htb⟩ := Finset.mem_biUnion.mp hth
  obtain ⟨a, ha, hta⟩ := Finset.mem_biUnion.mp htg
  have hab : Linked tags a b := Finset.not_disjoint_iff.mpr ⟨tag, hta, htb⟩
  have hcross : ∀ i ∈ g, ∀ j ∈ h, ReflTransGen (Linked tags) i j := by
    intro i hi j hj
    exact ((hg i hi a ha).tail hab).trans (hh b hb j hj)
  intro i hi j hj
  rcases Finset.mem_union.mp hi with hig | hih
  · rcases Finset.mem_union.mp hj with hjg | hjh
    · exact hg i hig j hjg
    · exact hcross i hig j hjh
  · rcases Finset.mem_union.mp hj with hjg | hjh
    · exact connected_symm (hcross j hjg i hih)
    · exact hh i hih j hjh

theorem groupTags_union (g h : Finset ι) :
    groupTags tags (g ∪ h) = groupTags tags g ∪ groupTags tags h :=
  Finset.union_biUnion

/-- What joining a group with the others comes to. -/
structure JoinSpec (tags : ι → Finset τ) (group : Finset ι)
    (groups : List (Finset ι)) (result : List (Finset ι) × Finset ι) :
    Prop where
  kept : result.1.Sublist groups
  absorbs : ∀ i, (i ∈ result.2 ∨ ∃ g ∈ result.1, i ∈ g) ↔
    i ∈ group ∨ ∃ g ∈ groups, i ∈ g
  /-- What is apart from the group and from all the others stays apart. -/
  apart : ∀ h : Finset ι, Disjoint h group → (∀ g ∈ groups, Disjoint h g) →
    Disjoint h result.2
  apartTags : ∀ h : Finset ι,
    Disjoint (groupTags tags h) (groupTags tags group) →
      (∀ g ∈ groups, Disjoint (groupTags tags h) (groupTags tags g)) →
        Disjoint (groupTags tags h) (groupTags tags result.2)
  disjoint : ∀ g ∈ result.1, Disjoint g result.2
  disjointTags : ∀ g ∈ result.1,
    Disjoint (groupTags tags g) (groupTags tags result.2)
  connected : ∀ i ∈ result.2, ∀ j ∈ result.2, ReflTransGen (Linked tags) i j

theorem joinGroup_spec {groups : List (Finset ι)} {group : Finset ι}
    (hseparate : Separate tags groups)
    (hfresh : ∀ g ∈ groups, Disjoint g group)
    (hconnected : ∀ i ∈ group, ∀ j ∈ group, ReflTransGen (Linked tags) i j) :
    JoinSpec tags group groups (joinGroup tags group groups) := by
  induction groups generalizing group with
  | nil =>
      rw [joinGroup_nil]
      exact
        { kept := List.Sublist.refl []
          absorbs := fun i => by simp
          apart := fun h hgroup _ => hgroup
          apartTags := fun h hgroup _ => hgroup
          disjoint := by simp
          disjointTags := by simp
          connected := hconnected }
  | cons existing groups ih =>
      obtain ⟨hitems, htagged, hjoined⟩ := hseparate
      have hitem := List.pairwise_cons.mp hitems
      have htag := List.pairwise_cons.mp htagged
      have hrest : Separate tags groups :=
        ⟨hitem.2, htag.2, fun g hg => hjoined g (List.mem_cons_of_mem _ hg)⟩
      have hfreshRest : ∀ g ∈ groups, Disjoint g group := fun g hg =>
        hfresh g (List.mem_cons_of_mem _ hg)
      rw [joinGroup_cons]
      by_cases hdisjoint :
          Disjoint (groupTags tags existing) (groupTags tags group)
      · -- Kept: the groups joined further on share no tag with it either.
        rw [if_pos hdisjoint]
        have hspec := ih hrest hfreshRest hconnected
        have hapart := hspec.apart existing (hfresh _ List.mem_cons_self)
          hitem.1
        have hapartTags := hspec.apartTags existing hdisjoint htag.1
        refine
          { kept := hspec.kept.cons_cons existing
            absorbs := ?_
            apart := ?_
            apartTags := ?_
            disjoint := ?_
            disjointTags := ?_
            connected := hspec.connected }
        · intro i
          have habsorbs := hspec.absorbs i
          simp only [List.mem_cons, exists_eq_or_imp]
          rw [or_left_comm, habsorbs, or_left_comm]
        · intro h hgroup hall
          exact hspec.apart h hgroup fun g hg =>
            hall g (List.mem_cons_of_mem _ hg)
        · intro h hgroup hall
          exact hspec.apartTags h hgroup fun g hg =>
            hall g (List.mem_cons_of_mem _ hg)
        · intro g hg
          rcases List.mem_cons.mp hg with rfl | hg
          · exact hapart
          · exact hspec.disjoint g hg
        · intro g hg
          rcases List.mem_cons.mp hg with rfl | hg
          · exact hapartTags
          · exact hspec.disjointTags g hg
      · -- Absorbed: the group grows by it.
        rw [if_neg hdisjoint]
        have hgrown : ∀ g ∈ groups, Disjoint g (group ∪ existing) := by
          intro g hg
          rw [Finset.disjoint_union_right]
          exact ⟨hfreshRest g hg, (hitem.1 g hg).symm⟩
        have hconnected' := connected_union hconnected
          (hjoined existing List.mem_cons_self) hdisjoint
        have hspec := ih hrest hgrown hconnected'
        refine
          { kept := hspec.kept.cons existing
            absorbs := ?_
            apart := ?_
            apartTags := ?_
            disjoint := hspec.disjoint
            disjointTags := hspec.disjointTags
            connected := hspec.connected }
        · intro i
          rw [hspec.absorbs i, Finset.mem_union, or_assoc]
          simp only [List.mem_cons, exists_eq_or_imp]
        · intro h hgroup hall
          apply hspec.apart h
          · rw [Finset.disjoint_union_right]
            exact ⟨hgroup, hall existing List.mem_cons_self⟩
          · exact fun g hg => hall g (List.mem_cons_of_mem _ hg)
        · intro h hgroup hall
          apply hspec.apartTags h
          · rw [groupTags_union, Finset.disjoint_union_right]
            exact ⟨hgroup, hall existing List.mem_cons_self⟩
          · exact fun g hg => hall g (List.mem_cons_of_mem _ hg)

/-- The groups of the items taken up so far. -/
structure Grouped (tags : ι → Finset τ) (items : List ι)
    (groups : List (Finset ι)) : Prop where
  covers : ∀ i, i ∈ items ↔ ∃ g ∈ groups, i ∈ g
  separate : Separate tags groups

theorem Grouped.addItem {items : List ι} {groups : List (Finset ι)} {item : ι}
    (h : Grouped tags items groups) (hfresh : item ∉ items) :
    Grouped tags (items ++ [item]) (addItem tags groups item) := by
  have hapart : ∀ g ∈ groups, Disjoint g {item} := by
    intro g hg
    rw [Finset.disjoint_singleton_right]
    exact fun hmem => hfresh ((h.covers item).mpr ⟨g, hg, hmem⟩)
  have hsingle : ∀ i ∈ ({item} : Finset ι), ∀ j ∈ ({item} : Finset ι),
      ReflTransGen (Linked tags) i j := by
    intro i hi j hj
    rw [Finset.mem_singleton.mp hi, Finset.mem_singleton.mp hj]
  have hspec := joinGroup_spec h.separate hapart hsingle
  constructor
  · intro i
    have habsorbs := hspec.absorbs i
    rw [List.mem_append, h.covers i, List.mem_singleton, or_comm,
      ← Finset.mem_singleton, ← habsorbs, Components.addItem]
    simp only [List.mem_append, List.mem_singleton]
    constructor
    · rintro (hjoined | ⟨g, hg, hi⟩)
      · exact ⟨_, .inr rfl, hjoined⟩
      · exact ⟨g, .inl hg, hi⟩
    · rintro ⟨g, hg | rfl, hi⟩
      · exact .inr ⟨g, hg, hi⟩
      · exact .inl hi
  · refine ⟨?_, ?_, ?_⟩
    · rw [Components.addItem, List.pairwise_append]
      refine ⟨h.separate.items.sublist hspec.kept, List.pairwise_singleton _ _,
        ?_⟩
      intro g hg j hj
      rw [List.mem_singleton.mp hj]
      exact hspec.disjoint g hg
    · rw [Components.addItem, List.pairwise_append]
      refine ⟨h.separate.tagged.sublist hspec.kept,
        List.pairwise_singleton _ _, ?_⟩
      intro g hg j hj
      rw [List.mem_singleton.mp hj]
      exact hspec.disjointTags g hg
    · intro g hg
      rcases List.mem_append.mp hg with hkept | hlast
      · exact h.separate.joined g (hspec.kept.subset hkept)
      · rw [List.mem_singleton.mp hlast]
        exact hspec.connected

theorem grouped_groupAll {items : List ι} (hnodup : items.Nodup) :
    Grouped tags items (groupAll tags items) := by
  induction items using List.reverseRecOn with
  | nil => exact ⟨by simp [groupAll], by simp [groupAll], by simp [groupAll],
      by simp [groupAll]⟩
  | append_singleton items item ih =>
      obtain ⟨hitems, -, hfresh⟩ := List.nodup_append.mp hnodup
      have hnew : item ∉ items := fun hmem =>
        hfresh item hmem item (List.mem_singleton_self item) rfl
      have hstep := (ih hitems).addItem hnew
      rwa [groupAll, List.foldl_concat] at *

/-- Once every item is taken up, a group is the class of each of its items. -/
theorem Grouped.mem_iff {items : List ι} {groups : List (Finset ι)}
    (h : Grouped tags items groups) (hall : ∀ i, i ∈ items) {g : Finset ι}
    (hg : g ∈ groups) {i j : ι} (hi : i ∈ g) :
    j ∈ g ↔ ReflTransGen (Linked tags) i j := by
  constructor
  · exact h.separate.joined g hg i hi j
  · intro hpath
    induction hpath with
    | refl => exact hi
    | @tail a b _ hlinked ih =>
        obtain ⟨k, hk, hb⟩ := (h.covers b).mp (hall b)
        by_cases hsame : g = k
        · rwa [hsame]
        · exfalso
          have hdisjoint := h.separate.disjoint_groupTags hg hk hsame
          apply hlinked
          exact hdisjoint.mono (Finset.subset_biUnion_of_mem tags ih)
            (Finset.subset_biUnion_of_mem tags hb)

/-! ## The weight of a class -/

section Weights

variable [Fintype ι] (tags) (weight : ι → ℕ)

open scoped Classical in
/-- The weight of everything connected with an item. -/
noncomputable def classWeight (i : ι) : ℕ :=
  ∑ j with ReflTransGen (Linked tags) i j, weight j

variable {tags weight}

theorem Grouped.classWeight_eq {items : List ι} {groups : List (Finset ι)}
    (h : Grouped tags items groups) (hall : ∀ i, i ∈ items) {g : Finset ι}
    (hg : g ∈ groups) {i : ι} (hi : i ∈ g) :
    classWeight tags weight i = ∑ j ∈ g, weight j := by
  classical
  unfold classWeight
  apply Finset.sum_congr _ fun _ _ => rfl
  ext j
  rw [Finset.mem_filter, h.mem_iff hall hg hi]
  exact and_iff_right (Finset.mem_univ j)

/-- The heaviest group is the heaviest class. -/
theorem Grouped.foldr_max_eq {items : List ι} {groups : List (Finset ι)}
    (h : Grouped tags items groups) (hall : ∀ i, i ∈ items) :
    (groups.map fun g => ∑ i ∈ g, weight i).foldr max 0 =
      Finset.univ.sup (classWeight tags weight) := by
  apply le_antisymm
  · apply List.max_le_of_forall_le
    intro total htotal
    obtain ⟨g, hg, rfl⟩ := List.mem_map.mp htotal
    rcases g.eq_empty_or_nonempty with rfl | ⟨i, hi⟩
    · simp
    · rw [← h.classWeight_eq hall hg hi]
      exact Finset.le_sup (Finset.mem_univ i)
  · apply Finset.sup_le
    intro i _
    obtain ⟨g, hg, hi⟩ := (h.covers i).mp (hall i)
    rw [h.classWeight_eq hall hg hi]
    exact List.le_max_of_le' 0 (List.mem_map.mpr ⟨g, hg, rfl⟩) le_rfl

/-- Renaming the items changes no class. -/
theorem sup_classWeight_congr {κ : Type u} [DecidableEq κ] [Fintype κ]
    {tags' : κ → Finset τ} {weight' : κ → ℕ} (e : ι ≃ κ)
    (htags : ∀ i, tags' (e i) = tags i)
    (hweight : ∀ i, weight' (e i) = weight i) :
    Finset.univ.sup (classWeight tags' weight') =
      Finset.univ.sup (classWeight tags weight) := by
  classical
  have hlinked : ∀ i j, Linked tags' (e i) (e j) ↔ Linked tags i j := by
    intro i j
    unfold Linked
    rw [htags, htags]
  have hpath : ∀ i j, ReflTransGen (Linked tags') (e i) (e j) ↔
      ReflTransGen (Linked tags) i j := by
    intro i j
    constructor
    · intro h
      have hback : ReflTransGen (Linked tags) (e.symm (e i))
          (e.symm (e j)) := by
        apply h.lift e.symm
        intro a b hab
        apply (hlinked _ _).mp
        rwa [e.apply_symm_apply, e.apply_symm_apply]
      rwa [e.symm_apply_apply, e.symm_apply_apply] at hback
    · intro h
      apply h.lift e
      intro a b hab
      exact (hlinked a b).mpr hab
  have hclass : ∀ i, classWeight tags' weight' (e i) =
      classWeight tags weight i := by
    intro i
    unfold classWeight
    symm
    apply Finset.sum_equiv e
    · intro j
      simp [hpath]
    · intro j _
      exact (hweight j).symm
  apply le_antisymm
  · apply Finset.sup_le
    intro k _
    have hk := hclass (e.symm k)
    rw [e.apply_symm_apply] at hk
    rw [hk]
    exact Finset.le_sup (Finset.mem_univ _)
  · apply Finset.sup_le
    intro i _
    rw [← hclass i]
    exact Finset.le_sup (Finset.mem_univ _)

end Weights

end Components

end Foundation
