import RelayerGraph.Foundation.Components
import RelayerGraph.Query.Parser

/-!
# The join of pattern parts

Parts that share a node binding are one traversal, directly or through other
parts.  The hops that the parser counts in one pass are those of the longest
such traversal, so the order of the parts does not matter.
-/

namespace RelayerGraph.Query

open Foundation Relation Parser

def PatternPart.bindings (part : PatternPart) : Finset String :=
  (part.nodes.map (·.binding)).toFinset

def PatternPart.hops (part : PatternPart) : ℕ := part.relationships.length

variable (patterns : List PatternPart)

/-- Two parts of a MATCH clause bind a common node. -/
def SharesBinding (i j : Fin patterns.length) : Prop :=
  ∃ binding, binding ∈ patterns[i].bindings ∧ binding ∈ patterns[j].bindings

open scoped Classical in
/-- The relationships of every part connected with one through shared
bindings. -/
noncomputable def traversalHops (i : Fin patterns.length) : ℕ :=
  ∑ j with ReflTransGen (SharesBinding patterns) i j, patterns[j].hops

/-- The longest join of parts; nothing when there is no part. -/
noncomputable def longestTraversal : ℕ :=
  Finset.univ.sup (traversalHops patterns)

variable {patterns}

def partBindings (i : Fin patterns.length) : Finset String :=
  patterns[i].bindings

def partHops (i : Fin patterns.length) : ℕ := patterns[i].hops

/-- The component that stands for a group of parts. -/
def componentOf (group : Finset (Fin patterns.length)) :
    Finset String × ℕ :=
  (Components.groupTags partBindings group, ∑ i ∈ group, partHops i)

theorem sharesBinding_iff_linked {i j : Fin patterns.length} :
    SharesBinding patterns i j ↔ Components.Linked partBindings i j := by
  rw [Components.Linked, Finset.not_disjoint_iff]
  rfl

theorem traversalHops_eq (i : Fin patterns.length) :
    traversalHops patterns i =
      Components.classWeight partBindings partHops i := by
  have hshares : SharesBinding patterns = Components.Linked partBindings := by
    funext i j
    exact propext sharesBinding_iff_linked
  unfold traversalHops Components.classWeight
  rw [hshares]
  rfl

theorem joinComponent_kept {bindings existing : Finset String}
    {hops existingHops : ℕ} {components : List (Finset String × ℕ)}
    (h : Disjoint existing bindings) :
    joinComponent bindings hops ((existing, existingHops) :: components) =
      ((existing, existingHops) :: (joinComponent bindings hops components).1,
        (joinComponent bindings hops components).2) := by
  rw [joinComponent, if_pos h]

theorem joinComponent_absorbed {bindings existing : Finset String}
    {hops existingHops : ℕ} {components : List (Finset String × ℕ)}
    (h : ¬ Disjoint existing bindings) :
    joinComponent bindings hops ((existing, existingHops) :: components) =
      joinComponent (bindings ∪ existing) (hops + existingHops) components := by
  rw [joinComponent, if_neg h]

/-- The scan of the components is the scan of the groups they stand for. -/
theorem joinComponent_componentOf {group : Finset (Fin patterns.length)}
    {groups : List (Finset (Fin patterns.length))}
    (hfresh : ∀ g ∈ groups, Disjoint g group)
    (hitems : groups.Pairwise Disjoint) :
    joinComponent (componentOf group).1 (componentOf group).2
        (groups.map componentOf) =
      ((Components.joinGroup partBindings group groups).1.map componentOf,
        componentOf (Components.joinGroup partBindings group groups).2) := by
  induction groups generalizing group with
  | nil => rfl
  | cons existing groups ih =>
      obtain ⟨hexisting, hrest⟩ := List.pairwise_cons.mp hitems
      have hfreshRest : ∀ g ∈ groups, Disjoint g group := fun g hg =>
        hfresh g (List.mem_cons_of_mem _ hg)
      rw [List.map_cons, Components.joinGroup]
      by_cases hdisjoint : Disjoint (Components.groupTags partBindings existing)
          (Components.groupTags partBindings group)
      · rw [if_pos hdisjoint]
        have hkept : joinComponent (componentOf group).1 (componentOf group).2
            (componentOf existing :: groups.map componentOf) =
            (componentOf existing ::
                (joinComponent (componentOf group).1 (componentOf group).2
                  (groups.map componentOf)).1,
              (joinComponent (componentOf group).1 (componentOf group).2
                (groups.map componentOf)).2) :=
          joinComponent_kept hdisjoint
        rw [hkept, ih hfreshRest hrest]
        rfl
      · rw [if_neg hdisjoint]
        have hunion : componentOf (group ∪ existing) =
            ((componentOf group).1 ∪ (componentOf existing).1,
              (componentOf group).2 + (componentOf existing).2) := by
          unfold componentOf
          rw [Components.groupTags_union,
            Finset.sum_union (hfresh existing List.mem_cons_self).symm]
        have hgrown : ∀ g ∈ groups, Disjoint g (group ∪ existing) := by
          intro g hg
          rw [Finset.disjoint_union_right]
          exact ⟨hfreshRest g hg, (hexisting g hg).symm⟩
        have habsorbed : joinComponent (componentOf group).1
            (componentOf group).2
            (componentOf existing :: groups.map componentOf) =
            joinComponent (componentOf (group ∪ existing)).1
              (componentOf (group ∪ existing)).2 (groups.map componentOf) := by
          rw [hunion]
          exact joinComponent_absorbed hdisjoint
        exact habsorbed.trans (ih hgrown hrest)

/-- The components after some parts stand for the groups of these parts. -/
theorem foldl_joinPart {items : List (Fin patterns.length)}
    (hnodup : items.Nodup) :
    (items.map fun i => patterns[i]).foldl joinPart [] =
      (Components.groupAll partBindings items).map componentOf := by
  induction items using List.reverseRecOn with
  | nil => rfl
  | append_singleton items item ih =>
      obtain ⟨hitems, -, hnew⟩ := List.nodup_append.mp hnodup
      have hgrouped : Components.Grouped partBindings items
          (Components.groupAll partBindings items) :=
        Components.grouped_groupAll hitems
      have hfresh : ∀ g ∈ Components.groupAll partBindings items,
          Disjoint g {item} := by
        intro g hg
        rw [Finset.disjoint_singleton_right]
        intro hmem
        exact hnew item ((hgrouped.covers item).mpr ⟨g, hg, hmem⟩) item
          (List.mem_singleton_self item) rfl
      have hscan := joinComponent_componentOf hfresh hgrouped.separate.items
      have hsingle : componentOf {item} =
          (patterns[item].bindings, patterns[item].hops) := by
        unfold componentOf
        rw [Finset.sum_singleton, Components.groupTags,
          Finset.singleton_biUnion]
        rfl
      rw [hsingle] at hscan
      have hlast : Components.groupAll partBindings (items ++ [item]) =
          Components.addItem partBindings
            (Components.groupAll partBindings items) item := by
        unfold Components.groupAll
        rw [List.foldl_concat]
      rw [List.map_append, List.foldl_append, ih hitems, hlast,
        Components.addItem, List.map_append]
      change (joinComponent patterns[item].bindings patterns[item].hops _).1 ++
        [(joinComponent patterns[item].bindings patterns[item].hops _).2] = _
      rw [hscan]
      rfl

/-- The pass over the parts finds the longest join. -/
theorem joinedTraversalHops_eq (patterns : List PatternPart) :
    joinedTraversalHops patterns = longestTraversal patterns := by
  have hparts : (List.finRange patterns.length).map (fun i => patterns[i]) =
      patterns := by
    simp
  have hgrouped : Components.Grouped partBindings
      (List.finRange patterns.length)
      (Components.groupAll partBindings (List.finRange patterns.length)) :=
    Components.grouped_groupAll (List.nodup_finRange _)
  have hheaviest : ((Components.groupAll partBindings
      (List.finRange patterns.length)).map
        fun g => ∑ i ∈ g, partHops i).foldr max 0 =
      Finset.univ.sup (Components.classWeight partBindings partHops) :=
    hgrouped.foldr_max_eq List.mem_finRange
  have hcomponents := foldl_joinPart (List.nodup_finRange patterns.length)
  rw [hparts] at hcomponents
  unfold joinedTraversalHops longestTraversal
  rw [hcomponents, List.map_map, funext traversalHops_eq]
  exact hheaviest

/-- The parts of one list are those of the other, under other positions. -/
theorem exists_positions {l l' : List PatternPart} (hperm : l.Perm l') :
    ∃ e : Fin l.length ≃ Fin l'.length, ∀ i, l'[e i] = l[i] := by
  induction hperm with
  | nil => exact ⟨Equiv.refl _, fun i => rfl⟩
  | @cons part l l' _ ih =>
      obtain ⟨e, he⟩ := ih
      refine ⟨(finSuccEquiv _).trans
        ((Equiv.optionCongr e).trans (finSuccEquiv _).symm), ?_⟩
      intro i
      refine Fin.cases ?_ ?_ i
      · simp
      · intro j
        simpa using he j
  | swap first second l =>
      refine ⟨Equiv.swap 0 1, ?_⟩
      intro i
      refine Fin.cases ?_ ?_ i
      · simp
      · intro j
        refine Fin.cases ?_ ?_ j
        · simp
        · intro k
          have hne : Equiv.swap (0 : Fin (l.length + 2)) 1 k.succ.succ =
              k.succ.succ := by
            apply Equiv.swap_apply_of_ne_of_ne
            · exact Fin.succ_ne_zero _
            · intro heq
              have hzero : k.succ = 0 := Fin.succ_injective _ heq
              exact Fin.succ_ne_zero _ hzero
          exact congrArg (first :: second :: l).get hne
  | trans _ _ ihFirst ihSecond =>
      obtain ⟨e, he⟩ := ihFirst
      obtain ⟨f, hf⟩ := ihSecond
      exact ⟨e.trans f, fun i => (hf (e i)).trans (he i)⟩

/-- The order of the parts does not matter to the longest join. -/
theorem longestTraversal_perm {l l' : List PatternPart} (hperm : l.Perm l') :
    longestTraversal l' = longestTraversal l := by
  obtain ⟨e, he⟩ := exists_positions hperm
  unfold longestTraversal
  rw [funext traversalHops_eq, funext traversalHops_eq]
  apply Components.sup_classWeight_congr e
  · intro i
    unfold partBindings
    rw [he i]
  · intro i
    unfold partHops
    rw [he i]

/-- `joined_traversal_hops` counts the longest join of the parts, in whatever
order they stand. -/
theorem joinedTraversalHops_joins (patterns : List PatternPart) :
    joinedTraversalHops patterns = longestTraversal patterns ∧
      ∀ reordered, patterns.Perm reordered →
        joinedTraversalHops reordered = joinedTraversalHops patterns := by
  refine ⟨joinedTraversalHops_eq patterns, ?_⟩
  intro reordered hperm
  rw [joinedTraversalHops_eq, joinedTraversalHops_eq]
  exact longestTraversal_perm hperm

end RelayerGraph.Query
