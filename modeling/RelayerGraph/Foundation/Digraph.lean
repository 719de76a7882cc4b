import RelayerGraph.Foundation.Checked

/-!
# Directed graphs without cycles

Three ways in which a growing graph stays acyclic: fresh vertices are acyclic
among themselves and receive no arc from old ones; no path leads from the
target of an added arc back to the source of one, in the old graph; or none
does in the new graph.

A depth-first search for a cycle is the executable side.  A search that finds
none proves the searched graph acyclic.
-/

namespace Foundation

namespace Digraph

open Relation

variable {α : Type} {r s t : α → α → Prop}

/-- No path returns to where it started. -/
def Acyclic (r : α → α → Prop) : Prop :=
  ∀ a, ¬ TransGen r a a

/-- A path either uses old arcs only, or splits at its first added arc. -/
theorem reflTransGen_union_cases {a b : α}
    (hpath : ReflTransGen (fun x y => r x y ∨ s x y) a b) :
    ReflTransGen r a b ∨ ∃ x y, ReflTransGen r a x ∧ s x y := by
  induction hpath with
  | refl => exact .inl .refl
  | tail _ hlast ih =>
      rcases ih with hold | hsplit
      · rcases hlast with hr | hs
        · exact .inl (hold.tail hr)
        · exact .inr ⟨_, _, hold, hs⟩
      · exact .inr hsplit

/-- Every arc of a path out of a set of vertices closed under the arcs stays
in the set. -/
theorem reflTransGen_of_closed {P : α → Prop}
    (hclosed : ∀ a b, P a → r a b → P b) {a b : α} (ha : P a)
    (hpath : ReflTransGen r a b) : P b := by
  induction hpath with
  | refl => exact ha
  | tail _ hlast ih => exact hclosed _ _ ih hlast

/-- Fresh vertices with acyclic arcs among themselves keep a graph acyclic, as
long as old vertices keep their arcs. -/
theorem acyclic_of_fresh {fresh : α → Prop} (hold : Acyclic r)
    (hfresh : Acyclic s)
    (hfromOld : ∀ a b, t a b → ¬ fresh a → r a b ∧ ¬ fresh b)
    (hfromFresh : ∀ a b, t a b → fresh a → fresh b → s a b) : Acyclic t := by
  intro a hcycle
  by_cases ha : fresh a
  · -- The cycle never leaves the fresh vertices: it could not come back.
    have hback : ∀ x, ReflTransGen t x a → fresh x := by
      intro x hpath
      by_contra hx
      exact reflTransGen_of_closed (P := fun y => ¬ fresh y)
        (fun y z hy hyz => (hfromOld y z hyz hy).2) hx hpath ha
    have hsub : ∀ x, TransGen t a x → ReflTransGen t x a → TransGen s a x := by
      intro x hax
      induction hax with
      | single hab =>
          intro hxa
          exact .single (hfromFresh _ _ hab ha (hback _ hxa))
      | @tail b c hab hbc ih =>
          intro hca
          have hba : ReflTransGen t b a := .head hbc hca
          exact (ih hba).tail (hfromFresh _ _ hbc (hback _ hba) (hback _ hca))
    exact hfresh a (hsub a hcycle .refl)
  · have hsub : ∀ x, TransGen t a x → TransGen r a x ∧ ¬ fresh x := by
      intro x hax
      induction hax with
      | single hab =>
          have harc := hfromOld _ _ hab ha
          exact ⟨.single harc.1, harc.2⟩
      | tail _ hbc ih =>
          have harc := hfromOld _ _ hbc ih.2
          exact ⟨ih.1.tail harc.1, harc.2⟩
    exact hold a (hsub a hcycle).1

/-- Added arcs close no cycle when the new graph has no path from the target
of an added arc to its source. -/
theorem acyclic_of_no_return (hold : Acyclic r)
    (harcs : ∀ a b, t a b → r a b ∨ s a b)
    (hreturn : ∀ a b, s a b → ¬ ReflTransGen t b a) : Acyclic t := by
  intro a hcycle
  have hsub : ∀ x, TransGen t a x → ReflTransGen t x a → TransGen r a x := by
    intro x hax
    induction hax with
    | single hab =>
        intro hxa
        rcases harcs _ _ hab with hr | hs
        · exact .single hr
        · exact absurd hxa (hreturn _ _ hs)
    | @tail b c hab hbc ih =>
        intro hca
        have hba : ReflTransGen t b a := .head hbc hca
        rcases harcs _ _ hbc with hr | hs
        · exact (ih hba).tail hr
        · exact absurd (hca.trans hab.to_reflTransGen) (hreturn _ _ hs)
  exact hold a (hsub a hcycle .refl)

/-- Added arcs close no cycle when the old graph has no path from the target
of one of them to the source of any. -/
theorem acyclic_of_separated (hold : Acyclic r)
    (harcs : ∀ a b, t a b → r a b ∨ s a b)
    (hseparated : ∀ a b c d, s a b → s c d → ¬ ReflTransGen r b c) :
    Acyclic t := by
  refine acyclic_of_no_return hold harcs fun a b hs hpath => ?_
  have hunion : ReflTransGen (fun x y => r x y ∨ s x y) b a :=
    ReflTransGen.mono harcs b a hpath
  rcases reflTransGen_union_cases hunion with hr | ⟨x, y, hr, hxy⟩
  · exact hseparated a b a b hs hs hr
  · exact hseparated a b x y hs hxy hr

/-! ## Searching for a cycle -/

section Search

variable [DecidableEq α]

/-- The vertices entered so far, and those on the current path. -/
structure Marks (α : Type) where
  visited : List α
  path : List α

/-- Depth-first search below one vertex.  The error is the cycle found: the
path from the repeated vertex on, closed up. -/
def visit (adjacency : α → List α) :
    ℕ → Marks α → α → Except (List α) (Marks α)
  | 0, marks, _ => .error marks.path
  | fuel + 1, marks, vertex =>
      if vertex ∈ marks.path then
        .error (marks.path.dropWhile (· ≠ vertex) ++ [vertex])
      else if vertex ∈ marks.visited then
        .ok marks
      else do
        let below ← (adjacency vertex).foldlM (visit adjacency fuel)
          { visited := vertex :: marks.visited
            path := marks.path ++ [vertex] }
        .ok { below with path := marks.path }

/-- Search below every vertex that has arcs; no path is longer than their
number. -/
def findCycle (adjacency : α → List α) (vertices : List α) :
    Option (List α) :=
  match vertices.foldlM (visit adjacency (vertices.length + 2)) ⟨[], []⟩ with
  | .error cycle => some cycle
  | .ok _ => none

variable {adjacency : α → List α}

/-- The vertices left behind are closed under the arcs and lie on no cycle. -/
structure Finished (adjacency : α → List α) (marks : Marks α) : Prop where
  closed : ∀ a ∈ marks.visited, a ∉ marks.path →
    ∀ b ∈ adjacency a, b ∈ marks.visited ∧ b ∉ marks.path
  acyclic : ∀ a ∈ marks.visited, a ∉ marks.path →
    ¬ TransGen (fun x y => y ∈ adjacency x) a a

/-- What one call leaves: the same path, more visited vertices, and the
vertices it was called on among those left behind. -/
structure Extends (before after : Marks α) : Prop where
  path : after.path = before.path
  visited : ∀ a ∈ before.visited, a ∈ after.visited

omit [DecidableEq α] in
theorem Extends.trans {a b c : Marks α} (hab : Extends a b)
    (hbc : Extends b c) : Extends a c where
  path := hbc.path.trans hab.path
  visited := fun x hx => hbc.visited x (hab.visited x hx)

omit [DecidableEq α] in
/-- The same for the calls of a loop over several vertices. -/
theorem finished_of_foldlM
    {call : Marks α → α → Except (List α) (Marks α)}
    (hcall : ∀ marks vertex after, Finished adjacency marks →
      call marks vertex = .ok after →
      Finished adjacency after ∧ Extends marks after ∧
        vertex ∈ after.visited ∧ vertex ∉ after.path)
    {vertices : List α} {marks after : Marks α}
    (hmarks : Finished adjacency marks)
    (hrun : vertices.foldlM call marks = .ok after) :
    Finished adjacency after ∧ Extends marks after ∧
      ∀ a ∈ vertices, a ∈ after.visited ∧ a ∉ after.path := by
  induction vertices generalizing marks with
  | nil =>
      obtain rfl : marks = after := by simpa using hrun
      exact ⟨hmarks, ⟨rfl, fun _ h => h⟩, fun a ha => by cases ha⟩
  | cons vertex rest ih =>
      rw [List.foldlM_cons, Checked.bind_eq_ok_iff] at hrun
      obtain ⟨middle, hvertex, hrest⟩ := hrun
      obtain ⟨hmiddle, hfirst, hseen, hleft⟩ := hcall _ _ _ hmarks hvertex
      obtain ⟨hafter, hlast, hall⟩ := ih hmiddle hrest
      refine ⟨hafter, hfirst.trans hlast, ?_⟩
      intro a ha
      rcases List.mem_cons.mp ha with rfl | ha
      · exact ⟨hlast.visited _ hseen, by rwa [hlast.path]⟩
      · exact hall a ha

theorem finished_of_visit {fuel : ℕ} {marks after : Marks α} {vertex : α}
    (hmarks : Finished adjacency marks)
    (hrun : visit adjacency fuel marks vertex = .ok after) :
    Finished adjacency after ∧ Extends marks after ∧
      vertex ∈ after.visited ∧ vertex ∉ after.path := by
  induction fuel generalizing marks after vertex with
  | zero => cases hrun
  | succ fuel ih =>
      rw [visit] at hrun
      split at hrun
      · cases hrun
      · rename_i hpath
        split at hrun
        · rename_i hvisited
          obtain rfl := Except.ok.inj hrun
          exact ⟨hmarks, ⟨rfl, fun _ h => h⟩, hvisited, hpath⟩
        · rename_i hnew
          rw [Checked.bind_eq_ok_iff] at hrun
          obtain ⟨below, hbelow, hafter⟩ := hrun
          obtain rfl := Except.ok.inj hafter
          have hentered : Finished adjacency
              { visited := vertex :: marks.visited
                path := marks.path ++ [vertex] } := by
            constructor
            · intro a ha hleft b hb
              simp only [List.mem_append, List.mem_singleton, not_or] at hleft
              have ha : a ∈ marks.visited :=
                (List.mem_cons.mp ha).resolve_left hleft.2
              obtain ⟨hseen, hout⟩ := hmarks.closed a ha hleft.1 b hb
              refine ⟨List.mem_cons_of_mem _ hseen, ?_⟩
              simp only [List.mem_append, List.mem_singleton, not_or]
              exact ⟨hout, fun h => hnew (h ▸ hseen)⟩
            · intro a ha hleft
              simp only [List.mem_append, List.mem_singleton, not_or] at hleft
              exact hmarks.acyclic a
                ((List.mem_cons.mp ha).resolve_left hleft.2) hleft.1
          obtain ⟨hfinished, hextends, hall⟩ :=
            finished_of_foldlM (fun _ _ _ => ih) hentered hbelow
          have hbelowPath : below.path = marks.path ++ [vertex] := hextends.path
          have hvertex : vertex ∈ below.visited :=
            hextends.visited vertex List.mem_cons_self
          -- Leaving the vertex: its arcs lead to vertices already left behind.
          have hcases : ∀ a ∈ below.visited, a ∉ marks.path →
              a ∉ below.path ∨ a = vertex := by
            intro a _ hout
            by_cases h : a = vertex
            · exact .inr h
            · refine .inl ?_
              rw [hbelowPath]
              simp [hout, h]
          have hstays : ∀ a b, (a ∈ below.visited ∧ a ∉ below.path) →
              b ∈ adjacency a → b ∈ below.visited ∧ b ∉ below.path :=
            fun a b ha hb => hfinished.closed a ha.1 ha.2 b hb
          have hout : ∀ b, b ∉ below.path → b ∉ marks.path := by
            intro b hb h
            exact hb (hbelowPath ▸ List.mem_append_left _ h)
          refine ⟨⟨?_, ?_⟩, ⟨rfl, ?_⟩, hvertex, hpath⟩
          · intro a ha hleft b hb
            have hb' : b ∈ below.visited ∧ b ∉ below.path := by
              rcases hcases a ha hleft with h | rfl
              · exact hstays a b ⟨ha, h⟩ hb
              · exact hall b hb
            exact ⟨hb'.1, hout b hb'.2⟩
          · intro a ha hleft hcycle
            rcases hcases a ha hleft with h | rfl
            · exact hfinished.acyclic a ha h hcycle
            · obtain ⟨b, hab, hba⟩ := TransGen.head'_iff.mp hcycle
              have hback := reflTransGen_of_closed hstays (hall b hab) hba
              exact hback.2 (hbelowPath ▸ by simp)
          · intro a ha
            exact hextends.visited a (List.mem_cons_of_mem _ ha)

/-- A search that finds no cycle shows that there is none among the arcs of
the searched vertices. -/
theorem acyclic_of_findCycle {vertices : List α}
    (hsources : ∀ a b, b ∈ adjacency a → a ∈ vertices)
    (hnone : findCycle adjacency vertices = none) :
    Acyclic fun a b => b ∈ adjacency a := by
  rw [findCycle] at hnone
  split at hnone
  · cases hnone
  · rename_i after hrun
    have hstart : Finished adjacency ⟨[], []⟩ :=
      ⟨fun _ ha => absurd ha List.not_mem_nil,
        fun _ ha => absurd ha List.not_mem_nil⟩
    obtain ⟨hfinished, -, hall⟩ :=
      finished_of_foldlM (fun _ _ _ => finished_of_visit) hstart hrun
    intro a hcycle
    obtain ⟨b, hab, -⟩ := TransGen.head'_iff.mp hcycle
    obtain ⟨hseen, hleft⟩ := hall a (hsources a b hab)
    exact hfinished.acyclic a hseen hleft hcycle

end Search

end Digraph

end Foundation
