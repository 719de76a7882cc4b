import RelayerGraph.Foundation.Digraph

/-!
# The cycles a search finds

The other half of the depth-first search: what it returns is a closed walk, and
it never needs more fuel than there are vertices with arcs.  Both rest on the
path of the search, which is a walk without repetition through such vertices.
-/

namespace Foundation

namespace Digraph

open Relation

variable {α : Type}

/-- A walk of at least one arc that ends where it started. -/
structure ClosedWalk (r : α → α → Prop) (walk : List α) : Prop where
  chain : walk.IsChain r
  length : 2 ≤ walk.length
  closed : walk.head? = walk.getLast?

/-- A closed walk puts its first vertex on a cycle. -/
theorem ClosedWalk.exists_transGen {r : α → α → Prop} {walk : List α}
    (h : ClosedWalk r walk) : ∃ a, TransGen r a a := by
  obtain ⟨hchain, hlength, hclosed⟩ := h
  cases walk with
  | nil => simp at hlength
  | cons a rest =>
      cases rest with
      | nil => simp at hlength
      | cons b rest =>
          obtain ⟨hab, hrest⟩ := List.isChain_cons_cons.mp hchain
          have hlast : (b :: rest).getLast? = some a := by
            rw [List.head?_cons, List.getLast?_cons_cons] at hclosed
            exact hclosed.symm
          have hpath : ReflTransGen r b a := by
            have hmem := List.relationReflTransGen_of_exists_isChain_cons rest
              hrest rfl
            have hend : (b :: rest).getLast (List.cons_ne_nil b rest) = a := by
              rw [List.getLast?_eq_getLast_of_ne_nil
                (List.cons_ne_nil b rest)] at hlast
              exact Option.some.inj hlast
            rwa [hend] at hmem
          exact ⟨a, .head' hab hpath⟩

variable [DecidableEq α] {adjacency : α → List α} {vertices : List α}

/-- The path of a search about to enter a vertex. -/
structure Walking (adjacency : α → List α) (vertices path : List α)
    (vertex : α) : Prop where
  chain : (path ++ [vertex]).IsChain fun a b => b ∈ adjacency a
  nodup : path.Nodup
  sources : path ⊆ vertices

omit [DecidableEq α] in
theorem Walking.length_le {path : List α} {vertex : α}
    (h : Walking adjacency vertices path vertex) :
    path.length ≤ vertices.length :=
  (h.nodup.subperm h.sources).length_le

omit [DecidableEq α] in
/-- Entering a fresh vertex, the search walks on along its arcs. -/
theorem Walking.enter {path : List α} {vertex next : α}
    (hsources : ∀ a b, b ∈ adjacency a → a ∈ vertices)
    (h : Walking adjacency vertices path vertex) (hfresh : vertex ∉ path)
    (hnext : next ∈ adjacency vertex) :
    Walking adjacency vertices (path ++ [vertex]) next := by
  refine ⟨?_, ?_, ?_⟩
  · rw [List.isChain_append]
    refine ⟨h.chain, List.isChain_singleton next, ?_⟩
    intro a ha b hb
    rw [List.getLast?_concat, Option.mem_some_iff] at ha
    rw [List.head?_cons, Option.mem_some_iff] at hb
    rwa [← ha, ← hb]
  · rw [List.nodup_append]
    refine ⟨h.nodup, List.nodup_singleton vertex, ?_⟩
    intro a ha b hb heq
    rw [List.mem_singleton] at hb
    exact hfresh (by rwa [← hb, ← heq])
  · intro a ha
    rcases List.mem_append.mp ha with hpath | hvertex
    · exact h.sources hpath
    · rw [List.mem_singleton.mp hvertex]
      exact hsources vertex next hnext

theorem path_of_visit {fuel : ℕ} {marks after : Marks α} {vertex : α}
    (hrun : visit adjacency fuel marks vertex = .ok after) :
    after.path = marks.path := by
  cases fuel with
  | zero => cases hrun
  | succ fuel =>
      rw [visit] at hrun
      split at hrun
      · cases hrun
      · split at hrun
        · rw [Except.ok.inj hrun]
        · rw [Checked.bind_eq_ok_iff] at hrun
          obtain ⟨below, -, hafter⟩ := hrun
          rw [← Except.ok.inj hafter]

theorem path_of_foldlM {fuel : ℕ} {targets : List α}
    {marks after : Marks α}
    (hrun : targets.foldlM (visit adjacency fuel) marks =
      .ok after) : after.path = marks.path := by
  induction targets generalizing marks with
  | nil =>
      obtain rfl : marks = after := by simpa using hrun
      rfl
  | cons target rest ih =>
      rw [List.foldlM_cons, Checked.bind_eq_ok_iff] at hrun
      obtain ⟨middle, hfirst, hrest⟩ := hrun
      exact (ih hrest).trans (path_of_visit hfirst)

/-- A failed loop fails in one of its calls, on the path it started with. -/
theorem exists_error_of_foldlM {fuel : ℕ} {targets cycle : List α}
    {marks : Marks α}
    (hrun : targets.foldlM (visit adjacency fuel) marks = .error cycle) :
    ∃ before target, target ∈ targets ∧ before.path = marks.path ∧
      visit adjacency fuel before target = .error cycle := by
  induction targets generalizing marks with
  | nil => cases hrun
  | cons target rest ih =>
      rw [List.foldlM_cons] at hrun
      cases hcall : visit adjacency fuel marks target with
      | error found =>
          rw [hcall] at hrun
          obtain rfl : found = cycle := Except.error.inj hrun
          exact ⟨marks, target, List.mem_cons_self, rfl, hcall⟩
      | ok middle =>
          rw [hcall] at hrun
          obtain ⟨before, found, hmem, hpath, herror⟩ := ih hrun
          exact ⟨before, found, List.mem_cons_of_mem _ hmem,
            hpath.trans (path_of_visit hcall), herror⟩

/-- The path from the repeated vertex on, closed up, is a closed walk. -/
theorem closedWalk_of_repeated {path : List α} {vertex : α}
    (hwalking : Walking adjacency vertices path vertex) (hmem : vertex ∈ path) :
    ClosedWalk (fun a b => b ∈ adjacency a)
      (path.dropWhile (· ≠ vertex) ++ [vertex]) := by
  have hsplit : path.takeWhile (· ≠ vertex) ++
      (path.dropWhile (· ≠ vertex) ++ [vertex]) = path ++ [vertex] := by
    rw [← List.append_assoc, List.takeWhile_append_dropWhile]
  have hchain := hwalking.chain
  rw [← hsplit, List.isChain_append] at hchain
  cases hdrop : path.dropWhile (· ≠ vertex) with
  | nil =>
      have hall := List.dropWhile_eq_nil_iff.mp hdrop vertex hmem
      simp at hall
  | cons first rest =>
      have hfirst : first = vertex := by
        have hhead := List.head?_dropWhile_not (· ≠ vertex) path
        rw [hdrop] at hhead
        simpa using hhead
      rw [hdrop] at hchain
      refine ⟨hchain.2.1, by simp, ?_⟩
      rw [List.getLast?_concat, hfirst]
      rfl

/-- With fuel for every vertex that has arcs, a search that stops has found a
closed walk. -/
theorem closedWalk_of_visit
    (hsources : ∀ a b, b ∈ adjacency a → a ∈ vertices) {fuel : ℕ}
    {marks : Marks α} {vertex : α} {cycle : List α}
    (hfuel : vertices.length + 2 ≤ fuel + marks.path.length)
    (hwalking : Walking adjacency vertices marks.path vertex)
    (hrun : visit adjacency fuel marks vertex = .error cycle) :
    ClosedWalk (fun a b => b ∈ adjacency a) cycle := by
  induction fuel generalizing marks vertex with
  | zero =>
      have hlength := hwalking.length_le
      omega
  | succ fuel ih =>
      rw [visit] at hrun
      by_cases hpath : vertex ∈ marks.path
      · rw [if_pos hpath] at hrun
        obtain rfl := Except.error.inj hrun
        exact closedWalk_of_repeated hwalking hpath
      · rw [if_neg hpath] at hrun
        by_cases hvisited : vertex ∈ marks.visited
        · rw [if_pos hvisited] at hrun
          cases hrun
        · rw [if_neg hvisited] at hrun
          cases hloop : (adjacency vertex).foldlM (visit adjacency fuel)
              { visited := vertex :: marks.visited
                path := marks.path ++ [vertex] } with
          | ok below =>
              rw [hloop] at hrun
              cases hrun
          | error found =>
              rw [hloop] at hrun
              obtain rfl : found = cycle := Except.error.inj hrun
              obtain ⟨before, target, htarget, hsame, herror⟩ :=
                exists_error_of_foldlM hloop
              have hbefore : before.path = marks.path ++ [vertex] := hsame
              have henter := hwalking.enter hsources hpath htarget
              rw [← hbefore] at henter
              apply ih _ henter herror
              rw [hbefore, List.length_append, List.length_singleton]
              omega

/-- The cycle a search returns is a closed walk. -/
theorem closedWalk_of_findCycle
    (hsources : ∀ a b, b ∈ adjacency a → a ∈ vertices) {cycle : List α}
    (hfound : findCycle adjacency vertices = some cycle) :
    ClosedWalk (fun a b => b ∈ adjacency a) cycle := by
  rw [findCycle] at hfound
  split at hfound
  · rename_i found hrun
    obtain rfl := Option.some.inj hfound
    obtain ⟨before, target, -, hbefore, herror⟩ := exists_error_of_foldlM hrun
    have hwalking : Walking adjacency vertices before.path target := by
      rw [hbefore]
      exact ⟨List.isChain_singleton target, List.nodup_nil,
        List.nil_subset vertices⟩
    exact closedWalk_of_visit hsources (by simp [hbefore]) hwalking herror
  · cases hfound

/-- A search over every vertex that has arcs finds a cycle exactly when there
is one. -/
theorem isSome_findCycle_iff
    (hsources : ∀ a b, b ∈ adjacency a → a ∈ vertices) :
    (findCycle adjacency vertices).isSome ↔
      ∃ a, TransGen (fun a b => b ∈ adjacency a) a a := by
  constructor
  · intro hfound
    obtain ⟨cycle, hcycle⟩ := Option.isSome_iff_exists.mp hfound
    exact (closedWalk_of_findCycle hsources hcycle).exists_transGen
  · rintro ⟨a, hcycle⟩
    by_contra hnone
    rw [Option.not_isSome_iff_eq_none] at hnone
    exact acyclic_of_findCycle hsources hnone a hcycle

end Digraph

end Foundation
