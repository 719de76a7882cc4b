import RelayerGraph.Foundation.CycleSearch
import RelayerGraph.Foundation.Keyed
import RelayerGraph.Graph.Plan

/-!
# The search for an expand cycle

`find_cycle` with the structures it changes in place: the layers on the current
path, as a set and in order, and the layers entered so far.  It takes the same
turns as the search over marks, whose path stands for both.
-/

namespace RelayerGraph

open Foundation Relation

/-- Targets by layer, in the order the keys are iterated. -/
abbrev ExpandAdjacency := Keyed LayerId (List LayerId)

namespace ExpandAdjacency

variable (adjacency : ExpandAdjacency)

def layers : List LayerId := adjacency.rows.map Prod.fst

/-- The targets of a layer; a layer without an entry has none. -/
def targets (layer : LayerId) : List LayerId := (adjacency.get? layer).getD []

def Arc (source target : LayerId) : Prop :=
  ∃ targets, adjacency.get? source = some targets ∧ target ∈ targets

end ExpandAdjacency

structure CycleSearch where
  visiting : Finset LayerId
  visited : Finset LayerId
  path : List LayerId

namespace CycleSearch

def start : CycleSearch := ⟨∅, ∅, []⟩

/-- Visit layers one after the other; the first cycle ends the loop. -/
def visitEach
    (visit : LayerId → CycleSearch → Option (List LayerId) × CycleSearch) :
    List LayerId → CycleSearch → Option (List LayerId) × CycleSearch
  | [], search => (none, search)
  | layer :: layers, search =>
      match visit layer search with
      | (some cycle, search) => (some cycle, search)
      | (none, search) => visitEach visit layers search

/-- `visit`, with fuel for the depth of the recursion. -/
def visit (adjacency : ExpandAdjacency) :
    ℕ → LayerId → CycleSearch → Option (List LayerId) × CycleSearch
  | 0, _, search => (none, search)
  | fuel + 1, layer, search =>
      if layer ∈ search.visiting then
        match search.path.findIdx? (· = layer) with
        | none => (none, search)
        | some start => (some (search.path.drop start ++ [layer]), search)
      else if layer ∈ search.visited then (none, search)
      else
        match visitEach (visit adjacency fuel) (adjacency.targets layer)
          { visiting := insert layer search.visiting
            visited := insert layer search.visited
            path := search.path ++ [layer] } with
        | (some cycle, search) => (some cycle, search)
        | (none, search) =>
            (none, { search with
              visiting := search.visiting.erase layer
              path := search.path.dropLast })

end CycleSearch

/-- The search below every key, with fuel for a path through all of them. -/
def findCycleWithin (fuel : ℕ) (adjacency : ExpandAdjacency) :
    Option (List LayerId) :=
  (CycleSearch.visitEach (CycleSearch.visit adjacency fuel) adjacency.layers
    CycleSearch.start).1

def findCycle (adjacency : ExpandAdjacency) : Option (List LayerId) :=
  findCycleWithin (adjacency.layers.length + 2) adjacency

/-! ## The turns of the two searches -/

namespace CycleSearch

variable {adjacency : ExpandAdjacency}

/-- The path of the marks stands for the path and for its set of layers. -/
structure Agrees (search : CycleSearch) (marks : Digraph.Marks LayerId) :
    Prop where
  visiting : ∀ layer, layer ∈ search.visiting ↔ layer ∈ marks.path
  visited : ∀ layer, layer ∈ search.visited ↔ layer ∈ marks.visited
  path : search.path = marks.path

/-- Both calls find the same cycle, or neither does and they leave structures
that agree. -/
structure Matches (result : Option (List LayerId) × CycleSearch)
    (run : Except (List LayerId) (Digraph.Marks LayerId)) : Prop where
  error : ∀ cycle, run = .error cycle → result.1 = some cycle
  ok : ∀ marks, run = .ok marks → result.1 = none ∧ result.2.Agrees marks

theorem matches_error {cycle : List LayerId} {search : CycleSearch} :
    Matches (some cycle, search) (.error cycle) := by
  constructor
  · intro found hfound
    rw [Except.error.inj hfound]
  · intro marks hmarks
    cases hmarks

theorem matches_ok {search : CycleSearch} {marks : Digraph.Marks LayerId}
    (hagrees : search.Agrees marks) : Matches (none, search) (.ok marks) := by
  constructor
  · intro found hfound
    cases hfound
  · intro after hafter
    rw [← Except.ok.inj hafter]
    exact ⟨rfl, hagrees⟩

/-- The path from the position of a layer on is the path from the layer on. -/
theorem drop_findIdx? {path : List LayerId} {layer : LayerId} {start : ℕ}
    (hstart : path.findIdx? (· = layer) = some start) :
    path.drop start = path.dropWhile (· ≠ layer) := by
  induction path generalizing start with
  | nil => simp at hstart
  | cons first rest ih =>
      rw [List.findIdx?_cons] at hstart
      by_cases hfirst : first = layer
      · simp only [hfirst, decide_true, if_true, Option.some.injEq] at hstart
        rw [← hstart, hfirst, List.drop_zero,
          List.dropWhile_cons_of_neg (by simp)]
      · simp only [hfirst, decide_false, Bool.false_eq_true, if_false,
          Option.map_eq_some_iff] at hstart
        obtain ⟨position, hposition, rfl⟩ := hstart
        rw [List.drop_succ_cons, ih hposition,
          List.dropWhile_cons_of_pos (by simpa using hfirst)]

theorem visitEach_matches
    {visit : LayerId → CycleSearch → Option (List LayerId) × CycleSearch}
    {call : Digraph.Marks LayerId → LayerId →
      Except (List LayerId) (Digraph.Marks LayerId)}
    {layers : List LayerId} {search : CycleSearch}
    {marks : Digraph.Marks LayerId}
    (hcall : ∀ layer ∈ layers, ∀ search middle, search.Agrees middle →
      middle.path = marks.path → Matches (visit layer search) (call middle layer))
    (hpath : ∀ middle layer after, call middle layer = .ok after →
      after.path = middle.path)
    (hagrees : search.Agrees marks) :
    Matches (visitEach visit layers search) (layers.foldlM call marks) := by
  induction layers generalizing search marks with
  | nil => exact matches_ok hagrees
  | cons layer rest ih =>
      have hfirst := hcall layer List.mem_cons_self search marks hagrees rfl
      rw [visitEach, List.foldlM_cons]
      cases hrun : call marks layer with
      | error cycle =>
          have hfound := hfirst.error cycle hrun
          rw [← Prod.eta (visit layer search), hfound]
          exact matches_error
      | ok middle =>
          obtain ⟨hnone, hmiddle⟩ := hfirst.ok middle hrun
          rw [← Prod.eta (visit layer search), hnone]
          have hsame := hpath marks layer middle hrun
          apply ih _ hmiddle
          intro next hnext search' middle' hagrees' hpath'
          exact hcall next (List.mem_cons_of_mem layer hnext) search' middle'
            hagrees' (hpath'.trans hsame)

/-- Entering a layer, the structures still agree. -/
theorem Agrees.enter {search : CycleSearch} {marks : Digraph.Marks LayerId}
    (h : search.Agrees marks) (layer : LayerId) :
    Agrees
      { visiting := insert layer search.visiting
        visited := insert layer search.visited
        path := search.path ++ [layer] }
      { visited := layer :: marks.visited
        path := marks.path ++ [layer] } := by
  refine ⟨fun other => ?_, fun other => ?_, by rw [h.path]⟩
  · simp only [Finset.mem_insert, List.mem_append, List.mem_singleton,
      h.visiting]
    exact or_comm
  · simp [h.visited]

/-- Leaving a layer, the structures agree on the path before it. -/
theorem Agrees.leave {search : CycleSearch} {below : Digraph.Marks LayerId}
    {path : List LayerId} {layer : LayerId} (h : search.Agrees below)
    (hbelow : below.path = path ++ [layer]) (hfresh : layer ∉ path) :
    Agrees
      { search with
        visiting := search.visiting.erase layer
        path := search.path.dropLast }
      { below with path := path } := by
  refine ⟨fun other => ?_, h.visited, ?_⟩
  · simp only [Finset.mem_erase, h.visiting, hbelow, List.mem_append,
      List.mem_singleton]
    constructor
    · rintro ⟨hne, hpath | hlayer⟩
      · exact hpath
      · exact absurd hlayer hne
    · intro hpath
      exact ⟨fun heq => hfresh (heq ▸ hpath), .inl hpath⟩
  · change search.path.dropLast = path
    rw [h.path, hbelow, List.dropLast_concat]

theorem mem_layers_of_mem_targets {layer target : LayerId}
    (h : target ∈ adjacency.targets layer) : layer ∈ adjacency.layers := by
  unfold ExpandAdjacency.targets at h
  cases hget : adjacency.get? layer with
  | none => simp [hget] at h
  | some targets =>
      exact List.mem_map.mpr ⟨(layer, targets), Keyed.mem_rows_of_get? hget, rfl⟩

/-- With fuel for every key, each call takes the turns of the search over
marks.  The induction is on the fuel; the walk of the path bounds its depth. -/
theorem visit_matches {fuel fuel' : ℕ} {layer : LayerId} {search : CycleSearch}
    {marks : Digraph.Marks LayerId}
    (hfuel : adjacency.layers.length + 2 ≤ fuel + marks.path.length)
    (hfuel' : adjacency.layers.length + 2 ≤ fuel' + marks.path.length)
    (hwalking : Digraph.Walking adjacency.targets adjacency.layers marks.path
      layer)
    (hagrees : search.Agrees marks) :
    Matches (visit adjacency fuel layer search)
      (Digraph.visit adjacency.targets fuel' marks layer) := by
  induction fuel generalizing fuel' marks search layer with
  | zero =>
      have hlength := hwalking.length_le
      omega
  | succ fuel ih =>
      cases fuel' with
      | zero =>
          have hlength := hwalking.length_le
          omega
      | succ fuel' =>
          rw [visit, Digraph.visit]
          by_cases hpath : layer ∈ marks.path
          · rw [if_pos ((hagrees.visiting layer).mpr hpath), if_pos hpath]
            rw [hagrees.path]
            cases hstart : marks.path.findIdx? (· = layer) with
            | none =>
                rw [List.findIdx?_eq_none_iff] at hstart
                have hnot := hstart layer hpath
                simp at hnot
            | some start =>
                rw [← drop_findIdx? hstart]
                exact matches_error
          · have hvisiting : layer ∉ search.visiting := fun hmem =>
              hpath ((hagrees.visiting layer).mp hmem)
            rw [if_neg hvisiting, if_neg hpath]
            by_cases hvisited : layer ∈ marks.visited
            · rw [if_pos ((hagrees.visited layer).mpr hvisited),
                if_pos hvisited]
              exact matches_ok hagrees
            · have hunseen : layer ∉ search.visited := fun hmem =>
                hvisited ((hagrees.visited layer).mp hmem)
              rw [if_neg hunseen, if_neg hvisited]
              have hcall : ∀ target ∈ adjacency.targets layer,
                  ∀ search' middle, Agrees search' middle →
                    middle.path = marks.path ++ [layer] →
                    Matches (visit adjacency fuel target search')
                      (Digraph.visit adjacency.targets fuel' middle target) := by
                intro target htarget search' middle hagrees' hmiddle
                have hlength : middle.path.length = marks.path.length + 1 := by
                  rw [hmiddle, List.length_append, List.length_singleton]
                have henter := hwalking.enter
                  (fun _ _ => mem_layers_of_mem_targets) hpath htarget
                rw [← hmiddle] at henter
                exact ih (by omega) (by omega) henter hagrees'
              have hloop := visitEach_matches hcall
                (fun _ _ _ => Digraph.path_of_visit) (hagrees.enter layer)
              rcases hresult : visitEach (visit adjacency fuel)
                (adjacency.targets layer) _ with ⟨found, after⟩
              rw [hresult] at hloop
              cases hrun : (adjacency.targets layer).foldlM
                  (Digraph.visit adjacency.targets fuel')
                  { visited := layer :: marks.visited
                    path := marks.path ++ [layer] } with
              | error cycle =>
                  obtain rfl : found = some cycle := hloop.error cycle hrun
                  exact matches_error
              | ok below =>
                  obtain ⟨hnone, hbelow⟩ := hloop.ok below hrun
                  obtain rfl : found = none := hnone
                  have hsame : below.path = marks.path ++ [layer] :=
                    Digraph.path_of_foldlM hrun
                  exact matches_ok (hbelow.leave hsame hpath)

end CycleSearch

open CycleSearch

variable {adjacency : ExpandAdjacency}

/-- Any fuel for a path through all keys finds what the search over marks
finds. -/
theorem findCycleWithin_eq {fuel : ℕ}
    (hfuel : adjacency.layers.length + 2 ≤ fuel) :
    findCycleWithin fuel adjacency =
      Digraph.findCycle adjacency.targets adjacency.layers := by
  have hcall : ∀ layer ∈ adjacency.layers, ∀ search middle,
      Agrees search middle → middle.path = [] →
        Matches (visit adjacency fuel layer search)
          (Digraph.visit adjacency.targets (adjacency.layers.length + 2) middle
            layer) := by
    intro layer _ search middle hagrees hmiddle
    have hwalking : Digraph.Walking adjacency.targets adjacency.layers
        middle.path layer := by
      rw [hmiddle]
      exact ⟨List.isChain_singleton layer, List.nodup_nil,
        List.nil_subset adjacency.layers⟩
    exact visit_matches (by omega) (by omega) hwalking hagrees
  have hstart : start.Agrees ⟨[], []⟩ := by
    refine ⟨?_, ?_, rfl⟩
    · simp [start]
    · simp [start]
  have hloop := visitEach_matches hcall (fun _ _ _ => Digraph.path_of_visit)
    hstart
  unfold findCycleWithin Digraph.findCycle
  cases hrun : adjacency.layers.foldlM
      (Digraph.visit adjacency.targets (adjacency.layers.length + 2))
      ⟨[], []⟩ with
  | error cycle => exact hloop.error cycle hrun
  | ok marks => exact (hloop.ok marks hrun).1

theorem arc_iff {source target : LayerId} :
    adjacency.Arc source target ↔ target ∈ adjacency.targets source := by
  unfold ExpandAdjacency.Arc ExpandAdjacency.targets
  cases adjacency.get? source with
  | none => simp
  | some targets => simp

/-- `find_cycle` returns a closed walk along the arcs, and finds one exactly
when some layer lies on a cycle; no path of its recursion is longer than the
map has keys. -/
theorem findCycle_finds (adjacency : ExpandAdjacency) :
    ((findCycle adjacency).isSome ↔
      ∃ layer, TransGen adjacency.Arc layer layer) ∧
      (∀ cycle, findCycle adjacency = some cycle →
        Digraph.ClosedWalk adjacency.Arc cycle) ∧
      ∀ fuel, adjacency.layers.length + 2 ≤ fuel →
        findCycleWithin fuel adjacency = findCycle adjacency := by
  have harc : adjacency.Arc = fun a b => b ∈ adjacency.targets a := by
    funext a b
    exact propext arc_iff
  have hfind : findCycle adjacency =
      Digraph.findCycle adjacency.targets adjacency.layers :=
    findCycleWithin_eq le_rfl
  have hsources : ∀ a b, b ∈ adjacency.targets a → a ∈ adjacency.layers :=
    fun _ _ => mem_layers_of_mem_targets
  rw [harc, hfind]
  refine ⟨Digraph.isSome_findCycle_iff hsources, ?_, ?_⟩
  · intro cycle hcycle
    exact Digraph.closedWalk_of_findCycle hsources hcycle
  · intro fuel hfuel
    exact findCycleWithin_eq hfuel

/-- The check of a plan passes exactly when the search finds no cycle among
the expand targets of its layers, in whatever order they are searched. -/
theorem GraphDatabase.validateExpandAcyclic_ok_iff {db : GraphDatabase}
    {scope : InteractionScope} {plan : CompletionPlan}
    (htargets : adjacency.targets = db.authoredExpansions scope plan) :
    db.validateExpandAcyclic scope plan = .ok () ↔
      findCycle adjacency = none := by
  have hauthored : ∀ a b, b ∈ adjacency.targets a → a ∈ plan.layers := by
    intro a b hb
    by_contra ha
    rw [htargets, GraphDatabase.authoredExpansions, if_neg ha] at hb
    cases hb
  have hkeys : ∀ a b, b ∈ adjacency.targets a → a ∈ adjacency.layers :=
    fun _ _ => mem_layers_of_mem_targets
  have hfind : findCycle adjacency =
      Digraph.findCycle adjacency.targets adjacency.layers :=
    findCycleWithin_eq le_rfl
  have hsame := (Digraph.isSome_findCycle_iff hkeys).trans
    (Digraph.isSome_findCycle_iff hauthored).symm
  rw [hfind, ← Option.not_isSome_iff_eq_none, hsame,
    GraphDatabase.validateExpandAcyclic, ← htargets]
  cases Digraph.findCycle adjacency.targets plan.layers with
  | none => simp
  | some cycle => simp

end RelayerGraph
