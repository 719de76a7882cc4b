import RelayerGraph.HarnessReadiness.Moves

/-!
# What every readiness run keeps

The invariants of a coordinator among any interleaving of evaluations: each
harness of an evaluation is configured and has a latest generation, the chain
of publications lists exactly the results that wait for their turn, what was
published belongs to harnesses that went past it, in increasing generations,
and a preparation that is shown belongs to an evaluation that goes on.
-/

namespace RelayerGraph

open Foundation

namespace HarnessReadiness

/-- A publication was dispatched. -/
def Task.late : Task → Prop
  | .publishing _ => True
  | .settled _ => True
  | .ended _ => True
  | _ => False

def Task.isQueued : Task → Prop
  | .queued _ => True
  | _ => False

def Task.isPublishing : Task → Prop
  | .publishing _ => True
  | _ => False

theorem Task.early.not_isQueued {task : Task} (h : task.early) :
    ¬ Task.isQueued task := by
  cases task <;> simp_all [Task.early, Task.isQueued]

theorem Task.early.not_isPublishing {task : Task} (h : task.early) :
    ¬ Task.isPublishing task := by
  cases task <;> simp_all [Task.early, Task.isPublishing]

theorem Task.early.not_late {task : Task} (h : task.early) : ¬ task.late := by
  cases task <;> simp_all [Task.early, Task.late]

/-- The generation that a published result of the harness belongs to. -/
def ReadinessEvent.publishedFor (harnessId : String) : ReadinessEvent → Option ℕ
  | .published update =>
      if update.result.harnessId = harnessId then some update.result.generation
      else none
  | _ => none

/-- What is in flight after an event, when publications take turns. -/
def ReadinessEvent.turn (inFlight : Option (ℕ × String)) :
    ReadinessEvent → Option (Option (ℕ × String))
  | .checked _ _ => some inFlight
  | .published update =>
      if inFlight = none then
        some (some (update.result.generation, update.result.harnessId))
      else none
  | .accepted generation harnessId =>
      if inFlight = some (generation, harnessId) then some none else none
  | .refused generation harnessId =>
      if inFlight = some (generation, harnessId) then some none else none

namespace Coordinator

variable {setup : Setup} {s t : Coordinator} {key : ℕ × String}

/-! ## Candidates after a move -/

theorem get?_move (key : ℕ × String) (task : Task) (key' : ℕ × String) :
    (s.move key task).candidates.get? key' =
      (s.candidates.get? key').map fun candidate =>
        if key' = key then { candidate with task := task } else candidate :=
  Keyed.get?_mapRows _ _ _

/-- A harness after a move, and the one it was before. -/
theorem exists_of_get?_move {task : Task} {key' : ℕ × String}
    {candidate' : Candidate}
    (h : (s.move key task).candidates.get? key' = some candidate') :
    ∃ candidate, s.candidates.get? key' = some candidate ∧
      candidate'.routes = candidate.routes ∧
      candidate'.task = if key' = key then task else candidate.task := by
  rw [get?_move, Option.map_eq_some_iff] at h
  obtain ⟨candidate, hcandidate, rfl⟩ := h
  refine ⟨candidate, hcandidate, ?_, ?_⟩ <;> split <;> rfl

theorem get?_move_of_some {task : Task} {key' : ℕ × String}
    {candidate : Candidate} (h : s.candidates.get? key' = some candidate) :
    ∃ candidate', (s.move key task).candidates.get? key' = some candidate' ∧
      candidate'.task = if key' = key then task else candidate.task := by
  refine ⟨_, by rw [get?_move, h]; rfl, ?_⟩
  dsimp only
  split <;> rfl

/-! ## Harnesses and generations -/

/-- Every harness of an evaluation is configured, belongs to an evaluation that
was taken up, and has a latest generation. -/
structure Rooted (setup : Setup) (s : Coordinator) : Prop where
  held : s.Held
  configured : ∀ key candidate, s.candidates.get? key = some candidate →
    (setup.configuration? key.2).isSome
  numbered : ∀ generation evaluation,
    s.evaluations.get? generation = some evaluation → generation ≤ s.generation
  latest : ∀ key candidate, s.candidates.get? key = some candidate →
    ∃ generation, s.harnessGenerations.get? key.2 = some generation ∧
      key.1 ≤ generation
  owned : ∀ harnessId generation,
    s.harnessGenerations.get? harnessId = some generation →
      generation ≤ s.generation
  /-- The evaluation prepares the recipe that the harness requires. -/
  recipes : ∀ key candidate configuration recipeId evaluation,
    s.candidates.get? key = some candidate →
    setup.configuration? key.2 = some configuration →
    setup.runtimeRequirements configuration.implementation = some recipeId →
    s.evaluations.get? key.1 = some evaluation →
      (evaluation.recipes.get? recipeId).isSome

theorem Rooted.fresh (h : Rooted setup s) (harnessId : String) :
    s.candidates.get? (s.generation + 1, harnessId) = none := by
  cases hcandidate : s.candidates.get? (s.generation + 1, harnessId) with
  | none => rfl
  | some candidate =>
      obtain ⟨-, evaluation, hevaluation⟩ := h.held _ candidate hcandidate
      have hle := h.numbered _ evaluation hevaluation
      exact absurd hle (by simp)

/-! ## Taking an evaluation up -/

section

variable {request : EvaluationRequest}

theorem mem_configurations {candidate : Configuration × List Route}
    (h : candidate ∈ s.evaluationCandidates setup request) :
    candidate.1 ∈ setup.configurations := by
  obtain ⟨configuration, hmem, hsome⟩ := List.mem_filterMap.mp h
  have hconfiguration := (List.mem_filter.mp hmem).1
  split at hsome
  · cases hsome
  · obtain rfl := Option.some.inj hsome
    exact hconfiguration

theorem configuration?_of_mem {configuration : Configuration}
    (h : configuration ∈ setup.configurations) :
    setup.configuration? configuration.name = some configuration := by
  have hfound : ∃ other, setup.configuration? configuration.name = some other := by
    refine Option.ne_none_iff_exists'.mp fun hnone => ?_
    have hnot := List.find?_eq_none.mp hnone configuration h
    exact hnot (decide_eq_true rfl)
  obtain ⟨other, hother⟩ := hfound
  have hname := configuration?_name hother
  have hmem : other ∈ setup.configurations := List.mem_of_find?_eq_some hother
  rw [List.inj_on_of_nodup_map setup.names hmem h hname] at hother
  exact hother

theorem nodup_candidateNames (s : Coordinator) (request : EvaluationRequest) :
    ((s.evaluationCandidates setup request).map fun candidate =>
      candidate.1.name).Nodup := by
  have hsub : ((s.evaluationCandidates setup request).map fun candidate =>
      candidate.1).Sublist setup.configurations := by
    unfold evaluationCandidates
    rw [List.map_filterMap]
    have hfilter : ((setup.configurations.filter fun configuration =>
        request.harnessIds.all fun named => named.contains configuration.name)
        ).Sublist setup.configurations := List.filter_sublist
    refine List.Sublist.trans ?_ hfilter
    generalize setup.configurations.filter _ = configurations
    induction configurations with
    | nil => exact .slnil
    | cons configuration rest ih =>
        rw [List.filterMap_cons]
        cases s.routeProviders setup configuration request.source.routes with
        | nil => exact ih.cons _
        | cons route routes => exact ih.cons_cons _
  have hnames := (hsub.map Configuration.name).nodup setup.names
  rwa [List.map_map] at hnames

/-- A harness after an evaluation was taken up: a new one or an old one. -/
theorem takeUp_candidate {candidate : Candidate}
    (h : (s.takeUp setup request
      (s.evaluationCandidates setup request)).candidates.get? key =
        some candidate) :
    (∃ taken ∈ s.evaluationCandidates setup request,
      key = (s.generation + 1, taken.1.name) ∧
      candidate = ⟨taken.2, .preparing⟩) ∨
    s.candidates.get? key = some candidate := by
  rcases Keyed.get?_putAll_cases h with hnew | ⟨-, hold⟩
  · obtain ⟨taken, htaken, hentry⟩ := List.mem_map.mp hnew
    obtain ⟨hkey, hcandidate⟩ := Prod.mk.inj hentry
    exact .inl ⟨taken, htaken, hkey.symm, hcandidate.symm⟩
  · exact .inr hold

theorem takeUp_old (h : Rooted setup s) {candidate : Candidate}
    (hold : s.candidates.get? key = some candidate) :
    (s.takeUp setup request
      (s.evaluationCandidates setup request)).candidates.get? key =
        some candidate := by
  refine (Keyed.get?_putAll_of_not_mem ?_).trans hold
  intro hmem
  obtain ⟨entry, hentry, hkey⟩ := List.mem_map.mp hmem
  obtain ⟨taken, -, rfl⟩ := List.mem_map.mp hentry
  rw [← hkey, h.fresh] at hold
  cases hold

/-- The latest generation of a harness after an evaluation was taken up. -/
theorem takeUp_generation {harnessId : String} {generation : ℕ}
    (h : (s.takeUp setup request
      (s.evaluationCandidates setup request)).harnessGenerations.get? harnessId =
        some generation) :
    generation = s.generation + 1 ∨
      s.harnessGenerations.get? harnessId = some generation := by
  rcases Keyed.get?_putAll_cases h with hnew | ⟨-, hold⟩
  · obtain ⟨taken, -, hentry⟩ := List.mem_map.mp hnew
    exact .inl (Prod.mk.inj hentry).2.symm
  · exact .inr hold

theorem takeUp_latest (h : Rooted setup s) {candidate : Candidate}
    (hcandidate : (s.takeUp setup request
      (s.evaluationCandidates setup request)).candidates.get? key =
        some candidate) :
    ∃ generation, (s.takeUp setup request
      (s.evaluationCandidates setup request)).harnessGenerations.get? key.2 =
        some generation ∧ key.1 ≤ generation := by
  have hnodup := @nodup_candidateNames setup s request
  by_cases htaken : key.2 ∈ (s.evaluationCandidates setup request).map
      fun candidate => candidate.1.name
  · obtain ⟨taken, hmem, hname⟩ := List.mem_map.mp htaken
    refine ⟨s.generation + 1, ?_, ?_⟩
    · refine Keyed.get?_putAll_of_mem ?_ (List.mem_map.mpr ⟨taken, hmem, ?_⟩)
      · rwa [List.map_map]
      · rw [hname]
    · rcases takeUp_candidate hcandidate with ⟨-, -, rfl, -⟩ | hold
      · exact le_refl _
      · obtain ⟨-, evaluation, hevaluation⟩ := h.held _ candidate hold
        exact (h.numbered _ evaluation hevaluation).trans (Nat.le_succ _)
  · rcases takeUp_candidate hcandidate with ⟨taken, hmem, rfl, -⟩ | hold
    · exact absurd (List.mem_map.mpr ⟨taken, hmem, rfl⟩) htaken
    · obtain ⟨generation, hgeneration, hle⟩ := h.latest _ candidate hold
      refine ⟨generation, (Keyed.get?_putAll_of_not_mem ?_).trans hgeneration, hle⟩
      rwa [List.map_map]

/-- What one item of a list makes, and every item keeps, holds at the end. -/
theorem foldl_of_mem {α β : Type} {f : β → α → β} {P : β → Prop}
    (hkeeps : ∀ b a, P b → P (f b a)) {item : α} (hmakes : ∀ b, P (f b item))
    {items : List α} (hitem : item ∈ items) (b : β) : P (items.foldl f b) := by
  have hrest : ∀ (rest : List α) (b : β), P b → P (rest.foldl f b) := by
    intro rest
    induction rest with
    | nil => exact fun _ hb => hb
    | cons a rest ih => exact fun b hb => ih _ (hkeeps b a hb)
  induction items generalizing b with
  | nil => cases hitem
  | cons a rest ih =>
      rcases List.mem_cons.mp hitem with rfl | hmem
      · exact hrest rest _ (hmakes b)
      · exact ih hmem _

/-- Every recipe that a harness requires is prepared. -/
theorem recipeRoutes_isSome {candidates : List (Configuration × List Route)}
    {taken : Configuration × List Route} (htaken : taken ∈ candidates)
    {recipeId : String}
    (hrecipe : setup.runtimeRequirements taken.1.implementation = some recipeId) :
    ((recipeRoutes setup candidates).get? recipeId).isSome := by
  unfold recipeRoutes
  refine foldl_of_mem (P := fun routes : Keyed String (List Route) =>
    (routes.get? recipeId).isSome) ?_ ?_ htaken _
  · intro routes candidate hsome
    split
    · exact hsome
    · rw [Keyed.get?_put]
      split
      · rfl
      · exact hsome
  · intro routes
    rw [hrecipe]
    dsimp only
    rw [Keyed.get?_put_self]
    rfl

end

/-! ## Rooted coordinators stay rooted -/

theorem Rooted.takeUp (h : Rooted setup s) (request : EvaluationRequest) :
    Rooted setup (s.takeUp setup request
      (s.evaluationCandidates setup request)) where
  held := by
    intro key candidate hcandidate
    rcases takeUp_candidate hcandidate with ⟨taken, -, rfl, rfl⟩ | hold
    · exact ⟨trivial, _, Keyed.get?_put_self _ _ _⟩
    · obtain ⟨hof, evaluation, hevaluation⟩ := h.held key candidate hold
      refine ⟨hof, evaluation, (Keyed.get?_put_of_ne _ _ ?_).trans hevaluation⟩
      have hle := h.numbered _ evaluation hevaluation
      omega
  configured := by
    intro key candidate hcandidate
    rcases takeUp_candidate hcandidate with ⟨taken, hmem, rfl, -⟩ | hold
    · rw [configuration?_of_mem (mem_configurations hmem)]
      rfl
    · exact h.configured key candidate hold
  numbered := by
    intro generation evaluation hevaluation
    change (s.evaluations.put (s.generation + 1) _).get? generation = _
      at hevaluation
    change generation ≤ s.generation + 1
    rw [Keyed.get?_put] at hevaluation
    split at hevaluation
    · omega
    · exact (h.numbered _ evaluation hevaluation).trans (Nat.le_succ _)
  latest := fun key candidate hcandidate => takeUp_latest h hcandidate
  owned := by
    intro harnessId generation hgeneration
    change generation ≤ s.generation + 1
    rcases takeUp_generation hgeneration with rfl | hold
    · exact le_refl _
    · exact (h.owned _ _ hold).trans (Nat.le_succ _)
  recipes := by
    intro key candidate configuration recipeId evaluation hcandidate
      hconfiguration hrecipe hevaluation
    change (s.evaluations.put (s.generation + 1) _).get? key.1 = _ at hevaluation
    rcases takeUp_candidate hcandidate with ⟨taken, hmem, rfl, -⟩ | hold
    · rw [Keyed.get?_put_self] at hevaluation
      obtain rfl := Option.some.inj hevaluation
      rw [configuration?_of_mem (mem_configurations hmem),
        Option.some.injEq] at hconfiguration
      subst hconfiguration
      rw [Keyed.get?_mapValues, Option.isSome_map]
      exact recipeRoutes_isSome hmem hrecipe
    · obtain ⟨-, old, hold'⟩ := h.held key candidate hold
      have hle := h.numbered _ old hold'
      rw [Keyed.get?_put_of_ne _ _ (by omega)] at hevaluation
      exact h.recipes key candidate configuration recipeId evaluation hold
        hconfiguration hrecipe hevaluation

/-- A coordinator that differs in the parts a step may rewrite. -/
theorem Rooted.congr (h : Rooted setup s) (hgeneration : t.generation = s.generation)
    (hcandidates : ∀ key candidate, t.candidates.get? key = some candidate →
      candidate.task.Of key ∧ ∃ old, s.candidates.get? key = some old)
    (hevaluations : ∀ generation,
      ((t.evaluations.get? generation).isSome ↔
        (s.evaluations.get? generation).isSome))
    (hrecipes : ∀ generation evaluation,
      t.evaluations.get? generation = some evaluation →
        ∃ old, s.evaluations.get? generation = some old ∧
          ∀ recipeId, (old.recipes.get? recipeId).isSome →
            (evaluation.recipes.get? recipeId).isSome)
    (hgenerations : t.harnessGenerations = s.harnessGenerations) :
    Rooted setup t where
  held := by
    intro key candidate hcandidate
    obtain ⟨hof, old, hold⟩ := hcandidates key candidate hcandidate
    obtain ⟨-, evaluation, hevaluation⟩ := h.held key old hold
    refine ⟨hof, Option.isSome_iff_exists.mp ((hevaluations key.1).mpr ?_)⟩
    rw [hevaluation]
    rfl
  configured := by
    intro key candidate hcandidate
    obtain ⟨-, old, hold⟩ := hcandidates key candidate hcandidate
    exact h.configured key old hold
  numbered := by
    intro generation evaluation hevaluation
    obtain ⟨old, hold, -⟩ := hrecipes generation evaluation hevaluation
    rw [hgeneration]
    exact h.numbered generation old hold
  latest := by
    intro key candidate hcandidate
    obtain ⟨-, old, hold⟩ := hcandidates key candidate hcandidate
    rw [hgenerations]
    exact h.latest key old hold
  owned := by
    rw [hgenerations, hgeneration]
    exact h.owned
  recipes := by
    intro key candidate configuration recipeId evaluation hcandidate
      hconfiguration hrecipe hevaluation
    obtain ⟨-, old, hold⟩ := hcandidates key candidate hcandidate
    obtain ⟨before, hbefore, hkept⟩ := hrecipes key.1 evaluation hevaluation
    exact hkept recipeId (h.recipes key old configuration recipeId before hold
      hconfiguration hrecipe hbefore)

theorem Advance.of {candidate : Candidate} {signal : Option SignalId}
    {task : Task} {publication : List (ℕ × String)}
    {inFlight : Option (ℕ × String)} {notes : List ReadinessEvent}
    (h : Advance s key candidate signal task publication inFlight notes)
    (hof : candidate.task.Of key) : task.Of key := by
  cases h with
  | wait _ _ hof' _ => exact hof'
  | chain _ hresult _ => exact hresult
  | dispatch htask _ _ _ =>
      rw [htask] at hof
      exact hof
  | _ => trivial

theorem Rooted.step (h : Rooted setup s) (hstep : Steps setup s t) :
    Rooted setup t := by
  have hsame : ∀ key candidate, s.candidates.get? key = some candidate →
      candidate.task.Of key ∧ ∃ old, s.candidates.get? key = some old :=
    fun key candidate hcandidate =>
      ⟨(h.held key candidate hcandidate).1, candidate, hcandidate⟩
  have hkept : ∀ generation evaluation,
      s.evaluations.get? generation = some evaluation →
        ∃ old, s.evaluations.get? generation = some old ∧
          ∀ recipeId, (old.recipes.get? recipeId).isSome →
            (evaluation.recipes.get? recipeId).isSome :=
    fun generation evaluation hevaluation =>
      ⟨evaluation, hevaluation, fun _ hrecipe => hrecipe⟩
  -- An evaluation that is there is rewritten, with the same recipes.
  have hput : ∀ (generation : ℕ) (evaluation evaluation' : Evaluation),
      s.evaluations.get? generation = some evaluation →
      (∀ recipeId, (evaluation.recipes.get? recipeId).isSome →
        (evaluation'.recipes.get? recipeId).isSome) →
      (∀ other, ((s.evaluations.put generation evaluation').get? other).isSome ↔
        (s.evaluations.get? other).isSome) ∧
      ∀ other found,
        (s.evaluations.put generation evaluation').get? other = some found →
        ∃ old, s.evaluations.get? other = some old ∧
          ∀ recipeId, (old.recipes.get? recipeId).isSome →
            (found.recipes.get? recipeId).isSome := by
    intro generation evaluation evaluation' hevaluation hrecipes
    constructor
    · intro other
      rw [Keyed.get?_put]
      split
      next hother => rw [hother, hevaluation]; rfl
      next => rfl
    · intro other found hfound
      rw [Keyed.get?_put] at hfound
      split at hfound
      next hother =>
        obtain rfl := Option.some.inj hfound
        exact ⟨evaluation, hother ▸ hevaluation, hrecipes⟩
      next => exact hkept other found hfound
  cases hstep with
  | idle => exact h
  | takeUp _ => exact h.takeUp _
  | environment _ _ => exact h.congr rfl hsame (fun _ => Iff.rfl) hkept rfl
  | @recipes generation evaluation prepared answer hevaluation =>
      have hrecipes : ∀ recipeId, (evaluation.recipes.get? recipeId).isSome →
          ((evaluation.recipes.put prepared answer).get? recipeId).isSome := by
        intro recipeId hrecipe
        rw [Keyed.get?_put]
        split
        · rfl
        · exact hrecipe
      obtain ⟨hsome, hfound⟩ := hput generation evaluation { evaluation with
        recipes := evaluation.recipes.put prepared answer } hevaluation hrecipes
      exact h.congr rfl hsame hsome hfound rfl
  | advance hcandidate hevaluation hadvance hrows =>
      refine h.congr rfl ?_ (fun _ => Iff.rfl) hkept rfl
      intro key' candidate' hcandidate'
      obtain ⟨old, hold, -, htask⟩ := exists_of_get?_move hcandidate'
      refine ⟨?_, old, hold⟩
      rw [htask]
      split
      next hkey =>
        rw [hkey]
        exact hadvance.of (h.held _ _ hcandidate).1
      next => exact (h.held key' old hold).1
  | @conclude generation evaluation hevaluation _ =>
      obtain ⟨hsome, hfound⟩ := hput generation evaluation { evaluation with
        reply := some (s.evaluationReply generation evaluation.signal) }
        hevaluation fun _ hrecipe => hrecipe
      exact h.congr rfl hsame hsome hfound rfl

/-! ## The chain of publications -/

/-- The harness of an evaluation waits where a condition tells. -/
def At (candidates : Keyed (ℕ × String) Candidate) (key : ℕ × String)
    (P : Task → Prop) : Prop :=
  ∃ candidate, candidates.get? key = some candidate ∧ P candidate.task

theorem at_move_self {candidate : Candidate} {task : Task} {P : Task → Prop}
    (h : s.candidates.get? key = some candidate) :
    At (s.move key task).candidates key P ↔ P task := by
  constructor
  · rintro ⟨candidate', hcandidate', hP⟩
    obtain ⟨old, -, -, htask⟩ := exists_of_get?_move hcandidate'
    rw [if_pos rfl] at htask
    exact htask ▸ hP
  · intro hP
    obtain ⟨candidate', hcandidate', htask⟩ := @get?_move_of_some s key task key candidate h
    rw [if_pos rfl] at htask
    exact ⟨candidate', hcandidate', htask ▸ hP⟩

theorem at_move_of_ne {task : Task} {key' : ℕ × String} {P : Task → Prop}
    (hne : key' ≠ key) :
    At (s.move key task).candidates key' P ↔ At s.candidates key' P := by
  constructor
  · rintro ⟨candidate', hcandidate', hP⟩
    obtain ⟨old, hold, -, htask⟩ := exists_of_get?_move hcandidate'
    rw [if_neg hne] at htask
    exact ⟨old, hold, htask ▸ hP⟩
  · rintro ⟨old, hold, hP⟩
    obtain ⟨candidate', hcandidate', htask⟩ := @get?_move_of_some s key task key' old hold
    rw [if_neg hne] at htask
    exact ⟨candidate', hcandidate', htask ▸ hP⟩

/-- A move that enters and leaves no task of a kind. -/
theorem at_move_of_not {candidate : Candidate} {task : Task} {P : Task → Prop}
    (h : s.candidates.get? key = some candidate) (hold : ¬ P candidate.task)
    (hnew : ¬ P task) (key' : ℕ × String) :
    At (s.move key task).candidates key' P ↔ At s.candidates key' P := by
  by_cases hkey : key' = key
  · subst hkey
    rw [at_move_self h]
    constructor
    · exact fun hP => absurd hP hnew
    · rintro ⟨found, hfound, hP⟩
      obtain rfl : candidate = found := by simpa [h] using hfound
      exact absurd hP hold
  · exact at_move_of_ne hkey

theorem at_takeUp (h : Rooted setup s) {request : EvaluationRequest}
    {P : Task → Prop} (hP : ¬ P .preparing) (key : ℕ × String) :
    At (s.takeUp setup request (s.evaluationCandidates setup request)).candidates
      key P ↔ At s.candidates key P := by
  constructor
  · rintro ⟨candidate, hcandidate, htask⟩
    rcases takeUp_candidate hcandidate with ⟨taken, -, -, rfl⟩ | hold
    · exact absurd htask hP
    · exact ⟨candidate, hold, htask⟩
  · rintro ⟨candidate, hcandidate, htask⟩
    exact ⟨candidate, takeUp_old h hcandidate, htask⟩

/-- The chain lists the results that wait for their turn, and what is in flight
is the one result being published. -/
structure Queued (s : Coordinator) : Prop where
  nodup : s.publication.Nodup
  chained : ∀ key, key ∈ s.publication ↔ At s.candidates key Task.isQueued
  flying : ∀ key, s.inFlight = some key ↔ At s.candidates key Task.isPublishing

theorem Queued.step (h : Queued s) (hrooted : Rooted setup s)
    (hstep : Steps setup s t) : Queued t := by
  cases hstep with
  | idle => exact h
  | takeUp _ =>
      refine ⟨h.nodup, fun key => ?_, fun key => ?_⟩
      · exact (h.chained key).trans (at_takeUp hrooted (fun hP => hP) key).symm
      · exact (h.flying key).trans (at_takeUp hrooted (fun hP => hP) key).symm
  | environment _ _ => exact ⟨h.nodup, h.chained, h.flying⟩
  | recipes _ => exact ⟨h.nodup, h.chained, h.flying⟩
  | conclude _ _ => exact ⟨h.nodup, h.chained, h.flying⟩
  | @advance key candidate evaluation task publication inFlight notes
      publishedGenerations preparing hcandidate hevaluation hadvance hrows =>
      have hself : ∀ P, At s.candidates key P ↔ P candidate.task := by
        intro P
        constructor
        · rintro ⟨found, hfound, hP⟩
          obtain rfl : candidate = found := by simpa [hcandidate] using hfound
          exact hP
        · exact fun hP => ⟨candidate, hcandidate, hP⟩
      cases hadvance with
      | wait hearly hnew _ _ =>
          refine ⟨h.nodup, fun key' => (h.chained key').trans ?_,
            fun key' => (h.flying key').trans ?_⟩
          · exact (at_move_of_not hcandidate hearly.not_isQueued
              hnew.not_isQueued key').symm
          · exact (at_move_of_not hcandidate hearly.not_isPublishing
              hnew.not_isPublishing key').symm
      | drop hearly _ _ =>
          refine ⟨h.nodup, fun key' => (h.chained key').trans ?_,
            fun key' => (h.flying key').trans ?_⟩
          · exact (at_move_of_not hcandidate hearly.not_isQueued
              (by exact fun hP => hP) key').symm
          · exact (at_move_of_not hcandidate hearly.not_isPublishing
              (by exact fun hP => hP) key').symm
      | chain hearly _ _ =>
          have hnot : key ∉ s.publication := fun hmem =>
            hearly.not_isQueued ((hself _).mp ((h.chained key).mp hmem))
          refine ⟨?_, fun key' => ?_, fun key' => (h.flying key').trans ?_⟩
          · refine List.nodup_append.mpr ⟨h.nodup, by simp, ?_⟩
            rintro a ha b hb rfl
            exact hnot (List.mem_singleton.mp hb ▸ ha)
          · by_cases hkey : key' = key
            · subst hkey
              refine iff_of_true (by simp) ((at_move_self hcandidate).mpr trivial)
            · rw [at_move_of_ne hkey, ← h.chained key']
              simp [hkey]
          · exact (at_move_of_not hcandidate hearly.not_isPublishing
              (by exact fun hP => hP) key').symm
      | dispatch htask hidle hchain _ =>
          have hnodup := hchain ▸ h.nodup
          obtain ⟨hfirst, hrest⟩ := List.nodup_cons.mp hnodup
          refine ⟨hrest, fun key' => ?_, fun key' => ?_⟩
          · by_cases hkey : key' = key
            · subst hkey
              exact iff_of_false hfirst fun hat => (at_move_self hcandidate).mp hat
            · rw [at_move_of_ne hkey, ← h.chained key', hchain]
              simp [hkey]
          · by_cases hkey : key' = key
            · subst hkey
              exact iff_of_true rfl ((at_move_self hcandidate).mpr trivial)
            · rw [at_move_of_ne hkey, ← h.flying key', hidle]
              simp [Ne.symm hkey]
      | pass htask hidle hchain _ =>
          have hnodup := hchain ▸ h.nodup
          obtain ⟨hfirst, hrest⟩ := List.nodup_cons.mp hnodup
          refine ⟨hrest, fun key' => ?_, fun key' => ?_⟩
          · by_cases hkey : key' = key
            · subst hkey
              exact iff_of_false hfirst fun hat => (at_move_self hcandidate).mp hat
            · rw [at_move_of_ne hkey, ← h.chained key', hchain]
              simp [hkey]
          · rw [← hidle, h.flying key']
            exact (at_move_of_not hcandidate (by rw [htask]; exact fun hP => hP)
              (fun hP => hP) key').symm
      | answer htask hflight _ =>
          refine ⟨h.nodup, fun key' => (h.chained key').trans ?_, fun key' => ?_⟩
          · exact (at_move_of_not hcandidate (by rw [htask]; exact fun hP => hP)
              (fun hP => hP) key').symm
          · by_cases hkey : key' = key
            · subst hkey
              exact iff_of_false (by simp)
                fun hat => (at_move_self hcandidate).mp hat
            · rw [at_move_of_ne hkey, ← h.flying key', hflight]
              simp [Ne.symm hkey]
      | settle htask =>
          refine ⟨h.nodup, fun key' => (h.chained key').trans ?_,
            fun key' => (h.flying key').trans ?_⟩
          · exact (at_move_of_not hcandidate (by rw [htask]; exact fun hP => hP)
              (fun hP => hP) key').symm
          · exact (at_move_of_not hcandidate (by rw [htask]; exact fun hP => hP)
              (fun hP => hP) key').symm

/-! ## Published results -/

/-- The generations of the results published for a harness, in their order. -/
def publishedOf (s : Coordinator) (harnessId : String) : List ℕ :=
  s.journal.filterMap (ReadinessEvent.publishedFor harnessId)

/-- What was published belongs to a harness that went past it, and the results
of one harness have increasing generations. -/
structure Reported (s : Coordinator) : Prop where
  late : ∀ harnessId generation, generation ∈ s.publishedOf harnessId →
    At s.candidates (generation, harnessId) Task.late
  increasing : ∀ harnessId, (s.publishedOf harnessId).Pairwise (· < ·)

theorem Reported.congr (h : Reported s)
    (hpublished : ∀ harnessId, t.publishedOf harnessId = s.publishedOf harnessId)
    (hlate : ∀ key, At s.candidates key Task.late →
      At t.candidates key Task.late) : Reported t where
  late harnessId generation hmem :=
    hlate _ (h.late harnessId generation (hpublished harnessId ▸ hmem))
  increasing harnessId := hpublished harnessId ▸ h.increasing harnessId

theorem at_late_move {candidate : Candidate} {task : Task}
    (h : s.candidates.get? key = some candidate)
    (hlate : candidate.task.late → task.late) (key' : ℕ × String)
    (hat : At s.candidates key' Task.late) :
    At (s.move key task).candidates key' Task.late := by
  by_cases hkey : key' = key
  · subst hkey
    obtain ⟨found, hfound, htask⟩ := hat
    obtain rfl : candidate = found := by simpa [h] using hfound
    exact (at_move_self h).mpr (hlate htask)
  · exact (at_move_of_ne hkey).mpr hat

theorem publishedFor_eq_none {events : List ReadinessEvent} (harnessId : String)
    (h : ∀ event ∈ events, ∀ update, event ≠ .published update) :
    events.filterMap (ReadinessEvent.publishedFor harnessId) = [] := by
  refine List.filterMap_eq_nil_iff.mpr fun event hevent => ?_
  cases event with
  | published update => exact absurd rfl (h _ hevent update)
  | _ => rfl

theorem ReadinessEvent.isCheck.not_published {events : List ReadinessEvent}
    (h : ∀ event ∈ events, event.isCheck) :
    ∀ event ∈ events, ∀ update, event ≠ .published update := by
  rintro event hevent update rfl
  exact h _ hevent

/-- A result is published only as the latest of its harness. -/
theorem lt_of_publishedOf (h : Reported s) (hrooted : Rooted setup s)
    {candidate : Candidate} (hcandidate : s.candidates.get? key = some candidate)
    (hearlier : ¬ candidate.task.late)
    (hlatest : s.harnessGenerations.get? key.2 = some key.1) {generation : ℕ}
    (hmem : generation ∈ s.publishedOf key.2) : generation < key.1 := by
  obtain ⟨other, hother, hlate⟩ := h.late key.2 generation hmem
  obtain ⟨latest, hgeneration, hle⟩ := hrooted.latest _ other hother
  obtain rfl : latest = key.1 := by
    simpa [hlatest] using hgeneration.symm
  refine lt_of_le_of_ne hle ?_
  rintro rfl
  obtain rfl : candidate = other := by simpa [hcandidate] using hother
  exact hearlier hlate

theorem of_current {generation : ℕ} {harnessId : String} {routes : List Route}
    {signal : Option SignalId}
    (h : s.current generation harnessId routes signal = true) :
    s.harnessGenerations.get? harnessId = some generation ∧
      s.fired signal = false ∧ ∃ route ∈ routes, s.routeCurrent route = true := by
  rw [current, Bool.and_eq_true] at h
  obtain ⟨hlatest, hguard⟩ := h
  rw [guardCurrent, Bool.and_eq_true, List.any_eq_true] at hguard
  exact ⟨of_decide_eq_true hlatest, by simpa using hguard.1, hguard.2⟩

theorem Reported.step (h : Reported s) (hrooted : Rooted setup s)
    (hstep : Steps setup s t) : Reported t := by
  cases hstep with
  | idle => exact h
  | takeUp _ =>
      exact h.congr (fun _ => rfl) fun key hat =>
        (at_takeUp hrooted (fun hP => hP) key).mpr hat
  | environment _ _ => exact h.congr (fun _ => rfl) fun _ hat => hat
  | recipes _ => exact h.congr (fun _ => rfl) fun _ hat => hat
  | conclude _ _ => exact h.congr (fun _ => rfl) fun _ hat => hat
  | @advance key candidate evaluation task publication inFlight notes
      publishedGenerations preparing hcandidate hevaluation hadvance hrows =>
      -- Nothing is published while the other tasks go on.
      have hquiet : (∀ event ∈ notes, ∀ update, event ≠ .published update) →
          (candidate.task.late → task.late) → Reported { s.move key task with
            publication := publication
            inFlight := inFlight
            journal := s.journal ++ notes
            publishedGenerations := publishedGenerations
            preparing := preparing } := by
        intro hnotes hlate
        refine h.congr (fun harnessId => ?_) (at_late_move hcandidate hlate)
        unfold publishedOf
        rw [List.filterMap_append, publishedFor_eq_none harnessId hnotes,
          List.append_nil]
      cases hadvance with
      | wait hearly _ _ hnotes =>
          exact hquiet (ReadinessEvent.isCheck.not_published hnotes)
            fun hlate => absurd hlate hearly.not_late
      | drop hearly _ hnotes =>
          exact hquiet (ReadinessEvent.isCheck.not_published hnotes)
            fun _ => trivial
      | chain hearly _ hnotes =>
          exact hquiet (ReadinessEvent.isCheck.not_published hnotes)
            fun hlate => absurd hlate hearly.not_late
      | pass _ _ _ _ => exact hquiet (by simp) fun _ => trivial
      | answer _ _ hevent =>
          refine hquiet ?_ fun _ => trivial
          rintro event hmem update rfl
          rw [← List.mem_singleton.mp hmem] at hevent
          rcases hevent with hsame | hsame <;> cases hsame
      | settle _ => exact hquiet (by simp) fun _ => trivial
      | @dispatch update rest htask _ _ hcurrent =>
          have hof := (hrooted.held key candidate hcandidate).1
          rw [htask] at hof
          obtain ⟨hgeneration, hharness⟩ : update.result.Of key := hof
          have hlatest := (of_current hcurrent).1
          have hearlier : ¬ candidate.task.late := by
            rw [htask]
            exact fun hP => hP
          have hpublished : ∀ harnessId,
              (s.journal ++ [ReadinessEvent.published update]).filterMap
                  (ReadinessEvent.publishedFor harnessId) =
                s.publishedOf harnessId ++
                  if key.2 = harnessId then [key.1] else [] := by
            intro harnessId
            rw [List.filterMap_append]
            by_cases hsame : key.2 = harnessId
            · simp [publishedOf, ReadinessEvent.publishedFor, hharness,
                hgeneration, hsame]
            · simp [publishedOf, ReadinessEvent.publishedFor, hharness, hsame]
          constructor
          · intro harnessId generation hmem
            change generation ∈ List.filterMap _ _ at hmem
            rw [hpublished] at hmem
            rcases List.mem_append.mp hmem with hold | hnew
            · apply @at_late_move s key candidate (.publishing update) hcandidate
              · exact fun _ => trivial
              · exact h.late harnessId generation hold
            · split at hnew
              next hsame =>
                obtain rfl := List.mem_singleton.mp hnew
                rw [← hsame]
                exact (at_move_self hcandidate).mpr trivial
              next => cases hnew
          · intro harnessId
            change (List.filterMap _ _).Pairwise _
            rw [hpublished]
            refine List.pairwise_append.mpr ⟨h.increasing harnessId, ?_, ?_⟩
            · split <;> simp
            · intro generation hmem other hother
              split at hother
              next hsame =>
                obtain rfl := List.mem_singleton.mp hother
                subst hsame
                exact lt_of_publishedOf h hrooted hcandidate hearlier hlatest hmem
              next => cases hother

/-! ## Shown preparations -/

/-- A preparation that is shown belongs to an evaluation that goes on. -/
def Shown (s : Coordinator) : Prop :=
  ∀ harnessId owner, s.preparing.get? harnessId = some owner →
    (∃ candidate, s.candidates.get? (owner.generation, harnessId) =
      some candidate) ∧
    ∃ evaluation, s.evaluations.get? owner.generation = some evaluation ∧
      evaluation.reply = none

theorem mem_harnessesOf {harnessId : String} {generation : ℕ}
    {candidate : Candidate}
    (h : s.candidates.get? (generation, harnessId) = some candidate) :
    (harnessId, candidate) ∈ s.harnessesOf generation :=
  List.mem_filterMap.mpr ⟨_, Keyed.mem_rows_of_get? h, if_pos rfl⟩

theorem Shown.step (h : Shown s) (hrooted : Rooted setup s)
    (hstep : Steps setup s t) : Shown t := by
  cases hstep with
  | idle => exact h
  | takeUp _ =>
      intro harnessId owner howner
      rcases Keyed.get?_putAll_cases howner with hnew | ⟨-, hold⟩
      · obtain ⟨taken, htaken, hentry⟩ := List.mem_map.mp hnew
        obtain ⟨rfl, rfl⟩ := Prod.mk.inj hentry
        refine ⟨⟨⟨taken.2, .preparing⟩, Keyed.get?_putAll_of_mem ?_
          (List.mem_map.mpr ⟨taken, htaken, rfl⟩)⟩, _, Keyed.get?_put_self _ _ _,
          rfl⟩
        rw [List.map_map]
        refine List.Nodup.of_map Prod.snd ?_
        rw [List.map_map]
        exact nodup_candidateNames s _
      · obtain ⟨⟨candidate, hcandidate⟩, evaluation, hevaluation, hreply⟩ :=
          h harnessId owner hold
        refine ⟨⟨candidate, takeUp_old hrooted hcandidate⟩, evaluation,
          (Keyed.get?_put_of_ne _ _ ?_).trans hevaluation, hreply⟩
        have hle := hrooted.numbered _ evaluation hevaluation
        omega
  | environment _ _ => exact h
  | @recipes generation evaluation recipeId answer hevaluation =>
      intro harnessId owner howner
      obtain ⟨hcandidate, found, hfound, hreply⟩ := h harnessId owner howner
      refine ⟨hcandidate, ?_⟩
      change ∃ other, (s.evaluations.put generation _).get? owner.generation =
        some other ∧ _
      rw [Keyed.get?_put]
      split
      next hsame =>
        obtain rfl : evaluation = found := by
          simpa [hsame, hevaluation] using hfound
        exact ⟨_, rfl, hreply⟩
      next => exact ⟨found, hfound, hreply⟩
  | @advance key candidate evaluation task publication inFlight notes
      publishedGenerations preparing hcandidate hevaluation hadvance hrows =>
      intro harnessId owner howner
      obtain ⟨⟨old, hold⟩, hshown⟩ := h harnessId owner
        (Keyed.get?_of_mem_rows (hrows (Keyed.mem_rows_of_get? howner)))
      obtain ⟨candidate', hcandidate', -⟩ :=
        @get?_move_of_some s key task (owner.generation, harnessId) old hold
      exact ⟨⟨candidate', hcandidate'⟩, hshown⟩
  | @conclude generation evaluation hevaluation hended =>
      intro harnessId owner howner
      obtain ⟨hkept, hother⟩ := Keyed.get?_keep_of_eq_some howner
      obtain ⟨⟨candidate, hcandidate⟩, found, hfound, hreply⟩ :=
        h harnessId owner hkept
      have hne : owner.generation ≠ generation := by
        intro hsame
        have hmem : harnessId ∈ (s.harnessesOf generation).map Prod.fst :=
          List.mem_map.mpr ⟨_, mem_harnessesOf (hsame ▸ hcandidate), rfl⟩
        simp [hmem, hsame] at hother
      exact ⟨⟨candidate, hcandidate⟩, found,
        (Keyed.get?_put_of_ne _ _ hne).trans hfound, hreply⟩

/-! ## Turns -/

/-- The journal is one of publications that take turns. -/
def Turned (s : Coordinator) : Prop :=
  s.journal.foldlM ReadinessEvent.turn none = some s.inFlight

theorem foldlM_turn_checks {notes : List ReadinessEvent}
    (hnotes : ∀ event ∈ notes, event.isCheck) (inFlight : Option (ℕ × String)) :
    notes.foldlM ReadinessEvent.turn inFlight = some inFlight := by
  induction notes with
  | nil => rfl
  | cons event rest ih =>
      have hevent := hnotes event List.mem_cons_self
      have hrest := ih fun other hother => hnotes other (.tail _ hother)
      cases event with
      | checked generation harnessId => exact hrest
      | _ => exact hevent.elim

/-- The notes of an advance continue the turns. -/
theorem Advance.turn {candidate : Candidate} {signal : Option SignalId}
    {task : Task} {publication : List (ℕ × String)}
    {inFlight : Option (ℕ × String)} {notes : List ReadinessEvent}
    (h : Advance s key candidate signal task publication inFlight notes)
    (hof : candidate.task.Of key) :
    notes.foldlM ReadinessEvent.turn s.inFlight = some inFlight := by
  cases h with
  | wait _ _ _ hnotes => exact foldlM_turn_checks hnotes _
  | drop _ _ hnotes => exact foldlM_turn_checks hnotes _
  | chain _ _ hnotes => exact foldlM_turn_checks hnotes _
  | @dispatch update rest htask hidle _ _ =>
      rw [htask] at hof
      obtain ⟨hgeneration, hharness⟩ : update.result.Of key := hof
      simp [ReadinessEvent.turn, hidle, hgeneration, hharness]
  | pass _ hidle _ _ => simp [hidle]
  | answer _ hflight hevent =>
      rcases hevent with hsame | hsame <;>
        simp [hsame, ReadinessEvent.turn, hflight]
  | settle _ => rfl

theorem Turned.step (h : Turned s) (hrooted : Rooted setup s)
    (hstep : Steps setup s t) : Turned t := by
  cases hstep with
  | advance hcandidate _ hadvance _ =>
      have hof := (hrooted.held _ _ hcandidate).1
      unfold Turned
      rw [List.foldlM_append, h]
      exact hadvance.turn hof
  | _ => exact h

/-! ## Dispatched results -/

/-- The result is dispatched: its harness waits for its turn with it, its
evaluation is the latest of the harness and goes on, one of its routes is
current, and no other publication is in flight. -/
structure Dispatches (s : Coordinator) (update : HarnessUpdate) : Prop where
  candidate : ∃ candidate evaluation,
    s.candidates.get? (update.result.generation, update.result.harnessId) =
        some candidate ∧
      s.evaluations.get? update.result.generation = some evaluation ∧
      candidate.task = .queued update.result ∧
      s.fired evaluation.signal = false ∧
      ∃ route ∈ candidate.routes, s.routeCurrent route = true
  latest : s.harnessGenerations.get? update.result.harnessId =
    some update.result.generation
  alone : s.inFlight = none

/-- A step only adds to the journal, and it adds the results it dispatches. -/
theorem Steps.journal (h : Steps setup s t) (hrooted : Rooted setup s) :
    ∃ notes, t.journal = s.journal ++ notes ∧
      ∀ update, ReadinessEvent.published update ∈ notes →
        s.Dispatches update := by
  have hnothing : t.journal = s.journal → ∃ notes,
      t.journal = s.journal ++ notes ∧
        ∀ update, ReadinessEvent.published update ∈ notes →
          s.Dispatches update :=
    fun hsame => ⟨[], by simpa using hsame, by simp⟩
  cases h with
  | idle => exact hnothing rfl
  | takeUp _ => exact hnothing rfl
  | environment _ _ => exact hnothing rfl
  | recipes _ => exact hnothing rfl
  | conclude _ _ => exact hnothing rfl
  | @advance key candidate evaluation task publication inFlight notes
      publishedGenerations preparing hcandidate hevaluation hadvance hrows =>
      refine ⟨notes, rfl, fun update hupdate => ?_⟩
      cases hadvance with
      | wait _ _ _ hnotes => exact (hnotes _ hupdate).elim
      | drop _ _ hnotes => exact (hnotes _ hupdate).elim
      | chain _ _ hnotes => exact (hnotes _ hupdate).elim
      | pass _ _ _ _ => simp at hupdate
      | answer _ _ hevent =>
          rw [← List.mem_singleton.mp hupdate] at hevent
          rcases hevent with hsame | hsame <;> simp at hsame
      | settle _ => simp at hupdate
      | @dispatch other rest htask hidle _ hcurrent =>
          obtain rfl : update = other := by simpa using hupdate
          have hof := (hrooted.held key candidate hcandidate).1
          rw [htask] at hof
          obtain ⟨hgeneration, hharness⟩ : update.result.Of key := hof
          obtain ⟨hlatest, hlive, hroute⟩ := of_current hcurrent
          constructor
          · rw [hgeneration, hharness]
            exact ⟨candidate, evaluation, hcandidate, hevaluation, htask, hlive,
              hroute⟩
          · rw [hgeneration, hharness]
            exact hlatest
          · exact hidle

/-! ## Every reachable coordinator -/

/-- The invariants together. -/
structure Sound (setup : Setup) (s : Coordinator) : Prop where
  rooted : Rooted setup s
  queued : Queued s
  reported : Reported s
  shown : Shown s
  turned : Turned s

theorem sound_create (aborted : List SignalId) (lapsed : List LifecycleId) :
    Sound setup (create aborted lapsed) where
  rooted := by constructor <;> simp [create, Held]
  queued := by constructor <;> simp [create, At]
  reported := by constructor <;> simp [create, publishedOf]
  shown := by simp [create, Shown]
  turned := by simp [create, Turned]

theorem Sound.step (h : Sound setup s) (hstep : Steps setup s t) :
    Sound setup t where
  rooted := h.rooted.step hstep
  queued := h.queued.step h.rooted hstep
  reported := h.reported.step h.rooted hstep
  shown := h.shown.step h.rooted hstep
  turned := h.turned.step h.rooted hstep

theorem Sound.next (h : Sound setup s) {label : Label}
    (hnext : s.next setup label = some t) : Sound setup t :=
  h.step (steps_of_next h.rooted.held hnext)

end Coordinator

/-- The coordinator takes one of its steps, or none. -/
theorem ReadinessState.steps_of_next {setup : Setup} {s t : ReadinessState}
    {label : ReadinessLabel} (hheld : s.coordinator.Held)
    (h : s.next setup label = some t) :
    Coordinator.Steps setup s.coordinator t.coordinator := by
  cases label with
  | coordinator label =>
      simp only [next, Option.bind_eq_bind, Option.bind_eq_some_iff] at h
      obtain ⟨coordinator, hnext, hsame⟩ := h
      obtain rfl := Option.some.inj hsame
      exact Coordinator.steps_of_next hheld hnext
  | startPostUpgrade id signal recipeUpdates repairs =>
      simp only [next] at h
      split at h
      · cases h
      · obtain rfl := Option.some.inj h
        exact .idle
  | postUpgrade id answer =>
      simp only [next, Option.bind_eq_bind, Option.bind_eq_some_iff] at h
      obtain ⟨post, -, answered, -, hsame⟩ := h
      obtain rfl := Option.some.inj hsame
      cases answered.2 with
      | none => exact .idle
      | some request => exact Coordinator.steps_of_evaluate request

theorem sound_of_reachable {setup : Setup} {s : ReadinessState}
    (hs : (readinessSystem setup).Reachable s) :
    s.coordinator.Sound setup := by
  refine hs.invariant (P := fun s => s.coordinator.Sound setup) ?_ ?_
  · rintro _ ⟨aborted, lapsed, rfl⟩
    exact Coordinator.sound_create aborted lapsed
  · intro a label b _ ha hstep
    exact ha.step (ReadinessState.steps_of_next ha.rooted.held hstep)

end HarnessReadiness

end RelayerGraph
