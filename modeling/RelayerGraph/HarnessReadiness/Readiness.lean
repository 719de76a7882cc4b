import RelayerGraph.HarnessReadiness.Invariants
import RelayerGraph.Foundation.MaximalRuns

/-!
# Readiness over whole runs

Publications take turns, and each harness has its results published in the
order of their generations.  Once nothing but answers comes, a bounded number
of them brings every evaluation to its end, whatever they are.
-/

namespace RelayerGraph

open Foundation

namespace HarnessReadiness

/-! ## What is left to be answered -/

def Task.rank : Task → ℕ
  | .preparing => 6
  | .checking => 5
  | .reporting _ => 4
  | .queued _ => 3
  | .publishing _ => 2
  | .settled _ => 1
  | .ended _ => 0

def Preparation.rank (preparation : Preparation) : ℕ :=
  if preparation = .running then 1 else 0

def Evaluation.rank (evaluation : Evaluation) : ℕ :=
  evaluation.recipes.total Preparation.rank +
    if evaluation.reply = none then 1 else 0

/-- The step goes on with what an evaluation awaits. -/
def Label.answers : Label → Bool
  | .evaluate _ => false
  | .abort _ => false
  | .lapse _ => false
  | _ => true

namespace Coordinator

variable {setup : Setup} {s t : Coordinator} {key : ℕ × String}

/-- A bound of the answers that the evaluations still await. -/
def work (s : Coordinator) : ℕ :=
  s.candidates.total (fun candidate => candidate.task.rank) +
    s.evaluations.total Evaluation.rank

theorem work_lt_of_move {candidate : Candidate} {task : Task}
    (hcandidate : s.candidates.get? key = some candidate)
    (hrank : task.rank < candidate.task.rank)
    (hcandidates : t.candidates = (s.move key task).candidates)
    (hevaluations : t.evaluations = s.evaluations) : t.work < s.work := by
  have hput : (s.move key task).candidates =
      s.candidates.put key { candidate with task := task } :=
    Keyed.mapRows_eq_put
      (fun row : Candidate => { row with task := task }) hcandidate
  unfold work
  rw [hcandidates, hput, hevaluations]
  apply Nat.add_lt_add_right
  exact Keyed.total_put_lt hcandidate hrank

theorem work_lt_of_put {generation : ℕ} {evaluation evaluation' : Evaluation}
    (hevaluation : s.evaluations.get? generation = some evaluation)
    (hrank : evaluation'.rank < evaluation.rank)
    (hcandidates : t.candidates = s.candidates)
    (hevaluations : t.evaluations =
      s.evaluations.put generation evaluation') : t.work < s.work := by
  unfold work
  rw [hcandidates, hevaluations]
  apply Nat.add_lt_add_left
  exact Keyed.total_put_lt hevaluation hrank

/-- A failed preparation or check leaves less to be answered. -/
theorem work_lt_of_setupFailed {candidate : Candidate}
    {configuration : Configuration} {guard : Bool} {code : Option String}
    {noted : Coordinator}
    (hcandidate : s.candidates.get? key = some candidate)
    (hrank : 4 < candidate.task.rank)
    (hcandidates : noted.candidates = s.candidates)
    (hevaluations : noted.evaluations = s.evaluations) :
    (noted.setupFailed setup key configuration guard code).work < s.work := by
  have hmoved : ∀ task, (noted.move key task).candidates =
      (s.move key task).candidates := by
    intro task
    unfold move
    rw [hcandidates]
  unfold setupFailed
  split
  · refine work_lt_of_move hcandidate ?_ (hmoved _) hevaluations
    exact hrank
  · refine work_lt_of_move hcandidate ?_ (hmoved _) hevaluations
    exact Nat.zero_lt_of_lt hrank

/-- Every answer leaves less to be answered. -/
theorem work_lt_of_next {label : Label} (hanswers : label.answers = true)
    (h : s.next setup label = some t) : t.work < s.work := by
  cases label with
  | evaluate request => simp [Label.answers] at hanswers
  | abort signal => simp [Label.answers] at hanswers
  | lapse lifecycle => simp [Label.answers] at hanswers
  | recipePrepared generation recipeId answer =>
      simp only [next, recipePrepared, Option.bind_eq_bind,
        Option.bind_eq_some_iff] at h
      obtain ⟨evaluation, hevaluation, h⟩ := h
      split at h
      next hrunning =>
        obtain rfl := Option.some.inj h
        refine work_lt_of_put hevaluation ?_ rfl rfl
        apply Nat.add_lt_add_right
        apply Keyed.total_put_lt hrunning.1
        simp [Preparation.rank, hrunning.2]
      next => simp at h
  | resume key =>
      simp only [next, resume, Option.bind_eq_bind,
        Option.bind_eq_some_iff] at h
      obtain ⟨evaluation, -, candidate, hcandidate, configuration, -, h⟩ := h
      split at h
      next htask _ =>
        obtain rfl := Option.some.inj h
        refine work_lt_of_move hcandidate ?_ rfl rfl
        rw [htask]
        split <;> decide
      next htask _ =>
        obtain rfl := Option.some.inj h
        refine work_lt_of_setupFailed hcandidate ?_ rfl rfl
        rw [htask]
        decide
      next => simp at h
  | checkFinished key answer =>
      simp only [next, checkFinished, Option.bind_eq_bind,
        Option.bind_eq_some_iff] at h
      obtain ⟨evaluation, -, candidate, hcandidate, configuration, -, h⟩ := h
      split at h
      next htask =>
        obtain rfl := Option.some.inj h
        refine work_lt_of_move hcandidate ?_ rfl rfl
        rw [htask]
        exact Nat.lt_of_sub_pos Nat.two_pos
      next htask =>
        obtain rfl := Option.some.inj h
        refine work_lt_of_setupFailed hcandidate ?_ rfl rfl
        rw [htask]
        decide
      next => simp at h
  | diagnosticWritten key =>
      simp only [next, diagnosticWritten, Option.bind_eq_bind,
        Option.bind_eq_some_iff] at h
      obtain ⟨candidate, hcandidate, h⟩ := h
      split at h
      next htask =>
        obtain rfl := Option.some.inj h
        refine work_lt_of_move hcandidate ?_ rfl rfl
        rw [htask]
        exact Nat.lt_succ_self 3
      next => simp at h
  | takeTurn =>
      simp only [next, takeTurn] at h
      split at h
      next key rest _ _ =>
        simp only [Option.bind_eq_bind, Option.bind_eq_some_iff] at h
        obtain ⟨evaluation, -, candidate, hcandidate, configuration, -, h⟩ := h
        split at h
        next htask =>
          split at h
          · obtain rfl := Option.some.inj h
            refine work_lt_of_move hcandidate ?_ rfl rfl
            rw [htask]
            exact Nat.lt_succ_self 2
          · obtain rfl := Option.some.inj h
            refine work_lt_of_move hcandidate ?_ rfl rfl
            rw [htask]
            exact Nat.lt_of_sub_pos Nat.two_pos
        next => simp at h
      next => simp at h
  | publicationAnswered answer =>
      simp only [next, publicationAnswered, Option.bind_eq_bind,
        Option.bind_eq_some_iff] at h
      obtain ⟨key, -, evaluation, -, candidate, hcandidate, h⟩ := h
      split at h
      next htask =>
        obtain rfl := Option.some.inj h
        refine work_lt_of_move hcandidate ?_ rfl rfl
        rw [htask]
        exact Nat.lt_succ_self 1
      next htask =>
        obtain rfl := Option.some.inj h
        refine work_lt_of_move hcandidate ?_ rfl rfl
        rw [htask]
        exact Nat.lt_succ_self 1
      next => simp at h
  | publicationSettled key =>
      simp only [next, publicationSettled, Option.bind_eq_bind,
        Option.bind_eq_some_iff] at h
      obtain ⟨candidate, hcandidate, h⟩ := h
      split at h
      next htask =>
        obtain rfl := Option.some.inj h
        refine work_lt_of_move hcandidate ?_ rfl rfl
        rw [htask]
        exact Nat.lt_succ_self 0
      next => simp at h
  | conclude generation =>
      simp only [next, conclude, Option.bind_eq_bind,
        Option.bind_eq_some_iff] at h
      obtain ⟨evaluation, hevaluation, h⟩ := h
      split at h
      next hended =>
        obtain rfl := Option.some.inj h
        refine work_lt_of_put hevaluation ?_ rfl rfl
        apply Nat.add_lt_add_left
        simp [hended.1]
      next => simp at h

/-! ## Something is answered as long as an evaluation goes on -/

/-- Some answer may come. -/
def Awaits (setup : Setup) (s : Coordinator) : Prop :=
  ∃ label, label.answers = true ∧ (s.next setup label).isSome = true

theorem Rooted.evaluation (h : Rooted setup s) {candidate : Candidate}
    (hcandidate : s.candidates.get? key = some candidate) :
    ∃ evaluation configuration,
      s.evaluations.get? key.1 = some evaluation ∧
      setup.configuration? key.2 = some configuration := by
  obtain ⟨-, evaluation, hevaluation⟩ := h.held key candidate hcandidate
  obtain ⟨configuration, hconfiguration⟩ :=
    Option.isSome_iff_exists.mp (h.configured key candidate hcandidate)
  exact ⟨evaluation, configuration, hevaluation, hconfiguration⟩

theorem awaits_of_preparing (h : Rooted setup s) {candidate : Candidate}
    (hcandidate : s.candidates.get? key = some candidate)
    (htask : candidate.task = .preparing) : s.Awaits setup := by
  obtain ⟨evaluation, configuration, hevaluation, hconfiguration⟩ :=
    h.evaluation hcandidate
  cases hrecipe : setup.runtimeRequirements configuration.implementation with
  | none =>
      refine ⟨.resume key, rfl, ?_⟩
      simp [next, resume, hevaluation, hcandidate, hconfiguration, hrecipe,
        htask]
  | some recipeId =>
      have hsome := h.recipes key candidate configuration recipeId evaluation
        hcandidate hconfiguration hrecipe hevaluation
      obtain ⟨preparation, hpreparation⟩ := Option.isSome_iff_exists.mp hsome
      cases preparation with
      | running =>
          -- The shared preparation of the recipe has not settled.
          refine ⟨.recipePrepared key.1 recipeId .prepared, rfl, ?_⟩
          simp [next, recipePrepared, hevaluation, hpreparation]
      | prepared =>
          refine ⟨.resume key, rfl, ?_⟩
          simp [next, resume, hevaluation, hcandidate, hconfiguration, hrecipe,
            htask, hpreparation]
      | failed code =>
          refine ⟨.resume key, rfl, ?_⟩
          simp [next, resume, hevaluation, hcandidate, hconfiguration, hrecipe,
            htask, hpreparation]

theorem awaits_of_publishing (h : Sound setup s) {candidate : Candidate}
    (hcandidate : s.candidates.get? key = some candidate)
    (htask : candidate.task.isPublishing) : s.Awaits setup := by
  obtain ⟨evaluation, configuration, hevaluation, -⟩ :=
    h.rooted.evaluation hcandidate
  have hflight := (h.queued.flying key).mpr ⟨candidate, hcandidate, htask⟩
  refine ⟨.publicationAnswered .accepted, rfl, ?_⟩
  cases hpublishing : candidate.task with
  | publishing update =>
      simp [next, publicationAnswered, hflight, hevaluation, hcandidate,
        hpublishing]
  | _ =>
      rw [hpublishing] at htask
      exact htask.elim

/-- A chained publication takes its turn once those before it are through. -/
theorem awaits_of_queued (h : Sound setup s) {candidate : Candidate}
    (hcandidate : s.candidates.get? key = some candidate)
    (htask : candidate.task.isQueued) : s.Awaits setup := by
  have hchained := (h.queued.chained key).mpr ⟨candidate, hcandidate, htask⟩
  cases hflight : s.inFlight with
  | some flying =>
      obtain ⟨other, hother, hpublishing⟩ := (h.queued.flying flying).mp hflight
      exact awaits_of_publishing h hother hpublishing
  | none =>
      obtain ⟨first, rest, hchain⟩ := List.exists_cons_of_ne_nil
        (List.ne_nil_of_mem hchained)
      obtain ⟨other, hother, hqueued⟩ := (h.queued.chained first).mp
        (hchain ▸ List.mem_cons_self)
      obtain ⟨evaluation, configuration, hevaluation, hconfiguration⟩ :=
        h.rooted.evaluation hother
      refine ⟨.takeTurn, rfl, ?_⟩
      cases hfirst : other.task with
      | queued result =>
          simp only [next, takeTurn, hflight, hchain, hevaluation, hother,
            hconfiguration, hfirst, Option.bind_eq_bind, Option.bind_some]
          split <;> rfl
      | _ =>
          rw [hfirst] at hqueued
          exact hqueued.elim

/-- A harness that has not ended awaits an answer, or its turn. -/
theorem awaits_of_task (h : Sound setup s) {candidate : Candidate}
    (hcandidate : s.candidates.get? key = some candidate)
    (htask : (Task.outcome? candidate.task) = none) : s.Awaits setup := by
  obtain ⟨evaluation, configuration, hevaluation, hconfiguration⟩ :=
    h.rooted.evaluation hcandidate
  cases hcase : candidate.task with
  | preparing => exact awaits_of_preparing h.rooted hcandidate hcase
  | checking =>
      refine ⟨.checkFinished key (.failed none), rfl, ?_⟩
      simp [next, checkFinished, hevaluation, hcandidate, hconfiguration, hcase]
  | reporting result =>
      refine ⟨.diagnosticWritten key, rfl, ?_⟩
      simp [next, diagnosticWritten, hcandidate, hcase]
  | queued result =>
      apply awaits_of_queued h hcandidate
      rw [hcase]
      trivial
  | publishing update =>
      apply awaits_of_publishing h hcandidate
      rw [hcase]
      trivial
  | settled outcome =>
      refine ⟨.publicationSettled key, rfl, ?_⟩
      simp [next, publicationSettled, hcandidate, hcase]
  | ended outcome => simp [hcase, Task.outcome?] at htask

/-! ## Quiet coordinators -/

/-- Every evaluation has returned, nothing is published or chained to be, and
no preparation is shown. -/
structure Quiet (s : Coordinator) : Prop where
  returned : ∀ generation evaluation,
    s.evaluations.get? generation = some evaluation → evaluation.reply.isSome
  ended : ∀ key candidate, s.candidates.get? key = some candidate →
    (Task.outcome? candidate.task).isSome
  unchained : s.publication = []
  idle : s.inFlight = none
  hidden : ∀ providerId, s.isPreparingForProvider providerId = false

theorem quiet_of_not_awaits (h : Sound setup s) (hquiet : ¬ s.Awaits setup) :
    Quiet s := by
  have hended : ∀ key candidate, s.candidates.get? key = some candidate →
      (Task.outcome? candidate.task).isSome := by
    intro key candidate hcandidate
    rw [Option.isSome_iff_ne_none]
    exact fun hnone => hquiet (awaits_of_task h hcandidate hnone)
  have hreturned : ∀ generation evaluation,
      s.evaluations.get? generation = some evaluation →
        evaluation.reply.isSome := by
    intro generation evaluation hevaluation
    rw [Option.isSome_iff_ne_none]
    intro hnone
    refine hquiet ⟨.conclude generation, rfl, ?_⟩
    have hall : ∀ harness ∈ s.harnessesOf generation,
        (Task.outcome? harness.2.task).isSome := by
      intro harness hharness
      obtain ⟨row, hrow, hsome⟩ := List.mem_filterMap.mp hharness
      split at hsome
      · obtain rfl := Option.some.inj hsome
        exact hended row.1 row.2 (Keyed.get?_of_mem_rows hrow)
      · simp at hsome
    simp only [next, conclude, hevaluation, Option.bind_eq_bind,
      Option.bind_some]
    rw [if_pos ⟨hnone, hall⟩]
    rfl
  constructor
  · exact hreturned
  · exact hended
  · apply List.eq_nil_iff_forall_not_mem.mpr
    intro key hkey
    obtain ⟨candidate, hcandidate, hqueued⟩ := (h.queued.chained key).mp hkey
    exact hquiet (awaits_of_queued h hcandidate hqueued)
  · by_contra hflight
    obtain ⟨key, hkey⟩ := Option.ne_none_iff_exists'.mp hflight
    obtain ⟨candidate, hcandidate, hpublishing⟩ := (h.queued.flying key).mp hkey
    exact hquiet (awaits_of_publishing h hcandidate hpublishing)
  · intro providerId
    apply List.any_eq_false.mpr
    rintro ⟨harnessId, owner⟩ howner
    obtain ⟨-, evaluation, hevaluation, hreply⟩ :=
      h.shown harnessId owner (Keyed.get?_of_mem_rows howner)
    have hsome := hreturned _ evaluation hevaluation
    simp [hreply] at hsome

/-- A run of answers. -/
def answerNext (setup : Setup) (s : Coordinator) (label : Label) :
    Option Coordinator :=
  if label.answers then s.next setup label else none

theorem Sound.answers (h : Sound setup s) {labels : List Label}
    (hrun : labels.foldlM (answerNext setup) s = some t) :
    Sound setup t ∧ labels.length + t.work ≤ s.work := by
  refine length_add_le_of_foldlM (P := Sound setup) ?_ h hrun
  intro a label b ha hnext
  unfold answerNext at hnext
  split at hnext
  next hanswers => exact ⟨ha.next hnext, work_lt_of_next hanswers hnext⟩
  next => simp at hnext

end Coordinator

/-! ## Whole runs -/

section

variable {setup : Setup} {s : ReadinessState}

/-- Publications take turns, the results of one harness come with increasing
generations, and a step publishes no result but of the latest evaluation of a
harness, which still goes on and has a current route. -/
theorem publications_in_order (hs : (readinessSystem setup).Reachable s) :
    s.coordinator.journal.foldlM ReadinessEvent.turn none =
        some s.coordinator.inFlight ∧
      (∀ harnessId,
        (s.coordinator.publishedOf harnessId).Pairwise (· < ·)) ∧
      ∀ label t, s.next setup label = some t → ∃ notes,
        t.coordinator.journal = s.coordinator.journal ++ notes ∧
          ∀ update, ReadinessEvent.published update ∈ notes →
            s.coordinator.Dispatches update := by
  have hsound := sound_of_reachable hs
  refine ⟨hsound.turned, hsound.reported.increasing, ?_⟩
  intro label t hnext
  apply Coordinator.Steps.journal _ hsound.rooted
  exact ReadinessState.steps_of_next hsound.rooted.held hnext

/-- However the evaluations of a coordinator are answered, a bounded number of
answers brings them to their end, and nothing is left in preparation. -/
theorem answers_settle (hs : (readinessSystem setup).Reachable s)
    (labels : List Label) (c : Coordinator)
    (hrun : labels.foldlM (Coordinator.answerNext setup) s.coordinator =
      some c) :
    labels.length + c.work ≤ s.coordinator.work ∧
      (¬ c.Awaits setup → c.Quiet) := by
  obtain ⟨hsound, hbound⟩ := (sound_of_reachable hs).answers hrun
  exact ⟨hbound, Coordinator.quiet_of_not_awaits hsound⟩

end

/-! ## One evaluation of one harness -/

namespace Sample

def configuration : Configuration where
  name := "codex"
  implementation := "cli"
  executionAccessContracts := some ["api-key"]
  modelRules := none

theorem names : ([configuration].map Configuration.name).Nodup :=
  List.nodup_singleton _

def oneHarness : Setup where
  configurations := [configuration]
  names := names
  digestConfiguration := fun configuration => configuration.name
  runtimeRequirements := fun _ => none
  regexTest := fun _ _ => true

def request : EvaluationRequest where
  trigger := "connect"
  source := .provider ⟨"openai", "openai", "api-key"⟩
    [⟨"gpt", none, none, none⟩]
  harnessIds := none
  signal := none

def start : ReadinessState := ⟨.create [] [], .empty⟩

/-- The evaluation is taken up and its check has finished. -/
def checkLabels : List ReadinessLabel :=
  [.coordinator (.evaluate request), .coordinator (.resume (1, "codex")),
    .coordinator (.checkFinished (1, "codex") (.result true none))]

def checked : ReadinessState :=
  (checkLabels.foldlM (ReadinessState.next oneHarness) start).getD start

theorem checked_reachable : (readinessSystem oneHarness).Reachable checked := by
  have hstart : (readinessSystem oneHarness).Reachable start :=
    .init ⟨[], [], rfl⟩
  have hrun : checkLabels.foldlM (ReadinessState.next oneHarness) start =
      some checked := by
    decide
  exact hstart.of_foldlM (fun _ _ _ h => h) hrun

/-- The rest of the evaluation. -/
def answers : List Label :=
  [.takeTurn, .publicationAnswered .accepted, .publicationSettled (1, "codex"),
    .conclude 1]

def settled : Coordinator :=
  (answers.foldlM (Coordinator.answerNext oneHarness) checked.coordinator).getD
    checked.coordinator

end Sample

theorem publications_in_order_checked :
    Sample.checked.coordinator.publication = [(1, "codex")] ∧
      Sample.checked.coordinator.journal.foldlM ReadinessEvent.turn none =
        some Sample.checked.coordinator.inFlight :=
  ⟨by decide, (publications_in_order Sample.checked_reachable).1⟩

theorem answers_settle_checked :
    Sample.checked.coordinator.publication = [(1, "codex")] ∧
      Sample.answers.length + Sample.settled.work ≤
        Sample.checked.coordinator.work :=
  ⟨by decide,
    (answers_settle Sample.checked_reachable Sample.answers Sample.settled
      (by decide)).1⟩

end HarnessReadiness

end RelayerGraph
