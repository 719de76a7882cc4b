import RelayerGraph.HarnessReadiness.PostUpgrade

/-!
# What a readiness step can do

A step of the coordinator takes a new evaluation up, changes its environment,
settles a recipe, advances one harness of one evaluation, or concludes an
evaluation.  An advance says all that happens to the harness, to the chain of
publications and to the journal, so that no later argument opens a step again.
-/

namespace RelayerGraph

open Foundation

namespace HarnessReadiness

/-- Nothing was published yet, nor chained to be. -/
def Task.early : Task → Prop
  | .preparing => True
  | .checking => True
  | .reporting _ => True
  | _ => False

/-- The result belongs to the harness of the evaluation. -/
def HarnessResult.Of (result : HarnessResult) (key : ℕ × String) : Prop :=
  result.generation = key.1 ∧ result.harnessId = key.2

/-- The results a task holds belong to its harness. -/
def Task.Of (key : ℕ × String) : Task → Prop
  | .reporting result => result.Of key
  | .queued result => result.Of key
  | .publishing update => update.result.Of key
  | _ => True

/-- The event notes that a check finished. -/
def ReadinessEvent.isCheck : ReadinessEvent → Prop
  | .checked _ _ => True
  | _ => False

namespace Coordinator

variable {setup : Setup} {s t : Coordinator}

/-- What an advance makes of the task, of the chain and its head in flight,
and what the journal notes of it. -/
inductive Advance (s : Coordinator) (key : ℕ × String) (candidate : Candidate)
    (signal : Option SignalId) : Task → List (ℕ × String) →
      Option (ℕ × String) → List ReadinessEvent → Prop
  | wait {task : Task} {notes : List ReadinessEvent} :
      candidate.task.early → task.early → task.Of key →
      (∀ event ∈ notes, event.isCheck) →
      Advance s key candidate signal task s.publication s.inFlight notes
  | drop {notes : List ReadinessEvent} :
      candidate.task.early → s.guardCurrent candidate.routes signal = false →
      (∀ event ∈ notes, event.isCheck) →
      Advance s key candidate signal (.ended .skipped) s.publication s.inFlight
        notes
  | chain {result : HarnessResult} {notes : List ReadinessEvent} :
      candidate.task.early → result.Of key → (∀ event ∈ notes, event.isCheck) →
      Advance s key candidate signal (.queued result) (s.publication ++ [key])
        s.inFlight notes
  | dispatch {update : HarnessUpdate} {rest : List (ℕ × String)} :
      candidate.task = .queued update.result → s.inFlight = none →
      s.publication = key :: rest →
      s.current key.1 key.2 candidate.routes signal = true →
      Advance s key candidate signal (.publishing update) rest (some key)
        [.published update]
  | pass {result : HarnessResult} {rest : List (ℕ × String)} :
      candidate.task = .queued result → s.inFlight = none →
      s.publication = key :: rest →
      s.current key.1 key.2 candidate.routes signal = false →
      Advance s key candidate signal (.settled .skipped) rest none []
  | answer {update : HarnessUpdate} {outcome : Outcome} {event : ReadinessEvent} :
      candidate.task = .publishing update → s.inFlight = some key →
      (event = .accepted key.1 key.2 ∨ event = .refused key.1 key.2) →
      Advance s key candidate signal (.settled outcome) s.publication none
        [event]
  | settle {outcome : Outcome} :
      candidate.task = .settled outcome →
      Advance s key candidate signal (.ended outcome) s.publication s.inFlight []

/-- What a step of the coordinator can do. -/
inductive Steps (setup : Setup) (s : Coordinator) : Coordinator → Prop
  | idle : Steps setup s s
  | takeUp {request : EvaluationRequest} :
      s.fired request.signal = false →
      Steps setup s
        (s.takeUp setup request (s.evaluationCandidates setup request))
  | environment {aborted : List SignalId} {lapsed : List LifecycleId} :
      s.aborted ⊆ aborted → s.lapsed ⊆ lapsed →
      Steps setup s { s with aborted := aborted, lapsed := lapsed }
  | recipes {generation : ℕ} {evaluation : Evaluation} {recipeId : String}
      {answer : Preparation} :
      s.evaluations.get? generation = some evaluation →
      Steps setup s { s with
        evaluations := s.evaluations.put generation { evaluation with
          recipes := evaluation.recipes.put recipeId answer } }
  | advance {key : ℕ × String} {candidate : Candidate}
      {evaluation : Evaluation} {task : Task}
      {publication : List (ℕ × String)} {inFlight : Option (ℕ × String)}
      {notes : List ReadinessEvent} {publishedGenerations : Keyed String ℕ}
      {preparing : Keyed String Preparing} :
      s.candidates.get? key = some candidate →
      s.evaluations.get? key.1 = some evaluation →
      Advance s key candidate evaluation.signal task publication inFlight
        notes →
      preparing.rows ⊆ s.preparing.rows →
      Steps setup s { s.move key task with
        publication := publication
        inFlight := inFlight
        journal := s.journal ++ notes
        publishedGenerations := publishedGenerations
        preparing := preparing }
  | conclude {generation : ℕ} {evaluation : Evaluation} :
      s.evaluations.get? generation = some evaluation →
      (∀ harness ∈ s.harnessesOf generation,
        (Task.outcome? harness.2.task).isSome) →
      Steps setup s ({ s with
        evaluations := s.evaluations.put generation { evaluation with
          reply := some (s.evaluationReply generation evaluation.signal) }
        }.stopPreparing generation ((s.harnessesOf generation).map Prod.fst))

variable {key : ℕ × String}

/-! ## Every step is one of these -/

theorem configuration?_name {name : String} {configuration : Configuration}
    (h : setup.configuration? name = some configuration) :
    configuration.name = name := by
  simpa using List.find?_some h

theorem harnessResult_of {configuration : Configuration} {available : Bool}
    {reason : Option UnavailableReason}
    (h : setup.configuration? key.2 = some configuration) :
    (harnessResult setup configuration key.1 available reason).Of key :=
  ⟨rfl, configuration?_name h⟩

/-- A move alone is the advance that leaves everything else. -/
theorem Steps.of_move {candidate : Candidate} {evaluation : Evaluation}
    {task : Task} {notes : List ReadinessEvent}
    (hcandidate : s.candidates.get? key = some candidate)
    (hevaluation : s.evaluations.get? key.1 = some evaluation)
    (hadvance : Advance s key candidate evaluation.signal task s.publication
      s.inFlight notes) :
    Steps setup s
      (({ s with journal := s.journal ++ notes } : Coordinator).move key task) :=
  .advance hcandidate hevaluation hadvance (List.Subset.refl _)

theorem Steps.of_setupFailed {candidate : Candidate} {evaluation : Evaluation}
    {configuration : Configuration} {notes : List ReadinessEvent}
    (hcandidate : s.candidates.get? key = some candidate)
    (hevaluation : s.evaluations.get? key.1 = some evaluation)
    (hconfiguration : setup.configuration? key.2 = some configuration)
    (hearly : candidate.task.early) (hnotes : ∀ event ∈ notes, event.isCheck)
    (code : Option String) :
    Steps setup s
      (({ s with journal := s.journal ++ notes } : Coordinator).setupFailed
        setup key configuration
        (s.guardCurrent candidate.routes evaluation.signal) code) := by
  unfold setupFailed
  cases hguard : s.guardCurrent candidate.routes evaluation.signal with
  | true =>
      have hresult : (harnessResult setup configuration key.1 false
          (unavailableReason code)).Of key := harnessResult_of hconfiguration
      exact .of_move hcandidate hevaluation
        (.wait hearly trivial hresult hnotes)
  | false =>
      exact .of_move hcandidate hevaluation (.drop hearly hguard hnotes)

theorem stopPreparing_rows_subset (generation : ℕ) (harnessIds : List String) :
    (s.stopPreparing generation harnessIds).preparing.rows ⊆
      s.preparing.rows :=
  fun _ hrow => (List.mem_filter.mp hrow).1

/-- Every harness belongs to an evaluation and holds a result of its own. -/
def Held (s : Coordinator) : Prop :=
  ∀ key candidate, s.candidates.get? key = some candidate →
    candidate.task.Of key ∧ ∃ evaluation, s.evaluations.get? key.1 = some evaluation

theorem steps_of_recipePrepared {generation : ℕ} {recipeId : String}
    {answer : Preparation}
    (h : s.recipePrepared generation recipeId answer = some t) :
    Steps setup s t := by
  simp only [recipePrepared, Option.bind_eq_bind, Option.bind_eq_some_iff] at h
  obtain ⟨evaluation, hevaluation, h⟩ := h
  split at h
  · obtain rfl := Option.some.inj h
    exact .recipes hevaluation
  · cases h

theorem steps_of_resume (h : s.resume setup key = some t) : Steps setup s t := by
  simp only [resume, Option.bind_eq_bind, Option.bind_eq_some_iff] at h
  obtain ⟨evaluation, hevaluation, candidate, hcandidate, configuration,
    hconfiguration, h⟩ := h
  have hnotes : ∀ event ∈ ([] : List ReadinessEvent), event.isCheck := by simp
  have hsame : ({ s with journal := s.journal ++ [] } : Coordinator) = s := by
    simp
  split at h
  next htask hruntime =>
    have hearly : candidate.task.early := by rw [htask]; trivial
    obtain rfl := Option.some.inj h
    by_cases hguard : s.guardCurrent candidate.routes evaluation.signal
    · rw [if_pos hguard]
      have hmove : Steps setup s
          (({ s with journal := s.journal ++ [] } : Coordinator).move key
            .checking) :=
        .of_move hcandidate hevaluation (.wait hearly trivial trivial hnotes)
      rwa [hsame] at hmove
    · rw [if_neg hguard]
      have hmove : Steps setup s
          (({ s with journal := s.journal ++ [] } : Coordinator).move key
            (.ended .skipped)) :=
        .of_move hcandidate hevaluation
          (.drop hearly (by simpa using hguard) hnotes)
      rwa [hsame] at hmove
  next code htask hruntime =>
    have hearly : candidate.task.early := by rw [htask]; trivial
    obtain rfl := Option.some.inj h
    have hmove := Steps.of_setupFailed hcandidate hevaluation hconfiguration
      hearly hnotes code
    rwa [hsame] at hmove
  next => cases h

theorem steps_of_checkFinished {answer : CheckAnswer}
    (h : s.checkFinished setup key answer = some t) : Steps setup s t := by
  simp only [checkFinished, Option.bind_eq_bind, Option.bind_eq_some_iff] at h
  obtain ⟨evaluation, hevaluation, candidate, hcandidate, configuration,
    hconfiguration, h⟩ := h
  have hnotes : ∀ event ∈ [ReadinessEvent.checked key.1 key.2],
      event.isCheck := by
    simp [ReadinessEvent.isCheck]
  split at h
  next available reason htask =>
    have hearly : candidate.task.early := by rw [htask]; trivial
    obtain rfl := Option.some.inj h
    exact .advance hcandidate hevaluation
      (.chain hearly (harnessResult_of hconfiguration) hnotes)
      (List.Subset.refl _)
  next code htask =>
    have hearly : candidate.task.early := by rw [htask]; trivial
    obtain rfl := Option.some.inj h
    exact .of_setupFailed hcandidate hevaluation hconfiguration hearly hnotes
      code
  next => cases h


theorem steps_of_diagnosticWritten (hheld : s.Held)
    (h : s.diagnosticWritten key = some t) : Steps setup s t := by
  simp only [diagnosticWritten, Option.bind_eq_bind,
    Option.bind_eq_some_iff] at h
  obtain ⟨candidate, hcandidate, h⟩ := h
  obtain ⟨hof, evaluation, hevaluation⟩ := hheld key candidate hcandidate
  split at h
  next result htask =>
    rw [htask] at hof
    have hearly : candidate.task.early := by rw [htask]; trivial
    have hnotes : ∀ event ∈ ([] : List ReadinessEvent), event.isCheck := by simp
    obtain rfl := Option.some.inj h
    have hchain : Steps setup s { s.move key (.queued result) with
        publication := s.publication ++ [key], journal := s.journal ++ [] } :=
      .advance hcandidate hevaluation (.chain hearly hof hnotes)
        (List.Subset.refl _)
    rwa [List.append_nil] at hchain
  next => cases h

theorem steps_of_takeTurn (h : s.takeTurn setup = some t) : Steps setup s t := by
  unfold takeTurn at h
  split at h
  next key rest hidle hchain =>
    simp only [Option.bind_eq_bind, Option.bind_eq_some_iff] at h
    obtain ⟨evaluation, hevaluation, candidate, hcandidate, configuration, -,
      h⟩ := h
    split at h
    next result htask =>
      by_cases hcurrent :
          s.current key.1 key.2 candidate.routes evaluation.signal
      · rw [if_pos hcurrent] at h
        obtain rfl := Option.some.inj h
        exact .advance hcandidate hevaluation
          (.dispatch htask hidle hchain hcurrent) (List.Subset.refl _)
      · rw [if_neg hcurrent] at h
        obtain rfl := Option.some.inj h
        have hpass : Steps setup s { s.move key (.settled .skipped) with
            publication := rest, inFlight := none,
            journal := s.journal ++ [] } :=
          .advance hcandidate hevaluation
            (.pass htask hidle hchain (by simpa using hcurrent))
            (List.Subset.refl _)
        rw [List.append_nil, ← hidle] at hpass
        exact hpass
    next => cases h
  next => cases h

theorem steps_of_publicationAnswered {answer : PublicationAnswer}
    (h : s.publicationAnswered answer = some t) : Steps setup s t := by
  simp only [publicationAnswered, Option.bind_eq_bind,
    Option.bind_eq_some_iff] at h
  obtain ⟨key, hflight, evaluation, hevaluation, candidate, hcandidate, h⟩ := h
  split at h
  next update htask =>
    obtain rfl := Option.some.inj h
    exact .advance hcandidate hevaluation (.answer htask hflight (.inl rfl))
      (List.Subset.refl _)
  next superseded htask =>
    obtain rfl := Option.some.inj h
    exact .advance hcandidate hevaluation (.answer htask hflight (.inr rfl))
      (List.Subset.refl _)
  next => cases h

theorem steps_of_publicationSettled (hheld : s.Held)
    (h : s.publicationSettled key = some t) : Steps setup s t := by
  simp only [publicationSettled, Option.bind_eq_bind,
    Option.bind_eq_some_iff] at h
  obtain ⟨candidate, hcandidate, h⟩ := h
  obtain ⟨-, evaluation, hevaluation⟩ := hheld key candidate hcandidate
  split at h
  next outcome htask =>
    obtain rfl := Option.some.inj h
    have hsettle : Steps setup s { s.move key (.ended outcome) with
        journal := s.journal ++ []
        preparing := ((s.move key (.ended outcome)).stopPreparing key.1
          [key.2]).preparing } :=
      .advance hcandidate hevaluation (.settle htask)
        (stopPreparing_rows_subset key.1 [key.2])
    rwa [List.append_nil] at hsettle
  next => cases h

theorem steps_of_conclude {generation : ℕ} (h : s.conclude generation = some t) :
    Steps setup s t := by
  simp only [conclude, Option.bind_eq_bind, Option.bind_eq_some_iff] at h
  obtain ⟨evaluation, hevaluation, h⟩ := h
  split at h
  next hended =>
    obtain rfl := Option.some.inj h
    exact .conclude hevaluation hended.2
  next => cases h

theorem steps_of_evaluate (request : EvaluationRequest) :
    Steps setup s (s.evaluate setup request) := by
  unfold evaluate
  dsimp only
  split
  next => exact .idle
  next hadmitted =>
    have hlive : s.fired request.signal = false := by
      simpa using fun hfired => hadmitted (.inr (.inr hfired))
    exact .takeUp hlive

theorem steps_of_next {label : Label} (hheld : s.Held)
    (h : s.next setup label = some t) : Steps setup s t := by
  cases label with
  | evaluate request =>
      obtain rfl := Option.some.inj h
      exact steps_of_evaluate request
  | recipePrepared generation recipeId answer => exact steps_of_recipePrepared h
  | resume key => exact steps_of_resume h
  | checkFinished key answer => exact steps_of_checkFinished h
  | diagnosticWritten key => exact steps_of_diagnosticWritten hheld h
  | takeTurn => exact steps_of_takeTurn h
  | publicationAnswered answer => exact steps_of_publicationAnswered h
  | publicationSettled key => exact steps_of_publicationSettled hheld h
  | conclude generation => exact steps_of_conclude h
  | abort signal =>
      obtain rfl := Option.some.inj h
      exact .environment (List.subset_cons_self _ _) (List.Subset.refl _)
  | lapse lifecycle =>
      obtain rfl := Option.some.inj h
      exact .environment (List.Subset.refl _) (List.subset_cons_self _ _)

end Coordinator

end HarnessReadiness

end RelayerGraph
