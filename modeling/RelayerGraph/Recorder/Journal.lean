import RelayerGraph.Recorder.Recorder

/-!
# The journal of a recorder

The recorder beside a journal of what has happened to it: capabilities issued
and revoked, requests arrived and ended, events made, exports begun and
described.  The journal says which capability an interaction holds and which
requests are its own; every step of the recorder is one of a few moves.
-/

namespace RelayerGraph

namespace GraphOperationRecorder

open Foundation

/-! ## Occurrences -/

inductive Occurrence where
  | issued (token : String) (node : ℕ)
  | revoked (token : Option String) (node : Option ℕ)
  | arrived (request : ℕ) (method path : String) (token : Option String)
  | made (event : Event)
  | ended (request : ℕ)
  | began (id node : ℕ)
  | described (id node : ℕ) (descriptor : Descriptor)

def changeOccurrences : Option CapabilityChange → List Occurrence
  | some (.issue token node) => [.issued token node]
  | some (.revoke token node) => [.revoked token node]
  | none => []

/-- The event of a receipt, unless the interaction is exported. -/
def Recorder.madeBy (r : Recorder) : Option (ℕ × Receipt) → List Occurrence
  | some (node, receipt) =>
      if node ∈ r.exportedInteractions then []
      else [.made ⟨receipt, r.sequence + 1, node⟩]
  | none => []

def describedBy (after : Recorder) (id : ℕ) : List Occurrence :=
  match after.exports.get? id with
  | some ⟨node, _, .writing descriptor⟩ => [.described id node descriptor]
  | _ => []

/-- The issuing of a capability or the end of one that takes it from an
interaction. -/
def Occurrence.supersedes (token : String) (node : ℕ) : Occurrence → Prop
  | .issued other owner => other = token ∨ owner = node
  | .revoked other owner => other = some token ∨ owner = some node
  | _ => False

/-- The capability was issued to the interaction, and has been neither replaced
nor revoked since. -/
def Holds (journal : List Occurrence) (token : String) (node : ℕ) : Prop :=
  ∃ before after, journal = before ++ .issued token node :: after ∧
    ∀ occurrence ∈ after, ¬ occurrence.supersedes token node

/-- The request is a graph operation of the interaction: it arrived with the
capability that the interaction held then. -/
def Attributed (journal : List Occurrence) (node request : ℕ)
    (method path : String) : Prop :=
  ∃ before after token,
    journal = before ++ .arrived request method path (some token) :: after ∧
      Holds before token node ∧ isGraphPath path = true ∧
      path ≠ authoringErrorsPath

/-! ## Steps with their occurrences -/

variable (settings : Settings) (eventBytes : Event → ℕ)

/-- What the end of a request adds to the journal. -/
def Recorder.endOccurrences (r : Recorder) (id : ℕ)
    (change : Option CapabilityChange) (passed : Bool)
    (receipt : Option (ℕ × Receipt)) : List Occurrence :=
  changeOccurrences change ++
    (((r.applyChange change).passNumber passed).madeBy receipt ++ [.ended id])

/-- What a step that ends a request adds. -/
def Recorder.observeEnd (r : Recorder) (id : ℕ) (request : Request) :
    Step → List Occurrence
  | .answer _ status requestValue responseValue =>
      let change := request.changes status requestValue responseValue
      r.endOccurrences id change false (request.answerReceipt status requestValue
        responseValue (r.applyChange change).knownSecrets)
  | .breakOff _ status requestValue responseValue numbered =>
      let change := request.changes status requestValue responseValue
      r.endOccurrences id change
        (numbered && (r.applyChange change).numbers request)
        request.failureReceipt
  | .diagnose _ body =>
      r.endOccurrences id none false
        (request.diagnosticReceipt body r.knownSecrets)
  | _ => r.endOccurrences id none false request.failureReceipt

/-- What a step adds to the journal. -/
def Recorder.observe (r : Recorder) (step : Step) (after : Recorder) :
    List Occurrence :=
  match step with
  | .arrive method path authorization =>
      [.arrived r.nextRequest method path (bearerToken authorization)]
  | .answer id _ _ _ | .breakOff id _ _ _ _ | .diagnose id _ | .fail id =>
      match r.requests.get? id with
      | none => []
      | some request => r.observeEnd id request step
  | .beginExport node =>
      .began r.nextExport node :: describedBy after r.nextExport
  | .exportSettled id | .exportResumed id => describedBy after id
  | _ => []

structure Observed where
  recorder : Recorder
  journal : List Occurrence

def Observed.next (s : Observed) (step : Step) : Option Observed :=
  (s.recorder.next settings eventBytes step).map fun after =>
    ⟨after, s.journal ++ s.recorder.observe step after⟩

/-- The recorder from its start, with the journal of its run. -/
def observed : TransitionSystem Observed Step where
  init s := s = ⟨.start, []⟩
  step s step t := s.next settings eventBytes step = some t

/-! ## Requests under way -/

/-- A request is counted as an operation exactly where its end is recorded, but
for the diagnostics, and only a cancelled one is counted before it ends. -/
structure Request.Proper (request : Request) : Prop where
  outside : request.recordedFor = none →
    request.attributedOperation = none ∧ request.entered = none
  inside : ∀ node, request.recordedFor = some node → request.entered.isSome ∧
    (request.path = authoringErrorsPath ∧ request.attributedOperation = none ∨
      request.path ≠ authoringErrorsPath ∧ ∃ path,
        request.attributedOperation = some ⟨node, request.method, path⟩)
  aborted : request.accounted = true → request.aborted = true

def RequestsProper (r : Recorder) : Prop :=
  ∀ id request, r.requests.get? id = some request → request.Proper

/-- What may be recorded when a request ends. -/
inductive Makes (request : Request) (knownSecrets : List String) :
    Option (ℕ × Receipt) → Prop
  | nothing (hdone : request.attributedOperation = none ∨
      request.accounted = true) : Makes request knownSecrets none
  | diagnostic {node : ℕ} {receipt : Receipt}
      (hnone : request.attributedOperation = none)
      (herror : receipt.authoringError.isSome)
      (hdetails : receipt.details = []) :
      Makes request knownSecrets (some (node, receipt))
  | answer {node : ℕ} {path : String} {receipt : Receipt}
      (hoperation : request.attributedOperation =
        some ⟨node, request.method, path⟩)
      (haccounted : request.accounted = false)
      (hreceipt : ∃ status requestValue responseValue,
        receipt = sanitizeReceipt request.method request.path status
          requestValue responseValue knownSecrets) :
      Makes request knownSecrets (some (node, receipt))
  | failure {operation : AttributedOperation}
      (hoperation : request.attributedOperation = some operation)
      (haccounted : request.accounted = false) :
      Makes request knownSecrets
        (some (operation.interactionNodeId, proxyFailure operation))

/-! ## Moves -/

/-- The moves a recorder makes. -/
inductive Moves (r : Recorder) : List Occurrence → Recorder → Prop
  | arrived (method path : String) (authorization : Option String) :
      Moves r [.arrived r.nextRequest method path (bearerToken authorization)]
        (r.arrive method path authorization)
  | ended {id : ℕ} {request : Request} {change : Option CapabilityChange}
      {passed : Bool} {receipt : Option (ℕ × Receipt)}
      (hrequest : r.requests.get? id = some request)
      (hmakes : Makes request (r.applyChange change).knownSecrets receipt) :
      Moves r (r.endOccurrences id change passed receipt)
        ((Recorder.record settings eventBytes
          ((r.applyChange change).passNumber passed) receipt).release id)
  | flagged {f : ℕ → Request → Request} {closed : Bool}
      (hf : ∀ id request, f id request = request ∨
        f id request = { request with aborted := true }) :
      Moves r [] { r with requests := r.requests.mapRows f, closed := closed }
  | began (node : ℕ) :
      Moves r (.began r.nextExport node ::
          describedBy (r.beginExport eventBytes node) r.nextExport)
        (r.beginExport eventBytes node)
  | turned {id node ref : ℕ} {activities : List ℕ} {stage : ExportStage}
      (hexport : r.exports.get? id = some ⟨node, ref, stage⟩)
      (hstage : stage = .settling activities ∨ stage = .cancelling activities)
      (hsettled : r.settled activities = true) :
      Moves r (describedBy (r.turn eventBytes id node ref) id)
        (r.turn eventBytes id node ref)
  | timedOut {id node ref : ℕ} {activities : List ℕ}
      (hexport : r.exports.get? id = some ⟨node, ref, .settling activities⟩) :
      Moves r [] (r.timeOut id node ref)
  | left {id node ref : ℕ} {descriptor : Descriptor} {forget : Bool}
      (hexport : r.exports.get? id = some ⟨node, ref, .writing descriptor⟩) :
      Moves r [] { r with
        interactions :=
          if forget then r.interactions.erase node else r.interactions
        exports := r.exports.erase id }

theorem Request.Proper.makes_failure {request : Request}
    {knownSecrets : List String} :
    Makes request knownSecrets request.failureReceipt := by
  unfold Request.failureReceipt
  cases hoperation : request.attributedOperation with
  | none => exact .nothing (.inl hoperation)
  | some operation =>
      by_cases haccounted : request.accounted = true
      · simp only [haccounted, if_true]
        exact .nothing (.inr haccounted)
      · simp only [haccounted]
        exact .failure hoperation (by simpa using haccounted)

theorem Request.Proper.makes_answer {request : Request}
    (hproper : request.Proper) {status : ℕ}
    {requestValue responseValue : Option Json} {knownSecrets : List String}
    (hanswered : request.answered status responseValue = true) :
    Makes request knownSecrets (request.answerReceipt status requestValue
      responseValue knownSecrets) := by
  have hguard : request.aborted = false ∧
      request.path ≠ authoringErrorsPath := by
    simp only [Request.answered, Bool.and_eq_true, Bool.not_eq_true',
      decide_eq_true_eq] at hanswered
    exact ⟨hanswered.1.1, hanswered.1.2⟩
  unfold Request.answerReceipt
  cases hrecorded : request.recordedFor with
  | none => exact .nothing (.inl (hproper.outside hrecorded).1)
  | some node =>
      have haccounted : request.accounted = false := by
        by_contra hcounted
        have := hproper.aborted (by simpa using hcounted)
        simp [this] at hguard
      rcases (hproper.inside node hrecorded).2 with ⟨hpath, -⟩ |
        ⟨-, path, hoperation⟩
      · exact absurd hpath hguard.2
      · exact .answer hoperation haccounted ⟨_, _, _, rfl⟩

theorem Request.Proper.makes_diagnostic {request : Request}
    (hproper : request.Proper) {body : Option Json}
    {knownSecrets : List String}
    (hpath : request.path = authoringErrorsPath) :
    Makes request knownSecrets
      (request.diagnosticReceipt body knownSecrets) := by
  have hnone : request.attributedOperation = none := by
    cases hrecorded : request.recordedFor with
    | none => exact (hproper.outside hrecorded).1
    | some node =>
        rcases (hproper.inside node hrecorded).2 with ⟨-, hnone⟩ | ⟨hother, -⟩
        · exact hnone
        · exact absurd hpath hother
  unfold Request.diagnosticReceipt
  cases request.interactionNodeId with
  | none => exact .nothing (.inl hnone)
  | some node =>
      cases authoringError? request.method body with
      | none => exact .nothing (.inl hnone)
      | some diagnostic => exact .diagnostic hnone rfl rfl

/-- Every step is one of the moves. -/
theorem moves_of_next {r after : Recorder} (hproper : RequestsProper r)
    {step : Step} (h : r.next settings eventBytes step = some after) :
    Moves settings eventBytes r (r.observe step after) after := by
  cases step with
  | arrive method path authorization =>
      simp only [Recorder.next] at h
      split at h
      · cases h
      · obtain rfl := Option.some.inj h
        exact .arrived method path authorization
  | answer id status requestValue responseValue =>
      simp only [Recorder.next, Option.bind_eq_bind, Option.bind_eq_some_iff,
        Option.pure_def, Option.some.injEq, Option.guard_eq_some'] at h
      obtain ⟨request, hrequest, -, hanswered, rfl⟩ := h
      simp only [Recorder.observe, hrequest]
      exact .ended hrequest
        ((hproper id request hrequest).makes_answer hanswered)
  | breakOff id status requestValue responseValue numbered =>
      simp only [Recorder.next, Option.bind_eq_bind, Option.bind_eq_some_iff,
        Option.pure_def, Option.some.injEq, Option.guard_eq_some'] at h
      obtain ⟨request, hrequest, -, hanswered, rfl⟩ := h
      simp only [Recorder.observe, hrequest]
      exact .ended hrequest Request.Proper.makes_failure
  | diagnose id body =>
      simp only [Recorder.next, Option.bind_eq_bind, Option.bind_eq_some_iff,
        Option.pure_def, Option.some.injEq, Option.guard_eq_some'] at h
      obtain ⟨request, hrequest, -, hpath, rfl⟩ := h
      simp only [Recorder.observe, hrequest]
      exact @Moves.ended _ _ r id request none false _ hrequest
        ((hproper id request hrequest).makes_diagnostic hpath)
  | fail id =>
      simp only [Recorder.next, Option.bind_eq_bind, Option.bind_eq_some_iff,
        Option.pure_def, Option.some.injEq] at h
      obtain ⟨request, hrequest, rfl⟩ := h
      simp only [Recorder.observe, hrequest]
      exact @Moves.ended _ _ r id request none false _ hrequest
        Request.Proper.makes_failure
  | abort id =>
      obtain rfl := Option.some.inj h
      apply Moves.flagged
      intro key request
      by_cases hkey : key = id
      · exact .inr (if_pos hkey)
      · exact .inl (if_neg hkey)
  | beginExport node =>
      simp only [Recorder.next, Option.bind_eq_bind, Option.bind_eq_some_iff,
        Option.pure_def, Option.some.injEq] at h
      obtain ⟨-, -, rfl⟩ := h
      exact .began node
  | exportSettled id =>
      simp only [Recorder.next, Option.bind_eq_bind,
        Option.bind_eq_some_iff] at h
      obtain ⟨⟨node, ref, stage⟩, hexport, hstage⟩ := h
      cases stage with
      | settling activities =>
          simp only [Option.bind_eq_some_iff, Option.pure_def,
            Option.some.injEq, Option.guard_eq_some'] at hstage
          obtain ⟨-, hsettled, rfl⟩ := hstage
          exact .turned hexport (.inl rfl) hsettled
      | cancelling activities => cases hstage
      | writing descriptor => cases hstage
  | exportTimedOut id =>
      simp only [Recorder.next, Option.bind_eq_bind,
        Option.bind_eq_some_iff] at h
      obtain ⟨⟨node, ref, stage⟩, hexport, hstage⟩ := h
      cases stage with
      | settling activities =>
          simp only [Option.bind_eq_some_iff, Option.pure_def,
            Option.some.injEq] at hstage
          obtain ⟨-, -, rfl⟩ := hstage
          exact .timedOut hexport
      | cancelling activities => cases hstage
      | writing descriptor => cases hstage
  | exportResumed id =>
      simp only [Recorder.next, Option.bind_eq_bind,
        Option.bind_eq_some_iff] at h
      obtain ⟨⟨node, ref, stage⟩, hexport, hstage⟩ := h
      cases stage with
      | settling activities => cases hstage
      | cancelling activities =>
          simp only [Option.bind_eq_some_iff, Option.pure_def,
            Option.some.injEq, Option.guard_eq_some'] at hstage
          obtain ⟨-, hsettled, rfl⟩ := hstage
          exact .turned hexport (.inr rfl) hsettled
      | writing descriptor => cases hstage
  | exportWritten id =>
      simp only [Recorder.next, Option.bind_eq_bind,
        Option.bind_eq_some_iff] at h
      obtain ⟨⟨node, ref, stage⟩, hexport, hstage⟩ := h
      cases stage with
      | settling activities => cases hstage
      | cancelling activities => cases hstage
      | writing descriptor =>
          obtain rfl := Option.some.inj hstage
          exact @Moves.left _ _ r _ _ _ _ true hexport
  | exportRefused id =>
      simp only [Recorder.next, Option.bind_eq_bind,
        Option.bind_eq_some_iff] at h
      obtain ⟨⟨node, ref, stage⟩, hexport, hstage⟩ := h
      cases stage with
      | settling activities => cases hstage
      | cancelling activities => cases hstage
      | writing descriptor =>
          obtain rfl := Option.some.inj hstage
          exact @Moves.left _ _ r _ _ _ _ false hexport
  | close =>
      obtain rfl := Option.some.inj h
      exact .flagged fun _ _ => .inr rfl

end GraphOperationRecorder

end RelayerGraph
