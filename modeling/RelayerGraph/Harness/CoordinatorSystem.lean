import RelayerGraph.Harness.CoordinatorMoves

/-!
# Runs of the approval coordinator

The calls of any number of completions, providers and observers interleave.
Each call is one step, and each step is a drop of streams, an admission and
some settlements, in this order and any of them possibly absent.
-/

namespace RelayerGraph

open Foundation Checked

inductive ApprovalCall
  | beginCompletion
      (authority : HarnessApprovalCoordinator.CompletionAuthority)
  | request (authority : HarnessApprovalCoordinator.CompletionAuthority)
      (nextRequestId : String) (input : Supplied HarnessApprovalRequestInput)
      (options : Option (Supplied HarnessApprovalRequestOptions))
  | decide (requestId : String)
      (input : Supplied HarnessApprovalCoordinator.DecisionBody)
  | snapshot (interactionId after : ℤ)
  | endCompletion (completeCallId : String)
      (outcome : Supplied HarnessApprovalCoordinator.CompletionOutcome)
      (rationale : Supplied String)
  | close (rationale : String)
  /-- A provider's signal fires. -/
  | abort (signal : ProviderSignal) (reason : AbortReason)

namespace HarnessApprovalCoordinator

variable (clock : ApprovalClock)

/-- The coordinator a call leaves. -/
def run (c : HarnessApprovalCoordinator) :
    ApprovalCall → HarnessApprovalCoordinator
  | .beginCompletion authority => (c.beginCompletion authority).2
  | .request authority nextRequestId input options =>
      (c.request clock authority nextRequestId input options).2
  | .decide requestId input => (c.decide clock requestId input).2
  | .snapshot interactionId after => (c.snapshot interactionId after).2
  | .endCompletion completeCallId outcome rationale =>
      (c.endCompletion clock completeCallId outcome rationale).2
  | .close rationale => c.close clock rationale
  | .abort signal reason => c.abort clock signal reason

end HarnessApprovalCoordinator

open HarnessApprovalCoordinator

/-- A coordinator as its constructor leaves it. -/
def ApprovalsUnused (c : HarnessApprovalCoordinator) : Prop :=
  ∃ threadId harnessSessionId graceMs,
    positiveInteger threadId ∧ trimSpaces harnessSessionId ≠ [] ∧
      c = .create threadId harnessSessionId graceMs

def approvalSystem (clock : ApprovalClock) :
    TransitionSystem HarnessApprovalCoordinator ApprovalCall where
  init := ApprovalsUnused
  step s call t := t = s.run clock call

namespace HarnessApprovalCoordinator

variable {clock : ApprovalClock} {s t m : HarnessApprovalCoordinator}

/-! ## Admissions -/

/-- A request is admitted within both bounds. -/
inductive Admits (clock : ApprovalClock) :
    HarnessApprovalCoordinator → HarnessApprovalCoordinator → Prop
  | admitRequest {s : HarnessApprovalCoordinator} {request : HarnessApprovalRequest}
      {options : HarnessApprovalRequestOptions} :
      s.pending.get? request.requestId = none →
      s.activeCompletions.get? request.correlation.completeCallId =
        some request.correlation.interactionId →
      (s.retained request.correlation.interactionId).length +
        s.pendingCount request.correlation.interactionId + 2 ≤
          maxHarnessApprovalRetainedEvents →
      s.sessionRetained + s.pending.rows.length + 2 ≤
        maxHarnessApprovalSessionRetainedEvents →
      Admits clock s (s.admitRequest clock request options)

@[simp]
theorem admit_pending {request : HarnessApprovalRequest}
    {options : HarnessApprovalRequestOptions} :
    (s.admitRequest clock request options).pending =
      s.pending.put request.requestId ⟨request, s.promises, options⟩ := rfl

theorem Admits.appends (h : Admits clock s t) : Appends s t := by
  cases h with
  | @admitRequest request options _ _ _ _ =>
      let waiting : HarnessApprovalCoordinator := { s with
        promises := s.promises + 1
        pending := s.pending.put request.requestId
          ⟨request, s.promises, options⟩ }
      have happend : Appends waiting (waiting.append clock s.promises
          (.requested (publicRequest request))) := append_appends
      exact happend

/-- `parseCorrelation` answers what it was given. -/
theorem parseCorrelation_ok {value parsed : HarnessApprovalCorrelation}
    (h : parseCorrelation value = .ok parsed) :
    parsed.interactionId = value.interactionId ∧
      parsed.completeCallId = value.completeCallId := by
  simp only [parseCorrelation, approvalId, approvalString, bind_eq_ok_iff,
    pure_eq_ok_iff] at h
  obtain ⟨_, _, _, _, _, ⟨_, _, _, _, _, _, rfl⟩, _, ⟨_, _, _, _, _, _, rfl⟩,
    _, ⟨_, _, _, _, _, _, rfl⟩, rfl⟩ := h
  exact ⟨rfl, rfl⟩

/-- The request an authority stamps belongs to its completion. -/
theorem createHarnessApprovalRequest_ok
    {input : Supplied HarnessApprovalRequestInput}
    {authority : HarnessApprovalRequestAuthority}
    {request : HarnessApprovalRequest}
    (h : createHarnessApprovalRequest input authority = .ok request) :
    request.correlation.interactionId = authority.interactionId ∧
      request.correlation.completeCallId = authority.completeCallId := by
  simp only [createHarnessApprovalRequest, parseHarnessApprovalRequest,
    bind_eq_ok_iff, pure_eq_ok_iff] at h
  obtain ⟨_, _, _, _, _, _, _, _, _, _, _, hcorrelation, _, _, _, _, _, _, _,
    _, _, _, rfl⟩ := h
  exact parseCorrelation_ok hcorrelation

/-! ## When a stream may be dropped -/

/-- The only calls that drop the stream of an interaction: an acknowledgement
of its latest event, a new attempt, and a request of another interaction that
needs the room of a stream idle past the grace period. -/
def DropCause (clock : ApprovalClock) (s : HarnessApprovalCoordinator)
    (i : ℤ) : ApprovalCall → Prop
  | .snapshot interactionId after =>
      interactionId = i ∧ after = s.latestSequence i
  | .beginCompletion authority => authority.interactionId = i
  | .request authority _ _ _ =>
      authority.interactionId ≠ i ∧
        maxHarnessApprovalSessionRetainedEvents <
          s.sessionRetained + s.pending.rows.length + 2 ∧
        ∃ stream, s.streams.get? i = some stream ∧
          s.graceMs ≤ clock.time (s.clockReads + 1) - stream.lastEventAt
  | _ => False

/-- No completion of the interaction is active, no request of it is pending,
and the call has cause to drop its stream. -/
structure MayDrop (clock : ApprovalClock) (s : HarnessApprovalCoordinator)
    (call : ApprovalCall) (i : ℤ) : Prop where
  inactive : s.interactionActive i = false
  settled : s.interactionPending i = false
  cause : DropCause clock s i call

/-! ## The shape of a call -/

/-- A request is admitted that does not announce itself in a dropped
stream. -/
def AdmitsBeside (clock : ApprovalClock) (dropped : ℤ → Prop)
    (s t : HarnessApprovalCoordinator) : Prop :=
  Admits clock s t ∧ ∀ i, dropped i →
    t.streams.get? i = s.streams.get? i ∧
      t.interactionPending i = s.interactionPending i

/-- A drop of streams, an admission and some settlements. -/
def Shaped (clock : ApprovalClock) (call : ApprovalCall)
    (s t : HarnessApprovalCoordinator) : Prop :=
  ∃ m m', Prunes (MayDrop clock s call) s m ∧
    (m' = m ∨ AdmitsBeside clock (MayDrop clock s call) m m') ∧
    Settles clock m' t

theorem Shaped.of_prunes {call : ApprovalCall}
    (h : Prunes (MayDrop clock s call) s t) : Shaped clock call s t :=
  ⟨t, t, h, .inl rfl, .refl⟩

theorem Shaped.of_settles {call : ApprovalCall} (h : Settles clock s t) :
    Shaped clock call s t :=
  ⟨s, s, .of_eq rfl rfl rfl rfl rfl rfl, .inl rfl, h⟩

theorem Shaped.refl {call : ApprovalCall} : Shaped clock call s s :=
  .of_settles .refl

theorem beginCompletion_shaped (authority : CompletionAuthority) :
    Shaped clock (.beginCompletion authority) s
      (s.beginCompletion authority).2 := by
  unfold beginCompletion
  split
  case isTrue => exact .refl
  split
  case isTrue => exact .refl
  split
  case isTrue => exact .refl
  by_cases hbusy : s.interactionActive authority.interactionId = true ∨
      s.interactionPending authority.interactionId = true
  · simp only [if_pos hbusy]
    exact .of_prunes (.of_eq rfl rfl rfl rfl rfl rfl)
  · simp only [if_neg hbusy]
    simp only [not_or, Bool.not_eq_true] at hbusy
    refine .of_prunes ((deleteStream_prunes
      ⟨hbusy.1, hbusy.2, rfl⟩).trans (.of_eq rfl rfl rfl rfl rfl rfl))

theorem snapshot_shaped (interactionId after : ℤ) :
    Shaped clock (.snapshot interactionId after) s
      (s.snapshot interactionId after).2 := by
  unfold snapshot
  split
  case isTrue => exact .refl
  split
  case isTrue => exact .refl
  dsimp only
  split
  case isTrue hdrop =>
    exact .of_prunes (dropStream_prunes ⟨hdrop.2.1, hdrop.2.2, rfl, hdrop.1⟩)
  case isFalse => exact .refl

theorem endRequests_shaped {call : ApprovalCall} (hs : OwnIds s)
    (completeCallId : String) (outcome : HarnessApprovalTerminalOutcome)
    (rationale : String) : Shaped clock call s
      (s.endRequests clock completeCallId outcome rationale) := by
  unfold endRequests
  split
  case isTrue =>
    let ended : HarnessApprovalCoordinator := { s with
      activeCompletions := s.activeCompletions.erase completeCallId }
    have hended : OwnIds ended := hs
    exact ⟨ended, ended, .of_eq rfl rfl rfl rfl rfl rfl, .inl rfl,
      (terminateMatching_settles clock hended _ _ _ _).1⟩
  case isFalse => exact .refl

theorem endCompletion_shaped {call : ApprovalCall} (hs : OwnIds s)
    (completeCallId : String) (outcome : Supplied CompletionOutcome)
    (rationale : Supplied String) : Shaped clock call s
      (s.endCompletion clock completeCallId outcome rationale).2 := by
  unfold endCompletion
  split
  case h_1 => exact endRequests_shaped hs _ _ _
  case h_2 =>
    split
    case h_1 => exact endRequests_shaped hs _ _ _
    case h_2 => exact endRequests_shaped hs _ _ _

theorem close_shaped {call : ApprovalCall} (hs : OwnIds s)
    (rationale : String) :
    Shaped clock call s (s.close clock rationale) := by
  unfold close
  split
  case isTrue => exact .refl
  case isFalse =>
    let shut : HarnessApprovalCoordinator := { s with
      closed := true
      activeCompletions := .empty }
    have hshut : OwnIds shut := hs
    refine ⟨shut, shut, .of_eq rfl rfl rfl rfl rfl rfl, .inl rfl,
      .tail (terminateMatching_settles clock hshut _ _ _ _).1
        (.book rfl rfl rfl rfl rfl rfl rfl fun _ => Nat.zero_le _)⟩

theorem settleAdmitted_settles (hs : OwnIds s) {pending : PendingApproval}
    (hpending : s.pending.get? pending.request.requestId = some pending) :
    Settles clock s (s.settleAdmitted clock pending).2 := by
  unfold settleAdmitted
  split
  case h_1 => exact (terminate_settles hs _ _ _ _).1
  case h_2 =>
    split
    case h_1 => exact .refl
    case h_2 =>
      split
      case h_1 => exact .single .ticked
      case h_2 decision _ =>
        exact .head .ticked
          (resolveWithDecision_settles clock (s := s.ticked) hpending
            decision)

theorem OwnIds.admitRequest (hs : OwnIds s) (request : HarnessApprovalRequest)
    (options : HarnessApprovalRequestOptions) :
    OwnIds (s.admitRequest clock request options) := by
  intro id pending hpending
  rw [admit_pending, Keyed.get?_put] at hpending
  split at hpending
  case isTrue hid =>
    obtain rfl := Option.some.inj hpending
    exact hid.symm
  case isFalse => exact hs id pending hpending

theorem retained_of_prunes {guard : ℤ → Prop} (h : Prunes guard s m) {i : ℤ}
    (hi : ¬ guard i) : m.retained i = s.retained i := by
  rcases h.streams i with hkept | hdropped
  · rw [retained, retained, hkept]
  · exact absurd hdropped.1 hi

theorem pendingCount_congr (h : m.pending = s.pending) (i : ℤ) :
    m.pendingCount i = s.pendingCount i := by
  rw [pendingCount, pendingCount, h]

theorem pendingCount_put {request : HarnessApprovalRequest}
    {options : HarnessApprovalRequestOptions}
    (hfresh : s.pending.get? request.requestId = none) (i : ℤ) :
    (s.admitRequest clock request options).pendingCount i =
      s.pendingCount i +
        if request.correlation.interactionId = i then 1 else 0 := by
  rw [pendingCount, admit_pending, Keyed.rows_put_of_none _ hfresh,
    List.countP_append, List.countP_singleton]
  simp [pendingCount]

theorem interactionActive_congr
    (h : m.activeCompletions = s.activeCompletions) (i : ℤ) :
    m.interactionActive i = s.interactionActive i := by
  rw [interactionActive, interactionActive, h]

theorem interactionPending_congr (h : m.pending = s.pending) (i : ℤ) :
    m.interactionPending i = s.interactionPending i := by
  rw [interactionPending, interactionPending, pendingCount_congr h]

/-- Neither bound leaves room for the request of an interaction, and no
abandoned stream of another is left to drop. -/
def BacklogFull (clock : ApprovalClock) (s c' : HarnessApprovalCoordinator)
    (i : ℤ) : Prop :=
  maxHarnessApprovalRetainedEvents <
      (s.retained i).length + s.pendingCount i + 2 ∨
    (maxHarnessApprovalSessionRetainedEvents <
        c'.sessionRetained + c'.pending.rows.length + 2 ∧
      ∀ j, j ≠ i → ¬ Abandoned c' (clock.time (s.clockReads + 1)) j)

/-- A request is refused.  At most streams are dropped for it, and the backlog
is full when the refusal says so. -/
structure Refused (clock : ApprovalClock) (call : ApprovalCall) (i : ℤ)
    (s : HarnessApprovalCoordinator)
    (answer : Except ApprovalFailure ℕ × HarnessApprovalCoordinator) :
    Prop where
  failure : ∃ failure, answer.1 = .error failure ∧
    ∀ message, failure = .coordinator .approvalEventBacklogFull message →
      BacklogFull clock s answer.2 i
  prunes : Prunes (MayDrop clock s call) s answer.2
  active : answer.2.activeCompletions = s.activeCompletions
  closed : answer.2.closed = s.closed

/-- A refusal before the bounds are looked at. -/
theorem Refused.early {call : ApprovalCall} {i : ℤ}
    {code : CoordinatorErrorCode} {message : String}
    (hcode : code ≠ .approvalEventBacklogFull) (hm : m = s ∨ m = s.ticked) :
    Refused clock call i s (.error (.coordinator code message), m) := by
  have hfailure : ∃ failure, (.error (.coordinator code message) :
      Except ApprovalFailure ℕ) = .error failure ∧
      ∀ message, failure = .coordinator .approvalEventBacklogFull message →
        BacklogFull clock s m i := by
    refine ⟨_, rfl, fun message' heq => ?_⟩
    injection heq with hcode'
    exact absurd hcode' hcode
  rcases hm with rfl | rfl
  · exact ⟨hfailure, .of_eq rfl rfl rfl rfl rfl rfl, rfl, rfl⟩
  · exact ⟨hfailure, .of_eq rfl rfl rfl rfl rfl rfl, rfl, rfl⟩

/-- What `reserveSessionBacklog` does for a request that has read the clock
once. -/
theorem reserveSessionBacklog_spec (clock : ApprovalClock)
    (authority : CompletionAuthority) (nextRequestId : String)
    (input : Supplied HarnessApprovalRequestInput)
    (options : Option (Supplied HarnessApprovalRequestOptions)) :
    let call := ApprovalCall.request authority nextRequestId input options
    let reserved := s.ticked.reserveSessionBacklog clock
      authority.interactionId
    Prunes (MayDrop clock s call) s reserved.2 ∧
      reserved.2.activeCompletions = s.activeCompletions ∧
      reserved.2.closed = s.closed ∧
      (reserved.1 = true →
        reserved.2.sessionRetained + reserved.2.pending.rows.length + 2 ≤
          maxHarnessApprovalSessionRetainedEvents) ∧
      (reserved.1 = false →
        BacklogFull clock s reserved.2 authority.interactionId) := by
  intro call reserved
  let loop := reserveStreams authority.interactionId
    (clock.time (s.clockReads + 1)) s.streams.rows s.sessionRetained
    s.ticked.ticked
  obtain ⟨hdrops, hcount, hfull, hcompletions, hclosed, hgrace⟩ :=
    reserveStreams_spec (s := s.ticked.ticked) authority.interactionId
      (clock.time (s.clockReads + 1)) s.streams.rows s.sessionRetained
      ⟨rfl, fun row hrow => Keyed.get?_of_mem_rows hrow, s.streams.nodup⟩
  have hprunes : Prunes (MayDrop clock s call) s reserved.2 := by
    refine { hdrops with streams := fun j => ?_ }
    rcases hdrops.streams j with hkept | ⟨hguard, hgone⟩
    · exact .inl hkept
    · obtain ⟨hne, ⟨hinactive, hsettled, hidle⟩, hbound⟩ := hguard
      exact .inr ⟨⟨hinactive, hsettled, fun heq => hne heq.symm, hbound,
        hidle⟩, hgone⟩
  refine ⟨hprunes, hcompletions, hclosed, fun hreserved => ?_,
    fun hreserved => .inr ?_⟩
  · have hfits : loop.1 + loop.2.pending.rows.length + 2 ≤
        maxHarnessApprovalSessionRetainedEvents := of_decide_eq_true hreserved
    exact hcount ▸ hfits
  · have hexceeds : ¬ loop.1 + loop.2.pending.rows.length + 2 ≤
        maxHarnessApprovalSessionRetainedEvents := of_decide_eq_false hreserved
    have hbound : maxHarnessApprovalSessionRetainedEvents <
        loop.2.sessionRetained + loop.2.pending.rows.length + 2 :=
      hcount ▸ Nat.lt_of_not_le hexceeds
    refine ⟨hbound, fun j hne habandoned => ?_⟩
    obtain ⟨hinactive, hsettled, stream, hstream, hidle⟩ := habandoned
    have hbefore : s.streams.get? j = some stream := by
      rcases hprunes.streams j with hkept | ⟨_, hgone⟩
      · exact hkept.symm.trans hstream
      · cases hgone.symm.trans hstream
    have hgone := hfull ?_ (j, stream) (Keyed.mem_rows_of_get? hbefore) hne
      ⟨?_, ?_, stream, hbefore, ?_⟩
    · cases hgone.symm.trans hstream
    · rw [hdrops.pending] at hbound
      exact hcount ▸ hbound
    · exact (interactionActive_congr hcompletions j).symm.trans hinactive
    · exact (interactionPending_congr hdrops.pending j).symm.trans hsettled
    · exact hgrace ▸ hidle

/-- What a request does: it is refused, or it is admitted and perhaps settled
at once. -/
theorem request_shaped (clock : ApprovalClock)
    (authority : CompletionAuthority) (nextRequestId : String)
    (input : Supplied HarnessApprovalRequestInput)
    (options : Option (Supplied HarnessApprovalRequestOptions)) :
    let call := ApprovalCall.request authority nextRequestId input options
    let answer := s.request clock authority nextRequestId input options
    Refused clock call authority.interactionId s answer ∨
      ∃ m request options', Prunes (MayDrop clock s call) s m ∧
        m.activeCompletions = s.activeCompletions ∧ m.closed = s.closed ∧
        Admits clock m (m.admitRequest clock request options') ∧
        m.pending.get? request.requestId = none ∧
        request.correlation.interactionId = authority.interactionId ∧
        answer = (m.admitRequest clock request options').settleAdmitted clock
          ⟨request, m.promises, options'⟩ := by
  intro call answer
  simp only [answer, HarnessApprovalCoordinator.request]
  split
  case isTrue => exact .inl (.early (by decide) (.inl rfl))
  case isFalse hactive =>
    split
    case h_1 => exact .inl (.early (by decide) (.inl rfl))
    case h_2 given _ =>
      split
      case h_1 => exact .inl (.early (by decide) (.inr rfl))
      case h_2 request hrequest =>
        obtain ⟨hinteraction, hcall⟩ :=
          createHarnessApprovalRequest_ok hrequest
        dsimp only at hinteraction hcall
        split
        case isTrue => exact .inl (.early (by decide) (.inr rfl))
        case isFalse hfresh =>
          split
          case isTrue hfull =>
            exact .inl ⟨⟨_, rfl, fun _ _ => .inl hfull⟩,
              .of_eq rfl rfl rfl rfl rfl rfl, rfl, rfl⟩
          case isFalse hroom =>
            obtain ⟨hprunes, hcompletions, hclosed, hfits, hfull⟩ :=
              reserveSessionBacklog_spec (s := s) clock authority
                nextRequestId input options
            split
            case h_1 c' hreserved =>
              rw [hreserved] at hprunes hcompletions hclosed hfull
              exact .inl ⟨⟨_, rfl, fun _ _ => hfull rfl⟩, hprunes,
                hcompletions, hclosed⟩
            case h_2 c' hreserved =>
              rw [hreserved] at hprunes hcompletions hclosed hfits
              have hkept : c'.retained authority.interactionId =
                  s.retained authority.interactionId :=
                retained_of_prunes hprunes fun hguard => hguard.cause.1 rfl
              simp only [not_or, Bool.not_eq_true,
                Option.isSome_eq_false_iff, Option.isNone_iff_eq_none]
                at hfresh
              have hnew : c'.pending.get? request.requestId = none := by
                rw [hprunes.pending]
                exact hfresh.1
              refine .inr ⟨c', request, given, hprunes, hcompletions, hclosed,
                .admitRequest hnew ?_ ?_ (hfits rfl), hnew, hinteraction, rfl⟩
              · rw [hcompletions, hcall, hinteraction]
                exact not_not.mp hactive
              · rw [hinteraction, hkept, pendingCount_congr hprunes.pending]
                exact Nat.not_lt.mp hroom

theorem run_shaped (clock : ApprovalClock) (hs : OwnIds s)
    (call : ApprovalCall) :
    Shaped clock call s (s.run clock call) := by
  cases call with
  | beginCompletion authority => exact beginCompletion_shaped authority
  | request authority nextRequestId input options =>
      rcases request_shaped clock authority nextRequestId input options with
        hrefused | ⟨m, request, given, hprunes, _, _, hadmits, hfresh,
          hinteraction, hanswer⟩
      · exact .of_prunes hrefused.prunes
      · have hbeside : ∀ j, MayDrop clock s
            (.request authority nextRequestId input options) j →
            request.correlation.interactionId ≠ j := fun j hguard heq =>
          hguard.cause.1 (hinteraction.symm.trans heq)
        refine ⟨m, _, hprunes, .inr ⟨hadmits, fun j hguard =>
          ⟨append_streams_of_ne (hbeside j hguard), ?_⟩⟩, ?_⟩
        · rw [interactionPending, interactionPending, pendingCount_put hfresh,
            if_neg (hbeside j hguard)]
          rfl
        rw [run, hanswer]
        have hm : OwnIds m := by
          intro id pending hpending
          rw [hprunes.pending] at hpending
          exact hs id pending hpending
        refine settleAdmitted_settles (hm.admitRequest request given) ?_
        rw [admit_pending]
        exact Keyed.get?_put_self _ _ _
  | decide requestId input => exact .of_settles (decide_settles hs _ _)
  | snapshot interactionId after => exact snapshot_shaped _ _
  | endCompletion completeCallId outcome rationale =>
      exact endCompletion_shaped hs _ _ _
  | close rationale => exact close_shaped hs _
  | abort signal reason => exact .of_settles (abort_settles hs _ _)

end HarnessApprovalCoordinator

end RelayerGraph
