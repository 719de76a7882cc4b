import RelayerGraph.Harness.CoordinatorAccounts

/-!
# Approval coordination over whole runs

The accounts, the numbering and the bounds hold in every state a run reaches,
a pending request belongs to an active completion, and an observer that reads
on from its last cursor misses no event while its stream is not dropped.
-/

namespace RelayerGraph

open Foundation Checked TransitionSystem

namespace HarnessApprovalCoordinator

variable {clock : ApprovalClock} {s t m : HarnessApprovalCoordinator}

/-! ## Sound coordinators -/

structure Sound (s : HarnessApprovalCoordinator) : Prop where
  accounted : Accounted s
  numbered : Numbered s
  recorded : Recorded s
  bounded : Bounded s

theorem Sound.prunes {guard : ℤ → Prop} (hs : Sound s)
    (h : Prunes guard s m) : Sound m where
  accounted := hs.accounted.of_eq h.pending h.promises h.journal
  numbered := hs.numbered.prunes h
  recorded := hs.recorded.prunes h
  bounded := hs.bounded.prunes h

theorem Sound.admits (hs : Sound s) (h : Admits clock s t) : Sound t where
  accounted := hs.accounted.admits h
  numbered := hs.numbered.admits h
  recorded := hs.recorded.appends h.appends
  bounded := hs.bounded.admits h

theorem Sound.settles (hs : Sound s) (h : Settles clock s t) : Sound t := by
  induction h with
  | refl => exact hs
  | tail _ hlast ih =>
      exact ⟨ih.accounted.settle hlast, ih.numbered.settle hlast,
        ih.recorded.appends hlast.appends, ih.bounded.settle hlast⟩

theorem Sound.run (hs : Sound s) (call : ApprovalCall) :
    Sound (s.run clock call) := by
  obtain ⟨m, m', hprunes, hadmits, hsettles⟩ :=
    run_shaped clock hs.accounted.ownIds call
  have hm : Sound m := hs.prunes hprunes
  rcases hadmits with rfl | hadmits
  · exact hm.settles hsettles
  · exact (hm.admits hadmits.1).settles hsettles

theorem sound_of_unused (hs : ApprovalsUnused s) : Sound s := by
  obtain ⟨threadId, harnessSessionId, graceMs, _, _, rfl⟩ := hs
  refine ⟨⟨?_, ?_, ?_, ?_, ?_, ?_⟩, ?_, ?_, ⟨?_, ?_, ?_, ?_⟩⟩
  · exact fun id pending h => by cases h
  · exact fun id pending h => by cases h
  · exact fun id id' pending pending' h => by cases h
  · exact fun id pending h => by cases h
  · exact fun promise h => absurd h (Nat.not_lt_zero _)
  · exact fun promise _ => rfl
  · exact fun i stream h => by cases h
  · exact fun i => List.nil_suffix
  · exact fun i => Nat.zero_le _
  · exact Nat.zero_le _
  · exact Nat.zero_le _
  · exact Nat.zero_le _

/-! ## Pending requests belong to active completions -/

structure Attended (s : HarnessApprovalCoordinator) : Prop where
  active : ∀ id pending, s.pending.get? id = some pending →
    s.activeCompletions.get? pending.request.correlation.completeCallId =
      some pending.request.correlation.interactionId
  closed : s.closed = true → ∀ call, s.activeCompletions.get? call = none

theorem Attended.of_eq (hs : Attended s)
    (hpending : ∀ id pending, t.pending.get? id = some pending →
      s.pending.get? id = some pending)
    (hactive : t.activeCompletions = s.activeCompletions)
    (hclosed : t.closed = s.closed) : Attended t where
  active := fun id pending h => by
    rw [hactive]
    exact hs.active id pending (hpending id pending h)
  closed := by
    rw [hactive, hclosed]
    exact hs.closed

theorem Attended.settles (hs : Attended s) (h : Settles clock s t) :
    Attended t :=
  hs.of_eq (fun _ _ => h.pending) h.active.1 h.active.2

theorem Attended.beginCompletion (hs : Attended s)
    (authority : CompletionAuthority) :
    Attended (s.beginCompletion authority).2 := by
  unfold HarnessApprovalCoordinator.beginCompletion
  split
  case isTrue => exact hs
  case isFalse hopen =>
    split
    case isTrue => exact hs
    split
    case isTrue => exact hs
    case isFalse hfresh =>
      have hnone : s.activeCompletions.get? authority.completeCallId = none := by
        simpa using hfresh
      have hkept : ∀ c' : HarnessApprovalCoordinator,
          c'.pending = s.pending →
          c'.activeCompletions = s.activeCompletions →
          c'.closed = s.closed →
          Attended { c' with
            activeCompletions := c'.activeCompletions.put
              authority.completeCallId authority.interactionId } := by
        intro c' hpending hactive hclosed
        refine ⟨fun id pending h => ?_, fun h => ?_⟩
        · have hget := hs.active id pending (hpending ▸ h)
          dsimp only
          rw [hactive, Keyed.get?_put_of_ne _ _ ?_]
          · exact hget
          · intro heq
            rw [heq, hnone] at hget
            cases hget
        · exact absurd (hclosed.symm.trans h) hopen
      dsimp only
      split
      · exact hkept _ rfl rfl rfl
      · exact hkept _ rfl rfl rfl

theorem Attended.endRequests (hs : Attended s) (hids : OwnIds s)
    (completeCallId : String) (outcome : HarnessApprovalTerminalOutcome)
    (rationale : String) :
    Attended (s.endRequests clock completeCallId outcome rationale) := by
  unfold HarnessApprovalCoordinator.endRequests
  split
  case isFalse => exact hs
  case isTrue =>
    let ended : HarnessApprovalCoordinator := { s with
      activeCompletions := s.activeCompletions.erase completeCallId }
    have hended : OwnIds ended := hids
    obtain ⟨hsettles, hgone⟩ := terminateMatching_settles clock
      hended (fun request =>
        Decidable.decide (request.correlation.completeCallId = completeCallId))
      outcome .host rationale
    refine ⟨fun id pending h => ?_, fun h call => ?_⟩
    · have hother := of_decide_eq_false (hgone id pending h)
      refine (congrArg (fun table : Keyed String ℤ => table.get? _)
        hsettles.active.1).trans ?_
      refine (Keyed.get?_erase_of_ne _ hother).trans ?_
      exact hs.active id pending (hsettles.pending h)
    · refine (congrArg (fun table : Keyed String ℤ => table.get? _)
        hsettles.active.1).trans ?_
      have hnone := hs.closed (hsettles.active.2.symm.trans h) call
      refine (Keyed.get?_erase _ _ _).trans ?_
      rw [hnone, ite_self]

theorem Attended.close (hs : Attended s) (hids : OwnIds s)
    (rationale : String) : Attended (s.close clock rationale) := by
  unfold HarnessApprovalCoordinator.close
  split
  case isTrue => exact hs
  case isFalse =>
    let shut : HarnessApprovalCoordinator := { s with
      closed := true
      activeCompletions := .empty }
    have hshut : OwnIds shut := hids
    obtain ⟨hsettles, hgone⟩ := terminateMatching_settles clock
      hshut (fun _ => true) .aborted .host rationale
    refine ⟨fun id pending h => ?_, fun _ call => ?_⟩
    · cases hgone id pending h
    · exact congrArg (fun table : Keyed String ℤ => table.get? call)
        hsettles.active.1

theorem settleAdmitted_attended {pending : PendingApproval}
    (hs : Attended s) (hids : OwnIds s)
    (hpending : s.pending.get? pending.request.requestId = some pending) :
    Attended (s.settleAdmitted clock pending).2 :=
  hs.settles (settleAdmitted_settles hids hpending)

theorem Attended.admits (hs : Attended s) (h : Admits clock s t) :
    Attended t := by
  cases h with
  | @admitRequest request options _ hactive _ _ =>
      refine ⟨fun id pending hget => ?_, hs.closed⟩
      rw [admit_pending, Keyed.get?_put] at hget
      split at hget
      case isTrue =>
        obtain rfl := Option.some.inj hget
        exact hactive
      case isFalse => exact hs.active id pending hget

theorem Attended.request (hs : Attended s) (hids : OwnIds s)
    (authority : CompletionAuthority) (nextRequestId : String)
    (input : Supplied HarnessApprovalRequestInput)
    (options : Option (Supplied HarnessApprovalRequestOptions)) :
    Attended (s.request clock authority nextRequestId input options).2 := by
  rcases request_shaped (s := s) clock authority nextRequestId input options
    with hrefused | ⟨m, request, given, hprunes, hactive, hclosed, hadmits,
      _, _, hanswer⟩
  · refine hs.of_eq (fun id pending h => ?_) hrefused.active hrefused.closed
    rwa [← hrefused.prunes.pending]
  · rw [hanswer]
    have hm : Attended m :=
      hs.of_eq (fun id pending h => by rwa [← hprunes.pending]) hactive
        hclosed
    have hown : OwnIds m := by
      rw [OwnIds, hprunes.pending]
      exact hids
    refine (hm.admits hadmits).settles
      (settleAdmitted_settles (hown.admitRequest request given) ?_)
    rw [admit_pending]
    exact Keyed.get?_put_self _ _ _

theorem Attended.snapshot (hs : Attended s) (interactionId after : ℤ) :
    Attended (s.snapshot interactionId after).2 := by
  unfold HarnessApprovalCoordinator.snapshot
  split
  case isTrue => exact hs
  split
  case isTrue => exact hs
  dsimp only
  split
  case isTrue => exact hs.of_eq (fun _ _ h => h) rfl rfl
  case isFalse => exact hs

theorem Attended.endCompletion (hs : Attended s) (hids : OwnIds s)
    (completeCallId : String) (outcome : Supplied CompletionOutcome)
    (rationale : Supplied String) :
    Attended (s.endCompletion clock completeCallId outcome rationale).2 := by
  unfold HarnessApprovalCoordinator.endCompletion
  split
  case h_1 => exact hs.endRequests hids _ _ _
  case h_2 =>
    split
    case h_1 => exact hs.endRequests hids _ _ _
    case h_2 => exact hs.endRequests hids _ _ _

theorem Attended.run (hs : Attended s) (hids : OwnIds s)
    (call : ApprovalCall) : Attended (s.run clock call) := by
  cases call with
  | beginCompletion authority => exact hs.beginCompletion authority
  | request authority nextRequestId input options =>
      exact hs.request hids authority nextRequestId input options
  | decide requestId input => exact hs.settles (decide_settles hids _ _)
  | snapshot interactionId after => exact hs.snapshot interactionId after
  | endCompletion completeCallId outcome rationale =>
      exact hs.endCompletion hids completeCallId outcome rationale
  | close rationale => exact hs.close hids rationale
  | abort signal reason => exact hs.settles (abort_settles hids _ _)

theorem attended_of_unused (hs : ApprovalsUnused s) : Attended s := by
  obtain ⟨threadId, harnessSessionId, graceMs, _, _, rfl⟩ := hs
  exact ⟨fun id pending h => (by cases h), fun _ _ => rfl⟩

theorem sound_of_reachable (hs : (approvalSystem clock).Reachable s) :
    Sound s ∧ Attended s := by
  refine Reachable.invariant (P := fun s => Sound s ∧ Attended s) hs
    (fun _ h => ⟨sound_of_unused h, attended_of_unused h⟩) ?_
  rintro before call _ _ ⟨hsound, hattended⟩ rfl
  exact ⟨hsound.run call, hattended.run hsound.accounted.ownIds call⟩

/-! ## Dropped streams -/

/-- The interaction has a stream before, and none after. -/
def Drops (i : ℤ) (s t : HarnessApprovalCoordinator) : Prop :=
  (s.streams.get? i).isSome = true ∧ t.streams.get? i = none

/-- What the journal gains, the stream of the interaction gains. -/
def Extends (i : ℤ) (s t : HarnessApprovalCoordinator) : Prop :=
  ∃ added, t.journal = s.journal ++ added ∧
    t.retained i = s.retained i ++ eventsOf i added

theorem Extends.trans {i : ℤ} (hst : Extends i s m) (hmt : Extends i m t) :
    Extends i s t := by
  obtain ⟨first, hfirst, hretained⟩ := hst
  obtain ⟨second, hsecond, hretained'⟩ := hmt
  refine ⟨first ++ second, by rw [hsecond, hfirst, List.append_assoc], ?_⟩
  rw [hretained', hretained, eventsOf_append, List.append_assoc]

theorem not_pending_of_settled {i : ℤ} (h : s.interactionPending i = false)
    {id : String} {pending : PendingApproval}
    (hget : s.pending.get? id = some pending) :
    pending.request.correlation.interactionId ≠ i := by
  have hnone := of_decide_eq_false h
  rw [pendingCount, gt_iff_lt, List.countP_pos_iff] at hnone
  intro heq
  exact hnone ⟨_, Keyed.mem_rows_of_get? hget, by simpa using heq⟩

/-- A call drops a stream only when it may, and extends every other. -/
theorem run_streams (hs : Sound s) (call : ApprovalCall) (i : ℤ) :
    (Drops i s (s.run clock call) → MayDrop clock s call i) ∧
      (¬ Drops i s (s.run clock call) → Extends i s (s.run clock call)) := by
  obtain ⟨m, m', hprunes, hadmits, hsettles⟩ :=
    run_shaped clock hs.accounted.ownIds call
  have happends : Appends m (s.run clock call) := by
    rcases hadmits with rfl | hadmits
    · exact hsettles.appends
    · exact hadmits.1.appends.trans hsettles.appends
  obtain ⟨hstay, added, hjournal, hretained⟩ := happends
  have hjournal' : (s.run clock call).journal = s.journal ++ added := by
    rw [hjournal, hprunes.journal]
  rcases hprunes.streams i with hkept | ⟨hguard, hgone⟩
  · refine ⟨fun hdrops => ?_, fun _ => ⟨added, hjournal', ?_⟩⟩
    · have hsome := hstay i (hkept ▸ hdrops.1)
      rw [hdrops.2] at hsome
      cases hsome
    · rw [hretained, retained, hkept]
      rfl
  · refine ⟨fun _ => hguard, fun hnot => ?_⟩
    have hsettled : m.interactionPending i = false := by
      rw [interactionPending_congr hprunes.pending]
      exact hguard.settled
    have hnone : (s.run clock call).streams.get? i = none := by
      rcases hadmits with rfl | ⟨_, hbeside⟩
      · rw [hsettles.streams fun _ _ => not_pending_of_settled hsettled]
        exact hgone
      · obtain ⟨hstreams, hpending⟩ := hbeside i hguard
        rw [hsettles.streams fun _ _ =>
          not_pending_of_settled (hpending.trans hsettled), hstreams]
        exact hgone
    have habsent : s.streams.get? i = none := by
      cases hget : s.streams.get? i with
      | none => rfl
      | some stream => exact absurd ⟨by rw [hget]; rfl, hnone⟩ hnot
    refine ⟨added, hjournal', ?_⟩
    rw [hretained, retained, retained, hgone, habsent]

/-! ## Observers -/

theorem latestSequence_eq (hs : Numbered s) (i : ℤ) :
    s.latestSequence i = (s.retained i).length := by
  rw [latestSequence, retained]
  cases hget : s.streams.get? i with
  | none => rfl
  | some stream =>
      have hnext := (hs i stream hget).1
      dsimp only
      omega

theorem sequences_retained (hs : Numbered s) (i : ℤ) :
    (s.retained i).map HarnessApprovalEvent.sequence =
      List.range' 1 (s.latestSequence i) := by
  rw [latestSequence_eq hs, retained]
  cases hget : s.streams.get? i with
  | none => rfl
  | some stream => exact (hs i stream hget).2

/-- Of a numbered list, a cursor selects what follows its position. -/
theorem filter_after {events later : List HarnessApprovalEvent}
    (h : (events ++ later).map HarnessApprovalEvent.sequence =
      List.range' 1 (events ++ later).length) :
    (events ++ later).filter (fun event =>
      Decidable.decide ((events.length : ℤ) < (event.sequence : ℤ))) =
        later := by
  rw [List.length_append, ← List.range'_append_1, List.map_append] at h
  have hlength : (events.map HarnessApprovalEvent.sequence).length =
      (List.range' 1 events.length).length := by simp
  obtain ⟨hevents, hlater⟩ := List.append_inj h hlength
  rw [List.filter_append, List.filter_eq_nil_iff.mpr, List.nil_append,
    List.filter_eq_self]
  · intro event hmem
    have hsequence : event.sequence ∈ List.range' (1 + events.length)
        later.length := hlater ▸ List.mem_map_of_mem hmem
    have hbound := (List.mem_range'_1.mp hsequence).1
    simp only [decide_eq_true_eq]
    omega
  · intro event hmem
    have hsequence : event.sequence ∈ List.range' 1 events.length :=
      hevents ▸ List.mem_map_of_mem hmem
    have hbound := (List.mem_range'_1.mp hsequence).2
    simp only [decide_eq_true_eq, not_lt]
    omega

/-- Calls that do not drop the stream of an interaction. -/
def UndroppedCall (clock : ApprovalClock) (i : ℤ)
    (s t : HarnessApprovalCoordinator) : Prop :=
  (∃ call, t = s.run clock call) ∧ ¬ Drops i s t

abbrev UndroppedRun (clock : ApprovalClock) (i : ℤ) :=
  Relation.ReflTransGen (UndroppedCall clock i)

theorem UndroppedRun.extends {i : ℤ} (h : UndroppedRun clock i s t)
    (hs : Sound s) : Sound t ∧ Extends i s t := by
  induction h with
  | refl => exact ⟨hs, [], by simp, by simp [eventsOf]⟩
  | tail _ hlast ih =>
      obtain ⟨hsound, hextends⟩ := ih
      obtain ⟨⟨call, rfl⟩, hkept⟩ := hlast
      exact ⟨hsound.run call,
        hextends.trans ((run_streams hsound call i).2 hkept)⟩

/-- What an observer reads with the last cursor it saw. -/
theorem snapshot_after {i : ℤ} (hs : Sound s) (hi : positiveInteger i)
    (h : UndroppedRun clock i s t) :
    ∃ answer c' added, t.snapshot i (s.latestSequence i) = (.ok answer, c') ∧
      t.journal = s.journal ++ added ∧ answer.events = eventsOf i added ∧
      answer.latestSequence = t.latestSequence i := by
  obtain ⟨ht, added, hjournal, hretained⟩ := UndroppedRun.extends h hs
  have hlatest := latestSequence_eq hs.numbered i
  have hcursor : (0 : ℤ) ≤ s.latestSequence i ∧
      (s.latestSequence i : ℤ) ≤ 2 ^ 53 - 1 := by
    have hbound := hs.bounded.interaction i
    have hlimit : maxHarnessApprovalRetainedEvents = 1024 := rfl
    omega
  have hevents : (t.retained i).filter (fun event => Decidable.decide
      ((s.latestSequence i : ℤ) < (event.sequence : ℤ))) =
        eventsOf i added := by
    rw [hretained, hlatest]
    refine filter_after ?_
    rw [← hretained, sequences_retained ht.numbered,
      latestSequence_eq ht.numbered]
  rw [snapshot, if_neg (not_not.mpr hi), if_neg (not_not.mpr hcursor)]
  dsimp only
  split
  · exact ⟨_, _, added, rfl, hjournal, hevents, rfl⟩
  · exact ⟨_, _, added, rfl, hjournal, hevents, rfl⟩

/-! ## What a request answers -/

theorem approvalString_ok {value label : String} {maxLength : ℕ}
    {normalized : Bool} {text : String}
    (h : approvalString value label maxLength normalized = .ok text)
    (label' : String) :
    approvalString value label' maxLength normalized = .ok value := by
  simp only [approvalString, bind_eq_ok_iff, require_eq_ok_iff,
    pure_eq_ok_iff] at h ⊢
  obtain ⟨_, h₁, _, h₂, _, h₃, _⟩ := h
  exact ⟨(), h₁, (), h₂, (), h₃, trivial⟩

/-- The decision a matching grant makes is accepted. -/
theorem createHarnessApprovalDecision_granted (clock : ApprovalClock)
    {request : HarnessApprovalRequest} {grant : HarnessApprovalSessionGrant}
    (h : requestMatchesHarnessApprovalSessionGrant request grant = true)
    (k : ℕ) :
    createHarnessApprovalDecision ⟨request.requestId, .approveOnce, none⟩
      (.sessionGrant grant.sourceRequestId) (clock.now k) =
        .ok ⟨request.requestId, .approveOnce,
          .sessionGrant grant.sourceRequestId, clock.now k, none⟩ := by
  unfold requestMatchesHarnessApprovalSessionGrant at h
  split at h
  case h_2 => cases h
  case h_1 _ matched hmatched =>
    simp only [matchSessionGrant, parseHarnessApprovalRequest,
      bind_eq_ok_iff] at hmatched
    obtain ⟨_, ⟨_, _, _, _, _, _, _, hid, _⟩, _, _, _, _, _, hsource, _⟩ :=
      hmatched
    have hid' := approvalString_ok hid "approval decision requestId"
    have hsource' := approvalString_ok hsource
      "approval decision sourceRequestId"
    have htime := clock.timestamp k "approval decision decidedAt"
    simp only [createHarnessApprovalDecision, parseActor,
      parseHarnessApprovalDecisionSubmission, parseHarnessApprovalDecision,
      parseOptional, bind_eq_ok_iff, pure_eq_ok_iff]
    exact ⟨_, ⟨_, hid', none, rfl, rfl⟩, _, hid', _, htime, none, rfl, _,
      ⟨_, hsource', rfl⟩, rfl⟩

theorem settleAdmitted_ok (s : HarnessApprovalCoordinator)
    (pending : PendingApproval) :
    (s.settleAdmitted clock pending).1 = .ok pending.promise := by
  unfold settleAdmitted
  split
  case h_1 => rfl
  case h_2 =>
    split
    case h_1 => rfl
    case h_2 grant hgrant =>
      have hmatches := List.find?_some hgrant
      rw [createHarnessApprovalDecision_granted clock hmatches]

/-- A request is admitted and hands out the next promise, or it is refused
and nothing waits or is recorded for it. -/
theorem request_answer (clock : ApprovalClock) (hids : OwnIds s)
    (authority : CompletionAuthority) (nextRequestId : String)
    (input : Supplied HarnessApprovalRequestInput)
    (options : Option (Supplied HarnessApprovalRequestOptions)) :
    let answer := s.request clock authority nextRequestId input options
    (answer.1 = .ok s.promises ∧ answer.2.promises = s.promises + 1) ∨
      (∃ failure, answer.1 = .error failure ∧
        answer.2.promises = s.promises ∧ answer.2.pending = s.pending ∧
        answer.2.journal = s.journal ∧
        ∀ message, failure = .coordinator .approvalEventBacklogFull message →
          BacklogFull clock s answer.2 authority.interactionId) := by
  intro answer
  rcases request_shaped (s := s) clock authority nextRequestId input options
    with hrefused | ⟨m, request, given, hprunes, _, _, _, _, _, hanswer⟩
  · obtain ⟨failure, hfailure, hfull⟩ := hrefused.failure
    exact .inr ⟨failure, hfailure, hrefused.prunes.promises,
      hrefused.prunes.pending, hrefused.prunes.journal, hfull⟩
  · have hown : OwnIds m := by
      rw [OwnIds, hprunes.pending]
      exact hids
    have hadmitted : OwnIds (m.admitRequest clock request given) :=
      hown.admitRequest request given
    have hsettles : Settles clock (m.admitRequest clock request given)
        ((m.admitRequest clock request given).settleAdmitted clock
          ⟨request, m.promises, given⟩).2 :=
      settleAdmitted_settles hadmitted (Keyed.get?_put_self _ _ _)
    refine .inl ⟨?_, ?_⟩
    · rw [show answer = _ from hanswer, settleAdmitted_ok, hprunes.promises]
    · rw [show answer = _ from hanswer, hsettles.promises]
      exact congrArg (· + 1) hprunes.promises

end HarnessApprovalCoordinator

open HarnessApprovalCoordinator

/-! ## Approval coordination -/

/-- In every state a run reaches: each promise handed out has one requested
event and is pending for an active completion, or has one resolved event after
it and was settled once; each stream is numbered from one; and both bounds
hold.  A call drops a stream only where it may, an observer that reads on
while its stream is not dropped receives every later event once, and a request
is admitted or leaves no trace. -/
theorem approvals_coordinated (clock : ApprovalClock)
    {s : HarnessApprovalCoordinator}
    (hs : (approvalSystem clock).Reachable s) :
    (∀ promise < s.promises,
      (∃ id pending, s.pending.get? id = some pending ∧
        pending.promise = promise ∧
        Announced pending (entriesOf promise s.journal) ∧
        s.closed = false ∧
        s.activeCompletions.get? pending.request.correlation.completeCallId =
          some pending.request.correlation.interactionId) ∨
      SettledOnce promise (entriesOf promise s.journal)) ∧
    (∀ promise, s.promises ≤ promise → entriesOf promise s.journal = []) ∧
    (∀ i, (s.retained i).map HarnessApprovalEvent.sequence =
      List.range' 1 (s.latestSequence i)) ∧
    Bounded s ∧
    (∀ call i, (Drops i s (s.run clock call) → MayDrop clock s call i) ∧
      (¬ Drops i s (s.run clock call) → Extends i s (s.run clock call))) ∧
    (∀ i t, positiveInteger i → UndroppedRun clock i s t →
      ∃ answer c' added,
        t.snapshot i (s.latestSequence i) = (.ok answer, c') ∧
        t.journal = s.journal ++ added ∧ answer.events = eventsOf i added ∧
        answer.latestSequence = t.latestSequence i) ∧
    (∀ authority nextRequestId input options,
      let answer := s.request clock authority nextRequestId input options
      (answer.1 = .ok s.promises ∧ answer.2.promises = s.promises + 1) ∨
        (∃ failure, answer.1 = .error failure ∧
          answer.2.promises = s.promises ∧ answer.2.pending = s.pending ∧
          answer.2.journal = s.journal ∧
          ∀ message,
            failure = .coordinator .approvalEventBacklogFull message →
              BacklogFull clock s answer.2 authority.interactionId)) := by
  obtain ⟨hsound, hattended⟩ := sound_of_reachable hs
  have haccounted := hsound.accounted
  refine ⟨?_, haccounted.unissued, sequences_retained hsound.numbered,
    hsound.bounded, run_streams hsound, ?_, ?_⟩
  · intro promise hissued
    by_cases hwaits : ∃ id pending, s.pending.get? id = some pending ∧
        pending.promise = promise
    · obtain ⟨id, pending, hpending, rfl⟩ := hwaits
      have hactive := hattended.active id pending hpending
      refine .inl ⟨id, pending, hpending, rfl,
        haccounted.announced id pending hpending, ?_, hactive⟩
      cases hclosed : s.closed with
      | false => rfl
      | true =>
          rw [hattended.closed hclosed] at hactive
          cases hactive
    · refine .inr (haccounted.settled promise hissued ?_)
      intro id pending hpending hsame
      exact hwaits ⟨id, pending, hpending, hsame⟩
  · intro i t hi hrun
    exact snapshot_after hsound hi hrun
  · intro authority nextRequestId input options
    exact request_answer clock haccounted.ownIds authority nextRequestId input
      options

/-! ## A sample -/

namespace ApprovalSample

theorem approvalTimestamp_now (label : String) :
    approvalTimestamp "2026-08-20T15:05:00.000Z" label =
      .ok "2026-08-20T15:05:00.000Z" := by
  simp only [approvalTimestamp, approvalString, bind_eq_ok_iff,
    require_eq_ok_iff, pure_eq_ok_iff]
  exact ⟨_, ⟨(), by decide, (), by decide, (),
    by decide, rfl⟩, (), by decide, rfl⟩

theorem dateParse_now :
    dateParse "2026-08-20T15:05:00.000Z" = some 1787238300000 := by
  decide

/-- A clock that stands still. -/
def clock : ApprovalClock where
  now _ := "2026-08-20T15:05:00.000Z"
  time _ := 1787238300000
  timestamp _ := approvalTimestamp_now
  parsed _ := dateParse_now
  monotone := monotone_const

def input (providerItemId : String) (scopeKeys : List String) :
    Supplied HarnessApprovalRequestInput :=
  .given ⟨providerItemId, "Run tests", "The change needs them",
    .command "npm test" "/workspace", scopeKeys, "npm test", none⟩

/-- Two interactions ask, and the answer to one covers the other. -/
def calls : List ApprovalCall :=
  [.beginCompletion ⟨17, "complete-1"⟩, .beginCompletion ⟨18, "complete-2"⟩,
    .request ⟨17, "complete-1"⟩ "request-1"
      (input "provider-1" ["cwd:/workspace", "command:npm test"]) none,
    .request ⟨18, "complete-2"⟩ "request-2"
      (input "provider-2" ["command:npm test"]) none,
    .decide "request-1" (.given ⟨.approveAlways, none⟩)]

def start : HarnessApprovalCoordinator :=
  .create 7 "session" abandonedStreamGraceMs

def final : HarnessApprovalCoordinator :=
  calls.foldl (HarnessApprovalCoordinator.run clock) start

theorem reachable_foldl (calls : List ApprovalCall)
    {s : HarnessApprovalCoordinator}
    (hs : (approvalSystem clock).Reachable s) :
    (approvalSystem clock).Reachable
      (calls.foldl (HarnessApprovalCoordinator.run clock) s) := by
  induction calls generalizing s with
  | nil => exact hs
  | cons call rest ih => exact ih (.step hs rfl)

theorem reachable_final : (approvalSystem clock).Reachable final :=
  reachable_foldl calls (.init ⟨7, "session", abandonedStreamGraceMs,
    by decide, by decide, rfl⟩)

end ApprovalSample

/-- The request that the grant covers is settled once. -/
theorem approvals_coordinated_granted :
    SettledOnce 1 (entriesOf 1 ApprovalSample.final.journal) := by
  have hfinal : (ApprovalSample.final.pending.rows.isEmpty &&
      decide (1 < ApprovalSample.final.promises)) = true := by decide +kernel
  obtain ⟨hempty, hpromises⟩ := Bool.and_eq_true_iff.mp hfinal
  have hpending := List.isEmpty_iff.mp hempty
  have hissued := of_decide_eq_true hpromises
  rcases (approvals_coordinated ApprovalSample.clock
      ApprovalSample.reachable_final).1 1 hissued with
    ⟨id, pending, hget, _⟩ | hsettled
  · have hmem := Keyed.mem_rows_of_get? hget
    rw [hpending] at hmem
    cases hmem
  · exact hsettled

end RelayerGraph
