import RelayerGraph.Harness.CoordinatorSystem

/-!
# The accounts of the approval coordinator

What holds of every coordinator a run reaches: the journal has one account for
each promise handed out, the streams are numbered from one and are the latest
of what the journal records, and both bounds hold with a slot reserved for the
resolution of every pending request.
-/

namespace RelayerGraph

open Foundation Checked

def ApprovalEntry.promise : ApprovalEntry → ℕ
  | .event promise _ => promise
  | .settled promise _ => promise

namespace HarnessApprovalCoordinator

variable {clock : ApprovalClock} {s t m : HarnessApprovalCoordinator}

/-- What the journal records about a promise. -/
def entriesOf (promise : ℕ) (journal : List ApprovalEntry) :
    List ApprovalEntry :=
  journal.filter fun entry => entry.promise = promise

theorem entriesOf_append (promise : ℕ)
    (xs ys : List ApprovalEntry) :
    entriesOf promise (xs ++ ys) =
      entriesOf promise xs ++ entriesOf promise ys :=
  List.filter_append ..

/-! ## The accounts -/

/-- One requested event, later one resolved event, then the promise is
settled by what the event says. -/
def SettledOnce (promise : ℕ) (entries : List ApprovalEntry) :
    Prop :=
  ∃ first last request resolution settlement,
    entries = [.event promise ⟨first, .requested request⟩,
      .event promise ⟨last, .resolved resolution⟩,
      .settled promise settlement] ∧
    resolution.requestId = request.requestId ∧
    resolution.correlation = request.correlation ∧
    PromiseSettled resolution settlement

/-- One requested event, and nothing else. -/
def Announced (pending : PendingApproval) (entries : List ApprovalEntry) :
    Prop :=
  ∃ first, entries = [.event pending.promise
    ⟨first, .requested (publicRequest pending.request)⟩]

/-- Every promise handed out is announced and pending, or settled once. -/
structure Accounted (s : HarnessApprovalCoordinator) : Prop where
  ownIds : OwnIds s
  issued : ∀ id pending, s.pending.get? id = some pending →
    pending.promise < s.promises
  distinct : ∀ id id' pending pending', s.pending.get? id = some pending →
    s.pending.get? id' = some pending' →
    pending.promise = pending'.promise → id = id'
  announced : ∀ id pending, s.pending.get? id = some pending →
    Announced pending (entriesOf pending.promise s.journal)
  settled : ∀ promise < s.promises,
    (∀ id pending, s.pending.get? id = some pending →
      pending.promise ≠ promise) →
    SettledOnce promise (entriesOf promise s.journal)
  unissued : ∀ promise, s.promises ≤ promise →
    entriesOf promise s.journal = []

theorem Accounted.of_eq (hs : Accounted s) (hpending : t.pending = s.pending)
    (hpromises : t.promises = s.promises) (hjournal : t.journal = s.journal) :
    Accounted t := by
  obtain ⟨hown, hissued, hdistinct, hannounced, hsettled, hunissued⟩ := hs
  rw [OwnIds, ← hpending] at hown
  rw [← hpending, ← hpromises] at hissued
  rw [← hpending] at hdistinct
  rw [← hpending, ← hjournal] at hannounced
  rw [← hpending, ← hpromises, ← hjournal] at hsettled
  rw [← hpromises, ← hjournal] at hunissued
  exact ⟨hown, hissued, hdistinct, hannounced, hsettled, hunissued⟩

theorem Accounted.admits (hs : Accounted s) (h : Admits clock s t) :
    Accounted t := by
  cases h with
  | @admitRequest request options hfresh _ _ _ =>
      -- The journal gains the announcement of the new promise only.
      obtain ⟨n, hjournal⟩ : ∃ n, (s.admitRequest clock request options).journal =
          s.journal ++ [.event s.promises
            ⟨n, .requested (publicRequest request)⟩] := ⟨_, rfl⟩
      have hpromises : (s.admitRequest clock request options).promises =
          s.promises + 1 := rfl
      have hold : ∀ promise ≠ s.promises,
          entriesOf promise (s.admitRequest clock request options).journal =
            entriesOf promise s.journal := by
        intro promise hne
        rw [hjournal, entriesOf_append]
        simp [entriesOf, ApprovalEntry.promise, hne.symm]
      have hnew : entriesOf s.promises
          (s.admitRequest clock request options).journal =
            [.event s.promises ⟨n, .requested (publicRequest request)⟩] := by
        rw [hjournal, entriesOf_append, hs.unissued _ le_rfl]
        simp [entriesOf, ApprovalEntry.promise]
      have hpending : ∀ id pending,
          (s.admitRequest clock request options).pending.get? id = some pending →
            (id = request.requestId ∧
              pending = ⟨request, s.promises, options⟩) ∨
            (s.pending.get? id = some pending ∧
              pending.promise < s.promises) := by
        intro id pending h
        rw [admit_pending, Keyed.get?_put] at h
        split at h
        case isTrue hid => exact .inl ⟨hid, (Option.some.inj h).symm⟩
        case isFalse => exact .inr ⟨h, hs.issued id pending h⟩
      refine ⟨hs.ownIds.admitRequest request options, ?_, ?_, ?_, ?_, ?_⟩
      · intro id pending h
        rw [hpromises]
        rcases hpending id pending h with ⟨_, rfl⟩ | ⟨_, hlt⟩
        · exact Nat.lt_succ_self _
        · omega
      · intro id id' pending pending' h h' hsame
        rcases hpending id pending h with ⟨rfl, rfl⟩ | ⟨hget, hlt⟩
        · rcases hpending id' pending' h' with ⟨rfl, rfl⟩ | ⟨_, hlt'⟩
          · rfl
          · dsimp only at hsame
            omega
        · rcases hpending id' pending' h' with ⟨rfl, rfl⟩ | ⟨hget', _⟩
          · dsimp only at hsame
            omega
          · exact hs.distinct id id' pending pending' hget hget' hsame
      · intro id pending h
        rcases hpending id pending h with ⟨_, rfl⟩ | ⟨hget, hlt⟩
        · exact ⟨n, hnew⟩
        · rw [hold _ hlt.ne]
          exact hs.announced id pending hget
      · intro promise hlt hnone
        have hne : promise ≠ s.promises := by
          rintro rfl
          refine hnone request.requestId ⟨request, s.promises, options⟩ ?_ rfl
          rw [admit_pending]
          exact Keyed.get?_put_self _ _ _
        rw [hold _ hne]
        refine hs.settled promise (by omega) fun id pending hget => ?_
        refine hnone id pending ?_
        rw [admit_pending, Keyed.get?_put_of_ne _ _ ?_]
        · exact hget
        · rintro rfl
          cases hfresh.symm.trans hget
      · intro promise hle
        have hne : promise ≠ s.promises := by omega
        rw [hold _ hne]
        exact hs.unissued promise (by omega)

theorem Accounted.settle (hs : Accounted s) (h : Settle clock s t) :
    Accounted t := by
  cases h with
  | book _ _ hpending _ _ hpromises hjournal _ =>
      exact hs.of_eq hpending hpromises hjournal
  | @finish pending resolution settlement hget hid hcorrelation hanswer =>
      -- The journal gains the end of the account of this promise.
      obtain ⟨n, hjournal⟩ : ∃ n, ((s.finish clock pending resolution).settle
          pending.promise settlement).journal = s.journal ++
            ([.event pending.promise ⟨n, .resolved resolution⟩,
              .settled pending.promise settlement]) := by
        refine ⟨s.nextSequence resolution.correlation.interactionId, ?_⟩
        exact List.append_assoc s.journal [_] [_]
      have hold : ∀ promise ≠ pending.promise,
          entriesOf promise ((s.finish clock pending resolution).settle
            pending.promise settlement).journal =
              entriesOf promise s.journal := by
        intro promise hne
        rw [hjournal, entriesOf_append]
        simp [entriesOf, ApprovalEntry.promise, hne.symm]
      have hstill : ∀ id other,
          ((s.finish clock pending resolution).settle pending.promise
            settlement).pending.get? id = some other →
          s.pending.get? id = some other ∧
            other.promise ≠ pending.promise := by
        intro id other h
        rw [finish_pending, Keyed.get?_erase] at h
        split at h
        case isTrue => cases h
        case isFalse hne =>
          exact ⟨h, fun hsame => hne (hs.distinct _ _ _ _ h hget hsame)⟩
      refine ⟨hs.ownIds.settles (.single (.finish hget hid hcorrelation
        hanswer)), ?_, ?_, ?_, ?_, ?_⟩
      · exact fun id other h => hs.issued id other (hstill id other h).1
      · exact fun id id' other other' h h' => hs.distinct id id' other other'
          (hstill id other h).1 (hstill id' other' h').1
      · intro id other h
        obtain ⟨hother, hne⟩ := hstill id other h
        rw [hold _ hne]
        exact hs.announced id other hother
      · intro promise hlt hnone
        by_cases hsame : promise = pending.promise
        · subst hsame
          obtain ⟨first, hfirst⟩ := hs.announced _ _ hget
          rw [hjournal, entriesOf_append, hfirst]
          refine ⟨first, n, publicRequest pending.request, resolution,
            settlement, ?_, hid, hcorrelation, hanswer⟩
          simp [entriesOf, ApprovalEntry.promise]
        · rw [hold _ hsame]
          refine hs.settled promise hlt fun id other hother => ?_
          by_cases hid' : id = pending.request.requestId
          · subst hid'
            obtain rfl := Option.some.inj (hother.symm.trans hget)
            exact fun h => hsame h.symm
          · refine hnone id other ?_
            rw [finish_pending, Keyed.get?_erase_of_ne _ hid']
            exact hother
      · intro promise hle
        have hlt := hs.issued _ _ hget
        have hle' : s.promises ≤ promise := hle
        rw [hold _ (by omega)]
        exact hs.unissued promise hle'

/-! ## The streams -/

/-- The events of each stream are numbered 1, 2, 3, ... -/
def Numbered (s : HarnessApprovalCoordinator) : Prop :=
  ∀ i stream, s.streams.get? i = some stream →
    stream.nextSequence = stream.events.length + 1 ∧
      stream.events.map HarnessApprovalEvent.sequence =
        List.range' 1 stream.events.length

/-- What a stream retains is the latest of what was recorded. -/
def Recorded (s : HarnessApprovalCoordinator) : Prop :=
  ∀ i, s.retained i <:+ eventsOf i s.journal

theorem Recorded.appends (hs : Recorded s) (h : Appends s t) : Recorded t := by
  obtain ⟨_, added, hjournal, hretained⟩ := h
  intro i
  obtain ⟨before, hbefore⟩ := hs i
  refine ⟨before, ?_⟩
  rw [hretained, hjournal, eventsOf_append, ← hbefore, List.append_assoc]

theorem Recorded.prunes {guard : ℤ → Prop} (hs : Recorded s)
    (h : Prunes guard s m) : Recorded m := by
  intro i
  rw [h.journal]
  rcases h.streams i with hkept | ⟨_, hgone⟩
  · rw [retained, hkept]
    exact hs i
  · rw [retained, hgone]
    exact List.nil_suffix

theorem Numbered.append (hs : Numbered s) (promise : ℕ)
    (notice : HarnessApprovalNotice) :
    Numbered (s.append clock promise notice) := by
  intro i stream hstream
  by_cases hi : i = notice.interactionId
  · subst hi
    have hput := Option.some.inj
      ((Keyed.get?_put_self s.streams _ _).symm.trans hstream)
    cases hget : s.streams.get? notice.interactionId with
    | none =>
        rw [hget] at hput
        subst hput
        exact ⟨rfl, rfl⟩
    | some old =>
        obtain ⟨hnext, hevents⟩ := hs _ old hget
        rw [hget] at hput
        subst hput
        constructor
        · simp [hnext]
        · simp only [Option.getD_some, List.map_append, hevents, hnext,
            List.length_append, List.map_cons, List.map_nil,
            List.length_singleton]
          rw [List.range'_concat, Nat.one_mul, Nat.add_comm 1]
  · exact hs i stream ((Keyed.get?_put_of_ne _ _ hi).symm.trans hstream)

theorem Numbered.of_eq (hs : Numbered s) (h : t.streams = s.streams) :
    Numbered t := by
  rw [Numbered, h]
  exact hs

theorem Numbered.prunes {guard : ℤ → Prop} (hs : Numbered s)
    (h : Prunes guard s m) : Numbered m := by
  intro i stream hstream
  rcases h.streams i with hkept | ⟨_, hgone⟩
  · exact hs i stream (hkept.symm.trans hstream)
  · cases hgone.symm.trans hstream

theorem Numbered.admits (hs : Numbered s) (h : Admits clock s t) :
    Numbered t := by
  cases h with
  | @admitRequest request options _ _ _ _ =>
      exact Numbered.append (s := { s with
        promises := s.promises + 1
        pending := s.pending.put request.requestId
          ⟨request, s.promises, options⟩ }) hs _ _

theorem Numbered.settle (hs : Numbered s) (h : Settle clock s t) :
    Numbered t := by
  cases h with
  | book _ _ _ _ hstreams _ _ _ => exact hs.of_eq hstreams
  | @finish pending resolution settlement _ _ _ _ =>
      have hfinish : Numbered (s.finish clock pending resolution) :=
        Numbered.append (s := { s with pending := _, terminal := _ }) hs
          pending.promise (.resolved resolution)
      exact hfinish.of_eq rfl

/-! ## The bounds -/

theorem sessionRetained_append (clock : ApprovalClock) (promise : ℕ)
    (notice : HarnessApprovalNotice) :
    (s.append clock promise notice).sessionRetained =
      s.sessionRetained + 1 := by
  have hput := ((Keyed.rows_put_perm s.streams notice.interactionId
    ⟨((s.streams.get? notice.interactionId).getD ⟨[], 1, 0⟩).events ++
        [⟨s.nextSequence notice.interactionId, notice⟩],
      s.nextSequence notice.interactionId + 1,
      clock.time s.clockReads⟩).map fun row => row.2.events.length).sum_eq
  have hrest : s.sessionRetained =
      ((s.streams.get? notice.interactionId).getD ⟨[], 1, 0⟩).events.length +
        (s.deleteStream notice.interactionId).sessionRetained := by
    cases hget : s.streams.get? notice.interactionId with
    | none =>
        rw [sessionRetained, sessionRetained, deleteStream,
          Keyed.rows_erase_of_none hget]
        simp
    | some stream => exact sessionRetained_deleteStream hget
  simp only [List.map_cons, List.sum_cons, List.length_append,
    List.length_singleton] at hput
  rw [hrest, sessionRetained, deleteStream, sessionRetained]
  refine hput.trans ?_
  dsimp only
  omega

/-- Both bounds, a slot being reserved for each pending request, and those of
the tombstones and of the grants. -/
structure Bounded (s : HarnessApprovalCoordinator) : Prop where
  interaction : ∀ i, (s.retained i).length + s.pendingCount i ≤
    maxHarnessApprovalRetainedEvents
  session : s.sessionRetained + s.pending.rows.length ≤
    maxHarnessApprovalSessionRetainedEvents
  tombstones : s.terminal.rows.length ≤ maxHarnessApprovalTerminalTombstones
  grants : s.grants.length ≤ maxHarnessApprovalSessionGrants

theorem Bounded.prunes {guard : ℤ → Prop} (hs : Bounded s)
    (h : Prunes guard s m) : Bounded m where
  interaction := fun i => by
    have hbefore := hs.interaction i
    rw [pendingCount_congr h.pending]
    rcases h.streams i with hkept | ⟨_, hgone⟩
    · rw [retained, hkept]
      exact hbefore
    · rw [retained, hgone, List.length_nil]
      omega
  session := by
    have hbefore := hs.session
    have hretained := h.retained
    rw [h.pending]
    omega
  tombstones := h.terminal.trans hs.tombstones
  grants := h.grants ▸ hs.grants

theorem pendingCount_erase {pending : PendingApproval}
    (hget : s.pending.get? pending.request.requestId = some pending) (i : ℤ) :
    s.pendingCount i =
      (s.pending.erase pending.request.requestId).rows.countP (fun row =>
        row.2.request.correlation.interactionId = i) +
        if pending.request.correlation.interactionId = i then 1 else 0 := by
  have hperm := Keyed.rows_perm_erase hget
  rw [pendingCount, hperm.countP_eq, List.countP_cons]
  simp

theorem length_eventsOf_singleton (i : ℤ) (promise : ℕ)
    (n : ℕ) (notice : HarnessApprovalNotice) :
    (eventsOf i [.event promise ⟨n, notice⟩]).length =
      if notice.interactionId = i then 1 else 0 := by
  by_cases hi : notice.interactionId = i <;> simp [eventsOf, hi]

theorem Bounded.admits (hs : Bounded s) (h : Admits clock s t) :
    Bounded t := by
  cases h with
  | @admitRequest request options hfresh _ hinteraction hsession =>
      let waiting : HarnessApprovalCoordinator := { s with
        promises := s.promises + 1
        pending := s.pending.put request.requestId
          ⟨request, s.promises, options⟩ }
      have hadmitted : s.admitRequest clock request options = waiting.append clock
          s.promises (.requested (publicRequest request)) := rfl
      refine ⟨fun i => ?_, ?_, hs.tombstones, hs.grants⟩
      · have hbefore := hs.interaction i
        have hretained := append_retained (s := waiting) clock s.promises
          (.requested (publicRequest request)) i
        rw [← hadmitted] at hretained
        have hwaiting : waiting.retained i = s.retained i := rfl
        rw [hretained, List.length_append, length_eventsOf_singleton,
          pendingCount_put hfresh, hwaiting]
        have hsame : (HarnessApprovalNotice.requested
            (publicRequest request)).interactionId =
              request.correlation.interactionId := rfl
        rw [hsame]
        split
        case isTrue hi =>
          subst hi
          omega
        case isFalse => omega
      · have hretained := sessionRetained_append (s := waiting) clock
          s.promises (.requested (publicRequest request))
        have hwaiting : waiting.sessionRetained = s.sessionRetained := rfl
        rw [← hadmitted, hwaiting] at hretained
        rw [hretained, admit_pending, Keyed.rows_put_of_none _ hfresh,
          List.length_append, List.length_singleton]
        omega

theorem Bounded.settle (hs : Bounded s) (h : Settle clock s t) :
    Bounded t := by
  cases h with
  | book _ _ hpending hterminal hstreams _ _ hgrants =>
      refine ⟨fun i => ?_, ?_, hterminal ▸ hs.tombstones, hgrants hs.grants⟩
      · rw [retained_congr hstreams, pendingCount_congr hpending]
        exact hs.interaction i
      · rw [sessionRetained, hstreams, hpending]
        exact hs.session
  | @finish pending resolution settlement hget _ hcorrelation _ =>
      let done : HarnessApprovalCoordinator := { s with
        pending := s.pending.erase pending.request.requestId
        terminal :=
          (s.terminal.put pending.request.requestId resolution).dropOldest
            ((s.terminal.put pending.request.requestId
              resolution).rows.length - maxHarnessApprovalTerminalTombstones) }
      have hsame : (HarnessApprovalNotice.resolved resolution).interactionId =
          pending.request.correlation.interactionId := by
        rw [HarnessApprovalNotice.interactionId, hcorrelation]
        rfl
      refine ⟨fun i => ?_, ?_, ?_, hs.grants⟩
      · have hbefore := hs.interaction i
        have hretained := congrArg List.length (append_retained (s := done)
          clock pending.promise (.resolved resolution) i)
        rw [List.length_append, length_eventsOf_singleton, hsame]
          at hretained
        have hcount := pendingCount_erase hget i
        have hdone : done.retained i = s.retained i := rfl
        rw [hdone] at hretained
        change ((done.append clock pending.promise
          (.resolved resolution)).retained i).length +
            (s.pending.erase pending.request.requestId).rows.countP (fun row =>
              row.2.request.correlation.interactionId = i) ≤ _
        omega
      · have hbefore := hs.session
        have hretained := sessionRetained_append (s := done) clock
          pending.promise (.resolved resolution)
        have hlength := (Keyed.rows_perm_erase hget).length_eq
        rw [List.length_cons] at hlength
        have hdone : done.sessionRetained = s.sessionRetained := rfl
        have hfinal : ((s.finish clock pending resolution).settle
            pending.promise settlement).sessionRetained =
              (done.append clock pending.promise
                (.resolved resolution)).sessionRetained := by
          rw [sessionRetained, sessionRetained]
          rfl
        rw [hlength] at hbefore
        rwa [hfinal, hretained, hdone, finish_pending, Nat.add_assoc,
          Nat.add_comm 1]
      · simp only [settle, finish, append, Keyed.dropOldest, List.length_drop]
        omega

end HarnessApprovalCoordinator

end RelayerGraph
