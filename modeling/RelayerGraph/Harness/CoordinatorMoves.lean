import RelayerGraph.Harness.Coordinator
import RelayerGraph.Foundation.TransitionSystem

/-!
# What the coordinator's operations do

Every operation drops streams that nobody waits on, admits at most one request
and settles requests.  `Prunes`, `Admits` and `Settles` say what each of these
may change, and the operations are inverted into them once.
-/

namespace RelayerGraph

open Foundation Checked

namespace HarnessApprovalCoordinator

variable {clock : ApprovalClock} {s t m : HarnessApprovalCoordinator}

/-! ## The journal -/

def eventsOf (interactionId : ℤ) (journal : List ApprovalEntry) :
    List HarnessApprovalEvent :=
  journal.filterMap fun entry =>
    match entry with
    | .event _ event =>
        if event.notice.interactionId = interactionId then some event else none
    | .settled _ _ => none

theorem eventsOf_append (i : ℤ) (xs ys : List ApprovalEntry) :
    eventsOf i (xs ++ ys) = eventsOf i xs ++ eventsOf i ys :=
  List.filterMap_append

/-- No stream is dropped, and what is appended to the journal is what the
streams gain. -/
def Appends (s t : HarnessApprovalCoordinator) : Prop :=
  (∀ i, (s.streams.get? i).isSome = true → (t.streams.get? i).isSome = true) ∧
    ∃ added, t.journal = s.journal ++ added ∧
      ∀ i, t.retained i = s.retained i ++ eventsOf i added

theorem Appends.refl (s : HarnessApprovalCoordinator) : Appends s s :=
  ⟨fun _ => id, [], by simp, fun i => by simp [eventsOf]⟩

theorem Appends.trans (hst : Appends s m) (hmt : Appends m t) :
    Appends s t := by
  obtain ⟨hstay, first, hfirst, hstreams⟩ := hst
  obtain ⟨hstay', second, hsecond, hstreams'⟩ := hmt
  refine ⟨fun i h => hstay' i (hstay i h), first ++ second,
    by rw [hsecond, hfirst, List.append_assoc], ?_⟩
  intro i
  rw [hstreams', hstreams, eventsOf_append, List.append_assoc]

theorem retained_congr (h : t.streams = s.streams) (i : ℤ) :
    t.retained i = s.retained i := by
  rw [retained, retained, h]

theorem Appends.of_eq (hjournal : t.journal = s.journal)
    (hstreams : t.streams = s.streams) : Appends s t :=
  ⟨fun i h => by rwa [hstreams], [], by simp [hjournal], fun i => by
    simp [retained_congr hstreams, eventsOf]⟩

section Append

variable {promise : ℕ} {notice : HarnessApprovalNotice}

/-- The number of the next event of an interaction. -/
def nextSequence (s : HarnessApprovalCoordinator) (i : ℤ) : ℕ :=
  ((s.streams.get? i).getD ⟨[], 1, 0⟩).nextSequence

@[simp]
theorem append_journal : (s.append clock promise notice).journal =
    s.journal ++ [.event promise
      ⟨s.nextSequence notice.interactionId, notice⟩] := rfl

@[simp]
theorem append_pending :
    (s.append clock promise notice).pending = s.pending := rfl

theorem append_retained (clock : ApprovalClock) (promise : ℕ)
    (notice : HarnessApprovalNotice) (i : ℤ) :
    (s.append clock promise notice).retained i =
      s.retained i ++ eventsOf i [.event promise
        ⟨s.nextSequence notice.interactionId, notice⟩] := by
  by_cases hi : notice.interactionId = i
  · subst hi
    cases hget : s.streams.get? notice.interactionId with
    | none => simp [append, retained, nextSequence, eventsOf, hget]
    | some stream => simp [append, retained, nextSequence, eventsOf, hget]
  · have hstreams : (s.append clock promise notice).streams.get? i =
        s.streams.get? i := Keyed.get?_put_of_ne _ _ fun heq => hi heq.symm
    simp [retained, hstreams, eventsOf, hi]

theorem append_streams_of_ne {i : ℤ} (h : notice.interactionId ≠ i) :
    (s.append clock promise notice).streams.get? i = s.streams.get? i :=
  Keyed.get?_put_of_ne _ _ fun heq => h heq.symm

theorem append_appends : Appends s (s.append clock promise notice) := by
  refine ⟨fun i h => ?_, _, append_journal, append_retained _ _ _⟩
  by_cases hi : notice.interactionId = i
  · subst hi
    exact Option.isSome_iff_exists.mpr ⟨_, Keyed.get?_put_self _ _ _⟩
  · rwa [append_streams_of_ne hi]

end Append

/-! ## Settling -/

/-- A settlement of the promise is what the resolution says. -/
def PromiseSettled (resolution : HarnessApprovalResolution) :
    PromiseSettlement → Prop
  | .resolve decision => resolution.decision = some decision.decision ∧
      resolution.resolvedAt = decision.decidedAt ∧
      resolution.rationale = decision.rationale
  | .reject rejected => rejected = resolution

/-- A part of an operation that settles at most one request. -/
inductive Settle (clock : ApprovalClock) :
    HarnessApprovalCoordinator → HarnessApprovalCoordinator → Prop
  /-- Readings of the clock, fired signals and grants. -/
  | book {s t : HarnessApprovalCoordinator} :
      t.activeCompletions = s.activeCompletions → t.closed = s.closed →
      t.pending = s.pending → t.terminal = s.terminal →
      t.streams = s.streams → t.promises = s.promises →
      t.journal = s.journal →
      (s.grants.length ≤ maxHarnessApprovalSessionGrants →
        t.grants.length ≤ maxHarnessApprovalSessionGrants) →
      Settle clock s t
  | finish {s : HarnessApprovalCoordinator} {pending : PendingApproval}
      {resolution : HarnessApprovalResolution}
      {settlement : PromiseSettlement} :
      s.pending.get? pending.request.requestId = some pending →
      resolution.requestId = pending.request.requestId →
      resolution.correlation = publicCorrelation pending.request →
      PromiseSettled resolution settlement →
      Settle clock s ((s.finish clock pending resolution).settle
        pending.promise settlement)

abbrev Settles (clock : ApprovalClock) :=
  Relation.ReflTransGen (Settle clock)

theorem Settle.ticked : Settle clock s s.ticked :=
  .book rfl rfl rfl rfl rfl rfl rfl id

theorem Settle.appends (h : Settle clock s t) : Appends s t := by
  cases h with
  | book _ _ _ _ hstreams _ hjournal _ => exact .of_eq hjournal hstreams
  | @finish pending resolution settlement hpending _ _ _ =>
      refine .trans (m := s.finish clock pending resolution)
        (append_appends (s := { s with pending := _, terminal := _ }))
        ⟨fun _ => id, [.settled _ settlement], rfl, ?_⟩
      intro i
      exact (List.append_nil _).symm

theorem Settles.appends (h : Settles clock s t) : Appends s t := by
  induction h with
  | refl => exact .refl s
  | tail _ hlast ih => exact ih.trans hlast.appends

theorem finish_pending {pending : PendingApproval}
    {resolution : HarnessApprovalResolution} {settlement : PromiseSettlement} :
    ((s.finish clock pending resolution).settle pending.promise
      settlement).pending = s.pending.erase pending.request.requestId := rfl

/-- What stays pending was pending. -/
theorem Settle.pending (h : Settle clock s t) {id : String}
    {pending : PendingApproval} (hpending : t.pending.get? id = some pending) :
    s.pending.get? id = some pending := by
  cases h with
  | book _ _ hsame _ _ _ _ _ => rwa [← hsame]
  | finish _ _ _ _ =>
      rw [finish_pending, Keyed.get?_erase] at hpending
      split at hpending
      · cases hpending
      · exact hpending

theorem Settles.pending (h : Settles clock s t) {id : String}
    {pending : PendingApproval} (hpending : t.pending.get? id = some pending) :
    s.pending.get? id = some pending := by
  induction h with
  | refl => exact hpending
  | tail _ hlast ih => exact ih (hlast.pending hpending)

theorem Settles.promises (h : Settles clock s t) :
    t.promises = s.promises := by
  induction h with
  | refl => rfl
  | tail _ hlast ih =>
      cases hlast with
      | book _ _ _ _ _ hpromises _ _ => exact hpromises.trans ih
      | finish _ _ _ _ => exact ih

theorem Settles.active (h : Settles clock s t) :
    t.activeCompletions = s.activeCompletions ∧ t.closed = s.closed := by
  induction h with
  | refl => exact ⟨rfl, rfl⟩
  | tail _ hlast ih =>
      cases hlast with
      | book hactive hclosed _ _ _ _ _ _ =>
          exact ⟨hactive.trans ih.1, hclosed.trans ih.2⟩
      | finish _ _ _ _ => exact ih

/-- Every pending request is stored under its own id. -/
def OwnIds (s : HarnessApprovalCoordinator) : Prop :=
  ∀ id pending, s.pending.get? id = some pending →
    pending.request.requestId = id

theorem OwnIds.settles (hs : OwnIds s) (h : Settles clock s t) : OwnIds t :=
  fun id pending hpending => hs id pending (h.pending hpending)

/-- An interaction without pending requests gains no event. -/
theorem Settles.streams (h : Settles clock s t) {i : ℤ}
    (hnone : ∀ id pending, s.pending.get? id = some pending →
      pending.request.correlation.interactionId ≠ i) :
    t.streams.get? i = s.streams.get? i := by
  induction h with
  | refl => rfl
  | tail hfirst hlast ih =>
      cases hlast with
      | book _ _ _ _ hstreams _ _ _ => rw [hstreams, ih]
      | @finish pending resolution settlement hpending _ hcorrelation _ =>
          have hne : (HarnessApprovalNotice.resolved
              resolution).interactionId ≠ i := by
            rw [HarnessApprovalNotice.interactionId, hcorrelation]
            exact hnone _ _ (Settles.pending hfirst hpending)
          refine Eq.trans ?_ ih
          exact Keyed.get?_put_of_ne _ _ fun heq => hne heq.symm

/-! ## The settling operations -/

theorem terminate_settles (hs : OwnIds s) (requestId : String)
    (outcome : HarnessApprovalTerminalOutcome)
    (actor : HarnessApprovalResolutionActor) (rationale : String) :
    Settles clock s (s.terminate clock requestId outcome actor rationale) ∧
      (s.terminate clock requestId outcome actor rationale).pending.get?
        requestId = none := by
  unfold terminate
  cases hpending : s.pending.get? requestId with
  | none => exact ⟨.refl, hpending⟩
  | some pending =>
      have hid := hs requestId pending hpending
      subst hid
      refine ⟨.tail (.single .ticked) ?_, ?_⟩
      · exact .finish hpending rfl rfl rfl
      · rw [finish_pending]
        exact Keyed.get?_erase_self _ _

theorem resolveWithDecision_settles (clock : ApprovalClock)
    {pending : PendingApproval}
    (hpending : s.pending.get? pending.request.requestId = some pending)
    (decision : HarnessApprovalDecision) :
    Settles clock s (s.resolveWithDecision clock pending decision) :=
  .single (.finish hpending rfl rfl ⟨rfl, rfl, rfl⟩)

/-- A loop that ends the selected requests of a list. -/
theorem foldl_terminate (clock : ApprovalClock)
    (selected : PendingApproval → Bool)
    (terminating : HarnessApprovalCoordinator → PendingApproval →
      HarnessApprovalCoordinator)
    (hterminating : ∀ c pending, OwnIds c →
      Settles clock c (terminating c pending) ∧
        (terminating c pending).pending.get? pending.request.requestId = none)
    (requests : List PendingApproval) (hs : OwnIds s) :
    let final := requests.foldl (fun c pending =>
      if selected pending then terminating c pending else c) s
    Settles clock s final ∧ ∀ pending ∈ requests, selected pending = true →
      final.pending.get? pending.request.requestId = none := by
  induction requests generalizing s with
  | nil => exact ⟨.refl, by simp⟩
  | cons head rest ih =>
      rw [List.foldl_cons]
      by_cases hhead : selected head = true
      · rw [if_pos hhead]
        obtain ⟨hsettles, hgone⟩ := hterminating s head hs
        obtain ⟨hrest, hall⟩ := ih (hs.settles hsettles)
        refine ⟨hsettles.trans hrest, ?_⟩
        intro pending hmem hselected
        rcases List.mem_cons.mp hmem with rfl | htail
        · refine Option.eq_none_iff_forall_ne_some.mpr fun other hother => ?_
          cases (hrest.pending hother).symm.trans hgone
        · exact hall pending htail hselected
      · rw [if_neg hhead]
        obtain ⟨hrest, hall⟩ := ih hs
        refine ⟨hrest, ?_⟩
        intro pending hmem hselected
        rcases List.mem_cons.mp hmem with rfl | htail
        · exact absurd hselected hhead
        · exact hall pending htail hselected

theorem terminateMatching_settles (clock : ApprovalClock) (hs : OwnIds s)
    (matching : HarnessApprovalRequest → Bool)
    (outcome : HarnessApprovalTerminalOutcome)
    (actor : HarnessApprovalResolutionActor) (rationale : String) :
    let final := s.terminateMatching clock matching outcome actor rationale
    Settles clock s final ∧ ∀ id pending,
      final.pending.get? id = some pending →
        matching pending.request = false := by
  have hloop := foldl_terminate clock
    (fun pending => matching pending.request)
    (fun c pending => c.terminate clock pending.request.requestId outcome
      actor rationale)
    (fun c pending hc => terminate_settles hc _ _ _ _)
    (s.pending.rows.map Prod.snd) hs
  refine ⟨hloop.1, fun id pending hpending => ?_⟩
  have hbefore := hloop.1.pending hpending
  have hid := hs id pending hbefore
  have hmem : pending ∈ s.pending.rows.map Prod.snd :=
    List.mem_map_of_mem (Keyed.mem_rows_of_get? hbefore)
  cases hmatching : matching pending.request with
  | false => rfl
  | true =>
      have hgone := hloop.2 pending hmem hmatching
      rw [hid] at hgone
      cases hpending.symm.trans hgone

theorem abort_settles (hs : OwnIds s) (signal : ProviderSignal)
    (reason : AbortReason) : Settles clock s (s.abort clock signal reason) := by
  unfold abort
  by_cases hfired : (s.aborted.get? signal).isSome = true
  · rw [if_pos hfired]
  · rw [if_neg hfired]
    have hloop := foldl_terminate clock
      (fun pending => pending.options.signal = some signal)
      (fun c pending => c.abortProvider clock pending reason)
      (fun c pending hc => terminate_settles hc _ _ _ _)
      (s.pending.rows.map Prod.snd)
      (s := { s with aborted := s.aborted.put signal reason }) hs
    have hbook : Settle clock s
        { s with aborted := s.aborted.put signal reason } :=
      .book rfl rfl rfl rfl rfl rfl rfl id
    refine .head hbook ?_
    simpa only [decide_eq_true_eq] using hloop.1

/-- The loop of a grant, over requests that all still wait. -/
theorem approveGranted_settles (grant : HarnessApprovalSessionGrant)
    (requests : List PendingApproval) (hs : OwnIds s)
    (hwait : ∀ pending ∈ requests,
      s.pending.get? pending.request.requestId = some pending)
    (hdistinct : (requests.map fun pending =>
      pending.request.requestId).Nodup) :
    Settles clock s (s.approveGranted clock grant requests).2 := by
  induction requests generalizing s with
  | nil => exact .refl
  | cons candidate rest ih =>
      obtain ⟨hfresh, hrest⟩ := List.nodup_cons.mp hdistinct
      have hlater : ∀ pending ∈ rest,
          s.pending.get? pending.request.requestId = some pending :=
        fun pending hmem => hwait pending (List.mem_cons_of_mem _ hmem)
      unfold approveGranted
      split
      case isTrue =>
        split
        case h_1 => exact .single .ticked
        case h_2 decision _ =>
          have hresolve := resolveWithDecision_settles clock (s := s.ticked)
            (hwait candidate List.mem_cons_self) decision
          refine .head .ticked (hresolve.trans ?_)
          refine ih (hs.settles (.head .ticked hresolve)) ?_ hrest
          intro pending hmem
          have hother : pending.request.requestId ≠
              candidate.request.requestId := fun heq =>
            hfresh (List.mem_map.mpr ⟨pending, hmem, heq⟩)
          rw [resolveWithDecision, finish_pending,
            Keyed.get?_erase_of_ne _ hother]
          exact hlater pending hmem
      case isFalse => exact ih hs hlater hrest

theorem pushGrant_settle (grant : HarnessApprovalSessionGrant) :
    Settle clock s (s.pushGrant grant) := by
  refine .book rfl rfl rfl rfl rfl rfl rfl fun hgrants => ?_
  unfold pushGrant
  dsimp only
  split
  · simpa using hgrants
  · omega

theorem grantAlways_settles (clock : ApprovalClock) (hs : OwnIds s)
    (request : HarnessApprovalRequest) :
    Settles clock s (s.grantAlways clock request).2 := by
  unfold grantAlways
  split
  case h_1 => exact .refl
  case h_2 grant _ =>
    refine .head (pushGrant_settle grant) ?_
    have hids : ∀ row ∈ s.pending.rows, row.2.request.requestId = row.1 :=
      fun row hrow => hs _ _ (Keyed.get?_of_mem_rows hrow)
    refine approveGranted_settles grant _ hs ?_ ?_
    · intro pending hmem
      obtain ⟨row, hrow, rfl⟩ := List.mem_map.mp hmem
      rw [hids row hrow]
      exact Keyed.get?_of_mem_rows hrow
    · rw [List.map_map, List.map_congr_left (g := Prod.fst)]
      · exact s.pending.nodup
      · exact hids

theorem decide_settles (hs : OwnIds s) (requestId : String)
    (input : Supplied DecisionBody) :
    Settles clock s (s.decide clock requestId input).2 := by
  unfold HarnessApprovalCoordinator.decide
  cases hpending : s.pending.get? requestId with
  | none =>
      dsimp only
      split <;> exact .refl
  | some pending =>
      have hid := hs requestId pending hpending
      subst hid
      dsimp only
      split
      case h_1 => exact .refl
      case h_2 =>
        split
        case h_1 => exact .single .ticked
        case h_2 decision _ =>
          have hresolve := resolveWithDecision_settles clock (s := s.ticked)
            hpending decision
          have hresolved : Settles clock s
              (s.ticked.resolveWithDecision clock pending decision) :=
            .head .ticked hresolve
          split
          case isTrue =>
            have hgrant := grantAlways_settles clock (hs.settles hresolved)
              pending.request
            split
            case h_1 c' heq =>
              rw [heq] at hgrant
              exact hresolved.trans hgrant
            case h_2 c' heq =>
              rw [heq] at hgrant
              exact hresolved.trans hgrant
          case isFalse => exact hresolved

/-! ## Dropped streams -/

/-- Streams that meet a guard are dropped, with the tombstones of their
requests.  Completions may begin or end. -/
structure Prunes (guard : ℤ → Prop) (s m : HarnessApprovalCoordinator) :
    Prop where
  pending : m.pending = s.pending
  promises : m.promises = s.promises
  journal : m.journal = s.journal
  grants : m.grants = s.grants
  terminal : m.terminal.rows.length ≤ s.terminal.rows.length
  retained : m.sessionRetained ≤ s.sessionRetained
  streams : ∀ i, m.streams.get? i = s.streams.get? i ∨
    (guard i ∧ m.streams.get? i = none)

theorem Prunes.of_eq {guard : ℤ → Prop} (hpending : m.pending = s.pending)
    (hpromises : m.promises = s.promises) (hjournal : m.journal = s.journal)
    (hgrants : m.grants = s.grants) (hterminal : m.terminal = s.terminal)
    (hstreams : m.streams = s.streams) : Prunes guard s m where
  pending := hpending
  promises := hpromises
  journal := hjournal
  grants := hgrants
  terminal := by rw [hterminal]
  retained := by rw [sessionRetained, sessionRetained, hstreams]
  streams := fun i => .inl (by rw [hstreams])

theorem Prunes.trans {guard : ℤ → Prop} (hsm : Prunes guard s m)
    (hmt : Prunes guard m t) : Prunes guard s t where
  pending := hmt.pending.trans hsm.pending
  promises := hmt.promises.trans hsm.promises
  journal := hmt.journal.trans hsm.journal
  grants := hmt.grants.trans hsm.grants
  terminal := hmt.terminal.trans hsm.terminal
  retained := hmt.retained.trans hsm.retained
  streams := fun i => by
    rcases hmt.streams i with hkept | hdropped
    · rw [hkept]
      exact hsm.streams i
    · exact .inr hdropped

/-- The events of a dropped stream are no longer retained. -/
theorem sessionRetained_deleteStream {i : ℤ} {stream : ApprovalEventStream}
    (h : s.streams.get? i = some stream) :
    s.sessionRetained =
      stream.events.length + (s.deleteStream i).sessionRetained := by
  have hperm := (Keyed.rows_perm_erase h).map fun row => row.2.events.length
  simpa [sessionRetained, deleteStream] using hperm.sum_eq

theorem sessionRetained_deleteStream_le (i : ℤ) :
    (s.deleteStream i).sessionRetained ≤ s.sessionRetained := by
  cases h : s.streams.get? i with
  | none =>
      rw [sessionRetained, deleteStream, Keyed.rows_erase_of_none h]
      rfl
  | some stream =>
      rw [sessionRetained_deleteStream h]
      omega

theorem deleteStream_prunes {guard : ℤ → Prop} {i : ℤ} (h : guard i) :
    Prunes guard s (s.deleteStream i) where
  pending := rfl
  promises := rfl
  journal := rfl
  grants := rfl
  terminal := .refl
  retained := sessionRetained_deleteStream_le i
  streams := fun j => by
    by_cases hj : j = i
    · subst hj
      exact .inr ⟨h, Keyed.get?_erase_self _ _⟩
    · exact .inl (Keyed.get?_erase_of_ne _ hj)

theorem forgetTerminal_prunes {guard : ℤ → Prop} (i : ℤ) :
    Prunes guard s (s.forgetTerminal i) where
  pending := rfl
  promises := rfl
  journal := rfl
  grants := rfl
  terminal := List.length_filter_le _ _
  retained := .refl
  streams := fun _ => .inl rfl

theorem dropStream_prunes {guard : ℤ → Prop} {i : ℤ} (h : guard i) :
    Prunes guard s ((s.deleteStream i).forgetTerminal i) :=
  (deleteStream_prunes h).trans (forgetTerminal_prunes i)

/-! ## The session bound -/

/-- The stream of an interaction that no completion runs for and no request
waits in, idle past the grace period. -/
structure Abandoned (s : HarnessApprovalCoordinator) (now i : ℤ) : Prop where
  inactive : s.interactionActive i = false
  settled : s.interactionPending i = false
  idle : ∃ stream, s.streams.get? i = some stream ∧
    s.graceMs ≤ now - stream.lastEventAt

/-- What the loop over the streams needs: the rows it has yet to visit are
streams, each once, and the count is that of the retained events. -/
structure Reserving (rows : List (ℤ × ApprovalEventStream)) (retained : ℕ)
    (c : HarnessApprovalCoordinator) : Prop where
  counted : retained = c.sessionRetained
  present : ∀ row ∈ rows, c.streams.get? row.1 = some row.2
  distinct : (rows.map Prod.fst).Nodup

theorem Reserving.tail {row : ℤ × ApprovalEventStream}
    {rest : List (ℤ × ApprovalEventStream)} {retained : ℕ}
    (h : Reserving (row :: rest) retained s) : Reserving rest retained s :=
  ⟨h.counted, fun other hmem => h.present other (List.mem_cons_of_mem _ hmem),
    (List.nodup_cons.mp h.distinct).2⟩

theorem Reserving.dropped {row : ℤ × ApprovalEventStream}
    {rest : List (ℤ × ApprovalEventStream)} {retained : ℕ}
    (h : Reserving (row :: rest) retained s) :
    Reserving rest (retained - row.2.events.length)
      ((s.deleteStream row.1).forgetTerminal row.1) where
  counted := by
    have hdrop := sessionRetained_deleteStream
      (h.present row List.mem_cons_self)
    have hsame : ((s.deleteStream row.1).forgetTerminal row.1).sessionRetained =
        (s.deleteStream row.1).sessionRetained := rfl
    have hcounted := h.counted
    omega
  present := by
    intro other hmem
    have hne : other.1 ≠ row.1 := fun heq =>
      (List.nodup_cons.mp h.distinct).1
        (heq ▸ List.mem_map_of_mem hmem)
    exact (Keyed.get?_erase_of_ne _ hne).trans
      (h.present other (List.mem_cons_of_mem _ hmem))
  distinct := (List.nodup_cons.mp h.distinct).2

/-- The loop drops abandoned streams of others, only while the bound is
exceeded, and none is left when it does not make room. -/
theorem reserveStreams_spec (i now : ℤ)
    (rows : List (ℤ × ApprovalEventStream)) (retained : ℕ) (h : Reserving rows retained s) :
    let reserved := reserveStreams i now rows retained s
    Prunes (fun j => j ≠ i ∧ Abandoned s now j ∧
        maxHarnessApprovalSessionRetainedEvents <
          s.sessionRetained + s.pending.rows.length + 2)
      s reserved.2 ∧
    reserved.1 = reserved.2.sessionRetained ∧
    (maxHarnessApprovalSessionRetainedEvents <
        reserved.1 + s.pending.rows.length + 2 →
      ∀ row ∈ rows, row.1 ≠ i → Abandoned s now row.1 →
        reserved.2.streams.get? row.1 = none) ∧
    reserved.2.activeCompletions = s.activeCompletions ∧
    reserved.2.closed = s.closed ∧ reserved.2.graceMs = s.graceMs := by
  induction rows generalizing s retained with
  | nil =>
      exact ⟨.of_eq rfl rfl rfl rfl rfl rfl, h.counted, by simp, rfl, rfl, rfl⟩
  | cons row rest ih =>
      obtain ⟨candidate, stream⟩ := row
      have hstream : s.streams.get? candidate = some stream :=
        h.present _ List.mem_cons_self
      unfold reserveStreams
      by_cases hroom : retained + s.pending.rows.length + 2 ≤
          maxHarnessApprovalSessionRetainedEvents
      · simp only [if_pos hroom]
        exact ⟨.of_eq rfl rfl rfl rfl rfl rfl, h.counted,
          fun hfull => by omega, trivial, trivial, trivial⟩
      simp only [if_neg hroom]
      by_cases hbusy : candidate = i ∨ s.interactionActive candidate = true ∨
          s.interactionPending candidate = true
      · simp only [if_pos hbusy]
        obtain ⟨hprunes, hcount, hfull, hrest⟩ := ih retained h.tail
        refine ⟨hprunes, hcount, fun hbound other hmem hne habandoned => ?_,
          hrest⟩
        rcases List.mem_cons.mp hmem with rfl | htail
        · rcases hbusy with hsame | hactive | hpending
          · exact absurd hsame hne
          · cases habandoned.inactive.symm.trans hactive
          · cases habandoned.settled.symm.trans hpending
        · exact hfull hbound other htail hne habandoned
      simp only [if_neg hbusy]
      by_cases hrecent : now - stream.lastEventAt < s.graceMs
      · simp only [if_pos hrecent]
        obtain ⟨hprunes, hcount, hfull, hrest⟩ := ih retained h.tail
        refine ⟨hprunes, hcount, fun hbound other hmem hne habandoned => ?_,
          hrest⟩
        rcases List.mem_cons.mp hmem with rfl | htail
        · obtain ⟨idle, hidle, hpast⟩ := habandoned.idle
          obtain rfl : stream = idle := by
            simpa using hstream.symm.trans hidle
          omega
        · exact hfull hbound other htail hne habandoned
      simp only [if_neg hrecent]
      simp only [not_or, Bool.not_eq_true] at hbusy
      have hguard : candidate ≠ i ∧ Abandoned s now candidate ∧
          maxHarnessApprovalSessionRetainedEvents <
            s.sessionRetained + s.pending.rows.length + 2 := by
        refine ⟨hbusy.1, ⟨hbusy.2.1, hbusy.2.2, stream, hstream, ?_⟩, ?_⟩
        · omega
        · have hcounted := h.counted
          omega
      obtain ⟨hprunes, hcount, hfull, hrest⟩ :=
        ih (retained - stream.events.length) h.dropped
      -- A stream that is abandoned later was abandoned before the drop.
      have hsince : ∀ j, Abandoned
          ((s.deleteStream candidate).forgetTerminal candidate) now j →
            Abandoned s now j := by
        rintro j ⟨hinactive, hsettled, idle, hidle, hpast⟩
        refine ⟨hinactive, hsettled, idle, ?_, hpast⟩
        have hne : j ≠ candidate := by
          rintro rfl
          cases (Keyed.get?_erase_self _ _).symm.trans hidle
        exact (Keyed.get?_erase_of_ne _ hne).symm.trans hidle
      refine ⟨?_, hcount, fun hbound other hmem hne habandoned => ?_, hrest⟩
      · refine (dropStream_prunes hguard).trans
          { hprunes with streams := fun j => ?_ }
        rcases hprunes.streams j with hkept | ⟨⟨hne, habandoned, _⟩, hgone⟩
        · exact .inl hkept
        · exact .inr ⟨⟨hne, hsince j habandoned, hguard.2.2⟩, hgone⟩
      · by_cases hsame : other.1 = candidate
        · rcases hprunes.streams other.1 with hkept | hdropped
          · rw [hkept, hsame]
            exact Keyed.get?_erase_self _ _
          · exact hdropped.2
        · have htail : other ∈ rest := by
            rcases List.mem_cons.mp hmem with rfl | htail
            · exact absurd rfl hsame
            · exact htail
          refine hfull hbound other htail hne ?_
          obtain ⟨hinactive, hsettled, idle, hidle, hpast⟩ := habandoned
          exact ⟨hinactive, hsettled, idle,
            (Keyed.get?_erase_of_ne _ hsame).trans hidle, hpast⟩

end HarnessApprovalCoordinator

end RelayerGraph
