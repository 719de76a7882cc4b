import RelayerGraph.Recorder.Exports

/-!
# Exports stay within their bounds

The events of an interaction are numbered in the order they are kept, graph
operations and diagnostics each within their own bounds, and no diagnostic is
kept twice.  What holds of every interaction state holds of every descriptor,
also when an export is repeated or overlaps with another.
-/

namespace RelayerGraph

namespace GraphOperationRecorder

open Foundation

/-! ## Events within bounds -/

/-- The number of the diagnostic an event is, if it is one. -/
def Event.diagnosticId (event : Event) : Option String :=
  event.receipt.authoringError.map AuthoringError.id

/-- Bounds on one kind of events: how many there are, and their bytes. -/
def FewEvents (eventBytes : Event → ℕ) (events : List Event)
    (count bytes : ℕ) : Prop :=
  events.length ≤ count ∧ (events.map eventBytes).sum ≤ bytes

structure EventsWithin (settings : Settings) (eventBytes : Event → ℕ)
    (events : List Event) : Prop where
  ordered : events.Pairwise fun event later => event.sequence < later.sequence
  operations : FewEvents eventBytes (events.filter Event.isGraphEvent)
    settings.maxEventsPerInteraction settings.maxBytesPerInteraction
  diagnostics : FewEvents eventBytes
    (events.filter fun event => !event.isGraphEvent)
    settings.maxAuthoringDiagnosticsPerInteraction maxDiagnosticBytes
  distinct : (events.filterMap Event.diagnosticId).Nodup

/-- An interaction state whose counts are those of its events, numbered up to
the given number. -/
structure InteractionState.Within (settings : Settings)
    (eventBytes : Event → ℕ) (number : ℕ) (state : InteractionState) :
    Prop where
  events : EventsWithin settings eventBytes state.events
  numbered : ∀ event ∈ state.events, event.sequence ≤ number
  operationCount : (state.events.filter Event.isGraphEvent).length =
    state.graphEventCount
  operationBytes : ((state.events.filter Event.isGraphEvent).map
    eventBytes).sum = state.byteLength
  diagnosticCount : (state.events.filter fun event =>
    !event.isGraphEvent).length = state.diagnosticEventCount
  diagnosticBytes : ((state.events.filter fun event =>
    !event.isGraphEvent).map eventBytes).sum = state.diagnosticBytes
  diagnosticIds : state.events.filterMap Event.diagnosticId =
    state.diagnosticIds

/-- What a descriptor promises of its events. -/
structure Descriptor.Within (settings : Settings) (eventBytes : Event → ℕ)
    (descriptor : Descriptor) : Prop where
  events : EventsWithin settings eventBytes descriptor.events
  eventCount : descriptor.eventCount ≤ settings.maxEventsPerInteraction +
    settings.maxAuthoringDiagnosticsPerInteraction
  byteLength : descriptor.byteLength ≤ settings.maxBytesPerInteraction +
    maxDiagnosticBytes

variable {settings : Settings} {eventBytes : Event → ℕ}

theorem InteractionState.within_empty (number : ℕ) :
    InteractionState.empty.Within settings eventBytes number := by
  constructor
  · constructor
    · exact .nil
    · exact ⟨Nat.zero_le _, Nat.zero_le _⟩
    · exact ⟨Nat.zero_le _, Nat.zero_le _⟩
    · exact List.nodup_nil
  all_goals simp [InteractionState.empty]

theorem InteractionState.Within.mono {number later : ℕ}
    {state : InteractionState} (h : state.Within settings eventBytes number)
    (hle : number ≤ later) : state.Within settings eventBytes later :=
  { h with numbered := fun event hmem => (h.numbered event hmem).trans hle }

/-- What counts as discarded is no part of the bounds. -/
theorem InteractionState.Within.discard {number : ℕ} {state : InteractionState}
    (h : state.Within settings eventBytes number)
    (events bytes diagnostics : ℕ) :
    InteractionState.Within settings eventBytes number
      { state with
        discardedEvents := events
        discardedBytes := bytes
        diagnosticDiscarded := diagnostics } :=
  ⟨h.events, h.numbered, h.operationCount, h.operationBytes, h.diagnosticCount,
    h.diagnosticBytes, h.diagnosticIds⟩

/-! ## Taking an event -/

theorem ordered_concat {number : ℕ} {events : List Event} {event : Event}
    (h : events.Pairwise fun event later => event.sequence < later.sequence)
    (hnumbered : ∀ event ∈ events, event.sequence ≤ number)
    (hevent : number < event.sequence) :
    (events ++ [event]).Pairwise
      fun event later => event.sequence < later.sequence := by
  rw [List.pairwise_append]
  refine ⟨h, List.pairwise_singleton _ _, fun earlier hearlier last hlast => ?_⟩
  rw [List.mem_singleton.mp hlast]
  exact Nat.lt_of_le_of_lt (hnumbered earlier hearlier) hevent

theorem numbered_concat {number : ℕ} {events : List Event} {event : Event}
    (hnumbered : ∀ event ∈ events, event.sequence ≤ number)
    (hevent : number < event.sequence) :
    ∀ kept ∈ events ++ [event], kept.sequence ≤ event.sequence := by
  intro kept hmem
  rcases List.mem_append.mp hmem with hold | hnew
  · exact Nat.le_of_lt (Nat.lt_of_le_of_lt (hnumbered kept hold) hevent)
  · rw [List.mem_singleton.mp hnew]

theorem InteractionState.Within.takeGraphEvent {number : ℕ}
    {state : InteractionState} (h : state.Within settings eventBytes number)
    {event : Event} (hevent : number < event.sequence)
    (hgraph : event.receipt.authoringError = none) :
    (state.takeGraphEvent settings eventBytes event).Within settings eventBytes
      event.sequence := by
  have hkept : event.isGraphEvent = true := by
    simp [Event.isGraphEvent, hgraph]
  have hid : event.diagnosticId = none := by
    simp [Event.diagnosticId, hgraph]
  unfold InteractionState.takeGraphEvent
  dsimp only
  split
  · exact (h.mono (Nat.le_of_lt hevent)).discard _ _ _
  · rename_i hfits
    rw [not_or, Nat.not_le, Nat.not_lt] at hfits
    obtain ⟨hcount, hbytes⟩ := hfits
    refine ⟨⟨ordered_concat h.events.ordered h.numbered hevent, ⟨?_, ?_⟩, ?_, ?_⟩,
      numbered_concat h.numbered hevent, ?_, ?_, ?_, ?_, ?_⟩
    · rw [List.filter_append, List.length_append, h.operationCount]
      simpa [hkept] using hcount
    · rw [List.filter_append, List.map_append, List.sum_append,
        h.operationBytes]
      simpa [hkept] using hbytes
    · rw [List.filter_append]
      simpa [hkept] using h.events.diagnostics
    · rw [List.filterMap_append]
      simpa [hid] using h.events.distinct
    · simp [List.filter_append, hkept, h.operationCount]
    · simp [List.filter_append, hkept, h.operationBytes]
    · simp [List.filter_append, hkept, h.diagnosticCount]
    · simp [List.filter_append, hkept, h.diagnosticBytes]
    · simp [List.filterMap_append, hid, h.diagnosticIds]

theorem InteractionState.Within.takeDiagnostic {number : ℕ}
    {state : InteractionState} (h : state.Within settings eventBytes number)
    {event : Event} (hevent : number < event.sequence)
    {diagnostic : AuthoringError}
    (hdiagnostic : event.receipt.authoringError = some diagnostic) :
    (state.takeDiagnostic settings eventBytes event diagnostic.id).Within settings
      eventBytes event.sequence := by
  have hkept : event.isGraphEvent = false := by
    simp [Event.isGraphEvent, hdiagnostic]
  have hid : event.diagnosticId = some diagnostic.id := by
    simp [Event.diagnosticId, hdiagnostic]
  unfold InteractionState.takeDiagnostic
  dsimp only
  split
  · exact h.mono (Nat.le_of_lt hevent)
  · rename_i hfresh
    split
    · exact (h.mono (Nat.le_of_lt hevent)).discard _ _ _
    · rename_i hfits
      rw [not_or, Nat.not_le, Nat.not_lt] at hfits
      obtain ⟨hcount, hbytes⟩ := hfits
      refine ⟨⟨ordered_concat h.events.ordered h.numbered hevent, ?_, ⟨?_, ?_⟩,
        ?_⟩, numbered_concat h.numbered hevent, ?_, ?_, ?_, ?_, ?_⟩
      · rw [List.filter_append]
        simpa [hkept] using h.events.operations
      · rw [List.filter_append, List.length_append, h.diagnosticCount]
        simpa [hkept] using hcount
      · rw [List.filter_append, List.map_append, List.sum_append,
          h.diagnosticBytes]
        simpa [hkept] using hbytes
      · rw [List.filterMap_append, h.diagnosticIds]
        have hids : state.diagnosticIds.Nodup := by
          rw [← h.diagnosticIds]
          exact h.events.distinct
        refine hids.append (by simp [hid]) fun id hold hnew => ?_
        obtain rfl : id = diagnostic.id := by simpa [hid] using hnew
        exact hfresh hold
      · simp [List.filter_append, hkept, h.operationCount]
      · simp [List.filter_append, hkept, h.operationBytes]
      · simp [List.filter_append, hkept, h.diagnosticCount]
      · simp [List.filter_append, hkept, h.diagnosticBytes]
      · simp [List.filterMap_append, hid, h.diagnosticIds]

theorem InteractionState.Within.take {number : ℕ} {state : InteractionState}
    (h : state.Within settings eventBytes number) {event : Event}
    (hevent : number < event.sequence) :
    (state.take settings eventBytes event).Within settings eventBytes
      event.sequence := by
  unfold InteractionState.take
  split
  · rename_i diagnostic hdiagnostic
    exact h.takeDiagnostic hevent hdiagnostic
  · rename_i hgraph
    exact h.takeGraphEvent hevent hgraph

/-! ## Descriptors -/

theorem length_filter_add_not (events : List Event) :
    (events.filter Event.isGraphEvent).length +
      (events.filter fun event => !event.isGraphEvent).length =
        events.length := by
  induction events with
  | nil => rfl
  | cons event events ih =>
      by_cases hgraph : event.isGraphEvent = true
      · simp [hgraph, ← ih]
        omega
      · simp [hgraph, ← ih]
        omega

theorem sum_filter_add_not (eventBytes : Event → ℕ) (events : List Event) :
    ((events.filter Event.isGraphEvent).map eventBytes).sum +
      ((events.filter fun event => !event.isGraphEvent).map eventBytes).sum =
        (events.map eventBytes).sum := by
  induction events with
  | nil => rfl
  | cons event events ih =>
      by_cases hgraph : event.isGraphEvent = true
      · simp [hgraph, ← ih]
        omega
      · simp [hgraph, ← ih]
        omega

theorem InteractionState.Within.descriptor {number : ℕ}
    {state : InteractionState} (h : state.Within settings eventBytes number) :
    (descriptorOf eventBytes state).Within settings eventBytes := by
  obtain ⟨hoperations, hoperationBytes⟩ := h.events.operations
  obtain ⟨hdiagnostics, hdiagnosticBytes⟩ := h.events.diagnostics
  refine ⟨h.events, ?_, ?_⟩
  · have hlength := length_filter_add_not state.events
    change state.events.length ≤ _
    omega
  · have hsum := sum_filter_add_not eventBytes state.events
    change (state.events.map eventBytes).sum ≤ _
    omega

/-! ## Runs -/

/-- Every interaction state is within the bounds, numbered up to a number. -/
def StatesWithin (settings : Settings) (eventBytes : Event → ℕ) (number : ℕ)
    (r : Recorder) : Prop :=
  ∀ ref state, r.states.get? ref = some state →
    state.Within settings eventBytes number

theorem StatesWithin.congr {number later : ℕ} {r after : Recorder}
    (h : StatesWithin settings eventBytes number r)
    (hstates : after.states = r.states) (hle : number ≤ later) :
    StatesWithin settings eventBytes later after := by
  intro ref state hstate
  rw [hstates] at hstate
  exact (h ref state hstate).mono hle

theorem StatesWithin.stateFor {number : ℕ} {r : Recorder}
    (h : StatesWithin settings eventBytes number r) (node : ℕ) :
    StatesWithin settings eventBytes number (r.stateFor node).1 := by
  intro ref state hstate
  unfold Recorder.stateFor at hstate
  split at hstate
  · exact h ref state hstate
  · rw [Keyed.get?_put] at hstate
    by_cases href : ref = r.nextState
    · rw [if_pos href] at hstate
      rw [← Option.some.inj hstate]
      exact InteractionState.within_empty number
    · rw [if_neg href] at hstate
      exact h ref state hstate

theorem StatesWithin.stateAt {number : ℕ} {r : Recorder}
    (h : StatesWithin settings eventBytes number r) (ref : ℕ) :
    (r.stateAt ref).Within settings eventBytes number := by
  unfold Recorder.stateAt
  cases hget : r.states.get? ref with
  | none => exact InteractionState.within_empty number
  | some state => exact h ref state hget

theorem StatesWithin.updateState {number later : ℕ} {r : Recorder}
    (h : StatesWithin settings eventBytes number r) (ref : ℕ)
    {f : InteractionState → InteractionState}
    (hf : ∀ state, state.Within settings eventBytes number →
      (f state).Within settings eventBytes later) (hle : number ≤ later) :
    StatesWithin settings eventBytes later (r.updateState ref f) := by
  intro key state hstate
  rw [Recorder.get?_updateState] at hstate
  split at hstate
  · obtain ⟨old, hold, rfl⟩ := Option.map_eq_some_iff.mp hstate
    exact hf old (h key old hold)
  · exact (h key state hstate).mono hle

theorem StatesWithin.record {r : Recorder}
    (h : StatesWithin settings eventBytes r.sequence r)
    (receipt : Option (ℕ × Receipt)) :
    StatesWithin settings eventBytes
      (r.record settings eventBytes receipt).sequence
      (r.record settings eventBytes receipt) := by
  cases receipt with
  | none => exact h
  | some made =>
      obtain ⟨node, receipt⟩ := made
      by_cases hexported : node ∈ r.exportedInteractions
      · rw [Recorder.record_of_mem hexported]
        exact h
      · rw [Recorder.record_of_not_mem hexported]
        have hsequence : (Recorder.stateFor
            { r with sequence := r.sequence + 1 } node).1.sequence =
              r.sequence + 1 :=
          Recorder.stateFor_sequence _ _
        have hnumbered : StatesWithin settings eventBytes r.sequence
            { r with sequence := r.sequence + 1 } := h
        have htaken := (hnumbered.stateFor node).updateState
          (f := fun state => state.take settings eventBytes
            ⟨receipt, r.sequence + 1, node⟩)
          (Recorder.stateFor { r with sequence := r.sequence + 1 } node).2
          (fun state hstate => hstate.take (Nat.lt_succ_self r.sequence))
          (Nat.le_succ r.sequence)
        convert htaken using 1
        exact hsequence

/-- The states stay within the bounds, and what is described is. -/
def Bounded (settings : Settings) (eventBytes : Event → ℕ) (r : Recorder)
    (journal : List Occurrence) : Prop :=
  StatesWithin settings eventBytes r.sequence r ∧
    ∀ id node descriptor, .described id node descriptor ∈ journal →
      descriptor.Within settings eventBytes

theorem Bounded.of_states {r after : Recorder} {journal : List Occurrence}
    (h : Bounded settings eventBytes r journal)
    (hstates : StatesWithin settings eventBytes after.sequence after)
    {occurrences : List Occurrence}
    (hnone : ∀ id node descriptor,
      .described id node descriptor ∉ occurrences) :
    Bounded settings eventBytes after (journal ++ occurrences) := by
  refine ⟨hstates, fun id node descriptor hmem => ?_⟩
  rcases List.mem_append.mp hmem with hold | hnew
  · exact h.2 id node descriptor hold
  · exact absurd hnew (hnone id node descriptor)

theorem Bounded.turn {r : Recorder} {journal : List Occurrence}
    (h : Bounded settings eventBytes r journal) (id node ref : ℕ) :
    Bounded settings eventBytes (r.turn eventBytes id node ref)
      (journal ++ describedBy (r.turn eventBytes id node ref) id) := by
  obtain ⟨-, -, -, -, hstates, -, hsequence⟩ :=
    Recorder.turn_frame eventBytes r id node ref
  refine ⟨?_, fun other node' descriptor hmem => ?_⟩
  · exact h.1.congr hstates (Nat.le_of_eq hsequence.symm)
  · rcases List.mem_append.mp hmem with hold | hnew
    · exact h.2 other node' descriptor hold
    · rw [describedBy_turn] at hnew
      split at hnew
      · obtain ⟨-, -, rfl⟩ :=
          Occurrence.described.inj (List.mem_singleton.mp hnew)
        exact (h.1.stateAt ref).descriptor
      · cases hnew

/-- An arrival changes no state but for an empty one. -/
theorem StatesWithin.arrive {number : ℕ} {r : Recorder}
    (h : StatesWithin settings eventBytes number r) (method path : String)
    (authorization : Option String) :
    StatesWithin settings eventBytes number
      (r.arrive method path authorization) ∧
      (r.arrive method path authorization).sequence = r.sequence := by
  obtain ⟨secrets, hsecrets⟩ := learnFrom_eq r authorization
  have hknown : StatesWithin settings eventBytes number
      (r.learnFrom authorization) := by
    rw [hsecrets]
    exact h
  have hsequence : (r.learnFrom authorization).sequence = r.sequence := by
    rw [hsecrets]
  unfold Recorder.arrive Recorder.admit Recorder.enter
  dsimp only
  split
  · exact ⟨hknown, hsequence⟩
  · rename_i node _
    exact ⟨hknown.stateFor node,
      (Recorder.stateFor_sequence _ node).trans hsequence⟩

theorem Bounded.moved {r after : Recorder}
    {journal occurrences : List Occurrence}
    (h : Bounded settings eventBytes r journal)
    (hmove : Moves settings eventBytes r occurrences after) :
    Bounded settings eventBytes after (journal ++ occurrences) := by
  cases hmove with
  | arrived method path authorization =>
      obtain ⟨hstates, hsequence⟩ := h.1.arrive method path authorization
      refine h.of_states ?_ (by simp)
      rw [hsequence]
      exact hstates
  | @ended id request change passed receipt hrequest hmakes =>
      have hbase : StatesWithin settings eventBytes
          ((r.applyChange change).passNumber passed).sequence
          ((r.applyChange change).passNumber passed) := by
        have hchanged : (r.applyChange change).states = r.states ∧
            (r.applyChange change).sequence = r.sequence := by
          cases change with
          | none => exact ⟨rfl, rfl⟩
          | some change => cases change <;> exact ⟨rfl, rfl⟩
        refine h.1.congr hchanged.1 ?_
        unfold Recorder.passNumber
        cases passed with
        | false => exact Nat.le_of_eq hchanged.2.symm
        | true => exact Nat.le_of_lt (Nat.lt_succ_of_le
            (Nat.le_of_eq hchanged.2.symm))
      exact h.of_states (hbase.record receipt)
        (not_described_endOccurrences r id change passed receipt)
  | flagged hf => exact h.of_states (h.1.congr rfl (Nat.le_refl _)) (by simp)
  | began node =>
      have hbegun : Bounded settings eventBytes { (r.stateFor node).1 with
          nextExport := r.nextExport + 1 }
          (journal ++ [.began r.nextExport node]) := by
        refine h.of_states ?_ (by simp)
        exact (h.1.stateFor node).congr rfl
          (Nat.le_of_eq (Recorder.stateFor_sequence r node).symm)
      have hturned := hbegun.turn r.nextExport node (r.stateFor node).2
      rw [List.append_assoc] at hturned
      exact hturned
  | turned hexport hstage hsettled => exact h.turn _ _ _
  | @timedOut id node ref activities hexport =>
      refine h.of_states ?_ (by simp)
      have hcounted : StatesWithin settings eventBytes r.sequence
          (r.updateState ref fun state => { state with
            discardedEvents :=
              state.discardedEvents + (r.pendingIn ref false).length
            diagnosticDiscarded :=
              state.diagnosticDiscarded + (r.pendingIn ref true).length }) :=
        h.1.updateState ref (fun state hstate => hstate.discard _ _ _)
          (Nat.le_refl _)
      exact hcounted
  | left hexport => exact h.of_states (h.1.congr rfl (Nat.le_refl _)) (by simp)

theorem bounded_of_reachable {s : Observed}
    (hreach : (observed settings eventBytes).Reachable s) :
    Bounded settings eventBytes s.recorder s.journal := by
  induction hreach with
  | init hinit =>
      obtain rfl := hinit
      refine ⟨fun ref state hstate => ?_, by simp⟩
      cases hstate
  | step hprefix hstep ih =>
      obtain ⟨after, hnext, rfl⟩ := Option.map_eq_some_iff.mp hstep
      obtain ⟨owner, hlinked⟩ := (sound_of_reachable hprefix).linked
      exact ih.moved (moves_of_next settings eventBytes hlinked.proper hnext)

/-- In every run, whatever is exported is within the bounds: the events are
numbered in their order, graph operations and diagnostics are as few as the
settings allow, and no diagnostic is there twice. -/
theorem exports_bounded {s : Observed}
    (hreach : (observed settings eventBytes).Reachable s) {id node : ℕ}
    {descriptor : Descriptor}
    (hdescribed : .described id node descriptor ∈ s.journal) :
    descriptor.Within settings eventBytes :=
  (bounded_of_reachable hreach).2 id node descriptor hdescribed

theorem exports_bounded_lost : ∃ s id descriptor,
    (observed sampleSettings fun _ => 1).Reachable s ∧
      .described id 7 descriptor ∈ s.journal ∧
      descriptor.Within sampleSettings fun _ => 1 := by
  obtain ⟨s, earlier, id, descriptor, hreach, hjournal, -⟩ := exists_sampleRun
  have hdescribed : .described id 7 descriptor ∈ s.journal := by
    rw [hjournal]
    exact List.mem_append_right _ (List.mem_singleton_self _)
  exact ⟨s, id, descriptor, hreach, hdescribed,
    exports_bounded hreach hdescribed⟩

end GraphOperationRecorder

end RelayerGraph
