import RelayerGraph.Recorder.Journal

/-!
# The interaction states of a recorder

Each interaction state belongs to one interaction for good.  As long as the
interaction has not been exported, its requests and its exports are those of
the state the recorder finds for it.
-/

namespace RelayerGraph

namespace GraphOperationRecorder

open Foundation

variable {settings : Settings} {eventBytes : Event → ℕ}

namespace Recorder

/-! ## What a part of a step leaves alone -/

@[simp]
theorem stateFor_requests (r : Recorder) (node : ℕ) :
    (r.stateFor node).1.requests = r.requests := by
  unfold stateFor
  split <;> rfl

@[simp]
theorem stateFor_nextRequest (r : Recorder) (node : ℕ) :
    (r.stateFor node).1.nextRequest = r.nextRequest := by
  unfold stateFor
  split <;> rfl

@[simp]
theorem stateFor_exports (r : Recorder) (node : ℕ) :
    (r.stateFor node).1.exports = r.exports := by
  unfold stateFor
  split <;> rfl

@[simp]
theorem stateFor_nextExport (r : Recorder) (node : ℕ) :
    (r.stateFor node).1.nextExport = r.nextExport := by
  unfold stateFor
  split <;> rfl

@[simp]
theorem stateFor_exportedInteractions (r : Recorder) (node : ℕ) :
    (r.stateFor node).1.exportedInteractions = r.exportedInteractions := by
  unfold stateFor
  split <;> rfl

@[simp]
theorem stateFor_capabilityOwners (r : Recorder) (node : ℕ) :
    (r.stateFor node).1.capabilityOwners = r.capabilityOwners := by
  unfold stateFor
  split <;> rfl

@[simp]
theorem stateFor_knownSecrets (r : Recorder) (node : ℕ) :
    (r.stateFor node).1.knownSecrets = r.knownSecrets := by
  unfold stateFor
  split <;> rfl

@[simp]
theorem stateFor_sequence (r : Recorder) (node : ℕ) :
    (r.stateFor node).1.sequence = r.sequence := by
  unfold stateFor
  split <;> rfl

theorem record_of_mem {r : Recorder} {node : ℕ} {receipt : Receipt}
    (h : node ∈ r.exportedInteractions) :
    r.record settings eventBytes (some (node, receipt)) = r :=
  if_pos h

theorem record_of_not_mem {r : Recorder} {node : ℕ} {receipt : Receipt}
    (h : node ∉ r.exportedInteractions) :
    r.record settings eventBytes (some (node, receipt)) =
      (Recorder.stateFor { r with sequence := r.sequence + 1 }
        node).1.updateState
          (Recorder.stateFor { r with sequence := r.sequence + 1 } node).2
          fun state => state.take settings eventBytes
            ⟨receipt, r.sequence + 1, node⟩ :=
  if_neg h

theorem turn_of_pending {r : Recorder} {id node ref : ℕ}
    (h : r.allPendingIn ref ≠ []) :
    r.turn eventBytes id node ref = { r with
      exports := r.exports.put id
        ⟨node, ref, .settling (r.allPendingIn ref)⟩ } :=
  if_pos h

theorem turn_of_settled {r : Recorder} {id node ref : ℕ}
    (h : r.allPendingIn ref = []) :
    r.turn eventBytes id node ref = { r with
      exportedInteractions := node :: r.exportedInteractions
      exports := r.exports.put id
        ⟨node, ref, .writing (descriptorOf eventBytes (r.stateAt ref))⟩ } :=
  if_neg (not_not_intro h)

/-- A turn changes the exports alone. -/
theorem turn_frame (eventBytes : Event → ℕ) (r : Recorder) (id node ref : ℕ) :
    (r.turn eventBytes id node ref).capabilityOwners = r.capabilityOwners ∧
      (r.turn eventBytes id node ref).knownSecrets = r.knownSecrets ∧
      (r.turn eventBytes id node ref).requests = r.requests ∧
      (r.turn eventBytes id node ref).nextRequest = r.nextRequest ∧
      (r.turn eventBytes id node ref).states = r.states ∧
      (r.turn eventBytes id node ref).interactions = r.interactions ∧
      (r.turn eventBytes id node ref).sequence = r.sequence := by
  by_cases hpending : r.allPendingIn ref = []
  · rw [turn_of_settled hpending]
    exact ⟨rfl, rfl, rfl, rfl, rfl, rfl, rfl⟩
  · rw [turn_of_pending hpending]
    exact ⟨rfl, rfl, rfl, rfl, rfl, rfl, rfl⟩

/-- What does not depend on what is recorded. -/
structure SameRequests (r after : Recorder) : Prop where
  requests : after.requests = r.requests
  nextRequest : after.nextRequest = r.nextRequest
  exports : after.exports = r.exports
  nextExport : after.nextExport = r.nextExport
  exported : after.exportedInteractions = r.exportedInteractions

theorem sameRequests_record (settings : Settings) (eventBytes : Event → ℕ)
    (r : Recorder) (receipt : Option (ℕ × Receipt)) :
    SameRequests r (r.record settings eventBytes receipt) := by
  cases receipt with
  | none => exact ⟨rfl, rfl, rfl, rfl, rfl⟩
  | some made =>
      obtain ⟨node, receipt⟩ := made
      by_cases hexported : node ∈ r.exportedInteractions
      · rw [record_of_mem hexported]
        exact ⟨rfl, rfl, rfl, rfl, rfl⟩
      · rw [record_of_not_mem hexported]
        constructor <;> simp [updateState]

theorem record_capabilities (settings : Settings) (eventBytes : Event → ℕ)
    (r : Recorder) (receipt : Option (ℕ × Receipt)) :
    (r.record settings eventBytes receipt).capabilityOwners =
        r.capabilityOwners ∧
      (r.record settings eventBytes receipt).knownSecrets =
        r.knownSecrets := by
  cases receipt with
  | none => exact ⟨rfl, rfl⟩
  | some made =>
      obtain ⟨node, receipt⟩ := made
      by_cases hexported : node ∈ r.exportedInteractions
      · rw [record_of_mem hexported]
        exact ⟨rfl, rfl⟩
      · rw [record_of_not_mem hexported]
        constructor <;> simp [updateState]

/-! ## The states -/

theorem get?_updateState (r : Recorder) (ref key : ℕ)
    (f : InteractionState → InteractionState) :
    (r.updateState ref f).states.get? key =
      if key = ref then (r.states.get? key).map f else r.states.get? key := by
  rw [updateState, Keyed.get?_mapRows]
  by_cases hkey : key = ref
  · simp [hkey]
  · simp [hkey]

theorem stateAt_updateState {r : Recorder} {ref : ℕ}
    (hsome : (r.states.get? ref).isSome) (key : ℕ)
    (f : InteractionState → InteractionState) :
    (r.updateState ref f).stateAt key =
      if key = ref then f (r.stateAt key) else r.stateAt key := by
  unfold stateAt
  rw [get?_updateState]
  by_cases hkey : key = ref
  · subst hkey
    obtain ⟨state, hstate⟩ := Option.isSome_iff_exists.mp hsome
    simp [hstate]
  · simp [hkey]

/-- The state of an interaction, empty when there is none. -/
def current (r : Recorder) (node : ℕ) : InteractionState :=
  ((r.interactions.get? node).map r.stateAt).getD .empty

theorem current_of_get? {r : Recorder} {node ref : ℕ}
    (h : r.interactions.get? node = some ref) :
    r.current node = r.stateAt ref := by
  simp [current, h]

end Recorder

/-! ## Links -/

/-- The links between interactions, states, requests and exports; `owner` is
the interaction a state belongs to. -/
structure Linked (r : Recorder) (owner : ℕ → ℕ) : Prop where
  states : ∀ ref, (r.states.get? ref).isSome → ref < r.nextState
  interactions : ∀ node ref, r.interactions.get? node = some ref →
    owner ref = node ∧ (r.states.get? ref).isSome
  requests : ∀ id request, r.requests.get? id = some request →
    id < r.nextRequest ∧ request.Proper ∧ ∀ ref, request.entered = some ref →
      (r.states.get? ref).isSome ∧ request.recordedFor = some (owner ref) ∧
      (owner ref ∉ r.exportedInteractions →
        r.interactions.get? (owner ref) = some ref)
  exports : ∀ id export', r.exports.get? id = some export' →
    id < r.nextExport ∧ (r.states.get? export'.state).isSome ∧
      owner export'.state = export'.interactionNodeId ∧
      (export'.interactionNodeId ∈ r.exportedInteractions ∨
        r.interactions.get? export'.interactionNodeId = some export'.state ∧
          ∀ descriptor, export'.stage ≠ .writing descriptor)

theorem Linked.proper {r : Recorder} {owner : ℕ → ℕ} (h : Linked r owner) :
    RequestsProper r := fun id request hrequest =>
  (h.requests id request hrequest).2.1

theorem linked_start (owner : ℕ → ℕ) : Linked .start owner := by
  constructor <;> simp [Recorder.start]

/-- Two owners that agree on the states there are. -/
theorem Linked.congr {r : Recorder} {owner owner' : ℕ → ℕ}
    (h : Linked r owner)
    (howner : ∀ ref, ref < r.nextState → owner' ref = owner ref) :
    Linked r owner' where
  states := h.states
  interactions := by
    intro node ref hget
    obtain ⟨hnode, hsome⟩ := h.interactions node ref hget
    exact ⟨(howner ref (h.states ref hsome)).trans hnode, hsome⟩
  requests := by
    intro id request hrequest
    obtain ⟨hid, hproper, hentered⟩ := h.requests id request hrequest
    refine ⟨hid, hproper, fun ref href => ?_⟩
    obtain ⟨hsome, hrecorded, hopen⟩ := hentered ref href
    rw [howner ref (h.states ref hsome)]
    exact ⟨hsome, hrecorded, hopen⟩
  exports := by
    intro id export' hexport
    obtain ⟨hid, hsome, hnode, hstage⟩ := h.exports id export' hexport
    exact ⟨hid, hsome, (howner _ (h.states _ hsome)).trans hnode, hstage⟩

/-- What the links do not read may change, and the states may be rewritten. -/
theorem Linked.of_same {r after : Recorder} {owner : ℕ → ℕ}
    (h : Linked r owner) (hsame : r.SameRequests after)
    (hstates : ∀ ref, (after.states.get? ref).isSome =
      (r.states.get? ref).isSome)
    (hnext : after.nextState = r.nextState)
    (hinteractions : after.interactions = r.interactions) :
    Linked after owner := by
  constructor
  · intro ref hsome
    rw [hstates] at hsome
    rw [hnext]
    exact h.states ref hsome
  · intro node ref hget
    rw [hinteractions] at hget
    rw [hstates]
    exact h.interactions node ref hget
  · intro id request hrequest
    rw [hsame.requests] at hrequest
    rw [hsame.nextRequest, hsame.exported, hinteractions]
    simpa only [hstates] using h.requests id request hrequest
  · intro id export' hexport
    rw [hsame.exports] at hexport
    rw [hsame.nextExport, hsame.exported, hinteractions, hstates]
    exact h.exports id export' hexport

namespace Recorder

/-- The state found for an interaction is there and is its own; others keep
theirs. -/
structure Found (r after : Recorder) (owner owner' : ℕ → ℕ)
    (node ref : ℕ) : Prop where
  linked : Linked after owner'
  get? : after.interactions.get? node = some ref
  others : ∀ other, other ≠ node →
    after.interactions.get? other = r.interactions.get? other
  stateAt : ∀ key, after.stateAt key = r.stateAt key
  current : ∀ other, after.current other = r.current other
  owner : ∀ key, key < r.nextState → owner' key = owner key

theorem found_stateFor {r : Recorder} {owner : ℕ → ℕ} (h : Linked r owner)
    (node : ℕ) : ∃ owner', Found r (r.stateFor node).1 owner owner' node
      (r.stateFor node).2 := by
  unfold stateFor
  cases hget : r.interactions.get? node with
  | some ref =>
      exact ⟨owner, h, hget, fun _ _ => rfl, fun _ => rfl, fun _ => rfl,
        fun _ _ => rfl⟩
  | none =>
      have hfresh : r.states.get? r.nextState = none := by
        by_contra hsome
        exact absurd (h.states r.nextState (Option.isSome_iff_ne_none.mpr hsome))
          (Nat.lt_irrefl _)
      have hkept : ∀ key, (r.states.get? key).isSome →
          key ≠ r.nextState := fun key hsome heq => by
        rw [heq, hfresh] at hsome
        cases hsome
      have hkeep : ∀ key, (r.states.get? key).isSome →
          ((r.states.put r.nextState .empty).get? key).isSome := by
        intro key hsome
        rw [Keyed.get?_put_of_ne _ _ (hkept key hsome)]
        exact hsome
      have hstateAt : ∀ key, ((r.states.put r.nextState .empty).get? key).getD
          .empty = (r.states.get? key).getD .empty := by
        intro key
        rw [Keyed.get?_put]
        by_cases hkey : key = r.nextState
        · simp [hkey, hfresh]
        · rw [if_neg hkey]
      have howner : ∀ key, key < r.nextState →
          Function.update owner r.nextState node key = owner key :=
        fun key hlt => Function.update_of_ne (Nat.ne_of_lt hlt) _ _
      have hlinked := h.congr howner
      refine ⟨Function.update owner r.nextState node, ?_, ?_, ?_, hstateAt, ?_,
        howner⟩
      · constructor
        · intro ref hsome
          by_cases href : ref = r.nextState
          · exact href ▸ Nat.lt_succ_self _
          · rw [Keyed.get?_put_of_ne _ _ href] at hsome
            exact Nat.lt_succ_of_lt (h.states ref hsome)
        · intro other ref hother
          rw [Keyed.get?_put] at hother
          by_cases hnode : other = node
          · rw [if_pos hnode] at hother
            obtain rfl := Option.some.inj hother
            exact ⟨by rw [Function.update_self, hnode], by simp⟩
          · rw [if_neg hnode] at hother
            obtain ⟨hown, hsome⟩ := hlinked.interactions other ref hother
            exact ⟨hown, hkeep ref hsome⟩
        · intro id request hrequest
          obtain ⟨hid, hproper, hentered⟩ := hlinked.requests id request hrequest
          refine ⟨hid, hproper, fun ref href => ?_⟩
          obtain ⟨hsome, hrecorded, hopen⟩ := hentered ref href
          refine ⟨hkeep ref hsome, hrecorded, fun hnot => ?_⟩
          have hold := hopen hnot
          rw [Keyed.get?_put_of_ne _ _ fun heq => ?_]
          · exact hold
          · rw [heq, hget] at hold
            cases hold
        · intro id export' hexport
          obtain ⟨hid, hsome, hown, hstage⟩ := hlinked.exports id export' hexport
          refine ⟨hid, hkeep _ hsome, hown, ?_⟩
          rcases hstage with hexported | ⟨hold, hwaits⟩
          · exact .inl hexported
          · refine .inr ⟨?_, hwaits⟩
            rw [Keyed.get?_put_of_ne _ _ fun heq => ?_]
            · exact hold
            · rw [heq, hget] at hold
              cases hold
      · exact Keyed.get?_put_self _ _ _
      · exact fun other hother => Keyed.get?_put_of_ne _ _ hother
      · intro other
        unfold Recorder.current
        rw [Keyed.get?_put]
        by_cases hnode : other = node
        · rw [if_pos hnode, hnode, hget]
          simp [stateAt]
        · rw [if_neg hnode]
          congr 2
          exact funext hstateAt

/-- A state rewritten in place. -/
theorem Found.updateState {r after : Recorder} {owner owner' : ℕ → ℕ}
    {node ref : ℕ} (h : Found r after owner owner' node ref)
    (f : InteractionState → InteractionState) :
    Linked (after.updateState ref f) owner' ∧
      ∀ other, (after.updateState ref f).current other =
        if other = node then f (r.current other) else r.current other := by
  obtain ⟨hown, hsome⟩ := h.linked.interactions node ref h.get?
  constructor
  · refine h.linked.of_same ⟨rfl, rfl, rfl, rfl, rfl⟩ (fun key => ?_) rfl rfl
    rw [get?_updateState]
    by_cases hkey : key = ref
    · rw [if_pos hkey, Option.isSome_map]
    · rw [if_neg hkey]
  · intro other
    rw [← h.current other]
    by_cases hnode : other = node
    · rw [if_pos hnode, hnode, current_of_get? h.get?]
      have hget : (after.updateState ref f).interactions.get? node =
          some ref := h.get?
      rw [current_of_get? hget, stateAt_updateState hsome, if_pos rfl]
    · rw [if_neg hnode]
      unfold Recorder.current
      have hsame : (after.updateState ref f).interactions =
          after.interactions := rfl
      rw [hsame]
      cases hother : after.interactions.get? other with
      | none => rfl
      | some key =>
          have hkey : key ≠ ref := fun heq => hnode (by
            rw [← (h.linked.interactions other key hother).1, heq, hown])
          simp only [Option.map_some, Option.getD_some]
          rw [stateAt_updateState hsome, if_neg hkey]

/-- Recording adds an event to the state of its interaction, if this has not
been exported, and touches no other. -/
theorem linked_record (settings : Settings) (eventBytes : Event → ℕ)
    {r : Recorder} {owner : ℕ → ℕ} (h : Linked r owner)
    (receipt : Option (ℕ × Receipt)) :
    (∃ owner', Linked (r.record settings eventBytes receipt) owner') ∧
      (∀ node made, receipt = some (node, made) →
        node ∉ r.exportedInteractions →
        (r.record settings eventBytes receipt).current node =
          (r.current node).take settings eventBytes
            ⟨made, r.sequence + 1, node⟩) ∧
      ∀ node, (∀ made, receipt ≠ some (node, made)) →
        (r.record settings eventBytes receipt).current node =
          r.current node := by
  cases receipt with
  | none => exact ⟨⟨owner, h⟩, by simp, fun _ _ => rfl⟩
  | some found =>
      obtain ⟨target, made⟩ := found
      by_cases hexported : target ∈ r.exportedInteractions
      · rw [record_of_mem hexported]
        refine ⟨⟨owner, h⟩, ?_, fun _ _ => rfl⟩
        rintro node made' ⟨⟩ hnot
        exact absurd hexported hnot
      · rw [record_of_not_mem hexported]
        have hnumbered : Linked { r with sequence := r.sequence + 1 } owner :=
          h.of_same ⟨rfl, rfl, rfl, rfl, rfl⟩ (fun _ => rfl) rfl rfl
        obtain ⟨owner', hfound⟩ := found_stateFor hnumbered target
        obtain ⟨hlinked, hcurrent⟩ := hfound.updateState fun state =>
          state.take settings eventBytes ⟨made, r.sequence + 1, target⟩
        refine ⟨⟨owner', hlinked⟩, ?_, ?_⟩
        · rintro node made' ⟨⟩ -
          exact (hcurrent target).trans (if_pos rfl)
        · intro node hother
          refine (hcurrent node).trans (if_neg ?_)
          rintro rfl
          exact hother made rfl

end Recorder

/-- What the capabilities and the numbers have no part in. -/
theorem Recorder.changed_frame (r : Recorder) (change : Option CapabilityChange)
    (passed : Bool) :
    Recorder.SameRequests r ((r.applyChange change).passNumber passed) ∧
      ∀ node, ((r.applyChange change).passNumber passed).current node =
        r.current node := by
  cases change with
  | none => exact ⟨⟨rfl, rfl, rfl, rfl, rfl⟩, fun _ => rfl⟩
  | some change =>
      cases change <;> exact ⟨⟨rfl, rfl, rfl, rfl, rfl⟩, fun _ => rfl⟩

/-! ## Links kept -/

theorem Linked.applyChange {r : Recorder} {owner : ℕ → ℕ} (h : Linked r owner)
    (change : Option CapabilityChange) : Linked (r.applyChange change) owner := by
  cases change with
  | none => exact h
  | some change =>
      cases change <;>
        exact h.of_same ⟨rfl, rfl, rfl, rfl, rfl⟩ (fun _ => rfl) rfl rfl

theorem Linked.passNumber {r : Recorder} {owner : ℕ → ℕ} (h : Linked r owner)
    (passed : Bool) : Linked (r.passNumber passed) owner :=
  h.of_same ⟨rfl, rfl, rfl, rfl, rfl⟩ (fun _ => rfl) rfl rfl

theorem Linked.learn {r : Recorder} {owner : ℕ → ℕ} (h : Linked r owner)
    (token : String) : Linked (r.learn token) owner :=
  h.of_same ⟨rfl, rfl, rfl, rfl, rfl⟩ (fun _ => rfl) rfl rfl

/-- Requests that are rewritten keep what the links read, or end. -/
theorem Linked.withRequests {r : Recorder} {owner : ℕ → ℕ} (h : Linked r owner)
    {requests : Keyed ℕ Request}
    (hrequests : ∀ id request, requests.get? id = some request →
      ∃ old, r.requests.get? id = some old ∧ request.entered = old.entered ∧
        request.recordedFor = old.recordedFor ∧
        (old.Proper → request.Proper)) :
    Linked { r with requests := requests } owner where
  states := h.states
  interactions := h.interactions
  requests := by
    intro id request hrequest
    obtain ⟨old, hold, hentered, hrecorded, hproper⟩ :=
      hrequests id request hrequest
    obtain ⟨hid, holdProper, hlinks⟩ := h.requests id old hold
    rw [hentered, hrecorded]
    exact ⟨hid, hproper holdProper, hlinks⟩
  exports := h.exports

theorem Linked.release {r : Recorder} {owner : ℕ → ℕ} (h : Linked r owner)
    (id : ℕ) : Linked (r.release id) owner := by
  apply h.withRequests
  intro key request hrequest
  rw [Keyed.get?_erase] at hrequest
  by_cases hkey : key = id
  · rw [if_pos hkey] at hrequest
    cases hrequest
  · rw [if_neg hkey] at hrequest
    exact ⟨request, hrequest, rfl, rfl, fun hproper => hproper⟩

theorem Request.Proper.flag {request : Request} (h : request.Proper)
    {accounted aborted : Bool}
    (hflags : accounted = true → aborted = true) :
    Request.Proper { request with accounted := accounted, aborted := aborted } where
  outside := h.outside
  inside := h.inside
  aborted := hflags

theorem Linked.mapRequests {r : Recorder} {owner : ℕ → ℕ} (h : Linked r owner)
    {f : ℕ → Request → Request}
    (hf : ∀ id request, f id request = request ∨
      f id request = { request with aborted := true } ∨
      f id request = { request with accounted := true, aborted := true }) :
    Linked { r with requests := r.requests.mapRows f } owner := by
  apply h.withRequests
  intro id request hrequest
  rw [Keyed.get?_mapRows, Option.map_eq_some_iff] at hrequest
  obtain ⟨old, hold, rfl⟩ := hrequest
  refine ⟨old, hold, ?_⟩
  rcases hf id old with hsame | haborted | hcancelled
  · rw [hsame]
    exact ⟨rfl, rfl, fun hproper => hproper⟩
  · rw [haborted]
    exact ⟨rfl, rfl, fun hproper => hproper.flag fun _ => rfl⟩
  · rw [hcancelled]
    exact ⟨rfl, rfl, fun hproper => hproper.flag fun _ => rfl⟩

/-- An export put on its next wait. -/
theorem Linked.putExport {r : Recorder} {owner : ℕ → ℕ} (h : Linked r owner)
    {id node ref : ℕ} {stage : ExportStage} {exported : List ℕ}
    (hid : id < r.nextExport) (hsome : (r.states.get? ref).isSome)
    (howner : owner ref = node)
    (hkept : ∀ other ∈ r.exportedInteractions, other ∈ exported)
    (hstage : node ∈ exported ∨ r.interactions.get? node = some ref ∧
      ∀ descriptor, stage ≠ .writing descriptor) :
    Linked { r with
      exportedInteractions := exported
      exports := r.exports.put id ⟨node, ref, stage⟩ } owner where
  states := h.states
  interactions := h.interactions
  requests := by
    intro key request hrequest
    obtain ⟨hkey, hproper, hentered⟩ := h.requests key request hrequest
    refine ⟨hkey, hproper, fun state hstate => ?_⟩
    obtain ⟨hthere, hrecorded, hopen⟩ := hentered state hstate
    exact ⟨hthere, hrecorded, fun hnot => hopen fun hmem => hnot (hkept _ hmem)⟩
  exports := by
    intro key export' hexport
    rw [Keyed.get?_put] at hexport
    by_cases hkey : key = id
    · rw [if_pos hkey] at hexport
      obtain rfl := Option.some.inj hexport
      exact ⟨hkey ▸ hid, hsome, howner, hstage⟩
    · rw [if_neg hkey] at hexport
      obtain ⟨hlt, hthere, hnode, hwaits⟩ := h.exports key export' hexport
      refine ⟨hlt, hthere, hnode, ?_⟩
      rcases hwaits with hexported | hopen
      · exact .inl (hkept _ hexported)
      · exact .inr hopen

theorem Linked.turn {r : Recorder} {owner : ℕ → ℕ} (h : Linked r owner)
    {id node ref : ℕ} (hid : id < r.nextExport)
    (hsome : (r.states.get? ref).isSome) (howner : owner ref = node)
    (hopen : node ∈ r.exportedInteractions ∨
      r.interactions.get? node = some ref) :
    Linked (r.turn eventBytes id node ref) owner := by
  by_cases hpending : r.allPendingIn ref = []
  · rw [Recorder.turn_of_settled hpending]
    exact h.putExport hid hsome howner
      (fun _ hmem => List.mem_cons_of_mem _ hmem) (.inl (by simp))
  · rw [Recorder.turn_of_pending hpending]
    apply h.putExport hid hsome howner fun _ hmem => hmem
    exact hopen.imp_right fun hget => ⟨hget, by simp⟩

/-- A new request, pending in the state of its interaction or nowhere. -/
theorem Linked.putRequest {r : Recorder} {owner : ℕ → ℕ} (h : Linked r owner)
    {request : Request} (hproper : request.Proper)
    (hentered : ∀ ref, request.entered = some ref →
      request.recordedFor = some (owner ref) ∧
        r.interactions.get? (owner ref) = some ref) :
    Linked { r with
      requests := r.requests.put r.nextRequest request
      nextRequest := r.nextRequest + 1 } owner where
  states := h.states
  interactions := h.interactions
  requests := by
    intro id found hfound
    rw [Keyed.get?_put] at hfound
    by_cases hid : id = r.nextRequest
    · rw [if_pos hid] at hfound
      obtain rfl := Option.some.inj hfound
      refine ⟨hid ▸ Nat.lt_succ_self _, hproper, fun ref href => ?_⟩
      obtain ⟨hrecorded, hget⟩ := hentered ref href
      exact ⟨(h.interactions _ ref hget).2, hrecorded, fun _ => hget⟩
    · rw [if_neg hid] at hfound
      obtain ⟨hlt, hkept, hlinks⟩ := h.requests id found hfound
      exact ⟨Nat.lt_succ_of_lt hlt, hkept, hlinks⟩
  exports := h.exports

/-- The interaction a request is an operation of. -/
def Request.operationOf (request : Request) : Option ℕ :=
  request.attributedOperation.map AttributedOperation.interactionNodeId

/-- What an arrival changes. -/
structure Arrives (r after : Recorder) (method path : String)
    (authorization : Option String) (arrived : Request) : Prop where
  linked : ∃ owner, Linked after owner
  requests : after.requests = r.requests.put r.nextRequest arrived
  nextRequest : after.nextRequest = r.nextRequest + 1
  exports : after.exports = r.exports
  exported : after.exportedInteractions = r.exportedInteractions
  owners : after.capabilityOwners = r.capabilityOwners
  current : ∀ node, after.current node = r.current node
  sent : arrived.method = method ∧ arrived.path = path
  accounted : arrived.accounted = false
  operation : ∀ node, arrived.operationOf = some node ↔
    r.holderOf authorization = some node ∧ isGraphPath path = true ∧
      path ≠ authoringErrorsPath

theorem Request.recordedFor_eq_some_iff {request : Request} {node : ℕ} :
    request.recordedFor = some node ↔
      isGraphPath request.path = true ∧
        request.interactionNodeId = some node := by
  unfold recordedFor
  by_cases hpath : isGraphPath request.path = true <;> simp [hpath]

/-- A request enters the state of its interaction as the links ask. -/
theorem linked_enter {r : Recorder} {owner : ℕ → ℕ} (h : Linked r owner)
    (request : Request) (hproper : request.attributedOperation = none ∧
      request.entered = none ∧ request.accounted = false) :
    ∃ owner', Linked (r.enter request).1 owner' ∧
      (r.enter request).2.Proper ∧
      ∀ ref, (r.enter request).2.entered = some ref →
        (r.enter request).2.recordedFor = some (owner' ref) ∧
          (r.enter request).1.interactions.get? (owner' ref) = some ref := by
  obtain ⟨hoperation, hentered, haccounted⟩ := hproper
  unfold Recorder.enter
  cases hrecorded : request.recordedFor with
  | none =>
      refine ⟨owner, h, ⟨fun _ => ⟨hoperation, hentered⟩, ?_, ?_⟩, ?_⟩
      · intro node hnode
        rw [hrecorded] at hnode
        cases hnode
      · simp [haccounted]
      · simp [hentered]
  | some node =>
      obtain ⟨owner', hfound⟩ := Recorder.found_stateFor h node
      have hown := (hfound.linked.interactions node _ hfound.get?).1
      have hsame : ∀ operation entered, Request.recordedFor { request with
          attributedOperation := operation, entered := entered } =
            some node := fun _ _ => hrecorded
      refine ⟨owner', hfound.linked, ⟨?_, ?_, ?_⟩, ?_⟩
      · intro hnone
        rw [hsame] at hnone
        cases hnone
      · intro other hother
        rw [hsame] at hother
        obtain rfl := Option.some.inj hother
        refine ⟨rfl, ?_⟩
        by_cases hauthoring : request.path = authoringErrorsPath
        · exact .inl ⟨hauthoring, if_pos hauthoring⟩
        · exact .inr ⟨hauthoring, _, if_neg hauthoring⟩
      · simp [haccounted]
      · intro ref href
        obtain rfl := Option.some.inj href
        rw [hown]
        exact ⟨hsame _ _, hfound.get?⟩

/-- What entering leaves alone, and what it makes of a request. -/
theorem enter_frame {r : Recorder} {owner : ℕ → ℕ} (h : Linked r owner)
    (request : Request) :
    Recorder.SameRequests r (r.enter request).1 ∧
      (r.enter request).1.capabilityOwners = r.capabilityOwners ∧
      (∀ node, (r.enter request).1.current node = r.current node) ∧
      (r.enter request).2.method = request.method ∧
      (r.enter request).2.path = request.path ∧
      (r.enter request).2.accounted = request.accounted := by
  unfold Recorder.enter
  cases request.recordedFor with
  | none => exact ⟨⟨rfl, rfl, rfl, rfl, rfl⟩, rfl, fun _ => rfl, rfl, rfl, rfl⟩
  | some node =>
      obtain ⟨_, hfound⟩ := Recorder.found_stateFor h node
      refine ⟨?_, by simp, hfound.current, rfl, rfl, rfl⟩
      constructor <;> simp

theorem operationOf_enter (r : Recorder) (request : Request)
    (hnone : request.attributedOperation = none) (node : ℕ) :
    (r.enter request).2.operationOf = some node ↔
      request.interactionNodeId = some node ∧
        isGraphPath request.path = true ∧
        request.path ≠ authoringErrorsPath := by
  unfold Recorder.enter Request.operationOf
  cases hrecorded : request.recordedFor with
  | none =>
      have hnot : ¬ (isGraphPath request.path = true ∧
          request.interactionNodeId = some node) := fun hboth => by
        rw [Request.recordedFor_eq_some_iff.mpr hboth] at hrecorded
        cases hrecorded
      simp only [hnone, Option.map_none, reduceCtorEq, false_iff]
      exact fun hall => hnot ⟨hall.2.1, hall.1⟩
  | some found =>
      obtain ⟨hpath, hfound⟩ := Request.recordedFor_eq_some_iff.mp hrecorded
      by_cases hauthoring : request.path = authoringErrorsPath
      · simp [hauthoring]
      · simp [hauthoring, hpath, hfound]

theorem learnFrom_eq (r : Recorder) (authorization : Option String) :
    ∃ secrets, r.learnFrom authorization = { r with knownSecrets := secrets } := by
  unfold Recorder.learnFrom
  cases bearerToken authorization with
  | none => exact ⟨r.knownSecrets, rfl⟩
  | some token => exact ⟨_, rfl⟩

theorem arrives {r : Recorder} {owner : ℕ → ℕ} (h : Linked r owner)
    (method path : String) (authorization : Option String) :
    ∃ request, Arrives r (r.arrive method path authorization) method path
      authorization request := by
  obtain ⟨secrets, hsecrets⟩ := learnFrom_eq r authorization
  have hknown : Linked (r.learnFrom authorization) owner := by
    rw [hsecrets]
    exact h.of_same ⟨rfl, rfl, rfl, rfl, rfl⟩ (fun _ => rfl) rfl rfl
  let request : Request := ⟨method, path,
    (r.learnFrom authorization).holderOf authorization, none, none, false,
    false⟩
  obtain ⟨owner', hlinked, hproper, hentered⟩ := linked_enter hknown request
    ⟨rfl, rfl, rfl⟩
  obtain ⟨hframe, howners, hcurrent, hmethod, hpath, haccounted⟩ :=
    enter_frame hknown request
  have hoperation := operationOf_enter (r.learnFrom authorization) request rfl
  have hsame : Recorder.SameRequests r (r.learnFrom authorization) := by
    rw [hsecrets]
    exact ⟨rfl, rfl, rfl, rfl, rfl⟩
  have hcapabilities : (r.learnFrom authorization).capabilityOwners =
      r.capabilityOwners := by rw [hsecrets]
  refine ⟨((r.learnFrom authorization).enter request).2,
    ⟨owner', hlinked.putRequest hproper hentered⟩, ?_, ?_,
    hframe.exports.trans hsame.exports, hframe.exported.trans hsame.exported,
    howners.trans hcapabilities, fun node => (hcurrent node).trans ?_,
    ⟨hmethod, hpath⟩, haccounted, fun node => (hoperation node).trans ?_⟩
  · rw [← hsame.requests, ← hsame.nextRequest, ← hframe.requests,
      ← hframe.nextRequest]
    rfl
  · rw [← hsame.nextRequest, ← hframe.nextRequest]
    rfl
  · rw [hsecrets]
    rfl
  · have hholder : (r.learnFrom authorization).holderOf authorization =
        r.holderOf authorization := by
      unfold Recorder.holderOf
      rw [hcapabilities]
    rw [← hholder]

theorem Linked.passExport {r : Recorder} {owner : ℕ → ℕ} (h : Linked r owner)
    (next : ℕ) (hnext : r.nextExport ≤ next) :
    Linked { r with nextExport := next } owner where
  states := h.states
  interactions := h.interactions
  requests := h.requests
  exports := by
    intro id export' hexport
    obtain ⟨hid, hlinks⟩ := h.exports id export' hexport
    exact ⟨Nat.lt_of_lt_of_le hid hnext, hlinks⟩

/-- An export leaves, and the state of its interaction may be forgotten. -/
theorem Linked.leave {r : Recorder} {owner : ℕ → ℕ} (h : Linked r owner)
    {node : ℕ} (hexported : node ∈ r.exportedInteractions) (id : ℕ)
    (forget : Bool) :
    Linked { r with
      interactions :=
        if forget then r.interactions.erase node else r.interactions
      exports := r.exports.erase id } owner := by
  have hkept : ∀ other ref, other ∉ r.exportedInteractions →
      r.interactions.get? other = some ref →
      (if forget then r.interactions.erase node else r.interactions).get?
        other = some ref := by
    intro other ref hopen hget
    cases forget with
    | false => exact hget
    | true =>
        refine (Keyed.get?_erase_of_ne _ ?_).trans hget
        rintro rfl
        exact hopen hexported
  constructor
  · exact h.states
  · intro other ref hget
    apply h.interactions other ref
    cases forget with
    | false => exact hget
    | true =>
        simp only [if_true, Keyed.get?_erase] at hget
        by_cases hother : other = node
        · simp [hother] at hget
        · rwa [if_neg hother] at hget
  · intro key request hrequest
    obtain ⟨hkey, hproper, hentered⟩ := h.requests key request hrequest
    refine ⟨hkey, hproper, fun ref href => ?_⟩
    obtain ⟨hsome, hrecorded, hopen⟩ := hentered ref href
    exact ⟨hsome, hrecorded, fun hnot => hkept _ ref hnot (hopen hnot)⟩
  · intro key export' hexport
    rw [Keyed.get?_erase] at hexport
    by_cases hkey : key = id
    · rw [if_pos hkey] at hexport
      cases hexport
    · rw [if_neg hkey] at hexport
      obtain ⟨hlt, hsome, hown, hstage⟩ := h.exports key export' hexport
      refine ⟨hlt, hsome, hown, ?_⟩
      by_cases hmem : export'.interactionNodeId ∈ r.exportedInteractions
      · exact .inl hmem
      · rcases hstage with hthere | ⟨hget, hwaits⟩
        · exact .inl hthere
        · exact .inr ⟨hkept _ _ hmem hget, hwaits⟩

/-! ## Links along a run -/

theorem Linked.moved {r after : Recorder} {owner : ℕ → ℕ} (h : Linked r owner)
    {occurrences : List Occurrence}
    (hmove : Moves settings eventBytes r occurrences after) :
    ∃ owner', Linked after owner' := by
  cases hmove with
  | arrived method path authorization =>
      obtain ⟨request, harrives⟩ := arrives h method path authorization
      exact harrives.linked
  | @ended id request change passed receipt hrequest hmakes =>
      have hbefore := (h.applyChange change).passNumber passed
      obtain ⟨⟨owner', hrecorded⟩, -⟩ :=
        Recorder.linked_record settings eventBytes hbefore receipt
      exact ⟨owner', hrecorded.release id⟩
  | @flagged f closed hf =>
      have hmapped := h.mapRequests fun id request =>
        (hf id request).imp_right Or.inl
      exact ⟨owner, hmapped.of_same ⟨rfl, rfl, rfl, rfl, rfl⟩ (fun _ => rfl)
        rfl rfl⟩
  | began node =>
      obtain ⟨owner', hfound⟩ := Recorder.found_stateFor h node
      have hown := hfound.linked.interactions node _ hfound.get?
      have hlater := hfound.linked.passExport (r.nextExport + 1)
        (by rw [Recorder.stateFor_nextExport]; exact Nat.le_succ _)
      exact ⟨owner', hlater.turn (Nat.lt_succ_self _) hown.2 hown.1
        (.inr hfound.get?)⟩
  | @turned id node ref activities stage hexport hstage hsettled =>
      obtain ⟨hid, hsome, hown, hopen⟩ := h.exports id _ hexport
      exact ⟨owner, h.turn hid hsome hown (hopen.imp_right And.left)⟩
  | @timedOut id node ref activities hexport =>
      obtain ⟨hid, hsome, hown, hopen⟩ := h.exports id _ hexport
      have hcounted : Linked (r.updateState ref fun state =>
          { state with
            discardedEvents :=
              state.discardedEvents + (r.pendingIn ref false).length
            diagnosticDiscarded :=
              state.diagnosticDiscarded + (r.pendingIn ref true).length })
          owner := by
        refine h.of_same ⟨rfl, rfl, rfl, rfl, rfl⟩ (fun key => ?_) rfl rfl
        rw [Recorder.get?_updateState]
        by_cases hkey : key = ref
        · rw [if_pos hkey, Option.isSome_map]
        · rw [if_neg hkey]
      have hcancelled := hcounted.mapRequests (f := fun key request =>
        if key ∈ r.allPendingIn ref then
          { request with accounted := true, aborted := true }
        else request) fun key request => by
          by_cases hkey : key ∈ r.allPendingIn ref
          · exact .inr (.inr (if_pos hkey))
          · exact .inl (if_neg hkey)
      refine ⟨owner, hcancelled.putExport hid ?_ hown (fun _ hmem => hmem) ?_⟩
      · exact (hcancelled.exports id _ hexport).2.1
      · exact hopen.imp_right fun hget => ⟨hget.1, by simp⟩
  | @left id node ref descriptor forget hexport =>
      obtain ⟨-, -, -, hstage⟩ := h.exports id _ hexport
      have hexported : node ∈ r.exportedInteractions := by
        rcases hstage with hmem | ⟨-, hwaits⟩
        · exact hmem
        · exact absurd rfl (hwaits descriptor)
      exact ⟨owner, h.leave hexported id forget⟩

end GraphOperationRecorder

end RelayerGraph
