import RelayerGraph.Recorder.Capabilities

/-!
# Accounts of graph operations

Every operation of an interaction that has not been exported is under way, has
its event, or is left out and counted as discarded.  Each end of a request moves
one operation, a timeout all that are under way.
-/

namespace RelayerGraph

namespace GraphOperationRecorder

open Foundation

variable {settings : Settings} {eventBytes : Event → ℕ}

/-! ## Operations under way -/

/-- An operation of the interaction that has not been counted yet. -/
def Live (r : Recorder) (node id : ℕ) : Prop :=
  ∃ request, r.requests.get? id = some request ∧
    request.operationOf = some node ∧ request.accounted = false

theorem live_congr {r after : Recorder}
    (h : after.requests = r.requests) (node id : ℕ) :
    Live after node id ↔ Live r node id := by
  unfold Live
  rw [h]

theorem live_erase {r after : Recorder} {id : ℕ}
    (h : after.requests = r.requests.erase id) (node other : ℕ) :
    Live after node other ↔ Live r node other ∧ other ≠ id := by
  unfold Live
  rw [h]
  simp only [Keyed.get?_erase]
  by_cases hother : other = id
  · simp [hother]
  · simp [hother]

theorem Request.Proper.recordedFor_of_operationOf {request : Request}
    (h : request.Proper) {node : ℕ} (hnode : request.operationOf = some node) :
    request.recordedFor = some node ∧ request.path ≠ authoringErrorsPath := by
  unfold Request.operationOf at hnode
  cases hrecorded : request.recordedFor with
  | none => simp [(h.outside hrecorded).1] at hnode
  | some found =>
      rcases (h.inside found hrecorded).2 with ⟨-, hnone⟩ |
        ⟨hpath, path, hoperation⟩
      · simp [hnone] at hnode
      · rw [hoperation] at hnode
        exact ⟨hnode, hpath⟩

theorem Request.Proper.method_of_operation {request : Request}
    (h : request.Proper) {operation : AttributedOperation}
    (hoperation : request.attributedOperation = some operation) :
    operation.method = request.method := by
  have hnode : request.operationOf = some operation.interactionNodeId := by
    simp [Request.operationOf, hoperation]
  have hrecorded := (h.recordedFor_of_operationOf hnode).1
  rcases (h.inside _ hrecorded).2 with ⟨-, hnone⟩ | ⟨-, path, hsome⟩
  · simp [hoperation] at hnone
  · rw [hoperation] at hsome
    rw [Option.some.inj hsome]

theorem mem_pendingIn {r : Recorder} {ref id : ℕ} {diagnostics : Bool} :
    id ∈ r.pendingIn ref diagnostics ↔ ∃ request,
      r.requests.get? id = some request ∧ request.entered = some ref ∧
        decide (request.path = authoringErrorsPath) = diagnostics := by
  unfold Recorder.pendingIn
  simp only [List.mem_map, List.mem_filter, Bool.and_eq_true,
    decide_eq_true_eq]
  constructor
  · rintro ⟨⟨key, request⟩, ⟨hmem, hentered, hpath⟩, rfl⟩
    exact ⟨request, Keyed.get?_of_mem_rows hmem, hentered, hpath⟩
  · rintro ⟨request, hrequest, hentered, hpath⟩
    exact ⟨(id, request), ⟨Keyed.mem_rows_of_get? hrequest, hentered, hpath⟩,
      rfl⟩

theorem mem_allPendingIn {r : Recorder} {ref id : ℕ} :
    id ∈ r.allPendingIn ref ↔ ∃ request,
      r.requests.get? id = some request ∧ request.entered = some ref := by
  unfold Recorder.allPendingIn
  rw [List.mem_append, mem_pendingIn, mem_pendingIn]
  constructor
  · rintro (⟨request, hrequest, hentered, -⟩ | ⟨request, hrequest, hentered, -⟩)
    · exact ⟨request, hrequest, hentered⟩
    · exact ⟨request, hrequest, hentered⟩
  · rintro ⟨request, hrequest, hentered⟩
    by_cases hpath : request.path = authoringErrorsPath
    · exact .inr ⟨request, hrequest, hentered, by simp [hpath]⟩
    · exact .inl ⟨request, hrequest, hentered, by simp [hpath]⟩

theorem nodup_pendingIn (r : Recorder) (ref : ℕ) (diagnostics : Bool) :
    (r.pendingIn ref diagnostics).Nodup :=
  (List.filter_sublist.map Prod.fst).nodup r.requests.nodup

/-- An operation of an interaction is pending in its state. -/
theorem Linked.mem_pendingIn_of_operation {r : Recorder} {owner : ℕ → ℕ}
    (h : Linked r owner) {node id ref : ℕ} {request : Request}
    (hopen : node ∉ r.exportedInteractions)
    (href : r.interactions.get? node = some ref)
    (hrequest : r.requests.get? id = some request)
    (hnode : request.operationOf = some node) : id ∈ r.pendingIn ref false := by
  obtain ⟨-, hproper, hentered⟩ := h.requests id request hrequest
  obtain ⟨hrecorded, hpath⟩ := hproper.recordedFor_of_operationOf hnode
  obtain ⟨entered, hsome⟩ := Option.isSome_iff_exists.mp
    (hproper.inside node hrecorded).1
  obtain ⟨-, howner, hget⟩ := hentered entered hsome
  have hown : owner entered = node := by
    rw [hrecorded] at howner
    exact (Option.some.inj howner).symm
  have hsame := hget (hown ▸ hopen)
  rw [hown, href] at hsame
  refine mem_pendingIn.mpr ⟨request, hrequest, ?_, by simp [hpath]⟩
  rw [hsome, Option.some.inj hsame]

/-- What is pending in the state of one interaction is no operation of
another. -/
theorem Linked.operationOf_of_entered {r : Recorder} {owner : ℕ → ℕ}
    (h : Linked r owner) {node id ref : ℕ} {request : Request}
    (hrequest : r.requests.get? id = some request)
    (hentered : request.entered = some ref)
    (hnode : request.operationOf = some node) : owner ref = node := by
  obtain ⟨-, hproper, hlinks⟩ := h.requests id request hrequest
  have hrecorded := (hproper.recordedFor_of_operationOf hnode).1
  rw [(hlinks ref hentered).2.1] at hrecorded
  exact Option.some.inj hrecorded

/-! ## Accounts -/

/-- An event of a graph operation, not of an authoring error. -/
def Event.isGraphEvent (event : Event) : Bool :=
  event.receipt.authoringError.isNone

/-- The event of a request, or of the proxy's failure to pass it on. -/
structure Event.ReceiptOf (event : Event) (node : ℕ)
    (method path : String) : Prop where
  node : event.interactionNodeId = node
  method : event.receipt.method = method
  path : event.receipt.path = path ∨ event.receipt.status = 502 ∧
    event.receipt.errorCodes = ["graph_operation_proxy_failed"]

/-- The operations of an interaction with the events they have, and those left
out. -/
structure Accounts (journal : List Occurrence) (node : ℕ)
    (events : List Event) (discarded : ℕ) (accounts : List (ℕ × Event))
    (left : List ℕ) : Prop where
  events : accounts.map Prod.snd = events.filter Event.isGraphEvent
  distinct : (accounts.map Prod.fst ++ left).Nodup
  receipts : ∀ account ∈ accounts, ∃ method path,
    Attributed journal node account.1 method path ∧
      account.2.ReceiptOf node method path
  operations : ∀ id ∈ left, ∃ method path,
    Attributed journal node id method path
  length_le : left.length ≤ discarded
  nonempty : 0 < discarded → left ≠ []

/-- No two exports of the interaction have begun. -/
def OneExport (journal : List Occurrence) (node : ℕ) : Prop :=
  ∀ x y, .began x node ∈ journal → .began y node ∈ journal → x = y

/-- Every operation of an interaction is accounted for or under way. -/
def Accounted (r : Recorder) (journal : List Occurrence) (node : ℕ) : Prop :=
  ∃ accounts left, Accounts journal node (r.current node).events
      (r.current node).discardedEvents accounts left ∧
    (OneExport journal node →
      left.length = (r.current node).discardedEvents) ∧
    (∀ id ∈ accounts.map Prod.fst ++ left, ¬ Live r node id) ∧
    ∀ id method path, Attributed journal node id method path →
      id ∈ accounts.map Prod.fst ++ left ∨ Live r node id

theorem OneExport.of_append {journal occurrences : List Occurrence} {node : ℕ}
    (h : OneExport (journal ++ occurrences) node) : OneExport journal node :=
  fun x y hx hy => h x y (List.mem_append_left _ hx) (List.mem_append_left _ hy)

/-- An interaction's accounts do not change when its state, its operations and
its requests under way stay. -/
theorem Accounted.of_same {r after : Recorder} {journal : List Occurrence}
    {node : ℕ} (h : Accounted r journal node)
    (hevents : (after.current node).events.filter Event.isGraphEvent =
      (r.current node).events.filter Event.isGraphEvent)
    (hdiscarded : (after.current node).discardedEvents =
      (r.current node).discardedEvents)
    (hlive : ∀ id, Live after node id ↔ Live r node id)
    {occurrences : List Occurrence}
    (hplain : ∀ occurrence ∈ occurrences, occurrence.NoArrival) :
    Accounted after (journal ++ occurrences) node := by
  obtain ⟨accounts, left, haccounts, hexact, hnot, hcover⟩ := h
  refine ⟨accounts, left, ⟨?_, haccounts.distinct, ?_, ?_, ?_, ?_⟩, ?_, ?_, ?_⟩
  · rw [hevents]
    exact haccounts.events
  · intro account hmem
    obtain ⟨method, path, hattributed, hreceipt⟩ :=
      haccounts.receipts account hmem
    exact ⟨method, path, (attributed_append hplain).mpr hattributed, hreceipt⟩
  · intro id hmem
    obtain ⟨method, path, hattributed⟩ := haccounts.operations id hmem
    exact ⟨method, path, (attributed_append hplain).mpr hattributed⟩
  · rw [hdiscarded]
    exact haccounts.length_le
  · rw [hdiscarded]
    exact haccounts.nonempty
  · rw [hdiscarded]
    exact fun hone => hexact hone.of_append
  · intro id hmem hlater
    exact hnot id hmem ((hlive id).mp hlater)
  · intro id method path hattributed
    rw [hlive]
    exact hcover id method path ((attributed_append hplain).mp hattributed)

/-- An operation under way that ends with its event. -/
theorem Accounted.keep {r after : Recorder} {journal : List Occurrence}
    {node id : ℕ} (h : Accounted r journal node) (hid : Live r node id)
    (event : Event) {method path : String}
    (hattributed : Attributed journal node id method path)
    (hreceipt : event.ReceiptOf node method path)
    (hevents : (after.current node).events.filter Event.isGraphEvent =
      (r.current node).events.filter Event.isGraphEvent ++ [event])
    (hdiscarded : (after.current node).discardedEvents =
      (r.current node).discardedEvents)
    (hlive : ∀ other, Live after node other ↔ Live r node other ∧ other ≠ id)
    {occurrences : List Occurrence}
    (hplain : ∀ occurrence ∈ occurrences, occurrence.NoArrival) :
    Accounted after (journal ++ occurrences) node := by
  obtain ⟨accounts, left, haccounts, hexact, hnot, hcover⟩ := h
  have hfresh : id ∉ accounts.map Prod.fst ++ left := fun hmem =>
    hnot id hmem hid
  have hperm : ((accounts ++ [(id, event)]).map Prod.fst ++ left).Perm
      (id :: (accounts.map Prod.fst ++ left)) := by
    rw [List.map_append, List.append_assoc]
    exact List.perm_middle
  refine ⟨accounts ++ [(id, event)], left, ⟨?_, ?_, ?_, ?_, ?_, ?_⟩, ?_, ?_, ?_⟩
  · rw [hevents, ← haccounts.events]
    simp
  · rw [hperm.nodup_iff]
    exact List.nodup_cons.mpr ⟨hfresh, haccounts.distinct⟩
  · intro account hmem
    rcases List.mem_append.mp hmem with hold | hnew
    · obtain ⟨method, path, hthere, hthat⟩ := haccounts.receipts account hold
      exact ⟨method, path, (attributed_append hplain).mpr hthere, hthat⟩
    · rw [List.mem_singleton.mp hnew]
      exact ⟨method, path, (attributed_append hplain).mpr hattributed, hreceipt⟩
  · intro other hmem
    obtain ⟨method, path, hthere⟩ := haccounts.operations other hmem
    exact ⟨method, path, (attributed_append hplain).mpr hthere⟩
  · rw [hdiscarded]
    exact haccounts.length_le
  · rw [hdiscarded]
    exact haccounts.nonempty
  · rw [hdiscarded]
    exact fun hone => hexact hone.of_append
  · intro other hmem hlater
    obtain ⟨hbefore, hne⟩ := (hlive other).mp hlater
    rcases List.mem_cons.mp (hperm.mem_iff.mp hmem) with hsame | hold
    · exact hne hsame
    · exact hnot other hold hbefore
  · intro other method path hthere
    rw [hperm.mem_iff, List.mem_cons, hlive]
    by_cases hsame : other = id
    · exact .inl (.inl hsame)
    · rcases hcover other method path ((attributed_append hplain).mp hthere) with
        hold | hbefore
      · exact .inl (.inr hold)
      · exact .inr ⟨hbefore, hsame⟩

/-- Operations under way that end, or are cancelled, without an event. -/
theorem Accounted.drop {r after : Recorder} {journal : List Occurrence}
    {node : ℕ} (h : Accounted r journal node) (dropped : List ℕ)
    (more : ℕ) (hnodup : dropped.Nodup) (hdropped : ∀ id ∈ dropped, Live r node id)
    (hattributed : ∀ id, Live r node id → ∃ method path,
      Attributed journal node id method path)
    (hevents : (after.current node).events.filter Event.isGraphEvent =
      (r.current node).events.filter Event.isGraphEvent)
    (hdiscarded : (after.current node).discardedEvents =
      (r.current node).discardedEvents + more)
    (hmore : dropped.length ≤ more)
    (hsome : 0 < more → (r.current node).discardedEvents = 0 → dropped ≠ [])
    (hexactly : OneExport journal node → dropped.length = more)
    (hlive : ∀ other, Live after node other ↔
      Live r node other ∧ other ∉ dropped)
    {occurrences : List Occurrence}
    (hplain : ∀ occurrence ∈ occurrences, occurrence.NoArrival) :
    Accounted after (journal ++ occurrences) node := by
  obtain ⟨accounts, left, haccounts, hexact, hnot, hcover⟩ := h
  refine ⟨accounts, left ++ dropped, ⟨?_, ?_, ?_, ?_, ?_, ?_⟩, ?_, ?_, ?_⟩
  · rw [hevents]
    exact haccounts.events
  · rw [← List.append_assoc]
    refine haccounts.distinct.append hnodup fun id hold hnew => ?_
    exact hnot id hold (hdropped id hnew)
  · intro account hmem
    obtain ⟨method, path, hthere, hthat⟩ := haccounts.receipts account hmem
    exact ⟨method, path, (attributed_append hplain).mpr hthere, hthat⟩
  · intro id hmem
    have hthere : ∃ method path, Attributed journal node id method path := by
      rcases List.mem_append.mp hmem with hold | hnew
      · exact haccounts.operations id hold
      · exact hattributed id (hdropped id hnew)
    obtain ⟨method, path, hthere⟩ := hthere
    exact ⟨method, path, (attributed_append hplain).mpr hthere⟩
  · rw [hdiscarded, List.length_append]
    exact Nat.add_le_add haccounts.length_le hmore
  · intro hpos hnil
    obtain ⟨hleft, hnew⟩ := List.append_eq_nil_iff.mp hnil
    rw [hdiscarded] at hpos
    have hzero : (r.current node).discardedEvents = 0 := by
      by_contra hne
      exact haccounts.nonempty (Nat.pos_of_ne_zero hne) hleft
    exact hsome (by omega) hzero hnew
  · intro hone
    rw [hdiscarded, List.length_append, hexact hone.of_append,
      hexactly hone.of_append]
  · intro id hmem hlater
    obtain ⟨hbefore, hne⟩ := (hlive id).mp hlater
    rw [← List.append_assoc, List.mem_append] at hmem
    rcases hmem with hold | hnew
    · exact hnot id hold hbefore
    · exact hne hnew
  · intro id method path hthere
    rw [hlive, ← List.append_assoc, List.mem_append]
    by_cases hnew : id ∈ dropped
    · exact .inl (.inr hnew)
    · rcases hcover id method path ((attributed_append hplain).mp hthere) with
        hold | hbefore
      · exact .inl (.inl hold)
      · exact .inr ⟨hbefore, hnew⟩

/-! ## Taking an event -/

theorem take_of_graphEvent (settings : Settings) (eventBytes : Event → ℕ)
    (state : InteractionState) (event : Event)
    (h : event.isGraphEvent = true) :
    ((state.take settings eventBytes event).events = state.events ++ [event] ∧
      (state.take settings eventBytes event).discardedEvents =
        state.discardedEvents) ∨
    ((state.take settings eventBytes event).events = state.events ∧
      (state.take settings eventBytes event).discardedEvents =
        state.discardedEvents + 1) := by
  have hnone : event.receipt.authoringError = none :=
    Option.isNone_iff_eq_none.mp h
  simp only [InteractionState.take, hnone, InteractionState.takeGraphEvent]
  split
  · exact .inr ⟨rfl, rfl⟩
  · exact .inl ⟨rfl, rfl⟩

theorem take_of_diagnostic (settings : Settings) (eventBytes : Event → ℕ)
    (state : InteractionState) (event : Event)
    (h : event.receipt.authoringError.isSome) :
    (state.take settings eventBytes event).events.filter Event.isGraphEvent =
        state.events.filter Event.isGraphEvent ∧
      (state.take settings eventBytes event).discardedEvents =
        state.discardedEvents := by
  obtain ⟨diagnostic, hsome⟩ := Option.isSome_iff_exists.mp h
  have hnot : event.isGraphEvent = false := by
    simp [Event.isGraphEvent, hsome]
  simp only [InteractionState.take, hsome, InteractionState.takeDiagnostic]
  split
  · exact ⟨rfl, rfl⟩
  · split
    · exact ⟨rfl, rfl⟩
    · exact ⟨by simp [List.filter_append, hnot], rfl⟩

end GraphOperationRecorder

end RelayerGraph
