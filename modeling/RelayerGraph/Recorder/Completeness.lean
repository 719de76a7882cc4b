import RelayerGraph.Recorder.Accounts

/-!
# Exported receipts are complete

What holds of the recorder and its journal along every run, and what it says of
the first export of an interaction: each operation that has arrived has ended,
and has its event or is one of those the descriptor counts as discarded.
-/

namespace RelayerGraph

namespace GraphOperationRecorder

open Foundation

variable {settings : Settings} {eventBytes : Event → ℕ}

/-! ## Invariants -/

/-- The requests under way are those of the journal that have not ended. -/
structure Tracked (r : Recorder) (journal : List Occurrence) : Prop where
  attributed : ∀ id request node, r.requests.get? id = some request →
    request.operationOf = some node →
    Attributed journal node id request.method request.path
  fresh : ∀ node id method path, Attributed journal node id method path →
    id < r.nextRequest
  underWay : ∀ node id method path, Attributed journal node id method path →
    (∃ request, r.requests.get? id = some request ∧
      request.operationOf = some node) ∨ .ended id ∈ journal

/-- What has been cancelled is counted, and the only export waits for it. -/
def Cancelled (r : Recorder) (journal : List Occurrence) (node : ℕ) : Prop :=
  ∀ id request, r.requests.get? id = some request →
    request.operationOf = some node → request.accounted = true →
    0 < (r.current node).discardedEvents ∧
      (OneExport journal node → ∃ x ref activities,
        r.exports.get? x = some ⟨node, ref, .cancelling activities⟩ ∧
          id ∈ activities)

/-- What a descriptor says of the operations of its interaction. -/
structure AccountedFor (journal : List Occurrence) (node : ℕ)
    (descriptor : Descriptor) : Prop where
  ended : ∀ id method path, Attributed journal node id method path →
    .ended id ∈ journal
  accounts : ∃ accounts left, Accounts journal node descriptor.events
      (descriptor.discardedEvents.getD 0) accounts left ∧
    (∀ id method path, Attributed journal node id method path →
      id ∈ accounts.map Prod.fst ++ left) ∧
    (descriptor.promotable = true ↔ left = []) ∧
    (OneExport journal node →
      left.length = descriptor.discardedEvents.getD 0)

/-- The first descriptor of every interaction accounts for its operations. -/
def FirstsAccountedFor (journal : List Occurrence) : Prop :=
  ∀ earlier later id node descriptor,
    journal = earlier ++ .described id node descriptor :: later →
    (∀ other before, .described other node before ∉ earlier) →
    AccountedFor earlier node descriptor

structure Sound (r : Recorder) (journal : List Occurrence) : Prop where
  linked : ∃ owner, Linked r owner
  holders : HoldersOf r journal
  tracked : Tracked r journal
  began : ∀ id export', r.exports.get? id = some export' →
    .began id export'.interactionNodeId ∈ journal
  exported : ∀ node, node ∈ r.exportedInteractions ↔
    ∃ id descriptor, .described id node descriptor ∈ journal
  cancelled : ∀ node, node ∉ r.exportedInteractions → Cancelled r journal node
  accounted : ∀ node, node ∉ r.exportedInteractions → Accounted r journal node
  firsts : FirstsAccountedFor journal

/-! ## Occurrences that are no arrival -/

theorem noArrival_endOccurrences (r : Recorder) (id : ℕ)
    (change : Option CapabilityChange) (passed : Bool)
    (receipt : Option (ℕ × Receipt)) :
    ∀ occurrence ∈ r.endOccurrences id change passed receipt,
      occurrence.NoArrival := by
  intro occurrence hmem request method path token
  unfold Recorder.endOccurrences at hmem
  rcases List.mem_append.mp hmem with hchange | hrest
  · unfold changeOccurrences at hchange
    split at hchange
    · simp [List.mem_singleton.mp hchange]
    · simp [List.mem_singleton.mp hchange]
    · cases hchange
  · rcases List.mem_append.mp hrest with hmade | hended
    · unfold Recorder.madeBy at hmade
      split at hmade
      · split at hmade
        · cases hmade
        · simp [List.mem_singleton.mp hmade]
      · cases hmade
    · simp [List.mem_singleton.mp hended]

theorem not_described_endOccurrences (r : Recorder) (id : ℕ)
    (change : Option CapabilityChange) (passed : Bool)
    (receipt : Option (ℕ × Receipt)) (other node : ℕ)
    (descriptor : Descriptor) :
    .described other node descriptor ∉
      r.endOccurrences id change passed receipt := by
  intro hmem
  unfold Recorder.endOccurrences at hmem
  rcases List.mem_append.mp hmem with hchange | hrest
  · unfold changeOccurrences at hchange
    split at hchange <;> simp at hchange
  · rcases List.mem_append.mp hrest with hmade | hended
    · unfold Recorder.madeBy at hmade
      split at hmade
      · split at hmade <;> simp at hmade
      · cases hmade
    · simp at hended

/-! ## Requests tracked -/

theorem Tracked.of_requests {r after : Recorder} {journal : List Occurrence}
    (h : Tracked r journal) {occurrences : List Occurrence}
    (hrequests : ∀ id request, after.requests.get? id = some request →
      ∃ old, r.requests.get? id = some old ∧ request.method = old.method ∧
        request.path = old.path ∧ request.operationOf = old.operationOf)
    (hkept : ∀ id old, r.requests.get? id = some old →
      (∃ request, after.requests.get? id = some request ∧
        request.operationOf = old.operationOf) ∨ .ended id ∈ occurrences)
    (hnext : after.nextRequest = r.nextRequest)
    (hplain : ∀ occurrence ∈ occurrences, occurrence.NoArrival) :
    Tracked after (journal ++ occurrences) := by
  constructor
  · intro id request node hrequest hnode
    obtain ⟨old, hold, hmethod, hpath, hoperation⟩ := hrequests id request hrequest
    rw [attributed_append hplain, hmethod, hpath]
    exact h.attributed id old node hold (hoperation ▸ hnode)
  · intro node id method path hattributed
    rw [hnext]
    exact h.fresh node id method path ((attributed_append hplain).mp hattributed)
  · intro node id method path hattributed
    rcases h.underWay node id method path
      ((attributed_append hplain).mp hattributed) with
      ⟨old, hold, hnode⟩ | hended
    · rcases hkept id old hold with ⟨request, hrequest, hsame⟩ | hended
      · exact .inl ⟨request, hrequest, hsame.trans hnode⟩
      · exact .inr (List.mem_append_right _ hended)
    · exact .inr (List.mem_append_left _ hended)

theorem Tracked.of_same {r after : Recorder} {journal : List Occurrence}
    (h : Tracked r journal) {occurrences : List Occurrence}
    (hrequests : after.requests = r.requests)
    (hnext : after.nextRequest = r.nextRequest)
    (hplain : ∀ occurrence ∈ occurrences, occurrence.NoArrival) :
    Tracked after (journal ++ occurrences) := by
  refine h.of_requests (fun id request hrequest => ?_) (fun id old hold => ?_)
    hnext hplain
  · rw [hrequests] at hrequest
    exact ⟨request, hrequest, rfl, rfl, rfl⟩
  · rw [hrequests]
    exact .inl ⟨old, hold, rfl⟩

theorem Tracked.mapRequests {r after : Recorder} {journal : List Occurrence}
    (h : Tracked r journal) {f : ℕ → Request → Request}
    (hf : ∀ id request, (f id request).method = request.method ∧
      (f id request).path = request.path ∧
      (f id request).operationOf = request.operationOf)
    (hrequests : after.requests = r.requests.mapRows f)
    (hnext : after.nextRequest = r.nextRequest) : Tracked after journal := by
  rw [← List.append_nil journal]
  refine h.of_requests (fun id request hrequest => ?_) (fun id old hold => ?_)
    hnext (by simp)
  · rw [hrequests, Keyed.get?_mapRows, Option.map_eq_some_iff] at hrequest
    obtain ⟨old, hold, rfl⟩ := hrequest
    exact ⟨old, hold, hf id old⟩
  · rw [hrequests, Keyed.get?_mapRows, hold]
    exact .inl ⟨f id old, rfl, (hf id old).2.2⟩

theorem Tracked.release {r after : Recorder} {journal : List Occurrence}
    (h : Tracked r journal) {id : ℕ} {occurrences : List Occurrence}
    (hrequests : after.requests = r.requests.erase id)
    (hnext : after.nextRequest = r.nextRequest)
    (hended : .ended id ∈ occurrences)
    (hplain : ∀ occurrence ∈ occurrences, occurrence.NoArrival) :
    Tracked after (journal ++ occurrences) := by
  refine h.of_requests (fun other request hrequest => ?_)
    (fun other old hold => ?_) hnext hplain
  · rw [hrequests, Keyed.get?_erase] at hrequest
    by_cases hother : other = id
    · rw [if_pos hother] at hrequest
      cases hrequest
    · rw [if_neg hother] at hrequest
      exact ⟨request, hrequest, rfl, rfl, rfl⟩
  · rw [hrequests, Keyed.get?_erase]
    by_cases hother : other = id
    · rw [hother]
      exact .inr hended
    · rw [if_neg hother]
      exact .inl ⟨old, hold, rfl⟩

theorem Tracked.arrive {r after : Recorder} {journal : List Occurrence}
    (h : Tracked r journal) (hholders : HoldersOf r journal)
    {method path : String} {authorization : Option String} {request : Request}
    (harrives : Arrives r after method path authorization request) :
    Tracked after (journal ++
      [.arrived r.nextRequest method path (bearerToken authorization)]) := by
  have hget : ∀ id, after.requests.get? id =
      if id = r.nextRequest then some request else r.requests.get? id := by
    intro id
    rw [harrives.requests, Keyed.get?_put]
  constructor
  · intro id found node hfound hnode
    rw [attributed_concat]
    rw [hget] at hfound
    by_cases hid : id = r.nextRequest
    · rw [if_pos hid] at hfound
      obtain rfl := Option.some.inj hfound
      obtain ⟨hholder, hpath⟩ := (harrives.operation node).mp hnode
      obtain ⟨token, htoken, hholds⟩ :=
        (holderOf_eq_some_iff hholders).mp hholder
      rw [harrives.sent.1, harrives.sent.2, hid, htoken]
      exact .inr ⟨token, rfl, hholds, hpath⟩
    · rw [if_neg hid] at hfound
      exact .inl (h.attributed id found node hfound hnode)
  · intro node id method' path' hattributed
    rw [harrives.nextRequest]
    rcases attributed_concat.mp hattributed with hold | ⟨token, harrived, -⟩
    · exact Nat.lt_succ_of_lt (h.fresh node id method' path' hold)
    · rw [(Occurrence.arrived.inj harrived).1]
      exact Nat.lt_succ_self _
  · intro node id method' path' hattributed
    rcases attributed_concat.mp hattributed with
      hold | ⟨token, harrived, hholds, hpaths⟩
    · rcases h.underWay node id method' path' hold with
        ⟨found, hfound, hnode⟩ | hended
      · refine .inl ⟨found, ?_, hnode⟩
        rw [hget, if_neg (Nat.ne_of_lt (h.fresh node id method' path' hold))]
        exact hfound
      · exact .inr (List.mem_append_left _ hended)
    · obtain ⟨hid, -, hpath, htoken⟩ := Occurrence.arrived.inj harrived
      refine .inl ⟨request, ?_, (harrives.operation node).mpr ⟨?_, ?_⟩⟩
      · rw [hget, if_pos hid.symm]
      · exact (holderOf_eq_some_iff hholders).mpr ⟨token, htoken, hholds⟩
      · rw [hpath]
        exact hpaths

/-! ## Moves of the accounts -/

/-- The operations under way are those the journal tells. -/
theorem Tracked.exists_attributed {r : Recorder} {journal : List Occurrence}
    (h : Tracked r journal) {node id : ℕ} (hlive : Live r node id) :
    ∃ method path, Attributed journal node id method path := by
  obtain ⟨request, hrequest, hnode, -⟩ := hlive
  exact ⟨_, _, h.attributed id request node hrequest hnode⟩

theorem Accounted.arrive {r after : Recorder} {journal : List Occurrence}
    {node : ℕ} (h : Accounted r journal node) (htracked : Tracked r journal)
    (hholders : HoldersOf r journal) {method path : String}
    {authorization : Option String} {request : Request}
    (harrives : Arrives r after method path authorization request) :
    Accounted after (journal ++
      [.arrived r.nextRequest method path (bearerToken authorization)])
        node := by
  obtain ⟨accounts, left, haccounts, hexact, hnot, hcover⟩ := h
  have hold : ∀ id ∈ accounts.map Prod.fst ++ left, id < r.nextRequest := by
    intro id hmem
    rcases List.mem_append.mp hmem with haccount | hleft
    · obtain ⟨account, hin, rfl⟩ := List.mem_map.mp haccount
      obtain ⟨_, _, hthere, -⟩ := haccounts.receipts account hin
      exact htracked.fresh _ _ _ _ hthere
    · obtain ⟨_, _, hthere⟩ := haccounts.operations id hleft
      exact htracked.fresh _ _ _ _ hthere
  have hlive : ∀ id, id < r.nextRequest →
      (Live after node id ↔ Live r node id) := by
    intro id hlt
    unfold Live
    rw [harrives.requests, Keyed.get?_put_of_ne _ _ (Nat.ne_of_lt hlt)]
  have hmono : ∀ {id : ℕ} {method' path' : String},
      Attributed journal node id method' path' →
      Attributed (journal ++ [.arrived r.nextRequest method path
        (bearerToken authorization)]) node id method' path' :=
    fun hthere => attributed_concat.mpr (.inl hthere)
  refine ⟨accounts, left, ⟨?_, haccounts.distinct, ?_, ?_, ?_, ?_⟩, ?_, ?_, ?_⟩
  · rw [harrives.current]
    exact haccounts.events
  · intro account hmem
    obtain ⟨_, _, hthere, hreceipt⟩ := haccounts.receipts account hmem
    exact ⟨_, _, hmono hthere, hreceipt⟩
  · intro id hmem
    obtain ⟨_, _, hthere⟩ := haccounts.operations id hmem
    exact ⟨_, _, hmono hthere⟩
  · rw [harrives.current]
    exact haccounts.length_le
  · rw [harrives.current]
    exact haccounts.nonempty
  · rw [harrives.current]
    exact fun hone => hexact hone.of_append
  · intro id hmem hlater
    exact hnot id hmem ((hlive id (hold id hmem)).mp hlater)
  · intro id method' path' hattributed
    rcases attributed_concat.mp hattributed with
      hthere | ⟨token, harrived, hholds, hpaths⟩
    · rw [hlive id (htracked.fresh _ _ _ _ hthere)]
      exact hcover id method' path' hthere
    · obtain ⟨hid, -, hpath, htoken⟩ := Occurrence.arrived.inj harrived
      right
      refine ⟨request, ?_, (harrives.operation node).mpr ⟨?_, ?_⟩,
        harrives.accounted⟩
      · rw [harrives.requests, hid, Keyed.get?_put_self]
      · exact (holderOf_eq_some_iff hholders).mpr ⟨token, htoken, hholds⟩
      · rw [hpath]
        exact hpaths

/-- The end of a request, whatever is recorded of it. -/
theorem Accounted.finish {r : Recorder} {owner : ℕ → ℕ} (hlinked : Linked r owner)
    {journal : List Occurrence} {node : ℕ}
    (hopen : node ∉ r.exportedInteractions) (h : Accounted r journal node)
    (htracked : Tracked r journal) {id : ℕ} {request : Request}
    {change : Option CapabilityChange} {passed : Bool}
    {receipt : Option (ℕ × Receipt)}
    (hrequest : r.requests.get? id = some request)
    (hmakes : Makes request (r.applyChange change).knownSecrets receipt) :
    Accounted ((Recorder.record settings eventBytes
        ((r.applyChange change).passNumber passed) receipt).release id)
      (journal ++ r.endOccurrences id change passed receipt) node := by
  generalize hbase : (r.applyChange change).passNumber passed = base
  have hbaseLinked : Linked base owner := by
    rw [← hbase]
    exact (hlinked.applyChange change).passNumber passed
  obtain ⟨hbaseSame, hbaseCurrents⟩ := r.changed_frame change passed
  rw [hbase] at hbaseSame hbaseCurrents
  have hbaseExported := hbaseSame.exported
  have hbaseCurrent := hbaseCurrents node
  have hlive : ∀ other, Live ((base.record settings eventBytes
      receipt).release id) node other ↔ Live r node other ∧ other ≠ id := by
    intro other
    apply live_erase
    rw [← hbaseSame.requests,
      ← (Recorder.sameRequests_record settings eventBytes base receipt).requests]
    rfl
  have hplain := noArrival_endOccurrences r id change passed receipt
  obtain ⟨-, hrecorded, hothers⟩ :=
    Recorder.linked_record settings eventBytes hbaseLinked receipt
  have hunmoved : (∀ made, receipt ≠ some (node, made)) →
      request.operationOf ≠ some node ∨ request.accounted = true →
      Accounted ((base.record settings eventBytes receipt).release id)
        (journal ++ r.endOccurrences id change passed receipt) node := by
    intro hother hdone
    have hcurrent : ((base.record settings eventBytes receipt).release
        id).current node = r.current node :=
      (hothers node hother).trans hbaseCurrent
    refine h.of_same (by rw [hcurrent]) (by rw [hcurrent]) (fun other => ?_)
      hplain
    rw [hlive]
    refine and_iff_left_of_imp ?_
    rintro ⟨found, hfound, hnode, haccounted⟩ rfl
    rw [hrequest] at hfound
    obtain rfl := Option.some.inj hfound
    rcases hdone with hdone | hdone
    · exact hdone hnode
    · simp [haccounted] at hdone
  have hoperation : ∀ {operation : AttributedOperation} {made : Receipt},
      request.attributedOperation = some operation →
      request.accounted = false →
      receipt = some (operation.interactionNodeId, made) →
      made.authoringError = none → made.method = request.method →
      (made.path = request.path ∨ made.status = 502 ∧
        made.errorCodes = ["graph_operation_proxy_failed"]) →
      Accounted ((base.record settings eventBytes receipt).release id)
        (journal ++ r.endOccurrences id change passed receipt) node := by
    intro operation made hattributed haccounted hreceipt hgraph hmethod hpath
    have hnode : request.operationOf = some operation.interactionNodeId := by
      simp [Request.operationOf, hattributed]
    by_cases hsame : operation.interactionNodeId = node
    · rw [hsame] at hnode hreceipt
      have hthis : Live r node id := ⟨request, hrequest, hnode, haccounted⟩
      have hcurrent : ((base.record settings eventBytes receipt).release
          id).current node = (r.current node).take settings eventBytes
            ⟨made, base.sequence + 1, node⟩ := by
        rw [← hbaseCurrent]
        exact hrecorded node made hreceipt (hbaseExported ▸ hopen)
      have hthere := htracked.attributed id request node hrequest hnode
      rcases take_of_graphEvent settings eventBytes (r.current node)
        ⟨made, base.sequence + 1, node⟩ (by simp [Event.isGraphEvent, hgraph]) with
        ⟨hevents, hdiscarded⟩ | ⟨hevents, hdiscarded⟩
      · refine h.keep hthis ⟨made, base.sequence + 1, node⟩ hthere
          ⟨rfl, hmethod, hpath⟩ ?_ ?_ hlive hplain
        · rw [hcurrent, hevents, List.filter_append]
          simp [Event.isGraphEvent, hgraph]
        · rw [hcurrent, hdiscarded]
      · refine h.drop [id] 1 (List.nodup_singleton id) (fun other hother => ?_)
          (fun other => htracked.exists_attributed) ?_ ?_ (Nat.le_refl 1) (by simp) (fun _ => rfl) (fun other => ?_) hplain
        · rw [List.mem_singleton.mp hother]
          exact hthis
        · rw [hcurrent, hevents]
        · rw [hcurrent, hdiscarded]
        · rw [hlive, List.mem_singleton]
    · refine hunmoved (fun other hother => ?_) (.inl ?_)
      · rw [hreceipt] at hother
        exact hsame (Prod.mk.inj (Option.some.inj hother)).1
      · rw [hnode]
        exact fun heq => hsame (Option.some.inj heq)
  cases hmakes with
  | nothing hdone =>
      refine hunmoved (by simp) (hdone.imp_left fun hnone => ?_)
      simp [Request.operationOf, hnone]
  | @diagnostic target made hnone herror hdetails =>
      have hnot : request.operationOf ≠ some node := by
        simp [Request.operationOf, hnone]
      by_cases hsame : target = node
      · subst hsame
        have hcurrent : ((base.record settings eventBytes
            (some (target, made))).release id).current target =
            (r.current target).take settings eventBytes
              ⟨made, base.sequence + 1, target⟩ := by
          rw [← hbaseCurrent]
          exact hrecorded target made rfl (hbaseExported ▸ hopen)
        obtain ⟨hevents, hdiscarded⟩ := take_of_diagnostic settings eventBytes
          (r.current target) ⟨made, base.sequence + 1, target⟩ herror
        refine h.of_same (by rw [hcurrent, hevents])
          (by rw [hcurrent, hdiscarded]) (fun other => ?_) hplain
        rw [hlive]
        refine and_iff_left_of_imp ?_
        rintro ⟨found, hfound, hnode, -⟩ rfl
        rw [hrequest] at hfound
        obtain rfl := Option.some.inj hfound
        exact hnot hnode
      · refine hunmoved (fun other hother => ?_) (.inl hnot)
        exact hsame (Prod.mk.inj (Option.some.inj hother)).1
  | answer hattributed haccounted hreceipt =>
      obtain ⟨status, requestValue, responseValue, rfl⟩ := hreceipt
      exact hoperation hattributed haccounted rfl rfl rfl (.inl rfl)
  | failure hattributed haccounted =>
      have hmethod := (hlinked.proper id request hrequest).method_of_operation
        hattributed
      exact hoperation hattributed haccounted rfl rfl hmethod (.inr ⟨rfl, rfl⟩)

/-! ## Timeouts -/

theorem get?_timeOut (r : Recorder) (id node ref key : ℕ) :
    (r.timeOut id node ref).requests.get? key =
      (r.requests.get? key).map fun request =>
        if key ∈ r.allPendingIn ref then
          { request with accounted := true, aborted := true }
        else request :=
  Keyed.get?_mapRows _ _ _

/-- The state of the interaction counts what was pending. -/
theorem current_timeOut {r : Recorder} {owner : ℕ → ℕ} (h : Linked r owner)
    (id : ℕ) {node ref : ℕ} (hget : r.interactions.get? node = some ref) :
    (r.timeOut id node ref).current node =
      { r.current node with
        discardedEvents :=
          (r.current node).discardedEvents + (r.pendingIn ref false).length
        diagnosticDiscarded := (r.current node).diagnosticDiscarded +
          (r.pendingIn ref true).length } :=
  ((Recorder.Found.updateState ⟨h, hget, fun _ _ => rfl, fun _ => rfl,
    fun _ => rfl, fun _ _ => rfl⟩ _).2 node).trans (if_pos rfl)

/-- The states of other interactions stay. -/
theorem current_timeOut_of_ne {r : Recorder} {owner : ℕ → ℕ}
    (h : Linked r owner) (id node : ℕ) {ref other : ℕ}
    (hne : owner ref ≠ other) :
    (r.timeOut id node ref).current other = r.current other := by
  unfold Recorder.current
  have hsame : (r.timeOut id node ref).interactions = r.interactions := rfl
  rw [hsame]
  cases hother : r.interactions.get? other with
  | none => rfl
  | some key =>
      have hkey : key ≠ ref := by
        rintro rfl
        exact hne (h.interactions other key hother).1
      have hget : (r.timeOut id node ref).states.get? key =
          r.states.get? key :=
        (Recorder.get?_updateState r ref key _).trans (if_neg hkey)
      simp only [Option.map_some, Option.getD_some, Recorder.stateAt, hget]

theorem mem_allPendingIn_of_mem {r : Recorder} {ref id : ℕ}
    (h : id ∈ r.pendingIn ref false) : id ∈ r.allPendingIn ref :=
  List.mem_append_left _ h

/-- What is pending in the state of an interaction, diagnostics apart, is an
operation of the interaction. -/
theorem Linked.operation_of_mem_pendingIn {r : Recorder} {owner : ℕ → ℕ}
    (h : Linked r owner) {id ref : ℕ} (hmem : id ∈ r.pendingIn ref false) :
    ∃ request, r.requests.get? id = some request ∧
      request.operationOf = some (owner ref) := by
  obtain ⟨request, hrequest, hentered, hpath⟩ := mem_pendingIn.mp hmem
  obtain ⟨-, hproper, hlinks⟩ := h.requests id request hrequest
  obtain ⟨-, hrecorded, -⟩ := hlinks ref hentered
  refine ⟨request, hrequest, ?_⟩
  rcases (hproper.inside _ hrecorded).2 with ⟨hauthoring, -⟩ |
    ⟨-, path, hoperation⟩
  · simp [hauthoring] at hpath
  · simp [Request.operationOf, hoperation]

/-- What is pending in the state of one interaction is not of another. -/
theorem Linked.not_mem_allPendingIn {r : Recorder} {owner : ℕ → ℕ}
    (h : Linked r owner) {ref other key : ℕ} {request : Request}
    (hne : owner ref ≠ other) (hrequest : r.requests.get? key = some request)
    (hnode : request.operationOf = some other) : key ∉ r.allPendingIn ref := by
  intro hmem
  obtain ⟨found, hfound, hentered⟩ := mem_allPendingIn.mp hmem
  rw [hrequest] at hfound
  obtain rfl := Option.some.inj hfound
  exact hne (h.operationOf_of_entered hrequest hentered hnode)

/-- Operations of the interaction that times out are all cancelled. -/
theorem not_live_timeOut {r : Recorder} {owner : ℕ → ℕ} (h : Linked r owner)
    (id : ℕ) {node ref : ℕ} (hopen : node ∉ r.exportedInteractions)
    (hget : r.interactions.get? node = some ref) (key : ℕ) :
    ¬ Live (r.timeOut id node ref) node key := by
  rintro ⟨request, hrequest, hnode, haccounted⟩
  rw [get?_timeOut, Option.map_eq_some_iff] at hrequest
  obtain ⟨old, hold, rfl⟩ := hrequest
  by_cases hlost : key ∈ r.allPendingIn ref
  · simp [if_pos hlost] at haccounted
  · rw [if_neg hlost] at hnode
    exact hlost (mem_allPendingIn_of_mem
      (h.mem_pendingIn_of_operation hopen hget hold hnode))

/-- Operations of other interactions stay as they are. -/
theorem live_timeOut_of_ne {r : Recorder} {owner : ℕ → ℕ} (h : Linked r owner)
    (id node : ℕ) {ref other : ℕ} (hne : owner ref ≠ other) (key : ℕ) :
    Live (r.timeOut id node ref) other key ↔ Live r other key := by
  unfold Live
  simp only [get?_timeOut, Option.map_eq_some_iff]
  constructor
  · rintro ⟨-, ⟨old, hold, rfl⟩, hnode, haccounted⟩
    by_cases hlost : key ∈ r.allPendingIn ref
    · simp [if_pos hlost] at haccounted
    · rw [if_neg hlost] at hnode haccounted
      exact ⟨old, hold, hnode, haccounted⟩
  · rintro ⟨old, hold, hnode, haccounted⟩
    refine ⟨_, ⟨old, hold, rfl⟩, ?_⟩
    rw [if_neg (h.not_mem_allPendingIn hne hold hnode)]
    exact ⟨hnode, haccounted⟩

theorem Accounted.timeOut {r : Recorder} {owner : ℕ → ℕ} (hlinked : Linked r owner)
    {journal : List Occurrence} {id node ref : ℕ} {activities : List ℕ}
    (hexport : r.exports.get? id = some ⟨node, ref, .settling activities⟩)
    (hopen : node ∉ r.exportedInteractions)
    (hget : r.interactions.get? node = some ref)
    (htracked : Tracked r journal)
    (hbegan : ∀ x export', r.exports.get? x = some export' →
      .began x export'.interactionNodeId ∈ journal)
    (hcancelled : Cancelled r journal node)
    (h : Accounted r journal node) :
    Accounted (r.timeOut id node ref) (journal ++ []) node := by
  classical
  have hcurrent := current_timeOut hlinked id hget
  have howner := (hlinked.interactions node ref hget).1
  have hoperation : ∀ key ∈ r.pendingIn ref false, ∃ request,
      r.requests.get? key = some request ∧
        request.operationOf = some node := by
    intro key hmem
    obtain ⟨request, hrequest, hnode⟩ := hlinked.operation_of_mem_pendingIn hmem
    exact ⟨request, hrequest, howner ▸ hnode⟩
  have hdropped : ∀ key, key ∈ (r.pendingIn ref false).filter
      (fun key => decide (Live r node key)) ↔ Live r node key := by
    intro key
    rw [List.mem_filter, decide_eq_true_eq, and_iff_right_iff_imp]
    rintro ⟨request, hrequest, hnode, -⟩
    exact hlinked.mem_pendingIn_of_operation hopen hget hrequest hnode
  refine h.drop ((r.pendingIn ref false).filter
      fun key => decide (Live r node key)) (r.pendingIn ref false).length
    ((nodup_pendingIn r ref false).filter _) (fun key => (hdropped key).mp)
    (fun key => htracked.exists_attributed) (by rw [hcurrent])
    (by rw [hcurrent]) (List.length_filter_le _ _) ?_ ?_ ?_ (by simp)
  · intro hpos hzero hnil
    obtain ⟨key, hmem⟩ := List.exists_mem_of_length_pos hpos
    obtain ⟨request, hrequest, hnode⟩ := hoperation key hmem
    by_cases haccounted : request.accounted = true
    · have := (hcancelled key request hrequest hnode haccounted).1
      omega
    · have hlive : Live r node key :=
        ⟨request, hrequest, hnode, by simpa using haccounted⟩
      rw [← hdropped, hnil] at hlive
      cases hlive
  · intro hone
    rw [List.filter_eq_self.mpr]
    intro key hmem
    obtain ⟨request, hrequest, hnode⟩ := hoperation key hmem
    rw [decide_eq_true_eq]
    refine ⟨request, hrequest, hnode, ?_⟩
    by_contra haccounted
    obtain ⟨x, other, waited, hx, -⟩ := (hcancelled key request hrequest hnode
      (by simpa using haccounted)).2 hone
    obtain rfl := hone x id (hbegan x _ hx) (hbegan id _ hexport)
    rw [hexport] at hx
    cases Option.some.inj hx
  · intro key
    rw [hdropped]
    exact ⟨fun hlive => absurd hlive (not_live_timeOut hlinked id hopen hget key),
      fun hboth => absurd hboth.1 hboth.2⟩

/-! ## Cancelled requests -/

/-- Requests that have ended, or are rewritten but for the mark that they are
counted, beside exports that still wait. -/
theorem Cancelled.of_same {r after : Recorder} {journal : List Occurrence}
    {node : ℕ} (h : Cancelled r journal node)
    (hrequests : ∀ id request, after.requests.get? id = some request →
      request.operationOf = some node → request.accounted = true →
      ∃ old, r.requests.get? id = some old ∧ old.operationOf = some node ∧
        old.accounted = true)
    (hdiscarded : (r.current node).discardedEvents ≤
      (after.current node).discardedEvents)
    (hexports : ∀ x ref activities,
      r.exports.get? x = some ⟨node, ref, .cancelling activities⟩ →
      (∃ id ∈ activities, (after.requests.get? id).isSome) →
      after.exports.get? x = some ⟨node, ref, .cancelling activities⟩)
    (occurrences : List Occurrence) :
    Cancelled after (journal ++ occurrences) node := by
  intro id request hrequest hnode haccounted
  obtain ⟨old, hold, holdNode, holdAccounted⟩ :=
    hrequests id request hrequest hnode haccounted
  obtain ⟨hpos, hwaits⟩ := h id old hold holdNode holdAccounted
  refine ⟨Nat.lt_of_lt_of_le hpos hdiscarded, fun hone => ?_⟩
  obtain ⟨x, ref, activities, hx, hmem⟩ := hwaits hone.of_append
  exact ⟨x, ref, activities, hexports x ref activities hx
    ⟨id, hmem, by rw [hrequest]; rfl⟩, hmem⟩

theorem Cancelled.timeOut {r : Recorder} {owner : ℕ → ℕ} (hlinked : Linked r owner)
    (journal : List Occurrence) (id : ℕ) {node ref : ℕ}
    (hopen : node ∉ r.exportedInteractions)
    (hget : r.interactions.get? node = some ref) :
    Cancelled (r.timeOut id node ref) (journal ++ []) node := by
  intro key request hrequest hnode haccounted
  rw [get?_timeOut, Option.map_eq_some_iff] at hrequest
  obtain ⟨old, hold, rfl⟩ := hrequest
  have hsame : old.operationOf = some node := by
    by_cases hlost : key ∈ r.allPendingIn ref
    · rwa [if_pos hlost] at hnode
    · rwa [if_neg hlost] at hnode
  have hpending := hlinked.mem_pendingIn_of_operation hopen hget hold hsame
  have hcurrent := current_timeOut hlinked id hget
  refine ⟨?_, fun _ => ⟨id, ref, r.allPendingIn ref, Keyed.get?_put_self _ _ _,
    mem_allPendingIn_of_mem hpending⟩⟩
  rw [hcurrent]
  exact Nat.lt_of_lt_of_le (List.length_pos_of_mem hpending)
    (Nat.le_add_left _ _)

end GraphOperationRecorder

end RelayerGraph
