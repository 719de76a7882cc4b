import RelayerGraph.Recorder.Completeness

/-!
# The first export of an interaction

Every move of the recorder keeps the invariants, and an export that finds
nothing pending describes an interaction all of whose operations have ended.
-/

namespace RelayerGraph

namespace GraphOperationRecorder

open Foundation

variable {settings : Settings} {eventBytes : Event → ℕ}

/-! ## Descriptors in a journal -/

theorem FirstsAccountedFor.append {journal occurrences : List Occurrence}
    (h : FirstsAccountedFor journal)
    (hnone : ∀ id node descriptor,
      .described id node descriptor ∉ occurrences) :
    FirstsAccountedFor (journal ++ occurrences) := by
  intro earlier later id node descriptor hjournal hfirst
  rcases List.append_eq_append_iff.mp hjournal with
    ⟨middle, -, hlater⟩ | ⟨middle, hjournal, hlater⟩
  · exact absurd (by simp [hlater]) (hnone id node descriptor)
  · cases middle with
    | nil =>
        have hhead : occurrences = .described id node descriptor :: later :=
          hlater.symm
        exact absurd (by simp [hhead]) (hnone id node descriptor)
    | cons head rest =>
        obtain ⟨rfl, -⟩ := List.cons_eq_cons.mp hlater
        exact h earlier rest id node descriptor hjournal hfirst

theorem exists_described_append {journal occurrences : List Occurrence}
    (hnone : ∀ id node descriptor,
      .described id node descriptor ∉ occurrences) (node : ℕ) :
    (∃ id descriptor, .described id node descriptor ∈ journal ++ occurrences) ↔
      ∃ id descriptor, .described id node descriptor ∈ journal := by
  simp only [List.mem_append, hnone, or_false]

theorem FirstsAccountedFor.describe {journal : List Occurrence}
    (h : FirstsAccountedFor journal) {id node : ℕ} {descriptor : Descriptor}
    (hfirst : (∀ other before, .described other node before ∉ journal) →
      AccountedFor journal node descriptor) :
    FirstsAccountedFor (journal ++ [.described id node descriptor]) := by
  intro earlier later other node' descriptor' hjournal hnone
  rcases List.eq_nil_or_concat later with rfl | ⟨rest, last, rfl⟩
  · obtain ⟨rfl, hlast⟩ := List.append_inj' hjournal rfl
    obtain ⟨-, rfl, rfl⟩ :=
      Occurrence.described.inj (List.cons_eq_cons.mp hlast).1
    exact hfirst hnone
  · have hsplit : journal ++ [.described id node descriptor] =
        (earlier ++ .described other node' descriptor' :: rest) ++ [last] := by
      simpa using hjournal
    exact h earlier rest other node' descriptor'
      (List.append_inj' hsplit rfl).1 hnone

/-- A descriptor of an interaction with nothing pending. -/
theorem Accounted.describe {r : Recorder} {journal : List Occurrence}
    {node : ℕ} (h : Accounted r journal node) (htracked : Tracked r journal)
    (hnothing : ∀ id request, r.requests.get? id = some request →
      request.operationOf ≠ some node) :
    AccountedFor journal node (descriptorOf eventBytes (r.current node)) := by
  obtain ⟨accounts, left, haccounts, hexact, hnot, hcover⟩ := h
  have hdiscarded : (descriptorOf eventBytes
      (r.current node)).discardedEvents.getD 0 =
        (r.current node).discardedEvents := by
    unfold descriptorOf
    by_cases hpos : 0 < (r.current node).discardedEvents
    · simp [hpos]
    · simp [Nat.eq_zero_of_not_pos hpos]
  constructor
  · intro id method path hattributed
    rcases htracked.underWay node id method path hattributed with
      ⟨request, hrequest, hnode⟩ | hended
    · exact absurd hnode (hnothing id request hrequest)
    · exact hended
  · rw [hdiscarded]
    refine ⟨accounts, left, haccounts, fun id method path hattributed => ?_, ?_,
      hexact⟩
    · rcases hcover id method path hattributed with hmem | hlive
      · exact hmem
      · obtain ⟨request, hrequest, hnode, -⟩ := hlive
        exact absurd hnode (hnothing id request hrequest)
    · have hpromotable : (descriptorOf eventBytes
          (r.current node)).promotable = true ↔
            ¬ 0 < (r.current node).discardedEvents := by
        simp [descriptorOf]
      rw [hpromotable]
      constructor
      · intro hzero
        have hlength := haccounts.length_le
        exact List.length_eq_zero_iff.mp (by omega)
      · exact fun hnil hpos => haccounts.nonempty hpos hnil

/-! ## Turns -/

theorem describedBy_turn (r : Recorder) (id node ref : ℕ) :
    describedBy (r.turn eventBytes id node ref) id =
      if r.allPendingIn ref = [] then
        [.described id node (descriptorOf eventBytes (r.stateAt ref))]
      else [] := by
  unfold describedBy
  by_cases hpending : r.allPendingIn ref = []
  · rw [if_pos hpending, Recorder.turn_of_settled hpending]
    simp only [Keyed.get?_put_self]
  · rw [if_neg hpending, Recorder.turn_of_pending hpending]
    simp only [Keyed.get?_put_self]

theorem current_turn (r : Recorder) (id node ref other : ℕ) :
    (r.turn eventBytes id node ref).current other = r.current other := by
  obtain ⟨-, -, -, -, hstates, hinteractions, -⟩ :=
    Recorder.turn_frame eventBytes r id node ref
  unfold Recorder.current Recorder.stateAt
  rw [hstates, hinteractions]

/-- What a turn asks of the export it is a turn of. -/
structure Turns (r : Recorder) (journal : List Occurrence)
    (id node ref : ℕ) : Prop where
  linked : ∃ owner, Linked r owner ∧ owner ref = node
  number : id < r.nextExport
  state : (r.states.get? ref).isSome
  interaction : node ∈ r.exportedInteractions ∨
    r.interactions.get? node = some ref
  began : .began id node ∈ journal
  free : ∀ other state activities,
    r.exports.get? id = some ⟨other, state, .cancelling activities⟩ →
      ∀ key ∈ activities, r.requests.get? key = none

theorem Sound.turn {r : Recorder} {journal : List Occurrence} (h : Sound r journal)
    (eventBytes : Event → ℕ) {id node ref : ℕ} (hturns : Turns r journal id node ref) :
    Sound (r.turn eventBytes id node ref)
      (journal ++ describedBy (r.turn eventBytes id node ref) id) := by
  obtain ⟨owner, hlinked, howner⟩ := hturns.linked
  obtain ⟨hcapabilities, -, hrequests, hnextRequest, -, -, -⟩ :=
    Recorder.turn_frame eventBytes r id node ref
  have hplain : ∀ occurrence ∈ describedBy (r.turn eventBytes id node ref) id,
      occurrence.NoArrival := by
    intro occurrence hmem request method path token
    rw [describedBy_turn] at hmem
    split at hmem
    · simp [List.mem_singleton.mp hmem]
    · cases hmem
  have hgrows : ∀ other, other ∉
      (r.turn eventBytes id node ref).exportedInteractions →
      other ∉ r.exportedInteractions := by
    intro other hother hmem
    apply hother
    by_cases hpending : r.allPendingIn ref = []
    · rw [Recorder.turn_of_settled hpending]
      exact List.mem_cons_of_mem _ hmem
    · rw [Recorder.turn_of_pending hpending]
      exact hmem
  have hexports : ∀ x, x ≠ id →
      (r.turn eventBytes id node ref).exports.get? x = r.exports.get? x := by
    intro x hx
    by_cases hpending : r.allPendingIn ref = []
    · rw [Recorder.turn_of_settled hpending]
      exact Keyed.get?_put_of_ne _ _ hx
    · rw [Recorder.turn_of_pending hpending]
      exact Keyed.get?_put_of_ne _ _ hx
  refine ⟨⟨owner, hlinked.turn hturns.number hturns.state howner
    hturns.interaction⟩, ?_, ?_, ?_, ?_, ?_, ?_, ?_⟩
  · exact h.holders.plain hcapabilities (plain_describedBy _ _)
  · exact h.tracked.of_same hrequests hnextRequest hplain
  · intro x export' hx
    apply List.mem_append_left
    by_cases hid : x = id
    · have hnode : export'.interactionNodeId = node := by
        rw [hid] at hx
        by_cases hpending : r.allPendingIn ref = []
        · rw [Recorder.turn_of_settled hpending, Keyed.get?_put_self] at hx
          rw [← Option.some.inj hx]
        · rw [Recorder.turn_of_pending hpending, Keyed.get?_put_self] at hx
          rw [← Option.some.inj hx]
      rw [hnode, hid]
      exact hturns.began
    · rw [hexports x hid] at hx
      exact h.began x export' hx
  · intro other
    rw [describedBy_turn]
    by_cases hpending : r.allPendingIn ref = []
    · rw [Recorder.turn_of_settled hpending, if_pos hpending]
      refine List.mem_cons.trans ?_
      rw [h.exported]
      constructor
      · rintro (rfl | ⟨x, descriptor, hmem⟩)
        · exact ⟨id, descriptorOf eventBytes (r.stateAt ref), by simp⟩
        · exact ⟨x, descriptor, List.mem_append_left _ hmem⟩
      · rintro ⟨x, descriptor, hmem⟩
        rcases List.mem_append.mp hmem with hold | hnew
        · exact .inr ⟨x, descriptor, hold⟩
        · exact .inl (Occurrence.described.inj (List.mem_singleton.mp hnew)).2.1
    · rw [Recorder.turn_of_pending hpending, if_neg hpending, List.append_nil]
      exact h.exported other
  · intro other hother
    refine (h.cancelled other (hgrows other hother)).of_same ?_
      (Nat.le_of_eq (by rw [current_turn])) ?_ _
    · intro key request hrequest hnode haccounted
      rw [hrequests] at hrequest
      exact ⟨request, hrequest, hnode, haccounted⟩
    · rintro x state activities hx ⟨key, hkey, hsome⟩
      rw [hexports x ?_]
      · exact hx
      · rintro rfl
        rw [hrequests, hturns.free other state activities hx key hkey] at hsome
        cases hsome
  · intro other hother
    refine (h.accounted other (hgrows other hother)).of_same
      (by rw [current_turn]) (by rw [current_turn]) (fun key => ?_) hplain
    exact live_congr hrequests other key
  · rw [describedBy_turn]
    by_cases hpending : r.allPendingIn ref = []
    · rw [if_pos hpending]
      apply h.firsts.describe
      intro hfirst
      have hopen : node ∉ r.exportedInteractions := by
        intro hmem
        obtain ⟨x, descriptor, hdescribed⟩ := (h.exported node).mp hmem
        exact hfirst x descriptor hdescribed
      have hget : r.interactions.get? node = some ref :=
        hturns.interaction.resolve_left hopen
      rw [← Recorder.current_of_get? hget]
      apply (h.accounted node hopen).describe h.tracked
      intro key request hrequest hnode
      have hmem := hlinked.mem_pendingIn_of_operation hopen hget hrequest hnode
      have hall := mem_allPendingIn_of_mem hmem
      rw [hpending] at hall
      cases hall
    · rw [if_neg hpending, List.append_nil]
      exact h.firsts

/-! ## Moves -/

theorem discardedEvents_le_take (settings : Settings) (eventBytes : Event → ℕ)
    (state : InteractionState) (event : Event) :
    state.discardedEvents ≤
      (state.take settings eventBytes event).discardedEvents := by
  by_cases hgraph : event.isGraphEvent = true
  · rcases take_of_graphEvent settings eventBytes state event hgraph with
      ⟨-, hsame⟩ | ⟨-, hmore⟩
    · rw [hsame]
    · rw [hmore]
      exact Nat.le_succ _
  · have hsome : event.receipt.authoringError.isSome := by
      simpa [Event.isGraphEvent, Option.isSome_iff_ne_none] using hgraph
    rw [(take_of_diagnostic settings eventBytes state event hsome).2]

theorem Sound.finish {r : Recorder} {journal : List Occurrence}
    (h : Sound r journal) {id : ℕ} {request : Request}
    {change : Option CapabilityChange} {passed : Bool}
    {receipt : Option (ℕ × Receipt)}
    (hrequest : r.requests.get? id = some request)
    (hmakes : Makes request (r.applyChange change).knownSecrets receipt) :
    Sound ((Recorder.record settings eventBytes
        ((r.applyChange change).passNumber passed) receipt).release id)
      (journal ++ r.endOccurrences id change passed receipt) := by
  obtain ⟨owner, hlinked⟩ := h.linked
  obtain ⟨hbaseSame, hbaseCurrent⟩ := r.changed_frame change passed
  have hplain := noArrival_endOccurrences r id change passed receipt
  have hmove : Moves settings eventBytes r _ _ :=
    @Moves.ended settings eventBytes r id request change passed receipt hrequest
      hmakes
  have hlinks := hlinked.moved hmove
  have hholders := h.holders.moved hlinked hmove
  have hfinished : ∀ node, node ∉ r.exportedInteractions →
      Accounted ((Recorder.record settings eventBytes
          ((r.applyChange change).passNumber passed) receipt).release id)
        (journal ++ r.endOccurrences id change passed receipt) node :=
    fun node hopen => (h.accounted node hopen).finish hlinked hopen h.tracked
      hrequest hmakes
  have hbaseLinked := (hlinked.applyChange change).passNumber passed
  generalize (r.applyChange change).passNumber passed = base at *
  have hsame := Recorder.sameRequests_record settings eventBytes base receipt
  have hexported : ((base.record settings eventBytes receipt).release
      id).exportedInteractions = r.exportedInteractions :=
    hsame.exported.trans hbaseSame.exported
  have hexports : ((base.record settings eventBytes receipt).release
      id).exports = r.exports := hsame.exports.trans hbaseSame.exports
  have hrequests : ((base.record settings eventBytes receipt).release
      id).requests = r.requests.erase id := by
    rw [← hbaseSame.requests, ← hsame.requests]
    rfl
  have hdiscarded : ∀ node, node ∉ r.exportedInteractions →
      (r.current node).discardedEvents ≤ (((base.record settings eventBytes
        receipt).release id).current node).discardedEvents := by
    intro node hopen
    obtain ⟨-, hrecorded, hothers⟩ :=
      Recorder.linked_record settings eventBytes hbaseLinked receipt
    rw [← hbaseCurrent]
    by_cases hmade : ∃ made, receipt = some (node, made)
    · obtain ⟨made, hmade⟩ := hmade
      refine Nat.le_trans (discardedEvents_le_take settings eventBytes _ _)
        (Nat.le_of_eq (congrArg InteractionState.discardedEvents
          (hrecorded node made hmade ?_).symm))
      rw [hbaseSame.exported]
      exact hopen
    · exact Nat.le_of_eq (congrArg InteractionState.discardedEvents
        (hothers node fun made hsome => hmade ⟨made, hsome⟩).symm)
  have hnone := not_described_endOccurrences r id change passed receipt
  refine ⟨hlinks, hholders, ?_, ?_, ?_, ?_, ?_, ?_⟩
  · exact h.tracked.release hrequests
      (hsame.nextRequest.trans hbaseSame.nextRequest)
      (by simp [Recorder.endOccurrences]) hplain
  · intro x export' hx
    rw [hexports] at hx
    exact List.mem_append_left _ (h.began x export' hx)
  · intro node
    rw [hexported, exists_described_append hnone]
    exact h.exported node
  · intro node hopen
    rw [hexported] at hopen
    refine (h.cancelled node hopen).of_same ?_ (hdiscarded node hopen) ?_ _
    · intro key found hfound hnode haccounted
      rw [hrequests, Keyed.get?_erase] at hfound
      by_cases hkey : key = id
      · rw [if_pos hkey] at hfound
        cases hfound
      · rw [if_neg hkey] at hfound
        exact ⟨found, hfound, hnode, haccounted⟩
    · intro x ref activities hx _
      rw [hexports]
      exact hx
  · intro node hopen
    rw [hexported] at hopen
    exact hfinished node hopen
  · exact h.firsts.append hnone

theorem Sound.arrive {r : Recorder} {journal : List Occurrence}
    (h : Sound r journal) {method path : String}
    {authorization : Option String}
    (hmove : Moves settings eventBytes r
      [.arrived r.nextRequest method path (bearerToken authorization)]
      (r.arrive method path authorization)) :
    Sound (r.arrive method path authorization) (journal ++
      [.arrived r.nextRequest method path (bearerToken authorization)]) := by
  obtain ⟨owner, hlinked⟩ := h.linked
  obtain ⟨request, harrives⟩ := arrives hlinked method path authorization
  have hnone : ∀ id node descriptor,
      Occurrence.described id node descriptor ∉ [Occurrence.arrived
        r.nextRequest method path (bearerToken authorization)] := by
    simp
  refine ⟨harrives.linked, h.holders.moved hlinked hmove,
    h.tracked.arrive h.holders harrives, ?_, ?_, ?_, ?_, h.firsts.append hnone⟩
  · intro x export' hx
    rw [harrives.exports] at hx
    exact List.mem_append_left _ (h.began x export' hx)
  · intro node
    rw [harrives.exported, exists_described_append hnone]
    exact h.exported node
  · intro node hopen
    rw [harrives.exported] at hopen
    refine (h.cancelled node hopen).of_same ?_
      (Nat.le_of_eq (by rw [harrives.current])) ?_ _
    · intro key found hfound hnode haccounted
      rw [harrives.requests, Keyed.get?_put] at hfound
      by_cases hkey : key = r.nextRequest
      · rw [if_pos hkey] at hfound
        rw [← Option.some.inj hfound, harrives.accounted] at haccounted
        cases haccounted
      · rw [if_neg hkey] at hfound
        exact ⟨found, hfound, hnode, haccounted⟩
    · intro x ref activities hx _
      rw [harrives.exports]
      exact hx
  · intro node hopen
    rw [harrives.exported] at hopen
    exact (h.accounted node hopen).arrive h.tracked h.holders harrives

theorem Sound.flag {r : Recorder} {journal : List Occurrence} (h : Sound r journal)
    {f : ℕ → Request → Request} {closed : Bool}
    (hf : ∀ id request, f id request = request ∨
      f id request = { request with aborted := true })
    (hmove : Moves settings eventBytes r []
      { r with requests := r.requests.mapRows f, closed := closed }) :
    Sound { r with requests := r.requests.mapRows f, closed := closed }
      (journal ++ []) := by
  obtain ⟨owner, hlinked⟩ := h.linked
  have hkept : ∀ id request, (f id request).method = request.method ∧
      (f id request).path = request.path ∧
      (f id request).operationOf = request.operationOf ∧
      (f id request).accounted = request.accounted := by
    intro id request
    rcases hf id request with hsame | haborted
    · rw [hsame]
      exact ⟨rfl, rfl, rfl, rfl⟩
    · rw [haborted]
      exact ⟨rfl, rfl, rfl, rfl⟩
  refine ⟨hlinked.moved hmove, h.holders.moved hlinked hmove, ?_, ?_, ?_, ?_, ?_,
    ?_⟩
  · rw [List.append_nil]
    exact h.tracked.mapRequests (fun id request => ⟨(hkept id request).1,
      (hkept id request).2.1, (hkept id request).2.2.1⟩) rfl rfl
  · rw [List.append_nil]
    exact h.began
  · rw [List.append_nil]
    exact h.exported
  · intro node hopen
    refine (h.cancelled node hopen).of_same ?_ ?_ ?_ []
    · intro key found hfound hnode haccounted
      rw [Keyed.get?_mapRows, Option.map_eq_some_iff] at hfound
      obtain ⟨old, hold, rfl⟩ := hfound
      obtain ⟨-, -, hsame, hcount⟩ := hkept key old
      exact ⟨old, hold, hsame ▸ hnode, hcount ▸ haccounted⟩
    · exact Nat.le_refl _
    · exact fun _ _ _ hx _ => hx
  · intro node hopen
    refine (h.accounted node hopen).of_same ?_ ?_ (fun key => ?_) ?_
    · rfl
    · rfl
    rotate_left
    · simp
    unfold Live
    simp only [Keyed.get?_mapRows, Option.map_eq_some_iff]
    constructor
    · rintro ⟨-, ⟨old, hold, rfl⟩, hnode, haccounted⟩
      obtain ⟨-, -, hsame, hcount⟩ := hkept key old
      exact ⟨old, hold, hsame ▸ hnode, hcount ▸ haccounted⟩
    · rintro ⟨old, hold, hnode, haccounted⟩
      obtain ⟨-, -, hsame, hcount⟩ := hkept key old
      exact ⟨_, ⟨old, hold, rfl⟩, hsame.trans hnode, hcount.trans haccounted⟩
  · rw [List.append_nil]
    exact h.firsts

theorem Sound.begin {r : Recorder} {journal : List Occurrence} (h : Sound r journal)
    (node : ℕ) :
    Sound (r.beginExport eventBytes node) (journal ++
      .began r.nextExport node ::
        describedBy (r.beginExport eventBytes node) r.nextExport) := by
  obtain ⟨owner, hlinked⟩ := h.linked
  obtain ⟨owner', hfound⟩ := Recorder.found_stateFor hlinked node
  obtain ⟨hown, hsome⟩ := hfound.linked.interactions node _ hfound.get?
  have hbegun : Sound { (r.stateFor node).1 with
      nextExport := r.nextExport + 1 }
      (journal ++ [.began r.nextExport node]) := by
    have hplain : ∀ occurrence ∈ [Occurrence.began r.nextExport node],
        occurrence.NoArrival := by
      intro occurrence hmem request method path token
      simp [List.mem_singleton.mp hmem]
    have hnone : ∀ id other descriptor,
        Occurrence.described id other descriptor ∉
          [Occurrence.began r.nextExport node] := by
      simp
    refine ⟨⟨owner', hfound.linked.passExport _ ?_⟩, ?_, ?_, ?_, ?_, ?_, ?_,
      h.firsts.append hnone⟩
    · rw [Recorder.stateFor_nextExport]
      exact Nat.le_succ _
    · apply h.holders.plain (Recorder.stateFor_capabilityOwners r node)
      intro occurrence hmem token other
      rw [List.mem_singleton.mp hmem]
      exact not_false
    · exact h.tracked.of_same (Recorder.stateFor_requests r node)
        (Recorder.stateFor_nextRequest r node) hplain
    · intro x export' hx
      rw [Recorder.stateFor_exports] at hx
      exact List.mem_append_left _ (h.began x export' hx)
    · intro other
      rw [Recorder.stateFor_exportedInteractions, exists_described_append hnone]
      exact h.exported other
    · intro other hopen
      rw [Recorder.stateFor_exportedInteractions] at hopen
      refine (h.cancelled other hopen).of_same ?_
        (Nat.le_of_eq (congrArg _ (hfound.current other).symm)) ?_ _
      · intro key found hget hnode haccounted
        rw [Recorder.stateFor_requests] at hget
        exact ⟨found, hget, hnode, haccounted⟩
      · intro x ref activities hx _
        rw [Recorder.stateFor_exports]
        exact hx
    · intro other hopen
      rw [Recorder.stateFor_exportedInteractions] at hopen
      refine (h.accounted other hopen).of_same
        (congrArg (fun state => state.events.filter Event.isGraphEvent)
          (hfound.current other))
        (congrArg InteractionState.discardedEvents (hfound.current other))
        (fun key => ?_) hplain
      exact live_congr (Recorder.stateFor_requests r node) other key
  have hturns : Turns { (r.stateFor node).1 with
      nextExport := r.nextExport + 1 } (journal ++ [.began r.nextExport node])
      r.nextExport node (r.stateFor node).2 := by
    refine ⟨⟨owner', hfound.linked.passExport _ ?_, hown⟩, Nat.lt_succ_self _,
      hsome, .inr hfound.get?, by simp, ?_⟩
    · rw [Recorder.stateFor_nextExport]
      exact Nat.le_succ _
    · intro other state activities hx
      rw [Recorder.stateFor_exports] at hx
      exact absurd (hlinked.exports _ _ hx).1 (Nat.lt_irrefl _)
  have hturned := hbegun.turn eventBytes hturns
  rw [List.append_assoc] at hturned
  exact hturned

theorem Sound.timeOut {r : Recorder} {journal : List Occurrence}
    (h : Sound r journal) {id node ref : ℕ} {activities : List ℕ}
    (hexport : r.exports.get? id = some ⟨node, ref, .settling activities⟩)
    (hmove : Moves settings eventBytes r [] (r.timeOut id node ref)) :
    Sound (r.timeOut id node ref) (journal ++ []) := by
  obtain ⟨owner, hlinked⟩ := h.linked
  obtain ⟨hid, hsome, hown, hstage⟩ := hlinked.exports id _ hexport
  have hopenGet : node ∉ r.exportedInteractions →
      r.interactions.get? node = some ref := fun hopen =>
    (hstage.resolve_left hopen).1
  have hexports : ∀ x, x ≠ id →
      (r.timeOut id node ref).exports.get? x = r.exports.get? x :=
    fun x hx => Keyed.get?_put_of_ne _ _ hx
  refine ⟨hlinked.moved hmove, h.holders.moved hlinked hmove, ?_, ?_, ?_, ?_, ?_,
    ?_⟩
  · rw [List.append_nil]
    refine h.tracked.mapRequests (f := fun key request =>
        if key ∈ r.allPendingIn ref then
          { request with accounted := true, aborted := true }
        else request) (fun key request => ?_) rfl rfl
    by_cases hkey : key ∈ r.allPendingIn ref
    · rw [if_pos hkey]
      exact ⟨rfl, rfl, rfl⟩
    · rw [if_neg hkey]
      exact ⟨rfl, rfl, rfl⟩
  · intro x export' hx
    rw [List.append_nil]
    by_cases hid' : x = id
    · have hput : (r.timeOut id node ref).exports.get? id =
          some ⟨node, ref, .cancelling (r.allPendingIn ref)⟩ :=
        Keyed.get?_put_self _ _ _
      rw [hid', hput] at hx
      have hbegan : .began id node ∈ journal := h.began id _ hexport
      rw [← Option.some.inj hx, hid']
      exact hbegan
    · rw [hexports x hid'] at hx
      exact h.began x export' hx
  · rw [List.append_nil]
    exact h.exported
  · intro other hopen
    by_cases hother : owner ref = other
    · obtain rfl : node = other := hown.symm.trans hother
      exact Cancelled.timeOut hlinked journal id hopen (hopenGet hopen)
    · refine (h.cancelled other hopen).of_same ?_ ?_ ?_ []
      · intro key request hrequest hnode haccounted
        rw [get?_timeOut, Option.map_eq_some_iff] at hrequest
        obtain ⟨old, hold, rfl⟩ := hrequest
        have hkept : key ∉ r.allPendingIn ref := by
          intro hlost
          refine hlinked.not_mem_allPendingIn hother hold ?_ hlost
          rwa [if_pos hlost] at hnode
        rw [if_neg hkept] at hnode haccounted
        exact ⟨old, hold, hnode, haccounted⟩
      · rw [current_timeOut_of_ne hlinked id node hother]
      · intro x state waited hx _
        rw [hexports x ?_]
        · exact hx
        · rintro rfl
          rw [hexport] at hx
          cases Option.some.inj hx
  · intro other hopen
    by_cases hother : owner ref = other
    · obtain rfl : node = other := hown.symm.trans hother
      exact (h.accounted node hopen).timeOut hlinked hexport hopen
        (hopenGet hopen) h.tracked h.began (h.cancelled node hopen)
    · have hcurrent := current_timeOut_of_ne hlinked id node hother
      refine (h.accounted other hopen).of_same (by rw [hcurrent])
        (by rw [hcurrent]) (live_timeOut_of_ne hlinked id node hother) (by simp)
  · rw [List.append_nil]
    exact h.firsts

theorem Sound.leave {r : Recorder} {journal : List Occurrence} (h : Sound r journal)
    {id node ref : ℕ} {descriptor : Descriptor} {forget : Bool}
    (hexport : r.exports.get? id = some ⟨node, ref, .writing descriptor⟩)
    (hmove : Moves settings eventBytes r [] { r with
      interactions :=
        if forget then r.interactions.erase node else r.interactions
      exports := r.exports.erase id }) :
    Sound { r with
      interactions :=
        if forget then r.interactions.erase node else r.interactions
      exports := r.exports.erase id } (journal ++ []) := by
  obtain ⟨owner, hlinked⟩ := h.linked
  obtain ⟨-, -, -, hstage⟩ := hlinked.exports id _ hexport
  have hexported : node ∈ r.exportedInteractions := by
    rcases hstage with hmem | ⟨-, hwaits⟩
    · exact hmem
    · exact absurd rfl (hwaits descriptor)
  have hcurrent : ∀ other, other ∉ r.exportedInteractions →
      Recorder.current { r with
        interactions :=
          if forget then r.interactions.erase node else r.interactions
        exports := r.exports.erase id } other = r.current other := by
    intro other hopen
    unfold Recorder.current
    cases forget with
    | false => rfl
    | true =>
        have hne : other ≠ node := by
          rintro rfl
          exact hopen hexported
        simp only [if_true, Keyed.get?_erase_of_ne _ hne]
        rfl
  have hexports : ∀ x export', (r.exports.erase id).get? x = some export' →
      r.exports.get? x = some export' := by
    intro x export' hx
    rw [Keyed.get?_erase] at hx
    by_cases hid : x = id
    · rw [if_pos hid] at hx
      cases hx
    · rwa [if_neg hid] at hx
  refine ⟨hlinked.moved hmove, h.holders.moved hlinked hmove, ?_, ?_, ?_, ?_, ?_,
    ?_⟩
  · exact h.tracked.of_same rfl rfl (by simp)
  · intro x export' hx
    rw [List.append_nil]
    exact h.began x export' (hexports x export' hx)
  · rw [List.append_nil]
    exact h.exported
  · intro other hopen
    refine (h.cancelled other hopen).of_same ?_ ?_ ?_ []
    · exact fun key request hrequest hnode haccounted =>
        ⟨request, hrequest, hnode, haccounted⟩
    · rw [hcurrent other hopen]
    · intro x state activities hx _
      refine (Keyed.get?_erase_of_ne _ ?_).trans hx
      rintro rfl
      rw [hexport] at hx
      cases Option.some.inj hx
  · intro other hopen
    refine (h.accounted other hopen).of_same ?_ ?_ ?_ ?_
    · rw [hcurrent other hopen]
    · rw [hcurrent other hopen]
    · exact live_congr rfl other
    · simp
  · rw [List.append_nil]
    exact h.firsts

/-- Every move keeps the invariants. -/
theorem Sound.moved {r after : Recorder} {journal occurrences : List Occurrence}
    (h : Sound r journal)
    (hmove : Moves settings eventBytes r occurrences after) :
    Sound after (journal ++ occurrences) := by
  have hmoved := hmove
  cases hmove with
  | arrived method path authorization => exact h.arrive hmoved
  | ended hrequest hmakes => exact h.finish hrequest hmakes
  | flagged hf => exact h.flag hf hmoved
  | began node => exact h.begin node
  | @turned id node ref activities stage hexport hstage hsettled =>
      apply h.turn eventBytes
      obtain ⟨owner, hlinked⟩ := h.linked
      obtain ⟨hid, hsome, hown, hopen⟩ := hlinked.exports id _ hexport
      refine ⟨⟨owner, hlinked, hown⟩, hid, hsome, hopen.imp_right And.left,
        h.began id _ hexport, ?_⟩
      intro other state waited hx key hkey
      rw [hexport] at hx
      obtain ⟨-, -, rfl⟩ := Export.mk.inj (Option.some.inj hx)
      rcases hstage with hsettling | hcancelling
      · cases hsettling
      · obtain rfl := ExportStage.cancelling.inj hcancelling
        have hgone := List.all_eq_true.mp hsettled key hkey
        simpa using hgone
  | timedOut hexport => exact h.timeOut hexport hmoved
  | left hexport => exact h.leave hexport hmoved

theorem sound_start : Sound .start [] := by
  refine ⟨⟨fun _ => 0, linked_start _⟩, ?_, ?_, ?_, ?_, ?_, ?_, ?_⟩
  · intro token node
    constructor
    · intro hget
      cases hget
    · rintro ⟨before, after, hjournal, -⟩
      simp at hjournal
  · constructor
    · intro id request node hrequest
      cases hrequest
    · rintro node id method path ⟨before, after, token, hjournal, -⟩
      simp at hjournal
    · rintro node id method path ⟨before, after, token, hjournal, -⟩
      simp at hjournal
  · intro id export' hexport
    cases hexport
  · intro node
    simp [Recorder.start]
  · intro node _ id request hrequest
    cases hrequest
  · intro node _
    refine ⟨[], [], ⟨rfl, List.nodup_nil, by simp, by simp, by simp, ?_⟩,
      fun _ => rfl, by simp, ?_⟩
    · exact fun hpos => absurd hpos (Nat.lt_irrefl 0)
    · rintro id method path ⟨before, after, token, hjournal, -⟩
      simp at hjournal
  · intro earlier later id node descriptor hjournal
    simp at hjournal

theorem sound_of_reachable {s : Observed}
    (h : (observed settings eventBytes).Reachable s) :
    Sound s.recorder s.journal := by
  induction h with
  | init hinit =>
      obtain rfl := hinit
      exact sound_start
  | step hreach hstep ih =>
      obtain ⟨after, hnext, rfl⟩ := Option.map_eq_some_iff.mp hstep
      obtain ⟨owner, hlinked⟩ := ih.linked
      exact ih.moved (moves_of_next settings eventBytes hlinked.proper hnext)

/-! ## Capabilities -/

/-- An interaction holds one capability at most. -/
theorem Holds.unique {journal : List Occurrence} {token other : String}
    {node : ℕ} (h : Holds journal token node)
    (hother : Holds journal other node) : token = other := by
  obtain ⟨before, after, rfl, hafter⟩ := h
  obtain ⟨before', after', hjournal, hafter'⟩ := hother
  rcases List.append_eq_append_iff.mp hjournal with
    ⟨middle, -, hlater⟩ | ⟨middle, -, hlater⟩
  · cases middle with
    | nil => exact (Occurrence.issued.inj (List.cons_eq_cons.mp hlater).1).1
    | cons head rest =>
        obtain ⟨-, hrest⟩ := List.cons_eq_cons.mp hlater
        exact absurd (.inr rfl) (hafter (.issued other node) (by simp [hrest]))
  · cases middle with
    | nil =>
        exact (Occurrence.issued.inj (List.cons_eq_cons.mp hlater).1).1.symm
    | cons head rest =>
        obtain ⟨-, hrest⟩ := List.cons_eq_cons.mp hlater
        exact absurd (.inr rfl) (hafter' (.issued token node) (by simp [hrest]))

/-- In every run, a capability stands for the interaction it was issued to last,
until either is part of a later issue or a revocation; an interaction has one at
most, and what counts as its operation has arrived with it. -/
theorem capabilities_followed {s : Observed}
    (hreach : (observed settings eventBytes).Reachable s) :
    (∀ token node, s.recorder.capabilityOwners.get? token = some node ↔
      Holds s.journal token node) ∧
      (∀ token other node, Holds s.journal token node →
        Holds s.journal other node → token = other) ∧
      ∀ id request node, s.recorder.requests.get? id = some request →
        request.operationOf = some node →
        Attributed s.journal node id request.method request.path := by
  have hsound := sound_of_reachable hreach
  exact ⟨hsound.holders, fun _ _ _ h hother => h.unique hother,
    hsound.tracked.attributed⟩

/-! ## Receipts -/

/-- In every run, the first descriptor of an interaction accounts for all the
operations that have arrived with its capability: each has ended and has its
event, or is left out and counted.  It is promotable exactly when none is left
out, and as long as no second export has begun, it counts those left out
exactly. -/
theorem receipts_complete {s : Observed}
    (hreach : (observed settings eventBytes).Reachable s)
    {earlier later : List Occurrence} {id node : ℕ} {descriptor : Descriptor}
    (hjournal : s.journal =
      earlier ++ .described id node descriptor :: later)
    (hfirst : ∀ other before, .described other node before ∉ earlier) :
    AccountedFor earlier node descriptor :=
  (sound_of_reachable hreach).firsts earlier later id node descriptor hjournal
    hfirst

/-- Three events at most, of one byte each. -/
def sampleSettings : Settings :=
  ⟨3, 3, 3, by decide, by decide, by decide⟩

/-- An interaction gets a capability and sends two operations; a search that
mentions the capability is answered, the other is still pending when the
export's wait is over. -/
def sampleSteps : List Step :=
  let issued : Json :=
    .object [("nodeId", .number 7), ("graphToken", .string "g7")]
  let search : Json := .object [("query", .string "find g7")]
  [.arrive "POST" "/api/control/capabilities" (some "Bearer control"),
    .answer 0 200 (some issued) none,
    .arrive "POST" "/api/graph/search" (some "Bearer g7"),
    .arrive "POST" "/api/graph/nodes" (some "Bearer g7"),
    .answer 1 200 (some search) (some (.object [])),
    .beginExport 7, .exportTimedOut 0, .fail 2, .exportResumed 0]

def sampleRun : Option Observed :=
  sampleSteps.foldlM (Observed.next sampleSettings fun _ => 1) ⟨.start, []⟩

def Occurrence.isDescribed : Occurrence → Bool
  | .described _ _ _ => true
  | _ => false

/-- What the last occurrence describes, and whether another does. -/
def lastDescribed (journal : List Occurrence) :
    Option (ℕ × ℕ × Option ℕ) × Bool :=
  (match journal.getLast? with
    | some (.described _ node descriptor) =>
        some (node, descriptor.events.length, descriptor.discardedEvents)
    | _ => none,
    journal.dropLast.any Occurrence.isDescribed)

theorem lastDescribed_sampleRun :
    sampleRun.map (fun s => lastDescribed s.journal) =
      some (some (7, 1, some 1), false) := by
  decide

theorem exists_of_lastDescribed {journal : List Occurrence} {node : ℕ}
    {count : ℕ} {discarded : Option ℕ}
    (h : lastDescribed journal = (some (node, count, discarded), false)) :
    ∃ earlier id descriptor,
      journal = earlier ++ [.described id node descriptor] ∧
      (∀ other before, .described other node before ∉ earlier) ∧
      descriptor.events.length = count ∧
      descriptor.discardedEvents = discarded := by
  obtain ⟨hlast, hnone⟩ := Prod.mk.inj h
  split at hlast
  · rename_i id found descriptor hget
    obtain ⟨rfl, rfl, rfl⟩ : found = node ∧
        descriptor.events.length = count ∧
        descriptor.discardedEvents = discarded := by
      simpa using hlast
    refine ⟨journal.dropLast, id, descriptor, ?_, ?_, rfl, rfl⟩
    · exact (List.dropLast_append_getLast? _ hget).symm
    · intro other before hmem
      rw [List.any_eq_false] at hnone
      exact hnone _ hmem rfl
  · cases hlast

/-- The run ends with a descriptor of one event and one operation lost. -/
theorem exists_sampleRun : ∃ s earlier id descriptor,
    (observed sampleSettings fun _ => 1).Reachable s ∧
      s.journal = earlier ++ [.described id 7 descriptor] ∧
      (∀ other before, .described other 7 before ∉ earlier) ∧
      descriptor.events.length = 1 ∧ descriptor.discardedEvents = some 1 := by
  obtain ⟨s, hrun, hlast⟩ := Option.map_eq_some_iff.mp lastDescribed_sampleRun
  obtain ⟨earlier, id, descriptor, hjournal, hfirst, hcount, hdiscarded⟩ :=
    exists_of_lastDescribed hlast
  exact ⟨s, earlier, id, descriptor,
    TransitionSystem.Reachable.of_foldlM (fun _ _ _ h => h) (.init rfl) hrun,
    hjournal, hfirst, hcount, hdiscarded⟩

theorem capabilities_followed_lost : ∃ s : Observed, ∃ earlier id descriptor,
    s.journal = earlier ++ [.described id 7 descriptor] ∧
      ∀ token node, s.recorder.capabilityOwners.get? token = some node ↔
        Holds s.journal token node := by
  obtain ⟨s, earlier, id, descriptor, hreach, hjournal, -⟩ := exists_sampleRun
  exact ⟨s, earlier, id, descriptor, hjournal,
    (capabilities_followed hreach).1⟩

theorem receipts_complete_lost : ∃ s earlier id descriptor,
    (observed sampleSettings fun _ => 1).Reachable s ∧
      s.journal = earlier ++ [.described id 7 descriptor] ∧
      descriptor.discardedEvents = some 1 ∧
      AccountedFor earlier 7 descriptor := by
  obtain ⟨s, earlier, id, descriptor, hreach, hjournal, hfirst, -, hdiscarded⟩ :=
    exists_sampleRun
  exact ⟨s, earlier, id, descriptor, hreach, hjournal, hdiscarded,
    receipts_complete hreach hjournal hfirst⟩

end GraphOperationRecorder

end RelayerGraph
