import RelayerGraph.Foundation.Continuations
import RelayerGraph.Graph.Accessibility

/-!
# Histories over whole runs

What a run of native operations keeps of a completion.  Its revisions are only
appended to, one for each committed transition, every one of them has one event
in the outbox, and the receipt of a transition stays the answer to its
operation key.
-/

namespace RelayerGraph

open Foundation Checked

/-- The second row goes on where the first ends, and an ended row stays as it
is. -/
structure CompletionRow.GoesOn (row row' : CompletionRow) : Prop where
  revisions : row.revisions <+: row'.revisions
  ended : row.lifecycle ≠ .active → row'.history = row.history

namespace CompletionRow.GoesOn

theorem of_history {row row' : CompletionRow}
    (h : row'.history = row.history) : row.GoesOn row' := by
  have hrevisions : row'.revisions = row.revisions :=
    congrArg (fun history => history.2.2.2.2.2) h
  exact ⟨hrevisions ▸ List.prefix_refl _, fun _ => h⟩

theorem trans {a b c : CompletionRow} (hab : a.GoesOn b) (hbc : b.GoesOn c) :
    a.GoesOn c where
  revisions := hab.revisions.trans hbc.revisions
  ended hended := by
    have hsame := hab.ended hended
    have hlifecycle : b.lifecycle = a.lifecycle :=
      congrArg (fun history => history.1) hsame
    exact (hbc.ended (hlifecycle ▸ hended)).trans hsame

end CompletionRow.GoesOn

namespace GraphDatabase

variable {db db' : GraphDatabase} {scope : InteractionScope} {host : Host}

/-! ## What a step keeps -/

/-- Every completion goes on, and so does the outbox. -/
structure KeepsHistories (db db' : GraphDatabase) : Prop where
  completions : ∀ interaction row, db.completion? interaction = some row →
    ∃ row', db'.completion? interaction = some row' ∧ row.GoesOn row'
  outbox : db.outbox <+: db'.outbox

instance : Std.Refl KeepsHistories where
  refl _ :=
    ⟨fun _ row hrow => ⟨row, hrow, .of_history rfl⟩, List.prefix_refl _⟩

instance : IsTrans GraphDatabase KeepsHistories where
  trans _ _ _ hab hbc := by
    refine ⟨fun interaction row hrow => ?_, hab.outbox.trans hbc.outbox⟩
    obtain ⟨middle, hmiddle, hfirst⟩ := hab.completions interaction row hrow
    obtain ⟨last, hlast, hsecond⟩ := hbc.completions interaction middle hmiddle
    exact ⟨last, hlast, hfirst.trans hsecond⟩

theorem Rewrites.history_eq {row row' : CompletionRow}
    (h : Rewrites row row') : row'.history = row.history := by
  cases h with
  | kept hhistory _ => exact hhistory
  | staged _ presentation hwritten => rw [hwritten]; rfl

/-- The revision that a committed transition appends. -/
theorem Commits.revisions_eq {interaction : NodeId} {intent : CurrentTransition}
    {operationKey : String} {published : Published} {row row' : CompletionRow}
    (h : Commits host interaction intent operationKey published row row') :
    row'.revisions = row.revisions ++
      [published.revisionRow host row.headRevision operationKey intent] :=
  congrArg (fun history => history.2.2.2.2.2) h.history

theorem keepsHistories_of_step {operation : Operation}
    (hstep : (native host).step db operation db') : KeepsHistories db db' := by
  cases evolves_of_step hstep with
  | created scope preparation hevents _ hothers =>
      refine ⟨fun interaction row hrow => ?_, hevents ▸ List.prefix_append _ _⟩
      have hne : interaction ≠ db.nodes.nextKey := by
        rintro rfl
        rw [completion?_nextKey] at hrow
        cases hrow
      exact ⟨row, (hothers interaction hne).trans hrow, .of_history rfl⟩
  | rewritten changed before after hevents hbefore hafter hrewrites hothers =>
      refine ⟨fun interaction row hrow => ?_, hevents ▸ List.prefix_refl _⟩
      by_cases hchanged : interaction = changed
      · obtain rfl : row = before := by simpa [hchanged, hbefore] using hrow.symm
        exact ⟨after, hchanged ▸ hafter, .of_history hrewrites.history_eq⟩
      · exact ⟨row, (hothers interaction hchanged).trans hrow, .of_history rfl⟩
  | committed changed before after intent operationKey published hevents hbefore
      hafter hcommits hothers =>
      refine ⟨fun interaction row hrow => ?_, hevents ▸ List.prefix_append _ _⟩
      by_cases hchanged : interaction = changed
      · obtain rfl : row = before := by simpa [hchanged, hbefore] using hrow.symm
        refine ⟨after, hchanged ▸ hafter, ?_, ?_⟩
        · rw [hcommits.revisions_eq]
          exact List.prefix_append _ _
        · exact fun hended => absurd hcommits.active hended
      · exact ⟨row, (hothers interaction hchanged).trans hrow, .of_history rfl⟩
  | same hevents hcompletions =>
      refine ⟨fun interaction row hrow => ?_, hevents ▸ List.prefix_refl _⟩
      exact ⟨row, (hcompletions interaction).trans hrow, .of_history rfl⟩

theorem keepsHistories_of_continues (hreach : (native host).Reachable db)
    (hlater : (native host).Continues db db') : KeepsHistories db db' :=
  hlater.preserves (fun _ _ _ _ hstep => keepsHistories_of_step hstep) hreach

/-! ## One event for every revision -/

/-- The revisions of the events of a completion, in the order they were sent. -/
def eventsOf (db : GraphDatabase) (interaction : NodeId) : List ℕ :=
  (db.outbox.filter fun event => event.interaction = interaction).map
    (·.revision)

/-- The events of each completion are its revisions. -/
def Announced (db : GraphDatabase) : Prop :=
  ∀ interaction, db.eventsOf interaction =
    ((db.completion? interaction).map fun row =>
      row.revisions.map (·.revision)).getD []

theorem eventsOf_append {event : ProjectionRow}
    (hevents : db'.outbox = db.outbox ++ [event]) (interaction : NodeId) :
    db'.eventsOf interaction = db.eventsOf interaction ++
      if event.interaction = interaction then [event.revision] else [] := by
  rw [eventsOf, hevents, List.filter_append, List.map_append, eventsOf]
  by_cases hsame : event.interaction = interaction
  · simp [hsame]
  · simp [hsame]

theorem eventsOf_of_outbox (hevents : db'.outbox = db.outbox)
    (interaction : NodeId) :
    db'.eventsOf interaction = db.eventsOf interaction := by
  rw [eventsOf, hevents, eventsOf]

theorem announced_of_step {operation : Operation}
    (hstep : (native host).step db operation db') (hdb : db.Announced) :
    db'.Announced := by
  intro interaction
  cases evolves_of_step hstep with
  | created scope preparation hevents hinitial hothers =>
      rw [eventsOf_append hevents, hdb interaction]
      by_cases hnew : interaction = db.nodes.nextKey
      · simp [hnew, completion?_nextKey, hinitial, initialCompletion]
      · rw [hothers interaction hnew, if_neg (Ne.symm hnew), List.append_nil]
  | rewritten changed before after hevents hbefore hafter hrewrites hothers =>
      rw [eventsOf_of_outbox hevents, hdb interaction]
      by_cases hchanged : interaction = changed
      · have hrevisions : after.revisions = before.revisions :=
          congrArg (fun history => history.2.2.2.2.2) hrewrites.history_eq
        simp [hchanged, hbefore, hafter, hrevisions]
      · rw [hothers interaction hchanged]
  | committed changed before after intent operationKey published hevents hbefore
      hafter hcommits hothers =>
      rw [eventsOf_append hevents, hdb interaction]
      by_cases hchanged : interaction = changed
      · simp [hchanged, hbefore, hafter, hcommits.revisions_eq,
          Published.revisionRow]
      · rw [hothers interaction hchanged, if_neg (Ne.symm hchanged),
          List.append_nil]
  | same hevents hcompletions =>
      rw [eventsOf_of_outbox hevents, hdb interaction, hcompletions interaction]

theorem announced_of_reachable (hreach : (native host).Reachable db) :
    db.Announced := by
  refine hreach.invariant (P := Announced) ?_ ?_
  · rintro _ ⟨permissionsEnabled, temporalFeatures, rfl⟩ interaction
    simp [initial, completion?, eventsOf]
  · intro s operation t _ hs hstep
    exact announced_of_step hstep hs

/-! ## Receipts -/

theorem KeepsHistories.receipt (h : KeepsHistories db db') {interaction : NodeId}
    {operationKey : String} {receipt : CurrentTransitionReceipt}
    (hreceipt : db.receipt interaction operationKey = some receipt) :
    db'.receipt interaction operationKey = some receipt := by
  simp only [GraphDatabase.receipt, Option.bind_eq_bind, Option.bind_eq_some_iff,
    Option.pure_def, projectionSequence, Option.map_eq_some_iff] at hreceipt ⊢
  obtain ⟨row, hrow, revision, hrevision, sequence, ⟨index, hindex, hsequence⟩,
    digest, hdigest, snapshot, hsnapshot, hsame⟩ := hreceipt
  obtain ⟨row', hrow', hgoes⟩ := h.completions interaction row hrow
  exact ⟨row', hrow', revision, hgoes.revisions.find?_eq_some hrevision, sequence,
    ⟨index, h.outbox.findIdx?_eq_some hindex, hsequence⟩, digest, hdigest,
    snapshot, hsnapshot, hsame⟩

/-- A revision that was not committed has no event. -/
theorem findIdx?_outbox_eq_none (hdb : db.Announced) {interaction : NodeId}
    {row : CompletionRow} (hrow : db.completion? interaction = some row)
    {revision : ℕ} (hfresh : ∀ old ∈ row.revisions, old.revision ≠ revision) :
    (db.outbox.findIdx? fun event =>
      decide (event.interaction = interaction ∧ event.revision = revision)) =
        none := by
  refine List.findIdx?_eq_none_iff.mpr fun event hevent => ?_
  refine decide_eq_false ?_
  rintro ⟨hinteraction, hrevision⟩
  have hsent : revision ∈ db.eventsOf interaction :=
    List.mem_map.mpr ⟨event,
      List.mem_filter.mpr ⟨hevent, decide_eq_true hinteraction⟩, hrevision⟩
  rw [hdb interaction, hrow] at hsent
  obtain ⟨old, hold, hsame⟩ := List.mem_map.mp hsent
  exact hfresh old hold hsame

/-- The receipt of a transition is found under its operation key. -/
theorem receipt_of_transition (hdb : db.Announced) {expectedRevision : ℕ}
    {operationKey : String} {intent : CurrentTransition} {index : IndexAnswers}
    {result : Transitioned}
    (hrun : db.transition scope host expectedRevision operationKey intent index =
      .ok result) :
    result.db.receipt scope.root operationKey = some result.receipt := by
  rcases transition_ok hrun with ⟨receipt, hreceipt, -, rfl⟩ |
    ⟨persisted, published, recorded, hcommitted, hresult, hanswer⟩
  · exact hreceipt
  · obtain ⟨hleaves, houtbox, ⟨row, hrow, hhistory, -⟩, -⟩ :=
      transitionBody_completion? hcommitted.stored hcommitted.body
    have hfinal : (if intent.lifecycle = .succeeded then published.currentLayer
        else none) = published.finalLayer := by
      cases intent <;> simp_all [CurrentTransition.lifecycle,
        CurrentTransition.Leaves]
    have hrevisions : row.revisions = persisted.revisions :=
      congrArg (fun history => history.2.2.2.2.2) hhistory
    obtain ⟨stored, hstored, -, -, hfresh⟩ := hcommitted.record.stored
    obtain rfl : row = stored := by simpa [hrow] using hstored
    have hrecorded : recorded.receipt scope.root operationKey =
        some result.receipt := by
      have hcompletion := hcommitted.record.completion? scope.root
      rw [if_pos rfl, hrow, Option.map_some] at hcompletion
      have hold : row.revisions.find? (fun r =>
          decide (r.operationKey = some operationKey)) = none :=
        List.find?_eq_none.mpr fun old hmem => by
          simpa using (hfresh old hmem).2
      have hunsent := findIdx?_outbox_eq_none hdb hcommitted.stored
        (hrevisions ▸ fun old hmem => (hfresh old hmem).1)
      have hsent : recorded.outbox = db.outbox ++
          [⟨scope.root, expectedRevision + 1, intent.eventKind⟩] := by
        rw [hcommitted.record.result, houtbox]
      simp only [GraphDatabase.receipt, hcompletion, HeadMove.apply,
        RevisionRow.appendTo, Option.bind_eq_bind, Option.bind_some,
        List.find?_append, hold, Option.none_or, List.find?_cons_of_pos,
        projectionSequence, hsent, List.findIdx?_append, hunsent, hanswer,
        Published.revisionRow, decide_true, Option.pure_def, houtbox, hfinal]
      simp
    rcases hresult with hsame | ⟨target, indexed, hsame⟩
    · rw [hsame]
      exact hrecorded
    · rw [hsame]
      exact hrecorded

end GraphDatabase

theorem exists_eq_ok_of_isSome {ε α : Type} {x : Except ε α}
    (h : x.toOption.isSome = true) : ∃ a, x = .ok a := by
  cases x with
  | error e => cases h
  | ok a => exact ⟨a, rfl⟩

/-! ## A completion that advanced twice -/

namespace Sample

open GraphDatabase

/-- The second layer of the sample refers back to the first. -/
def advancing : List Operation :=
  opening ++
    [rootAction ⟨1⟩,
      .transition author 0 "first" (.advance ⟨1⟩)
        ⟨.ok (), .ok true, .ok 1, .ok ()⟩,
      .submitNode author ⟨"detail", "concept", "box", "More", "Detail"⟩
        ⟨.retain, [], none, none⟩,
      .submitLayer author
        ⟨none, "second", [⟨3⟩], [], some ⟨1, [⟨⟨3⟩, 0, 0⟩], some "default", []⟩,
          none⟩
        none,
      .addAction author
        { action "back" ⟨3⟩ (some ⟨2⟩) .navigate with
          relation := some .reference
          targetLayerId := some ⟨1⟩ } none,
      rootAction ⟨2⟩]

def atFirst : GraphDatabase :=
  (initial false temporal).performAll host advancing

/-- The second transition of the sample. -/
def index : IndexAnswers := ⟨.ok (), .ok true, .ok 1, .ok ()⟩

def atSecond : GraphDatabase :=
  atFirst.attempt host (.transition author 1 "second" (.advance ⟨2⟩) index)

theorem reachable_atFirst : (native host).Reachable atFirst :=
  reachable_performAll reachable_initial _

theorem reachable_atSecond : (native host).Reachable atSecond :=
  reachable_attempt reachable_atFirst _

end Sample

namespace GraphDatabase

variable {db db' : GraphDatabase} {scope : InteractionScope} {host : Host}

/-! ## The main results -/

/-- Current transitions are linear and happen once.  The revisions of a
completion are the numbers up to its head, each on top of the one before; later
operations only append, and nothing is appended to an ended completion; and a
transition either replays a committed operation key and changes nothing, or
appends exactly the revision after the one it expects. -/
theorem history_linear (host : Host) (db : GraphDatabase)
    (hreach : (native host).Reachable db) (interaction : NodeId)
    (row : CompletionRow) (hrow : db.completion? interaction = some row) :
    Linear host row ∧
      (∀ db', (native host).Continues db db' →
        ∃ row', db'.completion? interaction = some row' ∧ row.GoesOn row') ∧
      ∀ author expectedRevision operationKey intent index db',
        author.interaction = interaction →
        (native host).step db
          (.transition author expectedRevision operationKey intent index) db' →
        (db' = db ∧ ∃ r ∈ row.revisions, r.operationKey = some operationKey ∧
          r.requestDigest = some (requestDigest host expectedRevision intent)) ∨
        (row.lifecycle = .active ∧ row.headRevision = expectedRevision ∧
          (∀ r ∈ row.revisions, r.operationKey ≠ some operationKey) ∧
          ∃ row' r, db'.completion? interaction = some row' ∧
            row'.revisions = row.revisions ++ [r] ∧
            r.revision = expectedRevision + 1 ∧
            r.operationKey = some operationKey ∧
            row'.lifecycle = intent.lifecycle) := by
  refine ⟨linear_of_reachable hreach interaction row hrow, ?_, ?_⟩
  · intro db' hlater
    exact (keepsHistories_of_continues hreach hlater).completions interaction row
      hrow
  · rintro author expectedRevision operationKey intent index db' rfl hstep
    change db.perform host _ = .ok db' at hstep
    obtain ⟨scope, hscope, hrun⟩ := bind_eq_ok_iff.mp hstep
    obtain ⟨result, hresult, rfl⟩ := exceptMap_eq_ok_iff.mp hrun
    obtain ⟨-, hroot⟩ := issued_of_writerScope hscope
    rw [← hroot] at hrow ⊢
    rcases transition_ok hresult with ⟨receipt, hreceipt, hdigest, rfl⟩ |
      ⟨persisted, published, recorded, hcommitted, hdb, -⟩
    · refine .inl ⟨rfl, ?_⟩
      simp only [GraphDatabase.receipt, Option.bind_eq_bind,
        Option.bind_eq_some_iff, hrow, Option.some.injEq, Option.pure_def]
        at hreceipt
      obtain ⟨_, rfl, r, hfound, sequence, -, digest, hstored, snapshot, -, rfl⟩ :=
        hreceipt
      have hkey := List.find?_some hfound
      exact ⟨r, List.mem_of_find?_eq_some hfound, of_decide_eq_true hkey,
        hdigest ▸ hstored⟩
    · obtain rfl : row = persisted := by simpa [hrow] using hcommitted.stored
      obtain ⟨-, -, ⟨stored, hstored, hhistory, -⟩, -⟩ :=
        transitionBody_completion? hcommitted.stored hcommitted.body
      have hrevisions : stored.revisions = row.revisions :=
        congrArg (fun history => history.2.2.2.2.2) hhistory
      obtain ⟨found, hfound, -, -, hfresh⟩ := hcommitted.record.stored
      obtain rfl : stored = found := by simpa [hstored] using hfound
      have hrecorded := hcommitted.record.completion? scope.root
      rw [if_pos rfl, hstored, Option.map_some] at hrecorded
      have hcompletion : result.db.completion? scope.root =
          recorded.completion? scope.root := by
        rcases hdb with hsame | ⟨target, indexed, hsame⟩
        · rw [hsame]
        · rw [hsame]
          exact completion?_of_nodes rfl scope.root
      refine .inr ⟨hcommitted.active, hcommitted.head,
        hrevisions ▸ fun r hr => (hfresh r hr).2, _,
        published.revisionRow host expectedRevision operationKey intent,
        hcompletion.trans hrecorded, ?_, rfl, rfl, rfl⟩
      simp only [HeadMove.apply, RevisionRow.appendTo, hrevisions]

theorem history_linear_atSecond :
    ∃ row, Sample.atSecond.completion? ⟨1⟩ = some row ∧
      Linear Sample.host row := by
  have hsome : (Sample.atSecond.completion? ⟨1⟩).isSome = true := by
    decide
  obtain ⟨row, hrow⟩ := Option.isSome_iff_exists.mp hsome
  exact ⟨row, hrow, (history_linear Sample.host Sample.atSecond
    Sample.reachable_atSecond ⟨1⟩ row hrow).1⟩

/-- Every layer that was once current stays reachable.  After any later
operations the revision is still part of the history, and accepted navigate
actions lead to its layer from what is current then. -/
theorem earlierCurrent_reachable (host : Host) (db : GraphDatabase)
    (hreach : (native host).Reachable db) (interaction : NodeId)
    (row : CompletionRow) (hrow : db.completion? interaction = some row)
    (revision : RevisionRow) (hrevision : revision ∈ row.revisions)
    (layer : LayerId) (hlayer : revision.currentLayer = some layer)
    (db' : GraphDatabase) (hlater : (native host).Continues db db') :
    ∃ row' current, db'.completion? interaction = some row' ∧
      revision ∈ row'.revisions ∧ row'.currentLayer = some current ∧
      Relation.ReflTransGen db'.Navigates current layer := by
  obtain ⟨row', hrow', hgoes⟩ :=
    (keepsHistories_of_continues hreach hlater).completions interaction row hrow
  have hkept : revision ∈ row'.revisions := hgoes.revisions.subset hrevision
  obtain ⟨current, hcurrent, hpath⟩ :=
    navigable_of_reachable (hreach.continues hlater) interaction row' hrow'
      revision hkept layer hlayer
  exact ⟨row', current, hrow', hkept, hcurrent, hpath⟩

/-- The second current of the sample leads back to the first. -/
theorem earlierCurrent_reachable_atSecond :
    Relation.ReflTransGen Sample.atSecond.Navigates ⟨2⟩ ⟨1⟩ := by
  have hfound : (Sample.atSecond.completion? ⟨1⟩).bind (fun row =>
      row.revisions.find? fun r => r.currentLayer = some ⟨1⟩) ≠ none := by
    decide
  have hcurrent : (Sample.atSecond.completion? ⟨1⟩).bind (·.currentLayer) =
      some ⟨2⟩ := by decide
  obtain ⟨r, hr⟩ := Option.ne_none_iff_exists'.mp hfound
  obtain ⟨row, hrow, hmem⟩ := Option.bind_eq_some_iff.mp hr
  rw [hrow, Option.bind_some] at hcurrent
  have hlayer := List.find?_some hmem
  obtain ⟨row', current, hrow', -, hlast, hpath⟩ :=
    earlierCurrent_reachable Sample.host Sample.atSecond Sample.reachable_atSecond
      ⟨1⟩ row hrow r (List.mem_of_find?_eq_some hmem) ⟨1⟩ (of_decide_eq_true hlayer)
      Sample.atSecond .refl
  obtain rfl : row = row' := by simpa [hrow] using hrow'
  obtain rfl : current = ⟨2⟩ := by simpa [hlast] using hcurrent
  exact hpath

/-- Receipts are durable and every revision is announced once.  The events of a
completion are its revisions in order, and the receipt a transition answered
with is what every later database answers its operation key with. -/
theorem receipt_durable (host : Host) (db : GraphDatabase)
    (hreach : (native host).Reachable db) :
    (∀ interaction row, db.completion? interaction = some row →
      db.eventsOf interaction = List.range (row.headRevision + 1)) ∧
    ∀ author scope expectedRevision operationKey intent index result db',
      db.writerScope author = .ok scope →
      db.transition scope host expectedRevision operationKey intent index =
        .ok result →
      (native host).Continues result.db db' →
      db'.receipt author.interaction operationKey = some result.receipt := by
  constructor
  · intro interaction row hrow
    rw [announced_of_reachable hreach interaction, hrow]
    exact (linear_of_reachable hreach interaction row hrow).numbers
  · intro author scope expectedRevision operationKey intent index result db' hscope
      hrun hlater
    obtain ⟨-, hroot⟩ := issued_of_writerScope hscope
    have hnext : (native host).Reachable result.db := by
      apply hreach.step (l := .transition author expectedRevision operationKey
        intent index)
      exact bind_eq_ok_iff.mpr
        ⟨scope, hscope, exceptMap_eq_ok_iff.mpr ⟨result, hrun, rfl⟩⟩
    apply (keepsHistories_of_continues hnext hlater).receipt
    rw [← hroot]
    exact receipt_of_transition (announced_of_reachable hreach) hrun

theorem receipt_durable_atSecond :
    ∃ scope result, Sample.atFirst.writerScope Sample.author = .ok scope ∧
      Sample.atFirst.transition scope Sample.host 1 "second" (.advance ⟨2⟩)
        Sample.index = .ok result ∧
      result.db.receipt ⟨1⟩ "second" = some result.receipt := by
  have hok : ((Sample.atFirst.writerScope Sample.author).bind fun scope =>
      Sample.atFirst.transition scope Sample.host 1 "second" (.advance ⟨2⟩)
        Sample.index).toOption.isSome = true := by decide
  obtain ⟨result, hresult⟩ := exists_eq_ok_of_isSome hok
  obtain ⟨scope, hscope, hrun⟩ := bind_eq_ok_iff.mp hresult
  exact ⟨scope, result, hscope, hrun, (receipt_durable Sample.host Sample.atFirst
    Sample.reachable_atFirst).2 Sample.author scope 1 "second" (.advance ⟨2⟩)
    Sample.index result result.db hscope hrun .refl⟩

end GraphDatabase

end RelayerGraph
