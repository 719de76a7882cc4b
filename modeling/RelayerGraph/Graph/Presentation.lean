import RelayerGraph.Graph.History

/-!
# Replacing a presentation

A staged presentation is made for one revision of its node.  The Return which
publishes it finds the node at that revision, or fails; so a presentation is
compared and swapped.
-/

namespace RelayerGraph

open Foundation Checked

namespace GraphDatabase

variable {db db' : GraphDatabase} {scope : InteractionScope} {host : Host}
variable {plan : CompletionPlan} {revision : ℕ}

/-- The presentation of an accepted node, replaced by the given one. -/
def Replaced (p : PendingPresentation) (row row' : NodeRow) : Prop :=
  row'.presentation = (some p.package, row.presentationRevision + 1)

/-- Publishing presentations of distinct nodes replaces each of them once. -/
theorem publishPresentations_get? {presentations : List PendingPresentation}
    (hnodup : (presentations.map (·.node)).Nodup) {id : NodeId} {row : NodeRow}
    (hrow : db.nodes.get? id = some row) (hstate : row.state = .accepted) :
    ∃ row', (presentations.foldl publishPresentation db).nodes.get? id =
        some row' ∧
      ((∀ p ∈ presentations, p.node ≠ id) ∧
          row'.presentation = row.presentation ∨
        ∃ p ∈ presentations, p.node = id ∧ Replaced p row row') := by
  induction presentations generalizing db row with
  | nil => exact ⟨row, hrow, .inl ⟨by simp, rfl⟩⟩
  | cons presentation rest ih =>
      obtain ⟨hfirst, hrest⟩ := List.nodup_cons.mp hnodup
      by_cases hid : id = presentation.node
      · have hpublished : (db.publishPresentation presentation).nodes.get? id =
            some { row with
              authoredDetail := some presentation.package
              presentationRevision := row.presentationRevision + 1 } := by
          simp only [publishPresentation, Table.get?_mapRows, hrow,
            Option.map_some, if_pos hid, if_pos hstate]
        obtain ⟨row', hrow', hkept⟩ := ih hrest hpublished hstate
        refine ⟨row', hrow', .inr ⟨presentation, List.mem_cons_self, hid.symm, ?_⟩⟩
        rcases hkept with ⟨-, hsame⟩ | ⟨p, hp, hnode, -⟩
        · exact hsame
        · refine absurd (List.mem_map.mpr ⟨p, hp, ?_⟩) hfirst
          exact hnode.trans hid
      · have hpublished : (db.publishPresentation presentation).nodes.get? id =
            some row := by
          simp [publishPresentation, hrow, hid]
        obtain ⟨row', hrow', hkept⟩ := ih hrest hpublished hstate
        refine ⟨row', hrow', hkept.imp ?_ ?_⟩
        · rintro ⟨hnone, hsame⟩
          refine ⟨?_, hsame⟩
          intro p hp
          rcases List.mem_cons.mp hp with rfl | hold
          · exact fun hnode => hid hnode.symm
          · exact hnone p hold
        · rintro ⟨p, hp, hreplaced⟩
          exact ⟨p, List.mem_cons_of_mem _ hp, hreplaced⟩

/-- A rewrite of a completion keeps every presentation. -/
theorem presentation_updateCompletion {interaction id : NodeId}
    {f : CompletionRow → CompletionRow} {row : NodeRow}
    (hrow : db.nodes.get? id = some row) :
    ∃ row', (db.updateCompletion interaction f).nodes.get? id = some row' ∧
      row'.presentation = row.presentation := by
  refine ⟨_, by simp [updateCompletion, hrow]; rfl, ?_⟩
  split <;> rfl

/-- What a Return does to the presentation of an accepted node. -/
theorem Returned.presentation {persisted : CompletionRow} {layer : LayerId}
    {rootId : ActionId} {rootRow : ActionRow} {graph : GraphDatabase}
    {published : Published}
    (h : Returned db scope host persisted revision layer plan rootId rootRow graph
      published)
    (hnodup : ((db.pendingPresentations scope.root).map (·.node)).Nodup)
    {id : NodeId} {row : NodeRow} (hrow : db.nodes.get? id = some row)
    (hstate : row.state = .accepted) :
    ∃ row', published.db.nodes.get? id = some row' ∧
      (row'.presentation = row.presentation ∨
        ∃ p ∈ db.pendingPresentations scope.root, p.node = id ∧
          p.expectedRevision = row.presentationRevision ∧ Replaced p row row') := by
  obtain ⟨shown, hshown, hkept⟩ :=
    (keeps_publish h.planned.walked h.publishes).nodes id row hrow
  have hsame : shown.presentation = row.presentation :=
    (hkept hstate).presentation.resolve_right False.elim
  obtain ⟨attached, resolved, root, hattached, hresolved, -, -, hfinal⟩ :=
    finalize_stages h.finalizes
  have hpending : graph.pendingPresentations scope.root =
      db.pendingPresentations scope.root := by
    rw [pendingPresentations, completion?_publish h.publishes,
      ← pendingPresentations]
  simp only [publishAttached, bind_eq_ok_iff, require_eq_ok_iff, pure_eq_ok_iff,
    hpending] at hattached
  obtain ⟨-, -, hdiscarded⟩ := hattached
  have hgrow := @grows_showAdditions graph
    (graph.acceptedAdditions scope.root)
  obtain ⟨presented, hpresented, hchange⟩ := publishPresentations_get? hnodup
    (hgrow.nodes ▸ hshown) ((hkept hstate).state.trans hstate)
  obtain ⟨cleared, hcleared, hclearedSame⟩ :=
    presentation_updateCompletion hpresented
  rw [discardPending] at hdiscarded
  rw [hdiscarded, ← hresolved.nodes] at hcleared
  obtain ⟨row', hrow', hrowSame⟩ := presentation_updateCompletion hcleared
  refine ⟨row', hfinal ▸ hrow', ?_⟩
  have hlast := hrowSame.trans hclearedSame
  rcases hchange with ⟨-, hunchanged⟩ | ⟨p, hp, hnode, hreplaced⟩
  · exact .inl ((hlast.trans hunchanged).trans hsame)
  · refine .inr ⟨p, hp, hnode, ?_, ?_⟩
    · have hexpected := validateAttached_ok h.valid p hp
      rw [hnode, hrow] at hexpected
      exact hexpected.symm
    · have hrevision : shown.presentationRevision = row.presentationRevision :=
        congrArg Prod.snd hsame
      rw [Replaced, hlast, hreplaced, hrevision]

/-- What a committed Return does to the presentation of an accepted node. -/
theorem transition_presentation (h : ∀ row, db.completion? scope.root = some row →
      Linear host row) {expectedRevision : ℕ} {operationKey : String}
    {intent : CurrentTransition} {index : IndexAnswers} {result : Transitioned}
    (hrun : db.transition scope host expectedRevision operationKey intent index =
      .ok result)
    {id : NodeId} {row : NodeRow} (hrow : db.nodes.get? id = some row)
    (hstate : row.state = .accepted) :
    ∃ row', result.db.nodes.get? id = some row' ∧
      (row'.presentation = row.presentation ∨
        (∃ layer, intent = .return layer) ∧
        (∃ current, result.db.completion? scope.root = some current ∧
          current.lifecycle = .succeeded) ∧
        ∃ p ∈ db.pendingPresentations scope.root, p.node = id ∧
          p.expectedRevision = row.presentationRevision ∧ Replaced p row row') := by
  have hkept : db.Keeps .none result.db → ∃ row',
      result.db.nodes.get? id = some row' ∧
        row'.presentation = row.presentation := by
    intro hkeeps
    obtain ⟨row', hrow', hkeep⟩ := hkeeps.nodes id row hrow
    exact ⟨row', hrow', (hkeep hstate).presentation.resolve_right False.elim⟩
  cases intent with
  | «return» layer =>
      rcases transition_ok hrun with ⟨receipt, -, -, rfl⟩ |
        ⟨persisted, published, recorded, hcommitted, hresult, -⟩
      · exact ⟨row, hrow, .inl rfl⟩
      · obtain ⟨plan, rootId, rootRow, graph, hreturned⟩ :=
          returnCurrent_ok hcommitted.body
        have hnodup :
            ((db.pendingPresentations scope.root).map (·.node)).Nodup := by
          rw [pendingPresentations, hcommitted.stored]
          exact (h persisted hcommitted.stored).pendingNodes
        obtain ⟨middle, hmiddle, hchange⟩ :=
          hreturned.presentation hnodup hrow hstate
        have hnodes : result.db.nodes = recorded.nodes := by
          rcases hresult with hsame | ⟨target, revision, hsame⟩
          · rw [hsame]
          · rw [hsame]
            rfl
        obtain ⟨appended, happended, hfirst⟩ :=
          presentation_updateCompletion hmiddle
        obtain ⟨row', hrow', hsecond⟩ := presentation_updateCompletion happended
        have hlast : row'.presentation = middle.presentation :=
          hsecond.trans hfirst
        refine ⟨row', ?_, hchange.imp hlast.trans ?_⟩
        · rw [hnodes, hcommitted.record.result]
          exact hrow'
        · rintro ⟨p, hp, hnode, hexpected, hreplaced⟩
          refine ⟨⟨layer, rfl⟩, ?_, p, hp, hnode, hexpected, hlast.trans hreplaced⟩
          obtain ⟨stored, hstored, -⟩ := hcommitted.record.stored
          have hafter := hcommitted.record.completion? scope.root
          rw [if_pos rfl, hstored, Option.map_some] at hafter
          exact ⟨_, (completion?_of_nodes hnodes _).trans hafter, rfl⟩
  | advance layer =>
      obtain ⟨row', hrow', hsame⟩ := hkept
        (keeps_transition (by simp) hrun)
      exact ⟨row', hrow', .inl hsame⟩
  | stop reason =>
      obtain ⟨row', hrow', hsame⟩ := hkept
        (keeps_transition (by simp) hrun)
      exact ⟨row', hrow', .inl hsame⟩
  | fail reason =>
      obtain ⟨row', hrow', hsame⟩ := hkept
        (keeps_transition (by simp) hrun)
      exact ⟨row', hrow', .inl hsame⟩

/-! ## Stale presentations -/

/-- A presentation is staged for a revision which its node no longer has. -/
def StagedStale (db : GraphDatabase) (interaction : NodeId) : Prop :=
  ∃ p ∈ db.pendingPresentations interaction,
    ((db.nodes.get? p.node).map (·.presentationRevision)).getD 0 ≠
      p.expectedRevision

/-- The request of a Return never has the digest of the request of an
Advance. -/
def Host.SeparatesReturn (host : Host) : Prop :=
  ∀ revision layer revision' layer',
    requestDigest host revision (.return layer) ≠
      requestDigest host revision' (.advance layer')

/-- The receipt of a Return is found only once its interaction has ended. -/
theorem ended_of_receipt {row : CompletionRow} (hlinear : Linear host row)
    (hrow : db.completion? scope.root = some row) (hdigest : Host.SeparatesReturn host)
    {operationKey : String} {receipt : CurrentTransitionReceipt}
    {expectedRevision : ℕ} {layer : LayerId}
    (hreceipt : db.receipt scope.root operationKey = some receipt)
    (hsame : receipt.requestDigest =
      requestDigest host expectedRevision (.return layer)) :
    row.lifecycle ≠ .active := by
  simp only [GraphDatabase.receipt, Option.bind_eq_bind, Option.bind_eq_some_iff, hrow,
    Option.some.injEq, Option.pure_def] at hreceipt
  obtain ⟨_, rfl, stored, hfound, sequence, -, digest, hstored, snapshot, -, rfl⟩ :=
    hreceipt
  have hmem := List.mem_of_find?_eq_some hfound
  have hkey := List.find?_some hfound
  have hne : stored.revision ≠ 0 := by
    intro hzero
    rw [hlinear.initial stored hmem hzero] at hkey
    cases of_decide_eq_true hkey
  obtain ⟨intent, hrequest, -, -, -, hlifecycle⟩ := hlinear.requests stored hmem hne
  rw [hstored, Option.some.injEq] at hrequest
  have hcollides : requestDigest host expectedRevision (.return layer) =
      requestDigest host (stored.revision - 1) intent := hsame.symm.trans hrequest
  have hended : stored.lifecycle ≠ .active := by
    rw [hlifecycle]
    cases intent with
    | advance other => exact absurd hcollides (hdigest _ _ _ _)
    | _ => simp [CurrentTransition.lifecycle]
  by_cases hhead : stored.revision = row.headRevision
  · rw [← (hlinear.head stored hmem hhead).1]
    exact hended
  · exact absurd (hlinear.earlier stored hmem hhead) hended

/-- A Return never succeeds on a stale presentation. -/
theorem not_returned_of_stale (hlinear : ∀ row,
      db.completion? scope.root = some row → Linear host row)
    (hdigest : Host.SeparatesReturn host) (hstale : db.StagedStale scope.root)
    {expectedRevision : ℕ} {operationKey : String} {layer : LayerId}
    {index : IndexAnswers} {result : Transitioned}
    (hrun : db.transition scope host expectedRevision operationKey
      (.return layer) index = .ok result) : False := by
  obtain ⟨p, hp, hne⟩ := hstale
  rcases transition_ok hrun with ⟨receipt, hreceipt, hsame, -⟩ |
    ⟨persisted, published, recorded, hcommitted, -, -⟩
  · cases hrow : db.completion? scope.root with
    | none => simp [pendingPresentations, hrow] at hp
    | some row =>
        have hended := ended_of_receipt (hlinear row hrow) hrow hdigest hreceipt
          hsame
        have hempty := (hlinear row hrow).ended hended
        simp [pendingPresentations, hrow, hempty] at hp
  · obtain ⟨plan, rootId, rootRow, graph, hreturned⟩ :=
      returnCurrent_ok hcommitted.body
    exact hne (validateAttached_ok hreturned.valid p hp)

/-- The presentation of an accepted node is compared and swapped.  An operation
changes it only when it is a committed Return whose interaction staged the new
package for the very revision the node has, and moves it to the next revision;
and a Return with a package staged for another revision fails. -/
theorem presentation_compareAndSwap (host : Host)
    (hdigest : Host.SeparatesReturn host) (db : GraphDatabase)
    (hreach : (native host).Reachable db) (operation : Operation) :
    (∀ db', (native host).step db operation db' →
      ∀ id row, db.nodes.get? id = some row → row.state = .accepted →
        ∃ row', db'.nodes.get? id = some row' ∧
          (row'.presentation = row.presentation ∨
            ∃ author expectedRevision operationKey layer index,
              operation = .transition author expectedRevision operationKey
                (.return layer) index ∧
              (∃ current, db'.completion? author.interaction = some current ∧
                current.lifecycle = .succeeded) ∧
              ∃ p ∈ db.pendingPresentations author.interaction, p.node = id ∧
                p.expectedRevision = row.presentationRevision ∧
                Replaced p row row')) ∧
    ∀ author expectedRevision operationKey layer index,
      operation = .transition author expectedRevision operationKey
        (.return layer) index →
      db.StagedStale author.interaction →
      (∃ e, db.perform host operation = .error e) ∧
        db.attempt host operation = db := by
  have hlinear := linear_of_reachable hreach
  constructor
  · intro db' hstep id row hrow hstate
    by_cases htransition : ∃ author expectedRevision operationKey intent index,
        operation = .transition author expectedRevision operationKey intent index
    · obtain ⟨author, expectedRevision, operationKey, intent, index, rfl⟩ :=
        htransition
      obtain ⟨scope, hscope, hrun⟩ := bind_eq_ok_iff.mp hstep
      obtain ⟨result, hresult, rfl⟩ := exceptMap_eq_ok_iff.mp hrun
      obtain ⟨row', hrow', hchange⟩ := transition_presentation (hlinear scope.root)
        hresult hrow hstate
      rw [(issued_of_writerScope hscope).2] at hchange
      refine ⟨row', hrow', hchange.imp_right ?_⟩
      rintro ⟨⟨layer, rfl⟩, hsucceeded, hreplaced⟩
      exact ⟨author, expectedRevision, operationKey, layer, index, rfl, hsucceeded,
        hreplaced⟩
    · have hnone : db.exceptionsOf operation = .none := by
        cases operation with
        | transition author expectedRevision operationKey intent index =>
            exact absurd ⟨author, expectedRevision, operationKey, intent, index, rfl⟩
              htransition
        | _ => rfl
      have hkeeps := keeps_of_step hstep
      rw [hnone] at hkeeps
      obtain ⟨row', hrow', hkeep⟩ := hkeeps.nodes id row hrow
      exact ⟨row', hrow',
        .inl ((hkeep hstate).presentation.resolve_right False.elim)⟩
  · rintro author expectedRevision operationKey layer index rfl hstale
    have hfails : ∃ e, db.perform host (.transition author expectedRevision
        operationKey (.return layer) index) = .error e := by
      cases hrun : db.perform host (.transition author expectedRevision
          operationKey (.return layer) index) with
      | error e => exact ⟨e, rfl⟩
      | ok db' =>
          obtain ⟨scope, hscope, hrun⟩ := bind_eq_ok_iff.mp hrun
          obtain ⟨result, hresult, rfl⟩ := exceptMap_eq_ok_iff.mp hrun
          rw [← (issued_of_writerScope hscope).2] at hstale
          exact (not_returned_of_stale (hlinear scope.root) hdigest hstale
            hresult).elim
    obtain ⟨e, herror⟩ := hfails
    exact ⟨⟨e, herror⟩, by rw [attempt, herror]⟩

end GraphDatabase

/-! ## An overtaken presentation -/

namespace Sample

open GraphDatabase

/-- A link from the returned concept to a layer. -/
def link (clientKey : String) (layer : LayerId) : ActionDraft :=
  { action clientKey ⟨2⟩ none .navigate with
    relation := some .reference
    targetLayerId := some layer }

/-- Two interactions stage a package for the first revision of the concept, and
the first of them returns. -/
def overtaken : GraphDatabase :=
  (initial true temporal).performAll host
    (opening ++
      [rootAction ⟨1⟩, returns ⟨1⟩,
        .createInteraction thread "second" ⟨none, [⟨2⟩], [], []⟩,
        .createInteraction thread "third" ⟨none, [⟨2⟩], [], []⟩,
        .addAction ⟨⟨4⟩, none⟩ (link "third" ⟨1⟩) none,
        .stagePresentation ⟨⟨4⟩, none⟩ ⟨2⟩ 0 "third" [],
        .submitNode ⟨⟨3⟩, none⟩ ⟨"reply", "concept", "box", "Reply", "Detail"⟩
          ⟨.retain, [], none, none⟩,
        .submitLayer ⟨⟨3⟩, none⟩
          ⟨none, "reply", [⟨5⟩], [], some ⟨1, [⟨⟨5⟩, 0, 0⟩], some "default", []⟩,
            none⟩
          none,
        .addAction ⟨⟨3⟩, none⟩
          { action "root" ⟨3⟩ none .navigate with
            relation := some .expand
            targetLayerId := some ⟨2⟩ } none,
        .addAction ⟨⟨3⟩, none⟩ (link "second" ⟨2⟩) none,
        .stagePresentation ⟨⟨3⟩, none⟩ ⟨2⟩ 0 "second" [],
        .transition ⟨⟨3⟩, none⟩ 0 "return" (.return ⟨2⟩)
          ⟨.ok (), .ok true, .ok 1, .ok ()⟩])

theorem reachable_overtaken : (native host).Reachable overtaken :=
  reachable_performAll (.init ⟨true, temporal, rfl⟩) _

theorem count_toString (n : ℕ) : (toString n).toList.count 'v' = 0 := by
  rw [List.count_eq_zero]
  intro hmem
  have hdigits : 'v' ∈ Nat.toDigits 10 n := by
    simpa [toString, Nat.repr_eq_ofList_toDigits] using hmem
  have hdigit := Nat.isDigit_of_mem_toDigits (by decide) (by decide) hdigits
  exact absurd hdigit (by decide)

theorem count_layer (before : String) (layer : LayerId) (n : ℕ)
    (hbefore : before.toList.count 'v' = n) :
    (before ++ toString layer ++ "\x7d").toList.count 'v' = n := by
  have hlayer : (toString layer).toList.count 'v' = 0 := count_toString layer.val
  have hclose : "\x7d".toList.count 'v' = 0 := by decide
  rw [String.toList_append, String.toList_append, List.count_append,
    List.count_append, hlayer, hclose, hbefore]
  rfl

theorem count_request (revision : ℕ) (intent : CurrentTransition) :
    (requestDigest host revision intent).toList.count 'v' =
      intent.canonical.toList.count 'v' := by
  have hopen : "[".toList.count 'v' = 0 := by decide
  have hcomma : ",".toList.count 'v' = 0 := by decide
  have hclose : "]".toList.count 'v' = 0 := by decide
  change ("[" ++ toString revision ++ "," ++ intent.canonical ++
    "]").toList.count 'v' = _
  simp only [String.toList_append, List.count_append, count_toString]
  rw [hopen, hcomma, hclose]
  simp

/-- The text of an Advance has a letter which the text of a Return lacks. -/
theorem separatesReturn_host : Host.SeparatesReturn host := by
  intro revision layer revision' layer' hsame
  have hreturn : (CurrentTransition.return layer).canonical.toList.count 'v' = 0 :=
    count_layer _ layer 0 (by decide)
  have hadvance : (CurrentTransition.advance layer').canonical.toList.count 'v' = 1 :=
    count_layer _ layer' 1 (by decide)
  have hcount := count_request revision (.return layer)
  rw [hsame, count_request, hreturn, hadvance] at hcount
  cases hcount

end Sample

namespace GraphDatabase

instance (db : GraphDatabase) (interaction : NodeId) :
    Decidable (db.StagedStale interaction) := by
  unfold StagedStale
  infer_instance

/-- The interaction which was overtaken cannot return. -/
theorem presentation_compareAndSwap_overtaken :
    Sample.overtaken.attempt Sample.host
        (.transition ⟨⟨4⟩, none⟩ 0 "return" (.return ⟨1⟩)
          ⟨.ok (), .ok true, .ok 1, .ok ()⟩) = Sample.overtaken :=
  ((presentation_compareAndSwap Sample.host Sample.separatesReturn_host
    Sample.overtaken Sample.reachable_overtaken _).2 ⟨⟨4⟩, none⟩ 0 "return" ⟨1⟩
      ⟨.ok (), .ok true, .ok 1, .ok ()⟩ rfl (by decide +kernel)).2

end GraphDatabase

end RelayerGraph
