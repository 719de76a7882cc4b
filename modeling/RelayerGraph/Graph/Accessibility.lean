import RelayerGraph.Graph.History

/-!
# Earlier currents stay accessible

A publishing transition is accepted only when its new current layer leads to
the one before it.  The check reads layers that may still be drafts; after
publication their snapshots list the same actions, so that an accepted path
leads from every current to the currents it replaced, and no later operation
breaks it.
-/

namespace RelayerGraph

open Foundation Checked Worklist

namespace GraphDatabase

variable {db db' : GraphDatabase} {scope : InteractionScope} {host : Host}
variable {plan : CompletionPlan} {revision : ℕ}

/-- A path of accepted navigate actions leads from one layer to another. -/
def Leads (db : GraphDatabase) : LayerId → LayerId → Prop :=
  Relation.ReflTransGen db.Navigates

theorem Retains.leads (h : db.Retains db') {layer target : LayerId}
    (hpath : db.Leads layer target) : db'.Leads layer target :=
  Relation.ReflTransGen.mono (fun _ _ => h.navigates) _ _ hpath

theorem SameGraph.leads {layer target : LayerId} (h : db.SameGraph db')
    (hpath : db.Leads layer target) : db'.Leads layer target := by
  refine Relation.ReflTransGen.mono (fun a b harc => ?_) _ _ hpath
  rw [navigates_iff] at harc ⊢
  rwa [h.layers, h.actions]

/-! ## What a layer shows, it lists once published -/

/-- A layer that publication accepts was in the plan. -/
theorem mem_layers_of_publish (hrun : db.publish scope plan revision = .ok db')
    {layer : LayerId} {row row' : LayerRow}
    (hrow : db.layers.get? layer = some row) (hstate : row.state ≠ .accepted)
    (hrow' : db'.layers.get? layer = some row') (hstate' : row'.state = .accepted) :
    layer ∈ plan.layers ∧
      (db.acceptRows scope plan revision).OwnAccepted scope layer := by
  obtain ⟨found, extra, hfound, rfl, -⟩ := (publish_ok hrun).1.of_get? hrow'
  have hmapped := hfound
  simp only [acceptRows, Table.get?_mapRows, hrow, Option.map_some,
    Option.some.injEq] at hmapped
  by_cases haccepts : layer ∈ plan.layers ∧ row.owner = scope.root
  · rw [if_pos haccepts] at hmapped
    refine ⟨haccepts.1, found, hfound, ?_, hstate'⟩
    rw [← hmapped]
    exact haccepts.2
  · rw [if_neg haccepts] at hmapped
    exact absurd (hmapped ▸ hstate') hstate

/-- Publication changes neither the kind nor the target of an action. -/
theorem lead_of_publish (hrun : db.publish scope plan revision = .ok db')
    {id : ActionId} {row row' : ActionRow} (hrow : db.actions.get? id = some row)
    (hrow' : db'.actions.get? id = some row') : row'.lead = row.lead := by
  rw [(publish_ok hrun).1.actions] at hrow'
  simp only [acceptRows, Table.get?_mapRows, hrow, Option.map_some,
    Option.some.injEq] at hrow'
  rw [← hrow']
  split <;> rfl

section

variable (h : db.WellFormed) (hscope : db.Issued scope)
variable {origin : LayerId → Prop} {given : ActionId → Prop}
variable (hwalked : Walked db scope origin given plan [])
variable (hplan : Publishable db scope plan)
variable (hrun : db.publish scope plan revision = .ok db')
include h hscope hwalked hplan hrun

/-- An action that an accepted layer showed before publication is in its
snapshot afterwards. -/
theorem mem_snapshot_of_resolve {layer : LayerId} {row' : LayerRow}
    (hrow' : db'.layers.get? layer = some row') (hstate' : row'.state = .accepted)
    {resolved : ResolvedLayer}
    (hread : db.resolve scope layer false = .ok resolved)
    {action : GraphAction} (haction : action ∈ resolved.actions) :
    ∃ stored, db.actions.get? action.id = some stored ∧
      db.actionRecord action.id stored = action ∧ action.id ∈ row'.actions := by
  obtain ⟨row, hresolved, -⟩ := resolve_eq_ok hread
  by_cases hstate : row.state = .accepted
  · obtain ⟨id, hid, hrecord⟩ := exists_of_mem_mapM
      (mapM_eq_ok_iff.mpr ((hresolved.snapshot hstate).imp fun id record h =>
        orThrow_eq_ok_iff.mpr h)) (f := fun id =>
          orThrow (db.action scope id) (GraphError.internal "")) haction
    obtain ⟨stored, hstored, -, rfl⟩ :=
      action_eq_some_iff.mp (orThrow_eq_ok_iff.mp hrecord)
    have hret := (h.publish hscope hwalked hplan hrun).retains
    obtain ⟨kept, hkept, hlayer⟩ := hret.layers layer row hresolved.stored
    obtain rfl : row' = kept := by simpa [hrow'] using hkept
    exact ⟨stored, hstored, rfl, hlayer.actions id hid⟩
  · obtain ⟨id, stored, hstored, hshows, rfl⟩ :=
      hresolved.shown hstate action haction
    obtain ⟨hmem, hown⟩ := mem_layers_of_publish hrun hresolved.stored hstate
      hrow' hstate'
    -- The plan resolved the layer as well, and recorded what it showed.
    obtain ⟨row₀, planned, hplanned, -, -, hentry, -, -⟩ :=
      hwalked.layers layer hmem
    obtain rfl : row = row₀ := by
      simpa [hresolved.stored] using hplanned.stored
    have hlisted : id ∈ planned.actions.map (·.id) :=
      List.mem_map.mpr
        ⟨_, hplanned.shows hstate id stored hstored hshows, rfl⟩
    exact ⟨stored, hstored, rfl,
      (publish_ok hrun).2 layer _ hentry hown row' hrow' id hlisted⟩

/-- Where a resolved layer leads before publication, it navigates to after. -/
theorem navigates_of_resolve {layer : LayerId}
    (hlayer : db'.AcceptedLayer scope.target layer) {resolved : ResolvedLayer}
    (hread : db.resolve scope layer false = .ok resolved) {action : GraphAction}
    (haction : action ∈ resolved.actions) (hkind : action.kind = .navigate)
    {target : LayerId} (htarget : action.targetLayerId = some target) :
    db'.Navigates layer target ∧ db'.AcceptedLayer scope.target target := by
  have hsound := h.publish hscope hwalked hplan hrun
  obtain ⟨row', hrow', hrowTarget, hstate'⟩ := hlayer
  obtain ⟨stored, hstored, hrecord, hlisted⟩ := mem_snapshot_of_resolve h hscope
    hwalked hplan hrun hrow' hstate' hread haction
  obtain ⟨-, published, hpublished, haccepted, hactionTarget, -⟩ :=
    (hsound.wellFormed.layers layer row' hrow').actions _ hlisted
  have hlead := lead_of_publish hrun hstored hpublished
  simp only [ActionRow.lead, Prod.mk.injEq] at hlead
  have hkind' : published.kind = .navigate := by
    rw [hlead.1, ← hkind, ← hrecord, actionRecord_kind]
  have htarget' : published.targetLayer = some target := by
    rw [hlead.2.2, ← htarget, ← hrecord, actionRecord_targetLayerId]
  refine ⟨navigates_iff.mpr ⟨row', action.id, published, hrow', hlisted,
    hpublished, haccepted, hkind', htarget'⟩, ?_⟩
  obtain ⟨found, hfound, hacceptedTarget⟩ :=
    (hsound.wellFormed.actions _ published hpublished).leads haccepted hkind'
  obtain rfl : found = target := by simpa [htarget'] using hfound.symm
  rw [← hrowTarget, ← hactionTarget]
  exact hacceptedTarget

/-- The search that admits a transition finds a path that publication keeps. -/
theorem leads_of_layerReachable {start expected : LayerId}
    (hstart : db'.AcceptedLayer scope.target start)
    (hfound : db.layerReachable scope start expected = .ok true) :
    db'.Leads start expected := by
  have hsearch : ∀ result,
      db.layerReachable scope start expected = .ok result → result = true →
        db'.Leads start expected := by
    intro result hresult
    -- Every layer still to be visited is accepted and led to.
    refine drain_induction
      (P := fun _ pending => ∀ layer ∈ pending,
        db'.AcceptedLayer scope.target layer ∧ db'.Leads start layer)
      (Q := fun result => result = true → db'.Leads start expected)
      ?_ ?_ ?_ ?_ hresult
    · intro visited layer rest next more hpending hturn other hother
      rw [searchLayer] at hturn
      obtain ⟨hlayer, hpath⟩ := hpending layer List.mem_cons_self
      rcases List.mem_append.mp hother with hrest | hmore
      · exact hpending other (List.mem_cons_of_mem _ hrest)
      · split at hturn
        · cases hturn
          cases hmore
        · split at hturn
          · cases hturn
          · simp only [bind_eq_ok_iff, pure_eq_ok_iff] at hturn
            obtain ⟨resolved, hread, hmove⟩ := hturn
            cases hmove
            obtain ⟨action, haction, hleads⟩ := List.mem_filterMap.mp hmore
            split at hleads
            · rename_i hkind
              obtain ⟨harc, haccepted⟩ := navigates_of_resolve h hscope hwalked
                hplan hrun hlayer hread haction hkind.1 hleads
              exact ⟨haccepted, hpath.tail harc⟩
            · cases hleads
    · intro visited layer rest result hpending hturn _
      rw [searchLayer] at hturn
      split at hturn
      · cases hturn
      · split at hturn
        · rename_i hexpected
          rw [← hexpected]
          exact (hpending layer List.mem_cons_self).2
        · simp only [bind_eq_ok_iff, pure_eq_ok_iff] at hturn
          obtain ⟨resolved, -, hmove⟩ := hturn
          cases hmove
    · intro _ _ hfalse
      cases hfalse
    · intro layer hlayer
      rw [List.mem_singleton.mp hlayer]
      exact ⟨hstart, .refl⟩
  exact hsearch true hfound rfl

theorem leads_of_requireAccessibility {old new : LayerId}
    (hnew : db'.AcceptedLayer scope.target new)
    (hok : db.requireAccessibility scope (some old) new = .ok ()) :
    db'.Leads new old := by
  by_cases hsame : old = new
  · rw [hsame]
    exact .refl
  · simp only [requireAccessibility, forSome, onlyIf, ne_eq, hsame,
      not_false_eq_true, if_true, bind_eq_ok_iff, require_eq_ok_iff] at hok
    obtain ⟨reachable, hreachable, htrue⟩ := hok
    exact leads_of_layerReachable h hscope hwalked hplan hrun hnew
      (htrue ▸ hreachable)

end

/-! ## Transitions -/

variable {persisted : CompletionRow} {intent : CurrentTransition}
variable {expectedRevision : ℕ} {operationKey : String} {index : IndexAnswers}

/-- The body of a transition leaves a current that leads to the old one. -/
theorem transitionBody_leads (h : db.WellFormed) (hscope : db.Issued scope)
    {published : Published}
    (hrun : db.transitionBody scope host persisted revision intent =
      .ok published) {old : LayerId} (hold : persisted.currentLayer = some old) :
    ∃ current, published.currentLayer = some current ∧
      published.db.Leads current old := by
  cases intent with
  | advance layer =>
      obtain ⟨plan, hadvanced⟩ := advance_ok hrun
      have hplan := hadvanced.planned.publishable
      refine ⟨layer, hadvanced.currentLayer, ?_⟩
      apply leads_of_requireAccessibility h hscope hadvanced.planned.walked hplan
        hadvanced.publishes
      · rw [← hadvanced.rootLayer]
        exact acceptedLayer_of_publish h hscope hplan hadvanced.planned.root
          hadvanced.publishes
      · rw [← hold]
        exact hadvanced.accessible
  | «return» layer =>
      obtain ⟨plan, rootId, rootRow, graph, hreturned⟩ := returnCurrent_ok hrun
      obtain ⟨-, hlayer, attached, resolved, -, hattached, -, hresolved, -,
        hfinal⟩ := hreturned.stages h hscope
      have hrest := (hattached.trans hresolved).trans hfinal
      refine ⟨layer, hreturned.currentLayer, hrest.retains.leads ?_⟩
      apply leads_of_requireAccessibility h hscope hreturned.planned.walked
        hreturned.planned.publishable hreturned.publishes hlayer
      rw [← hold]
      exact hreturned.accessible
  | stop reason =>
      obtain rfl := Except.ok.inj hrun
      exact ⟨old, hold, .refl⟩
  | fail reason =>
      obtain rfl := Except.ok.inj hrun
      exact ⟨old, hold, .refl⟩

/-- Whatever a transition commits, its current leads to the one before. -/
theorem transition_leads (h : db.WellFormed) (hscope : db.Issued scope)
    {result : Transitioned}
    (hrun : db.transition scope host expectedRevision operationKey intent index =
      .ok result) {row : CompletionRow}
    (hrow : db.completion? scope.root = some row) {old : LayerId}
    (hold : row.currentLayer = some old) :
    ∃ row' current, result.db.completion? scope.root = some row' ∧
      row'.currentLayer = some current ∧ result.db.Leads current old := by
  rcases transition_ok hrun with ⟨receipt, -, -, rfl⟩ |
    ⟨persisted, published, recorded, hcommitted, hresult, -⟩
  · exact ⟨row, old, hrow, hold, .refl⟩
  · obtain rfl : row = persisted := by simpa [hrow] using hcommitted.stored
    obtain ⟨current, hcurrent, hpath⟩ :=
      transitionBody_leads h hscope hcommitted.body hold
    obtain ⟨-, -, ⟨stored, hstored, -, -⟩, -⟩ :=
      transitionBody_completion? hcommitted.stored hcommitted.body
    have hrecorded := hcommitted.record.completion? scope.root
    rw [if_pos rfl, hstored, Option.map_some] at hrecorded
    have hleads := hcommitted.record.sameGraph.leads hpath
    rcases hresult with hsame | ⟨target, indexed, hsame⟩
    · rw [hsame]
      exact ⟨_, current, hrecorded, hcurrent, hleads⟩
    · rw [hsame]
      refine ⟨_, current, (completion?_of_nodes rfl scope.root).trans hrecorded,
        hcurrent, ?_⟩
      exact SameGraph.leads ⟨rfl, rfl, rfl⟩ hleads

/-! ## Operations -/

/-- Only a transition and a new interaction send an event. -/
theorem outbox_of_step {operation : Operation}
    (hstep : (native host).step db operation db') :
    (∃ author expected key intent index,
      operation = .transition author expected key intent index) ∨
    db'.outbox = db.outbox ∨
      db'.outbox = db.outbox ++ [⟨db.nodes.nextKey, 0, "initialized"⟩] := by
  change db.perform host operation = .ok db' at hstep
  cases operation with
  | createInteraction target text preparation =>
      obtain ⟨id, hrun⟩ := map_snd_eq_ok hstep
      obtain ⟨-, row, -, -, -, -, -, rfl⟩ := createInteraction_ok hrun
      exact .inr (.inr rfl)
  | activateAuthority interaction =>
      obtain ⟨epoch, hrun⟩ := map_snd_eq_ok hstep
      rw [activateAuthority_ok hrun]
      exact .inr (.inl rfl)
  | submitNode author draft contents =>
      obtain ⟨scope, -, hrun⟩ := bind_eq_ok_iff.mp hstep
      obtain ⟨id, hrun⟩ := map_snd_eq_ok hrun
      obtain ⟨-, draft, ⟨row, -, -, -, rfl⟩ | hinsert⟩ := submitNode_ok hrun
      · exact .inr (.inl rfl)
      · simp only [insertDraftNode, Prod.mk.injEq] at hinsert
        obtain ⟨-, rfl⟩ := hinsert
        exact .inr (.inl rfl)
  | createEdge author draft =>
      obtain ⟨scope, -, hrun⟩ := bind_eq_ok_iff.mp hstep
      obtain ⟨id, hrun⟩ := map_snd_eq_ok hrun
      rcases createEdge_ok hrun with rfl | ⟨endpoints, hinsert⟩
      · exact .inr (.inl rfl)
      · simp only [insertDraftEdge, Prod.mk.injEq] at hinsert
        obtain ⟨-, rfl⟩ := hinsert
        exact .inr (.inl rfl)
  | submitLayer author draft renderer =>
      obtain ⟨scope, -, hrun⟩ := bind_eq_ok_iff.mp hstep
      obtain ⟨id, hrun⟩ := map_snd_eq_ok hrun
      obtain ⟨-, nodes, edges, -, -, -, hwrite⟩ := submitLayer_ok hrun
      rcases upsertDraftLayer_ok hwrite with ⟨row, -, -, -, rfl⟩ |
        ⟨row, -, -, -, -, -, rfl⟩
      · exact .inr (.inl rfl)
      · exact .inr (.inl rfl)
  | addAction author draft preparedIcon =>
      obtain ⟨scope, -, hrun⟩ := bind_eq_ok_iff.mp hstep
      obtain ⟨id, hrun⟩ := map_snd_eq_ok hrun
      obtain ⟨-, -, source, icon, -, -, -, hwrite⟩ := addAction_ok hrun
      rcases hwrite with ⟨row, -, -, -, -, rfl⟩ | rfl
      · exact .inr (.inl rfl)
      · exact .inr (.inl rfl)
  | discardLayer author layer =>
      obtain ⟨scope, -, hrun⟩ := bind_eq_ok_iff.mp hstep
      obtain ⟨id, hrun⟩ := map_snd_eq_ok hrun
      rcases discardLayer_ok hrun with rfl | rfl
      · exact .inr (.inl rfl)
      · exact .inr (.inl rfl)
  | stagePresentation author node expectedRevision package assets =>
      obtain ⟨scope, -, hrun⟩ := bind_eq_ok_iff.mp hstep
      obtain ⟨-, -, rfl⟩ := stagePresentation_ok hrun
      exact .inr (.inl rfl)
  | transition author expected key intent index =>
      exact .inl ⟨author, expected, key, intent, index, rfl⟩

/-- An operation that is no transition keeps the history of every
completion. -/
theorem history_of_step {operation : Operation}
    (hstep : (native host).step db operation db')
    (hquiet : ∀ author expected key intent index,
      operation ≠ .transition author expected key intent index)
    {interaction : NodeId} {row : CompletionRow}
    (hrow : db.completion? interaction = some row) :
    ∃ row', db'.completion? interaction = some row' ∧
      row'.history = row.history := by
  have hevents := (outbox_of_step hstep).resolve_left
    fun h => by
      obtain ⟨author, expected, key, intent, index, hsame⟩ := h
      exact hquiet author expected key intent index hsame
  cases evolves_of_step hstep with
  | created scope preparation _ _ hothers =>
      have hne : interaction ≠ db.nodes.nextKey := by
        rintro rfl
        rw [completion?_nextKey] at hrow
        cases hrow
      exact ⟨row, (hothers interaction hne).trans hrow, rfl⟩
  | rewritten changed before after _ hbefore hafter hrewrites hothers =>
      by_cases hchanged : interaction = changed
      · obtain rfl : row = before := by
          rw [hchanged, hbefore] at hrow
          exact (Option.some.inj hrow).symm
        refine ⟨after, hchanged ▸ hafter, ?_⟩
        cases hrewrites with
        | kept hhistory _ => exact hhistory
        | staged _ presentation hwritten => rw [hwritten]; rfl
      · exact ⟨row, (hothers interaction hchanged).trans hrow, rfl⟩
  | committed changed before after intent operationKey published hsent hbefore _ _
      _ =>
      -- The event of a transition is neither missing nor that of a new row.
      rcases hevents with hsame | hnew
      · rw [hsame] at hsent
        exact absurd (congrArg List.length hsent) (by simp)
      · rw [hnew] at hsent
        obtain rfl : db.nodes.nextKey = changed := by
          simpa using (List.append_cancel_left hsent)
        rw [completion?_nextKey] at hbefore
        cases hbefore
  | same _ hcompletions =>
      exact ⟨row, (hcompletions interaction).trans hrow, rfl⟩

/-- A transition changes no other completion. -/
theorem completion?_transition {result : Transitioned}
    (hrun : db.transition scope host expectedRevision operationKey intent index =
      .ok result) {other : NodeId} (hother : other ≠ scope.root) :
    result.db.completion? other = db.completion? other := by
  rcases transition_ok hrun with ⟨receipt, -, -, rfl⟩ |
    ⟨persisted, published, recorded, hcommitted, hresult, -⟩
  · rfl
  · obtain ⟨-, -, -, hothers⟩ :=
      transitionBody_completion? hcommitted.stored hcommitted.body
    have hrecorded : recorded.completion? other = db.completion? other := by
      rw [hcommitted.record.completion?, if_neg hother, hothers other hother]
    rcases hresult with hsame | ⟨target, indexed, hsame⟩
    · rw [hsame]
      exact hrecorded
    · rw [hsame]
      exact (completion?_of_nodes rfl other).trans hrecorded

/-- After every operation, each current leads to the one before. -/
theorem leads_of_step (hreach : (native host).Reachable db)
    {operation : Operation} (hstep : (native host).step db operation db')
    {interaction : NodeId} {row : CompletionRow}
    (hrow : db.completion? interaction = some row) {old : LayerId}
    (hold : row.currentLayer = some old) :
    ∃ row' current, db'.completion? interaction = some row' ∧
      row'.currentLayer = some current ∧ db'.Leads current old := by
  by_cases hquiet : ∀ author expected key intent index,
      operation ≠ .transition author expected key intent index
  · obtain ⟨row', hrow', hhistory⟩ := history_of_step hstep hquiet hrow
    have hcurrent : row'.currentLayer = row.currentLayer :=
      congrArg (fun history => history.2.2.1) hhistory
    exact ⟨row', old, hrow', hcurrent.trans hold, .refl⟩
  · push Not at hquiet
    obtain ⟨author, expected, key, intent, index, rfl⟩ := hquiet
    change db.perform host _ = .ok db' at hstep
    obtain ⟨scope, hscope, hrun⟩ := bind_eq_ok_iff.mp hstep
    obtain ⟨result, hresult, rfl⟩ := exceptMap_eq_ok_iff.mp hrun
    obtain ⟨hissued, hroot⟩ := issued_of_writerScope hscope
    by_cases hauthor : interaction = scope.root
    · subst hauthor
      exact transition_leads (wellFormed_of_reachable hreach) hissued hresult hrow
        hold
    · exact ⟨row, old, (completion?_transition hresult hauthor).trans hrow, hold,
        .refl⟩

/-! ## Whole histories -/

/-- Every layer that was once current is reached from the current layer. -/
def Navigable (db : GraphDatabase) (row : CompletionRow) : Prop :=
  ∀ revision ∈ row.revisions, ∀ layer, revision.currentLayer = some layer →
    ∃ current, row.currentLayer = some current ∧ db.Leads current layer

theorem navigable_of_step (hreach : (native host).Reachable db)
    {operation : Operation} (hstep : (native host).step db operation db')
    (hdb : ∀ interaction row, db.completion? interaction = some row →
      db.Navigable row) {interaction : NodeId} {row' : CompletionRow}
    (hrow' : db'.completion? interaction = some row') : db'.Navigable row' := by
  have hret := (retains_of_step hreach hstep)
  -- What was current before stays reached from what is current now.
  have hearlier : ∀ row, db.completion? interaction = some row →
      ∀ revision ∈ row.revisions, ∀ layer, revision.currentLayer = some layer →
        ∃ current, row'.currentLayer = some current ∧ db'.Leads current layer := by
    intro row hrow revision hrevision layer hlayer
    obtain ⟨old, hold, hpath⟩ :=
      hdb interaction row hrow revision hrevision layer hlayer
    obtain ⟨found, current, hfound, hcurrent, hleads⟩ :=
      leads_of_step hreach hstep hrow hold
    obtain rfl : row' = found := by simpa [hrow'] using hfound
    exact ⟨current, hcurrent, hleads.trans (hret.leads hpath)⟩
  cases evolves_of_step hstep with
  | created scope preparation _ hinitial hothers =>
      by_cases hnew : interaction = db.nodes.nextKey
      · rw [hnew, hinitial, Option.some.injEq] at hrow'
        intro revision hrevision layer hlayer
        rw [← hrow'] at hrevision
        simp only [initialCompletion, List.mem_singleton] at hrevision
        rw [hrevision] at hlayer
        cases hlayer
      · exact hearlier row' (hothers interaction hnew ▸ hrow')
  | rewritten changed before after _ hbefore hafter hrewrites hothers =>
      by_cases hchanged : interaction = changed
      · obtain rfl : row' = after := by simpa [hchanged, hafter] using hrow'.symm
        have hrevisions : row'.revisions = before.revisions := by
          cases hrewrites with
          | kept hhistory _ =>
              exact congrArg (fun history => history.2.2.2.2.2) hhistory
          | staged _ presentation hwritten => rw [hwritten]; rfl
        intro revision hrevision
        exact hearlier before (hchanged ▸ hbefore) revision
          (hrevisions ▸ hrevision)
      · exact hearlier row' (hothers interaction hchanged ▸ hrow')
  | committed changed before after intent operationKey published _ hbefore hafter
      hcommits hothers =>
      by_cases hchanged : interaction = changed
      · obtain rfl : row' = after := by simpa [hchanged, hafter] using hrow'.symm
        have hhistory := hcommits.history
        simp only [CompletionRow.history, HeadMove.apply, RevisionRow.appendTo,
          Published.headMove, Published.revisionRow, Prod.mk.injEq] at hhistory
        obtain ⟨-, -, hcurrent, -, -, hrevisions⟩ := hhistory
        intro revision hrevision layer hlayer
        rw [hrevisions] at hrevision
        rcases List.mem_append.mp hrevision with hkept | hnew
        · exact hearlier before (hchanged ▸ hbefore) revision hkept layer hlayer
        · rw [List.mem_singleton.mp hnew] at hlayer
          exact ⟨layer, hcurrent.trans hlayer, .refl⟩
      · exact hearlier row' (hothers interaction hchanged ▸ hrow')
  | same _ hcompletions =>
      exact hearlier row' (hcompletions interaction ▸ hrow')

theorem navigable_of_reachable (hreach : (native host).Reachable db) :
    ∀ interaction row, db.completion? interaction = some row →
      db.Navigable row := by
  refine hreach.invariant
    (P := fun db => ∀ interaction row, db.completion? interaction = some row →
      db.Navigable row) ?_ ?_
  · rintro _ ⟨permissionsEnabled, temporalFeatures, rfl⟩ interaction row hrow
    simp [initial, completion?] at hrow
  · intro s operation t hs hdb hstep interaction row hrow
    exact navigable_of_step hs hstep hdb hrow

end GraphDatabase

end RelayerGraph
