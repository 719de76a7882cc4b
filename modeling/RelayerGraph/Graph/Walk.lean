import RelayerGraph.Graph.Authoring

/-!
# What a walk establishes

A plan grows by walking authored layers.  The invariant of the walk says that
every layer entered so far is an own draft with its records and its authored
actions in the plan, that what those actions lead to is entered, accepted or
still pending, and that every layer was found along authored navigation.
-/

namespace RelayerGraph

open Foundation Checked Worklist Relation

/-- Everything of a plan but its actions and its arrivals. -/
def CompletionPlan.content (plan : CompletionPlan) :
    Option GraphAction × LayerId × Option InteractionLease × List NodeId ×
      List EdgeId × List LayerId × List (LayerId × List ActionId) :=
  (plan.rootAction, plan.rootLayer, plan.lease, plan.nodes, plan.edges,
    plan.layers, plan.layerActions)

theorem CompletionPlan.registerArrival_ok {plan plan' : CompletionPlan}
    {layer : LayerId} {relation : NavigateRelation}
    (hrun : plan.registerArrival layer relation = .ok plan') :
    plan'.content = plan.content ∧ plan'.actions = plan.actions := by
  simp only [registerArrival, bind_eq_ok_iff, pure_eq_ok_iff] at hrun
  obtain ⟨-, -, rfl⟩ := hrun
  exact ⟨rfl, rfl⟩

/-- A later stage of a plan under construction. -/
structure CompletionPlan.Extends (plan plan' : CompletionPlan) : Prop where
  rootAction : plan'.rootAction = plan.rootAction
  rootLayer : plan'.rootLayer = plan.rootLayer
  lease : plan'.lease = plan.lease
  actions : ∀ id ∈ plan.actions, id ∈ plan'.actions
  layers : ∀ layer ∈ plan.layers, layer ∈ plan'.layers

namespace CompletionPlan.Extends

theorem refl (plan : CompletionPlan) : plan.Extends plan :=
  ⟨rfl, rfl, rfl, fun _ h => h, fun _ h => h⟩

theorem trans {a b c : CompletionPlan} (hab : a.Extends b) (hbc : b.Extends c) :
    a.Extends c where
  rootAction := hbc.rootAction.trans hab.rootAction
  rootLayer := hbc.rootLayer.trans hab.rootLayer
  lease := hbc.lease.trans hab.lease
  actions id h := hbc.actions id (hab.actions id h)
  layers id h := hbc.layers id (hab.layers id h)

theorem of_content {plan plan' : CompletionPlan}
    (hcontent : plan'.content = plan.content)
    (hactions : plan'.actions = plan.actions) : plan.Extends plan' := by
  simp only [content, Prod.mk.injEq] at hcontent
  obtain ⟨hroot, hrootLayer, hlease, -, -, hlayers, -⟩ := hcontent
  exact ⟨hroot, hrootLayer, hlease, fun id h => hactions ▸ h, fun id h => hlayers ▸ h⟩

end CompletionPlan.Extends

namespace GraphDatabase

variable {db : GraphDatabase} {scope : InteractionScope}

/-! ## The authored actions of one layer -/

theorem walkAction_ok {layer : LayerId} {arrival : NavigateRelation}
    {nodes : List NodeId} {plan plan' : CompletionPlan}
    {more more' : List (LayerId × NavigateRelation)} {action : GraphAction}
    (hrun : db.walkAction scope layer arrival nodes (plan, more) action =
      .ok (plan', more')) :
    plan'.content = plan.content ∧
      plan'.actions = plan.actions.insert action.id ∧
      db.validateInvokeInputs scope action.sourceNodeId action.inputActionIds =
        .ok () ∧
      action.sourceNodeId ∈ nodes ∧
      (action.kind ≠ .navigate ∧ more' = more ∨
        action.kind = .navigate ∧ ∃ target relation,
          action.targetLayerId = some target ∧
            more' = more ++ [(target, relation)]) := by
  simp only [walkAction, bind_eq_ok_iff, require_eq_ok_iff] at hrun
  obtain ⟨⟨⟩, hinputs, -, hsource, -, -, hrun⟩ := hrun
  split at hrun
  · rename_i hkind
    simp only [pure_eq_ok_iff, Prod.mk.injEq] at hrun
    obtain ⟨rfl, rfl⟩ := hrun
    exact ⟨rfl, rfl, hinputs, hsource, .inl ⟨hkind, rfl⟩⟩
  · rename_i hkind
    simp only [bind_eq_ok_iff, orThrow_eq_ok_iff, pure_eq_ok_iff,
      Prod.mk.injEq] at hrun
    obtain ⟨relation, -, target, htarget, registered, hregister, rfl, rfl⟩ := hrun
    obtain ⟨hcontent, hactions⟩ := CompletionPlan.registerArrival_ok hregister
    exact ⟨hcontent, hactions, hinputs, hsource,
      .inr ⟨not_not.mp hkind, target, relation, htarget, rfl⟩⟩

/-- What walking a list of authored actions leaves. -/
structure ActionsWalked (db : GraphDatabase) (scope : InteractionScope)
    (nodes : List NodeId) (before after : CompletionPlan)
    (actions : List GraphAction) (more : List (LayerId × NavigateRelation)) :
    Prop where
  content : after.content = before.content
  inserted : ∀ id, id ∈ after.actions ↔
    id ∈ before.actions ∨ ∃ action ∈ actions, action.id = id
  checked : ∀ action ∈ actions,
    db.validateInvokeInputs scope action.sourceNodeId action.inputActionIds =
      .ok () ∧ action.sourceNodeId ∈ nodes
  leads : ∀ action ∈ actions, action.kind = .navigate →
    ∃ target ∈ more.map Prod.fst, action.targetLayerId = some target
  found : ∀ target ∈ more.map Prod.fst, ∃ action ∈ actions,
    action.kind = .navigate ∧ action.targetLayerId = some target

theorem actionsWalked_of_foldlM {layer : LayerId} {arrival : NavigateRelation}
    {nodes : List NodeId} {before after : CompletionPlan}
    {actions : List GraphAction} {more : List (LayerId × NavigateRelation)}
    (hrun : actions.foldlM (db.walkAction scope layer arrival nodes)
      (before, []) = .ok (after, more)) :
    ActionsWalked db scope nodes before after actions more := by
  refine foldlM_induction (P := fun walked done =>
    ActionsWalked db scope nodes before walked.1 done walked.2) ?_ ?_ hrun
  · rintro ⟨plan, more⟩ done action ⟨plan', more'⟩ - hwalked hstep
    obtain ⟨hcontent, hactions, hinputs, hsource, hmore⟩ := walkAction_ok hstep
    have hold : ∀ target ∈ more.map Prod.fst, target ∈ more'.map Prod.fst := by
      intro target htarget
      rcases hmore with ⟨-, rfl⟩ | ⟨-, _, _, -, rfl⟩
      · exact htarget
      · simp [htarget]
    constructor
    · exact hcontent.trans hwalked.content
    · intro id
      rw [hactions, List.mem_insert_iff, hwalked.inserted]
      simp only [List.mem_append, List.mem_singleton]
      constructor
      · rintro (rfl | hid | ⟨other, hother, rfl⟩)
        · exact .inr ⟨action, .inr rfl, rfl⟩
        · exact .inl hid
        · exact .inr ⟨other, .inl hother, rfl⟩
      · rintro (hid | ⟨other, hother | rfl, rfl⟩)
        · exact .inr (.inl hid)
        · exact .inr (.inr ⟨other, hother, rfl⟩)
        · exact .inl rfl
    · intro other hother
      rcases List.mem_append.mp hother with hother | hother
      · exact hwalked.checked other hother
      · rw [List.mem_singleton.mp hother]
        exact ⟨hinputs, hsource⟩
    · intro other hother hkind
      rcases List.mem_append.mp hother with hother | hother
      · obtain ⟨target, htarget, heq⟩ := hwalked.leads other hother hkind
        exact ⟨target, hold target htarget, heq⟩
      · rw [List.mem_singleton.mp hother] at hkind ⊢
        rcases hmore with ⟨hno, -⟩ | ⟨-, target, relation, htarget, rfl⟩
        · exact absurd hkind hno
        · exact ⟨target, by simp, htarget⟩
    · intro target htarget
      have hearlier : target ∈ more.map Prod.fst →
          ∃ action' ∈ done ++ [action], action'.kind = .navigate ∧
            action'.targetLayerId = some target := by
        intro h
        obtain ⟨other, hother, hrest⟩ := hwalked.found target h
        exact ⟨other, List.mem_append_left _ hother, hrest⟩
      rcases hmore with ⟨-, rfl⟩ | ⟨hkind, last, relation, hlast, rfl⟩
      · exact hearlier htarget
      · rw [List.map_append, List.mem_append] at htarget
        rcases htarget with htarget | htarget
        · exact hearlier htarget
        · obtain rfl : target = last := by simpa using htarget
          exact ⟨action, by simp, hkind, hlast⟩
  · exact ⟨rfl, by simp, by simp, by simp, by simp⟩

/-! ## One turn of the walk -/

/-- A newly entered layer: an own draft whose records join the plan. -/
structure Entered (db : GraphDatabase) (scope : InteractionScope)
    (plan : CompletionPlan) (layer : LayerId) (row : LayerRow)
    (resolved : ResolvedLayer) (entered : CompletionPlan) : Prop where
  reads : db.Resolved scope layer row resolved
  layers : entered.layers = layer :: plan.layers
  nodes : ∀ id, id ∈ entered.nodes ↔ id ∈ row.nodes ∨ id ∈ plan.nodes
  edges : ∀ id, id ∈ entered.edges ↔ id ∈ row.edges ∨ id ∈ plan.edges
  snapshots : entered.layerActions =
    (layer, resolved.actions.map (·.id)) :: plan.layerActions
  actions : entered.actions = plan.actions
  root : entered.rootAction = plan.rootAction ∧
    entered.rootLayer = plan.rootLayer ∧ entered.lease = plan.lease

theorem enterLayer_ok {plan entered : CompletionPlan} {layer : LayerId}
    {row : LayerRow} {resolved : ResolvedLayer}
    (hrow : db.layers.get? layer = some row)
    (hrun : db.enterLayer scope plan layer row = .ok (resolved, entered)) :
    Entered db scope plan layer row resolved entered := by
  simp only [enterLayer, bind_eq_ok_iff, pure_eq_ok_iff, Prod.mk.injEq] at hrun
  obtain ⟨found, hresolve, -, -, -, -, -, -, -, -, -, -, rfl, rfl⟩ := hrun
  obtain ⟨stored, hresolved, -⟩ := resolve_eq_ok hresolve
  obtain rfl : row = stored := by
    simpa [hrow] using hresolved.stored
  refine ⟨hresolved, rfl, ?_, ?_, rfl, rfl, rfl, rfl, rfl⟩
  · intro id
    rw [← hresolved.map_nodes]
    exact List.mem_union_iff
  · intro id
    rw [← hresolved.map_edges]
    exact List.mem_union_iff

/-- A turn of the walk either meets a layer that needs no visit, or enters an
own draft layer and walks what was authored from it. -/
inductive WalkTurn (db : GraphDatabase) (scope : InteractionScope)
    (plan : CompletionPlan) (layer : LayerId) (next : CompletionPlan)
    (more : List (LayerId × NavigateRelation)) : Prop
  | met (content : next.content = plan.content)
      (actions : next.actions = plan.actions) (nothing : more = [])
      (known : layer ∈ plan.layers ∨ db.AcceptedLayer scope.target layer)
  | entered (row : LayerRow) (resolved : ResolvedLayer)
      (start entered : CompletionPlan)
      (content : start.content = plan.content)
      (actions : start.actions = plan.actions)
      (state : row.state = .draft) (owner : row.owner = scope.root)
      (enters : Entered db scope start layer row resolved entered)
      (walked : ActionsWalked db scope row.nodes entered next
        (db.actionsFromLayer scope layer) more)

theorem walkLayer_ok {plan : CompletionPlan}
    {item : LayerId × NavigateRelation}
    {turn : Turn CompletionPlan (LayerId × NavigateRelation) CompletionPlan}
    (hrun : db.walkLayer scope plan item = .ok turn) :
    ∃ next more, turn = .proceed next more ∧
      WalkTurn db scope plan item.1 next more := by
  obtain ⟨layer, arrival⟩ := item
  simp only [walkLayer, bind_eq_ok_iff, orThrow_eq_ok_iff] at hrun
  obtain ⟨start, hregister, found, hfound, row, hsome, hrun⟩ := hrun
  rw [hsome] at hfound
  obtain ⟨hrow, hin⟩ := layerRecord_eq_some hfound
  obtain ⟨hcontent, hactions⟩ := CompletionPlan.registerArrival_ok hregister
  have hlayers : start.layers = plan.layers :=
    congrArg (fun content => content.2.2.2.2.2.1) hcontent
  split at hrun
  · rename_i hstate
    simp only [bind_eq_ok_iff, pure_eq_ok_iff] at hrun
    obtain ⟨-, -, rfl⟩ := hrun
    exact ⟨start, [], rfl, .met hcontent hactions rfl
      (.inr ⟨row, hrow, inScope_iff.mp hin, hstate⟩)⟩
  · rename_i hstate
    simp only [bind_eq_ok_iff, require_eq_ok_iff] at hrun
    obtain ⟨-, hstopped, -, howner, -, -, -, -, hrun⟩ := hrun
    split at hrun
    · rename_i hvisited
      obtain rfl := pure_eq_ok_iff.mp hrun
      exact ⟨start, [], rfl, .met hcontent hactions rfl
        (.inl (hlayers ▸ hvisited))⟩
    · simp only [bind_eq_ok_iff, pure_eq_ok_iff] at hrun
      obtain ⟨⟨resolved, entered⟩, henter, ⟨next, more⟩, hwalk, rfl⟩ := hrun
      have hentered := enterLayer_ok hrow henter
      have hdraft : row.state = .draft := by
        cases hcase : row.state with
        | draft => rfl
        | accepted => exact absurd hcase hstate
        | stopped => exact absurd hcase hstopped
      have hwalked := actionsWalked_of_foldlM hwalk
      rw [hentered.reads.map_nodes] at hwalked
      exact ⟨next, more, rfl, .entered row resolved start entered hcontent
        hactions hdraft howner hentered hwalked⟩

/-! ## The invariant of the walk -/

/-- An interaction authored a navigate action from a draft layer to a target. -/
def DraftArc (db : GraphDatabase) (scope : InteractionScope)
    (layer target : LayerId) : Prop :=
  (∃ stored, db.layers.get? layer = some stored ∧ stored.state = .draft) ∧
    ∃ id row, db.AuthoredFrom scope layer id row ∧ row.kind = .navigate ∧
      row.targetLayer = some target

/-- The target is in the plan, accepted, or still to be visited. -/
def Known (db : GraphDatabase) (scope : InteractionScope)
    (plan : CompletionPlan) (pending : List LayerId) (target : LayerId) : Prop :=
  target ∈ plan.layers ∨ db.AcceptedLayer scope.target target ∨
    target ∈ pending

/-- The invariant of a plan under construction.  `origin` tells where walks
started, and `given` which actions joined the plan outside the walks. -/
structure Walked (db : GraphDatabase) (scope : InteractionScope)
    (origin : LayerId → Prop) (given : ActionId → Prop)
    (plan : CompletionPlan) (pending : List LayerId) : Prop where
  layers : ∀ layer ∈ plan.layers, ∃ row resolved,
    db.Resolved scope layer row resolved ∧ row.state = .draft ∧
      row.owner = scope.root ∧
      (layer, resolved.actions.map (·.id)) ∈ plan.layerActions ∧
      (∀ id ∈ row.nodes, id ∈ plan.nodes) ∧
      ∀ id ∈ row.edges, id ∈ plan.edges
  snapshots : ∀ entry ∈ plan.layerActions, entry.1 ∈ plan.layers ∧
    ∃ row resolved, db.Resolved scope entry.1 row resolved ∧
      entry.2 = resolved.actions.map (·.id)
  authored : ∀ layer ∈ plan.layers, ∀ id row,
    db.AuthoredFrom scope layer id row → id ∈ plan.actions ∧
      db.validateInvokeInputs scope row.source row.inputs = .ok () ∧
      (∀ stored, db.layers.get? layer = some stored →
        row.source ∈ stored.nodes) ∧
      (row.kind = .navigate → ∃ target, row.targetLayer = some target ∧
        Known db scope plan pending target)
  actions : ∀ id ∈ plan.actions, given id ∨
    ∃ layer ∈ plan.layers, ∃ row, db.AuthoredFrom scope layer id row
  reached : ∀ layer, layer ∈ plan.layers ∨ layer ∈ pending →
    ∃ start, origin start ∧ ReflTransGen (db.DraftArc scope) start layer

variable {origin : LayerId → Prop} {given : ActionId → Prop}

/-- Only the layers, the records, the actions and the snapshots of a plan
matter. -/
theorem Walked.congr {plan plan' : CompletionPlan} {pending : List LayerId}
    (h : Walked db scope origin given plan pending)
    (hcontent : plan'.content = plan.content)
    (hactions : plan'.actions = plan.actions) :
    Walked db scope origin given plan' pending := by
  simp only [CompletionPlan.content, Prod.mk.injEq] at hcontent
  obtain ⟨-, -, -, hnodes, hedges, hlayers, hsnapshots⟩ := hcontent
  constructor
  · rw [hlayers, hsnapshots, hnodes, hedges]
    exact h.layers
  · rw [hlayers, hsnapshots]
    exact h.snapshots
  · simp only [Known, hlayers, hactions]
    exact h.authored
  · rw [hlayers, hactions]
    exact h.actions
  · rw [hlayers]
    exact h.reached

/-- A layer which is in the plan or accepted need not stay pending. -/
theorem Walked.drop {plan : CompletionPlan} {layer : LayerId}
    {rest : List LayerId}
    (h : Walked db scope origin given plan (layer :: rest))
    (hknown : layer ∈ plan.layers ∨ db.AcceptedLayer scope.target layer) :
    Walked db scope origin given plan rest := by
  refine ⟨h.layers, h.snapshots, ?_, h.actions, ?_⟩
  · intro other hother id row hrow
    obtain ⟨hid, hinputs, hsource, hleads⟩ := h.authored other hother id row hrow
    refine ⟨hid, hinputs, hsource, fun hkind => ?_⟩
    obtain ⟨target, htarget, hseen | hseen | hseen⟩ := hleads hkind
    · exact ⟨target, htarget, .inl hseen⟩
    · exact ⟨target, htarget, .inr (.inl hseen)⟩
    · refine ⟨target, htarget, ?_⟩
      rcases List.mem_cons.mp hseen with rfl | hrest
      · exact hknown.imp_right .inl
      · exact .inr (.inr hrest)
  · intro other hother
    exact h.reached other (hother.imp_right (List.mem_cons_of_mem _))

/-- Entering a layer and walking its authored actions keeps the invariant. -/
theorem Walked.enter {plan entered next : CompletionPlan} {layer : LayerId}
    {row : LayerRow} {resolved : ResolvedLayer} {rest : List LayerId}
    {more : List (LayerId × NavigateRelation)}
    (h : Walked db scope origin given plan (layer :: rest))
    (hstate : row.state = .draft) (howner : row.owner = scope.root)
    (henter : Entered db scope plan layer row resolved entered)
    (hwalk : ActionsWalked db scope row.nodes entered next
      (db.actionsFromLayer scope layer) more) :
    Walked db scope origin given next (rest ++ more.map Prod.fst) := by
  have hcontent := hwalk.content
  simp only [CompletionPlan.content, Prod.mk.injEq] at hcontent
  obtain ⟨-, -, -, hnodes, hedges, hlayers, hsnapshots⟩ := hcontent
  rw [henter.layers] at hlayers
  rw [henter.snapshots] at hsnapshots
  have hstored := henter.reads.stored
  have hactions : ∀ id ∈ plan.actions, id ∈ next.actions := by
    intro id hid
    exact (hwalk.inserted id).mpr (.inl (henter.actions ▸ hid))
  have hknown : ∀ target, Known db scope plan (layer :: rest) target →
      Known db scope next (rest ++ more.map Prod.fst) target := by
    intro target hseen
    simp only [Known, hlayers, List.mem_cons, List.mem_append] at hseen ⊢
    tauto
  have hlayer : ∃ start, origin start ∧
      ReflTransGen (db.DraftArc scope) start layer :=
    h.reached layer (.inr List.mem_cons_self)
  constructor
  · intro other hother
    rw [hlayers] at hother
    rw [hsnapshots, hnodes, hedges]
    rcases List.mem_cons.mp hother with rfl | hother
    · exact ⟨row, resolved, henter.reads, hstate, howner, List.mem_cons_self,
        fun id hid => (henter.nodes id).mpr (.inl hid),
        fun id hid => (henter.edges id).mpr (.inl hid)⟩
    · obtain ⟨row', resolved', hread, hdraft, hown, hsnap, hn, he⟩ :=
        h.layers other hother
      exact ⟨row', resolved', hread, hdraft, hown, List.mem_cons_of_mem _ hsnap,
        fun id hid => (henter.nodes id).mpr (.inr (hn id hid)),
        fun id hid => (henter.edges id).mpr (.inr (he id hid))⟩
  · intro entry hentry
    rw [hsnapshots] at hentry
    rw [hlayers]
    rcases List.mem_cons.mp hentry with rfl | hentry
    · exact ⟨List.mem_cons_self, row, resolved, henter.reads, rfl⟩
    · obtain ⟨hmem, hread⟩ := h.snapshots entry hentry
      exact ⟨List.mem_cons_of_mem _ hmem, hread⟩
  · intro other hother id action haction
    rw [hlayers] at hother
    rcases List.mem_cons.mp hother with rfl | hother
    · have hlisted : db.actionRecord id action ∈ db.actionsFromLayer scope other :=
        mem_actionsFromLayer.mpr ⟨id, action, haction, rfl⟩
      obtain ⟨hinputs, hsource⟩ := hwalk.checked _ hlisted
      refine ⟨(hwalk.inserted id).mpr (.inr ⟨_, hlisted, rfl⟩), hinputs, ?_, ?_⟩
      · intro stored hstored'
        obtain rfl : row = stored := by simpa [hstored] using hstored'
        exact hsource
      · intro hkind
        obtain ⟨target, htarget, heq⟩ := hwalk.leads _ hlisted hkind
        exact ⟨target, heq, .inr (.inr (List.mem_append_right _ htarget))⟩
    · obtain ⟨hid, hinputs, hsource, hleads⟩ :=
        h.authored other hother id action haction
      refine ⟨hactions id hid, hinputs, hsource, fun hkind => ?_⟩
      obtain ⟨target, htarget, hseen⟩ := hleads hkind
      exact ⟨target, htarget, hknown target hseen⟩
  · intro id hid
    rw [hlayers]
    rcases (hwalk.inserted id).mp hid with hold | ⟨action, haction, rfl⟩
    · rw [henter.actions] at hold
      refine (h.actions id hold).imp_right ?_
      rintro ⟨other, hother, hrow⟩
      exact ⟨other, List.mem_cons_of_mem _ hother, hrow⟩
    · obtain ⟨id, stored, hauthored, rfl⟩ := mem_actionsFromLayer.mp haction
      exact .inr ⟨layer, List.mem_cons_self, stored, hauthored⟩
  · intro other hother
    rw [hlayers, List.mem_cons, List.mem_append] at hother
    rcases hother with (rfl | hother) | hother | hother
    · exact hlayer
    · exact h.reached other (.inl hother)
    · exact h.reached other (.inr (List.mem_cons_of_mem _ hother))
    · obtain ⟨action, haction, hkind, htarget⟩ := hwalk.found other hother
      obtain ⟨id, stored, hauthored, rfl⟩ := mem_actionsFromLayer.mp haction
      obtain ⟨start, hstart, hpath⟩ := hlayer
      exact ⟨start, hstart, hpath.tail
        ⟨⟨row, hstored, hstate⟩, id, stored, hauthored, hkind, htarget⟩⟩

/-- One turn of the walk keeps the invariant, and settles its layer. -/
theorem Walked.turn {plan next : CompletionPlan} {layer : LayerId}
    {rest : List LayerId} {more : List (LayerId × NavigateRelation)}
    (h : Walked db scope origin given plan (layer :: rest))
    (hturn : WalkTurn db scope plan layer next more) :
    Walked db scope origin given next (rest ++ more.map Prod.fst) ∧
      plan.Extends next ∧
      (layer ∈ next.layers ∨ db.AcceptedLayer scope.target layer) := by
  cases hturn with
  | met hcontent hactions hnothing hknown =>
      have hsame := h.drop hknown
      have hlayers : next.layers = plan.layers :=
        congrArg (fun content => content.2.2.2.2.2.1) hcontent
      rw [hnothing, List.map_nil, List.append_nil, hlayers]
      exact ⟨hsame.congr hcontent hactions, .of_content hcontent hactions, hknown⟩
  | entered row resolved start entered hcontent hactions hstate howner henter hwalk =>
      have hlayers : next.layers = layer :: start.layers :=
        (congrArg (fun content => content.2.2.2.2.2.1) hwalk.content).trans
          henter.layers
      have hnext := (h.congr hcontent hactions).enter hstate howner henter hwalk
      refine ⟨hnext, (CompletionPlan.Extends.of_content hcontent hactions).trans
        ⟨?_, ?_, ?_, ?_, ?_⟩, .inl (hlayers ▸ List.mem_cons_self)⟩
      · exact (congrArg Prod.fst hwalk.content).trans henter.root.1
      · exact (congrArg (fun content => content.2.1) hwalk.content).trans
          henter.root.2.1
      · exact (congrArg (fun content => content.2.2.1) hwalk.content).trans
          henter.root.2.2
      · intro id hid
        exact (hwalk.inserted id).mpr (.inl (henter.actions ▸ hid))
      · intro other hother
        rw [hlayers]
        exact List.mem_cons_of_mem _ hother

/-- The walk from one more layer, on a plan with nothing pending. -/
theorem Walked.walkLayers {plan final : CompletionPlan} {root : LayerId}
    {relation : NavigateRelation}
    (h : Walked db scope origin given plan []) (horigin : origin root)
    (hrun : db.walkLayers scope plan root relation = .ok final) :
    Walked db scope origin given final [] ∧ plan.Extends final ∧
      (root ∈ final.layers ∨ db.AcceptedLayer scope.target root) := by
  refine drain_induction
    (P := fun (state : CompletionPlan)
        (pending : List (LayerId × NavigateRelation)) =>
      Walked db scope origin given state (pending.map Prod.fst) ∧
        plan.Extends state ∧ Known db scope state (pending.map Prod.fst) root)
    (Q := fun final : CompletionPlan =>
      Walked db scope origin given final [] ∧ plan.Extends final ∧
        (root ∈ final.layers ∨ db.AcceptedLayer scope.target root))
    ?_ ?_ ?_ ?_ hrun
  · rintro state item rest next more ⟨hwalked, hextends, hknown⟩ hturn
    obtain ⟨next', more', heq, hstep⟩ := walkLayer_ok hturn
    obtain ⟨rfl, rfl⟩ : next = next' ∧ more = more' := by simpa using heq
    rw [List.map_cons] at hwalked hknown
    obtain ⟨hnext, hlonger, hsettled⟩ := hwalked.turn hstep
    rw [List.map_append]
    refine ⟨hnext, hextends.trans hlonger, ?_⟩
    rcases hknown with hroot | hroot | hroot
    · exact .inl (hlonger.layers root hroot)
    · exact .inr (.inl hroot)
    · rcases List.mem_cons.mp hroot with rfl | hrest
      · exact hsettled.imp_right .inl
      · exact .inr (.inr (List.mem_append_left _ hrest))
  · rintro state item rest result - hturn
    obtain ⟨_, _, heq, -⟩ := walkLayer_ok hturn
    cases heq
  · rintro state ⟨hwalked, hextends, hknown⟩
    refine ⟨hwalked, hextends, ?_⟩
    simpa [Known] using hknown
  · refine ⟨?_, .refl plan, .inr (.inr (by simp))⟩
    refine ⟨h.layers, h.snapshots, ?_, h.actions, ?_⟩
    · intro layer hlayer id row hrow
      obtain ⟨hid, hinputs, hsource, hleads⟩ := h.authored layer hlayer id row hrow
      refine ⟨hid, hinputs, hsource, fun hkind => ?_⟩
      obtain ⟨target, htarget, hseen⟩ := hleads hkind
      refine ⟨target, htarget, hseen.imp_right (Or.imp_right ?_)⟩
      exact fun hnone => absurd hnone List.not_mem_nil
    · rintro layer (hlayer | hlayer)
      · exact h.reached layer (.inl hlayer)
      · obtain rfl : layer = root := by simpa using hlayer
        exact ⟨layer, horigin, .refl⟩

end GraphDatabase

end RelayerGraph
