import RelayerGraph.Graph.Walk

/-!
# What a plan guarantees

The two publishing transitions publish a plan that was walked from its root
layer and, for Return, from the targets of the attached additions.  What the
later proofs use of a plan is collected in two structures, one for the part
that Advance publishes and one for a whole Return.
-/

namespace RelayerGraph

open Foundation Checked Worklist Relation

namespace GraphDatabase

variable {db : GraphDatabase} {scope : InteractionScope} {host : Host}
variable {origin : LayerId → Prop} {given : ActionId → Prop}

/-! ## Completeness of a finished walk -/

/-- A finished walk has everything that authored navigation reaches. -/
theorem Walked.mem_of_reached {plan : CompletionPlan}
    (h : Walked db scope origin given plan []) {start layer : LayerId}
    (hstart : start ∈ plan.layers ∨ db.AcceptedLayer scope.target start)
    (hpath : ReflTransGen (db.DraftArc scope) start layer) :
    layer ∈ plan.layers ∨ db.AcceptedLayer scope.target layer := by
  induction hpath with
  | refl => exact hstart
  | @tail middle next _ harc ih =>
      obtain ⟨⟨stored, hstored, hdraft⟩, id, row, hauthored, hkind, htarget⟩ := harc
      rcases ih with hmiddle | ⟨row', hrow', -, haccepted⟩
      · obtain ⟨-, -, -, hleads⟩ := h.authored middle hmiddle id row hauthored
        obtain ⟨target, heq, hknown⟩ := hleads hkind
        obtain rfl : target = next := by simpa [heq] using htarget
        simpa [Known] using hknown
      · rw [hstored, Option.some.injEq] at hrow'
        rw [← hrow', hdraft] at haccepted
        cases haccepted

/-- A draft layer which authored navigation reaches is in the plan. -/
theorem Walked.mem_of_reached_draft {plan : CompletionPlan}
    (h : Walked db scope origin given plan []) {start layer : LayerId}
    (hstart : start ∈ plan.layers ∨ db.AcceptedLayer scope.target start)
    (hpath : ReflTransGen (db.DraftArc scope) start layer) {row : LayerRow}
    (hrow : db.layers.get? layer = some row) (hdraft : row.state = .draft) :
    layer ∈ plan.layers := by
  rcases h.mem_of_reached hstart hpath with hmem | ⟨row', hrow', -, haccepted⟩
  · exact hmem
  · rw [hrow, Option.some.injEq] at hrow'
    rw [← hrow', hdraft] at haccepted
    cases haccepted

theorem walked_empty (root : LayerId) :
    Walked db scope origin given (.empty root) [] := by
  constructor <;> simp [CompletionPlan.empty]

/-- One more action joins the plan. -/
theorem Walked.insertAction {plan plan' : CompletionPlan} {id : ActionId}
    (h : Walked db scope origin given plan []) (hid : given id)
    (hcontent : plan'.content = plan.content)
    (hactions : ∀ other, other ∈ plan'.actions ↔ other = id ∨ other ∈ plan.actions) :
    Walked db scope origin given plan' [] := by
  simp only [CompletionPlan.content, Prod.mk.injEq] at hcontent
  obtain ⟨-, -, -, hnodes, hedges, hlayers, hsnapshots⟩ := hcontent
  constructor
  · rw [hlayers, hsnapshots, hnodes, hedges]
    exact h.layers
  · rw [hlayers, hsnapshots]
    exact h.snapshots
  · intro layer hlayer other row hrow
    rw [hlayers] at hlayer
    obtain ⟨hmem, hrest⟩ := h.authored layer hlayer other row hrow
    simp only [Known, hlayers]
    exact ⟨(hactions other).mpr (.inr hmem), hrest⟩
  · intro other hother
    rw [hlayers]
    rcases (hactions other).mp hother with rfl | hold
    · exact .inl hid
    · exact h.actions other hold
  · rw [hlayers]
    exact h.reached

/-! ## Attached additions -/

/-- An addition leads to a layer of the plan or to an accepted layer. -/
def AdditionPlanned (db : GraphDatabase) (scope : InteractionScope)
    (plan : CompletionPlan) (id : ActionId) : Prop :=
  id ∈ plan.actions ∧ ∃ row target, db.actions.get? id = some row ∧
    row.targetLayer = some target ∧
    (target ∈ plan.layers ∨ db.AcceptedLayer scope.target target)

theorem AdditionPlanned.mono {plan plan' : CompletionPlan} {id : ActionId}
    (h : AdditionPlanned db scope plan id) (hlonger : plan.Extends plan') :
    AdditionPlanned db scope plan' id := by
  obtain ⟨hid, row, target, hrow, htarget, hmem⟩ := h
  exact ⟨hlonger.actions id hid, row, target, hrow, htarget,
    hmem.imp_left (hlonger.layers target)⟩

theorem collectAddition_ok {plan plan' : CompletionPlan}
    {missing missing' : List NodeId} {id : ActionId}
    (h : Walked db scope origin given plan [])
    (hroot : plan.rootLayer ∈ plan.layers ∨
      db.AcceptedLayer scope.target plan.rootLayer)
    (hgiven : given id)
    (horigin : ∀ row target, db.actions.get? id = some row →
      row.targetLayer = some target → origin target)
    (hrun : db.collectAddition scope host (plan, missing) id =
      .ok (plan', missing')) :
    Walked db scope origin given plan' [] ∧ plan.Extends plan' ∧
      AdditionPlanned db scope plan' id := by
  simp only [collectAddition, bind_eq_ok_iff, orThrow_eq_ok_iff] at hrun
  obtain ⟨action, haction, -, -, target, htarget, layer, hlayer, relation, -,
    hrun⟩ := hrun
  obtain ⟨row, hrow, -, rfl⟩ := action_eq_some_iff.mp haction
  split at hrun
  · rename_i hbacklink
    simp only [pure_eq_ok_iff, Prod.mk.injEq] at hrun
    obtain ⟨rfl, -⟩ := hrun
    obtain ⟨rfl, -⟩ := hbacklink
    refine ⟨h.insertAction hgiven rfl fun _ => List.mem_insert_iff,
      ⟨rfl, rfl, rfl, fun _ hid => List.mem_insert_of_mem hid, fun _ hmem => hmem⟩,
      List.mem_insert_self, row, _, hrow, htarget, hroot⟩
  · simp only [bind_eq_ok_iff, pure_eq_ok_iff, Prod.mk.injEq] at hrun
    obtain ⟨registered, hregister, walked, hwalk, rfl, -⟩ := hrun
    obtain ⟨hcontent, hactions⟩ := CompletionPlan.registerArrival_ok hregister
    have hregistered := h.congr hcontent hactions
    have hsame := CompletionPlan.Extends.of_content hcontent hactions
    have hwalked : Walked db scope origin given walked [] ∧
        registered.Extends walked ∧
        (target ∈ walked.layers ∨ db.AcceptedLayer scope.target target) := by
      split at hwalk
      · exact hregistered.walkLayers (horigin row target hrow htarget) hwalk
      · rename_i haccepted
        obtain rfl := Except.ok.inj hwalk
        obtain ⟨hstored, hin, -⟩ := visibleLayer_eq_ok hlayer
        exact ⟨hregistered, .refl _, .inr ⟨layer, hstored, inScope_iff.mp hin,
          not_not.mp haccepted⟩⟩
    obtain ⟨hfinal, hlonger, hsettled⟩ := hwalked
    refine ⟨hfinal.insertAction hgiven rfl fun _ => List.mem_insert_iff,
      (hsame.trans hlonger).trans
        ⟨rfl, rfl, rfl, fun _ hid => List.mem_insert_of_mem hid, fun _ hmem => hmem⟩,
      List.mem_insert_self, row, target, hrow, htarget, hsettled⟩

theorem collectAttached_ok {plan plan' : CompletionPlan}
    (h : Walked db scope origin given plan [])
    (hroot : plan.rootLayer ∈ plan.layers ∨
      db.AcceptedLayer scope.target plan.rootLayer)
    (hgiven : ∀ id ∈ db.draftAdditions scope.root, given id)
    (horigin : ∀ id ∈ db.draftAdditions scope.root, ∀ row target,
      db.actions.get? id = some row → row.targetLayer = some target →
        origin target)
    (hrun : db.collectAttached scope host plan = .ok plan') :
    Walked db scope origin given plan' [] ∧ plan.Extends plan' ∧
      ∀ id ∈ db.draftAdditions scope.root, AdditionPlanned db scope plan' id := by
  simp only [collectAttached, bind_eq_ok_iff, pure_eq_ok_iff] at hrun
  obtain ⟨row, -, -, -, ⟨collected, missing⟩, hcollect, -, -, -, -, rfl⟩ := hrun
  refine foldlM_induction
    (P := fun (collected : CompletionPlan × List NodeId) done =>
      Walked db scope origin given collected.1 [] ∧
        plan.Extends collected.1 ∧
        ∀ id ∈ done, AdditionPlanned db scope collected.1 id)
    ?_ ?_ hcollect
  · rintro ⟨state, missing⟩ done id ⟨next, missing'⟩ hid
      ⟨hwalked, hlonger, hplanned⟩ hstep
    have hstateRoot : state.rootLayer ∈ state.layers ∨
        db.AcceptedLayer scope.target state.rootLayer := by
      rw [hlonger.rootLayer]
      exact hroot.imp_left (hlonger.layers _)
    obtain ⟨hnext, hlonger', hplanned'⟩ :=
      collectAddition_ok hwalked hstateRoot (hgiven id hid) (horigin id hid) hstep
    refine ⟨hnext, hlonger.trans hlonger', ?_⟩
    intro other hother
    rcases List.mem_append.mp hother with hother | hother
    · exact (hplanned other hother).mono hlonger'
    · rw [List.mem_singleton.mp hother]
      exact hplanned'
  · exact ⟨h, .refl plan, by simp⟩

/-- A plan with the attached additions was validated with what is staged. -/
theorem collectAttached_valid {plan plan' : CompletionPlan}
    (hrun : db.collectAttached scope host plan = .ok plan') :
    db.validateAttached scope host = .ok () := by
  simp only [collectAttached, bind_eq_ok_iff, pure_eq_ok_iff] at hrun
  obtain ⟨row, -, -, -, collected, -, -, -, ⟨⟩, hvalid, -⟩ := hrun
  exact hvalid

/-- Every staged presentation was made for the revision its node has. -/
theorem validateAttached_ok {done : Unit}
    (hrun : db.validateAttached scope host = .ok done) :
    ∀ p ∈ db.pendingPresentations scope.root,
      ((db.nodes.get? p.node).map (·.presentationRevision)).getD 0 =
        p.expectedRevision := by
  simp only [validateAttached, bind_eq_ok_iff, forM_eq_ok_iff] at hrun
  obtain ⟨-, -, hpending⟩ := hrun
  intro p hp
  obtain ⟨-, -, ⟨⟩, hrevision, -⟩ := hpending p hp
  exact require_eq_ok_iff.mp hrevision

/-! ## Checks of a whole plan -/

theorem acyclic_of_validateExpandAcyclic {plan : CompletionPlan} {done : Unit}
    (hrun : db.validateExpandAcyclic scope plan = .ok done) :
    Digraph.Acyclic fun a b => b ∈ db.authoredExpansions scope plan a := by
  refine @Digraph.acyclic_of_findCycle _ _ _ plan.layers ?_ ?_
  · intro a b hb
    by_contra ha
    rw [authoredExpansions, if_neg ha] at hb
    cases hb
  · rw [validateExpandAcyclic] at hrun
    split at hrun
    · assumption
    · cases hrun

theorem validateNoOrphanLayers_ok {plan : CompletionPlan} {done : Unit}
    (hrun : db.validateNoOrphanLayers scope plan = .ok done) :
    ∀ layer ∈ db.draftLayers scope.root, layer ∈ plan.layers := by
  simp only [validateNoOrphanLayers, require_eq_ok_iff, List.filter_eq_nil_iff]
    at hrun
  intro layer hlayer
  simpa using hrun layer hlayer

/-- The row of the root action of a Return. -/
structure RootAction (db : GraphDatabase) (scope : InteractionScope)
    (id : ActionId) (row : ActionRow) (target : LayerId) : Prop where
  stored : db.actions.get? id = some row
  inScope : InScope scope row.toRowScope
  owner : row.owner = scope.root
  source : row.source = scope.root
  kind : row.kind = .navigate
  relation : row.relation = some .expand
  sourceLayer : row.sourceLayer = none
  targetLayer : row.targetLayer = some target

theorem singleRootAction_ok {message : ℕ → String} {action : GraphAction}
    (hrun : db.singleRootAction scope message = .ok action) :
    ∃ id row, db.actionRecord id row = action ∧ db.actions.get? id = some row ∧
      InScope scope row.toRowScope ∧ row.owner = scope.root ∧
      row.source = scope.root := by
  rw [singleRootAction] at hrun
  split at hrun
  · rename_i found hfound
    obtain rfl := Except.ok.inj hrun
    have hmem : found ∈ db.ownedActionsOfSource scope scope.root scope.root := by
      rw [hfound]
      exact List.mem_cons_self
    obtain ⟨id, row, hrow, hp, rfl⟩ := mem_actionsWhere.mp hmem
    obtain ⟨hsource, howner, hin⟩ := of_decide_eq_true hp
    exact ⟨id, row, rfl, hrow, hin, howner, hsource⟩
  · cases hrun

theorem interactionLease_ok {interaction : NodeId}
    {lease : Option InteractionLease}
    (hrun : db.interactionLease interaction = .ok lease) :
    ∃ node, db.nodes.get? interaction = some node ∧ node.lease = lease := by
  rw [interactionLease] at hrun
  split at hrun
  · rename_i node hnode
    split at hrun
    · exact ⟨node, hnode, Except.ok.inj hrun⟩
    · cases hrun
  · cases hrun

theorem planLease_ok {lease : Option InteractionLease}
    (hrun : db.planLease scope = .ok lease) :
    ∀ held, lease = some held →
      (∃ node, db.nodes.get? scope.root = some node ∧ node.lease = some held) ∧
      ∃ row, db.actions.get? held.actionId = some row ∧
        InScope scope row.toRowScope := by
  simp only [planLease, bind_eq_ok_iff, pure_eq_ok_iff, forSome_eq_ok_iff] at hrun
  obtain ⟨found, hfound, -, hvalid, rfl⟩ := hrun
  intro held hheld
  refine ⟨hheld ▸ interactionLease_ok hfound, ?_⟩
  have hchecked := hvalid held hheld
  simp only [validateUnresolvedLease, bind_eq_ok_iff, orThrow_eq_ok_iff] at hchecked
  obtain ⟨-, -, -, -, action, haction, -⟩ := hchecked
  obtain ⟨row, hrow, hin, -⟩ := action_eq_some_iff.mp haction
  exact ⟨row, hrow, hin⟩

/-! ## The plans of the two publishing transitions -/

/-- Walks start at the root layer and at the targets of draft additions. -/
def ReturnOrigin (db : GraphDatabase) (scope : InteractionScope)
    (rootLayer layer : LayerId) : Prop :=
  layer = rootLayer ∨ ∃ id ∈ db.draftAdditions scope.root, ∃ row,
    db.actions.get? id = some row ∧ row.targetLayer = some layer

/-- Outside the walks, the root action and the draft additions join a plan. -/
def ReturnGiven (db : GraphDatabase) (scope : InteractionScope)
    (rootAction id : ActionId) : Prop :=
  id = rootAction ∨ id ∈ db.draftAdditions scope.root

/-- The plan of a Return. -/
structure ReturnPlan (db : GraphDatabase) (scope : InteractionScope)
    (plan : CompletionPlan) (rootId : ActionId) (rootRow : ActionRow) :
    Prop where
  walked : Walked db scope (ReturnOrigin db scope plan.rootLayer)
    (ReturnGiven db scope rootId) plan []
  root : plan.rootLayer ∈ plan.layers ∨
    db.AcceptedLayer scope.target plan.rootLayer
  rootAction : plan.rootAction = some (db.actionRecord rootId rootRow)
  rootRow : RootAction db scope rootId rootRow plan.rootLayer
  rootPlanned : rootId ∈ plan.actions
  additions : ∀ id ∈ db.draftAdditions scope.root,
    AdditionPlanned db scope plan id
  acyclic : Digraph.Acyclic fun a b => b ∈ db.authoredExpansions scope plan a
  complete : ∀ layer ∈ db.draftLayers scope.root, layer ∈ plan.layers

/-- The action which a plan would resolve is an action of the scope. -/
def LeasePlanned (db : GraphDatabase) (scope : InteractionScope)
    (plan : CompletionPlan) : Prop :=
  ∀ held, plan.lease = some held → ∃ row,
    db.actions.get? held.actionId = some row ∧ InScope scope row.toRowScope

/-- The lease of a plan is the lease of its interaction. -/
def LeaseHeld (db : GraphDatabase) (scope : InteractionScope)
    (plan : CompletionPlan) : Prop :=
  ∀ held, plan.lease = some held →
    ∃ node, db.nodes.get? scope.root = some node ∧ node.lease = some held

/-- The part of a plan which Advance publishes. -/
structure AdvancePlan (db : GraphDatabase) (scope : InteractionScope)
    (plan : CompletionPlan) : Prop where
  walked : Walked db scope (fun layer => layer = plan.rootLayer)
    (fun _ => False) plan []
  root : plan.rootLayer ∈ plan.layers ∨
    db.AcceptedLayer scope.target plan.rootLayer
  acyclic : Digraph.Acyclic fun a b => b ∈ db.authoredExpansions scope plan a
  prospective : ∃ whole rootId rootRow,
    ReturnPlan db scope whole rootId rootRow ∧ whole.rootLayer = plan.rootLayer

/-- Attached additions join a plan whose root is settled. -/
theorem returnPlan_of_collectAttached {plan collected : CompletionPlan}
    {rootId : ActionId} {rootRow : ActionRow}
    (hwalked : Walked db scope (ReturnOrigin db scope plan.rootLayer)
      (ReturnGiven db scope rootId) plan [])
    (hroot : plan.rootLayer ∈ plan.layers ∨
      db.AcceptedLayer scope.target plan.rootLayer)
    (hrootAction : plan.rootAction = some (db.actionRecord rootId rootRow))
    (hrootRow : RootAction db scope rootId rootRow plan.rootLayer)
    (hrootPlanned : rootId ∈ plan.actions)
    (hcollect : db.collectAttached scope host plan = .ok collected)
    (hacyclic : db.validateExpandAcyclic scope collected = .ok ())
    (hcomplete : db.validateNoOrphanLayers scope collected = .ok ()) :
    ReturnPlan db scope collected rootId rootRow ∧ plan.Extends collected := by
  obtain ⟨hfinal, hlonger, hadditions⟩ := collectAttached_ok hwalked hroot
    (fun _ hid => .inr hid)
    (fun id hid row target hrow htarget => .inr ⟨id, hid, row, hrow, htarget⟩)
    hcollect
  rw [← hlonger.rootLayer] at hfinal hroot hrootRow
  exact ⟨⟨hfinal, hroot.imp_left (hlonger.layers _),
    hlonger.rootAction.trans hrootAction, hrootRow,
    hlonger.actions rootId hrootPlanned, hadditions,
    acyclic_of_validateExpandAcyclic hacyclic,
    validateNoOrphanLayers_ok hcomplete⟩, hlonger⟩

/-- A plan with nothing but its root action. -/
theorem walked_rootAction {rootLayer : LayerId} {rootId : ActionId}
    {plan : CompletionPlan}
    (hcontent : plan.layers = [] ∧ plan.layerActions = [])
    (hactions : plan.actions = [rootId]) :
    Walked db scope (ReturnOrigin db scope rootLayer)
      (ReturnGiven db scope rootId) plan [] := by
  constructor <;> simp [hcontent, hactions, ReturnGiven]

/-- The lease of a plan plays no part in what it publishes. -/
theorem ReturnPlan.withLease {plan : CompletionPlan} {rootId : ActionId}
    {rootRow : ActionRow} (h : ReturnPlan db scope plan rootId rootRow)
    (lease : Option InteractionLease) :
    ReturnPlan db scope { plan with lease } rootId rootRow where
  walked := ⟨h.walked.layers, h.walked.snapshots, h.walked.authored,
    h.walked.actions, h.walked.reached⟩
  root := h.root
  rootAction := h.rootAction
  rootRow := h.rootRow
  rootPlanned := h.rootPlanned
  additions := h.additions
  acyclic := h.acyclic
  complete := h.complete

theorem buildPlan_ok {plan : CompletionPlan}
    (hrun : db.buildPlan scope host = .ok plan) :
    (∃ rootId rootRow, ReturnPlan db scope plan rootId rootRow) ∧
      LeasePlanned db scope plan ∧ LeaseHeld db scope plan ∧
      db.validateAttached scope host = .ok () := by
  simp only [buildPlan, bind_eq_ok_iff, require_eq_ok_iff, orThrow_eq_ok_iff,
    pure_eq_ok_iff] at hrun
  obtain ⟨action, haction, -, hvalid, target, htarget, walked, hwalk, collected,
    hcollect, ⟨⟩, hacyclic, ⟨⟩, hcomplete, -, -, lease, hlease, rfl⟩ := hrun
  obtain ⟨rootId, rootRow, rfl, hrow, hin, howner, hsource⟩ :=
    singleRootAction_ok haction
  have hrootRow : RootAction db scope rootId rootRow target :=
    ⟨hrow, hin, howner, hsource, hvalid.1, hvalid.2.1, hvalid.2.2, htarget⟩
  obtain ⟨hwalked, hlonger, hroot⟩ :=
    (@walked_rootAction _ _ target _ _ ⟨rfl, rfl⟩ rfl).walkLayers
      (.inl rfl) hwalk
  have hsameRoot : walked.rootLayer = target := hlonger.rootLayer
  rw [← hsameRoot] at hwalked hroot hrootRow
  obtain ⟨hplan, -⟩ := returnPlan_of_collectAttached hwalked hroot
    hlonger.rootAction
    hrootRow (hlonger.actions rootId List.mem_cons_self) hcollect hacyclic
    hcomplete
  exact ⟨⟨rootId, rootRow, hplan.withLease lease⟩,
    fun held hheld => (planLease_ok hlease held hheld).2,
    fun held hheld => (planLease_ok hlease held hheld).1,
    collectAttached_valid hcollect⟩

theorem buildCurrentPlan_ok {plan : CompletionPlan} {rootLayer : LayerId}
    (hrun : db.buildCurrentPlan scope host rootLayer = .ok plan) :
    plan.rootLayer = rootLayer ∧ AdvancePlan db scope plan := by
  simp only [buildCurrentPlan, bind_eq_ok_iff, require_eq_ok_iff,
    pure_eq_ok_iff] at hrun
  obtain ⟨walked, hwalk, whole, hbuild, -, hsame, ⟨⟩, hacyclic, -, -, rfl⟩ := hrun
  obtain ⟨hwalked, hlonger, hroot⟩ :=
    (@walked_empty _ _ (fun layer => layer = rootLayer)
      (fun _ => False) rootLayer).walkLayers rfl hwalk
  have hrootLayer : walked.rootLayer = rootLayer := hlonger.rootLayer
  rw [← hrootLayer] at hwalked hroot hsame
  obtain ⟨⟨rootId, rootRow, hwhole⟩, -⟩ := buildPlan_ok hbuild
  exact ⟨hrootLayer, hwalked, hroot, acyclic_of_validateExpandAcyclic hacyclic,
    whole, rootId, rootRow, hwhole, hsame⟩

theorem buildReturnPlan_ok {plan : CompletionPlan} {returned : LayerId}
    {current : Option LayerId}
    (hrun : db.buildReturnPlan scope host returned current = .ok plan) :
    plan.rootLayer = returned ∧
      (∃ rootId rootRow, ReturnPlan db scope plan rootId rootRow) ∧
      LeasePlanned db scope plan ∧ LeaseHeld db scope plan ∧
      db.validateAttached scope host = .ok () := by
  simp only [buildReturnPlan, bind_eq_ok_iff, orThrow_eq_ok_iff] at hrun
  obtain ⟨found, hfound, row, hsome, hrun⟩ := hrun
  rw [hsome] at hfound
  obtain ⟨hrow, hin⟩ := layerRecord_eq_some hfound
  split at hrun
  · simp only [bind_eq_ok_iff, require_eq_ok_iff, pure_eq_ok_iff] at hrun
    obtain ⟨built, hbuild, -, hroot, rfl⟩ := hrun
    exact ⟨hroot, buildPlan_ok hbuild⟩
  · rename_i haccepted
    simp only [bind_eq_ok_iff, require_eq_ok_iff, pure_eq_ok_iff] at hrun
    obtain ⟨-, -, action, haction, -, hvalid, lease, hlease, collected, hcollect,
      ⟨⟩, hacyclic, -, -, ⟨⟩, hcomplete, rfl⟩ := hrun
    obtain ⟨rootId, rootRow, rfl, hstored, hscope, howner, hsource⟩ :=
      singleRootAction_ok haction
    have hrootRow : RootAction db scope rootId rootRow returned :=
      ⟨hstored, hscope, howner, hsource, hvalid.1, hvalid.2.1, hvalid.2.2.1,
        hvalid.2.2.2⟩
    have hroot : db.AcceptedLayer scope.target returned :=
      ⟨row, hrow, inScope_iff.mp hin, not_not.mp haccepted⟩
    obtain ⟨hplan, hlonger⟩ := returnPlan_of_collectAttached
      (@walked_rootAction _ _ returned _ _ ⟨rfl, rfl⟩ rfl) (.inr hroot) rfl
      hrootRow List.mem_cons_self hcollect hacyclic hcomplete
    refine ⟨hlonger.rootLayer, ⟨rootId, rootRow, hplan⟩, ?_⟩
    rw [LeasePlanned, LeaseHeld, hlonger.lease]
    exact ⟨fun held hheld => (planLease_ok hlease held hheld).2,
      fun held hheld => (planLease_ok hlease held hheld).1,
      collectAttached_valid hcollect⟩

end GraphDatabase

end RelayerGraph
