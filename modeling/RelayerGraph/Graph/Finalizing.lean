import RelayerGraph.Graph.Publishing

/-!
# Finishing a Return

After the rows of a plan are published, a Return shows attached additions,
replaces presentations, resolves its lease and records its root action.  Of
these only the additions and the lease touch the accepted graph.
-/

namespace RelayerGraph

open Foundation Checked Worklist

namespace GraphDatabase

variable {db db' : GraphDatabase} {scope : InteractionScope} {host : Host}
variable {plan : CompletionPlan}

/-! ## Steps outside the graph -/

/-- The tables of the graph proper are the same. -/
structure SameGraph (db db' : GraphDatabase) : Prop where
  edges : db'.edges = db.edges
  layers : db'.layers = db.layers
  actions : db'.actions = db.actions

theorem SameGraph.refl (db : GraphDatabase) : db.SameGraph db :=
  ⟨rfl, rfl, rfl⟩

theorem SameGraph.trans {a b c : GraphDatabase} (hab : a.SameGraph b)
    (hbc : b.SameGraph c) : a.SameGraph c :=
  ⟨hbc.edges.trans hab.edges, hbc.layers.trans hab.layers,
    hbc.actions.trans hab.actions⟩

theorem sameGraph_updateCompletion (interaction : NodeId)
    (f : CompletionRow → CompletionRow) :
    db.SameGraph (db.updateCompletion interaction f) :=
  ⟨rfl, rfl, rfl⟩

/-- Tables outside of the graph and of the completions do not matter. -/
theorem WellFormed.congr (h : db.WellFormed) (himports : db'.imports = db.imports)
    (hnodes : db'.nodes = db.nodes) (hsame : db.SameGraph db') :
    db.Sound db' := by
  have hret : db.Retains db' :=
    { imports := himports
      nodes := hnodes ▸ .refl (fun _ => NodeRow.Retains.refl) _
      edges := hsame.edges ▸ .refl (fun _ => EdgeRow.Retains.refl) _
      layers := hsame.layers ▸ .refl (fun _ => LayerRow.Retains.refl) _
      actions := hsame.actions ▸ .refl (fun _ => ActionRow.Retains.refl) _ }
  refine ⟨hret, h.of_retains hret ?_ ?_ ?_⟩
  · rw [hnodes]
    exact fun _ _ => .inl
  · rw [hsame.layers]
    exact fun _ _ => .inl
  · rw [hsame.actions]
    exact fun _ _ => .inl

/-! ## Presentations -/

theorem WellFormed.publishPresentation (h : db.WellFormed)
    (presentation : PendingPresentation) :
    db.Sound (db.publishPresentation presentation) := by
  refine h.mapNodes fun id row hrow => ?_
  have hok := h.nodes id row hrow
  split
  · exact ⟨⟨rfl, rfl, fun _ => rfl, fun hstate => hstate, rfl⟩, hok.owner,
      hok.interaction, hok.completion⟩
  · exact ⟨.refl row, hok⟩

theorem WellFormed.publishPresentations (h : db.WellFormed)
    (presentations : List PendingPresentation) :
    db.Sound (presentations.foldl GraphDatabase.publishPresentation db) ∧
      db.SameGraph (presentations.foldl GraphDatabase.publishPresentation db) := by
  induction presentations generalizing db with
  | nil => exact ⟨h.sound, .refl db⟩
  | cons presentation rest ih =>
      have hfirst := h.publishPresentation presentation
      obtain ⟨hsound, hsame⟩ := ih hfirst.wellFormed
      refine ⟨hfirst.trans hsound, SameGraph.trans ?_ hsame⟩
      exact ⟨rfl, rfl, rfl⟩

/-- What `attached_navigation::publish` leaves: the additions are shown, and
everything else it does is outside the graph. -/
theorem publishAttached_ok (h : db.WellFormed)
    (hrun : db.publishAttached scope = .ok db') :
    db.additionCycle scope = false ∧
      ∃ shown, Grows (db.ShownAddition (db.acceptedAdditions scope.root)) db shown ∧
        shown.SameGraph db' ∧ db.Sound db' := by
  simp only [publishAttached, bind_eq_ok_iff, require_eq_ok_iff, pure_eq_ok_iff]
    at hrun
  obtain ⟨-, hcycle, rfl⟩ := hrun
  have hgrow := @grows_showAdditions db (db.acceptedAdditions scope.root)
  have hshown := h.grow hgrow fun _ _ hadded => hadded.listable h
  obtain ⟨hpresented, hsame⟩ :=
    hshown.wellFormed.publishPresentations (db.pendingPresentations scope.root)
  have hdiscarded := @WellFormed.updateCompletion_of_currentLayer _
    hpresented.wellFormed scope.root
    (fun row => { row with pendingPresentations := [] }) fun _ => rfl
  exact ⟨hcycle, _, hgrow, hsame.trans (sameGraph_updateCompletion _ _),
    (hshown.trans hpresented).trans hdiscarded⟩

/-! ## Resolving a lease -/

theorem resolvable_iff {id : ActionId} :
    db.resolvable id = true ↔ ∃ row, db.actions.get? id = some row ∧
      row.state = .accepted ∧ row.kind = .invoke ∧ row.targetLayer = none := by
  simp [resolvable, Option.any_eq_true]

/-- An unresolved invoke which receives a target, and with it another kind and
relation, or none. -/
theorem WellFormed.resolve (h : db.WellFormed) {id : ActionId} {row : ActionRow}
    {f : ActionRow → ActionRow} (hrow : db.actions.get? id = some row)
    (hstate : row.state = .accepted) (hkind : row.kind = .invoke)
    (hscope : (f row).toRowScope = row.toRowScope)
    (howner : (f row).owner = row.owner) (horigin : (f row).origin = row.origin)
    (hinputs : (f row).inputs = row.inputs)
    (haccepted : (f row).state = .accepted)
    (hleads : (f row).kind = .navigate → (f row).relation.isSome ∧
      ∃ layer, (f row).targetLayer = some layer ∧
        db.AcceptedLayer row.target layer) :
    db.Sound (db.updateAction id f) := by
  refine h.updateAction fun stored hstored => ?_
  obtain rfl : row = stored := by simpa [hrow] using hstored
  have hok := h.actions id row hrow
  have hnotNavigate : row.kind ≠ .navigate := by simp [hkind]
  have hunattached : row.attached = false := by
    by_contra hattached
    exact hnotNavigate (hok.authored.attached (by simpa using hattached)).1
  have htarget : (f row).target = row.target := by rw [hscope]
  simp only [ActionRow.origin, Prod.mk.injEq] at horigin
  obtain ⟨hsource, hlayer, hattached⟩ := horigin
  refine ⟨⟨hscope, howner, fun _ => haccepted, fun _ => ?_,
    fun _ hnavigate => absurd hnavigate hnotNavigate, fun _ => hinputs⟩, ?_⟩
  · simp [ActionRow.origin, hsource, hlayer, hattached]
  · refine ⟨?_, ?_, by simp [haccepted], ?_, ?_, ?_⟩
    · rw [htarget, howner]
      exact hok.owner
    · rw [htarget, hsource]
      exact hok.source
    · intro hnavigate
      obtain ⟨hrelation, layer, hlayer, -⟩ := hleads hnavigate
      exact ⟨hrelation, by simp [hlayer]⟩
    · refine ⟨?_, ?_, ?_⟩
      · intro hmarked
        rw [hattached, hunattached] at hmarked
        cases hmarked
      · intro _ hnone
        rw [hlayer] at hnone
        exact absurd (hok.authored.root hunattached hnone).2.1 hnotNavigate
      · intro _ source hfrom
        rw [hlayer] at hfrom
        obtain ⟨hne, hstored, hlayerAccepted⟩ :=
          hok.authored.fromLayer hunattached source hfrom
        rw [htarget, hsource, howner]
        exact ⟨hne, hstored, fun _ => hlayerAccepted hstate⟩
    · intro _ hnavigate
      rw [htarget]
      exact (hleads hnavigate).2

/-- The layers which a typed resolution adds its action to. -/
def ShownResolution (db : GraphDatabase) (id : ActionId) (layer : LayerId)
    (action : ActionId) : Prop :=
  action = id ∧ ∃ row stored, db.layers.get? layer = some row ∧
    row.state = .accepted ∧ db.actions.get? id = some stored ∧
    stored.source ∈ row.nodes ∧ row.target = stored.target

/-- How a typed resolution rewrites its invoke. -/
def resolvedRow (interaction : NodeId) (target : LayerId) (row : ActionRow) :
    ActionRow :=
  { row with
    kind := .navigate
    relation := some .expand
    interactionText := none
    targetLayer := some target
    resolution := some (interaction, target) }

theorem resolveTyped_ok {id : ActionId} {target : LayerId} {interaction : NodeId}
    (hrun : db.resolveTyped id target interaction = .ok db') :
    db.resolutionCycle id target = false ∧ db.resolvable id = true ∧
      Grows ((db.updateAction id (resolvedRow interaction target)).ShownResolution
        id) (db.updateAction id (resolvedRow interaction target)) db' := by
  simp only [resolveTyped, bind_eq_ok_iff, require_eq_ok_iff, pure_eq_ok_iff]
    at hrun
  obtain ⟨-, hcycle, -, hresolvable, heq⟩ := hrun
  refine ⟨hcycle, hresolvable, ?_⟩
  rw [show (db.updateAction id fun row =>
    { row with
      kind := .navigate
      relation := some .expand
      interactionText := none
      targetLayer := some target
      resolution := some (interaction, target) }) =
    db.updateAction id (resolvedRow interaction target) from rfl] at heq
  split at heq
  · exact heq ▸ .refl _
  · rename_i action haction
    rw [← heq]
    refine (grows_appendToLayers id _).mono ?_
    rintro layer other ⟨rfl, row, hrow, hselected⟩
    obtain ⟨hsource, hstate, hsame, -⟩ := of_decide_eq_true hselected
    exact ⟨rfl, row, action, hrow, hstate, haction, hsource, hsame⟩

/-- How an untyped resolution rewrites its invoke. -/
def targetedRow (target : LayerId) (row : ActionRow) : ActionRow :=
  { row with targetLayer := some target }

/-- The three ways of resolving the lease of a plan. -/
inductive LeaseResolved (db : GraphDatabase) (scope : InteractionScope)
    (plan : CompletionPlan) (db' : GraphDatabase) : Prop
  | unleased (same : db' = db)
  | untyped (lease : InteractionLease) (held : plan.lease = some lease)
      (resolvable : db.resolvable lease.actionId = true)
      (updated : db' =
        db.updateAction lease.actionId (targetedRow plan.rootLayer))
  | typed (lease : InteractionLease) (held : plan.lease = some lease)
      (resolved : db.resolveTyped lease.actionId plan.rootLayer scope.root =
        .ok db')

theorem resolveLease_ok (hrun : db.resolveLease scope host plan = .ok db') :
    LeaseResolved db scope plan db' := by
  rw [resolveLease] at hrun
  split at hrun
  · exact .unleased (Except.ok.inj hrun).symm
  · rename_i lease hlease
    split at hrun
    · simp only [bind_eq_ok_iff] at hrun
      obtain ⟨-, -, hresolve⟩ := hrun
      exact .typed lease hlease hresolve
    · simp only [resolveUntyped, bind_eq_ok_iff, require_eq_ok_iff,
        pure_eq_ok_iff] at hrun
      obtain ⟨-, hresolvable, rfl⟩ := hrun
      exact .untyped lease hlease hresolvable rfl

theorem LeasePlanned.mono (hret : db.Retains db')
    (h : LeasePlanned db scope plan) : LeasePlanned db' scope plan := by
  intro held hheld
  obtain ⟨row, hrow, hin⟩ := h held hheld
  obtain ⟨row', hrow', hkeep⟩ := hret.actions _ row hrow
  refine ⟨row', hrow', inScope_iff.mpr ?_⟩
  rw [hkeep.scope]
  exact inScope_iff.mp hin

theorem LeasePlanned.target (h : LeasePlanned db scope plan)
    {lease : InteractionLease} (hheld : plan.lease = some lease)
    {row : ActionRow} (hrow : db.actions.get? lease.actionId = some row) :
    row.target = scope.target := by
  obtain ⟨stored, hstored, hin⟩ := h lease hheld
  obtain rfl : row = stored := by simpa [hrow] using hstored
  exact inScope_iff.mp hin

/-- A converted invoke is well formed once its target is accepted. -/
theorem WellFormed.convert (h : db.WellFormed) {id : ActionId}
    {interaction : NodeId} {target : LayerId}
    (hresolvable : db.resolvable id = true)
    (htarget : ∀ row, db.actions.get? id = some row →
      db.AcceptedLayer row.target target) :
    db.Sound (db.updateAction id (resolvedRow interaction target)) := by
  obtain ⟨row, hrow, hstate, hkind, -⟩ := resolvable_iff.mp hresolvable
  exact h.resolve hrow hstate hkind rfl rfl rfl rfl hstate fun _ =>
    ⟨rfl, target, rfl, htarget row hrow⟩

theorem ShownResolution.listable {id : ActionId}
    (haccepted : ∀ row, db.actions.get? id = some row → row.state = .accepted)
    {layer : LayerId} {action : ActionId}
    (hshown : db.ShownResolution id layer action) : db.Listable layer action := by
  obtain ⟨rfl, row, stored, hrow, hstate, hstored, hsource, hsame⟩ := hshown
  exact ⟨row, stored, hrow, hstate, hstored, haccepted stored hstored, hsame.symm,
    hsource⟩

theorem updateAction_get? {id : ActionId} {f : ActionRow → ActionRow}
    {row : ActionRow} (hrow : (db.updateAction id f).actions.get? id = some row) :
    ∃ stored, db.actions.get? id = some stored ∧ row = f stored := by
  simp only [updateAction, Table.get?_mapRows, Option.map_eq_some_iff,
    if_true] at hrow
  obtain ⟨stored, hstored, rfl⟩ := hrow
  exact ⟨stored, hstored, rfl⟩

theorem WellFormed.resolveLease (h : db.WellFormed)
    (hlease : LeasePlanned db scope plan)
    (hroot : db.AcceptedLayer scope.target plan.rootLayer)
    (hresolved : LeaseResolved db scope plan db') : db.Sound db' := by
  cases hresolved with
  | unleased hsame => exact hsame ▸ h.sound
  | untyped lease hheld hresolvable hupdated =>
      obtain ⟨row, hrow, hstate, hkind, -⟩ := resolvable_iff.mp hresolvable
      rw [hupdated]
      refine h.resolve hrow hstate hkind rfl rfl rfl rfl hstate fun hnavigate => ?_
      exact absurd (hkind.symm.trans hnavigate) (by simp)
  | typed lease hheld hrun =>
      obtain ⟨-, hresolvable, hgrow⟩ := resolveTyped_ok hrun
      have hconverted := @WellFormed.convert _ h _ scope.root
        plan.rootLayer hresolvable fun row hrow => by
          rw [hlease.target hheld hrow]
          exact hroot
      refine hconverted.trans (hconverted.wellFormed.grow hgrow fun layer id => ?_)
      refine ShownResolution.listable fun row hrow => ?_
      obtain ⟨stored, hstored, rfl⟩ := updateAction_get? hrow
      obtain ⟨found, hfound, hstate, -⟩ := resolvable_iff.mp hresolvable
      obtain rfl : stored = found := by simpa [hstored] using hfound
      exact hstate

/-- The `completions` row of an interaction that returns. -/
def returnedRow (rootAction : ActionId) (row : CompletionRow) : CompletionRow :=
  { row with rootAction := some rootAction }

/-- The stages of `accept::finalize`. -/
theorem finalize_stages (hrun : db.finalize scope host plan = .ok db') :
    ∃ attached resolved root, db.publishAttached scope = .ok attached ∧
      LeaseResolved attached scope plan resolved ∧
      plan.rootAction = some root ∧
      (∃ row, resolved.completion? scope.root = some row ∧
        row.rootAction = none) ∧
      db' = resolved.updateCompletion scope.root (returnedRow root.id) := by
  simp only [finalize, bind_eq_ok_iff, insertCompletion, completionState,
    require_eq_ok_iff, orThrow_eq_ok_iff, pure_eq_ok_iff] at hrun
  obtain ⟨attached, hattached, resolved, hresolve, root, hroot, row, hrow, -, hnew,
    rfl⟩ := hrun
  exact ⟨attached, resolved, root, hattached, resolveLease_ok hresolve, hroot,
    ⟨row, hrow, hnew⟩, rfl⟩

/-- Every stage of `accept::finalize` is sound. -/
theorem finalize_ok (h : db.WellFormed) (hlease : LeasePlanned db scope plan)
    (hroot : db.AcceptedLayer scope.target plan.rootLayer)
    (hrun : db.finalize scope host plan = .ok db') :
    ∃ attached resolved, db.publishAttached scope = .ok attached ∧
      db.Sound attached ∧ LeaseResolved attached scope plan resolved ∧
      attached.Sound resolved ∧ resolved.SameGraph db' ∧ resolved.Sound db' := by
  obtain ⟨attached, resolved, root, hattached, hresolved, -, -, rfl⟩ :=
    finalize_stages hrun
  obtain ⟨-, -, -, -, hsound⟩ := publishAttached_ok h hattached
  have hnext := hsound.wellFormed.resolveLease (hlease.mono hsound.retains)
    (hsound.retains.acceptedLayer hroot) hresolved
  exact ⟨attached, resolved, hattached, hsound, hresolved, hnext,
    sameGraph_updateCompletion _ _,
    hnext.wellFormed.updateCompletion_of_currentLayer fun _ => rfl⟩

end GraphDatabase

end RelayerGraph
