import RelayerGraph.Graph.Transitions

/-!
# Reachable databases are well formed

Every operation is sound: it retains what was said and leaves a well-formed
database.  By induction, every database a run reaches is well formed.
-/

namespace RelayerGraph

open Foundation Checked Worklist

namespace GraphDatabase

variable {db db' : GraphDatabase} {scope : InteractionScope} {host : Host}
variable {expectedRevision revision : ℕ} {operationKey : String}
variable {intent : CurrentTransition} {index : IndexAnswers}
variable {persisted : CompletionRow} {layer : LayerId} {published : Published}

/-! ## Publishing transitions -/

/-- After publication, the root layer of a plan is accepted. -/
theorem acceptedLayer_of_publish {plan : CompletionPlan}
    (h : db.WellFormed) (hscope : db.Issued scope)
    (hplan : Publishable db scope plan)
    (hroot : plan.rootLayer ∈ plan.layers ∨
      db.AcceptedLayer scope.target plan.rootLayer)
    (hrun : db.publish scope plan revision = .ok db') :
    db'.AcceptedLayer scope.target plan.rootLayer :=
  (publish_ok hrun).1.retains.acceptedLayer
    (hplan.acceptedLayer h hscope hroot)

theorem Advanced.sound {plan : CompletionPlan} (h : db.WellFormed)
    (hscope : db.Issued scope)
    (hadvanced : Advanced db scope persisted revision layer plan published) :
    db.Sound published.db ∧
      published.db.AcceptedLayer scope.target layer := by
  have hplan := hadvanced.planned.publishable
  refine ⟨h.publish hscope hadvanced.planned.walked hplan hadvanced.publishes, ?_⟩
  rw [← hadvanced.rootLayer]
  exact acceptedLayer_of_publish h hscope hplan hadvanced.planned.root
    hadvanced.publishes

/-- The stages of a Return, each of them sound. -/
theorem Returned.stages {plan : CompletionPlan} {rootId : ActionId}
    {rootRow : ActionRow} {graph : GraphDatabase} (h : db.WellFormed)
    (hscope : db.Issued scope)
    (hreturned : Returned db scope host persisted revision layer plan rootId
      rootRow graph published) :
    db.Sound graph ∧ graph.AcceptedLayer scope.target layer ∧
      ∃ attached resolved, graph.publishAttached scope = .ok attached ∧
        graph.Sound attached ∧ LeaseResolved attached scope plan resolved ∧
        attached.Sound resolved ∧ resolved.SameGraph published.db ∧
        resolved.Sound published.db := by
  have hplan := hreturned.planned.publishable
  have hgraph := h.publish hscope hreturned.planned.walked hplan
    hreturned.publishes
  have hroot := acceptedLayer_of_publish h hscope hplan hreturned.planned.root
    hreturned.publishes
  refine ⟨hgraph, hreturned.rootLayer ▸ hroot, ?_⟩
  exact finalize_ok hgraph.wellFormed (hreturned.lease.mono hgraph.retains) hroot
    hreturned.finalizes

theorem Returned.sound {plan : CompletionPlan} {rootId : ActionId}
    {rootRow : ActionRow} {graph : GraphDatabase} (h : db.WellFormed)
    (hscope : db.Issued scope)
    (hreturned : Returned db scope host persisted revision layer plan rootId
      rootRow graph published) :
    db.Sound published.db ∧
      published.db.AcceptedLayer scope.target layer := by
  obtain ⟨hgraph, hroot, attached, resolved, -, hattached, -, hresolved, -,
    hfinal⟩ := hreturned.stages h hscope
  have hrest := (hattached.trans hresolved).trans hfinal
  exact ⟨hgraph.trans hrest, hrest.retains.acceptedLayer hroot⟩

/-- Staged presentations are dropped by a transition that publishes nothing. -/
theorem WellFormed.discardPending (h : db.WellFormed) :
    db.Sound (db.discardPending scope) :=
  h.updateCompletion_of_currentLayer fun _ => rfl

theorem transitionBody_sound (h : db.WellFormed) (hscope : db.Issued scope)
    (hstored : db.completion? scope.root = some persisted)
    (hrun : db.transitionBody scope host persisted revision intent =
      .ok published) :
    db.Sound published.db ∧ ∀ current, published.currentLayer = some current →
      published.db.AcceptedLayer scope.target current := by
  have hended : ∀ published' : Published,
      published' = db.endWithoutPublication scope host persisted →
      db.Sound published'.db ∧ ∀ current,
        published'.currentLayer = some current →
          published'.db.AcceptedLayer scope.target current := by
    rintro _ rfl
    have hsound := @WellFormed.discardPending _ scope h
    refine ⟨hsound, fun current hcurrent => ?_⟩
    exact hsound.retains.acceptedLayer (h.currentLayer hscope hstored hcurrent)
  cases intent with
  | advance layer =>
      obtain ⟨plan, hadvanced⟩ := advance_ok hrun
      obtain ⟨hsound, haccepted⟩ := hadvanced.sound h hscope
      refine ⟨hsound, fun current hcurrent => ?_⟩
      obtain rfl : layer = current := by
        simpa [hadvanced.currentLayer] using hcurrent
      exact haccepted
  | «return» layer =>
      obtain ⟨plan, rootId, rootRow, graph, hreturned⟩ := returnCurrent_ok hrun
      obtain ⟨hsound, haccepted⟩ := hreturned.sound h hscope
      refine ⟨hsound, fun current hcurrent => ?_⟩
      obtain rfl : layer = current := by
        simpa [hreturned.currentLayer] using hcurrent
      exact haccepted
  | stop reason => exact hended published (Except.ok.inj hrun).symm
  | fail reason => exact hended published (Except.ok.inj hrun).symm

theorem WellFormed.transition (h : db.WellFormed) (hscope : db.Issued scope)
    {result : Transitioned}
    (hrun : db.transition scope host expectedRevision operationKey intent index =
      .ok result) : db.Sound result.db := by
  rcases transition_ok hrun with ⟨receipt, -, -, rfl⟩ |
    ⟨persisted, published, recorded, hcommitted, hresult, -⟩
  · exact h.sound
  · obtain ⟨hbody, hcurrent⟩ :=
      transitionBody_sound h hscope hcommitted.stored hcommitted.body
    have hrecorded := hcommitted.record.sound hbody.wellFormed
      (hbody.retains.issued hscope) hcurrent
    have hsound := hbody.trans hrecorded
    rcases hresult with hsame | ⟨target, revision, hsame⟩
    · exact hsame ▸ hsound
    · rw [hsame]
      exact hsound.trans (hrecorded.wellFormed.congr rfl rfl ⟨rfl, rfl, rfl⟩)

/-! ## Every operation -/

theorem exceptMap_eq_ok_iff {α β : Type} {x : GraphResult α} {f : α → β} {b : β} :
    x.map f = .ok b ↔ ∃ a, x = .ok a ∧ f a = b := by
  cases x with
  | error e => simp [Except.map]
  | ok a => simp [Except.map]

theorem map_snd_eq_ok {α : Type} {x : GraphResult (α × GraphDatabase)}
    (hrun : x.map Prod.snd = .ok db') : ∃ a, x = .ok (a, db') := by
  obtain ⟨⟨a, _⟩, hx, rfl⟩ := exceptMap_eq_ok_iff.mp hrun
  exact ⟨a, hx⟩

/-- Every operation that succeeds is sound. -/
theorem WellFormed.perform (h : db.WellFormed) {operation : Operation}
    (hrun : db.perform host operation = .ok db') : db.Sound db' := by
  cases operation with
  | createInteraction target text preparation =>
      obtain ⟨id, hrun⟩ := map_snd_eq_ok hrun
      exact h.createInteraction hrun
  | activateAuthority interaction =>
      obtain ⟨epoch, hrun⟩ := map_snd_eq_ok hrun
      exact h.activateAuthority hrun
  | submitNode author draft contents =>
      obtain ⟨scope, hscope, hrun⟩ := bind_eq_ok_iff.mp hrun
      obtain ⟨id, hrun⟩ := map_snd_eq_ok hrun
      exact h.submitNode (issued_of_writerScope hscope).1 hrun
  | createEdge author draft =>
      obtain ⟨scope, hscope, hrun⟩ := bind_eq_ok_iff.mp hrun
      obtain ⟨id, hrun⟩ := map_snd_eq_ok hrun
      exact h.createEdge hrun
  | submitLayer author draft renderer =>
      obtain ⟨scope, hscope, hrun⟩ := bind_eq_ok_iff.mp hrun
      obtain ⟨id, hrun⟩ := map_snd_eq_ok hrun
      exact h.submitLayer (issued_of_writerScope hscope).1 hrun
  | addAction author draft preparedIcon =>
      obtain ⟨scope, hscope, hrun⟩ := bind_eq_ok_iff.mp hrun
      obtain ⟨id, hrun⟩ := map_snd_eq_ok hrun
      exact h.addAction (issued_of_writerScope hscope).1 hrun
  | discardLayer author layer =>
      obtain ⟨scope, hscope, hrun⟩ := bind_eq_ok_iff.mp hrun
      obtain ⟨id, hrun⟩ := map_snd_eq_ok hrun
      exact h.discardLayer hrun
  | stagePresentation author node expectedRevision package assets =>
      obtain ⟨scope, hscope, hrun⟩ := bind_eq_ok_iff.mp hrun
      exact h.stagePresentation hrun
  | transition author expectedRevision operationKey intent index =>
      obtain ⟨scope, hscope, hrun⟩ := bind_eq_ok_iff.mp hrun
      obtain ⟨result, hresult, rfl⟩ := exceptMap_eq_ok_iff.mp hrun
      exact h.transition (issued_of_writerScope hscope).1 hresult

theorem wellFormed_initial (permissionsEnabled : Bool)
    (temporalFeatures : TemporalFeatureConfig) :
    (initial permissionsEnabled temporalFeatures).WellFormed := by
  constructor <;> simp [initial]

/-- Every database a run of native operations reaches is well formed. -/
theorem wellFormed_of_reachable (hreach : (native host).Reachable db) :
    db.WellFormed := by
  refine hreach.invariant ?_ ?_
  · rintro _ ⟨permissionsEnabled, temporalFeatures, rfl⟩
    exact wellFormed_initial permissionsEnabled temporalFeatures
  · intro s operation t _ hs hstep
    exact (hs.perform hstep).wellFormed

/-- A step retains what the database before it says. -/
theorem retains_of_step (hreach : (native host).Reachable db)
    {operation : Operation} (hstep : (native host).step db operation db') :
    db.Retains db' :=
  ((wellFormed_of_reachable hreach).perform hstep).retains

end GraphDatabase

end RelayerGraph
