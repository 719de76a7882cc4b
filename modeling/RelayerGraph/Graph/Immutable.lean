import RelayerGraph.Graph.Reachable

/-!
# Accepted records are immutable

What one operation can change of a row that was accepted before it.  Only a
Return changes anything: it shows the additions of its interaction, replaces
the presentations staged by its interaction, and resolves the lease of its
interaction.
-/

namespace RelayerGraph

open Foundation Checked

/-! ## What an accepted row keeps -/

/-- A publication stamp is set once. -/
def StampKept (stamp stamp' : Option ℕ) : Prop :=
  stamp.isSome → stamp' = stamp

theorem StampKept.refl (stamp : Option ℕ) : StampKept stamp stamp :=
  fun _ => rfl

theorem StampKept.trans {a b c : Option ℕ} (hab : StampKept a b)
    (hbc : StampKept b c) : StampKept a c := by
  intro hset
  have hb := hab hset
  exact (hbc (hb ▸ hset)).trans hb

theorem stampKept_getD (stamp : Option ℕ) (revision : ℕ) :
    StampKept stamp (some (stamp.getD revision)) := by
  cases stamp with
  | none => exact fun hset => by cases hset
  | some old => exact fun _ => rfl

/-- A node without its presentation, its stamp, and the rows keyed by it. -/
def NodeRow.fixed (row : NodeRow) : NodeRow :=
  { row with
    authoredDetail := none
    presentationRevision := 0
    publishedRevision := none
    completion := none }

/-- The presentation of a node with its revision. -/
def NodeRow.presentation (row : NodeRow) : Option String × ℕ :=
  (row.authoredDetail, row.presentationRevision)

/-- A node keeps everything, but for a presentation replaced on purpose. -/
structure NodeRow.Keeps (presented : Prop) (row row' : NodeRow) : Prop where
  fixed : row'.fixed = row.fixed
  stamp : StampKept row.publishedRevision row'.publishedRevision
  presentation : row'.presentation = row.presentation ∨ presented

/-- An edge without its stamp. -/
def EdgeRow.fixed (row : EdgeRow) : EdgeRow :=
  { row with publishedRevision := none }

structure EdgeRow.Keeps (row row' : EdgeRow) : Prop where
  fixed : row'.fixed = row.fixed
  stamp : StampKept row.publishedRevision row'.publishedRevision

/-- A layer without its snapshot and its stamp. -/
def LayerRow.fixed (row : LayerRow) : LayerRow :=
  { row with actions := [], publishedRevision := none }

/-- A layer keeps everything; its snapshot may be continued by actions shown
on purpose. -/
structure LayerRow.Keeps (shown : ActionId → Prop) (row row' : LayerRow) :
    Prop where
  fixed : row'.fixed = row.fixed
  stamp : StampKept row.publishedRevision row'.publishedRevision
  actions : ∃ extra, row'.actions = row.actions ++ extra ∧ ∀ id ∈ extra, shown id

/-- An action without what a resolution sets and without its stamp. -/
def ActionRow.fixed (row : ActionRow) : ActionRow :=
  { row with
    kind := .navigate
    relation := none
    interactionText := none
    targetLayer := none
    resolution := none
    publishedRevision := none }

/-- What a resolution sets. -/
def ActionRow.outcome (row : ActionRow) :
    ActionKind × Option NavigateRelation × Option String × Option LayerId ×
      Option (NodeId × LayerId) :=
  (row.kind, row.relation, row.interactionText, row.targetLayer, row.resolution)

/-- An action keeps everything, but for an invoke without a target, which may
be resolved once. -/
structure ActionRow.Keeps (resolved : Prop) (row row' : ActionRow) : Prop where
  fixed : row'.fixed = row.fixed
  stamp : StampKept row.publishedRevision row'.publishedRevision
  outcome : row'.outcome = row.outcome ∨
    resolved ∧ row.kind = .invoke ∧ row.targetLayer = none ∧
      row'.targetLayer.isSome

namespace NodeRow.Keeps

variable {presented : Prop} {a b c row : NodeRow}

theorem refl (row : NodeRow) : row.Keeps presented row :=
  ⟨rfl, .refl _, .inl rfl⟩

theorem trans (hab : a.Keeps presented b) (hbc : b.Keeps presented c) :
    a.Keeps presented c where
  fixed := hbc.fixed.trans hab.fixed
  stamp := hab.stamp.trans hbc.stamp
  presentation := by
    rcases hbc.presentation with hsame | hpresented
    · exact hab.presentation.imp_left hsame.trans
    · exact .inr hpresented

theorem state (h : a.Keeps presented b) : b.state = a.state := by
  have hstate := congrArg NodeRow.state h.fixed
  exact hstate

end NodeRow.Keeps

namespace EdgeRow.Keeps

variable {a b c : EdgeRow}

theorem refl (row : EdgeRow) : row.Keeps row := ⟨rfl, .refl _⟩

theorem trans (hab : a.Keeps b) (hbc : b.Keeps c) : a.Keeps c :=
  ⟨hbc.fixed.trans hab.fixed, hab.stamp.trans hbc.stamp⟩

theorem state (h : a.Keeps b) : b.state = a.state := by
  have hstate := congrArg EdgeRow.state h.fixed
  exact hstate

end EdgeRow.Keeps

namespace LayerRow.Keeps

variable {shown : ActionId → Prop} {a b c : LayerRow}

theorem refl (row : LayerRow) : row.Keeps shown row :=
  ⟨rfl, .refl _, [], by simp⟩

theorem trans (hab : a.Keeps shown b) (hbc : b.Keeps shown c) :
    a.Keeps shown c where
  fixed := hbc.fixed.trans hab.fixed
  stamp := hab.stamp.trans hbc.stamp
  actions := by
    obtain ⟨extra, hb, hextra⟩ := hab.actions
    obtain ⟨extra', hc, hextra'⟩ := hbc.actions
    refine ⟨extra ++ extra', by rw [hc, hb, List.append_assoc], ?_⟩
    intro id hid
    exact (List.mem_append.mp hid).elim (hextra id) (hextra' id)

theorem state (h : a.Keeps shown b) : b.state = a.state := by
  have hstate := congrArg LayerRow.state h.fixed
  exact hstate

end LayerRow.Keeps

namespace ActionRow.Keeps

variable {resolved : Prop} {a b c : ActionRow}

theorem refl (row : ActionRow) : row.Keeps resolved row :=
  ⟨rfl, .refl _, .inl rfl⟩

theorem trans (hab : a.Keeps resolved b) (hbc : b.Keeps resolved c) :
    a.Keeps resolved c where
  fixed := hbc.fixed.trans hab.fixed
  stamp := hab.stamp.trans hbc.stamp
  outcome := by
    rcases hab.outcome with hsame | ⟨hresolved, hkind, hnone, hsome⟩
    · have hkind : b.kind = a.kind := congrArg Prod.fst hsame
      have htarget : b.targetLayer = a.targetLayer :=
        congrArg (fun outcome => outcome.2.2.2.1) hsame
      rcases hbc.outcome with hsame' | ⟨hresolved, hinvoke, hnone, hsome⟩
      · exact .inl (hsame'.trans hsame)
      · exact .inr ⟨hresolved, hkind ▸ hinvoke, htarget ▸ hnone, hsome⟩
    · -- What was resolved once has a target, and is not resolved again.
      rcases hbc.outcome with hsame' | ⟨-, -, hnone', -⟩
      · have htarget : c.targetLayer = b.targetLayer :=
          congrArg (fun outcome => outcome.2.2.2.1) hsame'
        exact .inr ⟨hresolved, hkind, hnone, htarget ▸ hsome⟩
      · simp [hnone'] at hsome

theorem state (h : a.Keeps resolved b) : b.state = a.state := by
  have hstate := congrArg ActionRow.state h.fixed
  exact hstate

end ActionRow.Keeps

/-! ## What a database keeps -/

/-- What may happen to accepted rows: the nodes that are presented, the actions
that join a snapshot and the actions that are resolved. -/
structure Exceptions where
  presents : NodeId → Prop
  shows : LayerId → ActionId → Prop
  resolves : ActionId → Prop

/-- Nothing may happen to accepted rows. -/
def Exceptions.none : Exceptions where
  presents _ := False
  shows _ _ := False
  resolves _ := False

namespace GraphDatabase

/-- Every accepted row keeps everything but for the exceptions. -/
structure Keeps (e : Exceptions) (db db' : GraphDatabase) : Prop where
  nodes : db.nodes.Retained (fun id row row' =>
    row.state = .accepted → row.Keeps (e.presents id) row') db'.nodes
  edges : db.edges.Retained (fun _ row row' =>
    row.state = .accepted → row.Keeps row') db'.edges
  layers : db.layers.Retained (fun id row row' =>
    row.state = .accepted → row.Keeps (e.shows id) row') db'.layers
  actions : db.actions.Retained (fun id row row' =>
    row.state = .accepted → row.Keeps (e.resolves id) row') db'.actions

variable {e : Exceptions} {db db' : GraphDatabase} {scope : InteractionScope}
variable {host : Host} {plan : CompletionPlan} {revision : ℕ}

namespace Keeps

theorem refl (db : GraphDatabase) : Keeps e db db where
  nodes := .refl (fun _ row _ => .refl row) _
  edges := .refl (fun _ row _ => .refl row) _
  layers := .refl (fun _ row _ => .refl row) _
  actions := .refl (fun _ row _ => .refl row) _

theorem trans {a b c : GraphDatabase} (hab : Keeps e a b) (hbc : Keeps e b c) :
    Keeps e a c where
  nodes := hab.nodes.trans (fun _ _ _ _ hab hbc hstate =>
    (hab hstate).trans (hbc ((hab hstate).state.trans hstate))) hbc.nodes
  edges := hab.edges.trans (fun _ _ _ _ hab hbc hstate =>
    (hab hstate).trans (hbc ((hab hstate).state.trans hstate))) hbc.edges
  layers := hab.layers.trans (fun _ _ _ _ hab hbc hstate =>
    (hab hstate).trans (hbc ((hab hstate).state.trans hstate))) hbc.layers
  actions := hab.actions.trans (fun _ _ _ _ hab hbc hstate =>
    (hab hstate).trans (hbc ((hab hstate).state.trans hstate))) hbc.actions

/-- What no exception allows is allowed under every exception. -/
theorem of_none (h : Keeps .none db db') : Keeps e db db' where
  nodes := h.nodes.mono fun _ _ _ hkeep hstate =>
    ⟨(hkeep hstate).fixed, (hkeep hstate).stamp,
      (hkeep hstate).presentation.imp_right False.elim⟩
  edges := h.edges
  layers := h.layers.mono fun _ _ _ hkeep hstate => by
    obtain ⟨hfixed, hstamp, extra, hactions, hextra⟩ := hkeep hstate
    exact ⟨hfixed, hstamp, extra, hactions, fun id hid => (hextra id hid).elim⟩
  actions := h.actions.mono fun _ _ _ hkeep hstate =>
    ⟨(hkeep hstate).fixed, (hkeep hstate).stamp,
      (hkeep hstate).outcome.imp_right fun h => h.1.elim⟩

end Keeps

/-! ## Writes which touch no accepted row -/

theorem keeps_mapNodes {f : NodeId → NodeRow → NodeRow}
    (hf : ∀ id row, db.nodes.get? id = some row → row.state = .accepted →
      row.Keeps (e.presents id) (f id row)) :
    db.Keeps e { db with nodes := db.nodes.mapRows f } :=
  { Keeps.refl db with nodes := .mapRows hf }

theorem keeps_mapLayers {f : LayerId → LayerRow → LayerRow}
    (hf : ∀ id row, db.layers.get? id = some row → row.state = .accepted →
      row.Keeps (e.shows id) (f id row)) :
    db.Keeps e { db with layers := db.layers.mapRows f } :=
  { Keeps.refl db with layers := .mapRows hf }

theorem keeps_updateAction {id : ActionId} {f : ActionRow → ActionRow}
    (hf : ∀ row, db.actions.get? id = some row → row.state = .accepted →
      row.Keeps (e.resolves id) (f row)) : db.Keeps e (db.updateAction id f) :=
  { Keeps.refl db with
    actions := .mapRows fun other row hrow hstate => by
      by_cases hid : other = id
      · subst hid
        rw [if_pos rfl]
        exact hf row hrow hstate
      · rw [if_neg hid]
        exact .refl row }

theorem keeps_updateCompletion (interaction : NodeId)
    (f : CompletionRow → CompletionRow) :
    db.Keeps e (db.updateCompletion interaction f) := by
  refine keeps_mapNodes fun id row _ _ => ?_
  split
  · exact ⟨rfl, .refl _, .inl rfl⟩
  · exact .refl row

theorem keeps_submitNode {draft : NodeDraft} {contents : NodeContents}
    {id : NodeId}
    (hrun : db.submitNode scope host draft contents = .ok (id, db')) :
    db.Keeps .none db' := by
  obtain ⟨-, draft, ⟨row, hrow, -, hdraft, rfl⟩ | hinsert⟩ := submitNode_ok hrun
  · refine keeps_mapNodes fun other stored hstored hstate => ?_
    have hother : other ≠ id := by
      rintro rfl
      rw [hrow, Option.some.injEq] at hstored
      rw [← hstored, hdraft] at hstate
      cases hstate
    rw [if_neg hother]
    exact .refl stored
  · simp only [insertDraftNode, Prod.mk.injEq] at hinsert
    obtain ⟨-, rfl⟩ := hinsert
    exact { Keeps.refl db with nodes := .insert (fun _ row _ => .refl row) _ _ }

theorem keeps_createEdge {draft : EdgeDraft} {id : EdgeId}
    (hrun : db.createEdge scope host draft = .ok (id, db')) :
    db.Keeps .none db' := by
  rcases createEdge_ok hrun with rfl | ⟨endpoints, hinsert⟩
  · exact .refl db'
  · simp only [insertDraftEdge, Prod.mk.injEq] at hinsert
    obtain ⟨-, rfl⟩ := hinsert
    exact { Keeps.refl db with edges := .insert (fun _ row _ => .refl row) _ _ }

theorem keeps_submitLayer {draft : LayerDraft} {renderer : Option String}
    {id : LayerId}
    (hrun : db.submitLayer scope host draft renderer = .ok (id, db')) :
    db.Keeps .none db' := by
  obtain ⟨-, nodes, edges, -, -, -, hwrite⟩ := submitLayer_ok hrun
  rcases upsertDraftLayer_ok hwrite with ⟨row, hrow, -, hdraft, rfl⟩ |
    ⟨row, -, -, -, -, -, rfl⟩
  · refine keeps_mapLayers fun other stored hstored hstate => ?_
    have hother : other ≠ id := by
      rintro rfl
      rw [hrow, Option.some.injEq] at hstored
      rw [← hstored, hdraft] at hstate
      cases hstate
    rw [if_neg hother]
    exact .refl stored
  · exact { Keeps.refl db with layers := .insert (fun _ row _ => .refl row) _ _ }

theorem keeps_discardLayer {layer id : LayerId}
    (hrun : db.discardLayer scope host layer = .ok (id, db')) :
    db.Keeps .none db' := by
  rcases discardLayer_ok hrun with rfl | rfl
  · exact .refl db'
  · refine keeps_mapLayers fun other stored _ hstate => ?_
    rw [if_neg fun hstop => by simp [hstop.2.2] at hstate]
    exact .refl stored

theorem keeps_addAction {draft : ActionDraft}
    {preparedIcon : Option PreparedDetailAsset} {id : ActionId}
    (hrun : db.addAction scope host draft preparedIcon = .ok (id, db')) :
    db.Keeps .none db' := by
  obtain ⟨-, -, source, icon, -, -, -, hwrite⟩ := addAction_ok hrun
  rcases hwrite with ⟨row, hrow, -, -, hdraft, rfl⟩ | rfl
  · refine keeps_updateAction fun stored hstored hstate => ?_
    rw [hrow, Option.some.injEq] at hstored
    rw [← hstored, hdraft] at hstate
    cases hstate
  · exact { Keeps.refl db with actions := .insert (fun _ row _ => .refl row) _ _ }

/-! ## Publishing -/

theorem keeps_acceptRows (db : GraphDatabase) (scope : InteractionScope)
    (plan : CompletionPlan) (revision : ℕ) :
    db.Keeps e (db.acceptRows scope plan revision) where
  nodes := .mapRows fun id row _ hstate => by
    split
    · refine ⟨?_, stampKept_getD _ _, .inl rfl⟩
      simp only [NodeRow.fixed, hstate]
    · exact .refl row
  edges := .mapRows fun id row _ hstate => by
    split
    · refine ⟨?_, stampKept_getD _ _⟩
      simp only [EdgeRow.fixed, hstate]
    · exact .refl row
  layers := .mapRows fun id row _ hstate => by
    split
    · refine ⟨?_, stampKept_getD _ _, [], by simp⟩
      simp only [LayerRow.fixed, hstate]
    · exact .refl row
  actions := .mapRows fun id row _ hstate => by
    split
    · refine ⟨?_, stampKept_getD _ _, .inl rfl⟩
      simp only [ActionRow.fixed, hstate]
    · exact .refl row

/-- Snapshots which grow only as allowed. -/
theorem Grows.keeps {added : LayerId → ActionId → Prop} (h : Grows added db db')
    (hadded : ∀ layer id, added layer id → e.shows layer id) :
    db.Keeps e db' where
  nodes := h.nodes ▸ .refl (fun _ row _ => .refl row) _
  edges := h.edges ▸ .refl (fun _ row _ => .refl row) _
  actions := h.actions ▸ .refl (fun _ row _ => .refl row) _
  layers := by
    intro id row hrow
    obtain ⟨extra, hextra, hgrown⟩ := h.rows id
    refine ⟨_, by rw [hgrown, hrow, Option.map_some], fun _ => ?_⟩
    exact ⟨rfl, .refl _, extra, rfl, fun action haction =>
      hadded id action (hextra action haction)⟩

/-- Publishing a plan gives snapshots to layers that were drafts only. -/
theorem keeps_publish {origin : LayerId → Prop} {given : ActionId → Prop}
    (hwalked : Walked db scope origin given plan [])
    (hrun : db.publish scope plan revision = .ok db') :
    db.Keeps .none db' := by
  obtain ⟨hgrow, -⟩ := publish_ok hrun
  have haccept := keeps_acceptRows (e := .none) db scope plan revision
  refine ⟨hgrow.nodes ▸ haccept.nodes, hgrow.edges ▸ haccept.edges, ?_,
    hgrow.actions ▸ haccept.actions⟩
  intro id row hrow
  obtain ⟨stored, hstored, hkeep⟩ := haccept.layers id row hrow
  obtain ⟨extra, hextra, hgrown⟩ := hgrow.rows id
  refine ⟨_, by rw [hgrown, hstored, Option.map_some], fun hstate => ?_⟩
  have hempty : extra = [] := by
    refine List.eq_nil_iff_forall_not_mem.mpr fun action haction => ?_
    obtain ⟨-, actions, hentry, -⟩ := hextra action haction
    obtain ⟨hlayer, -⟩ := hwalked.snapshots _ hentry
    obtain ⟨draft, _, hread, hdraft, -⟩ := hwalked.layers id hlayer
    have hsame := hread.stored
    rw [hrow, Option.some.injEq] at hsame
    rw [hsame, hdraft] at hstate
    cases hstate
  subst hempty
  obtain ⟨hfixed, hstamp, hactions⟩ := hkeep hstate
  exact ⟨hfixed, hstamp, by simpa using hactions⟩

/-! ## Finishing a Return -/

/-- Publishing changes no completion. -/
theorem completion?_publish (hrun : db.publish scope plan revision = .ok db')
    (interaction : NodeId) : db'.completion? interaction =
      db.completion? interaction := by
  obtain ⟨hgrow, -⟩ := publish_ok hrun
  simp only [completion?, hgrow.nodes, acceptRows, Table.get?_mapRows]
  cases db.nodes.get? interaction with
  | none => rfl
  | some row =>
      simp only [Option.map_some, Option.bind_some]
      split <;> rfl

theorem keeps_publishPresentations (presentations : List PendingPresentation)
    (hpresents : ∀ p ∈ presentations, e.presents p.node) :
    db.Keeps e (presentations.foldl publishPresentation db) := by
  induction presentations generalizing db with
  | nil => exact .refl db
  | cons presentation rest ih =>
      have hfirst : db.Keeps e (db.publishPresentation presentation) := by
        refine keeps_mapNodes fun id row _ _ => ?_
        split
        · rename_i hid
          exact ⟨rfl, .refl _,
            .inr (hid ▸ hpresents presentation List.mem_cons_self)⟩
        · exact .refl row
      exact hfirst.trans
        (ih fun p hp => hpresents p (List.mem_cons_of_mem _ hp))

theorem keeps_publishAttached (hrun : db.publishAttached scope = .ok db')
    (hpresents : ∀ p ∈ db.pendingPresentations scope.root, e.presents p.node)
    (hshows : ∀ id ∈ db.acceptedAdditions scope.root, ∀ layer,
      e.shows layer id) : db.Keeps e db' := by
  simp only [publishAttached, bind_eq_ok_iff, require_eq_ok_iff, pure_eq_ok_iff]
    at hrun
  obtain ⟨-, -, rfl⟩ := hrun
  have hgrow := @grows_showAdditions db (db.acceptedAdditions scope.root)
  have hshown : db.Keeps e _ :=
    hgrow.keeps fun layer id hadded => hshows id hadded.1 layer
  exact (hshown.trans (keeps_publishPresentations _ hpresents)).trans
    (keeps_updateCompletion _ _)

theorem keeps_resolveLease (hresolved : LeaseResolved db scope plan db')
    (hresolves : ∀ lease, plan.lease = some lease →
      e.resolves lease.actionId ∧ ∀ layer, e.shows layer lease.actionId) :
    db.Keeps e db' := by
  have hkeeps : ∀ {id : ActionId} {f : ActionRow → ActionRow},
      e.resolves id → db.resolvable id = true →
      (∀ row, (f row).fixed = row.fixed ∧
        (f row).publishedRevision = row.publishedRevision ∧
        (f row).targetLayer.isSome) →
      db.Keeps e (db.updateAction id f) := by
    intro id f hid hresolvable hf
    obtain ⟨row, hrow, -, hkind, hnone⟩ := resolvable_iff.mp hresolvable
    refine keeps_updateAction fun stored hstored _ => ?_
    obtain rfl : row = stored := by simpa [hrow] using hstored
    obtain ⟨hfixed, hstamp, hsome⟩ := hf row
    exact ⟨hfixed, fun _ => hstamp, .inr ⟨hid, hkind, hnone, hsome⟩⟩
  cases hresolved with
  | unleased hsame =>
      obtain rfl := hsame
      exact .refl _
  | untyped lease hheld hresolvable hupdated =>
      rw [hupdated]
      exact hkeeps (hresolves lease hheld).1 hresolvable
        fun _ => ⟨rfl, rfl, rfl⟩
  | typed lease hheld hrun =>
      obtain ⟨-, hresolvable, hgrow⟩ := resolveTyped_ok hrun
      have hconverted : db.Keeps e _ := hkeeps (hresolves lease hheld).1
        hresolvable (f := resolvedRow scope.root plan.rootLayer)
        fun _ => ⟨rfl, rfl, rfl⟩
      refine hconverted.trans (hgrow.keeps fun layer id hadded => ?_)
      rw [hadded.1]
      exact (hresolves lease hheld).2 layer

/-! ## Every operation -/

/-- The exceptions of a Return: what its interaction staged, the additions of
its interaction, and the lease of its interaction. -/
def returnExceptions (db : GraphDatabase) (interaction : NodeId) :
    Exceptions where
  presents node := ∃ p ∈ db.pendingPresentations interaction, p.node = node
  resolves id := ∃ node lease, db.nodes.get? interaction = some node ∧
    node.lease = some lease ∧ lease.actionId = id
  shows _ id :=
    (∃ row, db.actions.get? id = some row ∧ row.attached = true ∧
      row.owner = interaction) ∨
    ∃ node lease, db.nodes.get? interaction = some node ∧
      node.lease = some lease ∧ lease.actionId = id

/-- The exceptions of an operation: only a Return has any. -/
def exceptionsOf (db : GraphDatabase) : Operation → Exceptions
  | .transition author _ _ (.return _) _ =>
      db.returnExceptions author.interaction
  | _ => .none

theorem Returned.keeps {persisted : CompletionRow} {layer : LayerId}
    {rootId : ActionId} {rootRow : ActionRow} {graph : GraphDatabase}
    {published : Published}
    (h : Returned db scope host persisted revision layer plan rootId rootRow graph
      published) :
    db.Keeps (db.returnExceptions scope.root) published.db := by
  have hpublish : db.Keeps (db.returnExceptions scope.root) graph :=
    (keeps_publish h.planned.walked h.publishes).of_none
  obtain ⟨attached, resolved, root, hattached, hresolved, -, -, hfinal⟩ :=
    finalize_stages h.finalizes
  have hpending : graph.pendingPresentations scope.root =
      db.pendingPresentations scope.root := by
    rw [pendingPresentations, completion?_publish h.publishes,
      ← pendingPresentations]
  have hshown : graph.Keeps (db.returnExceptions scope.root) attached := by
    refine keeps_publishAttached hattached ?_ ?_
    · intro p hp
      exact ⟨p, hpending ▸ hp, rfl⟩
    · intro id hid _
      obtain ⟨row, hrow, hmarked, howner, -⟩ := mem_acceptedAdditions.mp hid
      rw [(publish_ok h.publishes).1.actions] at hrow
      simp only [acceptRows, Table.get?_mapRows, Option.map_eq_some_iff] at hrow
      obtain ⟨stored, hstored, rfl⟩ := hrow
      refine .inl ⟨stored, hstored, ?_, ?_⟩
      · split at hmarked <;> exact hmarked
      · split at howner <;> exact howner
  have hleased : attached.Keeps (db.returnExceptions scope.root) resolved := by
    refine keeps_resolveLease hresolved fun lease hlease => ?_
    obtain ⟨node, hnode, hheld⟩ := h.held lease hlease
    exact ⟨⟨node, lease, hnode, hheld, rfl⟩,
      fun _ => .inr ⟨node, lease, hnode, hheld, rfl⟩⟩
  rw [hfinal]
  exact ((hpublish.trans hshown).trans hleased).trans
    (keeps_updateCompletion _ _)

theorem keeps_transition {expectedRevision : ℕ} {operationKey : String}
    {intent : CurrentTransition} {index : IndexAnswers} {result : Transitioned}
    (hroot : ∀ layer, intent = .return layer →
      e = db.returnExceptions scope.root)
    (hrun : db.transition scope host expectedRevision operationKey intent index =
      .ok result) : db.Keeps e result.db := by
  rcases transition_ok hrun with ⟨receipt, -, -, rfl⟩ |
    ⟨persisted, published, recorded, hcommitted, hresult, -⟩
  · exact .refl db
  · have hbody : db.Keeps e published.db := by
      have hrun := hcommitted.body
      cases intent with
      | advance layer =>
          obtain ⟨plan, hadvanced⟩ := advance_ok hrun
          exact (keeps_publish hadvanced.planned.walked
            hadvanced.publishes).of_none
      | «return» layer =>
          obtain ⟨plan, rootId, rootRow, graph, hreturned⟩ := returnCurrent_ok hrun
          rw [hroot layer rfl]
          exact hreturned.keeps
      | stop reason =>
          obtain rfl := Except.ok.inj hrun
          exact keeps_updateCompletion _ _
      | fail reason =>
          obtain rfl := Except.ok.inj hrun
          exact keeps_updateCompletion _ _
    have hrecorded : published.db.Keeps e recorded := by
      have hwritten := (@keeps_updateCompletion e published.db
        scope.root (published.revisionRow host expectedRevision operationKey
          intent).appendTo).trans
        (keeps_updateCompletion scope.root
          (published.headMove scope.root expectedRevision intent).apply)
      rw [hcommitted.record.result]
      exact ⟨hwritten.nodes, hwritten.edges, hwritten.layers, hwritten.actions⟩
    have hdone := hbody.trans hrecorded
    rcases hresult with hsame | ⟨target, revision, hsame⟩
    · exact hsame ▸ hdone
    · rw [hsame]
      exact ⟨hdone.nodes, hdone.edges, hdone.layers, hdone.actions⟩

/-- What every operation keeps of the accepted rows. -/
theorem keeps_of_step {operation : Operation}
    (hstep : (native host).step db operation db') :
    db.Keeps (db.exceptionsOf operation) db' := by
  change db.perform host operation = .ok db' at hstep
  cases operation with
  | createInteraction target text preparation =>
      obtain ⟨id, hrun⟩ := map_snd_eq_ok hstep
      obtain ⟨-, row, -, -, -, -, -, rfl⟩ := createInteraction_ok hrun
      exact { Keeps.refl db with nodes := .insert (fun _ row _ => .refl row) _ _ }
  | activateAuthority interaction =>
      obtain ⟨epoch, hrun⟩ := map_snd_eq_ok hstep
      rw [activateAuthority_ok hrun]
      exact keeps_updateCompletion _ _
  | submitNode author draft contents =>
      obtain ⟨scope, -, hrun⟩ := bind_eq_ok_iff.mp hstep
      obtain ⟨id, hrun⟩ := map_snd_eq_ok hrun
      exact keeps_submitNode hrun
  | createEdge author draft =>
      obtain ⟨scope, -, hrun⟩ := bind_eq_ok_iff.mp hstep
      obtain ⟨id, hrun⟩ := map_snd_eq_ok hrun
      exact keeps_createEdge hrun
  | submitLayer author draft renderer =>
      obtain ⟨scope, -, hrun⟩ := bind_eq_ok_iff.mp hstep
      obtain ⟨id, hrun⟩ := map_snd_eq_ok hrun
      exact keeps_submitLayer hrun
  | addAction author draft preparedIcon =>
      obtain ⟨scope, -, hrun⟩ := bind_eq_ok_iff.mp hstep
      obtain ⟨id, hrun⟩ := map_snd_eq_ok hrun
      exact keeps_addAction hrun
  | discardLayer author layer =>
      obtain ⟨scope, -, hrun⟩ := bind_eq_ok_iff.mp hstep
      obtain ⟨id, hrun⟩ := map_snd_eq_ok hrun
      exact keeps_discardLayer hrun
  | stagePresentation author node expectedRevision package assets =>
      obtain ⟨scope, -, hrun⟩ := bind_eq_ok_iff.mp hstep
      obtain ⟨-, -, rfl⟩ := stagePresentation_ok hrun
      exact keeps_updateCompletion _ _
  | transition author expectedRevision operationKey intent index =>
      obtain ⟨scope, hscope, hrun⟩ := bind_eq_ok_iff.mp hstep
      obtain ⟨result, hresult, rfl⟩ := exceptMap_eq_ok_iff.mp hrun
      refine keeps_transition ?_ hresult
      rintro layer rfl
      rw [(issued_of_writerScope hscope).2]
      rfl

/-- Accepted records are immutable: every operation keeps every accepted node,
edge, layer and action as it is, but for the presentations, the additions and
the lease of the interaction that returns, and for stamps which are set once. -/
theorem accepted_immutable (host : Host) (db db' : GraphDatabase)
    (operation : Operation)
    (hstep : (native host).step db operation db') :
    db.Keeps (db.exceptionsOf operation) db' :=
  keeps_of_step hstep

/-- The Return of the sample conversation changes no accepted record. -/
theorem accepted_immutable_sample :
    Sample.opened.Keeps (Sample.opened.returnExceptions ⟨1⟩) Sample.database :=
  accepted_immutable Sample.host Sample.opened Sample.database
    (Sample.returns ⟨1⟩) (step_attempt (by decide))

end GraphDatabase

end RelayerGraph
