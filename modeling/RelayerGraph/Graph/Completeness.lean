import RelayerGraph.Graph.Accessibility
import RelayerGraph.Graph.Expansion

/-!
# What a publication accepts, it shows

A plan follows the actions authored from its layers, whatever their nodes, and
a snapshot lists the authored actions of nodes that are still drafts.  Both
agree as long as nobody adds to attached nodes: then no layer stays a draft
while a node it authors from is accepted, and everything that a transition
accepts is reached from its root layer.
-/

namespace RelayerGraph

open Foundation Checked Worklist Relation

namespace GraphDatabase

variable {db db' : GraphDatabase} {scope : InteractionScope} {host : Host}
variable {plan : CompletionPlan} {revision : ℕ}

/-! ## Sources of drafts -/

/-- No action is an addition, and what is authored from a draft layer sits on a
draft node of its own interaction. -/
structure DraftSourced (db : GraphDatabase) : Prop where
  unattached : ∀ id row, db.actions.get? id = some row → row.attached = false
  sources : ∀ id row layer stored, db.actions.get? id = some row →
    row.state = .draft → row.sourceLayer = some layer →
    db.layers.get? layer = some stored → stored.state = .draft →
    ∃ node, db.nodes.get? row.source = some node ∧ node.state = .draft ∧
      node.owner = some row.owner

/-- Draft nodes stay drafts, and nothing that was there is accepted or drafted
anew. -/
structure KeepsDrafts (db db' : GraphDatabase) : Prop where
  nodes : ∀ id node, db.nodes.get? id = some node → node.state = .draft →
    ∃ node', db'.nodes.get? id = some node' ∧ node'.state = .draft ∧
      node'.owner = node.owner
  layers : ∀ id row', db'.layers.get? id = some row' → row'.state ≠ .stopped →
    db.layers.get? id = none ∨
      ∃ row, db.layers.get? id = some row ∧ row.state = row'.state
  actions : ∀ id row', db'.actions.get? id = some row' →
    ∃ row, db.actions.get? id = some row ∧ row'.attached = row.attached ∧
      row'.state = row.state ∧ (row'.state = .draft → row' = row)

/-- Nothing is authored from a layer that does not exist. -/
theorem WellFormed.exists_sourceLayer (h : db.WellFormed) {id : ActionId}
    {row : ActionRow} (hrow : db.actions.get? id = some row)
    (hattached : row.attached = false) {layer : LayerId}
    (hlayer : row.sourceLayer = some layer) :
    ∃ stored, db.layers.get? layer = some stored ∧ stored.owner = row.owner := by
  obtain ⟨-, ⟨stored, hstored, howner, -⟩, -⟩ :=
    (h.actions id row hrow).authored.fromLayer hattached layer hlayer
  exact ⟨stored, hstored, howner⟩

theorem DraftSourced.keep (hsourced : db.DraftSourced) (h : db.WellFormed)
    (hkeep : db.KeepsDrafts db') : db'.DraftSourced where
  unattached id row' hrow' := by
    obtain ⟨row, hrow, hsame, -, -⟩ := hkeep.actions id row' hrow'
    exact hsame.trans (hsourced.unattached id row hrow)
  sources id row' layer stored' hrow' hdraft hlayer hstored' hlayerDraft := by
    obtain ⟨row, hrow, -, -, hsame⟩ := hkeep.actions id row' hrow'
    obtain rfl := hsame hdraft
    rcases hkeep.layers layer stored' hstored' (by simp [hlayerDraft]) with
      hnone | ⟨stored, hstored, hbefore⟩
    · obtain ⟨stored, hstored, -⟩ := h.exists_sourceLayer hrow
        (hsourced.unattached id row' hrow) hlayer
      rw [hnone] at hstored
      cases hstored
    · obtain ⟨node, hnode, hnodeDraft, howner⟩ :=
        hsourced.sources id row' layer stored hrow hdraft hlayer hstored
          (hbefore.trans hlayerDraft)
      obtain ⟨node', hnode', hnodeDraft', hsameOwner⟩ :=
        hkeep.nodes _ node hnode hnodeDraft
      exact ⟨node', hnode', hnodeDraft', hsameOwner.trans howner⟩

/-! ## Operations that keep drafts -/

namespace KeepsDrafts

theorem refl (db : GraphDatabase) : db.KeepsDrafts db where
  nodes _ node hnode hdraft := ⟨node, hnode, hdraft, rfl⟩
  layers _ row hrow _ := .inr ⟨row, hrow, rfl⟩
  actions _ row hrow := ⟨row, hrow, rfl, rfl, fun _ => rfl⟩

theorem trans {a b c : GraphDatabase} (hab : a.KeepsDrafts b)
    (hbc : b.KeepsDrafts c) (hnone : ∀ id, b.layers.get? id = none →
      a.layers.get? id = none) : a.KeepsDrafts c where
  nodes id node hnode hdraft := by
    obtain ⟨node', hnode', hdraft', hsame⟩ := hab.nodes id node hnode hdraft
    obtain ⟨node'', hnode'', hdraft'', hsame'⟩ :=
      hbc.nodes id node' hnode' hdraft'
    exact ⟨node'', hnode'', hdraft'', hsame'.trans hsame⟩
  layers id row hrow hstopped := by
    rcases hbc.layers id row hrow hstopped with hfresh | ⟨row', hrow', hstate⟩
    · exact .inl (hnone id hfresh)
    · rw [← hstate] at hstopped ⊢
      exact hab.layers id row' hrow' hstopped
  actions id row hrow := by
    obtain ⟨row', hrow', hattached, hstate, hsame⟩ := hbc.actions id row hrow
    obtain ⟨row'', hrow'', hattached', hstate', hsame'⟩ :=
      hab.actions id row' hrow'
    refine ⟨row'', hrow'', hattached.trans hattached', hstate.trans hstate',
      fun hdraft => ?_⟩
    obtain rfl := hsame hdraft
    exact hsame' hdraft

/-- Rewriting nodes in what no condition reads. -/
theorem mapNodes {f : NodeId → NodeRow → NodeRow}
    (hf : ∀ id row, (f id row).state = row.state ∧
      (f id row).owner = row.owner) :
    db.KeepsDrafts { db with nodes := db.nodes.mapRows f } :=
  { refl db with
    nodes := by
      intro id node hnode hdraft
      refine ⟨f id node, ?_, (hf id node).1.trans hdraft, (hf id node).2⟩
      change (db.nodes.mapRows f).get? id = _
      rw [Table.get?_mapRows, hnode]
      rfl }

/-- The graph is the same, and so are the nodes. -/
theorem of_same (hsame : db.SameGraph db') (hnodes : db'.nodes = db.nodes) :
    db.KeepsDrafts db' where
  nodes _ node hnode hdraft := ⟨node, hnodes ▸ hnode, hdraft, rfl⟩
  layers _ row hrow _ := .inr ⟨row, hsame.layers ▸ hrow, rfl⟩
  actions _ row hrow := ⟨row, hsame.actions ▸ hrow, rfl, rfl, fun _ => rfl⟩

theorem congr {a b c : GraphDatabase} (hab : a.KeepsDrafts b)
    (hsame : b.SameGraph c) (hnodes : c.nodes = b.nodes) : a.KeepsDrafts c where
  nodes := hnodes ▸ hab.nodes
  layers := hsame.layers ▸ hab.layers
  actions := hsame.actions ▸ hab.actions

theorem updateCompletion (interaction : NodeId)
    (f : CompletionRow → CompletionRow) :
    db.KeepsDrafts (db.updateCompletion interaction f) := by
  apply mapNodes
  intro id row
  split <;> exact ⟨rfl, rfl⟩

theorem insertNode (row : NodeRow) (outbox : List ProjectionRow) :
    db.KeepsDrafts { db with nodes := db.nodes.insert row, outbox } where
  nodes id node hnode hdraft := by
    refine ⟨node, ?_, hdraft, rfl⟩
    change (db.nodes.insert row).get? id = _
    exact Table.get?_insert_of_get? hnode
  layers id row hrow _ := .inr ⟨row, hrow, rfl⟩
  actions id row hrow := ⟨row, hrow, rfl, rfl, fun _ => rfl⟩

theorem submitNode {draft : NodeDraft} {contents : NodeContents} {id : NodeId}
    (hrun : db.submitNode scope host draft contents = .ok (id, db')) :
    db.KeepsDrafts db' := by
  obtain ⟨-, draft, ⟨row, -, -, -, rfl⟩ | hinsert⟩ := submitNode_ok hrun
  · apply mapNodes
    intro other stored
    split <;> exact ⟨rfl, rfl⟩
  · simp only [insertDraftNode, Prod.mk.injEq] at hinsert
    obtain ⟨-, rfl⟩ := hinsert
    exact insertNode _ db.outbox

theorem submitLayer {draft : LayerDraft} {renderer : Option String} {id : LayerId}
    (hrun : db.submitLayer scope host draft renderer = .ok (id, db')) :
    db.KeepsDrafts db' := by
  obtain ⟨-, nodes, edges, -, -, -, hwrite⟩ := submitLayer_ok hrun
  rcases upsertDraftLayer_ok hwrite with ⟨row, -, -, -, rfl⟩ |
    ⟨row, -, -, -, -, -, rfl⟩
  · refine { refl db with layers := ?_ }
    intro other row' hrow' _
    simp only [Table.get?_mapRows, Option.map_eq_some_iff] at hrow'
    obtain ⟨stored, hstored, rfl⟩ := hrow'
    refine .inr ⟨stored, hstored, ?_⟩
    split <;> rfl
  · refine { refl db with layers := ?_ }
    intro other row' hrow' _
    cases hstored : db.layers.get? other with
    | none => exact .inl rfl
    | some stored =>
        have hkept : (db.layers.insert row).get? other = some stored :=
          Table.get?_insert_of_get? hstored
        obtain rfl : row' = stored := by
          rw [hkept, Option.some.injEq] at hrow'
          exact hrow'.symm
        exact .inr ⟨row', rfl, rfl⟩

theorem discardLayer {layer id : LayerId}
    (hrun : db.discardLayer scope host layer = .ok (id, db')) :
    db.KeepsDrafts db' := by
  rcases discardLayer_ok hrun with rfl | rfl
  · exact refl _
  · refine { refl db with layers := ?_ }
    intro other row' hrow' hstopped
    simp only [stopOwnedDraft, Table.get?_mapRows, Option.map_eq_some_iff]
      at hrow'
    obtain ⟨stored, hstored, rfl⟩ := hrow'
    refine .inr ⟨stored, hstored, ?_⟩
    split at hstopped
    · exact absurd rfl hstopped
    · rename_i hkept
      rw [if_neg hkept]

/-- Layers which grow stay what they are. -/
theorem of_grows {added : LayerId → ActionId → Prop} (hgrow : Grows added db db') :
    db.KeepsDrafts db' where
  nodes id node hnode hdraft := ⟨node, hgrow.nodes ▸ hnode, hdraft, rfl⟩
  layers id row' hrow' _ := by
    obtain ⟨row, extra, hrow, rfl, -⟩ := hgrow.of_get? hrow'
    exact .inr ⟨row, hrow, rfl⟩
  actions id row hrow := ⟨row, hgrow.actions ▸ hrow, rfl, rfl, fun _ => rfl⟩

theorem publishPresentations (presentations : List PendingPresentation) :
    db.KeepsDrafts (presentations.foldl publishPresentation db) := by
  induction presentations generalizing db with
  | nil => exact refl db
  | cons presentation rest ih =>
      have hfirst : db.KeepsDrafts (db.publishPresentation presentation) := by
        apply mapNodes
        intro id row
        split <;> exact ⟨rfl, rfl⟩
      exact hfirst.trans ih fun id hnone => hnone

theorem layers_publishPresentations (presentations : List PendingPresentation) :
    (presentations.foldl publishPresentation db).layers = db.layers := by
  induction presentations generalizing db with
  | nil => rfl
  | cons presentation rest ih => exact ih

theorem publishAttached (hrun : db.publishAttached scope = .ok db') :
    db.KeepsDrafts db' := by
  simp only [GraphDatabase.publishAttached, bind_eq_ok_iff, require_eq_ok_iff,
    pure_eq_ok_iff] at hrun
  obtain ⟨-, -, rfl⟩ := hrun
  have hgrow := @grows_showAdditions db (db.acceptedAdditions scope.root)
  have hlayers : ∀ id, (List.foldl showAddition db
      (db.acceptedAdditions scope.root)).layers.get? id = none →
        db.layers.get? id = none := by
    intro id hnone
    obtain ⟨extra, -, hrow⟩ := hgrow.rows id
    rw [hnone, eq_comm, Option.map_eq_none_iff] at hrow
    exact hrow
  apply (of_grows hgrow).trans _ hlayers
  have hpresented := @publishPresentations
    ((db.acceptedAdditions scope.root).foldl showAddition db)
    (db.pendingPresentations scope.root)
  apply hpresented.trans (updateCompletion _ _)
  intro id hnone
  rwa [layers_publishPresentations] at hnone

/-- An invoke that is resolved was accepted. -/
theorem updateAction {id : ActionId} {f : ActionRow → ActionRow}
    (hf : ∀ row, db.actions.get? id = some row →
      (f row).attached = row.attached ∧ (f row).state = row.state ∧
        row.state ≠ .draft) :
    db.KeepsDrafts (db.updateAction id f) :=
  { refl db with
    actions := by
      intro other row' hrow'
      simp only [GraphDatabase.updateAction, Table.get?_mapRows,
        Option.map_eq_some_iff] at hrow'
      obtain ⟨row, hrow, rfl⟩ := hrow'
      refine ⟨row, hrow, ?_⟩
      by_cases hother : other = id
      · subst hother
        rw [if_pos rfl]
        obtain ⟨hattached, hstate, hne⟩ := hf row hrow
        exact ⟨hattached, hstate, fun hdraft =>
          absurd (hstate.symm.trans hdraft) hne⟩
      · rw [if_neg hother]
        exact ⟨rfl, rfl, fun _ => rfl⟩ }

theorem resolveLease (hresolved : LeaseResolved db scope plan db') :
    db.KeepsDrafts db' := by
  have hkeeps : ∀ {id : ActionId} {f : ActionRow → ActionRow},
      db.resolvable id = true →
      (∀ row, (f row).attached = row.attached ∧ (f row).state = row.state) →
      db.KeepsDrafts (db.updateAction id f) := by
    intro id f hresolvable hf
    obtain ⟨row, hrow, hstate, -⟩ := resolvable_iff.mp hresolvable
    apply updateAction
    intro stored hstored
    obtain rfl : row = stored := by simpa [hrow] using hstored
    refine ⟨(hf row).1, (hf row).2, ?_⟩
    rw [hstate]
    simp
  cases hresolved with
  | unleased hsame => exact hsame ▸ refl db
  | untyped lease hheld hresolvable hupdated =>
      rw [hupdated]
      exact hkeeps hresolvable fun _ => ⟨rfl, rfl⟩
  | typed lease hheld hrun =>
      obtain ⟨-, hresolvable, hgrow⟩ := resolveTyped_ok hrun
      have hconverted := @hkeeps lease.actionId
        (resolvedRow scope.root plan.rootLayer) hresolvable fun _ => ⟨rfl, rfl⟩
      exact hconverted.trans (of_grows hgrow) fun id hnone => hnone

end KeepsDrafts

/-! ## New actions -/

/-- What a checked draft leaves sits on a draft node, unless it is the root
action. -/
theorem source_of_checkSource {draft : ActionDraft} {source : NodeRow}
    (hcheck : db.checkSource scope host draft source = .ok ())
    (hunattached : db.isAttachedSource scope draft.sourceNodeId = false)
    {layer : LayerId} (hlayer : draft.sourceLayerId = some layer) :
    source.state = .draft ∧ source.owner = some scope.root := by
  simp only [checkSource, bind_eq_ok_iff, onlyIf_eq_ok_iff] at hcheck
  obtain ⟨-, -, -, hroot, hauthored⟩ := hcheck
  by_cases hself : draft.sourceNodeId = scope.root
  · have hnone := (checkRootAction_ok (hroot hself)).1
    exact absurd (hnone.symm.trans hlayer) (by simp)
  · obtain ⟨hdraft, howner, -⟩ :=
      checkAuthored_ok (hauthored ⟨hself, hunattached⟩)
    exact ⟨hdraft, howner⟩

theorem DraftSourced.addAction (hsourced : db.DraftSourced)
    {draft : ActionDraft} {preparedIcon : Option PreparedDetailAsset}
    {id : ActionId}
    (hunattached : db.isAttachedSource scope draft.sourceNodeId = false)
    (hrun : db.addAction scope host draft preparedIcon = .ok (id, db')) :
    db'.DraftSourced := by
  obtain ⟨-, -, source, icon, hsource, hcheck, -, hwrite⟩ := addAction_ok hrun
  have hnew : ∀ layer, draft.sourceLayerId = some layer →
      source.state = .draft ∧ source.owner = some scope.root := by
    intro layer hlayer
    exact source_of_checkSource hcheck hunattached hlayer
  rcases hwrite with ⟨row, hrow, howner, -, -, rfl⟩ | rfl
  · have hcases : ∀ other row', (db.updateAction id fun row =>
        { ActionRow.withDraft row { draft with icon } with
          attached := row.attached ||
            db.isAttachedSource scope draft.sourceNodeId }).actions.get? other =
          some row' →
        row'.attached = false ∧ (db.actions.get? other = some row' ∨
          row'.source = draft.sourceNodeId ∧ row'.owner = scope.root ∧
            row'.sourceLayer = draft.sourceLayerId) := by
      intro other row' hrow'
      simp only [updateAction, Table.get?_mapRows, Option.map_eq_some_iff]
        at hrow'
      obtain ⟨stored, hstored, rfl⟩ := hrow'
      have hplain := hsourced.unattached other stored hstored
      by_cases hother : other = id
      · subst hother
        obtain rfl : row = stored := by simpa [hrow] using hstored
        rw [if_pos rfl]
        refine ⟨?_, .inr ⟨rfl, howner, rfl⟩⟩
        rw [hplain, hunattached]
        rfl
      · rw [if_neg hother]
        exact ⟨hplain, .inl hstored⟩
    constructor
    · exact fun other row' hrow' => (hcases other row' hrow').1
    · intro other row' layer stored hrow' hdraft hlayer hstored hlayerDraft
      rcases (hcases other row' hrow').2 with hold | ⟨hsame, hown, hfrom⟩
      · exact hsourced.sources other row' layer stored hold hdraft hlayer hstored
          hlayerDraft
      · obtain ⟨hsourceDraft, hsourceOwner⟩ := hnew layer (hfrom ▸ hlayer)
        exact ⟨source, hsame ▸ hsource, hsourceDraft, hown ▸ hsourceOwner⟩
  · have hcases : ∀ other row', (db.actions.insert
        (newAction scope { draft with icon }
          (db.isAttachedSource scope draft.sourceNodeId))).get? other =
          some row' →
        row'.attached = false ∧ (db.actions.get? other = some row' ∨
          row'.source = draft.sourceNodeId ∧ row'.owner = scope.root ∧
            row'.sourceLayer = draft.sourceLayerId) := by
      intro other row' hrow'
      rw [Table.get?_insert] at hrow'
      split at hrow'
      · obtain rfl := Option.some.inj hrow'
        exact ⟨hunattached, .inr ⟨rfl, rfl, rfl⟩⟩
      · exact ⟨hsourced.unattached other row' hrow', .inl hrow'⟩
    constructor
    · exact fun other row' hrow' => (hcases other row' hrow').1
    · intro other row' layer stored hrow' hdraft hlayer hstored hlayerDraft
      rcases (hcases other row' hrow').2 with hold | ⟨hsame, hown, hfrom⟩
      · exact hsourced.sources other row' layer stored hold hdraft hlayer hstored
          hlayerDraft
      · obtain ⟨hsourceDraft, hsourceOwner⟩ := hnew layer (hfrom ▸ hlayer)
        exact ⟨source, hsame ▸ hsource, hsourceDraft, hown ▸ hsourceOwner⟩

/-! ## Publishing a complete plan -/

/-- A published action was accepted by the plan, or stayed as it was. -/
theorem accepts_of_publish (hrun : db.publish scope plan revision = .ok db')
    {id : ActionId} {row' : ActionRow}
    (hrow' : db'.actions.get? id = some row') :
    ∃ row, db.actions.get? id = some row ∧ row'.attached = row.attached ∧
      (row' = row ∨ row'.state = .accepted ∧ id ∈ plan.actions) := by
  rw [(publish_ok hrun).1.actions] at hrow'
  simp only [acceptRows, Table.get?_mapRows, Option.map_eq_some_iff] at hrow'
  obtain ⟨row, hrow, rfl⟩ := hrow'
  refine ⟨row, hrow, ?_⟩
  split
  · rename_i haccepts
    exact ⟨rfl, .inr ⟨rfl, haccepts.1⟩⟩
  · exact ⟨rfl, .inl rfl⟩

/-- A layer which publication leaves a draft was one, outside the plan. -/
theorem draft_of_publish (hrun : db.publish scope plan revision = .ok db')
    {layer : LayerId} {row' : LayerRow}
    (hrow' : db'.layers.get? layer = some row') (hdraft : row'.state = .draft) :
    ∃ row, db.layers.get? layer = some row ∧ row.state = .draft ∧
      ¬ (layer ∈ plan.layers ∧ row.owner = scope.root) := by
  obtain ⟨base, extra, hbase, rfl, -⟩ := (publish_ok hrun).1.of_get? hrow'
  simp only [acceptRows, Table.get?_mapRows, Option.map_eq_some_iff] at hbase
  obtain ⟨row, hrow, rfl⟩ := hbase
  refine ⟨row, hrow, ?_⟩
  split at hdraft
  · cases hdraft
  · rename_i hkept
    exact ⟨hdraft, hkept⟩

/-- No draft stays behind on a node which is accepted for another layer: all
layers of the interaction are accepted together. -/
theorem DraftSourced.publish (hsourced : db.DraftSourced) (h : db.WellFormed)
    (hcomplete : ∀ layer ∈ db.draftLayers scope.root, layer ∈ plan.layers)
    (hrun : db.publish scope plan revision = .ok db') : db'.DraftSourced where
  unattached id row' hrow' := by
    obtain ⟨row, hrow, hsame, -⟩ := accepts_of_publish hrun hrow'
    exact hsame.trans (hsourced.unattached id row hrow)
  sources id row' layer stored' hrow' hdraft hlayer hstored' hlayerDraft := by
    obtain ⟨row, hrow, -, rfl | ⟨haccepted, -⟩⟩ := accepts_of_publish hrun hrow'
    · obtain ⟨stored, hstored, hbefore, houtside⟩ :=
        draft_of_publish hrun hstored' hlayerDraft
      obtain ⟨node, hnode, hnodeDraft, howner⟩ :=
        hsourced.sources id row' layer stored hrow hdraft hlayer hstored hbefore
      refine ⟨node, ?_, hnodeDraft, howner⟩
      rw [(publish_ok hrun).1.nodes]
      simp only [acceptRows, Table.get?_mapRows, hnode, Option.map_some]
      rw [if_neg]
      rintro ⟨-, hown⟩
      -- The node is the author's, hence so is the layer.
      obtain ⟨found, hfound, hsame⟩ :=
        h.exists_sourceLayer hrow (hsourced.unattached id row' hrow) hlayer
      obtain rfl : stored = found := by simpa [hstored] using hfound
      have hroot : stored.owner = scope.root := by
        rw [hsame]
        exact Option.some.inj (howner.symm.trans hown)
      apply houtside
      exact ⟨hcomplete layer (mem_draftLayers.mpr ⟨stored, hstored, hroot, hbefore⟩),
        hroot⟩
    · rw [hdraft] at haccepted
      cases haccepted

section

variable {origin : LayerId → Prop} {given : ActionId → Prop}
variable (hsourced : db.DraftSourced) (h : db.WellFormed)
variable (hscope : db.Issued scope)
variable (hwalked : Walked db scope origin given plan [])
variable (hplan : Publishable db scope plan)
variable (hrun : db.publish scope plan revision = .ok db')

include hsourced h hwalked in
/-- A layer of the plan shows what was authored from it. -/
theorem shows_of_authored {layer : LayerId} (hlayer : layer ∈ plan.layers)
    {id : ActionId} {row : ActionRow}
    (hauthored : db.AuthoredFrom scope layer id row) {stored : LayerRow}
    (hstored : db.layers.get? layer = some stored)
    (hdraft : stored.state = .draft) : db.Shows scope layer stored.nodes row := by
  obtain ⟨-, -, hmembers, -⟩ := hwalked.authored layer hlayer id row hauthored
  obtain ⟨hrow, howner, hfrom, -, hin⟩ := hauthored
  refine ⟨hmembers stored hstored, hin, ?_⟩
  cases hstate : row.state with
  | accepted => exact .inl rfl
  | stopped => exact absurd hstate (h.actions id row hrow).state
  | draft =>
      obtain ⟨node, hnode, hnodeDraft, -⟩ :=
        hsourced.sources id row layer stored hrow hstate hfrom hstored hdraft
      exact .inr ⟨howner, hfrom, node, hnode, hnodeDraft⟩

include hsourced h hwalked hrun in
/-- Once published, a layer of the plan lists what was authored from it. -/
theorem listed_of_authored {layer : LayerId} (hlayer : layer ∈ plan.layers)
    {id : ActionId} {row : ActionRow}
    (hauthored : db.AuthoredFrom scope layer id row) :
    ∃ row', db'.layers.get? layer = some row' ∧ id ∈ row'.actions := by
  obtain ⟨stored, resolved, hread, hdraft, howner, hentry, -, -⟩ :=
    hwalked.layers layer hlayer
  have hshows := shows_of_authored hsourced h hwalked hlayer hauthored
    hread.stored hdraft
  have hmem := hread.shows (by simp [hdraft]) id row hauthored.1 hshows
  have hbase : (db.acceptRows scope plan revision).layers.get? layer =
      some { stored with
        state := .accepted
        publishedRevision := some (stored.publishedRevision.getD revision) } := by
    simp [acceptRows, hread.stored, hlayer, howner]
  obtain ⟨extra, hrow'⟩ := (publish_ok hrun).1.get? hbase
  refine ⟨_, hrow', ?_⟩
  apply (publish_ok hrun).2 layer _ hentry ⟨_, hbase, howner, rfl⟩ _ hrow'
  exact List.mem_map.mpr ⟨_, hmem, rfl⟩

include hsourced h hscope hwalked hplan hrun

theorem navigates_of_authored {layer target : LayerId}
    (hlayer : layer ∈ plan.layers) {id : ActionId} {row : ActionRow}
    (hauthored : db.AuthoredFrom scope layer id row)
    (hkind : row.kind = .navigate) (htarget : row.targetLayer = some target) :
    db'.Navigates layer target := by
  obtain ⟨row', hrow', hlisted⟩ :=
    listed_of_authored hsourced h hwalked hrun hlayer hauthored
  have hsound := h.publish hscope hwalked hplan hrun
  obtain ⟨-, action, haction, haccepted, -, -⟩ :=
    (hsound.wellFormed.layers layer row' hrow').actions id hlisted
  have hlead := lead_of_publish hrun hauthored.1 haction
  simp only [ActionRow.lead, Prod.mk.injEq] at hlead
  exact navigates_iff.mpr ⟨row', id, action, hrow', hlisted, haction, haccepted,
    hlead.1.trans hkind, hlead.2.2.trans htarget⟩

/-- Authored navigation among drafts becomes accepted navigation. -/
theorem leads_of_authored {start layer : LayerId}
    (hstart : start ∈ plan.layers ∨ db.AcceptedLayer scope.target start)
    (hpath : ReflTransGen (db.DraftArc scope) start layer) :
    db'.Leads start layer := by
  induction hpath with
  | refl => exact .refl
  | @tail middle next hbefore harc ih =>
      obtain ⟨⟨stored, hstored, hdraft⟩, id, row, hauthored, hkind, htarget⟩ :=
        harc
      have hmiddle :=
        hwalked.mem_of_reached_draft hstart hbefore hstored hdraft
      exact ih.tail (navigates_of_authored hsourced h hscope hwalked hplan hrun
        hmiddle hauthored hkind htarget)

end

/-! ## What is shown -/

/-- What the second database accepts and the first did not: layers to which the
root leads, and actions, but for those excepted, which such layers list. -/
structure Shown (db db' : GraphDatabase) (root : LayerId)
    (excepted : ActionId → Prop) : Prop where
  layers : ∀ layer row', db'.layers.get? layer = some row' →
    row'.state = .accepted →
    (∃ row, db.layers.get? layer = some row ∧ row.state = .accepted) ∨
      db'.Leads root layer
  actions : ∀ id row', db'.actions.get? id = some row' →
    row'.state = .accepted →
    (∃ row, db.actions.get? id = some row ∧ row.state = .accepted) ∨
      excepted id ∨ ∃ layer stored, db'.Leads root layer ∧
        db'.layers.get? layer = some stored ∧ id ∈ stored.actions

theorem Walked.shown {origin : LayerId → Prop} {given : ActionId → Prop}
    (hwalked : Walked db scope origin given plan []) (hsourced : db.DraftSourced)
    (h : db.WellFormed) (hscope : db.Issued scope)
    (hplan : Publishable db scope plan)
    (hroot : plan.rootLayer ∈ plan.layers ∨
      db.AcceptedLayer scope.target plan.rootLayer)
    (horigin : ∀ layer, origin layer → layer = plan.rootLayer)
    (hrun : db.publish scope plan revision = .ok db') :
    Shown db db' plan.rootLayer given := by
  have hleads : ∀ layer ∈ plan.layers, db'.Leads plan.rootLayer layer := by
    intro layer hlayer
    obtain ⟨start, hstart, hpath⟩ := hwalked.reached layer (.inl hlayer)
    obtain rfl := horigin start hstart
    exact leads_of_authored hsourced h hscope hwalked hplan hrun hroot hpath
  constructor
  · intro layer row' hrow' hstate'
    obtain ⟨base, extra, hbase, rfl, -⟩ := (publish_ok hrun).1.of_get? hrow'
    simp only [acceptRows, Table.get?_mapRows, Option.map_eq_some_iff] at hbase
    obtain ⟨row, hrow, rfl⟩ := hbase
    by_cases hstate : row.state = .accepted
    · exact .inl ⟨row, hrow, hstate⟩
    · right
      apply hleads
      exact (mem_layers_of_publish hrun hrow hstate hrow' hstate').1
  · intro id row' hrow' hstate'
    obtain ⟨row, hrow, -, rfl | ⟨-, hid⟩⟩ := accepts_of_publish hrun hrow'
    · exact .inl ⟨row', hrow, hstate'⟩
    · right
      rcases hwalked.actions id hid with hgiven | ⟨layer, hlayer, stored, hauthored⟩
      · exact .inl hgiven
      · obtain ⟨published, hpublished, hlisted⟩ :=
          listed_of_authored hsourced h hwalked hrun hlayer hauthored
        exact .inr ⟨layer, published, hleads layer hlayer, hpublished, hlisted⟩

/-- Nothing is accepted that was not. -/
structure AcceptsNothing (db db' : GraphDatabase) : Prop where
  layers : ∀ layer row', db'.layers.get? layer = some row' →
    row'.state = .accepted →
    ∃ row, db.layers.get? layer = some row ∧ row.state = .accepted
  actions : ∀ id row', db'.actions.get? id = some row' →
    row'.state = .accepted →
    ∃ row, db.actions.get? id = some row ∧ row.state = .accepted

namespace AcceptsNothing

theorem trans {a b c : GraphDatabase} (hab : a.AcceptsNothing b)
    (hbc : b.AcceptsNothing c) : a.AcceptsNothing c where
  layers layer row' hrow' hstate' := by
    obtain ⟨row, hrow, hstate⟩ := hbc.layers layer row' hrow' hstate'
    exact hab.layers layer row hrow hstate
  actions id row' hrow' hstate' := by
    obtain ⟨row, hrow, hstate⟩ := hbc.actions id row' hrow' hstate'
    exact hab.actions id row hrow hstate

theorem of_sameGraph (hsame : db.SameGraph db') : db.AcceptsNothing db' where
  layers _ row' hrow' hstate' := ⟨row', hsame.layers ▸ hrow', hstate'⟩
  actions _ row' hrow' hstate' := ⟨row', hsame.actions ▸ hrow', hstate'⟩

theorem of_grows {added : LayerId → ActionId → Prop}
    (hgrow : Grows added db db') : db.AcceptsNothing db' where
  layers layer row' hrow' hstate' := by
    obtain ⟨row, extra, hrow, rfl, -⟩ := hgrow.of_get? hrow'
    exact ⟨row, hrow, hstate'⟩
  actions id row' hrow' hstate' := ⟨row', hgrow.actions ▸ hrow', hstate'⟩

theorem updateAction {id : ActionId} {f : ActionRow → ActionRow}
    (hf : ∀ row, (f row).state = row.state) :
    db.AcceptsNothing (db.updateAction id f) where
  layers layer row' hrow' hstate' := ⟨row', hrow', hstate'⟩
  actions other row' hrow' hstate' := by
    simp only [GraphDatabase.updateAction, Table.get?_mapRows,
      Option.map_eq_some_iff] at hrow'
    obtain ⟨row, hrow, rfl⟩ := hrow'
    refine ⟨row, hrow, ?_⟩
    split at hstate'
    · rwa [hf] at hstate'
    · exact hstate'

theorem resolveLease (hresolved : LeaseResolved db scope plan db') :
    db.AcceptsNothing db' := by
  cases hresolved with
  | unleased hsame =>
      rw [hsame]
      exact of_sameGraph (.refl db)
  | untyped lease hheld hresolvable hupdated =>
      rw [hupdated]
      exact updateAction fun _ => rfl
  | typed lease hheld hrun =>
      obtain ⟨-, -, hgrow⟩ := resolveTyped_ok hrun
      apply trans _ (of_grows hgrow)
      exact updateAction fun _ => rfl

end AcceptsNothing

theorem Shown.after {middle : GraphDatabase} {root : LayerId}
    {excepted : ActionId → Prop} (hshown : Shown db middle root excepted)
    (hnothing : middle.AcceptsNothing db') (hret : middle.Retains db') :
    Shown db db' root excepted where
  layers layer row' hrow' hstate' := by
    obtain ⟨row, hrow, hstate⟩ := hnothing.layers layer row' hrow' hstate'
    exact (hshown.layers layer row hrow hstate).imp_right hret.leads
  actions id row' hrow' hstate' := by
    obtain ⟨row, hrow, hstate⟩ := hnothing.actions id row' hrow' hstate'
    rcases hshown.actions id row hrow hstate with hold | hexcepted |
      ⟨layer, stored, hpath, hstored, hlisted⟩
    · exact .inl hold
    · exact .inr (.inl hexcepted)
    · obtain ⟨stored', hstored', hlayer⟩ := hret.layers layer stored hstored
      exact .inr (.inr ⟨layer, stored', hret.leads hpath, hstored',
        hlayer.actions id hlisted⟩)

/-! ## Plans without additions -/

theorem DraftSourced.draftAdditions (hsourced : db.DraftSourced)
    (owner : NodeId) {id : ActionId} : id ∉ db.draftAdditions owner := by
  intro hid
  obtain ⟨row, hrow, hattached, -⟩ := mem_draftAdditions.mp hid
  rw [hsourced.unattached id row hrow] at hattached
  cases hattached

/-- Without additions, walks start at the root layer only. -/
theorem DraftSourced.returnOrigin (hsourced : db.DraftSourced)
    {root layer : LayerId} (horigin : ReturnOrigin db scope root layer) :
    layer = root := by
  rcases horigin with hroot | ⟨id, hid, -⟩
  · exact hroot
  · exact absurd hid (hsourced.draftAdditions _)

/-- The part of a plan which Advance publishes has every draft layer too. -/
theorem AdvancePlan.complete (hplan : AdvancePlan db scope plan)
    (hsourced : db.DraftSourced) :
    ∀ layer ∈ db.draftLayers scope.root, layer ∈ plan.layers := by
  intro layer hlayer
  obtain ⟨row, hrow, -, hdraft⟩ := mem_draftLayers.mp hlayer
  obtain ⟨whole, rootId, rootRow, hwhole, hroot⟩ := hplan.prospective
  obtain ⟨start, hstart, hpath⟩ :=
    hwhole.walked.reached layer (.inl (hwhole.complete layer hlayer))
  obtain rfl := hsourced.returnOrigin hstart
  rw [hroot] at hpath
  exact hplan.walked.mem_of_reached_draft hplan.root hpath hrow hdraft

/-! ## Transitions -/

variable {persisted : CompletionRow} {intent : CurrentTransition}
variable {expectedRevision : ℕ} {operationKey : String} {index : IndexAnswers}
variable {layer : LayerId} {published : Published}

theorem Advanced.shown (h : db.WellFormed) (hscope : db.Issued scope)
    (hsourced : db.DraftSourced)
    (hadvanced : Advanced db scope persisted revision layer plan published) :
    Shown db published.db layer (fun _ => False) := by
  have hplan := hadvanced.planned
  rw [← hadvanced.rootLayer]
  exact hplan.walked.shown hsourced h hscope hplan.publishable hplan.root
    (fun _ hstart => hstart) hadvanced.publishes

/-- The root action of a Return is recorded. -/
theorem Returned.rootAction {rootId : ActionId} {rootRow : ActionRow}
    {graph : GraphDatabase}
    (hreturned : Returned db scope host persisted revision layer plan rootId
      rootRow graph published) :
    ∃ row, published.db.completion? scope.root = some row ∧
      row.rootAction = some rootId := by
  obtain ⟨attached, resolved, root, -, -, hroot, ⟨row, hrow, -⟩, hfinal⟩ :=
    finalize_stages hreturned.finalizes
  obtain rfl : db.actionRecord rootId rootRow = root :=
    Option.some.inj (hreturned.planned.rootAction.symm.trans hroot)
  refine ⟨returnedRow rootId row, ?_, rfl⟩
  rw [hfinal, completion?_updateCompletion_self, hrow]
  rfl

theorem Returned.shown {rootId : ActionId} {rootRow : ActionRow}
    {graph : GraphDatabase} (h : db.WellFormed) (hscope : db.Issued scope)
    (hsourced : db.DraftSourced)
    (hreturned : Returned db scope host persisted revision layer plan rootId
      rootRow graph published) :
    Shown db published.db layer (fun id => id = rootId) := by
  have hplan := hreturned.planned
  obtain ⟨hgraph, -, attached, resolved, hattached, hshown, hresolved, hlease,
    hsame, hfinal⟩ := hreturned.stages h hscope
  have hpublished := hplan.walked.shown hsourced h hscope hplan.publishable
    hplan.root (fun _ hstart => hsourced.returnOrigin hstart)
    hreturned.publishes
  have hgiven : Shown db graph layer (fun id => id = rootId) := by
    rw [← hreturned.rootLayer]
    refine ⟨hpublished.layers, fun id row' hrow' hstate' => ?_⟩
    rcases hpublished.actions id row' hrow' hstate' with hold |
      (hroot | hid) | hlisted
    · exact .inl hold
    · exact .inr (.inl hroot)
    · exact absurd hid (hsourced.draftAdditions _)
    · exact .inr (.inr hlisted)
  -- The stages after publication accept nothing more.
  obtain ⟨-, _, hgrow, hshownSame, -⟩ :=
    publishAttached_ok hgraph.wellFormed hattached
  have hnothing := ((AcceptsNothing.of_grows hgrow).trans
    (.of_sameGraph hshownSame)).trans
      ((AcceptsNothing.resolveLease hresolved).trans (.of_sameGraph hsame))
  exact hgiven.after hnothing ((hshown.trans hlease).trans hfinal).retains

theorem Returned.draftSourced {rootId : ActionId} {rootRow : ActionRow}
    {graph : GraphDatabase} (h : db.WellFormed) (hscope : db.Issued scope)
    (hsourced : db.DraftSourced)
    (hreturned : Returned db scope host persisted revision layer plan rootId
      rootRow graph published) : published.db.DraftSourced := by
  have hplan := hreturned.planned
  obtain ⟨hgraph, hroot, -⟩ := hreturned.stages h hscope
  obtain ⟨attached, resolved, root, hattached, hresolved, -, -, hupdated⟩ :=
    finalize_stages hreturned.finalizes
  obtain ⟨-, -, -, -, hsound⟩ := publishAttached_ok hgraph.wellFormed hattached
  have hlayer : attached.AcceptedLayer scope.target plan.rootLayer := by
    rw [hreturned.rootLayer]
    exact hsound.retains.acceptedLayer hroot
  have hnext := hsound.wellFormed.resolveLease
    ((hreturned.lease.mono hgraph.retains).mono hsound.retains) hlayer hresolved
  rw [hupdated]
  apply DraftSourced.keep _ hnext.wellFormed (KeepsDrafts.updateCompletion _ _)
  apply DraftSourced.keep _ hsound.wellFormed (KeepsDrafts.resolveLease hresolved)
  apply DraftSourced.keep _ hgraph.wellFormed (KeepsDrafts.publishAttached hattached)
  exact hsourced.publish h hplan.complete hreturned.publishes

/-- The graph after the recording of a transition. -/
theorem Recorded.keepsDrafts {recorded : GraphDatabase}
    (hrecord : Recorded published scope host expectedRevision operationKey intent
      recorded) : published.db.KeepsDrafts recorded := by
  rw [hrecord.result]
  have happended := @KeepsDrafts.updateCompletion published.db scope.root
    ((published.revisionRow host expectedRevision operationKey intent).appendTo)
  have hmoved := happended.trans (KeepsDrafts.updateCompletion scope.root
    (published.headMove scope.root expectedRevision intent).apply)
      fun id hnone => hnone
  exact hmoved.congr ⟨rfl, rfl, rfl⟩ rfl

/-- What a transition recorded in the end. -/
theorem Committed.result {result : Transitioned} {recorded : GraphDatabase}
    (h : db.WellFormed) (hscope : db.Issued scope)
    (hcommitted : Committed db scope host expectedRevision operationKey intent
      persisted published recorded)
    (hresult : result.db = recorded ∨ ∃ target indexed,
      result.db = recorded.recordRevision target indexed) :
    published.db.Sound result.db ∧ published.db.SameGraph result.db ∧
      published.db.KeepsDrafts result.db ∧
      ∀ row, published.db.completion? scope.root = some row →
        ∃ row', result.db.completion? scope.root = some row' ∧
          row'.rootAction = row.rootAction := by
  obtain ⟨hbody, hcurrent⟩ :=
    transitionBody_sound h hscope hcommitted.stored hcommitted.body
  have hsound := hcommitted.record.sound hbody.wellFormed
    (hbody.retains.issued hscope) hcurrent
  have hrow : ∀ row, published.db.completion? scope.root = some row →
      ∃ row', recorded.completion? scope.root = some row' ∧
        row'.rootAction = row.rootAction := by
    intro row hrow
    have hrecorded := hcommitted.record.completion? scope.root
    rw [if_pos rfl, hrow, Option.map_some] at hrecorded
    exact ⟨_, hrecorded, rfl⟩
  rcases hresult with hsame | ⟨target, indexed, hsame⟩
  · rw [hsame]
    exact ⟨hsound, hcommitted.record.sameGraph, hcommitted.record.keepsDrafts, hrow⟩
  · rw [hsame]
    exact ⟨hsound.trans (hsound.wellFormed.congr rfl rfl ⟨rfl, rfl, rfl⟩),
      hcommitted.record.sameGraph.trans ⟨rfl, rfl, rfl⟩,
      hcommitted.record.keepsDrafts.congr ⟨rfl, rfl, rfl⟩ rfl, hrow⟩

/-- The body of a transition leaves drafts on draft nodes. -/
theorem DraftSourced.transitionBody (hsourced : db.DraftSourced)
    (h : db.WellFormed) (hscope : db.Issued scope)
    (hrun : db.transitionBody scope host persisted revision intent =
      .ok published) : published.db.DraftSourced := by
  cases intent with
  | advance layer =>
      obtain ⟨plan, hadvanced⟩ := advance_ok hrun
      exact hsourced.publish h (hadvanced.planned.complete hsourced)
        hadvanced.publishes
  | «return» layer =>
      obtain ⟨plan, rootId, rootRow, graph, hreturned⟩ := returnCurrent_ok hrun
      exact hreturned.draftSourced h hscope hsourced
  | stop reason =>
      obtain rfl := Except.ok.inj hrun
      exact hsourced.keep h (KeepsDrafts.updateCompletion _ _)
  | fail reason =>
      obtain rfl := Except.ok.inj hrun
      exact hsourced.keep h (KeepsDrafts.updateCompletion _ _)

theorem DraftSourced.transition (hsourced : db.DraftSourced)
    (h : db.WellFormed) (hscope : db.Issued scope) {result : Transitioned}
    (hrun : db.transition scope host expectedRevision operationKey intent index =
      .ok result) : result.db.DraftSourced := by
  rcases transition_ok hrun with ⟨receipt, -, -, rfl⟩ |
    ⟨persisted, published, recorded, hcommitted, hresult, -⟩
  · exact hsourced
  · obtain ⟨-, -, hkeep, -⟩ := hcommitted.result h hscope hresult
    have hbody := transitionBody_sound h hscope hcommitted.stored hcommitted.body
    exact (hsourced.transitionBody h hscope hcommitted.body).keep
      hbody.1.wellFormed hkeep

/-- A transition that is replayed accepts nothing. -/
theorem Shown.refl (root : LayerId) (excepted : ActionId → Prop) :
    Shown db db root excepted where
  layers _ row' hrow' hstate' := .inl ⟨row', hrow', hstate'⟩
  actions _ row' hrow' hstate' := .inl ⟨row', hrow', hstate'⟩

/-- What Advance accepts is shown. -/
theorem shown_of_advance (h : db.WellFormed) (hscope : db.Issued scope)
    (hsourced : db.DraftSourced) {result : Transitioned}
    (hrun : db.transition scope host expectedRevision operationKey
      (.advance layer) index = .ok result) :
    Shown db result.db layer fun _ => False := by
  rcases transition_ok hrun with ⟨receipt, -, -, rfl⟩ |
    ⟨persisted, published, recorded, hcommitted, hresult, -⟩
  · exact .refl layer _
  · obtain ⟨hsound, hsame, -, -⟩ := hcommitted.result h hscope hresult
    obtain ⟨plan, hadvanced⟩ := advance_ok hcommitted.body
    exact (hadvanced.shown h hscope hsourced).after (.of_sameGraph hsame)
      hsound.retains

/-- What Return accepts is shown, but for the root action of the completion. -/
theorem shown_of_return (h : db.WellFormed) (hscope : db.Issued scope)
    (hsourced : db.DraftSourced) {result : Transitioned}
    (hrun : db.transition scope host expectedRevision operationKey
      (.return layer) index = .ok result) :
    Shown db result.db layer fun id => ∃ row,
      result.db.completion? scope.root = some row ∧ row.rootAction = some id := by
  rcases transition_ok hrun with ⟨receipt, -, -, rfl⟩ |
    ⟨persisted, published, recorded, hcommitted, hresult, -⟩
  · exact .refl layer _
  · obtain ⟨hsound, hsame, -, hrow⟩ := hcommitted.result h hscope hresult
    obtain ⟨plan, rootId, rootRow, graph, hreturned⟩ :=
      returnCurrent_ok hcommitted.body
    obtain ⟨row, hpublished, hroot⟩ := hreturned.rootAction
    obtain ⟨row', hrow', hkept⟩ := hrow row hpublished
    have hshown := (hreturned.shown h hscope hsourced).after
      (.of_sameGraph hsame) hsound.retains
    refine ⟨hshown.layers, fun id action haction hstate => ?_⟩
    rcases hshown.actions id action haction hstate with hold | rfl | hlisted
    · exact .inl hold
    · exact .inr (.inl ⟨row', hrow', hkept.trans hroot⟩)
    · exact .inr (.inr hlisted)

/-! ## Runs without additions -/

/-- The operation adds an action to a node that was attached to its
interaction. -/
def attaches (db : GraphDatabase) : Operation → Bool
  | .addAction author draft _ =>
      ((db.writerScope author).toOption).any fun scope =>
        db.isAttachedSource scope draft.sourceNodeId
  | _ => false

/-- Runs in which nobody adds to attached nodes. -/
def unattached (host : Host) : TransitionSystem GraphDatabase Operation :=
  (native host).restrict fun db operation => db.attaches operation = false

theorem DraftSourced.perform (hsourced : db.DraftSourced) (h : db.WellFormed)
    {operation : Operation} (hunattached : db.attaches operation = false)
    (hrun : db.perform host operation = .ok db') : db'.DraftSourced := by
  cases operation with
  | createInteraction target text preparation =>
      obtain ⟨id, hrun⟩ := map_snd_eq_ok hrun
      obtain ⟨-, row, -, -, -, -, -, rfl⟩ := createInteraction_ok hrun
      exact hsourced.keep h (KeepsDrafts.insertNode row _)
  | activateAuthority interaction =>
      obtain ⟨epoch, hrun⟩ := map_snd_eq_ok hrun
      rw [activateAuthority_ok hrun]
      exact hsourced.keep h (KeepsDrafts.updateCompletion _ _)
  | submitNode author draft contents =>
      obtain ⟨scope, -, hrun⟩ := bind_eq_ok_iff.mp hrun
      obtain ⟨id, hrun⟩ := map_snd_eq_ok hrun
      exact hsourced.keep h (KeepsDrafts.submitNode hrun)
  | createEdge author draft =>
      obtain ⟨scope, -, hrun⟩ := bind_eq_ok_iff.mp hrun
      obtain ⟨id, hrun⟩ := map_snd_eq_ok hrun
      rcases createEdge_ok hrun with rfl | ⟨endpoints, hinsert⟩
      · exact hsourced
      · simp only [insertDraftEdge, Prod.mk.injEq] at hinsert
        obtain ⟨-, rfl⟩ := hinsert
        -- No condition reads an edge.
        exact ⟨hsourced.unattached, hsourced.sources⟩
  | submitLayer author draft renderer =>
      obtain ⟨scope, -, hrun⟩ := bind_eq_ok_iff.mp hrun
      obtain ⟨id, hrun⟩ := map_snd_eq_ok hrun
      exact hsourced.keep h (KeepsDrafts.submitLayer hrun)
  | addAction author draft preparedIcon =>
      obtain ⟨scope, hscope, hrun⟩ := bind_eq_ok_iff.mp hrun
      obtain ⟨id, hrun⟩ := map_snd_eq_ok hrun
      have hplain : db.isAttachedSource scope draft.sourceNodeId = false := by
        simpa [attaches, hscope, Except.toOption] using hunattached
      exact hsourced.addAction hplain hrun
  | discardLayer author layer =>
      obtain ⟨scope, -, hrun⟩ := bind_eq_ok_iff.mp hrun
      obtain ⟨id, hrun⟩ := map_snd_eq_ok hrun
      exact hsourced.keep h (KeepsDrafts.discardLayer hrun)
  | stagePresentation author node expectedRevision package assets =>
      obtain ⟨scope, -, hrun⟩ := bind_eq_ok_iff.mp hrun
      obtain ⟨-, -, rfl⟩ := stagePresentation_ok hrun
      exact hsourced.keep h (KeepsDrafts.updateCompletion _ _)
  | transition author expectedRevision operationKey intent index =>
      obtain ⟨scope, hscope, hrun⟩ := bind_eq_ok_iff.mp hrun
      obtain ⟨result, hresult, rfl⟩ := exceptMap_eq_ok_iff.mp hrun
      exact hsourced.transition h (issued_of_writerScope hscope).1 hresult

theorem draftSourced_of_reachable (hreach : (unattached host).Reachable db) :
    db.DraftSourced := by
  apply hreach.invariant
  · rintro _ ⟨permissionsEnabled, temporalFeatures, rfl⟩
    constructor
    · intro id row hrow
      simp [initial] at hrow
    · intro id row layer stored hrow
      simp [initial] at hrow
  · intro before operation after hbefore hold hstep
    exact hold.perform (wellFormed_of_reachable hbefore.of_restrict) hstep.2
      hstep.1

/-- Nothing becomes accepted that its publication does not show.  In runs
without additions to attached nodes, every layer that an Advance or a Return
accepts is reached from its root layer along accepted navigation, and every
action it accepts is listed by such a layer; the one exception is the root
action which a Return records. -/
theorem publication_complete (host : Host) (db db' : GraphDatabase)
    (hreach : (unattached host).Reachable db) (author : Author)
    (expectedRevision : ℕ) (operationKey : String) (index : IndexAnswers)
    (layer : LayerId) :
    ((native host).step db (.transition author expectedRevision operationKey
        (.advance layer) index) db' →
      Shown db db' layer fun _ => False) ∧
      ((native host).step db (.transition author expectedRevision operationKey
        (.return layer) index) db' →
      Shown db db' layer fun id => ∃ row,
        db'.completion? author.interaction = some row ∧
          row.rootAction = some id) := by
  have h := wellFormed_of_reachable hreach.of_restrict
  have hsourced := draftSourced_of_reachable hreach
  constructor
  · intro hstep
    obtain ⟨scope, hscope, hrun⟩ := bind_eq_ok_iff.mp hstep
    obtain ⟨result, hresult, rfl⟩ := exceptMap_eq_ok_iff.mp hrun
    exact shown_of_advance h (issued_of_writerScope hscope).1 hsourced hresult
  · intro hstep
    obtain ⟨scope, hscope, hrun⟩ := bind_eq_ok_iff.mp hstep
    obtain ⟨result, hresult, rfl⟩ := exceptMap_eq_ok_iff.mp hrun
    obtain ⟨hissued, hroot⟩ := issued_of_writerScope hscope
    rw [← hroot]
    exact shown_of_return h hissued hsourced hresult

/-! ## An answer in two layers -/

/-- The operations of a list, except those that add to attached nodes. -/
def performUnattached (host : Host) (db : GraphDatabase)
    (operations : List Operation) : GraphDatabase :=
  operations.foldl
    (fun db operation =>
      if db.attaches operation then db else db.attempt host operation) db

theorem reachable_performUnattached (hreach : (unattached host).Reachable db)
    (operations : List Operation) :
    (unattached host).Reachable (db.performUnattached host operations) := by
  induction operations generalizing db with
  | nil => exact hreach
  | cons operation rest ih =>
      apply ih
      dsimp only
      split
      · exact hreach
      · rename_i hplain
        rw [attempt]
        split
        · rename_i hstep
          exact .step hreach ⟨hstep, by simpa using hplain⟩
        · exact hreach

end GraphDatabase

namespace Sample

open GraphDatabase

/-- The two layers of the answer are ready. -/
def drafted : GraphDatabase :=
  (initial false temporal).performUnattached host expanding.dropLast

theorem reachable_drafted : (unattached host).Reachable drafted :=
  reachable_performUnattached (.init ⟨false, temporal, rfl⟩) _

/-- The answer was returned. -/
def answered : GraphDatabase := drafted.attempt host (returns ⟨1⟩)

theorem step_answered : (native host).step drafted (returns ⟨1⟩) answered :=
  step_attempt (by decide)

end Sample

namespace GraphDatabase

theorem publication_complete_answered :
    Sample.answered.Leads ⟨1⟩ ⟨2⟩ ∧
      ∃ layer stored, Sample.answered.Leads ⟨1⟩ layer ∧
        Sample.answered.layers.get? layer = some stored ∧ ⟨1⟩ ∈ stored.actions := by
  have hshown := (publication_complete Sample.host Sample.drafted
    Sample.answered Sample.reachable_drafted Sample.author 0 "return"
    ⟨.ok (), .ok true, .ok 1, .ok ()⟩ ⟨1⟩).2 Sample.step_answered
  constructor
  · have hlayer : (Sample.answered.layers.get? ⟨2⟩).map (·.state) =
        some .accepted := by decide
    obtain ⟨row, hrow, hstate⟩ := Option.map_eq_some_iff.mp hlayer
    rcases hshown.layers ⟨2⟩ row hrow hstate with ⟨old, hold, haccepted⟩ | hpath
    · have hbefore : (Sample.drafted.layers.get? ⟨2⟩).map (·.state) =
          some .draft := by decide
      rw [hold, Option.map_some, haccepted] at hbefore
      cases hbefore
    · exact hpath
  · have haction : (Sample.answered.actions.get? ⟨1⟩).map (·.state) =
        some .accepted := by decide
    obtain ⟨row, hrow, hstate⟩ := Option.map_eq_some_iff.mp haction
    rcases hshown.actions ⟨1⟩ row hrow hstate with ⟨old, hold, haccepted⟩ |
      ⟨completion, hcompletion, hroot⟩ | hlisted
    · have hbefore : (Sample.drafted.actions.get? ⟨1⟩).map (·.state) =
          some .draft := by decide
      rw [hold, Option.map_some, haccepted] at hbefore
      cases hbefore
    · -- The root action is the second action.
      have hstored : (Sample.answered.completion? ⟨1⟩).bind (·.rootAction) =
          some ⟨2⟩ := by decide
      rw [show Sample.author.interaction = ⟨1⟩ from rfl] at hcompletion
      rw [hcompletion, Option.bind_some, hroot] at hstored
      exact absurd hstored (by decide)
    · exact hlisted

end GraphDatabase

end RelayerGraph
