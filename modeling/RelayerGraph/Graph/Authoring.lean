import RelayerGraph.Graph.WellFormed

/-!
# Authoring keeps databases well formed

One lemma for each operation that writes drafts: it retains what was said, and
the rows it writes are well formed.
-/

namespace RelayerGraph

open Foundation Checked

namespace GraphDatabase

variable {db db' : GraphDatabase} {scope : InteractionScope} {host : Host}

/-- A step which retains what was said and leaves a well-formed database. -/
structure Sound (db db' : GraphDatabase) : Prop where
  retains : db.Retains db'
  wellFormed : db'.WellFormed

theorem Sound.trans {a b c : GraphDatabase} (hab : a.Sound b) (hbc : b.Sound c) :
    a.Sound c :=
  ⟨hab.retains.trans hbc.retains, hbc.wellFormed⟩

theorem WellFormed.sound (h : db.WellFormed) : db.Sound db := ⟨.refl db, h⟩

/-! ## Writing one table -/

theorem WellFormed.insertNode (h : db.WellFormed) {row : NodeRow}
    (hrow : row.Ok db) (outbox : List ProjectionRow) :
    db.Sound { db with nodes := db.nodes.insert row, outbox } := by
  have hret : db.Retains { db with nodes := db.nodes.insert row, outbox } :=
    { Retains.refl db with
      nodes := .insert (fun _ => NodeRow.Retains.refl) _ _ }
  refine ⟨hret, h.of_retains hret ?_ (fun _ _ => .inl) (fun _ _ => .inl)⟩
  intro id found hfound
  simp only [Table.get?_insert] at hfound
  split at hfound
  · obtain rfl := Option.some.inj hfound
    exact .inr (hrow.mono hret)
  · exact .inl hfound

theorem WellFormed.mapNodes (h : db.WellFormed) {f : NodeId → NodeRow → NodeRow}
    (hf : ∀ id row, db.nodes.get? id = some row →
      row.Retains (f id row) ∧ (f id row).Ok db) :
    db.Sound { db with nodes := db.nodes.mapRows f } := by
  have hret : db.Retains { db with nodes := db.nodes.mapRows f } :=
    { Retains.refl db with
      nodes := .mapRows fun id row hrow => (hf id row hrow).1 }
  refine ⟨hret, h.of_retains hret ?_ (fun _ _ => .inl) (fun _ _ => .inl)⟩
  intro id found hfound
  simp only [Table.get?_mapRows, Option.map_eq_some_iff] at hfound
  obtain ⟨row, hrow, rfl⟩ := hfound
  exact .inr ((hf id row hrow).2.mono hret)

theorem WellFormed.insertEdge (h : db.WellFormed) (row : EdgeRow) :
    db.Sound { db with edges := db.edges.insert row } := by
  have hret : db.Retains { db with edges := db.edges.insert row } :=
    { Retains.refl db with
      edges := .insert (fun _ => EdgeRow.Retains.refl) _ _ }
  exact ⟨hret, h.of_retains hret (fun _ _ => .inl) (fun _ _ => .inl)
    (fun _ _ => .inl)⟩

theorem WellFormed.insertLayer (h : db.WellFormed) {row : LayerRow}
    (hrow : row.Ok db) :
    db.Sound { db with layers := db.layers.insert row } := by
  have hret : db.Retains { db with layers := db.layers.insert row } :=
    { Retains.refl db with
      layers := .insert (fun _ => LayerRow.Retains.refl) _ _ }
  refine ⟨hret, h.of_retains hret (fun _ _ => .inl) ?_ (fun _ _ => .inl)⟩
  intro id found hfound
  simp only [Table.get?_insert] at hfound
  split at hfound
  · obtain rfl := Option.some.inj hfound
    exact .inr (hrow.mono hret)
  · exact .inl hfound

theorem WellFormed.mapLayers (h : db.WellFormed)
    {f : LayerId → LayerRow → LayerRow}
    (hf : ∀ id row, db.layers.get? id = some row →
      row.Retains (f id row) ∧ (f id row).Ok db) :
    db.Sound { db with layers := db.layers.mapRows f } := by
  have hret : db.Retains { db with layers := db.layers.mapRows f } :=
    { Retains.refl db with
      layers := .mapRows fun id row hrow => (hf id row hrow).1 }
  refine ⟨hret, h.of_retains hret (fun _ _ => .inl) ?_ (fun _ _ => .inl)⟩
  intro id found hfound
  simp only [Table.get?_mapRows, Option.map_eq_some_iff] at hfound
  obtain ⟨row, hrow, rfl⟩ := hfound
  exact .inr ((hf id row hrow).2.mono hret)

theorem WellFormed.insertAction (h : db.WellFormed) {row : ActionRow}
    (hrow : row.Ok db) :
    db.Sound { db with actions := db.actions.insert row } := by
  have hret : db.Retains { db with actions := db.actions.insert row } :=
    { Retains.refl db with
      actions := .insert (fun _ => ActionRow.Retains.refl) _ _ }
  refine ⟨hret, h.of_retains hret (fun _ _ => .inl) (fun _ _ => .inl) ?_⟩
  intro id found hfound
  simp only [Table.get?_insert] at hfound
  split at hfound
  · obtain rfl := Option.some.inj hfound
    exact .inr (hrow.mono hret)
  · exact .inl hfound

theorem WellFormed.updateAction (h : db.WellFormed) {id : ActionId}
    {f : ActionRow → ActionRow}
    (hf : ∀ row, db.actions.get? id = some row →
      row.Retains (f row) ∧ (f row).Ok db) :
    db.Sound (db.updateAction id f) := by
  have hret : db.Retains (db.updateAction id f) :=
    { Retains.refl db with
      actions := .mapRows fun other row hrow => by
        by_cases hid : other = id
        · rw [if_pos hid]
          exact (hf row (hid ▸ hrow)).1
        · rw [if_neg hid]
          exact .refl row }
  refine ⟨hret, h.of_retains hret (fun _ _ => .inl) (fun _ _ => .inl) ?_⟩
  intro other found hfound
  simp only [GraphDatabase.updateAction, Table.get?_mapRows,
    Option.map_eq_some_iff] at hfound
  obtain ⟨row, hrow, rfl⟩ := hfound
  by_cases hid : other = id
  · rw [if_pos hid]
    exact .inr ((hf row (hid ▸ hrow)).2.mono hret)
  · rw [if_neg hid]
    exact .inl hrow

/-- A rewrite of the rows of one completion. -/
theorem WellFormed.updateCompletion (h : db.WellFormed) {interaction : NodeId}
    {f : CompletionRow → CompletionRow}
    (hf : ∀ row completion, db.nodes.get? interaction = some row →
      row.completion = some completion → (f completion).Ok db row.target) :
    db.Sound (db.updateCompletion interaction f) := by
  refine h.mapNodes fun id row hrow => ?_
  by_cases hid : id = interaction
  · subst hid
    rw [if_pos rfl]
    have hok := h.nodes id row hrow
    refine ⟨⟨rfl, rfl, fun _ => rfl, fun hstate => hstate, by simp⟩, ?_⟩
    constructor
    · intro owner howner
      obtain ⟨hroot, hnone⟩ := hok.owner owner howner
      exact ⟨hroot, by simp [hnone]⟩
    · intro hnone
      obtain ⟨hkind, hstate, hsome⟩ := hok.interaction hnone
      exact ⟨hkind, hstate, by simpa using hsome⟩
    · intro completion hcompletion
      obtain ⟨stored, hstored, rfl⟩ := Option.map_eq_some_iff.mp hcompletion
      exact hf row stored hrow hstored
  · rw [if_neg hid]
    exact ⟨.refl row, h.nodes id row hrow⟩

/-- A rewrite which keeps the current layer. -/
theorem WellFormed.updateCompletion_of_currentLayer (h : db.WellFormed)
    {interaction : NodeId} {f : CompletionRow → CompletionRow}
    (hf : ∀ completion, (f completion).currentLayer = completion.currentLayer) :
    db.Sound (db.updateCompletion interaction f) := by
  refine h.updateCompletion fun row completion hrow hcompletion => ⟨?_⟩
  intro layer hlayer
  rw [hf] at hlayer
  exact ((h.nodes _ row hrow).completion completion hcompletion).currentLayer
    layer hlayer

/-! ## Scopes -/

/-- The scope of an interaction of the database. -/
def Issued (db : GraphDatabase) (scope : InteractionScope) : Prop :=
  ∃ row, db.nodes.get? scope.root = some row ∧ row.owner = none ∧
    row.toRowScope = scope.toRowScope

theorem issued_of_interactionScope {id : NodeId}
    (hscope : db.interactionScope id = .ok scope) :
    db.Issued scope ∧ scope.root = id := by
  rw [interactionScope] at hscope
  split at hscope
  · rename_i row hrow
    split at hscope
    · rename_i hinteraction
      obtain rfl := Except.ok.inj hscope
      exact ⟨⟨row, hrow, hinteraction.2.2, rfl⟩, rfl⟩
    · cases hscope
  · cases hscope

theorem issued_of_writerScope {author : Author}
    (hscope : db.writerScope author = .ok scope) :
    db.Issued scope ∧ scope.root = author.interaction := by
  simp only [writerScope, Except.map] at hscope
  split at hscope
  · cases hscope
  · rename_i found hfound
    obtain rfl := Except.ok.inj hscope
    obtain ⟨⟨row, hrow, howner, hsame⟩, hroot⟩ := issued_of_interactionScope hfound
    exact ⟨⟨row, hrow, howner, hsame⟩, hroot⟩

theorem Issued.interaction (h : db.Issued scope) :
    db.Interaction scope.target scope.root := by
  obtain ⟨row, hrow, howner, hsame⟩ := h
  exact ⟨row, hrow, by rw [hsame], howner⟩

theorem Retains.issued (hret : db.Retains db') (h : db.Issued scope) :
    db'.Issued scope := by
  obtain ⟨row, hrow, howner, hsame⟩ := h
  obtain ⟨row', hrow', hkeep⟩ := hret.nodes _ row hrow
  exact ⟨row', hrow', hkeep.owner.trans howner, hkeep.scope.trans hsame⟩

theorem Interaction.target_unique {target other : SearchTarget} {id : NodeId}
    (h : db.Interaction target id) (h' : db.Interaction other id) :
    target = other := by
  obtain ⟨row, hrow, rfl, -⟩ := h
  obtain ⟨row', hrow', rfl, -⟩ := h'
  rw [hrow, Option.some.injEq] at hrow'
  rw [hrow']

/-! ## Interactions and authority -/

theorem createInteraction_ok {target : RowScope} {text : String}
    {preparation : Preparation} {id : NodeId}
    (hrun : db.createInteraction host target text preparation = .ok (id, db')) :
    id = db.nodes.nextKey ∧ ∃ row : NodeRow, row.toRowScope = target ∧
      row.kind = "user-interaction" ∧ row.state = .accepted ∧ row.owner = none ∧
      row.completion = some (db.initialCompletion host target preparation) ∧
      db' = { db with
        nodes := db.nodes.insert row
        outbox := db.outbox ++ [⟨db.nodes.nextKey, 0, "initialized"⟩] } := by
  simp only [GraphDatabase.createInteraction, bind_eq_ok_iff, require_eq_ok_iff,
    pure_eq_ok_iff, Prod.mk.injEq] at hrun
  obtain ⟨-, -, rfl, rfl⟩ := hrun
  exact ⟨rfl, _, rfl, rfl, rfl, rfl, rfl, rfl⟩

theorem WellFormed.createInteraction (h : db.WellFormed) {target : RowScope}
    {text : String} {preparation : Preparation} {id : NodeId}
    (hrun : db.createInteraction host target text preparation = .ok (id, db')) :
    db.Sound db' := by
  obtain ⟨-, row, -, hkind, hstate, howner, hcompletion, rfl⟩ :=
    createInteraction_ok hrun
  refine h.insertNode ⟨?_, ?_, ?_⟩ _
  · intro owner hsome
    exact absurd (howner.symm.trans hsome) (by simp)
  · intro _
    exact ⟨hkind, hstate, by simp [hcompletion]⟩
  · intro completion hsome
    obtain rfl := Option.some.inj (hcompletion.symm.trans hsome)
    exact ⟨fun layer hlayer => by cases hlayer⟩

theorem activateAuthority_ok {interaction : NodeId} {epoch : ℕ}
    (hrun : db.activateAuthority interaction = .ok (epoch, db')) :
    db' = db.updateCompletion interaction fun row =>
      { row with
        authority := { row.authority with epoch := row.authority.epoch + 1 } } := by
  simp only [GraphDatabase.activateAuthority, bind_eq_ok_iff, require_eq_ok_iff,
    pure_eq_ok_iff, Prod.mk.injEq] at hrun
  obtain ⟨_, -, -, -, -, rfl⟩ := hrun
  rfl

theorem WellFormed.activateAuthority (h : db.WellFormed) {interaction : NodeId}
    {epoch : ℕ} (hrun : db.activateAuthority interaction = .ok (epoch, db')) :
    db.Sound db' := by
  rw [activateAuthority_ok hrun]
  exact h.updateCompletion_of_currentLayer fun _ => rfl

/-- A writer works on an active interaction. -/
theorem ensureWritable_ok {done : Unit}
    (hcheck : db.ensureWritable host scope = .ok done) :
    scope.readOnly = false ∧ ∃ row, db.completion? scope.root = some row ∧
      row.lifecycle = .active := by
  simp only [ensureWritable, bind_eq_ok_iff, require_eq_ok_iff, completionState,
    orThrow_eq_ok_iff] at hcheck
  obtain ⟨-, hwritable, -, -, row, hrow, hactive⟩ := hcheck
  exact ⟨hwritable, row, hrow, hactive⟩

/-! ## Nodes and edges -/

theorem nodeByKey_eq_some {owner : NodeId} {clientKey : String} {id : NodeId}
    (hkey : db.nodeByKey owner clientKey = some id) :
    ∃ row, db.nodes.get? id = some row ∧ row.owner = some owner := by
  obtain ⟨row, hrow, hp⟩ := Table.get?_of_head?_select hkey
  exact ⟨row, hrow, (of_decide_eq_true hp).1⟩

/-- A submission rewrites an own draft or inserts one. -/
theorem submitNode_ok {draft : NodeDraft} {contents : NodeContents} {id : NodeId}
    (hrun : db.submitNode scope host draft contents = .ok (id, db')) :
    db.ensureWritable host scope = .ok () ∧ ∃ draft : NodeDraft,
      (∃ row, db.nodes.get? id = some row ∧ row.owner = some scope.root ∧
        row.state = .draft ∧ db' = db.updateDraftNode id draft
          contents.authoredDetail contents.artifact) ∨
      (id, db') = db.insertDraftNode scope draft
        contents.authoredDetail.replacement contents.artifact := by
  simp only [GraphDatabase.submitNode, bind_eq_ok_iff, require_eq_ok_iff,
    onlyIf_eq_ok_iff] at hrun
  obtain ⟨icon, -, ⟨⟩, hbroker, -, hdraft, ⟨⟩, htrusted, hwrite⟩ := hrun
  have hwritable : db.ensureWritable host scope = .ok () := by
    cases hepoch : scope.authorityEpoch with
    | none => exact htrusted (by simp [hepoch])
    | some epoch => exact hbroker (by simp [hepoch])
  refine ⟨hwritable, { draft with icon }, ?_⟩
  split at hwrite
  · rename_i found hkey
    obtain ⟨row, hrow, howner⟩ := nodeByKey_eq_some hkey
    simp only [pure_eq_ok_iff, Prod.mk.injEq] at hwrite
    obtain ⟨rfl, rfl⟩ := hwrite
    refine .inl ⟨row, hrow, howner, ?_, rfl⟩
    simpa [hkey, hrow] using hdraft
  · exact .inr (pure_eq_ok_iff.mp hwrite).symm

theorem WellFormed.submitNode (h : db.WellFormed) (hscope : db.Issued scope)
    {draft : NodeDraft} {contents : NodeContents} {id : NodeId}
    (hrun : db.submitNode scope host draft contents = .ok (id, db')) :
    db.Sound db' := by
  obtain ⟨-, draft, ⟨row, hrow, howner, -, rfl⟩ | hinsert⟩ := submitNode_ok hrun
  · refine h.mapNodes fun other stored hstored => ?_
    have hok := h.nodes other stored hstored
    by_cases hid : other = id
    · subst hid
      rw [if_pos rfl]
      obtain rfl : row = stored := by simpa [hrow] using hstored
      have howned : ¬ row.owner = none := by simp [howner]
      exact ⟨⟨rfl, rfl, fun hnone => absurd hnone howned, fun hstate => hstate,
        rfl⟩, hok.owner, fun hnone => absurd hnone howned, hok.completion⟩
    · rw [if_neg hid]
      exact ⟨.refl stored, hok⟩
  · simp only [insertDraftNode, Prod.mk.injEq] at hinsert
    obtain ⟨-, rfl⟩ := hinsert
    refine h.insertNode ⟨?_, ?_, ?_⟩ _
    · intro owner howner
      obtain rfl := Option.some.inj howner
      exact ⟨hscope.interaction, rfl⟩
    · intro hnone
      cases hnone
    · intro completion hcompletion
      cases hcompletion

theorem createEdge_ok {draft : EdgeDraft} {id : EdgeId}
    (hrun : db.createEdge scope host draft = .ok (id, db')) :
    db' = db ∨ ∃ endpoints,
      (id, db') = db.insertDraftEdge scope draft endpoints := by
  simp only [GraphDatabase.createEdge, bind_eq_ok_iff] at hrun
  obtain ⟨endpoints, -, -, -, -, -, -, -, hwrite⟩ := hrun
  split at hwrite
  · simp only [bind_eq_ok_iff, pure_eq_ok_iff, Prod.mk.injEq] at hwrite
    obtain ⟨-, -, -, rfl⟩ := hwrite
    exact .inl rfl
  · split at hwrite
    · cases hwrite
    · exact .inr ⟨endpoints, (pure_eq_ok_iff.mp hwrite).symm⟩

theorem WellFormed.createEdge (h : db.WellFormed) {draft : EdgeDraft}
    {id : EdgeId} (hrun : db.createEdge scope host draft = .ok (id, db')) :
    db.Sound db' := by
  rcases createEdge_ok hrun with rfl | ⟨endpoints, hinsert⟩
  · exact h.sound
  · simp only [insertDraftEdge, Prod.mk.injEq] at hinsert
    obtain ⟨-, rfl⟩ := hinsert
    exact h.insertEdge _

/-! ## Layers -/

theorem issueWhen_eq_nil_iff {condition : Bool} {code path message : String} :
    issueWhen condition code path message = [] ↔ condition = false := by
  cases condition <;> simp [issueWhen]

/-- What a valid layer candidate guarantees of the row stored for it. -/
theorem validateLayerCandidate_ok {draft : LayerDraft} {nodes : List GraphNode}
    {edges : List GraphEdge} {done : Unit}
    (hvalid : validateLayerCandidate draft nodes edges = .ok done) :
    (∀ node, draft.defaultNodeId = some node → node ∈ draft.nodes) ∧
      validateAuthoredLayout draft.layout draft.nodes draft.edges = .ok () ∧
      ∀ edge ∈ edges, edge.endpoints.1 ∈ nodes.map (·.id) ∧
        edge.endpoints.2 ∈ nodes.map (·.id) := by
  simp only [validateLayerCandidate, LayerDraft.validateShape, bind_eq_ok_iff,
    reportIssues, require_eq_ok_iff, forM_eq_ok_iff] at hvalid
  obtain ⟨-, ⟨-, -, hissues⟩, -, -, -, hedges, -⟩ := hvalid
  simp only [LayerDraft.shapeIssues, List.append_eq_nil_iff,
    issueWhen_eq_nil_iff] at hissues
  obtain ⟨⟨⟨⟨⟨⟨hdefault, -⟩, -⟩, -⟩, hlayout⟩, -⟩, -⟩ := hissues
  refine ⟨?_, ?_, hedges⟩
  · intro node hnode
    simpa [hnode] using hdefault
  · simp [validateAuthoredLayout, reportIssues, hlayout]

theorem layerByKey_eq_some {owner : NodeId} {clientKey : String} {id : LayerId}
    (hkey : db.layerByKey owner clientKey = some id) :
    ∃ row, db.layers.get? id = some row ∧ row.owner = owner := by
  obtain ⟨row, hrow, hp⟩ := Table.get?_of_head?_select hkey
  exact ⟨row, hrow, (of_decide_eq_true hp).1⟩

/-- A draft layer with the membership of a valid candidate is well formed. -/
theorem layerRow_ok_of_candidate (hscope : db.Issued scope)
    {draft : LayerDraft} {nodes : List GraphNode} {edges : List GraphEdge}
    (hnodes : draft.nodes.mapM (db.visibleNode scope) = .ok nodes)
    (hedges : draft.edges.mapM (db.visibleEdge scope) = .ok edges)
    (hvalid : validateLayerCandidate draft nodes edges = .ok ())
    {row : LayerRow} (htarget : row.target = scope.target)
    (howner : row.owner = scope.root) (hstate : row.state ≠ .accepted)
    (hactions : row.actions = [])
    (hcontent : row.content = (draft.nodes, draft.edges, draft.layout,
      draft.defaultNodeId, row.renderer)) : row.Ok db := by
  obtain ⟨hdefault, hlayout, hends⟩ := validateLayerCandidate_ok hvalid
  simp only [LayerRow.content, Prod.mk.injEq] at hcontent
  obtain ⟨hn, he, hl, hd, -⟩ := hcontent
  have hids : nodes.map (·.id) = draft.nodes := by
    have hview : ∀ (node : NodeId) (record : GraphNode),
        db.visibleNode scope node = .ok record → record.id = node := by
      intro node record hnode
      obtain ⟨_, -, -, -, rfl⟩ := visibleNode_eq_ok_iff.mp hnode
      rfl
    simpa using @map_eq_of_mapM _ _ _ _ _ _ _ _ id hview hnodes
  constructor
  · rw [htarget, howner]
    exact hscope.interaction
  · refine ⟨?_, ?_⟩
    · intro node hnode
      rw [hn]
      exact hdefault node (hd ▸ hnode)
    · intro layout hsome
      rw [hn, he, ← hsome, hl]
      exact hlayout
  · intro id hid
    rw [hn] at hid
    obtain ⟨record, -, hread⟩ := exists_mem_of_mapM hnodes hid
    obtain ⟨node, hnode, hin, hvisible, -⟩ := visibleNode_eq_ok_iff.mp hread
    refine ⟨node, hnode, (inScope_iff.mp hin).trans htarget.symm, ?_⟩
    exact hvisible.imp_right fun h => howner.symm ▸ h.2
  · intro id hid
    rw [he] at hid
    obtain ⟨record, hrecord, hread⟩ := exists_mem_of_mapM hedges hid
    obtain ⟨edge, hedge, hin, hvisible, rfl⟩ := visibleEdge_eq_ok_iff.mp hread
    obtain ⟨hleft, hright⟩ := hends _ hrecord
    rw [hids] at hleft hright
    rw [hn]
    refine ⟨edge, hedge, (inScope_iff.mp hin).trans htarget.symm, hleft, hright, ?_⟩
    exact hvisible.imp_right fun h => howner.symm ▸ h.2
  · intro haccepted
    exact absurd haccepted hstate
  · intro id hid
    rw [hactions] at hid
    cases hid

/-- A layer of an interaction lies in the interaction's target. -/
theorem WellFormed.layer_target (h : db.WellFormed) (hscope : db.Issued scope)
    {id : LayerId} {row : LayerRow} (hrow : db.layers.get? id = some row)
    (howner : row.owner = scope.root) : row.target = scope.target :=
  ((howner ▸ (h.layers id row hrow).owner :
    db.Interaction row.target scope.root)).target_unique hscope.interaction

/-- The columns of a layer row which a submission sets. -/
def submittedRow (draft : LayerDraft) (renderer : Option String)
    (row : LayerRow) : LayerRow :=
  { row with
    nodes := draft.nodes
    edges := draft.edges
    layout := draft.layout
    defaultNode := draft.defaultNodeId
    renderer }

/-- A submission rewrites an own draft layer or inserts one. -/
theorem upsertDraftLayer_ok {draft : LayerDraft} {renderer : Option String}
    {id : LayerId}
    (hrun : db.upsertDraftLayer scope draft renderer = .ok (id, db')) :
    (∃ row, db.layers.get? id = some row ∧ row.owner = scope.root ∧
      row.state = .draft ∧ db' = { db with
        layers := db.layers.mapRows fun other row =>
          if other = id then submittedRow draft renderer row else row }) ∨
    ∃ row : LayerRow, row.toRowScope = scope.toRowScope ∧
      row.state = .draft ∧ row.owner = scope.root ∧ row.actions = [] ∧
      row.content = (draft.nodes, draft.edges, draft.layout,
        draft.defaultNodeId, renderer) ∧
      db' = { db with layers := db.layers.insert row } := by
  rw [upsertDraftLayer] at hrun
  split at hrun
  · simp only [Except.ok.injEq, Prod.mk.injEq] at hrun
    obtain ⟨-, rfl⟩ := hrun
    exact .inr ⟨_, rfl, rfl, rfl, rfl, rfl, rfl⟩
  · rename_i found hkey
    obtain ⟨row, hrow, howner⟩ := layerByKey_eq_some hkey
    simp only [hrow, Option.map_some] at hrun
    split at hrun
    · cases hrun
    · cases hrun
    · rename_i hnotAccepted hnotStopped
      simp only [Except.ok.injEq, Prod.mk.injEq] at hrun
      obtain ⟨rfl, rfl⟩ := hrun
      refine .inl ⟨row, hrow, howner, ?_, rfl⟩
      cases hstate : row.state with
      | draft => rfl
      | accepted => exact absurd (congrArg some hstate) hnotAccepted
      | stopped => exact absurd (congrArg some hstate) hnotStopped

theorem submitLayer_ok {draft : LayerDraft} {renderer : Option String}
    {id : LayerId}
    (hrun : db.submitLayer scope host draft renderer = .ok (id, db')) :
    db.ensureWritable host scope = .ok () ∧ ∃ nodes edges,
      draft.nodes.mapM (db.visibleNode scope) = .ok nodes ∧
      draft.edges.mapM (db.visibleEdge scope) = .ok edges ∧
      validateLayerCandidate draft nodes edges = .ok () ∧
      db.upsertDraftLayer scope draft renderer = .ok (id, db') := by
  simp only [GraphDatabase.submitLayer, bind_eq_ok_iff] at hrun
  obtain ⟨⟨⟩, hwritable, nodes, hnodes, edges, hedges, -, -, -, -, ⟨⟩, hvalid,
    hwrite⟩ := hrun
  exact ⟨hwritable, nodes, edges, hnodes, hedges, hvalid, hwrite⟩

theorem WellFormed.submitLayer (h : db.WellFormed) (hscope : db.Issued scope)
    {draft : LayerDraft} {renderer : Option String} {id : LayerId}
    (hrun : db.submitLayer scope host draft renderer = .ok (id, db')) :
    db.Sound db' := by
  obtain ⟨-, nodes, edges, hnodes, hedges, hvalid, hwrite⟩ := submitLayer_ok hrun
  rcases upsertDraftLayer_ok hwrite with ⟨row, hrow, howner, hdraft, rfl⟩ |
    ⟨row, hrowScope, hdraft, howner, hempty, hcontent, rfl⟩
  · have hstate : row.state ≠ .accepted := by simp [hdraft]
    have htarget : row.target = scope.target := h.layer_target hscope hrow howner
    have hempty : row.actions = [] := (h.layers id row hrow).actions_eq_nil hstate
    refine h.mapLayers fun other stored hstored => ?_
    by_cases hid : other = id
    · subst hid
      rw [if_pos rfl]
      obtain rfl : row = stored := by simpa [hrow] using hstored
      refine ⟨⟨rfl, rfl, fun hold => hold, fun hold => absurd hold hstate,
        fun _ hmem => hmem⟩, ?_⟩
      exact layerRow_ok_of_candidate hscope hnodes hedges hvalid htarget
        howner hstate hempty rfl
    · rw [if_neg hid]
      exact ⟨.refl stored, h.layers other stored hstored⟩
  · have htarget : row.target = scope.target := by rw [hrowScope]
    have hrenderer : row.renderer = renderer := by
      simp only [LayerRow.content, Prod.mk.injEq] at hcontent
      exact hcontent.2.2.2.2
    exact h.insertLayer (layerRow_ok_of_candidate hscope hnodes hedges hvalid
      htarget howner (by simp [hdraft]) hempty (hrenderer ▸ hcontent))

theorem WellFormed.stopOwnedDraft (h : db.WellFormed) (layer : LayerId) :
    db.Sound (db.stopOwnedDraft scope layer) := by
  refine h.mapLayers fun id row hrow => ?_
  have hok := h.layers id row hrow
  by_cases hstop : id = layer ∧ row.owner = scope.root ∧ row.state = .draft
  · rw [if_pos hstop]
    have hdraft : row.state ≠ .accepted := by simp [hstop.2.2]
    have hempty := hok.actions_eq_nil hdraft
    refine ⟨⟨rfl, rfl, fun hold => absurd hold hdraft, fun _ => rfl,
      fun _ hmem => hmem⟩, hok.owner, hok.consistent, hok.nodes, hok.edges,
      (fun hstopped => by cases hstopped), ?_⟩
    intro id hid
    simp [hempty] at hid
  · rw [if_neg hstop]
    exact ⟨.refl row, hok⟩

theorem discardLayer_ok {layer id : LayerId}
    (hrun : db.discardLayer scope host layer = .ok (id, db')) :
    db' = db ∨ db' = db.stopOwnedDraft scope layer := by
  simp only [GraphDatabase.discardLayer, bind_eq_ok_iff] at hrun
  obtain ⟨-, -, found, -, row, -, -, -, hwrite⟩ := hrun
  split at hwrite
  · simp only [pure_eq_ok_iff, Prod.mk.injEq] at hwrite
    exact .inl hwrite.2.symm
  · cases hwrite
  · simp only [bind_eq_ok_iff, pure_eq_ok_iff, Prod.mk.injEq] at hwrite
    obtain ⟨-, -, -, -, -, rfl⟩ := hwrite
    exact .inr rfl

theorem WellFormed.discardLayer (h : db.WellFormed) {layer id : LayerId}
    (hrun : db.discardLayer scope host layer = .ok (id, db')) :
    db.Sound db' := by
  rcases discardLayer_ok hrun with rfl | rfl
  · exact h.sound
  · exact h.stopOwnedDraft layer

/-! ## Actions -/

/-- A valid navigate draft names its relation and its target. -/
theorem validateShape_ok {canonicalIcon : String → GraphResult String}
    {draft : ActionDraft} {icon : Option String}
    (hvalid : draft.validateShape canonicalIcon = .ok icon)
    (hkind : draft.kind = .navigate) :
    draft.relation.isSome ∧ draft.targetLayerId.isSome := by
  simp only [ActionDraft.validateShape, bind_eq_ok_iff, reportIssues,
    require_eq_ok_iff, List.append_eq_nil_iff] at hvalid
  obtain ⟨-, -, -, -, -, -, -, -, -, -, -, -, -, -, -, -, -, ⟨-, hissues⟩, -⟩ :=
    hvalid
  simp only [ActionDraft.kindIssues, hkind, ActionDraft.unexpectedField,
    List.append_eq_nil_iff, issueWhen_eq_nil_iff, Option.isNone_eq_false_iff]
    at hissues
  exact ⟨hissues.2, hissues.1.1⟩

theorem checkAddition_ok {draft : ActionDraft} {done : Unit}
    (hcheck : db.checkAddition scope host draft = .ok done) :
    draft.kind = .navigate ∧
      ∃ node, db.visibleNode scope draft.sourceNodeId = .ok node := by
  simp only [checkAddition, bind_eq_ok_iff, require_eq_ok_iff] at hcheck
  obtain ⟨-, -, node, hnode, -, hkind, -⟩ := hcheck
  exact ⟨hkind, node, hnode⟩

theorem checkRootAction_ok {draft : ActionDraft} {done : Unit}
    (hcheck : db.checkRootAction scope draft = .ok done) :
    draft.sourceLayerId = none ∧ draft.kind = .navigate ∧
      draft.relation = some .expand := by
  simp only [checkRootAction, bind_eq_ok_iff, require_eq_ok_iff] at hcheck
  obtain ⟨-, hlayer, -, hroot, -⟩ := hcheck
  exact ⟨hlayer, hroot⟩

theorem checkAuthored_ok {draft : ActionDraft} {source : NodeRow} {done : Unit}
    (hcheck : db.checkAuthored scope draft source = .ok done) :
    source.state = .draft ∧ source.owner = some scope.root ∧
      ∃ layer stored, draft.sourceLayerId = some layer ∧
        db.layers.get? layer = some stored ∧ InScope scope stored.toRowScope ∧
        stored.owner = scope.root ∧ stored.state = .draft ∧
        draft.sourceNodeId ∈ stored.nodes := by
  simp only [checkAuthored, bind_eq_ok_iff, require_eq_ok_iff,
    orThrow_eq_ok_iff] at hcheck
  obtain ⟨-, hsource, layer, hlayer, found, hfound, stored, hstored, -, hown, -,
    hmember, -⟩ := hcheck
  rw [hstored] at hfound
  obtain ⟨hrow, hin⟩ := layerRecord_eq_some hfound
  exact ⟨hsource.1, hsource.2, layer, stored, hlayer, hrow, hin, hown.1, hown.2,
    hmember⟩

theorem isAttachedSource_iff {source : NodeId} :
    db.isAttachedSource scope source = true ↔
      source ≠ scope.root ∧
        ∃ row, db.nodes.get? source = some row ∧ row.state = .accepted := by
  simp only [isAttachedSource, Option.any_eq_true, decide_eq_true_eq]
  constructor
  · rintro ⟨row, hrow, hstate, hne⟩
    exact ⟨hne, row, hrow, hstate⟩
  · rintro ⟨hne, row, hrow, hstate⟩
    exact ⟨row, hrow, hstate, hne⟩

/-- The row which a checked draft leaves is well formed. -/
theorem actionRow_ok_of_draft (h : db.WellFormed) (hscope : db.Issued scope)
    {draft : ActionDraft} {source : NodeRow} {row : ActionRow}
    (hnavigate : draft.kind = .navigate →
      draft.relation.isSome ∧ draft.targetLayerId.isSome)
    (hsource : db.nodes.get? draft.sourceNodeId = some source)
    (hcheck : db.checkSource scope host draft source = .ok ())
    (htarget : row.target = scope.target) (howner : row.owner = scope.root)
    (hstate : row.state = .draft)
    (horigin : row.origin = (draft.sourceNodeId, draft.sourceLayerId,
      db.isAttachedSource scope draft.sourceNodeId))
    (hlead : row.lead = (draft.kind, draft.relation, draft.targetLayerId)) :
    row.Ok db := by
  simp only [checkSource, bind_eq_ok_iff, onlyIf_eq_ok_iff] at hcheck
  obtain ⟨-, hattached, -, hroot, hauthored⟩ := hcheck
  simp only [ActionRow.origin, ActionRow.lead, Prod.mk.injEq] at horigin hlead
  obtain ⟨hrowSource, hrowLayer, hrowAttached⟩ := horigin
  obtain ⟨hrowKind, hrowRelation, hrowTarget⟩ := hlead
  have hnotAccepted : row.state ≠ .accepted := by simp [hstate]
  -- Who owns the source decides why it lies in the target of the scope.
  have hsourceTarget : source.target = row.target := by
    rw [htarget]
    by_cases hself : draft.sourceNodeId = scope.root
    · obtain ⟨root, hrow, -, hsame⟩ := hscope
      rw [hself, hrow, Option.some.injEq] at hsource
      rw [← hsource, hsame]
    · by_cases haccepted : db.isAttachedSource scope draft.sourceNodeId
      · obtain ⟨-, node, hnode⟩ := checkAddition_ok (hattached haccepted)
        obtain ⟨stored, hstored, hin, -, -⟩ := visibleNode_eq_ok_iff.mp hnode
        rw [hsource, Option.some.injEq] at hstored
        rw [hstored]
        exact inScope_iff.mp hin
      · obtain ⟨-, hown, -⟩ :=
          checkAuthored_ok (hauthored ⟨hself, by simpa using haccepted⟩)
        have hinteraction := ((h.nodes _ source hsource).owner _ hown).1
        exact hinteraction.target_unique hscope.interaction
  constructor
  · rw [htarget, howner]
    exact hscope.interaction
  · exact ⟨source, hrowSource ▸ hsource, hsourceTarget⟩
  · simp [hstate]
  · rw [hrowKind, hrowRelation, hrowTarget]
    exact hnavigate
  · constructor
    · intro haccepted
      rw [hrowAttached] at haccepted
      obtain ⟨hkind, -⟩ := checkAddition_ok (hattached haccepted)
      obtain ⟨hne, stored, hstored, hstoredState⟩ :=
        isAttachedSource_iff.mp haccepted
      rw [hsource, Option.some.injEq] at hstored
      subst hstored
      rw [hrowSource, hrowKind, howner]
      exact ⟨hkind, ⟨source, hsource, hsourceTarget, hstoredState⟩, hne⟩
    · intro hunattached hnone
      rw [hrowAttached] at hunattached
      rw [hrowLayer] at hnone
      rw [hrowSource, hrowKind, hrowRelation, howner]
      by_cases hself : draft.sourceNodeId = scope.root
      · obtain ⟨-, hkind, hrelation⟩ := checkRootAction_ok (hroot hself)
        exact ⟨hself, hkind, hrelation⟩
      · obtain ⟨-, -, layer, -, hlayer, -⟩ :=
          checkAuthored_ok (hauthored ⟨hself, hunattached⟩)
        exact absurd (hlayer.symm.trans hnone) (by simp)
    · intro hunattached layer hlayer
      rw [hrowAttached] at hunattached
      rw [hrowLayer] at hlayer
      rw [hrowSource, howner]
      by_cases hself : draft.sourceNodeId = scope.root
      · obtain ⟨hnone, -, -⟩ := checkRootAction_ok (hroot hself)
        exact absurd (hnone.symm.trans hlayer) (by simp)
      · obtain ⟨-, -, found, stored, hfound, hstored, hin, hown, -, -⟩ :=
          checkAuthored_ok (hauthored ⟨hself, hunattached⟩)
        obtain rfl : found = layer := by
          simpa using hfound.symm.trans hlayer
        exact ⟨hself, ⟨stored, hstored, hown,
          (inScope_iff.mp hin).trans htarget.symm⟩,
          fun haccepted => absurd haccepted hnotAccepted⟩
  · intro haccepted
    exact absurd haccepted hnotAccepted

theorem actionByKey_eq_some {owner source : NodeId} {clientKey : String}
    {id : ActionId} (hkey : db.actionByKey owner source clientKey = some id) :
    ∃ row, db.actions.get? id = some row ∧ row.owner = owner ∧
      row.source = source := by
  obtain ⟨row, hrow, hp⟩ := Table.get?_of_head?_select hkey
  obtain ⟨howner, hsource, -⟩ := of_decide_eq_true hp
  exact ⟨row, hrow, howner, hsource⟩

/-- A row marked as an addition is marked again whenever it is rewritten. -/
theorem WellFormed.attached_stays (h : db.WellFormed) {id : ActionId}
    {row : ActionRow} (hrow : db.actions.get? id = some row)
    (howner : row.owner = scope.root) :
    (row.attached || db.isAttachedSource scope row.source) =
      db.isAttachedSource scope row.source := by
  cases hattached : row.attached with
  | false => rfl
  | true =>
      obtain ⟨-, ⟨node, hnode, -, hstate⟩, hne⟩ :=
        (h.actions id row hrow).authored.attached hattached
      have hagain : db.isAttachedSource scope row.source = true :=
        isAttachedSource_iff.mpr ⟨howner ▸ hne, node, hnode, hstate⟩
      simp [hagain]

/-- An action rewrites an own draft or is inserted as one. -/
theorem addAction_ok {draft : ActionDraft}
    {preparedIcon : Option PreparedDetailAsset} {id : ActionId}
    (hrun : db.addAction scope host draft preparedIcon = .ok (id, db')) :
    db.ensureWritable host scope = .ok () ∧
      (draft.kind = .navigate →
        draft.relation.isSome ∧ draft.targetLayerId.isSome) ∧
      ∃ source icon, db.nodes.get? draft.sourceNodeId = some source ∧
        db.checkSource scope host { draft with icon } source = .ok () ∧
        db.validateInvokeInputs scope draft.sourceNodeId draft.inputActionIds =
          .ok () ∧
        ((∃ row, db.actions.get? id = some row ∧ row.owner = scope.root ∧
          row.source = draft.sourceNodeId ∧ row.state = .draft ∧
          db' = db.updateAction id fun row =>
            { ActionRow.withDraft row { draft with icon } with
              attached := row.attached ||
                db.isAttachedSource scope draft.sourceNodeId }) ∨
        db' = { db with
          actions := db.actions.insert (newAction scope { draft with icon }
            (db.isAttachedSource scope draft.sourceNodeId)) }) := by
  simp only [GraphDatabase.addAction, bind_eq_ok_iff, orThrow_eq_ok_iff] at hrun
  obtain ⟨icon, hshape, ⟨⟩, hwritable, ⟨⟩, hinputs, source, hsource, ⟨⟩, hcheck,
    -, -, hwrite⟩ := hrun
  refine ⟨hwritable, fun hkind => validateShape_ok hshape hkind, source, icon,
    hsource, hcheck, hinputs, ?_⟩
  rw [writeAction] at hwrite
  split at hwrite
  · simp only [bind_eq_ok_iff, pure_eq_ok_iff, Prod.mk.injEq] at hwrite
    obtain ⟨-, -, -, rfl⟩ := hwrite
    exact .inr rfl
  · rename_i found hkey
    obtain ⟨row, hrow, howner, hsame⟩ := actionByKey_eq_some hkey
    simp only [bind_eq_ok_iff, require_eq_ok_iff, pure_eq_ok_iff,
      Prod.mk.injEq, hrow, Option.all_some, decide_eq_true_eq] at hwrite
    obtain ⟨-, hdraft, -, -, rfl, rfl⟩ := hwrite
    exact .inl ⟨row, hrow, howner, hsame, hdraft, rfl⟩

theorem WellFormed.addAction (h : db.WellFormed) (hscope : db.Issued scope)
    {draft : ActionDraft} {preparedIcon : Option PreparedDetailAsset}
    {id : ActionId}
    (hrun : db.addAction scope host draft preparedIcon = .ok (id, db')) :
    db.Sound db' := by
  obtain ⟨-, hnavigate, source, icon, hsource, hcheck, -, hwrite⟩ :=
    addAction_ok hrun
  rcases hwrite with ⟨row, hrow, howner, hsame, hdraft, rfl⟩ | rfl
  · have htarget : row.target = scope.target :=
      (howner ▸ (h.actions id row hrow).owner :
        db.Interaction row.target scope.root).target_unique hscope.interaction
    have hattached := h.attached_stays hrow howner
    rw [hsame] at hattached
    refine h.updateAction fun stored hstored => ?_
    obtain rfl : row = stored := by simpa [hrow] using hstored
    refine ⟨.of_not_accepted (by simp [hdraft]) rfl rfl, ?_⟩
    refine actionRow_ok_of_draft h hscope hnavigate hsource hcheck htarget
      howner hdraft ?_ rfl
    simp only [ActionRow.origin, ActionRow.withDraft, hattached]
  · exact h.insertAction (actionRow_ok_of_draft h hscope hnavigate hsource
      hcheck rfl rfl rfl rfl rfl)

/-! ## Presentations -/

/-- The pending presentations after one more was staged. -/
def stagedRow (presentation : PendingPresentation) (row : CompletionRow) :
    CompletionRow :=
  { row with
    pendingPresentations :=
      (row.pendingPresentations.filter fun old =>
        decide (old.node ≠ presentation.node)) ++ [presentation] }

theorem stagePresentation_ok {node : NodeId} {expectedRevision : ℕ}
    {package : String} {assets : List PreparedDetailAsset}
    (hrun : db.stagePresentation scope host node expectedRevision package assets =
      .ok db') :
    db.ensureWritable host scope = .ok () ∧
      db.checkRevision node expectedRevision = .ok () ∧
      db' = db.updateCompletion scope.root
        (stagedRow ⟨node, expectedRevision, package⟩) := by
  simp only [GraphDatabase.stagePresentation, bind_eq_ok_iff, pure_eq_ok_iff]
    at hrun
  obtain ⟨⟨⟩, hwritable, -, -, -, -, ⟨⟩, hrevision, -, -, rfl⟩ := hrun
  exact ⟨hwritable, hrevision, rfl⟩

theorem WellFormed.stagePresentation (h : db.WellFormed) {node : NodeId}
    {expectedRevision : ℕ} {package : String}
    {assets : List PreparedDetailAsset}
    (hrun : db.stagePresentation scope host node expectedRevision package assets =
      .ok db') : db.Sound db' := by
  obtain ⟨-, -, rfl⟩ := stagePresentation_ok hrun
  exact h.updateCompletion_of_currentLayer fun _ => rfl

end GraphDatabase

end RelayerGraph
