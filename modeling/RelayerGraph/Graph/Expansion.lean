import RelayerGraph.Foundation.Continuations
import RelayerGraph.Graph.History

/-!
# Expansion never returns

Three checks guard the three ways in which an accepted layer comes to expand
to another: a plan is searched for a cycle among its own drafts, attached
additions are searched from their targets along snapshots, and a resolution is
searched along the actions of nodes.  No check sees the whole graph; together
they keep its expansion free of cycles.
-/

namespace RelayerGraph

open Foundation Checked Worklist Relation

theorem ActionRow.isAcceptedExpand_iff {row : ActionRow} :
    row.isAcceptedExpand = true ↔
      row.state = .accepted ∧ row.kind = .navigate ∧
        row.relation = some .expand := by
  simp [isAcceptedExpand, isAcceptedNavigate, and_assoc]

namespace GraphDatabase

variable {db db' : GraphDatabase} {scope : InteractionScope} {host : Host}
variable {plan : CompletionPlan} {revision : ℕ}

/-- A layer lists an accepted expand action that leads to the target. -/
def Expands (db : GraphDatabase) (layer target : LayerId) : Prop :=
  ∃ row id action, db.layers.get? layer = some row ∧ id ∈ row.actions ∧
    db.actions.get? id = some action ∧ action.isAcceptedExpand = true ∧
    action.targetLayer = some target

/-- The arcs, as a search of the tables. -/
theorem expands_iff_any {layer target : LayerId} :
    db.Expands layer target ↔
      ((db.layers.get? layer).any fun row => row.actions.any fun id =>
        (db.actions.get? id).any fun action =>
          action.isAcceptedExpand && decide (action.targetLayer = some target)) =
        true := by
  simp only [Expands, Option.any_eq_true, List.any_eq_true, Bool.and_eq_true,
    decide_eq_true_eq]
  constructor
  · rintro ⟨row, id, action, hrow, hid, haction, hexpand, htarget⟩
    exact ⟨row, hrow, id, hid, action, haction, hexpand, htarget⟩
  · rintro ⟨row, hrow, id, hid, action, haction, hexpand, htarget⟩
    exact ⟨row, id, action, hrow, hid, haction, hexpand, htarget⟩

/-- Following accepted expand actions never leads back. -/
def ExpandAcyclic (db : GraphDatabase) : Prop :=
  Digraph.Acyclic db.Expands

theorem SameGraph.expands (h : db.SameGraph db') {layer target : LayerId} :
    db'.Expands layer target ↔ db.Expands layer target := by
  unfold Expands
  rw [h.layers, h.actions]

theorem SameGraph.expandAcyclic (h : db.SameGraph db')
    (hacyclic : db.ExpandAcyclic) : db'.ExpandAcyclic := by
  have hsame : db'.Expands = db.Expands := by
    funext layer target
    exact propext h.expands
  unfold ExpandAcyclic
  rwa [hsame]

/-- An arc stays. -/
theorem Retains.expands (h : db.Retains db') {layer target : LayerId}
    (harc : db.Expands layer target) : db'.Expands layer target := by
  obtain ⟨row, id, action, hrow, hlisted, haction, hexpand, htarget⟩ := harc
  obtain ⟨hstate, hkind, hrelation⟩ := ActionRow.isAcceptedExpand_iff.mp hexpand
  obtain ⟨row', hrow', hlayer⟩ := h.layers layer row hrow
  obtain ⟨action', haction', hkeep⟩ := h.actions id action haction
  refine ⟨row', id, action', hrow', hlayer.actions id hlisted, haction', ?_, ?_⟩
  · exact ActionRow.isAcceptedExpand_iff.mpr ⟨hkeep.accepted hstate,
      hkeep.kind hstate hkind, (hkeep.relation hstate hkind).trans hrelation⟩
  · exact (hkeep.targetLayer hstate hkind).trans htarget

/-- No arc is new. -/
theorem ExpandAcyclic.of_subset (h : db.ExpandAcyclic)
    (hsubset : ∀ layer target, db'.Expands layer target →
      db.Expands layer target) : db'.ExpandAcyclic := by
  intro layer hcycle
  exact h layer (TransGen.mono hsubset _ _ hcycle)

/-- An arc leaves a layer that shows the source of its action, and leads to an
accepted layer. -/
theorem WellFormed.expands (h : db.WellFormed) {layer target : LayerId}
    {row : LayerRow} {id : ActionId} {action : ActionRow}
    (hrow : db.layers.get? layer = some row) (hlisted : id ∈ row.actions)
    (haction : db.actions.get? id = some action)
    (hexpand : action.isAcceptedExpand = true)
    (htarget : action.targetLayer = some target) :
    action.source ∈ row.nodes ∧ db.AcceptedLayer row.target target := by
  obtain ⟨-, stored, hstored, -, hsame, hsource⟩ :=
    (h.layers layer row hrow).actions id hlisted
  obtain rfl : action = stored := by simpa [haction] using hstored
  obtain ⟨hstate, hkind, -⟩ := ActionRow.isAcceptedExpand_iff.mp hexpand
  obtain ⟨found, hfound, haccepted⟩ :=
    (h.actions id action haction).leads hstate hkind
  obtain rfl : target = found := by simpa [htarget] using hfound
  exact ⟨hsource, hsame ▸ haccepted⟩

/-! ## Publishing -/

/-- Publication only accepts an action. -/
theorem action_of_publish (hrun : db.publish scope plan revision = .ok db')
    {id : ActionId} {row' : ActionRow}
    (hrow' : db'.actions.get? id = some row') :
    ∃ row, db.actions.get? id = some row ∧ row'.lead = row.lead := by
  rw [(publish_ok hrun).1.actions] at hrow'
  simp only [acceptRows, Table.get?_mapRows, Option.map_eq_some_iff] at hrow'
  obtain ⟨row, hrow, rfl⟩ := hrow'
  refine ⟨row, hrow, ?_⟩
  split <;> rfl

section

variable {origin : LayerId → Prop} {given : ActionId → Prop}
variable (h : db.WellFormed)
variable (hwalked : Walked db scope origin given plan [])
variable (hplan : Publishable db scope plan)
variable (hrun : db.publish scope plan revision = .ok db')

include hplan in
/-- The layers of a plan are drafts. -/
theorem not_acceptedLayer_of_planned {target : SearchTarget} {layer : LayerId}
    (hlayer : layer ∈ plan.layers) : ¬ db.AcceptedLayer target layer := by
  rintro ⟨row, hrow, -, hstate⟩
  obtain ⟨stored, hstored, hdraft, -⟩ := hplan.layers layer hlayer
  obtain rfl : row = stored := by simpa [hrow] using hstored
  rw [hdraft] at hstate
  cases hstate

include hrun in
/-- A listed action of a published layer was listed before, or the plan
resolved the layer, or it is an invoke. -/
theorem listed_of_publish {layer : LayerId} {row' : LayerRow} {id : ActionId}
    (hrow' : db'.layers.get? layer = some row') (hlisted : id ∈ row'.actions) :
    ∃ row, db.layers.get? layer = some row ∧
      (id ∈ row.actions ∨
        ∃ actions, (layer, actions) ∈ plan.layerActions ∧
          (id ∈ actions ∨
            (db.acceptRows scope plan revision).OwnInvoke scope layer id)) := by
  obtain ⟨base, extra, hbase, rfl, hextra⟩ := (publish_ok hrun).1.of_get? hrow'
  simp only [acceptRows, Table.get?_mapRows, Option.map_eq_some_iff] at hbase
  obtain ⟨row, hrow, rfl⟩ := hbase
  refine ⟨row, hrow, ?_⟩
  rcases List.mem_append.mp hlisted with hold | hnew
  · left
    split at hold <;> exact hold
  · right
    obtain ⟨-, actions, hentry, hshown⟩ := hextra id hnew
    exact ⟨actions, hentry, hshown⟩

include h hwalked hrun in
/-- A layer outside the plan expands as it did before. -/
theorem expands_of_publish_old {layer target : LayerId}
    (hlayer : layer ∉ plan.layers) (harc : db'.Expands layer target) :
    db.Expands layer target := by
  obtain ⟨row', id, action', hrow', hlisted, haction', hexpand, htarget⟩ := harc
  obtain ⟨row, hrow, hold | ⟨actions, hentry, -⟩⟩ :=
    listed_of_publish hrun hrow' hlisted
  · obtain ⟨action, haction, hlead⟩ := action_of_publish hrun haction'
    obtain ⟨-, stored, hstored, hstate, -⟩ :=
      (h.layers layer row hrow).actions id hold
    obtain rfl : action = stored := by simpa [haction] using hstored
    obtain ⟨-, hkind, hrelation⟩ := ActionRow.isAcceptedExpand_iff.mp hexpand
    simp only [ActionRow.lead, Prod.mk.injEq] at hlead
    refine ⟨row, id, action, hrow, hold, haction, ?_, hlead.2.2 ▸ htarget⟩
    exact ActionRow.isAcceptedExpand_iff.mpr
      ⟨hstate, hlead.1 ▸ hkind, hlead.2.1 ▸ hrelation⟩
  · exact absurd (hwalked.snapshots _ hentry).1 hlayer

include h hwalked hplan hrun in
/-- From one layer of the plan to another, expansion was authored. -/
theorem authored_of_publish {layer target : LayerId}
    (hlayer : layer ∈ plan.layers) (htargetPlanned : target ∈ plan.layers)
    (harc : db'.Expands layer target) :
    target ∈ db.authoredExpansions scope plan layer := by
  obtain ⟨row', id, action', hrow', hlisted, haction', hexpand, htarget⟩ := harc
  obtain ⟨action, haction, hlead⟩ := action_of_publish hrun haction'
  simp only [ActionRow.lead, Prod.mk.injEq] at hlead
  obtain ⟨-, hkind', hrelation'⟩ := ActionRow.isAcceptedExpand_iff.mp hexpand
  have hkind : action.kind = .navigate := hlead.1 ▸ hkind'
  have hrelation : action.relation = some .expand := hlead.2.1 ▸ hrelation'
  have hleads : action.targetLayer = some target := hlead.2.2 ▸ htarget
  obtain ⟨row, hrow, hold | ⟨actions, hentry, hid | hinvoke⟩⟩ :=
    listed_of_publish hrun hrow' hlisted
  · -- The layer was a draft, and drafts list nothing.
    have haccepted := ((h.layers layer row hrow).actions id hold).1
    exact absurd ⟨row, hrow, rfl, haccepted⟩
      (not_acceptedLayer_of_planned hplan hlayer)
  · obtain ⟨-, stored, -, -, hstored, -, -, hshown⟩ :=
      hwalked.recorded h hentry hid
    obtain rfl : action = stored := by simpa [haction] using hstored
    rcases hshown with hstate | hauthored
    · -- An action accepted before leads to an accepted layer.
      obtain ⟨found, hfound, haccepted⟩ :=
        (h.actions id action haction).leads hstate hkind
      obtain rfl : target = found := by simpa [hleads] using hfound
      exact absurd haccepted (not_acceptedLayer_of_planned hplan htargetPlanned)
    · rw [authoredExpansions, if_pos hlayer]
      refine List.mem_filterMap.mpr ⟨db.actionRecord id action, ?_, hleads⟩
      refine List.mem_filter.mpr ⟨?_, decide_eq_true ⟨hkind, hrelation⟩⟩
      exact mem_actionsFromLayer.mpr ⟨id, action, hauthored, rfl⟩
  · obtain ⟨_, invoke, -, hinvoked, -, -, hinvokeKind, -⟩ := hinvoke
    rw [← (publish_ok hrun).1.actions, haction', Option.some.injEq] at hinvoked
    rw [← hinvoked, hkind'] at hinvokeKind
    cases hinvokeKind

include h hwalked hplan hrun in
/-- Publishing a plan whose drafts expand without cycles closes none. -/
theorem ExpandAcyclic.publish (hold : db.ExpandAcyclic)
    (hacyclic : Digraph.Acyclic fun a b =>
      b ∈ db.authoredExpansions scope plan a) : db'.ExpandAcyclic := by
  let planned (layer : LayerId) : Prop := layer ∈ plan.layers
  apply @Digraph.acyclic_of_fresh LayerId db.Expands _ _ planned hold hacyclic
  · intro layer target harc hlayer
    have hbefore := expands_of_publish_old h hwalked hrun hlayer harc
    refine ⟨hbefore, fun hplanned => ?_⟩
    obtain ⟨row, id, action, hrow, hlisted, haction, hexpand, htarget⟩ := hbefore
    exact not_acceptedLayer_of_planned hplan hplanned
      (h.expands hrow hlisted haction hexpand htarget).2
  · intro layer target harc hlayer htarget
    exact authored_of_publish h hwalked hplan hrun hlayer htarget harc

end

/-! ## Attached additions -/

/-- The arcs that attached additions make. -/
def AddedExpansion (db : GraphDatabase) (scope : InteractionScope)
    (layer target : LayerId) : Prop :=
  ∃ id ∈ db.acceptedAdditions scope.root, ∃ row action,
    db.layers.get? layer = some row ∧ row.state = .accepted ∧
      db.actions.get? id = some action ∧ action.source ∈ row.nodes ∧
      action.isAcceptedExpand = true ∧ action.targetLayer = some target

/-- The search before publication follows every arc there is afterwards. -/
theorem followsAddition_of_expands (h : db.WellFormed) {layer target : LayerId}
    (harc : db.Expands layer target ∨ db.AddedExpansion scope layer target) :
    db.LeadsTo (db.followsAddition scope layer) target := by
  rcases harc with ⟨row, id, action, hrow, hlisted, haction, hexpand, htarget⟩ |
    ⟨id, hid, row, action, hrow, hstate, haction, hsource, hexpand, htarget⟩
  · have hsource := (h.expands hrow hlisted haction hexpand htarget).1
    refine ⟨id, action, haction, ?_, htarget⟩
    simp [followsAddition, hexpand, hrow, hsource, hlisted]
  · obtain ⟨stored, hstored, hattached, howner, -⟩ := mem_acceptedAdditions.mp hid
    obtain rfl : action = stored := by simpa [haction] using hstored
    have hnative : db.Native row.thread := by
      unfold Native
      rw [h.imports]
      exact List.not_mem_nil
    refine ⟨id, action, haction, ?_, htarget⟩
    simp [followsAddition, hexpand, hrow, hsource, hattached, howner, hstate,
      hnative]

/-- What the additions lead to does not lead back to where they are shown. -/
theorem not_returns_of_additionCycle (h : db.WellFormed)
    (hcycle : db.additionCycle scope = false) {layer target : LayerId}
    (hadded : db.AddedExpansion scope layer target) :
    ¬ ReflTransGen (fun a b => db.Expands a b ∨ db.AddedExpansion scope a b)
      target layer := by
  intro hpath
  obtain ⟨id, hid, row, action, hrow, -, haction, hsource, hexpand, htarget⟩ :=
    hadded
  have hfollowed : layer ∈ db.layersReached (db.followsAddition scope)
      action.targetLayer.toList := by
    refine mem_layersReached.mpr ⟨target, by simp [htarget], ?_⟩
    exact ReflTransGen.mono
      (fun _ _ harc => followsAddition_of_expands h harc) _ _ hpath
  have hrelation := (ActionRow.isAcceptedExpand_iff.mp hexpand).2.2
  have hfound : db.additionCycle scope = true := by
    unfold additionCycle
    refine List.any_eq_true.mpr ⟨id, hid, ?_⟩
    rw [haction, Option.any_some, Bool.and_eq_true]
    refine ⟨decide_eq_true hrelation, List.any_eq_true.mpr ⟨layer, hfollowed, ?_⟩⟩
    simpa [hrow] using hsource
  rw [hcycle] at hfound
  cases hfound

/-- A layer of the grown database expands as before, or by what it gained. -/
theorem Grows.expands {added : LayerId → ActionId → Prop}
    (hgrow : Grows added db db') {layer target : LayerId}
    (harc : db'.Expands layer target) :
    db.Expands layer target ∨ ∃ row id action,
      db.layers.get? layer = some row ∧ added layer id ∧
        db.actions.get? id = some action ∧ action.isAcceptedExpand = true ∧
        action.targetLayer = some target := by
  obtain ⟨row', id, action, hrow', hlisted, haction, hexpand, htarget⟩ := harc
  obtain ⟨row, extra, hrow, rfl, hextra⟩ := hgrow.of_get? hrow'
  rw [hgrow.actions] at haction
  rcases List.mem_append.mp hlisted with hold | hnew
  · exact .inl ⟨row, id, action, hrow, hold, haction, hexpand, htarget⟩
  · exact .inr ⟨row, id, action, hrow, hextra id hnew, haction, hexpand, htarget⟩

/-- The additions of a Return close no cycle. -/
theorem ExpandAcyclic.publishAttached (hold : db.ExpandAcyclic)
    (h : db.WellFormed) (hrun : db.publishAttached scope = .ok db') :
    db'.ExpandAcyclic := by
  obtain ⟨hcycle, shown, hgrow, hsame, -⟩ := publishAttached_ok h hrun
  refine hsame.expandAcyclic ?_
  have harcs : ∀ layer target, shown.Expands layer target →
      db.Expands layer target ∨ db.AddedExpansion scope layer target := by
    intro layer target harc
    rcases hgrow.expands harc with hbefore |
      ⟨_, id, action, -, ⟨hid, row, stored, hrow, hstate, hstored, hsource⟩,
        haction, hexpand, htarget⟩
    · exact .inl hbefore
    · obtain rfl : action = stored := by simpa [haction] using hstored
      exact .inr ⟨id, hid, row, action, hrow, hstate, haction, hsource, hexpand,
        htarget⟩
  apply Digraph.acyclic_of_no_return hold harcs
  intro layer target hadded hpath
  exact not_returns_of_additionCycle h hcycle hadded
    (ReflTransGen.mono harcs _ _ hpath)

/-! ## Resolving a lease -/

/-- The search of a resolution follows every arc there is. -/
theorem nodeExpands_of_expands (h : db.WellFormed) {layer target : LayerId}
    (harc : db.Expands layer target) :
    db.LeadsTo (db.nodeExpands layer) target := by
  obtain ⟨row, id, action, hrow, hlisted, haction, hexpand, htarget⟩ := harc
  have hsource := (h.expands hrow hlisted haction hexpand htarget).1
  refine ⟨id, action, haction, ?_, htarget⟩
  simp [nodeExpands, hexpand, lists, hrow, hsource]

/-- The arcs that a typed resolution makes leave the layers showing the source
of its invoke. -/
def ResolvedExpansion (db : GraphDatabase) (id : ActionId) (leads : LayerId)
    (layer target : LayerId) : Prop :=
  target = leads ∧ ∃ row action, db.layers.get? layer = some row ∧
    db.actions.get? id = some action ∧ action.source ∈ row.nodes

theorem not_returns_of_resolutionCycle (h : db.WellFormed) {id : ActionId}
    {leads : LayerId} (hcycle : db.resolutionCycle id leads = false)
    {a b c d : LayerId} (hfirst : db.ResolvedExpansion id leads a b)
    (hsecond : db.ResolvedExpansion id leads c d) :
    ¬ ReflTransGen db.Expands b c := by
  intro hpath
  obtain ⟨rfl, -⟩ := hfirst
  obtain ⟨-, row, action, hrow, haction, hsource⟩ := hsecond
  have hreached : c ∈ db.layersReached db.nodeExpands [b] := by
    refine mem_layersReached.mpr ⟨b, List.mem_singleton.mpr rfl, ?_⟩
    exact ReflTransGen.mono (fun _ _ harc => nodeExpands_of_expands h harc) _ _
      hpath
  have hfound : db.resolutionCycle id b = true := by
    unfold resolutionCycle
    rw [haction, Option.any_some, List.any_eq_true]
    refine ⟨c, hreached, ?_⟩
    simp [lists, hrow, hsource]
  rw [hcycle] at hfound
  cases hfound

/-- An untyped resolution makes no expand action. -/
theorem expands_of_targeted {id : ActionId} {leads : LayerId}
    (hresolvable : db.resolvable id = true) {layer target : LayerId}
    (harc : (db.updateAction id (targetedRow leads)).Expands layer target) :
    db.Expands layer target := by
  obtain ⟨row, other, action, hrow, hlisted, haction, hexpand, htarget⟩ := harc
  simp only [updateAction, Table.get?_mapRows, Option.map_eq_some_iff] at haction
  obtain ⟨stored, hstored, rfl⟩ := haction
  by_cases hother : other = id
  · subst hother
    obtain ⟨found, hfound, -, hkind, -⟩ := resolvable_iff.mp hresolvable
    obtain rfl : stored = found := by simpa [hstored] using hfound
    rw [if_pos rfl] at hexpand
    have hnavigate := (ActionRow.isAcceptedExpand_iff.mp hexpand).2.1
    exact absurd (hkind.symm.trans hnavigate) (by simp)
  · rw [if_neg hother] at hexpand htarget
    exact ⟨row, other, stored, hrow, hlisted, hstored, hexpand, htarget⟩

/-- A typed resolution adds arcs from where its invoke is shown. -/
theorem expands_of_resolveTyped (h : db.WellFormed) {id : ActionId}
    {leads : LayerId} {interaction : NodeId}
    (hrun : db.resolveTyped id leads interaction = .ok db')
    {layer target : LayerId} (harc : db'.Expands layer target) :
    db.Expands layer target ∨ db.ResolvedExpansion id leads layer target := by
  obtain ⟨-, hresolvable, hgrow⟩ := resolveTyped_ok hrun
  obtain ⟨invoke, hinvoke, -, -, -⟩ := resolvable_iff.mp hresolvable
  have hconverted : ∀ other action,
      (db.updateAction id (resolvedRow interaction leads)).actions.get? other =
        some action → action.targetLayer = some target → other ≠ id ∧
          db.actions.get? other = some action ∨ other = id ∧ target = leads := by
    intro other action haction htarget
    simp only [updateAction, Table.get?_mapRows, Option.map_eq_some_iff]
      at haction
    obtain ⟨stored, hstored, rfl⟩ := haction
    by_cases hother : other = id
    · rw [if_pos hother] at htarget
      exact .inr ⟨hother, (Option.some.inj htarget).symm⟩
    · rw [if_neg hother]
      exact .inl ⟨hother, hstored⟩
  rcases hgrow.expands harc with
    ⟨row, other, action, hrow, hlisted, haction, hexpand, htarget⟩ |
    ⟨_, other, action, -, ⟨rfl, row, stored, hrow, -, hstored, hsource, -⟩,
      haction, -, htarget⟩
  · rcases hconverted other action haction htarget with ⟨-, hold⟩ | ⟨rfl, hsame⟩
    · exact .inl ⟨row, other, action, hrow, hlisted, hold, hexpand, htarget⟩
    · -- The invoke was listed before it became an expand action.
      obtain ⟨-, found, hfound, -, -, hsource⟩ :=
        (h.layers layer row hrow).actions other hlisted
      exact .inr ⟨hsame, row, found, hrow, hfound, hsource⟩
  · obtain ⟨old, hold, rfl⟩ := updateAction_get? hstored
    rcases hconverted _ action haction htarget with ⟨hne, -⟩ | ⟨-, hsame⟩
    · exact absurd rfl hne
    · exact .inr ⟨hsame, row, old, hrow, hold, hsource⟩

theorem ExpandAcyclic.resolveLease (hold : db.ExpandAcyclic) (h : db.WellFormed)
    (hresolved : LeaseResolved db scope plan db') : db'.ExpandAcyclic := by
  cases hresolved with
  | unleased hsame => exact hsame ▸ hold
  | untyped lease hheld hresolvable hupdated =>
      rw [hupdated]
      apply hold.of_subset
      intro layer target harc
      exact expands_of_targeted hresolvable harc
  | typed lease hheld hrun =>
      have hcycle := (resolveTyped_ok hrun).1
      apply Digraph.acyclic_of_separated hold
      · intro layer target harc
        exact expands_of_resolveTyped h hrun harc
      · intro a b c d hfirst hsecond
        exact not_returns_of_resolutionCycle h hcycle hfirst hsecond

/-! ## Operations -/

/-- What is accepted afterwards was accepted before, as it is. -/
structure OnlyDrafts (db db' : GraphDatabase) : Prop where
  layers : ∀ id row', db'.layers.get? id = some row' → row'.actions = [] ∨
    ∃ row, db.layers.get? id = some row ∧ row'.actions = row.actions
  actions : ∀ id row', db'.actions.get? id = some row' →
    row'.state = .accepted → db.actions.get? id = some row'

theorem SameGraph.onlyDrafts (h : db.SameGraph db') : db.OnlyDrafts db' where
  layers _ row' hrow' := .inr ⟨row', h.layers ▸ hrow', rfl⟩
  actions _ _ hrow' _ := h.actions ▸ hrow'

theorem OnlyDrafts.expandAcyclic (h : db.OnlyDrafts db')
    (hold : db.ExpandAcyclic) : db'.ExpandAcyclic := by
  apply hold.of_subset
  rintro layer target ⟨row', id, action, hrow', hlisted, haction, hexpand, htarget⟩
  have hstate := (ActionRow.isAcceptedExpand_iff.mp hexpand).1
  rcases h.layers layer row' hrow' with hempty | ⟨row, hrow, hsame⟩
  · rw [hempty] at hlisted
    cases hlisted
  · exact ⟨row, id, action, hrow, hsame ▸ hlisted,
      h.actions id action haction hstate, hexpand, htarget⟩

theorem onlyDrafts_mapLayers {f : LayerId → LayerRow → LayerRow}
    (hf : ∀ id row, (f id row).actions = row.actions) :
    db.OnlyDrafts { db with layers := db.layers.mapRows f } where
  layers id row' hrow' := by
    simp only [Table.get?_mapRows, Option.map_eq_some_iff] at hrow'
    obtain ⟨row, hrow, rfl⟩ := hrow'
    exact .inr ⟨row, hrow, hf id row⟩
  actions _ _ hrow' _ := hrow'

theorem onlyDrafts_submitLayer {draft : LayerDraft} {renderer : Option String}
    {id : LayerId}
    (hrun : db.submitLayer scope host draft renderer = .ok (id, db')) :
    db.OnlyDrafts db' := by
  obtain ⟨-, nodes, edges, -, -, -, hwrite⟩ := submitLayer_ok hrun
  rcases upsertDraftLayer_ok hwrite with ⟨row, -, -, -, rfl⟩ |
    ⟨row, -, -, -, hempty, -, rfl⟩
  · apply onlyDrafts_mapLayers
    intro other stored
    split <;> rfl
  · constructor
    · intro other row' hrow'
      rw [Table.get?_insert] at hrow'
      split at hrow'
      · obtain rfl := Option.some.inj hrow'
        exact .inl hempty
      · exact .inr ⟨row', hrow', rfl⟩
    · exact fun _ _ hrow' _ => hrow'

theorem onlyDrafts_discardLayer {layer id : LayerId}
    (hrun : db.discardLayer scope host layer = .ok (id, db')) :
    db.OnlyDrafts db' := by
  rcases discardLayer_ok hrun with rfl | rfl
  · exact SameGraph.onlyDrafts (.refl _)
  · apply onlyDrafts_mapLayers
    intro other stored
    split <;> rfl

theorem onlyDrafts_addAction {draft : ActionDraft}
    {preparedIcon : Option PreparedDetailAsset} {id : ActionId}
    (hrun : db.addAction scope host draft preparedIcon = .ok (id, db')) :
    db.OnlyDrafts db' := by
  obtain ⟨-, -, source, icon, -, -, -, hwrite⟩ := addAction_ok hrun
  rcases hwrite with ⟨row, hrow, -, -, hdraft, rfl⟩ | rfl
  · constructor
    · exact fun _ row' hrow' => .inr ⟨row', hrow', rfl⟩
    · intro other row' hrow' hstate
      simp only [updateAction, Table.get?_mapRows, Option.map_eq_some_iff] at hrow'
      obtain ⟨stored, hstored, rfl⟩ := hrow'
      by_cases hother : other = id
      · subst hother
        obtain rfl : row = stored := by simpa [hrow] using hstored
        rw [if_pos rfl] at hstate
        have hkept : row.state = .accepted := hstate
        rw [hdraft] at hkept
        cases hkept
      · rw [if_neg hother]
        exact hstored
  · constructor
    · exact fun _ row' hrow' => .inr ⟨row', hrow', rfl⟩
    · intro other row' hrow' hstate
      change (db.actions.insert _).get? other = _ at hrow'
      rw [Table.get?_insert] at hrow'
      split at hrow'
      · obtain rfl := Option.some.inj hrow'
        cases hstate
      · exact hrow'

/-- A transition keeps expansion free of cycles. -/
theorem ExpandAcyclic.transition (hold : db.ExpandAcyclic) (h : db.WellFormed)
    (hscope : db.Issued scope) {expectedRevision : ℕ} {operationKey : String}
    {intent : CurrentTransition} {index : IndexAnswers} {result : Transitioned}
    (hrun : db.transition scope host expectedRevision operationKey intent index =
      .ok result) : result.db.ExpandAcyclic := by
  rcases transition_ok hrun with ⟨receipt, -, -, rfl⟩ |
    ⟨persisted, published, recorded, hcommitted, hresult, -⟩
  · exact hold
  · have hbody : published.db.ExpandAcyclic := by
      have hcase := hcommitted.body
      cases intent with
      | advance layer =>
          obtain ⟨plan, hadvanced⟩ := advance_ok hcase
          exact hold.publish h hadvanced.planned.walked
            hadvanced.planned.publishable hadvanced.publishes
            hadvanced.planned.acyclic
      | «return» layer =>
          obtain ⟨plan, rootId, rootRow, graph, hreturned⟩ := returnCurrent_ok hcase
          obtain ⟨hgraph, -, attached, resolved, hattached, hsound, hresolved, -,
            hsame, -⟩ := hreturned.stages h hscope
          have hpublished := hold.publish h hreturned.planned.walked
            hreturned.planned.publishable hreturned.publishes
            hreturned.planned.acyclic
          have hshown := hpublished.publishAttached hgraph.wellFormed hattached
          exact hsame.expandAcyclic
            (hshown.resolveLease hsound.wellFormed hresolved)
      | stop reason =>
          obtain rfl := Except.ok.inj hcase
          exact SameGraph.expandAcyclic ⟨rfl, rfl, rfl⟩ hold
      | fail reason =>
          obtain rfl := Except.ok.inj hcase
          exact SameGraph.expandAcyclic ⟨rfl, rfl, rfl⟩ hold
    have hrecorded := hcommitted.record.sameGraph.expandAcyclic hbody
    rcases hresult with hsame | ⟨target, indexed, hsame⟩
    · exact hsame ▸ hrecorded
    · rw [hsame]
      exact SameGraph.expandAcyclic ⟨rfl, rfl, rfl⟩ hrecorded

theorem ExpandAcyclic.perform (hold : db.ExpandAcyclic) (h : db.WellFormed)
    {operation : Operation} (hrun : db.perform host operation = .ok db') :
    db'.ExpandAcyclic := by
  cases operation with
  | createInteraction target text preparation =>
      obtain ⟨id, hrun⟩ := map_snd_eq_ok hrun
      obtain ⟨-, row, -, -, -, -, -, rfl⟩ := createInteraction_ok hrun
      exact SameGraph.expandAcyclic ⟨rfl, rfl, rfl⟩ hold
  | activateAuthority interaction =>
      obtain ⟨epoch, hrun⟩ := map_snd_eq_ok hrun
      rw [activateAuthority_ok hrun]
      exact SameGraph.expandAcyclic ⟨rfl, rfl, rfl⟩ hold
  | submitNode author draft contents =>
      obtain ⟨scope, -, hrun⟩ := bind_eq_ok_iff.mp hrun
      obtain ⟨id, hrun⟩ := map_snd_eq_ok hrun
      obtain ⟨-, draft, ⟨row, -, -, -, rfl⟩ | hinsert⟩ := submitNode_ok hrun
      · exact SameGraph.expandAcyclic ⟨rfl, rfl, rfl⟩ hold
      · simp only [insertDraftNode, Prod.mk.injEq] at hinsert
        obtain ⟨-, rfl⟩ := hinsert
        exact SameGraph.expandAcyclic ⟨rfl, rfl, rfl⟩ hold
  | createEdge author draft =>
      obtain ⟨scope, -, hrun⟩ := bind_eq_ok_iff.mp hrun
      obtain ⟨id, hrun⟩ := map_snd_eq_ok hrun
      rcases createEdge_ok hrun with rfl | ⟨endpoints, hinsert⟩
      · exact hold
      · simp only [insertDraftEdge, Prod.mk.injEq] at hinsert
        obtain ⟨-, rfl⟩ := hinsert
        -- Edges are no actions.
        exact OnlyDrafts.expandAcyclic
          ⟨fun _ row' hrow' => .inr ⟨row', hrow', rfl⟩, fun _ _ hrow' _ => hrow'⟩
          hold
  | submitLayer author draft renderer =>
      obtain ⟨scope, -, hrun⟩ := bind_eq_ok_iff.mp hrun
      obtain ⟨id, hrun⟩ := map_snd_eq_ok hrun
      exact (onlyDrafts_submitLayer hrun).expandAcyclic hold
  | addAction author draft preparedIcon =>
      obtain ⟨scope, -, hrun⟩ := bind_eq_ok_iff.mp hrun
      obtain ⟨id, hrun⟩ := map_snd_eq_ok hrun
      exact (onlyDrafts_addAction hrun).expandAcyclic hold
  | discardLayer author layer =>
      obtain ⟨scope, -, hrun⟩ := bind_eq_ok_iff.mp hrun
      obtain ⟨id, hrun⟩ := map_snd_eq_ok hrun
      exact (onlyDrafts_discardLayer hrun).expandAcyclic hold
  | stagePresentation author node expectedRevision package assets =>
      obtain ⟨scope, -, hrun⟩ := bind_eq_ok_iff.mp hrun
      obtain ⟨-, -, rfl⟩ := stagePresentation_ok hrun
      exact SameGraph.expandAcyclic ⟨rfl, rfl, rfl⟩ hold
  | transition author expectedRevision operationKey intent index =>
      obtain ⟨scope, hscope, hrun⟩ := bind_eq_ok_iff.mp hrun
      obtain ⟨result, hresult, rfl⟩ := exceptMap_eq_ok_iff.mp hrun
      exact hold.transition h (issued_of_writerScope hscope).1 hresult

/-! ## Whole runs -/

theorem expandAcyclic_of_reachable (hreach : (native host).Reachable db) :
    db.ExpandAcyclic := by
  apply hreach.invariant
  · rintro _ ⟨permissionsEnabled, temporalFeatures, rfl⟩ layer hcycle
    obtain ⟨next, ⟨row, id, action, hrow, -⟩, -⟩ :=
      TransGen.head'_iff.mp hcycle
    simp [initial] at hrow
  · intro before operation after hbefore hold hstep
    exact hold.perform (wellFormed_of_reachable hbefore) hstep

theorem expands_of_continues (hreach : (native host).Reachable db)
    (hlater : (native host).Continues db db') {layer target : LayerId}
    (harc : db.Expands layer target) : db'.Expands layer target := by
  induction hlater with
  | refl => exact harc
  | @tail middle last hfirst hlast ih =>
      obtain ⟨operation, hstep⟩ := hlast
      exact (retains_of_step (hreach.continues hfirst) hstep).expands ih

/-- Whatever the interactions do, expansion never returns to where it started:
neither now nor in any later database, all of which keep every arc there is. -/
theorem expansion_acyclic (host : Host) (db : GraphDatabase)
    (hreach : (native host).Reachable db) :
    (∀ layer, ¬ TransGen db.Expands layer layer) ∧
      ∀ db', (native host).Continues db db' → ∀ layer target,
        db.Expands layer target →
          db'.Expands layer target ∧ ¬ ReflTransGen db'.Expands target layer := by
  refine ⟨expandAcyclic_of_reachable hreach, ?_⟩
  intro db' hlater layer target harc
  have hkept := expands_of_continues hreach hlater harc
  refine ⟨hkept, fun hback => ?_⟩
  have hlast := expandAcyclic_of_reachable (hreach.continues hlater)
  exact hlast layer (TransGen.head' hkept hback)

end GraphDatabase

/-! ## An answer that expands -/

namespace Sample

open GraphDatabase

/-- The answer opens a second layer. -/
def expanding : List Operation :=
  opening ++
    [.submitNode author ⟨"detail", "concept", "box", "More", "Detail"⟩
        ⟨.retain, [], none, none⟩,
      .submitLayer author
        ⟨none, "second", [⟨3⟩], [], some ⟨1, [⟨⟨3⟩, 0, 0⟩], some "default", []⟩,
          none⟩
        none,
      .addAction author
        { action "more" ⟨2⟩ (some ⟨1⟩) .navigate with
          relation := some .expand
          targetLayerId := some ⟨2⟩ } none,
      rootAction ⟨1⟩, returns ⟨1⟩]

def expanded : GraphDatabase :=
  (initial false temporal).performAll host expanding

theorem reachable_expanded : (native host).Reachable expanded :=
  reachable_performAll reachable_initial _

end Sample

namespace GraphDatabase

theorem expansion_acyclic_expanded :
    Sample.expanded.Expands ⟨1⟩ ⟨2⟩ ∧
      ¬ ReflTransGen Sample.expanded.Expands ⟨2⟩ ⟨1⟩ := by
  have harc : Sample.expanded.Expands ⟨1⟩ ⟨2⟩ :=
    expands_iff_any.mpr (by decide)
  exact ⟨harc, ((expansion_acyclic Sample.host Sample.expanded
    Sample.reachable_expanded).2 Sample.expanded .refl ⟨1⟩ ⟨2⟩ harc).2⟩

end GraphDatabase

end RelayerGraph
