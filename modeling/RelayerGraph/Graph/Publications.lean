import RelayerGraph.Graph.Completeness

/-!
# Reading a publication

A publication is read breadth first from its root layer, each layer when an
action first leads to it.  Whatever is returned holds the layers to which the
root leads and no others, each of them once.
-/

namespace RelayerGraph

open Foundation Checked Worklist Relation

namespace GraphDatabase

variable {db : GraphDatabase} {scope : InteractionScope} {root : LayerId}

/-! ## Where a read layer leads -/

theorem id_of_resolve {layer : LayerId} {acceptedOnly : Bool}
    {resolved : ResolvedLayer}
    (hread : db.resolve scope layer acceptedOnly = .ok resolved) :
    resolved.layer.id = layer := by
  obtain ⟨row, hresolved, -⟩ := resolve_eq_ok hread
  rw [hresolved.layer]
  rfl

/-- An action of a layer that was read is an action its snapshot lists. -/
theorem navigates_of_mem_resolve {layer target : LayerId}
    {resolved : ResolvedLayer}
    (hread : db.resolve scope layer true = .ok resolved) {action : GraphAction}
    (haction : action ∈ resolved.actions) (hstate : action.state = .accepted)
    (hkind : action.kind = .navigate)
    (htarget : action.targetLayerId = some target) :
    db.Navigates layer target := by
  obtain ⟨row, hresolved, haccepted⟩ := resolve_eq_ok hread
  obtain ⟨id, hid, hrecord⟩ := exists_of_mem_mapM
    (mapM_eq_ok_iff.mpr ((hresolved.snapshot (haccepted rfl)).imp
      fun id record h => orThrow_eq_ok_iff.mpr h)) (f := fun id =>
        orThrow (db.action scope id) (GraphError.internal "")) haction
  obtain ⟨stored, hstored, -, rfl⟩ :=
    action_eq_some_iff.mp (orThrow_eq_ok_iff.mp hrecord)
  exact navigates_iff.mpr ⟨row, id, stored, hresolved.stored, hid, hstored,
    hstate, hkind, htarget⟩

/-- Where a layer that was read leads, one of its actions leads. -/
theorem exists_mem_resolve_of_navigates {layer target : LayerId}
    {resolved : ResolvedLayer}
    (hread : db.resolve scope layer true = .ok resolved)
    (harc : db.Navigates layer target) :
    ∃ action ∈ resolved.actions, action.kind = .navigate ∧
      action.targetLayerId = some target := by
  obtain ⟨row, hresolved, haccepted⟩ := resolve_eq_ok hread
  obtain ⟨stored, id, listed, hstored, hid, hlisted, -, hkind, htarget⟩ :=
    navigates_iff.mp harc
  obtain rfl : row = stored := by simpa [hresolved.stored] using hstored
  obtain ⟨action, haction, hrecord⟩ := exists_mem_of_mapM
    (mapM_eq_ok_iff.mpr ((hresolved.snapshot (haccepted rfl)).imp
      fun id record h => orThrow_eq_ok_iff.mpr h)) (f := fun id =>
        orThrow (db.action scope id) (GraphError.internal "")) hid
  obtain ⟨found, hfound, -, rfl⟩ :=
    action_eq_some_iff.mp (orThrow_eq_ok_iff.mp hrecord)
  obtain rfl : listed = found := by simpa [hlisted] using hfound
  exact ⟨_, haction, hkind, htarget⟩

/-! ## The actions of one layer -/

/-- The ids of layers. -/
def layerIds (layers : List ResolvedLayer) : List LayerId :=
  layers.map (·.layer.id)

/-- The layers known before one layer's actions are followed, and what the
actions followed so far found. -/
structure Followed (db : GraphDatabase) (scope : InteractionScope)
    (known : List ResolvedLayer) (visited : List LayerId)
    (found : List ResolvedLayer) (done : List GraphAction) : Prop where
  distinct : (layerIds (known ++ found)).Nodup
  seen : ∀ id, id ∈ visited ↔ id ∈ layerIds (known ++ found)
  reads : ∀ resolved ∈ found,
    db.resolve scope resolved.layer.id true = .ok resolved ∧
      ∃ action ∈ done, action.state = .accepted ∧ action.kind = .navigate ∧
        action.targetLayerId = some resolved.layer.id
  leads : ∀ action ∈ done, action.kind = .navigate →
    ∃ target ∈ visited, action.targetLayerId = some target

theorem Followed.step {layer : LayerId} {known found found' : List ResolvedLayer}
    {visited visited' : List LayerId} {done : List GraphAction}
    {action : GraphAction}
    (hfollowed : Followed db scope known visited found done)
    (hrun : db.followAction scope layer (visited, found) action =
      .ok (visited', found')) :
    Followed db scope known visited' found' (done ++ [action]) := by
  simp only [followAction, bind_eq_ok_iff, require_eq_ok_iff] at hrun
  obtain ⟨-, hstate, hrun⟩ := hrun
  have hreads : ∀ resolved ∈ found,
      db.resolve scope resolved.layer.id true = .ok resolved ∧
        ∃ other ∈ done ++ [action], other.state = .accepted ∧
          other.kind = .navigate ∧
          other.targetLayerId = some resolved.layer.id := by
    intro resolved hresolved
    obtain ⟨hread, other, hother, hleads⟩ := hfollowed.reads resolved hresolved
    exact ⟨hread, other, List.mem_append_left _ hother, hleads⟩
  split at hrun
  · rename_i hkind
    simp only [bind_eq_ok_iff, orThrow_eq_ok_iff] at hrun
    obtain ⟨target, htarget, hrun⟩ := hrun
    split at hrun
    · rename_i hseen
      obtain ⟨rfl, rfl⟩ := Prod.mk.inj (pure_eq_ok_iff.mp hrun)
      refine ⟨hfollowed.distinct, hfollowed.seen, hreads, ?_⟩
      intro other hother hnavigate
      rcases List.mem_append.mp hother with hold | hnew
      · exact hfollowed.leads other hold hnavigate
      · rw [List.mem_singleton.mp hnew]
        exact ⟨target, hseen, htarget⟩
    · rename_i hunseen
      simp only [bind_eq_ok_iff, pure_eq_ok_iff, Prod.mk.injEq] at hrun
      obtain ⟨resolved, hresolve, rfl, rfl⟩ := hrun
      have hid := id_of_resolve hresolve
      have hids : layerIds (known ++ (found ++ [resolved])) =
          layerIds (known ++ found) ++ [target] := by
        simp [layerIds, hid]
      have hfresh : target ∉ layerIds (known ++ found) :=
        fun hmem => hunseen ((hfollowed.seen target).mpr hmem)
      constructor
      · rw [hids]
        exact List.nodup_append.mpr ⟨hfollowed.distinct, List.nodup_singleton _,
          fun a ha b hb hab => hfresh (List.mem_singleton.mp hb ▸ hab ▸ ha)⟩
      · intro id
        rw [hids, List.mem_cons, List.mem_append, List.mem_singleton,
          hfollowed.seen, or_comm]
      · intro other hother
        rcases List.mem_append.mp hother with hold | hnew
        · exact hreads other hold
        · rw [List.mem_singleton.mp hnew, hid]
          exact ⟨hresolve, action, by simp, hstate, hkind, htarget⟩
      · intro other hother hnavigate
        rcases List.mem_append.mp hother with hold | hnew
        · obtain ⟨seen, hseen, hleads⟩ := hfollowed.leads other hold hnavigate
          exact ⟨seen, List.mem_cons_of_mem _ hseen, hleads⟩
        · rw [List.mem_singleton.mp hnew]
          exact ⟨target, List.mem_cons_self, htarget⟩
  · rename_i hkind
    obtain ⟨rfl, rfl⟩ := Prod.mk.inj (pure_eq_ok_iff.mp hrun)
    refine ⟨hfollowed.distinct, hfollowed.seen, hreads, ?_⟩
    intro other hother hnavigate
    rcases List.mem_append.mp hother with hold | hnew
    · exact hfollowed.leads other hold hnavigate
    · exact absurd (List.mem_singleton.mp hnew ▸ hnavigate) hkind

/-! ## The whole reading -/

/-- What was read of a publication, and what is pending. -/
structure ReadFrom (db : GraphDatabase) (scope : InteractionScope)
    (root : LayerId) (read : ClosureRead) (pending : List ResolvedLayer) :
    Prop where
  first : (layerIds (read.layers ++ pending)).head? = some root
  distinct : (layerIds (read.layers ++ pending)).Nodup
  visited : ∀ id, id ∈ read.visited ↔ id ∈ layerIds (read.layers ++ pending)
  reads : ∀ resolved ∈ read.layers ++ pending,
    db.resolve scope resolved.layer.id true = .ok resolved ∧
      db.Leads root resolved.layer.id
  closed : ∀ resolved ∈ read.layers, ∀ target,
    db.Navigates resolved.layer.id target → target ∈ read.visited

theorem ReadFrom.turn {read next : ClosureRead} {layer : ResolvedLayer}
    {rest more : List ResolvedLayer}
    (hread : ReadFrom db scope root read (layer :: rest))
    (hrun : db.readLayer scope read layer = .ok (.proceed next more)) :
    ReadFrom db scope root next (rest ++ more) := by
  simp only [readLayer, bind_eq_ok_iff, pure_eq_ok_iff, Turn.proceed.injEq]
    at hrun
  obtain ⟨⟨visited, found⟩, hfold, rfl, rfl⟩ := hrun
  have hfollowed : Followed db scope (read.layers ++ layer :: rest) visited found
      layer.actions := by
    refine foldlM_induction
      (P := fun (state : List LayerId × List ResolvedLayer) done =>
        Followed db scope (read.layers ++ layer :: rest) state.1 state.2 done)
      ?_ ?_ hfold
    · intro state done action next _ hstate hstep
      exact hstate.step hstep
    · refine ⟨?_, ?_, by simp, by simp⟩
      · rw [List.append_nil]
        exact hread.distinct
      · rw [List.append_nil]
        exact hread.visited
  have hlist : read.layers ++ [layer] ++ (rest ++ found) =
      read.layers ++ layer :: rest ++ found := by simp
  have hlayer := hread.reads layer (by simp)
  constructor
  · rw [hlist]
    have hfirst := hread.first
    simp only [layerIds, List.map_append, List.head?_append] at hfirst ⊢
    rw [hfirst]
    rfl
  · rw [hlist]
    exact hfollowed.distinct
  · rw [hlist]
    exact hfollowed.seen
  · intro resolved hresolved
    rw [hlist] at hresolved
    rcases List.mem_append.mp hresolved with hold | hnew
    · exact hread.reads resolved hold
    · obtain ⟨hresolve, action, haction, hstate, hkind, htarget⟩ :=
        hfollowed.reads resolved hnew
      exact ⟨hresolve, hlayer.2.tail
        (navigates_of_mem_resolve hlayer.1 haction hstate hkind htarget)⟩
  · intro resolved hresolved target harc
    rcases List.mem_append.mp hresolved with hold | hnew
    · rw [hfollowed.seen, layerIds, List.map_append]
      apply List.mem_append_left
      exact (hread.visited target).mp (hread.closed resolved hold target harc)
    · rw [List.mem_singleton.mp hnew] at harc
      obtain ⟨action, haction, hkind, htarget⟩ :=
        exists_mem_resolve_of_navigates hlayer.1 harc
      obtain ⟨seen, hseen, hleads⟩ := hfollowed.leads action haction hkind
      obtain rfl : target = seen := by simpa [htarget] using hleads
      exact hseen

/-- A publication that is read holds exactly the layers to which its root
leads: the root first, each of them once and as it is stored. -/
theorem publication_exact (db : GraphDatabase) (scope : InteractionScope)
    (rootLayer : LayerId) (rootAction : Option GraphAction)
    (publication : AcceptedGraphPublication)
    (hread : db.readAcceptedPublication scope rootLayer rootAction =
      .ok publication) :
    (layerIds publication.layers).head? = some rootLayer ∧
      (layerIds publication.layers).Nodup ∧
      (∀ layer, layer ∈ layerIds publication.layers ↔
        db.Leads rootLayer layer) ∧
      ∀ resolved ∈ publication.layers,
        db.resolve scope resolved.layer.id true = .ok resolved := by
  simp only [readAcceptedPublication, bind_eq_ok_iff, pure_eq_ok_iff] at hread
  obtain ⟨first, hfirst, layers, hlayers, interaction, -, rfl⟩ := hread
  have hid := id_of_resolve hfirst
  have hfinal : ∃ read : ClosureRead, read.layers = layers ∧
      ReadFrom db scope rootLayer read [] := by
    refine drain_induction
      (P := fun read pending => ReadFrom db scope rootLayer read pending)
      (Q := fun layers => ∃ read : ClosureRead, read.layers = layers ∧
        ReadFrom db scope rootLayer read []) ?_ ?_ ?_ ?_ hlayers
    · intro read layer rest next more hstate hturn
      exact hstate.turn hturn
    · intro read layer rest result _ hturn
      simp [readLayer] at hturn
    · intro read hstate
      exact ⟨read, rfl, hstate⟩
    · constructor <;> simp [layerIds, hid, hfirst, Leads, ReflTransGen.refl]
  obtain ⟨read, rfl, hstate⟩ := hfinal
  have hmem : ∀ layer, layer ∈ read.visited ↔ layer ∈ layerIds read.layers := by
    simpa using hstate.visited
  refine ⟨by simpa using hstate.first, by simpa using hstate.distinct, ?_, ?_⟩
  · intro layer
    constructor
    · intro hlayer
      obtain ⟨resolved, hresolved, rfl⟩ := List.mem_map.mp hlayer
      exact (hstate.reads resolved (by simpa using hresolved)).2
    · intro hpath
      rw [← hmem]
      induction hpath with
      | refl =>
          rw [hmem]
          exact List.mem_of_mem_head? (by simpa using hstate.first)
      | @tail middle target _ harc ih =>
          obtain ⟨resolved, hresolved, rfl⟩ := List.mem_map.mp ((hmem middle).mp ih)
          exact hstate.closed resolved hresolved target harc
  · intro resolved hresolved
    exact (hstate.reads resolved (by simpa using hresolved)).1

/-- The answer in two layers is read, and its first layer leads to its
second. -/
theorem publication_exact_answered :
    ∃ publication, Sample.answered.readAcceptedPublication
        ⟨Sample.thread, ⟨1⟩, false, none⟩ ⟨1⟩ none = .ok publication ∧
      Sample.answered.Leads ⟨1⟩ ⟨2⟩ ∧ ¬ Sample.answered.Leads ⟨1⟩ ⟨3⟩ := by
  have hread : (Sample.answered.readAcceptedPublication
      ⟨Sample.thread, ⟨1⟩, false, none⟩ ⟨1⟩ none).toOption.map
        (fun publication => layerIds publication.layers) =
          some [⟨1⟩, ⟨2⟩] := by decide
  cases hresult : Sample.answered.readAcceptedPublication
      ⟨Sample.thread, ⟨1⟩, false, none⟩ ⟨1⟩ none with
  | error e => simp [hresult, Except.toOption] at hread
  | ok publication =>
      have hids : layerIds publication.layers = [⟨1⟩, ⟨2⟩] := by
        simpa [hresult, Except.toOption] using hread
      obtain ⟨-, -, hmem, -⟩ := publication_exact Sample.answered
        ⟨Sample.thread, ⟨1⟩, false, none⟩ ⟨1⟩ none publication hresult
      refine ⟨publication, rfl, ?_, ?_⟩
      · exact (hmem ⟨2⟩).mp (by simp [hids])
      · intro hpath
        have hlisted := (hmem ⟨3⟩).mpr hpath
        rw [hids] at hlisted
        exact absurd hlisted (by decide)

end GraphDatabase

end RelayerGraph
