import RelayerGraph.Search.Store

/-!
# Inventories of the search store

Startup compares two inventories: the records physically in the store, and the
records the canonical rows call for.  An inventory is a list of entries whose
order carries no meaning, since the source sorts it before every comparison;
so are the publication targets inside an entry.
-/

namespace RelayerGraph

/-- One searchable record: its identity, its properties and who sees it. -/
structure InventoryEntry where
  key : List String
  properties : Properties
  targets : List String
deriving DecidableEq

/-- The encoding of an entry sorts its targets. -/
def InventoryEntry.encode (entry : InventoryEntry) :
    List String × Properties × Multiset String :=
  (entry.key, entry.properties, entry.targets)

abbrev SearchInventory := List InventoryEntry

namespace SearchInventory

/-- The comparison of two inventories, both sorted. -/
def encode (inventory : SearchInventory) :
    Multiset (List String × Properties × Multiset String) :=
  inventory.map InventoryEntry.encode

/-- The entries one target sees, without their publication lists. -/
def projection (inventory : SearchInventory) (target : SearchTarget) :
    Multiset (List String × Properties) :=
  (inventory.filter fun entry => target.display ∈ entry.targets).map
    fun entry => (entry.key, entry.properties)

/-- Every target named by some entry. -/
def targetNames (inventory : SearchInventory) : List String :=
  inventory.flatMap InventoryEntry.targets

/-- A target no entry names has an empty projection. -/
theorem projection_eq_zero {inventory : SearchInventory} {target : SearchTarget}
    (hunnamed : target.display ∉ inventory.targetNames) :
    inventory.projection target = 0 := by
  have hnone : inventory.filter
      (fun entry => target.display ∈ entry.targets) = [] := by
    rw [List.filter_eq_nil_iff]
    intro entry hentry hmem
    exact hunnamed (List.mem_flatMap.mpr ⟨entry, hentry, by simpa using hmem⟩)
  simp [projection, hnone]

/-- A projection only depends on the encoded inventory. -/
theorem projection_eq_of_encode {inventory other : SearchInventory}
    (heq : inventory.encode = other.encode) (target : SearchTarget) :
    inventory.projection target = other.projection target := by
  have hencoded : ∀ entries : SearchInventory,
      entries.projection target =
        (entries.encode.filter fun entry => target.display ∈ entry.2.2).map
          fun entry => (entry.1, entry.2.1) := by
    intro entries
    simp only [projection, encode, Multiset.filter_coe, Multiset.map_coe,
      List.filter_map, List.map_map]
    rfl
  rw [hencoded, hencoded, heq]

end SearchInventory

/-! ## The physical inventory -/

def vertexInventoryKey (key : VertexKey) : List String :=
  ["node", key.table.name, key.id]

/-- Connections are undirected, so their endpoints are listed in order. -/
def relationshipInventoryKey (key : RelationshipKey) : List String :=
  if key.table = .connected ∧ key.target < key.source then
    ["relationship", key.table.name, key.id, key.target, key.source]
  else
    ["relationship", key.table.name, key.id, key.source, key.target]

def VertexRow.entry (row : VertexRow) : InventoryEntry :=
  ⟨vertexInventoryKey row.key, row.properties, row.publishedTargets⟩

def RelationshipRow.entry (row : RelationshipRow) : InventoryEntry :=
  ⟨relationshipInventoryKey row.key, row.properties, row.publishedTargets⟩

/-- `physical_inventory`. -/
def physicalInventory (store : SearchStore) : SearchInventory :=
  store.vertices.map VertexRow.entry ++
    store.relationships.map RelationshipRow.entry

/-! ## The canonical inventory -/

/-- One canonical closure and where it is visible. -/
structure SearchIndexRebuildClosure where
  target : SearchTarget
  publishedTo : List SearchTarget
  closure : AcceptedGraphPublication
deriving DecidableEq

/-- Everything the derived store must contain. -/
structure SearchIndexRebuildSnapshot where
  targets : List (SearchTarget × ℤ)
  closures : List SearchIndexRebuildClosure
deriving DecidableEq

/-- `add_inventory`: applying an identity again replaces its properties and
unions its targets. -/
def addInventory (targets : List String) (inventory : SearchInventory)
    (record : List String × Properties) : SearchInventory :=
  if inventory.any fun entry => entry.key = record.1 then
    inventory.map fun entry =>
      if entry.key = record.1 then
        { entry with
          properties := record.2
          targets := mergeTargets entry.targets targets }
      else
        entry
  else
    inventory ++ [⟨record.1, record.2, targets.dedup⟩]

def contentRecord (node : GraphNode) : List String × Properties :=
  (vertexInventoryKey ⟨.content, contentId node.id⟩, contentProperties node)

def layerRecord (layer : ResolvedLayer) : List String × Properties :=
  (vertexInventoryKey ⟨.layer, layerId layer.layer.id⟩, layerProperties layer)

def membershipRecord (layer : GraphLayer) (position : ℕ) (node : NodeId) :
    List String × Properties :=
  (relationshipInventoryKey
      ⟨.contains, membershipId layer.id position node, layerId layer.id,
        contentId node⟩,
    membershipProperties layer position node)

def edgeRecord (edge : GraphEdge) : List String × Properties :=
  (relationshipInventoryKey
      ⟨.connected, edgeId edge.id, contentId edge.endpoints.1,
        contentId edge.endpoints.2⟩,
    edgeProperties edge)

/-- `add_action_inventory`. -/
def actionRecord (action : GraphAction) : Option (List String × Properties) :=
  (searchableNavigation action).map fun (relation, target) =>
    (relationshipInventoryKey
        ⟨navigateTable relation, actionId action.id,
          contentId action.sourceNodeId, layerId target⟩,
      actionProperties action relation)

/-- The records of a closure in the order `canonical_inventory` adds them. -/
def closureRecords (closure : AcceptedGraphPublication) :
    List (List String × Properties) :=
  contentRecord closure.interaction ::
    (closure.layers.flatMap fun layer =>
      layerRecord layer :: layer.nodes.map contentRecord ++
        layer.layer.nodes.zipIdx.map
          (fun (node, position) => membershipRecord layer.layer position node) ++
        layer.edges.map edgeRecord ++
        layer.actions.filterMap actionRecord) ++
    closure.rootAction.toList.filterMap actionRecord

/-- `canonical_inventory`. -/
def canonicalInventory (snapshot : SearchIndexRebuildSnapshot) :
    SearchInventory :=
  snapshot.closures.foldl
    (fun inventory item =>
      (closureRecords item.closure).foldl
        (addInventory (item.publishedTo.map SearchTarget.display)) inventory)
    []

theorem mem_targetNames_addInventory {targets : List String}
    {inventory : SearchInventory} {record : List String × Properties}
    {name : String} (hname : name ∈ (addInventory targets inventory record).targetNames) :
    name ∈ inventory.targetNames ∨ name ∈ targets := by
  obtain ⟨entry, hentry, hmem⟩ := List.mem_flatMap.mp hname
  unfold addInventory at hentry
  split at hentry
  · obtain ⟨old, hold, rfl⟩ := List.mem_map.mp hentry
    split at hmem
    · rcases List.mem_append.mp (List.mem_dedup.mp hmem) with h | h
      · exact .inl (List.mem_flatMap.mpr ⟨old, hold, h⟩)
      · exact .inr h
    · exact .inl (List.mem_flatMap.mpr ⟨old, hold, hmem⟩)
  · rcases List.mem_append.mp hentry with hold | hnew
    · exact .inl (List.mem_flatMap.mpr ⟨entry, hold, hmem⟩)
    · rw [List.mem_singleton.mp hnew] at hmem
      exact .inr (List.mem_dedup.mp hmem)

theorem mem_targetNames_foldl_addInventory {targets : List String}
    {records : List (List String × Properties)} {inventory : SearchInventory}
    {name : String}
    (hname : name ∈
      (records.foldl (addInventory targets) inventory).targetNames) :
    name ∈ inventory.targetNames ∨ name ∈ targets := by
  induction records generalizing inventory with
  | nil => exact .inl hname
  | cons record records ih =>
      rcases ih hname with h | h
      · exact mem_targetNames_addInventory h
      · exact .inr h

/-- The canonical inventory names only targets its closures are visible to. -/
theorem exists_closure_of_mem_targetNames {snapshot : SearchIndexRebuildSnapshot}
    {name : String} (hname : name ∈ (canonicalInventory snapshot).targetNames) :
    ∃ item ∈ snapshot.closures, ∃ target ∈ item.publishedTo,
      target.display = name := by
  suffices hfold : ∀ (closures : List SearchIndexRebuildClosure)
      (inventory : SearchInventory),
      name ∈ (closures.foldl (fun inventory item =>
        (closureRecords item.closure).foldl
          (addInventory (item.publishedTo.map SearchTarget.display)) inventory)
        inventory).targetNames →
      name ∈ inventory.targetNames ∨ ∃ item ∈ closures,
        ∃ target ∈ item.publishedTo, target.display = name by
    rcases hfold snapshot.closures [] hname with h | h
    · cases h
    · exact h
  intro closures
  induction closures with
  | nil => exact fun _ h => .inl h
  | cons item closures ih =>
      intro inventory h
      rcases ih _ h with hitem | ⟨other, hother, hrest⟩
      · rcases mem_targetNames_foldl_addInventory hitem with hold | hnew
        · exact .inl hold
        · obtain ⟨target, htarget, rfl⟩ := List.mem_map.mp hnew
          exact .inr ⟨item, by simp, target, htarget, rfl⟩
      · exact .inr ⟨other, by simp [hother], hrest⟩

end RelayerGraph
