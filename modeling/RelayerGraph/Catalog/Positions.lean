import RelayerGraph.Catalog.Families

/-!
# Positions of model families

Renumbering all families moves every row past the last position first, and
then gives each its place.  With positions that are pairwise different neither
pass meets the unique index, and what they leave is the numbering of the list
of ids: the active families from 0 in the order asked for, the tombstoned ones
after them in the order they had.
-/

namespace RelayerGraph

open Foundation Checked

namespace CatalogDatabase

abbrev FamilyTable := Table CatalogTable.modelFamily FamilyRow

/-! ## Places -/

/-- Every row a position is given for receives it. -/
def placed (position : ModelFamilyId → Option ℕ) (families : FamilyTable) :
    FamilyTable :=
  families.mapRows fun key row =>
    { row with position := (position key).getD row.position }

/-- No two rows share a position. -/
def DistinctPositions (families : FamilyTable) : Prop :=
  ∀ id row id' row', families.get? id = some row →
    families.get? id' = some row' → row.position = row'.position → id = id'

/-- The positions are the numbers below the number of rows. -/
def Contiguous (families : FamilyTable) : Prop :=
  (families.entries.map fun entry => entry.2.position).Perm
    (List.range families.entries.length)

theorem get?_placed (position : ModelFamilyId → Option ℕ)
    (families : FamilyTable) (id : ModelFamilyId) :
    (placed position families).get? id = (families.get? id).map fun row =>
      { row with position := (position id).getD row.position } := by
  simp [placed]

theorem placed_placed (first second : ModelFamilyId → Option ℕ)
    (families : FamilyTable) :
    placed second (placed first families) =
      placed (fun id => second id <|> first id) families := by
  simp only [placed, Table.mapRows_mapRows]
  apply Table.mapRows_congr
  intro key row _
  cases second key <;> simp

theorem placed_congr {position other : ModelFamilyId → Option ℕ}
    {families : FamilyTable}
    (hsame : ∀ id row, families.get? id = some row →
      position id = other id) :
    placed position families = placed other families := by
  apply Table.mapRows_congr
  intro key row hrow
  rw [hsame key row hrow]

theorem placed_none (families : FamilyTable) :
    placed (fun _ => none) families = families :=
  Table.mapRows_self families

/-- Contiguous positions are pairwise different. -/
theorem Contiguous.distinct {families : FamilyTable}
    (hcontiguous : Contiguous families) : DistinctPositions families := by
  have hnodup : (families.entries.map fun entry => entry.2.position).Nodup :=
    hcontiguous.nodup_iff.mpr List.nodup_range
  intro id row id' row' hrow hrow' hposition
  have hmem := Table.mem_entries.mpr hrow
  have hmem' := Table.mem_entries.mpr hrow'
  have hsame := List.inj_on_of_nodup_map hnodup hmem hmem' hposition
  exact congrArg Prod.fst hsame

theorem Contiguous.lt_length {families : FamilyTable}
    (hcontiguous : Contiguous families) {id : ModelFamilyId} {row : FamilyRow}
    (hrow : families.get? id = some row) :
    row.position < families.entries.length := by
  have hmem : row.position ∈
      families.entries.map fun entry => entry.2.position :=
    List.mem_map.mpr ⟨(id, row), Table.mem_entries.mpr hrow, rfl⟩
  exact List.mem_range.mp (hcontiguous.mem_iff.mp hmem)

/-! ## One pass -/

/-- A pass gives each listed id its position, one row after the other. -/
def setPositions (places : List (ModelFamilyId × ℕ)) (families : FamilyTable) :
    CatalogResult FamilyTable :=
  places.foldlM
    (fun families entry => setPosition entry.2 entry.1 families) families

/-- The position a pass gives an id. -/
def placeOf (places : List (ModelFamilyId × ℕ)) (id : ModelFamilyId) :
    Option ℕ :=
  (places.find? fun entry => entry.1 = id).map Prod.snd

theorem setPosition_eq {position : ℕ} {id : ModelFamilyId}
    {families result : FamilyTable}
    (hrun : setPosition position id families = .ok result) :
    result = placed (fun key => if key = id then some position else none)
      families := by
  simp only [setPosition, bind_eq_ok_iff, require_eq_ok_iff,
    pure_eq_ok_iff] at hrun
  obtain ⟨-, -, rfl⟩ := hrun
  apply Table.mapRows_congr
  intro key row _
  by_cases hkey : key = id <;> simp [hkey]

/-- A position no row has can be set. -/
theorem exists_setPosition {position : ℕ} {id : ModelFamilyId}
    {families : FamilyTable}
    (hfree : ∀ key row, families.get? key = some row →
      row.position ≠ position) :
    ∃ result, setPosition position id families = .ok result := by
  refine ⟨families.mapRows fun key row =>
    if key = id then { row with position := position } else row, ?_⟩
  simp only [setPosition, bind_eq_ok_iff, require_eq_ok_iff, pure_eq_ok_iff]
  refine ⟨(), ?_, trivial⟩
  intro _
  rw [List.all_eq_true]
  intro entry hentry
  simp [hfree entry.1 entry.2 (Table.mem_entries.mp hentry)]

theorem setPositions_cons {place : ModelFamilyId × ℕ}
    {places : List (ModelFamilyId × ℕ)} {families result : FamilyTable} :
    setPositions (place :: places) families = .ok result ↔
      ∃ next, setPosition place.2 place.1 families = .ok next ∧
        setPositions places next = .ok result := by
  simp [setPositions]

/-- What a pass over different ids leaves. -/
theorem setPositions_eq {places : List (ModelFamilyId × ℕ)}
    {families result : FamilyTable} (hids : (places.map Prod.fst).Nodup)
    (hrun : setPositions places families = .ok result) :
    result = placed (placeOf places) families := by
  induction places generalizing families with
  | nil =>
      obtain rfl : families = result := by simpa [setPositions] using hrun
      exact (placed_none families).symm
  | cons place places ih =>
      obtain ⟨next, hplace, hrest⟩ := setPositions_cons.mp hrun
      rw [List.map_cons, List.nodup_cons] at hids
      rw [ih hids.2 hrest, setPosition_eq hplace, placed_placed]
      congr 1
      funext id
      by_cases hid : id = place.1
      · have habsent : placeOf places id = none := by
          simp only [placeOf, Option.map_eq_none_iff, List.find?_eq_none]
          intro entry hentry heq
          apply hids.1
          have hsame : entry.1 = place.1 := by simpa [hid] using heq
          exact hsame ▸ List.mem_map_of_mem hentry
        rw [habsent]
        simp [placeOf, hid]
      · have hne : ¬ place.1 = id := fun heq => hid heq.symm
        simp [placeOf, hid, hne]

/-- A pass onto different positions that no row has is not refused. -/
theorem exists_setPositions {places : List (ModelFamilyId × ℕ)}
    {families : FamilyTable} (hpositions : (places.map Prod.snd).Nodup)
    (hfree : ∀ key row, families.get? key = some row →
      row.position ∉ places.map Prod.snd) :
    ∃ result, setPositions places families = .ok result := by
  induction places generalizing families with
  | nil => exact ⟨families, rfl⟩
  | cons place places ih =>
      rw [List.map_cons, List.nodup_cons] at hpositions
      have hplace : ∀ key row, families.get? key = some row →
          row.position ≠ place.2 := by
        intro key row hrow heq
        exact hfree key row hrow (by simp [heq])
      obtain ⟨next, hnext⟩ :
          ∃ next, setPosition place.2 place.1 families = .ok next :=
        exists_setPosition hplace
      have hlater : ∀ key row, next.get? key = some row →
          row.position ∉ places.map Prod.snd := by
        intro key row hrow
        rw [setPosition_eq hnext, get?_placed] at hrow
        obtain ⟨old, hold, rfl⟩ := Option.map_eq_some_iff.mp hrow
        by_cases hkey : key = place.1
        · simpa [hkey] using hpositions.1
        · have hnot := hfree key old hold
          rw [List.map_cons, List.mem_cons, not_or] at hnot
          simpa [hkey] using hnot.2
      obtain ⟨result, hresult⟩ := ih hpositions.2 hlater
      exact ⟨result, setPositions_cons.mpr ⟨next, hnext, hresult⟩⟩

/-! ## The two passes of a renumbering -/

/-- The positions of the first pass. -/
def shiftedPlaces (offset : ℕ) (families : FamilyTable) :
    List (ModelFamilyId × ℕ) :=
  families.entries.map fun entry => (entry.1, entry.2.position + offset)

theorem shiftPositions_eq_setPositions (offset : ℕ) (families : FamilyTable) :
    shiftPositions offset families =
      setPositions (shiftedPlaces offset families) families := by
  simp [shiftPositions, setPositions, shiftedPlaces, List.foldlM_map]

theorem nodup_ids_shiftedPlaces (offset : ℕ) (families : FamilyTable) :
    ((shiftedPlaces offset families).map Prod.fst).Nodup := by
  rw [shiftedPlaces, List.map_map]
  exact families.nodup_keys

theorem nodup_positions_shiftedPlaces {offset : ℕ} {families : FamilyTable}
    (hdistinct : DistinctPositions families) :
    ((shiftedPlaces offset families).map Prod.snd).Nodup := by
  rw [shiftedPlaces, List.map_map]
  apply List.Nodup.map_on
  · intro entry hentry other hother heq
    have hrow := Table.mem_entries.mp hentry
    have hrow' := Table.mem_entries.mp hother
    have hposition : entry.2.position = other.2.position := by
      simpa using heq
    have hid := hdistinct _ _ _ _ hrow hrow' hposition
    have hsame : some entry.2 = some other.2 := by
      rw [← hrow, ← hrow', hid]
    exact Prod.ext hid (Option.some.inj hsame)
  · exact List.Nodup.of_map _ families.nodup_keys

theorem placeOf_shiftedPlaces {offset : ℕ} {families : FamilyTable}
    {id : ModelFamilyId} {row : FamilyRow}
    (hrow : families.get? id = some row) :
    placeOf (shiftedPlaces offset families) id =
      some (row.position + offset) := by
  have hentry : (id, row.position + offset) ∈ shiftedPlaces offset families :=
    List.mem_map.mpr ⟨(id, row), Table.mem_entries.mpr hrow, rfl⟩
  cases hfind : (shiftedPlaces offset families).find?
      fun entry => entry.1 = id with
  | none =>
      rw [List.find?_eq_none] at hfind
      exact absurd (decide_eq_true rfl) (hfind _ hentry)
  | some found =>
      have hkey : found.1 = id := by
        simpa using List.find?_some hfind
      have hsame := List.inj_on_of_nodup_map
        (nodup_ids_shiftedPlaces offset families)
        (List.mem_of_find?_eq_some hfind) hentry hkey
      simp [placeOf, hfind, hsame]

theorem assignPositions_eq_setPositions (start : ℕ) (ids : List ModelFamilyId)
    (families : FamilyTable) :
    assignPositions start ids families =
      setPositions (ids.zipIdx start) families := rfl

theorem setPositions_append {first second : List (ModelFamilyId × ℕ)}
    {families result : FamilyTable} :
    setPositions (first ++ second) families = .ok result ↔
      ∃ next, setPositions first families = .ok next ∧
        setPositions second next = .ok result := by
  simp [setPositions, List.foldlM_append]

/-- The position of an id in a numbered list. -/
theorem placeOf_zipIdx {ids : List ModelFamilyId} {start : ℕ}
    {id : ModelFamilyId} (hid : id ∈ ids) :
    placeOf (ids.zipIdx start) id = some (start + ids.idxOf id) := by
  induction ids generalizing start with
  | nil => cases hid
  | cons head ids ih =>
      by_cases hhead : head = id
      · subst hhead
        simp [placeOf]
      · have hrest : id ∈ ids := by
          rcases List.mem_cons.mp hid with heq | hrest
          · exact absurd heq.symm hhead
          · exact hrest
        have hnext : placeOf ((head :: ids).zipIdx start) id =
            placeOf (ids.zipIdx (start + 1)) id := by
          simp [placeOf, List.zipIdx_cons, hhead]
        rw [hnext, ih hrest, List.idxOf_cons_ne ids hhead]
        congr 1
        omega

variable {db db' : CatalogDatabase}

/-- All ids in the order a renumbering gives them. -/
def numberedIds (db : CatalogDatabase) (activeIds : List ModelFamilyId) :
    List ModelFamilyId :=
  activeIds ++ orderedIds db.families .tombstoned

/-- The offset of the first pass is past every position. -/
theorem lt_nextPosition {id : ModelFamilyId} {row : FamilyRow}
    (hrow : db.families.get? id = some row) :
    row.position < db.nextPosition := by
  have hle : ∀ (positions : List ℕ) (start p : ℕ),
      p = start ∨ p ∈ positions → p ≤ positions.foldl max start := by
    intro positions
    induction positions with
    | nil =>
        intro start p hp
        simpa using Nat.le_of_eq (by simpa using hp)
    | cons head positions ih =>
        intro start p hp
        rw [List.foldl_cons]
        rcases hp with rfl | hp
        · exact le_trans (le_max_left _ _) (ih _ _ (.inl rfl))
        · rcases List.mem_cons.mp hp with rfl | hp
          · exact le_trans (le_max_right _ _) (ih _ _ (.inl rfl))
          · exact ih _ _ (.inr hp)
  have hmem : row.position + 1 ∈
      db.families.entries.map fun entry => entry.2.position + 1 :=
    List.mem_map.mpr ⟨(id, row), Table.mem_entries.mpr hrow, rfl⟩
  exact hle _ 0 _ (.inr hmem)

theorem rewriteFamilyPositions_eq_ok_iff {activeIds : List ModelFamilyId} :
    db.rewriteFamilyPositions activeIds = .ok db' ↔
      ∃ shifted numbered,
        shiftPositions (db.nextPosition + db.families.entries.length)
          db.families = .ok shifted ∧
        setPositions ((db.numberedIds activeIds).zipIdx 0) shifted =
          .ok numbered ∧
        { db with families := numbered } = db' := by
  simp only [rewriteFamilyPositions, bind_eq_ok_iff, pure_eq_ok_iff,
    numberedIds, List.zipIdx_append, setPositions_append,
    assignPositions_eq_setPositions, Nat.zero_add]
  constructor
  · rintro ⟨shifted, hshift, middle, hactive, numbered, htombstones, rfl⟩
    exact ⟨shifted, numbered, hshift, ⟨middle, hactive, htombstones⟩, rfl⟩
  · rintro ⟨shifted, numbered, hshift, ⟨middle, hactive, htombstones⟩, rfl⟩
    exact ⟨shifted, hshift, middle, hactive, numbered, htombstones, rfl⟩

/-- The ids number every row of the table, none of them twice. -/
def Numbers (ids : List ModelFamilyId) (families : FamilyTable) : Prop :=
  ids.Nodup ∧ ∀ id row, families.get? id = some row → id ∈ ids

/-- What a renumbering leaves: each row at the place of its id. -/
theorem rewriteFamilyPositions_eq {activeIds : List ModelFamilyId}
    (hids : Numbers (db.numberedIds activeIds) db.families)
    (hrun : db.rewriteFamilyPositions activeIds = .ok db') :
    db' = { db with
      families := placed
        (fun id => some ((db.numberedIds activeIds).idxOf id)) db.families } := by
  obtain ⟨shifted, numbered, hshift, hnumber, rfl⟩ :=
    rewriteFamilyPositions_eq_ok_iff.mp hrun
  rw [shiftPositions_eq_setPositions] at hshift
  have hidsNodup : (((db.numberedIds activeIds).zipIdx 0).map
      Prod.fst).Nodup := by
    simpa using hids.1
  have hnumbered := setPositions_eq hidsNodup hnumber
  rw [setPositions_eq (nodup_ids_shiftedPlaces _ _) hshift,
    placed_placed] at hnumbered
  rw [hnumbered]
  congr 1
  apply placed_congr
  intro id row hrow
  rw [placeOf_zipIdx (hids.2 id row hrow)]
  simp

/-- With different positions the renumbering is not refused. -/
theorem exists_rewriteFamilyPositions {activeIds : List ModelFamilyId}
    (hlength : (db.numberedIds activeIds).length ≤ db.families.entries.length)
    (hdistinct : DistinctPositions db.families) :
    ∃ result, db.rewriteFamilyPositions activeIds = .ok result := by
  let offset := db.nextPosition + db.families.entries.length
  have hshiftFree : ∀ key row, db.families.get? key = some row →
      row.position ∉ (shiftedPlaces offset db.families).map Prod.snd := by
    intro key row hrow hmem
    obtain ⟨place, hplace, heq⟩ := List.mem_map.mp hmem
    obtain ⟨entry, -, rfl⟩ := List.mem_map.mp hplace
    have hlt := lt_nextPosition hrow
    simp only [offset] at heq
    omega
  obtain ⟨shifted, hshift⟩ := exists_setPositions
    (nodup_positions_shiftedPlaces hdistinct) hshiftFree
  have hshiftEq := setPositions_eq (nodup_ids_shiftedPlaces _ _) hshift
  have hnumberFree : ∀ key row, shifted.get? key = some row →
      row.position ∉ ((db.numberedIds activeIds).zipIdx 0).map Prod.snd := by
    intro key row hrow hmem
    rw [hshiftEq, get?_placed] at hrow
    obtain ⟨old, hold, rfl⟩ := Option.map_eq_some_iff.mp hrow
    rw [placeOf_shiftedPlaces hold, List.zipIdx_map_snd,
      List.mem_range'_1] at hmem
    simp only [Option.getD_some, offset] at hmem
    omega
  have hpositions : (((db.numberedIds activeIds).zipIdx 0).map
      Prod.snd).Nodup := by
    rw [List.zipIdx_map_snd]
    exact List.nodup_range'
  obtain ⟨numbered, hnumber⟩ := exists_setPositions hpositions hnumberFree
  refine ⟨_, rewriteFamilyPositions_eq_ok_iff.mpr
    ⟨shifted, numbered, ?_, hnumber, rfl⟩⟩
  rw [shiftPositions_eq_setPositions]
  exact hshift

/-! ## The order of the families -/

theorem perm_orderedIds (families : FamilyTable) (state : FamilyLifecycle) :
    (orderedIds families state).Perm
      ((families.entries.filter fun entry =>
        entry.2.lifecycleState = state).map Prod.fst) :=
  (List.perm_insertionSort _ _).map _

theorem mem_orderedIds {families : FamilyTable} {state : FamilyLifecycle}
    {id : ModelFamilyId} :
    id ∈ orderedIds families state ↔
      ∃ row, families.get? id = some row ∧ row.lifecycleState = state := by
  rw [(perm_orderedIds families state).mem_iff]
  simp [Table.mem_entries]

theorem nodup_orderedIds (families : FamilyTable) (state : FamilyLifecycle) :
    (orderedIds families state).Nodup := by
  rw [(perm_orderedIds families state).nodup_iff]
  exact (List.filter_sublist.map Prod.fst).nodup families.nodup_keys

/-- The ids come in the order of their positions. -/
theorem pairwise_orderedIds (families : FamilyTable)
    (state : FamilyLifecycle) :
    (orderedIds families state).Pairwise fun id other =>
      ∀ row row', families.get? id = some row →
        families.get? other = some row' → row.position ≤ row'.position := by
  let before (entry other : ModelFamilyId × FamilyRow) : Prop :=
    entry.2.position < other.2.position ∨
      entry.2.position = other.2.position ∧ entry.1.val ≤ other.1.val
  have : Std.Total before := ⟨fun a b => by simp only [before]; omega⟩
  have : IsTrans _ before := ⟨fun a b c => by simp only [before]; omega⟩
  have hsorted := List.pairwise_insertionSort before
    (families.entries.filter fun entry => entry.2.lifecycleState = state)
  have hmem : ∀ entry ∈ (families.entries.filter fun entry =>
      entry.2.lifecycleState = state).insertionSort before,
      families.get? entry.1 = some entry.2 := by
    intro entry hentry
    rw [List.mem_insertionSort] at hentry
    exact Table.mem_entries.mp (List.mem_filter.mp hentry).1
  unfold orderedIds
  rw [List.pairwise_map]
  refine hsorted.imp_of_mem ?_
  intro entry other hentry hother hbefore row row' hrow hrow'
  obtain rfl : entry.2 = row := by
    simpa [hmem entry hentry] using hrow
  obtain rfl : other.2 = row' := by
    simpa [hmem other hother] using hrow'
  simp only [before] at hbefore
  omega

theorem perm_numberedIds {activeIds : List ModelFamilyId}
    (hactive : activeIds.Perm (orderedIds db.families .active)) :
    (db.numberedIds activeIds).Perm (db.families.entries.map Prod.fst) := by
  have hsplit := List.filter_append_perm
    (fun entry : ModelFamilyId × FamilyRow =>
      decide (entry.2.lifecycleState = .active)) db.families.entries
  have hother : (db.families.entries.filter fun entry =>
      !decide (entry.2.lifecycleState = .active)) =
      db.families.entries.filter fun entry =>
        decide (entry.2.lifecycleState = .tombstoned) := by
    apply List.filter_congr
    intro entry _
    cases entry.2.lifecycleState <;> rfl
  rw [hother] at hsplit
  have hparts := (hactive.trans (perm_orderedIds _ _)).append
    (perm_orderedIds db.families .tombstoned)
  rw [← List.map_append] at hparts
  exact hparts.trans (hsplit.map Prod.fst)

theorem numbers_numberedIds {activeIds : List ModelFamilyId}
    (hactive : activeIds.Perm (orderedIds db.families .active)) :
    Numbers (db.numberedIds activeIds) db.families := by
  have hperm := perm_numberedIds hactive
  refine ⟨hperm.nodup_iff.mpr db.families.nodup_keys, ?_⟩
  intro id row hrow
  rw [hperm.mem_iff]
  exact List.mem_map_of_mem (Table.mem_entries.mpr hrow)

/-! ## What a renumbering leaves -/

/-- Every active family comes before every tombstoned one. -/
def ActiveFirst (families : FamilyTable) : Prop :=
  ∀ id row id' row', families.get? id = some row →
    families.get? id' = some row' → row.lifecycleState = .active →
    row'.lifecycleState = .tombstoned → row.position < row'.position

/-- The place of every id in a list that numbers the table. -/
def numbering (ids : List ModelFamilyId) (families : FamilyTable) :
    FamilyTable :=
  placed (fun id => some (ids.idxOf id)) families

theorem get?_numbering (ids : List ModelFamilyId) (families : FamilyTable)
    (id : ModelFamilyId) :
    (numbering ids families).get? id =
      (families.get? id).map fun row =>
        { row with position := ids.idxOf id } := by
  simp [numbering, get?_placed]

theorem map_idxOf_self {ids : List ModelFamilyId} (hids : ids.Nodup) :
    (ids.map fun id => ids.idxOf id) = List.range ids.length := by
  apply List.ext_getElem
  · simp
  · intro index hleft hright
    simp only [List.getElem_map, List.getElem_range]
    exact hids.idxOf_getElem index _

theorem contiguous_numbering {ids : List ModelFamilyId}
    {families : FamilyTable}
    (hperm : ids.Perm (families.entries.map Prod.fst)) :
    Contiguous (numbering ids families) := by
  have hnodup : ids.Nodup := hperm.nodup_iff.mpr families.nodup_keys
  have hlength : ids.length = families.entries.length := by
    simpa using hperm.length_eq
  have hpositions : ((numbering ids families).entries.map fun entry =>
      entry.2.position) =
      (families.entries.map Prod.fst).map fun id => ids.idxOf id := by
    simp [numbering, placed]
  have hentries : (numbering ids families).entries.length =
      families.entries.length := by
    simp [numbering, placed]
  unfold Contiguous
  rw [hpositions, hentries, ← hlength, ← map_idxOf_self hnodup]
  exact (hperm.map _).symm

/-- Different ids of a list come in the order of their places. -/
theorem pairwise_idxOf {ids : List ModelFamilyId} (hids : ids.Nodup) :
    ids.Pairwise fun id other => ids.idxOf id ≤ ids.idxOf other := by
  rw [List.pairwise_iff_getElem]
  intro i j hi hj hlt
  rw [hids.idxOf_getElem i hi, hids.idxOf_getElem j hj]
  exact Nat.le_of_lt hlt

/-- A numbering puts the rows of a lifecycle state in the order of the list. -/
theorem orderedIds_numbering {ids part : List ModelFamilyId}
    {families : FamilyTable} {state : FamilyLifecycle} (hids : ids.Nodup)
    (hpart : part.Sublist ids)
    (hperm : part.Perm (orderedIds families state)) :
    orderedIds (numbering ids families) state = part := by
  have hstored : ∀ {id}, id ∈ part →
      ∃ row, (numbering ids families).get? id = some row ∧
        row.position = ids.idxOf id ∧ row.lifecycleState = state := by
    intro id hid
    obtain ⟨row, hrow, hstate⟩ := mem_orderedIds.mp (hperm.mem_iff.mp hid)
    exact ⟨{ row with position := ids.idxOf id },
      by simp [get?_numbering, hrow], rfl, hstate⟩
  have hsame : (orderedIds (numbering ids families) state).Perm part := by
    rw [List.perm_ext_iff_of_nodup (nodup_orderedIds _ _)
      (hperm.nodup_iff.mpr (nodup_orderedIds _ _))]
    intro id
    constructor
    · intro hid
      obtain ⟨row, hrow, hstate⟩ := mem_orderedIds.mp hid
      rw [get?_numbering] at hrow
      obtain ⟨old, hold, rfl⟩ := Option.map_eq_some_iff.mp hrow
      exact hperm.mem_iff.mpr (mem_orderedIds.mpr ⟨old, hold, hstate⟩)
    · intro hid
      obtain ⟨row, hrow, -, hstate⟩ := hstored hid
      exact mem_orderedIds.mpr ⟨row, hrow, hstate⟩
  let before (id other : ModelFamilyId) : Prop :=
    ids.idxOf id ≤ ids.idxOf other
  refine @List.Perm.eq_of_pairwise _ before _ _ ?_ ?_ ?_ hsame
  · intro id other hid hother hle hge
    have hmem : id ∈ ids := hpart.subset (hsame.mem_iff.mp hid)
    exact (List.idxOf_inj hmem).mp (Nat.le_antisymm hle hge)
  · refine (pairwise_orderedIds (numbering ids families) state).imp_of_mem ?_
    intro id other hid hother hle
    obtain ⟨row, hrow, hplace, -⟩ := hstored (hsame.mem_iff.mp hid)
    obtain ⟨row', hrow', hplace', -⟩ := hstored (hsame.mem_iff.mp hother)
    have hpositions := hle row row' hrow hrow'
    rwa [hplace, hplace'] at hpositions
  · exact (pairwise_idxOf hids).sublist hpart

/-- The outcome of a renumbering: contiguous positions, the active families
first and in the order asked for. -/
structure Renumbered (db : CatalogDatabase) (activeIds : List ModelFamilyId)
    (db' : CatalogDatabase) : Prop where
  rows : db' = { db with
    families := numbering (db.numberedIds activeIds) db.families }
  contiguous : Contiguous db'.families
  activeFirst : ActiveFirst db'.families
  active : orderedIds db'.families .active = activeIds
  tombstoned : orderedIds db'.families .tombstoned =
    orderedIds db.families .tombstoned

theorem rewriteFamilyPositions_spec {activeIds : List ModelFamilyId}
    (hactive : activeIds.Perm (orderedIds db.families .active))
    (hrun : db.rewriteFamilyPositions activeIds = .ok db') :
    Renumbered db activeIds db' := by
  have hperm := perm_numberedIds hactive
  have hids := numbers_numberedIds hactive
  obtain rfl := rewriteFamilyPositions_eq hids hrun
  refine ⟨rfl, contiguous_numbering hperm, ?_, ?_, ?_⟩
  · intro id row id' row' hrow hrow' hstate hstate'
    replace hrow : (numbering (db.numberedIds activeIds)
        db.families).get? id = some row := hrow
    replace hrow' : (numbering (db.numberedIds activeIds)
        db.families).get? id' = some row' := hrow'
    rw [get?_numbering] at hrow hrow'
    obtain ⟨old, hold, rfl⟩ := Option.map_eq_some_iff.mp hrow
    obtain ⟨old', hold', rfl⟩ := Option.map_eq_some_iff.mp hrow'
    have hin : id ∈ activeIds :=
      hactive.mem_iff.mpr (mem_orderedIds.mpr ⟨old, hold, hstate⟩)
    have hout : id' ∉ activeIds := by
      intro hid'
      obtain ⟨other, hother, hother'⟩ :=
        mem_orderedIds.mp (hactive.mem_iff.mp hid')
      obtain rfl : old' = other := by simpa [hold'] using hother
      rw [show old'.lifecycleState = .tombstoned from hstate'] at hother'
      cases hother'
    have hlt := List.idxOf_lt_length_of_mem hin
    simp only [numberedIds, List.idxOf_append_of_mem hin,
      List.idxOf_append_of_notMem hout]
    omega
  · exact orderedIds_numbering hids.1 (List.sublist_append_left _ _) hactive
  · exact orderedIds_numbering hids.1 (List.sublist_append_right _ _)
      (List.Perm.refl _)

/-- A renumbering of different positions is never refused. -/
theorem exists_renumbered {activeIds : List ModelFamilyId}
    (hactive : activeIds.Perm (orderedIds db.families .active))
    (hdistinct : DistinctPositions db.families) :
    ∃ db', db.rewriteFamilyPositions activeIds = .ok db' := by
  have hlength := (perm_numberedIds hactive).length_eq
  rw [List.length_map] at hlength
  exact exists_rewriteFamilyPositions hlength.le hdistinct

end CatalogDatabase

end RelayerGraph
