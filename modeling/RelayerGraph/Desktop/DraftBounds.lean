import RelayerGraph.Desktop.ComposerDrafts

/-!
# What the bounds of the composer drafts keep

Where the object lists the drafts as it got them, bounding a state keeps the
newest drafts that fit, each with its restoration, and all records up to their
own cap.
-/

namespace RelayerGraph

open Foundation OldestFirst

namespace ComposerDrafts

/-! ## Keys -/

/-- Array indices come first, in ascending order. -/
def ListedAsInserted (l : List JsString) : Prop :=
  l.Pairwise fun k m =>
    isArrayIndex m → isArrayIndex k ∧ indexValue k ≤ indexValue m

theorem listed_eq {l : List JsString} (h : ListedAsInserted l) :
    listed l = l := by
  have hsorted : (l.filter isArrayIndex).Pairwise fun k m =>
      indexValue k ≤ indexValue m := by
    refine (h.filter isArrayIndex).imp_of_mem ?_
    intro k m _ hm hkm
    exact (hkm (List.mem_filter.mp hm).2).2
  rw [listed, List.Pairwise.insertionSort_eq hsorted]
  clear hsorted
  induction l with
  | nil => rfl
  | cons k l ih =>
      have hcons := List.pairwise_cons.mp h
      by_cases hk : isArrayIndex k
      · simp only [hk, List.filter_cons_of_pos, Bool.not_true,
          Bool.false_eq_true, not_false_eq_true, List.filter_cons_of_neg,
          List.cons_append, ih hcons.2]
      · have hnone : ∀ m ∈ k :: l, isArrayIndex m = false := by
          intro m hm
          rcases List.mem_cons.mp hm with rfl | hm
          · simpa using hk
          · by_contra hindex
            exact hk (hcons.1 m hm (by simpa using hindex)).1
        have hempty : (k :: l).filter isArrayIndex = [] :=
          List.filter_eq_nil_iff.mpr fun m hm => by simp [hnone m hm]
        rw [hempty, List.nil_append]
        exact List.filter_eq_self.mpr fun m hm => by simp [hnone m hm]

variable {α : Type} {object : JsObject α} {key : JsString}

theorem objectKeys_eq (h : ListedAsInserted (keys object)) :
    objectKeys object = keys object :=
  listed_eq h

theorem length_objectKeys (object : JsObject α) :
    (objectKeys object).length = object.rows.length := by
  have hcount := (keys object).length_eq_length_filter_add isArrayIndex
  have hkeys : (keys object).length = object.rows.length := List.length_map _
  rw [objectKeys, listed, List.length_append, List.length_insertionSort]
  omega

theorem mem_keys_iff : key ∈ keys object ↔ hasOwn object key := by
  rw [hasOwn, Option.isSome_iff_ne_none, ne_eq, Keyed.get?_eq_none_iff]
  simp [keys]

theorem perm_objectKeys (object : JsObject α) :
    (objectKeys object).Perm (keys object) :=
  ((List.perm_insertionSort _ _).append_right _).trans
    (List.filter_append_perm isArrayIndex _)

theorem nodup_keys (object : JsObject α) : (keys object).Nodup :=
  object.nodup

theorem keys_keep (object : JsObject α) (p : JsString → Bool) :
    keys (object.keep fun key _ => p key) = (keys object).filter p := by
  simp [keys, Keyed.keep, List.filter_map, Function.comp_def]

theorem keep_congr_keys {p q : JsString → Bool}
    (h : ∀ key ∈ keys object, p key = q key) :
    (object.keep fun key _ => p key) = object.keep fun key _ => q key :=
  Keyed.keep_congr fun entry hentry =>
    h entry.1 (List.mem_map.mpr ⟨entry, hentry, rfl⟩)

theorem keep_keys (object : JsObject α) {l : List JsString}
    (h : ∀ key ∈ keys object, key ∈ l) :
    (object.keep fun key _ => decide (key ∈ l)) = object :=
  Keyed.keep_eq_self fun entry hentry => by
    simpa using h entry.1 (List.mem_map.mpr ⟨entry, hentry, rfl⟩)

theorem filter_mem_of_suffix {l m : List JsString} (hl : l.Nodup)
    (hm : m <:+ l) : l.filter (fun key => decide (key ∈ m)) = m := by
  obtain ⟨dropped, rfl⟩ := hm
  have hdisjoint := (List.nodup_append.mp hl).2.2
  have hnone : dropped.filter (fun key => decide (key ∈ m)) = [] :=
    List.filter_eq_nil_iff.mpr fun k hk => by
      simpa using fun hkm => hdisjoint k hk k hkm rfl
  have hall : m.filter (fun key => decide (key ∈ m)) = m :=
    List.filter_eq_self.mpr fun k hk => by simpa using hk
  rw [List.filter_append, hnone, hall, List.nil_append]

/-- Leaving out the first items of a list leaves so many fewer. -/
theorem length_filter_not_mem_take {l m : List JsString} (hperm : m.Perm l)
    (hl : l.Nodup) (n : ℕ) :
    (l.filter fun key => decide (key ∉ m.take n)).length = l.length - n := by
  have hm : m.Nodup := hperm.nodup_iff.mpr hl
  have hsplit := List.take_append_drop n m
  have hdisjoint := List.nodup_append.mp (hsplit.symm ▸ hm)
  have hnone : (m.take n).filter (fun key => decide (key ∉ m.take n)) = [] :=
    List.filter_eq_nil_iff.mpr fun k hk => by simpa using hk
  have hall : (m.drop n).filter (fun key => decide (key ∉ m.take n)) =
      m.drop n :=
    List.filter_eq_self.mpr fun k hk => by
      simpa using fun hkm => hdisjoint.2.2 k hkm k hk rfl
  calc (l.filter fun key => decide (key ∉ m.take n)).length
      = (m.filter fun key => decide (key ∉ m.take n)).length :=
        (hperm.filter _).length_eq.symm
    _ = (m.drop n).length := by
        conv_lhs => rw [← hsplit, List.filter_append, hsplit, hnone, hall]
        rfl
    _ = l.length - n := by rw [List.length_drop, hperm.length_eq]

theorem keys_erase (object : JsObject α) (key : JsString) :
    keys (object.erase key) = (keys object).filter (· ≠ key) :=
  keys_keep object fun k => decide (k ≠ key)

theorem keys_assign_erase (object : JsObject α) {key : JsString}
    (hkey : key ≠ protoKey) (value : α) :
    keys (assign (object.erase key) key value) =
      (keys object).filter (· ≠ key) ++ [key] := by
  rw [assign, if_neg hkey, keys,
    Keyed.rows_put_of_none value (object.get?_erase_self key),
    List.map_append, ← keys_erase]
  rfl

/-! ## Bytes -/

theorem membersBytes_le_of_sublist {l m : List ℕ} (h : l.Sublist m) :
    membersBytes l ≤ membersBytes m := by
  have hsum : l.sum ≤ m.sum := h.sum_le_sum fun _ _ => Nat.zero_le _
  have hlength := h.length_le
  simp only [membersBytes]
  omega

theorem objectBytes_le_of_sublist {valueBytes : α → ℕ} {small : JsObject α}
    (h : small.rows.Sublist object.rows) :
    objectBytes valueBytes small ≤ objectBytes valueBytes object :=
  membersBytes_le_of_sublist (h.map _)

/-- A part of a state: the same pending draft, and part of the rest. -/
structure Part (small state : DraftState) : Prop where
  pending : small.pendingNewThread = state.pendingNewThread
  followups : small.threadFollowups.rows.Sublist state.threadFollowups.rows
  restorations : small.threadFollowupRestorations.rows.Sublist
    state.threadFollowupRestorations.rows
  sent : small.sentThreadFollowups.rows.Sublist state.sentThreadFollowups.rows

theorem Part.refl (state : DraftState) : Part state state :=
  ⟨rfl, .refl _, .refl _, .refl _⟩

theorem Part.trans {a b c : DraftState} (hab : Part a b) (hbc : Part b c) :
    Part a c where
  pending := hab.pending.trans hbc.pending
  followups := hab.followups.trans hbc.followups
  restorations := hab.restorations.trans hbc.restorations
  sent := hab.sent.trans hbc.sent

theorem Part.jsonBytes_le {small state : DraftState} (h : Part small state) :
    small.jsonBytes ≤ state.jsonBytes := by
  have hfollowups : objectBytes stringBytes small.threadFollowups ≤
      objectBytes stringBytes state.threadFollowups :=
    objectBytes_le_of_sublist h.followups
  have hrestorations : objectBytes stringBytes small.threadFollowupRestorations ≤
      objectBytes stringBytes state.threadFollowupRestorations :=
    objectBytes_le_of_sublist h.restorations
  have hsent : objectBytes recordBytes small.sentThreadFollowups ≤
      objectBytes recordBytes state.sentThreadFollowups :=
    objectBytes_le_of_sublist h.sent
  simp only [DraftState.jsonBytes, membersBytes, memberBytes, h.pending,
    List.sum_cons, List.sum_nil, List.length_cons, List.length_nil]
  omega

/-! ## States and their limits -/

structure DraftState.WithinLimits (state : DraftState) : Prop where
  followups : (keys state.threadFollowups).length ≤ maxThreadFollowupDrafts
  sent : (keys state.sentThreadFollowups).length ≤ maxThreadFollowupDrafts
  bytes : state.jsonBytes ≤ maxComposerDraftBytes

theorem Part.withinLimits {small state : DraftState} (h : Part small state)
    (hstate : state.WithinLimits) : small.WithinLimits where
  followups := (h.followups.map Prod.fst).length_le.trans hstate.followups
  sent := (h.sent.map Prod.fst).length_le.trans hstate.sent
  bytes := h.jsonBytes_le.trans hstate.bytes

/-- Every restoration stands beside its draft. -/
def DraftState.Beside (state : DraftState) : Prop :=
  ∀ key ∈ keys state.threadFollowupRestorations,
    key ∈ keys state.threadFollowups

/-- No restoration goes by the name of an inherited property. -/
def DraftState.OwnNames (state : DraftState) : Prop :=
  ∀ key ∈ keys state.threadFollowupRestorations, key ∉ inheritedNames

/-- The state with the drafts of some scopes only. -/
def DraftState.keepDrafts (state : DraftState) (kept : List JsString) :
    DraftState :=
  { state with
    threadFollowups :=
      state.threadFollowups.keep fun key _ => decide (key ∈ kept)
    threadFollowupRestorations :=
      state.threadFollowupRestorations.keep fun key _ => decide (key ∈ kept) }

/-- The state with its records within their cap. -/
def DraftState.boundSent (state : DraftState) : DraftState :=
  { state with
    sentThreadFollowups := boundedSentRecords state.sentThreadFollowups
      (dropStaleFollowups state.threadFollowups) }

variable {state : DraftState} {kept : List JsString}

theorem part_keepDrafts (state : DraftState) (kept : List JsString) :
    Part (state.keepDrafts kept) state where
  pending := rfl
  followups := Keyed.rows_keep_sublist _ _
  restorations := Keyed.rows_keep_sublist _ _
  sent := .refl _

theorem boundedSentRecords_sublist (records : JsObject SentRecord)
    (followups : JsObject JsString) :
    (boundedSentRecords records followups).rows.Sublist records.rows := by
  simp only [boundedSentRecords]
  split
  · exact .refl _
  · exact Keyed.rows_keep_sublist _ _

theorem length_boundedSentRecords_le (records : JsObject SentRecord)
    (followups : JsObject JsString) :
    (keys (boundedSentRecords records followups)).length ≤
      maxThreadFollowupDrafts := by
  have hlength : (objectKeys records).length = (keys records).length :=
    (perm_objectKeys records).length_eq
  simp only [boundedSentRecords]
  split
  · rename_i hcount
    rwa [← hlength]
  · have hperm : (((objectKeys records).filter fun key =>
        !protects records followups key) ++
        (objectKeys records).filter (protects records followups)).Perm
        (keys records) :=
      List.perm_append_comm.trans
        ((List.filter_append_perm _ _).trans (perm_objectKeys records))
    rw [keys_keep, length_filter_not_mem_take hperm (nodup_keys _), hlength]
    omega

theorem part_boundSent (state : DraftState) : Part state.boundSent state where
  pending := rfl
  followups := .refl _
  restorations := .refl _
  sent := boundedSentRecords_sublist _ _

theorem keys_keepDrafts (hkept : kept <:+ keys state.threadFollowups) :
    keys (state.keepDrafts kept).threadFollowups = kept := by
  simp only [DraftState.keepDrafts]
  rw [keys_keep]
  exact filter_mem_of_suffix (nodup_keys _) hkept

theorem DraftState.Beside.keepDrafts (h : state.Beside) (kept : List JsString) :
    (state.keepDrafts kept).Beside := by
  intro key hkey
  simp only [DraftState.keepDrafts, keys_keep, List.mem_filter] at hkey ⊢
  exact ⟨h key hkey.1, hkey.2⟩

theorem keepDrafts_self (h : state.Beside) :
    state.keepDrafts (keys state.threadFollowups) = state := by
  simp only [DraftState.keepDrafts]
  rw [keep_keys _ fun _ hkey => hkey, keep_keys _ h]

theorem keepDrafts_keepDrafts {l m : List JsString} (hlm : l ⊆ m) :
    (state.keepDrafts m).keepDrafts l = state.keepDrafts l := by
  have hboth : ∀ key, (decide (key ∈ m) && decide (key ∈ l)) =
      decide (key ∈ l) := by
    intro key
    by_cases hkey : key ∈ l
    · simp [hkey, hlm hkey]
    · simp [hkey]
  simp only [DraftState.keepDrafts, Keyed.keep_keep, hboth]

theorem DraftState.Beside.boundSent (h : state.Beside) :
    state.boundSent.Beside :=
  h

theorem DraftState.OwnNames.boundSent (h : state.OwnNames) :
    state.boundSent.OwnNames :=
  h

/-! ## Shrinking -/

theorem dropOrphanRestorations_eq (h : state.Beside) :
    state.dropOrphanRestorations = state := by
  have hkeep : (state.threadFollowupRestorations.keep fun key _ =>
      isIn key state.threadFollowups) = state.threadFollowupRestorations := by
    refine Keyed.keep_eq_self fun entry hentry => ?_
    have hkey := h entry.1 (List.mem_map.mpr ⟨entry, hentry, rfl⟩)
    rw [isIn, mem_keys_iff.mp hkey, Bool.true_or]
  simp only [DraftState.dropOrphanRestorations, hkeep]

/-- Dropping drafts takes exactly their restorations along. -/
theorem keepFollowups_dropOrphanRestorations (hbeside : state.Beside)
    (hnames : state.OwnNames) (kept : List JsString) :
    ({ state with
      threadFollowups := state.threadFollowups.keep fun key _ =>
        decide (key ∈ kept) } : DraftState).dropOrphanRestorations =
      state.keepDrafts kept := by
  have hkeep : (state.threadFollowupRestorations.keep fun key _ =>
      isIn key (state.threadFollowups.keep fun key _ => decide (key ∈ kept))) =
      state.threadFollowupRestorations.keep fun key _ =>
        decide (key ∈ kept) := by
    apply keep_congr_keys
    intro key hkey
    have hown := mem_keys_iff.mp (hbeside key hkey)
    have hinherited := hnames key hkey
    obtain ⟨text, htext⟩ := Option.isSome_iff_exists.mp hown
    rw [isIn, hasOwn, Keyed.get?_keep, htext, Option.filter_some]
    by_cases hmem : key ∈ kept
    · simp [hmem]
    · simp [hmem, hinherited]
  simp only [DraftState.dropOrphanRestorations, DraftState.keepDrafts, hkeep]

theorem dropFollowup_eq (hbeside : state.Beside) (hnames : state.OwnNames)
    {staleKey : JsString} {rest : List JsString}
    (hkeys : keys state.threadFollowups = staleKey :: rest) :
    state.dropFollowup staleKey = state.keepDrafts rest := by
  have hnodup : (staleKey :: rest).Nodup := by
    rw [← hkeys]
    exact nodup_keys _
  have herase : state.threadFollowups.erase staleKey =
      state.threadFollowups.keep fun key _ => decide (key ∈ rest) := by
    apply keep_congr_keys
    intro key hkey
    rw [hkeys] at hkey
    rcases List.mem_cons.mp hkey with rfl | hrest
    · simp [(List.nodup_cons.mp hnodup).1]
    · have hne : key ≠ staleKey := fun heq =>
        (List.nodup_cons.mp hnodup).1 (heq ▸ hrest)
      simp [hrest, hne]
  rw [DraftState.dropFollowup, herase]
  exact keepFollowups_dropOrphanRestorations hbeside hnames rest

/-- The serialized state fits with the drafts of some scopes. -/
def DraftState.fitsWith (state : DraftState) (kept : List JsString) : Bool :=
  decide ((state.keepDrafts kept).jsonBytes ≤ maxComposerDraftBytes)

theorem fitsWith_keepDrafts {l m : List JsString} (hlm : l ⊆ m) :
    (state.keepDrafts m).fitsWith l = state.fitsWith l := by
  rw [DraftState.fitsWith, DraftState.fitsWith, keepDrafts_keepDrafts hlm]

theorem fitsWith_keys (hbeside : state.Beside) :
    state.fitsWith (keys state.threadFollowups) =
      decide (state.jsonBytes ≤ maxComposerDraftBytes) := by
  rw [DraftState.fitsWith, keepDrafts_self hbeside]

theorem shrink_of_fits (h : state.jsonBytes ≤ maxComposerDraftBytes) :
    state.shrink = some state := by
  rw [DraftState.shrink, if_pos h]

theorem shrink_of_nil (h : ¬ state.jsonBytes ≤ maxComposerDraftBytes)
    (hkeys : objectKeys state.threadFollowups = []) :
    state.shrink = none := by
  rw [DraftState.shrink, if_neg h]
  split
  · rfl
  · simp_all

theorem shrink_of_cons (h : ¬ state.jsonBytes ≤ maxComposerDraftBytes)
    {staleKey : JsString} {rest : List JsString}
    (hkeys : objectKeys state.threadFollowups = staleKey :: rest)
    (hnamed : staleKey ≠ []) :
    state.shrink = (state.dropFollowup staleKey).shrink := by
  rw [DraftState.shrink, if_neg h]
  split
  · simp_all
  · rename_i first tail hfirst
    obtain ⟨rfl, rfl⟩ := List.cons.inj (hfirst.symm.trans hkeys)
    rw [if_neg hnamed]

theorem DraftState.OwnNames.keepDrafts (h : state.OwnNames)
    (kept : List JsString) : (state.keepDrafts kept).OwnNames := by
  intro key hkey
  simp only [DraftState.keepDrafts, keys_keep, List.mem_filter] at hkey
  exact h key hkey.1

/-- Where drafts are listed as they were inserted, shrinking keeps the newest
that fit, if the state fits at all. -/
theorem shrink_eq {all : List JsString}
    (hall : keys state.threadFollowups = all) (hbeside : state.Beside)
    (hnames : state.OwnNames) (hlisted : ListedAsInserted all)
    (hnamed : [] ∉ all) :
    state.shrink =
      if state.fitsWith (keepNewest state.fitsWith all) then
        some (state.keepDrafts (keepNewest state.fitsWith all))
      else none := by
  induction all generalizing state with
  | nil =>
      have hwhole := fitsWith_keys hbeside
      have hself := keepDrafts_self hbeside
      have hobject : objectKeys state.threadFollowups = [] := by
        rw [objectKeys, hall, listed_eq hlisted]
      rw [hall] at hwhole hself
      by_cases hfits : state.jsonBytes ≤ maxComposerDraftBytes
      · simp [shrink_of_fits hfits, keepNewest, hwhole, hfits, hself]
      · simp [shrink_of_nil hfits hobject, keepNewest, hwhole, hfits]
  | cons staleKey rest ih =>
      have hwhole := fitsWith_keys hbeside
      have hself := keepDrafts_self hbeside
      rw [hall] at hwhole hself
      by_cases hfits : state.jsonBytes ≤ maxComposerDraftBytes
      · simp [shrink_of_fits hfits, keepNewest, hwhole, hfits, hself]
      · have hobject : objectKeys state.threadFollowups = staleKey :: rest := by
          rw [objectKeys, hall, listed_eq hlisted]
        have hne : staleKey ≠ [] := fun heq => hnamed (by simp [heq])
        have hsuffix : rest <:+ keys state.threadFollowups := by
          rw [hall]
          exact List.suffix_cons staleKey rest
        have hrest := ih (keys_keepDrafts hsuffix) (hbeside.keepDrafts rest)
          (hnames.keepDrafts rest) hlisted.tail
          (fun hmem => hnamed (List.mem_cons_of_mem _ hmem))
        have hsame : keepNewest (state.keepDrafts rest).fitsWith rest =
            keepNewest state.fitsWith rest :=
          keepNewest_congr fun m hm => fitsWith_keepDrafts hm.subset
        have hkept : keepNewest state.fitsWith rest ⊆ rest :=
          (keepNewest_suffix rest).subset
        have hskip : keepNewest state.fitsWith (staleKey :: rest) =
            keepNewest state.fitsWith rest := by
          rw [keepNewest, if_neg (by simpa [hwhole] using hfits)]
        rw [shrink_of_cons hfits hobject hne,
          dropFollowup_eq hbeside hnames hall, hrest, hsame, hskip,
          fitsWith_keepDrafts hkept, keepDrafts_keepDrafts hkept]

/-! ## Bounding -/

/-- The drafts of a state, or its bytes, exceed their limit once the records
are within theirs. -/
def DraftState.Crowded (state : DraftState) : Prop :=
  maxThreadFollowupDrafts < (keys state.threadFollowups).length ∨
    maxComposerDraftBytes < state.boundSent.jsonBytes

theorem not_withinLimits_of_crowded (h : state.Crowded) :
    ¬ state.WithinLimits := by
  intro hwithin
  rcases h with hcount | hbytes
  · exact absurd hwithin.followups (by omega)
  · have hle := (part_boundSent state).jsonBytes_le.trans hwithin.bytes
    omega

/-- What a bounded state keeps of its drafts: the newest, and no fewer than
fit. -/
structure Keeps (state : DraftState) (kept : List JsString) : Prop where
  suffix : kept <:+ keys state.threadFollowups
  count : kept.length ≤ maxThreadFollowupDrafts
  bytes : (state.boundSent.keepDrafts kept).jsonBytes ≤ maxComposerDraftBytes
  noMore : ∀ more, more <:+ keys state.threadFollowups →
    kept.length < more.length →
    ¬ (state.boundSent.keepDrafts more).WithinLimits

theorem dropStaleFollowups_eq (followups : JsObject JsString)
    (hlisted : ListedAsInserted (keys followups)) :
    dropStaleFollowups followups = followups.keep fun key _ => decide
      (key ∈ (keys followups).drop
        ((keys followups).length - maxThreadFollowupDrafts)) := by
  rw [dropStaleFollowups, objectKeys_eq hlisted]
  apply keep_congr_keys
  intro key hkey
  have hnodup := nodup_keys followups
  have hsplit := List.take_append_drop
    ((keys followups).length - maxThreadFollowupDrafts) (keys followups)
  rw [← hsplit] at hkey hnodup
  have hdisjoint := (List.nodup_append.mp hnodup).2.2
  apply decide_eq_decide.mpr
  constructor
  · intro hfresh
    exact (List.mem_append.mp hkey).resolve_left hfresh
  · intro hlate hearly
    exact hdisjoint key hearly key hlate rfl

theorem dropStaleFollowups_of_le {followups : JsObject JsString}
    (h : (keys followups).length ≤ maxThreadFollowupDrafts) :
    dropStaleFollowups followups = followups := by
  have hlength : (objectKeys followups).length ≤ maxThreadFollowupDrafts := by
    rwa [length_objectKeys, ← List.length_map Prod.fst]
  have hzero : (objectKeys followups).length - maxThreadFollowupDrafts = 0 := by
    omega
  simp only [dropStaleFollowups, hzero, List.take_zero]
  exact Keyed.keep_eq_self fun _ _ => by simp

theorem boundedState_of_not_crowded (hbeside : state.Beside)
    (h : ¬ state.Crowded) : state.boundedState = some state.boundSent := by
  simp only [DraftState.Crowded, not_or, not_lt] at h
  have hstale := dropStaleFollowups_of_le h.1
  have hcount : state.countBounded = state.boundSent := by
    rw [DraftState.countBounded]
    simp only [hstale]
    rw [← dropOrphanRestorations_eq hbeside.boundSent, DraftState.boundSent,
      hstale]
  rw [DraftState.boundedState, hcount, shrink_of_fits h.2]

/-- The scopes whose drafts the count allows. -/
def DraftState.freshKeys (state : DraftState) : List JsString :=
  (keys state.threadFollowups).drop
    ((keys state.threadFollowups).length - maxThreadFollowupDrafts)

theorem freshKeys_suffix (state : DraftState) :
    state.freshKeys <:+ keys state.threadFollowups :=
  List.drop_suffix _ _

theorem length_freshKeys_le (state : DraftState) :
    state.freshKeys.length ≤ maxThreadFollowupDrafts := by
  rw [DraftState.freshKeys, List.length_drop]
  omega

theorem suffix_freshKeys {more : List JsString}
    (hmore : more <:+ keys state.threadFollowups)
    (hcount : more.length ≤ maxThreadFollowupDrafts) :
    more <:+ state.freshKeys := by
  apply List.suffix_of_suffix_length_le hmore (freshKeys_suffix state)
  have hle := hmore.length_le
  rw [DraftState.freshKeys, List.length_drop]
  omega

theorem countBounded_eq (hbeside : state.Beside) (hnames : state.OwnNames)
    (hlisted : ListedAsInserted (keys state.threadFollowups)) :
    state.countBounded = state.boundSent.keepDrafts state.freshKeys := by
  have hkept := keepFollowups_dropOrphanRestorations hbeside.boundSent
    hnames.boundSent state.freshKeys
  rw [← hkept, DraftState.countBounded, DraftState.boundSent]
  simp only [dropStaleFollowups_eq _ hlisted, DraftState.freshKeys]
  rfl

/-- A bounded state keeps the newest drafts that fit.  There is none when the
state does not even fit without drafts. -/
theorem boundedState_cases (hbeside : state.Beside)
    (hnamed : [] ∉ keys state.threadFollowups)
    (hnames : state.Crowded → state.OwnNames)
    (hlisted : state.Crowded →
      ListedAsInserted (keys state.threadFollowups)) :
    (∃ kept, Keeps state kept ∧
      state.boundedState = some (state.boundSent.keepDrafts kept)) ∨
    state.boundedState = none ∧
      maxComposerDraftBytes < (state.boundSent.keepDrafts []).jsonBytes := by
  by_cases hcrowded : state.Crowded
  · have hfresh := freshKeys_suffix state
    have hkeys : keys (state.boundSent.keepDrafts state.freshKeys).threadFollowups =
        state.freshKeys := keys_keepDrafts hfresh
    have hshrink := shrink_eq hkeys (hbeside.boundSent.keepDrafts _)
      ((hnames hcrowded).boundSent.keepDrafts _)
      (List.Pairwise.sublist hfresh.sublist (hlisted hcrowded))
      (fun hmem => hnamed (hfresh.subset hmem))
    have hsame : keepNewest
        (state.boundSent.keepDrafts state.freshKeys).fitsWith state.freshKeys =
        keepNewest state.boundSent.fitsWith state.freshKeys :=
      keepNewest_congr fun m hm => fitsWith_keepDrafts hm.subset
    have hkept : keepNewest state.boundSent.fitsWith state.freshKeys <:+
        state.freshKeys := keepNewest_suffix _
    rw [hsame, fitsWith_keepDrafts hkept.subset,
      keepDrafts_keepDrafts hkept.subset,
      ← countBounded_eq hbeside (hnames hcrowded) (hlisted hcrowded)] at hshrink
    by_cases hfits : state.boundSent.fitsWith
        (keepNewest state.boundSent.fitsWith state.freshKeys)
    · left
      refine ⟨_, ⟨hkept.trans hfresh, ?_, ?_, ?_⟩,
        hshrink.trans (if_pos hfits)⟩
      · exact hkept.length_le.trans (length_freshKeys_le state)
      · simpa [DraftState.fitsWith] using hfits
      · intro more hmore hlonger hwithin
        have hkeys : keys (state.boundSent.keepDrafts more).threadFollowups =
            more := keys_keepDrafts hmore
        have hcount := hwithin.followups
        rw [hkeys] at hcount
        apply not_fits_of_longer (suffix_freshKeys hmore hcount) hlonger
        simpa [DraftState.fitsWith] using hwithin.bytes
    · right
      refine ⟨hshrink.trans (if_neg hfits), ?_⟩
      have hempty : keepNewest state.boundSent.fitsWith state.freshKeys = [] := by
        by_contra hne
        exact hfits (fits_keepNewest hne)
      rw [hempty] at hfits
      simpa [DraftState.fitsWith] using hfits
  · left
    have hself : state.boundSent.keepDrafts (keys state.threadFollowups) =
        state.boundSent :=
      keepDrafts_self hbeside.boundSent
    have hbounded := boundedState_of_not_crowded hbeside hcrowded
    simp only [DraftState.Crowded, not_or, not_lt] at hcrowded
    refine ⟨_, ⟨List.suffix_refl _, hcrowded.1, ?_, ?_⟩, ?_⟩
    · rw [hself]
      exact hcrowded.2
    · intro more hmore hlonger
      exact absurd hmore.length_le (by omega)
    · rw [hself]
      exact hbounded

end ComposerDrafts

end RelayerGraph
