import RelayerGraph.Desktop.DraftBounds

/-!
# What the composer draft store evicts

The store keeps its limits in every run.  Where an object lists its keys as
they were written, and a follow-up that no eviction can make room for stands
alone, an operation takes another scope's draft away only when the new state
would exceed a limit, the least recently written first, and records and
restorations go only as their drafts allow.
-/

namespace RelayerGraph

open Foundation OldestFirst

namespace ComposerDrafts

/-! ## One operation -/

/-- The scope whose draft an operation is about. -/
def Operation.scope : Operation → Option JsString
  | .persistThreadFollowupDraft scopeKey _ _ _ => some scopeKey
  | .clearThreadFollowupDraft scopeKey => some scopeKey
  | _ => none

/-- The value that an operation writes is in the state. -/
def Operation.Stored (state : DraftState) : Operation → Prop
  | .persistPendingNewThreadDraft text scope =>
      state.pendingNewThread = if text = [] then none else some ⟨text, scope⟩
  | .clearPendingNewThreadDraft => state.pendingNewThread = none
  | .persistThreadFollowupDraft scopeKey text preserveEmpty restorationId =>
      if text ≠ [] ∨ preserveEmpty then
        state.threadFollowups.get? scopeKey = some text ∧
          state.threadFollowupRestorations.get? scopeKey = restorationId
      else state.threadFollowups.get? scopeKey = none
  | .clearThreadFollowupDraft scopeKey =>
      state.threadFollowups.get? scopeKey = none
  | .persistSentThreadFollowup threadId record =>
      ∀ id, threadId = some id →
        state.sentThreadFollowups.get? id = record.map SentInput.toRecord

/-- What is written does not fit even when every other draft is gone. -/
def Operation.TooLarge (state : DraftState) (operation : Operation) : Prop :=
  maxComposerDraftBytes < ((operation.propose state).boundSent.keepDrafts
    operation.scope.toList).jsonBytes

/-- An operation takes the draft of another scope away. -/
def Removes (state : DraftState) (operation : Operation) (key : JsString) :
    Prop :=
  operation.scope ≠ some key ∧ key ∈ keys state.threadFollowups ∧
    key ∉ keys (operation.run state).threadFollowups

theorem length_dropStaleFollowups_le (followups : JsObject JsString) :
    (keys (dropStaleFollowups followups)).length ≤ maxThreadFollowupDrafts := by
  have hlength := (perm_objectKeys followups).length_eq
  simp only [dropStaleFollowups]
  rw [keys_keep, length_filter_not_mem_take (perm_objectKeys followups)
    (nodup_keys _), hlength]
  omega

theorem boundedState_dropStaleFollowups (state : DraftState) :
    ({ state with threadFollowups :=
        dropStaleFollowups state.threadFollowups } : DraftState).boundedState =
      state.boundedState := by
  have hagain :=
    dropStaleFollowups_of_le (length_dropStaleFollowups_le state.threadFollowups)
  simp only [DraftState.boundedState, DraftState.countBounded, hagain]

variable {state : DraftState} {operation : Operation} {kept : List JsString}

theorem DraftState.WithinLimits.not_crowded (h : state.WithinLimits) :
    ¬ state.Crowded :=
  fun hcrowded => not_withinLimits_of_crowded hcrowded h

theorem boundSent_of_le
    (h : (keys state.sentThreadFollowups).length ≤ maxThreadFollowupDrafts) :
    state.boundSent = state := by
  have hlength := (perm_objectKeys state.sentThreadFollowups).length_eq
  rw [DraftState.boundSent, boundedSentRecords, if_pos (by omega)]

theorem boundedState_of_withinLimits (hbeside : state.Beside)
    (h : state.WithinLimits) : state.boundedState = some state := by
  rw [boundedState_of_not_crowded hbeside h.not_crowded, boundSent_of_le h.sent]

/-- Every operation writes the state it proposes. -/
theorem run_eq (hbeside : state.Beside) (h : state.WithinLimits)
    (operation : Operation) :
    operation.run state = state.writeState (operation.propose state) := by
  have hsame : state.writeState state = state := by
    rw [DraftState.writeState, boundedState_of_withinLimits hbeside h]
    rfl
  cases operation with
  | persistPendingNewThreadDraft text scope => rfl
  | clearPendingNewThreadDraft => rfl
  | persistThreadFollowupDraft scopeKey text preserveEmpty restorationId =>
      simp only [Operation.run, persistThreadFollowupDraft, Operation.propose]
      split
      · exact hsame.symm
      · split
        · rw [DraftState.writeState, boundedState_dropStaleFollowups]
          rfl
        · rfl
  | clearThreadFollowupDraft scopeKey =>
      simp only [Operation.run, clearThreadFollowupDraft, Operation.propose]
      split
      · exact hsame.symm
      · rfl
  | persistSentThreadFollowup threadId record =>
      cases threadId with
      | none => exact hsame.symm
      | some threadId => rfl

/-- The drafts of other scopes are proposed as they are. -/
theorem get?_propose_of_ne {key : JsString} (h : operation.scope ≠ some key) :
    (operation.propose state).threadFollowups.get? key =
      state.threadFollowups.get? key := by
  cases operation with
  | persistPendingNewThreadDraft text scope => rfl
  | clearPendingNewThreadDraft => rfl
  | persistThreadFollowupDraft scopeKey text preserveEmpty restorationId =>
      have hne : key ≠ scopeKey := fun heq => h (by rw [heq]; rfl)
      have herase := state.threadFollowups.get?_erase_of_ne hne
      simp only [Operation.propose]
      split
      · rfl
      · split
        · simp only [DraftState.withFollowup, DraftState.withoutFollowup, assign]
          split
          · exact herase
          · rw [Keyed.get?_put_of_ne _ _ hne, herase]
        · exact herase
  | clearThreadFollowupDraft scopeKey =>
      have hne : key ≠ scopeKey := fun heq => h (by rw [heq]; rfl)
      simp only [Operation.propose]
      split
      · rfl
      · exact state.threadFollowups.get?_erase_of_ne hne
  | persistSentThreadFollowup threadId record => cases threadId <;> rfl

theorem mem_keys_propose_iff {key : JsString}
    (h : operation.scope ≠ some key) :
    key ∈ keys (operation.propose state).threadFollowups ↔
      key ∈ keys state.threadFollowups := by
  rw [mem_keys_iff, mem_keys_iff, hasOwn, hasOwn, get?_propose_of_ne h]

/-! ## Sessions -/

/-- What every session keeps, whatever the operations. -/
structure Session.Kept (session : Session) : Prop where
  within : session.state.WithinLimits
  beside : session.state.Beside
  named : [] ∉ keys session.state.threadFollowups
  drafts : (keys session.state.threadFollowups).Sublist session.draftWrites
  sent : (keys session.state.sentThreadFollowups).Sublist session.sentWrites
  distinct : session.draftWrites.Nodup ∧ session.sentWrites.Nodup

theorem nodup_noteWrite {writes : List JsString} (h : writes.Nodup)
    (key : JsString) : (noteWrite writes key).Nodup := by
  rw [noteWrite, List.nodup_append]
  refine ⟨h.filter _, List.nodup_singleton key, ?_⟩
  intro other hother last hlast
  have hne : other ≠ key := by simpa using (List.mem_filter.mp hother).2
  rwa [List.mem_singleton.mp hlast]

theorem Session.Kept.distinct_note {session : Session} (h : session.Kept)
    (operation : Operation) :
    (operation.noteDraft session.draftWrites).Nodup ∧
      (operation.noteSent session.sentWrites).Nodup := by
  cases operation with
  | persistThreadFollowupDraft scopeKey text preserveEmpty restorationId =>
      exact ⟨nodup_noteWrite h.distinct.1 scopeKey, h.distinct.2⟩
  | persistSentThreadFollowup threadId record =>
      cases threadId with
      | none => exact h.distinct
      | some threadId =>
          exact ⟨h.distinct.1, nodup_noteWrite h.distinct.2 threadId⟩
  | _ => exact h.distinct

theorem filter_sublist_noteWrite {l writes : List JsString}
    (h : l.Sublist writes) (key : JsString) :
    (l.filter (· ≠ key)).Sublist (noteWrite writes key) :=
  (h.filter _).trans (List.sublist_append_left _ _)

theorem keys_assign_erase_sublist {α : Type} {object : JsObject α}
    {writes : List JsString} (h : (keys object).Sublist writes)
    (key : JsString) (value : α) :
    (keys (assign (object.erase key) key value)).Sublist
      (noteWrite writes key) := by
  by_cases hkey : key = protoKey
  · rw [assign, if_pos hkey, keys_erase]
    exact filter_sublist_noteWrite h key
  · rw [keys_assign_erase object hkey]
    exact (h.filter _).append_right [key]

theorem keys_propose_sublist {writes : List JsString}
    (h : (keys state.threadFollowups).Sublist writes)
    (hnamed : [] ∉ keys state.threadFollowups) (operation : Operation) :
    (keys (operation.propose state).threadFollowups).Sublist
      (operation.noteDraft writes) := by
  cases operation with
  | persistPendingNewThreadDraft text scope => exact h
  | clearPendingNewThreadDraft => exact h
  | persistThreadFollowupDraft scopeKey text preserveEmpty restorationId =>
      simp only [Operation.propose, Operation.noteDraft]
      split
      · rename_i hempty
        have hall : (keys state.threadFollowups).filter (· ≠ scopeKey) =
            keys state.threadFollowups :=
          List.filter_eq_self.mpr fun key hkey => by
            simpa using fun heq : key = scopeKey =>
              hnamed (hempty ▸ heq ▸ hkey)
        have hsub := filter_sublist_noteWrite h scopeKey
        rwa [hall] at hsub
      · split
        · exact keys_assign_erase_sublist h scopeKey text
        · simp only [DraftState.withoutFollowup, keys_erase]
          exact filter_sublist_noteWrite h scopeKey
  | clearThreadFollowupDraft scopeKey =>
      simp only [Operation.propose, Operation.noteDraft]
      split
      · exact h
      · simp only [DraftState.withoutFollowup, keys_erase]
        exact List.filter_sublist.trans h
  | persistSentThreadFollowup threadId record => cases threadId <;> exact h

theorem keys_sent_propose_sublist {writes : List JsString}
    (h : (keys state.sentThreadFollowups).Sublist writes)
    (operation : Operation) :
    (keys (operation.propose state).sentThreadFollowups).Sublist
      (operation.noteSent writes) := by
  cases operation with
  | persistPendingNewThreadDraft text scope => exact h
  | clearPendingNewThreadDraft => exact h
  | persistThreadFollowupDraft scopeKey text preserveEmpty restorationId =>
      simp only [Operation.propose, Operation.noteSent]
      split
      · exact h
      · split <;> exact h
  | clearThreadFollowupDraft scopeKey =>
      simp only [Operation.propose, Operation.noteSent]
      split <;> exact h
  | persistSentThreadFollowup threadId record =>
      cases threadId with
      | none => exact h
      | some threadId =>
          simp only [Operation.propose, Operation.noteSent, DraftState.withSent]
          cases record with
          | none =>
              simp only [keys_erase]
              exact filter_sublist_noteWrite h threadId
          | some record => exact keys_assign_erase_sublist h threadId _

theorem mem_keys_assign {α : Type} {object : JsObject α} {key other : JsString}
    {value : α} :
    other ∈ keys (assign object key value) ↔
      other ∈ keys object ∨ other = key ∧ key ≠ protoKey := by
  rw [mem_keys_iff, mem_keys_iff, assign]
  by_cases hproto : key = protoKey
  · simp [hproto]
  · rw [if_neg hproto, hasOwn, hasOwn, Keyed.get?_put]
    by_cases heq : other = key
    · simp [heq, hproto]
    · simp [heq]

theorem mem_keys_erase {α : Type} {object : JsObject α}
    {key other : JsString} :
    other ∈ keys (object.erase key) ↔ other ∈ keys object ∧ other ≠ key := by
  rw [keys_erase, List.mem_filter]
  simp

theorem beside_withoutFollowup (h : state.Beside) (scopeKey : JsString) :
    (state.withoutFollowup scopeKey).Beside := by
  intro key hkey
  have hboth := mem_keys_erase.mp hkey
  exact mem_keys_erase.mpr ⟨h key hboth.1, hboth.2⟩

theorem beside_withFollowup (h : state.Beside) (scopeKey text : JsString)
    (restorationId : Option JsString) :
    (state.withFollowup scopeKey text restorationId).Beside := by
  have hwithout := beside_withoutFollowup h scopeKey
  intro key hkey
  cases restorationId with
  | none => exact mem_keys_assign.mpr (.inl (hwithout key hkey))
  | some id =>
      rcases mem_keys_assign.mp hkey with hold | hnew
      · exact mem_keys_assign.mpr (.inl (hwithout key hold))
      · exact mem_keys_assign.mpr (.inr hnew)

theorem beside_propose (h : state.Beside) (operation : Operation) :
    (operation.propose state).Beside := by
  cases operation with
  | persistPendingNewThreadDraft text scope => exact h
  | clearPendingNewThreadDraft => exact h
  | persistThreadFollowupDraft scopeKey text preserveEmpty restorationId =>
      simp only [Operation.propose]
      split
      · exact h
      · split
        · exact beside_withFollowup h scopeKey text restorationId
        · exact beside_withoutFollowup h scopeKey
  | clearThreadFollowupDraft scopeKey =>
      simp only [Operation.propose]
      split
      · exact h
      · exact beside_withoutFollowup h scopeKey
  | persistSentThreadFollowup threadId record => cases threadId <;> exact h

theorem named_propose (h : [] ∉ keys state.threadFollowups)
    (operation : Operation) :
    [] ∉ keys (operation.propose state).threadFollowups := by
  intro hmem
  by_cases hscope : operation.scope = some []
  · cases operation with
    | persistPendingNewThreadDraft text scope => cases hscope
    | clearPendingNewThreadDraft => cases hscope
    | persistThreadFollowupDraft scopeKey text preserveEmpty restorationId =>
        obtain rfl : scopeKey = [] := Option.some.inj hscope
        exact h hmem
    | clearThreadFollowupDraft scopeKey =>
        obtain rfl : scopeKey = [] := Option.some.inj hscope
        exact h hmem
    | persistSentThreadFollowup threadId record => cases hscope
  · exact h ((mem_keys_propose_iff hscope).mp hmem)

/-! ## What an operation may evict -/

/-- The array indices among the stored keys were last written before the
others, and in ascending order. -/
def WrittenAsListed (writes stored : List JsString) : Prop :=
  ∀ key ∈ stored, ∀ other ∈ stored, Before writes key other →
    isArrayIndex other → isArrayIndex key ∧ indexValue key ≤ indexValue other

theorem WrittenAsListed.listedAsInserted {writes stored : List JsString}
    (h : WrittenAsListed writes stored) (hsub : stored.Sublist writes) :
    ListedAsInserted stored := by
  refine List.pairwise_iff_forall_sublist.mpr ?_
  intro key other hpair
  exact h key (hpair.subset (by simp)) other (hpair.subset (by simp))
    (hpair.trans hsub)

/-- Where the store trims, its objects list their keys as they were last
written, no restoration goes by an inherited name, and a follow-up for which
there is no room at all stands alone. -/
structure TrimsInOrder (session : Session) (operation : Operation) : Prop where
  followups : (operation.propose session.state).Crowded →
    WrittenAsListed (operation.noteDraft session.draftWrites)
      (keys (operation.propose session.state).threadFollowups)
  names : (operation.propose session.state).Crowded →
    (operation.propose session.state).OwnNames
  records : maxThreadFollowupDrafts <
      (keys (operation.propose session.state).sentThreadFollowups).length →
    WrittenAsListed (operation.noteSent session.sentWrites)
      (keys (operation.propose session.state).sentThreadFollowups)
  alone : operation.TooLarge session.state →
    ∀ scopeKey, operation.scope = some scopeKey →
      ∀ key ∈ keys session.state.threadFollowups, key = scopeKey

/-- What an operation evicts: drafts only to meet a limit, the least recently
written ones and no more of them, with the new value stored; none for a value
that is too large; records that protect a draft only when all do, and within
their kind the least recently written; restorations with their drafts. -/
structure EvictsOnlyWhatItMust (session : Session) (operation : Operation) :
    Prop where
  limits : (operation.run session.state).WithinLimits
  unchanged : ∀ key, operation.scope ≠ some key →
    (operation.run session.state).threadFollowups.get? key = none ∨
      (operation.run session.state).threadFollowups.get? key =
        session.state.threadFollowups.get? key
  needed : ∀ key, Removes session.state operation key →
    ¬ (operation.propose session.state).WithinLimits
  oldest : ∀ key, Removes session.state operation key →
    ∀ other ∈ keys (operation.run session.state).threadFollowups,
      Before (operation.noteDraft session.draftWrites) key other
  noMore : ¬ operation.TooLarge session.state →
    ∀ more, more <:+ keys (operation.propose session.state).threadFollowups →
      (keys (operation.run session.state).threadFollowups).length <
        more.length →
      ¬ ((operation.propose session.state).boundSent.keepDrafts
        more).WithinLimits
  stored : ∀ key, Removes session.state operation key →
    operation.Stored (operation.run session.state)
  tooLarge : operation.TooLarge session.state →
    (∀ key, operation.scope ≠ some key →
      (operation.run session.state).threadFollowups.get? key =
        session.state.threadFollowups.get? key) ∧
    (operation.run session.state).sentThreadFollowups =
      session.state.sentThreadFollowups
  records : ¬ operation.TooLarge session.state →
    ∀ id ∈ keys (operation.propose session.state).sentThreadFollowups,
      id ∉ keys (operation.run session.state).sentThreadFollowups →
      let protective := protects
        (operation.propose session.state).sentThreadFollowups
        (operation.propose session.state).threadFollowups
      maxThreadFollowupDrafts < (keys
        (operation.propose session.state).sentThreadFollowups).length ∧
      (protective id → ∀ other ∈
        keys (operation.propose session.state).sentThreadFollowups,
        protective other) ∧
      ∀ other ∈ keys (operation.run session.state).sentThreadFollowups,
        protective id = protective other →
        Before (operation.noteSent session.sentWrites) id other
  restorations : (operation.run session.state).Beside

theorem keepDrafts_nil_part (state : DraftState) (kept : List JsString) :
    Part (state.keepDrafts []) (state.keepDrafts kept) := by
  have hnil : (state.keepDrafts kept).keepDrafts [] = state.keepDrafts [] :=
    keepDrafts_keepDrafts (List.nil_subset kept)
  rw [← hnil]
  exact part_keepDrafts _ _

theorem part_keepDrafts_nil {small : DraftState}
    (hpending : small.pendingNewThread = state.pendingNewThread)
    (hsent : small.sentThreadFollowups.rows.Sublist
      state.sentThreadFollowups.rows) : Part (small.keepDrafts []) state where
  pending := hpending
  followups := by simp [DraftState.keepDrafts, Keyed.keep]
  restorations := by simp [DraftState.keepDrafts, Keyed.keep]
  sent := hsent

/-- A refused operation was too large. -/
theorem tooLarge_of_refused
    (h : maxComposerDraftBytes <
      ((operation.propose state).boundSent.keepDrafts []).jsonBytes) :
    operation.TooLarge state :=
  h.trans_le (keepDrafts_nil_part _ _).jsonBytes_le

/-- A refused operation leaves the store as it is. -/
theorem evicts_of_refused {session : Session} (hkept : session.Kept)
    (hlarge : operation.TooLarge session.state)
    (hrun : operation.run session.state = session.state) :
    EvictsOnlyWhatItMust session operation := by
  have hnone : ∀ key, ¬ Removes session.state operation key := by
    rintro key ⟨-, hmem, hgone⟩
    rw [hrun] at hgone
    exact hgone hmem
  constructor
  · rw [hrun]
    exact hkept.within
  · intro key _
    rw [hrun]
    exact .inr rfl
  · intro key hremoves
    exact absurd hremoves (hnone key)
  · intro key hremoves
    exact absurd hremoves (hnone key)
  · intro hnot
    exact absurd hlarge hnot
  · intro key hremoves
    exact absurd hremoves (hnone key)
  · intro _
    rw [hrun]
    exact ⟨fun _ _ => rfl, rfl⟩
  · intro hnot
    exact absurd hlarge hnot
  · rw [hrun]
    exact hkept.beside

/-! ## An accepted operation -/

section Accepted

variable {session : Session}

theorem keys_run (hkeeps : Keeps (operation.propose session.state) kept)
    (hrun : operation.run session.state =
      (operation.propose session.state).boundSent.keepDrafts kept) :
    keys (operation.run session.state).threadFollowups = kept := by
  rw [hrun]
  exact keys_keepDrafts hkeeps.suffix

theorem withinLimits_run
    (hkeeps : Keeps (operation.propose session.state) kept)
    (hrun : operation.run session.state =
      (operation.propose session.state).boundSent.keepDrafts kept) :
    (operation.run session.state).WithinLimits where
  followups := by
    rw [keys_run hkeeps hrun]
    exact hkeeps.count
  sent := by
    rw [hrun]
    exact length_boundedSentRecords_le _ _
  bytes := by
    rw [hrun]
    exact hkeeps.bytes

theorem get?_run_of_mem {key : JsString} (hkey : key ∈ kept)
    (hrun : operation.run session.state =
      (operation.propose session.state).boundSent.keepDrafts kept) :
    (operation.run session.state).threadFollowups.get? key =
      (operation.propose session.state).threadFollowups.get? key := by
  rw [hrun]
  simp only [DraftState.keepDrafts, DraftState.boundSent, Keyed.get?_keep]
  cases (operation.propose session.state).threadFollowups.get? key <;>
    simp [hkey]

theorem get?_run_of_not_mem {key : JsString} (hkey : key ∉ kept)
    (hrun : operation.run session.state =
      (operation.propose session.state).boundSent.keepDrafts kept) :
    (operation.run session.state).threadFollowups.get? key = none := by
  rw [hrun]
  simp only [DraftState.keepDrafts, DraftState.boundSent, Keyed.get?_keep]
  cases (operation.propose session.state).threadFollowups.get? key <;>
    simp [hkey]

/-- A draft that is taken away was in the way. -/
theorem exceeds_of_removes
    (hkeeps : Keeps (operation.propose session.state) kept)
    (hrun : operation.run session.state =
      (operation.propose session.state).boundSent.keepDrafts kept)
    (hbeside : session.state.Beside) {key : JsString}
    (hremoves : Removes session.state operation key) :
    ¬ (operation.propose session.state).boundSent.WithinLimits := by
  obtain ⟨hscope, hmem, hgone⟩ := hremoves
  have hproposed := (mem_keys_propose_iff hscope).mpr hmem
  rw [keys_run hkeeps hrun] at hgone
  have hshorter : kept.length <
      (keys (operation.propose session.state).threadFollowups).length := by
    apply lt_of_le_of_ne hkeeps.suffix.length_le
    intro heq
    rw [hkeeps.suffix.eq_of_length heq] at hgone
    exact hgone hproposed
  have hmore := hkeeps.noMore _ (List.suffix_refl _) hshorter
  have hself : (operation.propose session.state).boundSent.keepDrafts
      (keys (operation.propose session.state).threadFollowups) =
      (operation.propose session.state).boundSent :=
    keepDrafts_self (beside_propose hbeside operation).boundSent
  rwa [hself] at hmore

/-- Nothing is taken away for a state that is part of the stored one. -/
theorem not_part_of_removes
    (hkeeps : Keeps (operation.propose session.state) kept)
    (hrun : operation.run session.state =
      (operation.propose session.state).boundSent.keepDrafts kept)
    (hsession : session.Kept) {key : JsString}
    (hremoves : Removes session.state operation key) :
    ¬ Part (operation.propose session.state).boundSent session.state :=
  fun hpart => exceeds_of_removes hkeeps hrun hsession.beside hremoves
    (hpart.withinLimits hsession.within)

theorem part_withoutFollowup (state : DraftState) (scopeKey : JsString) :
    Part (state.withoutFollowup scopeKey) state where
  pending := rfl
  followups := Keyed.rows_keep_sublist _ _
  restorations := Keyed.rows_keep_sublist _ _
  sent := .refl _

theorem withFollowup_protoKey (text : JsString)
    (restorationId : Option JsString) :
    state.withFollowup protoKey text restorationId =
      state.withoutFollowup protoKey := by
  cases restorationId <;> simp [DraftState.withFollowup, assign,
    DraftState.withoutFollowup]

theorem get?_withFollowup (state : DraftState) {scopeKey : JsString}
    (hproto : scopeKey ≠ protoKey) (text : JsString)
    (restorationId : Option JsString) :
    (state.withFollowup scopeKey text restorationId).threadFollowups.get?
        scopeKey = some text ∧
      (state.withFollowup scopeKey text
        restorationId).threadFollowupRestorations.get? scopeKey =
        restorationId := by
  constructor
  · simp [DraftState.withFollowup, assign, hproto]
  · cases restorationId <;>
      simp [DraftState.withFollowup, DraftState.withoutFollowup, assign, hproto]

theorem keys_withFollowup {scopeKey : JsString} (hproto : scopeKey ≠ protoKey)
    (text : JsString) (restorationId : Option JsString) :
    [scopeKey] <:+
      keys (state.withFollowup scopeKey text restorationId).threadFollowups := by
  have hkeys := keys_assign_erase state.threadFollowups hproto text
  refine ⟨(keys state.threadFollowups).filter (· ≠ scopeKey), ?_⟩
  exact hkeys.symm

/-- The follow-up just written is kept when it fits. -/
theorem scopeKey_mem_kept {scopeKey : JsString}
    (hkeeps : Keeps (operation.propose session.state) kept)
    (hscope : operation.scope = some scopeKey)
    (hnewest : [scopeKey] <:+
      keys (operation.propose session.state).threadFollowups)
    (hlarge : ¬ operation.TooLarge session.state) : scopeKey ∈ kept := by
  have hne : kept ≠ [] := by
    rintro rfl
    apply hkeeps.noMore [scopeKey] hnewest (by simp)
    have hkeys : keys ((operation.propose session.state).boundSent.keepDrafts
        [scopeKey]).threadFollowups = [scopeKey] := keys_keepDrafts hnewest
    refine ⟨?_, length_boundedSentRecords_le _ _, ?_⟩
    · rw [hkeys]
      exact Nat.le_of_ble_eq_true rfl
    · rw [Operation.TooLarge, hscope] at hlarge
      exact not_lt.mp hlarge
  have hshort : [scopeKey].length ≤ kept.length :=
    List.length_pos_iff.mpr hne
  have hsuffix :=
    List.suffix_of_suffix_length_le hnewest hkeeps.suffix hshort
  exact hsuffix.subset (by simp)

theorem get?_restorations_run {key : JsString} (hkey : key ∈ kept)
    (hrun : operation.run session.state =
      (operation.propose session.state).boundSent.keepDrafts kept) :
    (operation.run session.state).threadFollowupRestorations.get? key =
      (operation.propose session.state).threadFollowupRestorations.get? key := by
  rw [hrun]
  simp only [DraftState.keepDrafts, DraftState.boundSent, Keyed.get?_keep]
  cases (operation.propose session.state).threadFollowupRestorations.get? key <;>
    simp [hkey]

theorem part_withSent_none (state : DraftState) (threadId : JsString) :
    Part (state.withSent threadId none) state where
  pending := rfl
  followups := .refl _
  restorations := .refl _
  sent := Keyed.rows_keep_sublist _ _

/-- Either the record just written survives the cap, or nothing is left of the
operation. -/
theorem get?_boundSent_withSent {threadId : JsString}
    (hproto : threadId ≠ protoKey) (record : SentInput) :
    (state.withSent threadId
        (some record)).boundSent.sentThreadFollowups.get? threadId =
        some record.toRecord ∨
      Part (state.withSent threadId (some record)).boundSent state := by
  have hbound := (part_boundSent (state.withSent threadId (some record))).sent
  have hrows : (state.withSent threadId
      (some record)).sentThreadFollowups.rows =
      (state.sentThreadFollowups.erase threadId).rows ++
        [(threadId, record.toRecord)] := by
    simp only [DraftState.withSent, assign, if_neg hproto]
    exact Keyed.rows_put_of_none _ (Keyed.get?_erase_self _ _)
  rw [hrows] at hbound
  obtain ⟨old, new, hsplit, hold, hnew⟩ := List.sublist_append_iff.mp hbound
  rcases List.sublist_singleton.mp hnew with rfl | rfl
  · right
    refine ⟨rfl, .refl _, .refl _, ?_⟩
    rw [hsplit, List.append_nil]
    exact hold.trans (Keyed.rows_keep_sublist _ _)
  · left
    apply Keyed.get?_of_mem_rows
    rw [hsplit]
    exact List.mem_append_right old List.mem_cons_self

/-- Whenever another scope loses its draft, the new value is stored. -/
theorem stored_of_removes
    (hkeeps : Keeps (operation.propose session.state) kept)
    (hrun : operation.run session.state =
      (operation.propose session.state).boundSent.keepDrafts kept)
    (hsession : session.Kept) (htrims : TrimsInOrder session operation)
    {key : JsString} (hremoves : Removes session.state operation key) :
    operation.Stored (operation.run session.state) := by
  have hpart := not_part_of_removes hkeeps hrun hsession hremoves
  have hlarge : operation.scope.isSome → ¬ operation.TooLarge session.state := by
    intro hscope hlarge
    obtain ⟨scopeKey, hscopeKey⟩ := Option.isSome_iff_exists.mp hscope
    apply hremoves.1
    rw [htrims.alone hlarge scopeKey hscopeKey key hremoves.2.1]
    exact hscopeKey
  cases operation with
  | persistPendingNewThreadDraft text scope =>
      rw [hrun]
      rfl
  | clearPendingNewThreadDraft =>
      rw [hrun]
      rfl
  | persistThreadFollowupDraft scopeKey text preserveEmpty restorationId =>
      have hnamed : scopeKey ≠ [] := by
        rintro rfl
        exact hpart (part_boundSent session.state)
      have hwrites : text ≠ [] ∨ preserveEmpty = true := by
        by_contra hclears
        rw [Operation.propose, if_neg hnamed, if_neg hclears] at hpart
        exact hpart ((part_boundSent _).trans (part_withoutFollowup _ _))
      have hpropose : (Operation.persistThreadFollowupDraft scopeKey text
          preserveEmpty restorationId).propose session.state =
          session.state.withFollowup scopeKey text restorationId := by
        rw [Operation.propose, if_neg hnamed, if_pos hwrites]
      have hproto : scopeKey ≠ protoKey := by
        rintro rfl
        rw [hpropose, withFollowup_protoKey] at hpart
        exact hpart ((part_boundSent _).trans (part_withoutFollowup _ _))
      have hmem : scopeKey ∈ kept := by
        refine scopeKey_mem_kept hkeeps rfl ?_ (hlarge rfl)
        rw [hpropose]
        exact keys_withFollowup hproto text restorationId
      have hget := get?_withFollowup session.state hproto text restorationId
      rw [Operation.Stored, if_pos hwrites, get?_run_of_mem hmem hrun,
        get?_restorations_run hmem hrun, hpropose]
      exact hget
  | clearThreadFollowupDraft scopeKey =>
      exfalso
      apply hpart
      apply (part_boundSent _).trans
      simp only [Operation.propose]
      split
      · exact Part.refl _
      · exact part_withoutFollowup _ _
  | persistSentThreadFollowup threadId record =>
      cases threadId with
      | none => exact absurd (part_boundSent session.state) hpart
      | some threadId =>
          intro id hid
          obtain rfl : threadId = id := Option.some.inj hid
          cases record with
          | none =>
              exact absurd ((part_boundSent _).trans
                (part_withSent_none session.state threadId)) hpart
          | some record =>
              have hproto : threadId ≠ protoKey := by
                rintro rfl
                have hnothing : session.state.withSent protoKey (some record) =
                    session.state.withSent protoKey none := by
                  simp [DraftState.withSent, assign]
                rw [Operation.propose, hnothing] at hpart
                exact hpart ((part_boundSent _).trans (part_withSent_none _ _))
              rw [hrun]
              exact (get?_boundSent_withSent hproto record).resolve_right hpart

/-! ### Records -/

/-- Over the cap by one, the record that goes is the oldest of its kind, and
protects a draft only when all do. -/
theorem evicted_of_boundedSentRecords {records : JsObject SentRecord}
    {followups : JsObject JsString} {id : JsString}
    (hcount : (keys records).length ≤ maxThreadFollowupDrafts + 1)
    (hlisted : maxThreadFollowupDrafts < (keys records).length →
      ListedAsInserted (keys records))
    (hid : id ∈ keys records)
    (hgone : id ∉ keys (boundedSentRecords records followups)) :
    maxThreadFollowupDrafts < (keys records).length ∧
      (protects records followups id → ∀ other ∈ keys records,
        protects records followups other) ∧
      ∀ other ∈ keys (boundedSentRecords records followups),
        protects records followups id = protects records followups other →
        Before (keys records) id other := by
  have hlength := (perm_objectKeys records).length_eq
  have hover : maxThreadFollowupDrafts < (keys records).length := by
    by_contra hfits
    rw [boundedSentRecords, if_pos (by omega)] at hgone
    exact hgone hid
  have hobject := objectKeys_eq (hlisted hover)
  have hbounded : keys (boundedSentRecords records followups) =
      (keys records).filter fun key => decide (key ∉ dropInClasses
        (protects records followups)
        ((keys records).length - maxThreadFollowupDrafts) (keys records)) := by
    rw [boundedSentRecords, if_neg (by omega)]
    simp only [hobject]
    rw [keys_keep]
    rfl
  rw [hbounded] at hgone ⊢
  have hone : (keys records).length - maxThreadFollowupDrafts = 1 := by omega
  rw [hone] at hgone ⊢
  have hdropped : id ∈ dropInClasses (protects records followups) 1
      (keys records) := by
    by_contra hstays
    exact hgone (List.mem_filter.mpr ⟨hid, by simpa using hstays⟩)
  refine ⟨hover, ?_, ?_⟩
  · intro hprotects other hother
    by_contra hunprotected
    have hboth := mem_dropInClasses_of_other hdropped hprotects hother
      hunprotected
    have hlast := length_dropInClasses (p := protects records followups)
      (l := keys records) (n := 1) (by omega)
    obtain ⟨last, hsingle⟩ := List.length_eq_one_iff.mp hlast
    rw [hsingle, List.mem_singleton] at hdropped hboth
    rw [hboth, ← hdropped] at hunprotected
    exact hunprotected hprotects
  · intro other hother hsame
    obtain ⟨hmem, hstays⟩ := List.mem_filter.mp hother
    exact before_of_mem_dropInClasses hdropped hmem (by simpa using hstays)
      hsame

/-- Only a record just written goes over the cap, and by one. -/
theorem sent_propose_over (hwithin : state.WithinLimits)
    (operation : Operation)
    (hover : maxThreadFollowupDrafts <
      (keys (operation.propose state).sentThreadFollowups).length) :
    (operation.propose state).threadFollowups = state.threadFollowups := by
  have hsent := hwithin.sent
  cases operation with
  | persistPendingNewThreadDraft text scope => rfl
  | clearPendingNewThreadDraft => rfl
  | persistThreadFollowupDraft scopeKey text preserveEmpty restorationId =>
      simp only [Operation.propose] at hover
      split at hover
      · exact absurd hover (by omega)
      · split at hover
        · exact absurd (lt_of_lt_of_le hover hsent) (lt_irrefl _)
        · exact absurd (lt_of_lt_of_le hover hsent) (lt_irrefl _)
  | clearThreadFollowupDraft scopeKey =>
      simp only [Operation.propose] at hover
      split at hover
      · exact absurd hover (by omega)
      · exact absurd (lt_of_lt_of_le hover hsent) (lt_irrefl _)
  | persistSentThreadFollowup threadId record => cases threadId <;> rfl

theorem length_sent_propose_le (hwithin : state.WithinLimits)
    (operation : Operation) :
    (keys (operation.propose state).sentThreadFollowups).length ≤
      maxThreadFollowupDrafts + 1 := by
  have hnote := keys_sent_propose_sublist
    (List.Sublist.refl (keys state.sentThreadFollowups)) operation
  have hlength := hnote.length_le
  have hsent := hwithin.sent
  have hsame : (operation.noteSent (keys state.sentThreadFollowups)).length ≤
      (keys state.sentThreadFollowups).length + 1 := by
    cases operation with
    | persistSentThreadFollowup threadId record =>
        cases threadId with
        | none => exact Nat.le_succ _
        | some threadId =>
            simp only [Operation.noteSent, noteWrite, List.length_append,
              List.length_singleton]
            have hfilter := List.length_filter_le (fun key => key ≠ threadId)
              (keys state.sentThreadFollowups)
            omega
    | _ => exact Nat.le_succ _
  omega

/-- An accepted operation evicts only what it must. -/
theorem evicts_of_accepted
    (hkeeps : Keeps (operation.propose session.state) kept)
    (hrun : operation.run session.state =
      (operation.propose session.state).boundSent.keepDrafts kept)
    (hsession : session.Kept) (htrims : TrimsInOrder session operation) :
    EvictsOnlyWhatItMust session operation := by
  have hkeys := keys_run hkeeps hrun
  have hdrafts := keys_propose_sublist hsession.drafts hsession.named operation
  have hunchanged : ∀ key, operation.scope ≠ some key →
      (operation.run session.state).threadFollowups.get? key = none ∨
        (operation.run session.state).threadFollowups.get? key =
          session.state.threadFollowups.get? key := by
    intro key hscope
    by_cases hmem : key ∈ kept
    · exact .inr ((get?_run_of_mem hmem hrun).trans (get?_propose_of_ne hscope))
    · exact .inl (get?_run_of_not_mem hmem hrun)
  constructor
  · exact withinLimits_run hkeeps hrun
  · exact hunchanged
  · intro key hremoves hwithin
    apply exceeds_of_removes hkeeps hrun hsession.beside hremoves
    exact (part_boundSent _).withinLimits hwithin
  · intro key hremoves other hother
    have hproposed := (mem_keys_propose_iff hremoves.1).mpr hremoves.2.1
    have hgone := hremoves.2.2
    rw [hkeys] at hgone hother
    exact (before_of_suffix hkeeps.suffix hproposed hgone hother).of_sublist
      hdrafts
  · intro _ more hmore hlonger
    rw [hkeys] at hlonger
    exact hkeeps.noMore more hmore hlonger
  · intro key hremoves
    exact stored_of_removes hkeeps hrun hsession htrims hremoves
  · intro hlarge
    obtain ⟨scopeKey, hscopeKey⟩ : ∃ scopeKey,
        operation.scope = some scopeKey := by
      rw [← Option.ne_none_iff_exists']
      intro hnone
      rw [Operation.TooLarge, hnone] at hlarge
      have hle := (keepDrafts_nil_part
        (operation.propose session.state).boundSent kept).jsonBytes_le
      exact absurd (hlarge.trans_le (hle.trans hkeeps.bytes)) (lt_irrefl _)
    constructor
    · intro key hscope
      have hnone : session.state.threadFollowups.get? key = none := by
        by_contra hsome
        have hmem := mem_keys_iff.mpr (Option.isSome_iff_ne_none.mpr hsome)
        apply hscope
        rw [htrims.alone hlarge scopeKey hscopeKey key hmem]
        exact hscopeKey
      rcases hunchanged key hscope with hgone | hsame
      · rw [hgone, hnone]
      · exact hsame
    · have hsent : (operation.propose session.state).sentThreadFollowups =
          session.state.sentThreadFollowups := by
        cases operation with
        | persistPendingNewThreadDraft text scope => rfl
        | clearPendingNewThreadDraft => rfl
        | persistThreadFollowupDraft key text preserveEmpty restorationId =>
            simp only [Operation.propose]
            split
            · rfl
            · split <;> rfl
        | clearThreadFollowupDraft key =>
            simp only [Operation.propose]
            split <;> rfl
        | persistSentThreadFollowup threadId record => cases hscopeKey
      have hle := hsession.within.sent
      rw [← hsent] at hle ⊢
      rw [hrun, boundSent_of_le hle]
      rfl
  · intro _ id hid hgone protective
    have hsub := keys_sent_propose_sublist hsession.sent operation
    have hafter : (operation.run session.state).sentThreadFollowups =
        (operation.propose session.state).boundSent.sentThreadFollowups := by
      rw [hrun]
      rfl
    have hcap := length_sent_propose_le hsession.within operation
    rw [hafter] at hgone ⊢
    obtain ⟨hover, -⟩ := evicted_of_boundedSentRecords hcap
      (fun hover => (htrims.records hover).listedAsInserted hsub) hid hgone
    have hfollowups := sent_propose_over hsession.within operation hover
    have hstale : dropStaleFollowups
        (operation.propose session.state).threadFollowups =
        (operation.propose session.state).threadFollowups := by
      rw [hfollowups]
      exact dropStaleFollowups_of_le hsession.within.followups
    rw [DraftState.boundSent, hstale] at hgone ⊢
    obtain ⟨-, hprotects, hbefore⟩ := evicted_of_boundedSentRecords hcap
      (fun hover => (htrims.records hover).listedAsInserted hsub) hid hgone
    refine ⟨hover, hprotects, ?_⟩
    intro other hother hsame
    exact (hbefore other hother hsame).of_sublist hsub
  · rw [hrun]
    exact (beside_propose hsession.beside operation).boundSent.keepDrafts kept

end Accepted

/-! ## Every run -/

/-- One operation evicts only what it must, and the session stays kept. -/
theorem step_evicts {session : Session} (hsession : session.Kept)
    (htrims : TrimsInOrder session operation) :
    EvictsOnlyWhatItMust session operation ∧ (session.next operation).Kept := by
  have hrun := run_eq hsession.beside hsession.within operation
  have hdrafts := keys_propose_sublist hsession.drafts hsession.named operation
  have hsent := keys_sent_propose_sublist hsession.sent operation
  have hnamed := named_propose hsession.named operation
  rcases boundedState_cases (beside_propose hsession.beside operation) hnamed
    htrims.names (fun hcrowded =>
      (htrims.followups hcrowded).listedAsInserted hdrafts) with
    ⟨kept, hkeeps, hsome⟩ | ⟨hnone, hlarge⟩
  · rw [DraftState.writeState, hsome, Option.getD_some] at hrun
    have hevicts := evicts_of_accepted hkeeps hrun hsession htrims
    refine ⟨hevicts, ?_⟩
    have hnext : session.next operation =
        ⟨operation.run session.state, operation.noteDraft session.draftWrites,
          operation.noteSent session.sentWrites⟩ := by
      simp [Session.next, hsome]
    have hkeys := keys_run hkeeps hrun
    rw [hnext]
    constructor
    · exact hevicts.limits
    · exact hevicts.restorations
    · intro hmem
      rw [hkeys] at hmem
      exact hnamed (hkeeps.suffix.subset hmem)
    · rw [hkeys]
      exact hkeeps.suffix.sublist.trans hdrafts
    · rw [hrun]
      exact ((part_boundSent _).sent.map Prod.fst).trans hsent
    · exact hsession.distinct_note operation
  · rw [DraftState.writeState, hnone, Option.getD_none] at hrun
    refine ⟨evicts_of_refused hsession (tooLarge_of_refused hlarge) hrun, ?_⟩
    have hnext : session.next operation = session := by
      simp [Session.next, hnone, hrun]
    rw [hnext]
    exact hsession

theorem kept_emptyState : (⟨emptyState, [], []⟩ : Session).Kept where
  within := ⟨Nat.zero_le _, Nat.zero_le _, by decide⟩
  beside := by
    intro key hkey
    cases hkey
  named := by
    intro hmem
    cases hmem
  drafts := .refl _
  sent := .refl _
  distinct := ⟨List.nodup_nil, List.nodup_nil⟩

theorem kept_of_trace {steps : List (Session × Operation)} {session : Session}
    (htrace : draftStore.Trace steps session)
    (htrims : TransitionSystem.GuardedBy TrimsInOrder steps) :
    session.Kept ∧ ∀ step ∈ steps, EvictsOnlyWhatItMust step.1 step.2 := by
  induction htrace with
  | init hinit =>
      obtain rfl := hinit
      exact ⟨kept_emptyState, by simp⟩
  | @step steps before after operation hprefix hstep ih =>
      obtain rfl := hstep
      obtain ⟨hkept, hearlier⟩ := ih fun visited hvisited =>
        htrims visited (by simp [hvisited])
      have hnow := step_evicts hkept (htrims (before, operation) (by simp))
      refine ⟨hnow.2, ?_⟩
      intro visited hvisited
      rcases List.mem_append.mp hvisited with hold | hnew
      · exact hearlier visited hold
      · obtain rfl := List.mem_singleton.mp hnew
        exact hnow.1

theorem trimsInOrder_of_withinLimits {session : Session}
    (h : (operation.propose session.state).WithinLimits) :
    TrimsInOrder session operation where
  followups hcrowded := absurd hcrowded h.not_crowded
  names hcrowded := absurd hcrowded h.not_crowded
  records hover := absurd h.sent (by omega)
  alone hlarge := by
    have hle := ((part_keepDrafts _ operation.scope.toList).trans
      (part_boundSent _)).jsonBytes_le.trans h.bytes
    exact absurd (hlarge.trans_le hle) (lt_irrefl _)

def firstScope : JsString := units "1:none"

def secondScope : JsString := units "2:none"

def firstDraft : Operation :=
  .persistThreadFollowupDraft firstScope (units "draft") false none

/-- A store with one short draft. -/
def firstSession : Session :=
  (⟨emptyState, [], []⟩ : Session).next firstDraft

/-- A text of as many letters as the limit has bytes. -/
def largeText : JsString := List.replicate maxComposerDraftBytes 120

def largeDraft : Operation :=
  .persistThreadFollowupDraft secondScope largeText false none

theorem withinLimits_firstDraft :
    (firstDraft.propose emptyState).WithinLimits :=
  ⟨by decide, by decide, by decide⟩

theorem firstSession_state :
    firstSession.state = firstDraft.propose emptyState := by
  have hrun := run_eq kept_emptyState.beside kept_emptyState.within firstDraft
  rw [DraftState.writeState, boundedState_of_withinLimits
    (beside_propose kept_emptyState.beside firstDraft)
    withinLimits_firstDraft] at hrun
  simp only [firstSession, Session.next]
  split <;> exact hrun

theorem firstSession_trace :
    draftStore.Trace [(⟨emptyState, [], []⟩, firstDraft)] firstSession :=
  .step (.init rfl) rfl

theorem escapedBytes_replicate (n : ℕ) :
    escapedBytes (List.replicate n 120) = n := by
  induction n with
  | zero => rfl
  | succ n ih =>
      cases n with
      | zero => decide
      | succ n =>
          have hplain : isHighSurrogate 120 = false := by decide
          have hone : unitBytes 120 = 1 := by decide
          rw [List.replicate_succ, List.replicate_succ, escapedBytes, hplain,
            Bool.false_and, if_neg Bool.false_ne_true, hone,
            ← List.replicate_succ, ih, Nat.add_comm]

/-- A state takes at least the bytes of each of its drafts. -/
theorem stringBytes_le_jsonBytes {key text : JsString}
    (h : state.threadFollowups.get? key = some text) :
    stringBytes text ≤ state.jsonBytes := by
  have hmember : memberBytes key (stringBytes text) ≤
      (state.threadFollowups.rows.map fun entry =>
        memberBytes entry.1 (stringBytes entry.2)).sum :=
    List.le_sum_of_mem
      (List.mem_map.mpr ⟨(key, text), Keyed.mem_rows_of_get? h, rfl⟩)
  simp only [DraftState.jsonBytes, objectBytes, membersBytes, memberBytes,
    List.sum_cons, List.sum_nil] at hmember ⊢
  omega

theorem largeText_bytes : maxComposerDraftBytes < stringBytes largeText := by
  rw [stringBytes, largeText, escapedBytes_replicate]
  omega

theorem propose_largeDraft (state : DraftState) :
    largeDraft.propose state = state.withFollowup secondScope largeText none := by
  have hnamed : secondScope ≠ [] := by decide
  have htext : largeText ≠ [] := by
    rw [largeText, ne_eq, List.replicate_eq_nil_iff]
    decide
  rw [largeDraft, Operation.propose, if_neg hnamed, if_pos (Or.inl htext)]

theorem get?_largeDraft (state : DraftState) :
    (largeDraft.propose state).threadFollowups.get? secondScope =
      some largeText := by
  rw [propose_largeDraft]
  exact (get?_withFollowup state (by decide) largeText none).1

theorem keys_largeDraft :
    keys (largeDraft.propose firstSession.state).threadFollowups =
      [firstScope, secondScope] := by
  rw [propose_largeDraft, firstSession_state]
  refine (keys_assign_erase _ (by decide) largeText).trans ?_
  decide

theorem tooLarge_largeDraft (state : DraftState) : largeDraft.TooLarge state := by
  have hget : ((largeDraft.propose state).boundSent.keepDrafts
      largeDraft.scope.toList).threadFollowups.get? secondScope =
      some largeText := by
    have hproposed := get?_largeDraft state
    simp only [DraftState.keepDrafts, DraftState.boundSent, Keyed.get?_keep,
      hproposed]
    rfl
  exact largeText_bytes.trans_le (stringBytes_le_jsonBytes hget)

end ComposerDrafts

end RelayerGraph
