import RelayerGraph.Sends.InputDrafts

/-!
# What the operations do to a draft

One lemma for each operation: what it may change, when it succeeds.  The
revision grows with every change of the answers; the time of the last change
only moves forward, except by a Send, which takes the time of its thread.
-/

namespace RelayerGraph

open Foundation Checked

namespace InputDraft

/-- A draft without a row has no answers, and none was sent from it. -/
def Headed (draft : InputDraft) : Prop :=
  draft.revision = 0 → draft.attachments.rows = [] ∧ draft.submitted.rows = []

/-- The revision never decreases, and grows with every change of the
answers. -/
structure RevisionGrows (draft draft' : InputDraft) : Prop where
  monotone : draft.revision ≤ draft'.revision
  grows : draft'.attachments ≠ draft.attachments →
    draft.revision < draft'.revision

/-- Every answer that is stored, or was taken along, was confirmed at the last
change of the draft or before it. -/
structure Dated (draft : InputDraft) : Prop where
  stored : ∀ entry ∈ draft.attachments.rows,
    entry.2.committedAt ≤ draft.updatedAt
  taken : ∀ snapshot ∈ draft.submitted.rows, ∀ entry ∈ snapshot.2.rows,
    entry.2.committedAt ≤ draft.updatedAt

variable {draft draft' : InputDraft}

theorem RevisionGrows.refl (draft : InputDraft) : RevisionGrows draft draft :=
  ⟨le_rfl, fun hne => absurd rfl hne⟩

theorem RevisionGrows.of_lt (h : draft.revision < draft'.revision) :
    RevisionGrows draft draft' :=
  ⟨h.le, fun _ => h⟩

/-! ## Small lemmas -/

theorem advanced_of_pos {stamp : ℕ} (hpos : 0 < draft.revision) :
    draft.advanced stamp =
      { draft with revision := draft.revision + 1, updatedAt := stamp } :=
  if_neg (Nat.pos_iff_ne_zero.mp hpos)

theorem pos_of_attachment {occurrence : InputOccurrence}
    {row : InputAttachment} (hheaded : draft.Headed)
    (hrow : (occurrence, row) ∈ draft.attachments.rows) :
    0 < draft.revision := by
  by_contra hzero
  rw [(hheaded (Nat.eq_zero_of_not_pos hzero)).1] at hrow
  cases hrow

theorem pos_of_submitted {turn : TurnId} {snapshot : SubmittedSnapshot}
    (hheaded : draft.Headed)
    (hsnapshot : draft.submitted.get? turn = some snapshot) :
    0 < draft.revision := by
  by_contra hzero
  have hmem := Keyed.mem_rows_of_get? hsnapshot
  rw [(hheaded (Nat.eq_zero_of_not_pos hzero)).2] at hmem
  cases hmem

theorem Headed.of_pos (hpos : 0 < draft.revision) : draft.Headed :=
  fun hzero => absurd hzero (Nat.pos_iff_ne_zero.mp hpos)

/-- A new epoch is later than the last change of the draft. -/
theorem nextDraftTimestamp_ok {now stamp : ℕ}
    (hrun : draft.nextDraftTimestamp now = .ok stamp) :
    draft.updatedAt < stamp := by
  simp only [nextDraftTimestamp, bind_eq_ok_iff, pure_eq_ok_iff] at hrun
  obtain ⟨_, -, rfl⟩ := hrun
  have hnext : max draft.threadUpdatedAt draft.updatedAt + 1 ≤
      monotonicTimestamp (max draft.threadUpdatedAt draft.updatedAt + 1) now :=
    le_max_left _ _
  have hfloor : draft.updatedAt ≤ max draft.threadUpdatedAt draft.updatedAt :=
    le_max_right _ _
  omega

/-! ## Commits -/

theorem commit_of_replays {occurrence : InputOccurrence} {answer : InputAnswer}
    {expected : ℕ} (now : ℕ)
    (hreplay : draft.replaysCommit occurrence answer expected = true) :
    draft.commit occurrence answer expected now = .ok draft := by
  rw [commit, if_pos hreplay]
  rfl

theorem commit_ok {occurrence : InputOccurrence} {answer : InputAnswer}
    {expected now : ℕ}
    (hfirst : draft.replaysCommit occurrence answer expected = false)
    (hrun : draft.commit occurrence answer expected now = .ok draft') :
    expected = draft.revision ∧ ∃ stamp, draft.updatedAt < stamp ∧
      draft' = { draft with
        revision := draft.revision + 1
        updatedAt := stamp
        attachments := draft.attachments.put occurrence ⟨answer, stamp⟩ } := by
  rw [commit, hfirst, if_neg Bool.false_ne_true] at hrun
  simp only [bind_eq_ok_iff, require_eq_ok_iff, pure_eq_ok_iff] at hrun
  obtain ⟨_, hexpected, stamp, hstamp, rfl⟩ := hrun
  exact ⟨hexpected, stamp, nextDraftTimestamp_ok hstamp, rfl⟩

theorem dated_commit {occurrence : InputOccurrence} {answer : InputAnswer}
    {stamp : ℕ} (hdated : draft.Dated) (hstamp : draft.updatedAt < stamp) :
    Dated { draft with
      revision := draft.revision + 1
      updatedAt := stamp
      attachments := draft.attachments.put occurrence ⟨answer, stamp⟩ } where
  stored := by
    intro entry hentry
    rcases Keyed.mem_rows_put hentry with rfl | hold
    · exact le_rfl
    · exact (hdated.stored entry hold).trans hstamp.le
  taken := fun snapshot hsnapshot entry hentry =>
    (hdated.taken snapshot hsnapshot entry hentry).trans hstamp.le

/-! ## Detaches -/

theorem detach_of_replays {occurrence : InputOccurrence} {expected : ℕ}
    (now : ℕ) (hreplay : draft.replaysDetach occurrence expected = true) :
    draft.detach occurrence expected now = .ok draft := by
  rw [detach, if_pos hreplay]
  rfl

/-- A detach that is not taken for an old one leaves the draft when there is
nothing to detach, and moves it on otherwise. -/
theorem detach_ok {occurrence : InputOccurrence} {expected now : ℕ}
    (hheaded : draft.Headed)
    (hfirst : draft.replaysDetach occurrence expected = false)
    (hrun : draft.detach occurrence expected now = .ok draft') :
    expected = draft.revision ∧
      ((draft.attachments.get? occurrence = none ∧ draft' = draft) ∨
        (draft.attachments.get? occurrence ≠ none ∧
          ∃ stamp, draft.updatedAt < stamp ∧
          draft' = { draft with
            revision := draft.revision + 1
            updatedAt := stamp
            attachments := draft.attachments.erase occurrence
            detachReceipts :=
              draft.detachReceipts ++ [⟨occurrence, expected⟩] })) := by
  rw [detach, hfirst, if_neg Bool.false_ne_true] at hrun
  simp only [bind_eq_ok_iff, require_eq_ok_iff] at hrun
  obtain ⟨_, hexpected, hrun⟩ := hrun
  refine ⟨hexpected, ?_⟩
  cases hrow : draft.attachments.get? occurrence with
  | none =>
      rw [hrow, if_pos Option.isNone_none] at hrun
      exact .inl ⟨rfl, (pure_eq_ok_iff.mp hrun).symm⟩
  | some row =>
      rw [hrow, if_neg (by simp)] at hrun
      simp only [bind_eq_ok_iff, pure_eq_ok_iff] at hrun
      obtain ⟨stamp, hstamp, _, -, rfl⟩ := hrun
      have hpos := pos_of_attachment hheaded (Keyed.mem_rows_of_get? hrow)
      refine .inr ⟨by simp, stamp, nextDraftTimestamp_ok hstamp, ?_⟩
      rw [advanced_of_pos hpos]

/-! ## Sends -/

/-- A Send moves the thread only, or takes answers along. -/
theorem reserve_ok {turn : TurnId} {selected : InputOccurrence → Bool}
    {expected : Option ℕ} {agrees : Bool} {now : ℕ} (hheaded : draft.Headed)
    (hrun : draft.reserve turn selected expected agrees now = .ok draft') :
    draft' = { draft with
        threadUpdatedAt := monotonicTimestamp draft.threadUpdatedAt now } ∨
      (expected.isSome = true ∧ draft.selectedRows selected ≠ [] ∧
        0 < draft.revision ∧ draft' = { draft with
          threadUpdatedAt := monotonicTimestamp draft.threadUpdatedAt now
          revision := draft.revision + 1
          updatedAt := monotonicTimestamp draft.threadUpdatedAt now
          attachments := draft.attachments.keep fun occurrence _ =>
            !selected occurrence
          submitted :=
            draft.submitted.put turn ⟨draft.selectedRows selected, false⟩ }) := by
  cases expected with
  | none => exact .inl (pure_eq_ok_iff.mp hrun).symm
  | some revision =>
      simp only [reserve, bind_eq_ok_iff] at hrun
      obtain ⟨_, -, hrun⟩ := hrun
      by_cases hempty : draft.selectedRows selected = []
      · rw [if_pos hempty] at hrun
        exact .inl (pure_eq_ok_iff.mp hrun).symm
      · rw [if_neg hempty] at hrun
        simp only [bind_eq_ok_iff, pure_eq_ok_iff] at hrun
        obtain ⟨_, -, _, -, rfl⟩ := hrun
        obtain ⟨entry, hentry⟩ := List.exists_mem_of_ne_nil _ hempty
        have hpos : 0 < draft.revision :=
          pos_of_attachment hheaded (List.mem_filter.mp hentry).1
        refine .inr ⟨rfl, hempty, hpos, ?_⟩
        rw [advanced_of_pos hpos]

/-! ## Invocations, restores and acceptances -/

/-- An invocation takes nothing, or what equals a frozen answer. -/
theorem consume_ok {frozen : List (InputOccurrence × InputAttachment)}
    {now : ℕ} (hheaded : draft.Headed)
    (hrun : draft.consume frozen now = .ok draft') :
    draft' = draft ∨ ∃ stamp, draft.updatedAt < stamp ∧
      0 < draft.revision ∧ draft' = { draft with
        revision := draft.revision + 1
        updatedAt := stamp
        attachments := draft.attachments.keep fun occurrence row =>
          decide ((occurrence, row) ∉ frozen) } := by
  unfold consume at hrun
  by_cases hany : (draft.attachments.rows.any fun entry =>
      decide (entry ∈ frozen)) = true
  · rw [if_pos hany] at hrun
    simp only [bind_eq_ok_iff, pure_eq_ok_iff] at hrun
    obtain ⟨stamp, hstamp, rfl⟩ := hrun
    obtain ⟨⟨occurrence, row⟩, hentry, -⟩ := List.any_eq_true.mp hany
    have hpos := pos_of_attachment hheaded hentry
    refine .inr ⟨stamp, nextDraftTimestamp_ok hstamp, hpos, ?_⟩
    rw [advanced_of_pos hpos]
  · rw [if_neg hany] at hrun
    exact .inl (pure_eq_ok_iff.mp hrun).symm

/-- What an answer returned to a draft was before. -/
theorem mem_restoredRows {rows : List (InputOccurrence × InputAttachment)}
    {table : Keyed InputOccurrence InputAttachment}
    {entry : InputOccurrence × InputAttachment}
    (hentry : entry ∈ (restoredRows table rows).rows) :
    entry ∈ table.rows ∨ entry ∈ rows := by
  induction rows generalizing table with
  | nil => exact .inl hentry
  | cons row rows ih =>
      rw [restoredRows, List.foldl_cons] at hentry
      rcases ih hentry with hkept | hlater
      · by_cases hfree : table.get? row.1 = none
        · rw [if_pos hfree] at hkept
          rcases Keyed.mem_rows_put hkept with rfl | hold
          · exact .inr (by simp)
          · exact .inl hold
        · rw [if_neg hfree] at hkept
          exact .inl hkept
      · exact .inr (List.mem_cons_of_mem _ hlater)

theorem restore_cases (turn : TurnId) (hheaded : draft.Headed) :
    draft.restore turn = draft ∨ ∃ snapshot,
      draft.submitted.get? turn = some snapshot ∧ 0 < draft.revision ∧
      draft.restore turn = { draft with
        revision := draft.revision + 1
        attachments := restoredRows draft.attachments snapshot.rows
        submitted := draft.submitted.put turn { snapshot with ended := true } } := by
  unfold restore
  cases hsnapshot : draft.submitted.get? turn with
  | none => exact .inl rfl
  | some snapshot =>
      by_cases hended : snapshot.ended = true
      · exact .inl (if_pos hended)
      · have hpos := pos_of_submitted hheaded hsnapshot
        refine .inr ⟨snapshot, rfl, hpos, ?_⟩
        simp only [if_neg hended, advanced_of_pos hpos]

end InputDraft

end RelayerGraph
