import RelayerGraph.Foundation.TransitionSystem
import RelayerGraph.Sends.DraftEffects

/-!
# Runs of a draft

Clients commit and detach, Sends and invocations take answers along, a failed
Send returns them, and the rest of the application rewrites the time of the
thread.  Beside the store a run remembers which edits were applied for which
client, and the epochs the commits received; the store itself knows neither.
-/

namespace RelayerGraph

open Foundation Checked TransitionSystem

abbrev DraftClient := String

inductive DraftLabel
  | edit (client : DraftClient) (request : DraftEdit) (now : ℕ)
  | reserve (turn : TurnId) (selected : InputOccurrence → Bool)
      (expected : Option ℕ) (snapshotAgrees : Bool) (now : ℕ)
  | consume (frozen : List (InputOccurrence × InputAttachment)) (now : ℕ)
  | restore (turn : TurnId)
  | accept (turn : TurnId)
  | touchThread (stamp : ℕ)

/-- The draft of a thread with what was applied to it so far. -/
structure DraftRun where
  draft : InputDraft
  applied : List (DraftClient × DraftEdit)
  epochs : List ℕ

/-- The draft a call leaves behind: one that fails is rolled back. -/
def InputDraft.afterCall (draft : InputDraft) :
    DraftResult InputDraft → InputDraft
  | .ok stored => stored
  | .error _ => draft

/-- The epochs an edit leaves: what a commit stored, unless it was taken for
an old one. -/
def DraftEdit.epochs (edit : DraftEdit) (draft draft' : InputDraft) : List ℕ :=
  if edit.replays draft = true then []
  else
    match edit with
    | .commit occurrence _ _ =>
        ((draft'.attachments.get? occurrence).map
          InputAttachment.committedAt).toList
    | .detach _ _ => []

namespace DraftRun

variable (run : DraftRun)

/-- The run after an edit, which is applied unless the store takes it for an
old one. -/
def afterEdit (client : DraftClient) (edit : DraftEdit) (now : ℕ) : DraftRun :=
  match edit.run run.draft now with
  | .error _ => run
  | .ok draft =>
      { draft := draft
        applied :=
          if edit.replays run.draft = true then run.applied
          else run.applied ++ [(client, edit)]
        epochs := run.epochs ++ edit.epochs run.draft draft }

def next : DraftLabel → DraftRun
  | .edit client request now => run.afterEdit client request now
  | .reserve turn selected expected agrees now =>
      { run with
        draft := run.draft.afterCall
          (run.draft.reserve turn selected expected agrees now) }
  | .consume frozen now =>
      { run with draft := run.draft.afterCall (run.draft.consume frozen now) }
  | .restore turn => { run with draft := run.draft.restore turn }
  | .accept turn => { run with draft := run.draft.accept turn }
  | .touchThread stamp =>
      { run with draft := { run.draft with threadUpdatedAt := stamp } }

end DraftRun

/-- Runs from a draft without answers, at any revision and any times. -/
def draftSystem : TransitionSystem DraftRun DraftLabel where
  init := fun run => run.draft.attachments.rows = [] ∧
    run.draft.detachReceipts = [] ∧ run.draft.submitted.rows = [] ∧
    run.applied = [] ∧ run.epochs = []
  step := fun run label run' => run' = run.next label

namespace DraftRun

open InputDraft

variable {run : DraftRun}

/-! ## Edits -/

/-- An edit that reports success was applied at the revision it expects, or
repeats one of the same client that was. -/
def EditSound (run : DraftRun) : DraftLabel → Prop
  | .edit client request now => ∀ draft,
      request.run run.draft now = .ok draft →
        request.AppliedAt run.draft draft ∨
          ((client, request) ∈ run.applied ∧ draft = run.draft)
  | _ => True

/-- What the store takes for an old edit is one of the same client. -/
def RepeatsOwn (run : DraftRun) : DraftLabel → Prop
  | .edit client request _ => request.replays run.draft = true →
      (client, request) ∈ run.applied
  | _ => True

/-- An edit that fails changes nothing. -/
def RefusalsKeep (run : DraftRun) (label : DraftLabel) (run' : DraftRun) :
    Prop :=
  match label with
  | .edit _ request now => ∀ failure,
      request.run run.draft now = .error failure → run' = run
  | .reserve turn selected expected agrees now => ∀ failure,
      run.draft.reserve turn selected expected agrees now = .error failure →
        run' = run
  | .consume frozen now => ∀ failure,
      run.draft.consume frozen now = .error failure → run' = run
  | _ => True

theorem revision_of_replays {request : DraftEdit} {draft : InputDraft}
    (hreplay : request.replays draft = true) :
    request.expected + 1 = draft.revision := by
  cases request with
  | commit occurrence answer expected =>
      simp only [DraftEdit.replays, replaysCommit, Bool.and_eq_true,
        decide_eq_true_eq] at hreplay
      exact hreplay.2
  | detach occurrence expected =>
      simp only [DraftEdit.replays, replaysDetach, List.any_eq_true,
        Bool.and_eq_true, decide_eq_true_eq] at hreplay
      obtain ⟨receipt, -, rfl, hresult⟩ := hreplay
      exact hresult

theorem run_of_replays {request : DraftEdit} {draft : InputDraft} (now : ℕ)
    (hreplay : request.replays draft = true) :
    request.run draft now = .ok draft := by
  cases request with
  | commit => exact commit_of_replays now hreplay
  | detach => exact detach_of_replays now hreplay

/-- An edit the store does not take for an old one is applied, when it
succeeds. -/
theorem appliedAt_of_run {request : DraftEdit} {draft draft' : InputDraft}
    {now : ℕ} (hheaded : draft.Headed)
    (hfirst : request.replays draft = false)
    (hrun : request.run draft now = .ok draft') :
    request.AppliedAt draft draft' := by
  cases request with
  | commit occurrence answer expected =>
      obtain ⟨rfl, stamp, -, rfl⟩ := commit_ok hfirst hrun
      exact ⟨rfl, rfl, stamp, Keyed.get?_put_self _ _ _⟩
  | detach occurrence expected =>
      obtain ⟨rfl, hkept | ⟨hthere, stamp, -, rfl⟩⟩ :=
        detach_ok hheaded hfirst hrun
      · obtain ⟨hnone, rfl⟩ := hkept
        exact ⟨rfl, hnone, fun _ => rfl⟩
      · exact ⟨rfl, Keyed.get?_erase_self _ _,
          fun hnone => absurd hnone hthere⟩

theorem editSound_iff (hheaded : run.draft.Headed) (label : DraftLabel) :
    run.EditSound label ↔ run.RepeatsOwn label := by
  cases label with
  | edit client request now =>
      cases hreplay : request.replays run.draft with
      | false =>
          refine iff_of_true ?_ fun htrue => by simp [hreplay] at htrue
          intro draft hrun
          exact .inl (appliedAt_of_run hheaded hreplay hrun)
      | true =>
          have hrun := run_of_replays now hreplay
          have hbefore := revision_of_replays hreplay
          constructor
          · intro hsound _
            rcases hsound _ hrun with ⟨hexpected, -⟩ | ⟨hown, -⟩
            · omega
            · exact hown
          · intro hown draft hdraft
            rw [hrun] at hdraft
            exact .inr ⟨hown hreplay, (Except.ok.inj hdraft).symm⟩
  | _ => exact Iff.rfl

/-! ## One step -/

/-- A Send that takes answers along does so at a time that is not before the
last change of the draft. -/
def SendsForward (run : DraftRun) : DraftLabel → Prop
  | .reserve _ selected (some _) _ now =>
      run.draft.selectedRows selected ≠ [] →
        run.draft.updatedAt ≤
          monotonicTimestamp run.draft.threadUpdatedAt now
  | _ => True

/-- The epochs so far lie before the last change of the draft, in the order in
which they were given out. -/
structure Ordered (run : DraftRun) : Prop where
  dated : run.draft.Dated
  given : ∀ epoch ∈ run.epochs, epoch ≤ run.draft.updatedAt
  increasing : run.epochs.Pairwise (· < ·)

/-- What a step does to the draft, to the edits applied and to the epochs. -/
structure StepFacts (run : DraftRun) (label : DraftLabel) (run' : DraftRun) :
    Prop where
  headed : run'.draft.Headed
  grows : run.draft.RevisionGrows run'.draft
  applied : run'.applied = run.applied ∨ ∃ client request now,
    label = .edit client request now ∧
      run'.applied = run.applied ++ [(client, request)] ∧
      request.AppliedAt run.draft run'.draft
  forward : run.SendsForward label → run.draft.Dated →
    run'.draft.Dated ∧ run.draft.updatedAt ≤ run'.draft.updatedAt
  later : ∃ new : List ℕ, run'.epochs = run.epochs ++ new ∧
    new.Pairwise (· < ·) ∧ ∀ epoch ∈ new,
      run.draft.updatedAt < epoch ∧ epoch ≤ run'.draft.updatedAt

theorem StepFacts.refl (hheaded : run.draft.Headed) (label : DraftLabel) :
    StepFacts run label run where
  headed := hheaded
  grows := .refl _
  applied := .inl rfl
  forward := fun _ hdated => ⟨hdated, le_rfl⟩
  later := ⟨[], by simp, .nil, by simp⟩

/-- A step that changes the draft alone. -/
theorem StepFacts.of_draft {label : DraftLabel} {draft : InputDraft}
    (hheaded : draft.Headed) (hgrows : run.draft.RevisionGrows draft)
    (hforward : run.SendsForward label → run.draft.Dated →
      draft.Dated ∧ run.draft.updatedAt ≤ draft.updatedAt) :
    StepFacts run label { run with draft := draft } where
  headed := hheaded
  grows := hgrows
  applied := .inl rfl
  forward := hforward
  later := ⟨[], by simp, .nil, by simp⟩

theorem stepFacts_commit {client : DraftClient} {occurrence : InputOccurrence}
    {answer : InputAnswer} {expected now : ℕ} {draft : InputDraft}
    (hfirst : run.draft.replaysCommit occurrence answer expected = false)
    (hrun : run.draft.commit occurrence answer expected now = .ok draft) :
    StepFacts run (.edit client (.commit occurrence answer expected) now)
      { draft := draft
        applied := run.applied ++ [(client, .commit occurrence answer expected)]
        epochs := run.epochs ++
          DraftEdit.epochs (.commit occurrence answer expected) run.draft
            draft } := by
  obtain ⟨rfl, stamp, hstamp, rfl⟩ := commit_ok hfirst hrun
  constructor
  case headed => exact .of_pos (Nat.succ_pos _)
  case grows => exact .of_lt (Nat.lt_succ_self _)
  case applied =>
    refine .inr ⟨client, _, now, rfl, rfl, rfl, rfl, stamp, ?_⟩
    exact Keyed.get?_put_self _ _ _
  case forward =>
    intro _ hdated
    exact ⟨dated_commit hdated hstamp, hstamp.le⟩
  case later =>
    refine ⟨[stamp], ?_, List.pairwise_singleton _ _, ?_⟩
    · simp [DraftEdit.epochs, DraftEdit.replays, hfirst]
    · simpa using hstamp

theorem stepFacts_detach {client : DraftClient} {occurrence : InputOccurrence}
    {expected now : ℕ} {draft : InputDraft} (hheaded : run.draft.Headed)
    (hfirst : run.draft.replaysDetach occurrence expected = false)
    (hrun : run.draft.detach occurrence expected now = .ok draft) :
    StepFacts run (.edit client (.detach occurrence expected) now)
      { draft := draft
        applied := run.applied ++ [(client, .detach occurrence expected)]
        epochs := run.epochs ++
          DraftEdit.epochs (.detach occurrence expected) run.draft draft } := by
  have happlied : DraftEdit.AppliedAt (.detach occurrence expected) run.draft
      draft := appliedAt_of_run hheaded hfirst hrun
  have hepochs : DraftEdit.epochs (.detach occurrence expected) run.draft
      draft = [] := by
    simp [DraftEdit.epochs]
  rw [hepochs]
  obtain ⟨-, ⟨-, rfl⟩ | ⟨-, stamp, hstamp, rfl⟩⟩ := detach_ok hheaded hfirst hrun
  · constructor
    case headed => exact hheaded
    case grows => exact .refl _
    case applied => exact .inr ⟨client, _, now, rfl, rfl, happlied⟩
    case forward => exact fun _ hdated => ⟨hdated, le_rfl⟩
    case later => exact ⟨[], rfl, .nil, by simp⟩
  · constructor
    case headed => exact .of_pos (Nat.succ_pos _)
    case grows => exact .of_lt (Nat.lt_succ_self _)
    case applied => exact .inr ⟨client, _, now, rfl, rfl, happlied⟩
    case forward =>
      intro _ hdated
      refine ⟨⟨?_, ?_⟩, hstamp.le⟩
      · intro entry hentry
        exact (hdated.stored entry (Keyed.mem_rows_erase.mp hentry).1).trans
          hstamp.le
      · intro snapshot hsnapshot entry hentry
        exact (hdated.taken snapshot hsnapshot entry hentry).trans hstamp.le
    case later => exact ⟨[], rfl, .nil, by simp⟩

theorem stepFacts_edit (hheaded : run.draft.Headed) (client : DraftClient)
    (request : DraftEdit) (now : ℕ) :
    StepFacts run (.edit client request now)
      (run.afterEdit client request now) := by
  unfold afterEdit
  cases hrun : request.run run.draft now with
  | error failure => exact .refl hheaded _
  | ok draft =>
      cases hreplay : request.replays run.draft with
      | true =>
          obtain rfl : run.draft = draft :=
            Except.ok.inj ((run_of_replays now hreplay).symm.trans hrun)
          have hepochs : request.epochs run.draft run.draft = [] := by
            simp [DraftEdit.epochs, hreplay]
          simp only [hepochs, List.append_nil, if_true]
          exact .refl hheaded _
      | false =>
          rw [if_neg Bool.false_ne_true]
          cases request with
          | commit => exact stepFacts_commit hreplay hrun
          | detach => exact stepFacts_detach hheaded hreplay hrun

theorem stepFacts_reserve {turn : TurnId} {selected : InputOccurrence → Bool}
    {expected : Option ℕ} {agrees : Bool} {now : ℕ}
    (hheaded : run.draft.Headed) :
    StepFacts run (.reserve turn selected expected agrees now)
      { run with
        draft := run.draft.afterCall
          (run.draft.reserve turn selected expected agrees now) } := by
  cases hrun : run.draft.reserve turn selected expected agrees now with
  | error failure => exact .refl hheaded _
  | ok draft =>
      rcases reserve_ok hheaded hrun with rfl | ⟨hsome, htakes, hpos, rfl⟩
      · refine .of_draft hheaded ⟨le_rfl, fun hne => absurd rfl hne⟩ ?_
        exact fun _ hdated => ⟨⟨hdated.stored, hdated.taken⟩, le_rfl⟩
      · refine .of_draft (.of_pos (Nat.succ_pos _))
          (.of_lt (Nat.lt_succ_self _)) ?_
        intro hforward hdated
        obtain ⟨revision, rfl⟩ := Option.isSome_iff_exists.mp hsome
        have hstamp := hforward htakes
        refine ⟨⟨?_, ?_⟩, hstamp⟩
        · intro entry hentry
          exact (hdated.stored entry (List.mem_filter.mp hentry).1).trans hstamp
        · intro snapshot hsnapshot entry hentry
          rcases Keyed.mem_rows_put hsnapshot with rfl | hold
          · exact (hdated.stored entry (List.mem_filter.mp hentry).1).trans
              hstamp
          · exact (hdated.taken snapshot hold entry hentry).trans hstamp

theorem stepFacts_consume {frozen : List (InputOccurrence × InputAttachment)}
    {now : ℕ} (hheaded : run.draft.Headed) :
    StepFacts run (.consume frozen now)
      { run with
        draft := run.draft.afterCall (run.draft.consume frozen now) } := by
  cases hrun : run.draft.consume frozen now with
  | error failure => exact .refl hheaded _
  | ok draft =>
      rcases consume_ok hheaded hrun with rfl | ⟨stamp, hstamp, hpos, rfl⟩
      · exact .refl hheaded _
      · refine .of_draft (.of_pos (Nat.succ_pos _))
          (.of_lt (Nat.lt_succ_self _)) ?_
        intro _ hdated
        refine ⟨⟨?_, ?_⟩, hstamp.le⟩
        · intro entry hentry
          exact (hdated.stored entry (List.mem_filter.mp hentry).1).trans
            hstamp.le
        · intro snapshot hsnapshot entry hentry
          exact (hdated.taken snapshot hsnapshot entry hentry).trans hstamp.le

theorem stepFacts_restore (hheaded : run.draft.Headed) (turn : TurnId) :
    StepFacts run (.restore turn)
      { run with draft := run.draft.restore turn } := by
  rcases restore_cases turn hheaded with hsame |
    ⟨snapshot, hsnapshot, hpos, hrestored⟩
  · rw [hsame]
    exact .refl hheaded _
  · rw [hrestored]
    refine .of_draft (.of_pos (Nat.succ_pos _))
      (.of_lt (Nat.lt_succ_self _)) ?_
    intro _ hdated
    have htaken : ∀ entry ∈ snapshot.rows,
        entry.2.committedAt ≤ run.draft.updatedAt :=
      hdated.taken _ (Keyed.mem_rows_of_get? hsnapshot)
    refine ⟨⟨?_, ?_⟩, le_rfl⟩
    · intro entry hentry
      rcases mem_restoredRows hentry with hold | hreturned
      · exact hdated.stored entry hold
      · exact htaken entry hreturned
    · intro other hother entry hentry
      rcases Keyed.mem_rows_put hother with rfl | hold
      · exact htaken entry hentry
      · exact hdated.taken other hold entry hentry

theorem stepFacts_accept (hheaded : run.draft.Headed) (turn : TurnId) :
    StepFacts run (.accept turn)
      { run with draft := run.draft.accept turn } := by
  refine .of_draft ?_ ⟨le_rfl, fun hne => absurd rfl hne⟩ ?_
  · intro hzero
    obtain ⟨hattachments, hsubmitted⟩ := hheaded hzero
    exact ⟨hattachments, by simp [accept, Keyed.mapRows, hsubmitted]⟩
  · intro _ hdated
    refine ⟨⟨hdated.stored, ?_⟩, le_rfl⟩
    intro snapshot hsnapshot entry hentry
    obtain ⟨old, hold, rfl⟩ := List.mem_map.mp hsnapshot
    refine hdated.taken old hold entry ?_
    dsimp only at hentry
    split at hentry <;> exact hentry

theorem stepFacts {label : DraftLabel} (hheaded : run.draft.Headed) :
    StepFacts run label (run.next label) := by
  cases label with
  | edit client request now => exact stepFacts_edit hheaded client request now
  | reserve => exact stepFacts_reserve hheaded
  | consume => exact stepFacts_consume hheaded
  | restore turn => exact stepFacts_restore hheaded turn
  | accept turn => exact stepFacts_accept hheaded turn
  | touchThread stamp =>
      refine .of_draft hheaded ⟨le_rfl, fun hne => absurd rfl hne⟩ ?_
      exact fun _ hdated => ⟨⟨hdated.stored, hdated.taken⟩, le_rfl⟩

theorem refusalsKeep (run : DraftRun) (label : DraftLabel) :
    run.RefusalsKeep label (run.next label) := by
  cases label with
  | edit client request now =>
      intro failure hrun
      simp only [next, afterEdit, hrun]
  | reserve =>
      intro failure hrun
      simp only [next, hrun, afterCall]
  | consume =>
      intro failure hrun
      simp only [next, hrun, afterCall]
  | _ => trivial

theorem StepFacts.ordered {label : DraftLabel} {run' : DraftRun}
    (h : StepFacts run label run') (hforward : run.SendsForward label)
    (hordered : run.Ordered) : run'.Ordered := by
  obtain ⟨hdated, hmonotone⟩ := h.forward hforward hordered.dated
  obtain ⟨new, hepochs, hnew, hbounds⟩ := h.later
  refine ⟨hdated, ?_, ?_⟩
  · intro epoch hepoch
    rw [hepochs, List.mem_append] at hepoch
    rcases hepoch with hold | hlater
    · exact (hordered.given epoch hold).trans hmonotone
    · exact (hbounds epoch hlater).2
  · rw [hepochs, List.pairwise_append]
    refine ⟨hordered.increasing, hnew, ?_⟩
    intro epoch hepoch other hother
    exact (hordered.given epoch hepoch).trans_lt (hbounds other hother).1

end DraftRun

end RelayerGraph
