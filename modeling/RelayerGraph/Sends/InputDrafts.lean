import RelayerGraph.Catalog.Records
import RelayerGraph.Foundation.Checked

/-!
# Interaction-input drafts

The answers a user commits to the inputs of a conversation wait in a draft of
its thread until a Send or an invocation takes them along.  Every edit names
the revision it was made at; every answer bears the time it was confirmed at,
its epoch, by which a later submission finds the answer it froze.
-/

namespace RelayerGraph

open Foundation Checked

/-! ## Records -/

/-- `PresentingInputOccurrence`. -/
structure InputOccurrence where
  presentingInteractionNodeId : ℤ
  presentingLayerId : ℤ
  actionId : ℤ
deriving DecidableEq, Repr

/-- What a commit says, with the texts of its action and its value. -/
structure InputAnswer where
  sourceNodeId : ℤ
  actionJson : String
  valueJson : String
deriving DecidableEq, Repr

/-- The columns of `action_input_attachments` beside their keys. -/
structure InputAttachment extends InputAnswer where
  committedAt : ℕ
deriving DecidableEq, Repr

/-- The columns of `action_input_detach_receipts`; the table checks that
`result_revision` is the one after the expected revision. -/
structure DetachReceipt where
  occurrence : InputOccurrence
  expectedRevision : ℕ
deriving DecidableEq, Repr

def DetachReceipt.resultRevision (receipt : DetachReceipt) : ℕ :=
  receipt.expectedRevision + 1

/-- The answers a Send took along, and whether its attempt has ended. -/
structure SubmittedSnapshot where
  rows : List (InputOccurrence × InputAttachment)
  ended : Bool
deriving DecidableEq

/-- The draft of one thread.  Times are the numbers their texts stand for; a
text that is no number counts as zero, as it does where the store reads one.
A draft without a row has revision zero. -/
structure InputDraft where
  threadUpdatedAt : ℕ
  revision : ℕ
  updatedAt : ℕ
  attachments : Keyed InputOccurrence InputAttachment
  detachReceipts : List DetachReceipt
  submitted : Keyed TurnId SubmittedSnapshot

/-- The errors of the operations on a draft. -/
inductive DraftFailure
  | actionInputDraftConflict (code message : String)
  | incompatibleSchema (message : String)
  | constraint (name : String)
deriving DecidableEq

abbrev DraftResult := Except DraftFailure

/-- `monotonic_timestamp`, with the reading of the clock. -/
def monotonicTimestamp (previous now : ℕ) : ℕ := max previous now

namespace InputDraft

variable (draft : InputDraft)

/-- `UPDATE action_input_drafts SET revision=revision+1,updated_at=?`. -/
def advanced (stamp : ℕ) : InputDraft :=
  if draft.revision = 0 then draft
  else { draft with revision := draft.revision + 1, updatedAt := stamp }

/-- `next_draft_timestamp`. -/
def nextDraftTimestamp (now : ℕ) : DraftResult ℕ := do
  let next := max draft.threadUpdatedAt draft.updatedAt + 1
  require (next < 2 ^ 128)
    (.incompatibleSchema "Input confirmation epoch overflow")
  pure (monotonicTimestamp next now)

def revisionConflict (message : String) : DraftFailure :=
  .actionInputDraftConflict "input_draft_revision_conflict" message

/-! ## Edits -/

/-- The `lost_response_replay` of a commit: the same action and value are
stored, and the commit expects the revision before the current one. -/
def replaysCommit (occurrence : InputOccurrence) (answer : InputAnswer)
    (expected : ℕ) : Bool :=
  ((draft.attachments.get? occurrence).any fun row =>
    decide (row.actionJson = answer.actionJson) &&
      decide (row.valueJson = answer.valueJson)) &&
    decide (expected + 1 = draft.revision)

/-- `commit_action_input_attachment`. -/
def commit (occurrence : InputOccurrence) (answer : InputAnswer)
    (expected now : ℕ) : DraftResult InputDraft :=
  if draft.replaysCommit occurrence answer expected = true then
    pure draft
  else do
    require (expected = draft.revision)
      (revisionConflict
        "This interaction-input draft changed in another renderer state. Reload it before committing.")
    let stamp ← draft.nextDraftTimestamp now
    pure { draft with
      revision := draft.revision + 1
      updatedAt := stamp
      attachments := draft.attachments.put occurrence ⟨answer, stamp⟩ }

/-- A receipt says that this detach led to the current revision. -/
def replaysDetach (occurrence : InputOccurrence) (expected : ℕ) : Bool :=
  draft.detachReceipts.any fun receipt =>
    decide (receipt = ⟨occurrence, expected⟩) &&
      decide (receipt.resultRevision = draft.revision)

/-- `detach_action_input_attachment`. -/
def detach (occurrence : InputOccurrence) (expected now : ℕ) :
    DraftResult InputDraft :=
  if draft.replaysDetach occurrence expected = true then
    pure draft
  else do
    require (expected = draft.revision)
      (revisionConflict
        "This interaction-input draft changed in another renderer state. Reload it before detaching.")
    if (draft.attachments.get? occurrence).isNone = true then
      pure draft
    else do
      let stamp ← draft.nextDraftTimestamp now
      require (⟨occurrence, expected⟩ ∉ draft.detachReceipts)
        (.constraint "action_input_detach_receipts")
      pure { draft.advanced stamp with
        attachments := draft.attachments.erase occurrence
        detachReceipts := draft.detachReceipts ++ [⟨occurrence, expected⟩] }

/-! ## Sends and invocations -/

/-- The answers of the occurrences a Send takes along. -/
def selectedRows (selected : InputOccurrence → Bool) :
    List (InputOccurrence × InputAttachment) :=
  draft.attachments.rows.filter fun entry => selected entry.1

/-- The draft as `insert_interaction_input` leaves it: a Send that names a
draft revision takes the selected answers along, and every Send is the last
change of its thread.  `snapshotAgrees` is whether the digest of the Send is
that of the stored answers. -/
def reserve (turn : TurnId) (selected : InputOccurrence → Bool)
    (expected : Option ℕ) (snapshotAgrees : Bool) (now : ℕ) :
    DraftResult InputDraft :=
  let stamp := monotonicTimestamp draft.threadUpdatedAt now
  match expected with
  | none => pure { draft with threadUpdatedAt := stamp }
  | some revision => do
      require (revision = draft.revision)
        (revisionConflict
          "The committed interaction inputs changed while Send was reserving them. Reload the draft and send again.")
      if draft.selectedRows selected = [] then
        pure { draft with threadUpdatedAt := stamp }
      else do
        require (snapshotAgrees = true)
          (revisionConflict
            "The committed interaction inputs no longer match the Send snapshot. Reload the draft and send again.")
        require (draft.submitted.get? turn = none)
          (.constraint "interaction_submitted_input_attempts")
        pure { draft.advanced stamp with
          threadUpdatedAt := stamp
          attachments := draft.attachments.keep fun occurrence _ =>
            !selected occurrence
          submitted :=
            draft.submitted.put turn ⟨draft.selectedRows selected, false⟩ }

/-- `consume_invocation_inputs_on`: the answers equal to a frozen one in every
column are taken. -/
def consume (frozen : List (InputOccurrence × InputAttachment)) (now : ℕ) :
    DraftResult InputDraft :=
  if (draft.attachments.rows.any fun entry => decide (entry ∈ frozen)) = true
  then do
    let stamp ← draft.nextDraftTimestamp now
    pure { draft.advanced stamp with
      attachments := draft.attachments.keep fun occurrence row =>
        decide ((occurrence, row) ∉ frozen) }
  else
    pure draft

/-- `INSERT … ON CONFLICT DO NOTHING` of the answers of a snapshot. -/
def restoredRows (attachments : Keyed InputOccurrence InputAttachment)
    (rows : List (InputOccurrence × InputAttachment)) :
    Keyed InputOccurrence InputAttachment :=
  rows.foldl
    (fun kept entry =>
      if kept.get? entry.1 = none then kept.put entry.1 entry.2 else kept)
    attachments

/-- `submitted_input_attempt_restore`: the answers of a Send whose attempt
ends before its acceptance return, beside the newer ones. -/
def restore (turn : TurnId) : InputDraft :=
  match draft.submitted.get? turn with
  | none => draft
  | some snapshot =>
      if snapshot.ended = true then draft
      else { draft.advanced draft.updatedAt with
        attachments := restoredRows draft.attachments snapshot.rows
        submitted := draft.submitted.put turn { snapshot with ended := true } }

/-- `submitted_input_attempt_accepted`. -/
def accept (turn : TurnId) : InputDraft :=
  { draft with
    submitted := draft.submitted.mapRows fun key snapshot =>
      if key = turn then { snapshot with ended := true } else snapshot }

end InputDraft

/-! ## Requests -/

/-- What a client asks of a draft, with the revision it saw. -/
inductive DraftEdit
  | commit (occurrence : InputOccurrence) (answer : InputAnswer)
      (expected : ℕ)
  | detach (occurrence : InputOccurrence) (expected : ℕ)
deriving DecidableEq

namespace DraftEdit

def expected : DraftEdit → ℕ
  | .commit _ _ expected => expected
  | .detach _ expected => expected

/-- The store takes the edit for one that was made before. -/
def replays (edit : DraftEdit) (draft : InputDraft) : Bool :=
  match edit with
  | .commit occurrence answer expected =>
      draft.replaysCommit occurrence answer expected
  | .detach occurrence expected => draft.replaysDetach occurrence expected

/-- The answer of the store, with the reading of its clock. -/
def run (edit : DraftEdit) (draft : InputDraft) (now : ℕ) :
    DraftResult InputDraft :=
  match edit with
  | .commit occurrence answer expected =>
      draft.commit occurrence answer expected now
  | .detach occurrence expected => draft.detach occurrence expected now

/-- The edit was made on this draft, at the revision it expects, and led to
the other. -/
def AppliedAt (edit : DraftEdit) (draft draft' : InputDraft) : Prop :=
  draft.revision = edit.expected ∧
    match edit with
    | .commit occurrence answer _ =>
        draft'.revision = draft.revision + 1 ∧
          ∃ stamp, draft'.attachments.get? occurrence = some ⟨answer, stamp⟩
    | .detach occurrence _ =>
        draft'.attachments.get? occurrence = none ∧
          (draft.attachments.get? occurrence = none → draft' = draft)

end DraftEdit

end RelayerGraph
