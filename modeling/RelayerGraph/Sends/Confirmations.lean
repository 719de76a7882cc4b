import RelayerGraph.Catalog.Database

/-!
# Context confirmations

A confirmed node-context draft waits in the composer until the user dismisses
it or a Send consumes it.  What a Send consumed is pending again once the
Send is taken back, or its row is deleted.
-/

namespace RelayerGraph

open Foundation Checked

/-- `node_context_draft_resolutions.outcome`. -/
inductive ContextOutcome
  | confirmed
  | discarded
deriving DecidableEq, Repr

/-- Where a node was shown when its draft was written. -/
structure ContextOccurrence where
  targetNodeId : ℤ
  sourceInteractionNodeId : ℤ
  sourceLayerId : ℤ
deriving DecidableEq, Repr

/-- The columns of `node_context_draft_resolutions`.  Every statement that
writes `consumed_interaction_id` selects confirmed rows that nobody dismissed,
and no statement dismisses a consumed row. -/
structure ContextResolution where
  threadId : ThreadId
  outcome : ContextOutcome
  draftRevision : ℕ
  composerRevision : ℕ
  occurrence : ContextOccurrence
  text : String
  resolvedAt : String
  composerText : Option String
  dismissedAt : Option String
  consumedInteraction : Option TurnId
  consumable : consumedInteraction.isSome = true →
    outcome = .confirmed ∧ dismissedAt = none

namespace ContextResolution

variable (row : ContextResolution)

/-- `outcome='confirmed' AND dismissed_at IS NULL`. -/
def attached : Bool :=
  decide (row.outcome = .confirmed) && row.dismissedAt.isNone

/-- In the composer. -/
def pending : Bool :=
  row.attached && row.consumedInteraction.isNone

/-- The row as a turn consumes it. -/
def consumedBy (turn : TurnId) : ContextResolution :=
  if h : row.outcome = .confirmed ∧ row.dismissedAt = none then
    { row with
      consumedInteraction := some turn
      consumable := fun _ => h }
  else
    row

/-- `consumed_interaction_id=NULL WHERE consumed_interaction_id=?`, which is
also what the foreign key does when the turn is deleted. -/
def released (turn : TurnId) : ContextResolution :=
  if row.consumedInteraction = some turn then
    { row with
      consumedInteraction := none
      consumable := fun h => by cases h }
  else
    row

/-- The row with another text in the composer. -/
def edited ( annotation : String) : ContextResolution :=
  { row with
    composerText := some annotation
    composerRevision := row.composerRevision + 1 }

/-- The pending row, dismissed. -/
def dismissed (now : String) : ContextResolution :=
  if h : row.consumedInteraction = none then
    { row with
      dismissedAt := some now
      composerRevision := row.composerRevision + 1
      consumable := fun hconsumed => by simp [h] at hconsumed }
  else
    row

theorem released_of_ne {row : ContextResolution} {turn : TurnId}
    (hother : row.consumedInteraction ≠ some turn) :
    row.released turn = row := by
  rw [released, if_neg hother]

/-- A consumed confirmation is pending again once it is released. -/
theorem pending_released {row : ContextResolution} {turn : TurnId}
    (hconsumed : row.consumedInteraction = some turn) :
    (row.released turn).pending = true := by
  have hattached := row.consumable (by simp [hconsumed])
  rw [released, if_pos hconsumed]
  simp [pending, attached, hattached.1, hattached.2]

/-- Nothing but the consumption changes. -/
theorem released_columns (turn : TurnId) :
    (row.released turn).threadId = row.threadId ∧
      (row.released turn).outcome = row.outcome ∧
      (row.released turn).draftRevision = row.draftRevision ∧
      (row.released turn).composerRevision = row.composerRevision ∧
      (row.released turn).occurrence = row.occurrence ∧
      (row.released turn).text = row.text ∧
      (row.released turn).resolvedAt = row.resolvedAt ∧
      (row.released turn).composerText = row.composerText ∧
      (row.released turn).dismissedAt = row.dismissedAt := by
  by_cases h : row.consumedInteraction = some turn <;> simp [released, h]

end ContextResolution

abbrev ContextResolutions := Keyed String ContextResolution

/-- The errors of the operations on a Send. -/
inductive SendFailure
  | catalog (failure : CatalogFailure)
  | contextDraftConflict (code message : String)
  | incompatibleSchema (message : String)
  | rowNotFound
  | constraint (name : String)
deriving DecidableEq

abbrev SendResult := Except SendFailure

namespace ContextResolutions

variable (rows : ContextResolutions)

/-- `ensure_context_confirmation_restore_safe`: releasing what the turn
consumed would not attach one node from two occurrences. -/
def restoreSafe (turn : TurnId) : Bool :=
  !(rows.rows.any fun restored => rows.rows.any fun other =>
    decide (restored.2.consumedInteraction = some turn) &&
      restored.2.dismissedAt.isNone &&
      decide (other.2.threadId = restored.2.threadId) &&
      decide (other.2.occurrence.targetNodeId =
        restored.2.occurrence.targetNodeId) &&
      decide (other.1 ≠ restored.1) && other.2.attached &&
      decide (other.2.occurrence ≠ restored.2.occurrence) &&
      (other.2.consumedInteraction.isNone ||
        decide (other.2.consumedInteraction = some turn)))

/-- The confirmations a turn consumed return to the composer. -/
def release (turn : TurnId) : ContextResolutions :=
  rows.mapRows fun _ row => row.released turn

/-- The confirmations a turn consumed, by their draft. -/
def consumedIds (turn : TurnId) : List String :=
  (rows.rows.filter fun entry =>
    entry.2.consumedInteraction = some turn).map Prod.fst

def notPending : SendFailure :=
  .contextDraftConflict "context_confirmation_not_pending"
    "A submitted context confirmation is no longer pending."

def payloadMismatch : SendFailure :=
  .contextDraftConflict "context_confirmation_payload_mismatch"
    "A submitted context confirmation does not match the interaction contexts."

/-- One round of `claim_context_confirmations`, with the annotations no
confirmation accounts for yet. -/
def claimOne (turn : TurnId) (thread : ThreadId)
    (state : ContextResolutions × List (ContextOccurrence × String))
    (draftId : String) :
    SendResult (ContextResolutions × List (ContextOccurrence × String)) := do
  let row ← orThrow ((state.1.get? draftId).filter fun row =>
      decide (row.threadId = thread) && row.attached &&
        (row.consumedInteraction.isNone ||
          decide (row.consumedInteraction = some turn))) notPending
  let text ← orThrow row.composerText .rowNotFound
  require ((row.occurrence, text) ∈ state.2) payloadMismatch
  pure (state.1.put draftId (row.consumedBy turn),
    state.2.erase (row.occurrence, text))

/-- `claim_context_confirmations`. -/
def claim (turn : TurnId) (thread : ThreadId)
    (annotations : List (ContextOccurrence × String))
    (draftIds : List String) : SendResult ContextResolutions := do
  let claimed ← draftIds.foldlM (claimOne turn thread) (rows, annotations)
  pure claimed.1

/-- `update_pending_node_context_confirmation` and
`dismiss_pending_node_context_confirmation`: a change of one pending row, at
the revision the caller saw. -/
def changePending (draftId : String) (thread : ThreadId)
    (expectedRevision : ℕ) (change : ContextResolution → ContextResolution) :
    ContextResolutions :=
  rows.mapRows fun key row =>
    if key = draftId ∧ row.threadId = thread ∧ row.pending = true ∧
        row.composerRevision = expectedRevision then
      change row
    else
      row

end ContextResolutions

end RelayerGraph
