import RelayerGraph.Catalog.Operations
import RelayerGraph.Sends.Confirmations

/-!
# Discarding an unbound Send

A Send whose start failed before the graph knew of it is taken back: its
interaction is deleted and the thread looks as it did before.  The tables that
reference the interaction follow their foreign keys, most of them by deleting
their rows.
-/

namespace RelayerGraph

open Foundation Checked

/-- The tables with a foreign key on `interactions` that the other modules
keep no row of. -/
inductive ReferencingTable
  | contextIntents
  | contextAnnotations
  | approvalRequests
  | importedInteractions
  | runResumptions
  | runCapacityWaits
  | nodeRunQueue
  | invocationCalls
  | submissionReceipts
  | submittedInputAttachments
  | preparationRefusals
  | presentationVersions
  | presentationPins
  | unpinnedInteractions
deriving DecidableEq, Repr

/-- The foreign key has `ON DELETE CASCADE`. -/
def ReferencingTable.cascades : ReferencingTable → Bool
  | .preparationRefusals | .presentationVersions => false
  | _ => true

/-- A row of one of these tables. -/
structure ReferenceRow where
  table : ReferencingTable
  turn : TurnId
  content : String
deriving DecidableEq

structure ThreadTimes where
  createdAt : String
  updatedAt : String
deriving DecidableEq

/-- The columns of `interactions` a Send is recognised by. -/
structure SendRow where
  createdAt : String
  inputDigest : Option String
deriving DecidableEq

/-- The product store, as far as a Send and its discard go.
`invocationSources` is the source of the invocation a turn results from. -/
structure SendDatabase where
  catalog : CatalogDatabase
  threadTimes : Keyed ThreadId ThreadTimes
  sends : TurnId → Option SendRow
  invocationSources : TurnId → Option TurnId
  resolutions : ContextResolutions
  references : List ReferenceRow

namespace SendDatabase

variable (db : SendDatabase)

/-! ## The statements of the discard -/

/-- The statuses in which an unbound interaction is discarded. -/
def discardStatuses : List CompletionStatus := [.notStarted, .submitted, .failed]

/-- The interaction the discard selects: identified, unbound, not started or
failed, and without submitted inputs. -/
def unboundInput (turn : TurnId) : Option TurnRow :=
  (db.catalog.turns.get? turn).filter fun row =>
    row.graphNodeId.isNone && row.inputIdentity.isSome &&
      decide (row.completionStatus ∈ discardStatuses) &&
      (db.catalog.submittedInputs turn).isNone

/-- No foreign key keeps the interaction. -/
def deletable (turn : TurnId) : Bool :=
  db.references.all fun reference =>
    decide (reference.turn ≠ turn) || reference.table.cascades

/-- The invocation hangs off the turn, as its result or by its source. -/
def invocationOf (turn : TurnId) (invocation : TurnInvocationRow) : Bool :=
  decide (invocation.resultTurn = turn) ||
    decide (db.invocationSources invocation.resultTurn = some turn)

/-- The catalog without the turn and the rows that reference it. -/
def catalogWithout (turn : TurnId) : CatalogDatabase :=
  { db.catalog with
    turns := db.catalog.turns.filterRows fun key _ => decide (key ≠ turn)
    invocations := db.catalog.invocations.filter fun invocation =>
      !db.invocationOf turn invocation
    submittedInputs := Function.update db.catalog.submittedInputs turn none
    executionPhases := Function.update db.catalog.executionPhases turn none
    stopRequests := Function.update db.catalog.stopRequests turn false
    attempts := db.catalog.attempts.filterRows fun _ attempt =>
      decide (attempt.turn ≠ turn) }

/-- The store without the turn, after the actions of the foreign keys. -/
def withoutInteraction (turn : TurnId) : SendDatabase :=
  { db with
    catalog := db.catalogWithout turn
    sends := Function.update db.sends turn none
    invocationSources := fun result =>
      if result = turn ∨ db.invocationSources result = some turn then none
      else db.invocationSources result
    resolutions := db.resolutions.release turn
    references := db.references.filter fun reference =>
      decide (reference.turn ≠ turn) }

/-- `DELETE FROM interactions WHERE id=?`. -/
def deleteInteraction (turn : TurnId) : SendResult SendDatabase := do
  require (db.deletable turn = true) (.constraint "FOREIGN KEY")
  pure (db.withoutInteraction turn)

/-- `MAX(created_at)` over the interactions of the thread. -/
def lastCreatedAt (thread : ThreadId) : Option String :=
  ((db.catalog.turns.entries.filter fun entry =>
      decide (entry.2.threadId = thread)).filterMap fun entry =>
    (db.sends entry.1).map SendRow.createdAt).foldl
      (fun latest created => some ((latest.map (max created)).getD created))
      none

/-- `UPDATE threads SET updated_at=COALESCE(MAX(created_at),created_at)`. -/
def settleUpdatedAt (thread : ThreadId) : SendDatabase :=
  { db with
    threadTimes := db.threadTimes.mapRows fun key times =>
      if key = thread then
        { times with
          updatedAt := (db.lastCreatedAt thread).getD times.createdAt }
      else
        times }

def restoreConflict : SendFailure :=
  .incompatibleSchema
    "restoring context confirmations would attach one node from multiple occurrences"

/-- `discard_unbound_interaction_input`: whether the interaction was
discarded, with the store. -/
def discardUnboundInteractionInput (turn : TurnId) :
    SendResult (Bool × SendDatabase) :=
  match db.unboundInput turn with
  | none => pure (false, db)
  | some row => do
      require (db.resolutions.restoreSafe turn = true) restoreConflict
      let deleted ← db.deleteInteraction turn
      pure (true, deleted.settleUpdatedAt row.threadId)

/-- The discard takes the interaction away. -/
def discards (turn : TurnId) : Prop :=
  (db.unboundInput turn).isSome = true ∧
    db.resolutions.restoreSafe turn = true ∧ db.deletable turn = true

instance (turn : TurnId) : Decidable (db.discards turn) :=
  inferInstanceAs (Decidable (_ ∧ _ ∧ _))

variable {db}

theorem discard_of_discards {turn : TurnId} {row : TurnRow}
    (hrow : db.unboundInput turn = some row)
    (hsafe : db.resolutions.restoreSafe turn = true)
    (hfree : db.deletable turn = true) :
    db.discardUnboundInteractionInput turn =
      .ok (true, (db.withoutInteraction turn).settleUpdatedAt row.threadId) := by
  simp only [discardUnboundInteractionInput, hrow, deleteInteraction, hsafe,
    hfree, require, if_true]
  rfl

/-- A call that discards nothing leaves the store as it is. -/
theorem discard_of_not_discards {turn : TurnId} (h : ¬ db.discards turn) :
    db.discardUnboundInteractionInput turn = .ok (false, db) ∨
      ∃ failure, db.discardUnboundInteractionInput turn = .error failure := by
  cases hrow : db.unboundInput turn with
  | none =>
      refine .inl ?_
      simp only [discardUnboundInteractionInput, hrow]
      rfl
  | some row =>
      refine .inr ?_
      by_cases hsafe : db.resolutions.restoreSafe turn = true
      · have hkept : db.deletable turn ≠ true := fun hfree =>
          h ⟨by simp [hrow], hsafe, hfree⟩
        refine ⟨.constraint "FOREIGN KEY", ?_⟩
        simp only [discardUnboundInteractionInput, hrow, deleteInteraction,
          hsafe, require, if_true, if_neg hkept]
        rfl
      · refine ⟨restoreConflict, ?_⟩
        simp only [discardUnboundInteractionInput, hrow, require, if_neg hsafe]
        rfl

end SendDatabase

end RelayerGraph
