import RelayerGraph.Search.Target
import RelayerGraph.Foundation.Checked

/-!
# The product store

The rows of the app server's own database which its run and execution
operations read or write: threads, interactions, the executions of recursive
completions, action invocations, attempts, Stop requests, node runs and
capacity waits.  An interaction is addressed by its id, so those tables are
maps; the execution table is a finite map, because one of its columns is
unique across rows.

Every statement updates one row under a condition.  `updateInteraction` and
`updateExecution` are that statement: they answer whether a row was affected,
and refuse to put work back on an archived thread, as the triggers do.
-/

namespace RelayerGraph

structure InteractionId where
  id : RowId
deriving DecidableEq

/-- `interactions.completion_status`. -/
inductive CompletionStatus
  | notStarted
  | preparing
  | queued
  | submitted
  | running
  | waitingForApproval
  | accepted
  | failed
  | stopped
  | paused
  | interrupted
deriving DecidableEq, Repr

namespace CompletionStatus

/-- The statuses an archived thread admits no change into. -/
def active : CompletionStatus → Bool
  | .notStarted | .preparing | .queued | .running | .submitted
  | .waitingForApproval => true
  | _ => false

end CompletionStatus

/-- The errors of the product store which the modelled operations raise. -/
inductive StorageError
  | completionExecutionConflict (message : String)
  | approvalConflict (message : String)
  | catalog (code message : String)
  | notFound (what : String)
  | serialization (message : String)
  | database (message : String)
deriving DecidableEq, Repr

abbrev StorageResult := Except StorageError

/-- The columns of `threads`. -/
structure ThreadRow where
  archivedAt : Option String
  icon : Option String
  iconSelectionEligible : Bool
  surface : String
  conversationImportId : Option ℤ
deriving DecidableEq

/-- The columns of `interactions`. -/
structure InteractionRow where
  threadId : ThreadId
  completionStatus : CompletionStatus
  graphNodeId : Option ℤ
  harnessConfigurationName : Option String
  harnessConfigurationDigest : Option String
  effectiveExecutionDigest : Option String
  effectivePermissionReceiptJson : Option String
  completionOutputJson : Option String
  completionError : Option String
deriving DecidableEq

inductive CompletionExecutionPhase
  | reserved
  | launching
  | attached
  | settled
deriving DecidableEq, Repr

/-- The columns of `completion_executions` beside their key. -/
structure ExecutionRow where
  graphCompletionId : ℤ
  harnessConfigurationName : String
  harnessConfigurationDigest : String
  modelExecutionDigest : String
  permissionOriginDigest : String
  phase : CompletionExecutionPhase
  attachmentJson : Option String
  settlementJson : Option String
  safeReason : Option String
  createdAt : String
  updatedAt : String
deriving DecidableEq

/-- The columns of `action_invocations`. -/
structure ActionInvocationRow where
  resultInteractionId : InteractionId
  authoritative : Bool
  agentInvoked : Bool
  preparedGraphNodeId : Option ℤ
  graphFailurePending : Bool
deriving DecidableEq

/-- `interaction_attempts.outcome`. -/
inductive AttemptOutcome
  | running
  | accepted
  | modelFailed
  | executionFailed
  | cancelled
deriving DecidableEq, Repr

/-- The columns of `interaction_attempts`. -/
structure AttemptRow where
  interactionId : InteractionId
  finishedAt : Option String
  outcome : AttemptOutcome
  failureCategory : Option String
  effectBoundary : String
deriving DecidableEq

/-- A row of `interaction_stop_requests`: a Stop with an error has failed. -/
structure StopRequestRow where
  error : Option String
deriving DecidableEq

/-- The node a user's run was started on. -/
structure NodeRunKey where
  threadId : ThreadId
  nodeId : ℤ
deriving DecidableEq

structure ProductStore where
  threads : ThreadId → Option ThreadRow
  interactions : InteractionId → Option InteractionRow
  executions : AList fun _ : InteractionId => ExecutionRow
  actionInvocations : List ActionInvocationRow
  attempts : List AttemptRow
  stopRequests : InteractionId → Option StopRequestRow
  nodeRuns : InteractionId → Option NodeRunKey
  capacityWaits : InteractionId → Bool

namespace ProductStore

variable (store : ProductStore)

/-- Whether the thread is archived. -/
def archived (thread : ThreadId) : Bool :=
  (store.threads thread).any fun row => row.archivedAt.isSome

/-- Whether the interaction belongs to an archived thread. -/
def onArchivedThread (interaction : InteractionId) : Bool :=
  (store.interactions interaction).any fun row => store.archived row.threadId

/-- Whether the interaction's thread was not imported. -/
def onNativeThread (row : InteractionRow) : Bool :=
  (store.threads row.threadId).any fun thread =>
    thread.conversationImportId.isNone

/-- The store after `UPDATE interactions` of one row, or nothing when no row
meets the condition. -/
def updateInteraction (interaction : InteractionId)
    (condition : InteractionRow → Bool)
    (change : InteractionRow → InteractionRow) :
    StorageResult (Option ProductStore) :=
  match store.interactions interaction with
  | none => .ok none
  | some row =>
      if condition row then
        if (change row).completionStatus.active ∧ store.archived row.threadId then
          .error (.database "thread_archived")
        else
          .ok (some
            { store with
              interactions :=
                Function.update store.interactions interaction
                  (some (change row)) })
      else
        .ok none

/-- The store after `UPDATE completion_executions` of one row. -/
def updateExecution (interaction : InteractionId)
    (condition : ExecutionRow → Bool) (change : ExecutionRow → ExecutionRow) :
    StorageResult (Option ProductStore) :=
  match store.executions.lookup interaction with
  | none => .ok none
  | some row =>
      if condition row then
        if (change row).phase ≠ .settled ∧
            store.onArchivedThread interaction then
          .error (.database "thread_archived")
        else
          .ok (some
            { store with
              executions := store.executions.insert interaction (change row) })
      else
        .ok none

/-! ## What an update does -/

variable {store}

theorem updateInteraction_some {interaction : InteractionId}
    {condition : InteractionRow → Bool}
    {change : InteractionRow → InteractionRow} {store' : ProductStore}
    (h : store.updateInteraction interaction condition change =
      .ok (some store')) :
    ∃ row, store.interactions interaction = some row ∧ condition row = true ∧
      store' =
        { store with
          interactions :=
            Function.update store.interactions interaction
              (some (change row)) } := by
  unfold updateInteraction at h
  split at h
  · simp at h
  · rename_i row hrow
    split at h
    · rename_i hcondition
      split at h
      · simp at h
      · refine ⟨row, hrow, hcondition, ?_⟩
        simpa using h.symm
    · simp at h

theorem updateInteraction_none {interaction : InteractionId}
    {condition : InteractionRow → Bool}
    {change : InteractionRow → InteractionRow}
    (h : store.updateInteraction interaction condition change = .ok none)
    {row : InteractionRow} (hrow : store.interactions interaction = some row) :
    condition row = false := by
  unfold updateInteraction at h
  rw [hrow] at h
  by_contra hcondition
  rw [Bool.not_eq_false] at hcondition
  simp only [hcondition, if_true] at h
  split at h <;> simp at h

/-- An update that ends an interaction is never refused. -/
theorem updateInteraction_of_not {interaction : InteractionId}
    {condition : InteractionRow → Bool}
    {change : InteractionRow → InteractionRow}
    (hnot : ∀ row, store.interactions interaction = some row →
      condition row = false) :
    store.updateInteraction interaction condition change = .ok none := by
  unfold updateInteraction
  cases hrow : store.interactions interaction with
  | none => rfl
  | some row => simp [hnot row hrow]

theorem updateExecution_some {interaction : InteractionId}
    {condition : ExecutionRow → Bool} {change : ExecutionRow → ExecutionRow}
    {store' : ProductStore}
    (h : store.updateExecution interaction condition change =
      .ok (some store')) :
    ∃ row, store.executions.lookup interaction = some row ∧
      condition row = true ∧
      store' =
        { store with
          executions := store.executions.insert interaction (change row) } := by
  unfold updateExecution at h
  split at h
  · simp at h
  · rename_i row hrow
    split at h
    · rename_i hcondition
      split at h
      · simp at h
      · refine ⟨row, hrow, hcondition, ?_⟩
        simpa using h.symm
    · simp at h

end ProductStore

end RelayerGraph
