import RelayerGraph.Product.ExecutionSystem

/-!
# Statements of queued runs and Stops

A run a person started waits as `queued`, behind another run on its node or
for capacity.  These are the statements that queue a run, claim it back to
`submitted`, and stop it.  A Stop of a queued run and its claim change the same
row, so exactly one of them wins.
-/

namespace RelayerGraph

open Foundation Checked

/-- What the run queues read of an interaction. -/
structure InteractionView where
  completionStatus : CompletionStatus
  waitingForCapacity : Bool
  stopRequested : Bool
  stopError : Option String
deriving DecidableEq

/-- What stopping a queued run left to do. -/
inductive QueuedStop
  | notQueued
  | stopped
  | settleBeforeStart
deriving DecidableEq, Repr

namespace InteractionView

/-- A Stop that has not failed. -/
def stopPending (view : InteractionView) : Bool :=
  view.stopRequested ∧ view.stopError.isNone

/-- The run waits for capacity, durably. -/
def queuedForCapacity (view : InteractionView) : Bool :=
  view.completionStatus = .queued ∧ view.waitingForCapacity

end InteractionView

namespace ProductStore

variable (store : ProductStore) (run : InteractionId)

/-- The run carries a Stop that has not failed. -/
def stopPending : Bool :=
  (store.stopRequests run).any fun request => request.error.isNone

/-- The run's row waits for capacity. -/
def waitsForCapacity : Bool :=
  (store.interactions run).any fun row =>
    row.completionStatus = .queued ∧ store.capacityWaits run

def getInteraction : StorageResult InteractionView := do
  let row ← orThrow (store.interactions run) (.notFound "interaction")
  return {
    completionStatus := row.completionStatus
    waitingForCapacity :=
      row.completionStatus = .queued ∧ store.capacityWaits run
    stopRequested := (store.stopRequests run).isSome
    stopError := (store.stopRequests run).bind StopRequestRow.error }

/-! ## Waiting for capacity -/

/-- Puts a run whose start was claimed into the wait for capacity. -/
def queueRunForCapacity : StorageResult (Bool × ProductStore) := do
  match ← store.updateInteraction run
      (fun row =>
        row.completionStatus = .submitted ∧ ¬ store.stopPending run ∧
          store.onNativeThread row)
      (fun row => { row with completionStatus := .queued }) with
  | some queued =>
      return (true,
        { queued with
          capacityWaits := Function.update queued.capacityWaits run true })
  | none => return (false, store)

/-- Claims a run waiting for capacity, to start it. -/
def claimCapacityRun : StorageResult (Bool × ProductStore) := do
  let claimed ← store.updateInteraction run
    (fun row => row.completionStatus = .queued ∧ store.capacityWaits run)
    (fun row =>
      { row with completionStatus := .submitted, completionError := none })
  let after := claimed.getD store
  return (claimed.isSome,
    { after with
      capacityWaits := Function.update after.capacityWaits run false })

/-- `QUEUED_RUN_STOPPED`. -/
def queuedRunStopped : String := "Stopped before it started."

/-- Ends stopped a claimed run that never started and carries a Stop. -/
def stopUnstartedRun : StorageResult (Bool × ProductStore) :=
  store.affected <$> store.updateInteraction run
    (fun row =>
      row.completionStatus = .submitted ∧ row.graphNodeId.isNone ∧
        store.stopPending run)
    (fun row =>
      { row with
        completionStatus := .stopped
        completionError := some queuedRunStopped })

/-! ## Waiting behind a node -/

/-- Puts a run that has not started into its node's queue. -/
def queueNodeRun : StorageResult (Bool × ProductStore) :=
  store.affected <$> store.updateInteraction run
    (fun row =>
      row.completionStatus ∈ [.notStarted, .submitted] ∧
        (store.nodeRuns run).isSome ∧ (store.stopRequests run).isNone)
    (fun row => { row with completionStatus := .queued })

/-- Claims a run queued behind its node, to start it. -/
def claimQueuedNodeRun : StorageResult (Bool × ProductStore) :=
  store.affected <$> store.updateInteraction run
    (fun row => row.completionStatus = .queued ∧ ¬ store.capacityWaits run)
    (fun row =>
      { row with completionStatus := .submitted, completionError := none })

/-! ## Stops -/

/-- Only the agent that launched a child may stop it. -/
def launchedByAgent : Bool :=
  (store.executions.lookup run).isSome ∨ store.agentInvoked run

/-- The graph has prepared the run's call. -/
def graphPrepared (row : InteractionRow) : Bool :=
  row.graphNodeId.isSome ∨
    store.actionInvocations.any fun invocation =>
      invocation.resultInteractionId = run ∧
        invocation.preparedGraphNodeId.isSome

/-- The store with a Stop of the run, which forgets an earlier failure. -/
def withStopRequest : ProductStore :=
  { store with
    stopRequests := Function.update store.stopRequests run (some ⟨none⟩) }

/-- The store without a wait for capacity of the run. -/
def withoutCapacityWait : ProductStore :=
  { store with
    capacityWaits := Function.update store.capacityWaits run false }

def requestInteractionStop (thread : ThreadId) :
    StorageResult (QueuedStop × ProductStore) :=
  match store.interactions run with
  | none => .error (.catalog "no_active_run"
      "This interaction has no active product run to stop.")
  | some row => do
      require (¬ (row.threadId = thread ∧ store.launchedByAgent run))
        (.catalog "agent_child_stop"
          "Only the agent that launched this child can stop it.")
      if row.threadId = thread ∧ row.completionStatus = .queued ∧
          store.onNativeThread row then
        if store.graphPrepared run row then
          let submitted ← store.updateInteraction run
            (fun row => row.completionStatus = .queued)
            (fun row =>
              { row with
                completionStatus := .submitted
                completionError := none })
          return (.settleBeforeStart,
            ((submitted.getD store).withoutCapacityWait run).withStopRequest run)
        else
          let stopped ← store.updateInteraction run
            (fun row => row.completionStatus = .queued)
            (fun row =>
              { row with
                completionStatus := .stopped
                completionError := some queuedRunStopped })
          return (.stopped, (stopped.getD store).withoutCapacityWait run)
      else if row.threadId = thread ∧
          row.completionStatus ∈ [.submitted, .running, .waitingForApproval] ∧
          store.onNativeThread row ∧
          (store.executions.lookup run).isNone then
        return (.notQueued, store.withStopRequest run)
      else
        require
          (row.threadId = thread ∧
            row.completionStatus ∈ [.accepted, .stopped, .failed] ∧
            store.onNativeThread row ∧
            (store.executions.lookup run).isNone)
          (.catalog "no_active_run"
            "This interaction has no active product run to stop.")
        return (.notQueued, store)

/-- `record_stop_error`: the Stop has failed. -/
def recordStopError (error : String) : ProductStore :=
  { store with
    stopRequests :=
      Function.update store.stopRequests run
        ((store.stopRequests run).map fun _ => ⟨some error⟩) }

/-- `finish_interaction_stopped`: a Stop settles its run. -/
def finishInteractionStopped (timestamp : String) :
    StorageResult ProductStore := do
  let changed ← store.updateInteraction run
    (fun row =>
      row.completionStatus ∈ [.submitted, .running, .waitingForApproval])
    (fun row =>
      { row with
        completionStatus := .stopped
        completionError := some "Stopped. Send a follow-up to continue." })
  let stopped ← orThrow changed
    (conflict "Interaction is no longer active while settling Stop.")
  return { stopped with
    attempts := stopped.attempts.map fun attempt =>
      if runsAttemptOf run attempt then
        { attempt with
          outcome := .cancelled
          finishedAt := some timestamp
          failureCategory := some "cancelled_by_user"
          effectBoundary := "unknown" }
      else
        attempt }

/-! ## Columns the queues care about -/

/-- The columns of one run the queues read are the same in both stores. -/
def SameRun (store store' : ProductStore) (run : InteractionId) : Prop :=
  store'.interactions run = store.interactions run ∧
    store'.stopRequests run = store.stopRequests run ∧
    store'.capacityWaits run = store.capacityWaits run

end ProductStore

end RelayerGraph
