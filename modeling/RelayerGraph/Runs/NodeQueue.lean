import RelayerGraph.Product.RunStatements
import RelayerGraph.Foundation.Interference
import RelayerGraph.Foundation.OrderedMap

/-!
# The queue of runs on a node

Runs a person starts on one node run in the order they were created: while a
run holds its node, later ones wait.  A run takes its place when it is created,
before its call is prepared, and is ready once it waits durably as `queued`.
Which run holds a node is live state under one lock; an admission or a release
holds the lock throughout and calls the store in between.

A node is passed on by `release`, which walks the wait from its front.  Each
place it passes over has left the wait, so the walk is a recursion over the
wait itself.
-/

namespace RelayerGraph

open Foundation

/-! ## Live state -/

/-- The run holding a node, and how many requests of it are starting or
running.  `promoted`: one admission belongs to the request that arrived
waiting. -/
structure NodeHolder where
  run : InteractionId
  admissions : ℕ
  promoted : Bool
deriving DecidableEq

structure Waiter where
  run : InteractionId
  ready : Bool
deriving DecidableEq

/-- A place in a node's queue: creation order, sequence then id. -/
abbrev Position := ℤ ×ₗ ℤ

/-- The waiting places, from the front. -/
abbrev Places := OrderedMap Position Waiter

structure NodeState where
  holder : Option NodeHolder
  waiting : Places

/-- What joining its node's queue did for a run's request. -/
inductive Arrival
  | held
  | waiting
  | joined
deriving DecidableEq, Repr

inductive NodeAdmission
  | start
  | waiting
  | notQueued
deriving DecidableEq, Repr

/-- The store's part in admissions and releases. -/
inductive NodeCall
  | queueNodeRun (run : InteractionId)
  | getInteraction (run : InteractionId)
  | claimQueuedNodeRun (run : InteractionId)

abbrev nodeInterface : Interface where
  Call := NodeCall
  Answer
    | .queueNodeRun _ => Bool
    | .getInteraction _ => InteractionView
    | .claimQueuedNodeRun _ => Bool

abbrev NodeProgram := Program nodeInterface StorageError

namespace Places

variable (places : Places) (run : InteractionId)

def waits : Bool := places.entries.any fun place => place.2.run = run

/-- `remove_waiter`. -/
def removeWaiter : Places := places.retain fun place => place.2.run ≠ run

/-- Drops a run that is not ready.  A ready waiter is never dropped. -/
def dropUnready : Places :=
  places.retain fun place => place.2.run ≠ run ∨ place.2.ready

/-- The run waits durably as `queued`. -/
def markReady : Places :=
  places.mapValues fun waiter =>
    if waiter.run = run then { waiter with ready := true } else waiter

end Places

/-- A request joins the run that holds the node, unless it owns an admission:
it took the node, or was promoted to it. -/
def NodeHolder.admitRun (holder : NodeHolder) : Option Arrival → NodeHolder
  | some .held => holder
  | some .waiting =>
      if holder.promoted then
        { holder with promoted := false }
      else
        { holder with admissions := holder.admissions + 1 }
  | _ => { holder with admissions := holder.admissions + 1 }

namespace NodeState

/-- `NodeState::default`. -/
def free : NodeState := ⟨none, .empty⟩

/-- `NodeState::position`. -/
def position (run : InteractionId) (sequence : ℤ) : Position :=
  toLex (sequence, run.id.value)

variable (node : NodeState) (run : InteractionId)

/-- A run takes a node nothing holds. -/
def taken : NodeState := { node with holder := some ⟨run, 1, false⟩ }

/-! ## Arriving -/

/-- `arrive_locked`. -/
def arriveLocked (position : Position) : Arrival × NodeState :=
  match node.holder with
  | some holder =>
      if holder.run = run then
        (.held,
          { node with
            holder := some { holder with admissions := holder.admissions + 1 } })
      else if node.waiting.waits run then
        (.joined, node)
      else
        (.waiting,
          { node with waiting := node.waiting.insert position ⟨run, false⟩ })
  | none => (.held, node.taken run)

/-- `NodeRunQueue::arrive` at its node. -/
def arrive (sequence : ℤ) : Arrival × NodeState :=
  node.arriveLocked run (position run sequence)

/-- A resumed run's place: its own, or just after the last waiter. -/
def resumedPosition (sequence : ℤ) : Position :=
  match node.waiting.lastKey with
  | some last =>
      if position run sequence ≤ last then
        toLex ((ofLex last).1, (ofLex last).2 + 1)
      else
        position run sequence
  | none => position run sequence

/-- `NodeRunQueue::arrive_all` at its node. -/
def arriveAll (node : NodeState) :
    List (InteractionId × ℤ) → List Arrival × NodeState
  | [] => ([], node)
  | (run, sequence) :: rest =>
      let joined := node.arriveLocked run (node.resumedPosition run sequence)
      let others := joined.2.arriveAll rest
      (joined.1 :: others.1, others.2)

/-! ## Admitting -/

/-- The wait with the run in it, at its own position when it is new there. -/
def enqueued (sequence : ℤ) : Places :=
  if node.waiting.waits run then
    node.waiting
  else
    node.waiting.insert (position run sequence) ⟨run, false⟩

/-- The wait an admission leaves when the store failed: a waiter it added is
taken out again. -/
def unqueued (sequence : ℤ) : Places :=
  if node.waiting.waits run then
    node.waiting
  else
    (node.enqueued run sequence).removeWaiter run

/-- Another run holds the node: the run waits behind it, once it is durably
`queued`. -/
def admitToWait (sequence : ℤ) :
    NodeProgram (StorageResult NodeAdmission × NodeState) :=
  let failed (error : StorageError) :
      NodeProgram (StorageResult NodeAdmission × NodeState) :=
    .done (.error error, { node with waiting := node.unqueued run sequence })
  let ready : NodeProgram (StorageResult NodeAdmission × NodeState) :=
    .done (.ok .waiting,
      { node with waiting := (node.enqueued run sequence).markReady run })
  .call (.queueNodeRun run) fun
    | .error error => failed error
    | .ok true => ready
    | .ok false =>
        -- A duplicate request of this run may have queued it already.
        .call (.getInteraction run) fun
          | .error error => failed error
          | .ok current =>
              if current.completionStatus = .queued then
                ready
              else
                .done (.ok .notQueued,
                  { node with
                    waiting := (node.enqueued run sequence).dropUnready run })

/-- `NodeRunQueue::admit` at its node. -/
def admitRun (sequence : ℤ) (arrival : Option Arrival) :
    NodeProgram (StorageResult NodeAdmission × NodeState) :=
  match node.holder with
  | some holder =>
      if holder.run = run then
        .done (.ok .start, { node with holder := some (holder.admitRun arrival) })
      else
        node.admitToWait run sequence
  | none =>
      .done (.ok .start,
        NodeState.taken { node with waiting := node.waiting.removeWaiter run }
          run)

/-! ## Releasing -/

/-- The walk of `release` along the wait.  It answers a ready run it claimed,
promotes a run that still prepares, and skips a run that left the queue; a
failed claim leaves the node with its holder. -/
def passOn (holder : NodeHolder) :
    (places : List (Position × Waiter)) →
    (places.Pairwise fun e f => e.1 < f.1) →
    NodeProgram (StorageResult (Option InteractionId) × Option NodeState)
  | [], _ => .done (.ok none, none)
  | (position, waiter) :: rest, hsorted =>
      have hrest := (List.pairwise_cons.mp hsorted).2
      if waiter.ready then
        .call (.claimQueuedNodeRun waiter.run) fun
          | .error error =>
              .done (.error error,
                some ⟨some holder, ⟨(position, waiter) :: rest, hsorted⟩⟩)
          | .ok true =>
              .done (.ok (some waiter.run),
                some ⟨some ⟨waiter.run, 1, false⟩, ⟨rest, hrest⟩⟩)
          | .ok false => passOn holder rest hrest
      else
        .done (.ok none, some ⟨some ⟨waiter.run, 1, true⟩, ⟨rest, hrest⟩⟩)

/-- `NodeRunQueue::release` at its node. -/
def release (node : Option NodeState) (run : InteractionId) :
    NodeProgram (StorageResult (Option InteractionId) × Option NodeState) :=
  match node with
  | none => .done (.ok none, none)
  | some state =>
      match state.holder with
      | none => .done (.ok none, some state)
      | some holder =>
          if holder.run = run then
            if holder.admissions > 1 then
              .done (.ok none,
                some { state with
                  holder :=
                    some { holder with admissions := holder.admissions - 1 } })
            else
              passOn holder state.waiting.entries state.waiting.sorted
          else
            .done (.ok none, some state)

/-! ## Departing -/

/-- The first part of `depart`: whether it goes on to release the node. -/
def depart (node : Option NodeState) (run : InteractionId) (arrival : Arrival) :
    Bool × Option NodeState :=
  match node with
  | none => (false, none)
  | some state =>
      match arrival, state.holder.filter (·.run = run) with
      | .joined, _ => (false, some state)
      | .waiting, none =>
          (false, some { state with waiting := state.waiting.dropUnready run })
      | .waiting, some holder =>
          if holder.promoted then
            (true,
              some { state with holder := some { holder with promoted := false } })
          else
            -- The queue's dispatch owns this hold, not this request.
            (false, some state)
      | .held, _ => (true, some state)

/-- The last part of `depart`, when its release failed: the run still holds
its node for this request. -/
def restorePromotion (node : Option NodeState) (run : InteractionId) :
    Option NodeState :=
  node.map fun state =>
    { state with
      holder := state.holder.map fun holder =>
        if holder.run = run then { holder with promoted := true } else holder }

end NodeState

end RelayerGraph
