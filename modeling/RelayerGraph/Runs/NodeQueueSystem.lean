import RelayerGraph.Runs.NodeQueue
import RelayerGraph.Foundation.TransitionSystem

/-!
# Requests on the nodes' queues

Every request of a run joins its node's queue, or is admitted at once, and ends
by departing, by waiting as `queued`, or by releasing the node it was told to
start on.  A release may dispatch a queued run, which then owes a release of
its own.  Requests of any number of runs interleave; `depart` gives the lock up
between its parts.

The store remembers, beside its rows, the runs claims took out of the queue, and
the runs a Stop took out of it since they were last queued.
-/

namespace RelayerGraph

open Foundation

/-- The run's row waits as `queued` behind its node. -/
def ProductStore.queuedBehindNode (store : ProductStore)
    (run : InteractionId) : Bool :=
  (store.interactions run).any fun row =>
    row.completionStatus = .queued ∧ ¬ store.capacityWaits run

/-- The store with the history of its queued runs. -/
structure QueueStore where
  store : ProductStore
  claims : List InteractionId
  stops : List InteractionId

namespace QueueStore

/-- A claim that took its run out of the queue is remembered. -/
def claim (s : QueueStore) (run : InteractionId) :
    StorageResult Bool × QueueStore :=
  match s.store.claimQueuedNodeRun run with
  | .error error => (.error error, s)
  | .ok (true, store') => (.ok true, { s with
      store := store'
      claims := s.claims ++ [run] })
  | .ok (false, store') => (.ok false, { s with store := store' })

/-- A run that is queued anew has not been stopped since. -/
def queue (s : QueueStore) (run : InteractionId) :
    StorageResult Bool × QueueStore :=
  match s.store.queueNodeRun run with
  | .error error => (.error error, s)
  | .ok (true, store') => (.ok true, { s with
      store := store'
      stops := s.stops.filter (· ≠ run) })
  | .ok (false, store') => (.ok false, { s with store := store' })

def serve : (c : NodeCall) → QueueStore →
    Except StorageError (nodeInterface.Answer c) × QueueStore
  | .queueNodeRun run, s => s.queue run
  | .getInteraction run, s => (s.store.getInteraction run, s)
  | .claimQueuedNodeRun run, s => s.claim run

/-- The store after a Stop of the run, remembered when it took the run out of
the queue. -/
def stop (s : QueueStore) (run : InteractionId) (store' : ProductStore) :
    QueueStore where
  store := store'
  claims := s.claims
  stops :=
    if s.store.queuedBehindNode run ∧ ¬ store'.queuedBehindNode run then
      s.stops ++ [run]
    else
      s.stops

end QueueStore

/-- What others do to the store meanwhile.  Only a Stop changes a row that
waits behind its node, only an admission makes a row wait there, and a run
waits for capacity as `queued`, once a request of it was told to start. -/
inductive NodeMoves (mayWait : InteractionId → Prop) :
    QueueStore → QueueStore → Prop
  | stop {s : QueueStore} {run : InteractionId} {thread : ThreadId}
      {outcome : QueuedStop} {store' : ProductStore} :
      s.store.requestInteractionStop run thread = .ok (outcome, store') →
      NodeMoves mayWait s (s.stop run store')
  | others {s : QueueStore} {store' : ProductStore} :
      (∀ run,
        (store'.interactions run = s.store.interactions run ∧
          store'.capacityWaits run = s.store.capacityWaits run) ∨
        (s.store.queuedBehindNode run = false ∧
          store'.queuedBehindNode run = false ∧
          (store'.capacityWaits run = true →
            store'.waitsForCapacity run = true ∧ mayWait run))) →
      NodeMoves mayWait s { s with store := store' }

/-- The store as admissions and releases find it.  `ambiguous`: a call may
report an error although its statement took effect. -/
def nodeService (ambiguous : Bool) (mayWait : InteractionId → Prop) :
    Service nodeInterface StorageError QueueStore where
  serve := QueueStore.serve
  interfere := NodeMoves mayWait
  ambiguous c s := ambiguous = true ∨ (QueueStore.serve c s).2 = s

/-! ## Requests -/

/-- The node and the place in creation order each run was recorded with. -/
structure NodeRuns where
  key : InteractionId → NodeRunKey
  sequence : InteractionId → ℤ
  unique : ∀ run other, (key run).threadId = (key other).threadId →
    sequence run = sequence other → run = other

/-- Where a request stands. -/
inductive Standing
  | arrived (arrival : Arrival)
  /-- It ended before its run was admitted and is to release the node. -/
  | departing (arrival : Arrival)
  /-- That release failed; the promotion it used is to be restored. -/
  | restoring
  /-- It was told to start, or its run was dispatched, and owes a release. -/
  | started
deriving DecidableEq

structure Request where
  run : InteractionId
  standing : Standing
deriving DecidableEq

/-- The request of an admission, when it arrived first. -/
def arrivedRequest (run : InteractionId) : Option Arrival → Multiset Request
  | none => 0
  | some arrival => {⟨run, .arrived arrival⟩}

/-- What an admission leaves of its request. -/
def admittedRequest (run : InteractionId) (arrival : Option Arrival) :
    StorageResult NodeAdmission → Multiset Request
  | .ok .start => {⟨run, .started⟩}
  | .ok _ => 0
  | .error _ => arrivedRequest run arrival

/-- What a release leaves of its request, with the run it dispatched. -/
def releasedRequest (retry : Request) :
    StorageResult (Option InteractionId) → Multiset Request
  | .ok (some next) => {⟨next, .started⟩}
  | .ok none => 0
  | .error _ => {retry}

/-- How a departure whose release failed goes on. -/
def departRetry (run : InteractionId) : Arrival → Request
  | .waiting => ⟨run, .restoring⟩
  | arrival => ⟨run, .arrived arrival⟩

structure NodeQueueState where
  store : QueueStore
  nodes : NodeRunKey → Option NodeState
  requests : Multiset Request

inductive NodeEvent
  | arrived (run : InteractionId) (arrival : Arrival)
  | arrivedAll (key : NodeRunKey) (runs : List InteractionId)
      (arrivals : List Arrival)
  | admitted (run : InteractionId) (arrival : Option Arrival)
      (answer : StorageResult NodeAdmission)
  | gaveUp (run : InteractionId) (arrival : Arrival)
  | departed (run : InteractionId) (arrival : Arrival)
      (answer : StorageResult (Option InteractionId))
  | restored (run : InteractionId)
  | released (run : InteractionId)
      (answer : StorageResult (Option InteractionId))
  | moved

/-- The node under a key, `or_default`. -/
def NodeQueueState.nodeAt (s : NodeQueueState) (key : NodeRunKey) : NodeState :=
  (s.nodes key).getD .free

/-- A request of the run was told to start and has not released. -/
def mayWait (requests : Multiset Request) (run : InteractionId) : Prop :=
  (⟨run, .started⟩ : Request) ∈ requests

/-- The requests of runs that arrived together. -/
def arrivedTogether (runs : List InteractionId) (arrivals : List Arrival) :
    Multiset Request :=
  Multiset.ofList ((runs.zip arrivals).map fun joined =>
    { run := joined.1, standing := .arrived joined.2 })

/-- One step of some request, or a move of others. -/
inductive NodeStep (runs : NodeRuns) (ambiguous : Bool) :
    NodeQueueState → NodeEvent → NodeQueueState → Prop
  | arrive {s : NodeQueueState} {run : InteractionId} {arrival : Arrival}
      {node : NodeState} :
      (s.nodeAt (runs.key run)).arrive run (runs.sequence run) =
        (arrival, node) →
      NodeStep runs ambiguous s (.arrived run arrival)
        ⟨s.store, Function.update s.nodes (runs.key run) (some node),
          ⟨run, .arrived arrival⟩ ::ₘ s.requests⟩
  | arriveAll {s : NodeQueueState} {key : NodeRunKey}
      {chain : List InteractionId} {arrivals : List Arrival}
      {node : NodeState} :
      (∀ run ∈ chain, runs.key run = key) →
      (s.nodeAt key).arriveAll (chain.map fun run => (run, runs.sequence run)) =
        (arrivals, node) →
      NodeStep runs ambiguous s (.arrivedAll key chain arrivals)
        ⟨s.store, Function.update s.nodes key (some node),
          arrivedTogether chain arrivals + s.requests⟩
  | admitRun {s : NodeQueueState} {run : InteractionId} {arrival : Option Arrival}
      {rest : Multiset Request} {answer : StorageResult NodeAdmission}
      {node : NodeState} {passed : List QueueStore} {store' : QueueStore} :
      s.requests = arrivedRequest run arrival + rest →
      (nodeService ambiguous (mayWait rest)).Runs
        ((s.nodeAt (runs.key run)).admitRun run (runs.sequence run) arrival)
        s.store passed (answer, node) store' →
      NodeStep runs ambiguous s (.admitted run arrival answer)
        ⟨store', Function.update s.nodes (runs.key run) (some node),
          admittedRequest run arrival answer + rest⟩
  | giveUp {s : NodeQueueState} {run : InteractionId} {arrival : Arrival}
      {rest : Multiset Request} {owns : Bool} {node : Option NodeState} :
      s.requests = ⟨run, .arrived arrival⟩ ::ₘ rest →
      NodeState.depart (s.nodes (runs.key run)) run arrival = (owns, node) →
      NodeStep runs ambiguous s (.gaveUp run arrival)
        ⟨s.store, Function.update s.nodes (runs.key run) node,
          if owns then ⟨run, .departing arrival⟩ ::ₘ rest else rest⟩
  | depart {s : NodeQueueState} {run : InteractionId} {arrival : Arrival}
      {rest : Multiset Request}
      {answer : StorageResult (Option InteractionId)}
      {node : Option NodeState} {passed : List QueueStore}
      {store' : QueueStore} :
      s.requests = ⟨run, .departing arrival⟩ ::ₘ rest →
      (nodeService ambiguous (mayWait rest)).Runs
        (NodeState.release (s.nodes (runs.key run)) run) s.store passed
        (answer, node) store' →
      NodeStep runs ambiguous s (.departed run arrival answer)
        ⟨store', Function.update s.nodes (runs.key run) node,
          releasedRequest (departRetry run arrival) answer + rest⟩
  | restore {s : NodeQueueState} {run : InteractionId}
      {rest : Multiset Request} :
      s.requests = ⟨run, .restoring⟩ ::ₘ rest →
      NodeStep runs ambiguous s (.restored run)
        ⟨s.store,
          Function.update s.nodes (runs.key run)
            (NodeState.restorePromotion (s.nodes (runs.key run)) run),
          ⟨run, .arrived .waiting⟩ ::ₘ rest⟩
  | release {s : NodeQueueState} {run : InteractionId}
      {rest : Multiset Request}
      {answer : StorageResult (Option InteractionId)}
      {node : Option NodeState} {passed : List QueueStore}
      {store' : QueueStore} :
      s.requests = ⟨run, .started⟩ ::ₘ rest →
      -- A request releases once its run has settled, or while another request
      -- of the run waits for capacity.
      (s.store.store.capacityWaits run = true → mayWait rest run) →
      (nodeService ambiguous (mayWait rest)).Runs
        (NodeState.release (s.nodes (runs.key run)) run) s.store passed
        (answer, node) store' →
      NodeStep runs ambiguous s (.released run answer)
        ⟨store', Function.update s.nodes (runs.key run) node,
          releasedRequest ⟨run, .started⟩ answer + rest⟩
  | move {s : NodeQueueState} {store' : QueueStore} :
      NodeMoves (mayWait s.requests) s.store store' →
      NodeStep runs ambiguous s .moved ⟨store', s.nodes, s.requests⟩

/-- A process starts with free nodes, no request and no run that waits. -/
def nodeQueueSystem (runs : NodeRuns) (ambiguous : Bool) :
    TransitionSystem NodeQueueState NodeEvent where
  init s :=
    s.nodes = (fun _ => none) ∧ s.requests = 0 ∧ s.store.claims = [] ∧
      s.store.stops = [] ∧
      ∀ run, s.store.store.queuedBehindNode run = false ∧
        s.store.store.capacityWaits run = false
  step := NodeStep runs ambiguous

end RelayerGraph
