import RelayerGraph.Product.RunStatements
import RelayerGraph.Foundation.Interference

/-!
# The limit on runs a person started

At most `limit` runs hold a slot; above it a run waits, and waiting runs start
first in, first out.  Who holds a slot and who waits is live state under one
lock; the reason a run waits is durable.  An admission or a release holds the
lock throughout, calls the store in between, and leaves the slots it reached
even when a call failed.

A waiter is told through a channel whose other end may be gone.  What the
channel says is an answer from outside.
-/

namespace RelayerGraph

open Foundation

/-- The store's part in admissions and releases. -/
inductive CapacityCall
  | getInteraction (run : InteractionId)
  | queueRunForCapacity (run : InteractionId)
  | claimCapacityRun (run : InteractionId)

abbrev capacityInterface : Interface where
  Call := CapacityCall
  Answer
    | .getInteraction _ => InteractionView
    | .queueRunForCapacity _ => Bool
    | .claimCapacityRun _ => Bool

abbrev CapacityProgram := Program capacityInterface StorageError

/-- `Slots`: runs holding a slot with their admissions, and runs waiting for
one, oldest first. -/
structure Slots where
  executing : AList fun _ : InteractionId => ℕ
  waiting : List InteractionId

inductive CapacityAdmission
  | start
  | waiting
  | alreadyWaiting
  | uncounted
deriving DecidableEq, Repr

/-- What a release returns, the slots it leaves, and the waiting runs it
reported as gone before they could start. -/
structure SlotRelease where
  answer : StorageResult (Option InteractionId)
  slots : Slots
  gone : List InteractionId

namespace Slots

variable (limit : ℕ) (slots : Slots) (run : InteractionId)

/-- The run takes a slot with its first admission. -/
def started : Slots :=
  { slots with executing := slots.executing.insert run 1 }

/-- The run joins the end of the wait. -/
def queued : Slots :=
  { slots with waiting := slots.waiting ++ [run] }

/-- A free slot: the run takes it, unless it carries a Stop.  A wait an earlier
admission made durable is claimed back first. -/
def admitToFreeSlot : CapacityProgram (StorageResult CapacityAdmission × Slots) :=
  .call (.getInteraction run) fun
    | .error error => .done (.error error, slots)
    | .ok current =>
        if current.stopPending then
          .done (.ok .uncounted, slots)
        else if current.queuedForCapacity then
          .call (.claimCapacityRun run) fun
            | .ok true => .done (.ok .start, slots.started run)
            | .ok false => .done (.ok .uncounted, slots)
            | .error error =>
                -- The claim may have landed though it reported failure.
                .call (.getInteraction run) fun
                  | .error error' => .done (.error error', slots)
                  | .ok reread =>
                      if reread.completionStatus ≠ .submitted then
                        .done (.error error, slots)
                      else if reread.stopPending then
                        .done (.ok .uncounted, slots)
                      else
                        .done (.ok .start, slots.started run)
        else
          .done (.ok .start, slots.started run)

/-- No free slot: the run waits, or adopts a wait already durable. -/
def admitToWait : CapacityProgram (StorageResult CapacityAdmission × Slots) :=
  .call (.queueRunForCapacity run) fun
    | .error error => .done (.error error, slots)
    | .ok true => .done (.ok .waiting, slots.queued run)
    | .ok false =>
        .call (.getInteraction run) fun
          | .error error => .done (.error error, slots)
          | .ok current =>
              if current.queuedForCapacity then
                .done (.ok .waiting, slots.queued run)
              else
                .done (.ok .uncounted, slots)

/-- `RunCapacity::admit`. -/
def admitRun : CapacityProgram (StorageResult CapacityAdmission × Slots) :=
  match slots.executing.lookup run with
  | some admissions =>
      .done (.ok .start,
        { slots with
          executing := slots.executing.insert run (admissions + 1) })
  | none =>
      if run ∈ slots.waiting then
        .done (.ok .alreadyWaiting, slots)
      else if slots.executing.keys.length < limit ∧ slots.waiting = [] then
        slots.admitToFreeSlot run
      else
        slots.admitToWait run

/-- The slot of `run` passes to the first waiting run that can still start.
The loop ends with its slots when a call fails, and the caller retries. -/
def passOn (executing : AList fun _ : InteractionId => ℕ) :
    List InteractionId → List InteractionId → CapacityProgram SlotRelease
  | [], gone => .done ⟨.ok none, ⟨executing.erase run, []⟩, gone⟩
  | next :: rest, gone =>
      .ask fun closed =>
        if closed then
          passOn executing rest (gone ++ [next])
        else
          .call (.claimCapacityRun next) fun
            | .error error => .done ⟨.error error, ⟨executing, next :: rest⟩, gone⟩
            | .ok true =>
                .ask fun sent =>
                  if sent then
                    .done ⟨.ok (some next),
                      ⟨(executing.erase run).insert next 1, rest⟩, gone⟩
                  else
                    passOn executing rest (gone ++ [next])
            | .ok false =>
                .call (.getInteraction next) fun
                  | .error error =>
                      .done ⟨.error error, ⟨executing, next :: rest⟩, gone⟩
                  | .ok current =>
                      -- A grant committed earlier left the run `submitted`.
                      if current.completionStatus = .submitted ∧
                          ¬ current.stopPending then
                        .ask fun sent =>
                          if sent then
                            .done ⟨.ok (some next),
                              ⟨(executing.erase run).insert next 1, rest⟩, gone⟩
                          else
                            passOn executing rest (gone ++ [next])
                      else
                        passOn executing rest gone

/-- `RunCapacity::release`. -/
def release : CapacityProgram SlotRelease :=
  match slots.executing.lookup run with
  | none => .done ⟨.ok none, slots, []⟩
  | some admissions =>
      if admissions > 1 then
        .done ⟨.ok none,
          { slots with
            executing := slots.executing.insert run (admissions - 1) }, []⟩
      else
        passOn run slots.executing slots.waiting []

/-- `RunCapacity::forget`. -/
def forget : Slots :=
  { slots with waiting := slots.waiting.filter (· ≠ run) }

end Slots

/-! ## The store beside the slots -/

/-- A statement as a service serves it: an error leaves the store. -/
def served {α : Type} (store : ProductStore)
    (result : StorageResult (α × ProductStore)) : StorageResult α × ProductStore :=
  match result with
  | .ok (answer, store') => (.ok answer, store')
  | .error error => (.error error, store)

/-- What others do to the store meanwhile: Stops are requested, fail and settle
their runs; any other writer leaves the runs in `held` alone and puts no run
into the wait for capacity. -/
inductive RunMoves (held : List InteractionId) :
    ProductStore → ProductStore → Prop
  | stop {store store' thread run outcome} :
      store.requestInteractionStop run thread = .ok (outcome, store') →
      RunMoves held store store'
  | stopFailed (store run error) :
      RunMoves held store (store.recordStopError run error)
  | stopUnstarted {store store' run changed} :
      store.stopUnstartedRun run = .ok (changed, store') →
      RunMoves held store store'
  | stopSettled {store store' run timestamp} :
      store.finishInteractionStopped run timestamp = .ok store' →
      RunMoves held store store'
  | others {store store'} :
      (∀ run, store.SameRun store' run ∨
        (run ∉ held ∧ store'.waitsForCapacity run = false)) →
      RunMoves held store store'

/-- The store as admissions and releases find it. -/
def capacityService (held : List InteractionId) :
    Service capacityInterface StorageError ProductStore where
  serve
    | .getInteraction run, store => (store.getInteraction run, store)
    | .queueRunForCapacity run, store =>
        served store (store.queueRunForCapacity run)
    | .claimCapacityRun run, store => served store (store.claimCapacityRun run)
  interfere := RunMoves held

end RelayerGraph
