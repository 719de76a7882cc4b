import RelayerGraph.Foundation.TransitionSystem

/-!
# Refreshing the model catalog

The service that refreshes the model catalog of each provider.  A refresh is a
link of its provider's chain: it waits for the link before it, discovers a
snapshot through the provider's adapter, and publishes it.  Callers wait for a
link, join one that is under way, and leave it when their signal aborts; the
link itself is aborted when the last of them has left, or when the service
closes.
-/

namespace RelayerGraph

open Foundation

namespace CatalogRefresh

inductive Reason where
  | startup
  | background
  | providerChange
  | settingsOpen
  | explicit
  | preInference
  | recovery
deriving DecidableEq

/-- What the service is given: how a discovery is read and published, which
errors are tried again or mean that the connection was superseded, and whether
connection generations are wired. -/
structure Setup (ρ σ τ ε : Type) where
  sanitizeModelCatalogSnapshot : ρ → Except ε σ
  toProductCatalogSnapshot : σ → τ
  isRetryableProviderError : ε → Bool
  isConnectionSuperseded : ε → Bool
  attempts : ℕ
  attempts_pos : 0 < attempts
  connectionGenerations : Bool

inductive Failure (ε : Type) where
  | thrown (error : ε)
  | aborted
deriving DecidableEq

/-- How a refresh ends: with its snapshot, with null, or with an error. -/
inductive Result (σ ε : Type) where
  | snapshot (snapshot : σ)
  | superseded
  | failed (failure : Failure ε)
deriving DecidableEq

/-- Where a refresh stands.  Its adapter and its generation are those it found
when it began. -/
inductive Phase (α σ ε : Type) where
  | queued
  | discovering (adapter : α) (generation : Option ℕ) (attempt : ℕ)
  | sleeping (adapter : α) (generation : Option ℕ) (attempt : ℕ)
  | diagnosing (failure : Failure ε)
  | publishing (snapshot : σ)
  | resyncing
  | ended (result : Result σ ε)
  | settled (result : Result σ ε)
deriving DecidableEq

/-- An entry of a provider's queue. -/
structure Entry (π α σ ε : Type) where
  providerId : π
  reason : Reason
  previous : Option ℕ
  phase : Phase α σ ε
  aborted : Bool
deriving DecidableEq

/-- What a caller got. -/
inductive Outcome (σ ε : Type) where
  | settled (result : Result σ ε)
  | ownAbort
deriving DecidableEq

/-- A caller, who waits for an entry until there is an outcome. -/
structure Caller (σ ε : Type) where
  entry : ℕ
  outcome : Option (Outcome σ ε)
deriving DecidableEq

/-- What the service does to the outside. -/
inductive Effect (α τ : Type) where
  | discovery (entry : ℕ) (adapter : α) (generation : Option ℕ)
  | publication (entry : ℕ) (snapshot : τ) (generation : Option ℕ)
deriving DecidableEq

def Effect.entry {α τ : Type} : Effect α τ → ℕ
  | .discovery entry _ _ => entry
  | .publication entry _ _ => entry

/-- The service, with all entries and callers it ever had, what it did, and how
many entries it had when it was closed. -/
structure Service (π α σ τ ε : Type) where
  adapters : π → Option α
  generations : π → Option ℕ
  entries : List (Entry π α σ ε)
  refreshQueues : π → Option ℕ
  callers : List (Caller σ ε)
  effects : List (Effect α τ)
  closed : Option ℕ

variable {π α ρ σ τ ε : Type} [DecidableEq π]

def Service.empty : Service π α σ τ ε :=
  ⟨fun _ => none, fun _ => none, [], fun _ => none, [], [], none⟩

/-! ## Parts of the operations -/

def Entry.setPhase (entry : Entry π α σ ε) (phase : Phase α σ ε) :
    Entry π α σ ε :=
  { entry with phase := phase }

def Entry.abort (entry : Entry π α σ ε) : Entry π α σ ε :=
  { entry with aborted := true }

def Phase.isSettled : Phase α σ ε → Bool
  | .settled _ => true
  | _ => false

/-- The callers that still wait for an entry. -/
def Service.waiters (s : Service π α σ τ ε) (e : ℕ) : List (Caller σ ε) :=
  s.callers.filter fun caller => caller.entry == e && caller.outcome.isNone

def Service.setPhase (s : Service π α σ τ ε) (e : ℕ) (phase : Phase α σ ε) :
    Service π α σ τ ε :=
  { s with entries := s.entries.modify e (·.setPhase phase) }

def Service.setAborted (s : Service π α σ τ ε) (e : ℕ) : Service π α σ τ ε :=
  { s with entries := s.entries.modify e Entry.abort }

def Service.effect (s : Service π α σ τ ε) (effect : Effect α τ) :
    Service π α σ τ ε :=
  { s with effects := s.effects ++ [effect] }

def Service.wait (s : Service π α σ τ ε) (e : ℕ) : Service π α σ τ ε :=
  { s with callers := s.callers ++ [⟨e, none⟩] }

variable (setup : Setup ρ σ τ ε)

/-- The provider's connection generation now; none also where no source is
wired. -/
def Service.generation (s : Service π α σ τ ε) (providerId : π) : Option ℕ :=
  if setup.connectionGenerations then s.generations providerId else none

/-- Call the adapter's discovery. -/
def Service.discover (s : Service π α σ τ ε) (e : ℕ) (adapter : α)
    (generation : Option ℕ) (attempt : ℕ) : Service π α σ τ ε :=
  (s.setPhase e (.discovering adapter generation attempt)).effect
    (.discovery e adapter generation)

/-! ## The steps -/

/-- Add a link to the provider's chain, with its caller. -/
def Service.add (s : Service π α σ τ ε) (providerId : π) (reason : Reason) :
    Service π α σ τ ε :=
  let entry : Entry π α σ ε :=
    ⟨providerId, reason, s.refreshQueues providerId, .queued, false⟩
  let added : Service π α σ τ ε := { s with
    entries := s.entries ++ [entry]
    refreshQueues := Function.update s.refreshQueues providerId
      (some s.entries.length) }
  added.wait s.entries.length

/-- A call of `refresh` whose signal is not aborted yet, for a provider with an
adapter.  An inference joins the refresh under way. -/
def Service.refresh (s : Service π α σ τ ε) (providerId : π) (reason : Reason) :
    Service π α σ τ ε :=
  let inFlight := s.refreshQueues providerId
  let joined := inFlight.filter fun e =>
    reason = .preInference ∧
      (s.entries[e]?.any fun entry => !entry.aborted) = true
  match joined with
  | some e => s.wait e
  | none => s.add providerId reason

/-- The refresh runs, once the one before it has settled. -/
def Service.begin (s : Service π α σ τ ε) (e : ℕ) (entry : Entry π α σ ε) :
    Service π α σ τ ε :=
  if entry.aborted then s.setPhase e (.ended (.failed .aborted))
  else
    match s.adapters entry.providerId with
    | none => s.setPhase e (.ended .superseded)
    | some adapter =>
        if setup.connectionGenerations &&
            (s.generations entry.providerId).isNone then
          s.setPhase e (.ended .superseded)
        else s.discover e adapter (s.generation setup entry.providerId) 1

/-- The discovery has returned a value. -/
def Service.discovered (s : Service π α σ τ ε) (e : ℕ) (entry : Entry π α σ ε)
    (generation : Option ℕ) (value : ρ) : Service π α σ τ ε :=
  match setup.sanitizeModelCatalogSnapshot value with
  | .error error => s.setPhase e (.diagnosing (.thrown error))
  | .ok snapshot =>
      if entry.aborted then s.setPhase e (.ended (.failed .aborted))
      else if s.generation setup entry.providerId ≠ generation then
        s.setPhase e (.ended .superseded)
      else (s.setPhase e (.publishing snapshot)).effect
        (.publication e (setup.toProductCatalogSnapshot snapshot) generation)

/-- The discovery has thrown. -/
def Service.discoveryFailed (s : Service π α σ τ ε) (e : ℕ)
    (entry : Entry π α σ ε) (adapter : α) (generation : Option ℕ)
    (attempt : ℕ) (error : ε) : Service π α σ τ ε :=
  if entry.aborted then s.setPhase e (.diagnosing .aborted)
  else if attempt = setup.attempts ∨
      setup.isRetryableProviderError error = false then
    s.setPhase e (.diagnosing (.thrown error))
  else s.setPhase e (.sleeping adapter generation attempt)

/-- The pause before the next attempt is over, or its signal aborted. -/
def Service.wake (s : Service π α σ τ ε) (e : ℕ) (entry : Entry π α σ ε)
    (adapter : α) (generation : Option ℕ) (attempt : ℕ) : Service π α σ τ ε :=
  if entry.aborted then s.setPhase e (.diagnosing .aborted)
  else s.discover e adapter generation (attempt + 1)

/-- The publication was accepted. -/
def Service.published (s : Service π α σ τ ε) (e : ℕ) (entry : Entry π α σ ε)
    (snapshot : σ) : Service π α σ τ ε :=
  s.setPhase e (.ended
    (if entry.aborted then .failed .aborted else .snapshot snapshot))

/-- The publication was refused. -/
def Service.publicationFailed (s : Service π α σ τ ε) (e : ℕ) (error : ε) :
    Service π α σ τ ε :=
  if setup.isConnectionSuperseded error then s.setPhase e .resyncing
  else s.setPhase e (.ended (.failed (.thrown error)))

/-- The operation has settled: it leaves the queue if it is the last there. -/
def Service.settle (s : Service π α σ τ ε) (e : ℕ) (entry : Entry π α σ ε)
    (result : Result σ ε) : Service π α σ τ ε :=
  let s' := s.setPhase e (.settled result)
  if s.refreshQueues entry.providerId = some e then
    { s' with
      refreshQueues := Function.update s.refreshQueues entry.providerId none }
  else s'

/-- A waiting caller's signal aborts.  The refresh is aborted when nobody waits
for it any more. -/
def Service.abortCaller (s : Service π α σ τ ε) (c : ℕ) (caller : Caller σ ε) :
    Service π α σ τ ε :=
  let left : Service π α σ τ ε :=
    { s with callers := s.callers.set c ⟨caller.entry, some .ownAbort⟩ }
  if (s.entries[caller.entry]?.any fun entry => !entry.phase.isSettled) ∧
      left.waiters caller.entry = [] then
    left.setAborted caller.entry
  else left

/-- Close the service: what each queue remembers is aborted. -/
def Service.close (s : Service π α σ τ ε) : Service π α σ τ ε :=
  { s with
    entries := s.entries.mapIdx fun e entry =>
      if s.refreshQueues entry.providerId = some e then entry.abort else entry
    closed := s.closed <|> some s.entries.length }

inductive Label (π α ρ ε : Type) where
  | register (providerId : π) (adapter : α)
  | unregister (providerId : π)
  | connect (providerId : π) (generation : Option ℕ)
  | refresh (providerId : π) (reason : Reason)
  | begin (e : ℕ)
  | discovered (e : ℕ) (value : ρ)
  | discoveryFailed (e : ℕ) (error : ε)
  | wake (e : ℕ)
  | diagnosed (e : ℕ)
  | published (e : ℕ)
  | publicationFailed (e : ℕ) (error : ε)
  | publicationAborted (e : ℕ)
  | resynced (e : ℕ)
  | settle (e : ℕ)
  | deliver (c : ℕ)
  | abortCaller (c : ℕ)
  | close
deriving DecidableEq

def Label.isClose : Label π α ρ ε → Bool
  | .close => true
  | _ => false

/-- The entry that a step is about stands in a phase that the step takes up. -/
def Service.advance (s : Service π α σ τ ε) (e : ℕ)
    (take : Entry π α σ ε → Option (Service π α σ τ ε)) :
    Option (Service π α σ τ ε) :=
  s.entries[e]?.bind take

/-- The refresh before an entry, if any, has settled. -/
def Service.previousSettled (s : Service π α σ τ ε) (entry : Entry π α σ ε) :
    Bool :=
  entry.previous.all fun e =>
    s.entries[e]?.any fun previous => previous.phase.isSettled

def Service.next [DecidableEq α] (s : Service π α σ τ ε) :
    Label π α ρ ε → Option (Service π α σ τ ε)
  | .register providerId adapter =>
      match s.adapters providerId with
      | none => some { s with
          adapters := Function.update s.adapters providerId (some adapter) }
      | some existing => if existing = adapter then some s else none
  | .unregister providerId => some { s with
      adapters := Function.update s.adapters providerId none }
  | .connect providerId generation => some { s with
      generations := Function.update s.generations providerId generation }
  | .refresh providerId reason =>
      if (s.adapters providerId).isSome then some (s.refresh providerId reason)
      else none
  | .begin e => s.advance e fun entry =>
      match entry.phase with
      | .queued => if s.previousSettled entry then some (s.begin setup e entry)
          else none
      | _ => none
  | .discovered e value => s.advance e fun entry =>
      match entry.phase with
      | .discovering _ generation _ =>
          some (s.discovered setup e entry generation value)
      | _ => none
  | .discoveryFailed e error => s.advance e fun entry =>
      match entry.phase with
      | .discovering adapter generation attempt =>
          some (s.discoveryFailed setup e entry adapter generation attempt
            error)
      | _ => none
  | .wake e => s.advance e fun entry =>
      match entry.phase with
      | .sleeping adapter generation attempt =>
          some (s.wake e entry adapter generation attempt)
      | _ => none
  | .diagnosed e => s.advance e fun entry =>
      match entry.phase with
      | .diagnosing failure => some (s.setPhase e (.ended (.failed failure)))
      | _ => none
  | .published e => s.advance e fun entry =>
      match entry.phase with
      | .publishing snapshot => some (s.published e entry snapshot)
      | _ => none
  | .publicationFailed e error => s.advance e fun entry =>
      match entry.phase with
      | .publishing _ => some (s.publicationFailed setup e error)
      | _ => none
  | .publicationAborted e => s.advance e fun entry =>
      match entry.phase with
      | .publishing _ =>
          if entry.aborted then
            some (s.setPhase e (.ended (.failed .aborted)))
          else none
      | _ => none
  | .resynced e => s.advance e fun entry =>
      match entry.phase with
      | .resyncing => some (s.setPhase e (.ended .superseded))
      | _ => none
  | .settle e => s.advance e fun entry =>
      match entry.phase with
      | .ended result => some (s.settle e entry result)
      | _ => none
  | .deliver c => s.callers[c]?.bind fun caller =>
      s.advance caller.entry fun entry =>
        match entry.phase, caller.outcome with
        | .settled result, none => some { s with
            callers := s.callers.set c
              ⟨caller.entry, some (.settled result)⟩ }
        | _, _ => none
  | .abortCaller c => s.callers[c]?.bind fun caller =>
      if caller.outcome.isNone then some (s.abortCaller c caller) else none
  | .close => some s.close

/-- The service from its construction, with every interleaving of calls, of
changes outside and of what was awaited. -/
def refreshSystem [DecidableEq α] :
    TransitionSystem (Service π α σ τ ε) (Label π α ρ ε) where
  init s := s = Service.empty
  step s label t := s.next setup label = some t

end CatalogRefresh

end RelayerGraph
