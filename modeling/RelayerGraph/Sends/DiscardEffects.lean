import RelayerGraph.Sends.Discards

/-!
# What a discard takes away

A discard ought to remove one interaction that never ran.  Its statements
follow the foreign keys of everything that hangs off the interaction, and
attempts hang off it as well: nothing is lost exactly when none is recorded.
-/

namespace RelayerGraph

open Foundation Checked

namespace SendDatabase

/-- The store a call leaves behind: one that fails is rolled back. -/
def afterCall (db : SendDatabase) :
    SendResult (Bool × SendDatabase) → SendDatabase
  | .ok (_, stored) => stored
  | .error _ => db

/-- The call returned true. -/
def reportedTrue : SendResult (Bool × SendDatabase) → Bool
  | .ok (reported, _) => reported
  | .error _ => false

/-- The turn has no recorded attempt. -/
def Unattempted (db : SendDatabase) (turn : TurnId) : Prop :=
  ∀ id attempt, db.catalog.attempts.get? id = some attempt →
    attempt.turn ≠ turn

/-! ## The rows of other interactions -/

/-- Between the stores only the turn, the rows that reference it and the
`updated_at` of its thread differ. -/
structure OnlyOwnRows (db : SendDatabase) (turn : TurnId)
    (db' : SendDatabase) : Prop where
  catalog : db.catalog.SameCatalog db'.catalog
  threads : db'.catalog.threads = db.catalog.threads
  createdAt : ∀ thread, (db'.threadTimes.get? thread).map ThreadTimes.createdAt =
    (db.threadTimes.get? thread).map ThreadTimes.createdAt
  updatedAt : ∀ thread,
    (∀ row, db.catalog.turns.get? turn = some row → row.threadId ≠ thread) →
    db'.threadTimes.get? thread = db.threadTimes.get? thread
  turns : ∀ other, other ≠ turn →
    db'.catalog.turns.get? other = db.catalog.turns.get? other
  sends : ∀ other, other ≠ turn → db'.sends other = db.sends other
  invocations : db'.catalog.invocations.filter
      (fun invocation => !db.invocationOf turn invocation) =
    db.catalog.invocations.filter
      fun invocation => !db.invocationOf turn invocation
  invocationSources : ∀ result, result ≠ turn →
    db.invocationSources result ≠ some turn →
    db'.invocationSources result = db.invocationSources result
  submittedInputs : ∀ other, other ≠ turn →
    db'.catalog.submittedInputs other = db.catalog.submittedInputs other
  executionPhases : ∀ other, other ≠ turn →
    db'.catalog.executionPhases other = db.catalog.executionPhases other
  stopRequests : ∀ other, other ≠ turn →
    db'.catalog.stopRequests other = db.catalog.stopRequests other
  attempts : ∀ id attempt, db.catalog.attempts.get? id = some attempt →
    attempt.turn ≠ turn → db'.catalog.attempts.get? id = some attempt
  resolutions : ∀ id, db'.resolutions.get? id = db.resolutions.get? id ∨
    db'.resolutions.get? id =
      (db.resolutions.get? id).map fun row => row.released turn
  references : db'.references.filter
      (fun reference => decide (reference.turn ≠ turn)) =
    db.references.filter fun reference => decide (reference.turn ≠ turn)

variable {db : SendDatabase} {turn : TurnId}

theorem OnlyOwnRows.refl (db : SendDatabase) (turn : TurnId) :
    db.OnlyOwnRows turn db where
  catalog := .refl _
  threads := rfl
  createdAt := fun _ => rfl
  updatedAt := fun _ _ => rfl
  turns := fun _ _ => rfl
  sends := fun _ _ => rfl
  invocations := rfl
  invocationSources := fun _ _ _ => rfl
  submittedInputs := fun _ _ => rfl
  executionPhases := fun _ _ => rfl
  stopRequests := fun _ _ => rfl
  attempts := fun _ _ hattempt _ => hattempt
  resolutions := fun _ => .inl rfl
  references := rfl

/-- The thread keeps its row but for the time of its last change. -/
theorem get?_settleUpdatedAt (db : SendDatabase) (thread other : ThreadId) :
    (db.settleUpdatedAt thread).threadTimes.get? other =
      (db.threadTimes.get? other).map fun times =>
        if other = thread then
          { times with
            updatedAt := (db.lastCreatedAt thread).getD times.createdAt }
        else
          times := by
  simp [settleUpdatedAt]

theorem onlyOwnRows_discarded {row : TurnRow}
    (hrow : db.catalog.turns.get? turn = some row) :
    db.OnlyOwnRows turn
      ((db.withoutInteraction turn).settleUpdatedAt row.threadId) where
  catalog := ⟨rfl, rfl, rfl, rfl, rfl, rfl, rfl, rfl, rfl⟩
  threads := rfl
  createdAt := by
    intro thread
    rw [get?_settleUpdatedAt, Option.map_map]
    congr 1
    funext times
    simp only [Function.comp_apply]
    split <;> rfl
  updatedAt := by
    intro thread hthread
    have hother : thread ≠ row.threadId := fun heq => hthread row hrow heq.symm
    rw [get?_settleUpdatedAt]
    simp [hother, withoutInteraction]
  turns := by
    intro other hother
    simp only [settleUpdatedAt, withoutInteraction, catalogWithout,
      Table.get?_filterRows]
    cases db.catalog.turns.get? other <;> simp [hother]
  sends := fun other hother => Function.update_of_ne hother _ _
  invocations := by
    simp [settleUpdatedAt, withoutInteraction, catalogWithout]
  invocationSources := by
    intro result hresult hsource
    simp [settleUpdatedAt, withoutInteraction, hresult, hsource]
  submittedInputs := fun other hother => Function.update_of_ne hother _ _
  executionPhases := fun other hother => Function.update_of_ne hother _ _
  stopRequests := fun other hother => Function.update_of_ne hother _ _
  attempts := by
    intro id attempt hattempt hother
    simp [settleUpdatedAt, withoutInteraction, catalogWithout, hattempt, hother]
  resolutions := fun id => .inr (Keyed.get?_mapRows _ _ _)
  references := by
    simp [settleUpdatedAt, withoutInteraction]

/-! ## Nothing is lost -/

/-- What a discard is allowed to do: it removes a turn no attempt is recorded
of, so that every attempt and every lease owed stays; it returns what the turn
had consumed to the composer; and one that refuses changes nothing. -/
structure LosesNothing (db : SendDatabase) (turn : TurnId)
    (result : SendResult (Bool × SendDatabase)) : Prop where
  unattempted : reportedTrue result = true → db.Unattempted turn
  debts : (db.afterCall result).catalog.unreconciledLeaseDebts =
    db.catalog.unreconciledLeaseDebts
  history : ∀ id, (db.afterCall result).catalog.attempts.get? id =
    db.catalog.attempts.get? id
  pending : reportedTrue result = true → ∀ id row,
    db.resolutions.get? id = some row →
    row.consumedInteraction = some turn →
    ∃ returned, (db.afterCall result).resolutions.get? id = some returned ∧
      returned.pending = true
  others : db.OnlyOwnRows turn (db.afterCall result)
  removed : reportedTrue result = true →
    (db.afterCall result).catalog.turns.get? turn = none
  refused : reportedTrue result = false → db.afterCall result = db

/-- A call that returns without a discard loses nothing. -/
theorem losesNothing_of_refused {result : SendResult (Bool × SendDatabase)}
    (hfalse : reportedTrue result = false) (hsame : db.afterCall result = db) :
    db.LosesNothing turn result where
  unattempted := fun htrue => by simp [hfalse] at htrue
  debts := by rw [hsame]
  history := fun _ => by rw [hsame]
  pending := fun htrue => by simp [hfalse] at htrue
  others := by
    rw [hsame]
    exact .refl db turn
  removed := fun htrue => by simp [hfalse] at htrue
  refused := fun _ => hsame

/-- Without an attempt of the turn, the deletion leaves the table alone. -/
theorem attempts_catalogWithout (hnone : db.Unattempted turn) :
    (db.catalogWithout turn).attempts = db.catalog.attempts := by
  have hkeep : ∀ id row, db.catalog.attempts.get? id = some row →
      decide (row.turn ≠ turn) = true := fun id row hrow =>
    decide_eq_true (hnone id row hrow)
  exact Table.filterRows_eq_self hkeep

theorem losesNothing_discarded {row : TurnRow}
    (hrow : db.catalog.turns.get? turn = some row)
    (hnone : db.Unattempted turn) :
    db.LosesNothing turn
      (.ok (true, (db.withoutInteraction turn).settleUpdatedAt
        row.threadId)) where
  unattempted := fun _ => hnone
  debts := by
    have hattempts := attempts_catalogWithout hnone
    simp only [CatalogDatabase.unreconciledLeaseDebts, afterCall,
      settleUpdatedAt, withoutInteraction, hattempts]
  history := by
    intro id
    have hattempts := attempts_catalogWithout hnone
    simp only [afterCall, settleUpdatedAt, withoutInteraction, hattempts]
  pending := by
    intro _ id stored hstored hconsumed
    refine ⟨stored.released turn, ?_, ContextResolution.pending_released hconsumed⟩
    simp [afterCall, settleUpdatedAt, withoutInteraction,
      ContextResolutions.release, hstored]
  others := onlyOwnRows_discarded hrow
  removed := by
    intro _
    simp [afterCall, settleUpdatedAt, withoutInteraction, catalogWithout]
  refused := fun hfalse => by cases hfalse

/-- A call loses nothing exactly when it discards no interaction that has a
recorded attempt. -/
theorem losesNothing_iff (db : SendDatabase) (turn : TurnId) :
    db.LosesNothing turn (db.discardUnboundInteractionInput turn) ↔
      (db.discards turn → db.Unattempted turn) := by
  by_cases hdiscards : db.discards turn
  · obtain ⟨hselected, hsafe, hfree⟩ := hdiscards
    obtain ⟨row, hrow⟩ := Option.isSome_iff_exists.mp hselected
    have hstored : db.catalog.turns.get? turn = some row :=
      (Option.filter_eq_some_iff.mp hrow).1
    rw [discard_of_discards hrow hsafe hfree]
    constructor
    · intro hkeeps _
      exact hkeeps.unattempted rfl
    · intro hnone
      exact losesNothing_discarded hstored (hnone ⟨hselected, hsafe, hfree⟩)
  · refine iff_of_true ?_ fun hcalled => absurd hcalled hdiscards
    rcases discard_of_not_discards hdiscards with hfalse | ⟨failure, herror⟩
    · rw [hfalse]
      exact losesNothing_of_refused rfl rfl
    · rw [herror]
      exact losesNothing_of_refused rfl rfl

end SendDatabase

end RelayerGraph
