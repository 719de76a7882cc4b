import RelayerGraph.Catalog.ConversationRuns
import RelayerGraph.Sends.Sending

/-!
# Discards along a run

Nothing but a discard takes an attempt away.  A run whose discards all meet
interactions without an attempt therefore keeps every attempt it records, and
with it every lease that is owed.
-/

namespace RelayerGraph

open Foundation Checked TransitionSystem CatalogDatabase

/-! ## Attempts stay -/

theorem CatalogDatabase.Forward.trans {row row' row'' : TurnAttemptRow}
    (h : Forward row row') (h' : Forward row' row'') : Forward row row'' := by
  refine ⟨h'.turn.trans h.turn, h'.lease.trans h.lease, ?_, ?_⟩
  · intro hended
    obtain ⟨houtcome, hcategory, hboundary⟩ := h.decided hended
    have hlater := h'.decided (by rwa [houtcome])
    exact ⟨hlater.1.trans houtcome, hlater.2.1.trans hcategory,
      hlater.2.2.trans hboundary⟩
  · intro hsome
    have hkept := h.acknowledged hsome
    exact (h'.acknowledged (by rwa [hkept])).trans hkept

namespace SendDatabase

/-- Every attempt is still recorded, and moved forward. -/
def KeepsAttempts (db db' : SendDatabase) : Prop :=
  db.catalog.attempts.Retained (fun _ => Forward) db'.catalog.attempts

theorem KeepsAttempts.trans {db db' db'' : SendDatabase}
    (h : KeepsAttempts db db') (h' : KeepsAttempts db' db'') :
    KeepsAttempts db db'' :=
  Table.Retained.trans (fun _ _ _ _ => Forward.trans) h h'

theorem KeepsAttempts.of_eq {db db' : SendDatabase}
    (h : db'.catalog.attempts = db.catalog.attempts) : KeepsAttempts db db' := by
  intro id row hrow
  exact ⟨row, by rwa [h], .refl row⟩

theorem KeepsAttempts.of_move {db db' : SendDatabase}
    (h : AttemptsMove db.catalog db'.catalog) : KeepsAttempts db db' :=
  fun id row hrow => h.kept id row hrow

variable {library : CatalogLibrary} {db db' : SendDatabase}

theorem ofCatalog_eq_ok_iff {α : Type} {result : CatalogResult α} {value : α} :
    ofCatalog result = .ok value ↔ result = .ok value := by
  cases result <;> simp [ofCatalog]

/-- A replayed Send writes confirmations only. -/
theorem keepsAttempts_replaySend {turn : TurnId} {command : SendCommand}
    (hrun : db.replaySend turn command = .ok db') : KeepsAttempts db db' := by
  simp only [replaySend, bind_eq_ok_iff] at hrun
  obtain ⟨_, -, row, -, selection, -, _, -, _, -, hrun⟩ := hrun
  split at hrun
  · obtain rfl := pure_eq_ok_iff.mp hrun
    exact .of_eq rfl
  · simp only [bind_eq_ok_iff, pure_eq_ok_iff] at hrun
    obtain ⟨_, -, resolutions, -, rfl⟩ := hrun
    exact .of_eq rfl

theorem keepsAttempts_firstSend
    {compatible : ValidateModelSelectionCommand → Bool} {command : SendCommand}
    (hrun : db.firstSend library compatible command = .ok db') :
    KeepsAttempts db db' := by
  simp only [firstSend, bind_eq_ok_iff, ofCatalog_eq_ok_iff,
    pure_eq_ok_iff] at hrun
  obtain ⟨_, -, catalog, hcatalog, _, -, resolutions, -, rfl⟩ := hrun
  have hinserted := (insertInteraction_ok hcatalog).attempts
  intro id row hrow
  refine (AttemptsMove.of_progress
    (effect_failStale db.catalog.turns.nextKey).attempts).kept id row ?_
  simpa [hinserted] using hrow

theorem keepsAttempts_insertInteractionInput
    {compatible : ValidateModelSelectionCommand → Bool} {command : SendCommand}
    (hrun : db.insertInteractionInput library compatible command = .ok db') :
    KeepsAttempts db db' := by
  unfold insertInteractionInput at hrun
  cases hexisting : db.existingSend command.thread command.inputIdentity with
  | some turn =>
      rw [hexisting] at hrun
      exact keepsAttempts_replaySend hrun
  | none =>
      rw [hexisting] at hrun
      exact keepsAttempts_firstSend hrun

theorem keepsAttempts_returnToUnsent {turn : TurnId} {harness : HarnessId}
    (hrun : db.returnInteractionToUnsent turn harness = .ok db') :
    KeepsAttempts db db' := by
  simp only [returnInteractionToUnsent, bind_eq_ok_iff, pure_eq_ok_iff] at hrun
  obtain ⟨_, -, _, -, rfl⟩ := hrun
  have hunsent : TurnEffect db.catalog
      (db.catalog.writeTurn turn fun row =>
        { CatalogDatabase.unsent harness row with
          graphNodeId := row.graphNodeId }) :=
    effect_writeTurn fun _ => rfl
  exact .of_move (.of_progress (hunsent.trans (effect_failStale turn)).attempts)

theorem keepsAttempts_writeTurn {turn : TurnId} {change : TurnRow → TurnRow}
    (hchange : ∀ row, (change row).identity = row.identity) :
    KeepsAttempts db { db with catalog := db.catalog.writeTurn turn change } :=
  .of_move (.of_progress (effect_writeTurn hchange).attempts)

theorem keepsAttempts_claimPreparing (db : SendDatabase) (turn : TurnId) :
    KeepsAttempts db (db.claimInteractionPreparing turn) := by
  unfold claimInteractionPreparing
  split
  · exact keepsAttempts_writeTurn fun _ => rfl
  · exact .of_eq rfl

theorem keepsAttempts_bindAndRun (db : SendDatabase) (turn : TurnId)
    (node : ℤ) (harness : HarnessId) :
    KeepsAttempts db (db.bindAndRun turn node harness) := by
  unfold bindAndRun
  split
  · exact keepsAttempts_writeTurn fun _ => rfl
  · exact .of_eq rfl

/-- The discard of a step meets no interaction with an attempt. -/
def DiscardsUnattempted (db : SendDatabase) : SendLabel → Prop
  | .discard turn => db.discards turn → db.Unattempted turn
  | _ => True

/-- The discard of a step loses nothing. -/
def DiscardLosesNothing (db : SendDatabase) : SendLabel → Prop
  | .discard turn =>
      db.LosesNothing turn (db.discardUnboundInteractionInput turn)
  | _ => True

theorem discardLosesNothing_iff (db : SendDatabase) (label : SendLabel) :
    db.DiscardLosesNothing label ↔ db.DiscardsUnattempted label := by
  cases label with
  | discard turn => exact losesNothing_iff db turn
  | _ => exact Iff.rfl

/-- A step whose discard meets no attempt keeps every attempt. -/
theorem keepsAttempts_of_step {label : SendLabel}
    (hstep : SendStep library db label db')
    (hguard : db.DiscardsUnattempted label) : KeepsAttempts db db' := by
  cases hstep with
  | send hrun => exact keepsAttempts_insertInteractionInput hrun
  | claimForRetry => exact .of_eq rfl
  | resolveDraft hrun =>
      simp only [resolveDraft, bind_eq_ok_iff, pure_eq_ok_iff] at hrun
      obtain ⟨_, -, _, -, _, -, rfl⟩ := hrun
      exact .of_eq rfl
  | editConfirmation => exact .of_eq rfl
  | dismissConfirmation => exact .of_eq rfl
  | claimPreparing => exact keepsAttempts_claimPreparing db _
  | bindAndRun => exact keepsAttempts_bindAndRun db _ _ _
  | returnToUnsent hrun => exact keepsAttempts_returnToUnsent hrun
  | catalog hcatalog => exact .of_move (stepAccounts_of_step hcatalog).1
  | discard =>
      have hkeeps := (losesNothing_iff db _).mpr hguard
      intro id row hrow
      exact ⟨row, by rwa [hkeeps.history id], .refl row⟩
  | other hcatalog => exact .of_eq (by rw [hcatalog])

end SendDatabase

open SendDatabase

/-! ## Every run -/

/-- A step of a computed run. -/
def nextSend (library : CatalogLibrary) (db : SendDatabase) :
    SendLabel → Option SendDatabase
  | .send compatible command =>
      (db.insertInteractionInput library compatible command).toOption
  | .claimPreparing turn => some (db.claimInteractionPreparing turn)
  | .bindAndRun turn node harness => some (db.bindAndRun turn node harness)
  | .catalog label =>
      if (restoredTurn label).all (fun restored =>
          decide (restored.2 = db.resolutions.restoreSafe restored.1)) = true
      then
        (nextCatalog library db.catalog label).map fun stored =>
          { db with
            catalog := stored
            resolutions := db.resolutions.restored label }
      else
        none
  | _ => none

theorem step_of_nextSend {library : CatalogLibrary} {db db' : SendDatabase}
    {label : SendLabel} (h : nextSend library db label = some db') :
    SendStep library db label db' := by
  cases label with
  | send compatible command =>
      refine .send ?_
      simp only [nextSend] at h
      cases hrun : db.insertInteractionInput library compatible command with
      | error failure => rw [hrun] at h; cases h
      | ok stored =>
          rw [hrun] at h
          exact congrArg _ (Option.some.inj h)
  | claimPreparing turn =>
      obtain rfl := Option.some.inj h
      exact .claimPreparing
  | bindAndRun turn node harness =>
      obtain rfl := Option.some.inj h
      exact .bindAndRun
  | catalog label =>
      simp only [nextSend, Option.ite_none_right_eq_some,
        Option.map_eq_some_iff] at h
      obtain ⟨hsafe, stored, hstored, rfl⟩ := h
      refine .catalog (step_of_nextCatalog library hstored) ?_
      intro turn safe hrestored
      rw [hrestored] at hsafe
      exact of_decide_eq_true hsafe
  | _ => cases h

namespace DiscardSample

/-- A store with a thread to come and nothing sent. -/
def opened : SendDatabase where
  catalog := twoRoutes
  threadTimes := Keyed.empty.put firstThread ⟨"1", "1"⟩
  sends := fun _ => none
  invocationSources := fun _ => none
  resolutions := Keyed.empty
  references := []

/-- The second message of the thread. -/
def message : SendCommand where
  thread := firstThread
  inputIdentity := "second"
  inputDigest := "sha256:second"
  contexts := []
  confirmationIds := []
  given := none
  requireModelSelection := true
  reservesInputs := false
  now := "2"

/-- The attempt whose admission fails while its lease is held. -/
def refused : BeginTurnAttempt :=
  { receiptOn ⟨2⟩ "alpha" ⟨1⟩ with
    expectedPolicy := some (1, "sha256:legacy") }

/-- A message is sent and started, its model admission fails, which returns it
to unsent, and the Send is delivered once more and claimed for a new start. -/
def replayedRun : List SendLabel :=
  [.catalog (.turn (.insertThread firstThread "codex-basic" none
      (some ⟨⟨1⟩, "alpha", "m"⟩))),
    .send (fun _ => true) message,
    .claimPreparing ⟨2⟩,
    .bindAndRun ⟨2⟩ 7 "codex-basic",
    .catalog (.turn (.recordAdmissionFailure refused "provider_unavailable"
      false true "3")),
    .send (fun _ => true) message,
    .claimPreparing ⟨2⟩]

/-- The start that follows fails, and the discard takes the message with its
attempt and the lease that is owed. -/
def losesDebt (db : SendDatabase) : Bool :=
  decide (db.catalog.unreconciledLeaseDebts = [(⟨1⟩, some "alpha")]) &&
    reportedTrue (db.discardUnboundInteractionInput ⟨2⟩) &&
    decide ((db.afterCall
      (db.discardUnboundInteractionInput ⟨2⟩)).catalog.unreconciledLeaseDebts =
        [])

theorem not_losesNothing_of_losesDebt {db : SendDatabase}
    (h : losesDebt db = true) :
    ¬ db.LosesNothing ⟨2⟩ (db.discardUnboundInteractionInput ⟨2⟩) := by
  simp only [losesDebt, Bool.and_eq_true, decide_eq_true_eq] at h
  obtain ⟨⟨howed, -⟩, hgone⟩ := h
  intro hkeeps
  have hsame := hkeeps.debts
  rw [hgone, howed] at hsame
  cases hsame

theorem exists_losesDebt : ∃ db,
    replayedRun.foldlM (nextSend plainLibrary) opened = some db ∧
      (sendSystem plainLibrary).Reachable db ∧ losesDebt db = true := by
  have hrun : (replayedRun.foldlM (nextSend plainLibrary) opened).any
      losesDebt = true := by decide
  obtain ⟨db, hmoves, hloses⟩ := (Option.any_eq_true _ _).mp hrun
  have hreached : (sendSystem plainLibrary).Reachable db :=
    Reachable.of_foldlM (fun _ _ _ => step_of_nextSend)
      (.init ⟨rfl, rfl, rfl⟩) hmoves
  exact ⟨db, hmoves, hreached, hloses⟩

end DiscardSample

end RelayerGraph
