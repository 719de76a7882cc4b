import RelayerGraph.Catalog.Attempts

/-!
# What an execution changes

The operations of a turn write turns, submitted inputs and attempts.  None of
them touches a table of the catalog, an update of a turn keeps the model
identity of its row, and an attempt only moves forward: what its receipt
records stays, and once it left running it is decided.
-/

namespace RelayerGraph

open Foundation Checked

/-- The three columns of the model identity. -/
def TurnRow.identity (row : TurnRow) :
    Option ProviderId × Option ModelId × Option ℤ :=
  (row.modelProviderId, row.providerModelId, row.modelFamilyId)

/-- Nothing of the identity is stored, or all of it. -/
def TurnRow.Complete (row : TurnRow) : Prop :=
  row.identity = (none, none, none) ∨
    ∃ provider modelId family, 0 < family ∧
      row.identity = (some provider, some modelId, some family)

namespace CatalogDatabase

/-! ## The catalog stays -/

/-- No table of the catalog changes. -/
structure SameCatalog (db db' : CatalogDatabase) : Prop where
  providers : db'.providers = db.providers
  models : db'.models = db.models
  families : db'.families = db.families
  members : db'.members = db.members
  harnesses : db'.harnesses = db.harnesses
  providerCompatibility : db'.providerCompatibility = db.providerCompatibility
  modelCompatibility : db'.modelCompatibility = db.modelCompatibility
  modelRules : db'.modelRules = db.modelRules
  preferences : db'.preferences = db.preferences

theorem SameCatalog.refl (db : CatalogDatabase) : SameCatalog db db :=
  ⟨rfl, rfl, rfl, rfl, rfl, rfl, rfl, rfl, rfl⟩

theorem SameCatalog.trans {db db' db'' : CatalogDatabase}
    (h : SameCatalog db db') (h' : SameCatalog db' db'') :
    SameCatalog db db'' where
  providers := h'.providers.trans h.providers
  models := h'.models.trans h.models
  families := h'.families.trans h.families
  members := h'.members.trans h.members
  harnesses := h'.harnesses.trans h.harnesses
  providerCompatibility :=
    h'.providerCompatibility.trans h.providerCompatibility
  modelCompatibility := h'.modelCompatibility.trans h.modelCompatibility
  modelRules := h'.modelRules.trans h.modelRules
  preferences := h'.preferences.trans h.preferences

/-! ## Attempts move forward -/

/-- What an execution may do to an attempt: end it while it runs, or record
that nothing waits on it any more. -/
structure Progress (row row' : TurnAttemptRow) : Prop where
  receipt : row' = { row with
    finishedAt := row'.finishedAt
    outcome := row'.outcome
    failureCategory := row'.failureCategory
    effectBoundary := row'.effectBoundary
    nativeWaitEndedAt := row'.nativeWaitEndedAt }
  decided : row.outcome ≠ .running → row' = row
  waited : row.nativeWaitEndedAt.isSome →
    row'.nativeWaitEndedAt = row.nativeWaitEndedAt

theorem Progress.refl (row : TurnAttemptRow) : Progress row row :=
  ⟨rfl, fun _ => rfl, fun _ => rfl⟩

theorem Progress.trans {row row' row'' : TurnAttemptRow}
    (h : Progress row row') (h' : Progress row' row'') :
    Progress row row'' where
  receipt := by
    rw [h'.receipt, h.receipt]
  decided := by
    intro hended
    have hsame := h.decided hended
    rw [hsame] at h'
    exact h'.decided hended
  waited := by
    intro hwaited
    have hsame := h.waited hwaited
    rw [h'.waited (by rwa [hsame]), hsame]

/-- Every attempt is still there, and moved forward. -/
def AttemptsProgress
    (attempts attempts' : Table CatalogTable.attempt TurnAttemptRow) : Prop :=
  ∃ next : AttemptId → TurnAttemptRow → TurnAttemptRow,
    attempts' = attempts.mapRows next ∧
      ∀ id row, attempts.get? id = some row → Progress row (next id row)

theorem AttemptsProgress.refl
    (attempts : Table CatalogTable.attempt TurnAttemptRow) :
    AttemptsProgress attempts attempts :=
  ⟨fun _ row => row, (Table.mapRows_self attempts).symm,
    fun _ row _ => Progress.refl row⟩

theorem AttemptsProgress.trans
    {attempts attempts' attempts'' : Table CatalogTable.attempt TurnAttemptRow}
    (h : AttemptsProgress attempts attempts')
    (h' : AttemptsProgress attempts' attempts'') :
    AttemptsProgress attempts attempts'' := by
  obtain ⟨next, rfl, hnext⟩ := h
  obtain ⟨next', rfl, hnext'⟩ := h'
  refine ⟨fun id row => next' id (next id row),
    Table.mapRows_mapRows attempts next next', ?_⟩
  intro id row hrow
  have hmoved : (attempts.mapRows next).get? id = some (next id row) := by
    simp [hrow]
  exact (hnext id row hrow).trans (hnext' id _ hmoved)

/-! ## The identity of a turn stays -/

/-- Every turn has the identity it had. -/
def KeepsIdentity (db db' : CatalogDatabase) : Prop :=
  ∀ id row', db'.turns.get? id = some row' →
    ∃ row, db.turns.get? id = some row ∧ row'.identity = row.identity

theorem KeepsIdentity.of_eq {db db' : CatalogDatabase}
    (hturns : db'.turns = db.turns) : KeepsIdentity db db' := by
  intro id row' hrow'
  exact ⟨row', by rwa [← hturns], rfl⟩

theorem KeepsIdentity.trans {db db' db'' : CatalogDatabase}
    (h : KeepsIdentity db db') (h' : KeepsIdentity db' db'') :
    KeepsIdentity db db'' := by
  intro id row'' hrow''
  obtain ⟨row', hrow', hsame'⟩ := h' id row'' hrow''
  obtain ⟨row, hrow, hsame⟩ := h id row' hrow'
  exact ⟨row, hrow, hsame'.trans hsame⟩

/-! ## The effect of a turn's operation -/

/-- The catalog stays, and so do the identities; attempts move forward. -/
structure TurnEffect (db db' : CatalogDatabase) : Prop where
  catalog : SameCatalog db db'
  identity : KeepsIdentity db db'
  attempts : AttemptsProgress db.attempts db'.attempts

theorem TurnEffect.refl (db : CatalogDatabase) : TurnEffect db db :=
  ⟨.refl db, .of_eq rfl, .refl _⟩

theorem TurnEffect.trans {db db' db'' : CatalogDatabase}
    (h : TurnEffect db db') (h' : TurnEffect db' db'') : TurnEffect db db'' :=
  ⟨h.catalog.trans h'.catalog, h.identity.trans h'.identity,
    h.attempts.trans h'.attempts⟩

variable {db db' : CatalogDatabase}

theorem afterStatus_identity (row : TurnRow)
    (state : Option SubmittedInputState) :
    (afterStatus row state).1.identity = row.identity := by
  cases state with
  | none => rfl
  | some state =>
      unfold afterStatus
      cases hstatus : row.completionStatus <;> simp only [] <;>
        split <;> rfl

theorem effect_writeTurn {turn : TurnId} {change : TurnRow → TurnRow}
    (hchange : ∀ row, (change row).identity = row.identity) :
    TurnEffect db (db.writeTurn turn change) := by
  unfold writeTurn
  cases hturn : db.turns.get? turn with
  | none => exact .refl db
  | some old =>
      refine ⟨⟨rfl, rfl, rfl, rfl, rfl, rfl, rfl, rfl, rfl⟩, ?_, .refl _⟩
      intro id row' hrow'
      simp only [Table.get?_mapRows] at hrow'
      obtain ⟨row, hrow, hresult⟩ := Option.map_eq_some_iff.mp hrow'
      refine ⟨row, hrow, ?_⟩
      rw [← hresult]
      by_cases hid : id = turn
      · obtain rfl : old = row := by
          rw [hid, hturn] at hrow
          exact Option.some.inj hrow
        rw [if_pos hid]
        split
        · exact hchange old
        · rw [afterStatus_identity]
          exact hchange old
      · rw [if_neg hid]

theorem effect_writeTurns {condition : TurnId → TurnRow → Bool}
    {change : TurnRow → TurnRow}
    (hchange : ∀ row, (change row).identity = row.identity) :
    TurnEffect db (db.writeTurns condition change) := by
  unfold writeTurns
  generalize db.turns.select condition = turns
  induction turns generalizing db with
  | nil => exact .refl db
  | cons turn turns ih =>
      rw [List.foldl_cons]
      exact (effect_writeTurn hchange).trans ih

theorem effect_failStale (turn : TurnId) :
    TurnEffect db (db.failStaleReturnedMessagesBeside turn) := by
  unfold failStaleReturnedMessagesBeside
  cases db.turns.get? turn with
  | none => exact .refl db
  | some beside => exact effect_writeTurns fun _ => rfl

theorem effect_updateRunning {condition : AttemptId → TurnAttemptRow → Bool}
    {change : TurnAttemptRow → TurnAttemptRow}
    (hchange : ∀ id row, condition id row = true → row.outcome = .running →
      Progress row (change row)) :
    TurnEffect db (db.updateRunning condition change) := by
  refine ⟨⟨rfl, rfl, rfl, rfl, rfl, rfl, rfl, rfl, rfl⟩, .of_eq rfl,
    fun id row => if row.outcome = .running ∧ condition id row = true
      then change row else row, rfl, ?_⟩
  intro id row _
  dsimp only
  by_cases hrunning : row.outcome = .running ∧ condition id row = true
  · rw [if_pos hrunning]
    exact hchange id row hrunning.2 hrunning.1
  · rw [if_neg hrunning]
    exact .refl row

/-- Ending a running attempt moves it forward. -/
theorem progress_ended {row : TurnAttemptRow} {now boundary : String}
    {outcome : AttemptOutcome} {category : Option String}
    (hrunning : row.outcome = .running) :
    Progress row (ended now outcome category boundary row) :=
  ⟨rfl, fun hended => absurd hrunning hended, fun _ => rfl⟩

/-- Nothing waits on a running attempt any more. -/
theorem progress_waited {row : TurnAttemptRow} {now : String}
    (hrunning : row.outcome = .running)
    (hwaiting : row.nativeWaitEndedAt.isNone = true) :
    Progress row { row with nativeWaitEndedAt := some now } := by
  refine ⟨rfl, fun hended => absurd hrunning hended, ?_⟩
  intro hwaited
  rw [Option.isNone_iff_eq_none.mp hwaiting] at hwaited
  cases hwaited

/-! ## Operation by operation -/

theorem effect_acceptCompletion {attempt : AttemptId}
    {completion : AcceptedCompletion} {now : String}
    (hrun : db.acceptCompletionWithAttempt attempt completion now = .ok db') :
    TurnEffect db db' := by
  simp only [acceptCompletionWithAttempt, bind_eq_ok_iff, require_eq_ok_iff,
    pure_eq_ok_iff] at hrun
  obtain ⟨_, -, _, -, rfl⟩ := hrun
  exact (effect_updateRunning fun _ _ _ hrunning =>
    progress_ended hrunning).trans (effect_writeTurn fun _ => rfl)

theorem effect_failedTurn (failure : FailedCompletion) :
    TurnEffect db (db.failedTurn failure) := by
  unfold failedTurn
  split
  · exact effect_writeTurn fun _ => rfl
  · split
    · exact effect_writeTurn fun _ => rfl
    · exact effect_writeTurn fun _ => rfl

theorem effect_failCompletion {failure : FailedCompletion}
    {restoreSafe : Bool} {now : String}
    (hrun : db.failCompletionWithAttempt failure restoreSafe now = .ok db') :
    TurnEffect db db' := by
  simp only [failCompletionWithAttempt, bind_eq_ok_iff,
    require_eq_ok_iff] at hrun
  obtain ⟨_, -, _, -, _, -, hfinal⟩ := hrun
  have hended : TurnEffect db
      ((db.updateRunning (fun key _ => key = failure.attempt)
        (ended now failure.outcome (some failure.failureCategory)
          failure.effectBoundary)).failedTurn failure) :=
    (effect_updateRunning fun _ _ _ hrunning =>
      progress_ended hrunning).trans (effect_failedTurn failure)
  split at hfinal
  · simp only [bind_eq_ok_iff, require_eq_ok_iff, pure_eq_ok_iff] at hfinal
    obtain ⟨_, -, rfl⟩ := hfinal
    exact hended.trans (effect_failStale failure.turn)
  · obtain rfl := pure_eq_ok_iff.mp hfinal
    exact hended

theorem effect_endNativeWait (attempt : AttemptId) (now : String) :
    TurnEffect db (db.endAttemptNativeWait attempt now) := by
  unfold endAttemptNativeWait
  split
  · exact .refl db
  · split
    · exact effect_updateRunning fun _ _ _ hrunning => progress_ended hrunning
    · apply effect_updateRunning
      intro id row hcondition hrunning
      simp only [Bool.and_eq_true] at hcondition
      exact progress_waited hrunning hcondition.2

theorem effect_endExecution {turn : TurnId} {now : String}
    (hrun : db.endCompletionExecutionAttempt turn now = .ok db') :
    TurnEffect db db' := by
  unfold endCompletionExecutionAttempt at hrun
  split at hrun
  · simp only [bind_eq_ok_iff, require_eq_ok_iff, pure_eq_ok_iff] at hrun
    obtain ⟨_, -, rfl⟩ := hrun
    exact effect_updateRunning fun _ _ _ hrunning => progress_ended hrunning
  · obtain rfl := pure_eq_ok_iff.mp hrun
    exact .refl db

theorem effect_recoverInterrupted (error : String) (preserveIdentified : Bool)
    (now : String) :
    TurnEffect db
      (db.recoverInterruptedInteractions error preserveIdentified now) := by
  unfold recoverInterruptedInteractions
  refine .trans ?_ (effect_writeTurns fun _ => rfl)
  refine .trans ?_ (effect_writeTurns fun _ => rfl)
  have hfailed : TurnEffect db (db.updateRunning
      (fun _ attempt => !db.settledExecution attempt.turn &&
        !db.quarantined attempt.turn)
      (ended now .executionFailed (some "application_restart") "unknown")) :=
    effect_updateRunning fun _ _ _ hrunning => progress_ended hrunning
  refine hfailed.trans (effect_updateRunning ?_)
  intro id row hcondition hrunning
  simp only [Bool.and_eq_true] at hcondition
  exact progress_waited hrunning hcondition.1

theorem withInputError_identity (harness : HarnessId) (error : String)
    (row : TurnRow) :
    (withInputError harness error row).identity = row.identity := rfl

theorem effect_failInterruptedInput (turn : TurnId) (harness : HarnessId)
    (error now : String) :
    TurnEffect db (db.failInterruptedSubmittedInput turn harness error now) := by
  simp only [failInterruptedSubmittedInput]
  split
  · exact (effect_updateRunning fun _ _ _ hrunning =>
      progress_ended hrunning).trans
        (effect_writeTurn (withInputError_identity harness error))
  · exact .refl db

theorem effect_quarantineInput (turn : TurnId) (harness : HarnessId)
    (error : String) :
    TurnEffect db (db.quarantineInterruptedSubmittedInput turn harness error) := by
  unfold quarantineInterruptedSubmittedInput
  split
  · exact effect_writeTurn (withInputError_identity harness error)
  · exact .refl db

theorem effect_finalizeInput (turn : TurnId) (error now : String) :
    TurnEffect db
      (db.finalizeQuarantinedSubmittedInputFailure turn error now) := by
  simp only [finalizeQuarantinedSubmittedInputFailure]
  split
  · exact (effect_updateRunning fun _ _ _ hrunning =>
      progress_ended hrunning).trans (effect_writeTurn fun _ => rfl)
  · exact .refl db

theorem effect_reconcileAccepted (turn : TurnId) (output now : String) :
    TurnEffect db (db.reconcileAccepted turn output now) := by
  unfold reconcileAccepted
  split
  · refine .trans ?_ (effect_updateRunning fun _ _ _ hrunning =>
      progress_ended hrunning)
    exact effect_writeTurn fun _ => rfl
  · exact .refl db

theorem effect_finishStopped (statuses : List CompletionStatus)
    (turn : TurnId) (now : String) :
    TurnEffect db (db.finishStopped statuses turn now) := by
  unfold finishStopped
  split
  · refine .trans ?_ (effect_updateRunning fun _ _ _ hrunning =>
      progress_ended hrunning)
    exact effect_writeTurn fun _ => rfl
  · exact .refl db

/-! ## Selections that resolve -/

section Resolution

variable {library : CatalogLibrary} {harness : HarnessId}
  {selection : InteractionModelSelection}

/-- A checked selection joins rows of the store, its provider is active and
connected, and its family active and enabled. -/
theorem checkedSelection_ok {unknown : String}
    {command : ValidateModelSelectionCommand} {rows : SelectionRows}
    (hrun : db.checkedSelection library unknown command = .ok rows) :
    db.providers.get? command.providerId = some rows.provider ∧
      db.families.get? command.familyId = some rows.family ∧
      rows.provider.lifecycleState = .active ∧ rows.provider.connected = true ∧
      rows.family.lifecycleState = .active ∧ rows.family.enabled = true := by
  simp only [checkedSelection, bind_eq_ok_iff, orThrow_eq_ok_iff,
    pure_eq_ok_iff] at hrun
  obtain ⟨joined, hjoined, _, hchecks, _, -, rfl⟩ := hrun
  have hcheck : ∀ check ∈ db.selectionChecks command joined,
      check.1 = true := by
    intro check hmem
    exact require_eq_ok_iff.mp (forM_eq_ok_iff.mp hchecks check hmem)
  simp only [selectionRows, Option.bind_eq_bind, Option.bind_eq_some_iff,
    Option.pure_def, Option.some.injEq] at hjoined
  obtain ⟨harness, -, provider, hprovider, model, -, family, hfamily, rfl⟩ :=
    hjoined
  simp [selectionChecks] at hcheck
  obtain ⟨-, -, hconnected, hactive, -, -, -, -, henabled, hstate, -⟩ := hcheck
  exact ⟨hprovider, hfamily, hactive, hconnected, hstate, henabled⟩

theorem validateExecutionModelSelection_ok
    {route : ExecutionModelSelection}
    (hrun : db.validateExecutionModelSelection library harness selection =
      .ok route) :
    route.familyId = selection.familyId ∧
      ∃ provider, db.providers.get? route.providerId = some provider ∧
        provider.lifecycleState = .active := by
  simp only [validateExecutionModelSelection, bind_eq_ok_iff,
    pure_eq_ok_iff] at hrun
  obtain ⟨rows, hrows, rfl⟩ := hrun
  obtain ⟨hprovider, -, hactive, -⟩ := checkedSelection_ok hrows
  exact ⟨rfl, rows.provider, hprovider, hactive⟩

/-- A plan that resolves belongs to a family of the store, and its route to an
active provider. -/
theorem resolveExecutionModelPlan_ok
    {plan : ExecutionModelPlan} {route : ExecutionModelSelection}
    (hrun : db.resolveExecutionModelPlan library harness selection =
      .ok (plan, route)) :
    route.familyId = selection.familyId ∧
      (∃ family, db.families.get? selection.familyId = some family) ∧
      ∃ provider, db.providers.get? route.providerId = some provider ∧
        provider.lifecycleState = .active := by
  simp only [resolveExecutionModelPlan, bind_eq_ok_iff,
    orThrow_eq_ok_iff] at hrun
  obtain ⟨_, -, family, hfamily, _, -, orchestrator, -, hroute⟩ := hrun
  split at hroute
  case h_1 valid hvalid =>
      simp only [bind_eq_ok_iff, pure_eq_ok_iff, Prod.mk.injEq,
        exists_eq_left'] at hroute
      obtain ⟨_, -, _, -, _, -, -, rfl⟩ := hroute
      have hok := validateExecutionModelSelection_ok hvalid
      exact ⟨hok.1, ⟨family, hfamily⟩, hok.2⟩
  all_goals
    simp only [bind_eq_ok_iff] at hroute
    obtain ⟨_, hfailed, -⟩ := hroute
    cases hfailed

/-- A selection that resolves names a stored family. -/
theorem resolvedSelection_ok {resolved : InteractionModelSelection}
    (hrun : db.resolvedSelection library harness selection = .ok resolved) :
    0 < resolved.familyId.val := by
  simp only [resolvedSelection, bind_eq_ok_iff, pure_eq_ok_iff] at hrun
  obtain ⟨⟨plan, route⟩, hresolve, rfl⟩ := hrun
  obtain ⟨hfamily, ⟨family, hrow⟩, -⟩ := resolveExecutionModelPlan_ok hresolve
  have hpos := (Table.lt_of_get?_eq_some hrow).1
  show 0 < route.familyId.val
  rw [hfamily]
  exact hpos

end Resolution

/-! ## Complete identities -/

/-- Every stored identity is absent or complete. -/
def CompleteTurns (db : CatalogDatabase) : Prop :=
  ∀ id row, db.turns.get? id = some row → row.Complete

theorem complete_of_identity {row row' : TurnRow} (h : row.Complete)
    (hsame : row'.identity = row.identity) : row'.Complete := by
  unfold TurnRow.Complete
  rw [hsame]
  exact h

theorem KeepsIdentity.completeTurns (h : KeepsIdentity db db')
    (hdb : CompleteTurns db) : CompleteTurns db' := by
  intro id row' hrow'
  obtain ⟨row, hrow, hsame⟩ := h id row' hrow'
  exact complete_of_identity (hdb id row hrow) hsame

theorem complete_withSelection (row : TurnRow)
    {selection : Option InteractionModelSelection}
    (h : ∀ chosen, selection = some chosen → 0 < chosen.familyId.val) :
    (row.withSelection selection).Complete := by
  cases selection with
  | none => exact .inl rfl
  | some chosen =>
      right
      refine ⟨chosen.providerId, chosen.modelId, chosen.familyId.val, ?_, rfl⟩
      exact_mod_cast h chosen rfl

theorem completeTurns_insert {row : TurnRow} (hdb : CompleteTurns db)
    (hrow : row.Complete) (hturns : db'.turns = db.turns.insert row) :
    CompleteTurns db' := by
  intro id stored hstored
  rw [hturns, Table.get?_insert] at hstored
  split at hstored
  · obtain rfl := Option.some.inj hstored
    exact hrow
  · exact hdb id stored hstored

/-! ## Turns that are inserted or sent again -/

section Insertion

variable {library : CatalogLibrary}
  {compatible : ValidateModelSelectionCommand → Bool}

/-- A turn is inserted with a complete identity; nothing else changes. -/
structure InsertsTurn (db db' : CatalogDatabase) : Prop where
  catalog : SameCatalog db db'
  attempts : db'.attempts = db.attempts
  turns : ∃ row : TurnRow, row.Complete ∧ db'.turns = db.turns.insert row

theorem admittedSelection_ok {harness : HarnessId} {requireSelection : Bool}
    {inherited selection : Option InteractionModelSelection}
    (hrun : db.admittedSelection library compatible harness requireSelection
      inherited = .ok selection) :
    ∀ chosen, selection = some chosen → 0 < chosen.familyId.val := by
  intro chosen hchosen
  cases inherited with
  | none =>
      simp only [admittedSelection, bind_eq_ok_iff, pure_eq_ok_iff] at hrun
      obtain ⟨_, -, rfl⟩ := hrun
      cases hchosen
  | some given =>
      simp only [admittedSelection, bind_eq_ok_iff, pure_eq_ok_iff] at hrun
      obtain ⟨resolved, hresolved, _, -, rfl⟩ := hrun
      obtain rfl := Option.some.inj hchosen
      exact resolvedSelection_ok hresolved

theorem insertInteraction_ok {thread : ThreadId}
    {given : Option InteractionModelSelection} {requireSelection : Bool}
    {identity : Option String}
    (hrun : db.insertInteraction library compatible thread given
      requireSelection identity = .ok db') : InsertsTurn db db' := by
  simp only [insertInteraction, bind_eq_ok_iff, pure_eq_ok_iff] at hrun
  obtain ⟨threadRow, -, inherited, -, selection, hselection, rfl⟩ := hrun
  exact ⟨⟨rfl, rfl, rfl, rfl, rfl, rfl, rfl, rfl, rfl⟩, rfl, _,
    complete_withSelection _ (admittedSelection_ok hselection), rfl⟩

theorem insertThread_ok {thread : ThreadId} {harness : HarnessId}
    {required : Option String} {given : Option InteractionModelSelection}
    (hrun : db.insertThread library thread harness required given =
      .ok db') : InsertsTurn db db' := by
  simp only [insertThread, bind_eq_ok_iff, pure_eq_ok_iff] at hrun
  obtain ⟨_, -, selection, hselection, rfl⟩ := hrun
  refine ⟨⟨rfl, rfl, rfl, rfl, rfl, rfl, rfl, rfl, rfl⟩, rfl, _,
    complete_withSelection _ ?_, rfl⟩
  intro chosen hchosen
  cases given with
  | none =>
      obtain rfl := pure_eq_ok_iff.mp hselection
      cases hchosen
  | some stated =>
      simp only [initialSelection, bind_eq_ok_iff, pure_eq_ok_iff]
        at hselection
      obtain ⟨⟨plan, route⟩, hresolve, _, -, rfl⟩ := hselection
      obtain rfl := Option.some.inj hchosen
      obtain ⟨hfamily, ⟨family, hrow⟩, -⟩ :=
        resolveExecutionModelPlan_ok hresolve
      have hpos := (Table.lt_of_get?_eq_some hrow).1
      rwa [← hfamily] at hpos

theorem insertActionInvocation_ok {source : TurnId}
    {recursive authoritative agentInvoked : Bool}
    (hrun : db.insertActionInvocation library source recursive authoritative
      agentInvoked = .ok db') : InsertsTurn db db' := by
  simp only [insertActionInvocation, bind_eq_ok_iff, pure_eq_ok_iff] at hrun
  obtain ⟨row, -, threadRow, -, _, -, inherited, -, selection, hselection,
    rfl⟩ := hrun
  refine ⟨⟨rfl, rfl, rfl, rfl, rfl, rfl, rfl, rfl, rfl⟩, rfl, _,
    complete_withSelection _ ?_, rfl⟩
  intro chosen hchosen
  cases inherited with
  | none =>
      obtain rfl := pure_eq_ok_iff.mp hselection
      cases hchosen
  | some stated =>
      simp only [resolvedSource, bind_eq_ok_iff, pure_eq_ok_iff] at hselection
      obtain ⟨resolved, hresolved, rfl⟩ := hselection
      obtain rfl := Option.some.inj hchosen
      exact resolvedSelection_ok hresolved

theorem insertImportedTurn_ok (thread : ThreadId) (sequence : ℕ) :
    InsertsTurn db (db.insertImportedTurn thread sequence) :=
  ⟨⟨rfl, rfl, rfl, rfl, rfl, rfl, rfl, rfl, rfl⟩, rfl, _, .inl rfl, rfl⟩

/-- A retry rewrites its turn with a complete identity. -/
theorem claimInteractionRetry_ok {turn : TurnId} {attempt : AttemptId}
    {harness : HarnessId} {given : InteractionModelSelection}
    {identity : String}
    (hrun : db.claimInteractionRetry library compatible turn attempt harness
      given identity = .ok db') :
    SameCatalog db db' ∧ db'.attempts = db.attempts ∧
      (CompleteTurns db → CompleteTurns db') := by
  simp only [claimInteractionRetry, bind_eq_ok_iff, pure_eq_ok_iff] at hrun
  obtain ⟨_, -, _, -, row, -, _, -, _, -, selection, hselection, _, -, _, -,
    rfl⟩ := hrun
  refine ⟨⟨rfl, rfl, rfl, rfl, rfl, rfl, rfl, rfl, rfl⟩, rfl, ?_⟩
  intro hdb id stored hstored
  simp only [Table.get?_mapRows] at hstored
  obtain ⟨old, hold, rfl⟩ := Option.map_eq_some_iff.mp hstored
  split
  · have hcomplete := complete_withSelection old
      (fun chosen (hchosen : some selection = some chosen) => by
        obtain rfl := Option.some.inj hchosen
        exact resolvedSelection_ok hselection)
    exact complete_of_identity hcomplete rfl
  · exact hdb id old hold

end Insertion

/-! ## Attempts that are inserted -/

theorem insertAttempt_ok {row : TurnAttemptRow}
    (hrun : db.insertAttempt row = .ok db') :
    db' = { db with attempts := db.attempts.insert row } := by
  simp only [insertAttempt, bind_eq_ok_iff, pure_eq_ok_iff] at hrun
  obtain ⟨_, -, rfl⟩ := hrun
  rfl

theorem admitsAttempt_ok {turn : TurnId} {refusal : String} {row : TurnRow}
    (hrun : db.admitsAttempt turn refusal = .ok row) :
    db.turns.get? turn = some row ∧
      db.someRunning (fun _ attempt => attempt.turn = turn) = false := by
  simp only [admitsAttempt, bind_eq_ok_iff, orThrow_eq_ok_iff,
    require_eq_ok_iff, pure_eq_ok_iff] at hrun
  obtain ⟨stored, hstored, _, ⟨-, hidle⟩, rfl⟩ := hrun
  exact ⟨hstored, hidle⟩

/-- An acknowledgement records the time on the lease it names, when the
attempt owes it. -/
def acknowledged (lease now : String) (row : TurnAttemptRow) : TurnAttemptRow :=
  if leaseOwed row = true ∧ row.executionLeaseId = some lease then
    { row with executionLeaseReconciledAt := some now }
  else
    row

theorem acknowledgeLeaseReconciled_ok (attempt : AttemptId)
    (lease now : String) :
    (db.acknowledgeLeaseReconciled attempt lease now).2 = { db with
      attempts := db.attempts.mapRows fun key row =>
        if key = attempt then acknowledged lease now row else row } := by
  simp only [acknowledgeLeaseReconciled]
  congr 1
  apply Table.mapRows_congr
  intro key row _
  by_cases hkey : key = attempt
  · simp [hkey, acknowledged]
  · simp [hkey]

/-- What beginning an attempt checked, and what it wrote. -/
structure Begins (library : CatalogLibrary) (db : CatalogDatabase)
    (receipt : BeginTurnAttempt) (now : String) (db' : CatalogDatabase) :
    Prop where
  idle : db.someRunning (fun _ attempt => attempt.turn = receipt.turn) = false
  resolved : db.resolveExecutionModelPlan library receipt.harnessName
    ⟨receipt.route.familyId, receipt.route.providerId,
      receipt.route.modelId⟩ = .ok (receipt.modelPlan, receipt.route)
  planned : AdmittedExecutionModelPlan.planned receipt.admittedPlan =
    receipt.modelPlan
  attempts : ∃ number policy, db'.attempts =
    db.attempts.insert (attemptRow receipt number now policy)
  catalog : SameCatalog db db'
  identities : CompleteTurns db → CompleteTurns db'

theorem beginInteractionAttempt_ok {library : CatalogLibrary}
    {compatible : ValidateModelSelectionCommand → Bool}
    {receipt : BeginTurnAttempt} {now : String}
    (hrun : db.beginInteractionAttempt library compatible receipt now =
      .ok db') : Begins library db receipt now db' := by
  simp only [beginInteractionAttempt, bind_eq_ok_iff, orThrow_eq_ok_iff,
    require_eq_ok_iff, pure_eq_ok_iff] at hrun
  obtain ⟨row, hadmits, _, -, _, -, _, -, ⟨plan, admitted⟩, hresolve, _, -, _,
    rfl, _, rfl, _, hplanned, _, -, harness, -, _, -, inserted, hinsert,
    rfl⟩ := hrun
  obtain rfl := insertAttempt_ok hinsert
  refine ⟨(admitsAttempt_ok hadmits).2, hresolve, hplanned, ⟨_, _, rfl⟩,
    ⟨rfl, rfl, rfl, rfl, rfl, rfl, rfl, rfl, rfl⟩, ?_⟩
  intro hdb id stored hstored
  simp only [Table.get?_mapRows] at hstored
  obtain ⟨old, hold, rfl⟩ := Option.map_eq_some_iff.mp hstored
  split
  · apply complete_withSelection
    intro chosen hchosen
    obtain rfl := Option.some.inj hchosen
    obtain ⟨-, ⟨family, hrow⟩, -⟩ := resolveExecutionModelPlan_ok hresolve
    exact (Table.lt_of_get?_eq_some hrow).1
  · exact hdb id old hold

theorem effect_stopRequests (requests : TurnId → Bool) :
    TurnEffect db { db with stopRequests := requests } :=
  ⟨⟨rfl, rfl, rfl, rfl, rfl, rfl, rfl, rfl, rfl⟩, .of_eq rfl, .refl _⟩

theorem effect_returnedTurn (failure : PreExecutionFailure) :
    TurnEffect db (db.returnedTurn failure) := by
  unfold returnedTurn
  split
  · exact effect_writeTurn fun _ => rfl
  · exact (effect_stopRequests _).trans (effect_writeTurn fun _ => rfl)

/-- An attempt that never ran is recorded as ended, and its turn returned or
failed. -/
theorem recordPreExecutionModelFailure_ok {failure : PreExecutionFailure}
    {restoreSafe : Bool} {now : String}
    (hrun : db.recordPreExecutionModelFailure failure restoreSafe now =
      .ok db') :
    ∃ row : TurnAttemptRow, row.outcome = .modelFailed ∧
      row.executionLeaseId = none ∧ row.executionLeaseReconciledAt = none ∧
      TurnEffect { db with attempts := db.attempts.insert row } db' := by
  simp only [recordPreExecutionModelFailure, bind_eq_ok_iff, require_eq_ok_iff,
    pure_eq_ok_iff] at hrun
  obtain ⟨route, -, family, -, policy, -, _, -, inserted, hinsert, _, -,
    rfl⟩ := hrun
  obtain rfl := insertAttempt_ok hinsert
  refine ⟨db.failedAttempt failure now route family.revision policy, rfl, rfl,
    rfl, .trans ?_ (effect_failStale failure.turn)⟩
  exact effect_returnedTurn failure

/-- A refused admission is recorded as an ended attempt, whose lease is
reconciled or owed. -/
theorem recordModelAttemptAdmissionFailure_ok {receipt : BeginTurnAttempt}
    {category : String} {reconciled restoreSafe : Bool} {now : String}
    (hrun : db.recordModelAttemptAdmissionFailure receipt category reconciled
      restoreSafe now = .ok db') :
    ∃ row : TurnAttemptRow, row.outcome = .modelFailed ∧
      TurnEffect { db with attempts := db.attempts.insert row } db' := by
  simp only [recordModelAttemptAdmissionFailure, bind_eq_ok_iff,
    orThrow_eq_ok_iff, require_eq_ok_iff, pure_eq_ok_iff] at hrun
  obtain ⟨turn, -, policy, -, inserted, hinsert, _, -, rfl⟩ := hrun
  obtain rfl := insertAttempt_ok hinsert
  refine ⟨{ attemptRow receipt (db.nextAttemptNumber receipt.turn) now policy
    with
      finishedAt := some now
      outcome := .modelFailed
      failureCategory := some category
      effectBoundary := "none"
      executionLeaseReconciledAt := if reconciled then some now else none },
    rfl, .trans ?_ (effect_failStale receipt.turn)⟩
  exact (effect_stopRequests _).trans (effect_writeTurn fun _ => rfl)

end CatalogDatabase

end RelayerGraph
