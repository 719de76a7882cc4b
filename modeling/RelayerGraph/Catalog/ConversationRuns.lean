import RelayerGraph.Catalog.Conversations

/-!
# When a conversation locks itself

Along a run the conversation stays unlocked exactly when every acceptance of a
message agrees with those before it.  Two messages admitted in parallel on two
providers are enough to lock it.
-/

namespace RelayerGraph

open Foundation Checked CatalogDatabase TransitionSystem

variable {library : CatalogLibrary} {thread : ThreadId} {harness : HarnessId}
  {db db' : CatalogDatabase} {steps : List (CatalogDatabase × ConversationLabel)}

/-- The owner the report names, once set, stays, and no step but an
acceptance sets it. -/
def KeepsOwner (thread : ThreadId) (db : CatalogDatabase)
    (label : ConversationLabel) (db' : CatalogDatabase) : Prop :=
  (∀ provider, db.reportedOwner thread = some provider →
    db'.reportedOwner thread = some provider) ∧
  (db.accepts thread label = none →
    db'.reportedOwner thread = db.reportedOwner thread)

/-- Throughout the run the accepted messages ran on one provider, the report
is not blocked while there are any, and its owner stays. -/
def NeverLocks (thread : ThreadId)
    (steps : List (CatalogDatabase × ConversationLabel))
    (db : CatalogDatabase) : Prop :=
  HoldsAlong (Unlocked thread) steps db ∧
    ∀ move ∈ moves steps db, KeepsOwner thread move.1 move.2.1 move.2.2

/-- A thread opened with a selected model in a store without turns. -/
theorem opened_of_insertThread {required : Option String}
    {given : InteractionModelSelection}
    (hturns : db.turns = Table.empty) (hattempts : db.attempts = Table.empty)
    (hinvocations : db.invocations = [])
    (hexecutions : db.executionPhases = fun _ => none)
    (hrun : db.insertThread library thread harness required (some given) =
      .ok db') : db'.Opened thread harness := by
  simp only [insertThread, initialSelection, bind_eq_ok_iff,
    pure_eq_ok_iff] at hrun
  obtain ⟨_, -, _, ⟨⟨plan, route⟩, -, _, -, rfl⟩, rfl⟩ := hrun
  have hrow : ∀ turn row, (db.turns.insert ((TurnRow.new thread 1
      none).withSelection (some ⟨route.familyId, route.providerId,
        route.modelId⟩))).get? turn = some row →
      row = (TurnRow.new thread 1 none).withSelection (some ⟨route.familyId,
        route.providerId, route.modelId⟩) := by
    intro turn row hget
    rw [hturns, Table.get?_insert, Table.get?_empty] at hget
    split at hget
    · exact (Option.some.inj hget).symm
    · cases hget
  have hnone : ∀ id, db.attempts.get? id = none := by
    intro id
    rw [hattempts, Table.get?_empty]
  have hidle : ∀ (id : AttemptId) (attempt : TurnAttemptRow) {claim : Prop},
      db.attempts.get? id = some attempt → claim := by
    intro id attempt claim hget
    rw [hnone] at hget
    cases hget
  refine ⟨⟨?_, ?_, ?_, ?_, ?_, ?_, ?_, ?_, ?_, ?_⟩, ?_⟩
  · exact ⟨⟨harness, false, required⟩, by simp, rfl⟩
  · refine ⟨db.turns.nextKey, _, Table.get?_insert_nextKey _ _, rfl, ?_⟩
    simp [invoked, hinvocations]
  · intro turn row hget _
    rw [hrow turn row hget]
    rfl
  · intro turn row hmessage name hname
    rw [hrow turn row hmessage.1] at hname
    cases hname
  · rintro turn row ⟨hmessage, haccepted⟩
    rw [hrow turn row hmessage.1] at haccepted
    cases haccepted
  · exact fun id attempt _ hget => hidle id attempt hget
  · exact fun id attempt _ hget => hidle id attempt hget
  · exact fun id attempt hget => hidle id attempt hget
  · intro turn hsome
    simp only [hexecutions] at hsome
    cases hsome
  · exact fun id attempt _ _ hget => hidle id attempt hget
  · rintro turn row ⟨hmessage, haccepted⟩
    rw [hrow turn row hmessage.1] at haccepted
    cases haccepted

/-! ## Two messages on two providers -/

/-- A move of a computed run: an operation, or the start of a turn. -/
inductive ConversationMove
  | operation (operation : ConversationOperation)
  | starts (turn : TurnId)

/-- A turn that waits starts to run. -/
def startTurn (harness : HarnessId) (turn : TurnId) (db : CatalogDatabase) :
    CatalogDatabase :=
  db.writeTurn turn fun row => { row with
    completionStatus := .running
    harnessConfigurationName := some harness }

instance (turn : TurnId) (name : HarnessId) :
    Decidable (RunsUnder thread harness db turn name) :=
  decidable_of_iff (((db.turns.get? turn).all fun row =>
      decide (row.threadId = thread → name = harness)) = true) (by
    simp only [RunsUnder, Option.all_eq_true, decide_eq_true_eq])

/-- The callers' part, for the operations of a computed run. -/
def conducted (thread : ThreadId) (harness : HarnessId)
    (db : CatalogDatabase) : ConversationOperation → Bool
  | .insertInteraction .. => true
  | .beginAttempt receipt _ =>
      decide (db.RunsUnder thread harness receipt.turn receipt.harnessName)
  | .turn (.acceptCompletion _ completion _) =>
      decide (db.RunsUnder thread harness completion.turn
        completion.harnessName)
  | _ => false

theorem conducts_of_conducted {operation : ConversationOperation}
    (h : conducted thread harness db operation = true) :
    db.Conducts thread harness operation := by
  unfold conducted at h
  split at h
  · trivial
  · exact of_decide_eq_true (p := db.RunsUnder thread harness _ _) h
  · exact of_decide_eq_true (p := db.RunsUnder thread harness _ _) h
  · cases h

/-- The store after a move of a computed run. -/
def nextConversation (library : CatalogLibrary) (thread : ThreadId)
    (harness : HarnessId) (db : CatalogDatabase) :
    ConversationMove → Option CatalogDatabase
  | .operation operation =>
      if conducted thread harness db operation then
        (db.converse library operation).toOption
      else none
  | .starts turn =>
      if ((db.turns.get? turn).any fun row =>
          decide (row.completionStatus ≠ .accepted)) = true then
        some (startTurn harness turn db)
      else none

theorem reachable_nextConversation {move : ConversationMove}
    (hreach : (conversationSystem library thread harness).Reachable db)
    (h : nextConversation library thread harness db move = some db') :
    (conversationSystem library thread harness).Reachable db' := by
  cases move with
  | operation operation =>
      simp only [nextConversation, Option.ite_none_right_eq_some] at h
      exact hreach.step
        (.operation (conducts_of_conducted h.1) (toOption_eq_some h.2))
  | starts turn =>
      simp only [nextConversation, Option.ite_none_right_eq_some,
        Option.some.injEq] at h
      obtain ⟨hopen, rfl⟩ := h
      obtain ⟨row, hrow, hstatus⟩ := (Option.any_eq_true _ _).mp hopen
      refine hreach.step (.beside (updates_writeTurn ?_))
      intro stored hstored
      obtain rfl := Option.some.inj (hrow.symm.trans hstored)
      exact .of_columns rfl rfl (of_decide_eq_true hstatus)
        (fun heq => by cases heq) (.inr fun _ => rfl)

theorem reachable_foldlM {moves : List ConversationMove}
    (hreach : (conversationSystem library thread harness).Reachable db)
    (h : moves.foldlM (nextConversation library thread harness) db =
      some db') :
    (conversationSystem library thread harness).Reachable db' := by
  induction moves generalizing db with
  | nil =>
      obtain rfl : db = db' := by simpa using h
      exact hreach
  | cons move moves ih =>
      obtain ⟨middle, hmove, hrest⟩ : ∃ middle,
          nextConversation library thread harness db move = some middle ∧
            moves.foldlM (nextConversation library thread harness) middle =
              some db' := by
        simpa [List.foldlM_cons, Option.bind_eq_some_iff] using h
      exact ih (reachable_nextConversation hreach hmove) hrest

/-- A connected provider with one model, and a family of that model. -/
def withRoute (provider : ProviderId) (position : ℕ) (db : CatalogDatabase) :
    CatalogDatabase :=
  { db with
    providers := db.providers.put provider
      { label := provider, connected := true, unavailableReason := none
        refreshedAt := "0", adapterId := "openai-api"
        accessContract := "secret@1", endpoint := none
        credentialReference := none, lifecycleState := .active
        removedAt := none, connectionGeneration := 1 }
    models := db.models.put (provider, "m")
      { label := "M", order := 0, visible := true, available := true
        unavailableReason := none, providerDefault := true
        replacementModelId := none, metadata := "{}" }
    families := db.families.insert
      { name := provider, kind := .custom, systemKey := none, enabled := true
        position := position, revision := 1, managedProviderId := none
        policy := none, lifecycleState := .active, removedAt := none
        tombstoneCause := none }
    members := Function.update db.members db.families.nextKey
      [⟨[ModelFamilyRole.orchestrator], provider, "m", 0⟩] }

/-- A store with two providers a harness runs on. -/
def twoRoutes : CatalogDatabase :=
  withRoute "beta" 1 (withRoute "alpha" 0 { CatalogDatabase.fresh with
    harnesses := Keyed.empty.put "codex-basic"
      { label := "Codex Basic", productVisible := true, available := true
        unavailableReason := none, configurationRevision := 1
        configurationDigest := "sha256:legacy", modelRulesPresent := false
        modelRulesModified := false, executionAccessContracts := []
        familyPolicy := none, runtimeConfigurationRevision := 1
        runtimeConfigurationDigest := "", readinessUpdateDue := false
        runtimeRecipe := "" }
    providerCompatibility := [⟨"codex-basic", "alpha", true, none⟩,
      ⟨"codex-basic", "beta", true, none⟩] })

/-- The receipt of an attempt on the route of a family. -/
def receiptOn (turn : TurnId) (provider : ProviderId)
    (family : ModelFamilyId) : BeginTurnAttempt :=
  let route : ExecutionModelRoute :=
    ⟨some [ModelFamilyRole.orchestrator], provider, "openai-api", "secret@1",
      "m"⟩
  { turn := turn
    admissionId := provider
    harnessName := "codex-basic"
    route := ⟨family, provider, "openai-api", "secret@1", "m"⟩
    modelPlan := ⟨2, family, 1, route, [route]⟩
    admittedPlan := ⟨2, family, 1, ⟨route, "1"⟩, [⟨route, "1"⟩], "", "plan:1"⟩
    adapterVersion := 1
    expectedPolicy := none
    executionLeaseId := provider }

/-- The acceptance of a turn. -/
def acceptanceOf (turn : TurnId) : AcceptedCompletion :=
  ⟨turn, 7, "codex-basic", "sha256:h", "sha256:e", "{}", "{}"⟩

def firstThread : ThreadId := ⟨.early 0⟩

/-- A second message is sent while the first has not run, both run on a
provider of their own, and both are accepted. -/
def twoRoutesRun : List ConversationMove :=
  [.operation (.insertInteraction firstThread (some ⟨⟨2⟩, "beta", "m"⟩) true none),
    .starts ⟨1⟩, .starts ⟨2⟩,
    .operation (.beginAttempt (receiptOn ⟨1⟩ "alpha" ⟨1⟩) "1"),
    .operation (.beginAttempt (receiptOn ⟨2⟩ "beta" ⟨2⟩) "2"),
    .operation (.turn (.acceptCompletion ⟨1⟩ (acceptanceOf ⟨1⟩) "3")),
    .operation (.turn (.acceptCompletion ⟨2⟩ (acceptanceOf ⟨2⟩) "4"))]

/-- The thread as it is opened. -/
def twoRoutesOpened : Option CatalogDatabase :=
  (twoRoutes.insertThread plainLibrary firstThread "codex-basic" none
    (some ⟨⟨1⟩, "alpha", "m"⟩)).toOption

/-- The report is blocked although a message was accepted. -/
def lockedAfterAccept (db : CatalogDatabase) : Bool :=
  (match db.compatibilityOn firstThread none with
    | .ok report => decide (report.status = .blocked)
    | .error _ => false) &&
  db.turns.entries.any fun entry =>
    decide (entry.2.threadId = firstThread) && !db.invoked entry.1 &&
      decide (entry.2.completionStatus = .accepted)

theorem not_unlocked_of_locked (h : lockedAfterAccept db = true) :
    ¬ Unlocked firstThread db := by
  simp only [lockedAfterAccept, Bool.and_eq_true, List.any_eq_true,
    Prod.exists, Table.mem_entries, decide_eq_true_eq, Bool.not_eq_true'] at h
  obtain ⟨hblocked, turn, row, hrow, ⟨hthread, hfree⟩, haccepted⟩ := h
  intro hunlocked
  split at hblocked
  case h_1 report hreport =>
    exact hunlocked.continuable report hreport
      ⟨turn, row, ⟨hrow, hthread, hfree⟩, haccepted⟩
      (of_decide_eq_true hblocked)
  case h_2 => cases hblocked

theorem exists_lockedAfterAccept : ∃ start db,
    twoRoutesOpened = some start ∧
    twoRoutesRun.foldlM (nextConversation plainLibrary firstThread
      "codex-basic") start = some db ∧
    (conversationSystem plainLibrary firstThread "codex-basic").Reachable db ∧
    lockedAfterAccept db = true := by
  have hrun : ((twoRoutesOpened.bind fun start =>
      twoRoutesRun.foldlM (nextConversation plainLibrary firstThread
        "codex-basic") start).any lockedAfterAccept) = true := by
    decide
  obtain ⟨db, hbind, hlocked⟩ := (Option.any_eq_true _ _).mp hrun
  obtain ⟨start, hstart, hmoves⟩ := Option.bind_eq_some_iff.mp hbind
  have hopened : start.Opened firstThread "codex-basic" :=
    opened_of_insertThread rfl rfl rfl rfl (toOption_eq_some hstart)
  exact ⟨start, db, hstart, hmoves, reachable_foldlM (.init hopened) hmoves,
    hlocked⟩

end RelayerGraph
