import RelayerGraph.Catalog.ConversationWrites
import RelayerGraph.Catalog.Operations

/-!
# Parallel runs of one conversation

The message turns of a thread run in parallel.  Each is checked against the
report when it is inserted, sent again and begun; its acceptance is not.  So
two turns admitted on different providers while neither is accepted may both
be accepted, and a restart may fail the attempt of a turn that the graph then
turns out to have accepted.  Apart from these two the conversation never locks
itself.
-/

namespace RelayerGraph

open Foundation Checked

/-- What the runs of a conversation ask of the store. -/
inductive ConversationOperation
  | insertInteraction (sender : ThreadId)
      (given : Option InteractionModelSelection)
      (requireModelSelection : Bool) (inputIdentity : Option String)
  | claimRetry (turn : TurnId) (expectedAttempt : AttemptId)
      (given : InteractionModelSelection) (inputIdentity : String)
  | beginAttempt (receipt : CatalogDatabase.BeginTurnAttempt) (now : String)
  | turn (operation : TurnOperation)

inductive ConversationLabel
  | operation (operation : ConversationOperation)
  | beside

variable (library : CatalogLibrary) (thread : ThreadId) (harness : HarnessId)

namespace CatalogDatabase

variable (db : CatalogDatabase)

/-- An operation, with the checks of the report where the code makes them. -/
def converse : ConversationOperation → CatalogResult CatalogDatabase
  | .insertInteraction sender given requireModelSelection inputIdentity => do
      let sent ← db.insertInteraction library (db.validateOn sender none)
        sender given requireModelSelection inputIdentity
      pure (sent.failStaleReturnedMessagesBeside db.turns.nextKey)
  | .claimRetry turn expectedAttempt given inputIdentity => do
      let row ← orThrow (db.turns.get? turn) .rowNotFound
      let threadRow ← orThrow (db.threads.get? row.threadId) .rowNotFound
      db.claimInteractionRetry library
        (db.validateOn row.threadId (some turn)) turn expectedAttempt
        threadRow.harnessConfigurationName given inputIdentity
  | .beginAttempt receipt now => do
      let row ← orThrow (db.turns.get? receipt.turn) .rowNotFound
      db.beginInteractionAttempt library
        (db.validateOn row.threadId (some receipt.turn)) receipt now
  | .turn operation => db.runTurn library operation

/-- The callers name the harness of the turn's thread, import only into other
threads, and stop only turns that wait or run. -/
def Conducts : ConversationOperation → Prop
  | .insertInteraction .. | .claimRetry .. => True
  | .beginAttempt receipt _ =>
      db.RunsUnder thread harness receipt.turn receipt.harnessName
  | .turn operation =>
      match operation with
      | .insertInteraction .. | .claimRetry .. | .beginAttempt .. => False
      | .insertImported imported _ => imported ≠ thread
      | .recordPreExecutionFailure failure _ _ =>
          db.RunsUnder thread harness failure.turn failure.harnessName
      | .recordAdmissionFailure receipt _ _ _ _ =>
          db.RunsUnder thread harness receipt.turn receipt.harnessName
      | .acceptCompletion _ completion _ =>
          db.RunsUnder thread harness completion.turn completion.harnessName
      | .failCompletion failure _ _ =>
          db.RunsUnder thread harness failure.turn failure.harnessName
      | .failInterruptedInput turn name _ _ | .quarantineInput turn name _ =>
          db.RunsUnder thread harness turn name
      | .finishStopped statuses _ _ => CompletionStatus.accepted ∉ statuses
      | _ => True

/-- The turn is a message of the thread. -/
def isMessage (turn : TurnId) : Bool :=
  ((db.turns.get? turn).any fun row => decide (row.threadId = thread)) &&
    !db.invoked turn

/-- The message turn an operation accepts. -/
def accepts : ConversationLabel → Option TurnId
  | .operation (.turn (.acceptCompletion _ completion _)) =>
      if db.isMessage thread completion.turn then some completion.turn
      else none
  | .operation (.turn (.reconcileAccepted turn _ _)) =>
      if db.isMessage thread turn ∧
          ((db.turns.get? turn).any acceptableTurn) = true then
        some turn
      else none
  | _ => none

/-- A thread whose messages all select a model, before any was accepted. -/
def Opened : Prop :=
  Conversation thread harness db ∧
    ∀ turn row, ¬ db.AcceptedMessage thread turn row

end CatalogDatabase

open CatalogDatabase

/-- Steps: an operation that succeeds, or a write of the rest of the
application, which updates rows in place, accepts nothing and redefines no
provider. -/
inductive ConversationStep :
    CatalogDatabase → ConversationLabel → CatalogDatabase → Prop
  | operation {db db' : CatalogDatabase} {operation : ConversationOperation} :
      db.Conducts thread harness operation →
      db.converse library operation = .ok db' →
      ConversationStep db (.operation operation) db'
  | beside {db db' : CatalogDatabase} :
      Updates thread harness none db db' → ConversationStep db .beside db'

/-- The runs of one conversation. -/
def conversationSystem : TransitionSystem CatalogDatabase ConversationLabel where
  init db := db.Opened thread harness
  step := ConversationStep library thread harness

namespace CatalogDatabase

variable {library thread harness} {db db' : CatalogDatabase}

theorem isMessage_iff {turn : TurnId} :
    db.isMessage thread turn = true ↔
      ∃ row, db.MessageTurn thread turn row := by
  simp only [isMessage, Bool.and_eq_true, Option.any_eq_true,
    decide_eq_true_eq, Bool.not_eq_true', MessageTurn]
  constructor
  · rintro ⟨⟨row, hrow, hthread⟩, hfree⟩
    exact ⟨row, hrow, hthread, hfree⟩
  · rintro ⟨row, hrow, hthread, hfree⟩
    exact ⟨⟨row, hrow, hthread⟩, hfree⟩

/-! ## Acceptances -/

/-- An update that accepts the turn it names. -/
theorem RowUpdate.of_accepted {invoked : Bool} {accepts : Prop}
    {row row' : TurnRow} (hplace : row'.threadId = row.threadId)
    (hselected : row'.modelProviderId = row.modelProviderId)
    (haccepts : row.threadId = thread → invoked = false → accepts)
    (haccepted : row'.completionStatus = .accepted)
    (hnamed : row'.harnessConfigurationName.isSome)
    (hharness : row.threadId = thread → ∀ name,
      row'.harnessConfigurationName = some name →
        row.harnessConfigurationName = some name ∨ name = harness) :
    RowUpdate thread harness invoked accepts row row' := by
  refine ⟨hplace, fun _ => by rw [hselected]; exact id, ?_⟩
  intro hthread hfree
  exact ⟨by simp [haccepted, haccepts hthread hfree], fun _ => hselected,
    fun _ => .inr hnamed, hharness hthread⟩

theorem afterStatus_accepted {row : TurnRow}
    (state : Option SubmittedInputState)
    (h : row.completionStatus = .accepted) :
    (afterStatus row state).1 = row := by
  cases state with
  | none => rfl
  | some state => simp [afterStatus, h]

/-- A turn that is accepted with its running attempts, or some of them. -/
theorem updates_accepted {turn : TurnId} {row : TurnRow}
    {change : TurnRow → TurnRow}
    {condition : AttemptId → TurnAttemptRow → Bool} {now : String}
    (hrow : db.turns.get? turn = some row)
    (hopen : row.completionStatus ≠ .accepted)
    (hthreads : db'.threads = db.threads)
    (hproviders : db'.providers = db.providers)
    (hinvocations : db'.invocations = db.invocations)
    (hexecutions : db'.executionPhases = db.executionPhases)
    (hturns : ∃ write : TurnId → TurnRow → TurnRow,
      db'.turns = db.turns.mapRows write ∧
        ∀ id row, db.turns.get? id = some row →
          (id ≠ turn → write id row = row) ∧
          (id = turn → write id row = change row ∨
            ∃ state, write id row = (afterStatus (change row) state).1))
    (hattempts : db'.attempts = (db.updateRunning condition
      (ended now .accepted none "graph_write")).attempts)
    (hcondition : ∀ id attempt, db.attempts.get? id = some attempt →
      attempt.outcome = .running →
        (condition id attempt = true ↔ attempt.turn = turn))
    (hchange : (change row).threadId = row.threadId ∧
      (change row).modelProviderId = row.modelProviderId ∧
      (change row).completionStatus = .accepted ∧
      (change row).harnessConfigurationName.isSome)
    (hharness : row.threadId = thread → ∀ name,
      (change row).harnessConfigurationName = some name →
        row.harnessConfigurationName = some name ∨ name = harness) :
    Updates thread harness
      (if db.isMessage thread turn then some turn else none) db db' := by
  obtain ⟨hplace, hselected, haccepted, hnamed⟩ := hchange
  have htarget : ∀ other row, db.MessageTurn thread other row →
      ((if db.isMessage thread turn = true then some turn else none) =
        some other ↔ other = turn) := by
    intro other otherRow hmessage
    constructor
    · intro heq
      split at heq
      · exact (Option.some.inj heq).symm
      · cases heq
    · rintro rfl
      rw [if_pos (isMessage_iff.mpr ⟨otherRow, hmessage⟩)]
  refine ⟨by rw [hthreads], fun provider => by simp only [definitionOf, hproviders],
    fun turn => by simp only [invoked, hinvocations],
    fun turn hsome => .inl (by rwa [hexecutions] at hsome), ?_, ?_⟩
  · obtain ⟨write, hturns, hwrite⟩ := hturns
    refine ⟨write, hturns, ?_⟩
    intro id stored hstored
    obtain ⟨hother, hself⟩ := hwrite id stored hstored
    by_cases hid : id = turn
    · obtain rfl : stored = row := by
        rw [hid] at hstored
        exact Option.some.inj (hstored.symm.trans hrow)
      have hnew : write id stored = change stored := by
        rcases hself hid with hsame | ⟨state, hsame⟩
        · exact hsame
        · rw [hsame, afterStatus_accepted state haccepted]
      rw [hnew]
      refine .of_accepted hplace hselected ?_ haccepted hnamed hharness
      intro hthread hfree
      rw [htarget id stored ⟨hstored, hthread, hfree⟩]
      exact hid
    · rw [hother hid]
      refine ⟨rfl, fun _ hsome => hsome, ?_⟩
      intro hthread hfree
      have hno := (htarget id stored ⟨hstored, hthread, hfree⟩).not.mpr hid
      have hfalse := eq_false hno
      rw [hfalse]
      exact .refl harness stored
  · refine ⟨fun id attempt => if attempt.outcome = .running ∧
        condition id attempt = true then
          ended now .accepted none "graph_write" attempt
        else attempt, hattempts, ?_⟩
    intro id attempt hattempt
    dsimp only
    split
    case isTrue hended =>
      refine ⟨rfl, fun heq => (by cases heq), ?_⟩
      intro turnRow hmessage
      refine ⟨⟨rfl, rfl, rfl, rfl⟩, ?_⟩
      have hof := (hcondition id attempt hattempt hended.1).mp hended.2
      have hnow : (ended now .accepted none "graph_write" attempt).outcome =
          .accepted := rfl
      rw [htarget _ turnRow hmessage]
      simp [hnow, hof, hended.1]
    case isFalse hkept =>
      refine ⟨rfl, fun hrunning => hrunning, ?_⟩
      intro turnRow hmessage
      refine ⟨⟨rfl, rfl, rfl, rfl⟩, ?_⟩
      rw [htarget _ turnRow hmessage]
      constructor
      · exact .inl
      · rintro (hacc | ⟨hof, hrunning⟩)
        · exact hacc
        · exact absurd ⟨hrunning,
            (hcondition id attempt hattempt hrunning).mpr hof⟩ hkept

theorem updates_acceptCompletion {attempt : AttemptId}
    {completion : AcceptedCompletion} {now : String}
    (hconv : Conversation thread harness db)
    (hname : RunsUnder thread harness db completion.turn
      completion.harnessName)
    (hrun : db.acceptCompletionWithAttempt attempt completion now =
      .ok db') :
    Updates thread harness
      (if db.isMessage thread completion.turn then some completion.turn
        else none) db db' ∧
      ∃ row, db.turns.get? completion.turn = some row ∧
        row.completionStatus ≠ .accepted := by
  simp only [acceptCompletionWithAttempt, runningAttempt, bind_eq_ok_iff,
    require_eq_ok_iff, pure_eq_ok_iff] at hrun
  obtain ⟨_, hattempt, _, hrunning, rfl⟩ := hrun
  obtain ⟨stored, hstored, hown⟩ := (Option.any_eq_true _ _).mp hattempt
  simp only [Bool.and_eq_true, decide_eq_true_eq] at hown
  obtain ⟨row, hrow, hruns⟩ := (Option.any_eq_true _ _).mp hrunning
  have hrow' : db.turns.get? completion.turn = some row := hrow
  have hopen : row.completionStatus ≠ .accepted := by
    intro heq
    simp [heq] at hruns
  refine ⟨?_, row, hrow', hopen⟩
  obtain ⟨hthreads, hproviders, hinvocations, hexecutions, hattempts⟩ :=
    @writeTurn_rest (db.updateRunning (fun key _ => key = attempt)
      (ended now .accepted none "graph_write")) completion.turn
      fun row => { row with
        graphNodeId := some completion.graphNodeId
        completionStatus := .accepted
        harnessConfigurationName := some completion.harnessName
        harnessConfigurationDigest := some completion.harnessDigest
        effectiveExecutionDigest := some completion.executionDigest
        effectivePermissionReceiptJson := some completion.permissionReceipt
        completionOutputJson := some completion.output
        completionError := none }
  refine updates_accepted hrow' hopen hthreads hproviders hinvocations
    hexecutions (writeTurn_rows _ _) hattempts ?_ ⟨rfl, rfl, rfl, rfl⟩ ?_
  · intro id other hother houtcome
    simp only [decide_eq_true_eq]
    constructor
    · rintro rfl
      obtain rfl := Option.some.inj (hother.symm.trans hstored)
      exact hown.1
    · intro hof
      exact hconv.single id other attempt stored hother hstored
        (hof.trans hown.1.symm) houtcome hown.2
  · intro hthread name heq
    right
    rw [← hname row hrow' hthread]
    exact (Option.some.inj heq).symm

theorem updates_reconcileAccepted (turn : TurnId) (output now : String) :
    Updates thread harness
      (if db.isMessage thread turn ∧
          ((db.turns.get? turn).any acceptableTurn) = true then some turn
        else none) db (db.reconcileAccepted turn output now) ∧
      (((db.turns.get? turn).any acceptableTurn) = true →
        ∃ row, db.turns.get? turn = some row ∧
          row.completionStatus ≠ .accepted) := by
  unfold reconcileAccepted
  by_cases hacceptable : ((db.turns.get? turn).any acceptableTurn) = true
  · obtain ⟨row, hrow, hready⟩ := (Option.any_eq_true _ _).mp hacceptable
    have hopen : row.completionStatus ≠ .accepted := by
      intro heq
      simp [acceptableTurn, heq] at hready
    have hnamed : row.harnessConfigurationName.isSome := by
      simp only [acceptableTurn, Bool.and_eq_true] at hready
      exact hready.1.1.1.1.2
    refine ⟨?_, fun _ => ⟨row, hrow, hopen⟩⟩
    rw [if_pos hacceptable]
    simp only [hacceptable, and_true]
    obtain ⟨hthreads, hproviders, hinvocations, hexecutions, hattempts⟩ :=
      @writeTurn_rest db turn fun row => { row with
        completionStatus := .accepted
        completionOutputJson := some output
        completionError := none }
    have hended : ((db.writeTurn turn fun row => { row with
          completionStatus := .accepted
          completionOutputJson := some output
          completionError := none }).updateRunning
            (fun _ attempt => attempt.turn = turn)
            (ended now .accepted none "graph_write")).attempts =
        (db.updateRunning (fun _ attempt => attempt.turn = turn)
          (ended now .accepted none "graph_write")).attempts := by
      simp only [updateRunning, hattempts]
    refine updates_accepted hrow hopen hthreads hproviders hinvocations
      hexecutions (writeTurn_rows _ _) hended ?_ ⟨rfl, rfl, rfl, hnamed⟩ ?_
    · intro id attempt _ _
      simp only [decide_eq_true_eq]
    · intro _ name heq
      exact .inl heq
  · refine ⟨?_, fun hready => absurd hready hacceptable⟩
    rw [if_neg hacceptable, if_neg fun hboth => hacceptable hboth.2]
    exact .refl db

/-! ## One step -/

/-- What a step does: it leaves the accepted messages as they were, or accepts
one more. -/
structure StepMoves (thread : ThreadId) (harness : HarnessId)
    (db : CatalogDatabase) (label : ConversationLabel)
    (db' : CatalogDatabase) : Prop where
  steady : db.accepts thread label = none →
    Conversation thread harness db' ∧ Steady thread db db'
  accepting : ∀ turn, db.accepts thread label = some turn →
    Updates thread harness (some turn) db db' ∧
      ∃ row, db.MessageTurn thread turn row ∧
        row.completionStatus ≠ .accepted

theorem StepMoves.of_unaccepting {label : ConversationLabel}
    (hconv : Conversation thread harness db)
    (hnone : db.accepts thread label = none)
    (h : Unaccepting thread harness db db') :
    StepMoves thread harness db label db' := by
  refine ⟨fun _ => h hconv, ?_⟩
  intro turn hsome
  rw [hnone] at hsome
  cases hsome

/-- An acceptance, of a message of the conversation or of another turn. -/
theorem StepMoves.of_accepted {label : ConversationLabel} {turn : TurnId}
    {applies : Prop} [Decidable applies]
    (hconv : Conversation thread harness db)
    (haccepts : db.accepts thread label =
      if db.isMessage thread turn ∧ applies then some turn else none)
    (h : Updates thread harness
      (if db.isMessage thread turn ∧ applies then some turn else none) db db')
    (hopen : applies → ∃ row, db.turns.get? turn = some row ∧
      row.completionStatus ≠ .accepted) :
    StepMoves thread harness db label db' := by
  by_cases hboth : db.isMessage thread turn = true ∧ applies
  · rw [if_pos hboth] at haccepts h
    refine ⟨fun hnone => ?_, ?_⟩
    · rw [haccepts] at hnone
      cases hnone
    · intro other hsome
      rw [haccepts] at hsome
      obtain rfl := Option.some.inj hsome
      obtain ⟨row, hmessage⟩ := isMessage_iff.mp hboth.1
      obtain ⟨stored, hstored, hunaccepted⟩ := hopen hboth.2
      obtain rfl := Option.some.inj (hstored.symm.trans hmessage.1)
      exact ⟨h, stored, hmessage, hunaccepted⟩
  · rw [if_neg hboth] at haccepts h
    exact .of_unaccepting hconv haccepts h.unaccepting

theorem runsUnder_self {turn : TurnId} {row : TurnRow}
    {threadRow : CatalogThreadRow} (hconv : Conversation thread harness db)
    (hrow : db.turns.get? turn = some row)
    (hthread : db.threads.get? row.threadId = some threadRow) :
    RunsUnder thread harness db turn threadRow.harnessConfigurationName := by
  intro stored hstored hof
  obtain rfl := Option.some.inj (hrow.symm.trans hstored)
  obtain ⟨opened, hopened, hname⟩ := hconv.opened
  rw [hof, hopened] at hthread
  rw [← Option.some.inj hthread]
  exact hname

theorem stepMoves_turn {operation : TurnOperation}
    (hconv : Conversation thread harness db)
    (hconducts : db.Conducts thread harness (.turn operation))
    (hrun : db.runTurn library operation = .ok db') :
    StepMoves thread harness db (.operation (.turn operation)) db' := by
  cases operation with
  | insertInteraction => exact hconducts.elim
  | claimRetry => exact hconducts.elim
  | beginAttempt => exact hconducts.elim
  | insertThread =>
      exact .of_unaccepting hconv rfl
        (addsTurn_insertThread hconv hrun).unaccepting
  | insertInvocation =>
      exact .of_unaccepting hconv rfl
        (addsTurn_insertInvocation hconv hrun).unaccepting
  | insertImported imported sequence =>
      obtain rfl := pure_eq_ok_iff.mp hrun
      exact .of_unaccepting hconv rfl
        (addsTurn_insertImported hconducts).unaccepting
  | recordPreExecutionFailure =>
      exact .of_unaccepting hconv rfl
        (unaccepting_recordPreExecutionFailure hconducts hrun)
  | recordAdmissionFailure =>
      exact .of_unaccepting hconv rfl
        (unaccepting_recordAdmissionFailure hconducts hrun)
  | acceptCompletion attempt completion now =>
      obtain ⟨hupdates, hopen⟩ :=
        updates_acceptCompletion hconv hconducts hrun
      have haccepts : db.accepts thread (.operation (.turn
          (.acceptCompletion attempt completion now))) =
            if db.isMessage thread completion.turn ∧ True then
              some completion.turn
            else none := by
        simp only [accepts, and_true]
      refine .of_accepted hconv haccepts ?_ (fun _ => hopen)
      simpa only [and_true] using hupdates
  | failCompletion =>
      exact .of_unaccepting hconv rfl
        (updates_failCompletion hconducts hrun).unaccepting
  | endNativeWait attempt now =>
      obtain rfl := pure_eq_ok_iff.mp hrun
      exact .of_unaccepting hconv rfl
        (updates_endNativeWait attempt now).unaccepting
  | endExecution =>
      exact .of_unaccepting hconv rfl
        (updates_endExecution hconv hrun).unaccepting
  | recoverInterrupted error preserveIdentified now =>
      obtain rfl := pure_eq_ok_iff.mp hrun
      exact .of_unaccepting hconv rfl
        (updates_recoverInterrupted error preserveIdentified now).unaccepting
  | failInterruptedInput =>
      obtain rfl := pure_eq_ok_iff.mp hrun
      exact .of_unaccepting hconv rfl
        (updates_failInterruptedInput hconducts).unaccepting
  | quarantineInput =>
      obtain rfl := pure_eq_ok_iff.mp hrun
      exact .of_unaccepting hconv rfl
        (updates_quarantineInput hconducts).unaccepting
  | finalizeInput turn error now =>
      obtain rfl := pure_eq_ok_iff.mp hrun
      exact .of_unaccepting hconv rfl
        (updates_finalizeInput turn error now).unaccepting
  | reconcileAccepted turn output now =>
      obtain rfl := pure_eq_ok_iff.mp hrun
      obtain ⟨hupdates, hopen⟩ :=
        @updates_reconcileAccepted thread harness db turn output now
      exact .of_accepted hconv rfl hupdates hopen
  | finishStopped =>
      obtain rfl := pure_eq_ok_iff.mp hrun
      exact .of_unaccepting hconv rfl
        (updates_finishStopped hconducts).unaccepting
  | acknowledgeLease attempt lease now =>
      obtain rfl := pure_eq_ok_iff.mp hrun
      exact .of_unaccepting hconv rfl
        (updates_acknowledgeLease attempt lease now).unaccepting

theorem stepMoves_of_step {label : ConversationLabel}
    (hconv : Conversation thread harness db)
    (hstep : ConversationStep library thread harness db label db') :
    StepMoves thread harness db label db' := by
  cases hstep with
  | beside hupdates => exact .of_unaccepting hconv rfl hupdates.unaccepting
  | operation hconducts hrun =>
      rename_i operation
      cases operation with
      | turn operation => exact stepMoves_turn hconv hconducts hrun
      | insertInteraction sender given requireSelection identity =>
          simp only [converse, bind_eq_ok_iff, pure_eq_ok_iff] at hrun
          obtain ⟨sent, hsent, rfl⟩ := hrun
          have hadds := addsTurn_insertInteraction hconv hsent
          exact .of_unaccepting hconv rfl
            (hadds.unaccepting.trans (updates_failStale _).unaccepting)
      | claimRetry turn attempt given identity =>
          simp only [converse, bind_eq_ok_iff, orThrow_eq_ok_iff] at hrun
          obtain ⟨row, hrow, threadRow, hthread, hretry⟩ := hrun
          exact .of_unaccepting hconv rfl (updates_claimRetry
            (runsUnder_self hconv hrow hthread) hretry).unaccepting
      | beginAttempt receipt now =>
          simp only [converse, bind_eq_ok_iff, orThrow_eq_ok_iff] at hrun
          obtain ⟨row, -, hbegin⟩ := hrun
          obtain ⟨middle, hadds, hupdates, -⟩ :=
            beginAttempt_adds hconducts hbegin
          exact .of_unaccepting hconv rfl
            (hadds.unaccepting.trans hupdates.unaccepting)

theorem conversation_of_reachable
    (hreach : (conversationSystem library thread harness).Reachable db) :
    Conversation thread harness db := by
  refine hreach.invariant (P := Conversation thread harness)
    (fun _ hinit => hinit.1) ?_
  intro before label after _ hconv hstep
  have hmoves := stepMoves_of_step hconv hstep
  cases haccepts : before.accepts thread label with
  | none => exact (hmoves.steady haccepts).1
  | some turn => exact (hmoves.accepting turn haccepts).1.conversation hconv

/-! ## The exact condition -/

/-- The provider an acceptance of the turn settles: that of its running
attempt, or else the one it selected. -/
def Settles (db : CatalogDatabase) (turn : TurnId) (provider : ProviderId) :
    Prop :=
  db.RunsOn turn provider ∨ (∀ other, ¬ db.RunsOn turn other) ∧
    ∃ row, db.turns.get? turn = some row ∧
      row.modelProviderId = some provider

/-- A message is accepted on the provider the accepted messages ran on, and
one whose attempts all ended only after another was accepted. -/
def AcceptsAgreed (thread : ThreadId) (db : CatalogDatabase)
    (label : ConversationLabel) : Prop :=
  ∀ turn, db.accepts thread label = some turn →
    (∀ p other q, db.Settles turn p → db.RanOn thread other q → q = p) ∧
      (db.hasAttempts turn = true → (∀ other, ¬ db.RunsOn turn other) →
        ∃ other row, db.AcceptedMessage thread other row)

theorem exists_settles {turn : TurnId} {row : TurnRow}
    (hconv : Conversation thread harness db)
    (hmessage : db.MessageTurn thread turn row) :
    ∃ p, db.Settles turn p := by
  by_cases hruns : ∃ p, db.RunsOn turn p
  · obtain ⟨p, hp⟩ := hruns
    exact ⟨p, .inl hp⟩
  · obtain ⟨p, hp⟩ := Option.isSome_iff_exists.mp
      (hconv.selected turn row hmessage.1 hmessage.2.1)
    exact ⟨p, .inr ⟨not_exists.mp hruns, row, hmessage.1, hp⟩⟩

theorem settles_unique {turn : TurnId} {p q : ProviderId}
    (hconv : Conversation thread harness db)
    (hp : db.Settles turn p) (hq : db.Settles turn q) : p = q := by
  rcases hp with hrun | ⟨hidle, row, hrow, hselected⟩
  · rcases hq with hrun' | ⟨hidle', -⟩
    · obtain ⟨id, attempt, hattempt, hof, hrunning, rfl⟩ := hrun
      obtain ⟨id', other, hother, hof', hrunning', rfl⟩ := hrun'
      obtain rfl := hconv.single id attempt id' other hattempt hother
        (hof.trans hof'.symm) hrunning hrunning'
      obtain rfl := Option.some.inj (hattempt.symm.trans hother)
      rfl
    · exact absurd hrun (hidle' p)
  · rcases hq with hrun' | ⟨-, row', hrow', hselected'⟩
    · exact absurd hrun' (hidle q)
    · obtain rfl := Option.some.inj (hrow.symm.trans hrow')
      exact Option.some.inj (hselected.symm.trans hselected')

/-- An acceptance leaves the conversation unlocked exactly when it agrees. -/
theorem unlocked_accept_iff {turn : TurnId} {row : TurnRow}
    (hconv : Conversation thread harness db) (hdb : Unlocked thread db)
    (hupdates : Updates thread harness (some turn) db db')
    (hmessage : db.MessageTurn thread turn row)
    (hopen : row.completionStatus ≠ .accepted) :
    Unlocked thread db' ↔
      (∀ p other q, db.Settles turn p → db.RanOn thread other q → q = p) ∧
        (db.hasAttempts turn = true → (∀ other, ¬ db.RunsOn turn other) →
          ∃ other row, db.AcceptedMessage thread other row) := by
  obtain ⟨p, hp⟩ := exists_settles hconv hmessage
  have hsettles : ∀ q, db.Settles turn q ↔ q = p := by
    intro q
    refine ⟨fun hq => settles_unique hconv hq hp, ?_⟩
    rintro rfl
    exact hp
  have hown : ∀ q, db'.RanOn thread turn q ↔ q = p := by
    intro q
    rw [(hupdates.target_ranOn hconv hmessage hopen q).1, ← hsettles q]
    simp only [Settles, hmessage.1, Option.some.injEq, exists_eq_left']
  have hverified := (hupdates.target_ranOn hconv hmessage hopen p).2
  have hunran : ∀ other q, db.RanOn thread other q → turn ≠ other := by
    rintro other q hran rfl
    obtain ⟨stored, hstored, haccepted⟩ := hran.accepted
    obtain rfl := Option.some.inj (hmessage.1.symm.trans hstored.1)
    exact hopen haccepted
  have hother : ∀ other, turn ≠ other → ∀ q,
      db'.RanOn thread other q ↔ db.RanOn thread other q := by
    intro other hne
    exact (hupdates.others (fun heq => hne (Option.some.inj heq))).2.1
  have hconv' := hupdates.conversation hconv
  rw [unlocked_iff hconv']
  have hbefore := (unlocked_iff hconv).mp hdb
  constructor
  · rintro ⟨hroute, hproof⟩
    constructor
    · intro r other q hr hran
      obtain rfl := (hsettles r).mp hr
      exact hroute other turn q r
        ((hother other (hunran other q hran) q).mpr hran) ((hown r).mpr rfl)
    · intro hhas hidle
      have hsome : ∃ turn row, db'.AcceptedMessage thread turn row := by
        obtain ⟨stored, hstored⟩ := ((hown p).mpr rfl).accepted
        exact ⟨turn, stored, hstored⟩
      obtain ⟨other, q, hran, hon⟩ := hproof hsome
      have hne : turn ≠ other := by
        rintro rfl
        rcases hverified.mp hon with ⟨r, hr⟩ | hnone
        · exact hidle r hr
        · rw [hnone] at hhas
          cases hhas
      obtain ⟨stored, hstored⟩ := ((hother other hne q).mp hran).accepted
      exact ⟨other, stored, hstored⟩
  · rintro ⟨hagreed, hrecorded⟩
    constructor
    · intro first second q r hq hr
      by_cases hfirst : turn = first
      · obtain rfl := hfirst
        by_cases hsecond : turn = second
        · obtain rfl := hsecond
          rw [(hown q).mp hq, (hown r).mp hr]
        · rw [(hown q).mp hq]
          exact (hagreed p second r hp ((hother second hsecond r).mp hr)).symm
      · have hq := (hother first hfirst q).mp hq
        by_cases hsecond : turn = second
        · obtain rfl := hsecond
          rw [(hown r).mp hr]
          exact hagreed p first q hp hq
        · exact hbefore.1 first second q r hq
            ((hother second hsecond r).mp hr)
    · intro _
      by_cases hself : db'.Verified turn
      · exact ⟨turn, p, (hown p).mpr rfl, hself⟩
      · rw [hverified, not_or, not_exists, Bool.not_eq_false] at hself
        obtain ⟨other, stored, hstored⟩ := hrecorded hself.2 hself.1
        obtain ⟨verified, q, hran, hon⟩ := hbefore.2 ⟨other, stored, hstored⟩
        have hne := hunran verified q hran
        refine ⟨verified, q, (hother verified hne q).mpr hran, ?_⟩
        exact ((hupdates.others (fun heq => hne (Option.some.inj heq))).2.2
          hran.accepted).mpr hon

theorem unlocked_step_iff {label : ConversationLabel}
    (hconv : Conversation thread harness db) (hdb : Unlocked thread db)
    (hstep : ConversationStep library thread harness db label db') :
    Unlocked thread db' ↔ AcceptsAgreed thread db label := by
  have hmoves := stepMoves_of_step hconv hstep
  cases haccepts : db.accepts thread label with
  | none =>
      obtain ⟨hconv', hsteady⟩ := hmoves.steady haccepts
      rw [hsteady.unlocked_iff hconv hconv']
      simp [AcceptsAgreed, haccepts, hdb]
  | some turn =>
      obtain ⟨hupdates, row, hmessage, hopen⟩ :=
        hmoves.accepting turn haccepts
      rw [unlocked_accept_iff hconv hdb hupdates hmessage hopen]
      simp [AcceptsAgreed, haccepts]

/-- A thread without an accepted message is unlocked. -/
theorem unlocked_of_opened (h : db.Opened thread harness) :
    Unlocked thread db := by
  rw [unlocked_iff h.1]
  refine ⟨?_, ?_⟩
  · intro turn _ p _ hran _
    obtain ⟨row, haccepted⟩ := hran.accepted
    exact absurd haccepted (h.2 turn row)
  · rintro ⟨turn, row, haccepted⟩
    exact absurd haccepted (h.2 turn row)

/-- Between unlocked states a step keeps the reported owner, and changes it
only by an acceptance. -/
theorem owner_step {label : ConversationLabel}
    (hconv : Conversation thread harness db) (hdb : Unlocked thread db)
    (hdb' : Unlocked thread db')
    (hstep : ConversationStep library thread harness db label db') :
    (∀ p, db.reportedOwner thread = some p →
      db'.reportedOwner thread = some p) ∧
      (db.accepts thread label = none →
        db'.reportedOwner thread = db.reportedOwner thread) := by
  have hmoves := stepMoves_of_step hconv hstep
  cases haccepts : db.accepts thread label with
  | none =>
      obtain ⟨hconv', hsteady⟩ := hmoves.steady haccepts
      have hsame := hsteady.reportedOwner_eq hconv hconv' hdb
      refine ⟨?_, fun _ => hsame⟩
      intro p hp
      rw [hsame, hp]
  | some turn =>
      refine ⟨?_, fun hnone => by cases hnone⟩
      obtain ⟨hupdates, row, hmessage, hopen⟩ :=
        hmoves.accepting turn haccepts
      have hconv' := hupdates.conversation hconv
      intro p hp
      obtain ⟨other, hran, hon⟩ :=
        (reportedOwner_eq_some_iff hconv hdb).mp hp
      have hne : turn ≠ other := by
        rintro rfl
        obtain ⟨stored, hstored, haccepted⟩ := hran.accepted
        obtain rfl := Option.some.inj (hmessage.1.symm.trans hstored.1)
        exact hopen haccepted
      obtain ⟨-, hrans, hons⟩ :=
        hupdates.others (fun heq => hne (Option.some.inj heq))
      exact (reportedOwner_eq_some_iff hconv' hdb').mpr
        ⟨other, (hrans p).mpr hran, (hons hran.accepted).mpr hon⟩

end CatalogDatabase

end RelayerGraph
