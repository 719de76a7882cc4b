import RelayerGraph.Catalog.ConversationMoves

/-!
# How each operation moves a conversation

Operation by operation: a message that is sent adds a turn, an attempt that
begins or fails adds one to a turn that runs, and whatever ends, restarts or
stops a turn updates it in place without accepting it.
-/

namespace RelayerGraph

open Foundation Checked

namespace CatalogDatabase

section Writes

variable {thread : ThreadId} {harness : HarnessId} {db db' : CatalogDatabase}

/-! ## Turns that are not accepted -/

/-- An update between statuses other than accepted, with a harness the
conversation has. -/
theorem RowUpdate.of_open {invoked : Bool} {row row' : TurnRow}
    (hplace : row'.threadId = row.threadId)
    (hselected : row.modelProviderId.isSome → row'.modelProviderId.isSome)
    (hopen : row.completionStatus ≠ .accepted)
    (hopen' : row'.completionStatus ≠ .accepted)
    (hharness : row.threadId = thread → ∀ name,
      row'.harnessConfigurationName = some name →
        row.harnessConfigurationName = some name ∨ name = harness) :
    RowUpdate thread harness invoked False row row' := by
  refine ⟨hplace, fun _ => hselected, ?_⟩
  intro hthread _
  exact ⟨by simp [hopen, hopen'], by simp [hopen],
    fun haccepted => absurd haccepted hopen', hharness hthread⟩

theorem afterStatus_open {row : TurnRow} {state : Option SubmittedInputState}
    (h : row.completionStatus ≠ .accepted) :
    (afterStatus row state).1.completionStatus ≠ .accepted := by
  cases state with
  | none => exact h
  | some state =>
      unfold afterStatus
      cases hstatus : row.completionStatus <;> simp only [] <;>
        (try split) <;> simp_all

theorem afterStatus_columns (row : TurnRow)
    (state : Option SubmittedInputState) :
    (afterStatus row state).1.threadId = row.threadId ∧
      (afterStatus row state).1.modelProviderId = row.modelProviderId ∧
      (afterStatus row state).1.harnessConfigurationName =
        row.harnessConfigurationName := by
  cases state with
  | none => exact ⟨rfl, rfl, rfl⟩
  | some state =>
      unfold afterStatus
      cases hstatus : row.completionStatus <;> dsimp only <;>
        first
          | exact ⟨rfl, rfl, rfl⟩
          | split <;> exact ⟨rfl, rfl, rfl⟩

/-- A change that leaves an open turn open. -/
structure OpenChange (thread : ThreadId) (harness : HarnessId)
    (row row' : TurnRow) : Prop where
  place : row'.threadId = row.threadId
  selected : row.modelProviderId.isSome → row'.modelProviderId.isSome
  before : row.completionStatus ≠ .accepted
  after : row'.completionStatus ≠ .accepted
  harness : row.threadId = thread → ∀ name,
    row'.harnessConfigurationName = some name →
      row.harnessConfigurationName = some name ∨ name = harness

theorem OpenChange.update {invoked : Bool} {row row' : TurnRow}
    (h : OpenChange thread harness row row') :
    RowUpdate thread harness invoked False row row' :=
  .of_open h.place h.selected h.before h.after h.harness

theorem OpenChange.afterStatus {row row' : TurnRow}
    (h : OpenChange thread harness row row')
    (state : Option SubmittedInputState) :
    OpenChange thread harness row (afterStatus row' state).1 := by
  obtain ⟨hthread, hprovider, hname⟩ := afterStatus_columns row' state
  refine ⟨hthread.trans h.place, ?_, h.before, afterStatus_open h.after, ?_⟩
  · rw [hprovider]
    exact h.selected
  · rw [hname]
    exact h.harness

/-- The rows a write of one turn leaves. -/
theorem writeTurn_rows (turn : TurnId) (change : TurnRow → TurnRow) :
    ∃ write : TurnId → TurnRow → TurnRow,
      (db.writeTurn turn change).turns = db.turns.mapRows write ∧
      ∀ id row, db.turns.get? id = some row →
        (id ≠ turn → write id row = row) ∧
        (id = turn → write id row = change row ∨
          ∃ state, write id row = (afterStatus (change row) state).1) := by
  unfold writeTurn
  cases hturn : db.turns.get? turn with
  | none =>
      refine ⟨fun _ row => row, (Table.mapRows_self _).symm, ?_⟩
      intro id row hrow
      refine ⟨fun _ => rfl, ?_⟩
      rintro rfl
      rw [hturn] at hrow
      cases hrow
  | some old =>
      refine ⟨fun key other => if key = turn then
        (if (change old).completionStatus = old.completionStatus then
          (change old, db.submittedInputs turn)
        else
          afterStatus (change old) (db.submittedInputs turn)).1
        else other, rfl, ?_⟩
      intro id row hrow
      refine ⟨fun hne => if_neg hne, ?_⟩
      rintro rfl
      obtain rfl := Option.some.inj (hturn.symm.trans hrow)
      dsimp only
      rw [if_pos rfl]
      split
      · exact .inl rfl
      · exact .inr ⟨_, rfl⟩

theorem writeTurn_rest (turn : TurnId) (change : TurnRow → TurnRow) :
    (db.writeTurn turn change).threads = db.threads ∧
      (db.writeTurn turn change).providers = db.providers ∧
      (db.writeTurn turn change).invocations = db.invocations ∧
      (db.writeTurn turn change).executionPhases = db.executionPhases ∧
      (db.writeTurn turn change).attempts = db.attempts := by
  unfold writeTurn
  cases db.turns.get? turn <;> exact ⟨rfl, rfl, rfl, rfl, rfl⟩

/-- Attempts stay as they are. -/
theorem attempts_stay (target : Option TurnId)
    (htarget : ∀ turn, target = some turn → ∀ p, ¬ db.RunsOn turn p)
    (h : db'.attempts = db.attempts) :
    ∃ change : AttemptId → TurnAttemptRow → TurnAttemptRow,
      db'.attempts = db.attempts.mapRows change ∧
        ∀ id row, db.attempts.get? id = some row →
          (change id row).turn = row.turn ∧
          ((change id row).outcome = .running → row.outcome = .running) ∧
          ∀ turnRow, db.MessageTurn thread row.turn turnRow →
            AttemptUpdate (target = some row.turn) row (change id row) := by
  refine ⟨fun _ row => row, by rw [h, Table.mapRows_self], ?_⟩
  intro id row hrow
  refine ⟨rfl, fun hrunning => hrunning, ?_⟩
  intro _ _
  refine ⟨⟨rfl, rfl, rfl, rfl⟩, ?_⟩
  constructor
  · exact .inl
  · rintro (haccepted | ⟨hsome, hrunning⟩)
    · exact haccepted
    · exact absurd ⟨id, row, hrow, rfl, hrunning, rfl⟩
        (htarget row.turn hsome row.providerId)

theorem updates_writeTurn {turn : TurnId} {change : TurnRow → TurnRow}
    (h : ∀ row, db.turns.get? turn = some row →
      OpenChange thread harness row (change row)) :
    Updates thread harness none db (db.writeTurn turn change) := by
  obtain ⟨hthreads, hproviders, hinvocations, hexecutions, hattempts⟩ :=
    @writeTurn_rest db turn change
  obtain ⟨write, hturns, hwrite⟩ := @writeTurn_rows db turn change
  refine ⟨by rw [hthreads], fun provider => by simp only [definitionOf, hproviders],
    fun turn => by simp only [invoked, hinvocations],
    fun turn hsome => .inl (by rwa [hexecutions] at hsome),
    ⟨write, hturns, ?_⟩, attempts_stay none (by simp) hattempts⟩
  intro id row hrow
  obtain ⟨hother, hself⟩ := hwrite id row hrow
  by_cases hid : id = turn
  · have hrow' : db.turns.get? turn = some row := by rw [← hid, hrow]
    have hchange := h row hrow'
    have hopen : OpenChange thread harness row (write id row) := by
      rcases hself hid with hsame | ⟨state, hsame⟩
      · rw [hsame]
        exact hchange
      · rw [hsame]
        exact hchange.afterStatus state
    exact hopen.update.congr (by simp)
  · rw [hother hid]
    exact (RowUpdate.refl _ row).congr (by simp)

/-- Writes of open turns, one after the other. -/
theorem updates_writes {turns : List TurnId} {change : TurnRow → TurnRow}
    (hchange : ∀ row, row.completionStatus ≠ .accepted →
      OpenChange thread harness row (change row))
    (hopen : ∀ turn ∈ turns, ∀ row, db.turns.get? turn = some row →
      row.completionStatus ≠ .accepted) :
    Updates thread harness none db
      (turns.foldl (fun state turn => state.writeTurn turn change) db) := by
  induction turns generalizing db with
  | nil => exact .refl db
  | cons turn turns ih =>
      rw [List.foldl_cons]
      have hfirst : Updates thread harness none db
          (db.writeTurn turn change) :=
        updates_writeTurn fun row hrow =>
          hchange row (hopen turn (by simp) row hrow)
      refine hfirst.trans (ih ?_)
      intro other hother row' hrow'
      obtain ⟨write, hturns, hwrite⟩ := @writeTurn_rows db turn change
      rw [hturns, Table.get?_mapRows] at hrow'
      obtain ⟨row, hrow, rfl⟩ := Option.map_eq_some_iff.mp hrow'
      have hbefore := hopen other (by simp [hother]) row hrow
      obtain ⟨hkept, hself⟩ := hwrite other row hrow
      by_cases hsame : other = turn
      · have hafter := (hchange row hbefore).after
        rcases hself hsame with heq | ⟨state, heq⟩
        · rw [heq]
          exact hafter
        · rw [heq]
          exact afterStatus_open hafter
      · rw [hkept hsame]
        exact hbefore

theorem updates_writeTurns {condition : TurnId → TurnRow → Bool}
    {change : TurnRow → TurnRow}
    (hchange : ∀ row, row.completionStatus ≠ .accepted →
      OpenChange thread harness row (change row))
    (hopen : ∀ id row, condition id row = true →
      row.completionStatus ≠ .accepted) :
    Updates thread harness none db (db.writeTurns condition change) := by
  apply updates_writes hchange
  intro turn hturn row hrow
  obtain ⟨stored, hstored, hcondition⟩ := Table.mem_select.mp hturn
  obtain rfl := Option.some.inj (hrow.symm.trans hstored)
  exact hopen turn row hcondition

/-- A change that keeps every column but the status, its error and those of
the execution. -/
theorem OpenChange.of_columns {row row' : TurnRow}
    (hplace : row'.threadId = row.threadId)
    (hselected : row'.modelProviderId = row.modelProviderId)
    (hopen : row.completionStatus ≠ .accepted)
    (hopen' : row'.completionStatus ≠ .accepted)
    (hharness : row'.harnessConfigurationName = row.harnessConfigurationName ∨
      (row.threadId = thread →
        row'.harnessConfigurationName = some harness)) :
    OpenChange thread harness row row' := by
  refine ⟨hplace, by rw [hselected]; exact id, hopen, hopen', ?_⟩
  intro hthread name hname
  rcases hharness with hsame | hown
  · exact .inl (hsame.symm.trans hname)
  · rw [hown hthread] at hname
    exact .inr (Option.some.inj hname).symm

theorem updates_failStale (turn : TurnId) :
    Updates thread harness none db
      (db.failStaleReturnedMessagesBeside turn) := by
  unfold failStaleReturnedMessagesBeside
  cases db.turns.get? turn with
  | none => exact .refl db
  | some beside =>
      apply updates_writeTurns
      · intro row hopen
        exact .of_columns rfl rfl hopen (fun heq => by cases heq) (.inl rfl)
      · intro id row hcondition heq
        simp [heq] at hcondition

/-! ## Attempts that end -/

/-- A change of running attempts that accepts none. -/
theorem updates_updateRunning
    {condition : AttemptId → TurnAttemptRow → Bool}
    {change : TurnAttemptRow → TurnAttemptRow}
    (hchange : ∀ id row, db.attempts.get? id = some row →
      row.outcome = .running → condition id row = true →
      (change row).turn = row.turn ∧
        ∀ turnRow, db.MessageTurn thread row.turn turnRow →
          AttemptUpdate False row (change row)) :
    Updates thread harness none db (db.updateRunning condition change) := by
  refine ⟨rfl, fun _ => rfl, fun _ => rfl, fun _ hsome => .inl hsome,
    ⟨fun _ row => row, (Table.mapRows_self _).symm, ?_⟩,
    ⟨fun id row => if row.outcome = .running ∧ condition id row = true
      then change row else row, rfl, ?_⟩⟩
  · intro id row _
    exact (RowUpdate.refl _ row).congr (by simp)
  · intro id row hrow
    have hnone : (none = some row.turn) = False := by simp
    rw [hnone]
    dsimp only
    by_cases hselected : row.outcome = .running ∧ condition id row = true
    · rw [if_pos hselected]
      obtain ⟨hturn, hroute⟩ := hchange id row hrow hselected.1 hselected.2
      exact ⟨hturn, fun _ => hselected.1, hroute⟩
    · rw [if_neg hselected]
      exact ⟨rfl, fun hrunning => hrunning, fun _ _ => .refl row⟩

theorem attemptUpdate_ended {now boundary : String} {outcome : AttemptOutcome}
    {category : Option String} {row : TurnAttemptRow}
    (hrunning : row.outcome = .running) (houtcome : outcome ≠ .accepted) :
    AttemptUpdate False row (ended now outcome category boundary row) := by
  refine ⟨⟨rfl, rfl, rfl, rfl⟩, ?_⟩
  have hopen : (ended now outcome category boundary row).outcome = outcome :=
    rfl
  simp [hopen, houtcome, hrunning]

/-- Running attempts that end without an acceptance. -/
theorem updates_ended {condition : AttemptId → TurnAttemptRow → Bool}
    {now boundary : String} {outcome : AttemptOutcome}
    {category : Option String} (houtcome : outcome ≠ .accepted) :
    Updates thread harness none db (db.updateRunning condition
      (ended now outcome category boundary)) :=
  updates_updateRunning fun _ _ _ hrunning _ =>
    ⟨rfl, fun _ _ => attemptUpdate_ended hrunning houtcome⟩

/-- Running attempts a restart fails. -/
theorem updates_failed {condition : AttemptId → TurnAttemptRow → Bool}
    {now category : String} :
    Updates thread harness none db (db.updateRunning condition
      (ended now .executionFailed (some category) "unknown")) :=
  updates_ended fun heq => by cases heq

theorem updates_waited {condition : AttemptId → TurnAttemptRow → Bool}
    {now : String} :
    Updates thread harness none db (db.updateRunning condition
      fun row => { row with nativeWaitEndedAt := some now }) :=
  updates_updateRunning fun _ row _ _ _ =>
    ⟨rfl, fun _ _ => ⟨⟨rfl, rfl, rfl, rfl⟩, by simp⟩⟩

/-- An update of a table no message depends on. -/
theorem updates_stopRequests (requests : TurnId → Bool) :
    Updates thread harness none db { db with stopRequests := requests } := by
  have hsame : Updates thread harness none db db := .refl db
  exact ⟨rfl, fun _ => rfl, fun _ => rfl, fun _ hsome => .inl hsome,
    hsame.turns, hsame.attempts⟩

/-! ## Writes that accept nothing -/

/-- The conversation stays, and so do its accepted messages. -/
def Unaccepting (thread : ThreadId) (harness : HarnessId)
    (db db' : CatalogDatabase) : Prop :=
  Conversation thread harness db →
    Conversation thread harness db' ∧ Steady thread db db'

theorem Unaccepting.trans {db'' : CatalogDatabase}
    (h : Unaccepting thread harness db db')
    (h' : Unaccepting thread harness db' db'') :
    Unaccepting thread harness db db'' := by
  intro hconv
  obtain ⟨hconv', hsteady⟩ := h hconv
  obtain ⟨hconv'', hsteady'⟩ := h' hconv'
  exact ⟨hconv'', hsteady.trans hsteady'⟩

theorem Updates.unaccepting (h : Updates thread harness none db db') :
    Unaccepting thread harness db db' :=
  fun hconv => ⟨h.conversation hconv, h.steady⟩

theorem AddsTurn.unaccepting (h : AddsTurn thread db db') :
    Unaccepting thread harness db db' :=
  fun hconv => h.conversation hconv

theorem AddsAttempt.unaccepting (h : AddsAttempt thread harness db db') :
    Unaccepting thread harness db db' :=
  fun hconv => h.conversation hconv

/-! ## Turns that are sent -/

variable {library : CatalogLibrary}
  {compatible : ValidateModelSelectionCommand → Bool}

/-- A fold that keeps the latest choice or takes the row ends with a row or
with what it started from. -/
theorem foldl_choice {β : Type} {choose : Option β → β → Option β}
    (hchoose : ∀ latest row,
      choose latest row = some row ∨ choose latest row = latest)
    {rows : List β} {start : Option β} {row : β}
    (h : rows.foldl choose start = some row) : row ∈ rows ∨ start = some row := by
  induction rows generalizing start with
  | nil => exact .inr h
  | cons first rows ih =>
      rcases ih h with hin | hfirst
      · exact .inl (List.mem_cons_of_mem _ hin)
      · rcases hchoose start first with htake | hkeep
        · rw [htake] at hfirst
          obtain rfl := Option.some.inj hfirst
          exact .inl List.mem_cons_self
        · rw [hkeep] at hfirst
          exact .inr hfirst

/-- A fold that always has a choice ends with one. -/
theorem isSome_foldl_choice {β : Type} {choose : Option β → β → Option β}
    (hchoose : ∀ latest row, (choose latest row).isSome = true)
    {rows : List β} {start : Option β}
    (h : start.isSome = true ∨ rows ≠ []) :
    (rows.foldl choose start).isSome = true := by
  induction rows generalizing start with
  | nil => simpa using h
  | cons first rows ih => exact ih (.inl (hchoose start first))

/-- The row the fold over the human turns ends with is one of them. -/
theorem latestHumanTurn_some {row : TurnRow}
    (h : db.latestHumanTurn thread = some row) :
    ∃ turn, db.turns.get? turn = some row ∧ row.threadId = thread := by
  unfold latestHumanTurn at h
  rcases foldl_choice (by
    intro latest row
    cases latest with
    | none => exact .inl rfl
    | some other => exact ite_eq_or_eq _ _ _) h with hin | hnone
  · obtain ⟨⟨turn, stored⟩, hentry, rfl⟩ := List.mem_map.mp hin
    simp only [List.mem_filter, Table.mem_entries, Bool.and_eq_true,
      decide_eq_true_eq] at hentry
    exact ⟨turn, hentry.1, hentry.2.1⟩
  · cases hnone

/-- A message turn makes the fold find one. -/
theorem latestHumanTurn_isSome {turn : TurnId} {row : TurnRow}
    (h : db.MessageTurn thread turn row) :
    (db.latestHumanTurn thread).isSome = true := by
  obtain ⟨hrow, hthread, hfree⟩ := h
  refine isSome_foldl_choice ?_ (.inr ?_)
  · intro latest row
    cases latest with
    | none => rfl
    | some other =>
        dsimp only
        split <;> rfl
  · intro hnil
    have hentry : (turn, row) ∈ db.turns.entries.filter fun entry =>
        decide (entry.2.threadId = thread) &&
          !(db.invocations.any fun invocation =>
            decide (invocation.resultTurn = entry.1) &&
              invocation.agentInvoked) := by
      simp only [List.mem_filter, Table.mem_entries, Bool.and_eq_true,
        decide_eq_true_eq, Bool.not_eq_true', List.any_eq_false]
      refine ⟨hrow, hthread, ?_⟩
      intro invocation hinvocation hboth
      simp only [invoked, List.any_eq_false, decide_eq_true_eq] at hfree
      exact hfree invocation hinvocation hboth.1
    have hmem := List.mem_map_of_mem (f := Prod.snd) hentry
    rw [hnil] at hmem
    simp at hmem

/-- The stored selection of a row that has a provider is not absent. -/
theorem selection_ne_none {row : TurnRow} (h : row.modelProviderId.isSome) :
    row.selection ≠ .ok none := by
  intro hnone
  obtain ⟨provider, hprovider⟩ := Option.isSome_iff_exists.mp h
  unfold TurnRow.selection at hnone
  rw [hprovider] at hnone
  split at hnone
  · rename_i heq _ _
    cases heq
  · split at hnone
    · cases Except.ok.inj hnone
    · cases hnone
  · cases hnone

theorem withSelection_isSome (row : TurnRow)
    (selection : InteractionModelSelection) :
    (row.withSelection (some selection)).modelProviderId.isSome = true := rfl

/-- A message is added with a selection. -/
theorem addsTurn_insertInteraction {sender : ThreadId}
    {given : Option InteractionModelSelection} {requireSelection : Bool}
    {identity : Option String} (hconv : Conversation thread harness db)
    (hrun : db.insertInteraction library compatible sender given
      requireSelection identity = .ok db') : AddsTurn thread db db' := by
  simp only [insertInteraction, bind_eq_ok_iff, pure_eq_ok_iff] at hrun
  obtain ⟨threadRow, -, inherited, hinherited, selection, hselection, rfl⟩ :=
    hrun
  refine ⟨rfl, rfl, rfl, rfl, fun _ hinvoked => hinvoked, fun _ _ => rfl,
    ⟨_, rfl, fun heq => (by cases heq), rfl, ?_⟩⟩
  intro hthread
  have hsender : sender = thread := hthread
  cases inherited with
  | some chosen =>
      simp only [admittedSelection, bind_eq_ok_iff, pure_eq_ok_iff]
        at hselection
      obtain ⟨resolved, -, _, -, rfl⟩ := hselection
      rfl
  | none =>
      exfalso
      obtain ⟨turn, row, hmessage⟩ := hconv.spoken
      obtain ⟨latest, hlatest⟩ := Option.isSome_iff_exists.mp
        (latestHumanTurn_isSome hmessage)
      rw [← hsender] at hlatest
      unfold inheritedSelection at hinherited
      rw [hlatest] at hinherited
      cases given with
      | some chosen => cases pure_eq_ok_iff.mp hinherited
      | none =>
          rw [hsender] at hlatest
          obtain ⟨turn, hturn, hof⟩ := latestHumanTurn_some hlatest
          exact selection_ne_none (hconv.selected turn latest hturn hof)
            hinherited

theorem addsTurn_insertThread {other : ThreadId} {name : HarnessId}
    {required : Option String} {given : Option InteractionModelSelection}
    (hconv : Conversation thread harness db)
    (hrun : db.insertThread library other name required given = .ok db') :
    AddsTurn thread db db' := by
  simp only [insertThread, bind_eq_ok_iff, pure_eq_ok_iff,
    require_eq_ok_iff] at hrun
  obtain ⟨_, hnew, selection, -, rfl⟩ := hrun
  have hne : other ≠ thread := by
    rintro rfl
    obtain ⟨row, hrow, -⟩ := hconv.opened
    rw [hnew] at hrow
    cases hrow
  refine ⟨?_, rfl, rfl, rfl, fun _ hinvoked => hinvoked, fun _ _ => rfl,
    ⟨_, rfl, fun heq => (by cases heq), rfl, fun hthread =>
      absurd hthread hne⟩⟩
  simp [Keyed.get?_put, hne.symm]

theorem addsTurn_insertInvocation {source : TurnId}
    {recursive authoritative agentInvoked : Bool}
    (hconv : Conversation thread harness db)
    (hrun : db.insertActionInvocation library source recursive authoritative
      agentInvoked = .ok db') : AddsTurn thread db db' := by
  simp only [insertActionInvocation, bind_eq_ok_iff, pure_eq_ok_iff,
    orThrow_eq_ok_iff] at hrun
  obtain ⟨row, hrow, threadRow, -, _, -, inherited, hinherited, selection,
    hselection, rfl⟩ := hrun
  refine ⟨rfl, rfl, rfl, rfl, ?_, ?_, ⟨_, rfl, fun heq => (by cases heq), rfl,
    ?_⟩⟩
  · intro turn hinvoked
    simp only [invoked, List.any_append, Bool.or_eq_true]
    exact .inl hinvoked
  · intro turn hne
    have hother : (db.turns.nextKey = turn) = False := by
      simp [Ne.symm hne]
    simp [invoked, List.any_append, hother]
  · intro hthread
    have hof : row.threadId = thread := hthread
    cases inherited with
    | some chosen =>
        simp only [resolvedSource, bind_eq_ok_iff, pure_eq_ok_iff]
          at hselection
        obtain ⟨resolved, -, rfl⟩ := hselection
        rfl
    | none =>
        exfalso
        have hselected := selection_ne_none
          (hconv.selected source row hrow hof)
        unfold sourceSelection at hinherited
        dsimp only at hinherited
        split at hinherited
        · rename_i hnone
          exact hselected hnone
        · cases pure_eq_ok_iff.mp hinherited
        · cases hinherited

theorem addsTurn_insertImported {other : ThreadId} {sequence : ℕ}
    (hne : other ≠ thread) :
    AddsTurn thread db (db.insertImportedTurn other sequence) :=
  ⟨rfl, rfl, rfl, rfl, fun _ hinvoked => hinvoked, fun _ _ => rfl,
    ⟨_, rfl, fun heq => (by cases heq), rfl, fun hthread =>
      absurd hthread hne⟩⟩

/-- An update of turns by key, with no other change. -/
theorem updates_mapTurns {change : TurnId → TurnRow → TurnRow}
    (h : ∀ id row, db.turns.get? id = some row →
      RowUpdate thread harness (db.invoked id) False row (change id row)) :
    Updates thread harness none db
      { db with turns := db.turns.mapRows change } :=
  ⟨rfl, fun _ => rfl, fun _ => rfl, fun _ hsome => .inl hsome,
    ⟨change, rfl, fun id row hrow => (h id row hrow).congr (by simp)⟩,
    attempts_stay none (by simp) rfl⟩

/-- The turn belongs to another thread, or runs under the conversation's
harness. -/
def RunsUnder (thread : ThreadId) (harness : HarnessId) (db : CatalogDatabase)
    (turn : TurnId) (name : HarnessId) : Prop :=
  ∀ row, db.turns.get? turn = some row → row.threadId = thread →
    name = harness

theorem updates_claimRetry {turn : TurnId} {attempt : AttemptId}
    {name : HarnessId} {given : InteractionModelSelection} {identity : String}
    (hname : RunsUnder thread harness db turn name)
    (hrun : db.claimInteractionRetry library compatible turn attempt name
      given identity = .ok db') : Updates thread harness none db db' := by
  simp only [claimInteractionRetry, bind_eq_ok_iff, pure_eq_ok_iff,
    orThrow_eq_ok_iff, require_eq_ok_iff] at hrun
  obtain ⟨_, -, _, -, row, hrow, _, hdraft, _, -, selection, -, _, -, _, -,
    rfl⟩ := hrun
  apply updates_mapTurns
  intro id stored hstored
  by_cases hid : id = turn
  · rw [if_pos hid]
    rw [hid, hrow] at hstored
    obtain rfl := Option.some.inj hstored
    apply OpenChange.update
    refine ⟨rfl, fun _ => rfl, ?_, fun heq => (by cases heq), ?_⟩
    · rw [hdraft]
      exact fun heq => by cases heq
    · intro hthread other hother
      right
      rw [← hname row hrow hthread]
      exact (Option.some.inj hother).symm
  · rw [if_neg hid]
    exact .refl _ stored

/-! ## Attempts that begin or never ran -/

theorem validateExecutionModelSelection_definition
    {selection : InteractionModelSelection} {route : ExecutionModelSelection}
    (hrun : db.validateExecutionModelSelection library harness selection =
      .ok route) :
    db.definitionOf route.providerId =
      some (route.adapterId, route.accessContract) := by
  simp only [validateExecutionModelSelection, bind_eq_ok_iff,
    pure_eq_ok_iff] at hrun
  obtain ⟨rows, hrows, rfl⟩ := hrun
  have hprovider := (checkedSelection_ok hrows).1
  dsimp only at hprovider
  simp [definitionOf, hprovider]

/-- The route of a plan has the definition its provider has. -/
theorem resolveExecutionModelPlan_definition
    {selection : InteractionModelSelection} {plan : ExecutionModelPlan}
    {route : ExecutionModelSelection}
    (hrun : db.resolveExecutionModelPlan library harness selection =
      .ok (plan, route)) :
    db.definitionOf route.providerId =
      some (route.adapterId, route.accessContract) := by
  simp only [resolveExecutionModelPlan, bind_eq_ok_iff,
    orThrow_eq_ok_iff] at hrun
  obtain ⟨_, -, family, -, _, -, orchestrator, -, hroute⟩ := hrun
  split at hroute
  case h_1 valid hvalid =>
      simp only [bind_eq_ok_iff, pure_eq_ok_iff, Prod.mk.injEq,
        exists_eq_left'] at hroute
      obtain ⟨_, -, _, -, _, -, -, rfl⟩ := hroute
      exact validateExecutionModelSelection_definition hvalid
  all_goals
    simp only [bind_eq_ok_iff] at hroute
    obtain ⟨_, hfailed, -⟩ := hroute
    cases hfailed

theorem idle_of_someRunning {turn : TurnId}
    (h : db.someRunning (fun _ attempt => attempt.turn = turn) = false) :
    ∀ id old, db.attempts.get? id = some old → old.turn = turn →
      old.outcome ≠ .running := by
  intro id old hold hof hrunning
  simp only [someRunning, List.any_eq_false, Bool.and_eq_true,
    decide_eq_true_eq, Prod.forall, Table.mem_entries] at h
  exact h id old hold ⟨hrunning, hof⟩

/-- What an attempt that begins adds, under the conversation's harness. -/
theorem beginAttempt_adds {receipt : BeginTurnAttempt} {now : String}
    (hname : RunsUnder thread harness db receipt.turn receipt.harnessName)
    (hrun : db.beginInteractionAttempt library compatible receipt now =
      .ok db') :
    ∃ middle, AddsAttempt thread harness db middle ∧
      Updates thread harness none middle db' ∧
      (∃ number policy, middle = { db with
        attempts := db.attempts.insert
          (attemptRow receipt number now policy) }) ∧
      (∃ row, db.turns.get? receipt.turn = some row ∧
        row.completionStatus ≠ .accepted) ∧
      (db.invoked receipt.turn = true ∨ compatible ⟨receipt.harnessName,
        receipt.route.familyId, receipt.route.providerId,
        receipt.route.modelId⟩ = true) := by
  simp only [beginInteractionAttempt, admitsAttempt, bind_eq_ok_iff,
    orThrow_eq_ok_iff, require_eq_ok_iff, pure_eq_ok_iff] at hrun
  obtain ⟨row, ⟨row', hrow, _, ⟨hstatus, hidle⟩, hsame⟩, _, -, _, -, _,
    hcompatible, ⟨plan, admitted⟩, hresolve, _, -, _, rfl, _, rfl, _, -, _, -,
    policyRow, -, _, -, inserted, hinsert, rfl⟩ := hrun
  obtain rfl := hsame
  have hopen : row'.completionStatus ≠ .accepted := by
    rw [hstatus]
    exact fun heq => by cases heq
  obtain rfl := insertAttempt_ok hinsert
  have hnew : (attemptRow receipt (db.nextAttemptNumber receipt.turn) now
      (policyRow.configurationRevision,
        policyRow.configurationDigest)).outcome ≠ .accepted := by
    intro heq
    cases heq
  refine ⟨{ db with attempts := _ }, ⟨_, rfl, hnew, ⟨row', hrow, hopen⟩, ?_⟩,
    ?_, ⟨_, _, rfl⟩, ⟨row', hrow, hopen⟩, hcompatible⟩
  · intro _
    refine ⟨idle_of_someRunning hidle, ?_⟩
    intro turnRow hmessage
    exact ⟨hname turnRow hmessage.1 hmessage.2.1,
      resolveExecutionModelPlan_definition hresolve⟩
  · apply updates_mapTurns
    intro id stored hstored
    by_cases hid : id = receipt.turn
    · rw [if_pos hid]
      have hsame : stored = row' := by
        rw [hid] at hstored
        exact Option.some.inj (hstored.symm.trans hrow)
      apply OpenChange.update
      refine ⟨rfl, fun _ => rfl, ?_, ?_, fun _ _ hname => .inl hname⟩
      · rw [hsame]
        exact hopen
      · show stored.completionStatus ≠ .accepted
        rw [hsame]
        exact hopen
    · rw [if_neg hid]
      exact .refl _ stored

/-- A turn that waits or runs returned to unsent. -/
theorem openChange_unsent {row : TurnRow} {name : HarnessId}
    (hopen : row.completionStatus ≠ .accepted)
    (hname : row.threadId = thread → name = harness) :
    OpenChange thread harness row (unsent name row) :=
  .of_columns rfl rfl hopen (fun heq => by cases heq)
    (.inr fun hthread => congrArg some (hname hthread))

theorem openChange_failed {row : TurnRow} {name : HarnessId} {error : String}
    (hopen : row.completionStatus ≠ .accepted)
    (hname : row.threadId = thread → name = harness) :
    OpenChange thread harness row { row with
      completionStatus := .failed
      harnessConfigurationName := some name
      completionError := some error } :=
  .of_columns rfl rfl hopen (fun heq => by cases heq)
    (.inr fun hthread => congrArg some (hname hthread))

theorem waitingTurn_open {row : TurnRow} (h : waitingTurn row = true) :
    row.completionStatus ≠ .accepted := by
  intro heq
  simp [waitingTurn, heq] at h

theorem unaccepting_recordPreExecutionFailure {failure : PreExecutionFailure}
    {restoreSafe : Bool} {now : String}
    (hname : RunsUnder thread harness db failure.turn failure.harnessName)
    (hrun : db.recordPreExecutionModelFailure failure restoreSafe now =
      .ok db') : Unaccepting thread harness db db' := by
  simp only [recordPreExecutionModelFailure, bind_eq_ok_iff,
    require_eq_ok_iff, pure_eq_ok_iff] at hrun
  obtain ⟨route, -, family, -, policy, -, _, ⟨hwaiting, -⟩, inserted, hinsert,
    _, -, rfl⟩ := hrun
  obtain rfl := insertAttempt_ok hinsert
  obtain ⟨row, hrow, hwaits⟩ := (Option.any_eq_true _ _).mp hwaiting
  have hopen := waitingTurn_open hwaits
  have hadds : AddsAttempt thread harness db { db with
      attempts := db.attempts.insert
        (db.failedAttempt failure now route family.revision policy) } :=
    ⟨_, rfl, fun heq => (by cases heq), ⟨row, hrow, hopen⟩,
      fun heq => (by cases heq)⟩
  refine hadds.unaccepting.trans (Updates.unaccepting ?_)
  refine .trans ?_ (updates_failStale failure.turn)
  have hsame : ∀ stored, db.turns.get? failure.turn = some stored →
      stored = row :=
    fun stored hstored => Option.some.inj (hstored.symm.trans hrow)
  unfold returnedTurn
  split
  · apply updates_writeTurn
    intro stored hstored
    obtain rfl := hsame stored hstored
    exact openChange_failed hopen (hname stored hstored)
  · refine (updates_stopRequests _).trans (updates_writeTurn ?_)
    intro stored hstored
    obtain rfl := hsame stored hstored
    exact openChange_unsent hopen (hname stored hstored)

theorem unaccepting_recordAdmissionFailure {receipt : BeginTurnAttempt}
    {category : String} {reconciled restoreSafe : Bool} {now : String}
    (hname : RunsUnder thread harness db receipt.turn receipt.harnessName)
    (hrun : db.recordModelAttemptAdmissionFailure receipt category reconciled
      restoreSafe now = .ok db') : Unaccepting thread harness db db' := by
  simp only [recordModelAttemptAdmissionFailure, admitsAttempt,
    bind_eq_ok_iff, orThrow_eq_ok_iff, require_eq_ok_iff,
    pure_eq_ok_iff] at hrun
  obtain ⟨_, ⟨row, hrow, _, ⟨hstatus, -⟩, -⟩, policy, -, inserted, hinsert, _,
    -, rfl⟩ := hrun
  obtain rfl := insertAttempt_ok hinsert
  have hopen : row.completionStatus ≠ .accepted := by
    rw [hstatus]
    exact fun heq => by cases heq
  have hadds : AddsAttempt thread harness db { db with
      attempts := db.attempts.insert
        { attemptRow receipt (db.nextAttemptNumber receipt.turn) now policy with
          finishedAt := some now
          outcome := .modelFailed
          failureCategory := some category
          effectBoundary := "none"
          executionLeaseReconciledAt :=
            if reconciled then some now else none } } :=
    ⟨_, rfl, fun heq => (by cases heq), ⟨row, hrow, hopen⟩,
      fun heq => (by cases heq)⟩
  refine hadds.unaccepting.trans (Updates.unaccepting ?_)
  refine .trans ?_ (updates_failStale receipt.turn)
  refine (updates_stopRequests _).trans (updates_writeTurn ?_)
  intro stored hstored
  obtain rfl : stored = row := Option.some.inj (hstored.symm.trans hrow)
  exact openChange_unsent hopen (hname stored hstored)

/-! ## Turns that end without an acceptance -/

theorem updates_failCompletion {failure : FailedCompletion}
    {restoreSafe : Bool} {now : String}
    (hname : RunsUnder thread harness db failure.turn failure.harnessName)
    (hrun : db.failCompletionWithAttempt failure restoreSafe now = .ok db') :
    Updates thread harness none db db' := by
  simp only [failCompletionWithAttempt, bind_eq_ok_iff,
    require_eq_ok_iff] at hrun
  obtain ⟨_, -, _, houtcome, _, hrunning, hfinal⟩ := hrun
  obtain ⟨row, hrow, hruns⟩ := (Option.any_eq_true _ _).mp hrunning
  have hopen : row.completionStatus ≠ .accepted := by
    intro heq
    simp [heq] at hruns
  have hended : Updates thread harness none db
      ((db.updateRunning (fun key _ => key = failure.attempt)
        (ended now failure.outcome (some failure.failureCategory)
          failure.effectBoundary)).failedTurn failure) := by
    have hattempt : Updates thread harness none db
        (db.updateRunning (fun key _ => key = failure.attempt)
          (ended now failure.outcome (some failure.failureCategory)
            failure.effectBoundary)) := updates_ended houtcome.2
    refine hattempt.trans ?_
    have hstored : ∀ stored, db.turns.get? failure.turn = some stored →
        stored.completionStatus ≠ .accepted := by
      intro stored hstored
      obtain rfl := Option.some.inj (hrow.symm.trans hstored)
      exact hopen
    unfold failedTurn
    split
    · exact updates_writeTurn fun stored hget =>
        openChange_failed (hstored stored hget) (hname stored hget)
    · split
      · exact updates_writeTurn fun stored hget =>
          openChange_unsent (hstored stored hget) (hname stored hget)
      · exact updates_writeTurn fun stored hget =>
          .of_columns rfl rfl (hstored stored hget) (fun heq => by cases heq)
            (.inr fun hthread => congrArg some (hname stored hget hthread))
  split at hfinal
  · simp only [bind_eq_ok_iff, require_eq_ok_iff, pure_eq_ok_iff] at hfinal
    obtain ⟨_, -, rfl⟩ := hfinal
    exact hended.trans (updates_failStale failure.turn)
  · obtain rfl := pure_eq_ok_iff.mp hfinal
    exact hended

/-- A turn decides its attempt's outcome only by having stopped or failed. -/
theorem decidedOutcome_open {row : TurnRow}
    {decision : AttemptOutcome × String}
    (h : decidedOutcome row = some decision) : decision.1 ≠ .accepted := by
  simp only [decidedOutcome] at h
  split at h
  · cases h
  · split at h
    · obtain rfl := Option.some.inj h
      exact fun heq => by cases heq
    · obtain rfl := Option.some.inj h
      exact fun heq => by cases heq
    · cases h

theorem updates_endNativeWait (attempt : AttemptId) (now : String) :
    Updates thread harness none db (db.endAttemptNativeWait attempt now) := by
  unfold endAttemptNativeWait
  split
  · exact .refl db
  · split
    case h_1 outcome category hdecided =>
      obtain ⟨row, -, hrow⟩ := Option.bind_eq_some_iff.mp hdecided
      exact updates_ended (decidedOutcome_open hrow)
    case h_2 => exact updates_waited

/-- Only the result of an invocation has an execution of its own, so the end
of one decides no attempt of a message. -/
theorem updates_endExecution {turn : TurnId} {now : String}
    (hconv : Conversation thread harness db)
    (hrun : db.endCompletionExecutionAttempt turn now = .ok db') :
    Updates thread harness none db db' := by
  unfold endCompletionExecutionAttempt at hrun
  split at hrun
  case h_1 phase row hphase hrow =>
    simp only [bind_eq_ok_iff, require_eq_ok_iff, pure_eq_ok_iff] at hrun
    obtain ⟨_, -, rfl⟩ := hrun
    have hinvoked : db.invoked turn = true :=
      hconv.launched turn (by rw [hphase]; rfl)
    apply updates_updateRunning
    intro id attempt _ _ hof
    refine ⟨rfl, ?_⟩
    intro turnRow hmessage
    rw [decide_eq_true_eq.mp hof, MessageTurn, hinvoked] at hmessage
    cases hmessage.2.2
  case h_2 =>
    obtain rfl := pure_eq_ok_iff.mp hrun
    exact .refl db

theorem updates_recoverInterrupted (error : String)
    (preserveIdentified : Bool) (now : String) :
    Updates thread harness none db
      (db.recoverInterruptedInteractions error preserveIdentified now) := by
  have hstatus : ∀ row : TurnRow, row.completionStatus ∈
      [CompletionStatus.running, .submitted, .waitingForApproval] →
        row.completionStatus ≠ .accepted := by
    intro row hmem heq
    simp [heq] at hmem
  unfold recoverInterruptedInteractions
  refine .trans ?_ (updates_writeTurns ?_ ?_)
  · refine .trans ?_ (updates_writeTurns ?_ ?_)
    · exact updates_failed.trans updates_waited
    · intro row hopen
      exact .of_columns rfl rfl hopen (fun heq => by cases heq) (.inl rfl)
    · intro id row hcondition
      simp only [Bool.and_eq_true, decide_eq_true_eq] at hcondition
      exact hstatus row hcondition.1.1.1.1
  · intro row hopen
    exact .of_columns rfl rfl hopen (fun heq => by cases heq) (.inl rfl)
  · intro id row hcondition
    simp only [Bool.and_eq_true, decide_eq_true_eq] at hcondition
    apply hstatus row
    have hmem := hcondition.1.1.1
    simp only [List.mem_cons, List.not_mem_nil, or_false] at hmem ⊢
    tauto

theorem interruptedInput_open {turn : TurnId} {row : TurnRow}
    (h : db.interruptedInput turn = true)
    (hrow : db.turns.get? turn = some row) :
    row.completionStatus ≠ .accepted := by
  intro heq
  simp [interruptedInput, hrow, heq] at h

theorem openChange_inputError {row : TurnRow} {name : HarnessId}
    {error : String} (hopen : row.completionStatus ≠ .accepted)
    (hname : row.threadId = thread → name = harness) :
    OpenChange thread harness row (withInputError name error row) := by
  refine OpenChange.of_columns rfl rfl hopen (fun heq => by cases heq) ?_
  cases hold : row.harnessConfigurationName with
  | some old => exact .inl (by simp [withInputError, hold])
  | none =>
      right
      intro hthread
      simp [withInputError, hold, hname hthread]

theorem updates_failInterruptedInput {turn : TurnId} {name : HarnessId}
    {error now : String} (hname : RunsUnder thread harness db turn name) :
    Updates thread harness none db
      (db.failInterruptedSubmittedInput turn name error now) := by
  simp only [failInterruptedSubmittedInput]
  split
  case isTrue hinput =>
    refine updates_failed.trans (updates_writeTurn ?_)
    intro row hrow
    exact openChange_inputError (interruptedInput_open hinput hrow)
      (hname row hrow)
  case isFalse => exact .refl db

theorem updates_quarantineInput {turn : TurnId} {name : HarnessId}
    {error : String} (hname : RunsUnder thread harness db turn name) :
    Updates thread harness none db
      (db.quarantineInterruptedSubmittedInput turn name error) := by
  unfold quarantineInterruptedSubmittedInput
  split
  case isTrue hinput =>
    apply updates_writeTurn
    intro row hrow
    exact openChange_inputError (interruptedInput_open hinput hrow)
      (hname row hrow)
  case isFalse => exact .refl db

theorem updates_finalizeInput (turn : TurnId) (error now : String) :
    Updates thread harness none db
      (db.finalizeQuarantinedSubmittedInputFailure turn error now) := by
  simp only [finalizeQuarantinedSubmittedInputFailure]
  split
  case isTrue hinput =>
    refine updates_failed.trans (updates_writeTurn ?_)
    intro row hrow
    have hquarantined := hinput.1
    refine OpenChange.of_columns rfl rfl ?_ (fun heq => by cases heq)
      (.inl rfl)
    intro heq
    have hrow' : (db.updateRunning (fun _ attempt => attempt.turn = turn)
        (ended now .executionFailed (some "application_restart")
          "unknown")).turns.get? turn = some row := hrow
    simp [quarantined, hrow', heq] at hquarantined
  case isFalse => exact .refl db

theorem updates_finishStopped {statuses : List CompletionStatus}
    {turn : TurnId} {now : String}
    (hstatuses : CompletionStatus.accepted ∉ statuses) :
    Updates thread harness none db (db.finishStopped statuses turn now) := by
  unfold finishStopped
  split
  case isTrue hstatus =>
    refine .trans (updates_writeTurn ?_)
      (updates_ended fun heq => by cases heq)
    intro row hrow
    refine OpenChange.of_columns rfl rfl ?_ (fun heq => by cases heq)
      (.inl rfl)
    intro heq
    rw [hrow] at hstatus
    simp only [Option.any_some, decide_eq_true_eq, heq] at hstatus
    exact hstatuses hstatus
  case isFalse => exact .refl db

theorem updates_acknowledgeLease (attempt : AttemptId) (lease now : String) :
    Updates thread harness none db
      (db.acknowledgeLeaseReconciled attempt lease now).2 := by
  have hsame : Updates thread harness none db db := .refl db
  rw [acknowledgeLeaseReconciled_ok]
  refine ⟨rfl, fun _ => rfl, fun _ => rfl, fun _ hsome => .inl hsome,
    hsame.turns, ⟨fun key row => if key = attempt then
      acknowledged lease now row else row, rfl, ?_⟩⟩
  intro id row _
  have hnone : (none = some row.turn) = False := by simp
  rw [hnone]
  dsimp only
  split
  · unfold acknowledged
    split
    · exact ⟨rfl, fun hrunning => hrunning,
        fun _ _ => ⟨⟨rfl, rfl, rfl, rfl⟩, by simp⟩⟩
    · exact ⟨rfl, fun hrunning => hrunning, fun _ _ => .refl row⟩
  · exact ⟨rfl, fun hrunning => hrunning, fun _ _ => .refl row⟩

end Writes

end CatalogDatabase

end RelayerGraph
