import RelayerGraph.Catalog.ConversationOwners

/-!
# What moves a conversation

Three kinds of writes reach the turns of a thread.  One inserts a turn, one
inserts an attempt of a turn that is not accepted, and one updates rows in
place, accepting at most one message turn.  Each keeps what a conversation
rests on, and only an acceptance adds to the providers its messages ran on.
-/

namespace RelayerGraph

open Foundation Checked

/-! ## Updates in place -/

/-- An update of a message turn, which it may accept. -/
structure MessageUpdate (harness : HarnessId) (accepts : Prop)
    (row row' : TurnRow) : Prop where
  accepted : row'.completionStatus = .accepted ↔
    row.completionStatus = .accepted ∨ accepts
  kept : row.completionStatus = .accepted ∨ accepts →
    row'.modelProviderId = row.modelProviderId
  named : row'.completionStatus = .accepted →
    (row.completionStatus = .accepted ∧
      row'.harnessConfigurationName = row.harnessConfigurationName) ∨
      row'.harnessConfigurationName.isSome
  harnessed : ∀ name, row'.harnessConfigurationName = some name →
    row.harnessConfigurationName = some name ∨ name = harness

/-- An update of an attempt, which is accepted with its turn while it runs. -/
structure AttemptUpdate (accepts : Prop) (row row' : TurnAttemptRow) :
    Prop where
  route : row'.providerId = row.providerId ∧ row'.adapterId = row.adapterId ∧
    row'.accessContract = row.accessContract ∧
    row'.harnessName = row.harnessName
  accepted : row'.outcome = .accepted ↔
    row.outcome = .accepted ∨ (accepts ∧ row.outcome = .running)

theorem MessageUpdate.refl (harness : HarnessId) (row : TurnRow) :
    MessageUpdate harness False row row :=
  ⟨by simp, fun _ => rfl, fun haccepted => .inl ⟨haccepted, rfl⟩,
    fun _ hname => .inl hname⟩

theorem MessageUpdate.trans {harness : HarnessId} {row row' row'' : TurnRow}
    (h : MessageUpdate harness False row row')
    (h' : MessageUpdate harness False row' row'') :
    MessageUpdate harness False row row'' where
  accepted := by
    rw [h'.accepted, or_false, h.accepted]
  kept := by
    intro haccepted
    have hmiddle := h.accepted.mpr haccepted
    exact (h'.kept (.inl hmiddle)).trans (h.kept haccepted)
  named := by
    intro haccepted
    rcases h'.named haccepted with ⟨hmiddle, hsame⟩ | hsome
    · rw [hsame]
      exact h.named hmiddle
    · exact .inr hsome
  harnessed := by
    intro name hname
    rcases h'.harnessed name hname with hmiddle | hown
    · exact h.harnessed name hmiddle
    · exact .inr hown

theorem AttemptUpdate.refl (row : TurnAttemptRow) :
    AttemptUpdate False row row :=
  ⟨⟨rfl, rfl, rfl, rfl⟩, by simp⟩

theorem AttemptUpdate.trans {row row' row'' : TurnAttemptRow}
    (h : AttemptUpdate False row row') (h' : AttemptUpdate False row' row'') :
    AttemptUpdate False row row'' where
  route := by
    obtain ⟨hprovider, hadapter, hcontract, hharness⟩ := h.route
    obtain ⟨hprovider', hadapter', hcontract', hharness'⟩ := h'.route
    exact ⟨hprovider'.trans hprovider, hadapter'.trans hadapter,
      hcontract'.trans hcontract, hharness'.trans hharness⟩
  accepted := by
    rw [h'.accepted, h.accepted]
    simp

namespace CatalogDatabase

section Moves

variable (thread : ThreadId) (harness : HarnessId)

/-- An update of a turn: one of another thread, or of the result of an
invocation, does not concern the messages. -/
structure RowUpdate (invoked : Bool) (accepts : Prop) (row row' : TurnRow) :
    Prop where
  place : row'.threadId = row.threadId
  selected : row.threadId = thread → row.modelProviderId.isSome →
    row'.modelProviderId.isSome
  message : row.threadId = thread → invoked = false →
    MessageUpdate harness accepts row row'

/-- Rows are updated in place, and only the target may be accepted. -/
structure Updates (target : Option TurnId) (db db' : CatalogDatabase) :
    Prop where
  threads : db'.threads.get? thread = db.threads.get? thread
  definitions : ∀ provider, db'.definitionOf provider = db.definitionOf provider
  invoked : ∀ turn, db'.invoked turn = db.invoked turn
  executions : ∀ turn, (db'.executionPhases turn).isSome →
    (db.executionPhases turn).isSome ∨ db.invoked turn = true
  turns : ∃ change : TurnId → TurnRow → TurnRow,
    db'.turns = db.turns.mapRows change ∧
      ∀ id row, db.turns.get? id = some row →
        RowUpdate thread harness (db.invoked id) (target = some id) row
          (change id row)
  attempts : ∃ change : AttemptId → TurnAttemptRow → TurnAttemptRow,
    db'.attempts = db.attempts.mapRows change ∧
      ∀ id row, db.attempts.get? id = some row →
        (change id row).turn = row.turn ∧
        ((change id row).outcome = .running → row.outcome = .running) ∧
        ∀ turnRow, db.MessageTurn thread row.turn turnRow →
          AttemptUpdate (target = some row.turn) row (change id row)

/-- A turn is inserted. -/
structure AddsTurn (db db' : CatalogDatabase) : Prop where
  threads : db'.threads.get? thread = db.threads.get? thread
  providers : db'.providers = db.providers
  attempts : db'.attempts = db.attempts
  executions : db'.executionPhases = db.executionPhases
  invoked : ∀ turn, db.invoked turn = true → db'.invoked turn = true
  others : ∀ turn, turn ≠ db.turns.nextKey →
    db'.invoked turn = db.invoked turn
  turns : ∃ row : TurnRow, db'.turns = db.turns.insert row ∧
    row.completionStatus ≠ .accepted ∧ row.harnessConfigurationName = none ∧
      (row.threadId = thread → row.modelProviderId.isSome)

/-- An attempt is inserted of a turn that is not accepted. -/
structure AddsAttempt (db db' : CatalogDatabase) : Prop where
  write : ∃ row : TurnAttemptRow,
    db' = { db with attempts := db.attempts.insert row } ∧
      row.outcome ≠ .accepted ∧
      (∃ turnRow, db.turns.get? row.turn = some turnRow ∧
        turnRow.completionStatus ≠ .accepted) ∧
      (row.outcome = .running →
        (∀ id old, db.attempts.get? id = some old → old.turn = row.turn →
          old.outcome ≠ .running) ∧
        ∀ turnRow, db.MessageTurn thread row.turn turnRow →
          row.harnessName = harness ∧ db.definitionOf row.providerId =
            some (row.adapterId, row.accessContract))

variable {thread harness} {db db' db'' : CatalogDatabase}

theorem RowUpdate.refl (invoked : Bool) (row : TurnRow) :
    RowUpdate thread harness invoked False row row :=
  ⟨rfl, fun _ hsome => hsome, fun _ _ => .refl harness row⟩

theorem RowUpdate.trans {invoked : Bool} {row row' row'' : TurnRow}
    (h : RowUpdate thread harness invoked False row row')
    (h' : RowUpdate thread harness invoked False row' row'') :
    RowUpdate thread harness invoked False row row'' where
  place := h'.place.trans h.place
  selected := by
    intro hthread hsome
    exact h'.selected (h.place.trans hthread) (h.selected hthread hsome)
  message := by
    intro hthread hinvoked
    exact (h.message hthread hinvoked).trans
      (h'.message (h.place.trans hthread) hinvoked)

theorem RowUpdate.congr {invoked : Bool} {accepts accepts' : Prop}
    {row row' : TurnRow} (hsame : accepts ↔ accepts')
    (h : RowUpdate thread harness invoked accepts row row') :
    RowUpdate thread harness invoked accepts' row row' := by
  rw [propext hsame] at h
  exact h

theorem Updates.refl (db : CatalogDatabase) :
    Updates thread harness none db db where
  threads := rfl
  definitions _ := rfl
  invoked _ := rfl
  executions _ hsome := .inl hsome
  turns := by
    refine ⟨fun _ row => row, (Table.mapRows_self _).symm, ?_⟩
    intro id row _
    exact (RowUpdate.refl _ row).congr (by simp)
  attempts := by
    refine ⟨fun _ row => row, (Table.mapRows_self _).symm, ?_⟩
    intro id row _
    refine ⟨rfl, fun hrunning => hrunning, ?_⟩
    intro turnRow _
    have hrefl := AttemptUpdate.refl row
    have hnone : (none = some row.turn) = False := by simp
    rw [hnone]
    exact hrefl

theorem Updates.message {target : Option TurnId}
    (h : Updates thread harness target db db') {turn : TurnId} {row : TurnRow}
    (hmessage : db.MessageTurn thread turn row) :
    ∃ row', db'.MessageTurn thread turn row' ∧
      MessageUpdate harness (target = some turn) row row' := by
  obtain ⟨change, hturns, hchange⟩ := h.turns
  obtain ⟨hrow, hthread, hinvoked⟩ := hmessage
  have hupdate := hchange turn row hrow
  refine ⟨change turn row, ⟨?_, hupdate.place.trans hthread, ?_⟩,
    hupdate.message hthread hinvoked⟩
  · rw [hturns, Table.get?_mapRows, hrow]
    rfl
  · rw [h.invoked, hinvoked]

theorem Updates.message_of {target : Option TurnId}
    (h : Updates thread harness target db db') {turn : TurnId} {row' : TurnRow}
    (hmessage : db'.MessageTurn thread turn row') :
    ∃ row, db.MessageTurn thread turn row ∧
      MessageUpdate harness (target = some turn) row row' := by
  obtain ⟨change, hturns, hchange⟩ := h.turns
  obtain ⟨hrow', hthread, hinvoked⟩ := hmessage
  rw [hturns, Table.get?_mapRows] at hrow'
  obtain ⟨row, hrow, rfl⟩ := Option.map_eq_some_iff.mp hrow'
  have hupdate := hchange turn row hrow
  have hplace : row.threadId = thread := hupdate.place.symm.trans hthread
  have hfree : db.invoked turn = false := by rw [← h.invoked, hinvoked]
  exact ⟨row, ⟨hrow, hplace, hfree⟩, hupdate.message hplace hfree⟩

theorem Updates.trans (h : Updates thread harness none db db')
    (h' : Updates thread harness none db' db'') :
    Updates thread harness none db db'' where
  threads := h'.threads.trans h.threads
  definitions provider := (h'.definitions provider).trans (h.definitions provider)
  invoked turn := (h'.invoked turn).trans (h.invoked turn)
  executions := by
    intro turn hsome
    rcases h'.executions turn hsome with hmiddle | hinvoked
    · exact h.executions turn hmiddle
    · exact .inr (by rw [← h.invoked, hinvoked])
  turns := by
    obtain ⟨change, hturns, hchange⟩ := h.turns
    obtain ⟨change', hturns', hchange'⟩ := h'.turns
    refine ⟨fun id row => change' id (change id row), ?_, ?_⟩
    · rw [hturns', hturns, Table.mapRows_mapRows]
    · intro id row hrow
      have hmiddle : db'.turns.get? id = some (change id row) := by
        rw [hturns, Table.get?_mapRows, hrow]
        rfl
      have hfirst := @RowUpdate.congr _ _ _ _ False _ _ (by simp)
        (hchange id row hrow)
      have hsecond := @RowUpdate.congr _ _ _ _ False _ _ (by simp)
        (hchange' id _ hmiddle)
      rw [h.invoked] at hsecond
      exact (hfirst.trans hsecond).congr (by simp)
  attempts := by
    obtain ⟨change, hattempts, hchange⟩ := h.attempts
    obtain ⟨change', hattempts', hchange'⟩ := h'.attempts
    refine ⟨fun id row => change' id (change id row), ?_, ?_⟩
    · rw [hattempts', hattempts, Table.mapRows_mapRows]
    · intro id row hrow
      have hmiddle : db'.attempts.get? id = some (change id row) := by
        rw [hattempts, Table.get?_mapRows, hrow]
        rfl
      obtain ⟨hturn, hrunning, hroute⟩ := hchange id row hrow
      obtain ⟨hturn', hrunning', hroute'⟩ := hchange' id _ hmiddle
      refine ⟨hturn'.trans hturn, fun h => hrunning (hrunning' h), ?_⟩
      intro turnRow hmessage
      obtain ⟨turnRow', hmessage', -⟩ := h.message hmessage
      have hfirst := hroute turnRow hmessage
      have hsecond := hroute' turnRow' (by rw [hturn]; exact hmessage')
      have hnone : ∀ turn : TurnId, (none = some turn) = False := by simp
      rw [hnone] at hfirst hsecond ⊢
      exact hfirst.trans hsecond

/-! ## What a move keeps -/

/-- The attempts an update in place leaves. -/
theorem Updates.attempt {target : Option TurnId}
    (h : Updates thread harness target db db') {id : AttemptId}
    {attempt : TurnAttemptRow} (hrow : db.attempts.get? id = some attempt) :
    ∃ attempt', db'.attempts.get? id = some attempt' ∧
      attempt'.turn = attempt.turn ∧
      (attempt'.outcome = .running → attempt.outcome = .running) ∧
      ∀ turnRow, db.MessageTurn thread attempt.turn turnRow →
        AttemptUpdate (target = some attempt.turn) attempt attempt' := by
  obtain ⟨change, hattempts, hchange⟩ := h.attempts
  refine ⟨change id attempt, ?_, hchange id attempt hrow⟩
  rw [hattempts, Table.get?_mapRows, hrow]
  rfl

theorem Updates.attempt_of {target : Option TurnId}
    (h : Updates thread harness target db db') {id : AttemptId}
    {attempt' : TurnAttemptRow}
    (hrow' : db'.attempts.get? id = some attempt') :
    ∃ attempt, db.attempts.get? id = some attempt ∧
      attempt'.turn = attempt.turn ∧
      (attempt'.outcome = .running → attempt.outcome = .running) ∧
      ∀ turnRow, db.MessageTurn thread attempt.turn turnRow →
        AttemptUpdate (target = some attempt.turn) attempt attempt' := by
  obtain ⟨change, hattempts, hchange⟩ := h.attempts
  rw [hattempts, Table.get?_mapRows] at hrow'
  obtain ⟨attempt, hrow, rfl⟩ := Option.map_eq_some_iff.mp hrow'
  exact ⟨attempt, hrow, hchange id attempt hrow⟩

/-- An update in place keeps the conversation. -/
theorem Updates.conversation {target : Option TurnId}
    (h : Updates thread harness target db db')
    (hconv : Conversation thread harness db) :
    Conversation thread harness db' where
  opened := by
    rw [h.threads]
    exact hconv.opened
  spoken := by
    obtain ⟨turn, row, hmessage⟩ := hconv.spoken
    obtain ⟨row', hmessage', -⟩ := h.message hmessage
    exact ⟨turn, row', hmessage'⟩
  selected := by
    intro turn row' hrow' hthread
    obtain ⟨change, hturns, hchange⟩ := h.turns
    rw [hturns, Table.get?_mapRows] at hrow'
    obtain ⟨row, hrow, rfl⟩ := Option.map_eq_some_iff.mp hrow'
    have hupdate := hchange turn row hrow
    have hplace : row.threadId = thread := hupdate.place.symm.trans hthread
    exact hupdate.selected hplace (hconv.selected turn row hrow hplace)
  harnessed := by
    intro turn row' hmessage' name hname
    obtain ⟨row, hmessage, hupdate⟩ := h.message_of hmessage'
    rcases hupdate.harnessed name hname with hold | hown
    · exact hconv.harnessed turn row hmessage name hold
    · exact hown
  named := by
    rintro turn row' ⟨hmessage', haccepted⟩
    obtain ⟨row, hmessage, hupdate⟩ := h.message_of hmessage'
    rcases hupdate.named haccepted with ⟨hbefore, hsame⟩ | hsome
    · rw [hsame]
      exact hconv.named turn row ⟨hmessage, hbefore⟩
    · exact hsome
  routed := by
    intro id attempt' row' hattempt' hmessage' houtcome
    obtain ⟨attempt, hattempt, hturn, hrunning, hroute⟩ :=
      h.attempt_of hattempt'
    rw [hturn] at hmessage'
    obtain ⟨row, hmessage, -⟩ := h.message_of hmessage'
    have hupdate := hroute row hmessage
    have hbefore : attempt.outcome = .running ∨ attempt.outcome = .accepted := by
      rcases houtcome with hrun | hacc
      · exact .inl (hrunning hrun)
      · rcases hupdate.accepted.mp hacc with hold | hnew
        · exact .inr hold
        · exact .inl hnew.2
    obtain ⟨hharness, hdefined⟩ := hconv.routed id attempt row hattempt hmessage
      hbefore
    obtain ⟨hprovider, hadapter, hcontract, hname⟩ := hupdate.route
    rw [h.definitions, hprovider, hadapter, hcontract, hname]
    exact ⟨hharness, hdefined⟩
  settled := by
    intro id attempt' row' hattempt' hmessage' houtcome
    obtain ⟨attempt, hattempt, hturn, -, hroute⟩ := h.attempt_of hattempt'
    rw [hturn] at hmessage'
    obtain ⟨row, hmessage, hmove⟩ := h.message_of hmessage'
    rcases (hroute row hmessage).accepted.mp houtcome with hold | hnew
    · exact hmove.accepted.mpr
        (.inl (hconv.settled id attempt row hattempt hmessage hold))
    · exact hmove.accepted.mpr (.inr hnew.1)
  owned := by
    intro id attempt' hattempt'
    obtain ⟨attempt, hattempt, hturn, -, -⟩ := h.attempt_of hattempt'
    obtain ⟨row, hrow⟩ := Option.isSome_iff_exists.mp
      (hconv.owned id attempt hattempt)
    obtain ⟨change, hturns, -⟩ := h.turns
    rw [hturns, hturn, Table.get?_mapRows, hrow]
    rfl
  launched := by
    intro turn hsome
    rw [h.invoked]
    rcases h.executions turn hsome with hold | hinvoked
    · exact hconv.launched turn hold
    · exact hinvoked
  single := by
    intro id attempt id' other hattempt hother hturn hrunning hrunning'
    obtain ⟨old, hold, hof, hran, -⟩ := h.attempt_of hattempt
    obtain ⟨old', hold', hof', hran', -⟩ := h.attempt_of hother
    exact hconv.single id old id' old' hold hold'
      (hof.symm.trans (hturn.trans hof')) (hran hrunning) (hran' hrunning')

/-! ## What an update in place changes -/

theorem Updates.hasAttempts {target : Option TurnId}
    (h : Updates thread harness target db db') (turn : TurnId) :
    db'.hasAttempts turn = db.hasAttempts turn := by
  rw [Bool.eq_iff_iff, hasAttempts_iff, hasAttempts_iff]
  constructor
  · rintro ⟨id, attempt', hattempt', hturn⟩
    obtain ⟨attempt, hattempt, hsame, -, -⟩ := h.attempt_of hattempt'
    exact ⟨id, attempt, hattempt, hsame.symm.trans hturn⟩
  · rintro ⟨id, attempt, hattempt, hturn⟩
    obtain ⟨attempt', hattempt', hsame, -, -⟩ := h.attempt hattempt
    exact ⟨id, attempt', hattempt', hsame.trans hturn⟩

/-- A running attempt of the turn has the provider. -/
def RunsOn (db : CatalogDatabase) (turn : TurnId) (provider : ProviderId) :
    Prop :=
  ∃ id attempt, db.attempts.get? id = some attempt ∧ attempt.turn = turn ∧
    attempt.outcome = .running ∧ attempt.providerId = provider

/-- The accepted attempts of a message turn after an update in place. -/
theorem Updates.acceptedOn_iff {target : Option TurnId}
    (h : Updates thread harness target db db') {turn : TurnId} {row : TurnRow}
    (hmessage : db.MessageTurn thread turn row) (p : ProviderId) :
    db'.AcceptedOn turn p ↔
      db.AcceptedOn turn p ∨ (target = some turn ∧ db.RunsOn turn p) := by
  constructor
  · rintro ⟨id, attempt', hattempt', hturn, houtcome, hprovider⟩
    obtain ⟨attempt, hattempt, hsame, -, hroute⟩ := h.attempt_of hattempt'
    have hof : attempt.turn = turn := hsame.symm.trans hturn
    have hupdate := hroute row (by rw [hof]; exact hmessage)
    have hold : attempt.providerId = p :=
      hupdate.route.1.symm.trans hprovider
    rw [hof] at hupdate
    rcases hupdate.accepted.mp houtcome with haccepted | ⟨htarget, hrunning⟩
    · exact .inl ⟨id, attempt, hattempt, hof, haccepted, hold⟩
    · exact .inr ⟨htarget, id, attempt, hattempt, hof, hrunning, hold⟩
  · intro hbefore
    obtain ⟨id, attempt, hattempt, hof, houtcome, hprovider⟩ :
        ∃ id attempt, db.attempts.get? id = some attempt ∧
          attempt.turn = turn ∧ (attempt.outcome = .accepted ∨
            (target = some turn ∧ attempt.outcome = .running)) ∧
          attempt.providerId = p := by
      rcases hbefore with ⟨id, attempt, hattempt, hof, houtcome, hprovider⟩ |
        ⟨htarget, id, attempt, hattempt, hof, houtcome, hprovider⟩
      · exact ⟨id, attempt, hattempt, hof, .inl houtcome, hprovider⟩
      · exact ⟨id, attempt, hattempt, hof, .inr ⟨htarget, houtcome⟩, hprovider⟩
    obtain ⟨attempt', hattempt', hsame, -, hroute⟩ := h.attempt hattempt
    have hupdate := hroute row (by rw [hof]; exact hmessage)
    refine ⟨id, attempt', hattempt', hsame.trans hof, ?_,
      hupdate.route.1.trans hprovider⟩
    rw [hupdate.accepted, hof]
    exact houtcome

/-- Nothing of the accepted messages changes: which they are, the providers
they ran on, and whether their route is on record. -/
structure Steady (thread : ThreadId) (db db' : CatalogDatabase) : Prop where
  accepted : ∀ turn, (∃ row, db'.AcceptedMessage thread turn row) ↔
    ∃ row, db.AcceptedMessage thread turn row
  ranOn : ∀ turn p, db'.RanOn thread turn p ↔ db.RanOn thread turn p
  verified : ∀ turn, (∃ row, db.AcceptedMessage thread turn row) →
    (db'.Verified turn ↔ db.Verified turn)

theorem RanOn.accepted {turn : TurnId} {p : ProviderId}
    (h : db.RanOn thread turn p) :
    ∃ row, db.AcceptedMessage thread turn row := by
  obtain ⟨row, haccepted, -⟩ := h
  exact ⟨row, haccepted⟩

theorem Steady.trans (h : Steady thread db db') (h' : Steady thread db' db'') :
    Steady thread db db'' where
  accepted turn := (h'.accepted turn).trans (h.accepted turn)
  ranOn turn p := (h'.ranOn turn p).trans (h.ranOn turn p)
  verified := by
    intro turn haccepted
    exact (h'.verified turn ((h.accepted turn).mpr haccepted)).trans
      (h.verified turn haccepted)

theorem verified_congr {turn : TurnId}
    (haccepted : ∀ p, db'.AcceptedOn turn p ↔ db.AcceptedOn turn p)
    (hhas : db'.hasAttempts turn = db.hasAttempts turn) :
    db'.Verified turn ↔ db.Verified turn := by
  simp only [Verified, haccepted, hhas]

/-- An update in place leaves the messages it does not accept. -/
theorem Updates.others {target : Option TurnId}
    (h : Updates thread harness target db db') {turn : TurnId}
    (hother : target ≠ some turn) :
    ((∃ row, db'.AcceptedMessage thread turn row) ↔
      ∃ row, db.AcceptedMessage thread turn row) ∧
    (∀ p, db'.RanOn thread turn p ↔ db.RanOn thread turn p) ∧
    ((∃ row, db.AcceptedMessage thread turn row) →
      (db'.Verified turn ↔ db.Verified turn)) := by
  have hon : ∀ row, db.MessageTurn thread turn row → ∀ p,
      db'.AcceptedOn turn p ↔ db.AcceptedOn turn p := by
    intro row hmessage p
    rw [h.acceptedOn_iff hmessage p]
    simp [hother]
  refine ⟨⟨?_, ?_⟩, ?_, ?_⟩
  · rintro ⟨row', hmessage', haccepted⟩
    obtain ⟨row, hmessage, hupdate⟩ := h.message_of hmessage'
    have hbefore := hupdate.accepted.mp haccepted
    simp only [hother, or_false] at hbefore
    exact ⟨row, hmessage, hbefore⟩
  · rintro ⟨row, hmessage, haccepted⟩
    obtain ⟨row', hmessage', hupdate⟩ := h.message hmessage
    exact ⟨row', hmessage', hupdate.accepted.mpr (.inl haccepted)⟩
  · intro p
    constructor
    · rintro ⟨row', ⟨hmessage', haccepted⟩, hran⟩
      obtain ⟨row, hmessage, hupdate⟩ := h.message_of hmessage'
      have hbefore := hupdate.accepted.mp haccepted
      simp only [hother, or_false] at hbefore
      refine ⟨row, ⟨hmessage, hbefore⟩, ?_⟩
      rw [← hupdate.kept (.inl hbefore)]
      simpa only [hon row hmessage] using hran
    · rintro ⟨row, ⟨hmessage, haccepted⟩, hran⟩
      obtain ⟨row', hmessage', hupdate⟩ := h.message hmessage
      refine ⟨row', ⟨hmessage', hupdate.accepted.mpr (.inl haccepted)⟩, ?_⟩
      rw [hupdate.kept (.inl haccepted)]
      simpa only [hon row hmessage] using hran
  · rintro ⟨row, hmessage, -⟩
    exact verified_congr (hon row hmessage) (h.hasAttempts turn)

theorem Updates.steady (h : Updates thread harness none db db') :
    Steady thread db db' where
  accepted turn := (h.others (by simp)).1
  ranOn turn := (h.others (by simp)).2.1
  verified turn := (h.others (by simp)).2.2

/-- What an acceptance adds: the message ran on the provider of its running
attempt, or else on the one it selected. -/
theorem Updates.target_ranOn {turn : TurnId} {row : TurnRow}
    (h : Updates thread harness (some turn) db db')
    (hconv : Conversation thread harness db)
    (hmessage : db.MessageTurn thread turn row)
    (hopen : row.completionStatus ≠ .accepted) (p : ProviderId) :
    (db'.RanOn thread turn p ↔ db.RunsOn turn p ∨
      (∀ other, ¬ db.RunsOn turn other) ∧ row.modelProviderId = some p) ∧
    (db'.Verified turn ↔ (∃ other, db.RunsOn turn other) ∨
      db.hasAttempts turn = false) := by
  have hnever : ∀ other, ¬ db.AcceptedOn turn other := by
    rintro other ⟨id, attempt, hattempt, hof, houtcome, -⟩
    exact hopen (hconv.settled id attempt row hattempt
      (by rw [hof]; exact hmessage) houtcome)
  have hon : ∀ other, db'.AcceptedOn turn other ↔ db.RunsOn turn other := by
    intro other
    rw [h.acceptedOn_iff hmessage other]
    simp [hnever]
  obtain ⟨row', hmessage', hupdate⟩ := h.message hmessage
  constructor
  · have hselected := hupdate.kept (.inr rfl)
    constructor
    · rintro ⟨stored, ⟨hstored, -⟩, hran⟩
      obtain rfl : row' = stored :=
        Option.some.inj (hmessage'.1.symm.trans hstored.1)
      rw [hselected] at hran
      simpa only [hon] using hran
    · intro hran
      refine ⟨row', ⟨hmessage', hupdate.accepted.mpr (.inr rfl)⟩, ?_⟩
      rw [hselected]
      simpa only [hon] using hran
  · simp only [Verified, hon, h.hasAttempts]

/-! ## Insertions -/

theorem AddsTurn.conversation (h : AddsTurn thread db db')
    (hconv : Conversation thread harness db) :
    Conversation thread harness db' ∧ Steady thread db db' := by
  obtain ⟨row, hturns, hopen, hunnamed, hselected⟩ := h.turns
  have hstored : ∀ turn stored, db'.turns.get? turn = some stored →
      (turn = db.turns.nextKey ∧ stored = row) ∨
        (turn ≠ db.turns.nextKey ∧ db.turns.get? turn = some stored) := by
    intro turn stored hget
    rw [hturns, Table.get?_insert] at hget
    by_cases hnew : turn = db.turns.nextKey
    · rw [if_pos hnew] at hget
      exact .inl ⟨hnew, (Option.some.inj hget).symm⟩
    · rw [if_neg hnew] at hget
      exact .inr ⟨hnew, hget⟩
  have hold : ∀ turn stored, db.turns.get? turn = some stored →
      turn ≠ db.turns.nextKey ∧ db'.turns.get? turn = some stored := by
    intro turn stored hget
    refine ⟨?_, by rw [hturns]; exact Table.get?_insert_of_get? hget⟩
    rintro rfl
    simp at hget
  have hmessage : ∀ turn stored, db'.MessageTurn thread turn stored →
      (turn = db.turns.nextKey ∧ stored = row) ∨
        db.MessageTurn thread turn stored := by
    rintro turn stored ⟨hget, hthread, hfree⟩
    rcases hstored turn stored hget with hnew | ⟨hne, hget⟩
    · exact .inl hnew
    · exact .inr ⟨hget, hthread, by rw [← h.others turn hne, hfree]⟩
  have hkept : ∀ turn stored, db.MessageTurn thread turn stored →
      db'.MessageTurn thread turn stored := by
    rintro turn stored ⟨hget, hthread, hfree⟩
    obtain ⟨hne, hget'⟩ := hold turn stored hget
    exact ⟨hget', hthread, by rw [h.others turn hne, hfree]⟩
  have haccepted : ∀ turn stored, db'.AcceptedMessage thread turn stored ↔
      db.AcceptedMessage thread turn stored := by
    intro turn stored
    constructor
    · rintro ⟨hmsg, hstatus⟩
      rcases hmessage turn stored hmsg with ⟨-, rfl⟩ | hmsg
      · exact absurd hstatus hopen
      · exact ⟨hmsg, hstatus⟩
    · rintro ⟨hmsg, hstatus⟩
      exact ⟨hkept turn stored hmsg, hstatus⟩
  have hattempt : ∀ id attempt stored, db'.attempts.get? id = some attempt →
      db'.MessageTurn thread attempt.turn stored →
        db.attempts.get? id = some attempt ∧
          db.MessageTurn thread attempt.turn stored := by
    intro id attempt stored hget hmsg
    rw [h.attempts] at hget
    refine ⟨hget, ?_⟩
    rcases hmessage _ stored hmsg with ⟨hnew, -⟩ | hmsg
    · have hsome := hconv.owned id attempt hget
      rw [hnew, Table.get?_nextKey] at hsome
      cases hsome
    · exact hmsg
  have hon : ∀ turn p, db'.AcceptedOn turn p ↔ db.AcceptedOn turn p := by
    intro turn p
    rw [AcceptedOn, AcceptedOn, h.attempts]
  refine ⟨?_, ?_⟩
  · refine ⟨?_, ?_, ?_, ?_, ?_, ?_, ?_, ?_, ?_, ?_⟩
    · rw [h.threads]
      exact hconv.opened
    · obtain ⟨turn, stored, hmsg⟩ := hconv.spoken
      exact ⟨turn, stored, hkept turn stored hmsg⟩
    · intro turn stored hget hthread
      rcases hstored turn stored hget with ⟨-, rfl⟩ | ⟨-, hget⟩
      · exact hselected hthread
      · exact hconv.selected turn stored hget hthread
    · intro turn stored hmsg name hname
      rcases hmessage turn stored hmsg with ⟨-, rfl⟩ | hmsg
      · rw [hunnamed] at hname
        cases hname
      · exact hconv.harnessed turn stored hmsg name hname
    · intro turn stored hmsg
      exact hconv.named turn stored ((haccepted turn stored).mp hmsg)
    · intro id attempt stored hget hmsg houtcome
      obtain ⟨hget, hmsg⟩ := hattempt id attempt stored hget hmsg
      rw [definitionOf, h.providers]
      exact hconv.routed id attempt stored hget hmsg houtcome
    · intro id attempt stored hget hmsg houtcome
      obtain ⟨hget, hmsg⟩ := hattempt id attempt stored hget hmsg
      exact hconv.settled id attempt stored hget hmsg houtcome
    · intro id attempt hget
      rw [h.attempts] at hget
      obtain ⟨stored, hturn⟩ := Option.isSome_iff_exists.mp
        (hconv.owned id attempt hget)
      rw [(hold _ stored hturn).2]
      rfl
    · intro turn hsome
      rw [h.executions] at hsome
      exact h.invoked turn (hconv.launched turn hsome)
    · rw [OneRunning, h.attempts]
      exact hconv.single
  · refine ⟨fun turn => by simp only [haccepted], ?_, ?_⟩
    · intro turn p
      simp only [RanOn, haccepted, hon]
    · intro turn _
      apply verified_congr (hon turn)
      rw [CatalogDatabase.hasAttempts, CatalogDatabase.hasAttempts, h.attempts]

theorem AddsAttempt.conversation (h : AddsAttempt thread harness db db')
    (hconv : Conversation thread harness db) :
    Conversation thread harness db' ∧ Steady thread db db' := by
  obtain ⟨row, rfl, hopen, ⟨turnRow, hturn, hunaccepted⟩, hrunning⟩ := h.write
  have hstored : ∀ id attempt,
      (db.attempts.insert row).get? id = some attempt →
        attempt = row ∨ db.attempts.get? id = some attempt := by
    intro id attempt hget
    rw [Table.get?_insert] at hget
    split at hget
    · exact .inl (Option.some.inj hget).symm
    · exact .inr hget
  have hon : ∀ turn p,
      AcceptedOn { db with attempts := db.attempts.insert row } turn p ↔
        db.AcceptedOn turn p := by
    intro turn p
    constructor
    · rintro ⟨id, attempt, hget, hof, houtcome, hprovider⟩
      rcases hstored id attempt hget with rfl | hget
      · exact absurd houtcome hopen
      · exact ⟨id, attempt, hget, hof, houtcome, hprovider⟩
    · rintro ⟨id, attempt, hget, hof, houtcome, hprovider⟩
      exact ⟨id, attempt, Table.get?_insert_of_get? hget, hof, houtcome,
        hprovider⟩
  refine ⟨?_, ?_⟩
  · refine ⟨hconv.opened, hconv.spoken, hconv.selected, hconv.harnessed,
      hconv.named, ?_, ?_, ?_, hconv.launched, ?_⟩
    · intro id attempt stored hget hmsg houtcome
      rcases hstored id attempt hget with rfl | hget
      · rcases houtcome with hrun | hacc
        · exact (hrunning hrun).2 stored hmsg
        · exact absurd hacc hopen
      · exact hconv.routed id attempt stored hget hmsg houtcome
    · intro id attempt stored hget hmsg houtcome
      rcases hstored id attempt hget with rfl | hget
      · exact absurd houtcome hopen
      · exact hconv.settled id attempt stored hget hmsg houtcome
    · intro id attempt hget
      rcases hstored id attempt hget with rfl | hget
      · change (db.turns.get? attempt.turn).isSome = true
        rw [hturn]
        rfl
      · exact hconv.owned id attempt hget
    · have hmove : AttemptsMove db
          { db with attempts := db.attempts.insert row } := by
        by_cases hrun : row.outcome = .running
        · exact .of_insert rfl (hrunning hrun).1
        · exact .of_insertEnded row hrun (AttemptsProgress.refl _)
      exact hmove.oneRunning hconv.single
  · refine ⟨fun _ => Iff.rfl, ?_, ?_⟩
    · intro turn p
      constructor
      · rintro ⟨stored, hmsg, hran⟩
        exact ⟨stored, hmsg, by simpa only [hon] using hran⟩
      · rintro ⟨stored, hmsg, hran⟩
        exact ⟨stored, hmsg, by simpa only [hon] using hran⟩
    · rintro turn ⟨stored, hmsg, haccepted⟩
      apply verified_congr (hon turn)
      rw [Bool.eq_iff_iff, hasAttempts_iff, hasAttempts_iff]
      constructor
      · rintro ⟨id, attempt, hget, hof⟩
        rcases hstored id attempt hget with rfl | hget
        · rw [hof] at hturn
          have hsame := Option.some.inj (hturn.symm.trans hmsg.1)
          rw [hsame] at hunaccepted
          exact absurd haccepted hunaccepted
        · exact ⟨id, attempt, hget, hof⟩
      · rintro ⟨id, attempt, hget, hof⟩
        exact ⟨id, attempt, Table.get?_insert_of_get? hget, hof⟩

/-! ## The owner after a move that accepts nothing -/

theorem Steady.unlocked_iff (h : Steady thread db db')
    (hconv : Conversation thread harness db)
    (hconv' : Conversation thread harness db') :
    Unlocked thread db' ↔ Unlocked thread db := by
  rw [CatalogDatabase.unlocked_iff hconv, CatalogDatabase.unlocked_iff hconv']
  have hverified : (∃ turn p, db'.RanOn thread turn p ∧ db'.Verified turn) ↔
      ∃ turn p, db.RanOn thread turn p ∧ db.Verified turn := by
    constructor
    · rintro ⟨turn, p, hran, hverified⟩
      have hran := (h.ranOn turn p).mp hran
      exact ⟨turn, p, hran, (h.verified turn hran.accepted).mp hverified⟩
    · rintro ⟨turn, p, hran, hverified⟩
      exact ⟨turn, p, (h.ranOn turn p).mpr hran,
        (h.verified turn hran.accepted).mpr hverified⟩
  rw [hverified]
  simp only [h.ranOn, h.accepted]

theorem Steady.reportedOwner_eq (h : Steady thread db db')
    (hconv : Conversation thread harness db)
    (hconv' : Conversation thread harness db')
    (hunlocked : Unlocked thread db) :
    db'.reportedOwner thread = db.reportedOwner thread := by
  have hunlocked' := (h.unlocked_iff hconv hconv').mpr hunlocked
  apply Option.ext
  intro p
  rw [reportedOwner_eq_some_iff hconv hunlocked,
    reportedOwner_eq_some_iff hconv' hunlocked']
  constructor
  · rintro ⟨turn, hran, hverified⟩
    have hran := (h.ranOn turn p).mp hran
    exact ⟨turn, hran, (h.verified turn hran.accepted).mp hverified⟩
  · rintro ⟨turn, hran, hverified⟩
    exact ⟨turn, (h.ranOn turn p).mpr hran,
      (h.verified turn hran.accepted).mpr hverified⟩

end Moves

end CatalogDatabase

end RelayerGraph
