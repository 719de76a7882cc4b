import RelayerGraph.Catalog.Compatibility

/-!
# Who owns a conversation

The report on a thread read as a statement about its turns.  An accepted
message turn ran on one provider, and its route can be verified when its
accepted attempt is on record, or when it has no attempt at all.  The report
names the provider of the verified turns, and is blocked when they disagree or
when there is none although a turn was accepted.
-/

namespace RelayerGraph

open Foundation Checked

namespace CatalogDatabase

variable (db : CatalogDatabase) (thread : ThreadId)

/-- A turn of the thread that is not the result of an invocation. -/
def MessageTurn (turn : TurnId) (row : TurnRow) : Prop :=
  db.turns.get? turn = some row ∧ row.threadId = thread ∧
    db.invoked turn = false

def AcceptedMessage (turn : TurnId) (row : TurnRow) : Prop :=
  db.MessageTurn thread turn row ∧ row.completionStatus = .accepted

/-- An attempt of the turn was accepted, on the provider. -/
def AcceptedOn (turn : TurnId) (provider : ProviderId) : Prop :=
  ∃ id attempt, db.attempts.get? id = some attempt ∧ attempt.turn = turn ∧
    attempt.outcome = .accepted ∧ attempt.providerId = provider

/-- The provider an accepted message turn ran on: that of its accepted
attempt, or else the one it selected. -/
def RanOn (turn : TurnId) (provider : ProviderId) : Prop :=
  ∃ row, db.AcceptedMessage thread turn row ∧
    (db.AcceptedOn turn provider ∨
      (∀ other, ¬ db.AcceptedOn turn other) ∧
        row.modelProviderId = some provider)

/-- The route of the turn is on record: an attempt of it was accepted, or it
has none. -/
def Verified (turn : TurnId) : Prop :=
  (∃ provider, db.AcceptedOn turn provider) ∨ db.hasAttempts turn = false

/-- The adapter and the access contract a provider has now. -/
def definitionOf (provider : ProviderId) : Option (String × String) :=
  (db.providers.get? provider).map fun row =>
    (row.adapterId, row.accessContract)

/-- What holds of the thread of a conversation with one harness whose turns
all select a model. -/
structure Conversation (harness : HarnessId) (db : CatalogDatabase) :
    Prop where
  opened : ∃ row, db.threads.get? thread = some row ∧
    row.harnessConfigurationName = harness
  spoken : ∃ turn row, db.MessageTurn thread turn row
  selected : ∀ turn row, db.turns.get? turn = some row →
    row.threadId = thread → row.modelProviderId.isSome
  harnessed : ∀ turn row, db.MessageTurn thread turn row → ∀ name,
    row.harnessConfigurationName = some name → name = harness
  named : ∀ turn row, db.AcceptedMessage thread turn row →
    row.harnessConfigurationName.isSome
  routed : ∀ id attempt row, db.attempts.get? id = some attempt →
    db.MessageTurn thread attempt.turn row →
      attempt.outcome = .running ∨ attempt.outcome = .accepted →
        attempt.harnessName = harness ∧
          db.definitionOf attempt.providerId =
            some (attempt.adapterId, attempt.accessContract)
  settled : ∀ id attempt row, db.attempts.get? id = some attempt →
    db.MessageTurn thread attempt.turn row →
      attempt.outcome = .accepted → row.completionStatus = .accepted
  owned : ∀ id attempt, db.attempts.get? id = some attempt →
    (db.turns.get? attempt.turn).isSome
  launched : ∀ turn, (db.executionPhases turn).isSome →
    db.invoked turn = true
  single : OneRunning db

/-- The conversation is not locked by its own runs: its accepted messages ran
on one provider, and one that has any may continue. -/
structure Unlocked (db : CatalogDatabase) : Prop where
  oneRoute : ∀ turn turn' p p', db.RanOn thread turn p →
    db.RanOn thread turn' p' → p = p'
  continuable : ∀ report, db.compatibilityOn thread none = .ok report →
    (∃ turn row, db.AcceptedMessage thread turn row) →
      report.status ≠ .blocked

variable {db thread} {harness : HarnessId} {turn : TurnId} {row : TurnRow}
  {exclude : Option TurnId} {p : ProviderId}

/-! ## The rows of the query -/

theorem mem_messageTurns : (turn, row) ∈ db.messageTurns thread exclude ↔
    db.MessageTurn thread turn row ∧ exclude ≠ some turn := by
  simp only [messageTurns, List.mem_insertionSort, List.mem_filter,
    Bool.and_eq_true, decide_eq_true_eq, Bool.not_eq_true',
    Table.mem_entries, MessageTurn]
  tauto

theorem mem_acceptedAttempts {attempt : TurnAttemptRow} :
    attempt ∈ db.acceptedAttempts turn ↔
      ∃ id, db.attempts.get? id = some attempt ∧ attempt.turn = turn ∧
        attempt.outcome = .accepted := by
  simp only [acceptedAttempts, List.mem_map, List.mem_filter, Bool.and_eq_true,
    decide_eq_true_eq, Prod.exists, Table.mem_entries]
  constructor
  · rintro ⟨id, stored, ⟨hstored, hturn, houtcome⟩, rfl⟩
    exact ⟨id, hstored, hturn, houtcome⟩
  · rintro ⟨id, hstored, hturn, houtcome⟩
    exact ⟨id, attempt, ⟨hstored, hturn, houtcome⟩, rfl⟩

theorem hasAttempts_iff : db.hasAttempts turn = true ↔
    ∃ id attempt, db.attempts.get? id = some attempt ∧
      attempt.turn = turn := by
  simp only [hasAttempts, List.any_eq_true, Prod.exists, Table.mem_entries,
    decide_eq_true_eq]

theorem mem_leftJoin_some {α : Type} {xs : List α} {x : α} :
    some x ∈ leftJoin xs ↔ x ∈ xs := by
  cases xs with
  | nil => simp [leftJoin]
  | cons first rest => simp [leftJoin]

theorem mem_leftJoin_none {α : Type} {xs : List α} :
    none ∈ leftJoin xs ↔ xs = [] := by
  cases xs with
  | nil => simp [leftJoin]
  | cons first rest => simp [leftJoin]

/-- The rows of the query, one by one. -/
theorem mem_rows {joined : CompatibilityRow} :
    joined ∈ (db.messageTurns thread exclude).flatMap db.compatibilityRows ↔
      ∃ turn, db.MessageTurn thread turn joined.turn ∧
        exclude ≠ some turn ∧
        joined.attempt ∈ leftJoin (db.acceptedAttempts turn) ∧
        joined.current = ((joined.attempt.map TurnAttemptRow.providerId).or
          joined.turn.modelProviderId).bind db.providers.get? ∧
        joined.hasAttempts = db.hasAttempts turn := by
  simp only [List.mem_flatMap, Prod.exists, mem_messageTurns,
    compatibilityRows, List.mem_map]
  constructor
  · rintro ⟨turn, row, ⟨hturn, hexclude⟩, attempt, hattempt, rfl⟩
    exact ⟨turn, hturn, hexclude, hattempt, rfl, rfl⟩
  · rintro ⟨turn, hturn, hexclude, hattempt, hcurrent, hhas⟩
    refine ⟨turn, joined.turn, ⟨hturn, hexclude⟩, joined.attempt, hattempt, ?_⟩
    rw [← hcurrent, ← hhas]

section Sound

variable (hconv : Conversation thread harness db)

include hconv

theorem rows_sound {joined : CompatibilityRow}
    (h : joined ∈
      (db.messageTurns thread exclude).flatMap db.compatibilityRows) :
    joined.Sound harness := by
  obtain ⟨turn, hmessage, -, hattempt, hcurrent, hhas⟩ := mem_rows.mp h
  have haccepted : ∀ attempt, joined.attempt = some attempt →
      ∃ id, db.attempts.get? id = some attempt ∧ attempt.turn = turn ∧
        attempt.outcome = .accepted := by
    intro attempt hsome
    rw [hsome] at hattempt
    exact mem_acceptedAttempts.mp (mem_leftJoin_some.mp hattempt)
  refine ⟨hconv.selected turn _ hmessage.1 hmessage.2.1,
    hconv.harnessed turn _ hmessage,
    fun haccepted' => hconv.named turn _ ⟨hmessage, haccepted'⟩, ?_, ?_⟩
  · intro attempt hsome
    obtain ⟨id, hstored, hof, houtcome⟩ := haccepted attempt hsome
    have howned : db.MessageTurn thread attempt.turn joined.turn := by
      rw [hof]
      exact hmessage
    refine ⟨(hconv.routed id attempt _ hstored howned (.inr houtcome)).1,
      hconv.settled id attempt _ hstored howned houtcome, ?_⟩
    rw [hhas]
    exact hasAttempts_iff.mpr ⟨id, attempt, hstored, hof⟩
  · unfold CompatibilityRow.redefined
    cases hsome : joined.attempt with
    | none => rfl
    | some attempt =>
        obtain ⟨id, hstored, hof, houtcome⟩ := haccepted attempt hsome
        have howned : db.MessageTurn thread attempt.turn joined.turn := by
          rw [hof]
          exact hmessage
        have hdefined := (hconv.routed id attempt _ hstored howned
          (.inr houtcome)).2
        obtain ⟨provider, hprovider, hsame⟩ :=
          Option.map_eq_some_iff.mp hdefined
        have hnow : joined.current = some provider := by
          rw [hcurrent, hsome]
          exact hprovider
        obtain ⟨hadapter, hcontract⟩ := Prod.mk.inj hsame
        simp [hnow, hadapter, hcontract]

/-- The rows name the providers the verified turns ran on. -/
theorem exists_names_iff :
    (∃ joined ∈ (db.messageTurns thread exclude).flatMap db.compatibilityRows,
      joined.Names p) ↔
      ∃ turn, exclude ≠ some turn ∧ db.RanOn thread turn p ∧
        db.Verified turn := by
  constructor
  · rintro ⟨joined, hmem, hnames⟩
    have haccepted := hnames.accepted (rows_sound hconv hmem)
    obtain ⟨turn, hturn, hexclude, hattempt, -, hhas⟩ := mem_rows.mp hmem
    refine ⟨turn, hexclude, ?_⟩
    unfold CompatibilityRow.Names CompatibilityRow.named at hnames
    cases hsome : joined.attempt with
    | some attempt =>
        rw [hsome] at hnames hattempt
        obtain ⟨id, hstored, hof, houtcome⟩ :=
          mem_acceptedAttempts.mp (mem_leftJoin_some.mp hattempt)
        have hon : db.AcceptedOn turn p := by
          refine ⟨id, attempt, hstored, hof, houtcome, ?_⟩
          simpa using hnames
        exact ⟨⟨joined.turn, ⟨hturn, haccepted⟩, .inl hon⟩, .inl ⟨p, hon⟩⟩
    | none =>
        rw [hsome] at hnames hattempt
        dsimp only at hnames
        split at hnames
        case isTrue hfree =>
          have hnone : db.hasAttempts turn = false := by
            rw [← hhas]
            exact hfree.2
          refine ⟨⟨joined.turn, ⟨hturn, haccepted⟩, .inr ⟨?_, ?_⟩⟩,
            .inr hnone⟩
          · rintro other ⟨id, attempt, hstored, hof, -, -⟩
            have hsome := hasAttempts_iff.mpr ⟨id, attempt, hstored, hof⟩
            rw [hnone] at hsome
            cases hsome
          · exact Option.some.inj hnames
        case isFalse => cases hnames
  · rintro ⟨turn, hexclude, ⟨row, ⟨hturn, haccepted⟩, hon⟩, hverified⟩
    rcases hon with ⟨id, attempt, hstored, hof, houtcome, hprovider⟩ |
      ⟨hnever, hselected⟩
    · have hmem := mem_leftJoin_some.mpr (mem_acceptedAttempts.mpr
        ⟨id, hstored, hof, houtcome⟩)
      refine ⟨⟨row, some attempt, db.providers.get? attempt.providerId,
        db.hasAttempts turn⟩, mem_rows.mpr
          ⟨turn, hturn, hexclude, hmem, rfl, rfl⟩, ?_⟩
      simp [CompatibilityRow.Names, CompatibilityRow.named, hprovider]
    · have hnone : db.hasAttempts turn = false := by
        rcases hverified with ⟨other, hother⟩ | hnone
        · exact absurd hother (hnever other)
        · exact hnone
      have hmem : none ∈ leftJoin (db.acceptedAttempts turn) := by
        rw [mem_leftJoin_none, List.eq_nil_iff_forall_not_mem]
        intro attempt hattempt
        obtain ⟨id, hstored, hof, houtcome⟩ :=
          mem_acceptedAttempts.mp hattempt
        exact hnever _ ⟨id, attempt, hstored, hof, houtcome, rfl⟩
      refine ⟨⟨row, none, row.modelProviderId.bind db.providers.get?,
        db.hasAttempts turn⟩, mem_rows.mpr
          ⟨turn, hturn, hexclude, hmem, rfl, rfl⟩, ?_⟩
      simp [CompatibilityRow.Names, CompatibilityRow.named, haccepted, hnone,
        hselected]

/-! ## The report -/

/-- The report is that of the loop over sound rows. -/
theorem compatibilityOn_eq :
    db.compatibilityOn thread exclude =
      .ok (compatibilityReport thread harness
        (CompatibilityRow.weighAll harness ⟨false, false, none⟩
          ((db.messageTurns thread exclude).flatMap
            db.compatibilityRows))) := by
  obtain ⟨row, hrow, rfl⟩ := hconv.opened
  simp only [compatibilityOn, hrow, orThrow]
  rfl

variable {report : ConversationCompatibility}
  (hreport : db.compatibilityOn thread exclude = .ok report)

include hreport

theorem report_eq :
    report = compatibilityReport thread harness
      (CompatibilityRow.weighAll harness ⟨false, false, none⟩
        ((db.messageTurns thread exclude).flatMap db.compatibilityRows)) := by
  rw [compatibilityOn_eq hconv] at hreport
  exact (Except.ok.inj hreport).symm

/-- A report that is not blocked names the provider of every verified turn. -/
theorem owner_of_unblocked (hstatus : report.status ≠ .blocked)
    (hexclude : exclude ≠ some turn) (hran : db.RanOn thread turn p)
    (hverified : db.Verified turn) :
    report.status = .compatible ∧ report.providerId = some p := by
  obtain ⟨joined, hmem, hnames⟩ := (exists_names_iff hconv).mpr
    ⟨turn, hexclude, hran, hverified⟩
  have hsound := fun row hrow =>
    @rows_sound _ _ _ exclude hconv row hrow
  obtain rfl := report_eq hconv hreport
  unfold compatibilityReport at hstatus ⊢
  split at hstatus
  case isTrue => exact absurd rfl hstatus
  case isFalse hcertain =>
    rw [if_neg hcertain]
    have huncertain := Bool.not_eq_true _ ▸ (not_or.mp hcertain).1
    obtain ⟨-, -, hnamed⟩ := CompatibilityRow.weighAll_certain hsound
      huncertain
    rw [hnamed joined hmem p hnames]
    exact ⟨rfl, rfl⟩

/-- Verified turns that agree own the conversation. -/
theorem report_of_agreed
    (hagreed : ∀ turn q, exclude ≠ some turn → db.RanOn thread turn q →
      db.Verified turn → q = p)
    (hexclude : exclude ≠ some turn) (hran : db.RanOn thread turn p)
    (hverified : db.Verified turn) :
    report.status = .compatible ∧ report.providerId = some p := by
  obtain ⟨joined, hmem, hnames⟩ := (exists_names_iff hconv).mpr
    ⟨turn, hexclude, hran, hverified⟩
  have hsound := fun row hrow =>
    @rows_sound _ _ _ exclude hconv row hrow
  obtain ⟨hcertain, howner⟩ := @CompatibilityRow.weighAll_agreed
    _ ⟨false, false, none⟩ _ _ hsound
    (fun row hrow q hq => by
      obtain ⟨turn', hexclude', hran', hverified'⟩ :=
        (exists_names_iff hconv).mp ⟨row, hrow, hq⟩
      exact hagreed turn' q hexclude' hran' hverified')
    rfl (fun q hq => by cases hq)
  have hsome := (@CompatibilityRow.weighAll_owner
    _ ⟨false, false, none⟩ _ hsound).mpr (.inr ⟨joined, hmem, p, hnames⟩)
  obtain ⟨q, hq⟩ := Option.isSome_iff_exists.mp hsome
  obtain rfl := howner q hq
  obtain rfl := report_eq hconv hreport
  simp [compatibilityReport, hcertain, hq]

/-- Without a verified turn the report names no owner. -/
theorem report_of_unverified
    (hnone : ∀ turn q, exclude ≠ some turn → db.RanOn thread turn q →
      ¬ db.Verified turn) :
    report.providerId = none ∧
      ((∃ turn row, exclude ≠ some turn ∧
        db.AcceptedMessage thread turn row) → report.status = .blocked) := by
  have hsound := fun row hrow =>
    @rows_sound _ _ _ exclude hconv row hrow
  have hunowned : (CompatibilityRow.weighAll harness ⟨false, false, none⟩
      ((db.messageTurns thread exclude).flatMap
        db.compatibilityRows)).providerId = none := by
    rw [← Option.not_isSome_iff_eq_none, CompatibilityRow.weighAll_owner hsound]
    rintro (hstart | ⟨row, hrow, q, hq⟩)
    · cases hstart
    · obtain ⟨turn', hexclude', hran', hverified'⟩ :=
        (exists_names_iff hconv).mp ⟨row, hrow, hq⟩
      exact hnone turn' q hexclude' hran' hverified'
  obtain rfl := report_eq hconv hreport
  constructor
  · unfold compatibilityReport
    rw [hunowned]
    split <;> rfl
  · rintro ⟨turn, row, hexclude, hturn, haccepted⟩
    obtain ⟨attempt, hattempt⟩ : ∃ attempt,
        attempt ∈ leftJoin (db.acceptedAttempts turn) := by
      cases hrows : db.acceptedAttempts turn with
      | nil => exact ⟨none, by simp [leftJoin]⟩
      | cons first rest => exact ⟨some first, by simp [leftJoin]⟩
    have hsaw := @CompatibilityRow.weighAll_saw _ ⟨false, false, none⟩ _
      hsound (.inr ⟨⟨row, attempt,
        ((attempt.map TurnAttemptRow.providerId).or row.modelProviderId).bind
          db.providers.get?, db.hasAttempts turn⟩, mem_rows.mpr
            ⟨turn, hturn, hexclude, hattempt, rfl, rfl⟩, haccepted⟩)
    simp [compatibilityReport, hunowned, hsaw]

end Sound

/-! ## The owner of an unlocked conversation -/

/-- The provider the report names. -/
def reportedOwner (db : CatalogDatabase) (thread : ThreadId) :
    Option ProviderId :=
  match db.compatibilityOn thread none with
  | .ok report => report.providerId
  | .error _ => none

/-- Exactly when a conversation is unlocked: its accepted messages ran on one
provider, and if there is any, the route of one is on record. -/
theorem unlocked_iff (hconv : Conversation thread harness db) :
    Unlocked thread db ↔
      (∀ turn turn' p p', db.RanOn thread turn p →
        db.RanOn thread turn' p' → p = p') ∧
      ((∃ turn row, db.AcceptedMessage thread turn row) →
        ∃ turn p, db.RanOn thread turn p ∧ db.Verified turn) := by
  constructor
  · intro h
    refine ⟨h.oneRoute, ?_⟩
    rintro ⟨turn, row, haccepted⟩
    by_contra hnone
    have hunverified : ∀ turn q, none ≠ some turn → db.RanOn thread turn q →
        ¬ db.Verified turn := by
      intro turn q _ hran hverified
      exact hnone ⟨turn, q, hran, hverified⟩
    have hreport := @compatibilityOn_eq _ _ _ none hconv
    exact h.continuable _ hreport ⟨turn, row, haccepted⟩
      ((report_of_unverified hconv hreport hunverified).2
        ⟨turn, row, by simp, haccepted⟩)
  · rintro ⟨hroute, hverified⟩
    refine ⟨hroute, ?_⟩
    intro report hreport hsome
    obtain ⟨turn, p, hran, hon⟩ := hverified hsome
    have hstatus := (report_of_agreed hconv hreport
      (fun turn' q _ hran' _ => hroute turn' turn q p hran' hran)
      (by simp) hran hon).1
    rw [hstatus]
    exact fun heq => by cases heq

/-- The report of an unlocked conversation names the provider of its verified
turns. -/
theorem reportedOwner_eq_some_iff (hconv : Conversation thread harness db)
    (h : Unlocked thread db) :
    db.reportedOwner thread = some p ↔
      ∃ turn, db.RanOn thread turn p ∧ db.Verified turn := by
  have hreport := @compatibilityOn_eq _ _ _ none hconv
  have howner : db.reportedOwner thread = (compatibilityReport thread harness
      (CompatibilityRow.weighAll harness ⟨false, false, none⟩
        ((db.messageTurns thread none).flatMap
          db.compatibilityRows))).providerId := by
    rw [reportedOwner, hreport]
  rw [howner]
  constructor
  · intro hsome
    by_cases hany : ∃ turn q, db.RanOn thread turn q ∧ db.Verified turn
    · obtain ⟨turn, q, hran, hverified⟩ := hany
      have hq := (report_of_agreed hconv hreport
        (fun turn' q' _ hran' _ => h.oneRoute turn' turn q' q hran' hran)
        (by simp) hran hverified).2
      rw [hsome] at hq
      obtain rfl := Option.some.inj hq
      exact ⟨turn, hran, hverified⟩
    · have hnone := (report_of_unverified hconv hreport
        (fun turn q _ hran hverified => hany ⟨turn, q, hran, hverified⟩)).1
      rw [hsome] at hnone
      cases hnone
  · rintro ⟨turn, hran, hverified⟩
    exact (report_of_agreed hconv hreport
      (fun turn' q' _ hran' _ => h.oneRoute turn' turn q' p hran' hran)
      (by simp) hran hverified).2

/-- A route the report admits is that of every verified turn. -/
theorem provider_of_validateOn (hconv : Conversation thread harness db)
    {command : ValidateModelSelectionCommand}
    (hvalid : db.validateOn thread exclude command = true)
    (hexclude : exclude ≠ some turn) (hran : db.RanOn thread turn p)
    (hverified : db.Verified turn) : p = command.providerId := by
  have hreport := @compatibilityOn_eq _ _ _ exclude hconv
  rw [validateOn, hreport] at hvalid
  dsimp only at hvalid
  have hstatus : (compatibilityReport thread harness
      (CompatibilityRow.weighAll harness ⟨false, false, none⟩
        ((db.messageTurns thread exclude).flatMap
          db.compatibilityRows))).status ≠ .blocked := by
    intro hblocked
    rw [ConversationCompatibility.admits, hblocked] at hvalid
    cases hvalid
  obtain ⟨hcompatible, howner⟩ := owner_of_unblocked hconv hreport hstatus
    hexclude hran hverified
  rw [ConversationCompatibility.admits, hcompatible] at hvalid
  simp only [howner, Bool.and_eq_true, decide_eq_true_eq] at hvalid
  exact Option.some.inj hvalid.1

end CatalogDatabase

end RelayerGraph
