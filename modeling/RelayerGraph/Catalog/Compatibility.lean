import RelayerGraph.Catalog.AttemptAccounts

/-!
# The route a conversation continues on

Native history is not portable, so a conversation continues with the provider
and the harness its accepted messages ran on.  The report reads every message
turn of the thread in order: which provider its accepted attempt used, and
whether something ran whose route is not known.
-/

namespace RelayerGraph

open Foundation Checked

/-- `ConversationCompatibility.status`. -/
inductive CompatibilityStatus
  | unrestricted
  | compatible
  | blocked
deriving DecidableEq, Repr

structure ConversationCompatibility where
  threadId : ThreadId
  status : CompatibilityStatus
  harnessId : HarnessId
  providerId : Option ProviderId
  message : Option String
deriving DecidableEq

def canonicalHarness (value : HarnessId) : HarnessId :=
  if value = "codex-basic-high" then "codex-basic"
  else if value = "prime-agent-deep" then "prime-agent-basic"
  else value

def queuedRunStopped : String := "Stopped before it started."

def restartDiscarded : String := "Discarded after Relayer restarted."

def capacityWaitInterrupted : String :=
  "Relayer stopped before this message had capacity to start. Send it again to run it."

def blockedRoute : String :=
  "This conversation's original execution route cannot be verified. Its history is preserved, but continuing it is unavailable."

def legacyRoute : String :=
  "This legacy conversation can continue only with its original provider and harness. Compatible model changes are available; history is preserved."

/-- A row of the query: a turn joined with an accepted attempt of it, if it
has one, and with the provider of that attempt, or else of the turn. -/
structure CompatibilityRow where
  turn : TurnRow
  attempt : Option TurnAttemptRow
  current : Option ProviderRow
  hasAttempts : Bool
deriving DecidableEq

/-- What the loop over the rows carries. -/
structure RouteTally where
  uncertain : Bool
  sawExecution : Bool
  providerId : Option ProviderId
deriving DecidableEq

/-- The error starts with the text. -/
def errorStarts (start : String) (row : TurnRow) : Bool :=
  row.completionError.any fun error => startsWith start error

namespace CompatibilityRow

variable (row : CompatibilityRow)

/-- Stopped in a queue, or discarded after a restart. -/
def removed : Bool :=
  decide (row.turn.completionStatus = .stopped) &&
    (errorStarts queuedRunStopped row.turn ||
      errorStarts restartDiscarded row.turn)

/-- A returned message a later one made stale. -/
def staleReturned : Bool :=
  decide (row.turn.completionStatus = .failed) &&
    errorStarts CatalogDatabase.staleReturnedMessage row.turn

/-- Failed while it waited for capacity, or stale. -/
def neverStarted : Bool :=
  decide (row.turn.completionStatus = .failed) &&
    (errorStarts capacityWaitInterrupted row.turn ||
      errorStarts CatalogDatabase.staleReturnedMessage row.turn)

def bound : Bool := row.turn.graphNodeId.isSome

/-- The statuses of a run that has not ended. -/
def pending : Bool :=
  decide (row.turn.completionStatus ∈
    [CompletionStatus.notStarted, .submitted, .running, .paused,
      .interrupted])

/-- The row says that its run never executed. -/
def unexecuted : Bool :=
  (row.staleReturned && row.attempt.isNone) ||
    (!row.hasAttempts && (!row.bound || row.staleReturned) &&
      (row.removed || row.neverStarted))

/-- The owner's harness is not the thread's. -/
def foreignHarness (harness : HarnessId) : Bool :=
  match (row.attempt.map TurnAttemptRow.harnessName).or
      row.turn.harnessConfigurationName with
  | none => true
  | some owner => decide (canonicalHarness owner ≠ canonicalHarness harness)

/-- The provider was redefined since the attempt. -/
def redefined : Bool :=
  row.attempt.any fun attempt =>
    decide (some attempt.adapterId ≠ row.current.map ProviderRow.adapterId) ||
      decide (some attempt.accessContract ≠
        row.current.map ProviderRow.accessContract)

/-- The provider the row names as the owner of the conversation. -/
def named : Option (Option ProviderId) :=
  match row.attempt with
  | some attempt => some (some attempt.providerId)
  | none =>
      if row.turn.completionStatus = .accepted ∧ row.hasAttempts = false then
        some row.turn.modelProviderId
      else
        none

/-- The part of the loop that settles the owner. -/
def weighOwner (harness : HarnessId) (provider : Option ProviderId)
    (tally : RouteTally) : RouteTally :=
  if provider.isNone ∨ row.foreignHarness harness = true then
    { tally with uncertain := true }
  else
    { tally with
      uncertain := tally.uncertain || row.redefined ||
        (tally.providerId.isSome && decide (tally.providerId ≠ provider))
      providerId := provider }

/-- The loop's body. -/
def weigh (harness : HarnessId) (tally : RouteTally) : RouteTally :=
  if row.removed ∧ row.hasAttempts = false ∧ row.bound = false then
    tally
  else if row.turn.modelProviderId = none ∧ row.hasAttempts = false then
    if row.turn.completionStatus ∈
        [CompletionStatus.accepted, .failed, .stopped] then
      { tally with uncertain := true }
    else
      tally
  else if row.unexecuted = true then
    tally
  else
    let tally :=
      if row.pending = true then tally
      else { tally with sawExecution := true }
    match row.named with
    | some provider => row.weighOwner harness provider tally
    | none => tally

/-- The loop over the rows. -/
def weighAll (harness : HarnessId) (tally : RouteTally) :
    List CompatibilityRow → RouteTally
  | [] => tally
  | row :: rows => weighAll harness (row.weigh harness tally) rows

end CompatibilityRow

/-- The report admits the route of the command. -/
def ConversationCompatibility.admits (report : ConversationCompatibility)
    (command : ValidateModelSelectionCommand) : Bool :=
  match report.status with
  | .blocked => false
  | .unrestricted => true
  | .compatible =>
      decide (report.providerId = some command.providerId) &&
        decide (report.harnessId = command.harnessId)

/-- A left join yields a row for each match, or one without. -/
def leftJoin {α : Type} : List α → List (Option α)
  | [] => [none]
  | first :: rest => (first :: rest).map some

namespace CatalogDatabase

variable (db : CatalogDatabase)

/-- The accepted attempts of the turn. -/
def acceptedAttempts (turn : TurnId) : List TurnAttemptRow :=
  (db.attempts.entries.filter fun entry =>
    decide (entry.2.turn = turn) &&
      decide (entry.2.outcome = .accepted)).map Prod.snd

/-- Some attempt of the turn is recorded. -/
def hasAttempts (turn : TurnId) : Bool :=
  db.attempts.entries.any fun entry => decide (entry.2.turn = turn)

/-- The message turns of the thread, in order: the results of invocations have
histories of their own. -/
def messageTurns (thread : ThreadId) (exclude : Option TurnId) :
    List (TurnId × TurnRow) :=
  (db.turns.entries.filter fun entry =>
      decide (entry.2.threadId = thread) && decide (exclude ≠ some entry.1) &&
        !db.invoked entry.1).insertionSort
    fun entry other => entry.2.sequence ≤ other.2.sequence

/-- The rows of the query for one turn. -/
def compatibilityRows (entry : TurnId × TurnRow) : List CompatibilityRow :=
  (leftJoin (db.acceptedAttempts entry.1)).map fun attempt =>
    { turn := entry.2
      attempt := attempt
      current :=
        ((attempt.map TurnAttemptRow.providerId).or
          entry.2.modelProviderId).bind db.providers.get?
      hasAttempts := db.hasAttempts entry.1 }

/-- The report of a tally. -/
def compatibilityReport (thread : ThreadId) (harness : HarnessId)
    (tally : RouteTally) : ConversationCompatibility :=
  if tally.uncertain = true ∨
      (tally.sawExecution = true ∧ tally.providerId = none) then
    ⟨thread, .blocked, harness, none, some blockedRoute⟩
  else if tally.providerId.isSome then
    ⟨thread, .compatible, harness, tally.providerId, some legacyRoute⟩
  else
    ⟨thread, .unrestricted, harness, none, none⟩

/-- `compatibility_on`. -/
def compatibilityOn (thread : ThreadId) (exclude : Option TurnId) :
    CatalogResult ConversationCompatibility := do
  let row ← orThrow (db.threads.get? thread) .rowNotFound
  let harness := row.harnessConfigurationName
  let rows := (db.messageTurns thread exclude).flatMap db.compatibilityRows
  pure (compatibilityReport thread harness
    (CompatibilityRow.weighAll harness ⟨false, false, none⟩ rows))

/-- `validate_on`: whether the conversation may continue on the route. -/
def validateOn (thread : ThreadId) (exclude : Option TurnId)
    (command : ValidateModelSelectionCommand) : Bool :=
  match db.compatibilityOn thread exclude with
  | .ok report => report.admits command
  | .error _ => false

end CatalogDatabase

/-! ## What a row adds -/

namespace CompatibilityRow

variable {harness : HarnessId} {row : CompatibilityRow} {tally : RouteTally}
  {p q : ProviderId}

/-- A row of a conversation whose turns all have a route: each has a selection
and the thread's harness, and an accepted attempt is one of its turn. -/
structure Sound (harness : HarnessId) (row : CompatibilityRow) : Prop where
  selected : row.turn.modelProviderId.isSome
  harnessed : ∀ name, row.turn.harnessConfigurationName = some name →
    name = harness
  accepted : row.turn.completionStatus = .accepted →
    row.turn.harnessConfigurationName.isSome
  attempted : ∀ attempt, row.attempt = some attempt →
    attempt.harnessName = harness ∧
      row.turn.completionStatus = .accepted ∧ row.hasAttempts = true
  defined : row.redefined = false

/-- The row names the provider as the owner. -/
def Names (row : CompatibilityRow) (provider : ProviderId) : Prop :=
  row.named = some (some provider)

theorem Names.accepted (hrow : row.Sound harness) (h : row.Names p) :
    row.turn.completionStatus = .accepted := by
  unfold Names named at h
  cases hattempt : row.attempt with
  | some attempt => exact (hrow.attempted attempt hattempt).2.1
  | none =>
      rw [hattempt] at h
      dsimp only at h
      split at h
      case isTrue haccepted => exact haccepted.1
      case isFalse => cases h

theorem Names.own (hrow : row.Sound harness) (h : row.Names p) :
    row.foreignHarness harness = false := by
  have haccepted := h.accepted hrow
  unfold foreignHarness
  cases hattempt : row.attempt with
  | some attempt => simp [(hrow.attempted attempt hattempt).1]
  | none =>
      obtain ⟨name, hname⟩ := Option.isSome_iff_exists.mp
        (hrow.accepted haccepted)
      simp [hname, hrow.harnessed name hname]

/-- An accepted turn is not among those that never ran. -/
theorem not_skipped (haccepted : row.turn.completionStatus = .accepted) :
    row.removed = false ∧ row.unexecuted = false ∧ row.pending = false := by
  simp [removed, unexecuted, staleReturned, neverStarted, pending, haccepted]

/-- A row that names an owner settles it, and makes the report uncertain when
another was settled before. -/
theorem weigh_names (hrow : row.Sound harness) (h : row.Names p) :
    row.weigh harness tally =
      ⟨tally.uncertain || (tally.providerId.isSome &&
        decide (tally.providerId ≠ some p)), true, some p⟩ := by
  obtain ⟨hremoved, hexecuted, hended⟩ := not_skipped (h.accepted hrow)
  have hselected : row.turn.modelProviderId ≠ none := by
    intro hnone
    have := hrow.selected
    rw [hnone] at this
    cases this
  have hnamed : row.named = some (some p) := h
  simp [weigh, hremoved, hexecuted, hended, hselected, hnamed, weighOwner,
    h.own hrow, hrow.defined]

/-- A row that names none leaves the owner and the uncertainty. -/
theorem weigh_unnamed (hrow : row.Sound harness)
    (h : ∀ provider, ¬ row.Names provider) :
    (row.weigh harness tally).uncertain = tally.uncertain ∧
      (row.weigh harness tally).providerId = tally.providerId := by
  have hselected : row.turn.modelProviderId ≠ none := by
    intro hnone
    have := hrow.selected
    rw [hnone] at this
    cases this
  have hnamed : row.named = none := by
    cases hnamed : row.named with
    | none => rfl
    | some provider =>
        cases provider with
        | some provider => exact absurd hnamed (h provider)
        | none =>
            exfalso
            unfold named at hnamed
            split at hnamed
            · cases hnamed
            · split at hnamed
              · exact hselected (Option.some.inj hnamed)
              · cases hnamed
  unfold weigh
  rw [hnamed]
  split
  · exact ⟨rfl, rfl⟩
  · rw [if_neg fun hboth => hselected hboth.1]
    split
    · exact ⟨rfl, rfl⟩
    · dsimp only
      split <;> exact ⟨rfl, rfl⟩

/-- An accepted turn counts as executed. -/
theorem weigh_accepted (hrow : row.Sound harness)
    (haccepted : row.turn.completionStatus = .accepted) :
    (row.weigh harness tally).sawExecution = true := by
  obtain ⟨hremoved, hexecuted, hended⟩ := not_skipped haccepted
  have hselected : row.turn.modelProviderId ≠ none := by
    intro hnone
    have := hrow.selected
    rw [hnone] at this
    cases this
  unfold weigh
  simp only [hremoved, hexecuted, hended, hselected, Bool.false_eq_true,
    false_and, if_false]
  split
  · unfold weighOwner
    split <;> rfl
  · rfl

/-- What was seen stays seen. -/
theorem weigh_saw (h : tally.sawExecution = true) :
    (row.weigh harness tally).sawExecution = true := by
  unfold weigh weighOwner
  split
  · exact h
  · split
    · split <;> exact h
    · split
      · exact h
      · dsimp only
        split
        · split <;> split <;> simp [h]
        · split <;> simp [h]

/-! ## The whole loop -/

variable {rows : List CompatibilityRow}

/-- A report that is not uncertain has the one owner its rows name. -/
theorem weighAll_certain (hrows : ∀ row ∈ rows, row.Sound harness)
    (h : (weighAll harness tally rows).uncertain = false) :
    tally.uncertain = false ∧
      (∀ p, tally.providerId = some p →
        (weighAll harness tally rows).providerId = some p) ∧
      ∀ row ∈ rows, ∀ p, row.Names p →
        (weighAll harness tally rows).providerId = some p := by
  induction rows generalizing tally with
  | nil => exact ⟨h, fun _ hp => hp, by simp⟩
  | cons row rows ih =>
      have hrow := hrows row (by simp)
      obtain ⟨hfirst, hkept, hnamed⟩ :=
        ih (fun other hother => hrows other (by simp [hother])) h
      by_cases hnames : ∃ provider, row.Names provider
      · obtain ⟨provider, hprovider⟩ := hnames
        rw [weigh_names hrow hprovider] at hfirst hkept
        simp only [Bool.or_eq_false_iff, Bool.and_eq_false_iff,
          decide_eq_false_iff_not, not_not] at hfirst
        have hfinal : (weighAll harness tally (row :: rows)).providerId =
            some provider := by
          rw [weighAll, weigh_names hrow hprovider]
          exact hkept provider rfl
        refine ⟨hfirst.1, ?_, ?_⟩
        · intro p hp
          rcases hfirst.2 with hnone | hsame
          · rw [hp] at hnone
            cases hnone
          · rw [hfinal, ← hsame, hp]
        · intro other hother p hp
          rcases List.mem_cons.mp hother with rfl | hother
          · rw [hfinal]
            exact (Option.some.inj (hprovider.symm.trans hp)).symm ▸ rfl
          · exact hnamed other hother p hp
      · have hunnamed := @weigh_unnamed _ _ tally hrow
          (not_exists.mp hnames)
        refine ⟨hunnamed.1.symm.trans hfirst, ?_, ?_⟩
        · intro p hp
          exact hkept p (hunnamed.2.trans hp)
        · intro other hother p hp
          rcases List.mem_cons.mp hother with rfl | hother
          · exact absurd ⟨p, hp⟩ hnames
          · exact hnamed other hother p hp

/-- Rows that name one owner leave no uncertainty. -/
theorem weighAll_agreed (hrows : ∀ row ∈ rows, row.Sound harness)
    (hagreed : ∀ row ∈ rows, ∀ q, row.Names q → q = p)
    (hcertain : tally.uncertain = false)
    (howner : ∀ q, tally.providerId = some q → q = p) :
    (weighAll harness tally rows).uncertain = false ∧
      ∀ q, (weighAll harness tally rows).providerId = some q → q = p := by
  induction rows generalizing tally with
  | nil => exact ⟨hcertain, howner⟩
  | cons row rows ih =>
      have hrow := hrows row (by simp)
      have hrest : ∀ other ∈ rows, other.Sound harness :=
        fun other hother => hrows other (by simp [hother])
      have hagreedRest : ∀ other ∈ rows, ∀ q, other.Names q → q = p :=
        fun other hother => hagreed other (by simp [hother])
      apply ih hrest hagreedRest
      · by_cases hnames : ∃ provider, row.Names provider
        · obtain ⟨provider, hprovider⟩ := hnames
          obtain rfl := hagreed row (by simp) provider hprovider
          rw [weigh_names hrow hprovider]
          cases hold : tally.providerId with
          | none => simp [hcertain]
          | some old => simp [hcertain, howner old hold]
        · rw [(weigh_unnamed hrow (not_exists.mp hnames)).1]
          exact hcertain
      · intro q hq
        by_cases hnames : ∃ provider, row.Names provider
        · obtain ⟨provider, hprovider⟩ := hnames
          rw [weigh_names hrow hprovider] at hq
          obtain rfl := Option.some.inj hq
          exact hagreed row (by simp) _ hprovider
        · rw [(weigh_unnamed hrow (not_exists.mp hnames)).2] at hq
          exact howner q hq

/-- The report has an owner when a row names one. -/
theorem weighAll_owner (hrows : ∀ row ∈ rows, row.Sound harness) :
    (weighAll harness tally rows).providerId.isSome = true ↔
      tally.providerId.isSome = true ∨ ∃ row ∈ rows, ∃ p, row.Names p := by
  induction rows generalizing tally with
  | nil => simp [weighAll]
  | cons row rows ih =>
      have hrow := hrows row (by simp)
      have hrest : ∀ other ∈ rows, other.Sound harness :=
        fun other hother => hrows other (by simp [hother])
      rw [weighAll, ih hrest]
      by_cases hnames : ∃ provider, row.Names provider
      · obtain ⟨provider, hprovider⟩ := hnames
        rw [weigh_names hrow hprovider]
        simp only [Option.isSome_some, true_or, List.mem_cons, true_iff]
        exact .inr ⟨row, .inl rfl, provider, hprovider⟩
      · rw [(weigh_unnamed hrow (not_exists.mp hnames)).2]
        simp only [List.mem_cons, exists_eq_or_imp, hnames, false_or]

/-- The loop saw an execution when a turn was accepted. -/
theorem weighAll_saw (hrows : ∀ row ∈ rows, row.Sound harness)
    (h : tally.sawExecution = true ∨
      ∃ row ∈ rows, row.turn.completionStatus = .accepted) :
    (weighAll harness tally rows).sawExecution = true := by
  induction rows generalizing tally with
  | nil =>
      rcases h with h | ⟨_, hmem, _⟩
      · exact h
      · simp at hmem
  | cons row rows ih =>
      have hrow := hrows row (by simp)
      apply ih fun other hother => hrows other (by simp [hother])
      rcases h with h | ⟨other, hother, haccepted⟩
      · exact .inl (weigh_saw h)
      · rcases List.mem_cons.mp hother with rfl | hother
        · exact .inl (weigh_accepted hrow haccepted)
        · exact .inr ⟨other, hother, haccepted⟩

end CompatibilityRow

end RelayerGraph
