import RelayerGraph.Desktop.CatalogRefresh

/-!
# What a step of the catalog service can do

A step joins a refresh or adds one, advances one refresh, with a discovery or a
publication or without, settles one, answers a caller or lets it go, or closes
the service.
-/

namespace RelayerGraph

open Foundation

namespace CatalogRefresh

variable {π α ρ σ τ ε : Type}

/-- The refresh has begun and goes on. -/
def Phase.isRunning : Phase α σ ε → Prop
  | .queued => False
  | .settled _ => False
  | _ => True

/-- The refresh failed because it was aborted. -/
def Phase.hasAborted : Phase α σ ε → Prop
  | .diagnosing .aborted => True
  | .ended (.failed .aborted) => True
  | .settled (.failed .aborted) => True
  | _ => False

/-- An advance without a call outside. -/
structure Advance (aborted : Bool) (before after : Phase α σ ε) : Prop where
  unsettled : before.isSettled = false
  running : after.isRunning
  discovering : ∀ adapter generation attempt,
    after ≠ .discovering adapter generation attempt
  sleeping : ∀ adapter generation attempt,
    after = .sleeping adapter generation attempt →
    before = .discovering adapter generation attempt
  publishing : ∀ snapshot, after ≠ .publishing snapshot
  snapshot : ∀ snapshot, after = .ended (.snapshot snapshot) →
    before = .publishing snapshot
  aborts : after.hasAborted → aborted = true ∨ before.hasAborted

variable [DecidableEq π]

/-- What a step of the service can do, a close or another one. -/
inductive Steps (setup : Setup ρ σ τ ε) (s : Service π α σ τ ε) :
    Bool → Service π α σ τ ε → Prop
  | outside {adapters : π → Option α} {generations : π → Option ℕ} :
      Steps setup s false { s with adapters := adapters, generations := generations }
  | join {e : ℕ} {entry : Entry π α σ ε} :
      s.entries[e]? = some entry → entry.aborted = false →
      Steps setup s false (s.wait e)
  | add {providerId : π} {reason : Reason} :
      Steps setup s false (s.add providerId reason)
  | advance {e : ℕ} {entry : Entry π α σ ε} {phase : Phase α σ ε} :
      s.entries[e]? = some entry →
      (entry.phase = .queued → s.previousSettled entry = true) →
      Advance entry.aborted entry.phase phase →
      Steps setup s false (s.setPhase e phase)
  | discover {e : ℕ} {entry : Entry π α σ ε} {adapter : α}
      {generation : Option ℕ} {attempt : ℕ} :
      s.entries[e]? = some entry → entry.aborted = false →
      (entry.phase = .queued ∧ s.previousSettled entry = true ∧
        s.adapters entry.providerId = some adapter ∧
        s.generation setup entry.providerId = generation ∨
      ∃ earlier, entry.phase = .sleeping adapter generation earlier) →
      Steps setup s false (s.discover e adapter generation attempt)
  | publish {e : ℕ} {entry : Entry π α σ ε} {adapter : α}
      {generation : Option ℕ} {attempt : ℕ} {snapshot : σ} :
      s.entries[e]? = some entry → entry.aborted = false →
      entry.phase = .discovering adapter generation attempt →
      s.generation setup entry.providerId = generation →
      Steps setup s false ((s.setPhase e (.publishing snapshot)).effect
        (.publication e (setup.toProductCatalogSnapshot snapshot) generation))
  | settle {e : ℕ} {entry : Entry π α σ ε} {result : Result σ ε} :
      s.entries[e]? = some entry → entry.phase = .ended result →
      Steps setup s false (s.settle e entry result)
  | deliver {c : ℕ} {caller : Caller σ ε} {entry : Entry π α σ ε}
      {result : Result σ ε} :
      s.callers[c]? = some caller → caller.outcome = none →
      s.entries[caller.entry]? = some entry → entry.phase = .settled result →
      Steps setup s false { s with
        callers := s.callers.set c
          { entry := caller.entry, outcome := some (.settled result) } }
  | leave {c : ℕ} {caller : Caller σ ε} :
      s.callers[c]? = some caller → caller.outcome = none →
      Steps setup s false (s.abortCaller c caller)
  | close : Steps setup s true s.close

variable {setup : Setup ρ σ τ ε} {s t : Service π α σ τ ε}

/-! ## Every step is one of these -/

omit [DecidableEq π] in
theorem advance_ended {aborted : Bool} {before : Phase α σ ε}
    {result : Result σ ε} (hbefore : before.isSettled = false)
    (hsnapshot : ∀ snapshot, result = .snapshot snapshot →
      before = .publishing snapshot)
    (haborts : result = .failed .aborted → aborted = true ∨ before.hasAborted) :
    Advance aborted before (.ended result) where
  unsettled := hbefore
  running := trivial
  discovering _ _ _ h := by cases h
  sleeping _ _ _ h := by cases h
  publishing _ h := by cases h
  snapshot snapshot h := by
    cases h
    exact hsnapshot snapshot rfl
  aborts h := by
    cases result with
    | snapshot snapshot => cases h
    | superseded => cases h
    | failed failure =>
        cases failure with
        | thrown error => cases h
        | aborted => exact haborts rfl

omit [DecidableEq π] in
theorem advance_diagnosing {aborted : Bool} {before : Phase α σ ε}
    {failure : Failure ε} (hbefore : before.isSettled = false)
    (haborts : failure = .aborted → aborted = true) :
    Advance aborted before (.diagnosing failure) where
  unsettled := hbefore
  running := trivial
  discovering _ _ _ h := by cases h
  sleeping _ _ _ h := by cases h
  publishing _ h := by cases h
  snapshot _ h := by cases h
  aborts h := by
    cases failure with
    | thrown error => cases h
    | aborted => exact .inl (haborts rfl)

theorem steps_of_refresh {providerId : π} {reason : Reason} :
    Steps setup s false (s.refresh providerId reason) := by
  simp only [Service.refresh]
  split
  · rename_i e hjoined
    obtain ⟨-, hjoins⟩ := Option.filter_eq_some_iff.mp hjoined
    have hlive : s.entries[e]?.any (fun entry => !entry.aborted) = true := by
      simpa using (of_decide_eq_true hjoins).2
    obtain ⟨entry, hentry, habort⟩ := (Option.any_eq_true _ _).mp hlive
    exact .join hentry (by simpa using habort)
  · exact Steps.add

theorem steps_of_begin {e : ℕ} {entry : Entry π α σ ε}
    (hentry : s.entries[e]? = some entry) (hphase : entry.phase = .queued)
    (hprevious : s.previousSettled entry = true) :
    Steps setup s false (s.begin setup e entry) := by
  have hunsettled : entry.phase.isSettled = false := by rw [hphase]; rfl
  unfold Service.begin
  split
  · rename_i haborted
    exact .advance hentry (fun _ => hprevious)
      (advance_ended hunsettled (fun _ h => by cases h) fun _ => .inl haborted)
  · rename_i hlive
    split
    · exact .advance hentry (fun _ => hprevious)
        (advance_ended hunsettled (fun _ h => by cases h) fun h => by cases h)
    · rename_i adapter hadapter
      split
      · exact .advance hentry (fun _ => hprevious)
          (advance_ended hunsettled (fun _ h => by cases h) fun h => by cases h)
      · exact .discover hentry (by simpa using hlive)
          (.inl ⟨hphase, hprevious, hadapter, rfl⟩)

theorem steps_of_discovered {e : ℕ} {entry : Entry π α σ ε} {adapter : α}
    {generation : Option ℕ} {attempt : ℕ} (value : ρ)
    (hentry : s.entries[e]? = some entry)
    (hphase : entry.phase = .discovering adapter generation attempt) :
    Steps setup s false (s.discovered setup e entry generation value) := by
  have hunsettled : entry.phase.isSettled = false := by rw [hphase]; rfl
  have hbegun : entry.phase = .queued → s.previousSettled entry = true := by
    rw [hphase]
    intro h
    cases h
  unfold Service.discovered
  split
  · exact .advance hentry hbegun
      (advance_diagnosing hunsettled fun h => by cases h)
  · split
    · rename_i haborted
      exact .advance hentry hbegun
        (advance_ended hunsettled (fun _ h => by cases h) fun _ => .inl haborted)
    · rename_i hlive
      split
      · exact .advance hentry hbegun
          (advance_ended hunsettled (fun _ h => by cases h) fun h => by cases h)
      · rename_i hsame
        exact .publish hentry (by simpa using hlive) hphase (not_not.mp hsame)

theorem steps_of_discoveryFailed {e : ℕ} {entry : Entry π α σ ε} {adapter : α}
    {generation : Option ℕ} {attempt : ℕ} (error : ε)
    (hentry : s.entries[e]? = some entry)
    (hphase : entry.phase = .discovering adapter generation attempt) :
    Steps setup s false
      (s.discoveryFailed setup e entry adapter generation attempt error) := by
  have hunsettled : entry.phase.isSettled = false := by rw [hphase]; rfl
  have hbegun : entry.phase = .queued → s.previousSettled entry = true := by
    rw [hphase]
    intro h
    cases h
  unfold Service.discoveryFailed
  split
  · rename_i haborted
    exact .advance hentry hbegun (advance_diagnosing hunsettled fun _ => haborted)
  · split
    · exact .advance hentry hbegun
        (advance_diagnosing hunsettled fun h => by cases h)
    · refine .advance hentry hbegun ⟨hunsettled, trivial, ?_, ?_, ?_, ?_, ?_⟩
      · intro _ _ _ h
        cases h
      · intro _ _ _ h
        cases h
        exact hphase
      · intro _ h
        cases h
      · intro _ h
        cases h
      · intro h
        cases h

theorem steps_of_wake {e : ℕ} {entry : Entry π α σ ε} {adapter : α}
    {generation : Option ℕ} {attempt : ℕ} (hentry : s.entries[e]? = some entry)
    (hphase : entry.phase = .sleeping adapter generation attempt) :
    Steps setup s false (s.wake e entry adapter generation attempt) := by
  unfold Service.wake
  split
  · rename_i haborted
    refine .advance hentry ?_
      (advance_diagnosing (by rw [hphase]; rfl) fun _ => haborted)
    rw [hphase]
    intro h
    cases h
  · rename_i hlive
    exact .discover hentry (by simpa using hlive) (.inr ⟨attempt, hphase⟩)

/-- An advance that ends a refresh from one of its phases. -/
theorem steps_of_ended {e : ℕ} {entry : Entry π α σ ε} {result : Result σ ε}
    (hentry : s.entries[e]? = some entry) (hrunning : entry.phase.isRunning)
    (hsnapshot : ∀ snapshot, result = .snapshot snapshot →
      entry.phase = .publishing snapshot)
    (haborts : result = .failed .aborted →
      entry.aborted = true ∨ entry.phase.hasAborted) :
    Steps setup s false (s.setPhase e (.ended result)) := by
  have hunsettled : entry.phase.isSettled = false := by
    cases hphase : entry.phase with
    | settled result =>
        rw [hphase] at hrunning
        exact hrunning.elim
    | _ => rfl
  refine .advance hentry ?_ (advance_ended hunsettled hsnapshot haborts)
  intro hqueued
  rw [hqueued] at hrunning
  exact hrunning.elim

theorem steps_of_publicationFailed {e : ℕ} {entry : Entry π α σ ε}
    {snapshot : σ} (error : ε) (hentry : s.entries[e]? = some entry)
    (hphase : entry.phase = .publishing snapshot) :
    Steps setup s false (s.publicationFailed setup e error) := by
  unfold Service.publicationFailed
  split
  · refine .advance hentry ?_ ⟨by rw [hphase]; rfl, trivial, ?_, ?_, ?_, ?_, ?_⟩
    · rw [hphase]
      intro h
      cases h
    · intro _ _ _ h
      cases h
    · intro _ _ _ h
      cases h
    · intro _ h
      cases h
    · intro _ h
      cases h
    · intro h
      cases h
  · exact steps_of_ended hentry (by rw [hphase]; trivial)
      (fun _ h => by cases h) fun h => by cases h

omit [DecidableEq π] in
theorem exists_of_advance {e : ℕ}
    {take : Entry π α σ ε → Option (Service π α σ τ ε)}
    (h : s.advance e take = some t) :
    ∃ entry, s.entries[e]? = some entry ∧ take entry = some t :=
  Option.bind_eq_some_iff.mp h

theorem steps_of_next [DecidableEq α] {label : Label π α ρ ε}
    (h : s.next setup label = some t) : Steps setup s label.isClose t := by
  cases label with
  | register providerId adapter =>
      simp only [Service.next] at h
      split at h
      · obtain rfl := Option.some.inj h
        exact .outside
      · split at h
        · obtain rfl := Option.some.inj h
          exact Steps.outside (s := s)
        · cases h
  | unregister providerId =>
      obtain rfl := Option.some.inj h
      exact .outside
  | connect providerId generation =>
      obtain rfl := Option.some.inj h
      exact .outside
  | refresh providerId reason =>
      simp only [Service.next] at h
      split at h
      · obtain rfl := Option.some.inj h
        exact steps_of_refresh
      · cases h
  | begin e =>
      obtain ⟨entry, hentry, htake⟩ := exists_of_advance h
      split at htake
      · rename_i hphase
        split at htake
        · rename_i hprevious
          obtain rfl := Option.some.inj htake
          exact steps_of_begin hentry hphase hprevious
        · cases htake
      · cases htake
  | discovered e value =>
      obtain ⟨entry, hentry, htake⟩ := exists_of_advance h
      split at htake
      · rename_i hphase
        obtain rfl := Option.some.inj htake
        exact steps_of_discovered value hentry hphase
      · cases htake
  | discoveryFailed e error =>
      obtain ⟨entry, hentry, htake⟩ := exists_of_advance h
      split at htake
      · rename_i hphase
        obtain rfl := Option.some.inj htake
        exact steps_of_discoveryFailed error hentry hphase
      · cases htake
  | wake e =>
      obtain ⟨entry, hentry, htake⟩ := exists_of_advance h
      split at htake
      · rename_i hphase
        obtain rfl := Option.some.inj htake
        exact steps_of_wake hentry hphase
      · cases htake
  | diagnosed e =>
      obtain ⟨entry, hentry, htake⟩ := exists_of_advance h
      split at htake
      · rename_i hphase
        obtain rfl := Option.some.inj htake
        refine steps_of_ended hentry (by rw [hphase]; trivial)
          (fun _ h => by cases h) ?_
        intro h
        cases h
        right
        rw [hphase]
        trivial
      · cases htake
  | published e =>
      obtain ⟨entry, hentry, htake⟩ := exists_of_advance h
      split at htake
      · rename_i snapshot hphase
        obtain rfl := Option.some.inj htake
        refine steps_of_ended hentry (by rw [hphase]; trivial) ?_ ?_
        · intro other hother
          split at hother
          · cases hother
          · cases hother
            exact hphase
        · intro hfailed
          split at hfailed
          · rename_i haborted
            exact .inl haborted
          · cases hfailed
      · cases htake
  | publicationFailed e error =>
      obtain ⟨entry, hentry, htake⟩ := exists_of_advance h
      split at htake
      · rename_i hphase
        obtain rfl := Option.some.inj htake
        exact steps_of_publicationFailed error hentry hphase
      · cases htake
  | publicationAborted e =>
      obtain ⟨entry, hentry, htake⟩ := exists_of_advance h
      split at htake
      · rename_i hphase
        split at htake
        · rename_i haborted
          obtain rfl := Option.some.inj htake
          exact steps_of_ended hentry (by rw [hphase]; trivial)
            (fun _ h => by cases h) fun _ => .inl haborted
        · cases htake
      · cases htake
  | resynced e =>
      obtain ⟨entry, hentry, htake⟩ := exists_of_advance h
      split at htake
      · rename_i hphase
        obtain rfl := Option.some.inj htake
        exact steps_of_ended hentry (by rw [hphase]; trivial)
          (fun _ h => by cases h) fun h => by cases h
      · cases htake
  | settle e =>
      obtain ⟨entry, hentry, htake⟩ := exists_of_advance h
      split at htake
      · rename_i hphase
        obtain rfl := Option.some.inj htake
        exact .settle hentry hphase
      · cases htake
  | deliver c =>
      obtain ⟨caller, hcaller, hrest⟩ := Option.bind_eq_some_iff.mp h
      obtain ⟨entry, hentry, htake⟩ := exists_of_advance hrest
      split at htake
      · rename_i hphase houtcome
        obtain rfl := Option.some.inj htake
        exact .deliver hcaller houtcome hentry hphase
      · cases htake
  | abortCaller c =>
      obtain ⟨caller, hcaller, hrest⟩ := Option.bind_eq_some_iff.mp h
      split at hrest
      · rename_i houtcome
        obtain rfl := Option.some.inj hrest
        exact .leave hcaller (by simpa using houtcome)
      · cases hrest
  | close =>
      obtain rfl := Option.some.inj h
      exact .close

end CatalogRefresh

end RelayerGraph
