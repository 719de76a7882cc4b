import RelayerGraph.Search.Publication

/-!
# When the quarantine protects queries

The holder of the order lock never exposes an unacknowledged publication: its
own confirmation follows its SQLite commit, and the replay of a receipt
compares both stores while nothing else can write them.  A replay of
`complete` holds no lock, and can clear the quarantine of a later publication.
The main result says exactly which steps of a run are harmless.
-/

namespace RelayerGraph

open Foundation

/-- Revisions in order, with the empty store before the first. -/
def revisionRank : Option ℕ → ℕ
  | none => 0
  | some revision => revision + 1

theorem revisionRank_injective : Function.Injective revisionRank := by
  intro r q h
  cases r <;> cases q <;> simp_all [revisionRank]

theorem revisionRank_lt_nextRevision (recorded stored : Option ℕ) :
    revisionRank stored < revisionRank (some (nextRevision recorded stored)) := by
  cases recorded <;> cases stored <;>
    simp [nextRevision, revisionRank, firstRevision]

/-! ## What the clients know of the stores -/

/-- A replay outside the order lock remembers a revision SQLite had reached. -/
def Replay.Trails (sqlite : Option ℕ) : Replay → Prop
  | .snapshot revision | .unknown revision | .matched revision
  | .ended revision => revisionRank revision ≤ revisionRank sqlite
  | .started | .answered | .refused _ => True

/-- A replay under the order lock sees the stores as they are. -/
def Replay.Current (ladybug sqlite : Option ℕ) : Replay → Prop
  | .snapshot revision | .unknown revision => revision = sqlite
  | .matched _ | .ended _ => ladybug = sqlite
  | .started | .answered | .refused _ => True

/-- What the holder of the order lock relies on at each of its steps. -/
def Holder.Consistent (ladybug sqlite : Option ℕ) : Holder → Prop
  | .idle | .publishing _ | .recordedRead _ _ => True
  | .begun _ revision | .quarantined revision =>
      revisionRank ladybug < revisionRank (some revision)
  | .indexed revision => ladybug = some revision
  | .committed => ladybug = sqlite
  | .replaying replay => replay.Current ladybug sqlite

namespace PublicationState

/-- The facts about the two stores which every interleaving maintains. -/
structure Consistent (s : PublicationState) : Prop where
  readiness :
    s.runtime.readiness = .ready ∨ s.runtime.readiness = .canonicalUnknown
  ordered : revisionRank s.sqlite ≤ revisionRank s.ladybug
  holder : s.holder.Consistent s.ladybug s.sqlite
  replays : ∀ replay ∈ s.replays, replay.Trails s.sqlite

theorem Consistent.confirmed {s : PublicationState} (h : s.Consistent) :
    s.runtime.canonicalCommitConfirmed.readiness = .ready :=
  TargetRuntime.canonicalCommitConfirmed_readiness_eq_ready_iff.mpr h.readiness

/-- A replay keeps trailing canonical SQLite while it advances. -/
theorem trails_of_replayMove {s : PublicationState}
    {replay next : Replay} {move : ReplayMove}
    (htrails : replay.Trails s.sqlite)
    (hmove : s.replayMove replay move = some next) :
    next.Trails s.sqlite := by
  unfold replayMove at hmove
  split at hmove
  · cases hmove
    exact le_refl _
  · split at hmove <;> cases hmove
    · exact htrails
    · trivial
  · rename_i canonical
    by_cases hsame : canonical = s.ladybug
    · subst hsame
      simp only [ne_eq, not_true_eq_false, if_false, Option.some.injEq] at hmove
      exact hmove ▸ htrails
    · simp only [ne_eq, hsame, not_false_eq_true, if_true,
        Option.some.injEq] at hmove
      exact hmove ▸ trivial
  · cases hmove
    exact htrails
  · cases hmove

/-- Under the order lock the comparison is a comparison of the live stores. -/
theorem current_of_replayMove {s : PublicationState}
    {replay next : Replay} {move : ReplayMove}
    (hcurrent : replay.Current s.ladybug s.sqlite)
    (hmove : s.replayMove replay move = some next) :
    next.Current s.ladybug s.sqlite := by
  unfold replayMove at hmove
  split at hmove
  · cases hmove
    exact rfl
  · split at hmove <;> cases hmove
    · exact hcurrent
    · trivial
  · rename_i canonical
    have hcanonical : canonical = s.sqlite := hcurrent
    by_cases hsame : canonical = s.ladybug
    · simp only [ne_eq, hsame, not_true_eq_false, if_false,
        Option.some.injEq] at hmove
      subst hmove
      exact hsame.symm.trans hcanonical
    · simp only [ne_eq, hsame, not_false_eq_true, if_true,
        Option.some.injEq] at hmove
      exact hmove ▸ trivial
  · cases hmove
    exact hcurrent
  · cases hmove

/-! ## Every step keeps the stores consistent -/

/-- Changing only who holds the lock, and what that holder knows. -/
theorem Consistent.withHolder {s : PublicationState} (hs : s.Consistent)
    {holder : Holder} (hholder : holder.Consistent s.ladybug s.sqlite) :
    ({ s with holder } : PublicationState).Consistent :=
  ⟨hs.readiness, hs.ordered, hholder, hs.replays⟩

/-- Changing one replay into one that still trails SQLite. -/
theorem Consistent.withReplay {s : PublicationState} (hs : s.Consistent)
    {client : ℕ} {replay : Replay} (htrails : replay.Trails s.sqlite) :
    ({ s with replays := s.replays.set client replay }
      : PublicationState).Consistent := by
  refine ⟨hs.readiness, hs.ordered, hs.holder, ?_⟩
  intro other hother
  rcases List.mem_or_eq_of_mem_set hother with hold | rfl
  · exact hs.replays other hold
  · exact htrails

/-- Moving the derived store forward under the order lock. -/
theorem Consistent.withLadybug {s : PublicationState} (hs : s.Consistent)
    {revision : ℕ} {holder : Holder}
    (hahead : revisionRank s.ladybug < revisionRank (some revision))
    (hholder : holder.Consistent (some revision) s.sqlite) :
    ({ s with ladybug := some revision, holder } : PublicationState).Consistent :=
  ⟨hs.readiness, le_trans hs.ordered (le_of_lt hahead), hholder, hs.replays⟩

/-- Recording the derived revision in canonical SQLite. -/
theorem Consistent.withSqlite {s : PublicationState} (hs : s.Consistent)
    {revision : ℕ} {holder : Holder} (hstored : s.ladybug = some revision)
    (hholder : holder.Consistent s.ladybug (some revision)) :
    ({ s with sqlite := some revision, holder } : PublicationState).Consistent := by
  have hforward : revisionRank s.sqlite ≤ revisionRank (some revision) :=
    hstored ▸ hs.ordered
  refine ⟨hs.readiness, le_of_eq (hstored ▸ rfl), hholder, ?_⟩
  intro replay hreplay
  have htrails := hs.replays replay hreplay
  cases replay <;> first | trivial | exact le_trans htrails hforward

/-- A confirmation changes the runtime only. -/
theorem Consistent.withConfirmed {s : PublicationState} (hs : s.Consistent)
    : ({ s with runtime := s.runtime.canonicalCommitConfirmed }
      : PublicationState).Consistent :=
  ⟨.inl hs.confirmed, hs.ordered, hs.holder, hs.replays⟩

theorem consistent_step {s t : PublicationState} {action : PublicationAction}
    (hs : s.Consistent) (hstep : s.step action = some t) : t.Consistent := by
  cases action with
  | enter identity =>
      simp only [step] at hstep
      split at hstep <;> cases hstep
      exact hs.withHolder trivial
  | readRecorded =>
      simp only [step] at hstep
      split at hstep <;> cases hstep
      exact hs.withHolder trivial
  | begin =>
      simp only [step] at hstep
      split at hstep <;> cases hstep
      exact hs.withHolder (revisionRank_lt_nextRevision _ _)
  | quarantine target =>
      simp only [step] at hstep
      split at hstep
      · rename_i identity revision hholder
        have hbegun : revisionRank s.ladybug < revisionRank (some revision) := by
          simpa [hholder, Holder.Consistent] using hs.holder
        split at hstep <;> cases hstep
        · rename_i runtime hunknown
          exact ⟨.inr (TargetRuntime.readiness_of_canonicalCommitUnknown hunknown),
            hs.ordered, hbegun, hs.replays⟩
        · exact hs.withHolder trivial
      · cases hstep
  | commitLadybug outcome =>
      simp only [step] at hstep
      split at hstep
      · rename_i revision hholder
        cases hstep
        refine hs.withLadybug ?_ rfl
        simpa [hholder, Holder.Consistent] using hs.holder
      · rename_i revision hholder
        cases hstep
        refine hs.withLadybug ?_ trivial
        simpa [hholder, Holder.Consistent] using hs.holder
      · cases hstep
        exact hs.withHolder trivial
      · cases hstep
  | commitSqlite outcome =>
      simp only [step] at hstep
      split at hstep
      · rename_i revision hholder
        cases hstep
        have hstored : s.ladybug = some revision := by
          simpa [hholder, Holder.Consistent] using hs.holder
        exact hs.withSqlite hstored hstored
      · rename_i revision hholder
        cases hstep
        have hstored : s.ladybug = some revision := by
          simpa [hholder, Holder.Consistent] using hs.holder
        exact hs.withSqlite hstored trivial
      · cases hstep
        exact hs.withHolder trivial
      · cases hstep
  | confirm =>
      simp only [step] at hstep
      split at hstep <;> cases hstep
      exact hs.withConfirmed.withHolder trivial
  | abandon =>
      simp only [step] at hstep
      split at hstep <;> cases hstep
      exact hs.withHolder trivial
  | enterReplay =>
      simp only [step] at hstep
      split at hstep <;> cases hstep
      exact hs.withHolder trivial
  | holderReplay move =>
      simp only [step] at hstep
      split at hstep
      · rename_i replay hholder
        obtain ⟨next, hmove, rfl⟩ := Option.map_eq_some_iff.mp hstep
        refine hs.withHolder (current_of_replayMove ?_ hmove)
        simpa [hholder, Holder.Consistent] using hs.holder
      · cases hstep
  | confirmHolderReplay =>
      simp only [step] at hstep
      split at hstep <;> cases hstep
      exact hs.withConfirmed.withHolder trivial
  | startReplay =>
      cases hstep
      refine ⟨hs.readiness, hs.ordered, hs.holder, ?_⟩
      intro replay hreplay
      rcases List.mem_append.mp hreplay with hold | hnew
      · exact hs.replays replay hold
      · rw [List.mem_singleton.mp hnew]
        trivial
  | replay client move =>
      simp only [step, Option.bind_eq_bind, Option.bind_eq_some_iff,
        Option.some.injEq] at hstep
      obtain ⟨replay, hreplay, next, hmove, rfl⟩ := hstep
      exact hs.withReplay (trails_of_replayMove
        (hs.replays replay (List.mem_of_getElem? hreplay)) hmove)
  | confirmReplay client =>
      simp only [step, Option.bind_eq_bind, Option.bind_eq_some_iff] at hstep
      obtain ⟨replay, hreplay, hstep⟩ := hstep
      split at hstep <;> cases hstep
      exact hs.withConfirmed.withReplay trivial

/-! ## Steps that keep an unacknowledged publication hidden -/

/-- The steps which cannot expose a publication.  A derived commit that takes
effect finds its quarantine still in place; a replay of `complete` that
confirms under quarantine finds the derived store as it compared it, or finds
the SQLite commit of every later derived commit done. -/
def KeepsQuarantine (s : PublicationState) : PublicationAction → Prop
  | .commitLadybug outcome =>
      outcome ≠ .failed → s.runtime.canonicalCommitIsUnknown
  | .confirmReplay client =>
      ∀ stored, s.replays[client]? = some (.ended stored) →
        s.runtime.canonicalCommitIsUnknown →
          s.ladybug = stored ∨ s.ladybug = s.sqlite
  | _ => True

theorem servesAcknowledged_iff {s : PublicationState} :
    s.ServesAcknowledged ↔
      (s.runtime.readiness = .ready → s.ladybug = s.sqlite) := by
  rw [ServesAcknowledged, TargetRuntime.queryReadiness_eq_ok_iff]

/-- Steps that move neither the stores nor the runtime keep the property. -/
theorem ServesAcknowledged.congr {s t : PublicationState}
    (hs : s.ServesAcknowledged) (hruntime : t.runtime = s.runtime)
    (hladybug : t.ladybug = s.ladybug) (hsqlite : t.sqlite = s.sqlite) :
    t.ServesAcknowledged := by
  rw [servesAcknowledged_iff] at hs ⊢
  rwa [hruntime, hladybug, hsqlite]

/-- Equal stores serve only acknowledged publications. -/
theorem servesAcknowledged_of_eq {s : PublicationState}
    (heq : s.ladybug = s.sqlite) : s.ServesAcknowledged :=
  fun _ => heq

/-- A derived commit that takes effect puts the derived store ahead, so the
property now rests on the quarantine alone. -/
theorem servesAcknowledged_withLadybug_iff {s : PublicationState}
    (hs : s.Consistent) {revision : ℕ} {holder : Holder}
    (hahead : revisionRank s.ladybug < revisionRank (some revision)) :
    ({ s with ladybug := some revision, holder } : PublicationState).ServesAcknowledged ↔
      s.runtime.canonicalCommitIsUnknown = true := by
  have hne : some revision ≠ s.sqlite := by
    intro heq
    have hle := hs.ordered
    rw [← heq] at hle
    omega
  rw [servesAcknowledged_iff]
  rcases hs.readiness with hready | hunknown
  · simp [hready, hne, TargetRuntime.canonicalCommitIsUnknown]
  · simp [hunknown, TargetRuntime.canonicalCommitIsUnknown]

/-- What a replay of `complete` confirms. -/
theorem servesAcknowledged_confirmReplay_iff {s : PublicationState}
    (hs : s.Consistent) (hserves : s.ServesAcknowledged)
    {client : ℕ} {stored : Option ℕ}
    (hreplay : s.replays[client]? = some (.ended stored)) :
    ({ s with
        runtime := s.runtime.canonicalCommitConfirmed
        replays := s.replays.set client .answered }
      : PublicationState).ServesAcknowledged ↔
      s.KeepsQuarantine (.confirmReplay client) := by
  have htrails : revisionRank stored ≤ revisionRank s.sqlite :=
    hs.replays _ (List.mem_of_getElem? hreplay)
  rw [servesAcknowledged_iff]
  constructor
  · intro hnext other hother _
    exact .inr (hnext hs.confirmed)
  · intro hguard _
    rcases hs.readiness with hready | hunknown
    · have hsame : s.ladybug = s.sqlite :=
        servesAcknowledged_iff.mp hserves hready
      exact hsame
    · rcases hguard stored hreplay
        (by simp [TargetRuntime.canonicalCommitIsUnknown, hunknown])
        with hsame | hcommitted
      · -- The stores only move forward, so SQLite cannot have passed the
        -- revision which the replay saw in both.
        exact revisionRank_injective
          (le_antisymm (hsame ▸ htrails) hs.ordered)
      · exact hcommitted

theorem servesAcknowledged_step_iff {s t : PublicationState}
    {action : PublicationAction} (hs : s.Consistent)
    (hserves : s.ServesAcknowledged) (hstep : s.step action = some t) :
    t.ServesAcknowledged ↔ s.KeepsQuarantine action := by
  cases action with
  | enter identity =>
      simp only [step] at hstep
      split at hstep <;> cases hstep
      exact iff_of_true (hserves.congr rfl rfl rfl) trivial
  | readRecorded =>
      simp only [step] at hstep
      split at hstep <;> cases hstep
      exact iff_of_true (hserves.congr rfl rfl rfl) trivial
  | begin =>
      simp only [step] at hstep
      split at hstep <;> cases hstep
      exact iff_of_true (hserves.congr rfl rfl rfl) trivial
  | quarantine target =>
      simp only [step] at hstep
      split at hstep
      · split at hstep <;> cases hstep
        · rename_i runtime hunknown
          refine iff_of_true ?_ trivial
          rw [servesAcknowledged_iff,
            TargetRuntime.readiness_of_canonicalCommitUnknown hunknown]
          exact fun h => by cases h
        · exact iff_of_true (hserves.congr rfl rfl rfl) trivial
      · cases hstep
  | commitLadybug outcome =>
      simp only [step] at hstep
      split at hstep
      · rename_i revision hholder
        cases hstep
        have hahead := hs.holder
        rw [hholder] at hahead
        rw [servesAcknowledged_withLadybug_iff hs hahead]
        simp [KeepsQuarantine]
      · rename_i revision hholder
        cases hstep
        have hahead := hs.holder
        rw [hholder] at hahead
        rw [servesAcknowledged_withLadybug_iff hs hahead]
        simp [KeepsQuarantine]
      · cases hstep
        exact iff_of_true (hserves.congr rfl rfl rfl) (by simp [KeepsQuarantine])
      · cases hstep
  | commitSqlite outcome =>
      simp only [step] at hstep
      split at hstep
      · rename_i revision hholder
        cases hstep
        have hstored := hs.holder
        rw [hholder] at hstored
        exact iff_of_true (servesAcknowledged_of_eq hstored) trivial
      · rename_i revision hholder
        cases hstep
        have hstored := hs.holder
        rw [hholder] at hstored
        exact iff_of_true (servesAcknowledged_of_eq hstored) trivial
      · cases hstep
        exact iff_of_true (hserves.congr rfl rfl rfl) trivial
      · cases hstep
  | confirm =>
      simp only [step] at hstep
      split at hstep
      · rename_i hholder
        cases hstep
        have hsame := hs.holder
        rw [hholder] at hsame
        exact iff_of_true (servesAcknowledged_of_eq hsame) trivial
      · cases hstep
  | abandon =>
      simp only [step] at hstep
      split at hstep <;> cases hstep
      exact iff_of_true (hserves.congr rfl rfl rfl) trivial
  | enterReplay =>
      simp only [step] at hstep
      split at hstep <;> cases hstep
      exact iff_of_true (hserves.congr rfl rfl rfl) trivial
  | holderReplay move =>
      simp only [step] at hstep
      split at hstep
      · obtain ⟨next, -, rfl⟩ := Option.map_eq_some_iff.mp hstep
        exact iff_of_true (hserves.congr rfl rfl rfl) trivial
      · cases hstep
  | confirmHolderReplay =>
      simp only [step] at hstep
      split at hstep
      · rename_i stored hholder
        cases hstep
        have hsame := hs.holder
        rw [hholder] at hsame
        exact iff_of_true (servesAcknowledged_of_eq hsame) trivial
      · cases hstep
  | startReplay =>
      cases hstep
      exact iff_of_true (hserves.congr rfl rfl rfl) trivial
  | replay client move =>
      simp only [step, Option.bind_eq_bind, Option.bind_eq_some_iff,
        Option.some.injEq] at hstep
      obtain ⟨replay, -, next, -, rfl⟩ := hstep
      exact iff_of_true (hserves.congr rfl rfl rfl) trivial
  | confirmReplay client =>
      simp only [step, Option.bind_eq_bind, Option.bind_eq_some_iff] at hstep
      obtain ⟨replay, hreplay, hstep⟩ := hstep
      split at hstep <;> cases hstep
      exact servesAcknowledged_confirmReplay_iff hs hserves hreplay

end PublicationState

open PublicationState

theorem consistent_of_init {s : PublicationState}
    (hs : publicationProtocol.init s) : s.Consistent := by
  obtain ⟨hruntime, hstores, hholder, hreplays⟩ := hs
  refine ⟨.inl (by simp [hruntime, TargetRuntime.absent]),
    le_of_eq (by rw [hstores]), by simp [hholder, Holder.Consistent], ?_⟩
  simp [hreplays]

/-- Both stores stay consistent in every interleaving. -/
theorem consistent_of_reachable {s : PublicationState}
    (hs : publicationProtocol.Reachable s) : s.Consistent :=
  hs.invariant (fun _ => consistent_of_init)
    fun _ _ _ _ hconsistent hstep => consistent_step hconsistent hstep

/-- An idle target whose stores are both empty. -/
def emptyTarget : PublicationState where
  runtime := .absent
  ladybug := none
  sqlite := none
  holder := .idle
  replays := []

/-- The steps of one publication up to its derived commit. -/
def publishDerived (target : SearchTarget) (identity : String) :
    List PublicationAction :=
  [.enter identity, .readRecorded, .begin, .quarantine target,
    .commitLadybug .committed]

/-- A replay of `complete` compares the stores while the first publication
awaits its confirmation, and confirms after the derived commit of the second. -/
def overtakenReplay (target : SearchTarget) : List PublicationAction :=
  publishDerived target "first" ++
    [.commitSqlite .committed, .startReplay, .replay 0 .snapshot,
      .replay 0 .check, .replay 0 .compare, .replay 0 .commit, .confirm] ++
    publishDerived target "second" ++ [.confirmReplay 0]

/-- The state this run ends in. -/
def overtakenTarget : PublicationState where
  runtime := .absent
  ladybug := some 2
  sqlite := some 1
  holder := .indexed 2
  replays := [.answered]

theorem overtakenReplay_runs :
    (overtakenReplay (.thread ⟨⟨41, by decide, by decide⟩⟩)).foldlM step
      emptyTarget = some overtakenTarget := by
  decide

theorem trace_enter :
    publicationProtocol.Trace [(emptyTarget, PublicationAction.enter "first")]
      { emptyTarget with holder := .publishing "first" } :=
  have hinit : publicationProtocol.Trace [] emptyTarget :=
    .init ⟨rfl, rfl, rfl, rfl⟩
  hinit.step rfl

end RelayerGraph
