import RelayerGraph.Desktop.RefreshSteps

/-!
# The chain of refreshes of a provider

A refresh runs once every earlier refresh of its provider has settled, and a
provider's queue remembers the last of those that have not.  What the service
did for a refresh is told by its phase.
-/

namespace RelayerGraph

open Foundation

namespace CatalogRefresh

variable {π α ρ σ τ ε : Type} {s t : Service π α σ τ ε}

/-! ## Entries after a step -/

theorem getElem?_setPhase (s : Service π α σ τ ε) (e k : ℕ)
    (phase : Phase α σ ε) :
    (s.setPhase e phase).entries[k]? =
      s.entries[k]?.map fun entry =>
        if e = k then entry.setPhase phase else entry :=
  List.getElem?_modify _ _ _ _

theorem getElem?_setAborted (s : Service π α σ τ ε) (e k : ℕ) :
    (s.setAborted e).entries[k]? =
      s.entries[k]?.map fun entry => if e = k then entry.abort else entry :=
  List.getElem?_modify _ _ _ _

theorem lt_length_of_getElem? {e : ℕ} {entry : Entry π α σ ε}
    (h : s.entries[e]? = some entry) : e < s.entries.length :=
  (List.getElem?_eq_some_iff.mp h).1

/-- The provider of an entry. -/
def Service.provider? (s : Service π α σ τ ε) (e : ℕ) : Option π :=
  s.entries[e]?.map Entry.providerId

/-- The refreshes of a provider form a chain. -/
structure Chained (s : Service π α σ τ ε) : Prop where
  linked : ∀ {e k : ℕ} {entry before : Entry π α σ ε},
    s.entries[e]? = some entry → s.entries[k]? = some before → k < e →
    before.providerId = entry.providerId → before.phase.isSettled = false →
    ∃ q, entry.previous = some q ∧ k ≤ q
  previous : ∀ {e k : ℕ} {entry : Entry π α σ ε}, s.entries[e]? = some entry →
    entry.previous = some k → s.provider? k = some entry.providerId
  begun : ∀ {e k : ℕ} {entry before : Entry π α σ ε},
    s.entries[e]? = some entry → s.entries[k]? = some before → k < e →
    before.providerId = entry.providerId → entry.phase ≠ .queued →
    before.phase.isSettled = true
  last : ∀ {e : ℕ} {entry : Entry π α σ ε}, s.entries[e]? = some entry →
    entry.phase.isSettled = false →
    ∃ q, s.refreshQueues entry.providerId = some q ∧ e ≤ q
  queue : ∀ {providerId : π} {q : ℕ}, s.refreshQueues providerId = some q →
    s.provider? q = some providerId

/-- Where the refresh before an entry has settled, all earlier ones have. -/
theorem Chained.settled_of_previousSettled (h : Chained s) {e k : ℕ}
    {entry before : Entry π α σ ε} (hentry : s.entries[e]? = some entry)
    (hbefore : s.entries[k]? = some before) (hlt : k < e)
    (hsame : before.providerId = entry.providerId)
    (hprevious : s.previousSettled entry = true) :
    before.phase.isSettled = true := by
  by_contra hunsettled
  obtain ⟨q, hq, hle⟩ := h.linked hentry hbefore hlt hsame
    (by simpa using hunsettled)
  have hprovider := h.previous hentry hq
  obtain ⟨last, hlast, hlastSame⟩ := Option.map_eq_some_iff.mp hprovider
  have hsettled : last.phase.isSettled = true := by
    simpa [Service.previousSettled, hq, hlast] using hprevious
  rcases Nat.lt_or_eq_of_le hle with hearlier | rfl
  · have hbegun : last.phase ≠ .queued := by
      intro hqueued
      rw [hqueued] at hsettled
      cases hsettled
    exact hunsettled (h.begun hlast hbefore hearlier (hsame.trans hlastSame.symm)
      hbegun)
  · rw [hbefore] at hlast
    cases hlast
    exact hunsettled hsettled

/-- Only phases and aborts change, and an entry begins only when the one before
it has settled. -/
structure Frame (s t : Service π α σ τ ε) : Prop where
  queues : t.refreshQueues = s.refreshQueues
  entries : ∀ {k : ℕ} {after : Entry π α σ ε}, t.entries[k]? = some after →
    ∃ before, s.entries[k]? = some before ∧
      after.providerId = before.providerId ∧
      after.previous = before.previous ∧
      after.phase.isSettled = before.phase.isSettled ∧
      (after.phase ≠ .queued →
        before.phase ≠ .queued ∨ s.previousSettled before = true)
  providers : ∀ k, t.provider? k = s.provider? k

theorem Frame.chained (hframe : Frame s t) (h : Chained s) : Chained t where
  linked := by
    intro e k entry before hentry hbefore hlt hsame hunsettled
    obtain ⟨entry', hentry', hprovider, hprevious, -, -⟩ := hframe.entries hentry
    obtain ⟨before', hbefore', hprovider', -, hsettled', -⟩ :=
      hframe.entries hbefore
    rw [hprevious]
    refine h.linked hentry' hbefore' hlt ?_ ?_
    · rw [← hprovider', ← hprovider, hsame]
    · rw [← hsettled', hunsettled]
  previous := by
    intro e k entry hentry hk
    obtain ⟨entry', hentry', hprovider, hprevious, -, -⟩ := hframe.entries hentry
    rw [hframe.providers, hprovider]
    exact h.previous hentry' (hprevious ▸ hk)
  begun := by
    intro e k entry before hentry hbefore hlt hsame hbegun
    obtain ⟨entry', hentry', hprovider, -, -, hqueued⟩ := hframe.entries hentry
    obtain ⟨before', hbefore', hprovider', -, hsettled', -⟩ :=
      hframe.entries hbefore
    have hsame' : before'.providerId = entry'.providerId := by
      rw [← hprovider', ← hprovider, hsame]
    rw [hsettled']
    rcases hqueued hbegun with hbegun' | hprevious
    · exact h.begun hentry' hbefore' hlt hsame' hbegun'
    · exact h.settled_of_previousSettled hentry' hbefore' hlt hsame' hprevious
  last := by
    intro e entry hentry hunsettled
    obtain ⟨entry', hentry', hprovider, -, hsettled, -⟩ := hframe.entries hentry
    rw [hframe.queues, hprovider]
    exact h.last hentry' (hsettled ▸ hunsettled)
  queue := by
    intro providerId q hq
    rw [hframe.providers]
    exact h.queue (hframe.queues ▸ hq)

theorem frame_of_entries (hentries : t.entries = s.entries)
    (hqueues : t.refreshQueues = s.refreshQueues) : Frame s t where
  queues := hqueues
  entries := by
    intro k after hafter
    exact ⟨after, hentries ▸ hafter, rfl, rfl, rfl, .inl⟩
  providers k := by rw [Service.provider?, Service.provider?, hentries]

/-- An update of the entries that changes no more than their aborts. -/
theorem frame_of_map {change : ℕ → Entry π α σ ε → Entry π α σ ε}
    (hentries : ∀ k, t.entries[k]? = s.entries[k]?.map (change k))
    (hchange : ∀ k entry, change k entry = entry ∨
      change k entry = entry.abort)
    (hqueues : t.refreshQueues = s.refreshQueues) : Frame s t where
  queues := hqueues
  entries := by
    intro k after hafter
    rw [hentries] at hafter
    obtain ⟨before, hbefore, rfl⟩ := Option.map_eq_some_iff.mp hafter
    refine ⟨before, hbefore, ?_⟩
    rcases hchange k before with heq | heq
    · rw [heq]
      exact ⟨rfl, rfl, rfl, .inl⟩
    · rw [heq]
      exact ⟨rfl, rfl, rfl, .inl⟩
  providers k := by
    rw [Service.provider?, Service.provider?, hentries, Option.map_map]
    congr 1
    funext entry
    rcases hchange k entry with heq | heq
    · simp [heq]
    · simp [heq, Entry.abort]

/-- An entry that goes on. -/
theorem frame_setPhase {e : ℕ} {entry : Entry π α σ ε} {phase : Phase α σ ε}
    (hentry : s.entries[e]? = some entry)
    (hunsettled : entry.phase.isSettled = false)
    (hphase : phase.isSettled = false)
    (hbegins : entry.phase = .queued → s.previousSettled entry = true) :
    Frame s (s.setPhase e phase) where
  queues := rfl
  entries := by
    intro k after hafter
    rw [getElem?_setPhase] at hafter
    obtain ⟨before, hbefore, rfl⟩ := Option.map_eq_some_iff.mp hafter
    refine ⟨before, hbefore, ?_⟩
    by_cases hk : e = k
    · subst hk
      rw [hentry] at hbefore
      cases hbefore
      rw [if_pos rfl]
      refine ⟨rfl, rfl, hphase.trans hunsettled.symm, fun _ => ?_⟩
      by_cases hqueued : entry.phase = .queued
      · exact .inr (hbegins hqueued)
      · exact .inl hqueued
    · rw [if_neg hk]
      exact ⟨rfl, rfl, rfl, .inl⟩
  providers k := by
    rw [Service.provider?, Service.provider?, getElem?_setPhase, Option.map_map]
    congr 1
    funext entry
    simp only [Function.comp_apply]
    split <;> rfl

/-! ## Adding and settling -/

variable [DecidableEq π]

theorem getElem?_add (s : Service π α σ τ ε) (providerId : π) (reason : Reason)
    {k : ℕ} {entry : Entry π α σ ε}
    (h : (s.add providerId reason).entries[k]? = some entry) :
    s.entries[k]? = some entry ∨ k = s.entries.length ∧
      entry = ⟨providerId, reason, s.refreshQueues providerId, .queued,
        false⟩ := by
  have hk : (s.entries ++
      [⟨providerId, reason, s.refreshQueues providerId, .queued, false⟩])[k]? =
      some entry := h
  rcases Nat.lt_or_ge k s.entries.length with hlt | hge
  · left
    rwa [List.getElem?_append_left hlt] at hk
  · right
    rw [List.getElem?_append_right hge, List.getElem?_singleton] at hk
    split at hk
    · rename_i hzero
      exact ⟨by omega, (Option.some.inj hk).symm⟩
    · cases hk

theorem provider?_add (s : Service π α σ τ ε) (providerId : π) (reason : Reason)
    {k : ℕ} {p : π} (h : s.provider? k = some p) :
    (s.add providerId reason).provider? k = some p := by
  obtain ⟨entry, hentry, hp⟩ := Option.map_eq_some_iff.mp h
  have hlt := lt_length_of_getElem? hentry
  refine Option.map_eq_some_iff.mpr ⟨entry, ?_, hp⟩
  exact (List.getElem?_append_left hlt).trans hentry

theorem chained_add (h : Chained s) (providerId : π) (reason : Reason) :
    Chained (s.add providerId reason) where
  linked := by
    intro e k entry before hentry hbefore hlt hsame hunsettled
    rcases getElem?_add s providerId reason hentry with hold | ⟨rfl, rfl⟩
    · have hk : k < s.entries.length := hlt.trans (lt_length_of_getElem? hold)
      rcases getElem?_add s providerId reason hbefore with hold' | ⟨rfl, -⟩
      · exact h.linked hold hold' hlt hsame hunsettled
      · exact absurd hk (lt_irrefl _)
    · rcases getElem?_add s providerId reason hbefore with hold' | ⟨rfl, -⟩
      · obtain ⟨q, hq, hle⟩ := h.last hold' hunsettled
        rw [hsame] at hq
        exact ⟨q, hq, hle⟩
      · exact absurd hlt (lt_irrefl _)
  previous := by
    intro e k entry hentry hk
    apply provider?_add
    rcases getElem?_add s providerId reason hentry with hold | ⟨rfl, rfl⟩
    · exact h.previous hold hk
    · exact h.queue hk
  begun := by
    intro e k entry before hentry hbefore hlt hsame hbegun
    rcases getElem?_add s providerId reason hentry with hold | ⟨rfl, rfl⟩
    · have hk : k < s.entries.length := hlt.trans (lt_length_of_getElem? hold)
      rcases getElem?_add s providerId reason hbefore with hold' | ⟨rfl, -⟩
      · exact h.begun hold hold' hlt hsame hbegun
      · exact absurd hk (lt_irrefl _)
    · exact absurd rfl hbegun
  last := by
    intro e entry hentry hunsettled
    have hqueues : (s.add providerId reason).refreshQueues =
        Function.update s.refreshQueues providerId (some s.entries.length) :=
      rfl
    rw [hqueues]
    by_cases hp : entry.providerId = providerId
    · rw [hp, Function.update_self]
      refine ⟨_, rfl, ?_⟩
      rcases getElem?_add s providerId reason hentry with hold | ⟨rfl, -⟩
      · exact (lt_length_of_getElem? hold).le
      · exact le_rfl
    · rw [Function.update_of_ne hp]
      rcases getElem?_add s providerId reason hentry with hold | ⟨-, rfl⟩
      · exact h.last hold hunsettled
      · exact absurd rfl hp
  queue := by
    intro p q hq
    have hqueues : (s.add providerId reason).refreshQueues =
        Function.update s.refreshQueues providerId (some s.entries.length) :=
      rfl
    rw [hqueues] at hq
    by_cases hp : p = providerId
    · subst hp
      rw [Function.update_self] at hq
      obtain rfl := Option.some.inj hq
      have hlast : (s.add p reason).entries[s.entries.length]? =
          some ⟨p, reason, s.refreshQueues p, .queued, false⟩ :=
        List.getElem?_concat_length
      rw [Service.provider?, hlast]
      rfl
    · rw [Function.update_of_ne hp] at hq
      exact provider?_add s providerId reason (h.queue hq)

theorem settle_entries (s : Service π α σ τ ε) (e : ℕ) (entry : Entry π α σ ε)
    (result : Result σ ε) :
    (s.settle e entry result).entries =
      (s.setPhase e (.settled result)).entries := by
  unfold Service.settle
  simp only
  split <;> rfl

theorem getElem?_settle {e k : ℕ} {entry after : Entry π α σ ε}
    {result : Result σ ε} (hentry : s.entries[e]? = some entry)
    (hphase : entry.phase = .ended result)
    (h : (s.settle e entry result).entries[k]? = some after) :
    ∃ before, s.entries[k]? = some before ∧
      after.providerId = before.providerId ∧ after.previous = before.previous ∧
      (after.phase.isSettled = false →
        before.phase.isSettled = false ∧ k ≠ e) ∧
      (before.phase.isSettled = true → after.phase.isSettled = true) ∧
      (after.phase ≠ .queued → before.phase ≠ .queued) := by
  rw [settle_entries, getElem?_setPhase] at h
  obtain ⟨before, hbefore, rfl⟩ := Option.map_eq_some_iff.mp h
  refine ⟨before, hbefore, ?_⟩
  by_cases hk : e = k
  · subst hk
    rw [hentry] at hbefore
    cases hbefore
    rw [if_pos rfl]
    refine ⟨rfl, rfl, ?_, fun _ => rfl, ?_⟩
    · intro hunsettled
      cases hunsettled
    · intro _ hqueued
      rw [hphase] at hqueued
      cases hqueued
  · rw [if_neg hk]
    exact ⟨rfl, rfl, fun hunsettled => ⟨hunsettled, Ne.symm hk⟩, id, id⟩

theorem provider?_settle (s : Service π α σ τ ε) (e : ℕ)
    (entry : Entry π α σ ε) (result : Result σ ε) (k : ℕ) :
    (s.settle e entry result).provider? k = s.provider? k := by
  rw [Service.provider?, Service.provider?, settle_entries, getElem?_setPhase,
    Option.map_map]
  congr 1
  funext entry
  simp only [Function.comp_apply]
  split <;> rfl

theorem queues_settle (s : Service π α σ τ ε) (e : ℕ) (entry : Entry π α σ ε)
    (result : Result σ ε) (providerId : π) :
    (s.settle e entry result).refreshQueues providerId =
      if s.refreshQueues providerId = some e ∧ providerId = entry.providerId then
        none
      else s.refreshQueues providerId := by
  unfold Service.settle
  simp only
  by_cases hp : providerId = entry.providerId
  · subst hp
    by_cases hlast : s.refreshQueues entry.providerId = some e
    · simp [hlast]
    · simp [hlast, Service.setPhase]
  · split <;> simp [hp, Service.setPhase]

theorem chained_settle (h : Chained s) {e : ℕ} {entry : Entry π α σ ε}
    {result : Result σ ε} (hentry : s.entries[e]? = some entry)
    (hphase : entry.phase = .ended result) :
    Chained (s.settle e entry result) where
  linked := by
    intro k l after before hafter hbefore hlt hsame hunsettled
    obtain ⟨after', hafter', hprovider, hprevious, -, -, -⟩ :=
      getElem?_settle hentry hphase hafter
    obtain ⟨before', hbefore', hprovider', -, hsettled, -, -⟩ :=
      getElem?_settle hentry hphase hbefore
    rw [hprevious]
    refine h.linked hafter' hbefore' hlt ?_ (hsettled hunsettled).1
    rw [← hprovider', ← hprovider, hsame]
  previous := by
    intro k l after hafter hl
    obtain ⟨after', hafter', hprovider, hprevious, -, -, -⟩ :=
      getElem?_settle hentry hphase hafter
    rw [provider?_settle, hprovider]
    exact h.previous hafter' (hprevious ▸ hl)
  begun := by
    intro k l after before hafter hbefore hlt hsame hbegun
    obtain ⟨after', hafter', hprovider, -, -, -, hqueued⟩ :=
      getElem?_settle hentry hphase hafter
    obtain ⟨before', hbefore', hprovider', -, -, hsettled, -⟩ :=
      getElem?_settle hentry hphase hbefore
    apply hsettled
    refine h.begun hafter' hbefore' hlt ?_ (hqueued hbegun)
    rw [← hprovider', ← hprovider, hsame]
  last := by
    intro k after hafter hunsettled
    obtain ⟨after', hafter', hprovider, -, hsettled, -, -⟩ :=
      getElem?_settle hentry hphase hafter
    obtain ⟨hunsettled', hne⟩ := hsettled hunsettled
    obtain ⟨q, hq, hle⟩ := h.last hafter' hunsettled'
    rw [queues_settle, hprovider, if_neg]
    · exact ⟨q, hq, hle⟩
    · rintro ⟨hlast, hsame⟩
      rw [hq] at hlast
      obtain rfl := Option.some.inj hlast
      have hbegun : entry.phase ≠ .queued := by
        rw [hphase]
        intro hqueued
        cases hqueued
      have hdone := h.begun hentry hafter' (lt_of_le_of_ne hle hne) hsame hbegun
      rw [hdone] at hunsettled'
      cases hunsettled'
  queue := by
    intro providerId q hq
    rw [queues_settle] at hq
    split at hq
    · cases hq
    · rw [provider?_settle]
      exact h.queue hq

/-! ## Every step -/

omit [DecidableEq π] in
theorem getElem?_close (s : Service π α σ τ ε) (k : ℕ) :
    s.close.entries[k]? = s.entries[k]?.map fun entry =>
      if s.refreshQueues entry.providerId = some k then entry.abort
      else entry :=
  List.getElem?_mapIdx

omit [DecidableEq π] in
theorem frame_close (s : Service π α σ τ ε) : Frame s s.close := by
  refine frame_of_map (getElem?_close s) ?_ rfl
  intro k entry
  split
  · exact .inr rfl
  · exact .inl rfl

omit [DecidableEq π] in
theorem frame_abortCaller (s : Service π α σ τ ε) (c : ℕ)
    (caller : Caller σ ε) : Frame s (s.abortCaller c caller) := by
  unfold Service.abortCaller
  simp only
  split
  · refine frame_of_map (getElem?_setAborted _ caller.entry) ?_ rfl
    intro k entry
    split
    · exact .inr rfl
    · exact .inl rfl
  · exact frame_of_entries rfl rfl

variable {setup : Setup ρ σ τ ε}

theorem isSettled_of_isRunning {phase : Phase α σ ε} (h : phase.isRunning) :
    phase.isSettled = false := by
  cases phase with
  | settled result => exact h.elim
  | _ => rfl

omit [DecidableEq π] in
theorem chained_of_entries (h : Chained s) (hentries : t.entries = s.entries)
    (hqueues : t.refreshQueues = s.refreshQueues) : Chained t :=
  (frame_of_entries hentries hqueues).chained h

theorem chained_of_steps (h : Chained s) {closes : Bool}
    (hstep : Steps setup s closes t) :
    Chained t := by
  cases hstep with
  | outside => exact chained_of_entries h rfl rfl
  | join => exact chained_of_entries h rfl rfl
  | add => exact chained_add h _ _
  | advance hentry hbegins hadvance =>
      exact (frame_setPhase hentry hadvance.unsettled
        (isSettled_of_isRunning hadvance.running) hbegins).chained h
  | @discover e entry adapter generation attempt hentry _ hfrom =>
      have hframe : Frame s
          (s.setPhase e (.discovering adapter generation attempt)) := by
        rcases hfrom with ⟨hphase, hprevious, -, -⟩ | ⟨earlier, hphase⟩
        · exact frame_setPhase hentry (by rw [hphase]; rfl) rfl
            fun _ => hprevious
        · refine frame_setPhase hentry (by rw [hphase]; rfl) rfl ?_
          rw [hphase]
          intro hqueued
          cases hqueued
      exact chained_of_entries (hframe.chained h) rfl rfl
  | @publish e entry adapter generation attempt snapshot hentry _ hphase _ =>
      have hframe : Frame s (s.setPhase e (.publishing snapshot)) := by
        refine frame_setPhase hentry (by rw [hphase]; rfl) rfl ?_
        rw [hphase]
        intro hqueued
        cases hqueued
      exact chained_of_entries (hframe.chained h) rfl rfl
  | settle hentry hphase => exact chained_settle h hentry hphase
  | deliver => exact chained_of_entries h rfl rfl
  | leave => exact (frame_abortCaller s _ _).chained h
  | close => exact (frame_close s).chained h

omit [DecidableEq π] in
theorem chained_empty : Chained (Service.empty : Service π α σ τ ε) where
  linked := by
    intro e k entry before hentry
    cases hentry
  previous := by
    intro e k entry hentry
    cases hentry
  begun := by
    intro e k entry before hentry
    cases hentry
  last := by
    intro e entry hentry
    cases hentry
  queue := by
    intro providerId q hq
    cases hq

omit [DecidableEq π] in
/-- Two refreshes of one provider never run at once. -/
theorem Chained.running_unique (h : Chained s) {e k : ℕ}
    {entry other : Entry π α σ ε} (hentry : s.entries[e]? = some entry)
    (hother : s.entries[k]? = some other)
    (hsame : other.providerId = entry.providerId)
    (hrunning : entry.phase.isRunning) (hrunning' : other.phase.isRunning) :
    k = e := by
  have hbegun : ∀ {phase : Phase α σ ε}, phase.isRunning → phase ≠ .queued := by
    rintro phase hphase rfl
    exact hphase
  rcases Nat.lt_trichotomy k e with hlt | heq | hgt
  · have hsettled := h.begun hentry hother hlt hsame (hbegun hrunning)
    rw [isSettled_of_isRunning hrunning'] at hsettled
    cases hsettled
  · exact heq
  · have hsettled := h.begun hother hentry hgt hsame.symm (hbegun hrunning')
    rw [isSettled_of_isRunning hrunning] at hsettled
    cases hsettled

end CatalogRefresh

end RelayerGraph
