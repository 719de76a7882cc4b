import RelayerGraph.Desktop.RefreshChain

/-!
# Runs of the catalog service

In every run the refreshes of a provider run one after the other in the order
of their requests, a snapshot is returned only after it was published under the
generation it was discovered in, and a caller gets no abort but its own and the
service's.  Where the service is closed while each chain has at most its last
link under way, nothing more is discovered or published for the refreshes there
were.
-/

namespace RelayerGraph

open Foundation

namespace CatalogRefresh

variable {π α ρ σ τ ε : Type} {s t : Service π α σ τ ε}
variable {setup : Setup ρ σ τ ε}

/-! ## What was done for a refresh -/

/-- The calls outside for one refresh. -/
def Service.told (s : Service π α σ τ ε) (e : ℕ) : List (Effect α τ) :=
  s.effects.filter fun effect => effect.entry = e

/-- One or more discoveries through one adapter in one generation. -/
def Discovered (e : ℕ) (adapter : α) (generation : Option ℕ)
    (told : List (Effect α τ)) : Prop :=
  ∃ n, told = List.replicate (n + 1) (.discovery e adapter generation)

/-- Discoveries in one generation, and then the one publication, of this
snapshot in this generation. -/
def Published (setup : Setup ρ σ τ ε) (e : ℕ) (snapshot : σ)
    (told : List (Effect α τ)) : Prop :=
  ∃ adapter generation discoveries,
    Discovered e adapter generation discoveries ∧
      told = discoveries ++
        [.publication e (setup.toProductCatalogSnapshot snapshot) generation]

/-- What the phase of a refresh tells of it. -/
def Story (setup : Setup ρ σ τ ε) (e : ℕ) (told : List (Effect α τ)) :
    Phase α σ ε → Prop
  | .queued => told = []
  | .discovering adapter generation _ => Discovered e adapter generation told
  | .sleeping adapter generation _ => Discovered e adapter generation told
  | .publishing snapshot => Published setup e snapshot told
  | .ended (.snapshot snapshot) => Published setup e snapshot told
  | .settled (.snapshot snapshot) => Published setup e snapshot told
  | _ => True

/-- The calls outside agree with the phases, and follow the order of the
requests. -/
structure Told (setup : Setup ρ σ τ ε) (s : Service π α σ τ ε) : Prop where
  known : ∀ effect ∈ s.effects, ∃ entry,
    s.entries[effect.entry]? = some entry ∧ entry.phase ≠ .queued
  story : ∀ {e : ℕ} {entry : Entry π α σ ε}, s.entries[e]? = some entry →
    Story setup e (s.told e) entry.phase
  ordered : s.effects.Pairwise fun earlier later =>
    s.provider? earlier.entry = s.provider? later.entry →
      earlier.entry ≤ later.entry

/-- A step that calls nothing outside, and takes each story on. -/
structure Retells (setup : Setup ρ σ τ ε) (s t : Service π α σ τ ε) :
    Prop where
  effects : t.effects = s.effects
  entries : ∀ {k : ℕ} {after : Entry π α σ ε}, t.entries[k]? = some after →
    (∃ before, s.entries[k]? = some before ∧ ∀ told,
      Story setup k told before.phase → Story setup k told after.phase) ∨
    s.entries[k]? = none ∧ after.phase = .queued
  begun : ∀ {k : ℕ} {before : Entry π α σ ε}, s.entries[k]? = some before →
    before.phase ≠ .queued →
    ∃ after, t.entries[k]? = some after ∧ after.phase ≠ .queued
  providers : ∀ {k : ℕ} {p : π}, s.provider? k = some p →
    t.provider? k = some p

theorem Told.provider?_isSome (h : Told setup s) {effect : Effect α τ}
    (heffect : effect ∈ s.effects) : ∃ p, s.provider? effect.entry = some p := by
  obtain ⟨entry, hentry, -⟩ := h.known effect heffect
  exact ⟨entry.providerId, by rw [Service.provider?, hentry]; rfl⟩

theorem Retells.told (hretells : Retells setup s t) (h : Told setup s) :
    Told setup t where
  known := by
    intro effect heffect
    rw [hretells.effects] at heffect
    obtain ⟨entry, hentry, hbegun⟩ := h.known effect heffect
    exact hretells.begun hentry hbegun
  story := by
    intro e entry hentry
    have hsame : t.told e = s.told e := by
      rw [Service.told, Service.told, hretells.effects]
    rw [hsame]
    rcases hretells.entries hentry with ⟨before, hbefore, hstory⟩ |
      ⟨hnew, hqueued⟩
    · exact hstory _ (h.story hbefore)
    · rw [hqueued]
      refine List.filter_eq_nil_iff.mpr fun effect heffect => ?_
      obtain ⟨entry', hentry', -⟩ := h.known effect heffect
      simp only [decide_eq_true_eq]
      rintro rfl
      rw [hnew] at hentry'
      cases hentry'
  ordered := by
    rw [hretells.effects]
    refine h.ordered.imp_of_mem ?_
    intro earlier later hearlier hlater hle hsame
    obtain ⟨p, hp⟩ := h.provider?_isSome hearlier
    obtain ⟨q, hq⟩ := h.provider?_isSome hlater
    rw [hretells.providers hp, hretells.providers hq] at hsame
    exact hle (by rw [hp, hq, hsame])

theorem retells_of_entries (hentries : t.entries = s.entries)
    (heffects : t.effects = s.effects) : Retells setup s t where
  effects := heffects
  entries := by
    intro k after hafter
    exact .inl ⟨after, hentries ▸ hafter, fun _ => id⟩
  begun := by
    intro k before hbefore hbegun
    exact ⟨before, hentries ▸ hbefore, hbegun⟩
  providers := by
    intro k p hp
    rwa [Service.provider?, hentries]

/-- A step that changes entries in place, each to a phase its story tells. -/
theorem retells_of_map {change : ℕ → Entry π α σ ε → Entry π α σ ε}
    (heffects : t.effects = s.effects)
    (hentries : ∀ k, t.entries[k]? = s.entries[k]?.map (change k))
    (hprovider : ∀ k entry, (change k entry).providerId = entry.providerId)
    (hstory : ∀ {k entry}, s.entries[k]? = some entry → ∀ told,
      Story setup k told entry.phase →
        Story setup k told (change k entry).phase)
    (hbegun : ∀ {k entry}, s.entries[k]? = some entry →
      entry.phase ≠ .queued → (change k entry).phase ≠ .queued) :
    Retells setup s t where
  effects := heffects
  entries := by
    intro k after hafter
    rw [hentries] at hafter
    obtain ⟨before, hbefore, rfl⟩ := Option.map_eq_some_iff.mp hafter
    exact .inl ⟨before, hbefore, hstory hbefore⟩
  begun := by
    intro k before hbefore hqueued
    refine ⟨change k before, ?_, hbegun hbefore hqueued⟩
    rw [hentries, hbefore]
    rfl
  providers := by
    intro k p hp
    obtain ⟨entry, hentry, rfl⟩ := Option.map_eq_some_iff.mp hp
    rw [Service.provider?, hentries, hentry]
    exact congrArg some (hprovider k entry)

theorem story_of_advance {aborted : Bool} {before after : Phase α σ ε} {e : ℕ}
    {told : List (Effect α τ)} (hadvance : Advance aborted before after)
    (h : Story setup e told before) : Story setup e told after := by
  cases after with
  | queued => exact hadvance.running.elim
  | discovering adapter generation attempt =>
      exact absurd rfl (hadvance.discovering adapter generation attempt)
  | sleeping adapter generation attempt =>
      rwa [hadvance.sleeping adapter generation attempt rfl] at h
  | diagnosing failure => trivial
  | publishing snapshot => exact absurd rfl (hadvance.publishing snapshot)
  | resyncing => trivial
  | ended result =>
      cases result with
      | snapshot snapshot => rwa [hadvance.snapshot snapshot rfl] at h
      | superseded => trivial
      | failed failure => trivial
  | settled result => exact hadvance.running.elim

theorem retells_setPhase {e : ℕ} {entry : Entry π α σ ε} {phase : Phase α σ ε}
    (hentry : s.entries[e]? = some entry) (hphase : phase ≠ .queued)
    (hstory : ∀ told, Story setup e told entry.phase →
      Story setup e told phase) : Retells setup s (s.setPhase e phase) := by
  refine retells_of_map rfl (getElem?_setPhase s e · phase) ?_ ?_ ?_
  · intro k other
    split <;> rfl
  · intro k other hother told h
    split
    · rename_i heq
      subst heq
      rw [hentry] at hother
      cases hother
      exact hstory told h
    · exact h
  · intro k other _ hbegun
    split
    · exact hphase
    · exact hbegun

theorem told_effect (s : Service π α σ τ ε) (effect : Effect α τ) (k : ℕ) :
    (s.effect effect).told k =
      if effect.entry = k then s.told k ++ [effect] else s.told k := by
  simp only [Service.told, Service.effect, List.filter_append]
  by_cases hk : effect.entry = k
  · simp [hk]
  · simp [hk]

/-- A call outside for a refresh that has begun or now begins. -/
theorem told_call (h : Told setup s) (hchained : Chained s) {e : ℕ}
    {entry : Entry π α σ ε} {phase : Phase α σ ε} {effect : Effect α τ}
    (hentry : s.entries[e]? = some entry)
    (hunsettled : entry.phase.isSettled = false) (heffect : effect.entry = e)
    (hphase : phase ≠ .queued)
    (hstory : Story setup e (s.told e ++ [effect]) phase) :
    Told setup ((s.setPhase e phase).effect effect) where
  known := by
    intro other hother
    have hafter : ∀ k, (s.setPhase e phase).entries[k]? =
        s.entries[k]?.map fun entry =>
          if e = k then entry.setPhase phase else entry :=
      fun k => getElem?_setPhase s e k phase
    rcases List.mem_append.mp hother with hold | hnew
    · obtain ⟨entry', hentry', hbegun⟩ := h.known other hold
      refine ⟨_, (hafter _).trans (congrArg _ hentry'), ?_⟩
      split
      · exact hphase
      · exact hbegun
    · obtain rfl := List.mem_singleton.mp hnew
      rw [heffect]
      refine ⟨_, (hafter _).trans (congrArg _ hentry), ?_⟩
      simpa [Entry.setPhase] using hphase
  story := by
    intro k after hafter
    have hk := (getElem?_setPhase s e k phase).symm.trans hafter
    obtain ⟨before, hbefore, rfl⟩ := Option.map_eq_some_iff.mp hk
    rw [told_effect, heffect]
    have hsame : (s.setPhase e phase).told k = s.told k := rfl
    rw [hsame]
    by_cases hk : e = k
    · subst hk
      rw [if_pos rfl, if_pos rfl]
      exact hstory
    · rw [if_neg hk, if_neg hk]
      exact h.story hbefore
  ordered := by
    have hproviders : ∀ k, ((s.setPhase e phase).effect effect).provider? k =
        s.provider? k := by
      intro k
      have hmap : (s.setPhase e phase).provider? k = s.provider? k := by
        rw [Service.provider?, Service.provider?, getElem?_setPhase,
          Option.map_map]
        congr 1
        funext other
        simp only [Function.comp_apply]
        split <;> rfl
      exact hmap
    simp only [hproviders]
    refine List.pairwise_append.mpr
      ⟨h.ordered, List.pairwise_singleton _ _, ?_⟩
    intro earlier hearlier later hlater hsame
    obtain rfl := List.mem_singleton.mp hlater
    obtain ⟨other, hother, hbegun⟩ := h.known earlier hearlier
    rw [heffect] at hsame ⊢
    rw [Service.provider?, Service.provider?, hother, hentry] at hsame
    by_contra hlate
    have hsettled := hchained.begun hother hentry (not_le.mp hlate)
      (Option.some.inj hsame).symm hbegun
    rw [hunsettled] at hsettled
    cases hsettled

variable [DecidableEq π]

theorem retells_add (s : Service π α σ τ ε) (providerId : π) (reason : Reason) :
    Retells setup s (s.add providerId reason) where
  effects := rfl
  entries := by
    intro k after hafter
    rcases getElem?_add s providerId reason hafter with hold | ⟨rfl, rfl⟩
    · exact .inl ⟨after, hold, fun _ => id⟩
    · exact .inr ⟨List.getElem?_eq_none le_rfl, rfl⟩
  begun := by
    intro k before hbefore hbegun
    refine ⟨before, ?_, hbegun⟩
    exact (List.getElem?_append_left (lt_length_of_getElem? hbefore)).trans
      hbefore
  providers := provider?_add s providerId reason

omit [DecidableEq π] in
theorem retells_abortCaller (s : Service π α σ τ ε) (c : ℕ)
    (caller : Caller σ ε) : Retells setup s (s.abortCaller c caller) := by
  unfold Service.abortCaller
  simp only
  split
  · refine retells_of_map rfl (getElem?_setAborted _ caller.entry) ?_ ?_ ?_
    · intro k entry
      split <;> rfl
    · intro k entry _ told h
      split <;> exact h
    · intro k entry _ h
      split <;> exact h
  · exact retells_of_entries rfl rfl

omit [DecidableEq π] in
theorem retells_close (s : Service π α σ τ ε) : Retells setup s s.close := by
  refine retells_of_map rfl (getElem?_close s) ?_ ?_ ?_
  · intro k entry
    split <;> rfl
  · intro k entry _ told h
    split <;> exact h
  · intro k entry _ h
    split <;> exact h

theorem retells_settle {e : ℕ} {entry : Entry π α σ ε} {result : Result σ ε}
    (hentry : s.entries[e]? = some entry) (hphase : entry.phase = .ended result) :
    Retells setup s (s.settle e entry result) := by
  have hchange : Retells setup s (s.setPhase e (.settled result)) := by
    refine retells_setPhase hentry (fun hqueued => by cases hqueued) ?_
    intro told h
    rw [hphase] at h
    cases result with
    | snapshot snapshot => exact h
    | superseded => trivial
    | failed failure => trivial
  have hentries := settle_entries s e entry result
  have heffects : (s.settle e entry result).effects = s.effects := by
    unfold Service.settle
    simp only
    split <;> rfl
  refine ⟨heffects, ?_, ?_, ?_⟩
  · intro k after hafter
    rw [hentries] at hafter
    exact hchange.entries hafter
  · intro k before hbefore hbegun
    rw [hentries]
    exact hchange.begun hbefore hbegun
  · intro k p hp
    rw [provider?_settle]
    exact hp

omit [DecidableEq π] in
theorem told_of_entries (h : Told setup s) (hentries : t.entries = s.entries)
    (heffects : t.effects = s.effects) : Told setup t :=
  (retells_of_entries hentries heffects).told h

theorem told_of_steps (h : Told setup s) (hchained : Chained s)
    {closes : Bool}
    (hstep : Steps setup s closes t) : Told setup t := by
  cases hstep with
  | outside => exact told_of_entries h rfl rfl
  | join => exact told_of_entries h rfl rfl
  | add => exact (retells_add s _ _).told h
  | advance hentry _ hadvance =>
      refine (retells_setPhase hentry ?_ fun told =>
        story_of_advance hadvance).told h
      rintro rfl
      exact hadvance.running
  | @discover e entry adapter generation attempt hentry _ hfrom =>
      have hstory := h.story hentry
      rcases hfrom with ⟨hphase, -, -, -⟩ | ⟨earlier, hphase⟩
      · rw [hphase] at hstory
        refine told_call h hchained hentry (by rw [hphase]; rfl) rfl
          (fun hqueued => by cases hqueued) ?_
        have hnone : s.told e = [] := hstory
        rw [hnone]
        exact ⟨0, rfl⟩
      · rw [hphase] at hstory
        refine told_call h hchained hentry (by rw [hphase]; rfl) rfl
          (fun hqueued => by cases hqueued) ?_
        obtain ⟨n, hn⟩ := hstory
        rw [hn]
        exact ⟨n + 1, List.replicate_succ'.symm⟩
  | @publish e entry adapter generation attempt snapshot hentry _ hphase _ =>
      have hstory := h.story hentry
      rw [hphase] at hstory
      refine told_call h hchained hentry (by rw [hphase]; rfl) rfl
        (fun hqueued => by cases hqueued) ?_
      exact ⟨adapter, generation, s.told e, hstory, rfl⟩
  | settle hentry hphase => exact (retells_settle hentry hphase).told h
  | deliver => exact told_of_entries h rfl rfl
  | leave => exact (retells_abortCaller s _ _).told h
  | close => exact (retells_close s).told h

/-! ## Callers and aborts -/

/-- Answers come from settled refreshes, and a refresh is aborted only when its
callers all have left or the service was closed. -/
structure Waiting (s : Service π α σ τ ε) : Prop where
  known : ∀ caller ∈ s.callers, caller.entry < s.entries.length
  answered : ∀ caller ∈ s.callers, ∀ result,
    caller.outcome = some (.settled result) →
    ∃ entry, s.entries[caller.entry]? = some entry ∧
      entry.phase = .settled result
  aborted : ∀ {e : ℕ} {entry : Entry π α σ ε}, s.entries[e]? = some entry →
    entry.aborted = true → s.closed.isSome ∨
      ∀ caller ∈ s.callers, caller.entry = e → caller.outcome = some .ownAbort
  failures : ∀ {e : ℕ} {entry : Entry π α σ ε}, s.entries[e]? = some entry →
    entry.phase.hasAborted → entry.aborted = true

/-- Entries advance in place, and no other is aborted. -/
structure Proceeds (s t : Service π α σ τ ε) : Prop where
  callers : t.callers = s.callers
  closed : t.closed = s.closed
  length : t.entries.length = s.entries.length
  entries : ∀ {k : ℕ} {after : Entry π α σ ε}, t.entries[k]? = some after →
    ∃ before, s.entries[k]? = some before ∧ after.aborted = before.aborted ∧
      (after.phase.hasAborted →
        before.aborted = true ∨ before.phase.hasAborted)
  settled : ∀ {k : ℕ} {before : Entry π α σ ε} {result : Result σ ε},
    s.entries[k]? = some before → before.phase = .settled result →
    ∃ after, t.entries[k]? = some after ∧ after.phase = .settled result

omit [DecidableEq π] in
theorem Proceeds.waiting (hproceeds : Proceeds s t) (h : Waiting s) :
    Waiting t where
  known := by
    rw [hproceeds.callers, hproceeds.length]
    exact h.known
  answered := by
    rw [hproceeds.callers]
    intro caller hcaller result houtcome
    obtain ⟨before, hbefore, hphase⟩ := h.answered caller hcaller result houtcome
    exact hproceeds.settled hbefore hphase
  aborted := by
    intro e entry hentry haborted
    obtain ⟨before, hbefore, hsame, -⟩ := hproceeds.entries hentry
    rw [hproceeds.callers, hproceeds.closed]
    exact h.aborted hbefore (hsame ▸ haborted)
  failures := by
    intro e entry hentry hfailed
    obtain ⟨before, hbefore, hsame, hfrom⟩ := hproceeds.entries hentry
    rw [hsame]
    rcases hfrom hfailed with haborted | hearlier
    · exact haborted
    · exact h.failures hbefore hearlier

omit [DecidableEq π] in
theorem proceeds_setPhase {e : ℕ} {entry : Entry π α σ ε} {phase : Phase α σ ε}
    (hentry : s.entries[e]? = some entry)
    (hunsettled : entry.phase.isSettled = false)
    (haborts : phase.hasAborted →
      entry.aborted = true ∨ entry.phase.hasAborted) :
    Proceeds s (s.setPhase e phase) where
  callers := rfl
  closed := rfl
  length := List.length_modify _ _ _
  entries := by
    intro k after hafter
    rw [getElem?_setPhase] at hafter
    obtain ⟨before, hbefore, rfl⟩ := Option.map_eq_some_iff.mp hafter
    refine ⟨before, hbefore, ?_⟩
    by_cases hk : e = k
    · subst hk
      rw [hentry] at hbefore
      cases hbefore
      rw [if_pos rfl]
      exact ⟨rfl, haborts⟩
    · rw [if_neg hk]
      exact ⟨rfl, .inr⟩
  settled := by
    intro k before result hbefore hphase
    refine ⟨before, ?_, hphase⟩
    rw [getElem?_setPhase, hbefore, Option.map_some, if_neg]
    rintro rfl
    rw [hentry] at hbefore
    cases hbefore
    rw [hphase] at hunsettled
    cases hunsettled

omit [DecidableEq π] in
theorem waiting_of_entries (h : Waiting s) (hentries : t.entries = s.entries)
    (hcallers : t.callers = s.callers) (hclosed : t.closed = s.closed) :
    Waiting t := by
  refine Proceeds.waiting ⟨hcallers, hclosed, by rw [hentries], ?_, ?_⟩ h
  · intro k after hafter
    exact ⟨after, hentries ▸ hafter, rfl, .inr⟩
  · intro k before result hbefore hphase
    exact ⟨before, hentries ▸ hbefore, hphase⟩

omit [DecidableEq π] in
theorem waiting_wait (h : Waiting s) {e : ℕ} {entry : Entry π α σ ε}
    (hentry : s.entries[e]? = some entry) (hlive : entry.aborted = false) :
    Waiting (s.wait e) where
  known := by
    intro caller hcaller
    rcases List.mem_append.mp hcaller with hold | hnew
    · exact h.known caller hold
    · obtain rfl := List.mem_singleton.mp hnew
      exact lt_length_of_getElem? hentry
  answered := by
    intro caller hcaller result houtcome
    rcases List.mem_append.mp hcaller with hold | hnew
    · exact h.answered caller hold result houtcome
    · obtain rfl := List.mem_singleton.mp hnew
      cases houtcome
  aborted := by
    intro k other hother haborted
    have hne : k ≠ e := by
      rintro rfl
      have hsame : some other = some entry := hother.symm.trans hentry
      obtain rfl := Option.some.inj hsame
      rw [hlive] at haborted
      cases haborted
    refine (h.aborted hother haborted).imp_right ?_
    intro hleft caller hcaller hk
    rcases List.mem_append.mp hcaller with hold | hnew
    · exact hleft caller hold hk
    · obtain rfl := List.mem_singleton.mp hnew
      exact absurd hk.symm hne
  failures := h.failures

theorem waiting_add (h : Waiting s) (providerId : π) (reason : Reason) :
    Waiting (s.add providerId reason) := by
  let entry : Entry π α σ ε :=
    ⟨providerId, reason, s.refreshQueues providerId, .queued, false⟩
  let added : Service π α σ τ ε := { s with
    entries := s.entries ++ [entry]
    refreshQueues := Function.update s.refreshQueues providerId
      (some s.entries.length) }
  have hadded : Waiting added := by
    constructor
    · intro caller hcaller
      have hlt := h.known caller hcaller
      simp only [added, List.length_append, List.length_singleton]
      omega
    · intro caller hcaller result houtcome
      obtain ⟨before, hbefore, hphase⟩ :=
        h.answered caller hcaller result houtcome
      refine ⟨before, ?_, hphase⟩
      exact (List.getElem?_append_left (lt_length_of_getElem? hbefore)).trans
        hbefore
    · intro e other hother haborted
      rcases getElem?_add s providerId reason hother with hold | ⟨-, rfl⟩
      · exact h.aborted hold haborted
      · cases haborted
    · intro e other hother hfailed
      rcases getElem?_add s providerId reason hother with hold | ⟨-, rfl⟩
      · exact h.failures hold hfailed
      · exact hfailed.elim
  have hlast : added.entries[s.entries.length]? = some entry :=
    List.getElem?_concat_length
  exact waiting_wait hadded hlast rfl

omit [DecidableEq π] in
theorem waiting_deliver (h : Waiting s) {c : ℕ} {caller : Caller σ ε}
    {entry : Entry π α σ ε} {result : Result σ ε}
    (hcaller : s.callers[c]? = some caller) (hwaits : caller.outcome = none)
    (hentry : s.entries[caller.entry]? = some entry)
    (hphase : entry.phase = .settled result) :
    Waiting { s with
      callers := s.callers.set c
        { entry := caller.entry, outcome := some (.settled result) } } where
  known := by
    intro other hother
    rcases List.mem_or_eq_of_mem_set hother with hold | rfl
    · exact h.known other hold
    · exact lt_length_of_getElem? hentry
  answered := by
    intro other hother answer houtcome
    rcases List.mem_or_eq_of_mem_set hother with hold | rfl
    · exact h.answered other hold answer houtcome
    · cases houtcome
      exact ⟨entry, hentry, hphase⟩
  aborted := by
    intro e before hbefore haborted
    refine (h.aborted hbefore haborted).imp_right ?_
    intro hleft other hother he
    rcases List.mem_or_eq_of_mem_set hother with hold | rfl
    · exact hleft other hold he
    · have hgone := hleft caller (List.mem_of_getElem? hcaller) he
      rw [hwaits] at hgone
      cases hgone
  failures := h.failures

omit [DecidableEq π] in
theorem waiting_leave (h : Waiting s) {c : ℕ} {caller : Caller σ ε}
    (hcaller : s.callers[c]? = some caller) :
    Waiting { s with
      callers := s.callers.set c
        { entry := caller.entry, outcome := some .ownAbort } } where
  known := by
    intro other hother
    rcases List.mem_or_eq_of_mem_set hother with hold | rfl
    · exact h.known other hold
    · exact h.known caller (List.mem_of_getElem? hcaller)
  answered := by
    intro other hother answer houtcome
    rcases List.mem_or_eq_of_mem_set hother with hold | rfl
    · exact h.answered other hold answer houtcome
    · cases houtcome
  aborted := by
    intro e before hbefore haborted
    refine (h.aborted hbefore haborted).imp_right ?_
    intro hleft other hother he
    rcases List.mem_or_eq_of_mem_set hother with hold | rfl
    · exact hleft other hold he
    · rfl
  failures := h.failures

omit [DecidableEq π] in
/-- A refresh that nobody waits for may be aborted while it has not settled. -/
theorem waiting_setAborted (h : Waiting s) {e : ℕ} {entry : Entry π α σ ε}
    (hentry : s.entries[e]? = some entry)
    (hunsettled : entry.phase.isSettled = false) (hnobody : s.waiters e = []) :
    Waiting (s.setAborted e) where
  known := by
    intro caller hcaller
    exact (h.known caller hcaller).trans_eq (List.length_modify _ _ _).symm
  answered := by
    intro caller hcaller result houtcome
    obtain ⟨before, hbefore, hphase⟩ := h.answered caller hcaller result houtcome
    refine ⟨_, (getElem?_setAborted s e _).trans (congrArg _ hbefore), ?_⟩
    simp only
    split <;> exact hphase
  aborted := by
    intro k after hafter haborted
    rw [getElem?_setAborted] at hafter
    obtain ⟨before, hbefore, rfl⟩ := Option.map_eq_some_iff.mp hafter
    by_cases hk : e = k
    · subst hk
      right
      intro caller hcaller he
      have hgone : ¬ (caller.outcome.isNone = true) := by
        intro hwaits
        have hmem : caller ∈ s.waiters e :=
          List.mem_filter.mpr ⟨hcaller, by simp [he, hwaits]⟩
        rw [hnobody] at hmem
        cases hmem
      cases houtcome : caller.outcome with
      | none =>
          rw [houtcome] at hgone
          exact absurd rfl hgone
      | some outcome =>
          cases outcome with
          | ownAbort => rfl
          | settled result =>
              obtain ⟨settled, hsettled, hphase⟩ :=
                h.answered caller hcaller result houtcome
              rw [he, hentry] at hsettled
              cases hsettled
              rw [hphase] at hunsettled
              cases hunsettled
    · rw [if_neg hk] at haborted
      exact h.aborted hbefore haborted
  failures := by
    intro k after hafter hfailed
    rw [getElem?_setAborted] at hafter
    obtain ⟨before, hbefore, rfl⟩ := Option.map_eq_some_iff.mp hafter
    by_cases hk : e = k
    · rw [if_pos hk]
      rfl
    · rw [if_neg hk] at hfailed ⊢
      exact h.failures hbefore hfailed

omit [DecidableEq π] in
theorem waiting_abortCaller (h : Waiting s) {c : ℕ} {caller : Caller σ ε}
    (hcaller : s.callers[c]? = some caller) :
    Waiting (s.abortCaller c caller) := by
  have hleft := waiting_leave h hcaller
  unfold Service.abortCaller
  simp only
  split
  · rename_i habandoned
    obtain ⟨entry, hentry, hunsettled⟩ :=
      (Option.any_eq_true _ _).mp habandoned.1
    exact waiting_setAborted hleft hentry (by simpa using hunsettled)
      habandoned.2
  · exact hleft

omit [DecidableEq π] in
theorem closed_close (s : Service π α σ τ ε) : s.close.closed.isSome := by
  cases hclosed : s.closed <;> simp [Service.close, hclosed]

omit [DecidableEq π] in
theorem waiting_close (h : Waiting s) : Waiting s.close where
  known := by
    intro caller hcaller
    exact (h.known caller hcaller).trans_eq List.length_mapIdx.symm
  answered := by
    intro caller hcaller result houtcome
    obtain ⟨before, hbefore, hphase⟩ := h.answered caller hcaller result houtcome
    refine ⟨_, (getElem?_close s _).trans (congrArg _ hbefore), ?_⟩
    simp only
    split <;> exact hphase
  aborted := by
    intro e entry _ _
    exact .inl (closed_close s)
  failures := by
    intro k after hafter hfailed
    rw [getElem?_close] at hafter
    obtain ⟨before, hbefore, rfl⟩ := Option.map_eq_some_iff.mp hafter
    by_cases hlast : s.refreshQueues before.providerId = some k
    · rw [if_pos hlast]
      rfl
    · rw [if_neg hlast] at hfailed ⊢
      exact h.failures hbefore hfailed

theorem waiting_settle (h : Waiting s) {e : ℕ} {entry : Entry π α σ ε}
    {result : Result σ ε} (hentry : s.entries[e]? = some entry)
    (hphase : entry.phase = .ended result) :
    Waiting (s.settle e entry result) := by
  have hadvanced : Waiting (s.setPhase e (.settled result)) := by
    refine (proceeds_setPhase hentry (by rw [hphase]; rfl) ?_).waiting h
    intro hfailed
    right
    rw [hphase]
    cases result with
    | snapshot snapshot => exact hfailed
    | superseded => exact hfailed
    | failed failure => cases failure <;> exact hfailed
  refine waiting_of_entries hadvanced (settle_entries s e entry result) ?_ ?_
  · unfold Service.settle
    simp only
    split <;> rfl
  · unfold Service.settle
    simp only
    split <;> rfl

theorem waiting_of_steps (h : Waiting s) {closes : Bool}
    (hstep : Steps setup s closes t) :
    Waiting t := by
  cases hstep with
  | outside => exact waiting_of_entries h rfl rfl rfl
  | join hentry hlive => exact waiting_wait h hentry hlive
  | add => exact waiting_add h _ _
  | advance hentry _ hadvance =>
      exact (proceeds_setPhase hentry hadvance.unsettled hadvance.aborts).waiting
        h
  | @discover e entry adapter generation attempt hentry _ hfrom =>
      have hunsettled : entry.phase.isSettled = false := by
        rcases hfrom with ⟨hphase, -, -, -⟩ | ⟨earlier, hphase⟩
        · rw [hphase]
          rfl
        · rw [hphase]
          rfl
      exact waiting_of_entries
        ((proceeds_setPhase hentry hunsettled False.elim).waiting h) rfl rfl rfl
  | publish hentry _ hphase _ =>
      exact waiting_of_entries
        ((proceeds_setPhase hentry (by rw [hphase]; rfl) False.elim).waiting h)
        rfl rfl rfl
  | settle hentry hphase => exact waiting_settle h hentry hphase
  | deliver hcaller hwaits hentry hphase =>
      exact waiting_deliver h hcaller hwaits hentry hphase
  | leave hcaller _ => exact waiting_abortCaller h hcaller
  | close => exact waiting_close h

/-! ## After the close -/

/-- Of the refreshes there were when the service was closed, those that have
not settled are aborted. -/
def Stopped (s : Service π α σ τ ε) : Prop :=
  ∀ n, s.closed = some n → n ≤ s.entries.length ∧
    ∀ e < n, ∀ entry, s.entries[e]? = some entry →
      entry.phase.isSettled = false → entry.aborted = true

/-- The service is closed only while every refresh under way that is not the
last of its provider is aborted already. -/
def ClosesAlone (s : Service π α σ τ ε) (label : Label π α ρ ε) : Prop :=
  label = .close → s.closed = none →
    ∀ e entry, s.entries[e]? = some entry → entry.phase.isSettled = false →
      entry.aborted = true ∨ s.refreshQueues entry.providerId = some e

/-- No settled refresh comes back, and none recovers from its abort. -/
structure Persists (s t : Service π α σ τ ε) : Prop where
  closed : t.closed = s.closed
  length : s.entries.length ≤ t.entries.length
  entries : ∀ {k : ℕ} {after : Entry π α σ ε}, k < s.entries.length →
    t.entries[k]? = some after → ∃ before, s.entries[k]? = some before ∧
      (after.phase.isSettled = false → before.phase.isSettled = false) ∧
      (before.aborted = true → after.aborted = true)

omit [DecidableEq π] in
theorem Persists.stopped (hpersists : Persists s t) (h : Stopped s) :
    Stopped t := by
  intro n hn
  obtain ⟨hle, haborted⟩ := h n (hpersists.closed ▸ hn)
  refine ⟨hle.trans hpersists.length, ?_⟩
  intro e he after hafter hunsettled
  obtain ⟨before, hbefore, hsettled, hkeeps⟩ :=
    hpersists.entries (he.trans_le hle) hafter
  exact hkeeps (haborted e he before hbefore (hsettled hunsettled))

omit [DecidableEq π] in
theorem persists_of_entries (hentries : t.entries = s.entries)
    (hclosed : t.closed = s.closed) : Persists s t where
  closed := hclosed
  length := hentries ▸ le_rfl
  entries := by
    intro k after _ hafter
    exact ⟨after, hentries ▸ hafter, id, id⟩

omit [DecidableEq π] in
theorem persists_of_map {change : ℕ → Entry π α σ ε → Entry π α σ ε}
    (hclosed : t.closed = s.closed)
    (hentries : ∀ k, t.entries[k]? = s.entries[k]?.map (change k))
    (hlength : t.entries.length = s.entries.length)
    (hsettled : ∀ {k entry}, s.entries[k]? = some entry →
      (change k entry).phase.isSettled = false →
      entry.phase.isSettled = false)
    (haborted : ∀ k entry, entry.aborted = true →
      (change k entry).aborted = true) : Persists s t where
  closed := hclosed
  length := hlength.ge
  entries := by
    intro k after _ hafter
    rw [hentries] at hafter
    obtain ⟨before, hbefore, rfl⟩ := Option.map_eq_some_iff.mp hafter
    exact ⟨before, hbefore, hsettled hbefore, haborted k before⟩

omit [DecidableEq π] in
theorem persists_setPhase {e : ℕ} {entry : Entry π α σ ε} (phase : Phase α σ ε)
    (hentry : s.entries[e]? = some entry)
    (hunsettled : entry.phase.isSettled = false) :
    Persists s (s.setPhase e phase) := by
  refine persists_of_map rfl (getElem?_setPhase s e · phase)
    (List.length_modify _ _ _) ?_ ?_
  · intro k other hother hafter
    split at hafter
    · rename_i heq
      subst heq
      rw [hentry] at hother
      cases hother
      exact hunsettled
    · exact hafter
  · intro k other haborted
    split <;> exact haborted

omit [DecidableEq π] in
theorem persists_abortCaller (s : Service π α σ τ ε) (c : ℕ)
    (caller : Caller σ ε) : Persists s (s.abortCaller c caller) := by
  unfold Service.abortCaller
  simp only
  split
  · refine persists_of_map rfl (getElem?_setAborted _ caller.entry)
      (List.length_modify _ _ _) ?_ ?_
    · intro k entry _ hafter
      split at hafter <;> exact hafter
    · intro k entry haborted
      split
      · rfl
      · exact haborted
  · exact persists_of_entries rfl rfl

theorem persists_add (s : Service π α σ τ ε) (providerId : π)
    (reason : Reason) : Persists s (s.add providerId reason) where
  closed := rfl
  length := by
    have hlength : (s.add providerId reason).entries.length =
        s.entries.length + 1 := List.length_append
    omega
  entries := by
    intro k after hk hafter
    rcases getElem?_add s providerId reason hafter with hold | ⟨rfl, -⟩
    · exact ⟨after, hold, id, id⟩
    · exact absurd hk (lt_irrefl _)

omit [DecidableEq π] in
theorem stopped_close (h : Stopped s)
    (halone : ClosesAlone s (.close : Label π α ρ ε)) : Stopped s.close := by
  have hlength : s.close.entries.length = s.entries.length := List.length_mapIdx
  intro n hn
  cases hclosed : s.closed with
  | some m =>
      have hm : s.close.closed = some m := by simp [Service.close, hclosed]
      obtain rfl := Option.some.inj (hm.symm.trans hn)
      obtain ⟨hle, haborted⟩ := h m hclosed
      refine ⟨hle.trans_eq hlength.symm, ?_⟩
      intro e he after hafter hunsettled
      rw [getElem?_close] at hafter
      obtain ⟨before, hbefore, rfl⟩ := Option.map_eq_some_iff.mp hafter
      split at hunsettled
      · rw [if_pos (by assumption)]
        rfl
      · rw [if_neg (by assumption)]
        exact haborted e he before hbefore hunsettled
  | none =>
      have hm : s.close.closed = some s.entries.length := by
        simp [Service.close, hclosed]
      obtain rfl := Option.some.inj (hm.symm.trans hn)
      refine ⟨hlength.ge, ?_⟩
      intro e _ after hafter hunsettled
      rw [getElem?_close] at hafter
      obtain ⟨before, hbefore, rfl⟩ := Option.map_eq_some_iff.mp hafter
      by_cases hlast : s.refreshQueues before.providerId = some e
      · rw [if_pos hlast]
        rfl
      · rw [if_neg hlast] at hunsettled ⊢
        exact (halone rfl hclosed e before hbefore hunsettled).resolve_right
          hlast

/-- Every step but a close persists. -/
theorem persists_of_steps (hstep : Steps setup s false t) : Persists s t := by
  cases hstep with
  | outside => exact persists_of_entries rfl rfl
  | join => exact persists_of_entries rfl rfl
  | add => exact persists_add s _ _
  | advance hentry _ hadvance =>
      exact persists_setPhase _ hentry hadvance.unsettled
  | @discover e entry adapter generation attempt hentry _ hfrom =>
      have hunsettled : entry.phase.isSettled = false := by
        rcases hfrom with ⟨hphase, -, -, -⟩ | ⟨earlier, hphase⟩
        · rw [hphase]
          rfl
        · rw [hphase]
          rfl
      have hphase := persists_setPhase
        (.discovering adapter generation attempt) hentry hunsettled
      exact ⟨hphase.closed, hphase.length, hphase.entries⟩
  | @publish e entry adapter generation attempt snapshot hentry _ hphase _ =>
      have hpersists := persists_setPhase (.publishing snapshot) hentry
        (by rw [hphase]; rfl)
      exact ⟨hpersists.closed, hpersists.length, hpersists.entries⟩
  | @settle e entry result hentry hphase =>
      have hpersists := persists_setPhase (.settled result) hentry
        (by rw [hphase]; rfl)
      have hentries := settle_entries s e entry result
      refine ⟨?_, ?_, ?_⟩
      · unfold Service.settle
        simp only
        split <;> rfl
      · rw [hentries]
        exact hpersists.length
      · rw [hentries]
        exact hpersists.entries
  | deliver => exact persists_of_entries rfl rfl
  | leave => exact persists_abortCaller s _ _

/-! ## Every run -/

/-- What every state of the service shows: one refresh of a provider at a time,
in the order of the requests; snapshots only after their publication; aborts
only of refreshes that all callers left, or by the close. -/
structure Orderly (setup : Setup ρ σ τ ε) (s : Service π α σ τ ε) : Prop where
  alone : ∀ {e k : ℕ} {entry other : Entry π α σ ε},
    s.entries[e]? = some entry → s.entries[k]? = some other →
    other.providerId = entry.providerId → entry.phase.isRunning →
    other.phase.isRunning → k = e
  inOrder : s.effects.Pairwise fun earlier later =>
    s.provider? earlier.entry = s.provider? later.entry →
      earlier.entry ≤ later.entry
  published : ∀ caller ∈ s.callers, ∀ snapshot,
    caller.outcome = some (.settled (.snapshot snapshot)) →
    Published setup caller.entry snapshot (s.told caller.entry)
  abandoned : ∀ {e : ℕ} {entry : Entry π α σ ε}, s.entries[e]? = some entry →
    entry.aborted = true → s.closed.isSome ∨
      ∀ caller ∈ s.callers, caller.entry = e → caller.outcome = some .ownAbort
  unshared : ∀ caller ∈ s.callers,
    caller.outcome = some (.settled (.failed .aborted)) → s.closed.isSome

/-- What every step does outside: at most one call.  A discovery goes through
the adapter and in the generation that its refresh found when it began, a
publication in the generation of that moment, and neither is for a refresh
there was when the service was closed. -/
structure OrderlyStep (setup : Setup ρ σ τ ε) (s t : Service π α σ τ ε) :
    Prop where
  call : t.effects = s.effects ∨ ∃ effect, t.effects = s.effects ++ [effect]
  discovery : ∀ e adapter generation,
    t.effects = s.effects ++ [.discovery e adapter generation] →
    .discovery e adapter generation ∈ s.effects ∨
    ∃ entry, s.entries[e]? = some entry ∧
      s.adapters entry.providerId = some adapter ∧
      s.generation setup entry.providerId = generation
  publication : ∀ e snapshot generation,
    t.effects = s.effects ++ [.publication e snapshot generation] →
    ∃ entry, s.entries[e]? = some entry ∧
      s.generation setup entry.providerId = generation
  stopped : ∀ n, s.closed = some n → ∀ effect,
    t.effects = s.effects ++ [effect] → n ≤ effect.entry

/-- What the service keeps in every run. -/
structure Sound (setup : Setup ρ σ τ ε) (s : Service π α σ τ ε) : Prop where
  chained : Chained s
  told : Told setup s
  waiting : Waiting s
  stopped : Stopped s

theorem Sound.step (h : Sound setup s) {label : Label π α ρ ε}
    (hstep : Steps setup s label.isClose t) (halone : ClosesAlone s label) :
    Sound setup t where
  chained := chained_of_steps h.chained hstep
  told := told_of_steps h.told h.chained hstep
  waiting := waiting_of_steps h.waiting hstep
  stopped := by
    cases hclose : label.isClose with
    | false =>
        rw [hclose] at hstep
        exact (persists_of_steps hstep).stopped h.stopped
    | true =>
        have hlabel : label = .close := by
          cases label with
          | close => rfl
          | _ => cases hclose
        subst hlabel
        cases hstep with
        | close => exact stopped_close h.stopped halone

omit [DecidableEq π] in
theorem sound_empty :
    Sound setup (Service.empty : Service π α σ τ ε) where
  chained := chained_empty
  told := by
    constructor
    · intro effect h
      cases h
    · intro e entry h
      cases h
    · exact List.Pairwise.nil
  waiting := by
    constructor
    · intro caller h
      cases h
    · intro caller h
      cases h
    · intro e entry h
      cases h
    · intro e entry h
      cases h
  stopped := by
    intro n hn
    cases hn

omit [DecidableEq π] in
theorem Sound.orderly (h : Sound setup s) : Orderly setup s where
  alone := fun hentry hother hsame hrunning hrunning' =>
    h.chained.running_unique hentry hother hsame hrunning hrunning'
  inOrder := h.told.ordered
  published := by
    intro caller hcaller snapshot houtcome
    obtain ⟨entry, hentry, hphase⟩ :=
      h.waiting.answered caller hcaller _ houtcome
    have hstory := h.told.story hentry
    rwa [hphase] at hstory
  abandoned := h.waiting.aborted
  unshared := by
    intro caller hcaller houtcome
    obtain ⟨entry, hentry, hphase⟩ :=
      h.waiting.answered caller hcaller _ houtcome
    have haborted := h.waiting.failures hentry (by rw [hphase]; trivial)
    rcases h.waiting.aborted hentry haborted with hclosed | hleft
    · exact hclosed
    · rw [hleft caller hcaller rfl] at houtcome
      cases houtcome

omit [DecidableEq π] in
theorem orderlyStep_of_silent (heffects : t.effects = s.effects) :
    OrderlyStep setup s t := by
  have hnone : ∀ effect, t.effects ≠ s.effects ++ [effect] := by
    intro effect happended
    have hlength := congrArg List.length (heffects.symm.trans happended)
    simp at hlength
  constructor
  · exact .inl heffects
  · intro e adapter generation happended
    exact absurd happended (hnone _)
  · intro e snapshot generation happended
    exact absurd happended (hnone _)
  · intro n _ effect happended
    exact absurd happended (hnone _)

omit [DecidableEq π] in
/-- Nothing is called for a refresh there was at the close. -/
theorem Stopped.le_of_live (h : Stopped s) {n e : ℕ} {entry : Entry π α σ ε}
    (hn : s.closed = some n) (hentry : s.entries[e]? = some entry)
    (hunsettled : entry.phase.isSettled = false) (hlive : entry.aborted = false) :
    n ≤ e := by
  by_contra hlate
  have haborted := (h n hn).2 e (not_le.mp hlate) entry hentry hunsettled
  rw [hlive] at haborted
  cases haborted

theorem Sound.orderlyStep (h : Sound setup s) {closes : Bool}
    (hstep : Steps setup s closes t) : OrderlyStep setup s t := by
  cases hstep with
  | outside => exact orderlyStep_of_silent rfl
  | join => exact orderlyStep_of_silent rfl
  | add => exact orderlyStep_of_silent rfl
  | advance => exact orderlyStep_of_silent rfl
  | @discover e entry adapter generation attempt hentry hlive hfrom =>
      have hsame : ∀ effect : Effect α τ,
          (s.discover e adapter generation attempt).effects =
            s.effects ++ [effect] →
          effect = .discovery e adapter generation := by
        intro effect happended
        have hlast := List.append_cancel_left happended
        exact (List.singleton_inj.mp hlast).symm
      constructor
      · exact .inr ⟨_, rfl⟩
      · intro e' adapter' generation' happended
        cases hsame _ happended
        rcases hfrom with ⟨-, -, hadapter, hgeneration⟩ | ⟨earlier, hphase⟩
        · exact .inr ⟨entry, hentry, hadapter, hgeneration⟩
        · left
          have hstory := h.told.story hentry
          rw [hphase] at hstory
          obtain ⟨n, hn⟩ := hstory
          have hmem : Effect.discovery e adapter generation ∈ s.told e := by
            rw [hn]
            exact List.mem_replicate.mpr ⟨n.succ_ne_zero, rfl⟩
          exact (List.mem_filter.mp hmem).1
      · intro e' snapshot generation' happended
        cases hsame _ happended
      · intro n hn effect happended
        obtain rfl := hsame _ happended
        refine h.stopped.le_of_live hn hentry ?_ hlive
        rcases hfrom with ⟨hphase, -, -, -⟩ | ⟨earlier, hphase⟩
        · rw [hphase]
          rfl
        · rw [hphase]
          rfl
  | @publish e entry adapter generation attempt snapshot hentry hlive hphase
      hgeneration =>
      have hsame : ∀ effect : Effect α τ,
          ((s.setPhase e (.publishing snapshot)).effect (.publication e
            (setup.toProductCatalogSnapshot snapshot) generation)).effects =
            s.effects ++ [effect] →
          effect = .publication e (setup.toProductCatalogSnapshot snapshot)
            generation := by
        intro effect happended
        have hlast := List.append_cancel_left happended
        exact (List.singleton_inj.mp hlast).symm
      constructor
      · exact .inr ⟨_, rfl⟩
      · intro e' adapter' generation' happended
        cases hsame _ happended
      · intro e' snapshot' generation' happended
        cases hsame _ happended
        exact ⟨entry, hentry, hgeneration⟩
      · intro n hn effect happended
        obtain rfl := hsame _ happended
        exact h.stopped.le_of_live hn hentry (by rw [hphase]; rfl) hlive
  | @settle e entry result hentry hphase =>
      apply orderlyStep_of_silent
      unfold Service.settle
      simp only
      split <;> rfl
  | deliver => exact orderlyStep_of_silent rfl
  | @leave c caller hcaller hwaits =>
      apply orderlyStep_of_silent
      unfold Service.abortCaller
      simp only
      split <;> rfl
  | close => exact orderlyStep_of_silent rfl

theorem sound_of_trace [DecidableEq α]
    {steps : List (Service π α σ τ ε × Label π α ρ ε)}
    (htrace : (refreshSystem setup).Trace steps s)
    (halone : TransitionSystem.GuardedBy ClosesAlone steps) :
    TransitionSystem.HoldsAlong (Sound setup) steps s := by
  induction htrace with
  | init hinit =>
      obtain rfl := hinit
      exact ⟨by simp, sound_empty⟩
  | @step steps before after label hprefix hstep ih =>
      have hearlier := ih fun visited hvisited => halone visited (by simp [hvisited])
      refine ⟨?_, hearlier.2.step (steps_of_next hstep)
        (halone (before, label) (by simp))⟩
      intro visited hvisited
      rcases List.mem_append.mp hvisited with hold | hnew
      · exact hearlier.1 visited hold
      · obtain rfl := List.mem_singleton.mp hnew
        exact hearlier.2

/-- A setup with nothing to read, and no generations. -/
def plainSetup : Setup Unit Unit Unit Unit where
  sanitizeModelCatalogSnapshot := .ok
  toProductCatalogSnapshot := id
  isRetryableProviderError _ := false
  isConnectionSuperseded _ := false
  attempts := 4
  attempts_pos := by decide
  connectionGenerations := false

theorem trace_of_foldlM [DecidableEq α] {labels : List (Label π α ρ ε)}
    {steps : List (Service π α σ τ ε × Label π α ρ ε)}
    (htrace : (refreshSystem setup).Trace steps s)
    (hrun : labels.foldlM (Service.next setup) s = some t) :
    ∃ more, (refreshSystem setup).Trace (steps ++ more) t ∧
      more.map Prod.snd = labels := by
  induction labels generalizing s steps with
  | nil =>
      obtain rfl : s = t := by simpa using hrun
      exact ⟨[], by simpa using htrace, rfl⟩
  | cons label labels ih =>
      obtain ⟨middle, hlabel, hrest⟩ : ∃ middle,
          s.next setup label = some middle ∧
            labels.foldlM (Service.next setup) middle = some t := by
        simpa [List.foldlM_cons, Option.bind_eq_some_iff] using hrun
      obtain ⟨more, hmore, hlabels⟩ := ih (htrace.step hlabel) hrest
      refine ⟨(s, label) :: more, ?_, by simp [hlabels]⟩
      simpa using hmore

/-- The service after some steps, from the start. -/
def serviceAfter (labels : List (Label Unit Unit Unit Unit)) :
    Option (Service Unit Unit Unit Unit Unit) :=
  labels.foldlM (Service.next plainSetup) Service.empty

theorem trace_serviceAfter {labels : List (Label Unit Unit Unit Unit)}
    {s : Service Unit Unit Unit Unit Unit} (h : serviceAfter labels = some s) :
    ∃ steps, (refreshSystem plainSetup).Trace steps s ∧
      steps.map Prod.snd = labels := by
  have hinit : (refreshSystem plainSetup).Trace []
      (Service.empty : Service Unit Unit Unit Unit Unit) := .init rfl
  obtain ⟨steps, htrace, hlabels⟩ := trace_of_foldlM hinit h
  exact ⟨steps, htrace, hlabels⟩

/-- One refresh, up to its publication. -/
def publishLabels : List (Label Unit Unit Unit Unit) :=
  [.register () (), .refresh () .explicit, .begin 0, .discovered 0 ()]

/-- Two refreshes are queued behind one that runs, whose discovery fails after
the close. -/
def queuedLabels : List (Label Unit Unit Unit Unit) :=
  [.register () (), .refresh () .explicit, .refresh () .explicit,
    .refresh () .explicit, .begin 0, .close, .discoveryFailed 0 (),
    .diagnosed 0, .settle 0]

end CatalogRefresh

end RelayerGraph
