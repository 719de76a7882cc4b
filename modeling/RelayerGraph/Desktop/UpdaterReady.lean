import RelayerGraph.Desktop.UpdaterRuns

/-!
# A downloaded update stays ready

An update that is held stays ready through every run in which no check fails
meanwhile.  A failing check takes it away, although the handlers of the native
updater's events guard the ready phase.
-/

namespace RelayerGraph

open Foundation TransitionSystem Updater

namespace DesktopUpdater

variable {app : DesktopApp} {u u' : DesktopUpdater}

/-! ## Failing -/

/-- A failure is published, unless it was published before. -/
theorem fail_eq (error : NativeError) (stage : Stage) :
    (u.fail app error stage).state = u.state ∨
      (u.fail app error stage).state = (u.publish app
        { phase := .failed
          failure := some (updaterFailure error stage) }).state := by
  unfold DesktopUpdater.fail
  split
  · exact .inl rfl
  · exact .inr rfl

theorem fail_phase_of_unpublished {error : NativeError} {stage : Stage}
    (hfailure : u.state.failure = none) :
    (u.fail app error stage).state.phase = .failed := by
  unfold DesktopUpdater.fail
  rw [hfailure]
  simp [publish]

/-- A failure leaves the channel and the displayed percent as they are. -/
theorem fail_rest (error : NativeError) (stage : Stage) :
    (u.fail app error stage).channel = u.channel ∧
      (u.fail app error stage).displayedDownloadPercent =
        u.displayedDownloadPercent := by
  unfold DesktopUpdater.fail
  split <;> exact ⟨rfl, rfl⟩

/-! ## What a step does to the updater -/

/-- The reaction of the updater to a step. -/
def react (app : DesktopApp) : UpdaterStep → DesktopUpdater → DesktopUpdater
  | .check => check app
  | .backgroundCheck => fun u => if u.inFlight then u else u.check app
  | .checkSettled error => checkSettled app error
  | .setChannel next configured => setChannel app next configured
  | .download => download app
  | .downloadSettled error => downloadSettled app error
  | .install error => install app error
  | .checkingForUpdate => checkingForUpdate app
  | .updateAvailable version => updateAvailable app version
  | .updateNotAvailable => updateNotAvailable app
  | .downloadProgress reported => downloadProgress app reported
  | .updateDownloaded version => updateDownloaded app version
  | .error error => fun u => u.fail app error u.ownerStage

/-- The state is the one a patch makes of the state before the step.  A patch
makes an update ready only when one was downloaded. -/
structure Publishes (app : DesktopApp) (u : DesktopUpdater) (l : UpdaterStep)
    (channel : Channel) (state : UpdateState) (patch : UpdatePatch) : Prop where
  state : state = (publish app patch { u with channel }).state
  failure : patch.phase = .ready → patch.failure = none
  ready : patch.phase = .ready → ∃ version, l = .updateDownloaded version

theorem state_react (l : UpdaterStep) :
    (react app l u).state = u.state ∨ ∃ patch, Publishes app u l
      (react app l u).channel (react app l u).state patch := by
  have hcheck : ∀ l, (u.check app).state = u.state ∨ ∃ patch, Publishes app u l
      (u.check app).channel (u.check app).state patch := by
    intro l
    unfold check
    split
    · exact .inl rfl
    · exact .inr ⟨{ phase := .development }, rfl, (fun h => by cases h),
        (fun h => by cases h)⟩
  have hfail : ∀ (error : NativeError) (stage : Stage) (v : DesktopUpdater)
      (l : UpdaterStep), v.channel = u.channel → v.state = u.state →
      (v.fail app error stage).state = u.state ∨ ∃ patch, Publishes app u l
        (v.fail app error stage).channel (v.fail app error stage).state
        patch := by
    intro error stage v l hchannel hstate
    rcases @fail_eq app v error stage with hsame | hnew
    · exact .inl (hsame.trans hstate)
    · refine .inr
        ⟨{ phase := .failed, failure := some (updaterFailure error stage) },
          ?_, (fun h => by cases h), (fun h => by cases h)⟩
      rw [hnew, (fail_rest error stage).1]
      simp [publish, hchannel, hstate]
  cases l with
  | check => exact hcheck _
  | backgroundCheck =>
      simp only [react]
      split
      · exact .inl rfl
      · exact hcheck _
  | checkSettled error =>
      cases error with
      | none => exact .inl rfl
      | some error => exact hfail error .check u _ rfl rfl
  | setChannel next configured =>
      simp only [react, setChannel]
      split
      · exact .inl rfl
      · split
        · exact .inl rfl
        · split
          · refine .inr ⟨_, rfl, fun _ => rfl, fun hready => ?_⟩
            cases hpackaged : app.isPackaged <;> simp [hpackaged] at hready
          · exact .inl rfl
  | download =>
      simp only [react, download]
      split <;> exact .inl rfl
  | downloadSettled error =>
      cases error with
      | none => exact .inl rfl
      | some error => exact hfail error .download u _ rfl rfl
  | install error =>
      simp only [react, install]
      split
      · cases error with
        | none => exact .inl rfl
        | some error =>
            exact hfail error .install
              { u.begin .install with installing := true } _ rfl rfl
      · exact .inl rfl
  | checkingForUpdate =>
      simp only [react, checkingForUpdate]
      split
      · exact .inl rfl
      · exact .inr ⟨_, rfl, (fun h => by cases h), (fun h => by cases h)⟩
  | updateAvailable version =>
      simp only [react, updateAvailable]
      split
      · exact .inl rfl
      · exact .inr ⟨_, rfl, (fun h => by cases h), (fun h => by cases h)⟩
  | updateNotAvailable =>
      simp only [react, updateNotAvailable]
      split
      · exact .inl rfl
      · exact .inr ⟨_, rfl, (fun h => by cases h), (fun h => by cases h)⟩
  | downloadProgress reported =>
      simp only [react, downloadProgress]
      split
      · exact .inl rfl
      · exact .inr ⟨_, rfl, (fun h => by cases h), (fun h => by cases h)⟩
  | updateDownloaded version =>
      exact .inr ⟨_, rfl, fun _ => rfl, fun _ => ⟨version, rfl⟩⟩
  | error error => exact hfail error _ u _ rfl rfl

/-- In the user's hands, an update keeps the channel. -/
theorem channel_react (h : u.inFlight) (l : UpdaterStep) :
    (react app l u).channel = u.channel := by
  have hcheck : (u.check app).channel = u.channel := by
    unfold check
    split <;> rfl
  cases l with
  | check => exact hcheck
  | backgroundCheck => simp [react, h]
  | checkSettled error =>
      cases error with
      | none => rfl
      | some error => exact (fail_rest error .check).1
  | setChannel next configured =>
      simp only [react, setChannel, h, if_true]
      split <;> rfl
  | download =>
      simp only [react, download]
      split <;> rfl
  | downloadSettled error =>
      cases error with
      | none => rfl
      | some error => exact (fail_rest error .download).1
  | install error =>
      simp only [react, install]
      split
      · cases error with
        | none => rfl
        | some error => exact (fail_rest error .install).1
      · rfl
  | checkingForUpdate =>
      simp only [react, checkingForUpdate]
      split <;> rfl
  | updateAvailable version =>
      simp only [react, updateAvailable]
      split <;> rfl
  | updateNotAvailable =>
      simp only [react, updateNotAvailable]
      split <;> rfl
  | downloadProgress reported =>
      simp only [react, downloadProgress]
      split <;> rfl
  | updateDownloaded version => rfl
  | error error => exact (fail_rest error _).1

/-- Only a download makes an update ready. -/
theorem ready_of_react {l : UpdaterStep}
    (h : (react app l u).state.phase = .ready) :
    u.state.phase = .ready ∨ ∃ version, l = .updateDownloaded version := by
  rcases @state_react app u l with hsame | ⟨patch, hpatch⟩
  · rw [hsame] at h
    exact .inl h
  · rw [hpatch.state] at h
    exact .inr (hpatch.ready h)

/-- A ready update is published without a failure, and while an update is in the
user's hands the channel of the updater is the published one. -/
structure Sound (u : DesktopUpdater) : Prop where
  ready : u.state.phase = .ready → u.state.failure = none
  channel : u.inFlight → u.state.channel = u.channel

theorem sound_create : (create app).Sound :=
  ⟨fun _ => rfl, fun _ => rfl⟩

theorem Sound.react (h : u.Sound) (l : UpdaterStep) :
    (react app l u).Sound := by
  rcases @state_react app u l with hsame | ⟨patch, hpatch⟩
  · constructor
    · rw [hsame]
      exact h.ready
    · intro hflight
      have hbefore : u.inFlight := by
        rwa [inFlight, hsame] at hflight
      rw [hsame, channel_react hbefore]
      exact h.channel hbefore
  · constructor
    · rw [hpatch.state]
      exact hpatch.failure
    · intro _
      rw [hpatch.state]
      rfl

/-- While an update is in the user's hands, the published channel stays. -/
theorem Sound.state_channel_react (h : u.Sound) (hflight : u.inFlight)
    (l : UpdaterStep) :
    (DesktopUpdater.react app l u).state.channel = u.state.channel := by
  rcases @state_react app u l with hsame | ⟨patch, hpatch⟩
  · rw [hsame]
  · rw [hpatch.state, h.channel hflight, ← @channel_react app u hflight l]
    rfl

end DesktopUpdater

namespace UpdaterSession

variable {app : DesktopApp} {s t : UpdaterSession} {l : UpdaterStep}

open DesktopUpdater

theorem next_updater (hstep : s.next app l = some t) :
    t.updater = react app l s.updater := by
  have hheard {f : DesktopUpdater → DesktopUpdater}
      (h : next.heard app s f = some t) : t.updater = f s.updater := by
    unfold next.heard at h
    split at h
    · obtain rfl := Option.some.inj h
      rfl
    · cases h
  cases l with
  | check => exact Option.some.inj hstep ▸ rfl
  | backgroundCheck =>
      obtain rfl := Option.some.inj hstep
      simp only [backgroundCheck, react]
      split <;> rfl
  | checkSettled error =>
      simp only [next] at hstep
      split at hstep
      · exact Option.some.inj hstep ▸ rfl
      · cases hstep
  | setChannel next configured => exact Option.some.inj hstep ▸ rfl
  | download => exact Option.some.inj hstep ▸ rfl
  | downloadSettled error =>
      simp only [next] at hstep
      split at hstep
      · exact Option.some.inj hstep ▸ rfl
      · cases hstep
  | install error => exact Option.some.inj hstep ▸ rfl
  | checkingForUpdate => exact hheard hstep
  | updateAvailable version => exact hheard hstep
  | updateNotAvailable => exact hheard hstep
  | downloadProgress reported => exact hheard hstep
  | updateDownloaded version => exact hheard hstep
  | error error => exact hheard hstep

/-- An update is made ready in a packaged application only. -/
theorem packaged_of_downloaded {version : String}
    (hstep : s.next app (.updateDownloaded version) = some t) :
    app.isPackaged = true := by
  simp only [next, next.heard] at hstep
  split at hstep
  · rename_i hpackaged
    exact hpackaged
  · cases hstep

/-- From a ready update, a step that does not release it keeps it ready exactly
when nothing is rejected, no error is reported and no other version is
downloaded. -/
theorem ready_next_iff {version : String} (hready : s.Ready version)
    (hsound : s.updater.Sound) (hpackaged : app.isPackaged = true)
    (hrelease : ¬ s.Releases app version l) (hstep : s.next app l = some t) :
    t.Ready version ↔ s.Spares version l := by
  obtain ⟨hphase, hversion⟩ := hready
  have hfailed : ∀ (error : NativeError) (stage : Stage),
      (s.updater.fail app error stage).state.phase ≠ .ready := by
    intro error stage
    rw [fail_phase_of_unpublished (hsound.ready hphase)]
    exact fun h => by cases h
  have hflight : s.updater.inFlight := by
    simp [inFlight, hphase, inFlightUpdatePhases]
  have hupdater := next_updater hstep
  have hkept (hstate : (react app l s.updater).state = s.updater.state) :
      t.Ready version := by
    rw [Ready, hupdater, hstate]
    exact ⟨hphase, hversion⟩
  have hrejected (error : NativeError) (stage : Stage)
      (hstate : (react app l s.updater).state =
        (s.updater.fail app error stage).state) : ¬ t.Ready version := by
    rintro ⟨hstill, -⟩
    rw [hupdater, hstate] at hstill
    exact hfailed error stage hstill
  cases l with
  | check =>
      refine iff_of_true (hkept ?_) trivial
      simp [react, DesktopUpdater.check, hpackaged, begin]
  | backgroundCheck =>
      refine iff_of_true (hkept ?_) trivial
      simp [react, hflight]
  | checkSettled error =>
      cases error with
      | none => exact iff_of_true (hkept rfl) rfl
      | some error =>
          exact iff_of_false (hrejected error .check rfl) fun h => by cases h
  | setChannel next configured =>
      refine iff_of_true (hkept ?_) trivial
      simp only [react, setChannel, hflight, if_true]
      split <;> rfl
  | download => exact absurd hpackaged hrelease
  | downloadSettled error =>
      cases error with
      | none => exact iff_of_true (hkept rfl) rfl
      | some error =>
          exact iff_of_false (hrejected error .download rfl) fun h => by cases h
  | install error => exact absurd hphase hrelease
  | checkingForUpdate =>
      refine iff_of_true (hkept ?_) trivial
      simp [react, DesktopUpdater.checkingForUpdate, hphase]
  | updateAvailable found =>
      obtain rfl : found = version := not_not.mp hrelease
      refine iff_of_true (hkept ?_) trivial
      simp [react, DesktopUpdater.updateAvailable, hphase, hversion]
  | updateNotAvailable =>
      refine iff_of_true (hkept ?_) trivial
      simp [react, DesktopUpdater.updateNotAvailable, hphase]
  | downloadProgress reported =>
      refine iff_of_true (hkept ?_) trivial
      simp [react, DesktopUpdater.downloadProgress, hphase]
  | updateDownloaded downloaded =>
      rw [Ready, hupdater]
      simp [react, DesktopUpdater.updateDownloaded, publish, Spares]
  | error error => exact iff_of_false (hrejected error _ rfl) hrelease

end UpdaterSession

/-! ## Watched runs -/

namespace WatchedUpdater

variable {app : DesktopApp} {w w' : WatchedUpdater} {l : UpdaterStep}

open UpdaterSession DesktopUpdater

theorem nextDownloadPercent_ge (reported : Option ℚ) (u : DesktopUpdater) :
    u.displayedDownloadPercent ≤ u.nextDownloadPercent reported :=
  le_max_left _ _

/-- A report alone does not show 100 percent. -/
theorem displayed_of_full {reported : Option ℚ} {u : DesktopUpdater}
    (hfull : u.nextDownloadPercent reported = 100) :
    u.displayedDownloadPercent = 100 := by
  simp only [nextDownloadPercent] at hfull
  generalize (reported.elim 0 fun value => ⌊value + 1 / 2⌋) = rounded at hfull
  omega

/-- No more than 100 percent is shown. -/
theorem nextDownloadPercent_le {u : DesktopUpdater}
    (hle : u.displayedDownloadPercent ≤ 100) (reported : Option ℚ) :
    u.nextDownloadPercent reported ≤ 100 := by
  simp only [nextDownloadPercent]
  generalize (reported.elim 0 fun value => ⌊value + 1 / 2⌋) = rounded
  omega

/-- What holds of every state of a run. -/
structure Sound (app : DesktopApp) (w : WatchedUpdater) : Prop where
  updater : w.session.updater.Sound
  packaged : w.session.updater.state.phase = .ready → app.isPackaged = true
  displayed : w.session.updater.displayedDownloadPercent = w.shown.getD 0
  bounded : w.session.updater.displayedDownloadPercent ≤ 100

theorem next_eq_some_iff :
    w.next app l = some w' ↔ ∃ after, w.session.next app l = some after ∧
      w' = ⟨after, w.heldAfter app l, w.shownAfter app l⟩ := by
  simp [next, eq_comm]

/-- The displayed percent is the one published last since the last reset. -/
theorem displayed_react (h : w.session.updater.displayedDownloadPercent =
    w.shown.getD 0) (hstep : w.session.next app l = some after) :
    (react app l w.session.updater).displayedDownloadPercent =
      (w.shownAfter app l).getD 0 := by
  have hcheck (u : DesktopUpdater) :
      (u.check app).displayedDownloadPercent = u.displayedDownloadPercent := by
    unfold DesktopUpdater.check
    split <;> rfl
  cases l with
  | check => simpa [react, shownAfter, Resets, published, hcheck] using h
  | backgroundCheck =>
      have hreact : (react app .backgroundCheck
          w.session.updater).displayedDownloadPercent =
            w.session.updater.displayedDownloadPercent := by
        simp only [react]
        split
        · rfl
        · exact hcheck _
      simpa [hreact, shownAfter, Resets, published] using h
  | checkSettled error =>
      cases error with
      | none => simpa [react, checkSettled, shownAfter, Resets, published] using h
      | some error =>
          simpa [react, checkSettled, shownAfter, Resets, published,
            (fail_rest error _).2] using h
  | setChannel next configured =>
      cases hchannel : Channel.parse next with
      | none =>
          simpa [react, setChannel, shownAfter, Resets, published, hchannel]
            using h
      | some channel =>
          by_cases hflight : w.session.updater.inFlight
          · simpa [react, setChannel, shownAfter, Resets, published, hchannel,
              hflight] using h
          · cases configured with
            | false =>
                simpa [react, setChannel, shownAfter, Resets, published,
                  hchannel, hflight] using h
            | true =>
                simp [react, setChannel, shownAfter, Resets, hchannel, hflight,
                  publish, resetDownloadProgress]
  | download =>
      cases hpackaged : app.isPackaged with
      | true =>
          simp [react, DesktopUpdater.download, shownAfter, Resets, hpackaged,
            begin, resetDownloadProgress]
      | false =>
          simpa [react, DesktopUpdater.download, shownAfter, Resets, published,
            hpackaged] using h
  | downloadSettled error =>
      cases error with
      | none =>
          simpa [react, downloadSettled, shownAfter, Resets, published] using h
      | some error =>
          simpa [react, downloadSettled, shownAfter, Resets, published,
            (fail_rest error _).2] using h
  | install error =>
      have hreact : (react app (.install error)
          w.session.updater).displayedDownloadPercent =
            w.session.updater.displayedDownloadPercent := by
        simp only [react, DesktopUpdater.install]
        split
        · cases error with
          | none => rfl
          | some error => exact (fail_rest error .install).2
        · rfl
      simpa [hreact, shownAfter, Resets, published] using h
  | checkingForUpdate =>
      by_cases hready : w.session.updater.state.phase = .ready
      · simpa [react, DesktopUpdater.checkingForUpdate, hready, shownAfter,
          Resets, published] using h
      · simp [react, DesktopUpdater.checkingForUpdate, hready, shownAfter,
          Resets, publish, resetDownloadProgress]
  | updateAvailable version =>
      by_cases hready : w.session.Ready version
      · have hreact : (react app (.updateAvailable version)
            w.session.updater).displayedDownloadPercent =
              w.session.updater.displayedDownloadPercent := by
          have hfound : _ ∧ _ := hready
          simp only [react, DesktopUpdater.updateAvailable, if_pos hfound]
        simpa [hreact, shownAfter, Resets, hready, published] using h
      · have hreact : (react app (.updateAvailable version)
            w.session.updater).displayedDownloadPercent = 0 := by
          have hfound : ¬ (_ ∧ _) := hready
          simp only [react, DesktopUpdater.updateAvailable, if_neg hfound]
          rfl
        simp [hreact, shownAfter, Resets, hready]
  | updateNotAvailable =>
      by_cases hready : w.session.updater.state.phase = .ready
      · simpa [react, DesktopUpdater.updateNotAvailable, hready, shownAfter,
          Resets, published] using h
      · simp [react, DesktopUpdater.updateNotAvailable, hready, shownAfter,
          Resets, publish, resetDownloadProgress]
  | downloadProgress reported =>
      by_cases hready : w.session.updater.state.phase = .ready
      · simpa [react, DesktopUpdater.downloadProgress, hready, shownAfter,
          Resets, published] using h
      · simp [react, DesktopUpdater.downloadProgress, hready, shownAfter,
          Resets, published, publish]
  | updateDownloaded version =>
      simp [react, DesktopUpdater.updateDownloaded, shownAfter, Resets,
        published, publish]
  | error error =>
      simpa [react, shownAfter, Resets, published, (fail_rest error _).2] using h

theorem shownAfter_le (h : w.Sound app) (l : UpdaterStep) :
    (w.shownAfter app l).getD 0 ≤ 100 := by
  have hshown : w.shown.getD 0 ≤ 100 := h.displayed ▸ h.bounded
  unfold shownAfter
  split
  · simp
  · cases hpercent : w.session.published l with
    | none => simpa using hshown
    | some percent =>
        cases l <;> simp only [published, reduceCtorEq] at hpercent
        case downloadProgress reported =>
          split at hpercent
          · cases hpercent
          · rw [← Option.some.inj hpercent]
            exact nextDownloadPercent_le h.bounded _
        case updateDownloaded version => simp [← Option.some.inj hpercent]

theorem Sound.next (h : w.Sound app) (hstep : w.next app l = some w') :
    w'.Sound app := by
  obtain ⟨after, hafter, rfl⟩ := next_eq_some_iff.mp hstep
  have hupdater := next_updater hafter
  constructor
  · rw [hupdater]
    exact h.updater.react l
  · intro hready
    rw [hupdater] at hready
    rcases ready_of_react hready with hbefore | ⟨version, rfl⟩
    · exact h.packaged hbefore
    · exact packaged_of_downloaded hafter
  · rw [hupdater]
    exact displayed_react h.displayed hafter
  · rw [hupdater, displayed_react h.displayed hafter]
    exact shownAfter_le h l

theorem sound_of_reachable (hreach : (updaterRuns app).Reachable w) :
    w.Sound app := by
  refine hreach.invariant ?_ fun _ _ _ _ h hstep => h.next hstep
  rintro _ rfl
  refine ⟨sound_create, ?_, rfl, Nat.zero_le _⟩
  intro hready
  cases hpackaged : app.isPackaged with
  | true => rfl
  | false =>
      simp [WatchedUpdater.create, UpdaterSession.create,
        DesktopUpdater.create, hpackaged] at hready

/-- What releases an update spares it. -/
theorem spares_of_releases {s : UpdaterSession} {version : String}
    (h : s.Releases app version l) : s.Spares version l := by
  cases l <;> first | exact trivial | exact h | exact h.elim

/-- An update that is held stays ready in a step exactly when the step spares
it. -/
theorem kept_next_iff (h : w.Sound app) (hkept : w.Kept)
    (hstep : w.next app l = some w') : w'.Kept ↔ w.Untroubled l := by
  obtain ⟨after, hafter, rfl⟩ := next_eq_some_iff.mp hstep
  cases hheld : w.held with
  | none =>
      refine iff_of_true ?_ (by simp [Untroubled, hheld])
      intro version hversion
      simp only [heldAfter, hheld] at hversion
      cases l <;> simp only [reduceCtorEq, Option.some.injEq] at hversion
      subst hversion
      rw [Ready, next_updater hafter]
      simp [react, DesktopUpdater.updateDownloaded, publish]
  | some version =>
      have hready := hkept version hheld
      have huntroubled : w.Untroubled l ↔ w.session.Spares version l := by
        simp [Untroubled, hheld]
      rw [huntroubled]
      by_cases hrelease : w.session.Releases app version l
      · refine iff_of_true ?_ (spares_of_releases hrelease)
        simp [Kept, heldAfter, hheld, hrelease]
      · rw [← ready_next_iff hready h.updater (h.packaged hready.1) hrelease
          hafter]
        simp [Kept, heldAfter, hheld, hrelease]

/-- Every step is calm. -/
theorem calm_next (h : w.Sound app) (hstep : w.next app l = some w') :
    w.Calm l w' := by
  obtain ⟨after, hafter, rfl⟩ := next_eq_some_iff.mp hstep
  have hupdater := next_updater hafter
  have hshown {shown : ℕ} (hsome : w.shown = some shown) :
      w.session.updater.displayedDownloadPercent = shown := by
    rw [h.displayed, hsome, Option.getD_some]
  constructor
  case background =>
    rintro rfl hflight
    simp only [UpdaterSession.next, UpdaterSession.backgroundCheck,
      if_pos hflight, Option.some.injEq] at hafter
    exact hafter.symm
  case channel =>
    intro hflight
    dsimp only
    rw [hupdater]
    exact ⟨channel_react hflight l, h.updater.state_channel_react hflight l⟩
  case ready =>
    intro hready
    rw [hupdater] at hready
    exact ready_of_react hready
  case percent =>
    intro percent hpercent
    dsimp only
    rw [hupdater]
    cases l <;> simp only [published, reduceCtorEq] at hpercent
    case downloadProgress reported =>
      split at hpercent
      · cases hpercent
      · rename_i hready
        simpa [react, DesktopUpdater.downloadProgress, hready, publish]
          using hpercent
    case updateDownloaded version => exact hpercent
  case grows =>
    intro percent shown hpercent hsome
    cases l <;> simp only [published, reduceCtorEq] at hpercent
    case downloadProgress reported =>
      split at hpercent
      · cases hpercent
      · have hle := nextDownloadPercent_ge reported w.session.updater
        have heq := Option.some.inj hpercent
        have hdisplayed := hshown hsome
        omega
    case updateDownloaded version =>
      have hdisplayed := hshown hsome
      have hbounded := h.bounded
      have heq := Option.some.inj hpercent
      omega
  case full =>
    intro hpercent
    cases l <;> simp only [published, reduceCtorEq] at hpercent
    case downloadProgress reported =>
      split at hpercent
      · cases hpercent
      · have hdisplayed := displayed_of_full (Option.some.inj hpercent)
        rw [h.displayed] at hdisplayed
        left
        cases hsome : w.shown with
        | none => simp [hsome] at hdisplayed
        | some shown => simpa [hsome] using hdisplayed
    case updateDownloaded version => exact .inr ⟨version, rfl⟩

end WatchedUpdater

/-- In every run, the update that is held stays ready in every state, and every
step is calm, exactly when every step leaves a held update untroubled. -/
theorem update_kept_iff {app : DesktopApp}
    {steps : List (WatchedUpdater × UpdaterStep)} {w : WatchedUpdater}
    (htrace : (updaterRuns app).Trace steps w) :
    (HoldsAlong WatchedUpdater.Kept steps w ∧
        ∀ move ∈ moves steps w, move.1.Calm move.2.1 move.2.2) ↔
      GuardedBy WatchedUpdater.Untroubled steps := by
  have hkept : HoldsAlong WatchedUpdater.Kept steps w ↔
      GuardedBy WatchedUpdater.Untroubled steps := by
    refine htrace.holdsAlong_iff_guardedBy ?_ ?_
    · rintro _ rfl version hheld
      cases hheld
    · intro v l v' hreach hv hstep
      exact WatchedUpdater.kept_next_iff
        (WatchedUpdater.sound_of_reachable hreach) hv hstep
  have hcalm : ∀ move ∈ moves steps w, move.1.Calm move.2.1 move.2.2 := by
    refine htrace.forall_moves (P := fun _ => True)
      ⟨fun _ _ => trivial, trivial⟩ ?_
    intro v l v' hreach _ _ hstep
    exact WatchedUpdater.calm_next (WatchedUpdater.sound_of_reachable hreach)
      hstep
  rw [← hkept]
  exact and_iff_left hcalm

namespace UpdaterSample

def app : DesktopApp := ⟨true, "1.0.0"⟩

def offline : NativeError :=
  ⟨some "ERR_INTERNET_DISCONNECTED", none, none, none⟩

/-- An update is found and downloaded, and a later check is rejected. -/
def steps : List UpdaterStep :=
  [.check, .updateAvailable "1.1.0", .checkSettled none, .download,
    .updateDownloaded "1.1.0", .downloadSettled none, .check,
    .checkSettled (some offline)]

def downloaded : WatchedUpdater :=
  ⟨⟨DesktopUpdater.updateDownloaded app "1.1.0" (.create app), 0, 0⟩,
    some "1.1.0", some 100⟩

theorem update_kept_downloaded :
    HoldsAlong WatchedUpdater.Kept
        [(.create app, UpdaterStep.updateDownloaded "1.1.0")] downloaded ∧
      ∀ move ∈ moves
          [(.create app, UpdaterStep.updateDownloaded "1.1.0")] downloaded,
        move.1.Calm move.2.1 move.2.2 := by
  have htrace : (updaterRuns app).Trace
      ([] ++ [(.create app, .updateDownloaded "1.1.0")]) downloaded :=
    .step (.init rfl) rfl
  refine (update_kept_iff htrace).mpr ?_
  intro visited hmem version hheld
  obtain rfl := List.mem_singleton.mp hmem
  cases hheld

/-- A check that is rejected takes the update away. -/
theorem update_lost :
    ∃ w, (updaterRuns app).Reachable w ∧
      steps.foldlM (WatchedUpdater.next app) (.create app) = some w ∧
      ¬ w.Kept := by
  have hrun : ∃ w, steps.foldlM (WatchedUpdater.next app) (.create app) =
      some w ∧ w.held = some "1.1.0" ∧
        w.session.updater.state.phase = .failed := ⟨_, rfl, rfl, rfl⟩
  obtain ⟨w, hrun, hheld, hfailed⟩ := hrun
  refine ⟨w, .of_foldlM (fun _ _ _ h => h) (.init rfl) hrun, hrun, ?_⟩
  intro hkept
  have hready := (hkept _ hheld).1
  rw [hfailed] at hready
  cases hready

end UpdaterSample

end RelayerGraph
