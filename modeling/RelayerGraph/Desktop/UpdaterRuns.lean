import RelayerGraph.Desktop.Updater

/-!
# Runs of the desktop updater

The steps of the updater in any order, and what an observer keeps of a run: the
version that is promised to stay ready, and the last percent published since
the progress was reset.
-/

namespace RelayerGraph

open Foundation Updater

/-- What can happen: a call, the end of a pending check or download, or an event
of the native updater. -/
inductive UpdaterStep where
  | check
  | backgroundCheck
  | checkSettled (error : Option NativeError)
  | setChannel (next : String) (configured : Bool)
  | download
  | downloadSettled (error : Option NativeError)
  | install (error : Option NativeError)
  | checkingForUpdate
  | updateAvailable (version : String)
  | updateNotAvailable
  | downloadProgress (reported : Option ℚ)
  | updateDownloaded (version : String)
  | error (error : NativeError)

/-- The updater with the checks and downloads that are pending. -/
structure UpdaterSession where
  updater : DesktopUpdater
  checks : ℕ
  downloads : ℕ
deriving DecidableEq

namespace UpdaterSession

variable (app : DesktopApp)

def create : UpdaterSession :=
  ⟨.create app, 0, 0⟩

/-- A change of the updater alone. -/
def act (f : DesktopUpdater → DesktopUpdater) (s : UpdaterSession) :
    UpdaterSession :=
  { s with updater := f s.updater }

def check (s : UpdaterSession) : UpdaterSession :=
  { s.act (DesktopUpdater.check app) with
    checks := s.checks + if app.isPackaged then 1 else 0 }

/-- A scheduled check never disturbs an update in the user's hands. -/
def backgroundCheck (s : UpdaterSession) : UpdaterSession :=
  if s.updater.inFlight then s else s.check app

def download (s : UpdaterSession) : UpdaterSession :=
  { s.act (DesktopUpdater.download app) with
    downloads := s.downloads + if app.isPackaged then 1 else 0 }

/-- The session after a step, if the step can happen: only a pending check or
download is settled, and events are heard in a packaged application. -/
def next (s : UpdaterSession) : UpdaterStep → Option UpdaterSession
  | .check => some (s.check app)
  | .backgroundCheck => some (s.backgroundCheck app)
  | .checkSettled error =>
      if 0 < s.checks then
        some { s.act (DesktopUpdater.checkSettled app error) with
          checks := s.checks - 1 }
      else none
  | .setChannel next configured =>
      some (s.act (DesktopUpdater.setChannel app next configured))
  | .download => some (s.download app)
  | .downloadSettled error =>
      if 0 < s.downloads then
        some { s.act (DesktopUpdater.downloadSettled app error) with
          downloads := s.downloads - 1 }
      else none
  | .install error => some (s.act (DesktopUpdater.install app error))
  | .checkingForUpdate => heard (DesktopUpdater.checkingForUpdate app)
  | .updateAvailable version =>
      heard (DesktopUpdater.updateAvailable app version)
  | .updateNotAvailable => heard (DesktopUpdater.updateNotAvailable app)
  | .downloadProgress reported =>
      heard (DesktopUpdater.downloadProgress app reported)
  | .updateDownloaded version =>
      heard (DesktopUpdater.updateDownloaded app version)
  | .error error =>
      heard fun updater => updater.fail app error updater.ownerStage
where
  heard (f : DesktopUpdater → DesktopUpdater) : Option UpdaterSession :=
    if app.isPackaged then some (s.act f) else none

/-- The update of the given version is ready. -/
def Ready (s : UpdaterSession) (version : String) : Prop :=
  s.updater.state.phase = .ready ∧
    s.updater.state.availableVersion = some version

instance (s : UpdaterSession) (version : String) :
    Decidable (s.Ready version) :=
  inferInstanceAs (Decidable (_ ∧ _))

/-- The steps that may end the readiness of a version: another version is found,
the user downloads or installs, or an error is reported while no check is
pending. -/
def Releases (s : UpdaterSession) (version : String) : UpdaterStep → Prop
  | .updateAvailable found => found ≠ version
  | .download => app.isPackaged = true
  | .install _ => s.updater.state.phase = .ready
  | .error _ => s.checks = 0
  | _ => False

instance (s : UpdaterSession) (version : String) :
    (l : UpdaterStep) → Decidable (s.Releases app version l)
  | .updateAvailable _ => inferInstanceAs (Decidable (_ ≠ _))
  | .download => inferInstanceAs (Decidable (_ = _))
  | .install _ => inferInstanceAs (Decidable (_ = _))
  | .error _ => inferInstanceAs (Decidable (_ = _))
  | .check | .backgroundCheck | .checkSettled _ | .setChannel _ _
  | .downloadSettled _ | .checkingForUpdate | .updateNotAvailable
  | .downloadProgress _ | .updateDownloaded _ =>
      inferInstanceAs (Decidable False)

/-- The events and calls that reset the progress. -/
def Resets (s : UpdaterSession) : UpdaterStep → Prop
  | .checkingForUpdate | .updateNotAvailable =>
      s.updater.state.phase ≠ .ready
  | .updateAvailable version => ¬ s.Ready version
  | .download => app.isPackaged = true
  | .setChannel next configured =>
      Channel.parse next ≠ none ∧ ¬ s.updater.inFlight ∧ configured = true
  | _ => False

instance (s : UpdaterSession) :
    (l : UpdaterStep) → Decidable (s.Resets app l)
  | .checkingForUpdate | .updateNotAvailable =>
      inferInstanceAs (Decidable (_ ≠ _))
  | .updateAvailable _ => inferInstanceAs (Decidable (¬ _))
  | .download => inferInstanceAs (Decidable (_ = _))
  | .setChannel _ _ => inferInstanceAs (Decidable (_ ∧ _))
  | .check | .backgroundCheck | .checkSettled _ | .downloadSettled _
  | .install _ | .downloadProgress _ | .updateDownloaded _ | .error _ =>
      inferInstanceAs (Decidable False)

/-- No pending check or download is rejected, no error is reported while a check
is pending, and no other version is downloaded. -/
def Spares (s : UpdaterSession) (version : String) : UpdaterStep → Prop
  | .checkSettled error | .downloadSettled error => error = none
  | .error _ => s.checks = 0
  | .updateDownloaded downloaded => downloaded = version
  | _ => True

/-- The percent a step publishes. -/
def published (s : UpdaterSession) : UpdaterStep → Option ℕ
  | .downloadProgress reported =>
      if s.updater.state.phase = .ready then none
      else some (s.updater.nextDownloadPercent reported)
  | .updateDownloaded _ => some 100
  | _ => none

end UpdaterSession

/-- A session with what an observer keeps of the run so far: the version that
has to stay ready, and the last percent published since the last reset. -/
structure WatchedUpdater where
  session : UpdaterSession
  held : Option String
  shown : Option ℕ
deriving DecidableEq

namespace WatchedUpdater

variable (app : DesktopApp)

def create : WatchedUpdater :=
  ⟨.create app, none, none⟩

/-- The version that has to stay ready after a step: a downloaded update is
held until a step releases it. -/
def heldAfter (w : WatchedUpdater) (l : UpdaterStep) : Option String :=
  match w.held, l with
  | some version, l =>
      if w.session.Releases app version l then none else some version
  | none, .updateDownloaded version => some version
  | none, _ => none

def shownAfter (w : WatchedUpdater) (l : UpdaterStep) : Option ℕ :=
  if w.session.Resets app l then none else (w.session.published l).or w.shown

def next (w : WatchedUpdater) (l : UpdaterStep) : Option WatchedUpdater :=
  (w.session.next app l).map fun after =>
    ⟨after, w.heldAfter app l, w.shownAfter app l⟩

/-- The update that is held is ready. -/
def Kept (w : WatchedUpdater) : Prop :=
  ∀ version, w.held = some version → w.session.Ready version

/-- While an update is held, nothing takes it away. -/
def Untroubled (w : WatchedUpdater) (l : UpdaterStep) : Prop :=
  ∀ version, w.held = some version → w.session.Spares version l

/-- What a step does at any time: a background check does not start and the
channel does not change while an update is in the user's hands, only a download
makes an update ready, and the percent published never falls and reaches 100
only with a download. -/
structure Calm (w : WatchedUpdater) (l : UpdaterStep) (w' : WatchedUpdater) :
    Prop where
  background : l = .backgroundCheck → w.session.updater.inFlight →
    w'.session = w.session
  channel : w.session.updater.inFlight →
    w'.session.updater.channel = w.session.updater.channel ∧
      w'.session.updater.state.channel = w.session.updater.state.channel
  ready : w'.session.updater.state.phase = .ready →
    w.session.updater.state.phase = .ready ∨
      ∃ version, l = .updateDownloaded version
  percent : ∀ percent, w.session.published l = some percent →
    w'.session.updater.state.percent = some percent
  grows : ∀ percent shown, w.session.published l = some percent →
    w.shown = some shown → shown ≤ percent
  full : w.session.published l = some 100 →
    w.shown = some 100 ∨ ∃ version, l = .updateDownloaded version

end WatchedUpdater

/-- The runs of the updater of an application, under observation. -/
def updaterRuns (app : DesktopApp) :
    TransitionSystem WatchedUpdater UpdaterStep where
  init w := w = .create app
  step w l w' := w.next app l = some w'

end RelayerGraph
