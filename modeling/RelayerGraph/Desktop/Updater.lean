import RelayerGraph.Foundation.TransitionSystem

/-!
# The desktop updater

The updater of the desktop application, as the events of the native updater and
the calls of the user and of the timer drive it.  A check or a download stays
pending between the call that starts it and the step that settles it, and any
event or call may come in between.
-/

namespace RelayerGraph

namespace Updater

inductive Channel where
  | stable
  | preview
deriving DecidableEq

def Channel.parse : String → Option Channel
  | "stable" => some .stable
  | "preview" => some .preview
  | _ => none

inductive Phase where
  | idle
  | development
  | checking
  | available
  | downloading
  | ready
  | failed
deriving DecidableEq

inductive Stage where
  | check
  | download
  | install
  | update
deriving DecidableEq

/-- Phases where an update is already in the user's hands. -/
def inFlightUpdatePhases : List Phase :=
  [.checking, .available, .downloading, .ready]

/-! ## Failures -/

/-- An error of the native updater: the fields that its report reads. -/
structure NativeError where
  code : Option String
  message : Option String
  statusCode : Option ℤ
  status : Option ℤ
deriving DecidableEq

/-- The explanation of an error code, if it is one the code knows. -/
def explanations : String → Option String
  | "ENOTFOUND" => some "The update server could not be found."
  | "EAI_AGAIN" =>
      some "The update server could not be found. Try again shortly."
  | "ECONNREFUSED" => some "The update server refused the connection."
  | "ECONNRESET" =>
      some "The connection to the update server was interrupted."
  | "ETIMEDOUT" => some "The update request timed out."
  | "ERR_CONNECTION_TIMED_OUT" => some "The update request timed out."
  | "ERR_NAME_NOT_RESOLVED" => some "The update server could not be found."
  | "ERR_CONNECTION_RESET" =>
      some "The connection to the update server was interrupted."
  | "ERR_CONNECTION_REFUSED" =>
      some "The update server refused the connection."
  | "ERR_INTERNET_DISCONNECTED" => some "The network connection is offline."
  | "ERR_NETWORK_CHANGED" =>
      some "The network changed during the update request."
  | "ERR_CERT_AUTHORITY_INVALID" =>
      some "The update server certificate could not be verified."
  | "CERT_HAS_EXPIRED" => some "The update server certificate has expired."
  | "UNABLE_TO_VERIFY_LEAF_SIGNATURE" =>
      some "The update server certificate could not be verified."
  | "ERR_UPDATER_CHANNEL_FILE_NOT_FOUND" =>
      some "The selected update channel is unavailable."
  | "ERR_UPDATER_INVALID_RELEASE_FEED" =>
      some "The update manifest could not be read."
  | "ERR_UPDATER_INVALID_UPDATE_INFO" =>
      some "The update manifest could not be read."
  | "ERR_UPDATER_NO_CHECKSUM" =>
      some "The update manifest is missing integrity information."
  | "ERR_UPDATER_INVALID_VERSION" =>
      some "The update manifest contains an invalid version."
  | "ERR_UPDATER_NO_FILES_PROVIDED" =>
      some "The update manifest contains no downloadable files."
  | "ERR_UPDATER_ZIP_FILE_NOT_FOUND" =>
      some "The macOS update archive is missing."
  | "ERR_UPDATER_CHECKSUM_MISMATCH" =>
      some "The downloaded update failed integrity verification."
  | "ERR_CHECKSUM_MISMATCH" =>
      some "The downloaded update failed integrity verification."
  | "ERR_UPDATER_INVALID_SIGNATURE" =>
      some "The update publisher signature could not be verified."
  | _ => none

def isSpace (c : Char) : Bool :=
  c ∈ ['\t', '\n', '\r', ' '] || c.toNat ∈ [11, 12, 160, 5760] ||
    (8192 ≤ c.toNat && c.toNat ≤ 8202) ||
    c.toNat ∈ [8232, 8233, 8239, 8287, 12288, 65279]

/-- The code in a message such as `net::ERR_NETWORK_CHANGED at …`. -/
def networkCode (message : String) : Option String :=
  match message.toList with
  | 'n' :: 'e' :: 't' :: ':' :: ':' :: rest =>
      let code := rest.takeWhile fun c => c.isUpper || c = '_'
      let after := rest.drop code.length
      if "ERR_".toList.isPrefixOf code ∧ 4 < code.length ∧
          after.head?.all isSpace then
        some (String.ofList code)
      else none
  | _ => none

/-- What a failure publishes. -/
structure Failure where
  error : String
  errorCode : String
  errorStage : Stage
  errorStatus : Option ℤ
deriving DecidableEq

def updaterFailure (error : NativeError) (stage : Stage) : Failure :=
  let candidate := error.code.or (error.message.bind networkCode)
  let known := candidate.bind explanations
  let code := if known.isSome then candidate.getD "UNKNOWN" else "UNKNOWN"
  let status := [error.statusCode, error.status].reduceOption.find? fun value =>
    100 ≤ value ∧ value ≤ 599
  let explanation := known.getD <| status.elim
    "The updater could not finish this operation."
    fun value => s!"The update server returned HTTP {value}."
  let suffix := status.elim "" fun value => s!"; HTTP {value}"
  { error := s!"{explanation} ({code}{suffix})"
    errorCode := code
    errorStage := stage
    errorStatus := status }

end Updater

open Updater

/-! ## The updater and what it publishes -/

/-- The published state. -/
structure UpdateState where
  phase : Phase
  channel : Channel
  version : String
  availableVersion : Option String
  percent : Option ℕ
  failure : Option Failure
deriving DecidableEq

/-- The application: whether it is packaged, and its version. -/
structure DesktopApp where
  isPackaged : Bool
  version : String

/-- The variables of the updater. -/
structure DesktopUpdater where
  channel : Channel
  availableInfo : Option String
  displayedDownloadPercent : ℕ
  stage : Stage
  failurePublished : Bool
  checking : Bool
  downloading : Bool
  installing : Bool
  state : UpdateState
deriving DecidableEq

/-- What one publication changes; a field left out keeps its value. -/
structure UpdatePatch where
  phase : Phase
  availableVersion : Option (Option String) := none
  percent : Option (Option ℕ) := none
  failure : Option Failure := none

namespace DesktopUpdater

variable (app : DesktopApp)

def create : DesktopUpdater where
  channel := .stable
  availableInfo := none
  displayedDownloadPercent := 0
  stage := .check
  failurePublished := false
  checking := false
  downloading := false
  installing := false
  state :=
    { phase := if app.isPackaged then .idle else .development
      channel := .stable
      version := app.version
      availableVersion := none
      percent := none
      failure := none }

def publish (patch : UpdatePatch) (u : DesktopUpdater) : DesktopUpdater :=
  { u with
    state :=
      { phase := patch.phase
        channel := u.channel
        version := app.version
        availableVersion :=
          patch.availableVersion.getD u.state.availableVersion
        percent := patch.percent.getD u.state.percent
        failure := patch.failure } }

/-- The stage a failure belongs to when only an event reports it. -/
def ownerStage (u : DesktopUpdater) : Stage :=
  if u.installing then .install
  else if u.checking && u.downloading then .update
  else if u.downloading then .download
  else if u.checking then .check
  else u.stage

/-- Publishes a failure, once for each stage that was begun. -/
def fail (error : NativeError) (failedStage : Stage) (u : DesktopUpdater) :
    DesktopUpdater :=
  if u.failurePublished ∧
      u.state.failure.map Failure.errorStage = some failedStage then u
  else
    publish app
      { phase := .failed, failure := some (updaterFailure error failedStage) }
      { u with
        failurePublished := true
        installing := u.installing && failedStage ≠ .install
        downloading :=
          u.downloading && failedStage ≠ .download && failedStage ≠ .update
        checking :=
          u.checking && failedStage ≠ .check && failedStage ≠ .update }

def begin (nextStage : Stage) (u : DesktopUpdater) : DesktopUpdater :=
  { u with stage := nextStage, failurePublished := false }

def resetDownloadProgress (u : DesktopUpdater) : DesktopUpdater :=
  { u with displayedDownloadPercent := 0 }

/-- The percent shown for a reported one; a report that is not finite counts
as zero, and 100 is kept for a ready update. -/
def nextDownloadPercent (reported : Option ℚ) (u : DesktopUpdater) : ℕ :=
  let rounded := reported.elim 0 fun value => ⌊value + 1 / 2⌋
  max u.displayedDownloadPercent (min 99 (max 0 rounded)).toNat

def inFlight (u : DesktopUpdater) : Prop :=
  u.state.phase ∈ inFlightUpdatePhases

instance (u : DesktopUpdater) : Decidable u.inFlight :=
  inferInstanceAs (Decidable (_ ∈ inFlightUpdatePhases))

/-! ### Events of the native updater -/

def checkingForUpdate (u : DesktopUpdater) : DesktopUpdater :=
  if u.state.phase = .ready then u
  else
    publish app { phase := .checking, percent := some none }
      u.resetDownloadProgress

/-- Rediscovering the version already staged is not new information. -/
def updateAvailable (version : String) (u : DesktopUpdater) :
    DesktopUpdater :=
  let found := { u with availableInfo := some version }
  if u.state.phase = .ready ∧ u.state.availableVersion = some version then found
  else
    publish app
      { phase := .available
        availableVersion := some (some version)
        percent := some none }
      found.resetDownloadProgress

def updateNotAvailable (u : DesktopUpdater) : DesktopUpdater :=
  if u.state.phase = .ready then u
  else
    publish app
      { phase := .idle, availableVersion := some none, percent := some none }
      { u with availableInfo := none }.resetDownloadProgress

def downloadProgress (reported : Option ℚ) (u : DesktopUpdater) :
    DesktopUpdater :=
  if u.state.phase = .ready then u
  else
    let percent := u.nextDownloadPercent reported
    publish app { phase := .downloading, percent := some (some percent) }
      { u with displayedDownloadPercent := percent }

def updateDownloaded (version : String) (u : DesktopUpdater) :
    DesktopUpdater :=
  publish app
    { phase := .ready
      availableVersion := some (some version)
      percent := some (some 100) }
    { u with downloading := false, displayedDownloadPercent := 100 }

/-! ### Calls -/

/-- Starts a check; in a development build there is nothing to check. -/
def check (u : DesktopUpdater) : DesktopUpdater :=
  if app.isPackaged then { u.begin .check with checking := true }
  else publish app { phase := .development } u

/-- A check is over, with the error it was rejected with. -/
def checkSettled (error : Option NativeError) (u : DesktopUpdater) :
    DesktopUpdater :=
  { error.elim u fun error => u.fail app error .check with checking := false }

/-- Changes the channel; `configured` tells whether the feed took it. -/
def setChannel (next : String) (configured : Bool) (u : DesktopUpdater) :
    DesktopUpdater :=
  match Channel.parse next with
  | none => u
  | some channel =>
      if u.inFlight then u
      else
        let changed := { u with channel, availableInfo := none }
        if configured then
          publish app
            { phase := if app.isPackaged then .idle else .development
              availableVersion := some none
              percent := some none }
            changed.resetDownloadProgress
        else changed

def download (u : DesktopUpdater) : DesktopUpdater :=
  if app.isPackaged then
    { u.resetDownloadProgress.begin .download with downloading := true }
  else u

/-- A download is over; one that succeeds is reported by its own event. -/
def downloadSettled (error : Option NativeError) (u : DesktopUpdater) :
    DesktopUpdater :=
  error.elim u fun error =>
    { u.fail app error .download with downloading := false }

/-- Quits and installs, unless the native updater throws. -/
def install (error : Option NativeError) (u : DesktopUpdater) :
    DesktopUpdater :=
  if u.state.phase = .ready then
    let started := { u.begin .install with installing := true }
    error.elim started fun error =>
      { started.fail app error .install with installing := false }
  else u

end DesktopUpdater

end RelayerGraph
