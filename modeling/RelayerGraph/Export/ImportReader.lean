import RelayerGraph.Foundation.Lines

/-!
# Reading an exported conversation

An exported conversation is a file of JSON lines.  It is read from the whole
file, and it is read from the frames of a request body while they arrive, each
line being handed on as soon as it is complete.  The decoder of one line is a
library of the model.
-/

namespace RelayerGraph

open Foundation

def maxExportBytes : ℕ := 256 * 1024 * 1024

def maxJsonlLineBytes : ℕ := 16 * 1024 * 1024

def newline : UInt8 := 10

def carriageReturn : UInt8 := 13

inductive ExportReadError where
  | fileTooLarge
  | emptyLine (line : ℕ)
  | lineTooLarge (line : ℕ)
  | json (line : ℕ)
deriving DecidableEq

/-- The line without the carriage return at its end. -/
def stripCarriageReturn (line : List UInt8) : List UInt8 :=
  if line.getLast? = some carriageReturn then line.dropLast else line

section

variable {R : Type} (decode : List UInt8 → Option R)

def decodeExportRecordLine (line : List UInt8) (lineNumber : ℕ) :
    Except ExportReadError R :=
  if line = [] then .error (.emptyLine lineNumber)
  else if maxJsonlLineBytes < line.length then
    .error (.lineTooLarge lineNumber)
  else
    match decode line with
    | some record => .ok record
    | none => .error (.json lineNumber)

/-! ## The whole file -/

/-- Decodes the lines of a file from the given index on; the empty one after a
final newline is no line. -/
def decodeLines : ℕ → List (List UInt8) → Except ExportReadError (List R)
  | _, [] => .ok []
  | index, line :: lines =>
      if line = [] ∧ 0 < index ∧ lines = [] then decodeLines index lines
      else do
        let record ← decodeExportRecordLine decode (stripCarriageReturn line)
          (index + 1)
        let records ← decodeLines (index + 1) lines
        return record :: records

/-- The records of a whole file, before they are validated together. -/
def decodeExportJsonl (input : List UInt8) :
    Except ExportReadError (List R) :=
  if maxExportBytes < input.length then .error .fileTooLarge
  else
    decodeLines decode 0 ((cutAt newline input).1 ++ [(cutAt newline input).2])

end

/-! ## The frames of a body -/

/-- Why an import is refused. -/
inductive ImportFailure where
  | frame (message : String)
  | fileLimit
  | lineLimit
  | read (error : ExportReadError)
  | firstRecord
  | secondHeader
  | headerMissing
  | stage (message : String)
deriving DecidableEq

inductive BodyFrame where
  | data (bytes : List UInt8)
  | trailers
  | failed (message : String)

/-- The reader between two frames, with the state of what it hands lines to. -/
structure ImportStream (σ : Type) where
  total : ℕ
  lineNumber : ℕ
  pending : List UInt8
  state : σ

section

variable {σ : Type}

def checkedTotalBytes (total frameLen : ℕ) : Except ImportFailure ℕ :=
  if maxExportBytes < total + frameLen then .error .fileLimit
  else .ok (total + frameLen)

def appendLineBytes (pending bytes : List UInt8) :
    Except ImportFailure (List UInt8) :=
  if maxJsonlLineBytes < pending.length + bytes.length then .error .lineLimit
  else .ok (pending ++ bytes)

/-- A failure with the state it is met in. -/
def failingIn {α : Type} (state : σ) :
    Except ImportFailure α → Except (ImportFailure × σ) α :=
  Except.mapError (·, state)

variable (process : List UInt8 → ℕ → σ → Except (ImportFailure × σ) σ)

/-- The lines that a frame completes. -/
def completeLines : List (List UInt8) → ImportStream σ →
    Except (ImportFailure × σ) (ImportStream σ)
  | [], s => .ok s
  | bytes :: lines, s => do
      let pending ← failingIn s.state (appendLineBytes s.pending bytes)
      let lineNumber := s.lineNumber + 1
      let state ← process (stripCarriageReturn pending) lineNumber s.state
      completeLines lines { s with lineNumber, pending := [], state }

def takeData (data : List UInt8) (s : ImportStream σ) :
    Except (ImportFailure × σ) (ImportStream σ) := do
  let total ← failingIn s.state (checkedTotalBytes s.total data.length)
  let s ← completeLines process (cutAt newline data).1 { s with total }
  let pending ←
    failingIn s.state (appendLineBytes s.pending (cutAt newline data).2)
  return { s with pending }

def takeFrames : List BodyFrame → ImportStream σ →
    Except (ImportFailure × σ) (ImportStream σ)
  | [], s => .ok s
  | .data bytes :: frames, s => do
      let s ← takeData process bytes s
      takeFrames frames s
  | .trailers :: frames, s => takeFrames frames s
  | .failed message :: _, s => .error (.frame message, s.state)

/-- The end of the body: the line that no newline ends. -/
def lastLine (s : ImportStream σ) : Except (ImportFailure × σ) σ :=
  if s.pending ≠ [] then
    process (stripCarriageReturn s.pending) (s.lineNumber + 1) s.state
  else if s.lineNumber = 0 then .error (.read (.emptyLine 1), s.state)
  else .ok s.state

def readBody (frames : List BodyFrame) (state : σ) :
    Except (ImportFailure × σ) σ := do
  let s ← takeFrames process frames ⟨0, 0, [], state⟩
  lastLine process s

end

/-- Decodes a line and hands its record on. -/
def decodeWith {R σ : Type} (decode : List UInt8 → Option R)
    (handle : R → σ → Except (ImportFailure × σ) σ) (line : List UInt8)
    (lineNumber : ℕ) (state : σ) : Except (ImportFailure × σ) σ :=
  match decodeExportRecordLine decode line lineNumber with
  | .error error => .error (.read error, state)
  | .ok record => handle record state

/-! ## Staging an import -/

inductive ExportRecord (Header Turn Content : Type) where
  | header (header : Header)
  | visualAssetContent (content : Content)
  | turn (turn : Turn)

/-- The storage of imports: each operation replies and changes the store.  What
the stager keeps of a stage beside its identifier is part of the store. -/
structure ImportStorage (Header Turn Content Receipt Stage Store : Type) where
  begin : Header → Store → Except String Stage × Store
  pushVisualAssetContent : Content → Stage → Store → Except String Unit × Store
  pushTurn : Turn → Stage → Store → Except String Unit × Store
  finish : List UInt8 → Stage → Store → Except String Receipt × Store
  remove : Stage → Store → Except String Unit × Store

/-- The error a client receives. -/
inductive ImportError where
  | invalid (failure : ImportFailure)
  | input (failure : ImportFailure)
  | cleanup (failure : ImportFailure) (message : String)
deriving DecidableEq

section

variable {Header Turn Content Receipt Stage Store : Type}
  (decode : List UInt8 → Option (ExportRecord Header Turn Content))
  (storage : ImportStorage Header Turn Content Receipt Stage Store)

/-- The stage that an operation begins. -/
def begun (reply : Except String Stage × Store) :
    Except (ImportFailure × (Option Stage × Store)) (Option Stage × Store) :=
  match reply with
  | (.ok stage, store) => .ok (some stage, store)
  | (.error message, store) => .error (.stage message, (none, store))

/-- The stage after an operation on it. -/
def pushed (stage : Stage) (reply : Except String Unit × Store) :
    Except (ImportFailure × (Option Stage × Store)) (Option Stage × Store) :=
  match reply with
  | (.ok (), store) => .ok (some stage, store)
  | (.error message, store) => .error (.stage message, (some stage, store))

/-- Stages a record: the first is the header, which begins the stage. -/
def stageRecord (record : ExportRecord Header Turn Content)
    (state : Option Stage × Store) :
    Except (ImportFailure × (Option Stage × Store)) (Option Stage × Store) :=
  match state, record with
  | (none, store), .header header => begun (storage.begin header store)
  | (none, _), .turn _ => .error (.firstRecord, state)
  | (none, _), .visualAssetContent _ => .error (.firstRecord, state)
  | (some _, _), .header _ => .error (.secondHeader, state)
  | (some stage, store), .visualAssetContent content =>
      pushed stage (storage.pushVisualAssetContent content stage store)
  | (some stage, store), .turn turn =>
      pushed stage (storage.pushTurn turn stage store)

def processLine : List UInt8 → ℕ → Option Stage × Store →
    Except (ImportFailure × (Option Stage × Store)) (Option Stage × Store) :=
  decodeWith decode (stageRecord storage)

/-- Removes the stage after a failure, if one was begun. -/
def abortOrInvalid (failure : ImportFailure) (state : Option Stage × Store) :
    ImportError × Store :=
  match state with
  | (none, store) => (.invalid failure, store)
  | (some stage, store) =>
      match storage.remove stage store with
      | (.ok (), store) => (.input failure, store)
      | (.error message, store) => (.cleanup failure message, store)

/-- Stages the import that a body holds; the bytes stand for their digest. -/
def stageJsonl (frames : List BodyFrame) (store : Store) :
    Except ImportError Receipt × Store :=
  match readBody (processLine decode storage) frames (none, store) with
  | .error (failure, state) =>
      let (error, store) := abortOrInvalid storage failure state
      (.error error, store)
  | .ok (none, store) => (.error (.invalid .headerMissing), store)
  | .ok (some stage, store) =>
      match storage.finish (bodyBytes frames) stage store with
      | (.ok receipt, store) => (.ok receipt, store)
      | (.error message, store) =>
          let (error, store) :=
            abortOrInvalid storage (.stage message) (some stage, store)
          (.error error, store)
where
  bodyBytes (frames : List BodyFrame) : List UInt8 :=
    frames.flatMap fun
      | .data bytes => bytes
      | _ => []

end

end RelayerGraph
