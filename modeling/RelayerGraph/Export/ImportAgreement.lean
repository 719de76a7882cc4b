import RelayerGraph.Export.ImportReader

/-!
# The two readers of an export agree

The frames of a body are read line by line as the whole file is, wherever the
frames are cut.  The two readers differ on one kind of line only: the limit on
the length of a line is met before the carriage return at its end is taken off
by one of them, and after it by the other.
-/

namespace RelayerGraph

open Foundation

/-! ## Lines in a row -/

section

variable {σ : Type} (process : List UInt8 → ℕ → σ → Except (ImportFailure × σ) σ)

/-- Hands complete lines on, the first after line `n`. -/
def processLines : ℕ → List (List UInt8) → σ → Except (ImportFailure × σ) σ
  | _, [], state => .ok state
  | n, line :: lines, state => do
      let line ← failingIn state (appendLineBytes [] line)
      let state ← process (stripCarriageReturn line) (n + 1) state
      processLines (n + 1) lines state

/-- Hands on the pieces of a file, the remainder being a line unless it is empty
and follows one. -/
def processPieces (n : ℕ) (pieces : List (List UInt8) × List UInt8)
    (state : σ) : Except (ImportFailure × σ) σ := do
  let state ← processLines process n pieces.1 state
  if pieces.2 ≠ [] then
    processLines process (n + pieces.1.length) [pieces.2] state
  else if n + pieces.1.length = 0 then .error (.read (.emptyLine 1), state)
  else .ok state

variable {process}

theorem processLines_append (n : ℕ) (lines more : List (List UInt8))
    (state : σ) :
    processLines process n (lines ++ more) state =
      processLines process n lines state >>=
        processLines process (n + lines.length) more := by
  induction lines generalizing n state with
  | nil => rfl
  | cons line lines ih =>
      have hnumber : n + 1 + lines.length = n + (line :: lines).length := by
        simp only [List.length_cons]
        omega
      simp only [List.cons_append, processLines]
      cases failingIn state (appendLineBytes [] line) with
      | error failure => rfl
      | ok line =>
          simp only [bind, Except.bind]
          cases process (stripCarriageReturn line) (n + 1) state with
          | error failure => rfl
          | ok state =>
              simp only
              rw [ih, hnumber]
              rfl

/-- A line that is too long is refused, wherever its end is. -/
theorem processPieces_of_long {piece : List UInt8}
    (hlong : maxJsonlLineBytes < piece.length) (n : ℕ)
    (pieces : List (List UInt8) × List UInt8) (state : σ) :
    processPieces process n (prependPiece piece pieces) state =
      .error (.lineLimit, state) := by
  have hrefused (more : List UInt8) (lines : List (List UInt8)) (n : ℕ) :
      processLines process n ((piece ++ more) :: lines) state =
        .error (.lineLimit, state) := by
    have hlonger : maxJsonlLineBytes <
        ([] : List UInt8).length + (piece ++ more).length := by
      simp only [List.length_nil, List.length_append]
      omega
    simp only [processLines, appendLineBytes, if_pos hlonger]
    rfl
  obtain ⟨pieces, rest⟩ := pieces
  cases pieces with
  | nil =>
      have hne : piece ++ rest ≠ [] := by
        intro hnil
        have hlength := congrArg List.length hnil
        simp only [List.length_append, List.length_nil] at hlength
        omega
      have hnone : processLines process n [] state = .ok state := rfl
      simp only [processPieces, prependPiece, hnone, ne_eq, hne,
        not_false_eq_true, if_true, bind, Except.bind]
      exact hrefused rest [] _
  | cons first pieces =>
      simp only [processPieces, prependPiece, hrefused]
      rfl

/-! ## Frames in a row -/

/-- The lines a frame completes, the first of them begun before it. -/
theorem completeLines_eq (lines : List (List UInt8)) (s : ImportStream σ) :
    completeLines process lines s =
      match lines with
      | [] => .ok s
      | first :: rest => do
          let state ← processLines process s.lineNumber
            ((s.pending ++ first) :: rest) s.state
          return { s with
            lineNumber := s.lineNumber + lines.length
            pending := []
            state := state } := by
  induction lines generalizing s with
  | nil => rfl
  | cons first rest ih =>
      have hlimit : appendLineBytes s.pending first =
          appendLineBytes [] (s.pending ++ first) := by
        simp [appendLineBytes]
      simp only [completeLines, processLines]
      rw [hlimit]
      cases failingIn s.state (appendLineBytes [] (s.pending ++ first)) with
      | error failure => rfl
      | ok line =>
          simp only [bind, Except.bind]
          cases hstate : process (stripCarriageReturn line) (s.lineNumber + 1)
              s.state with
          | error failure => rfl
          | ok state =>
              simp only
              rw [ih]
              cases rest with
              | nil => rfl
              | cons second rest =>
                  have hnumber : s.lineNumber + 1 + (second :: rest).length =
                      s.lineNumber + (first :: second :: rest).length := by
                    simp only [List.length_cons]
                    omega
                  simp only [List.nil_append, hnumber]
                  rfl

theorem processPieces_append (n : ℕ) (lines more : List (List UInt8))
    (rest : List UInt8) (state : σ) :
    processPieces process n (lines ++ more, rest) state =
      processLines process n lines state >>=
        processPieces process (n + lines.length) (more, rest) := by
  simp only [processPieces, processLines_append, List.length_append]
  cases processLines process n lines state with
  | error failure => rfl
  | ok state => simp only [processPieces, bind, Except.bind, Nat.add_assoc]

/-- The frames of a body hand on the pieces of what they hold together. -/
theorem takeFrames_eq (frames : List (List UInt8)) (s : ImportStream σ)
    (htotal : s.total + frames.flatten.length ≤ maxExportBytes)
    (hpending : s.pending.length ≤ maxJsonlLineBytes) :
    (takeFrames process (frames.map .data) s >>= lastLine process) =
      processPieces process s.lineNumber
        (prependPiece s.pending (cutAt newline frames.flatten)) s.state := by
  induction frames generalizing s with
  | nil =>
      have hwithin : appendLineBytes [] s.pending = .ok s.pending := by
        simp [appendLineBytes, not_lt.mpr hpending]
      have hnone : processLines process s.lineNumber [] s.state =
        .ok s.state := rfl
      simp only [List.map_nil, takeFrames, List.flatten_nil, cutAt,
        prependPiece, List.append_nil, processPieces, hnone, bind, Except.bind,
        lastLine, List.length_nil, Nat.add_zero]
      split
      · simp only [processLines, hwithin, failingIn, Except.mapError, bind,
          Except.bind]
        cases process (stripCarriageReturn s.pending) (s.lineNumber + 1)
          s.state <;> rfl
      · rfl
  | cons data frames ih =>
      rw [List.flatten_cons, List.length_append] at htotal
      have hdata : checkedTotalBytes s.total data.length =
          .ok (s.total + data.length) := by
        rw [checkedTotalBytes, if_neg (by omega)]
      rw [List.flatten_cons, cutAt_append]
      generalize hcut : cutAt newline data = cut
      obtain ⟨lines, rest⟩ := cut
      -- what is left of the frame goes before what the next frames hold
      have hrest (t : ImportStream σ)
          (ht : t.total = s.total + data.length) :
          ((do
            let pending ← failingIn t.state (appendLineBytes t.pending rest)
            let t' ← takeFrames process (frames.map .data) { t with pending }
            lastLine process t') : Except (ImportFailure × σ) σ) =
          processPieces process t.lineNumber (prependPiece t.pending
            (prependPiece rest (cutAt newline frames.flatten))) t.state := by
        rw [← prependPiece_append]
        by_cases hlong : maxJsonlLineBytes < (t.pending ++ rest).length
        · rw [processPieces_of_long hlong]
          rw [List.length_append] at hlong
          simp only [appendLineBytes, if_pos hlong]
          rfl
        · have hstep := ih { t with pending := t.pending ++ rest }
            (by simp only [ht]; omega) (not_lt.mp hlong)
          rw [List.length_append] at hlong
          simp only [appendLineBytes, if_neg hlong]
          exact hstep
      have hframe : (takeFrames process ((data :: frames).map .data) s >>=
            lastLine process) =
          ((do
            let t ← completeLines process lines
              { s with total := s.total + data.length }
            let pending ← failingIn t.state (appendLineBytes t.pending rest)
            let t' ← takeFrames process (frames.map .data) { t with pending }
            lastLine process t') : Except (ImportFailure × σ) σ) := by
        simp only [List.map_cons, takeFrames, takeData, hdata, hcut, failingIn,
          Except.mapError, bind, Except.bind]
        cases completeLines process lines
            { s with total := s.total + data.length } with
        | error failure => rfl
        | ok t =>
            simp only
            cases appendLineBytes t.pending rest <;> rfl
      rw [hframe, completeLines_eq]
      cases lines with
      | nil => exact hrest { s with total := s.total + data.length } rfl
      | cons first lines =>
          simp only [prependPiece, List.cons_append]
          rw [← List.cons_append, processPieces_append]
          cases processLines process s.lineNumber
              ((s.pending ++ first) :: lines) s.state with
          | error failure => rfl
          | ok state =>
              have hstep := hrest
                ⟨s.total + data.length, s.lineNumber + (first :: lines).length,
                  [], state⟩ rfl
              rw [prependPiece_nil] at hstep
              exact hstep

end

/-! ## The records of the lines -/

section

variable {R : Type}

/-- The lines of a file: the remainder is one unless it is empty and follows
one. -/
def fileLines (input : List UInt8) : List (List UInt8) :=
  if (cutAt newline input).2 = [] ∧ (cutAt newline input).1 ≠ [] then
    (cutAt newline input).1
  else (cutAt newline input).1 ++ [(cutAt newline input).2]

/-- Reads lines in order, the first after line `n`; a failure comes with the
records read before it. -/
def readLines (read : ℕ → List UInt8 → Except ImportFailure R) :
    ℕ → List (List UInt8) → List R →
      Except (ImportFailure × List R) (List R)
  | _, [], records => .ok records
  | n, line :: lines, records =>
      match read n line with
      | .error failure => .error (failure, records)
      | .ok record => readLines read (n + 1) lines (records ++ [record])

variable {f g : ℕ → List UInt8 → Except ImportFailure R}

/-- A failure comes with no fewer records than were read already. -/
theorem length_le_of_readLines_error {n : ℕ} {lines : List (List UInt8)}
    {records before : List R} {failure : ImportFailure}
    (h : readLines f n lines records = .error (failure, before)) :
    records.length ≤ before.length := by
  induction lines generalizing n records with
  | nil => cases h
  | cons line lines ih =>
      rw [readLines] at h
      cases hread : f n line with
      | error failure' =>
          rw [hread] at h
          obtain ⟨-, rfl⟩ := Prod.mk.inj (Except.error.inj h)
          exact le_rfl
      | ok record =>
          rw [hread] at h
          have hle := ih h
          rw [List.length_append] at hle
          omega

/-- Two ways to read lines, one of which meets the limit where the other does
not, do the same exactly when the other has failed before any such line. -/
theorem readLines_eq_iff
    (hfg : ∀ n line, f n line = g n line ∨
      (f n line = .error .lineLimit ∧ g n line ≠ .error .lineLimit))
    (n : ℕ) (lines : List (List UInt8)) (records : List R) :
    readLines f n lines records = readLines g n lines records ↔
      ∀ earlier line later, lines = earlier ++ line :: later →
        f (n + earlier.length) line ≠ g (n + earlier.length) line →
        ∃ k other, earlier[k]? = some other ∧
          ∃ failure, g (n + k) other = .error failure := by
  induction lines generalizing n records with
  | nil => simp [readLines]
  | cons first rest ih =>
      rcases hfg n first with hsame | ⟨hlimit, hother⟩
      · rw [readLines, readLines, hsame]
        cases hread : g n first with
        | error failure =>
            refine iff_of_true rfl ?_
            intro earlier line later hlines hdiffer
            cases earlier with
            | nil =>
                obtain ⟨rfl, -⟩ := List.cons.inj hlines
                exact absurd hsame hdiffer
            | cons other earlier =>
                obtain ⟨rfl, -⟩ := List.cons.inj hlines
                exact ⟨0, first, rfl, failure, hread⟩
        | ok record =>
            simp only
            rw [ih]
            constructor
            · intro h earlier line later hlines hdiffer
              cases earlier with
              | nil =>
                  obtain ⟨rfl, -⟩ := List.cons.inj hlines
                  exact absurd hsame hdiffer
              | cons other earlier =>
                  obtain ⟨rfl, hrest⟩ := List.cons.inj hlines
                  have hnumber : n + (first :: earlier).length =
                      n + 1 + earlier.length := by
                    simp only [List.length_cons]
                    omega
                  rw [hnumber] at hdiffer
                  obtain ⟨k, other, hother, hfailure⟩ :=
                    h earlier line later hrest hdiffer
                  refine ⟨k + 1, other, by simpa using hother, ?_⟩
                  rwa [show n + (k + 1) = n + 1 + k by omega]
            · intro h earlier line later hrest hdiffer
              have hnumber : n + (first :: earlier).length =
                  n + 1 + earlier.length := by
                simp only [List.length_cons]
                omega
              rw [← hnumber] at hdiffer
              obtain ⟨k, other, hother, failure, hfailure⟩ :=
                h (first :: earlier) line later (by rw [hrest]; rfl) hdiffer
              cases k with
              | zero =>
                  obtain rfl : first = other := by simpa using hother
                  rw [Nat.add_zero, hread] at hfailure
                  cases hfailure
              | succ k =>
                  refine ⟨k, other, by simpa using hother, failure, ?_⟩
                  rwa [show n + 1 + k = n + (k + 1) by omega]
      · refine iff_of_false ?_ ?_
        · rw [readLines, readLines, hlimit]
          intro hsame
          cases hread : g n first with
          | error failure =>
              rw [hread] at hsame hother
              obtain ⟨rfl, -⟩ := Prod.mk.inj (Except.error.inj hsame)
              exact hother rfl
          | ok record =>
              rw [hread] at hsame
              have hle := length_le_of_readLines_error hsame.symm
              rw [List.length_append] at hle
              simp at hle
        · intro h
          have hdiffer : f (n + ([] : List (List UInt8)).length) first ≠
              g (n + ([] : List (List UInt8)).length) first := by
            rw [List.length_nil, Nat.add_zero, hlimit]
            exact hother.symm
          obtain ⟨k, other, hother, -⟩ := h [] first rest rfl hdiffer
          simp at hother

/-! ## The two readers -/

variable (decode : List UInt8 → Option R)

/-- The failure of an import that an error of the whole file corresponds to. -/
def ExportReadError.asImport : ExportReadError → ImportFailure
  | .fileTooLarge => .fileLimit
  | .lineTooLarge _ => .lineLimit
  | .emptyLine line => .read (.emptyLine line)
  | .json line => .read (.json line)

/-- A line as the frames of a body are read. -/
def streamLine (n : ℕ) (line : List UInt8) : Except ImportFailure R :=
  if maxJsonlLineBytes < line.length then .error .lineLimit
  else
    (decodeExportRecordLine decode (stripCarriageReturn line) (n + 1)).mapError
      .read

/-- A line as the whole file is read. -/
def wholeLine (n : ℕ) (line : List UInt8) : Except ImportFailure R :=
  (decodeExportRecordLine decode (stripCarriageReturn line) (n + 1)).mapError
    ExportReadError.asImport

/-- The limit is met with the carriage return, and not without it. -/
def ReturnOverLimit (line : List UInt8) : Prop :=
  line.length = maxJsonlLineBytes + 1 ∧ line.getLast? = some carriageReturn

variable {decode}

theorem length_stripCarriageReturn (line : List UInt8) :
    (stripCarriageReturn line).length =
      if line.getLast? = some carriageReturn then line.length - 1
      else line.length := by
  unfold stripCarriageReturn
  split <;> simp

theorem decodeExportRecordLine_of_long {line : List UInt8}
    (hlong : maxJsonlLineBytes < line.length) (n : ℕ) :
    decodeExportRecordLine decode line n = .error (.lineTooLarge n) := by
  have hne : line ≠ [] := by
    rintro rfl
    simp at hlong
  rw [decodeExportRecordLine, if_neg hne, if_pos hlong]

/-- Within the limit, a line is refused as the same line of a file. -/
theorem mapError_read_eq {line : List UInt8}
    (hshort : line.length ≤ maxJsonlLineBytes) (n : ℕ) :
    (decodeExportRecordLine decode line n).mapError .read =
      (decodeExportRecordLine decode line n).mapError
        ExportReadError.asImport := by
  unfold decodeExportRecordLine
  split
  · rfl
  · rw [if_neg (not_lt.mpr hshort)]
    split <;> rfl

/-- The readers differ on a line exactly when its carriage return alone is over
the limit; then only the frames meet the limit. -/
theorem streamLine_eq_iff (n : ℕ) (line : List UInt8) :
    streamLine decode n line = wholeLine decode n line ↔
      ¬ ReturnOverLimit line := by
  have hstrip := length_stripCarriageReturn line
  unfold streamLine wholeLine
  by_cases hreturn : ReturnOverLimit line
  · obtain ⟨hlength, hlast⟩ := hreturn
    rw [if_pos hlast] at hstrip
    have hshort : (stripCarriageReturn line).length ≤ maxJsonlLineBytes := by
      omega
    have hne : stripCarriageReturn line ≠ [] := by
      intro hnil
      rw [hnil, hlength] at hstrip
      simp [maxJsonlLineBytes] at hstrip
    refine iff_of_false ?_ (not_not.mpr ⟨hlength, hlast⟩)
    rw [if_pos (by omega), decodeExportRecordLine, if_neg hne,
      if_neg (not_lt.mpr hshort)]
    split <;> exact fun h => by cases h
  · refine iff_of_true ?_ hreturn
    by_cases hlong : maxJsonlLineBytes < line.length
    · have hstill : maxJsonlLineBytes < (stripCarriageReturn line).length := by
        unfold ReturnOverLimit at hreturn
        split at hstrip
        · rename_i hlast
          have hlength : line.length ≠ maxJsonlLineBytes + 1 :=
            fun heq => hreturn ⟨heq, hlast⟩
          omega
        · omega
      rw [if_pos hlong, decodeExportRecordLine_of_long hstill]
      rfl
    · rw [if_neg hlong, mapError_read_eq]
      split at hstrip <;> omega

theorem streamLine_or (n : ℕ) (line : List UInt8) :
    streamLine decode n line = wholeLine decode n line ∨
      (streamLine decode n line = .error .lineLimit ∧
        wholeLine decode n line ≠ .error .lineLimit) := by
  by_cases hreturn : ReturnOverLimit line
  · right
    have hdiffer : streamLine decode n line ≠ wholeLine decode n line :=
      fun heq => (streamLine_eq_iff n line).mp heq hreturn
    have hlimit : streamLine decode n line = .error .lineLimit :=
      if_pos (by rw [hreturn.1]; exact Nat.lt_succ_self _)
    rw [hlimit] at hdiffer
    exact ⟨hlimit, hdiffer.symm⟩
  · exact .inl ((streamLine_eq_iff n line).mpr hreturn)

/-! ### Reading the frames -/

variable (decode) in
/-- Keeps the records of the lines handed on. -/
def recordLine : List UInt8 → ℕ → List R →
    Except (ImportFailure × List R) (List R) :=
  decodeWith decode fun record records => .ok (records ++ [record])

variable (decode) in
/-- What is decoded while the frames are read: the records, and the failure that
ends them. -/
def streamJsonl (frames : List (List UInt8)) :
    Except (ImportFailure × List R) (List R) :=
  readBody (recordLine decode) (frames.map .data) []

theorem processLines_recordLine (n : ℕ) (lines : List (List UInt8))
    (records : List R) :
    processLines (recordLine decode) n lines records =
      readLines (streamLine decode) n lines records := by
  induction lines generalizing n records with
  | nil => rfl
  | cons line lines ih =>
      rw [processLines, readLines, streamLine]
      by_cases hlong : maxJsonlLineBytes < line.length
      · have hlimit : appendLineBytes [] line = .error .lineLimit := by
          simp [appendLineBytes, hlong]
        rw [hlimit, if_pos hlong]
        rfl
      · have hwithin : appendLineBytes [] line = .ok line := by
          simp [appendLineBytes, hlong]
        rw [hwithin, if_neg hlong]
        simp only [recordLine, decodeWith, failingIn, Except.mapError, bind, Except.bind]
        cases decodeExportRecordLine decode (stripCarriageReturn line)
            (n + 1) with
        | error error => rfl
        | ok record => exact ih _ _

theorem processPieces_recordLine (input : List UInt8) :
    processPieces (recordLine decode) 0 (cutAt newline input) [] =
      readLines (streamLine decode) 0 (fileLines input) [] := by
  rw [← processLines_recordLine, fileLines]
  obtain ⟨lines, rest⟩ := cutAt newline input
  by_cases hrest : rest = []
  · subst hrest
    cases lines with
    | nil =>
        have hempty : appendLineBytes [] ([] : List UInt8) = .ok [] := rfl
        simp only [processPieces, processLines, hempty, recordLine]
        rfl
    | cons line lines =>
        simp only [processPieces, ne_eq, not_true_eq_false, if_false,
          List.length_cons, Nat.zero_add, Nat.succ_ne_zero, not_false_eq_true,
          reduceCtorEq, and_self, if_true]
        cases processLines (recordLine decode) 0 (line :: lines) [] <;> rfl
  · simp only [processPieces, hrest, ne_eq, not_false_eq_true, if_true,
      false_and, if_false, processLines_append]

theorem streamJsonl_eq {frames : List (List UInt8)}
    (hsmall : frames.flatten.length ≤ maxExportBytes) :
    streamJsonl decode frames =
      readLines (streamLine decode) 0 (fileLines frames.flatten) [] := by
  have hframes := @takeFrames_eq _ (recordLine decode) frames ⟨0, 0, [], []⟩
    (by simpa using hsmall) (Nat.zero_le _)
  rw [prependPiece_nil, processPieces_recordLine] at hframes
  exact hframes

/-! ### Reading the whole file -/

variable (decode) in
/-- The records of the lines before the first one that fails. -/
def decodedBefore : ℕ → List (List UInt8) → List R
  | _, [] => []
  | n, line :: lines =>
      match decodeExportRecordLine decode (stripCarriageReturn line) (n + 1) with
      | .error _ => []
      | .ok record => record :: decodedBefore (n + 1) lines

variable (decode) in
/-- Decodes every line, the first after line `n`. -/
def decodeEach : ℕ → List (List UInt8) → Except ExportReadError (List R)
  | _, [] => .ok []
  | n, line :: lines => do
      let record ← decodeExportRecordLine decode (stripCarriageReturn line)
        (n + 1)
      let records ← decodeEach (n + 1) lines
      return record :: records

theorem decodeLines_concat (n : ℕ) (lines : List (List UInt8))
    (rest : List UInt8) :
    decodeLines decode n (lines ++ [rest]) =
      if rest = [] ∧ 0 < n + lines.length then decodeEach decode n lines
      else decodeEach decode n (lines ++ [rest]) := by
  induction lines generalizing n with
  | nil =>
      simp only [List.nil_append, decodeLines, decodeEach, and_true,
        List.length_nil, Nat.add_zero]
  | cons line lines ih =>
      have hmore : ¬ (line = [] ∧ 0 < n ∧ lines ++ [rest] = []) := by simp
      have hpos : 0 < n + 1 + lines.length := by omega
      have hpos' : 0 < n + (line :: lines).length := by
        simp only [List.length_cons]
        omega
      rw [List.cons_append, decodeLines, if_neg hmore, ih]
      simp only [hpos, hpos', and_true, decodeEach]
      split <;> rfl

theorem decodeExportJsonl_eq (input : List UInt8) :
    decodeExportJsonl decode input =
      if maxExportBytes < input.length then .error .fileTooLarge
      else decodeEach decode 0 (fileLines input) := by
  rw [decodeExportJsonl, decodeLines_concat, fileLines]
  congr 1
  simp only [Nat.zero_add, List.length_pos_iff]
  split <;> rfl

theorem readLines_wholeLine (n : ℕ) (lines : List (List UInt8))
    (records : List R) :
    readLines (wholeLine decode) n lines records =
      match decodeEach decode n lines with
      | .ok more => .ok (records ++ more)
      | .error error =>
          .error (error.asImport, records ++ decodedBefore decode n lines) := by
  induction lines generalizing n records with
  | nil => simp [readLines, decodeEach]
  | cons line lines ih =>
      rw [readLines, wholeLine, decodeEach, decodedBefore]
      cases decodeExportRecordLine decode (stripCarriageReturn line)
          (n + 1) with
      | error error => simp [Except.mapError, bind, Except.bind]
      | ok record =>
          simp only [Except.mapError, bind, Except.bind]
          rw [ih]
          cases decodeEach decode (n + 1) lines with
          | error error => simp
          | ok more => simp [pure, Except.pure]

/-! ### Agreement -/

theorem completeLines_total {σ : Type}
    {process : List UInt8 → ℕ → σ → Except (ImportFailure × σ) σ}
    {lines : List (List UInt8)} {s s' : ImportStream σ}
    (h : completeLines process lines s = .ok s') : s'.total = s.total := by
  rw [completeLines_eq] at h
  cases lines with
  | nil => rw [← Except.ok.inj h]
  | cons first rest =>
      simp only [bind, Except.bind] at h
      cases hstate : processLines process s.lineNumber
          ((s.pending ++ first) :: rest) s.state with
      | error failure =>
          rw [hstate] at h
          cases h
      | ok state =>
          rw [hstate] at h
          rw [← Except.ok.inj h]

/-- A body that is read to its end is within the limit. -/
theorem takeFrames_total {σ : Type}
    {process : List UInt8 → ℕ → σ → Except (ImportFailure × σ) σ}
    {frames : List (List UInt8)} {s s' : ImportStream σ}
    (hs : s.total ≤ maxExportBytes)
    (h : takeFrames process (frames.map .data) s = .ok s') :
    s.total + frames.flatten.length ≤ maxExportBytes := by
  induction frames generalizing s with
  | nil => simpa using hs
  | cons data frames ih =>
      simp only [List.map_cons, takeFrames, takeData, checkedTotalBytes, bind,
        Except.bind] at h
      by_cases hlarge : maxExportBytes < s.total + data.length
      · rw [if_pos hlarge] at h
        cases h
      · simp only [if_neg hlarge, failingIn, Except.mapError] at h
        cases hlines : completeLines process (cutAt newline data).1
            { s with total := s.total + data.length } with
        | error failure =>
            rw [hlines] at h
            cases h
        | ok t =>
            have htotal : t.total = s.total + data.length :=
              completeLines_total hlines
            rw [hlines] at h
            simp only at h
            cases hpending :
                appendLineBytes t.pending (cutAt newline data).2 with
            | error failure =>
                rw [hpending] at h
                cases h
            | ok pending =>
                rw [hpending] at h
                have hrest := ih (s := { t with pending }) (by
                  simp only [htotal]
                  omega) h
                simp only [htotal] at hrest
                rw [List.flatten_cons, List.length_append]
                omega

variable (decode) in
/-- The frames are read as the file they hold: the same records when it is
accepted, and otherwise the same refusal after the same records, except that a
file over the limit is only refused. -/
structure ReadersAgree (frames : List (List UInt8)) : Prop where
  accepted : ∀ records, streamJsonl decode frames = .ok records ↔
    decodeExportJsonl decode frames.flatten = .ok records
  refused : frames.flatten.length ≤ maxExportBytes → ∀ error,
    decodeExportJsonl decode frames.flatten = .error error →
      streamJsonl decode frames = .error (error.asImport,
        decodedBefore decode 0 (fileLines frames.flatten))

theorem readersAgree_iff_readLines {frames : List (List UInt8)}
    (hsmall : frames.flatten.length ≤ maxExportBytes) :
    ReadersAgree decode frames ↔
      readLines (streamLine decode) 0 (fileLines frames.flatten) [] =
        readLines (wholeLine decode) 0 (fileLines frames.flatten) [] := by
  have hstream := @streamJsonl_eq _ decode _ hsmall
  have hwhole := @decodeExportJsonl_eq _ decode frames.flatten
  have hread := @readLines_wholeLine _ decode 0
    (fileLines frames.flatten) []
  rw [if_neg (not_lt.mpr hsmall)] at hwhole
  rw [← hstream, hread]
  cases heach : decodeEach decode 0 (fileLines frames.flatten) with
  | error error =>
      rw [heach] at hwhole
      simp only [List.nil_append]
      constructor
      · intro h
        exact h.refused hsmall error hwhole
      · intro h
        refine ⟨fun records => ?_, fun _ error' herror => ?_⟩
        · rw [h, hwhole]
          exact iff_of_false (fun h => by cases h) (fun h => by cases h)
        · rw [hwhole] at herror
          rw [← Except.error.inj herror]
          exact h
  | ok records =>
      rw [heach] at hwhole
      simp only [List.nil_append]
      constructor
      · intro h
        exact (h.accepted records).mpr hwhole
      · intro h
        refine ⟨fun records' => ?_, fun _ error herror => ?_⟩
        · rw [h, hwhole]
          exact ⟨fun heq => by rw [Except.ok.inj heq],
            fun heq => by rw [Except.ok.inj heq]⟩
        · rw [hwhole] at herror
          cases herror

/-- A file over the limit is refused by both readers. -/
theorem readersAgree_of_large {frames : List (List UInt8)}
    (hlarge : maxExportBytes < frames.flatten.length) :
    ReadersAgree decode frames := by
  refine ⟨fun records => ?_, fun hsmall => absurd hlarge (not_lt.mpr hsmall)⟩
  rw [decodeExportJsonl_eq, if_pos hlarge]
  refine iff_of_false ?_ (fun h => by cases h)
  intro h
  simp only [streamJsonl, readBody, bind, Except.bind] at h
  cases hframes : takeFrames (recordLine decode) (frames.map .data)
      ⟨0, 0, [], []⟩ with
  | error failure =>
      rw [hframes] at h
      cases h
  | ok s =>
      have htotal := takeFrames_total (Nat.zero_le _) hframes
      simp only [Nat.zero_add] at htotal
      omega

variable (decode) in
/-- Every line whose carriage return alone is over the limit comes after a line
that fails. -/
def ReturnsWithinLimit (input : List UInt8) : Prop :=
  ∀ earlier line later, fileLines input = earlier ++ line :: later →
    ReturnOverLimit line → ∃ k other, earlier[k]? = some other ∧
      ∃ error, decodeExportRecordLine decode (stripCarriageReturn other)
        (k + 1) = .error error

/-- The frames are read as the file they hold exactly when the file is over its
limit or its carriage returns are within the limit of a line. -/
theorem readersAgree_iff (frames : List (List UInt8)) :
    ReadersAgree decode frames ↔
      (frames.flatten.length ≤ maxExportBytes →
        ReturnsWithinLimit decode frames.flatten) := by
  by_cases hsmall : frames.flatten.length ≤ maxExportBytes
  · rw [readersAgree_iff_readLines hsmall, readLines_eq_iff streamLine_or]
    simp only [Nat.zero_add, ne_eq, streamLine_eq_iff, not_not, hsmall,
      forall_const, ReturnsWithinLimit]
    have hfails (n : ℕ) (line : List UInt8) :
        (∃ failure, wholeLine decode n line = .error failure) ↔
          ∃ error, decodeExportRecordLine decode (stripCarriageReturn line)
            (n + 1) = .error error := by
      unfold wholeLine
      cases decodeExportRecordLine decode (stripCarriageReturn line) (n + 1) <;>
        simp [Except.mapError]
    simp only [hfails]
  · exact iff_of_true (readersAgree_of_large (not_le.mp hsmall))
      fun h => absurd h hsmall

/-- A line of the greatest length is read by one reader only when a carriage
return ends it. -/
theorem not_readersAgree_of_return {line : List UInt8}
    (hlength : line.length = maxJsonlLineBytes) (hline : newline ∉ line) :
    ¬ ReadersAgree decode [line ++ [carriageReturn, newline]] := by
  rw [readersAgree_iff]
  intro h
  have hinput : ([line ++ [carriageReturn, newline]] : List (List UInt8)).flatten
      = (line ++ [carriageReturn]) ++ [newline] := by simp
  have hfree : newline ∉ line ++ [carriageReturn] := by
    have hother : newline ≠ carriageReturn := by decide
    simp [hline, hother]
  have hlines : fileLines ((line ++ [carriageReturn]) ++ [newline]) =
      [line ++ [carriageReturn]] := by
    rw [fileLines, cutAt_append, cutAt_of_not_mem _ hfree]
    simp [cutAt, prependPiece]
  rw [hinput] at h
  obtain ⟨k, other, hother, -⟩ := h
    (by simp [hlength, maxJsonlLineBytes, maxExportBytes])
    [] (line ++ [carriageReturn]) [] hlines ⟨by simp [hlength], by simp⟩
  simp at hother

end

/-! ## Removing the stage -/

section

variable {Header Turn Content Receipt Stage Store : Type}
  {decode : List UInt8 → Option (ExportRecord Header Turn Content)}
  {storage : ImportStorage Header Turn Content Receipt Stage Store}
  {present : Store → Stage → Prop}

variable (decode storage) in
/-- The stage that has been begun when the body has been read. -/
def stagerAfter (frames : List BodyFrame) (store : Store) : Option Stage :=
  match readBody (processLine decode storage) frames (none, store) with
  | .error (_, (stager, _)) => stager
  | .ok (stager, _) => stager

variable (decode storage present) in
/-- After an error no stage is left, unless the error says that its removal was
refused. -/
def RemovesStage : Prop :=
  ∀ frames store error stage,
    (stageJsonl decode storage frames store).1 = .error error →
    stagerAfter decode storage frames store = some stage →
    (∀ failure message, error ≠ .cleanup failure message) →
    ¬ present (stageJsonl decode storage frames store).2 stage

theorem abortOrInvalid_removes
    (hremove : ∀ stage store, (storage.remove stage store).1 = .ok () →
      ¬ present (storage.remove stage store).2 stage)
    (failure : ImportFailure) (stage : Stage) (store : Store)
    (hclean : ∀ failure' message,
      (abortOrInvalid storage failure (some stage, store)).1 ≠
        .cleanup failure' message) :
    ¬ present (abortOrInvalid storage failure (some stage, store)).2 stage := by
  have hgone := hremove stage store
  simp only [abortOrInvalid] at hclean ⊢
  cases hreply : storage.remove stage store with
  | mk reply store' =>
      rw [hreply] at hgone hclean
      cases reply with
      | ok => exact hgone rfl
      | error message => exact absurd rfl (hclean failure message)

theorem removesStage
    (hremove : ∀ stage store, (storage.remove stage store).1 = .ok () →
      ¬ present (storage.remove stage store).2 stage) :
    RemovesStage decode storage present := by
  intro frames store error stage herror hstager hclean
  unfold stagerAfter at hstager
  unfold stageJsonl at herror ⊢
  cases hbody : readBody (processLine decode storage) frames (none, store) with
  | error failed =>
      obtain ⟨failure, stager, store'⟩ := failed
      rw [hbody] at hstager herror
      obtain rfl : stager = some stage := hstager
      have herror' := Except.error.inj herror
      exact abortOrInvalid_removes hremove failure stage store' fun f m => by
        rw [herror']
        exact hclean f m
  | ok state =>
      obtain ⟨stager, store'⟩ := state
      rw [hbody] at hstager herror
      obtain rfl : stager = some stage := hstager
      simp only at herror ⊢
      cases hreply : storage.finish (stageJsonl.bodyBytes frames) stage
          store' with
      | mk reply store'' =>
          rw [hreply] at herror
          cases reply with
          | ok receipt => cases herror
          | error message =>
              have herror' := Except.error.inj herror
              exact abortOrInvalid_removes hremove (.stage message) stage store''
                fun f m => by
                  rw [herror']
                  exact hclean f m

end

namespace ImportSample

/-- The text of a header record. -/
def headerText : String :=
  "\x7b\"recordType\":\"header\",\"exportVersion\":1,\"exportedAt\":\"1770000000000\",\"producer\":\x7b\"desktopVersion\":\"0.2.12\",\"buildCommit\":\"1685e68\",\"platform\":\"darwin\",\"architecture\":\"arm64\"\x7d,\"conversation\":\x7b\"id\":\"conversation:1\",\"title\":\"Debug bad response\",\"createdAt\":\"1769000000000\"\x7d,\"turns\":[]\x7d"

def headerBytes : List UInt8 :=
  headerText.toList.map fun c => c.toNat.toUInt8

set_option maxRecDepth 4000 in
/-- The header is one short line. -/
theorem headerBytes_plain :
    newline ∉ headerBytes ∧ headerBytes.length < 1000 := by
  have hchars : headerText.toList = _ := String.toList_ofList
  rw [headerBytes, hchars]
  decide

/-- A header, padded with blanks to the greatest length of a line. -/
def line : List UInt8 :=
  headerBytes ++ List.replicate (maxJsonlLineBytes - headerBytes.length) 32

/-- Decodes the header, whatever blanks follow it. -/
def decode (bytes : List UInt8) : Option (ExportRecord Unit Unit Unit) :=
  if headerBytes.isPrefixOf bytes then some (.header ()) else none

/-- A storage of at most one stage. -/
def storage : ImportStorage Unit Unit Unit Unit Unit Bool where
  begin _ _ := (.ok (), true)
  pushVisualAssetContent _ _ store := (.ok (), store)
  pushTurn _ _ store := (.ok (), store)
  finish _ _ store := (.ok (), store)
  remove _ _ := (.ok (), false)

end ImportSample

end RelayerGraph
