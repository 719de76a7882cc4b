import RelayerGraph.Foundation.Matches

/-!
# Private-key markers

The first and the last line of an armored private key.  A marker is read from
the head of a text as the pattern
`-----(BEGIN|END) ([A-Z0-9 ]*PRIVATE KEY(?: BLOCK)?)-----` reads it: its label
is everything up to the closing dashes.
-/

namespace RelayerGraph

open Foundation

/-- A JavaScript string, as its UTF-16 units. -/
abbrev JsText := List ℕ

/-- The units of an ASCII text. -/
def units (text : String) : JsText :=
  text.toList.map Char.toNat

theorem units_ofList (chars : List Char) :
    units (String.ofList chars) = chars.map Char.toNat := by
  rw [units, String.toList_ofList]

namespace PrivateKeys

inductive MarkerKind
  | header
  | footer
deriving DecidableEq, Repr

/-- The word of a marker, with the blank behind it. -/
def MarkerKind.word : MarkerKind → JsText
  | .header => units "BEGIN "
  | .footer => units "END "

structure Marker where
  kind : MarkerKind
  label : JsText
deriving DecidableEq

def dashes : JsText := units "-----"

/-- `[A-Z0-9 ]`. -/
def labelUnit (unit : ℕ) : Bool :=
  (decide (65 ≤ unit) && decide (unit ≤ 90)) ||
    (decide (48 ≤ unit) && decide (unit ≤ 57)) || decide (unit = 32)

/-- `[A-Z0-9 ]*PRIVATE KEY(?: BLOCK)?`. -/
def keyLabel (label : JsText) : Bool :=
  label.all labelUnit &&
    ((units "PRIVATE KEY").isSuffixOf label ||
      (units "PRIVATE KEY BLOCK").isSuffixOf label)

/-- The text of a marker. -/
def Marker.text (marker : Marker) : JsText :=
  dashes ++ (marker.kind.word ++ (marker.label ++ dashes))

def Marker.length (marker : Marker) : ℕ := marker.text.length

/-- The text behind a beginning it has. -/
def behind (start text : JsText) : Option JsText :=
  if start.isPrefixOf text = true then some (text.drop start.length) else none

/-- The label at the head of a text, when the closing dashes follow it. -/
def readLabel (kind : MarkerKind) (text : JsText) : Option Marker :=
  if keyLabel (text.takeWhile labelUnit) = true ∧
      dashes.isPrefixOf (text.dropWhile labelUnit) = true then
    some ⟨kind, text.takeWhile labelUnit⟩
  else
    none

/-- The marker at the head of a text. -/
def markerAt? (text : JsText) : Option Marker :=
  (behind dashes text).bind fun body =>
    match behind MarkerKind.header.word body with
    | some rest => readLabel .header rest
    | none => (behind MarkerKind.footer.word body).bind (readLabel .footer)

/-! ## What a marker is -/

theorem behind_eq_some_iff {start text rest : JsText} :
    behind start text = some rest ↔ text = start ++ rest := by
  unfold behind
  constructor
  · intro h
    split at h
    case isTrue hprefix =>
      obtain ⟨tail, rfl⟩ := List.isPrefixOf_iff_prefix.mp hprefix
      rw [List.drop_left] at h
      rw [Option.some.inj h]
    case isFalse => cases h
  · rintro rfl
    rw [if_pos (List.isPrefixOf_iff_prefix.mpr (List.prefix_append _ _)),
      List.drop_left]

theorem labelUnit_of_keyLabel {label : JsText} (h : keyLabel label = true) :
    ∀ unit ∈ label, labelUnit unit = true := by
  simp only [keyLabel, Bool.and_eq_true, List.all_eq_true] at h
  exact h.1

theorem dashes_cons : dashes = 45 :: units "----" := rfl

theorem labelUnit_dash : labelUnit 45 = false := rfl

/-- Before the closing dashes, the label is everything. -/
theorem takeWhile_label {label rest : JsText} (h : keyLabel label = true) :
    (label ++ (dashes ++ rest)).takeWhile labelUnit = label ∧
      (label ++ (dashes ++ rest)).dropWhile labelUnit = dashes ++ rest := by
  have hall := labelUnit_of_keyLabel h
  constructor
  · rw [List.takeWhile_append_of_pos hall, dashes_cons, List.cons_append,
      List.takeWhile_cons_of_neg (by simp [labelUnit_dash]), List.append_nil]
  · rw [List.dropWhile_append_of_pos hall, dashes_cons, List.cons_append,
      List.dropWhile_cons_of_neg (by simp [labelUnit_dash])]

theorem readLabel_eq_some_iff {kind : MarkerKind} {text : JsText}
    {marker : Marker} :
    readLabel kind text = some marker ↔ marker.kind = kind ∧
      keyLabel marker.label = true ∧
        (marker.label ++ dashes) <+: text := by
  unfold readLabel
  constructor
  · intro h
    split at h
    case isTrue hlabel =>
      obtain rfl := Option.some.inj h
      obtain ⟨hkey, hdashes⟩ := hlabel
      refine ⟨rfl, hkey, ?_⟩
      obtain ⟨rest, hrest⟩ := List.isPrefixOf_iff_prefix.mp hdashes
      refine ⟨rest, ?_⟩
      rw [List.append_assoc, hrest, List.takeWhile_append_dropWhile]
    case isFalse => cases h
  · obtain ⟨kind', label⟩ := marker
    rintro ⟨rfl, hkey, rest, rfl⟩
    rw [List.append_assoc]
    obtain ⟨htake, hdrop⟩ := @takeWhile_label label rest hkey
    rw [htake, hdrop, if_pos]
    exact ⟨hkey, List.isPrefixOf_iff_prefix.mpr (List.prefix_append _ _)⟩

theorem behind_header_footer (text : JsText) :
    behind MarkerKind.header.word (MarkerKind.footer.word ++ text) = none := by
  rw [behind, if_neg]
  intro hprefix
  obtain ⟨rest, hrest⟩ := List.isPrefixOf_iff_prefix.mp hprefix
  have hhead := congrArg List.head? hrest
  exact absurd hhead (by simp [MarkerKind.word, units])

/-- A marker is read where its text stands. -/
theorem markerAt?_eq_some_iff {text : JsText} {marker : Marker} :
    markerAt? text = some marker ↔
      keyLabel marker.label = true ∧ marker.text <+: text := by
  unfold markerAt?
  rw [Option.bind_eq_some_iff]
  constructor
  · rintro ⟨body, hbody, hread⟩
    obtain rfl := behind_eq_some_iff.mp hbody
    cases hheader : behind MarkerKind.header.word body with
    | some rest =>
        rw [hheader] at hread
        obtain rfl := behind_eq_some_iff.mp hheader
        obtain ⟨hkind, hkey, tail, rfl⟩ := readLabel_eq_some_iff.mp hread
        refine ⟨hkey, tail, ?_⟩
        simp only [Marker.text, hkind, List.append_assoc]
    | none =>
        rw [hheader] at hread
        obtain ⟨rest, hfooter, hlabel⟩ := Option.bind_eq_some_iff.mp hread
        obtain rfl := behind_eq_some_iff.mp hfooter
        obtain ⟨hkind, hkey, tail, rfl⟩ := readLabel_eq_some_iff.mp hlabel
        refine ⟨hkey, tail, ?_⟩
        simp only [Marker.text, hkind, List.append_assoc]
  · rintro ⟨hkey, tail, rfl⟩
    refine ⟨marker.kind.word ++ (marker.label ++ dashes ++ tail), ?_, ?_⟩
    · refine behind_eq_some_iff.mpr ?_
      simp only [Marker.text, List.append_assoc]
    · have hlabel : readLabel marker.kind (marker.label ++ dashes ++ tail) =
          some marker :=
        readLabel_eq_some_iff.mpr ⟨rfl, hkey, List.prefix_append _ _⟩
      cases hkind : marker.kind with
      | header =>
          rw [hkind] at hlabel
          rw [behind_eq_some_iff.mpr rfl]
          exact hlabel
      | footer =>
          rw [hkind] at hlabel
          rw [behind_header_footer, behind_eq_some_iff.mpr rfl]
          exact hlabel

/-! ## The units of a marker -/

/-- A marker begins with two dashes. -/
theorem text_eq_dash_cons (marker : Marker) :
    ∃ rest, marker.text = 45 :: 45 :: rest := ⟨_, rfl⟩

theorem length_pos (marker : Marker) : 0 < marker.length := Nat.succ_pos _

/-- No marker has a bracket. -/
theorem bracket_notMem_text {marker : Marker}
    (hkey : keyLabel marker.label = true) : 91 ∉ marker.text := by
  intro hmem
  simp only [Marker.text, List.mem_append] at hmem
  have hdashes : 91 ∉ dashes := by decide
  rcases hmem with hdash | hword | hlabel | hdash
  · exact hdashes hdash
  · cases hkind : marker.kind with
    | header => rw [hkind] at hword; exact absurd hword (by decide)
    | footer => rw [hkind] at hword; exact absurd hword (by decide)
  · exact absurd (labelUnit_of_keyLabel hkey 91 hlabel) (by decide)
  · exact hdashes hdash

end PrivateKeys

end RelayerGraph
