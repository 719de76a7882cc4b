import RelayerGraph.Recorder.Links

/-!
# Capabilities and what arrives with them

The recorder's table of capabilities names the interactions that hold them,
as the journal tells it.  A request is therefore an operation of an interaction
exactly when it arrives with a capability that was issued to it last, and that
no request has revoked since.
-/

namespace RelayerGraph

namespace GraphOperationRecorder

open Foundation

variable {settings : Settings} {eventBytes : Event → ℕ}

/-! ## Holding a capability -/

/-- Occurrences that change no capability. -/
def Occurrence.Plain (occurrence : Occurrence) : Prop :=
  ∀ token node, ¬ occurrence.supersedes token node

theorem holds_concat {journal : List Occurrence} {occurrence : Occurrence}
    {token : String} {node : ℕ} :
    Holds (journal ++ [occurrence]) token node ↔
      occurrence = .issued token node ∨
        Holds journal token node ∧ ¬ occurrence.supersedes token node := by
  constructor
  · rintro ⟨before, after, hjournal, hafter⟩
    rcases List.eq_nil_or_concat after with rfl | ⟨rest, last, rfl⟩
    · left
      obtain ⟨-, hlast⟩ := List.append_inj' hjournal rfl
      exact (List.cons_eq_cons.mp hlast).1
    · right
      have hsplit : journal ++ [occurrence] =
          (before ++ .issued token node :: rest) ++ [last] := by
        simpa using hjournal
      obtain ⟨hbefore, hlast⟩ := List.append_inj' hsplit rfl
      obtain rfl := (List.cons_eq_cons.mp hlast).1
      exact ⟨⟨before, rest, hbefore, fun other hother =>
        hafter other (by simp [hother])⟩, hafter _ (by simp)⟩
  · rintro (rfl | ⟨⟨before, after, rfl, hafter⟩, hlast⟩)
    · exact ⟨journal, [], rfl, by simp⟩
    · refine ⟨before, after ++ [occurrence], by simp, fun other hother => ?_⟩
      rcases List.mem_append.mp hother with hold | hnew
      · exact hafter other hold
      · rwa [List.mem_singleton.mp hnew]

theorem holds_append_of_plain {journal occurrences : List Occurrence}
    (hplain : ∀ occurrence ∈ occurrences, occurrence.Plain) {token : String}
    {node : ℕ} :
    Holds (journal ++ occurrences) token node ↔ Holds journal token node := by
  induction occurrences using List.reverseRecOn with
  | nil => rw [List.append_nil]
  | append_singleton occurrences last ih =>
      have hlast : last.Plain := hplain last (by simp)
      rw [← List.append_assoc, holds_concat,
        ih fun occurrence hmem => hplain occurrence (by simp [hmem])]
      constructor
      · rintro (rfl | ⟨hholds, -⟩)
        · exact absurd (.inl rfl) (hlast token node)
        · exact hholds
      · exact fun hholds => .inr ⟨hholds, hlast token node⟩

theorem get?_replaceCapabilityOwner (owners : Keyed String ℕ) (token : String)
    (node : ℕ) (held : String) (owner : ℕ) :
    (replaceCapabilityOwner owners token node).get? held = some owner ↔
      held = token ∧ owner = node ∨
        owners.get? held = some owner ∧ ¬ (token = held ∨ node = owner) := by
  rw [replaceCapabilityOwner, Keyed.get?_put]
  by_cases hheld : held = token
  · rw [if_pos hheld, Option.some.injEq]
    simp [hheld, @eq_comm ℕ node owner]
  · rw [if_neg hheld, Keyed.get?_keep, Option.filter_eq_some_iff]
    have hne : ¬ token = held := fun heq => hheld heq.symm
    simp [hheld, hne, @eq_comm ℕ node owner]

theorem get?_revokeCapabilityOwner (owners : Keyed String ℕ)
    (token : Option String) (node : Option ℕ) (held : String) (owner : ℕ) :
    (revokeCapabilityOwner owners token node).get? held = some owner ↔
      owners.get? held = some owner ∧
        ¬ (token = some held ∨ node = some owner) := by
  rw [revokeCapabilityOwner, Keyed.get?_keep, Option.filter_eq_some_iff]
  simp [@eq_comm _ token, @eq_comm _ node]

/-- The table of capabilities agrees with a journal. -/
def HoldersOf (r : Recorder) (journal : List Occurrence) : Prop :=
  ∀ token node, r.capabilityOwners.get? token = some node ↔
    Holds journal token node

theorem HoldersOf.plain {r after : Recorder} {journal : List Occurrence}
    (h : HoldersOf r journal)
    (howners : after.capabilityOwners = r.capabilityOwners)
    {occurrences : List Occurrence}
    (hplain : ∀ occurrence ∈ occurrences, occurrence.Plain) :
    HoldersOf after (journal ++ occurrences) := by
  intro token node
  rw [howners, holds_append_of_plain hplain]
  exact h token node

theorem HoldersOf.silent {r after : Recorder} {journal : List Occurrence}
    (h : HoldersOf r journal)
    (howners : after.capabilityOwners = r.capabilityOwners) :
    HoldersOf after (journal ++ []) :=
  h.plain howners (by simp)

theorem HoldersOf.applyChange {r : Recorder} {journal : List Occurrence}
    (h : HoldersOf r journal) (change : Option CapabilityChange) :
    HoldersOf (r.applyChange change) (journal ++ changeOccurrences change) := by
  intro held owner
  cases change with
  | none =>
      rw [changeOccurrences, List.append_nil]
      exact h held owner
  | some change =>
      cases change with
      | issue token node =>
          rw [changeOccurrences, holds_concat, ← h held owner]
          refine (get?_replaceCapabilityOwner _ _ _ _ _).trans (or_congr ?_ .rfl)
          rw [Occurrence.issued.injEq]
          exact and_congr eq_comm eq_comm
      | revoke token node =>
          rw [changeOccurrences, holds_concat, ← h held owner]
          refine (get?_revokeCapabilityOwner _ _ _ _ _).trans ?_
          simp [Occurrence.supersedes]

theorem plain_describedBy (after : Recorder) (id : ℕ) :
    ∀ occurrence ∈ describedBy after id, occurrence.Plain := by
  intro occurrence hmem token node
  unfold describedBy at hmem
  split at hmem
  · rw [List.mem_singleton.mp hmem]
    exact not_false
  · cases hmem

theorem plain_madeBy (r : Recorder) (receipt : Option (ℕ × Receipt)) :
    ∀ occurrence ∈ r.madeBy receipt, occurrence.Plain := by
  intro occurrence hmem token node
  unfold Recorder.madeBy at hmem
  split at hmem
  · split at hmem
    · cases hmem
    · rw [List.mem_singleton.mp hmem]
      exact not_false
  · cases hmem

theorem HoldersOf.moved {r after : Recorder} {owner : ℕ → ℕ}
    (hlinked : Linked r owner) {journal : List Occurrence}
    (h : HoldersOf r journal) {occurrences : List Occurrence}
    (hmove : Moves settings eventBytes r occurrences after) :
    HoldersOf after (journal ++ occurrences) := by
  cases hmove with
  | arrived method path authorization =>
      obtain ⟨request, harrives⟩ := arrives hlinked method path authorization
      apply h.plain harrives.owners
      intro occurrence hmem token node
      rw [List.mem_singleton.mp hmem]
      exact not_false
  | @ended id request change passed receipt hrequest hmakes =>
      have hchanged := h.applyChange change
      unfold Recorder.endOccurrences
      rw [← List.append_assoc]
      apply hchanged.plain
      · exact (Recorder.record_capabilities settings eventBytes _ receipt).1
      · intro occurrence hmem
        rcases List.mem_append.mp hmem with hmade | hended
        · exact plain_madeBy _ receipt occurrence hmade
        · rw [List.mem_singleton.mp hended]
          exact fun _ _ => not_false
  | flagged hf => exact h.silent rfl
  | began node =>
      apply h.plain
      · exact (Recorder.turn_frame _ _ _ _ _).1.trans
          (Recorder.stateFor_capabilityOwners r node)
      · intro occurrence hmem
        rcases List.mem_cons.mp hmem with hbegan | hdescribed
        · rw [hbegan]
          exact fun _ _ => not_false
        · exact plain_describedBy _ _ occurrence hdescribed
  | turned hexport hstage hsettled =>
      exact h.plain (Recorder.turn_frame _ _ _ _ _).1 (plain_describedBy _ _)
  | timedOut hexport => exact h.silent rfl
  | left hexport => exact h.silent rfl

/-! ## Arriving with a capability -/

/-- Occurrences that are no arrival. -/
def Occurrence.NoArrival (occurrence : Occurrence) : Prop :=
  ∀ request method path token, occurrence ≠ .arrived request method path token

theorem attributed_concat {journal : List Occurrence} {occurrence : Occurrence}
    {node request : ℕ} {method path : String} :
    Attributed (journal ++ [occurrence]) node request method path ↔
      Attributed journal node request method path ∨
        ∃ token, occurrence = .arrived request method path (some token) ∧
          Holds journal token node ∧ isGraphPath path = true ∧
          path ≠ authoringErrorsPath := by
  constructor
  · rintro ⟨before, after, token, hjournal, hholds, hpaths⟩
    rcases List.eq_nil_or_concat after with rfl | ⟨rest, last, rfl⟩
    · right
      obtain ⟨rfl, hlast⟩ := List.append_inj' hjournal rfl
      exact ⟨token, (List.cons_eq_cons.mp hlast).1, hholds, hpaths⟩
    · left
      have hsplit : journal ++ [occurrence] = (before ++
          .arrived request method path (some token) :: rest) ++ [last] := by
        simpa using hjournal
      exact ⟨before, rest, token, (List.append_inj' hsplit rfl).1, hholds,
        hpaths⟩
  · rintro (⟨before, after, token, rfl, hholds, hpaths⟩ |
      ⟨token, rfl, hholds, hpaths⟩)
    · exact ⟨before, after ++ [occurrence], token, by simp, hholds, hpaths⟩
    · exact ⟨journal, [], token, rfl, hholds, hpaths⟩

theorem attributed_append {journal occurrences : List Occurrence}
    (hplain : ∀ occurrence ∈ occurrences, occurrence.NoArrival)
    {node request : ℕ} {method path : String} :
    Attributed (journal ++ occurrences) node request method path ↔
      Attributed journal node request method path := by
  induction occurrences using List.reverseRecOn with
  | nil => rw [List.append_nil]
  | append_singleton occurrences last ih =>
      rw [← List.append_assoc, attributed_concat,
        ih fun occurrence hmem => hplain occurrence (by simp [hmem])]
      refine or_iff_left ?_
      rintro ⟨token, hlast, -⟩
      exact hplain last (by simp) request method path (some token) hlast

/-- What the holder of a request's capability is, the journal tells. -/
theorem holderOf_eq_some_iff {r : Recorder} {journal : List Occurrence}
    (h : HoldersOf r journal) {authorization : Option String} {node : ℕ} :
    r.holderOf authorization = some node ↔
      ∃ token, bearerToken authorization = some token ∧
        Holds journal token node := by
  unfold Recorder.holderOf
  rw [Option.bind_eq_some_iff]
  exact exists_congr fun token => and_congr_right fun _ => h token node

end GraphOperationRecorder

end RelayerGraph
