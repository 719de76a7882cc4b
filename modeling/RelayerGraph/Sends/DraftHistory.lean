import RelayerGraph.Sends.DraftRuns

/-!
# The history of a draft

Along every run the revision is a compare-and-set: an edit is applied at the
revision it names, or taken for an old one, and the second is right exactly
when it is.  The epochs of a run increase as long as no Send turns the time of
the draft back; then a submission takes only the answers it had frozen.
-/

namespace RelayerGraph

open Foundation Checked TransitionSystem

namespace DraftRun

open InputDraft

variable {run : DraftRun} {steps : List (DraftRun × DraftLabel)}

theorem headed_of_trace (htrace : draftSystem.Trace steps run) :
    (∀ visited ∈ steps, visited.1.draft.Headed) ∧ run.draft.Headed := by
  induction htrace with
  | @init s hinit =>
      refine ⟨fun visited hvisited => (by cases hvisited), ?_⟩
      exact fun _ => ⟨hinit.1, hinit.2.2.1⟩
  | @step steps s t label hprefix hstep ih =>
      obtain rfl : t = s.next label := hstep
      refine ⟨?_, (stepFacts ih.2).headed⟩
      intro visited hvisited
      rcases List.mem_append.mp hvisited with hold | hnew
      · exact ih.1 visited hold
      · rw [List.mem_singleton.mp hnew]
        exact ih.2

/-- Every move of a run is a step from a headed draft. -/
theorem moves_of_trace (htrace : draftSystem.Trace steps run) :
    ∀ move ∈ moves steps run, move.1.draft.Headed ∧
      move.2.2 = move.1.next move.2.1 := by
  have hholds : HoldsAlong (fun s : DraftRun => s.draft.Headed) steps run :=
    headed_of_trace htrace
  refine htrace.forall_moves
    (Q := fun s label t => s.draft.Headed ∧ t = s.next label) hholds ?_
  intro s label t _ hheaded _ hstep
  exact ⟨hheaded, hstep⟩

/-- An edit that counts as applied was applied by a move of the run. -/
theorem applied_of_trace (htrace : draftSystem.Trace steps run) :
    ∀ pair ∈ run.applied, ∃ move ∈ moves steps run, ∃ now,
      move.2.1 = .edit pair.1 pair.2 now ∧
        pair.2.AppliedAt move.1.draft move.2.2.draft := by
  induction htrace with
  | @init s hinit =>
      intro pair hpair
      rw [hinit.2.2.2.1] at hpair
      cases hpair
  | @step steps s t label hprefix hstep ih =>
      obtain rfl : t = s.next label := hstep
      have hfacts : StepFacts s label (s.next label) :=
        stepFacts (headed_of_trace hprefix).2
      intro pair hpair
      rw [moves_concat]
      rcases hfacts.applied with hsame |
        ⟨client, request, now, rfl, hnew, happlied⟩
      · rw [hsame] at hpair
        obtain ⟨move, hmove, hfound⟩ := ih pair hpair
        exact ⟨move, List.mem_append_left _ hmove, hfound⟩
      · rw [hnew, List.mem_append, List.mem_singleton] at hpair
        rcases hpair with hold | rfl
        · obtain ⟨move, hmove, hfound⟩ := ih pair hold
          exact ⟨move, List.mem_append_left _ hmove, hfound⟩
        · refine ⟨_, List.mem_append_right _ (List.mem_singleton_self _), now,
            rfl, happlied⟩

theorem ordered_of_trace (htrace : draftSystem.Trace steps run)
    (hforward : GuardedBy SendsForward steps) : run.Ordered := by
  induction htrace with
  | @init s hinit =>
      obtain ⟨hattachments, -, hsubmitted, -, hepochs⟩ := hinit
      refine ⟨⟨?_, ?_⟩, ?_, ?_⟩
      · simp [hattachments]
      · simp [hsubmitted]
      · simp [hepochs]
      · simp [hepochs]
  | @step steps s t label hprefix hstep ih =>
      obtain rfl : t = s.next label := hstep
      have hearlier : GuardedBy SendsForward steps :=
        fun visited hvisited => hforward visited (by simp [hvisited])
      exact (stepFacts (headed_of_trace hprefix).2).ordered
        (hforward (s, label) (by simp)) (ih hearlier)

/-- The epochs a run gives out after a state are later than every change of
the draft up to that state. -/
def LaterEpochs (earlier run : DraftRun) : Prop :=
  ∃ new, run.epochs = earlier.epochs ++ new ∧
    earlier.draft.updatedAt ≤ run.draft.updatedAt ∧
      ∀ epoch ∈ new, earlier.draft.updatedAt < epoch

theorem LaterEpochs.trans {earlier run' : DraftRun}
    (h : LaterEpochs earlier run) (h' : LaterEpochs run run') :
    LaterEpochs earlier run' := by
  obtain ⟨new, hepochs, hmonotone, hlater⟩ := h
  obtain ⟨new', hepochs', hmonotone', hlater'⟩ := h'
  refine ⟨new ++ new', by rw [hepochs', hepochs, List.append_assoc],
    hmonotone.trans hmonotone', ?_⟩
  intro epoch hepoch
  rcases List.mem_append.mp hepoch with hold | hnew
  · exact hlater epoch hold
  · exact hmonotone.trans_lt (hlater' epoch hnew)

theorem laterEpochs_of_trace (htrace : draftSystem.Trace steps run)
    (hforward : GuardedBy SendsForward steps) :
    ∀ visited ∈ steps, LaterEpochs visited.1 run := by
  induction htrace with
  | init => exact fun visited hvisited => by cases hvisited
  | @step steps s t label hprefix hstep ih =>
      obtain rfl : t = s.next label := hstep
      have hearlier : GuardedBy SendsForward steps :=
        fun visited hvisited => hforward visited (by simp [hvisited])
      have hfacts : StepFacts s label (s.next label) :=
        stepFacts (headed_of_trace hprefix).2
      have hdated := (ordered_of_trace hprefix hearlier).dated
      obtain ⟨-, hmonotone⟩ :=
        hfacts.forward (hforward (s, label) (by simp)) hdated
      obtain ⟨new, hepochs, -, hbounds⟩ := hfacts.later
      have hlast : LaterEpochs s (s.next label) :=
        ⟨new, hepochs, hmonotone, fun epoch hepoch => (hbounds epoch hepoch).1⟩
      intro visited hvisited
      rcases List.mem_append.mp hvisited with hold | hnew
      · exact (ih hearlier visited hold).trans hlast
      · rw [List.mem_singleton.mp hnew]
        exact hlast

theorem dated_of_visited (htrace : draftSystem.Trace steps run)
    (hforward : GuardedBy SendsForward steps) :
    ∀ visited ∈ steps, visited.1.draft.Dated := by
  induction htrace with
  | init => exact fun visited hvisited => by cases hvisited
  | @step steps s t label hprefix hstep ih =>
      have hearlier : GuardedBy SendsForward steps :=
        fun visited hvisited => hforward visited (by simp [hvisited])
      intro visited hvisited
      rcases List.mem_append.mp hvisited with hold | hnew
      · exact ih hearlier visited hold
      · rw [List.mem_singleton.mp hnew]
        exact (ordered_of_trace hprefix hearlier).dated

/-- A submission leaves every answer that bears no frozen epoch. -/
theorem consume_keeps {draft : InputDraft} (hheaded : draft.Headed)
    {frozen : List (InputOccurrence × InputAttachment)} (now : ℕ)
    {entry : InputOccurrence × InputAttachment}
    (hentry : entry ∈ draft.attachments.rows) (hother : entry ∉ frozen) :
    entry ∈ (draft.afterCall (draft.consume frozen now)).attachments.rows := by
  cases hrun : draft.consume frozen now with
  | error failure => exact hentry
  | ok stored =>
      rcases consume_ok hheaded hrun with rfl | ⟨stamp, -, -, rfl⟩
      · exact hentry
      · exact List.mem_filter.mpr ⟨hentry, decide_eq_true hother⟩

/-- A submission that froze the answers of an earlier state takes no answer
that was confirmed since. -/
def ConsumesFrozen (steps : List (DraftRun × DraftLabel)) (run : DraftRun) :
    Prop :=
  ∀ visited ∈ steps, ∀ frozen,
    (∀ entry ∈ frozen, entry ∈ visited.1.draft.attachments.rows) →
    ∀ now, ∀ entry ∈ run.draft.attachments.rows,
      entry.2.committedAt ∈ run.epochs.drop visited.1.epochs.length →
      entry ∈ (run.draft.afterCall
        (run.draft.consume frozen now)).attachments.rows

theorem consumesFrozen_of_trace (htrace : draftSystem.Trace steps run)
    (hforward : GuardedBy SendsForward steps) : ConsumesFrozen steps run := by
  intro visited hvisited frozen hfrozen now entry hentry hepoch
  refine consume_keeps (headed_of_trace htrace).2 now hentry ?_
  intro htaken
  obtain ⟨new, hepochs, -, hlater⟩ :=
    laterEpochs_of_trace htrace hforward visited hvisited
  rw [hepochs, List.drop_left] at hepoch
  have hold : entry.2.committedAt ≤ visited.1.draft.updatedAt :=
    (dated_of_visited htrace hforward visited hvisited).stored entry
      (hfrozen entry htaken)
  have hnew := hlater _ hepoch
  omega

end DraftRun

open DraftRun

namespace DraftSample

def answer : InputAnswer := ⟨7, "\x7b\x7d", "\"yes\""⟩

def here : InputOccurrence := ⟨10, 20, 30⟩

def there : InputOccurrence := ⟨10, 20, 31⟩

/-- The draft of a thread that was changed at 900, by a clock that reads less. -/
def opened : DraftRun where
  draft :=
    { threadUpdatedAt := 900
      revision := 0
      updatedAt := 0
      attachments := Keyed.empty
      detachReceipts := []
      submitted := Keyed.empty }
  applied := []
  epochs := []

theorem trace_run (labels : List DraftLabel) : ∃ steps,
    draftSystem.Trace steps (labels.foldl DraftRun.next opened) := by
  induction labels using List.reverseRecOn with
  | nil => exact ⟨[], .init ⟨rfl, rfl, rfl, rfl, rfl⟩⟩
  | append_singleton labels label ih =>
      obtain ⟨steps, htrace⟩ := ih
      rw [List.foldl_concat]
      exact ⟨_, htrace.step rfl⟩

/-- An answer is committed and sent, and the same answer is committed again:
both confirmations bear one epoch. -/
def sentBetween : List DraftLabel :=
  [.edit "a" (.commit here answer 0) 500,
    .reserve ⟨1⟩ (fun _ => true) (some 1) true 500,
    .edit "a" (.commit here answer 2) 500]

/-- A client commits an answer, another commits a second one, and the first
commits its answer once more at the revision it saw. -/
def absorbed : List DraftLabel :=
  [.edit "a" (.commit here answer 0) 1000,
    .edit "b" (.commit there answer 1) 1001]

end DraftSample

end RelayerGraph
