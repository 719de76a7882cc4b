import RelayerGraph.Runs.NodeQueueSystem
import RelayerGraph.Runs.CapacityRows

/-!
# What joining, admitting and releasing do to a node

Every way they can end, whatever the store answers and others do to it, and
the rows no release brings back into a node's queue.
-/

namespace RelayerGraph

open Foundation Checked ProductStore

/-! ## Rows behind a node -/

namespace ProductStore

variable {store store' : ProductStore} {run other : InteractionId}

theorem queuedBehindNode_iff : store.queuedBehindNode run = true ↔
    ∃ row, store.interactions run = some row ∧
      row.completionStatus = .queued ∧ store.capacityWaits run = false := by
  unfold queuedBehindNode
  cases store.interactions run <;> simp

theorem queuedBehindNode_congr
    (hrow : store'.interactions run = store.interactions run)
    (hwaits : store'.capacityWaits run = store.capacityWaits run) :
    store'.queuedBehindNode run = store.queuedBehindNode run := by
  rw [queuedBehindNode, queuedBehindNode, hrow, hwaits]

/-- A row that is not `queued` does not wait behind its node. -/
theorem not_queuedBehindNode {row : InteractionRow}
    (hrow : store.interactions run = some row)
    (hstatus : row.completionStatus ≠ .queued) :
    store.queuedBehindNode run = false := by
  simp [queuedBehindNode, hrow, hstatus]

theorem queueNodeRun_ok {queued : Bool}
    (h : store.queueNodeRun run = .ok (queued, store')) :
    (queued = false ∧ store' = store) ∨
      (queued = true ∧
        store'.capacityWaits = store.capacityWaits ∧
        (∀ other, other ≠ run →
          store'.interactions other = store.interactions other) ∧
        ∃ row, store'.interactions run = some row ∧
          row.completionStatus = .queued ∧
          ∃ before, store.interactions run = some before ∧
            before.completionStatus ∈ [.notStarted, .submitted]) := by
  rcases affected_ok h with ⟨hqueued, hstore⟩ |
    ⟨row, hqueued, hrow, hcondition, rfl⟩
  · exact .inl ⟨hqueued, hstore⟩
  · refine .inr ⟨hqueued, rfl, fun other hother => ?_, _,
      Function.update_self _ _ _, rfl, row, hrow, ?_⟩
    · exact Function.update_of_ne hother _ _
    · simp only [decide_eq_true_eq] at hcondition
      exact hcondition.1

theorem claimQueuedNodeRun_ok {claimed : Bool}
    (h : store.claimQueuedNodeRun run = .ok (claimed, store')) :
    store.queuedBehindNode run = claimed ∧
      store'.queuedBehindNode run = false ∧
      store'.capacityWaits = store.capacityWaits ∧
      (claimed = false → store' = store) ∧
      ∀ other, other ≠ run →
        store'.interactions other = store.interactions other := by
  unfold claimQueuedNodeRun at h
  rcases affected_ok h with ⟨rfl, rfl⟩ | ⟨row, rfl, hrow, hcondition, rfl⟩
  · have hnot : store'.queuedBehindNode run = false := by
      rw [← Bool.not_eq_true, queuedBehindNode_iff]
      rintro ⟨row, hrow, hqueued, hwaits⟩
      have hfalse := affected_false h hrow
      simp [hqueued, hwaits] at hfalse
    exact ⟨hnot, hnot, rfl, fun _ => rfl, fun _ _ => rfl⟩
  · simp only [decide_eq_true_eq, Bool.not_eq_true] at hcondition
    refine ⟨queuedBehindNode_iff.mpr ⟨row, hrow, hcondition⟩, ?_, rfl,
      (fun h => by cases h), fun other hother => ?_⟩
    · exact not_queuedBehindNode (Function.update_self _ _ _) (by simp)
    · exact Function.update_of_ne hother _ _

end ProductStore

section Moves

variable {mayWait : InteractionId → Prop} {s s' : QueueStore}
  {run : InteractionId}

/-- Nothing others do makes a row wait behind its node. -/
theorem nodeMoves_queued (hmove : NodeMoves mayWait s s')
    (hqueued : s'.store.queuedBehindNode run = true) :
    s.store.queuedBehindNode run = true := by
  cases hmove with
  | @stop target thread outcome store' h =>
      obtain ⟨hothers, row, hrow, hcases⟩ := requestInteractionStop_ok h
      by_cases htarget : run = target
      · subst htarget
        rcases hcases with ⟨-, hinteractions, hwaits⟩ | ⟨-, row', hrow', hend⟩
        · exact queuedBehindNode_congr hinteractions hwaits ▸ hqueued
        · have hnot : store'.queuedBehindNode run = false := by
            refine not_queuedBehindNode hrow' ?_
            rcases hend with hstopped | ⟨hsubmitted, -⟩
            · simp [hstopped]
            · simp [hsubmitted]
          cases hnot.symm.trans hqueued
      · have hsame := hothers run htarget
        exact queuedBehindNode_congr hsame.1 hsame.2.2 ▸ hqueued
  | others h =>
      rcases h run with ⟨hinteractions, hwaits⟩ | ⟨-, hnot, -⟩
      · exact queuedBehindNode_congr hinteractions hwaits ▸ hqueued
      · cases hnot.symm.trans hqueued

/-- What a claim answers and leaves. -/
theorem claim_ok {claimed : Bool} (h : s.claim run = (.ok claimed, s')) :
    s.store.queuedBehindNode run = claimed ∧
      s'.store.queuedBehindNode run = false ∧
      (∀ other, other ≠ run →
        s'.store.queuedBehindNode other = s.store.queuedBehindNode other) ∧
      s'.store.capacityWaits = s.store.capacityWaits ∧
      s'.stops = s.stops ∧
      s'.claims = s.claims ++ if claimed then [run] else [] := by
  unfold QueueStore.claim at h
  split at h
  · simp at h
  · rename_i store' hcall
    obtain ⟨hqueued, hnot, hwaits, -, hothers⟩ := claimQueuedNodeRun_ok hcall
    obtain ⟨hclaimed, rfl⟩ := Prod.mk.inj h
    obtain rfl := Except.ok.inj hclaimed
    refine ⟨hqueued, hnot, fun other hother => ?_, hwaits, rfl, by simp⟩
    exact queuedBehindNode_congr (hothers other hother) (congrFun hwaits other)
  · rename_i store' hcall
    obtain ⟨hqueued, hnot, hwaits, -, hothers⟩ := claimQueuedNodeRun_ok hcall
    obtain ⟨hclaimed, rfl⟩ := Prod.mk.inj h
    obtain rfl := Except.ok.inj hclaimed
    refine ⟨hqueued, hnot, fun other hother => ?_, hwaits, rfl, by simp⟩
    exact queuedBehindNode_congr (hothers other hother) (congrFun hwaits other)

theorem claim_error {error : StorageError}
    (h : s.claim run = (.error error, s')) : s' = s := by
  unfold QueueStore.claim at h
  split at h
  · exact (Prod.mk.inj h).2.symm
  · simp at h
  · simp at h

/-- A claim makes no row wait behind its node. -/
theorem claim_queued {other : InteractionId}
    (hqueued : (s.claim run).2.store.queuedBehindNode other = true) :
    s.store.queuedBehindNode other = true := by
  cases hclaim : s.claim run with
  | mk answer s' =>
      rw [hclaim] at hqueued
      cases answer with
      | error error => rwa [claim_error hclaim] at hqueued
      | ok claimed =>
          obtain ⟨-, hnot, hothers, -⟩ := claim_ok hclaim
          by_cases hother : other = run
          · subst hother
            cases hnot.symm.trans hqueued
          · rwa [hothers other hother] at hqueued

/-- A call is served, lost, or reported failed after it took effect. -/
theorem nodeReplies {ambiguous : Bool} {c : NodeCall}
    {answer : Except StorageError (nodeInterface.Answer c)}
    (h : (nodeService ambiguous mayWait).Replies c s answer s') :
    QueueStore.serve c s = (answer, s') ∨
      ∃ error, answer = .error error ∧
        (s' = s ∨ (ambiguous = true ∧ s' = (QueueStore.serve c s).2)) := by
  rcases h with ⟨rfl, rfl⟩ | ⟨error, rfl, rfl | ⟨hambiguous, rfl⟩⟩
  · exact .inl rfl
  · exact .inr ⟨error, rfl, .inl rfl⟩
  · rcases hambiguous with hambiguous | hsame
    · exact .inr ⟨error, rfl, .inr ⟨hambiguous, rfl⟩⟩
    · exact .inr ⟨error, rfl, .inl hsame⟩

theorem moved_queued {ambiguous : Bool}
    (hmoved : (nodeService ambiguous mayWait).Moved s s')
    (hqueued : s'.store.queuedBehindNode run = true) :
    s.store.queuedBehindNode run = true := by
  induction hmoved with
  | refl => exact hqueued
  | tail _ hmove ih => exact ih (nodeMoves_queued hmove hqueued)

/-- However a claim ends, it makes no row wait behind its node. -/
theorem claimReplies_queued {ambiguous : Bool} {answer : StorageResult Bool}
    {other : InteractionId}
    (h : (nodeService ambiguous mayWait).Replies (.claimQueuedNodeRun run) s
      answer s')
    (hqueued : s'.store.queuedBehindNode other = true) :
    s.store.queuedBehindNode other = true := by
  rcases nodeReplies h with hserved | ⟨error, -, rfl | ⟨-, rfl⟩⟩
  · refine @claim_queued _ run _ ?_
    rwa [show s.claim run = (answer, s') from hserved]
  · exact hqueued
  · exact claim_queued hqueued

end Moves

/-! ## Joining -/

/-- The ways a run joins its node's queue. -/
inductive Joined (node : NodeState) (run : InteractionId)
    (position : Position) : Arrival → NodeState → Prop
  | again (holder : NodeHolder) :
      node.holder = some holder → holder.run = run →
      Joined node run position .held
        { node with
          holder := some { holder with admissions := holder.admissions + 1 } }
  | waits (holder : NodeHolder) :
      node.holder = some holder → holder.run ≠ run →
      node.waiting.waits run = true →
      Joined node run position .joined node
  | behind (holder : NodeHolder) :
      node.holder = some holder → holder.run ≠ run →
      node.waiting.waits run = false →
      Joined node run position .waiting
        { node with waiting := node.waiting.insert position ⟨run, false⟩ }
  | takes :
      node.holder = none →
      Joined node run position .held (node.taken run)

theorem joined_of_arriveLocked {node node' : NodeState} {run : InteractionId}
    {position : Position} {arrival : Arrival}
    (h : node.arriveLocked run position = (arrival, node')) :
    Joined node run position arrival node' := by
  unfold NodeState.arriveLocked at h
  split at h
  · rename_i holder hholder
    split at h
    · rename_i hrun
      obtain ⟨rfl, rfl⟩ := Prod.mk.inj h
      exact .again holder hholder hrun
    · rename_i hrun
      split at h
      · rename_i hwaits
        obtain ⟨rfl, rfl⟩ := Prod.mk.inj h
        exact .waits holder hholder hrun hwaits
      · rename_i hwaits
        obtain ⟨rfl, rfl⟩ := Prod.mk.inj h
        exact .behind holder hholder hrun (by simpa using hwaits)
  · rename_i hholder
    obtain ⟨rfl, rfl⟩ := Prod.mk.inj h
    exact .takes hholder

/-! ## Admitting -/

/-- What an admission does to its node. -/
inductive NodeAdmitted (node : NodeState) (run : InteractionId)
    (sequence : ℤ) (arrival : Option Arrival) :
    StorageResult NodeAdmission → NodeState → Prop
  | holds (holder : NodeHolder) :
      node.holder = some holder → holder.run = run →
      NodeAdmitted node run sequence arrival (.ok .start)
        { node with holder := some (holder.admitRun arrival) }
  | takes :
      node.holder = none →
      NodeAdmitted node run sequence arrival (.ok .start)
        (NodeState.taken { node with waiting := node.waiting.removeWaiter run }
          run)
  | waits (holder : NodeHolder) :
      node.holder = some holder → holder.run ≠ run →
      NodeAdmitted node run sequence arrival (.ok .waiting)
        { node with waiting := (node.enqueued run sequence).markReady run }
  | refused (holder : NodeHolder) :
      node.holder = some holder → holder.run ≠ run →
      NodeAdmitted node run sequence arrival (.ok .notQueued)
        { node with waiting := (node.enqueued run sequence).dropUnready run }
  | failed (holder : NodeHolder) (error : StorageError) :
      node.holder = some holder → holder.run ≠ run →
      NodeAdmitted node run sequence arrival (.error error)
        { node with waiting := node.unqueued run sequence }

section Admitting

variable {ambiguous : Bool} {mayWait : InteractionId → Prop}
  {node node' : NodeState} {run : InteractionId} {sequence : ℤ}
  {arrival : Option Arrival} {answer : StorageResult NodeAdmission}
  {s t : QueueStore} {passed : List QueueStore}

theorem nodeAdmitted_of_wait {holder : NodeHolder}
    (hholder : node.holder = some holder) (hother : holder.run ≠ run)
    (hrun : (nodeService ambiguous mayWait).Runs (node.admitToWait run sequence)
      s passed (answer, node') t) :
    NodeAdmitted node run sequence arrival answer node' := by
  have hdone : ∀ {answer₀ : StorageResult NodeAdmission} {node₀ : NodeState}
      {at' : QueueStore} {passed' : List QueueStore},
      (nodeService ambiguous mayWait).Runs (.done (answer₀, node₀)) at' passed'
        (answer, node') t → answer = answer₀ ∧ node' = node₀ := by
    intro answer₀ node₀ at' passed' hrun
    exact Prod.mk.inj hrun.of_done.1
  unfold NodeState.admitToWait at hrun
  obtain ⟨-, -, -, queued, after, passed₁, -, hrun, -⟩ := hrun.of_call
  cases queued with
  | error error =>
      obtain ⟨rfl, rfl⟩ := hdone hrun
      exact .failed holder error hholder hother
  | ok queued =>
      cases queued with
      | true =>
          obtain ⟨rfl, rfl⟩ := hdone hrun
          exact .waits holder hholder hother
      | false =>
          obtain ⟨-, -, -, current, after', passed₂, -, hrun, -⟩ := hrun.of_call
          cases current with
          | error error =>
              obtain ⟨rfl, rfl⟩ := hdone hrun
              exact .failed holder error hholder hother
          | ok current =>
              dsimp only at hrun
              split at hrun
              · obtain ⟨rfl, rfl⟩ := hdone hrun
                exact .waits holder hholder hother
              · obtain ⟨rfl, rfl⟩ := hdone hrun
                exact .refused holder hholder hother

theorem nodeAdmitted_of_runs
    (hrun : (nodeService ambiguous mayWait).Runs
      (node.admitRun run sequence arrival) s passed (answer, node') t) :
    NodeAdmitted node run sequence arrival answer node' := by
  unfold NodeState.admitRun at hrun
  split at hrun
  · rename_i holder hholder
    split at hrun
    · rename_i hheld
      obtain ⟨rfl, rfl⟩ := Prod.mk.inj hrun.of_done.1
      exact .holds holder hholder hheld
    · rename_i hother
      exact nodeAdmitted_of_wait hholder hother hrun
  · rename_i hholder
    obtain ⟨rfl, rfl⟩ := Prod.mk.inj hrun.of_done.1
    exact .takes hholder

end Admitting

/-! ## Releasing -/

/-- A ready run that no longer waits behind its node. -/
def LeftQueue (t : QueueStore) (place : Position × Waiter) : Prop :=
  place.2.ready = true ∧ t.store.queuedBehindNode place.2.run = false

/-- The ways a node is passed on: the first run behind the holder that is still
in the queue gets it. -/
inductive HandedOn (holder : NodeHolder) (places : List (Position × Waiter))
    (t : QueueStore) :
    StorageResult (Option InteractionId) → Option NodeState → Prop
  | freed :
      (∀ place ∈ places, LeftQueue t place) →
      HandedOn holder places t (.ok none) none
  | claimed (skipped rest : List (Position × Waiter)) (position : Position)
      (next : Waiter) (hrest : rest.Pairwise fun e f => e.1 < f.1) :
      places = skipped ++ (position, next) :: rest →
      (∀ place ∈ skipped, LeftQueue t place) →
      LeftQueue t (position, next) →
      HandedOn holder places t (.ok (some next.run))
        (some ⟨some ⟨next.run, 1, false⟩, ⟨rest, hrest⟩⟩)
  | promoted (skipped rest : List (Position × Waiter)) (position : Position)
      (next : Waiter) (hrest : rest.Pairwise fun e f => e.1 < f.1) :
      places = skipped ++ (position, next) :: rest →
      (∀ place ∈ skipped, LeftQueue t place) →
      next.ready = false →
      HandedOn holder places t (.ok none)
        (some ⟨some ⟨next.run, 1, true⟩, ⟨rest, hrest⟩⟩)
  | failed (skipped rest : List (Position × Waiter)) (error : StorageError)
      (hrest : rest.Pairwise fun e f => e.1 < f.1) :
      places = skipped ++ rest →
      (∀ place ∈ skipped, LeftQueue t place) →
      HandedOn holder places t (.error error)
        (some ⟨some holder, ⟨rest, hrest⟩⟩)

/-- The ways a release ends. -/
inductive NodeReleased (node : Option NodeState) (run : InteractionId)
    (t : QueueStore) :
    StorageResult (Option InteractionId) → Option NodeState → Prop
  | idle :
      (∀ state, node = some state →
        ∀ holder, state.holder = some holder → holder.run ≠ run) →
      NodeReleased node run t (.ok none) node
  | fewer (state : NodeState) (holder : NodeHolder) :
      node = some state → state.holder = some holder → holder.run = run →
      1 < holder.admissions →
      NodeReleased node run t (.ok none)
        (some { state with
          holder := some { holder with admissions := holder.admissions - 1 } })
  | last (state : NodeState) (holder : NodeHolder)
      (answer : StorageResult (Option InteractionId))
      (node' : Option NodeState) :
      node = some state → state.holder = some holder → holder.run = run →
      holder.admissions ≤ 1 →
      HandedOn holder state.waiting.entries t answer node' →
      NodeReleased node run t answer node'

section Releasing

variable {ambiguous : Bool} {mayWait : InteractionId → Prop}
  {holder : NodeHolder} {node node' : Option NodeState} {run : InteractionId}
  {answer : StorageResult (Option InteractionId)}
  {s t : QueueStore} {passed : List QueueStore}

theorem HandedOn.skip {place : Position × Waiter}
    {places : List (Position × Waiter)} (hleft : LeftQueue t place)
    (h : HandedOn holder places t answer node') :
    HandedOn holder (place :: places) t answer node' := by
  cases h with
  | freed hplaces => exact .freed (List.forall_mem_cons.mpr ⟨hleft, hplaces⟩)
  | claimed skipped rest position next hrest hplaces hskipped hnext =>
      exact .claimed (place :: skipped) rest position next hrest
        (by rw [hplaces, List.cons_append])
        (List.forall_mem_cons.mpr ⟨hleft, hskipped⟩) hnext
  | promoted skipped rest position next hrest hplaces hskipped hnext =>
      exact .promoted (place :: skipped) rest position next hrest
        (by rw [hplaces, List.cons_append])
        (List.forall_mem_cons.mpr ⟨hleft, hskipped⟩) hnext
  | failed skipped rest error hrest hplaces hskipped =>
      exact .failed (place :: skipped) rest error hrest
        (by rw [hplaces, List.cons_append])
        (List.forall_mem_cons.mpr ⟨hleft, hskipped⟩)

/-- No row waits behind its node after the walk that did not before. -/
theorem handedOn_of_runs {places : List (Position × Waiter)}
    {hsorted : places.Pairwise fun e f => e.1 < f.1}
    (hrun : (nodeService ambiguous mayWait).Runs
      (NodeState.passOn holder places hsorted) s passed (answer, node') t) :
    HandedOn holder places t answer node' ∧
      ∀ other, t.store.queuedBehindNode other = true →
        s.store.queuedBehindNode other = true := by
  induction places generalizing s passed with
  | nil =>
      unfold NodeState.passOn at hrun
      obtain ⟨hresult, hmoved⟩ := hrun.of_done
      obtain ⟨rfl, rfl⟩ := Prod.mk.inj hresult
      exact ⟨.freed (by simp), fun other => moved_queued hmoved⟩
  | cons place rest ih =>
      obtain ⟨position, waiter⟩ := place
      unfold NodeState.passOn at hrun
      dsimp only at hrun
      split at hrun
      · rename_i hready
        obtain ⟨at', hat, hmoved, claimed, after, passed', hsub, hrun, hreplies⟩ :=
          hrun.of_call
        have hback : ∀ other, after.store.queuedBehindNode other = true →
            s.store.queuedBehindNode other = true := fun other hqueued =>
          moved_queued hmoved (claimReplies_queued hreplies hqueued)
        cases claimed with
        | error error =>
            obtain ⟨hresult, hmoved'⟩ := hrun.of_done
            obtain ⟨rfl, rfl⟩ := Prod.mk.inj hresult
            exact ⟨.failed [] _ error hsorted rfl (by simp),
              fun other hqueued => hback other (moved_queued hmoved' hqueued)⟩
        | ok claimed =>
            have hserved : at'.claim waiter.run = (.ok claimed, after) := by
              rcases nodeReplies hreplies with hserved | ⟨error, herror, -⟩
              · exact hserved
              · cases herror
            have hgone : after.store.queuedBehindNode waiter.run = false :=
              (claim_ok hserved).2.1
            cases claimed with
            | true =>
                obtain ⟨hresult, hmoved'⟩ := hrun.of_done
                obtain ⟨rfl, rfl⟩ := Prod.mk.inj hresult
                refine ⟨.claimed [] rest position waiter _ rfl (by simp)
                  ⟨hready, ?_⟩, fun other hqueued =>
                    hback other (moved_queued hmoved' hqueued)⟩
                rw [← Bool.not_eq_true] at hgone ⊢
                exact fun hqueued => hgone (moved_queued hmoved' hqueued)
            | false =>
                obtain ⟨hhanded, hkept⟩ := ih hrun
                refine ⟨hhanded.skip ⟨hready, ?_⟩, fun other hqueued =>
                  hback other (hkept other hqueued)⟩
                rw [← Bool.not_eq_true] at hgone ⊢
                exact fun hqueued => hgone (hkept _ hqueued)
      · rename_i hready
        obtain ⟨hresult, hmoved⟩ := hrun.of_done
        obtain ⟨rfl, rfl⟩ := Prod.mk.inj hresult
        exact ⟨.promoted [] rest position waiter _ rfl (by simp)
          (by simpa using hready), fun other => moved_queued hmoved⟩

theorem nodeReleased_of_runs
    (hrun : (nodeService ambiguous mayWait).Runs (NodeState.release node run) s
      passed (answer, node') t) :
    NodeReleased node run t answer node' ∧
      ∀ other, t.store.queuedBehindNode other = true →
        s.store.queuedBehindNode other = true := by
  unfold NodeState.release at hrun
  cases node with
  | none =>
      obtain ⟨hresult, hmoved⟩ := hrun.of_done
      obtain ⟨rfl, rfl⟩ := Prod.mk.inj hresult
      exact ⟨.idle (by simp), fun other => moved_queued hmoved⟩
  | some state =>
      dsimp only at hrun
      split at hrun
      · rename_i hholder
        obtain ⟨hresult, hmoved⟩ := hrun.of_done
        obtain ⟨rfl, rfl⟩ := Prod.mk.inj hresult
        refine ⟨.idle ?_, fun other => moved_queued hmoved⟩
        intro state' hstate holder hsome
        obtain rfl := Option.some.inj hstate
        cases hholder.symm.trans hsome
      · rename_i holder hholder
        split at hrun
        · rename_i hheld
          split at hrun
          · rename_i hmore
            obtain ⟨hresult, hmoved⟩ := hrun.of_done
            obtain ⟨rfl, rfl⟩ := Prod.mk.inj hresult
            exact ⟨.fewer state holder rfl hholder hheld hmore,
              fun other => moved_queued hmoved⟩
          · rename_i hlast
            obtain ⟨hhanded, hkept⟩ := handedOn_of_runs hrun
            exact ⟨.last state holder answer node' rfl hholder hheld
              (by omega) hhanded, hkept⟩
        · rename_i hother
          obtain ⟨hresult, hmoved⟩ := hrun.of_done
          obtain ⟨rfl, rfl⟩ := Prod.mk.inj hresult
          refine ⟨.idle ?_, fun other => moved_queued hmoved⟩
          intro state' hstate holder' hsome
          obtain rfl := Option.some.inj hstate
          obtain rfl : holder = holder' := Option.some.inj (hholder.symm.trans hsome)
          exact hother

end Releasing

end RelayerGraph
