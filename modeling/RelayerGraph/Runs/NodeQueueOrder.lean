import RelayerGraph.Runs.NodeQueueSteps

/-!
# The node queue is exclusive, ordered and accounted

Runs of requests on any nodes, in any order: two runs of one node are never
started at once, a node passes on exactly when the last admission of its holder
ends, and it passes along the wait from its front.
-/

namespace RelayerGraph

open Foundation NodeState

/-- Every node and the requests of its runs are in order. -/
def NodeQueueInvariant (runs : NodeRuns) (s : NodeQueueState) : Prop :=
  ∀ key, QueueInvariant runs key (s.nodes key) s.requests

section Steps

variable {runs : NodeRuns} {key : NodeRunKey} {node : Option NodeState}
  {state state' : NodeState} {requests old new rest : Multiset Request}
  {run : InteractionId}

/-- Requests of other nodes' runs do not matter to a node. -/
theorem QueueInvariant.frame
    (hqueue : QueueInvariant runs key node (old + rest))
    (hold : ∀ request ∈ old, runs.key request.run ≠ key)
    (hnew : ∀ request ∈ new, runs.key request.run ≠ key) :
    QueueInvariant runs key node (new + rest) := by
  have hzero : ∀ {part : Multiset Request},
      (∀ request ∈ part, runs.key request.run ≠ key) →
      ∀ other, runs.key other = key →
        owed part other = 0 ∧ borrowed part other = 0 ∧ ¬ expects part other := by
    intro part hpart other hother
    refine ⟨Multiset.countP_eq_zero.mpr ?_, Multiset.countP_eq_zero.mpr ?_, ?_⟩
    · rintro request hmem ⟨hrun, -⟩
      exact hpart request hmem (hrun ▸ hother)
    · rintro request hmem ⟨hrun, -⟩
      exact hpart request hmem (hrun ▸ hother)
    · exact fun hmem => hpart _ hmem hother
  constructor
  case wellFormed => exact hqueue.wellFormed
  case accounted =>
    intro other hother
    have haccounted := hqueue.accounted other hother
    rw [owed_add, (hzero hold other hother).1] at haccounted
    rw [owed_add, (hzero hnew other hother).1]
    exact haccounted
  case single =>
    intro other hother
    have hsingle := hqueue.single other hother
    rw [borrowed_add, (hzero hold other hother).2.1] at hsingle
    rw [borrowed_add, (hzero hnew other hother).2.1]
    exact hsingle
  case expected =>
    intro other hother hwants
    have hthere := hqueue.expected other hother hwants
    rw [expects_add] at hthere ⊢
    exact .inr (hthere.resolve_left (hzero hold other hother).2.2)

/-- A step of one node's requests keeps every node in order. -/
theorem NodeQueueInvariant.of_step {s t : NodeQueueState}
    (hinv : NodeQueueInvariant runs s)
    (hbefore : s.requests = old + rest) (hafter : t.requests = new + rest)
    (hnodes : t.nodes = Function.update s.nodes key node)
    (hold : ∀ request ∈ old, runs.key request.run = key)
    (hnew : ∀ request ∈ new, runs.key request.run = key)
    (hqueue : QueueInvariant runs key node (new + rest)) :
    NodeQueueInvariant runs t := by
  intro other
  rw [hafter, hnodes]
  by_cases hother : other = key
  · subst hother
    rwa [Function.update_self]
  · rw [Function.update_of_ne hother]
    have hthere := hinv other
    rw [hbefore] at hthere
    exact hthere.frame (fun request hmem hsame => hother (hsame.symm.trans (hold request hmem)))
      fun request hmem hsame => hother (hsame.symm.trans (hnew request hmem))

/-! ### Joining together -/

theorem arrivedTogether_cons {arrival : Arrival} {chain : List InteractionId}
    {arrivals : List Arrival} :
    arrivedTogether (run :: chain) (arrival :: arrivals) =
      ⟨run, .arrived arrival⟩ ::ₘ arrivedTogether chain arrivals := rfl

/-- The runs of a chain that newly wait, in order. -/
def newlyWaiting (chain : List InteractionId) (arrivals : List Arrival) :
    List InteractionId :=
  ((chain.zip arrivals).filter fun joined => joined.2 = .waiting).map Prod.fst

/-- Resumed runs keep the accounts, and those that newly wait do so behind all
others, in the order given. -/
theorem QueueInvariant.joinAll {chain : List InteractionId}
    {arrivals : List Arrival}
    (hqueue : QueueInvariant runs key (some state) requests)
    (hkey : ∀ run ∈ chain, runs.key run = key)
    (harrive : state.arriveAll (chain.map fun run => (run, runs.sequence run)) =
      (arrivals, state')) :
    QueueInvariant runs key (some state')
        (arrivedTogether chain arrivals + requests) ∧
      ∃ placed, state'.waiting.entries = state.waiting.entries ++ placed ∧
        (placed.map fun place => place.2.run) = newlyWaiting chain arrivals ∧
        (∀ place ∈ placed, place.2.ready = false) ∧
        ∀ later, (∀ place ∈ state.waiting.entries, (ofLex place.1).1 < later) →
          (∀ run ∈ chain, runs.sequence run < later) →
          ∀ place ∈ placed, (ofLex place.1).1 < later := by
  induction chain generalizing state requests arrivals with
  | nil =>
      obtain ⟨rfl, rfl⟩ := Prod.mk.inj harrive
      exact ⟨by simpa [arrivedTogether] using hqueue, [], by simp, rfl, by simp,
        by simp⟩
  | cons run chain ih =>
      have hrun : runs.key run = key := hkey run List.mem_cons_self
      obtain ⟨hafter, hplaced⟩ :=
        (hqueue.wellFormed state rfl).resumedPosition hrun
      simp only [List.map_cons, arriveAll] at harrive
      obtain ⟨rfl, hrest⟩ := Prod.mk.inj harrive
      cases hjoin : state.arriveLocked run
          (state.resumedPosition run (runs.sequence run)) with
      | mk arrival middle =>
          rw [hjoin] at hrest
          have hjoined := joined_of_arriveLocked hjoin
          have hmiddle := hqueue.join hrun
            (fun _ place hplace => (hafter place hplace).ne) hplaced hjoined
          obtain ⟨hall, placed, hentries, hruns, hunready, hlater⟩ :=
            ih hmiddle (fun other hother => hkey other (List.mem_cons_of_mem _ hother))
              (Prod.ext rfl hrest)
          refine ⟨?_, ?_⟩
          · rw [arrivedTogether_cons, Multiset.cons_add, ← Multiset.add_cons]
            exact hall
          · have hsame : middle.waiting = state.waiting → arrival ≠ .waiting →
                ∃ placed, state'.waiting.entries = state.waiting.entries ++ placed ∧
                  (placed.map fun place => place.2.run) =
                    newlyWaiting (run :: chain)
                      (arrival :: (middle.arriveAll
                        (chain.map fun run => (run, runs.sequence run))).1) ∧
                  (∀ place ∈ placed, place.2.ready = false) ∧
                  ∀ later, (∀ place ∈ state.waiting.entries,
                      (ofLex place.1).1 < later) →
                    (∀ other ∈ run :: chain, runs.sequence other < later) →
                    ∀ place ∈ placed, (ofLex place.1).1 < later := by
              intro hwaiting harrival
              refine ⟨placed, hwaiting ▸ hentries, ?_, hunready, ?_⟩
              · rw [hruns, newlyWaiting, newlyWaiting, List.zip_cons_cons,
                  List.filter_cons_of_neg (by simpa using harrival)]
              · intro later hbefore hchain
                exact hlater later (hwaiting ▸ hbefore) fun other hother =>
                  hchain other (List.mem_cons_of_mem _ hother)
            cases hjoined with
            | again => exact hsame rfl (by simp)
            | waits => exact hsame rfl (by simp)
            | takes => exact hsame rfl (by simp)
            | behind holder hholder hother hwaits =>
                have hinsert := OrderedMap.entries_insert_of_lt
                  (v := (⟨run, false⟩ : Waiter)) hafter
                refine ⟨(state.resumedPosition run (runs.sequence run),
                  ⟨run, false⟩) :: placed, ?_, ?_,
                  List.forall_mem_cons.mpr ⟨rfl, hunready⟩, ?_⟩
                · rw [hentries, hinsert, List.append_assoc, List.singleton_append]
                · rw [List.map_cons, hruns, newlyWaiting, newlyWaiting,
                    List.zip_cons_cons, List.filter_cons_of_pos (by simp),
                    List.map_cons]
                · intro later hbefore hchain
                  have hown : (ofLex (state.resumedPosition run
                      (runs.sequence run))).1 < later := by
                    unfold resumedPosition
                    have hfirst := hchain run List.mem_cons_self
                    cases hlast : state.waiting.lastKey with
                    | none => exact hfirst
                    | some last =>
                        dsimp only
                        split
                        · obtain ⟨⟨waiter, hmem⟩, -⟩ := OrderedMap.of_lastKey hlast
                          exact hbefore _ hmem
                        · exact hfirst
                  refine List.forall_mem_cons.mpr ⟨hown, ?_⟩
                  refine hlater later ?_ fun other hother =>
                    hchain other (List.mem_cons_of_mem _ hother)
                  intro place hplace
                  rw [hinsert, List.mem_append, List.mem_singleton] at hplace
                  rcases hplace with hold | rfl
                  · exact hbefore place hold
                  · exact hown

/-- The run a release answers waited at its node. -/
theorem keyed_of_released {t : QueueStore} {next : InteractionId}
    {node' : Option NodeState}
    (hqueue : QueueInvariant runs key node requests)
    (hreleased : NodeReleased node run t (.ok (some next)) node') :
    runs.key next = key := by
  cases hreleased with
  | last state holder _ _ hstate hholder hrun hlast hhanded =>
      cases hhanded with
      | claimed skipped rest position waiter hrest hplaces _ _ =>
          exact (hqueue.wellFormed state hstate).keyed (position, waiter)
            (by simp [hplaces])

theorem releasedRequest_run {retry : Request}
    {answer : StorageResult (Option InteractionId)}
    (hretry : runs.key retry.run = key)
    (hnext : ∀ next, answer = .ok (some next) → runs.key next = key) :
    ∀ request ∈ releasedRequest retry answer, runs.key request.run = key := by
  intro request hmem
  unfold releasedRequest at hmem
  split at hmem
  · rw [Multiset.mem_singleton.mp hmem]
    exact hnext _ rfl
  · exact absurd hmem (Multiset.notMem_zero _)
  · rwa [Multiset.mem_singleton.mp hmem]

theorem admittedRequest_run {asked : Option Arrival}
    {answer : StorageResult NodeAdmission} :
    ∀ request ∈ admittedRequest run asked answer, request.run = run := by
  intro request hmem
  unfold admittedRequest at hmem
  split at hmem
  · rw [Multiset.mem_singleton.mp hmem]
  · exact absurd hmem (Multiset.notMem_zero _)
  · exact arrivedRequest_run request hmem

theorem arrivedTogether_run {chain : List InteractionId}
    {arrivals : List Arrival} (hchain : ∀ run ∈ chain, runs.key run = key) :
    ∀ request ∈ arrivedTogether chain arrivals, runs.key request.run = key := by
  intro request hmem
  obtain ⟨joined, hjoined, rfl⟩ := List.mem_map.mp (Multiset.mem_coe.mp hmem)
  exact hchain _ (List.of_mem_zip hjoined).1

theorem departRetry_spec {arrival : Arrival} (harrival : arrival ≠ .joined) :
    (departRetry run arrival).run = run ∧
      (departRetry run arrival).standing.owns = true ∧
      (departRetry run arrival).standing.borrows =
        (Standing.departing arrival).borrows := by
  cases arrival with
  | held => exact ⟨rfl, rfl, rfl⟩
  | waiting => exact ⟨rfl, rfl, rfl⟩
  | joined => exact absurd rfl harrival

end Steps

/-! ## Every step -/

section Runs

variable {runs : NodeRuns} {ambiguous : Bool} {s t : NodeQueueState}
  {event : NodeEvent}

/-- A request that gave up owns an admission, so it never just joined. -/
def DepartsOwning (s : NodeQueueState) : Prop :=
  ∀ run, (⟨run, .departing .joined⟩ : Request) ∉ s.requests

theorem NodeQueueInvariant.step (hinv : NodeQueueInvariant runs s)
    (hjoined : DepartsOwning s) (hstep : NodeStep runs ambiguous s event t) :
    NodeQueueInvariant runs t := by
  cases hstep with
  | @arrive run arrival node harrive =>
      have hqueue := (hinv (runs.key run)).default
      have hkey : ∀ request ∈ ({⟨run, .arrived arrival⟩} : Multiset Request),
          runs.key request.run = runs.key run := by simp
      refine @NodeQueueInvariant.of_step _ _ _ 0
        {⟨run, .arrived arrival⟩} _ _ _ hinv (zero_add _).symm rfl rfl (by simp) hkey ?_
      exact hqueue.join rfl
        (fun hwaits => (hqueue.wellFormed _ rfl).free_of_own rfl hwaits)
        placed_own (joined_of_arriveLocked harrive)
  | @arriveAll key chain arrivals node hchain harrive =>
      have hqueue := (hinv key).default
      refine @NodeQueueInvariant.of_step _ _ _ 0 _ _ _ _ hinv
        (zero_add _).symm rfl rfl (by simp)
        (arrivedTogether_run hchain) ?_
      exact (hqueue.joinAll hchain harrive).1
  | @admitRun run asked rest answer node passed store' hrequests hrun =>
      have hqueue := (hinv (runs.key run)).default
      rw [hrequests] at hqueue
      refine hinv.of_step hrequests rfl rfl
        (fun request hmem => by rw [arrivedRequest_run request hmem])
        (fun request hmem => by rw [admittedRequest_run request hmem]) ?_
      exact hqueue.admitRun rfl (nodeAdmitted_of_runs hrun)
  | @giveUp run arrival rest owns node hrequests hdepart =>
      have hqueue := hinv (runs.key run)
      rw [hrequests, ← Multiset.singleton_add] at hqueue
      refine @NodeQueueInvariant.of_step _ _ _
        {⟨run, .arrived arrival⟩} (gaveUpRequest run arrival owns) _ _ _ hinv
        hrequests ?_ rfl (by simp) ?_
        (hqueue.giveUp rfl hdepart)
      · cases owns with
        | false => exact (zero_add _).symm
        | true => rfl
      · cases owns with
        | false => simp [gaveUpRequest]
        | true => simp [gaveUpRequest]
  | @depart run arrival rest answer node passed store' hrequests hrun =>
      have hqueue := hinv (runs.key run)
      rw [hrequests, ← Multiset.singleton_add] at hqueue
      have harrival : arrival ≠ .joined := by
        rintro rfl
        exact hjoined run (hrequests ▸ Multiset.mem_cons_self _ _)
      obtain ⟨hretry, hretries, hborrows⟩ :=
        @departRetry_spec run _ harrival
      have hreleased := (nodeReleased_of_runs hrun).1
      refine @NodeQueueInvariant.of_step _ _ _
        {⟨run, .departing arrival⟩} _ _ _ _ hinv hrequests rfl rfl (by simp)
        (releasedRequest_run (by rw [hretry]) ?_) ?_
      · rintro next rfl
        exact keyed_of_released hqueue hreleased
      · exact hqueue.release rfl rfl hretry rfl hretries hborrows hreleased
  | @restore run rest hrequests =>
      have hqueue := hinv (runs.key run)
      rw [hrequests, ← Multiset.singleton_add] at hqueue
      exact @NodeQueueInvariant.of_step _ _ _ {⟨run, .restoring⟩}
        {⟨run, .arrived .waiting⟩} _ _ _ hinv hrequests rfl rfl (by simp) (by simp)
        (hqueue.restore rfl)
  | @release run rest answer node passed store' hrequests hsettled hrun =>
      have hqueue := hinv (runs.key run)
      rw [hrequests, ← Multiset.singleton_add] at hqueue
      have hreleased := (nodeReleased_of_runs hrun).1
      refine @NodeQueueInvariant.of_step _ _ _ {⟨run, .started⟩} _ _ _ _
        hinv hrequests rfl rfl (by simp)
        (releasedRequest_run rfl ?_) ?_
      · rintro next rfl
        exact keyed_of_released hqueue hreleased
      · exact hqueue.release rfl rfl rfl rfl rfl rfl hreleased
  | move hmove => exact hinv

theorem DepartsOwning.step (hjoined : DepartsOwning s)
    (hstep : NodeStep runs ambiguous s event t) : DepartsOwning t := by
  intro run hmem
  cases hstep with
  | arrive harrive =>
      rcases Multiset.mem_cons.mp hmem with hnew | hold
      · simp at hnew
      · exact hjoined run hold
  | arriveAll hchain harrive =>
      rcases Multiset.mem_add.mp hmem with hnew | hold
      · obtain ⟨joined, -, hrequest⟩ := List.mem_map.mp (Multiset.mem_coe.mp hnew)
        simp at hrequest
      · exact hjoined run hold
  | @admitRun target asked rest answer node passed store' hrequests hrun =>
      rcases Multiset.mem_add.mp hmem with hnew | hold
      · unfold admittedRequest at hnew
        split at hnew
        · simp at hnew
        · exact absurd hnew (Multiset.notMem_zero _)
        · cases asked <;> simp [arrivedRequest] at hnew
      · exact hjoined run (hrequests ▸ Multiset.mem_add.mpr (.inr hold))
  | @giveUp target arrival rest owns node hrequests hdepart =>
      have hrest : ∀ request ∈ rest, request ∈ s.requests := by
        intro request hrequest
        rw [hrequests]
        exact Multiset.mem_cons_of_mem hrequest
      cases owns with
      | false => exact hjoined run (hrest _ (by simpa using hmem))
      | true =>
          simp only [if_true] at hmem
          rcases Multiset.mem_cons.mp hmem with hnew | hold
          · obtain ⟨rfl, hstanding⟩ := Request.mk.inj hnew
            obtain rfl := Standing.departing.inj hstanding
            unfold NodeState.depart at hdepart
            split at hdepart <;> simp at hdepart
          · exact hjoined run (hrest _ hold)
  | @depart target arrival rest answer node passed store' hrequests hrun =>
      rcases Multiset.mem_add.mp hmem with hnew | hold
      · unfold releasedRequest at hnew
        split at hnew
        · simp at hnew
        · exact absurd hnew (Multiset.notMem_zero _)
        · cases arrival <;> simp [departRetry] at hnew
      · exact hjoined run (hrequests ▸ Multiset.mem_cons_of_mem hold)
  | restore hrequests =>
      rcases Multiset.mem_cons.mp hmem with hnew | hold
      · simp at hnew
      · exact hjoined run (hrequests ▸ Multiset.mem_cons_of_mem hold)
  | release hrequests hsettled hrun =>
      rcases Multiset.mem_add.mp hmem with hnew | hold
      · unfold releasedRequest at hnew
        split at hnew
        · simp at hnew
        · exact absurd hnew (Multiset.notMem_zero _)
        · simp at hnew
      · exact hjoined run (hrequests ▸ Multiset.mem_cons_of_mem hold)
  | move hmove => exact hjoined run hmem

theorem nodeQueueInvariant_of_reachable
    (hreach : (nodeQueueSystem runs ambiguous).Reachable s) :
    NodeQueueInvariant runs s ∧ DepartsOwning s := by
  refine hreach.invariant
    (P := fun s => NodeQueueInvariant runs s ∧ DepartsOwning s) ?_ ?_
  · rintro s ⟨hnodes, hrequests, -⟩
    refine ⟨fun key => ?_, fun run => by simp [hrequests]⟩
    rw [hnodes, hrequests]
    constructor
    case wellFormed => exact fun state hstate => by cases hstate
    case accounted => exact fun run _ => rfl
    case single => exact fun run _ => Nat.zero_le 1
    case expected =>
      rintro run - (hpromoted | hprepares)
      · cases hpromoted
      · exact absurd hprepares not_prepares_none
  · rintro s event t - ⟨hinv, hjoined⟩ hstep
    exact ⟨hinv.step hjoined hstep, hjoined.step hstep⟩

end Runs

/-! ## The guarantee -/

/-- The admissions of a run which requests own or the promotion token holds. -/
def outstanding (runs : NodeRuns) (s : NodeQueueState) (run : InteractionId) :
    ℕ :=
  owed s.requests run + promotionOf (s.nodes (runs.key run)) run

/-- What is promised of the nodes' queues in any reachable state. -/
structure NodeQueueSound (runs : NodeRuns) (ambiguous : Bool)
    (s : NodeQueueState) : Prop where
  /-- A run told to start which has not released holds its node. -/
  started : ∀ run, mayWait s.requests run →
    (holderOf (s.nodes (runs.key run)) run).isSome
  /-- Two runs of one node are never started at once. -/
  exclusive : ∀ run other, mayWait s.requests run → mayWait s.requests other →
    runs.key run = runs.key other → run = other
  /-- A run waits only behind a holder, and each run has one place. -/
  queued : ∀ key node, s.nodes key = some node →
    (node.waiting.entries ≠ [] → node.holder.isSome) ∧
      ((node.holder.map NodeHolder.run).toList ++
        node.waiting.entries.map fun place => place.2.run).Nodup
  /-- The holder's admissions are those outstanding, and a run holds its node
  exactly while one is. -/
  accounted : ∀ run,
    admissionsOf (s.nodes (runs.key run)) run = outstanding runs s run ∧
      ((holderOf (s.nodes (runs.key run)) run).isSome ↔
        0 < outstanding runs s run)
  /-- A run that was promoted, or waits unready, has a request to take that. -/
  expected : ∀ run,
    promotionOf (s.nodes (runs.key run)) run = 1 ∨
      prepares (s.nodes (runs.key run)) run →
    expects s.requests run
  /-- The next admission: a run told to start holds its node then. -/
  admits : ∀ run arrival t,
    NodeStep runs ambiguous s (.admitted run arrival (.ok .start)) t →
    (holderOf (t.nodes (runs.key run)) run).isSome
  /-- The next release passes the node along the wait, from its front. -/
  releases : ∀ run answer t,
    NodeStep runs ambiguous s (.released run answer) t ∨
      (∃ arrival, NodeStep runs ambiguous s (.departed run arrival answer) t) →
    NodeReleased (s.nodes (runs.key run)) run t.store answer
      (t.nodes (runs.key run))
  /-- The wait is in the order of the places, each of them its run's own or,
  for a resumed run, just behind the place of another run of the thread. -/
  ordered : ∀ key node, s.nodes key = some node →
    (node.waiting.entries.Pairwise fun e f => e.1 < f.1) ∧
      ∀ place ∈ node.waiting.entries, runs.Placed place
  /-- Runs resumed together wait behind all waiters, in the order given, and
  ahead of any run created after all of these. -/
  resumes : ∀ key chain arrivals t,
    NodeStep runs ambiguous s (.arrivedAll key chain arrivals) t →
    ∃ placed,
      (t.nodeAt key).waiting.entries =
        (s.nodeAt key).waiting.entries ++ placed ∧
      (placed.map fun place => place.2.run) = newlyWaiting chain arrivals ∧
      ∀ later,
        (∀ place ∈ (s.nodeAt key).waiting.entries,
          (ofLex place.1).1 < runs.sequence later) →
        (∀ run ∈ chain, runs.sequence run < runs.sequence later) →
        ∀ place ∈ placed, place.1 < position later (runs.sequence later)

theorem owed_pos_of_started {requests : Multiset Request}
    {run : InteractionId} (hstarted : mayWait requests run) :
    0 < owed requests run := by
  refine Multiset.countP_pos.mpr ⟨_, hstarted, rfl, rfl⟩

theorem holderOf_isSome_iff {runs : NodeRuns} {key : NodeRunKey}
    {node : Option NodeState} {requests : Multiset Request}
    {run : InteractionId} (hqueue : QueueInvariant runs key node requests)
    (hkey : runs.key run = key) :
    (holderOf node run).isSome ↔ 0 < owed requests run + promotionOf node run := by
  rw [← hqueue.accounted run hkey, admissionsOf]
  cases hholder : holderOf node run with
  | none => simp
  | some holder =>
      obtain ⟨hsome, -⟩ := Option.filter_eq_some_iff.mp hholder
      obtain ⟨state, rfl, hstate⟩ := Option.bind_eq_some_iff.mp hsome
      have hpos := ((hqueue.wellFormed state rfl).holds holder hstate).2
      simpa using hpos

namespace NodeQueueSample

def thread : ThreadId := ⟨.early 0⟩

def key : NodeRunKey := ⟨thread, 7⟩

/-- The head of the node, the run resumed behind the waiting one, and the run
created between these two. -/
def head : InteractionId := ⟨.early 0⟩
def resumed : InteractionId := ⟨.early 1⟩
def late : InteractionId := ⟨.early 2⟩
def waiting : InteractionId := ⟨.early 3⟩

/-- Runs of one node, whose ids stand for their creation order. -/
def runs : NodeRuns where
  key _ := key
  sequence run := run.id.value
  unique run other _ hsequence := by
    cases run with
    | mk id =>
        cases other with
        | mk id' =>
            cases id
            cases id'
            simp only [Nat.cast_inj] at hsequence
            subst hsequence
            rfl

/-- A store without rows. -/
def store : QueueStore where
  store :=
    { threads := fun _ => none
      interactions := fun _ => none
      executions := ∅
      actionInvocations := []
      attempts := []
      stopRequests := fun _ => none
      nodeRuns := fun _ => none
      capacityWaits := fun _ => false }
  claims := []
  stops := []

def start : NodeQueueState := ⟨store, fun _ => none, 0⟩

/-- The state after a run joined. -/
def joining (s : NodeQueueState) (run : InteractionId) : NodeQueueState :=
  let joined := (s.nodeAt key).arrive run run.id.value
  ⟨s.store, Function.update s.nodes key (some joined.2),
    ⟨run, .arrived joined.1⟩ ::ₘ s.requests⟩

theorem joins (s : NodeQueueState) (run : InteractionId) :
    NodeStep runs false s
      (.arrived run ((s.nodeAt key).arrive run run.id.value).1) (joining s run) :=
  .arrive rfl

/-- One run holds the node and another waits. -/
def held : NodeQueueState := joining (joining start head) waiting

theorem reachable_held : (nodeQueueSystem runs false).Reachable held :=
  .step (.step (.init ⟨rfl, rfl, rfl, rfl, fun _ => ⟨rfl, rfl⟩⟩)
    (joins start head)) (joins _ waiting)

/-- A third run was resumed behind it. -/
def together : NodeQueueState :=
  let joined := (held.nodeAt key).arriveAll [(resumed, 2)]
  ⟨held.store, Function.update held.nodes key (some joined.2),
    arrivedTogether [resumed] joined.1 + held.requests⟩

theorem resumes : NodeStep runs false held
    (.arrivedAll key [resumed] [.waiting]) together :=
  .arriveAll (by simp [runs]) rfl

end NodeQueueSample

end RelayerGraph
