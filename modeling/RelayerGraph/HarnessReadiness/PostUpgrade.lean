import RelayerGraph.HarnessReadiness.Coordinator

/-!
# Interleaved readiness evaluations

The steps of the coordinator under one label each, and the evaluation that a
start runs once after an upgrade.  The latter awaits its own questions before
it calls `evaluate`, and any other step may come in between.
-/

namespace RelayerGraph

open Foundation

namespace HarnessReadiness

variable (setup : Setup)

/-! ## Steps of the coordinator -/

inductive Label
  | evaluate (request : EvaluationRequest)
  | recipePrepared (generation : ℕ) (recipeId : String) (answer : Preparation)
  | resume (key : ℕ × String)
  | checkFinished (key : ℕ × String) (answer : CheckAnswer)
  | diagnosticWritten (key : ℕ × String)
  | takeTurn
  | publicationAnswered (answer : Coordinator.PublicationAnswer)
  | publicationSettled (key : ℕ × String)
  | conclude (generation : ℕ)
  /-- A signal fires: of a route, of an evaluation or of a shutdown. -/
  | abort (signal : SignalId)
  /-- A route is no longer current. -/
  | lapse (lifecycle : LifecycleId)
  deriving DecidableEq

namespace Coordinator

def next (c : Coordinator) : Label → Option Coordinator
  | .evaluate request => some (c.evaluate setup request)
  | .recipePrepared generation recipeId answer =>
      c.recipePrepared generation recipeId answer
  | .resume key => c.resume setup key
  | .checkFinished key answer => c.checkFinished setup key answer
  | .diagnosticWritten key => c.diagnosticWritten key
  | .takeTurn => c.takeTurn setup
  | .publicationAnswered answer => c.publicationAnswered answer
  | .publicationSettled key => c.publicationSettled key
  | .conclude generation => c.conclude generation
  | .abort signal => some { c with aborted := signal :: c.aborted }
  | .lapse lifecycle => some { c with lapsed := lifecycle :: c.lapsed }

end Coordinator

/-! ## The evaluation after an upgrade -/

/-- `recipeUpdateTargets` on its way through the configurations. -/
structure TargetSearch where
  due : List String
  providers : List Route
  rest : List Configuration
  harnessIds : List String
  recipeIds : List String
  deriving DecidableEq

def TargetSearch.start (due : List String) (providers : List Route) :
    TargetSearch :=
  ⟨due, providers, setup.configurations, [], []⟩

/-- The next configuration, by whether its recipe is installed and, where that
is asked, supported. -/
def TargetSearch.examine (search : TargetSearch) (c : Coordinator)
    (recipeUpdates : List String) (installed supported : Bool) :
    Option TargetSearch :=
  match search.rest with
  | [] => none
  | configuration :: rest =>
      let recipeId := setup.runtimeRequirements configuration.implementation
      let wanted := search.due.contains configuration.name ||
        recipeId.any recipeUpdates.contains
      let usable := recipeId.isNone || installed ||
        (!(c.routeProviders setup configuration search.providers).isEmpty &&
          supported)
      if wanted && usable then
        some { search with
          rest := rest
          harnessIds := search.harnessIds ++ [configuration.name]
          recipeIds := search.recipeIds ++
            recipeId.toList.filter fun id => !search.recipeIds.contains id }
      else some { search with rest := rest }

/-- What `startPostUpgradeReadiness` awaits. -/
inductive PostUpgradePhase
  | updatesDue
  | targets (search : TargetSearch)
  | repairProviders (mark : ℕ)
  | updatesStillDue (settled : List String)
  | routes (due settled : List String)
  | selection (search : TargetSearch) (settled : List String)
  | evaluation
  | ended
  deriving DecidableEq

structure PostUpgrade where
  /-- The signal that `stop` fires. -/
  signal : SignalId
  recipeUpdates : List String
  repairs : Bool
  phase : PostUpgradePhase
  deriving DecidableEq

inductive PostUpgradeAnswer
  | due (harnessIds : List String)
  | target (installed supported : Bool)
  | targeted
  | repaired
  | routes (routes : List Route)
  | returned
  /-- What it awaits rejects. -/
  | failed
  deriving DecidableEq

/-- The next phase, unless the step was stopped while it waited. -/
def PostUpgrade.unlessStopped (post : PostUpgrade) (c : Coordinator)
    (phase : PostUpgradePhase) : PostUpgradePhase :=
  if c.fired (some post.signal) then .ended else phase

/-- The phase an answer leads to, with the evaluation it calls. -/
def PostUpgrade.answer (post : PostUpgrade) (c : Coordinator) :
    PostUpgradePhase → PostUpgradeAnswer →
      Option (PostUpgradePhase × Option EvaluationRequest)
  | .updatesDue, .due due =>
      some (post.unlessStopped c
        (if post.repairs then .targets (.start setup due [])
        else .routes due []), none)
  | .targets search, .target installed supported => do
      let search ← search.examine setup c post.recipeUpdates installed supported
      some (.targets search, none)
  | .targets search, .targeted =>
      if search.rest ≠ [] then none
      else if search.recipeIds = [] then
        some (post.unlessStopped c (.routes search.due []), none)
      else some (post.unlessStopped c (.repairProviders c.publicationMark), none)
  | .repairProviders mark, .repaired =>
      some (.updatesStillDue (c.publishedSince mark), none)
  | .updatesStillDue settled, .due due =>
      some (post.unlessStopped c (.routes due settled), none)
  | .routes due settled, .routes providers =>
      some (post.unlessStopped c
        (.selection (.start setup due providers) settled), none)
  | .selection search settled, .target installed supported => do
      let search ← search.examine setup c post.recipeUpdates installed supported
      some (.selection search settled, none)
  | .selection search settled, .targeted =>
      let harnessIds := search.harnessIds.filter fun id => !settled.contains id
      if search.rest ≠ [] then none
      else if harnessIds = [] then some (.ended, none)
      else some (.evaluation, some
        { trigger := "recipe-update"
          source := .providers search.providers
          harnessIds := some harnessIds
          signal := some post.signal })
  | .evaluation, .returned => some (.ended, none)
  | .ended, _ => none
  | _, .failed => some (.ended, none)
  | _, _ => none

/-! ## The system -/

/-- The coordinator among the evaluations that starts run after an upgrade. -/
structure ReadinessState where
  coordinator : Coordinator
  posts : Keyed ℕ PostUpgrade
  deriving DecidableEq

inductive ReadinessLabel
  | coordinator (label : Label)
  | startPostUpgrade (id : ℕ) (signal : SignalId) (recipeUpdates : List String)
      (repairs : Bool)
  | postUpgrade (id : ℕ) (answer : PostUpgradeAnswer)
  deriving DecidableEq

def ReadinessState.next (s : ReadinessState) :
    ReadinessLabel → Option ReadinessState
  | .coordinator label => do
      let coordinator ← s.coordinator.next setup label
      some { s with coordinator := coordinator }
  | .startPostUpgrade id signal recipeUpdates repairs =>
      if (s.posts.get? id).isSome then none
      else some { s with
        posts := s.posts.put id ⟨signal, recipeUpdates, repairs, .updatesDue⟩ }
  | .postUpgrade id answer => do
      let post ← s.posts.get? id
      let (phase, request) ← post.answer setup s.coordinator post.phase answer
      some
        { coordinator := request.elim s.coordinator (s.coordinator.evaluate setup)
          posts := s.posts.put id { post with phase := phase } }

/-- A process starts with no evaluation, among any signals that have fired. -/
def readinessSystem : TransitionSystem ReadinessState ReadinessLabel where
  init s := ∃ aborted lapsed,
    s = ⟨.create aborted lapsed, .empty⟩
  step s label t := s.next setup label = some t

end HarnessReadiness

end RelayerGraph
