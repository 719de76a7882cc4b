import RelayerGraph.Foundation.Keyed
import RelayerGraph.Foundation.TransitionSystem

/-!
# The harness readiness coordinator

Evaluations of harness configurations against provider routes.  An evaluation
runs to its first wait in one step; after it every continuation of a promise
is a step of its own, so that any number of evaluations, aborts and lapsed
routes interleave.  What the environment answers (a preparation, a check, a
diagnostic, a publication) comes with the step that takes the answer.

The state keeps the evaluations that have ended, and a journal of the checks
that finished and of the results published, in their order.
-/

namespace RelayerGraph

open Foundation

namespace HarnessReadiness

/-! ## Configurations and routes -/

/-- The name of an abort signal. -/
abbrev SignalId := ℕ

/-- The name of the lifecycle fact that the `isCurrent` of a route reads. -/
abbrev LifecycleId := ℕ

structure ModelRule where
  adapterId : String
  modelIdExact : Option String
  modelIdRegex : Option String
  deriving DecidableEq

structure ModelRules where
  allow : List ModelRule
  deny : List ModelRule
  deriving DecidableEq

structure Configuration where
  name : String
  implementation : String
  executionAccessContracts : Option (List String)
  modelRules : Option ModelRules
  deriving DecidableEq

structure ProviderDefinition where
  id : String
  adapterId : String
  accessContract : String
  deriving DecidableEq

structure ProviderModel where
  id : String
  visible : Option Bool
  available : Option Bool
  availability : Option String
  deriving DecidableEq

structure Route where
  providerDefinition : ProviderDefinition
  models : List ProviderModel
  connectionGeneration : Option ℕ
  signal : Option SignalId
  isCurrent : Option LifecycleId
  deriving DecidableEq

/-- What the coordinator is created with. -/
structure Setup where
  configurations : List Configuration
  names : (configurations.map Configuration.name).Nodup
  digestConfiguration : Configuration → String
  /-- The recipe that an implementation requires. -/
  runtimeRequirements : String → Option String
  /-- Whether a pattern of a rule matches a model. -/
  regexTest : String → String → Bool

variable (setup : Setup)

def Setup.configuration? (name : String) : Option Configuration :=
  setup.configurations.find? fun configuration => configuration.name = name

def ruleMatches (rule : ModelRule) (adapterId modelId : String) : Bool :=
  if rule.adapterId ≠ adapterId then false
  else match rule.modelIdExact with
    | some exact_ => decide (exact_ = modelId)
    | none => rule.modelIdRegex.any fun pattern => setup.regexTest pattern modelId

def harnessAllowsModel (rules : Option ModelRules) (adapterId modelId : String) :
    Bool :=
  match rules with
  | none => true
  | some rules =>
      if rules.deny.any fun rule => ruleMatches setup rule adapterId modelId then
        false
      else
        rules.allow.isEmpty ||
          rules.allow.any fun rule => ruleMatches setup rule adapterId modelId

def modelAvailable (model : ProviderModel) : Bool :=
  decide (model.visible ≠ some false ∧ model.available ≠ some false ∧
    model.availability ≠ some "unavailable")

/-- The models of a route that the rules of a configuration allow now. -/
def routeModels (configuration : Configuration) (route : Route) :
    List ProviderModel :=
  route.models.filter fun model =>
    modelAvailable model && harnessAllowsModel setup configuration.modelRules
      route.providerDefinition.adapterId model.id

/-! ## Results -/

structure UnavailableReason where
  code : String
  message : String
  deriving DecidableEq

/-- `/^[A-Za-z0-9_.-]{1,64}$/`. -/
def isReasonCode (code : String) : Bool :=
  decide (0 < code.length ∧ code.length ≤ 64) && code.toList.all fun c =>
    c.isAlphanum || c = '_' || c = '.' || c = '-'

/-- The reason an error leaves, by its `code`. -/
def unavailableReason (code : Option String) : UnavailableReason where
  code := (code.filter isReasonCode).getD "harness_readiness_failed"
  message := "This execution configuration is currently unavailable."

/-- What a readiness checker answers: a result, or an error with its code.  An
answer that is no result is an error without one. -/
inductive CheckAnswer
  | result (available : Bool) (reason : Option UnavailableReason)
  | failed (code : Option String)
  deriving DecidableEq

/-- A provider that authorizes a published result. -/
structure ProviderConnection where
  providerId : String
  generation : ℕ
  modelIds : List String
  deriving DecidableEq

structure HarnessResult where
  harnessId : String
  configurationDigest : String
  generation : ℕ
  available : Bool
  unavailableReason : Option UnavailableReason
  deriving DecidableEq

structure HarnessUpdate where
  result : HarnessResult
  providerConnections : Option (List ProviderConnection)
  deriving DecidableEq

/-! ## The state -/

/-- A shared preparation of one evaluation. -/
inductive Preparation
  | running
  | prepared
  | failed (code : Option String)
  deriving DecidableEq

/-- What the promise of one harness of an evaluation resolves to. -/
inductive Outcome
  | skipped
  | published (update : HarnessUpdate)
  | failed
  deriving DecidableEq

/-- Where one harness of an evaluation waits. -/
inductive Task
  | preparing
  | checking
  | reporting (result : HarnessResult)
  | queued (result : HarnessResult)
  | publishing (update : HarnessUpdate)
  | settled (outcome : Outcome)
  | ended (outcome : Outcome)
  deriving DecidableEq

/-- One harness of an evaluation, with the routes that made it eligible. -/
structure Candidate where
  routes : List Route
  task : Task
  deriving DecidableEq

inductive EvaluationReply
  | results (updates : List HarnessUpdate)
  | failed
  deriving DecidableEq

structure Evaluation where
  trigger : String
  signal : Option SignalId
  recipes : Keyed String Preparation
  /-- What the call returned, once it has ended. -/
  reply : Option EvaluationReply
  deriving DecidableEq

/-- The owner of a visible preparation. -/
structure Preparing where
  routes : List Route
  signal : Option SignalId
  generation : ℕ
  deriving DecidableEq

inductive ReadinessEvent
  /-- The check of a harness finished, whatever its answer. -/
  | checked (generation : ℕ) (harnessId : String)
  | published (update : HarnessUpdate)
  | accepted (generation : ℕ) (harnessId : String)
  | refused (generation : ℕ) (harnessId : String)
  deriving DecidableEq

structure Coordinator where
  /-- The signals that have fired. -/
  aborted : List SignalId
  /-- The lifecycle facts that no longer hold. -/
  lapsed : List LifecycleId
  generation : ℕ
  harnessGenerations : Keyed String ℕ
  publishedGenerations : Keyed String ℕ
  preparing : Keyed String Preparing
  evaluations : Keyed ℕ Evaluation
  candidates : Keyed (ℕ × String) Candidate
  /-- The publications chained behind the one in flight, oldest first. -/
  publication : List (ℕ × String)
  inFlight : Option (ℕ × String)
  journal : List ReadinessEvent
  deriving DecidableEq

namespace Coordinator

/-- The coordinator as it is created, among the signals fired so far. -/
def create (aborted : List SignalId) (lapsed : List LifecycleId) : Coordinator where
  aborted := aborted
  lapsed := lapsed
  generation := 0
  harnessGenerations := .empty
  publishedGenerations := .empty
  preparing := .empty
  evaluations := .empty
  candidates := .empty
  publication := []
  inFlight := none
  journal := []

variable (c : Coordinator)

/-! ## What is current -/

def fired (signal : Option SignalId) : Bool :=
  signal.any fun signal => decide (signal ∈ c.aborted)

def routeCurrent (route : Route) : Bool :=
  !c.fired route.signal &&
    !route.isCurrent.any fun lifecycle => decide (lifecycle ∈ c.lapsed)

/-- `isCurrent` of a route guard. -/
def guardCurrent (routes : List Route) (signal : Option SignalId) : Bool :=
  !c.fired signal && routes.any c.routeCurrent

/-- The harness belongs to the evaluation, and its guard is current. -/
def current (generation : ℕ) (harnessId : String) (routes : List Route)
    (signal : Option SignalId) : Bool :=
  decide (c.harnessGenerations.get? harnessId = some generation) &&
    c.guardCurrent routes signal

def isPreparingForProvider (providerId : String) : Bool :=
  c.preparing.rows.any fun owner =>
    c.current owner.2.generation owner.1 owner.2.routes owner.2.signal &&
      owner.2.routes.any fun route =>
        decide (route.providerDefinition.id = providerId) && c.routeCurrent route

def routeProviders (configuration : Configuration) (providers : List Route) :
    List Route :=
  providers.filter fun route => c.routeCurrent route &&
    configuration.executionAccessContracts.any
      (·.contains route.providerDefinition.accessContract) &&
    !(routeModels setup configuration route).isEmpty

end Coordinator

/-! ## Evaluations -/

def readinessTriggers : List String :=
  ["connect", "reconnect", "explicit-repair", "recipe-update"]

/-- The routes an evaluation is called with: one provider with its models, or
routes that carry their own signals. -/
inductive EvaluationRoutes
  | provider (definition : ProviderDefinition) (models : List ProviderModel)
  | providers (routes : List Route)
  deriving DecidableEq

def EvaluationRoutes.routes : EvaluationRoutes → List Route
  | .provider definition models => [⟨definition, models, none, none, none⟩]
  | .providers routes => routes

structure EvaluationRequest where
  trigger : String
  source : EvaluationRoutes
  harnessIds : Option (List String)
  signal : Option SignalId
  deriving DecidableEq

namespace Coordinator

variable (c : Coordinator)

/-- The configurations an evaluation takes up, each with its eligible routes. -/
def evaluationCandidates (request : EvaluationRequest) :
    List (Configuration × List Route) :=
  (setup.configurations.filter fun configuration =>
    request.harnessIds.all fun named => named.contains configuration.name).filterMap
      fun configuration =>
        match c.routeProviders setup configuration request.source.routes with
        | [] => none
        | route :: rest => some (configuration, route :: rest)

/-- The recipes of the candidates, each with the routes of its consumers. -/
def recipeRoutes (candidates : List (Configuration × List Route)) :
    Keyed String (List Route) :=
  candidates.foldl (fun routes candidate =>
    match setup.runtimeRequirements candidate.1.implementation with
    | none => routes
    | some recipeId =>
        routes.put recipeId ((routes.get? recipeId).getD [] ++ candidate.2)) .empty

/-- A new evaluation takes its candidates up, whoever owned them before. -/
def takeUp (request : EvaluationRequest)
    (candidates : List (Configuration × List Route)) : Coordinator :=
  let generation := c.generation + 1
  { c with
    generation := generation
    harnessGenerations := c.harnessGenerations.putAll <|
      candidates.map fun candidate => (candidate.1.name, generation)
    preparing := c.preparing.putAll <| candidates.map fun candidate =>
      (candidate.1.name, ⟨candidate.2, request.signal, generation⟩)
    evaluations := c.evaluations.put generation
      { trigger := request.trigger
        signal := request.signal
        recipes := (recipeRoutes setup candidates).mapValues fun routes =>
          if c.guardCurrent routes request.signal then .running
          else .failed none
        reply := none }
    candidates := c.candidates.putAll <| candidates.map fun candidate =>
      ((generation, candidate.1.name), ⟨candidate.2, .preparing⟩) }

/-- `evaluate`, up to its first wait. -/
def evaluate (request : EvaluationRequest) : Coordinator :=
  let candidates := c.evaluationCandidates setup request
  if request.trigger ∉ readinessTriggers ∨ candidates = [] ∨
      c.fired request.signal = true then c
  else c.takeUp setup request candidates

/-- Move one harness of an evaluation to where it waits next. -/
def move (key : ℕ × String) (task : Task) : Coordinator :=
  { c with candidates := c.candidates.mapRows fun key' candidate =>
      if key' = key then { candidate with task := task } else candidate }

/-- `publishResult`: the publication is chained behind those before it. -/
def publishResult (key : ℕ × String) (result : HarnessResult) : Coordinator :=
  { c.move key (.queued result) with publication := c.publication ++ [key] }

def harnessResult (configuration : Configuration) (generation : ℕ)
    (available : Bool) (reason : Option UnavailableReason) : HarnessResult where
  harnessId := configuration.name
  configurationDigest := setup.digestConfiguration configuration
  generation := generation
  available := available
  unavailableReason :=
    if available then none else some (reason.getD (unavailableReason none))

/-- The preparation or the check of a harness failed. -/
def setupFailed (key : ℕ × String) (configuration : Configuration)
    (guard : Bool) (code : Option String) : Coordinator :=
  if guard then
    c.move key (.reporting
      (harnessResult setup configuration key.1 false (unavailableReason code)))
  else c.move key (.ended .skipped)

/-- The recipe of an evaluation settles. -/
def recipePrepared (generation : ℕ) (recipeId : String) (answer : Preparation) :
    Option Coordinator := do
  let evaluation ← c.evaluations.get? generation
  if evaluation.recipes.get? recipeId = some .running ∧ answer ≠ .running then
    some { c with evaluations := c.evaluations.put generation { evaluation with
      recipes := evaluation.recipes.put recipeId answer } }
  else none

/-- A harness goes on once the recipe it requires has settled. -/
def resume (key : ℕ × String) : Option Coordinator := do
  let evaluation ← c.evaluations.get? key.1
  let candidate ← c.candidates.get? key
  let configuration ← setup.configuration? key.2
  let guard := c.guardCurrent candidate.routes evaluation.signal
  let runtime := match setup.runtimeRequirements configuration.implementation with
    | none => some Preparation.prepared
    | some recipeId => evaluation.recipes.get? recipeId
  match candidate.task, runtime with
  | .preparing, some .prepared =>
      some (c.move key (if guard then .checking else .ended .skipped))
  | .preparing, some (.failed code) =>
      some (c.setupFailed setup key configuration guard code)
  | _, _ => none

/-- The check of a harness finishes. -/
def checkFinished (key : ℕ × String) (answer : CheckAnswer) :
    Option Coordinator := do
  let evaluation ← c.evaluations.get? key.1
  let candidate ← c.candidates.get? key
  let configuration ← setup.configuration? key.2
  let guard := c.guardCurrent candidate.routes evaluation.signal
  let noted : Coordinator :=
    { c with journal := c.journal ++ [.checked key.1 key.2] }
  match candidate.task, answer with
  | .checking, .result available reason =>
      some (noted.publishResult key
        (harnessResult setup configuration key.1 available reason))
  | .checking, .failed code =>
      some (noted.setupFailed setup key configuration guard code)
  | _, _ => none

/-- The diagnostic of a failed setup is written, or could not be. -/
def diagnosticWritten (key : ℕ × String) : Option Coordinator := do
  let candidate ← c.candidates.get? key
  match candidate.task with
  | .reporting result => some (c.publishResult key result)
  | _ => none

/-- The connections that authorize a result when it is published. -/
def providerConnections (configuration : Configuration) (routes : List Route) :
    Option (List ProviderConnection) :=
  if routes.any fun route => route.connectionGeneration.isSome then
    some ((routes.filter c.routeCurrent).filterMap fun route =>
      route.connectionGeneration.map fun generation =>
        { providerId := route.providerDefinition.id
          generation := generation
          modelIds := (routeModels setup configuration route).map
            ProviderModel.id })
  else none

/-- The oldest chained publication takes its turn. -/
def takeTurn : Option Coordinator :=
  match c.inFlight, c.publication with
  | none, key :: rest => do
      let evaluation ← c.evaluations.get? key.1
      let candidate ← c.candidates.get? key
      let configuration ← setup.configuration? key.2
      match candidate.task with
      | .queued result =>
          if c.current key.1 key.2 candidate.routes evaluation.signal then
            let update := HarnessUpdate.mk result
              (c.providerConnections setup configuration candidate.routes)
            some { c.move key (.publishing update) with
              publication := rest
              inFlight := some key
              journal := c.journal ++ [.published update] }
          else
            some { c.move key (.settled .skipped) with publication := rest }
      | _ => none
  | _, _ => none

/-- What `publishAvailability` answers.  An error may say that the connection
was superseded. -/
inductive PublicationAnswer
  | accepted
  | refused (superseded : Bool)
  deriving DecidableEq

/-- The publication in flight is answered. -/
def publicationAnswered (answer : PublicationAnswer) : Option Coordinator := do
  let key ← c.inFlight
  let evaluation ← c.evaluations.get? key.1
  let candidate ← c.candidates.get? key
  match candidate.task, answer with
  | .publishing update, .accepted =>
      let outcome :=
        if c.current key.1 key.2 candidate.routes evaluation.signal then
          Outcome.published update
        else .skipped
      some { c.move key (.settled outcome) with
        inFlight := none
        publishedGenerations := c.publishedGenerations.put key.2 key.1
        journal := c.journal ++ [.accepted key.1 key.2] }
  | .publishing _, .refused superseded =>
      let outcome :=
        if !c.guardCurrent candidate.routes evaluation.signal || superseded then
          Outcome.skipped
        else .failed
      some { c.move key (.settled outcome) with
        inFlight := none
        journal := c.journal ++ [.refused key.1 key.2] }
  | _, _ => none

/-- The preparations that an evaluation still owns among some harnesses are no
longer shown. -/
def stopPreparing (generation : ℕ) (harnessIds : List String) : Coordinator :=
  { c with preparing := c.preparing.keep fun harnessId owner =>
      !(decide (harnessId ∈ harnessIds) && decide (owner.generation = generation)) }

/-- The publication of a harness has settled. -/
def publicationSettled (key : ℕ × String) : Option Coordinator := do
  let candidate ← c.candidates.get? key
  match candidate.task with
  | .settled outcome =>
      some ((c.move key (.ended outcome)).stopPreparing key.1 [key.2])
  | _ => none

def Task.outcome? : Task → Option Outcome
  | .ended outcome => some outcome
  | _ => none

/-- The harnesses of an evaluation, in the order it took them up. -/
def harnessesOf (generation : ℕ) : List (String × Candidate) :=
  c.candidates.rows.filterMap fun row =>
    if row.1.1 = generation then some (row.1.2, row.2) else none

/-- What an evaluation returns once each of its harnesses has ended. -/
def evaluationReply (generation : ℕ) (signal : Option SignalId) :
    EvaluationReply :=
  let outcomes := (c.harnessesOf generation).map fun harness =>
    (harness.1, harness.2.routes, Task.outcome? harness.2.task)
  if outcomes.any fun outcome => decide (outcome.2.2 = some .failed) then .failed
  else
    .results (outcomes.filterMap fun outcome =>
      match outcome.2.2 with
      | some (.published update) =>
          if c.current generation outcome.1 outcome.2.1 signal then some update
          else none
      | _ => none)

/-- Every harness of an evaluation has ended, and so does the evaluation. -/
def conclude (generation : ℕ) : Option Coordinator := do
  let evaluation ← c.evaluations.get? generation
  if evaluation.reply = none ∧ ∀ harness ∈ c.harnessesOf generation,
      (Task.outcome? harness.2.task).isSome then
    some ({ c with evaluations := c.evaluations.put generation { evaluation with
        reply := some (c.evaluationReply generation evaluation.signal) }
      }.stopPreparing generation ((c.harnessesOf generation).map Prod.fst))
  else none

def publicationMark : ℕ := c.generation

def publishedSince (mark : ℕ) : List String :=
  c.publishedGenerations.rows.filterMap fun row =>
    if mark < row.2 then some row.1 else none

end Coordinator

end HarnessReadiness

end RelayerGraph
