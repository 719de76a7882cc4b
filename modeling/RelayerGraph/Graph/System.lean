import RelayerGraph.Foundation.TransitionSystem
import RelayerGraph.Graph.Writer

/-!
# The native graph database as a transition system

Any number of interactions write to one database.  Every operation runs in a
write transaction, so that a run is a sequence of operations, each of which
succeeded on what the operations before it left; an operation that fails
changes nothing.
-/

namespace RelayerGraph

open Foundation Checked

/-- Who writes: an interaction, through a broker of some generation or, with
no epoch, through a trusted writer. -/
structure Author where
  interaction : NodeId
  epoch : Option ℕ

/-- The operations on the native database. -/
inductive Operation
  | createInteraction (scope : RowScope) (text : String)
      (preparation : Preparation)
  | activateAuthority (interaction : NodeId)
  | submitNode (author : Author) (draft : NodeDraft) (contents : NodeContents)
  | createEdge (author : Author) (draft : EdgeDraft)
  | submitLayer (author : Author) (draft : LayerDraft)
      (renderer : Option String)
  | addAction (author : Author) (draft : ActionDraft)
      (preparedIcon : Option PreparedDetailAsset)
  | discardLayer (author : Author) (layer : LayerId)
  | stagePresentation (author : Author) (node : NodeId)
      (expectedRevision : ℕ) (package : String)
      (assets : List PreparedDetailAsset)
  | transition (author : Author) (expectedRevision : ℕ)
      (operationKey : String) (intent : CurrentTransition)
      (index : IndexAnswers)

namespace GraphDatabase

variable (db : GraphDatabase)

/-- The scope of a writer. -/
def writerScope (author : Author) : GraphResult InteractionScope :=
  (db.interactionScope author.interaction).map fun scope =>
    { scope with authorityEpoch := author.epoch }

/-- The database an operation leaves, when it succeeds. -/
def perform (host : Host) : Operation → GraphResult GraphDatabase
  | .createInteraction scope text preparation =>
      (db.createInteraction host scope text preparation).map Prod.snd
  | .activateAuthority interaction =>
      (db.activateAuthority interaction).map Prod.snd
  | .submitNode author draft contents => do
      let scope ← db.writerScope author
      (db.submitNode scope host draft contents).map Prod.snd
  | .createEdge author draft => do
      let scope ← db.writerScope author
      (db.createEdge scope host draft).map Prod.snd
  | .submitLayer author draft renderer => do
      let scope ← db.writerScope author
      (db.submitLayer scope host draft renderer).map Prod.snd
  | .addAction author draft preparedIcon => do
      let scope ← db.writerScope author
      (db.addAction scope host draft preparedIcon).map Prod.snd
  | .discardLayer author layer => do
      let scope ← db.writerScope author
      (db.discardLayer scope host layer).map Prod.snd
  | .stagePresentation author node expectedRevision package assets => do
      let scope ← db.writerScope author
      db.stagePresentation scope host node expectedRevision package assets
  | .transition author expectedRevision operationKey intent index => do
      let scope ← db.writerScope author
      (db.transition scope host expectedRevision operationKey intent index).map
        Transitioned.db

/-- The empty native database under a configuration. -/
def initial (permissionsEnabled : Bool)
    (temporalFeatures : TemporalFeatureConfig) : GraphDatabase where
  nodes := .empty
  edges := .empty
  layers := .empty
  actions := .empty
  outbox := []
  imports := []
  searchRevisions := []
  permissionsEnabled
  temporalFeatures

/-- Runs of native operations from an empty database. -/
def native (host : Host) : TransitionSystem GraphDatabase Operation where
  init db := ∃ permissionsEnabled temporalFeatures,
    db = initial permissionsEnabled temporalFeatures
  step db operation db' := db.perform host operation = .ok db'

/-- An operation that fails is rolled back. -/
def attempt (host : Host) (db : GraphDatabase) (operation : Operation) :
    GraphDatabase :=
  match db.perform host operation with
  | .ok db' => db'
  | .error _ => db

theorem step_attempt {host : Host} {db : GraphDatabase} {operation : Operation}
    (hok : (db.perform host operation).toOption.isSome) :
    (native host).step db operation (db.attempt host operation) := by
  rw [attempt]
  change db.perform host operation = _
  cases hstep : db.perform host operation with
  | error e => simp [hstep, Except.toOption] at hok
  | ok db' => rfl

theorem reachable_attempt {host : Host} {db : GraphDatabase}
    (hreach : (native host).Reachable db) (operation : Operation) :
    (native host).Reachable (db.attempt host operation) := by
  rw [attempt]
  split
  · rename_i hstep
    exact .step hreach hstep
  · exact hreach

/-- Operations performed one after the other. -/
def performAll (host : Host) (db : GraphDatabase)
    (operations : List Operation) : GraphDatabase :=
  operations.foldl (attempt host) db

theorem reachable_performAll {host : Host} {db : GraphDatabase}
    (hreach : (native host).Reachable db) (operations : List Operation) :
    (native host).Reachable (db.performAll host operations) := by
  induction operations generalizing db with
  | nil => exact hreach
  | cons operation rest ih => exact ih (reachable_attempt hreach operation)

end GraphDatabase

/-! ## A sample conversation -/

namespace Sample

open GraphDatabase

/-- Contents are taken as they are. -/
def host : Host where
  digest text := text
  canonicalIcon icon _ := .ok icon
  validateArtifact _ := .ok ()
  validateAuthoredDetail _ _ := .ok ()
  bindings _ _ _ := .ok ()

def temporal : TemporalFeatureConfig where
  configVersion := 1
  schemaRead := false
  rootCurrentWrite := true
  projectionUi := false
  invokeResolution := false
  providerRecursion := false

/-- A standalone thread. -/
def thread : RowScope := ⟨none, ⟨.early 0⟩⟩

/-- The trusted writer of the first interaction. -/
def author : Author := ⟨⟨1⟩, none⟩

/-- A default action on a node of a layer. -/
def action (clientKey : String) (source : NodeId) (sourceLayer : Option LayerId)
    (kind : ActionKind) : ActionDraft where
  clientKey
  sourceNodeId := source
  sourceLayerId := sourceLayer
  kind
  relation := none
  label := clientKey
  variant := .chip
  icon := none
  description := none
  targetLayerId := none
  interactionText := none
  inputActionIds := []
  reusable := none
  input := none

/-- One interaction, one concept, and a layer which shows it. -/
def opening : List Operation :=
  [.createInteraction thread "question" ⟨none, [], [], []⟩,
    .submitNode author ⟨"concept", "concept", "box", "Concept", "Detail"⟩
      ⟨.retain, [], none, none⟩,
    .submitLayer author
      ⟨none, "answer", [⟨2⟩], [], some ⟨1, [⟨⟨2⟩, 0, 0⟩], some "default", []⟩, none⟩
      none]

/-- The root action to a layer. -/
def rootAction (layer : LayerId) : Operation :=
  .addAction author
    { action "root" ⟨1⟩ none .navigate with
      relation := some .expand
      targetLayerId := some layer } none

/-- The first interaction returns with a layer, and the index follows. -/
def returns (layer : LayerId) : Operation :=
  .transition author 0 "return" (.return layer)
    ⟨.ok (), .ok true, .ok 1, .ok ()⟩

/-- The database in which the answer is ready. -/
def opened : GraphDatabase :=
  (initial false temporal).performAll host (opening ++ [rootAction ⟨1⟩])

/-- The database in which the answer was returned. -/
def database : GraphDatabase :=
  opened.attempt host (returns ⟨1⟩)

theorem reachable_initial :
    (native host).Reachable (initial false temporal) :=
  .init ⟨false, temporal, rfl⟩

theorem reachable_opened : (native host).Reachable opened :=
  reachable_performAll reachable_initial _

theorem reachable_database : (native host).Reachable database :=
  reachable_attempt reachable_opened _

end Sample

end RelayerGraph
