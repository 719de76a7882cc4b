import RelayerGraph.Foundation.Worklist
import RelayerGraph.Graph.Currents

/-!
# Recursive queries over navigation

Several statements follow the targets of actions from layer to layer.  They
differ in the seeds and in which actions a layer is left by, and share one
definition: a closure with enough fuel for every action of the database.
-/

namespace RelayerGraph

open Foundation

/-- An accepted navigate action. -/
def ActionRow.isAcceptedNavigate (row : ActionRow) : Bool :=
  decide (row.state = .accepted ∧ row.kind = .navigate)

/-- An accepted navigate action with the relation expand. -/
def ActionRow.isAcceptedExpand (row : ActionRow) : Bool :=
  row.isAcceptedNavigate && decide (row.relation = some .expand)

namespace GraphDatabase

variable (db : GraphDatabase)

/-- The targets of the selected actions. -/
def targetsWhere (p : ActionId → ActionRow → Bool) : List LayerId :=
  db.actions.entries.filterMap fun entry =>
    if p entry.1 entry.2 then entry.2.targetLayer else none

/-- A selected action leads to the layer. -/
def LeadsTo (p : ActionId → ActionRow → Bool) (target : LayerId) : Prop :=
  ∃ id row, db.actions.get? id = some row ∧ p id row = true ∧
    row.targetLayer = some target

/-- The layers reached from the seeds, leaving each layer by the actions
selected for it. -/
def layersReached (leaves : LayerId → ActionId → ActionRow → Bool)
    (seeds : List LayerId) : List LayerId :=
  Worklist.closure (fun layer => db.targetsWhere (leaves layer))
    (seeds.length + db.actions.entries.length) seeds

variable {db}

theorem mem_targetsWhere {p : ActionId → ActionRow → Bool} {target : LayerId} :
    target ∈ db.targetsWhere p ↔ db.LeadsTo p target := by
  simp only [targetsWhere, LeadsTo, List.mem_filterMap, Prod.exists,
    Table.mem_entries]
  constructor
  · rintro ⟨id, row, hrow, htarget⟩
    split at htarget
    · exact ⟨id, row, hrow, ‹_›, htarget⟩
    · cases htarget
  · rintro ⟨id, row, hrow, hp, htarget⟩
    exact ⟨id, row, hrow, by simpa [hp] using htarget⟩

/-- The closure finds exactly the layers on paths from the seeds. -/
theorem mem_layersReached {leaves : LayerId → ActionId → ActionRow → Bool}
    {seeds : List LayerId} {layer : LayerId} :
    layer ∈ db.layersReached leaves seeds ↔
      ∃ seed ∈ seeds,
        Relation.ReflTransGen (fun a b => db.LeadsTo (leaves a) b) seed layer := by
  have hseeds : ∀ a ∈ seeds, a ∈ seeds ++ db.targetsWhere fun _ _ => true :=
    fun a ha => List.mem_append_left _ ha
  have hdomain : ∀ a ∈ seeds ++ db.targetsWhere fun _ _ => true,
      ∀ b ∈ db.targetsWhere (leaves a),
        b ∈ seeds ++ db.targetsWhere fun _ _ => true := by
    intro a _ b hb
    obtain ⟨id, row, hrow, -, htarget⟩ := mem_targetsWhere.mp hb
    exact List.mem_append_right _
      (mem_targetsWhere.mpr ⟨id, row, hrow, rfl, htarget⟩)
  have hbound : (seeds ++ db.targetsWhere fun _ _ => true).length ≤
      seeds.length + db.actions.entries.length := by
    rw [List.length_append]
    exact Nat.add_le_add_left (List.length_filterMap_le _ _) _
  rw [layersReached, Worklist.mem_closure_iff hseeds hdomain hbound]
  simp only [Worklist.ReachedFrom, mem_targetsWhere]

variable (db)

/-- The accepted navigate actions in a layer's snapshot. -/
def navigates (layer : LayerId) (id : ActionId) (row : ActionRow) : Bool :=
  (db.layers.get? layer).any fun stored =>
    stored.actions.contains id && row.isAcceptedNavigate

/-- The accepted expand actions in a layer's snapshot. -/
def expands (layer : LayerId) (id : ActionId) (row : ActionRow) : Bool :=
  db.navigates layer id row && decide (row.relation = some .expand)

/-- The layer lists the node. -/
def lists (layer : LayerId) (node : NodeId) : Bool :=
  (db.layers.get? layer).any fun stored => stored.nodes.contains node

end GraphDatabase

end RelayerGraph
