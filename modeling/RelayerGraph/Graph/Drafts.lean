import RelayerGraph.Foundation.Checked
import RelayerGraph.Foundation.Worklist
import RelayerGraph.Graph.Records

/-!
# Drafts

What an author submits, and the checks a submission passes on its own, before
the database is consulted.  A report lists every issue in the order in which
the engine finds them.
-/

namespace RelayerGraph

open Foundation Checked

/-! ## Text -/

/-- `char::is_whitespace`: the Unicode property `White_Space`. -/
def isWhitespace (c : Char) : Bool :=
  let code := c.val.toNat
  (9 ≤ code && code ≤ 13) || (0x2000 ≤ code && code ≤ 0x200A) ||
    [0x20, 0x85, 0xA0, 0x1680, 0x2028, 0x2029, 0x202F, 0x205F, 0x3000].contains code

/-- The text without leading and trailing whitespace. -/
def trimText (text : String) : List Char :=
  ((text.toList.dropWhile isWhitespace).reverse.dropWhile isWhitespace).reverse

/-- `text.trim().is_empty()`. -/
def isBlank (text : String) : Bool :=
  text.toList.all isWhitespace

/-- The quoted form of a text in messages. -/
def quoted (text : String) : String :=
  let escape (c : Char) : String :=
    if c = '"' then "\\\""
    else if c = '\\' then "\\\\"
    else if c = '\n' then "\\n"
    else if c = '\r' then "\\r"
    else if c = '\t' then "\\t"
    else String.singleton c
  "\"" ++ String.join (text.toList.map escape) ++ "\""

/-- `require_nonempty`. -/
def requireNonempty (value path : String) : GraphResult Unit :=
  require (isBlank value = false)
    (.validation "required" path s!"{path} must not be empty.")

/-- The issue to report when a check fails. -/
def issueWhen (condition : Bool) (code path message : String) :
    List ValidationIssue :=
  if condition then [⟨code, path, message⟩] else []

/-- A report of no issues is a success. -/
def reportIssues (issues : List ValidationIssue) : GraphResult Unit :=
  require (issues = []) (.ofIssues issues)

/-- How ids are printed. -/
instance {tag : Entity} : ToString (Key tag) := ⟨fun key => toString key.val⟩

/-! ## Nodes and edges -/

/-- `NodeDraft`. -/
structure NodeDraft where
  clientKey : String
  kind : String
  icon : String
  title : String
  detail : String
deriving DecidableEq

/-- `AuthoredDetailUpdate`. -/
inductive AuthoredDetailUpdate
  | retain
  | clear
  | replace (package : String)
deriving DecidableEq

/-- The replacement package, when there is one. -/
def AuthoredDetailUpdate.replacement : AuthoredDetailUpdate → Option String
  | .replace package => some package
  | _ => none

/-- The required fields of `NodeDraft::validate`. -/
def NodeDraft.requireFields (draft : NodeDraft) : GraphResult Unit := do
  requireNonempty draft.clientKey "clientKey"
  requireNonempty draft.kind "kind"
  requireNonempty draft.icon "icon"
  requireNonempty draft.title "title"
  requireNonempty draft.detail "detail"

/-- `EdgeDraft`. -/
structure EdgeDraft where
  clientKey : String
  endpoints : NodeId × NodeId
deriving DecidableEq

/-- A pair of nodes in key order. -/
def sortedPair (pair : NodeId × NodeId) : NodeId × NodeId :=
  if pair.1.val ≤ pair.2.val then pair else (pair.2, pair.1)

/-- `EdgeDraft::validate`. -/
def EdgeDraft.validate (draft : EdgeDraft) : GraphResult (NodeId × NodeId) := do
  requireNonempty draft.clientKey "clientKey"
  require (draft.endpoints.1 ≠ draft.endpoints.2)
    (.validation "self_edge" "endpoints"
      "An edge must connect two different nodes. Choose a second node.")
  return sortedPair draft.endpoints

/-! ## Layouts -/

/-- `EDGE_SHAPES`. -/
def edgeShapes : List String :=
  ["default", "straight", "arc-outward", "arc-circle", "elbow-horizontal",
    "elbow-vertical"]

/-- The edge shapes as messages list them. -/
def edgeShapeNames : String := ", ".intercalate edgeShapes

/-- `NODE_SIDES`. -/
def nodeSides : List String := ["top", "right", "bottom", "left"]

/-- The node sides as messages list them. -/
def nodeSideNames : String := ", ".intercalate nodeSides

/-- `MAX_EDGE_ROUTE_WAYPOINTS`. -/
def maxEdgeRouteWaypoints : ℕ := 4

/-- `validate_coordinate`, for the finite coordinates a draft can carry. -/
def coordinateIssues (coordinate : ℚ) (path field : String) :
    List ValidationIssue :=
  issueWhen (!(decide (0 ≤ coordinate ∧ coordinate ≤ 1)))
    "layout_coordinate_out_of_range" s!"{path}.{field}"
    "Use a normalized coordinate in the inclusive range 0 through 1."

/-- The entries of a list, each with its index and the entries before it. -/
def withEarlier {α : Type} (xs : List α) : List (ℕ × List α × α) :=
  xs.zipIdx.map fun entry => (entry.2, xs.take entry.2, entry.1)

/-- The issues of one placement. -/
def placementIssues (nodes : List NodeId)
    (entry : ℕ × List NodePlacement × NodePlacement) : List ValidationIssue :=
  let (index, earlier, placement) := entry
  let path := s!"layout.placements[{index}]"
  issueWhen (!nodes.contains placement.nodeId)
      "layout_node_outside_layer" s!"{path}.nodeId"
      s!"Node {placement.nodeId} is not in this layer. Remove its placement or include the node in the layer." ++
    issueWhen ((earlier.map (·.nodeId)).contains placement.nodeId)
      "duplicate_layout_placement" s!"{path}.nodeId"
      s!"Node {placement.nodeId} already has a placement. Keep exactly one placement per layer node." ++
    coordinateIssues placement.x path "x" ++
    coordinateIssues placement.y path "y"

/-- An edge shape outside the grammar. -/
def edgeShapeIssues (shape : Option String) (path : String) :
    List ValidationIssue :=
  match shape with
  | none => []
  | some shape =>
      issueWhen (!edgeShapes.contains shape) "unsupported_edge_shape" path
        s!"Edge shape {quoted shape} is not supported. Choose one of: {edgeShapeNames}."

/-- Ends which cannot be the two ends of an edge between layer nodes. -/
def malformedEnds (nodes : List NodeId) : List EdgeEnd → Bool
  | [] => false
  | [first, second] =>
      first.nodeId = second.nodeId || !nodes.contains first.nodeId ||
        !nodes.contains second.nodeId
  | _ => true

/-- The issues of one edge route. -/
def edgeRouteIssues (nodes : List NodeId) (edges : List EdgeId)
    (entry : ℕ × List EdgeRoute × EdgeRoute) : List ValidationIssue :=
  let (index, earlier, route) := entry
  let path := s!"layout.edgeRoutes[{index}]"
  issueWhen (!edges.contains route.edgeId)
      "edge_route_outside_layer" s!"{path}.edgeId"
      s!"Edge {route.edgeId} is not in this layer. Route only this layer's edges." ++
    issueWhen ((earlier.map (·.edgeId)).contains route.edgeId)
      "duplicate_edge_route" s!"{path}.edgeId"
      s!"Edge {route.edgeId} already has a route. Give each edge at most one route." ++
    edgeShapeIssues route.shape s!"{path}.shape" ++
    issueWhen (malformedEnds nodes route.ends)
      "edge_route_ends_mismatch" s!"{path}.ends"
      "List exactly the edge's two nodes as its ends." ++
    route.ends.zipIdx.flatMap (fun sided =>
      match sided.1.side with
      | none => []
      | some side =>
          issueWhen (!nodeSides.contains side) "unsupported_node_side"
            s!"{path}.ends[{sided.2}].side"
            s!"Side {quoted side} is not supported. Choose one of: {nodeSideNames}, or omit it.") ++
    issueWhen (!route.waypoints.isEmpty && route.ends.isEmpty)
      "edge_route_ends_required" s!"{path}.ends"
      "Waypoints are listed from one end to the other. Name the edge's two nodes as ends." ++
    issueWhen (decide (maxEdgeRouteWaypoints < route.waypoints.length))
      "too_many_waypoints" s!"{path}.waypoints"
      s!"An edge may pass through at most {maxEdgeRouteWaypoints} waypoints; received {route.waypoints.length}." ++
    route.waypoints.zipIdx.flatMap fun point =>
      coordinateIssues point.1.x s!"{path}.waypoints[{point.2}]" "x" ++
        coordinateIssues point.1.y s!"{path}.waypoints[{point.2}]" "y"

/-- `validate_layout`. -/
def layoutIssues (layout : LayerLayout) (nodes : List NodeId)
    (edges : List EdgeId) : List ValidationIssue :=
  issueWhen (decide (layout.version ≠ 1))
      "unsupported_layout_version" "layout.version"
      s!"Layout version {layout.version} is not supported. Submit version 1 normalized placements." ++
    (withEarlier layout.placements).flatMap (placementIssues nodes) ++
    nodes.zipIdx.flatMap (fun entry =>
      issueWhen (!(layout.placements.map (·.nodeId)).contains entry.1)
        "missing_layout_placement" "layout.placements"
        s!"Layer node {entry.2} ({entry.1}) has no layout placement. Add exactly one normalized placement for it.") ++
    edgeShapeIssues layout.edgeShape "layout.edgeShape" ++
    (withEarlier layout.edgeRoutes).flatMap (edgeRouteIssues nodes edges)

/-- The issues of `validate_authored_layout`. -/
def authoredLayoutIssues (layout : Option LayerLayout) (nodes : List NodeId)
    (edges : List EdgeId) : List ValidationIssue :=
  match layout with
  | none =>
      [⟨"missing_layer_layout", "layout",
        "Provide a versioned layout with exactly one normalized placement for every layer node."⟩]
  | some layout => layoutIssues layout nodes edges

/-- `validate_authored_layout`. -/
def validateAuthoredLayout (layout : Option LayerLayout) (nodes : List NodeId)
    (edges : List EdgeId) : GraphResult Unit :=
  reportIssues (authoredLayoutIssues layout nodes edges)

/-- `validate_edge_route_ends`. -/
def validateEdgeRouteEnds (layout : LayerLayout) (edges : List GraphEdge) :
    GraphResult Unit :=
  reportIssues <| layout.edgeRoutes.zipIdx.flatMap fun entry =>
    match entry.1.ends, edges.find? (·.id = entry.1.edgeId) with
    | [first, second], some edge =>
        issueWhen
          (decide (sortedPair (first.nodeId, second.nodeId) ≠
            sortedPair edge.endpoints))
          "edge_route_ends_mismatch" s!"layout.edgeRoutes[{entry.2}].ends"
          s!"Edge {edge.id} joins nodes {edge.endpoints.1} and {edge.endpoints.2}. List exactly those two nodes as its ends."
    | _, _ => []

/-! ## Layers -/

/-- The nodes joined to a node by one of the edges. -/
def joinedNodes (edges : List GraphEdge) (node : NodeId) : List NodeId :=
  edges.flatMap fun edge =>
    (if edge.endpoints.1 = node then [edge.endpoints.2] else []) ++
      (if edge.endpoints.2 = node then [edge.endpoints.1] else [])

/-- `validate_connected`: the number of nodes visited from the first one is
compared with the number of nodes listed. -/
def validateConnected (nodes : List NodeId) (edges : List GraphEdge) :
    GraphResult Unit :=
  match nodes with
  | [] => .ok ()
  | [_] => .ok ()
  | first :: _ =>
      let joined (node : NodeId) : List NodeId :=
        if node ∈ nodes then joinedNodes edges node else []
      let visited :=
        Worklist.closure joined (nodes.length + 2 * edges.length) [first]
      require (visited.length = nodes.length)
        (.validation "disconnected_layer" "edges"
          s!"The layer is disconnected: {visited.length}/{nodes.length} nodes are reachable. Add edges that connect every visible node.")

/-- `ARTIFACT_RENDERER`. -/
def artifactRenderer : String := "artifact"

/-- `issue`: a report of one issue. -/
def singleIssue (code path message : String) : GraphError :=
  .ofIssues [⟨code, path, message⟩]

/-- `validate_layer_renderer`. -/
def validateLayerRenderer (renderer : Option String) (nodes : List GraphNode)
    (edgeCount : ℕ) : GraphResult Unit :=
  match renderer with
  | none =>
      match nodes.find? (·.artifact.isSome) with
      | some node =>
          .error (singleIssue "artifact_node_outside_artifact_layer" "renderer"
            s!"Node {node.id} has artifact details. Put it alone in a layer whose renderer is \"artifact\", and open that layer with a navigate action.")
      | none => .ok ()
  | some renderer =>
      if renderer = artifactRenderer then do
        let lacking := if nodes.length = 1 then " without artifact details" else ""
        require (nodes.length = 1 ∧ nodes.all (·.artifact.isSome))
          (singleIssue "artifact_layer_member_count" "nodes"
            s!"An artifact layer holds exactly one node with artifact details; this one has {nodes.length} node(s){lacking}.")
        require (edgeCount = 0)
          (singleIssue "artifact_layer_edges" "edges"
            "An artifact layer has no edges.")
      else
        .error (singleIssue "layer_renderer_unsupported" "renderer"
          s!"Unknown layer renderer \"{renderer}\". Omit renderer for a graph, or use \"artifact\".")

/-- `LayerDraft`. -/
structure LayerDraft where
  defaultNodeId : Option NodeId
  clientKey : String
  nodes : List NodeId
  edges : List EdgeId
  layout : Option LayerLayout
  sizeJustification : Option String
deriving DecidableEq

namespace LayerDraft

/-- The issues of a large layer's private justification. -/
def justificationIssues (draft : LayerDraft) : List ValidationIssue :=
  let length :=
    match draft.sizeJustification with
    | some text => (trimText text).length
    | none => 0
  if 6 ≤ draft.nodes.length ∧ draft.nodes.length ≤ 8 then
    issueWhen (decide (length < 20))
        "large_layer_justification_required" "sizeJustification"
        s!"This layer has {draft.nodes.length} nodes. Layers with 6 to 8 nodes need a private justification of at least 20 characters explaining why one larger layer is clearer. Resubmit with sizeJustification; do not copy it into user-visible content." ++
      issueWhen (decide (500 < length))
        "large_layer_justification_too_long" "sizeJustification"
        "Keep the private layer-size justification to 500 characters or fewer and resubmit."
  else
    []

/-- The issues of `LayerDraft::validate_shape`, in the order of its checks. -/
def shapeIssues (draft : LayerDraft) : List ValidationIssue :=
  issueWhen (draft.defaultNodeId.any fun node => !draft.nodes.contains node)
      "default_node_outside_layer" "defaultNodeId"
      "Choose the initial detail node from this layer's member nodes." ++
    issueWhen (!decide (1 ≤ draft.nodes.length ∧ draft.nodes.length ≤ 8))
      "layer_node_count" "nodes"
      s!"A visible layer needs 1 to 8 nodes; received {draft.nodes.length}. Split this material into smaller useful layers." ++
    issueWhen (!decide draft.nodes.Nodup)
      "duplicate_layer_node" "nodes" "A node may appear only once in a layer." ++
    issueWhen (!decide draft.edges.Nodup)
      "duplicate_layer_edge" "edges" "An edge may appear only once in a layer." ++
    authoredLayoutIssues draft.layout draft.nodes draft.edges ++
    issueWhen (draft.layout.any fun layout => layout.edgeShape.isNone)
      "missing_edge_shape" "layout.edgeShape"
      s!"Choose how this layer draws its edges: one of {edgeShapeNames}. Use \"default\" when no shape fits the structure better." ++
    draft.justificationIssues

/-- `LayerDraft::validate_shape`. -/
def validateShape (draft : LayerDraft) : GraphResult Unit := do
  requireNonempty draft.clientKey "clientKey"
  reportIssues draft.shapeIssues

end LayerDraft

/-- `LayerCandidate::validate`: the draft with the records it lists. -/
def validateLayerCandidate (draft : LayerDraft) (nodes : List GraphNode)
    (edges : List GraphEdge) : GraphResult Unit := do
  draft.validateShape
  Checked.forSome draft.layout fun layout => validateEdgeRouteEnds layout edges
  let nodeIds := nodes.map (·.id)
  forM edges fun edge =>
    require (edge.endpoints.1 ∈ nodeIds ∧ edge.endpoints.2 ∈ nodeIds)
      (.validation "edge_outside_layer" "edges"
        s!"Edge {edge.id} connects a node outside this layer. Include both endpoints or remove the edge.")
  validateConnected draft.nodes edges

/-! ## Actions -/

/-- `ActionDraft`. -/
structure ActionDraft where
  clientKey : String
  sourceNodeId : NodeId
  sourceLayerId : Option LayerId
  kind : ActionKind
  relation : Option NavigateRelation
  label : String
  variant : ActionVariant
  icon : Option String
  description : Option String
  targetLayerId : Option LayerId
  interactionText : Option String
  inputActionIds : List ActionId
  reusable : Option Bool
  input : Option InputAction
deriving DecidableEq

namespace InputAction

/-- The issues of one option; a malformed key is not compared with the keys
before it. -/
def optionIssues (entry : ℕ × List InputOption × InputOption) :
    List ValidationIssue :=
  let (index, earlier, option) := entry
  let malformed (key : String) : Bool :=
    key.isEmpty || decide (trimText key ≠ key.toList) ||
      key.toList.contains (Char.ofNat 0) || decide (128 < key.utf8ByteSize)
  let seen := (earlier.map (·.key)).filter fun key => !malformed key
  option.unsupportedFields.map (fun field =>
      ⟨"input_action_payload_unexpected", s!"options[{index}].{field}",
        "Remove fields outside the input option grammar."⟩) ++
    (if malformed option.key then
      [⟨"input_action_option_key_invalid", s!"options[{index}].key",
        "Use a nonempty, trimmed, NUL-free key of at most 128 bytes."⟩]
    else
      issueWhen (seen.contains option.key)
        "input_action_option_key_duplicate" s!"options[{index}].key"
        "Give every option an exact unique key.") ++
    (if isBlank option.label then
      [⟨"input_action_option_label_required", s!"options[{index}].label",
        "Supply a non-whitespace label."⟩]
    else
      issueWhen (decide (512 < option.label.utf8ByteSize))
        "input_action_option_label_too_long" s!"options[{index}].label"
        "Shorten the UTF-8 label to 512 bytes.")

/-- The issue of a minimum selection a control does not take. -/
def unexpectedMinimum : ValidationIssue :=
  ⟨"input_action_minimum_unexpected", "minimumSelections",
    "Remove it unless the control is multi-select."⟩

/-- The issues of a select's options and of its minimum. -/
def selectIssues (input : InputAction) : List ValidationIssue :=
  (if input.options.isEmpty then
      [⟨"input_action_options_required", "options",
        "Supply 1 through 50 options for a select."⟩]
    else
      issueWhen (decide (50 < input.options.length))
        "input_action_option_count" "options"
        "Keep the option count in 1..=50.") ++
    (withEarlier input.options).flatMap optionIssues ++
    match input.control, input.minimumSelections with
    | .singleSelect, some _ => [unexpectedMinimum]
    | .multiSelect, some minimum =>
        issueWhen (minimum = 0 || decide (input.options.length < minimum))
          "input_action_minimum_invalid" "minimumSelections"
          "Use an integer in 1..=options.length."
    | _, _ => []

/-- `validate_input_action`. -/
def issues (input : InputAction) : List ValidationIssue :=
  input.unsupportedFields.flatMap (fun field =>
      issueWhen
        (!(field = "options" && input.control = .text && input.options.isEmpty))
        "input_action_payload_unexpected" field
        "Remove fields that are not part of the selected input control grammar.") ++
    (if isBlank input.prompt then
      [⟨"input_action_prompt_required", "prompt",
        "Supply a non-whitespace prompt."⟩]
    else
      issueWhen (decide (2000 < input.prompt.utf8ByteSize))
        "input_action_prompt_too_long" "prompt"
        "Shorten the UTF-8 prompt to 2,000 bytes.") ++
    match input.control with
    | .text =>
        issueWhen
            (!input.options.isEmpty || input.unsupportedFields.contains "options")
            "input_action_options_unexpected" "options"
            "Remove options from a text action." ++
          (if input.minimumSelections.isSome then [unexpectedMinimum] else [])
    | .singleSelect => input.selectIssues
    | .multiSelect => input.selectIssues
    | .unsupported =>
        [⟨"input_action_control_unsupported", "control",
          "Use text, single_select, or multi_select."⟩]

end InputAction

namespace ActionDraft

/-- The issues of an action's bound inputs. -/
def bindingIssues (draft : ActionDraft) : List ValidationIssue :=
  issueWhen (!draft.inputActionIds.isEmpty && decide (draft.kind ≠ .invoke))
      "invoke_inputs_unexpected" "inputActionIds"
      "Only Invoke actions may bind input actions." ++
    (withEarlier draft.inputActionIds).flatMap fun entry =>
      issueWhen (entry.2.1.contains entry.2.2)
        "invoke_input_duplicate" s!"inputActionIds[{entry.1}]"
        "Bind each input action at most once."

/-- A field which actions of the draft's kind do not have. -/
def unexpectedField {α : Type} (value : Option α) (code path message : String) :
    List ValidationIssue :=
  issueWhen value.isSome code path message

/-- The issues of the fields each kind requires and rejects. -/
def kindIssues (draft : ActionDraft) : List ValidationIssue :=
  match draft.kind with
  | .navigate =>
      issueWhen draft.targetLayerId.isNone
          "missing_target_layer" "targetLayerId"
          "A navigate action needs a target layer. Submit or select the layer, then retry with its target." ++
        unexpectedField draft.interactionText
          "unexpected_interaction_text" "interactionText"
          "A navigate action opens a layer and cannot also start an interaction." ++
        issueWhen draft.relation.isNone
          "missing_navigate_relation" "relation"
          "Choose relation=expand for deeper explanation or relation=reference for supporting evidence or context."
  | .invoke =>
      issueWhen (draft.interactionText.all isBlank)
          "missing_interaction_text" "interactionText"
          "An invoke action needs the user interaction text it will start." ++
        unexpectedField draft.targetLayerId
          "unexpected_target_layer" "targetLayerId"
          "An invoke action starts an interaction and does not point to a layer." ++
        unexpectedField draft.relation
          "unexpected_navigate_relation" "relation"
          "An invoke action starts an interaction and cannot have an expand or reference relation."
  | .input =>
      unexpectedField draft.targetLayerId
          "input_action_payload_unexpected" "targetLayerId"
          "Remove targetLayerId from an input action." ++
        unexpectedField draft.relation
          "input_action_payload_unexpected" "relation"
          "Remove relation from an input action." ++
        unexpectedField draft.interactionText
          "input_action_payload_unexpected" "interactionText"
          "Remove interactionText from an input action." ++
        match draft.input with
        | none =>
            [⟨"input_action_control_unsupported", "control",
              "Use text, single_select, or multi_select."⟩]
        | some input => input.issues
  | .interactionContext => []

/-- Only the known variants are accepted. -/
def validateVariant (draft : ActionDraft) : GraphResult Unit :=
  match draft.variant with
  | .unsupported _ =>
      .error (.validation "unsupported_action_variant" "variant"
        "Action variant must be one of: chip, pill, wide, card.")
  | _ => .ok ()

/-- The description a variant requires or rejects. -/
def validateDescription (draft : ActionDraft) : GraphResult Unit :=
  match draft.variant, draft.description with
  | .card, some description =>
      require (isBlank description = false)
        (.validation "missing_action_description" "description"
          "A card action needs supporting description text.")
  | .card, none =>
      .error (.validation "missing_action_description" "description"
        "A card action needs supporting description text.")
  | _, some _ =>
      .error (.validation "unexpected_action_description" "description"
        "Supporting description text is available only for card actions.")
  | _, none => .ok ()

/-- `ActionDraft::validate_shape`, with the check of the icon given. -/
def validateShape (canonicalIcon : String → GraphResult String)
    (draft : ActionDraft) : GraphResult (Option String) := do
  requireNonempty draft.clientKey "clientKey"
  require (Char.ofNat 0 ∉ draft.clientKey.toList)
    (.validation "reserved_action_client_key" "clientKey"
      "Action client keys cannot contain NUL characters, which are reserved for graph-control identities.")
  requireNonempty draft.label "label"
  require (¬ (draft.reusable = some true ∧ draft.kind ≠ .invoke))
    (.validation "reusable_requires_invoke" "reusable"
      "Only Invoke actions may opt into reuse.")
  draft.validateVariant
  let icon ←
    (match draft.icon with
    | some icon => some <$> canonicalIcon icon
    | none => .ok none)
  draft.validateDescription
  require (draft.kind ≠ .interactionContext)
    (.validation "control_only_action" "kind"
      "interaction.context actions are immutable input records created only by graph control.")
  reportIssues <|
    draft.bindingIssues ++
      (if draft.kind = .input then [] else
        unexpectedField draft.input
          "input_action_payload_unexpected" "control"
          "Remove input control fields from a non-input action.") ++
      draft.kindIssues
  return icon

end ActionDraft

end RelayerGraph
