import RelayerGraph.Catalog.AttemptAccounts
import RelayerGraph.Catalog.Attempts
import RelayerGraph.Catalog.Compatibility
import RelayerGraph.Catalog.ConversationMoves
import RelayerGraph.Catalog.ConversationOwners
import RelayerGraph.Catalog.ConversationRuns
import RelayerGraph.Catalog.ConversationWrites
import RelayerGraph.Catalog.Conversations
import RelayerGraph.Catalog.Database
import RelayerGraph.Catalog.DefaultChoice
import RelayerGraph.Catalog.DefaultFamily
import RelayerGraph.Catalog.DefaultMoves
import RelayerGraph.Catalog.Families
import RelayerGraph.Catalog.FamilyEffects
import RelayerGraph.Catalog.HarnessRows
import RelayerGraph.Catalog.Harnesses
import RelayerGraph.Catalog.ManagedFamilies
import RelayerGraph.Catalog.Onboarding
import RelayerGraph.Catalog.Operations
import RelayerGraph.Catalog.Positions
import RelayerGraph.Catalog.ProviderEffects
import RelayerGraph.Catalog.Providers
import RelayerGraph.Catalog.Readiness
import RelayerGraph.Catalog.Records
import RelayerGraph.Catalog.Reopening
import RelayerGraph.Catalog.Selection
import RelayerGraph.Catalog.StartEffects
import RelayerGraph.Catalog.TurnEffects
import RelayerGraph.Catalog.Turns
import RelayerGraph.Desktop.Updater
import RelayerGraph.Desktop.UpdaterReady
import RelayerGraph.Desktop.UpdaterRuns
import RelayerGraph.Export.ImportAgreement
import RelayerGraph.Export.ImportReader
import RelayerGraph.Foundation.Checked
import RelayerGraph.Foundation.CommaSeparated
import RelayerGraph.Foundation.Digraph
import RelayerGraph.Foundation.Interference
import RelayerGraph.Foundation.Keyed
import RelayerGraph.Foundation.Lines
import RelayerGraph.Foundation.Matches
import RelayerGraph.Foundation.OrderedMap
import RelayerGraph.Foundation.Reading
import RelayerGraph.Foundation.Table
import RelayerGraph.Foundation.TransitionSystem
import RelayerGraph.Foundation.Worklist
import RelayerGraph.Graph.Accept
import RelayerGraph.Graph.Authoring
import RelayerGraph.Graph.Closedness
import RelayerGraph.Graph.Current
import RelayerGraph.Graph.Currents
import RelayerGraph.Graph.Database
import RelayerGraph.Graph.Drafts
import RelayerGraph.Graph.Error
import RelayerGraph.Graph.Finalizing
import RelayerGraph.Graph.History
import RelayerGraph.Graph.Immutable
import RelayerGraph.Graph.Navigation
import RelayerGraph.Graph.Plan
import RelayerGraph.Graph.Planned
import RelayerGraph.Graph.Presentation
import RelayerGraph.Graph.Publishing
import RelayerGraph.Graph.Reachable
import RelayerGraph.Graph.Reading
import RelayerGraph.Graph.Records
import RelayerGraph.Graph.Retention
import RelayerGraph.Graph.Storage
import RelayerGraph.Graph.System
import RelayerGraph.Graph.Transitions
import RelayerGraph.Graph.Walk
import RelayerGraph.Graph.WellFormed
import RelayerGraph.Graph.Writer
import RelayerGraph.Harness.Approval
import RelayerGraph.Harness.Coordinator
import RelayerGraph.Harness.CoordinatorAccounts
import RelayerGraph.Harness.CoordinatorMoves
import RelayerGraph.Harness.CoordinatorRuns
import RelayerGraph.Harness.CoordinatorSystem
import RelayerGraph.HarnessReadiness.Coordinator
import RelayerGraph.HarnessReadiness.Moves
import RelayerGraph.HarnessReadiness.PostUpgrade
import RelayerGraph.Product.ExecutionMoves
import RelayerGraph.Product.ExecutionSystem
import RelayerGraph.Product.Executions
import RelayerGraph.Product.Repetition
import RelayerGraph.Product.RunStatements
import RelayerGraph.Product.Settlement
import RelayerGraph.Product.Store
import RelayerGraph.Query.Alignment
import RelayerGraph.Query.Depth
import RelayerGraph.Query.Lexer
import RelayerGraph.Query.Parser
import RelayerGraph.Query.PatternSyntax
import RelayerGraph.Query.Plan
import RelayerGraph.Query.Progress
import RelayerGraph.Query.Recovery
import RelayerGraph.Query.Scope
import RelayerGraph.Redaction.PrivateKeyBlocks
import RelayerGraph.Redaction.PrivateKeyMarkers
import RelayerGraph.Runs.Capacity
import RelayerGraph.Runs.CapacityCalls
import RelayerGraph.Runs.CapacityFairness
import RelayerGraph.Runs.CapacityRows
import RelayerGraph.Runs.NodeQueue
import RelayerGraph.Runs.NodeQueueAccounts
import RelayerGraph.Runs.NodeQueueCalls
import RelayerGraph.Runs.NodeQueueOrder
import RelayerGraph.Runs.NodeQueueRecovery
import RelayerGraph.Runs.NodeQueueRows
import RelayerGraph.Runs.NodeQueueSteps
import RelayerGraph.Runs.NodeQueueSystem
import RelayerGraph.Search.Acknowledgement
import RelayerGraph.Search.Inventory
import RelayerGraph.Search.Outcome
import RelayerGraph.Search.Publication
import RelayerGraph.Search.Readiness
import RelayerGraph.Search.Startup
import RelayerGraph.Search.Store
import RelayerGraph.Search.Target
import RelayerGraph.Sends.Confirmations
import RelayerGraph.Sends.DiscardEffects
import RelayerGraph.Sends.DiscardRuns
import RelayerGraph.Sends.Discards
import RelayerGraph.Sends.DraftEffects
import RelayerGraph.Sends.DraftHistory
import RelayerGraph.Sends.DraftRuns
import RelayerGraph.Sends.InputDrafts
import RelayerGraph.Sends.Sending
import RelayerGraph.Desktop.ComposerDrafts
import RelayerGraph.Desktop.DraftBounds
import RelayerGraph.Desktop.DraftEviction
import RelayerGraph.Foundation.Components
import RelayerGraph.Foundation.CycleSearch
import RelayerGraph.Graph.CycleSearch
import RelayerGraph.Query.Joins
import RelayerGraph.Desktop.CatalogRefresh
import RelayerGraph.Desktop.RefreshChain
import RelayerGraph.Desktop.RefreshRuns
import RelayerGraph.Graph.CompletionHistories
import RelayerGraph.Query.Acceptance
import RelayerGraph.Query.AcceptedClauses
import RelayerGraph.Query.AcceptedPlans
import RelayerGraph.Query.PartOrder
import RelayerGraph.HarnessReadiness.Readiness
import RelayerGraph.Graph.Publications
import RelayerGraph.Recorder.Secrets
