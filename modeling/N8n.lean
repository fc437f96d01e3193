import N8n.Workflow.ConnectionIndexes
import N8n.Workflow.AugmentObject
import N8n.Workflow.ObservableObject
import N8n.Core.GraphExport
import N8n.Core.FilterDisabledNodes
import N8n.Core.FindSubgraph
import N8n.Core.StronglyConnectedComponents
import N8n.Core.ConnectionKeys
import N8n.Core.HandleCycles
import N8n.Core.RunPartialWorkflow
import N8n.Core.ExecutionLoop
import N8n.Core.WaitingShape
import N8n.Expression.ExpressionParser
import N8n.Expression.FromAIParseUtils
import N8n.NodeParameters.FilterParameter
import N8n.NodeParameters.NodeHelpers
import N8n.NodeParameters.SaveAndReload
import N8n.Concurrency.ConcurrencyQueue
import N8n.TaskRunners.ChunkedInput
import N8n.TaskRunners.MessageTypes
import N8n.TaskRunners.TaskRunner
import N8n.TaskRunners.PendingRequests
import N8n.TaskRunners.WorkConserving
import N8n.TaskRunners.TaskMoves
import N8n.TaskRunners.FinalAnswers
import N8n.TaskRunners.RequestPlaces
import N8n.TaskRunners.Isolation
import N8n.TaskRunners.BrokerAndRunner
import N8n.Workflow.WorkflowDataProxy
import N8n.Workflow.PairedItemLinks
import N8n.Workflow.GetPairedItem
import N8n.Concurrency.ConcurrencyControlService
import N8n.Concurrency.ActiveExecutions
import N8n.Concurrency.Shutdown
import N8n.Core.ScheduledTaskManager
import N8n.Core.ActiveWorkflows
import N8n.Core.Deactivation
import N8n.Executions.WaitTracker
import N8n.Executions.TimersArmed
import N8n.Executions.ResumedOnce
import N8n.Scaling.MultiMainSetup
import N8n.Scaling.ScalingService
import N8n.Webhooks.WebhookService
import N8n.Executions.WorkflowRunner
import N8n.Deduplication.ConcurrentCalls
import N8n.TaskRunners.BuiltInsParser
import N8n.Credentials.CredentialsService
import N8n.Workflows.EnterpriseWorkflowService
import N8n.Editor.CanvasUtils
import N8n.Editor.History
import N8n.Workflows.ActiveWorkflowManager
import N8n.Workflows.QueuedRetries
import N8n.Webhooks.TestWebhooks
import N8n.Library.Calendar
import N8n.Nodes.Schedule.GenericFunctions
import N8n.Nodes.Schedule.ExactIntervals
import N8n.Core.SourceGroups
import N8n.Core.FindStartNodes
import N8n.Core.CleanRunData
import N8n.Core.RecreatedState
import N8n.Core.InputPlacement
import N8n.Core.InputCustody
import N8n.Core.WaitingOrder
import N8n.Core.RetryOnFail
import N8n.Editor.WorkflowsStore
import N8n.Services.PruningService
import N8n.Library.JsonLines
import N8n.Eventbus.EventMessageClasses
import N8n.Eventbus.MessageEventBusLogWriter
import N8n.Eventbus.EventLog
import N8n.Eventbus.LogReplay
import N8n.Library.Distance
import N8n.NodeParameters.FilterOperators
import N8n.Workflow.SearchNodesBFS
import N8n.Library.PathCollection
import N8n.Workflow.ConnectedNodes
import N8n.Library.FirstRoute
import N8n.Workflow.NodeConnectionIndexes
import N8n.Library.SharedSearch
import N8n.Workflow.HighestNode
import N8n.Library.Turns
import N8n.NodeParameters.ResolveOrder
import N8n.Library.Errors
import N8n.Library.Rotation
import N8n.Core.EndlessLoop
import N8n.Core.ErrorOutput
import N8n.Library.ListMap
import N8n.NodeParameters.ParameterIssues
import N8n.Extensions.ArrayExtensions
import N8n.Nodes.SplitInBatches
import N8n.Deduplication.LatestModes
import N8n.Library.FirstCome
import N8n.TaskRunners.FairMatching
import N8n.Library.FirstBest
import N8n.Webhooks.DynamicWebhooks
import N8n.Executions.ExecutionRecovery
import N8n.Services.CacheService
import N8n.Library.PathTable
import N8n.Editor.PairedItemUtils
import N8n.Library.ObjectHeap
import N8n.Library.ReferenceScan
import N8n.Workflow.CircularRefs
import N8n.Workflow.RemoveCircularRefs
import N8n.Library.Memo
import N8n.Workflows.WorkflowHelpers
import N8n.Eventbus.AbstractEventMessage
import N8n.Library.WholeDouble
import N8n.Services.NamingService
import N8n.Eventbus.ExecutionMessages
import N8n.Nodes.Merge
import N8n.Nodes.CompareDatasets
