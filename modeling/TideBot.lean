import TideBot.Lib.Machine
import TideBot.Lib.Dict
import TideBot.Lib.Text
import TideBot.Lib.Table
import TideBot.Lib.Locks
import TideBot.Lib.Json
import TideBot.Broker.State
import TideBot.Broker.Locks
import TideBot.Broker.Sessions
import TideBot.Broker.Sockets
import TideBot.Broker.Binding
import TideBot.Protocol.Command
import TideBot.Protocol.RoundTrip
import TideBot.Lib.Expiring
import TideBot.Extension.Transport
import TideBot.Extension.Replay
import TideBot.Broker.Workers
import TideBot.Lib.Pattern
import TideBot.Extension.Policy
import TideBot.Extension.TabController
import TideBot.Extension.Worker
import TideBot.Extension.Deadline
import TideBot.Extension.Target
import TideBot.Devices.Store
import TideBot.Devices.Refresh
import TideBot.Devices.Rotation
import TideBot.Devices.Duplicate
import TideBot.Devices.Grace
import TideBot.Lib.Traversal
import TideBot.Extension.SingleTab
import TideBot.Extension.Mutating
import TideBot.Extension.Dom
import TideBot.Presence.User
import TideBot.Presence.Store
import TideBot.Presence.Memory
import TideBot.Presence.Redis
import TideBot.Presence.Equivalence
import TideBot.Presence.Service
import TideBot.Presence.Order
import TideBot.Presence.Emission
import TideBot.Presence.Companion
import TideBot.Extension.Schedules
import TideBot.Extension.Occurrences
import TideBot.Lib.Bytes
import TideBot.Lib.JsonText
import TideBot.Workflow.Definition
import TideBot.Workflow.Encryption
import TideBot.Workflow.Replay
import TideBot.Workflow.Store
import TideBot.Workflow.Versions
import TideBot.Devices.Pairing
import TideBot.Devices.Grants
import TideBot.Lib.Regex
import TideBot.Lib.JsonTree
import TideBot.Protocol.Redaction
import TideBot.Extension.Auth
import TideBot.Extension.SignOut
import TideBot.Lib.PyJson
import TideBot.Lib.Forest
import TideBot.Chat.History
import TideBot.Chat.Forest
import TideBot.Chat.Agreement
import TideBot.Chat.Coverage
import TideBot.Scheduler.Automations
import TideBot.Scheduler.Timers
import TideBot.Access.Grants
import TideBot.Access.Models
import TideBot.Folders.Moves
import TideBot.Folders.Trees
import TideBot.Knowledge.Access
import TideBot.Knowledge.Directories
import TideBot.Redis.Ydoc
import TideBot.Redis.Signature
import TideBot.Workflow.Schedules
import TideBot.Workflow.ScheduleRuns
import TideBot.Broker.Revocation
import TideBot.Extension.Alarms
import TideBot.Subscription.Endpoint
import TideBot.Subscription.Workers
import TideBot.Extension.Recording
import TideBot.Chat.ToolApproval
import TideBot.Chat.UsageKept
import TideBot.Workflow.Rules
import TideBot.Extension.CatchUp
import TideBot.Lib.Week
import TideBot.Extension.RuleFields
import TideBot.Devices.Labels
import TideBot.Devices.Exchange
import TideBot.Lib.TextDecoder
import TideBot.Lib.Blocks
import TideBot.Extension.ChatStream
import TideBot.Lib.JsonLoads
import TideBot.Devices.RefreshCredential
import TideBot.Chat.Links
import TideBot.Chat.Deletion
import TideBot.Chat.Merging
import TideBot.Chat.Gaps
import TideBot.Chat.DeltaQueue
import TideBot.Chat.ResponseFold
import TideBot.Chat.ResponseRounds
import TideBot.Chat.TagDetection
import TideBot.Chat.TagRescan
import TideBot.Chat.TagStreams
import TideBot.Chat.ToolRounds
import TideBot.Folders.Repair
import TideBot.Folders.Subtrees
import TideBot.Lib.LocalTime
import TideBot.Lib.NextAfter
import TideBot.Scheduler.NextRun
import TideBot.Limits.RateLimit
import TideBot.Devices.ActionAudit
import TideBot.Access.Permissions
import TideBot.Access.Sharing
import TideBot.Chat.AnthropicBlocks
import TideBot.Extension.Shown
import TideBot.Subscription.Form
import TideBot.Extension.Voice
import TideBot.Folders.Shared
import TideBot.Folders.Deletion
import TideBot.Knowledge.Deletion
import TideBot.Lib.Lines
import TideBot.Chat.StreamLines
import TideBot.Chat.ToolPairs
import TideBot.Lib.JsonStrings
import TideBot.Chat.Sanitizing
import TideBot.Chat.Fork
import TideBot.Lib.Stripping
import TideBot.Extension.Downloads
import TideBot.Chat.UsageSums
import TideBot.Lib.Spread
import TideBot.Chat.AnthropicRequest
import TideBot.Chat.RequestTexts
import TideBot.Lib.JsonBrackets
import TideBot.Lib.JsonPrefixes
import TideBot.Chat.AnthropicResponse
import TideBot.Chat.ToolDeltas
import TideBot.Chat.StreamItems
import TideBot.Chat.ToolTracking
import TideBot.Chat.StreamAgreement
import TideBot.Lib.Timed
import TideBot.Auth.Tokens
import TideBot.Tasks.Registry
import TideBot.Tasks.Memory
import TideBot.Redis.Lease
import TideBot.Retrieval.Merging
import TideBot.Retrieval.Ranking
