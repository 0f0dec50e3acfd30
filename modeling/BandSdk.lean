import BandSdk.Retention.Guarantees
import BandSdk.Rooms.Retained
import BandSdk.Turns.Grace
import BandSdk.Mailbox.Guarantees
import BandSdk.Backend.Admission
import BandSdk.Working.Order
import BandSdk.CrewFlow.Source
import BandSdk.CrewFlow.Subcrew
import BandSdk.Converters.LangChain
import BandSdk.Converters.PydanticAi
import BandSdk.Converters.Strands
import BandSdk.Converters.Google
import BandSdk.Agents.Metadata
import BandSdk.Omp.Chunks
import BandSdk.Acp.Narration
import BandSdk.Platform.Reconciliation
import BandSdk.Presence.Announcements
import BandSdk.Agents.Lifecycle
import BandSdk.Adapters.AnthropicTurns
import BandSdk.Gateway.Slots
import BandSdk.Opencode.Grants
import BandSdk.ClaudeSdk.Heard
import BandSdk.ClaudeSdk.Grants
import BandSdk.AcpServer.Order
import BandSdk.OmpRpc.Exchanges
import BandSdk.Rooms.Convergences
import BandSdk.Retention.Resumption
import BandSdk.Scheduling.Budgets
import BandSdk.Scheduling.Passes
import BandSdk.CrewFlow.Tags
import BandSdk.CrewFlow.Absorption
import BandSdk.CrewFlow.Synthesis
import BandSdk.CrewFlow.Redelivery
import BandSdk.Runtime.Replay
import BandSdk.Core.Redaction
import BandSdk.Core.ToolSchema
import BandSdk.Contacts.Deduplication
import BandSdk.Contacts.Broadcasts
import BandSdk.Runtime.Control
import BandSdk.Core.Disposal
import BandSdk.Runtime.Resolution
import BandSdk.Acp.Results
import BandSdk.Adapters.GeminiTrimming
import BandSdk.Bridge.Signals
import BandSdk.Codex.SessionKeys
import BandSdk.Codex.TokenUsage
import BandSdk.Core.Workspaces
import BandSdk.AcpServer.Sessions
import BandSdk.Runtime.Retained
import BandSdk.Retention.Spared
import BandSdk.Converters.ToolEvents
