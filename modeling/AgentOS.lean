import AgentOS.Plan.Expiry
import AgentOS.Plan.Artifacts
import AgentOS.Runtime.Starts
import AgentOS.Runtime.Reconcile
import AgentOS.Platform.Creates
import AgentOS.Run.NexusRun
import AgentOS.Run.Supervision
import AgentOS.Runtime.Stream
import AgentOS.Plan.Orphans
import AgentOS.Plan.Dependencies
import AgentOS.Plan.Confluence
import AgentOS.Platform.ProcessWorkflow
import AgentOS.Agent.Children
import AgentOS.Agent.StepQueue
import AgentOS.Agent.Charges
import AgentOS.Eventlog.Router
import AgentOS.Stream.Dsh
import AgentOS.Stream.Ingest
import AgentOS.Tool.Redaction
import AgentOS.Plan.Reducer
import AgentOS.Plan.Topology
