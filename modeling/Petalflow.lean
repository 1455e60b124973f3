import Petalflow.Nodes.Tool
import Petalflow.Nodes.Streaming
import Petalflow.Nodes.CacheKey
import Petalflow.Nodes.CacheStore
import Petalflow.Graph.Builder
import Petalflow.Runtime.Parallel.Confluence
import Petalflow.Runtime.SameWork
import Petalflow.Runtime.RecordedErrors
import Petalflow.Runtime.RunLog
import Petalflow.Runtime.StepChannel
import Petalflow.Bus.Order
import Petalflow.Server.RunInput
import Petalflow.Server.Streaming
import Petalflow.Server.Overlaps
import Petalflow.Agent.Conditions
import Petalflow.Agent.References
import Petalflow.Server.Workflows
import Petalflow.Server.WorkflowTable
import Petalflow.Tool.Compatibility
import Petalflow.Tool.Migration
import Petalflow.Tool.Discovery
import Petalflow.Tool.Interleaving
import Petalflow.Tool.McpPool
import Petalflow.Tool.McpConnection
import Petalflow.Tool.Stdio
import Petalflow.Daemon.Config
import Petalflow.Daemon.Catalog
import Petalflow.Nodes.Expr.Equality
import Petalflow.Nodes.Expr.Precedence
import Petalflow.Nodes.Filter
