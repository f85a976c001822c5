import WorkerCluster.Address
import WorkerCluster.Binary64.Basic
import WorkerCluster.Binary64.Shortest
import WorkerCluster.Certificate
import WorkerCluster.Command.Arguments
import WorkerCluster.Command.Execution
import WorkerCluster.Config
import WorkerCluster.Datasets
import WorkerCluster.Hex
import WorkerCluster.Host.Files
import WorkerCluster.Host.Launcher
import WorkerCluster.Json.Basic
import WorkerCluster.Json.Codec
import WorkerCluster.Json.Source
import WorkerCluster.Link.Backlog
import WorkerCluster.Link.Event
import WorkerCluster.Link.Joining
import WorkerCluster.Link.Requests
import WorkerCluster.Link.Switchboard
import WorkerCluster.Link.Table
import WorkerCluster.Link.Writer
import WorkerCluster.Main
import WorkerCluster.Message.Channel
import WorkerCluster.Message.Cluster
import WorkerCluster.Message.Join
import WorkerCluster.Message.Remote
import WorkerCluster.Name
import WorkerCluster.Node.Basic
import WorkerCluster.Node.Client
import WorkerCluster.Node.Identity
import WorkerCluster.Node.Inbound
import WorkerCluster.Node.Loop
import WorkerCluster.Node.Run
import WorkerCluster.Node.Scheduling
import WorkerCluster.Node.Status
import WorkerCluster.Packet.Basic
import WorkerCluster.Packet.Error
import WorkerCluster.Packet.Frame
import WorkerCluster.Permissions
import WorkerCluster.Placement
import WorkerCluster.Replica
import WorkerCluster.Roster
import WorkerCluster.SortedMap
import WorkerCluster.Startup
import WorkerCluster.Store
import WorkerCluster.Supervisor.Basic
import WorkerCluster.Supervisor.Creation
import WorkerCluster.Supervisor.Lifecycle
import WorkerCluster.Supervisor.Routing
import WorkerCluster.Supervisor.Step
import WorkerCluster.Text.Blank
import WorkerCluster.Toml.Document
import WorkerCluster.Toml.Number
import WorkerCluster.Toml.Quoted
import WorkerCluster.Toml.Value
import WorkerCluster.Uuid
import WorkerCluster.Work
import WorkerCluster.Worker.Identity
import WorkerCluster.Worker.Lifecycle
import WorkerCluster.Worker.LogTail
import WorkerCluster.Worker.Plan
import WorkerCluster.Worker.Record
import WorkerCluster.Worker.Task
import WorkerCluster.Proofs.SortedMap
import WorkerCluster.Proofs.Supervisor.Turn
import WorkerCluster.Proofs.Supervisor.Sound
import WorkerCluster.Proofs.Supervisor.History
import WorkerCluster.Proofs.Supervisor.Processes
import WorkerCluster.Proofs.Supervisor.Story
import WorkerCluster.Proofs.Host.Launcher
import WorkerCluster.Proofs.Address
import WorkerCluster.Proofs.Hex
import WorkerCluster.Proofs.Json.Codec
import WorkerCluster.Proofs.Node.Follow
import WorkerCluster.Proofs.Node.Pair
import WorkerCluster.Proofs.Node.Relay
import WorkerCluster.Proofs.Node.Watch
import WorkerCluster.Proofs.Packet.Frame
import WorkerCluster.Proofs.Packet.Stream
import WorkerCluster.Proofs.Message
import WorkerCluster.Proofs.Node.Dialing
import WorkerCluster.Proofs.Node.Ownership
import WorkerCluster.Proofs.Store
import WorkerCluster.Proofs.Restart
import WorkerCluster.Proofs.Node.Meeting
import WorkerCluster.Proofs.Node.CaughtUp
import WorkerCluster.Proofs.Node.Memory
import WorkerCluster.Proofs.Placement
import WorkerCluster.Proofs.Link.Table
import WorkerCluster.Proofs.Link.Requests
import WorkerCluster.Proofs.Node.Turn
import WorkerCluster.Proofs.Node.Budget
import WorkerCluster.Proofs.Config
import WorkerCluster.Proofs.Config.Valid
import WorkerCluster.Proofs.Supervisor.Answers
import WorkerCluster.Proofs.Node.Forwarding
import WorkerCluster.Proofs.Work
import WorkerCluster.Proofs.Transaction
import WorkerCluster.Proofs.Handover
import WorkerCluster.Proofs.Node.Mirror
import WorkerCluster.Proofs.Json.Refusal
import WorkerCluster.Proofs.Link.Joining
import WorkerCluster.Proofs.Link.Delivery
import WorkerCluster.Proofs.Runs
import WorkerCluster.Proofs.Supervisor.Failure
import WorkerCluster.Proofs.Documents
import WorkerCluster.Proofs.Link.Shutdown
import WorkerCluster.Proofs.Selection
import WorkerCluster.Proofs.Roster
import WorkerCluster.Proofs.Node.Placing
import WorkerCluster.Proofs.Name
import WorkerCluster.Proofs.Host.Files
import WorkerCluster.Proofs.Supervisor.Stable
import WorkerCluster.Proofs.Supervisor.Starting
import WorkerCluster.Proofs.Supervisor.Budget
import WorkerCluster.Proofs.Supervisor.Creation
import WorkerCluster.Proofs.Supervisor.Apart
import WorkerCluster.Proofs.Supervisor.Queues
import WorkerCluster.Proofs.Supervisor.Growth
import WorkerCluster.Proofs.Node.Scaling
import WorkerCluster.Proofs.Supervisor.Holding
import WorkerCluster.Proofs.Supervisor.Consoles
import WorkerCluster.Proofs.Supervisor.Sweep
import WorkerCluster.Proofs.Supervisor.Connections
import WorkerCluster.Proofs.Packet.Cursor
import WorkerCluster.Proofs.Catalog
import WorkerCluster.Proofs.Node.Replies
import WorkerCluster.Proofs.Packet.Reader
import WorkerCluster.Proofs.Toml.Quoted
import WorkerCluster.Proofs.Toml.Document
import WorkerCluster.Proofs.Toml.Table
import WorkerCluster.Proofs.Host.Writing
import WorkerCluster.Proofs.Config.Saved
import WorkerCluster.Proofs.Address.Texts
import WorkerCluster.Proofs.Peers
import WorkerCluster.Proofs.Certificates
