import Latticed.Rust.Outcome
import Latticed.Rust.Iter
import Latticed.Rust.Contiguous
import Latticed.Rust.Text
import Latticed.Rust.Bytes
import Latticed.Rust.Relay
import Latticed.Rust.Postcard
import Latticed.Rust.Checked
import Latticed.Rust.JsonText
import Latticed.LTS.Basic
import Latticed.LTS.Line
import Latticed.LTS.Writes
import Latticed.Engine.Facts
import Latticed.Engine.Abi
import Latticed.Engine.Llama
import Latticed.Engine.CandleShard
import Latticed.Engine.Calls
import Latticed.Engine.Samples
import Latticed.Engine.Split
import Latticed.Engine.Caches
import Latticed.Engine.Alignment
import Latticed.Engine.Failure
import Latticed.Engine.Ceiling
import Latticed.Engine.Underflow
import Latticed.Engine.Levels
import Latticed.Engine.Experts
import Latticed.Engine.Inventory
import Latticed.Engine.Weights
import Latticed.Net.Identity
import Latticed.Net.Trust
import Latticed.Net.Control
import Latticed.Net.Activation
import Latticed.Net.Stream
import Latticed.Net.Dispatch
import Latticed.Net.Mesh
import Latticed.Net.Dial
import Latticed.Net.Codec
import Latticed.Net.Wire
import Latticed.Net.Responses
import Latticed.Net.Received
import Latticed.Net.Serving
import Latticed.Net.Frames
import Latticed.Net.Lockstep
import Latticed.Net.Tunnel
import Latticed.Net.Confirm
import Latticed.Net.Fencing
import Latticed.Net.Tls
import Latticed.Net.Pairing
import Latticed.Net.Symbolic
import Latticed.Net.Registry
import Latticed.Net.PairingNetwork
import Latticed.Net.TrustFile
import Latticed.Net.TrustHandles
import Latticed.Net.TrustRestart
import Latticed.Daemon.Plan
import Latticed.Daemon.KvFigures
import Latticed.Daemon.Monotone
import Latticed.Daemon.Node
import Latticed.Daemon.ShardJobs
import Latticed.Daemon.StepSafety
import Latticed.Daemon.Generate
import Latticed.Daemon.EveryLayer
import Latticed.Daemon.Typing
import Latticed.Daemon.Decode
import Latticed.Daemon.Weights
import Latticed.Daemon.Sharing
import Latticed.Daemon.Introductions
import Latticed.Daemon.Provisioning
import Latticed.Daemon.Pair
import Latticed.Daemon.PairingSession
import Latticed.Daemon.Rosters
import Latticed.Daemon.RosterLaws
import Latticed.Daemon.Places
import Latticed.Daemon.Runtime
import Latticed.Daemon.Handler
import Latticed.Daemon.Exchange
import Latticed.Daemon.Wired
import Latticed.Daemon.ServerOwner
import Latticed.Daemon.Busy
import Latticed.Daemon.RpcSession
import Latticed.Daemon.Workers
import Latticed.Daemon.Convergence
import Latticed.Daemon.WorkerLoop
import Latticed.Daemon.SavedMaster
import Latticed.Daemon.Announce
import Latticed.Daemon.Chat
import Latticed.Daemon.Dialling
import Latticed.Daemon.ChatRun
import Latticed.Daemon.FindWorkers
import Latticed.Daemon.Commands
import Latticed.Daemon.Pipes
import Latticed.Daemon.EngineInfo
import Latticed.Net.Probe
