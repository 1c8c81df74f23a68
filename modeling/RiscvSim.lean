import RiscvSim.Bytes
import RiscvSim.Runs
import RiscvSim.Memory
import RiscvSim.Slots
import RiscvSim.Fields
import RiscvSim.Cache
import RiscvSim.CacheAddress
import RiscvSim.CacheRows
import RiscvSim.CacheFlat
import RiscvSim.Tlb
import RiscvSim.TlbWalk
import RiscvSim.BranchPredictor
import RiscvSim.Instructions
import RiscvSim.Pipeline
import RiscvSim.Simulator
import RiscvSim.Handlers
import RiscvSim.Refinement
import RiscvSim.FlatPipeline
import RiscvSim.FetchWalk
import RiscvSim.Requests
import RiscvSim.Polls
import RiscvSim.PageWalk
import RiscvSim.WriteBacks
import RiscvSim.Forwarding
import RiscvSim.Redirect
import RiscvSim.Clients
import RiscvSim.Buffers
import RiscvSim.Delivery
import RiscvSim.Replay
import RiscvSim.Decoding
import RiscvSim.Traps
import RiscvSim.Arithmetic
import RiscvSim.Division
import RiscvSim.Multiplication
import RiscvSim.Dispatch
import RiscvSim.Prediction
import RiscvSim.Ranges
import RiscvSim.CText
import RiscvSim.DataFiles
import RiscvSim.HexDump
import RiscvSim.CacheHits
import RiscvSim.CacheFills
import RiscvSim.LoadValues
import RiscvSim.Suspension
import RiscvSim.CacheWaits
import RiscvSim.VirtualMemory
import RiscvSim.Answers
import RiscvSim.Paging
import RiscvSim.CodeRows
import RiscvSim.MemoryStage
import RiscvSim.Watching
import RiscvSim.Tidy
import RiscvSim.StalledLoads
import RiscvSim.Latency
import RiscvSim.Commits
import RiscvSim.Statistics
import RiscvSim.Footprint
import RiscvSim.Throughput
import RiscvSim.Sessions
import RiscvSim.Commands
import RiscvSim.RegisterDump
import RiscvSim.Checkpoints
import RiscvSim.Interaction
import RiscvSim.Running
import RiscvSim.TestScript
import RiscvSim.Aborts
