import SieveChain.Sieve
import SieveChain.Record.Shared
import SieveChain.Fault.Context
import SieveChain.Channel.Receive
import SieveChain.Channel.Send
import SieveChain.Channel.Pipe
import SieveChain.Scripted.Trace
import SieveChain.Config.File
import SieveChain.Host.Programs
import SieveChain.Host.Threads
import SieveChain.Concurrent.System
import SieveChain.Concurrent.Crossing
import SieveChain.CommandLine.Answer
import SieveChain.Main
import SieveChain.Proofs.Account
import SieveChain.Proofs.Replies
import SieveChain.Proofs.Sieving
import SieveChain.Proofs.StageAccount
import SieveChain.Proofs.StageSteps
import SieveChain.Proofs.StageConduct
import SieveChain.Proofs.StageEffort
import SieveChain.Proofs.FeederAccount
import SieveChain.Proofs.Surroundings
import SieveChain.Proofs.Driving
import SieveChain.Proofs.Chains
import SieveChain.Proofs.FedChains
import SieveChain.Proofs.Threads
import SieveChain.Proofs.Pipes
import SieveChain.Proofs.Parties
import SieveChain.Proofs.Schedules
import SieveChain.Proofs.StageOrder
import SieveChain.Proofs.Lineage
import SieveChain.Proofs.Chronicles
import SieveChain.Proofs.Accounting
import SieveChain.Proofs.Flows
import SieveChain.Proofs.Faults
import SieveChain.Proofs.Refusals
import SieveChain.Proofs.Receiving
import SieveChain.Proofs.Sending
import SieveChain.Proofs.StageOutput
import SieveChain.Proofs.StageResults
import SieveChain.Proofs.StageNotices
import SieveChain.Proofs.StageFaults
import SieveChain.Proofs.Documents
import SieveChain.Proofs.Numerals
import SieveChain.Proofs.Layers
import SieveChain.Proofs.Requests
import SieveChain.Proofs.Backends
import SieveChain.Proofs.Cascades
import SieveChain.Proofs.Conservation
import SieveChain.Proofs.Ceilings
import SieveChain.Proofs.Crossings
import SieveChain.Proofs.StageMoves
import SieveChain.Proofs.StageSlots
import SieveChain.Proofs.StageCalls
import SieveChain.Proofs.SlotCalls
import SieveChain.Proofs.CutStreams
import SieveChain.Proofs.PipeHistories
import SieveChain.Proofs.FeederRuns
import SieveChain.Proofs.StageCleanup
import SieveChain.Proofs.RecordLines
import SieveChain.Proofs.SharedRecords
import SieveChain.Proofs.Configurations
import SieveChain.Proofs.Contexts
import SieveChain.Proofs.Renderings
