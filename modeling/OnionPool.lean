import OnionPool.Api.Address
import OnionPool.Api.Json
import OnionPool.Api.Respond
import OnionPool.Balance
import OnionPool.Command.Startup
import OnionPool.Config.Basic
import OnionPool.Config.Environment
import OnionPool.Duration
import OnionPool.Failure
import OnionPool.FileTree.Basic
import OnionPool.FileTree.Edit
import OnionPool.FileTree.Path
import OnionPool.FileTree.Programs
import OnionPool.Launch.Chain
import OnionPool.Launch.Haproxy
import OnionPool.Launch.Privoxy
import OnionPool.Launch.Spec
import OnionPool.Launch.Tor
import OnionPool.Log.Filter
import OnionPool.Log.Format
import OnionPool.Log.Level
import OnionPool.Log.Stream
import OnionPool.Machine
import OnionPool.Main
import OnionPool.Pair.Life
import OnionPool.Pair.Site
import OnionPool.Pair.Startup
import OnionPool.Pair.State
import OnionPool.Pool.State
import OnionPool.Pool.Step
import OnionPool.Port.Allocator
import OnionPool.Port.Basic
import OnionPool.Port.Registry
import OnionPool.Port.Set
import OnionPool.Process.Basic
import OnionPool.Process.Outcome
import OnionPool.Process.Supervision
import OnionPool.Proofs.BackendWithdrawal
import OnionPool.Proofs.BurstTiming
import OnionPool.Proofs.ChainWiring
import OnionPool.Proofs.CompletionSignals
import OnionPool.Proofs.ConfigAcceptance
import OnionPool.Proofs.ConfigReading
import OnionPool.Proofs.ConfigText
import OnionPool.Proofs.EncodedText
import OnionPool.Proofs.HandoffGrace
import OnionPool.Proofs.Handoffs
import OnionPool.Proofs.LaunchAttempts
import OnionPool.Proofs.LaunchRetry
import OnionPool.Proofs.LaunchVerdict
import OnionPool.Proofs.LayoutText
import OnionPool.Proofs.LeaseHistory
import OnionPool.Proofs.LineHeadings
import OnionPool.Proofs.LineReading
import OnionPool.Proofs.OutputFraming
import OnionPool.Proofs.PairConfinement
import OnionPool.Proofs.PairDebts
import OnionPool.Proofs.PairStart
import OnionPool.Proofs.PairStep
import OnionPool.Proofs.PoolAccounting
import OnionPool.Proofs.PoolDrain
import OnionPool.Proofs.PoolFreshness
import OnionPool.Proofs.PoolHoldings
import OnionPool.Proofs.PoolOwnership
import OnionPool.Proofs.PoolTotals
import OnionPool.Proofs.PortCycle
import OnionPool.Proofs.PortLease
import OnionPool.Proofs.PortSupply
import OnionPool.Proofs.ProcessTransition
import OnionPool.Proofs.ProgramSearch
import OnionPool.Proofs.ProxyInstances
import OnionPool.Proofs.ProxyShutdown
import OnionPool.Proofs.ProxyTransition
import OnionPool.Proofs.Quietness
import OnionPool.Proofs.RegistryContents
import OnionPool.Proofs.ReloadCoverage
import OnionPool.Proofs.ReloadHistory
import OnionPool.Proofs.RequestQueue
import OnionPool.Proofs.RetirementOrder
import OnionPool.Proofs.Runs
import OnionPool.Proofs.ServingInstance
import OnionPool.Proofs.ShutdownProgress
import OnionPool.Proofs.StartupSteps
import OnionPool.Proofs.SupervisionStep
import OnionPool.Proofs.TaskMove
import OnionPool.Proofs.TaskCourse
import OnionPool.Proofs.TerminationCalls
import OnionPool.Proofs.TextCuts
import OnionPool.Proxy.Layout
import OnionPool.Proxy.Readback
import OnionPool.Proxy.State
import OnionPool.Proxy.Status
import OnionPool.Proxy.Step
import OnionPool.Rehearsal.Kind
import OnionPool.Rehearsal.Pair
import OnionPool.Rehearsal.Play
import OnionPool.Rehearsal.Pool
import OnionPool.Rehearsal.Proxy
import OnionPool.Rehearsal.Site
import OnionPool.Rehearsal.Supervision
import OnionPool.StopSignal
import OnionPool.System.OsError
import OnionPool.Text.Blank
import OnionPool.Text.Decimal
import OnionPool.Text.Invisible
import OnionPool.Text.Quoted
import OnionPool.Text.Split
import OnionPool.Text.Utf8
