import LlmAgent.Core.Dict
import LlmAgent.Core.Machine
import LlmAgent.Core.Automaton
import LlmAgent.Core.Numbered
import LlmAgent.Core.Frame
import LlmAgent.Core.Returns
import LlmAgent.Core.Offers
import LlmAgent.Core.Keyed
import LlmAgent.Core.Partition
import LlmAgent.Core.Potential
import LlmAgent.Core.ReadThrough
import LlmAgent.Runs.Domain
import LlmAgent.Runs.EventLog
import LlmAgent.Runs.EventPages
import LlmAgent.Runs.Stores
import LlmAgent.Runs.Lifecycle
import LlmAgent.Runs.StoreMachine
import LlmAgent.Runs.Refinement
import LlmAgent.Runs.StoreSpec
import LlmAgent.Runs.ClaimSpec
import LlmAgent.Runs.StoreRefinement
import LlmAgent.Runs.LifecycleSafety
import LlmAgent.Runs.StoreInvariant
import LlmAgent.Runs.ClaimContract
import LlmAgent.Runs.WaitingLease
import LlmAgent.Runs.QueueOrder
import LlmAgent.Runs.FailedCalls
import LlmAgent.Runs.IntentPreservation
import LlmAgent.Runs.Projection
import LlmAgent.Runs.LeaseExclusion
import LlmAgent.Runs.Suspension
import LlmAgent.Runs.IntakeCells
import LlmAgent.Runs.ClaimTurns
import LlmAgent.Runs.SteadyStores
import LlmAgent.Runs.Linearization
import LlmAgent.Runs.SerialOrder
import LlmAgent.Runs.SerialTurns
import LlmAgent.Runs.SerialEntries
import LlmAgent.Runs.Serializability
import LlmAgent.Worker.Consumer
import LlmAgent.Worker.System
import LlmAgent.Worker.Holding
import LlmAgent.Worker.Fencing
import LlmAgent.Worker.LoopSurvival
import LlmAgent.Worker.AtomicFinish
import LlmAgent.Worker.CancellationHonoured
import LlmAgent.Worker.UserCancellation
import LlmAgent.Worker.LeaseCoverage
import LlmAgent.Worker.LostLease
import LlmAgent.Worker.SoloSystem
import LlmAgent.Worker.SingleConsumer
import LlmAgent.Worker.WakeUp
import LlmAgent.Worker.Drain
import LlmAgent.Worker.RunExecutor
import LlmAgent.Worker.Checkpoints
import LlmAgent.Worker.Lifespan
import LlmAgent.Worker.OneLease
import LlmAgent.Api.AgentRoutes
import LlmAgent.Api.ClientView
import LlmAgent.Api.EventReader
import LlmAgent.Api.Gateway
import LlmAgent.Navigation.Random
import LlmAgent.Navigation.GeneticPath
import LlmAgent.Navigation.ValidSearch
import LlmAgent.Navigation.Offspring
import LlmAgent.Navigation.BestKept
import LlmAgent.Navigation.PathPoints
import LlmAgent.Navigation.Reach
import LlmAgent.Navigation.ThrottleRoute
import LlmAgent.Requests.Context
import LlmAgent.Requests.TokenExtractors
import LlmAgent.Requests.Authentication
import LlmAgent.Requests.Credentials
import LlmAgent.Requests.HostileMessages
import LlmAgent.Requests.TokenValidation
import LlmAgent.Requests.KeyCache
import LlmAgent.Requests.TokenAnswers
