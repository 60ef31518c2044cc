import FiberPrograms.Binary64
import FiberPrograms.CommandLine.Arguments
import FiberPrograms.CommandLine.Run
import FiberPrograms.Comp
import FiberPrograms.Demo
import FiberPrograms.Fault
import FiberPrograms.ForkJoin
import FiberPrograms.Inspect
import FiberPrograms.Interpreter
import FiberPrograms.Json.Basic
import FiberPrograms.Json.Parser
import FiberPrograms.Machine
import FiberPrograms.Main
import FiberPrograms.Moment
import FiberPrograms.Pattern.Basic
import FiberPrograms.Pattern.Parser
import FiberPrograms.Pattern.Usable
import FiberPrograms.Policy
import FiberPrograms.Pool
import FiberPrograms.Program
import FiberPrograms.Scalar
import FiberPrograms.Schedule
import FiberPrograms.Script.Closure
import FiberPrograms.Script.Eval
import FiberPrograms.Script.Handles
import FiberPrograms.Script.Syntax
import FiberPrograms.Script.Tally
import FiberPrograms.Script.Trial
import FiberPrograms.Session
import FiberPrograms.Settings.Basic
import FiberPrograms.Settings.DotEnv
import FiberPrograms.Settings.Error
import FiberPrograms.Settings.Library
import FiberPrograms.Settings.Load
import FiberPrograms.Settings.LogFilter
import FiberPrograms.Settings.Path
import FiberPrograms.Settings.Read
import FiberPrograms.Settings.Surroundings
import FiberPrograms.Settings.Tree
import FiberPrograms.Shape
import FiberPrograms.Text.Case
import FiberPrograms.Text.Hex
import FiberPrograms.Text.Hidden
import FiberPrograms.Text.Letter
import FiberPrograms.Text.Quoted
import FiberPrograms.Toml.Basic
import FiberPrograms.Toml.Dated
import FiberPrograms.Toml.Groups
import FiberPrograms.Toml.Parser
import FiberPrograms.Toml.Quoted
import FiberPrograms.Trace
import FiberPrograms.Tree
import FiberPrograms.Uuid
import FiberPrograms.Value
import FiberPrograms.Proofs.Calls
import FiberPrograms.Proofs.Semantics
import FiberPrograms.Proofs.Evaluation
import FiberPrograms.Proofs.Simulation
import FiberPrograms.Proofs.Holdings
import FiberPrograms.Proofs.Interleaving
import FiberPrograms.Proofs.LifeCycle
import FiberPrograms.Proofs.Mirrors
import FiberPrograms.Proofs.MonadLaws
import FiberPrograms.Proofs.ScheduleIndependence
import FiberPrograms.Proofs.Typing
import FiberPrograms.Proofs.Erasure
import FiberPrograms.Proofs.TypedComputations
import FiberPrograms.Proofs.TypedThreads
import FiberPrograms.Proofs.Stories
import FiberPrograms.Proofs.SoundScenes
import FiberPrograms.Proofs.TypeSafety
import FiberPrograms.Proofs.Observers
import FiberPrograms.Proofs.Observations
import FiberPrograms.Proofs.Ranks
import FiberPrograms.Proofs.DeadlockFreedom
import FiberPrograms.Proofs.Renaming
import FiberPrograms.Proofs.Equivariance
import FiberPrograms.Proofs.RenamedRuns
import FiberPrograms.Proofs.Reinterpretation
import FiberPrograms.Proofs.FinishedMachines
import FiberPrograms.Proofs.DoneMachines
import FiberPrograms.Proofs.FoundedPrograms
import FiberPrograms.Proofs.StepCounts
import FiberPrograms.Proofs.Depths
import FiberPrograms.Proofs.StackDepths
import FiberPrograms.Proofs.Sequences
import FiberPrograms.Proofs.Relocation
import FiberPrograms.Proofs.RelocatedRuns
import FiberPrograms.Proofs.Choices
import FiberPrograms.Proofs.RelocatedScenes
import FiberPrograms.Proofs.Twins
import FiberPrograms.Proofs.NestedCode
import FiberPrograms.Proofs.NestedRuns
import FiberPrograms.Proofs.Confinement
import FiberPrograms.Proofs.Drifts
import FiberPrograms.Proofs.UnreadFibers
import FiberPrograms.Proofs.Recomputation
import FiberPrograms.Proofs.Backends
import FiberPrograms.Proofs.BackendSteps
import FiberPrograms.Proofs.BackendAgreement
import FiberPrograms.Proofs.Forecasts
import FiberPrograms.Proofs.ForetoldRuns
import FiberPrograms.Proofs.ForetoldPrograms
import FiberPrograms.Proofs.FanOut
import FiberPrograms.Proofs.ExactSums
import FiberPrograms.Proofs.FailingReads
import FiberPrograms.Proofs.FiberChains
import FiberPrograms.Proofs.Countdowns
import FiberPrograms.Proofs.ShownMachines
import FiberPrograms.Proofs.LowerCase
import FiberPrograms.Proofs.Overlays
import FiberPrograms.Proofs.Layering
import FiberPrograms.Proofs.Libraries
import FiberPrograms.Proofs.SettingsLibrary
import FiberPrograms.Proofs.Variables
import FiberPrograms.Proofs.Documents
import FiberPrograms.Proofs.LoadedSettings
import FiberPrograms.Proofs.WrittenStrings
import FiberPrograms.Proofs.WrittenDocuments
import FiberPrograms.Proofs.WrittenSettings
