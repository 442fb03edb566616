import Telemetry.App
import Telemetry.Arithmetic
import Telemetry.Calculator
import Telemetry.Channel
import Telemetry.CommandLine
import Telemetry.Config
import Telemetry.Config.Dashboard
import Telemetry.Config.Reader
import Telemetry.Derivation
import Telemetry.Engine
import Telemetry.Event
import Telemetry.Fault
import Telemetry.Formula
import Telemetry.Hexadecimal
import Telemetry.Json.Basic
import Telemetry.Json.Codec
import Telemetry.Json.Number
import Telemetry.Json.Reader
import Telemetry.Json.Text
import Telemetry.Main
import Telemetry.Metering.Exposition
import Telemetry.Metering.Family
import Telemetry.Metering.Gauge
import Telemetry.Metering.Histogram
import Telemetry.Metering.Label
import Telemetry.Metering.RunMetrics
import Telemetry.Number.Exact
import Telemetry.Number.Literal
import Telemetry.Number.Shortest
import Telemetry.Number.Style
import Telemetry.Observer.Dispatch
import Telemetry.Observer.Reaction
import Telemetry.Observer.Registry
import Telemetry.Operation
import Telemetry.Proofs.Accumulators
import Telemetry.Proofs.AlertHistory
import Telemetry.Proofs.Announcements
import Telemetry.Proofs.AppRuns
import Telemetry.Proofs.Atomicity
import Telemetry.Proofs.AverageExecution
import Telemetry.Proofs.AverageSimulation
import Telemetry.Proofs.BoardTallies
import Telemetry.Proofs.CalculatorRuns
import Telemetry.Proofs.CanonicalSnapshots
import Telemetry.Proofs.ConfigAcceptance
import Telemetry.Proofs.ConfigurationDocuments
import Telemetry.Proofs.CounterAgreement
import Telemetry.Proofs.CyclicDraws
import Telemetry.Proofs.DeclaredInputs
import Telemetry.Proofs.Deliveries
import Telemetry.Proofs.DerivationTurns
import Telemetry.Proofs.DispatchIsolation
import Telemetry.Proofs.DispatchRecords
import Telemetry.Proofs.DrivenRuns
import Telemetry.Proofs.EngineAudits
import Telemetry.Proofs.EngineChecks
import Telemetry.Proofs.EngineLedger
import Telemetry.Proofs.EngineRefusals
import Telemetry.Proofs.EngineRegistrations
import Telemetry.Proofs.EngineRuns
import Telemetry.Proofs.ExactArithmetic
import Telemetry.Proofs.ExactMeans
import Telemetry.Proofs.ExpositionReading
import Telemetry.Proofs.FloatOrder
import Telemetry.Proofs.FloatRange
import Telemetry.Proofs.FloatValues
import Telemetry.Proofs.FormulaInputs
import Telemetry.Proofs.HistogramBuckets
import Telemetry.Proofs.Histories
import Telemetry.Proofs.JsonNumbers
import Telemetry.Proofs.JsonReading
import Telemetry.Proofs.LabelledSeries
import Telemetry.Proofs.ListenerIndependence
import Telemetry.Proofs.MeanBounds
import Telemetry.Proofs.NearestNumber
import Telemetry.Proofs.OrderedDispatch
import Telemetry.Proofs.ReactionLogs
import Telemetry.Proofs.ReferenceClosure
import Telemetry.Proofs.Refusal
import Telemetry.Proofs.RuleEdges
import Telemetry.Proofs.RuleFlags
import Telemetry.Proofs.SessionSteps
import Telemetry.Proofs.SimulatorRuns
import Telemetry.Proofs.SnapshotReadings
import Telemetry.Proofs.StoreIndex
import Telemetry.Proofs.StoreMap
import Telemetry.Proofs.SubscriptionHistory
import Telemetry.Proofs.Subscriptions
import Telemetry.Proofs.Tallies
import Telemetry.Proofs.WalkBounds
import Telemetry.Proofs.WalkOrder
import Telemetry.Rule
import Telemetry.RunningMean
import Telemetry.Schedule
import Telemetry.Simulator
import Telemetry.Snapshot
import Telemetry.Source
import Telemetry.Span
import Telemetry.Store
import Telemetry.Value
import Telemetry.Yaml.Glyph
import Telemetry.Yaml.Node
import Telemetry.Yaml.Reading
import Telemetry.Yaml.Scalar
