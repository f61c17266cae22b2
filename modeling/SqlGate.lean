import SqlGate.Main
import SqlGate.Proofs.OneLimit
import SqlGate.Proofs.PostgresComments
import SqlGate.Proofs.ReadAgain
import SqlGate.Proofs.EngineReading
import SqlGate.Proofs.LimitFrame
import SqlGate.Proofs.SqlServerComments
import SqlGate.Proofs.HashLines
import SqlGate.Proofs.MySqlComments
import SqlGate.Proofs.ReportedLimits
import SqlGate.Proofs.GluedNumbers
import SqlGate.Proofs.WholeResult
import SqlGate.Proofs.SameEdits
import SqlGate.Proofs.Decisions
import SqlGate.Proofs.RequestedOffsets
import SqlGate.Proofs.NormalTwice
import SqlGate.Proofs.Rules
import SqlGate.Proofs.LimitOperands
import SqlGate.Proofs.TopPercent
import SqlGate.Proofs.NestedSubscripts
import SqlGate.Proofs.ClauseEdges
import SqlGate.Proofs.QueryEnds
import SqlGate.Proofs.PlainReads
import SqlGate.Proofs.KeptText
import SqlGate.Proofs.EnvironmentSettings
import SqlGate.Proofs.Alignment
