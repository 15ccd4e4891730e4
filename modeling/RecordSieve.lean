import RecordSieve.Main
import RecordSieve.Proofs.Query.Lookup
import RecordSieve.Proofs.Sql.Lowering
import RecordSieve.Proofs.Sql.Meaning
import RecordSieve.Proofs.Record.Writing
import RecordSieve.Proofs.Run.FailedRun
import RecordSieve.Proofs.Sql.Grammar
import RecordSieve.Proofs.Sql.Precedence
import RecordSieve.Proofs.Sql.OperandReading
import RecordSieve.Proofs.Sql.Completeness
import RecordSieve.Proofs.Number.Numeral
import RecordSieve.Proofs.Sql.Lexing
import RecordSieve.Proofs.Clause.Spelling
import RecordSieve.Proofs.Clause.Completeness
import RecordSieve.Proofs.Sql.OperandSoundness
import RecordSieve.Proofs.Sql.Soundness
import RecordSieve.Proofs.Number.Rounding
import RecordSieve.Proofs.Number.Shortest
import RecordSieve.Proofs.Number.Printing
import RecordSieve.Proofs.Sql.Step
import RecordSieve.Proofs.Clause.Printed
import RecordSieve.Proofs.Clause.RoundTrip
import RecordSieve.Proofs.Filter.Agreement
import RecordSieve.Proofs.Sql.Leftover
import RecordSieve.Proofs.Clause.Source
import RecordSieve.Proofs.Clause.Texts
import RecordSieve.Proofs.Clause.Comments
import RecordSieve.Proofs.Settings.Compiling
import RecordSieve.Proofs.Run.Selection
import RecordSieve.Proofs.Run.Outline
import RecordSieve.Proofs.Run.Threads
import RecordSieve.Proofs.Run.Certainty
import RecordSieve.Proofs.Run.Delivery
import RecordSieve.Proofs.Run.Strictness
import RecordSieve.Proofs.Json.Members
import RecordSieve.Proofs.Json.Numeral
import RecordSieve.Proofs.Json.Layout
import RecordSieve.Proofs.Json.Reading
import RecordSieve.Proofs.Json.Rereading
import RecordSieve.Proofs.Json.Trailing
import RecordSieve.Proofs.Record.Lines
import RecordSieve.Proofs.Record.LineByLine
import RecordSieve.Proofs.GeoJson.Rewriting
import RecordSieve.Proofs.Record.RoundTrip
import RecordSieve.Proofs.Record.Collection
import RecordSieve.Proofs.Run.Features
import RecordSieve.Proofs.Run.Names
import RecordSieve.Proofs.Run.Rerun
import RecordSieve.Proofs.Clause.Shape
import RecordSieve.Proofs.Settings.Answers
import RecordSieve.Proofs.Settings.Serialization
import RecordSieve.Proofs.Record.Conversion
import RecordSieve.Proofs.Run.Marking
import RecordSieve.Proofs.Sql.Offences
import RecordSieve.Proofs.Clause.Cutting
import RecordSieve.Proofs.Clause.Normality
import RecordSieve.Proofs.Clause.Acceptance
import RecordSieve.Proofs.Query.Evaluation
import RecordSieve.Proofs.Query.Laws
import RecordSieve.Proofs.Query.Order
import RecordSieve.Proofs.Filter.Dependence
import RecordSieve.Proofs.Filter.Composition
import RecordSieve.Proofs.Query.Failure
