import Lox.Main
import Lox.Proofs.Accounting
import Lox.Proofs.Answers
import Lox.Proofs.Assignments
import Lox.Proofs.BigStep.Expression
import Lox.Proofs.BigStep.Statement
import Lox.Proofs.Bindings
import Lox.Proofs.Blame
import Lox.Proofs.Charges
import Lox.Proofs.Completeness.Expression
import Lox.Proofs.Completeness.Statement
import Lox.Proofs.Concatenation
import Lox.Proofs.CorrectPrefix
import Lox.Proofs.Correspondence
import Lox.Proofs.Demand
import Lox.Proofs.Evaluation
import Lox.Proofs.Exchange
import Lox.Proofs.Fuel
import Lox.Proofs.Histories
import Lox.Proofs.Interference
import Lox.Proofs.Isolation
import Lox.Proofs.Layout
import Lox.Proofs.Legible
import Lox.Proofs.Lexeme
import Lox.Proofs.LineNumbers
import Lox.Proofs.Lines
import Lox.Proofs.Logging
import Lox.Proofs.Lookahead
import Lox.Proofs.MissingSemicolons
import Lox.Proofs.NumberText
import Lox.Proofs.Outline
import Lox.Proofs.Parentheses
import Lox.Proofs.Piecewise
import Lox.Proofs.Progress
import Lox.Proofs.Prompting
import Lox.Proofs.Reading
import Lox.Proofs.Relabelling
import Lox.Proofs.Relining
import Lox.Proofs.Renaming
import Lox.Proofs.Rescanning
import Lox.Proofs.Resolution
import Lox.Proofs.RoundTrip
import Lox.Proofs.Scanning
import Lox.Proofs.Scopes
import Lox.Proofs.Seams
import Lox.Proofs.Segmentation
import Lox.Proofs.Shadowing
import Lox.Proofs.ShallowBinding
import Lox.Proofs.Shape
import Lox.Proofs.Simulation
import Lox.Proofs.Spelling
import Lox.Segment.Lemmas
