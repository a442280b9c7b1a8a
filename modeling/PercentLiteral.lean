import PercentLiteral.Main
import PercentLiteral.Proofs.Command.Delivery
import PercentLiteral.Proofs.Escape.Canonical
import PercentLiteral.Proofs.Render.Skeleton
import PercentLiteral.Proofs.Scan.Leftmost
import PercentLiteral.Proofs.Scan.Printing
import PercentLiteral.Proofs.Scan.Concatenation
import PercentLiteral.Proofs.Scan.Sublanguage
import PercentLiteral.Proofs.Escape.Agreement
import PercentLiteral.Proofs.Words.Runs
import PercentLiteral.Proofs.Words.Spelling
import PercentLiteral.Proofs.Words.Places
import PercentLiteral.Proofs.Scan.Alignment
import PercentLiteral.Proofs.Scan.Parity
import PercentLiteral.Proofs.Log.Configuration
import PercentLiteral.Proofs.Command.Logging
import PercentLiteral.Proofs.Words.Encoded
import PercentLiteral.Proofs.Words.Fragments
import PercentLiteral.Proofs.Interpolation.Extraction
import PercentLiteral.Proofs.Location.Lines
import PercentLiteral.Proofs.Render.Messages
import PercentLiteral.Proofs.Command.Evaluators
import PercentLiteral.Proofs.Command.Variables
import PercentLiteral.Proofs.Json.Lines
