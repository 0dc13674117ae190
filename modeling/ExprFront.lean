import ExprFront.CommandLine.Run
import ExprFront.Main
import ExprFront.Proofs.Lexemes
import ExprFront.Proofs.Coordinates
import ExprFront.Proofs.Ahead
import ExprFront.Proofs.Contract
import ExprFront.Proofs.Spelling
import ExprFront.Proofs.Parsed
import ExprFront.Proofs.Soundness
import ExprFront.Proofs.Failures
import ExprFront.Proofs.Completeness
import ExprFront.Proofs.Writing
import ExprFront.Proofs.Likeness
import ExprFront.Proofs.Layout
import ExprFront.Proofs.Concatenation
import ExprFront.Proofs.Anchors
import ExprFront.Proofs.Beginnings
import ExprFront.Proofs.Viability
import ExprFront.Proofs.ReadPoint
import ExprFront.Proofs.Reach
import ExprFront.Proofs.Skeleton
import ExprFront.Proofs.Numerals
import ExprFront.Proofs.Sources
import ExprFront.Proofs.LongestMatch
import ExprFront.Proofs.Offsets
import ExprFront.Proofs.Alternation
import ExprFront.Proofs.Sites
import ExprFront.Proofs.FaultPlaces
import ExprFront.Proofs.IntegerTypes
import ExprFront.Proofs.ExactTypes
import ExprFront.Proofs.Ranges
import ExprFront.Proofs.Outcomes
import ExprFront.Proofs.Readback
import ExprFront.Proofs.Dumps
import ExprFront.Proofs.Lines
import ExprFront.Proofs.Visits
import ExprFront.Proofs.FloatTypes
import ExprFront.Proofs.Lengths
