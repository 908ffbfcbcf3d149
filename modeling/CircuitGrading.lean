import CircuitGrading.Assignment
import CircuitGrading.Assignment.Update
import CircuitGrading.Circuit.Basic
import CircuitGrading.Circuit.Commuted
import CircuitGrading.Circuit.Evaluation
import CircuitGrading.Circuit.Fingerprint
import CircuitGrading.Circuit.Written
import CircuitGrading.Expression.Call
import CircuitGrading.Expression.Error
import CircuitGrading.Expression.Grammar
import CircuitGrading.Expression.Level
import CircuitGrading.Expression.Reading
import CircuitGrading.Gate
import CircuitGrading.Grading.Clock
import CircuitGrading.Grading.Grader
import CircuitGrading.Grading.Outcome
import CircuitGrading.Grading.Report
import CircuitGrading.Grading.Run
import CircuitGrading.Grading.Session
import CircuitGrading.Grading.Texts
import CircuitGrading.Grading.Verdict
import CircuitGrading.Json.Circuit
import CircuitGrading.Json.Fields
import CircuitGrading.Json.Report
import CircuitGrading.Json.Respelled
import CircuitGrading.Json.Value
import CircuitGrading.Letter
import CircuitGrading.Letter.Name
import CircuitGrading.LetterSet
import CircuitGrading.LetterSet.Gathering
import CircuitGrading.Proofs.BracketErrors
import CircuitGrading.Proofs.CallShape
import CircuitGrading.Proofs.Cancellation
import CircuitGrading.Proofs.CanonicalText
import CircuitGrading.Proofs.Collision
import CircuitGrading.Proofs.Composition
import CircuitGrading.Proofs.Cutting
import CircuitGrading.Proofs.Dependence
import CircuitGrading.Proofs.Enumeration
import CircuitGrading.Proofs.Equivalence
import CircuitGrading.Proofs.Evaluation
import CircuitGrading.Proofs.ExchangedRoles
import CircuitGrading.Proofs.Fragments
import CircuitGrading.Proofs.GatheredLetters
import CircuitGrading.Proofs.Grammar
import CircuitGrading.Proofs.IdleLetters
import CircuitGrading.Proofs.JsonForm
import CircuitGrading.Proofs.LetterNames
import CircuitGrading.Proofs.Levels
import CircuitGrading.Proofs.Limits
import CircuitGrading.Proofs.Loading
import CircuitGrading.Proofs.Negation
import CircuitGrading.Proofs.OperandOrder
import CircuitGrading.Proofs.PartialMap
import CircuitGrading.Proofs.Reading
import CircuitGrading.Proofs.Refusal
import CircuitGrading.Proofs.ReportForm
import CircuitGrading.Proofs.Spelling
import CircuitGrading.Proofs.TextQuantities
import CircuitGrading.Proofs.Transcript
import CircuitGrading.Proofs.TruthTable
import CircuitGrading.Proofs.Uppercase
import CircuitGrading.Proofs.Valuations
import CircuitGrading.Proofs.WrittenForm
import CircuitGrading.Text.Basic
import CircuitGrading.Text.Blank
import CircuitGrading.Text.Condensed
import CircuitGrading.Text.Fnv1a
import CircuitGrading.Text.Respelled
import CircuitGrading.Text.SpareComma
import CircuitGrading.Text.Uppercase
import CircuitGrading.Text.Word
