import ProofDesk.Logic.Stack
import ProofDesk.Main
import ProofDesk.Proofs.Logic.Semantics
import ProofDesk.Proofs.Deduction.RuleSoundness
import ProofDesk.Proofs.Deduction.Positions
import ProofDesk.Proofs.Deduction.Checking
import ProofDesk.Proofs.Deduction.Soundness
import ProofDesk.Proofs.Deduction.Renumbering
import ProofDesk.Proofs.Deduction.Openings
import ProofDesk.Proofs.Deduction.Citations
import ProofDesk.Proofs.Deduction.Cells
import ProofDesk.Proofs.Deduction.Storage
import ProofDesk.Proofs.Deduction.Traversal
import ProofDesk.Proofs.Deduction.Simulation
import ProofDesk.Proofs.Deduction.References
import ProofDesk.Proofs.Deduction.Transparency
import ProofDesk.Proofs.Logic.Lexing
import ProofDesk.Proofs.Logic.Grammar
import ProofDesk.Proofs.Logic.Printing
import ProofDesk.Proofs.Logic.Scoping
import ProofDesk.Proofs.Logic.RoundTrip
import ProofDesk.Proofs.Logic.Acceptance
import ProofDesk.Proofs.Markup.Codec
import ProofDesk.Proofs.Limits.FormalInverse
import ProofDesk.Proofs.Limits.Rebuilding
import ProofDesk.Proofs.Deduction.Precedence
import ProofDesk.Proofs.Limits.Ambiguity
import ProofDesk.Proofs.Limits.GoalProgression
import ProofDesk.Proofs.Deduction.Reports
import ProofDesk.Proofs.Files.Loading
import ProofDesk.Proofs.Limits.Freshness
import ProofDesk.Proofs.Limits.Catalogue
import ProofDesk.Proofs.Limits.Separators
import ProofDesk.Proofs.Logic.Occurrences
import ProofDesk.Proofs.Logic.Composition
import ProofDesk.Proofs.Logic.Binding
import ProofDesk.Proofs.Limits.Alignment
import ProofDesk.Proofs.Limits.LineNumbers
import ProofDesk.Proofs.Deduction.RuleScoping
import ProofDesk.Proofs.Deduction.Undoing
import ProofDesk.Proofs.Deduction.LastingVerdicts
import ProofDesk.Proofs.Limits.Naming
import ProofDesk.Proofs.Limits.ShownGoals
import ProofDesk.Proofs.Limits.WrappedStates
import ProofDesk.Proofs.Limits.NormalForm
import ProofDesk.Proofs.Markup.CharacterReferences
import ProofDesk.Proofs.Logic.Symbols
import ProofDesk.Proofs.Logic.Layout
import ProofDesk.Proofs.Logic.WrittenSentences
