import Rulebook.Http
import Rulebook.Main
import Rulebook.Proofs.Entries
import Rulebook.Proofs.Grammar
import Rulebook.Proofs.Trees
import Rulebook.Proofs.Evaluation
import Rulebook.Proofs.Roots
import Rulebook.Proofs.Passage
import Rulebook.Proofs.Soundness
import Rulebook.Proofs.Semantics
import Rulebook.Proofs.Forgiveness
import Rulebook.Proofs.Pipeline
import Rulebook.Proofs.Exchange
import Rulebook.Proofs.Indifference
import Rulebook.Proofs.Inlining
import Rulebook.Proofs.Parsing
import Rulebook.Proofs.Positions
import Rulebook.Proofs.Faults
import Rulebook.Proofs.Literals
import Rulebook.Proofs.Lexemes
import Rulebook.Proofs.Layout
import Rulebook.Proofs.Scanning
import Rulebook.Proofs.Printing
import Rulebook.Proofs.Words
import Rulebook.Proofs.Composition
import Rulebook.Proofs.Compaction
import Rulebook.Proofs.Escapes
import Rulebook.Proofs.Documents
import Rulebook.Proofs.Names
import Rulebook.Proofs.Rulesets
import Rulebook.Proofs.Directories
import Rulebook.Proofs.Stores
import Rulebook.Proofs.Histories
import Rulebook.Proofs.RuleTexts
import Rulebook.Proofs.Building
import Rulebook.Proofs.Services
import Rulebook.Proofs.Crashes
import Rulebook.Proofs.Endings
import Rulebook.Proofs.FloatFree
import Rulebook.Proofs.Logs
import Rulebook.Proofs.Refusals
import Rulebook.Proofs.Routes
import Rulebook.Proofs.Memory
import Rulebook.Proofs.Answers
import Rulebook.Proofs.Requests
import Rulebook.Proofs.Normalization
import Rulebook.Proofs.Equality
import Rulebook.Proofs.NullFree
import Rulebook.Proofs.Identifiers
import Rulebook.Proofs.Retention
import Rulebook.Proofs.Batches
import Rulebook.Proofs.Connectives
import Rulebook.Proofs.CallForms
import Rulebook.Proofs.Division
import Rulebook.Proofs.Comparisons
import Rulebook.Proofs.Tiling
import Rulebook.Proofs.Quotations
import Rulebook.Proofs.Splitting
import Rulebook.Proofs.Executions
import Rulebook.Proofs.Numerals
import Rulebook.Proofs.Registries
import Rulebook.Proofs.Identities
import Rulebook.Proofs.Renaming
import Rulebook.Proofs.Descriptions
import Rulebook.Proofs.FrontEnds
