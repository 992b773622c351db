import Uncalled.Calls
import Uncalled.Catalogue
import Uncalled.Command
import Uncalled.CommandLine
import Uncalled.Declaration
import Uncalled.FileTree
import Uncalled.Helper
import Uncalled.Main
import Uncalled.Overlay
import Uncalled.Package
import Uncalled.Page
import Uncalled.Pattern
import Uncalled.Profile.Basic
import Uncalled.Profile.Boundary
import Uncalled.Profile.Reader
import Uncalled.Report
import Uncalled.Scope
import Uncalled.Settings
import Uncalled.Source.Grammar.Basic
import Uncalled.Source.Grammar.Expressions
import Uncalled.Source.Grammar.Files
import Uncalled.Source.Grammar.Statements
import Uncalled.Source.Grammar.Types
import Uncalled.Source.Lexer
import Uncalled.Source.Syntax
import Uncalled.Source.Token
import Uncalled.Summary
import Uncalled.Text.Decimal
import Uncalled.Text.Identifier
import Uncalled.Text.Quoted
import Uncalled.Text.Utf8
import Uncalled.Yaml.Cell
import Uncalled.Yaml.Node
import Uncalled.Yaml.Scalar
import Uncalled.Yaml.Token
import Uncalled.Proofs.Events
import Uncalled.Proofs.Visited
import Uncalled.Proofs.Binding
import Uncalled.Proofs.PlainNames
import Uncalled.Proofs.Soundness
import Uncalled.Proofs.Catalogue
import Uncalled.Proofs.Paths
import Uncalled.Proofs.Loading
import Uncalled.Proofs.Dependence
import Uncalled.Proofs.Conservation
import Uncalled.Proofs.Directness
import Uncalled.Proofs.Independence
import Uncalled.Proofs.Growth
import Uncalled.Proofs.ByteOrder
import Uncalled.Proofs.ProfileText
import Uncalled.Proofs.ProfileMeaning
import Uncalled.Proofs.ProfileRoundTrip
import Uncalled.Proofs.Decoding
import Uncalled.Proofs.ExitStatus
import Uncalled.Proofs.Boundaries
import Uncalled.Proofs.Tags
import Uncalled.Proofs.Positions
import Uncalled.Proofs.Spans
import Uncalled.Proofs.Restored
import Uncalled.Proofs.IndirectCoverage
import Uncalled.Proofs.Atomicity
import Uncalled.Proofs.Signatures
import Uncalled.Proofs.Assignments
import Uncalled.Proofs.Counting
import Uncalled.Proofs.Faded
import Uncalled.Proofs.Alike
import Uncalled.Proofs.AlikeExpressions
import Uncalled.Proofs.AlikeFiles
import Uncalled.Proofs.Numerals
import Uncalled.Proofs.TokenEnds
import Uncalled.Proofs.Comments
import Uncalled.Proofs.Placement
import Uncalled.Proofs.Declared
import Uncalled.Proofs.Listing
import Uncalled.Proofs.Agreement
import Uncalled.Proofs.Outcomes
import Uncalled.Proofs.ProfileConflicts
import Uncalled.Proofs.ProfileFaults
import Uncalled.Proofs.Confinement
import Uncalled.Proofs.Entities
