import SelectorPath.CommandLine
import SelectorPath.Compiler
import SelectorPath.Custom.DefinitionFile
import SelectorPath.Custom.Expansion
import SelectorPath.Custom.NameUse
import SelectorPath.Custom.Registry
import SelectorPath.Custom.Template
import SelectorPath.Engine.Basic
import SelectorPath.Engine.Standard
import SelectorPath.Entries
import SelectorPath.Error
import SelectorPath.Json.Basic
import SelectorPath.Json.Parser
import SelectorPath.Json.Printer
import SelectorPath.Literal
import SelectorPath.Main
import SelectorPath.Pattern.Basic
import SelectorPath.Pattern.CharSet
import SelectorPath.Pattern.Class
import SelectorPath.Pattern.Escape
import SelectorPath.Pattern.Fault
import SelectorPath.Pattern.Lexeme
import SelectorPath.Pattern.Node
import SelectorPath.Pattern.Parser
import SelectorPath.Pattern.Place
import SelectorPath.Pattern.Plan
import SelectorPath.Pattern.Regular
import SelectorPath.Proofs.Drafts
import SelectorPath.PseudoClass
import SelectorPath.Selector.Cursor
import SelectorPath.Selector.Flag
import SelectorPath.Selector.Item
import SelectorPath.Selector.Lexeme
import SelectorPath.Selector.Parser
import SelectorPath.Text.Alphanumeric
import SelectorPath.Text.Basic
import SelectorPath.Text.Blank
import SelectorPath.Text.CaseFolding
import SelectorPath.Text.CaseMapping
import SelectorPath.Text.Digit
import SelectorPath.Text.Hex
import SelectorPath.Text.Quoted
import SelectorPath.Text.Occurrence
import SelectorPath.Text.Table
import SelectorPath.Text.Word
import SelectorPath.Token.Alias
import SelectorPath.Token.Basic
import SelectorPath.Token.Context
import SelectorPath.Token.Listing
import SelectorPath.Token.Trait
import SelectorPath.Token.Weight
import SelectorPath.Warning
import SelectorPath.XPath.Expr
import SelectorPath.XPath.Filter
import SelectorPath.XPath.Letters
import SelectorPath.XPath.Location
import SelectorPath.XPath.Position
import SelectorPath.XPath.Predicate
import SelectorPath.Proofs.Combinators
import SelectorPath.Proofs.Document
import SelectorPath.Proofs.Evaluation
import SelectorPath.Proofs.Lexing
import SelectorPath.Proofs.Reading
import SelectorPath.Proofs.PathReading
import SelectorPath.Proofs.LetterCase
import SelectorPath.Proofs.Predicates
import SelectorPath.Proofs.Conditions
import SelectorPath.Proofs.Compounds
import SelectorPath.Proofs.Selection
import SelectorPath.Proofs.CoreSelector
import SelectorPath.Proofs.Preservation
import SelectorPath.Proofs.Positions
import SelectorPath.Proofs.Complement
import SelectorPath.Proofs.Nesting
import SelectorPath.Proofs.PlainTokens
import SelectorPath.Proofs.ParsedShape
import SelectorPath.Proofs.PathGrammar
import SelectorPath.Proofs.StepOrder
import SelectorPath.Proofs.WellFormed
import SelectorPath.Proofs.Balance
import SelectorPath.Proofs.Items
import SelectorPath.Proofs.Spans
import SelectorPath.Proofs.Endings
import SelectorPath.Proofs.SelectorLists
import SelectorPath.Proofs.TokenShape
import SelectorPath.Proofs.Trimming
import SelectorPath.Proofs.Escapes
import SelectorPath.Proofs.Printing
import SelectorPath.Proofs.StandardEngine
import SelectorPath.Proofs.DefinitionOrder
import SelectorPath.Proofs.AuthorText
import SelectorPath.Proofs.QuotedStrings
import SelectorPath.Proofs.TypeContext
import SelectorPath.Proofs.PatternKeys
import SelectorPath.Proofs.Placeholders
import SelectorPath.Proofs.NameUses
import SelectorPath.Proofs.OpaqueLiterals
import SelectorPath.Proofs.ArgumentSpans
import SelectorPath.Proofs.TemplateUses
import SelectorPath.Proofs.CallDepth
import SelectorPath.Proofs.FaultPlaces
import SelectorPath.Proofs.PositionSets
import SelectorPath.Proofs.TextParts
import SelectorPath.Proofs.AttributeTests
import SelectorPath.Proofs.LetterFolding
import SelectorPath.Proofs.SelfMatching
import SelectorPath.Proofs.Connectives
import SelectorPath.Proofs.NestedPredicates
import SelectorPath.Proofs.Alternatives
import SelectorPath.Proofs.ForwardPass
import SelectorPath.Proofs.TypedSteps
import SelectorPath.Proofs.SinglePass
import SelectorPath.Proofs.Unmasking
import SelectorPath.Proofs.ArgumentGrammar
import SelectorPath.Proofs.CharacterReferences
import SelectorPath.Proofs.Encodings
import SelectorPath.Proofs.FirstOccurrences
import SelectorPath.Proofs.PredicatePieces
import SelectorPath.Proofs.LetterTables
import SelectorPath.Proofs.JsonGrammar
import SelectorPath.Proofs.InsertionOrder
