import TypeScribe.Decimal
import TypeScribe.Declaration
import TypeScribe.Decoder
import TypeScribe.Decoder.Body
import TypeScribe.Decoder.Converter
import TypeScribe.Descriptor
import TypeScribe.FieldType
import TypeScribe.Json.Document
import TypeScribe.Json.Fields
import TypeScribe.Json.Kinded
import TypeScribe.Json.Number
import TypeScribe.Json.ReadError
import TypeScribe.Json.Reader
import TypeScribe.Json.Text
import TypeScribe.Name.Transform
import TypeScribe.Ocaml.Term
import TypeScribe.Ocaml.Token
import TypeScribe.Ocaml.TypeExpr
import TypeScribe.Options
import TypeScribe.Proofs.Acceptance
import TypeScribe.Proofs.ArgumentLists
import TypeScribe.Proofs.Batches
import TypeScribe.Proofs.Blocks
import TypeScribe.Proofs.BodyEvaluation
import TypeScribe.Proofs.BodyReading
import TypeScribe.Proofs.CaseStyles
import TypeScribe.Proofs.Classification
import TypeScribe.Proofs.Comparison
import TypeScribe.Proofs.Containment
import TypeScribe.Proofs.Conversion
import TypeScribe.Proofs.Dispatch
import TypeScribe.Proofs.Erasure
import TypeScribe.Proofs.Evaluation
import TypeScribe.Proofs.FilledMaps
import TypeScribe.Proofs.Formatting
import TypeScribe.Proofs.Functions
import TypeScribe.Proofs.GroupTexts
import TypeScribe.Proofs.HoistedNames
import TypeScribe.Proofs.Hoisting
import TypeScribe.Proofs.Hygiene
import TypeScribe.Proofs.InOrder
import TypeScribe.Proofs.Interfaces
import TypeScribe.Proofs.Labels
import TypeScribe.Proofs.Legibility
import TypeScribe.Proofs.Lexeme
import TypeScribe.Proofs.Lexer
import TypeScribe.Proofs.LexicalScope
import TypeScribe.Proofs.LiteralScanning
import TypeScribe.Proofs.Literals
import TypeScribe.Proofs.Lookups
import TypeScribe.Proofs.Mentions
import TypeScribe.Proofs.Nesting
import TypeScribe.Proofs.NormalNames
import TypeScribe.Proofs.Occurrences
import TypeScribe.Proofs.Outcome
import TypeScribe.Proofs.Phrases
import TypeScribe.Proofs.PlainNames
import TypeScribe.Proofs.PrintedTypes
import TypeScribe.Proofs.Provenance
import TypeScribe.Proofs.Qualifiers
import TypeScribe.Proofs.ReadBack
import TypeScribe.Proofs.ReadDepth
import TypeScribe.Proofs.Reader
import TypeScribe.Proofs.RecursiveGroups
import TypeScribe.Proofs.Regrouping
import TypeScribe.Proofs.RepeatedCasing
import TypeScribe.Proofs.Safety
import TypeScribe.Proofs.SelfReferences
import TypeScribe.Proofs.SmallLetters
import TypeScribe.Proofs.Soundness
import TypeScribe.Proofs.SteadyDecoders
import TypeScribe.Proofs.TermReading
import TypeScribe.Proofs.Transforms
import TypeScribe.Proofs.TypeGrammar
import TypeScribe.Proofs.TypeParameters
import TypeScribe.Proofs.TypePosition
import TypeScribe.Proofs.TypeVariables
import TypeScribe.Proofs.Typing
import TypeScribe.Proofs.Unquoted
import TypeScribe.Proofs.UnquotedDecoders
import TypeScribe.Proofs.Walk
import TypeScribe.Proofs.WellFormed
import TypeScribe.Proofs.WireForm
import TypeScribe.Proofs.WrittenDescriptors
import TypeScribe.Proofs.WrittenDocuments
import TypeScribe.Proofs.WrittenForms
import TypeScribe.Proofs.WrittenNames
import TypeScribe.Proofs.WrittenNumbers
import TypeScribe.Proofs.WrittenOptions
import TypeScribe.Qualification
import TypeScribe.RenderError
import TypeScribe.Rendering
import TypeScribe.Shape
import TypeScribe.Text
import TypeScribe.Text.CaseTable
import TypeScribe.Text.ClassTable
import TypeScribe.Value
import TypeScribe.Wire.Descriptor
import TypeScribe.Wire.Options
import TypeScribe.Wire.Value
