import TypeScribe.Decimal
import TypeScribe.Text

/-!
# What is wrong with a JSON text

A fault is one of three kinds: the text ends too early, it is no JSON, or it is JSON of another form than is due.
-/

namespace TypeScribe.Json

/-- A number of a JSON text. Integers beyond 64 bits are floating-point numbers. -/
inductive Number where
  | integer (n : Int)
  | float (x : Float)
deriving Inhabited

/-- What stands in the text where something else is due. -/
inductive Found where
  | null
  | boolean (b : Bool)
  | number (n : Number)
  | text (s : String)
  | sequence
  | map
  /-- A variant by its name alone. -/
  | unitVariant
deriving Inhabited

def Found.message : Found → String
  | .null => "null"
  | .boolean b => "boolean `" ++ toString b ++ "`"
  | .number (.integer n) => "integer `" ++ toString n ++ "`"
  | .number (.float x) => "floating point `" ++ Decimal.floatText x ++ "`"
  | .text s => "string " ++ Text.quoted s
  | .sequence => "sequence"
  | .map => "map"
  | .unitVariant => "unit variant"

inductive ReadError where
  -- the text ends too early
  | endOfList
  | endOfObject
  | endOfString
  | endOfValue
  -- the text is no JSON
  | expectedValue
  | trailingCharacters
  | trailingComma
  | expectedListCommaOrEnd
  | expectedObjectCommaOrEnd
  | expectedColon
  | keyNotString
  | expectedLiteral
  | invalidNumber
  | numberOutOfRange
  | controlCharacter
  | invalidEscape
  | unexpectedEndOfHexEscape
  | loneSurrogate
  | recursionLimit
  -- the value has another form
  | invalidType (found : Found) (expected : String)
  | negativeCount (n : Int)
  | invalidLength (length : Nat) (expected : String)
  | missingField (name : String)
  | duplicateField (name : String)
  | unknownField (name : String) (known : List String)
  | unknownVariant (name : String) (known : List String)
deriving Inhabited

inductive Category where
  | endOfText
  | form
  | data
deriving DecidableEq, Repr, Inhabited

namespace ReadError

def category : ReadError → Category
  | endOfList | endOfObject | endOfString | endOfValue => .endOfText
  | invalidType .. | negativeCount .. | invalidLength .. | missingField .. | duplicateField .. | unknownField ..
  | unknownVariant .. => .data
  | _ => .form

def oneOf (names : List String) : String :=
  "one of " ++ ", ".intercalate (names.map fun name => "`" ++ name ++ "`")

def message : ReadError → String
  | endOfList => "EOF while parsing a list"
  | endOfObject => "EOF while parsing an object"
  | endOfString => "EOF while parsing a string"
  | endOfValue => "EOF while parsing a value"
  | expectedValue => "expected value"
  | trailingCharacters => "trailing characters"
  | trailingComma => "trailing comma"
  | expectedListCommaOrEnd => "expected `,` or `]`"
  | expectedObjectCommaOrEnd => "expected `,` or `\x7d`"
  | expectedColon => "expected `:`"
  | keyNotString => "key must be a string"
  | expectedLiteral => "expected ident"
  | invalidNumber => "invalid number"
  | numberOutOfRange => "number out of range"
  | controlCharacter => "control character (\\u0000-\\u001F) found while parsing a string"
  | invalidEscape => "invalid escape"
  | unexpectedEndOfHexEscape => "unexpected end of hex escape"
  | loneSurrogate => "lone leading surrogate in hex escape"
  | recursionLimit => "recursion limit exceeded"
  | invalidType found expected => "invalid type: " ++ found.message ++ ", expected " ++ expected
  | negativeCount n => "invalid value: integer `" ++ toString n ++ "`, expected usize"
  | invalidLength length expected => "invalid length " ++ toString length ++ ", expected " ++ expected
  | missingField name => "missing field `" ++ name ++ "`"
  | duplicateField name => "duplicate field `" ++ name ++ "`"
  | unknownField name known => "unknown field `" ++ name ++ "`, expected " ++ oneOf known
  | unknownVariant name known => "unknown variant `" ++ name ++ "`, expected " ++ oneOf known

end ReadError

end TypeScribe.Json
