import TypeScribe.Json.Number
import TypeScribe.Json.Text

/-!
# Reading JSON

A reader takes what is due from the front of the text and leaves the rest, or stops at the first fault. It knows how
many more brackets may be opened inside it. Nothing is read before it is known what is due, so a value of the wrong form
is reported before any fault further right.
-/

namespace TypeScribe.Json

/-- Reads a value, given the depth that is left. -/
abbrev Reader := ReaderT Nat (StateT (List Char) (Except ReadError))

/-- How many brackets may be open at once. -/
def depthLimit : Nat := 127

def isBlank (c : Char) : Bool :=
  c == ' ' || c == '\t' || c == '\n' || c == '\r'

namespace Reader

/-- The next character that is not blank, left in place. -/
def peek : Reader (Option Char) := fun _ input =>
  let rest := input.dropWhile isBlank
  .ok (rest.head?, rest)

def advance : Reader Unit := fun _ input => .ok ((), input.tail)

/-- A reader that runs on the rest of the text. -/
def ofRest (read : List Char → Except ReadError (α × List Char)) : Reader α := fun _ input => read input

/-- A reader in steps that take at least one character each, so that the length of the rest bounds them. -/
def bounded (read : Nat → Reader α) : Reader α := fun depth input => read (input.length + 1) depth input

/-- Takes an opening bracket and reads what stands inside it. -/
def nested (read : Reader α) : Reader α := fun depth input =>
  match depth with
  | 0 => .error .recursionLimit
  | depth + 1 => read depth input.tail

def literal : List Char → Reader Unit
  | [] => pure ()
  | c :: word => fun depth input =>
    match input with
    | [] => .error .endOfValue
    | d :: rest => if d = c then literal word depth rest else .error .expectedLiteral

/-- A text after its opening quote. -/
def textBody : Reader String :=
  ofRest fun input => (unescape true .plain [] input).map fun (chars, rest) => (String.ofList chars, rest)

def number : Reader Number :=
  ofRest fun input => do
    let (numeral, rest) ← numeral .endOfValue input
    return (← numeral.value, rest)

/-- What stands next: a value without components, or the bracket that opens one, left in place. -/
def start : Reader Found := do
  match ← peek with
  | none => throw .endOfValue
  | some 'n' => literal "null".toList; return .null
  | some 't' => literal "true".toList; return .boolean true
  | some 'f' => literal "false".toList; return .boolean false
  | some '"' => advance; return .text (← textBody)
  | some '[' => return .sequence
  | some '{' => return .map
  | some c => if c = '-' ∨ c.isDigit then return .number (← number) else throw .expectedValue

def textAs (expected : String) : Reader String := do
  match ← start with
  | .text s => return s
  | other => throw (.invalidType other expected)

def text : Reader String := textAs "a string"

def boolean : Reader Bool := do
  match ← start with
  | .boolean b => return b
  | other => throw (.invalidType other "a boolean")

def null : Reader Unit := do
  match ← start with
  | .null => return ()
  | other => throw (.invalidType other "unit")

/-! ## Sequences -/

/-- Whether a sequence has a further element. Its closing bracket is left in place. -/
def nextElement (first : Bool) : Reader Bool := do
  match ← peek with
  | none => throw .endOfList
  | some ']' => return false
  | some c =>
    if first then return true
    else if c ≠ ',' then throw .expectedListCommaOrEnd
    else
      advance
      match ← peek with
      | none => throw .endOfValue
      | some ']' => throw .trailingComma
      | some _ => return true

/-- The closing bracket of a sequence of which all elements are read. -/
def endSequence : Reader Unit := do
  match ← peek with
  | none => throw .endOfList
  | some ']' => advance
  | some ',' =>
    advance
    match ← peek with
    | some ']' => throw .trailingComma
    | _ => throw .trailingCharacters
  | some _ => throw .trailingCharacters

def elements (item : Reader α) : Nat → Bool → Reader (List α)
  | 0, _ => throw .expectedValue
  | steps + 1, first => do
    if ← nextElement first then
      let x ← item
      return x :: (← elements item steps false)
    else return []

def list (item : Reader α) : Reader (List α) := do
  match ← start with
  | .sequence =>
    let xs ← nested (bounded fun steps => elements item steps true)
    endSequence
    return xs
  | other => throw (.invalidType other "a sequence")

/-! ## Maps -/

/-- Whether a map has a further key, whose quote is left in place. So is the closing bracket of the map. -/
def nextKey (first : Bool) : Reader Bool := do
  match ← peek with
  | none => throw .endOfObject
  | some '}' => return false
  | some c =>
    if first then
      if c = '"' then return true else throw .keyNotString
    else if c ≠ ',' then throw .expectedObjectCommaOrEnd
    else
      advance
      match ← peek with
      | none => throw .endOfValue
      | some '"' => return true
      | some '}' => throw .trailingComma
      | some _ => throw .keyNotString

def key : Reader String := do advance; textBody

def colon : Reader Unit := do
  match ← peek with
  | none => throw .endOfObject
  | some ':' => advance
  | some _ => throw .expectedColon

/-!
## Values passed over

The value of a key that nobody asked for must be JSON, but may nest to any depth. Its numbers may have any size and its
texts may hold half of a surrogate pair.
-/

def skipText : Reader Unit :=
  ofRest fun input => (unescape false .plain [] input).map fun (_, rest) => ((), rest)

def skipNumber : Reader Unit :=
  ofRest fun input => (numeral .invalidNumber input).map fun (_, rest) => ((), rest)

def skipKey : Reader Unit := do
  match ← peek with
  | none => throw .endOfObject
  | some '"' => advance; skipText; colon
  | some _ => throw .keyNotString

/-- Passes over the rest of a bracket that `close` ends. An item is due first and after each comma. -/
def skipItems (close : Char) (atEnd noComma : ReadError) (item : Reader Unit) : Nat → Bool → Reader Unit
  | 0, _ => throw .expectedValue
  | steps + 1, first => do
    match ← peek with
    | none => throw atEnd
    | some c =>
      if c = close then advance
      else if first then
        item
        skipItems close atEnd noComma item steps false
      else if c = ',' then
        advance
        item
        skipItems close atEnd noComma item steps false
      else throw noComma

def skipWithin : Nat → Reader Unit
  | 0 => throw .expectedValue
  | levels + 1 => do
    match ← peek with
    | none => throw .endOfValue
    | some 'n' => literal "null".toList
    | some 't' => literal "true".toList
    | some 'f' => literal "false".toList
    | some '"' => advance; skipText
    | some '[' =>
      advance
      bounded fun steps => skipItems ']' .endOfList .expectedListCommaOrEnd (skipWithin levels) steps true
    | some '{' =>
      advance
      bounded fun steps => skipItems '}' .endOfObject .expectedObjectCommaOrEnd
        (do skipKey; skipWithin levels) steps true
    | some c => if c = '-' ∨ c.isDigit then skipNumber else throw .expectedValue

def skip : Reader Unit := bounded skipWithin

/-! ## Whole texts -/

/-- Reads a text that holds one value and nothing else. -/
def run (read : Reader α) (text : String) : Except ReadError α :=
  match read depthLimit text.toList with
  | .error e => .error e
  | .ok (x, rest) => if rest.all isBlank then .ok x else .error .trailingCharacters

end Reader

end TypeScribe.Json
