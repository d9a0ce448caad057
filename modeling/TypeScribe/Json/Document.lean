import TypeScribe.Json.Reader

/-!
# JSON documents

A document is a JSON value of any form. `Document.print` writes it without blanks.
-/

namespace TypeScribe.Json

/-- A JSON value of any form. The entries of a map keep their order. -/
inductive Document where
  | null
  | boolean (b : Bool)
  | number (n : Number)
  | text (s : String)
  | sequence (items : List Document)
  | map (entries : List (String × Document))

instance : Inhabited Document := ⟨.null⟩

namespace Document

/-- What a document is where something else is due. -/
def found : Document → Found
  | .null => .null
  | .boolean b => .boolean b
  | .number n => .number n
  | .text s => .text s
  | .sequence _ => .sequence
  | .map _ => .map

/-! ## Writing -/

def numberChars : Number → List Char
  | .integer n => (toString n).toList
  | .float x => (Decimal.floatText x).toList

mutual

def print : Document → List Char
  | .null => "null".toList
  | .boolean b => (if b then "true" else "false").toList
  | .number n => numberChars n
  | .text s => escapedText s
  | .sequence items => '[' :: printItems items ++ [']']
  | .map entries => '{' :: printEntries entries ++ ['}']

def printItems : List Document → List Char
  | [] => []
  | [item] => print item
  | item :: next :: rest => print item ++ ',' :: printItems (next :: rest)

def printEntries : List (String × Document) → List Char
  | [] => []
  | [(key, value)] => escapedText key ++ ':' :: print value
  | (key, value) :: next :: rest => escapedText key ++ ':' :: (print value ++ ',' :: printEntries (next :: rest))

end

def toText (document : Document) : String := String.ofList document.print

def ofTexts (texts : List String) : Document := .sequence (texts.map .text)

def tagged (name : String) (payload : Document) : Document := .map [(name, payload)]

end Document

/-! ## Reading -/

namespace Reader

def entries (item : String → Reader α) : Nat → Bool → Reader (List α)
  | 0, _ => throw .expectedValue
  | steps + 1, first => do
    if ← nextKey first then
      let x ← item (← key)
      return x :: (← entries item steps false)
    else return []

/-- A document that nests at most so deep. -/
def documentWithin : Nat → Reader Document
  | 0 => throw .recursionLimit
  | levels + 1 => do
    match ← start with
    | .null => return .null
    | .boolean b => return .boolean b
    | .number n => return .number n
    | .text s => return .text s
    | .sequence =>
      let items ← nested (bounded fun steps => elements (documentWithin levels) steps true)
      endSequence
      return .sequence items
    | .map =>
      let entry (key : String) : Reader (String × Document) := do
        colon
        return (key, ← documentWithin levels)
      let items ← nested (bounded fun steps => entries entry steps true)
      advance
      return .map items
    | .unitVariant => throw .expectedValue

def document : Reader Document := documentWithin (depthLimit + 1)

end Reader

end TypeScribe.Json
