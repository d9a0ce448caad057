import TypeScribe.Text

/-!
# Case styles and transforms of names

Words of a name are parted by separators or by capitals. The styles know the letters `a` to `z` and `A` to `Z`;
`lowerFirst` and `upperFirst` know every letter. A transform is a list of steps, applied in order. The empty transform
keeps every name.
-/

namespace TypeScribe

namespace Name

def isSeparator (c : Char) : Bool :=
  c == '_' || c == '-' || c == '.'

/-- Whether a name already has capitals at its words: a capital first, small letters after it, no separator. -/
def isPascal (cs : List Char) : Bool :=
  (match cs with
    | [] => false
    | c :: _ => c.isUpper) && cs.any Char.isLower && !cs.any isSeparator

/-- Joins the words of a name. The next letter is raised if `raise`, the others are lowered. -/
def joinWords (raise : Bool) : List Char → List Char
  | [] => []
  | c :: rest =>
    if isSeparator c then joinWords true rest
    else (if raise then c.toUpper else c.toLower) :: joinWords false rest

/-- The words of a name joined, each with a capital. A name that has this form is kept. -/
def pascalChars (cs : List Char) : List Char :=
  if isPascal cs then cs else joinWords true cs

/-- Parts the words of a name by `mark`, all letters small. `last` is the last character written. -/
def partWords (mark : Char) (last : Option Char) : List Char → List Char
  | [] => []
  | c :: rest =>
    if c.isUpper then
      if last = none ∨ last = some mark then c.toLower :: partWords mark (some c.toLower) rest
      else mark :: c.toLower :: partWords mark (some c.toLower) rest
    else if c = '_' ∨ c = '-' then
      if last = some mark then partWords mark last rest
      else mark :: partWords mark (some mark) rest
    else c :: partWords mark (some c) rest

def lowerFirstChars : List Char → List Char
  | [] => []
  | c :: rest => Text.lower c ++ rest

def upperFirstChars : List Char → List Char
  | [] => []
  | c :: rest => Text.upper c ++ rest

def toPascal (s : String) : String := String.ofList (pascalChars s.toList)

def toSnake (s : String) : String := String.ofList (partWords '_' none s.toList)

def toKebab (s : String) : String := String.ofList (partWords '-' none s.toList)

def lowerFirst (s : String) : String := String.ofList (lowerFirstChars s.toList)

def upperFirst (s : String) : String := String.ofList (upperFirstChars s.toList)

def toCamel (s : String) : String := lowerFirst (toPascal s)

end Name

/-! ## Transforms -/

inductive NameStep where
  /-- Removes a text from the front of a name that starts with it. -/
  | dropPrefix (front : String)
  | dropChars (count : UInt64)
  | snakeCase
  | camelCase
  | pascalCase
  | kebabCase
  | lowercase
  | uppercase
  | lowerFirst
  | upperFirst
deriving DecidableEq, Repr, Inhabited

/-- The rest of `cs` after `front`, or `cs` itself if it does not start so. -/
def Name.dropFront (front cs : List Char) : List Char :=
  if front.isPrefixOf cs then cs.drop front.length else cs

def NameStep.apply (step : NameStep) (name : String) : String :=
  match step with
  | .dropPrefix front => String.ofList (Name.dropFront front.toList name.toList)
  | .dropChars count => String.ofList (name.toList.drop count.toNat)
  | .snakeCase => Name.toSnake name
  | .camelCase => Name.toCamel name
  | .pascalCase => Name.toPascal name
  | .kebabCase => Name.toKebab name
  | .lowercase => Text.lowerText name
  | .uppercase => Text.upperText name
  | .lowerFirst => Name.lowerFirst name
  | .upperFirst => Name.upperFirst name

/-- Steps in the order of their application. -/
structure NameTransform where
  steps : List NameStep := []
deriving DecidableEq, Repr, Inhabited

namespace NameTransform

def identity : NameTransform := {}

def andThen (transform : NameTransform) (step : NameStep) : NameTransform :=
  { steps := transform.steps ++ [step] }

def apply (transform : NameTransform) (name : String) : String :=
  transform.steps.foldl (fun name step => step.apply name) name

end NameTransform

end TypeScribe
