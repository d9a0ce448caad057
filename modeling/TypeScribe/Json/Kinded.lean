import TypeScribe.Json.Document

/-!
# Values that name their kind among their fields

Such a value is a map with an entry `kind`, in any place, or a sequence that starts with the kind. It is read completely
before the fields that the kind asks for are looked at.
-/

namespace TypeScribe.Json

def kindField : String := "kind"

/-- What a value holds besides its kind. -/
inductive Remainder where
  | items (items : List Document)
  | entries (entries : List (String × Document))
deriving Inhabited

namespace Reader

/-- Entries up to the end of a map, with the kind that is among them. -/
def kindAndEntries (kind : Reader κ) :
    Nat → Bool → Option κ → Reader (Option κ × List (String × Document))
  | 0, _, _ => throw .expectedValue
  | steps + 1, first, seen => do
    if ← nextKey first then
      let key ← key
      if key = kindField then
        if seen.isSome then throw (.duplicateField kindField)
        colon
        let k ← kind
        kindAndEntries kind steps false (some k)
      else
        colon
        let value ← document
        let (k, rest) ← kindAndEntries kind steps false seen
        return (k, (key, value) :: rest)
    else return (seen, [])

/-- The elements of a sequence of which the first is the kind. -/
def kindAndItems (kind : Reader κ) (steps : Nat) : Reader (κ × List Document) := do
  if ← nextElement true then
    let k ← kind
    return (k, ← elements document steps false)
  else throw (.missingField kindField)

def kinded (what : String) (kind : Reader κ) : Reader (κ × Remainder) := do
  match ← start with
  | .sequence =>
    let (k, items) ← nested (bounded fun steps => kindAndItems kind steps)
    endSequence
    return (k, .items items)
  | .map =>
    let (k, entries) ← nested (bounded fun steps => kindAndEntries kind steps true none)
    advance
    match k with
    | some k => return (k, .entries entries)
    | none => throw (.missingField kindField)
  | other => throw (.invalidType other what)

end Reader

/-! ## Fields after the kind -/

namespace Remainder

def lengthText (n : Nat) : String :=
  toString n ++ (if n = 1 then " element in sequence" else " elements in sequence")

def ignore : Remainder → Except ReadError Unit
  | .items [] => .ok ()
  | .items documents => .error (.invalidLength documents.length (lengthText 0))
  | .entries _ => .ok ()

/-- The value of one field in a map, `seen` if it was met before. -/
def fieldOfEntries (name : String) (value : Document → Except ReadError α) (seen : Option α) :
    List (String × Document) → Except ReadError α
  | [] =>
    match seen with
    | some x => .ok x
    | none => .error (.missingField name)
  | (key, document) :: rest =>
    if key = name then
      if seen.isSome then .error (.duplicateField name)
      else do
        let x ← value document
        fieldOfEntries name value (some x) rest
    else fieldOfEntries name value seen rest

def field (what name : String) (value : Document → Except ReadError α) : Remainder → Except ReadError α
  | .items [] => .error (.invalidLength 0 (what ++ " with 1 element"))
  | .items (document :: rest) => do
    let x ← value document
    if rest.isEmpty then return x else throw (.invalidLength (rest.length + 1) (lengthText 1))
  | .entries documents => fieldOfEntries name value none documents

end Remainder

namespace Document

def asText : Document → Except ReadError String
  | .text s => .ok s
  | other => .error (.invalidType other.found "a string")

def asCount : Document → Except ReadError UInt64
  | .number (.integer n) => if 0 ≤ n then .ok (UInt64.ofNat n.toNat) else .error (.negativeCount n)
  | other => .error (.invalidType other.found "usize")

end Document

end TypeScribe.Json
