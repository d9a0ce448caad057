import TypeScribe.Json.Reader

/-!
# Values with named fields and values of several forms

A record value is a map from field names to values, in any order, or the sequence of the values in declared order. Both
forms are read from one description of the fields. A variant is a map with one entry, from its name to what it carries.
A variant that carries nothing may be its name alone.
-/

namespace TypeScribe.Json

/-- The fields of a record whose values together form a `γ`. While they are read in any order, a `σ` holds the values
read so far. -/
inductive Fields : Type → Type → Type 1 where
  | nil : Fields Unit Unit
  /-- A field, its reader, what it is if absent, and the fields after it. -/
  | cons {α β σ : Type} (name : String) (read : Reader α) (absent : Option α) (rest : Fields β σ) :
      Fields (α × β) (Option α × σ)

namespace Fields

def size : Fields γ σ → Nat
  | nil => 0
  | cons _ _ _ rest => rest.size + 1

def names : Fields γ σ → List String
  | nil => []
  | cons name _ _ rest => name :: rest.names

/-- No value read yet. -/
def vacant : Fields γ σ → σ
  | nil => ()
  | cons _ _ _ rest => (none, rest.vacant)

/-- Reads the value of the field `key`, if there is one of that name. It must not have been read before. -/
def fill? (key : String) : Fields γ σ → σ → Option (Reader σ)
  | nil, _ => none
  | cons name read _ rest, (slot, slots) =>
    if key = name then
      some do
        if slot.isSome then throw (.duplicateField name)
        Reader.colon
        return (some (← read), slots)
    else (rest.fill? key slots).map fun more => do return (slot, ← more)

/-- All values, or the first field without one. -/
def collect : Fields γ σ → σ → Except ReadError γ
  | nil, _ => .ok ()
  | cons name _ absent rest, (slot, slots) =>
    match slot <|> absent with
    | none => .error (.missingField name)
    | some x => (rest.collect slots).map (x, ·)

/-- Reads the entries of a map. A key that names no field is passed over, or is a fault if the record is closed. -/
def readEntries (fields : Fields γ σ) (closed : Bool) : Nat → Bool → σ → Reader σ
  | 0, _, _ => throw .expectedValue
  | steps + 1, first, slots => do
    if ← Reader.nextKey first then
      let key ← Reader.key
      match fields.fill? key slots with
      | some fill => readEntries fields closed steps false (← fill)
      | none =>
        if closed then throw (.unknownField key fields.names)
        Reader.colon
        Reader.skip
        readEntries fields closed steps false slots
    else return slots

def expectation (what : String) (size : Nat) : String :=
  what ++ " with " ++ toString size ++ (if size = 1 then " element" else " elements")

/-- Reads the values of a sequence from the `index`-th on. -/
def readItems (expected : String) : (fields : Fields γ σ) → (index : Nat) → Reader γ
  | nil, _ => return ()
  | cons _ read absent rest, index => do
    if ← Reader.nextElement (index == 0) then
      let x ← read
      return (x, ← rest.readItems expected (index + 1))
    else
      match absent with
      | none => throw (.invalidLength index expected)
      | some x => return (x, ← rest.readItems expected (index + 1))

def ofSequence (what : String) (fields : Fields γ σ) : Reader γ := do
  let xs ← Reader.nested (fields.readItems (expectation what fields.size) 0)
  Reader.endSequence
  return xs

def ofMap (closed : Bool) (fields : Fields γ σ) : Reader γ := do
  let slots ← Reader.nested (Reader.bounded fun steps => fields.readEntries closed steps true fields.vacant)
  let xs ← liftM (fields.collect slots)
  Reader.advance
  return xs

/-- A record in either form. -/
def record (what : String) (closed : Bool) (fields : Fields γ σ) : Reader γ := do
  match ← Reader.start with
  | .sequence => fields.ofSequence what
  | .map => fields.ofMap closed
  | other => throw (.invalidType other what)

/-- Values in the form of a sequence only. -/
def tuple (what : String) (fields : Fields γ σ) : Reader γ := do
  match ← Reader.start with
  | .sequence => fields.ofSequence what
  | other => throw (.invalidType other what)

end Fields

/-! ## Variants -/

inductive Payload (ρ : Type) : Type 1 where
  | unit (value : ρ)
  | single (read : Reader ρ)
  | tuple {γ σ : Type} (what : String) (fields : Fields γ σ) (make : γ → ρ)
  | record {γ σ : Type} (what : String) (fields : Fields γ σ) (make : γ → ρ)

namespace Payload

def read : Payload ρ → Reader ρ
  | unit value => do Reader.null; return value
  | single read => read
  | tuple what fields make => do return make (← fields.tuple what)
  | record what fields make => do return make (← fields.record what false)

/-- The variant by its name alone. -/
def bare : Payload ρ → Except ReadError ρ
  | unit value => .ok value
  | single _ => .error (.invalidType .unitVariant "newtype variant")
  | tuple .. => .error (.invalidType .unitVariant "tuple variant")
  | record .. => .error (.invalidType .unitVariant "struct variant")

end Payload

abbrev Variants (ρ : Type) := List (String × Payload ρ)

def Payload.find (variants : Variants ρ) (name : String) : Except ReadError (Payload ρ) :=
  match variants.lookup name with
  | some payload => .ok payload
  | none => .error (.unknownVariant name (variants.map (·.1)))

/-- The name of a variant, whose quote comes next, and what it carries. -/
def Payload.ofKey (variants : Variants ρ) (use : Payload ρ → Reader ρ) : Reader ρ := do
  let name ← Reader.key
  match Payload.find variants name with
  | .error e => throw e
  | .ok payload => use payload

def Reader.variant (variants : Variants ρ) : Reader ρ := do
  match ← peek with
  | none => throw .endOfValue
  | some '{' =>
    let x ← nested do
      if ← nextKey true then
        Payload.ofKey variants fun payload => do
          colon
          payload.read
      else throw .expectedValue
    match ← peek with
    | none => throw .endOfObject
    | some '}' => advance; return x
    | some _ => throw .expectedValue
  | some '"' => Payload.ofKey variants fun payload => liftM payload.bare
  | some _ => throw .expectedValue

end TypeScribe.Json
