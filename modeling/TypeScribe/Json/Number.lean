import TypeScribe.Json.ReadError

/-!
# Numbers in JSON

`numeral` reads the digits of a number, `Numeral.value` finds what they mean. A floating-point number is its leading
digits, as many as 64 bits hold, times a power of ten.
-/

namespace TypeScribe.Json

structure Numeral where
  negative : Bool
  whole : List Char
  /-- Digits after the point, none if there is no point. -/
  fraction : List Char
  /-- The sign and the digits of the power of ten. -/
  exponent : Option (Bool × List Char)

/-- One or more digits. `atEnd` is the fault of a text that ends before the first. -/
def digits (atEnd : ReadError) (input : List Char) : Except ReadError (List Char × List Char) :=
  match input with
  | [] => .error atEnd
  | c :: _ => if c.isDigit then .ok (input.span Char.isDigit) else .error .invalidNumber

/-- The digits before the point: a zero stands alone. -/
def wholeDigits (atEnd : ReadError) (input : List Char) : Except ReadError (List Char × List Char) :=
  match input with
  | '0' :: rest =>
    match rest with
    | c :: _ => if c.isDigit then .error .invalidNumber else .ok (['0'], rest)
    | [] => .ok (['0'], [])
  | _ => digits atEnd input

def fractionDigits (atEnd : ReadError) : List Char → Except ReadError (List Char × List Char)
  | '.' :: rest => digits atEnd rest
  | input => .ok ([], input)

def exponentDigits (atEnd : ReadError) (input : List Char) :
    Except ReadError (Option (Bool × List Char) × List Char) :=
  let power (negative : Bool) (rest : List Char) :=
    (digits atEnd rest).map fun (ds, rest) => (some (negative, ds), rest)
  let signed (rest : List Char) :=
    match rest with
    | '+' :: rest => power false rest
    | '-' :: rest => power true rest
    | _ => power false rest
  match input with
  | 'e' :: rest => signed rest
  | 'E' :: rest => signed rest
  | _ => .ok (none, input)

/-- A number. `atEnd` is the fault of a text that ends where a digit is due. -/
def numeral (atEnd : ReadError) (input : List Char) : Except ReadError (Numeral × List Char) := do
  let (negative, input) :=
    match input with
    | '-' :: rest => (true, rest)
    | _ => (false, input)
  let (whole, input) ← wholeDigits atEnd input
  let (fraction, input) ← fractionDigits atEnd input
  let (exponent, input) ← exponentDigits atEnd input
  return ({ negative, whole, fraction, exponent }, input)

/-! ## Values -/

def maxWord : Nat := 0xFFFFFFFFFFFFFFFF

/-- The greatest magnitude of a negative number of 64 bits with sign. -/
def maxNegative : Nat := 0x8000000000000000

def digitValue (c : Char) : Nat := c.toNat - 48

/-- Appends digits to `n` while the number fits a word, and gives the digits that are left. -/
def absorb (n : Nat) : List Char → Nat × List Char
  | [] => (n, [])
  | c :: rest =>
    let next := 10 * n + digitValue c
    if next ≤ maxWord then absorb next rest else (n, c :: rest)

def tenTo (n : Nat) : Float := Float.ofScientific 1 false n

/-- `x` divided by `10 ^ n`, in steps that a floating-point number can hold. -/
def scaleDown (x : Float) (n : Nat) : Float :=
  if n ≤ 308 then x / tenTo n
  else if x == 0 then x
  else scaleDown (x / tenTo 308) (n - 308)
termination_by n

/-- `n * 10 ^ exponent` as a floating-point number, which must be finite. -/
def scaled (n : Nat) (exponent : Int) : Except ReadError Float :=
  let x := Float.ofNat n
  if exponent < 0 then .ok (scaleDown x (-exponent).toNat)
  else if n = 0 then .ok x
  else if exponent ≤ 308 then
    let y := x * tenTo exponent.toNat
    if y.isInf then .error .numberOutOfRange else .ok y
  else .error .numberOutOfRange

namespace Numeral

def power (numeral : Numeral) : Int :=
  match numeral.exponent with
  | none => 0
  | some (negative, ds) =>
    let n : Nat := ds.foldl (fun n c => 10 * n + digitValue c) 0
    if negative then -(n : Int) else n

def magnitude (numeral : Numeral) : Except ReadError Float :=
  let (n, left) := absorb 0 numeral.whole
  let (n, beyond) := absorb n numeral.fraction
  let used := numeral.fraction.length - beyond.length
  scaled n ((left.length : Int) - used + numeral.power)

def floatValue (numeral : Numeral) : Except ReadError Number :=
  numeral.magnitude.map fun x => .float (if numeral.negative then -x else x)

/-- The value: an integer of at most 64 bits, or else a floating-point number. -/
def value (numeral : Numeral) : Except ReadError Number :=
  match absorb 0 numeral.whole with
  | (n, []) =>
    if !numeral.fraction.isEmpty || numeral.exponent.isSome then numeral.floatValue
    else if !numeral.negative then .ok (.integer n)
    else if n = 0 ∨ maxNegative < n then numeral.floatValue
    else .ok (.integer (-(n : Int)))
  | _ => numeral.floatValue

end Numeral

end TypeScribe.Json
