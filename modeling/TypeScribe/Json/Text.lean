import TypeScribe.Json.ReadError

/-!
# Texts in JSON

`unescape` reads a text up to its closing quote, one character at a time. A code point beyond the first plane is written
as two escapes, a leading and a trailing surrogate.
-/

namespace TypeScribe.Json

/-- What the characters read so far are part of. -/
inductive TextState where
  | plain
  | escape
  /-- In the digits of a code, of which `missing + 1` are still to come. -/
  | code (leading : Option Nat) (missing value : Nat)
  | afterLeading (leading : Nat)
  | afterBackslash (leading : Nat)
deriving DecidableEq, Repr, Inhabited

def escaped? : Char → Option Char
  | '"' => some '"'
  | '\\' => some '\\'
  | '/' => some '/'
  | 'b' => some '\x08'
  | 'f' => some '\x0c'
  | 'n' => some '\n'
  | 'r' => some '\r'
  | 't' => some '\t'
  | _ => none

def hexDigit? (c : Char) : Option Nat :=
  if '0' ≤ c ∧ c ≤ '9' then some (c.toNat - 48)
  else if 'a' ≤ c ∧ c ≤ 'f' then some (c.toNat - 87)
  else if 'A' ≤ c ∧ c ≤ 'F' then some (c.toNat - 55)
  else none

/-- Whether at least four bytes are left, as many as a code has digits. -/
def holdsCode (rest : List Char) : Bool :=
  4 ≤ (rest.take 4).foldl (fun bytes c => bytes + c.utf8Size) 0

def isLeading (n : Nat) : Bool := 0xD800 ≤ n && n ≤ 0xDBFF

def isTrailing (n : Nat) : Bool := 0xDC00 ≤ n && n ≤ 0xDFFF

def joinSurrogates (leading trailing : Nat) : Char :=
  Char.ofNat ((leading - 0xD800) * 0x400 + (trailing - 0xDC00) + 0x10000)

def beginCode (leading : Option Nat) (rest : List Char) : Except ReadError TextState :=
  if holdsCode rest then .ok (.code leading 3 0) else .error .endOfString

/-- The characters and the state after a complete code. Surrogates must pair if `paired`. -/
def endCode (paired : Bool) (leading : Option Nat) (value : Nat) : Except ReadError (List Char × TextState) :=
  match leading with
  | some leading =>
    if isTrailing value then .ok ([joinSurrogates leading value], .plain) else .error .loneSurrogate
  | none =>
    if isTrailing value then if paired then .error .loneSurrogate else .ok ([], .plain)
    else if isLeading value then if paired then .ok ([], .afterLeading value) else .ok ([], .plain)
    else .ok ([Char.ofNat value], .plain)

/-- The characters that `c` completes and the state after it. The closing quote is not read here. -/
def TextState.step (paired : Bool) (state : TextState) (c : Char) (rest : List Char) :
    Except ReadError (List Char × TextState) :=
  match state with
  | .plain =>
    if c = '\\' then .ok ([], .escape)
    else if c.toNat < 0x20 then .error .controlCharacter
    else .ok ([c], .plain)
  | .escape =>
    match escaped? c with
    | some char => .ok ([char], .plain)
    | none => if c = 'u' then (beginCode none rest).map ([], ·) else .error .invalidEscape
  | .code leading missing value =>
    match hexDigit? c with
    | none => .error .invalidEscape
    | some digit =>
      match missing with
      | 0 => endCode paired leading (16 * value + digit)
      | missing + 1 => .ok ([], .code leading missing (16 * value + digit))
  | .afterLeading leading =>
    if c = '\\' then .ok ([], .afterBackslash leading) else .error .unexpectedEndOfHexEscape
  | .afterBackslash leading =>
    if c = 'u' then (beginCode (some leading) rest).map ([], ·) else .error .unexpectedEndOfHexEscape

/-- Reads up to the closing quote. `done` holds the characters already read, the last one first. -/
def unescape (paired : Bool) (state : TextState) (done : List Char) :
    List Char → Except ReadError (List Char × List Char)
  | [] => .error .endOfString
  | c :: rest =>
    if state = .plain ∧ c = '"' then .ok (done.reverse, rest)
    else
      match state.step paired c rest with
      | .error e => .error e
      | .ok (chars, next) => unescape paired next (chars.reverse ++ done) rest

/-! ## Writing -/

def escapedChar (c : Char) : List Char :=
  match c with
  | '"' => ['\\', '"']
  | '\\' => ['\\', '\\']
  | '\x08' => ['\\', 'b']
  | '\x0c' => ['\\', 'f']
  | '\n' => ['\\', 'n']
  | '\r' => ['\\', 'r']
  | '\t' => ['\\', 't']
  | c =>
    if c.toNat < 0x20 then
      ['\\', 'u', '0', '0', Nat.digitChar (c.toNat / 16), Nat.digitChar (c.toNat % 16)]
    else [c]

def escapedText (s : String) : List Char :=
  '"' :: s.toList.flatMap escapedChar ++ ['"']

end TypeScribe.Json
