import TypeScribe.Text.CaseTable
import TypeScribe.Text.ClassTable

/-!
# Characters and texts

What Unicode says of characters is here as far as names and messages need it: which are blank, which cannot be seen and
which are letters of either case. `upper` and `lower` map one character to the text that Unicode assigns it, which may
have several characters. `lowerText` maps a whole text, where a capital sigma that ends a word becomes the final form of
the letter.
-/

namespace TypeScribe.Text

/-! ## White space at the end of a text -/

/-- The characters with the property White_Space. -/
def isBlank (c : Char) : Bool :=
  let n := c.toNat
  (9 ≤ n && n ≤ 13) || n == 0x20 || n == 0x85 || n == 0xA0 || n == 0x1680 || (0x2000 ≤ n && n ≤ 0x200A) ||
    n == 0x2028 || n == 0x2029 || n == 0x202F || n == 0x205F || n == 0x3000

def trimEnd (cs : List Char) : List Char :=
  (cs.reverse.dropWhile isBlank).reverse

theorem trimEnd_append_singleton (cs : List Char) (c : Char) :
    trimEnd (cs ++ [c]) = if isBlank c then trimEnd cs else cs ++ [c] := by
  unfold trimEnd
  rw [List.reverse_append, List.reverse_singleton, List.singleton_append, List.dropWhile_cons]
  split
  · rfl
  · rw [List.reverse_cons, List.reverse_reverse]

/-! ## Texts quoted in a message -/

def quotedChar (c : Char) : String :=
  match c with
  | '\x00' => "\\0"
  | '\t' => "\\t"
  | '\n' => "\\n"
  | '\r' => "\\r"
  | '"' => "\\\""
  | '\\' => "\\\\"
  | c =>
    if inRanges hiddenRanges c then
      "\\u\x7b" ++ String.ofList (Nat.toDigits 16 c.toNat) ++ "\x7d"
    else c.toString

def quoted (s : String) : String :=
  "\"" ++ String.join (s.toList.map quotedChar) ++ "\""

/-! ## Upper and lower case -/

/-- The text for the code point `n` in a case table, the character itself where the table is silent. -/
def mapped (expansions : List (Nat × List Nat)) (runs : List CaseRun) (c : Char) : List Char :=
  match expansions.find? (·.1 == c.toNat) with
  | some (_, codes) => codes.map Char.ofNat
  | none =>
    match runs.find? (·.covers c.toNat) with
    | some run => [Char.ofNat (c.toNat + run.shift).toNat]
    | none => [c]

def upper (c : Char) : List Char :=
  if c.toNat < 128 then [c.toUpper] else mapped upperExpansions upperRuns c

def lower (c : Char) : List Char :=
  if c.toNat < 128 then [c.toLower] else mapped lowerExpansions lowerRuns c

def upperText (s : String) : String :=
  String.ofList (s.toList.flatMap upper)

/-! ## The final sigma -/

/-- Whether the next character that counts is a letter with case. -/
def meetsCased (cs : List Char) : Bool :=
  match cs.dropWhile (inRanges caseIgnorableRanges) with
  | [] => false
  | c :: _ => inRanges casedRanges c

/-- Lowers a text. `before` holds the characters already read, the last one first. -/
def lowerAfter (before : List Char) : List Char → List Char
  | [] => []
  | c :: rest =>
    let here :=
      if c = 'Σ' then
        if meetsCased before && !meetsCased rest then ['ς'] else ['σ']
      else lower c
    here ++ lowerAfter (c :: before) rest

/-- The lower-case text of a text: a capital sigma is final after a letter and before none. -/
def lowerText (s : String) : String :=
  String.ofList (lowerAfter [] s.toList)

end TypeScribe.Text
