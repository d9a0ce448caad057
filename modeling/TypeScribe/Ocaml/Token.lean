import TypeScribe.Name.Transform
import TypeScribe.Text

/-!
# Names, tokens and lines of OCaml source

Types, labels and functions start with a small letter, constructors and modules with a capital. A name that is a keyword
gets an underscore at its end. Source is built of tokens on indented lines. Which blank stands between two tokens depends
on these two only.
-/

namespace TypeScribe.Ocaml

/-! ## Names -/

def keywords : List String := [
  "and", "as", "assert", "begin", "class", "constraint", "do", "done", "downto", "else", "end", "exception",
  "external", "false", "for", "fun", "function", "functor", "if", "in", "include", "inherit", "initializer",
  "lazy", "let", "match", "method", "module", "mutable", "new", "nonrec", "object", "of", "open", "or",
  "private", "rec", "sig", "struct", "then", "to", "true", "try", "type", "val", "virtual", "when", "while",
  "with"]

def escapeKeyword (name : String) : String :=
  if keywords.contains name then name ++ "_" else name

def typeName (displayName : String) : String := escapeKeyword (Name.lowerFirst displayName)

def label (field : String) : String := escapeKeyword (Name.lowerFirst field)

def constructorName (name : String) : String := Name.upperFirst name

/-- The name of a type variable, without its quote. -/
def variableName (parameter : String) : String := Name.lowerFirst parameter

def decoderName (displayName : String) : String := "decode" ++ Name.upperFirst displayName

def decoderParameter (parameter : String) : String := "decode_" ++ parameter

/-- The modules to name before a reference, each followed by a point. -/
def qualifier (modules : List String) : String :=
  String.join (modules.map (· ++ "."))

structure Path where
  modules : List String := []
  name : String
deriving DecidableEq, Repr, Inhabited

def Path.text (path : Path) : String :=
  qualifier path.modules ++ path.name

/-! ## Tokens and lines -/

inductive Token where
  | word (s : String)
  /-- A text literal, given by the text it stands for. -/
  | literal (s : String)
  | openParen
  | closeParen
  /-- The point and the parenthesis before the index of an array element. -/
  | openIndex
  | comma
  | semicolon
deriving DecidableEq, Repr, Inhabited

namespace Token

def literalChar : Char → List Char
  | '"' => ['\\', '"']
  | '\\' => ['\\', '\\']
  | '\n' => ['\\', 'n']
  | '\t' => ['\\', 't']
  | c => [c]

def literalChars (s : List Char) : List Char :=
  '"' :: s.flatMap literalChar ++ ['"']

def chars : Token → List Char
  | word s => s.toList
  | literal s => literalChars s.toList
  | openParen => ['(']
  | closeParen => [')']
  | openIndex => ['.', '(']
  | comma => [',']
  | semicolon => [';']

/-- What stands between two tokens. -/
def gap : Token → Token → List Char
  | openParen, _ | openIndex, _ => []
  | _, closeParen | _, openIndex | _, comma | _, semicolon => []
  | _, _ => [' ']

def enclose (tokens : List Token) : List Token :=
  openParen :: tokens ++ [closeParen]

def encloseIf (needed : Bool) (tokens : List Token) : List Token :=
  if needed then enclose tokens else tokens

def join : List Token → List Char
  | [] => []
  | [token] => token.chars
  | token :: next :: rest => token.chars ++ gap token next ++ join (next :: rest)

end Token

structure Line where
  depth : Nat
  tokens : List Token
deriving DecidableEq, Repr, Inhabited

namespace Line

def blank : Line := ⟨0, []⟩

/-- The text of a line with its end: two blanks for each level. -/
def chars (line : Line) : List Char :=
  (if line.tokens.isEmpty then [] else List.replicate (2 * line.depth) ' ' ++ Token.join line.tokens) ++ ['\n']

def enclose : List Line → List Line
  | [] => []
  | first :: rest => close (⟨first.depth, .openParen :: first.tokens⟩ :: rest)
where
  close : List Line → List Line
    | [] => []
    | [last] => [⟨last.depth, last.tokens ++ [.closeParen]⟩]
    | line :: next :: rest => line :: close (next :: rest)

end Line

/-! ## Whole texts -/

/-- A text that ends with one line break and no other blank. -/
def finish (text : List Char) : List Char :=
  Text.trimEnd text ++ ['\n']

def source (lines : List Line) : String :=
  String.ofList (finish (lines.flatMap Line.chars))

/-- What is written with a block after it. A blank line stands between them if anything is written. -/
def appendBlock (written block : List Char) : List Char :=
  if written.isEmpty then block else written ++ '\n' :: block

def assemble (blocks : List String) : String :=
  String.ofList (finish ((blocks.map String.toList).foldl appendBlock []))

/-- Definitions that may form one recursive group. -/
structure DefinitionGroup (α : Type) where
  recursive : Bool
  items : List α
deriving Repr, Inhabited

/-- The lines of the items of a group, of which the first is introduced by `opening` and any other by `following`. -/
def groupLines (opening following : List Token) (lines : List Token → α → List Line) : List α → List Line
  | [] => []
  | item :: rest => lines opening item ++ rest.flatMap fun item => Line.blank :: lines following item

end TypeScribe.Ocaml
