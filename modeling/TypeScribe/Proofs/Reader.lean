import TypeScribe.Ocaml.Term
import TypeScribe.Proofs.Lexeme

/-!
# Reading source text

A reader for the part of OCaml that generated decoders are written in. It reads one token after the other and keeps what
is open on a stack. An application takes atoms, a concatenation and a function extend as far as they can, and an arm
belongs to the innermost match that is open.
-/

namespace TypeScribe.Ocaml

inductive Expr where
  | name (path : Path)
  | constructor (path : Path)
  | text (s : String)
  | number (n : Nat)
  | apply (function : Expr) (arguments : List Expr)
  | lambda (parameter : String) (body : Expr)
  | tuple (items : List Expr)
  | record (fields : List (String × Expr))
  | annotated (e : Expr) (type : TypeExpr)
  | concat (left right : Expr)
  | differs (left right : Expr)
  | element (array index : Expr)
  | choice (scrutinee : Expr) (arms : List (Pattern × Option Expr × Expr))

def Expr.isConstructor : Expr → Bool
  | .constructor _ => true
  | _ => false

structure Definition where
  name : String
  parameters : List String
  body : Expr

namespace Reader

structure Choice where
  scrutinee : Expr
  arms : List (Pattern × Option Expr × Expr)

def Choice.add (choice : Choice) (pattern : Pattern) (guard : Option Expr) (result : Expr) : Choice :=
  { choice with arms := choice.arms ++ [(pattern, guard, result)] }

/-- Definitions that have been read: complete groups, and the first ones of the group at hand. -/
structure Outline where
  done : List (DefinitionGroup Definition)
  recursive : Bool
  before : List Definition

def Outline.add (outline : Outline) (definition : Definition) : Outline :=
  { outline with before := outline.before ++ [definition] }

def Outline.groups (outline : Outline) : List (DefinitionGroup Definition) :=
  outline.done ++ [⟨outline.recursive, outline.before⟩]

/-- Something open, in which an expression is due. The atoms are those before it in the application around it. -/
inductive Frame where
  | definition (outline : Outline) (name : String) (parameters : List String)
  | concat (left : Expr)
  | differs (left : Expr)
  | lambda (parameter : String)
  | scrutinee
  | guard (choice : Choice) (pattern : Pattern)
  | branch (choice : Choice) (pattern : Pattern) (guard : Option Expr)
  | parenthesis (atoms items : List Expr)
  | index (atoms : List Expr) (array : Expr)
  | field (atoms : List Expr) (fields : List (String × Expr)) (label : String)

namespace Frame

/-- How much it takes to end what is open. Only tokens of their own end what has strength 4. -/
def strength : Frame → Nat
  | .concat _ | .differs _ => 1
  | .lambda _ => 2
  | .branch _ _ _ => 3
  | _ => 4

def around : Frame → Expr → Expr
  | .concat left, e => .concat left e
  | .differs left, e => .differs left e
  | .lambda parameter, e => .lambda parameter e
  | .branch choice pattern condition, e =>
    let choice := choice.add pattern condition e
    .choice choice.scrutinee choice.arms
  | _, e => e

end Frame

/-- Ends all that is open up to a strength. -/
def settle (reach : Nat) : List Frame → Expr → List Frame × Expr
  | [], e => ([], e)
  | frame :: rest, e => if frame.strength ≤ reach then settle reach rest (frame.around e) else (frame :: rest, e)

/-- The application of the first atom to the others. A constructor takes at most one. -/
def applied : List Expr → Option Expr
  | [] => none
  | [e] => some e
  | [function, argument] => some (.apply function [argument])
  | function :: arguments => if function.isConstructor then none else some (.apply function arguments)

/-- Ends the application at hand and all that is open up to a strength. -/
def close (reach : Nat) (stack : List Frame) (atoms : List Expr) : Option (List Frame × Expr) :=
  (applied atoms).map (settle reach stack)

/-! ## Patterns and types -/

def atomPattern? : Lexeme → Option Pattern
  | .name ⟨[], x⟩ => some (.bind x)
  | .text s => some (.text s)
  | .wildcard => some .any
  | .constructor c => some (.constant c)
  | .emptyArray => some .emptyArray
  | _ => none

def simplePattern? : List Lexeme → Option Pattern
  | [lexeme] => atomPattern? lexeme
  | [.constructor c, argument] => (atomPattern? argument).map (.construct c)
  | [.exceptionWord, .constructor c, .name ⟨[], x⟩] => some (.raised c x)
  | _ => none

def pattern? (lexemes : List Lexeme) : Option Pattern := do
  match ← (lexemes.splitOn .bar).mapM simplePattern? with
  | [] => none
  | first :: rest => return rest.foldl .either first

/-- A type expression of which a part has been read. -/
structure TypeProgress where
  /-- The arguments before the one at hand, for each open parenthesis. -/
  groups : List (List TypeExpr) := []
  /-- The type at hand, or the arguments of the type constructor that is due. -/
  current : List TypeExpr := []

def TypeProgress.read (progress : TypeProgress) : Lexeme → Option TypeProgress
  | .variable a => if progress.current.isEmpty then some { progress with current := [.var a] } else none
  | .name c => some { progress with current := [.constructor c progress.current] }
  | .openParen => if progress.current.isEmpty then some { progress with groups := [] :: progress.groups } else none
  | .comma =>
    match progress with
    | ⟨group :: groups, [type]⟩ => some ⟨(group ++ [type]) :: groups, []⟩
    | _ => none
  | .closeParen =>
    match progress with
    | ⟨group :: groups, [type]⟩ => some ⟨groups, group ++ [type]⟩
    | _ => none
  | _ => none

/-! ## Expressions and definitions -/

inductive State where
  | start
  | letting (done : List (DefinitionGroup Definition))
  | naming (outline : Outline)
  | parameters (outline : Outline) (name : String) (parameters : List String)
  | operand (stack : List Frame) (atoms : List Expr)
  | parameter (stack : List Frame)
  | arrow (stack : List Frame) (parameter : String)
  | opening (stack : List Frame) (choice : Choice)
  | pattern (stack : List Frame) (choice : Choice) (lexemes : List Lexeme)
  | label (stack : List Frame) (atoms : List Expr) (fields : List (String × Expr))
  | binding (stack : List Frame) (atoms : List Expr) (fields : List (String × Expr)) (label : String)
  | annotating (stack : List Frame) (atoms : List Expr) (e : Expr) (type : TypeProgress)

/-- The strength up to which a lexeme ends what is open. -/
def reach : Lexeme → Nat
  | .comma | .semicolon | .closeBrace | .colon | .differs => 1
  | .bar => 2
  | _ => 3

def proceed (e : Expr) : Lexeme → List Frame → Option State
  | .differs, stack => some (.operand (.differs e :: stack) [])
  | .closeParen, .parenthesis atoms [] :: rest => some (.operand rest (atoms ++ [e]))
  | .closeParen, .parenthesis atoms items :: rest => some (.operand rest (atoms ++ [.tuple (items ++ [e])]))
  | .closeParen, .index atoms array :: rest => some (.operand rest (atoms ++ [.element array e]))
  | .comma, .parenthesis atoms items :: rest => some (.operand (.parenthesis atoms (items ++ [e]) :: rest) [])
  | .semicolon, .field atoms fields label :: rest => some (.label rest atoms (fields ++ [(label, e)]))
  | .closeBrace, .field atoms fields label :: rest =>
    some (.operand rest (atoms ++ [.record (fields ++ [(label, e)])]))
  | .colon, .parenthesis atoms [] :: rest => some (.annotating rest atoms e {})
  | .arrow, .guard choice pattern :: rest => some (.operand (.branch choice pattern (some e) :: rest) [])
  | .withWord, .scrutinee :: rest => some (.opening rest ⟨e, []⟩)
  | .bar, .branch choice pattern condition :: rest => some (.pattern rest (choice.add pattern condition e) [])
  | .letWord, [.definition outline name names] => some (.letting (outline.add ⟨name, names, e⟩).groups)
  | .andWord, [.definition outline name names] => some (.naming (outline.add ⟨name, names, e⟩))
  | _, _ => none

def readOperand (stack : List Frame) (atoms : List Expr) : Lexeme → Option State
  | .name path => some (.operand stack (atoms ++ [.name path]))
  | .constructor path => some (.operand stack (atoms ++ [.constructor path]))
  | .number n => some (.operand stack (atoms ++ [.number n]))
  | .text s => some (.operand stack (atoms ++ [.text s]))
  | .openParen => some (.operand (.parenthesis atoms [] :: stack) [])
  | .openBrace => some (.label stack atoms [])
  | .openIndex =>
    match atoms.getLast? with
    | some (.name path) => some (.operand (.index atoms.dropLast (.name path) :: stack) [])
    | _ => none
  | .funWord => if atoms.isEmpty then some (.parameter stack) else none
  | .matchWord => if atoms.isEmpty then some (.operand (.scrutinee :: stack) []) else none
  | .caret => (applied atoms).map fun e => .operand (.concat e :: stack) []
  | lexeme => do
    let (stack, e) ← close (reach lexeme) stack atoms
    proceed e lexeme stack

def State.read : State → Lexeme → Option State
  | .start, .letWord => some (.letting [])
  | .letting done, .recWord => some (.naming ⟨done, true, []⟩)
  | .letting done, .name ⟨[], x⟩ => some (.parameters ⟨done, false, []⟩ x [])
  | .naming outline, .name ⟨[], x⟩ => some (.parameters outline x [])
  | .parameters outline name names, .name ⟨[], x⟩ => some (.parameters outline name (names ++ [x]))
  | .parameters outline name names, .equals => some (.operand [.definition outline name names] [])
  | .parameter stack, .name ⟨[], x⟩ => some (.arrow stack x)
  | .arrow stack x, .arrow => some (.operand (.lambda x :: stack) [])
  | .opening stack choice, .bar => some (.pattern stack choice [])
  | .pattern stack choice lexemes, .arrow =>
    (pattern? lexemes).map fun pattern => .operand (.branch choice pattern none :: stack) []
  | .pattern stack choice lexemes, .whenWord =>
    (pattern? lexemes).map fun pattern => .operand (.guard choice pattern :: stack) []
  | .pattern stack choice lexemes, lexeme => some (.pattern stack choice (lexemes ++ [lexeme]))
  | .label stack atoms fields, .name ⟨[], x⟩ => some (.binding stack atoms fields x)
  | .binding stack atoms fields x, .equals => some (.operand (.field atoms fields x :: stack) [])
  | .annotating stack atoms e progress, .closeParen =>
    match progress with
    | ⟨[], [type]⟩ => some (.operand stack (atoms ++ [.annotated e type]))
    | _ => (progress.read .closeParen).map (.annotating stack atoms e)
  | .annotating stack atoms e progress, lexeme => (progress.read lexeme).map (.annotating stack atoms e)
  | .operand stack atoms, lexeme => readOperand stack atoms lexeme
  | _, _ => none

def State.finish : State → Option (List (DefinitionGroup Definition))
  | .operand stack atoms => do
    match ← close 3 stack atoms with
    | ([.definition outline name names], e) => some (outline.add ⟨name, names, e⟩).groups
    | _ => none
  | _ => none

def run (state : State) (tokens : List Token) : Option State :=
  tokens.foldlM (fun state token => token.lexeme?.bind state.read) state

end Reader

def readTokens (tokens : List Token) : Option (List (DefinitionGroup Definition)) :=
  (Reader.run .start tokens).bind Reader.State.finish

-- Without parentheses a match takes the arms that follow it.
example : (lex "let f = match x with | \"a\" -> match y with | \"b\" -> z | \"c\" -> w".toList).bind readTokens =
    some [⟨false, [⟨"f", [], .choice (.name ⟨[], "x"⟩) [(.text "a", none,
      .choice (.name ⟨[], "y"⟩) [(.text "b", none, .name ⟨[], "z"⟩), (.text "c", none, .name ⟨[], "w"⟩)])]⟩]⟩] := by
  rfl

end TypeScribe.Ocaml
