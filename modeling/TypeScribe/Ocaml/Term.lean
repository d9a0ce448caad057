import TypeScribe.Ocaml.TypeExpr

/-!
# Expressions and functions of OCaml

A function's body is a value or a match. A match stands only where a result is due, never inside another expression. It
either decides between arms, or goes on with what it has matched after it has dealt with failures.
-/

namespace TypeScribe.Ocaml

inductive Term where
  /-- A variable or a function. -/
  | path (path : Path)
  | text (s : String)
  | number (n : Nat)
  | apply (function : Term) (arguments : List Term)
  | lambda (parameter : String) (body : Term)
  | construct (constructor : Path) (arguments : List Term)
  /-- A record of variables, each under its label, with the type it has. -/
  | record (fields : List (String × String)) (type : TypeExpr)
  | concat (left right : Term)
  | element (array : String) (index : Nat)
  | differs (left right : Term)
deriving Repr, Inhabited

namespace Term

def var (name : String) : Term := .path ⟨[], name⟩

def recordTokens : List (String × String) → List Token
  | [] => []
  | [(label, name)] => [.word label, .word "=", .word name]
  | (label, name) :: next :: rest =>
    .word label :: .word "=" :: .word name :: .semicolon :: recordTokens (next :: rest)

mutual

/-- The tokens of an expression where only one that binds as tightly as `level` may stand bare. Functions bind at
level 0, comparisons at 1, concatenations at 2, applications at 3, all else at 4. -/
def tokens (level : Nat) : Term → List Token
  | .path p => [.word p.text]
  | .text s => [.literal s]
  | .number n => [.word (toString n)]
  | .apply function arguments => Token.encloseIf (3 < level) (function.tokens 4 ++ atoms arguments)
  | .lambda parameter body =>
    Token.encloseIf (0 < level) (.word "fun" :: .word parameter :: .word "->" :: body.tokens 0)
  | .construct constructor [] => [.word constructor.text]
  | .construct constructor [argument] =>
    Token.encloseIf (3 < level) (.word constructor.text :: argument.tokens 4)
  | .construct constructor (first :: second :: rest) =>
    Token.encloseIf (3 < level)
      (.word constructor.text :: Token.enclose (first.tokens 1 ++ followedByComma (second :: rest)))
  | .record fields type =>
    Token.enclose (.word "\x7b" :: recordTokens fields ++ .word "\x7d" :: .word ":" :: type.tokens false)
  | .concat left right => Token.encloseIf (2 < level) (left.tokens 3 ++ .word "^" :: right.tokens 2)
  | .element array index => [.word array, .openIndex, .word (toString index), .closeParen]
  | .differs left right => Token.encloseIf (1 < level) (left.tokens 2 ++ .word "<>" :: right.tokens 2)

def atoms : List Term → List Token
  | [] => []
  | argument :: rest => argument.tokens 4 ++ atoms rest

def followedByComma : List Term → List Token
  | [] => []
  | item :: rest => .comma :: item.tokens 1 ++ followedByComma rest

end

end Term

/-- What a matched value, or its exception, looks like. -/
inductive Pattern where
  /-- An exception that the matched expression raises, and what it carries. -/
  | raised (exception : Path) (name : String)
  | bind (name : String)
  | text (s : String)
  | any
  | constant (constructor : Path)
  | construct (constructor : Path) (argument : Pattern)
  | emptyArray
  | either (left right : Pattern)
deriving Repr, Inhabited

/-- The tokens of a pattern. Inside another one, a pattern of several parts needs parentheses. -/
def Pattern.tokens (inner : Bool) : Pattern → List Token
  | .raised exception name =>
    Token.encloseIf inner [.word "exception", .word exception.text, .word name]
  | .bind name => [.word name]
  | .text s => [.literal s]
  | .any => [.word "_"]
  | .constant constructor => [.word constructor.text]
  | .construct constructor argument =>
    Token.encloseIf inner (.word constructor.text :: argument.tokens true)
  | .emptyArray => [.word "[||]"]
  | .either left right => Token.encloseIf inner (left.tokens false ++ .word "|" :: right.tokens false)

structure Clause where
  pattern : Pattern
  guard : Option Term := none
deriving Repr, Inhabited

def Clause.tokens (clause : Clause) : List Token :=
  let guard :=
    match clause.guard with
    | some guard => .word "when" :: guard.tokens 0
    | none => []
  .word "|" :: clause.pattern.tokens false ++ guard ++ [.word "->"]

inductive Body where
  | value (t : Term)
  | choose (scrutinee : Term) (arms : List (Clause × Body))
  /-- Ends with the value of a failure that matches, or else goes on with the matched value as `name`. -/
  | proceed (scrutinee : Term) (failures : List (Clause × Term)) (name : String) (next : Body)

instance : Inhabited Body := ⟨.value default⟩

namespace Body

def opening (scrutinee : Term) : List Token :=
  .word "match" :: scrutinee.tokens 0 ++ [.word "with"]

def armTokens (arm : Clause × Term) : List Token :=
  arm.1.tokens ++ arm.2.tokens 0

mutual

/-- The lines of a body. The match inside an arm stands in parentheses, one level deeper. -/
def lines (depth : Nat) : Body → List Line
  | .value t => [⟨depth, t.tokens 0⟩]
  | .choose scrutinee arms => ⟨depth, opening scrutinee⟩ :: armLines depth arms
  | .proceed scrutinee failures name next =>
    ⟨depth, opening scrutinee⟩ :: failures.map (fun arm => ⟨depth, armTokens arm⟩) ++
      ⟨depth, Clause.tokens ⟨.bind name, none⟩⟩ :: next.lines depth

def armLines (depth : Nat) : List (Clause × Body) → List Line
  | [] => []
  | (clause, .value t) :: rest => ⟨depth, armTokens (clause, t)⟩ :: armLines depth rest
  | (clause, body) :: rest =>
    ⟨depth, clause.tokens⟩ :: Line.enclose (body.lines (depth + 1)) ++ armLines depth rest

end

end Body

structure Function where
  name : String
  parameters : List String
  body : Body
deriving Inhabited

def Function.lines (keyword : List Token) (function : Function) : List Line :=
  ⟨0, keyword ++ .word function.name :: function.parameters.map .word ++ [.word "="]⟩ :: function.body.lines 1

def DefinitionGroup.functionLines (group : DefinitionGroup Function) : List Line :=
  let opening := if group.recursive then [Token.word "let", .word "rec"] else [.word "let"]
  let following := if group.recursive then [Token.word "and"] else [.word "let"]
  groupLines opening following Function.lines group.items

end TypeScribe.Ocaml
