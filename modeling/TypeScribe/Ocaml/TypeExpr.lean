import TypeScribe.Ocaml.Token

/-!
# Type expressions and type definitions of OCaml

A type constructor follows its arguments. One argument stands before it, several stand in parentheses.
-/

namespace TypeScribe.Ocaml

inductive TypeExpr where
  /-- A type variable, without its quote. -/
  | var (name : String)
  | constructor (path : Path) (arguments : List TypeExpr)
  | tuple (items : List TypeExpr)
  | arrow (domain codomain : TypeExpr)
deriving Repr, Inhabited

namespace TypeExpr

def applied (name : String) (parameters : List String) : TypeExpr :=
  .constructor ⟨[], name⟩ (parameters.map .var)

mutual

/-- The tokens of a type expression. Inside another one, an arrow needs parentheses. -/
def tokens (inner : Bool) : TypeExpr → List Token
  | .var name => [.word ("'" ++ name)]
  | .constructor path [] => [.word path.text]
  | .constructor path [argument] => argument.tokens true ++ [.word path.text]
  | .constructor path (first :: second :: rest) =>
    Token.enclose (first.tokens true ++ followedBy .comma (second :: rest)) ++ [.word path.text]
  | .tuple [] => Token.enclose []
  | .tuple (first :: rest) => Token.enclose (first.tokens true ++ followedBy (.word "*") rest)
  | .arrow domain codomain =>
    Token.encloseIf inner (domain.tokens true ++ .word "->" :: codomain.tokens false)

def followedBy (separator : Token) : List TypeExpr → List Token
  | [] => []
  | item :: rest => separator :: item.tokens true ++ followedBy separator rest

end

end TypeExpr

/-- What a type is defined to be. -/
inductive TypeBody where
  | alias (type : TypeExpr)
  | record (fields : List (String × TypeExpr))
  | variant (constructors : List (String × List TypeExpr))
deriving Repr, Inhabited

structure TypeDefinition where
  name : String
  parameters : List String
  body : TypeBody
deriving Repr, Inhabited

namespace TypeDefinition

/-- The defined type, applied to its parameters. -/
def head (definition : TypeDefinition) : TypeExpr :=
  .applied definition.name definition.parameters

def fieldTokens (field : String × TypeExpr) : List Token :=
  .word field.1 :: .word ":" :: field.2.tokens false

def constructorTokens : String × List TypeExpr → List Token
  | (name, []) => [.word "|", .word name]
  | (name, first :: rest) =>
    .word "|" :: .word name :: .word "of" :: first.tokens true ++ TypeExpr.followedBy (.word "*") rest

def lines (keyword : List Token) (definition : TypeDefinition) : List Line :=
  let opening := keyword ++ definition.head.tokens false ++ [.word "="]
  match definition.body with
  | .alias type => [⟨0, opening ++ type.tokens false⟩]
  | .record [] => [⟨0, opening⟩, ⟨1, [.word "\x7b", .word "\x7d"]⟩]
  | .record (first :: rest) =>
    ⟨0, opening⟩ :: ⟨1, .word "\x7b" :: fieldTokens first⟩ ::
      rest.map (fun field => ⟨1, .semicolon :: fieldTokens field⟩) ++ [⟨1, [.word "\x7d"]⟩]
  | .variant constructors =>
    ⟨0, opening⟩ :: constructors.map fun constructor => ⟨1, constructorTokens constructor⟩

end TypeDefinition

def DefinitionGroup.typeLines (group : DefinitionGroup TypeDefinition) : List Line :=
  groupLines [.word "type"] [.word (if group.recursive then "and" else "type")] TypeDefinition.lines group.items

structure ValueSpec where
  name : String
  type : TypeExpr
deriving Repr, Inhabited

def ValueSpec.line (spec : ValueSpec) : Line :=
  ⟨0, .word "val" :: .word spec.name :: .word ":" :: spec.type.tokens false⟩

end TypeScribe.Ocaml
