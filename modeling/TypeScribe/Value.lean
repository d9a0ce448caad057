/-!
# Values: the trees that describe field types

An identity names the place where a type was first defined: a package, a module of it and the type's name there. Values
refer to other types by their identities.

An argument list is stored as nested pairs, with `empty` for no argument. `flatten` reads such a tree as the list of
its items, `product` and `apply` build it right-nested from the list.
-/

namespace TypeScribe

structure Identity where
  package : String
  module : String
  name : String
deriving DecidableEq, Repr, Inhabited

namespace Identity

def sharesModule (a b : Identity) : Bool :=
  a.package == b.package && a.module == b.module

def text (identity : Identity) : String :=
  identity.package ++ ":" ++ identity.module ++ "." ++ identity.name

/-- Identities are ordered by package, then module, then name, each text by its code points. -/
def order (a b : Identity) : Ordering :=
  ((compare a.package b.package).then (compare a.module b.module)).then (compare a.name b.name)

end Identity

/-! ## Values -/

/-- Built-in types without components. -/
inductive Scalar where
  | bool
  | char
  | date
  | float
  | int
  | int32
  | string
  | unit
deriving DecidableEq, Repr, Inhabited

mutual

/-- The type of a field or an argument, or a list of such types. -/
inductive Value where
  /-- A type without arguments, under the name it has in the output. -/
  | typeRef (identity : Identity) (name : String)
  | application (identity : Identity) (arguments : Value)
  | primitive (p : Primitive)
  | parameter (name : String)
  | field (name : String) (value : Value)
  | product (left right : Value)
  /-- Two parts of the argument list of a type application. -/
  | argumentPair (left right : Value)
  | empty

inductive Primitive where
  | scalar (s : Scalar)
  | list (item : Value)
  | option (item : Value)
  | either (left right : Value)
  | tuple (items : List Value)

end

instance : Inhabited Value := ⟨.empty⟩
instance : Inhabited Primitive := ⟨.scalar .unit⟩

namespace Value

def reference (identity : Identity) : Value :=
  .typeRef identity identity.name

/-- The items of a list as nested pairs: none is `empty`, one stands alone. -/
def nest (pair : Value → Value → Value) : List Value → Value
  | [] => .empty
  | [last] => last
  | item :: rest => pair item (nest pair rest)

def productOf (items : List Value) : Value := nest .product items

def apply (identity : Identity) (arguments : List Value) : Value :=
  .application identity (nest .argumentPair arguments)

/-- The items of an argument list in declared order. -/
def flatten : Value → List Value
  | .product left right => left.flatten ++ right.flatten
  | .argumentPair left right => left.flatten ++ right.flatten
  | .empty => []
  | item => [item]

end Value

/-! ## What a value mentions -/

mutual

/-- The type parameters of a value, in order of occurrence. -/
def Value.parameters : Value → List String
  | .typeRef _ _ => []
  | .application _ arguments => arguments.parameters
  | .primitive p => p.parameters
  | .parameter name => [name]
  | .field _ value => value.parameters
  | .product left right => left.parameters ++ right.parameters
  | .argumentPair left right => left.parameters ++ right.parameters
  | .empty => []

def Primitive.parameters : Primitive → List String
  | .scalar _ => []
  | .list item => item.parameters
  | .option item => item.parameters
  | .either left right => left.parameters ++ right.parameters
  | .tuple items => Value.parametersOfAll items

def Value.parametersOfAll : List Value → List String
  | [] => []
  | item :: rest => item.parameters ++ Value.parametersOfAll rest

end

mutual

def Value.references (identity : Identity) : Value → Bool
  | .typeRef other _ => other == identity
  | .application other arguments => other == identity || arguments.references identity
  | .primitive p => p.references identity
  | .parameter _ => false
  | .field _ value => value.references identity
  | .product left right => left.references identity || right.references identity
  | .argumentPair left right => left.references identity || right.references identity
  | .empty => false

def Primitive.references (identity : Identity) : Primitive → Bool
  | .scalar _ => false
  | .list item => item.references identity
  | .option item => item.references identity
  | .either left right => left.references identity || right.references identity
  | .tuple items => Value.anyReferences identity items

def Value.anyReferences (identity : Identity) : List Value → Bool
  | [] => false
  | item :: rest => item.references identity || Value.anyReferences identity rest

end

/-- A list of characters, which stands for a text. -/
def Primitive.isCharList : Primitive → Bool
  | .list (.primitive (.scalar .char)) => true
  | _ => false

/-! ## Sets of parameters -/

/-- Puts a name at its place in a sorted list without repetition. -/
def insertName (name : String) : List String → List String
  | [] => [name]
  | first :: rest =>
    if name < first then name :: first :: rest
    else if name = first then first :: rest
    else first :: insertName name rest

/-- The distinct names of a list, sorted by their code points. -/
def sortedNames (names : List String) : List String :=
  names.foldr insertName []

end TypeScribe
