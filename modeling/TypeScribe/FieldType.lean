import TypeScribe.Value

/-!
# Field types: the normal form of values

A field type is what a value means where a type is due. Argument lists become plain lists and a list of characters
becomes a text. A value that is no type, such as a bare argument list, stays as the kind that is misplaced.
-/

namespace TypeScribe

inductive ValueKind where
  | typeRef
  | application
  | primitive
  | parameter
  | field
  | product
  | argumentPair
  | empty
deriving DecidableEq, Repr, Inhabited

def ValueKind.text : ValueKind → String
  | .typeRef => "type reference"
  | .application => "type application"
  | .primitive => "primitive"
  | .parameter => "type parameter"
  | .field => "field"
  | .product => "product"
  | .argumentPair => "type argument list"
  | .empty => "empty value"

def Value.kind : Value → ValueKind
  | .typeRef _ _ => .typeRef
  | .application _ _ => .application
  | .primitive _ => .primitive
  | .parameter _ => .parameter
  | .field _ _ => .field
  | .product _ _ => .product
  | .argumentPair _ _ => .argumentPair
  | .empty => .empty

/-- The type of a field, of an argument or of a component. -/
inductive FieldType where
  | reference (identity : Identity) (name : String)
  | application (identity : Identity) (arguments : List FieldType)
  | scalar (s : Scalar)
  | list (item : FieldType)
  | option (item : FieldType)
  | either (left right : FieldType)
  | tuple (items : List FieldType)
  | parameter (name : String)
  /-- Something that is no type. -/
  | misplaced (kind : ValueKind)

instance : Inhabited FieldType := ⟨.scalar .unit⟩

mutual

/-- The field type that a value means where one type is due. -/
def Value.fieldType : Value → FieldType
  | .typeRef identity name => .reference identity name
  | .application identity arguments => .application identity arguments.fieldTypes
  | .primitive p => p.fieldType
  | .parameter name => .parameter name
  | .field _ _ => .misplaced .field
  | .product _ _ => .misplaced .product
  | .argumentPair _ _ => .misplaced .argumentPair
  | .empty => .misplaced .empty

def Value.fieldTypes : Value → List FieldType
  | .typeRef identity name => [.reference identity name]
  | .application identity arguments => [.application identity arguments.fieldTypes]
  | .primitive p => [p.fieldType]
  | .parameter name => [.parameter name]
  | .field _ _ => [.misplaced .field]
  | .product left right => left.fieldTypes ++ right.fieldTypes
  | .argumentPair left right => left.fieldTypes ++ right.fieldTypes
  | .empty => []

/-- The field type of a built-in type: a list of characters is a text. -/
def Primitive.fieldType : Primitive → FieldType
  | .scalar s => .scalar s
  | .list (.primitive (.scalar .char)) => .scalar .string
  | .list item => .list item.fieldType
  | .option item => .option item.fieldType
  | .either left right => .either left.fieldType right.fieldType
  | .tuple items => .tuple (Value.fieldTypesOfAll items)

def Value.fieldTypesOfAll : List Value → List FieldType
  | [] => []
  | item :: rest => item.fieldType :: Value.fieldTypesOfAll rest

end

end TypeScribe
