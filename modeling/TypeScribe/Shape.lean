import TypeScribe.Descriptor
import TypeScribe.Name.Transform
import TypeScribe.RenderError

/-!
# Shapes of types

`classify` checks the constructors of a descriptor and says which of six shapes its type has. The shape keeps names and
values as the descriptor has them, in declared order.
-/

namespace TypeScribe

structure RecordField where
  name : String
  value : Value
deriving Inhabited

structure Positional where
  name : String
  arguments : List Value
deriving Inhabited

/-- A branch of a sum of records, made a record type of its own. -/
structure HoistedRecord where
  displayName : String
  branch : String
  fields : List RecordField
  /-- The parameters of this record alone, sorted. -/
  parameters : List String
deriving Inhabited

/-- The form of a type, with all that its constructors hold. -/
inductive Shape where
  | alias (p : Primitive)
  | record (fields : List RecordField)
  /-- One positional constructor, which JSON does not tag. -/
  | single (constructor : Positional)
  | sum (constructors : List Positional)
  | enumeration (tags : List String)
  | sumOfRecords (records : List HoistedRecord)
deriving Inhabited

namespace Shape

def recordField (typeName : String) : Value → Except RenderError RecordField
  | .field name value => .ok ⟨name, value⟩
  | other => .error (.unexpectedValue typeName other.kind .record)

/-- The fields of a record, at least one. -/
def recordFields (typeName : String) (payload : Value) : Except RenderError (List RecordField) := do
  let fields ← payload.flatten.mapM (recordField typeName)
  if fields.isEmpty then throw (.emptyRecord typeName)
  return fields

def positional (typeName : String) : Branch → Except RenderError Positional
  | .named name value => .ok ⟨name, value.flatten⟩
  | .record name _ => .error (.mixedRecordBranch typeName name)

def ofBranches (typeName : String) : List Branch → Except RenderError Shape
  | [] => .error (.noConstructors typeName)
  | [.record _ value] => return .record (← recordFields typeName value)
  | [.named name value] => .ok (.single ⟨name, value.flatten⟩)
  | branches => return .sum (← branches.mapM (positional typeName))

def hoistedName (typeName branch : String) : String :=
  typeName ++ Name.upperFirst branch

def hoistedRecord (typeName : String) : Branch → Except RenderError HoistedRecord
  | .record name value => do
    let displayName := hoistedName typeName name
    let fields ← recordFields displayName value
    return { displayName, branch := name, fields, parameters := sortedNames value.parameters }
  | .named name _ => .error (.malformedSumOfRecords typeName name)

/-- The record types for the branches of a sum of records, at least one. -/
def hoist (typeName : String) (branches : List Branch) : Except RenderError (List HoistedRecord) :=
  if branches.isEmpty then .error (.noConstructors typeName)
  else branches.mapM (hoistedRecord typeName)

end Shape

/-- The shape of a descriptor's type, or the first fault of its constructors. -/
def Descriptor.classify (descriptor : Descriptor) : Except RenderError Shape :=
  match descriptor.constructor with
  | .alias p => .ok (.alias p)
  | .enumeration tags =>
    if tags.isEmpty then .error (.noConstructors descriptor.displayName) else .ok (.enumeration tags)
  | .value alternatives => Shape.ofBranches descriptor.displayName alternatives.branches
  | .sumOfRecords typeName alternatives => do
    return .sumOfRecords (← Shape.hoist typeName alternatives.branches)

end TypeScribe
