import TypeScribe.Value

/-!
# Descriptors of exported types

A descriptor gives a type its identity, the name it has in the output, and its constructor.
-/

namespace TypeScribe

/-- The constructors of a type that carries values. -/
inductive Alternatives where
  /-- A constructor with positional arguments. -/
  | named (name : String) (value : Value)
  | record (name : String) (value : Value)
  | multiple (items : List Alternatives)

instance : Inhabited Alternatives := ⟨.multiple []⟩

inductive Branch where
  | named (name : String) (value : Value)
  | record (name : String) (value : Value)

def Branch.name : Branch → String
  | .named name _ => name
  | .record name _ => name

def Branch.value : Branch → Value
  | .named _ value => value
  | .record _ value => value

namespace Alternatives

def ofArguments (name : String) (arguments : List Value) : Alternatives :=
  .named name (Value.productOf arguments)

def ofFields (name : String) (fields : List (String × Value)) : Alternatives :=
  .record name (Value.productOf (fields.map fun (label, value) => .field label value))

def name? : Alternatives → Option String
  | .named name _ => some name
  | .record name _ => some name
  | .multiple _ => none

mutual

/-- The constructors in declared order, groups inside groups dissolved. -/
def branches : Alternatives → List Branch
  | .named name value => [.named name value]
  | .record name value => [.record name value]
  | .multiple items => branchesOfAll items

def branchesOfAll : List Alternatives → List Branch
  | [] => []
  | item :: rest => item.branches ++ branchesOfAll rest

end

mutual

/-- The type parameters in order of occurrence. -/
def parameters : Alternatives → List String
  | .named _ value => value.parameters
  | .record _ value => value.parameters
  | .multiple items => parametersOfAll items

def parametersOfAll : List Alternatives → List String
  | [] => []
  | item :: rest => item.parameters ++ parametersOfAll rest

end

mutual

def references (identity : Identity) : Alternatives → Bool
  | .named _ value => value.references identity
  | .record _ value => value.references identity
  | .multiple items => anyReferences identity items

def anyReferences (identity : Identity) : List Alternatives → Bool
  | [] => false
  | item :: rest => item.references identity || anyReferences identity rest

end

/-! Both read the constructors in declared order, whatever group they stand in. -/

mutual

theorem parameters_eq_flatMap : ∀ alternatives : Alternatives,
    alternatives.parameters = alternatives.branches.flatMap (·.value.parameters)
  | .named _ _ | .record _ _ => by rw [parameters, branches, List.flatMap_singleton, Branch.value]
  | .multiple items => by rw [parameters, branches, parametersOfAll_eq_flatMap items]

theorem parametersOfAll_eq_flatMap : ∀ items : List Alternatives,
    parametersOfAll items = (branchesOfAll items).flatMap (·.value.parameters)
  | [] => rfl
  | item :: rest => by
    rw [parametersOfAll, branchesOfAll, List.flatMap_append, item.parameters_eq_flatMap, parametersOfAll_eq_flatMap rest]

end

mutual

theorem references_eq_any (identity : Identity) : ∀ alternatives : Alternatives,
    alternatives.references identity = alternatives.branches.any (·.value.references identity)
  | .named _ _ | .record _ _ => by
    rw [references, branches, List.any_cons, List.any_nil, Bool.or_false, Branch.value]
  | .multiple items => by rw [references, branches, anyReferences_eq_any identity items]

theorem anyReferences_eq_any (identity : Identity) : ∀ items : List Alternatives,
    anyReferences identity items = (branchesOfAll items).any (·.value.references identity)
  | [] => rfl
  | item :: rest => by
    rw [anyReferences, branchesOfAll, List.any_append, item.references_eq_any identity, anyReferences_eq_any identity rest]

end

end Alternatives

/-- The top-level form of a type. -/
inductive Constructor where
  /-- Another name for a built-in type. -/
  | alias (p : Primitive)
  | value (alternatives : Alternatives)
  /-- Tags without arguments, in declared order. -/
  | enumeration (tags : List String)
  /-- A sum of which every branch is a record. Each becomes a record type named after `typeName` and the branch. -/
  | sumOfRecords (typeName : String) (alternatives : Alternatives)

instance : Inhabited Constructor := ⟨.enumeration []⟩

def Constructor.parameters : Constructor → List String
  | .alias p => p.parameters
  | .value alternatives => alternatives.parameters
  | .enumeration _ => []
  | .sumOfRecords _ alternatives => alternatives.parameters

def Constructor.references (identity : Identity) : Constructor → Bool
  | .alias p => p.references identity
  | .value alternatives => alternatives.references identity
  | .enumeration _ => false
  | .sumOfRecords _ alternatives => alternatives.references identity

structure Descriptor where
  identity : Identity
  displayName : String
  constructor : Constructor
deriving Inhabited

namespace Descriptor

def ofConstructor (identity : Identity) (constructor : Constructor) : Descriptor :=
  { identity, displayName := identity.name, constructor }

/-- The type parameters of a type, each once, sorted. -/
def parameters (descriptor : Descriptor) : List String :=
  sortedNames descriptor.constructor.parameters

def references (descriptor : Descriptor) (identity : Identity) : Bool :=
  descriptor.constructor.references identity

end Descriptor

end TypeScribe
