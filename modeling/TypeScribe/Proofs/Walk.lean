import TypeScribe.Decoder
import TypeScribe.Proofs.Outcome
import TypeScribe.Proofs.TypePosition

/-!
# The two walks over types

`Context.typeExpr` and `Context.converter` walk over the normal form of a value. Here they are read on the value itself.
-/

namespace TypeScribe
open Ocaml (Path TypeExpr Term)

namespace Context

variable (context : Context)

theorem typeExprs_eq_mapM (types : List FieldType) : context.typeExprs types = types.mapM context.typeExpr := by
  induction types with
  | nil => rfl
  | cons type rest ih => rw [typeExprs, ih, List.mapM_cons]

theorem converters_eq_mapM (wanted : Convention) (types : List FieldType) :
    context.converters wanted types =
      types.mapM fun type => do return (← context.converter type).adapt wanted := by
  induction types with
  | nil => rfl
  | cons type rest ih =>
    rw [converters, ih, List.mapM_cons, bind_assoc]
    rfl

theorem typeExpr_application (identity : Identity) (arguments : Value) :
    context.typeExpr (Value.application identity arguments).fieldType = do
      let arguments ← arguments.flatten.mapM fun argument => context.typeExpr argument.fieldType
      return .constructor (← context.pathTo identity (Ocaml.typeName identity.name)) arguments := by
  rw [Value.fieldType_application, typeExpr, typeExprs_eq_mapM, List.mapM_map]
  rfl

theorem converter_application (identity : Identity) (arguments : Value) :
    context.converter (Value.application identity arguments).fieldType = do
      let path ← context.pathTo identity (Ocaml.decoderName identity.name)
      let arguments ← arguments.flatten.mapM fun argument => do
        return (← context.converter argument.fieldType).adapt .returning
      return ⟨.apply (.path path) arguments, .returning⟩ := by
  rw [Value.fieldType_application, converter, converters_eq_mapM, List.mapM_map]
  rfl

theorem typeExpr_tuple (items : List Value) :
    context.typeExpr (Primitive.tuple items).fieldType = do
      checkArity items.length
      return .tuple (← items.mapM fun item => context.typeExpr item.fieldType) := by
  rw [Primitive.fieldType, Value.fieldTypesOfAll_eq_map, typeExpr, typeExprs_eq_mapM, List.mapM_map, List.length_map]
  rfl

theorem converter_tuple (items : List Value) :
    context.converter (Primitive.tuple items).fieldType = do
      checkArity items.length
      let items' ← items.mapM context.raising
      return ⟨.apply (Runtime.decode ("tuple" ++ toString items.length)) items', .raising⟩ := by
  rw [Primitive.fieldType, Value.fieldTypesOfAll_eq_map, converter, converters_eq_mapM, List.mapM_map, List.length_map]
  rfl

end Context

/-! ## Built-in types -/

/-- The type expression of a built-in type, from those of its components. -/
def Primitive.typeFrom : Primitive → List TypeExpr → TypeExpr
  | .scalar s, _ => .constructor s.typePath []
  | .list (.primitive (.scalar .char)), _ => .constructor Scalar.string.typePath []
  | .list _, types => .constructor ⟨[], "list"⟩ types
  | .option _, types => .constructor ⟨[], "option"⟩ types
  | .either _ _, types => .constructor eitherPath types
  | .tuple _, types => .tuple types

def Primitive.decoderFrom : Primitive → List Term → Term
  | .scalar s, _ => Runtime.decode s.decoderName
  | .list (.primitive (.scalar .char)), _ => Runtime.decode Scalar.string.decoderName
  | .list _, terms => .apply (Runtime.decode "list") terms
  | .option _, terms => .apply (Runtime.decode "optional") terms
  | .either _ _, terms => .apply (Runtime.decode "either") terms
  | .tuple items, terms => .apply (Runtime.decode ("tuple" ++ toString items.length)) terms

/-- The type expression has the others as its arguments or items, or it is the only one of them. -/
inductive Ocaml.TypeExpr.IsMadeOf : TypeExpr → List TypeExpr → Prop where
  | constructor (path : Path) (types : List TypeExpr) : IsMadeOf (.constructor path types) types
  | tuple (types : List TypeExpr) : IsMadeOf (.tuple types) types
  | only (type : TypeExpr) : IsMadeOf type [type]

def Runtime.decoderNames : List String :=
  ["bool", "string", "date", "float", "int", "int32", "unit", "list", "optional", "either", "tuple2", "tuple3", "tuple4",
    "tuple5", "tuple6"]

/-- The expression calls a decoder for a built-in type with the others, or it is the only one of them. -/
inductive Ocaml.Term.IsMadeOf : Term → List Term → Prop where
  | decode {name : String} (known : name ∈ Runtime.decoderNames) : IsMadeOf (Runtime.decode name) []
  | call {name : String} (known : name ∈ Runtime.decoderNames) (terms : List Term) :
    IsMadeOf (.apply (Runtime.decode name) terms) terms
  | only (term : Term) : IsMadeOf term [term]

theorem Value.fieldType_list_of_ne {item : Value} (h : item ≠ .primitive (.scalar .char)) :
    (Primitive.list item).fieldType = .list item.fieldType := by
  unfold Primitive.fieldType
  split <;> simp_all

theorem Primitive.typeFrom_list {item : Value} (h : item ≠ .primitive (.scalar .char)) (types : List TypeExpr) :
    (Primitive.list item).typeFrom types = .constructor ⟨[], "list"⟩ types := by
  unfold typeFrom
  split <;> simp_all

theorem Primitive.decoderFrom_list {item : Value} (h : item ≠ .primitive (.scalar .char)) (terms : List Term) :
    (Primitive.list item).decoderFrom terms = .apply (Runtime.decode "list") terms := by
  unfold decoderFrom
  split <;> simp_all

namespace Context

variable (context : Context)

def checkSize : Primitive → Except RenderError Unit
  | .tuple items => checkArity items.length
  | _ => .ok ()

/-- The type expression of a built-in type is made of those of its components, if there are as many as there may be. -/
theorem typeExpr_primitive_eq (p : Primitive) :
    context.typeExpr p.fieldType = do
      checkSize p
      let types ← p.components.mapM fun component => context.typeExpr component.fieldType
      return p.typeFrom types := by
  cases p with
  | scalar s => rfl
  | list item =>
    by_cases h : item = .primitive (.scalar .char)
    · rw [h]
      rfl
    · simp only [Value.fieldType_list_of_ne h, Primitive.typeFrom_list h, typeExpr, checkSize, Primitive.components,
        List.mapM_cons, List.mapM_nil, bind_assoc, pure_bind]
      rfl
  | option item =>
    simp only [Primitive.fieldType, Primitive.typeFrom, typeExpr, checkSize, Primitive.components, List.mapM_cons,
      List.mapM_nil, bind_assoc, pure_bind]
    rfl
  | either left right =>
    simp only [Primitive.fieldType, Primitive.typeFrom, typeExpr, checkSize, Primitive.components, List.mapM_cons,
      List.mapM_nil, bind_assoc, pure_bind]
    rfl
  | tuple items => exact typeExpr_tuple context items

/-- The decoder of a built-in type is made of those of its components, if there are as many as there may be. -/
theorem converter_primitive_eq (p : Primitive) :
    context.converter p.fieldType = do
      checkSize p
      let terms ← p.components.mapM context.raising
      return ⟨p.decoderFrom terms, .raising⟩ := by
  cases p with
  | scalar s => rfl
  | list item =>
    by_cases h : item = .primitive (.scalar .char)
    · rw [h]
      rfl
    · simp only [Value.fieldType_list_of_ne h, Primitive.decoderFrom_list h, converter, checkSize, Primitive.components,
        raising, List.mapM_cons, List.mapM_nil, bind_assoc, pure_bind]
      rfl
  | option item =>
    simp only [Primitive.fieldType, Primitive.decoderFrom, converter, checkSize, Primitive.components, raising,
      List.mapM_cons, List.mapM_nil, bind_assoc, pure_bind]
    rfl
  | either left right =>
    simp only [Primitive.fieldType, Primitive.decoderFrom, converter, checkSize, Primitive.components, raising,
      List.mapM_cons, List.mapM_nil, bind_assoc, pure_bind]
    rfl
  | tuple items => exact converter_tuple context items

theorem typeExpr_primitive (p : Primitive) :
    Agree Eq (context.typeExpr p.fieldType)
      (checkSize p >>= fun _ => p.components.mapM fun component => context.typeExpr component.fieldType) := by
  rw [typeExpr_primitive_eq]
  exact (Agree.refl _).bind fun _ _ _ _ => (Agree.refl _).map_left

theorem converter_primitive (p : Primitive) :
    Agree Eq (context.converter p.fieldType)
      (checkSize p >>= fun _ => p.components.mapM fun component => context.converter component.fieldType) := by
  rw [converter_primitive_eq]
  exact (Agree.refl _).bind fun _ _ _ _ => (Agree.mapM fun _ _ => (Agree.refl _).map_left).map_left

variable {context}

theorem exists_types_of_primitive {p : Primitive} {type : TypeExpr} (h : context.typeExpr p.fieldType = .ok type) :
    ∃ types, p.components.mapM (fun component => context.typeExpr component.fieldType) = .ok types ∧
      type.IsMadeOf types := by
  rw [typeExpr_primitive_eq] at h
  obtain ⟨_, -, h⟩ := bind_eq_ok.mp h
  obtain ⟨types, htypes, h⟩ := bind_eq_ok.mp h
  obtain rfl := pure_eq_ok.mp h
  refine ⟨types, htypes, ?_⟩
  cases p with
  | scalar s =>
    obtain rfl := pure_eq_ok.mp htypes
    exact .constructor _ _
  | list item =>
    by_cases hitem : item = .primitive (.scalar .char)
    -- a list of characters is rendered as a text, and so is its one component
    · subst hitem
      obtain rfl : [_] = types := Except.ok.inj htypes
      exact .only _
    · rw [Primitive.typeFrom_list hitem]
      exact .constructor _ _
  | option | either => exact .constructor _ _
  | tuple => exact .tuple _

theorem exists_converters_of_primitive {p : Primitive} {converter : Converter}
    (h : context.converter p.fieldType = .ok converter) :
    ∃ terms, p.components.mapM context.raising = .ok terms ∧ converter.term.IsMadeOf terms := by
  rw [converter_primitive_eq] at h
  obtain ⟨_, hsize, h⟩ := bind_eq_ok.mp h
  obtain ⟨terms, hterms, h⟩ := bind_eq_ok.mp h
  obtain rfl := pure_eq_ok.mp h
  refine ⟨terms, hterms, ?_⟩
  cases p with
  | scalar s =>
    obtain rfl := pure_eq_ok.mp hterms
    exact .decode (by cases s <;> decide)
  | list item =>
    by_cases hitem : item = .primitive (.scalar .char)
    · subst hitem
      obtain rfl : [_] = terms := Except.ok.inj hterms
      exact .only _
    · change Term.IsMadeOf (Primitive.decoderFrom _ _) _
      rw [Primitive.decoderFrom_list hitem]
      exact .call (by decide) _
  | option | either => exact .call (by decide) _
  | tuple items =>
    refine .call ?_ _
    rw [checkSize, checkArity] at hsize
    split at hsize
    · next harity =>
      have hlength : items.length = 2 ∨ items.length = 3 ∨ items.length = 4 ∨ items.length = 5 ∨ items.length = 6 := by
        omega
      rcases hlength with h | h | h | h | h <;> rw [h] <;> decide
    · cases hsize

end Context

end TypeScribe
