import TypeScribe.Proofs.Typing
import TypeScribe.Proofs.Walk

/-!
# Decoders have the declared types

The decoder of a value is typed by induction along the walks over types. It decodes the type that the declaration has in
the same place, it has the convention it is tagged with and no other, and inside it each function is given decoders by
the convention it expects.
-/

namespace TypeScribe
open Ocaml (Path Term TypeExpr)

/-- The expression is a decoder of a type by a convention, and no decoder of anything by another convention. -/
structure IsDecoderBy (convention : Convention) (term : Term) (type : TypeExpr) : Prop where
  typed : Typed [] term .silent (convention.decoderOf type)
  unique : ∀ {convention' type'}, Typed [] term .silent (Convention.decoderOf convention' type') →
    convention' = convention

/-- The functions of the library that make a decoder of decoders. -/
def combinators : List Path :=
  ["list", "optional", "either", "tuple2", "tuple3", "tuple4", "tuple5", "tuple6", "wrapResult"].map (⟨aesonDecode, ·⟩)

/-- The arguments of a function are decoders by the convention it expects: combinators expect raising decoders, and
generated decoders returning ones before the JSON value. -/
structure SuitArguments (path : Path) (arguments : List Term) : Prop where
  combinator : path ∈ combinators → ∀ argument ∈ arguments, ∃ type, IsDecoderBy .raising argument type
  generated : IsDecoderName path.name →
    ∀ argument ∈ arguments, argument = .var "json" ∨ ∃ type, IsDecoderBy .returning argument type

namespace Ocaml.Term

inductive Within (part : Term) : Term → Prop where
  | self : Within part part
  | function {function : Term} {arguments : List Term} :
    Within part function → Within part (.apply function arguments)
  | argument {function argument : Term} {arguments : List Term} :
    argument ∈ arguments → Within part argument → Within part (.apply function arguments)
  | lambda {name : String} {body : Term} : Within part body → Within part (.lambda name body)
  | component {constructor : Path} {argument : Term} {arguments : List Term} :
    argument ∈ arguments → Within part argument → Within part (.construct constructor arguments)
  | concatLeft {left right : Term} : Within part left → Within part (.concat left right)
  | concatRight {left right : Term} : Within part right → Within part (.concat left right)
  | differsLeft {left right : Term} : Within part left → Within part (.differs left right)
  | differsRight {left right : Term} : Within part right → Within part (.differs left right)

/-- Every function that is called in an expression is given decoders by the convention it expects. -/
def KeepsConventions (term : Term) : Prop :=
  ∀ path arguments, Within (.apply (.path path) arguments) term → SuitArguments path arguments

end Ocaml.Term

open Ocaml.Term (Within KeepsConventions)

theorem not_isDecoderName_of_mem_combinators {path : Path} (h : path ∈ combinators) : ¬ IsDecoderName path.name := by
  revert path
  decide

/-- The decoder of a type, and the convention it is tagged with. -/
structure Converter.Decodes (converter : Converter) (type : TypeExpr) : Prop where
  isDecoder : IsDecoderBy converter.convention converter.term type
  keeps : converter.term.KeepsConventions

theorem shows_nil (path : Path) : Scope.Shows [] path := fun _ => rfl

/-- A function that gives a decoder has the convention of this decoder, whether it is applied or not. -/
theorem isDecoderBy_path {path : Path} {convention : Convention} {type : TypeExpr}
    (h : Signature path [] .silent (convention.decoderOf type)) : IsDecoderBy convention (.path path) type where
  typed := .path (shows_nil _) h
  unique h' := Signature.convention_unique (h'.of_path (shows_nil _)) h

theorem isDecoderBy_apply {path : Path} {types : List Ty} {arguments : List Term} {convention : Convention}
    {type : TypeExpr} (h : Signature path types .silent (convention.decoderOf type))
    (harguments : List.Forall₂ (fun argument type => Typed [] argument .silent type) arguments types) :
    IsDecoderBy convention (.apply (.path path) arguments) type where
  typed := .call_of_forall₂ (shows_nil _) h harguments
  unique h' := by
    obtain ⟨types', h' | h'⟩ := h'.of_apply (shows_nil _)
    · exact h'.convention_unique h
    · exact absurd h' Signature.not_nested

theorem keepsConventions_path (path : Path) : KeepsConventions (.path path) := by
  intro _ _ h
  cases h

theorem keepsConventions_apply {function : Term} {arguments : List Term}
    (suit : ∀ path, function = .path path → SuitArguments path arguments) (hfunction : function.KeepsConventions)
    (harguments : ∀ argument ∈ arguments, argument.KeepsConventions) :
    KeepsConventions (.apply function arguments) := by
  intro path arguments' h
  generalize hpart : Term.apply (.path path) arguments' = part at h
  cases h with
  | self =>
    cases hpart
    exact suit path rfl
  | function h => exact hfunction _ _ (hpart ▸ h)
  | argument hmem h => exact harguments _ hmem _ _ (hpart ▸ h)

theorem clear_json : Scope.Clear [("json", .json)] := Scope.Clear.nil.cons (by decide) _

/-! ## Other conventions -/

namespace Converter.Decodes

variable {converter : Converter} {type : TypeExpr}

theorem wrap {term : Term} (h : Decodes ⟨term, .raising⟩ type) :
    Decodes ⟨.apply (Runtime.decode "wrapResult") [term], .returning⟩ type where
  isDecoder := isDecoderBy_apply .wrapResult (.cons h.isDecoder.typed .nil)
  keeps := by
    refine keepsConventions_apply (fun path hpath => ?_) (keepsConventions_path _) fun argument hmem => ?_
    · cases hpath
      refine ⟨fun _ argument hmem => ⟨type, ?_⟩, fun hname => absurd hname (by decide)⟩
      rw [List.mem_singleton.mp hmem]
      exact h.isDecoder
    · rw [List.mem_singleton.mp hmem]
      exact h.keeps

theorem not_mem_combinators {path : Path} (h : Decodes ⟨.path path, .returning⟩ type) : path ∉ combinators := by
  intro hmem
  rcases (h.isDecoder.typed.of_path (shows_nil _)).of_returning with h | ⟨-, h⟩
  · exact not_isDecoderName_of_mem_combinators hmem h
  · exact h rfl

theorem keepsConventions_unwrap {term : Term} (h : Decodes ⟨term, .returning⟩ type) :
    KeepsConventions (.apply (Runtime.decode "unwrapResult") [Runtime.onJson term]) := by
  refine keepsConventions_apply (fun path hpath => ?_) (keepsConventions_path _) fun argument hmem => ?_
  · cases hpath
    exact ⟨fun hmem => absurd hmem (by decide), fun hname => absurd hname (by decide)⟩
  · rw [List.mem_singleton.mp hmem]
    refine keepsConventions_apply (fun path hpath => ?_) h.keeps fun argument hmem => ?_
    · subst hpath
      exact ⟨fun hmem => absurd hmem h.not_mem_combinators, fun _ argument hmem => .inl (List.mem_singleton.mp hmem)⟩
    · rw [List.mem_singleton.mp hmem]
      exact keepsConventions_path _

theorem unwrap {term : Term} (h : Decodes ⟨term, .returning⟩ type) :
    Decodes ⟨.lambda "json" (.apply (Runtime.decode "unwrapResult") [Runtime.onJson term]), .raising⟩ type where
  isDecoder := {
    typed := by
      have hterm : Typed [("json", .json)] term .silent (Convention.returning.decoderOf type) :=
        h.isDecoder.typed.weaken clear_json.within
      have hjson : Typed [("json", .json)] (.var "json") .silent .json := .var rfl
      exact .lambda (.call_of_forall₂ (fun h => by cases h) .unwrapResult (.cons (.run hterm hjson) .nil))
    unique := by
      intro convention' type' h'
      generalize hdecoder : Convention.decoderOf convention' type' = decoder at h'
      cases h' with
      | lambda hbody =>
        obtain ⟨types, hsignature | hsignature⟩ := hbody.of_apply (fun h => by cases h)
        · cases convention' with
          | raising => rfl
          | returning =>
            cases hdecoder
            cases hsignature.of_unwrapResult.1
        · obtain ⟨-, data, hdata⟩ := hsignature.of_unwrapResult
          cases hdata
  }
  keeps path arguments hwithin := by
    cases hwithin with
    | lambda hwithin => exact h.keepsConventions_unwrap path arguments hwithin

theorem adapt (h : converter.Decodes type) (wanted : Convention) : Decodes ⟨converter.adapt wanted, wanted⟩ type := by
  obtain ⟨term, convention⟩ := converter
  cases convention <;> cases wanted
  · exact h
  · exact h.wrap
  · exact h.unwrap
  · exact h

end Converter.Decodes

/-! ## All types -/

/-- A function applied to decoders by the convention it expects is a decoder. -/
theorem decodes_apply (wanted : Convention) {path : Path} {convention : Convention} (types : List TypeExpr)
    {type : TypeExpr} {terms : List Term} (h : Signature path (types.map wanted.decoderOf) .silent (convention.decoderOf type))
    (hcombinator : path ∈ combinators → wanted = .raising) (hgenerated : IsDecoderName path.name → wanted = .returning)
    (hterms : List.Forall₂ (fun term type => Converter.Decodes ⟨term, wanted⟩ type) terms types) :
    Converter.Decodes ⟨.apply (.path path) terms, convention⟩ type := by
  have hdecoder : ∀ term ∈ terms, ∃ type, Converter.Decodes ⟨term, wanted⟩ type := by
    intro term hmem
    obtain ⟨type, -, h⟩ := exists_of_forall₂_left hterms hmem
    exact ⟨type, h⟩
  constructor
  · refine isDecoderBy_apply h ?_
    rw [List.forall₂_map_right_iff]
    exact hterms.imp fun _ _ h => h.isDecoder.typed
  · refine keepsConventions_apply (fun path' hpath => ?_) (keepsConventions_path _) fun term hmem => ?_
    · cases hpath
      constructor
      · intro hmem term hterm
        obtain ⟨type, h⟩ := hdecoder term hterm
        cases hcombinator hmem
        exact ⟨type, h.isDecoder⟩
      · intro hname term hterm
        obtain ⟨type, h⟩ := hdecoder term hterm
        cases hgenerated hname
        exact .inr ⟨type, h.isDecoder⟩
    · obtain ⟨type, h⟩ := hdecoder term hmem
      exact h.keeps

namespace Context

variable (context : Context)

/-- The decoder of a value decodes the type that a declaration gives the value. -/
def DecodesDeclared (value : Value) : Prop :=
  ∀ {type converter}, context.typeExpr value.fieldType = .ok type → context.converter value.fieldType = .ok converter →
    converter.Decodes type

variable {context}

theorem decodes_all {wanted : Convention} {values : List Value} {types : List TypeExpr} {terms : List Term}
    (h : ∀ value ∈ values, context.DecodesDeclared value)
    (htypes : values.mapM (fun value => context.typeExpr value.fieldType) = .ok types)
    (hterms : values.mapM (fun value => do return (← context.converter value.fieldType).adapt wanted) = .ok terms) :
    List.Forall₂ (fun term type => Converter.Decodes ⟨term, wanted⟩ type) terms types := by
  induction values generalizing types terms with
  | nil =>
    cases htypes
    cases hterms
    exact .nil
  | cons value rest ih =>
    rw [List.mapM_cons] at htypes hterms
    obtain ⟨type, htype, htypes⟩ := bind_eq_ok.mp htypes
    obtain ⟨types', htypes', hcons⟩ := bind_eq_ok.mp htypes
    cases hcons
    obtain ⟨term, hterm, hterms⟩ := bind_eq_ok.mp hterms
    obtain ⟨converter, hconverter, hadapt⟩ := bind_eq_ok.mp hterm
    cases hadapt
    obtain ⟨terms', hterms', hcons⟩ := bind_eq_ok.mp hterms
    cases hcons
    rw [List.forall_mem_cons] at h
    exact .cons ((h.1 htype hconverter).adapt wanted) (ih h.2 htypes' hterms')

theorem decodesDeclared_typeRef (identity : Identity) (name : String) :
    context.DecodesDeclared (.typeRef identity name) := by
  intro type converter htype hconverter
  simp only [Value.fieldType, typeExpr, Context.converter, pathTo, bind_eq_ok, pure_eq_ok] at htype hconverter
  obtain ⟨typePath, ⟨modules, hmodules, rfl⟩, rfl⟩ := htype
  obtain ⟨path, ⟨modules', hmodules', rfl⟩, rfl⟩ := hconverter
  cases hmodules.symm.trans hmodules'
  exact ⟨isDecoderBy_path (@Signature.generated modules name []), keepsConventions_path _⟩

theorem decodesDeclared_application {identity : Identity} {arguments : Value}
    (h : ∀ argument ∈ arguments.flatten, context.DecodesDeclared argument) :
    context.DecodesDeclared (.application identity arguments) := by
  intro type converter htype hconverter
  rw [typeExpr_application] at htype
  rw [converter_application] at hconverter
  simp only [pathTo, bind_eq_ok, pure_eq_ok] at htype hconverter
  obtain ⟨types, htypes, typePath, ⟨modules, hmodules, rfl⟩, rfl⟩ := htype
  obtain ⟨path, ⟨modules', hmodules', rfl⟩, terms, hterms, rfl⟩ := hconverter
  cases hmodules.symm.trans hmodules'
  refine decodes_apply .returning types .generated (fun hmem => ?_) (fun _ => rfl) ?_
  · have hforeign := not_isDecoderName_of_mem_combinators hmem
    exact absurd (isDecoderName_decoderName identity.name) hforeign
  · exact decodes_all h htypes hterms

theorem decodesDeclared_primitive {p : Primitive} (h : ∀ component ∈ p.components, context.DecodesDeclared component) :
    context.DecodesDeclared (.primitive p) := by
  intro type converter htype hconverter
  cases p with
  | scalar s =>
    cases htype
    cases hconverter
    refine ⟨isDecoderBy_path (.basic ?_), keepsConventions_path _⟩
    cases s <;> simp [Scalar.decoderName, Scalar.typePath, basicDecoders, basicType]
  | list item =>
    rw [Value.fieldType] at htype hconverter
    rcases Value.fieldType_list item with ⟨-, hlist⟩ | hlist
    · rw [hlist] at htype hconverter
      cases htype
      cases hconverter
      exact ⟨isDecoderBy_path (.basic (.tail _ (.head _))), keepsConventions_path _⟩
    · rw [hlist] at htype hconverter
      obtain ⟨itemType, hitem, hok⟩ := bind_eq_ok.mp htype
      cases hok
      obtain ⟨itemConverter, hitem', hok⟩ := bind_eq_ok.mp hconverter
      cases hok
      have hdecodes := (h item (List.mem_singleton_self item) hitem hitem').adapt .raising
      exact decodes_apply .raising [itemType] .list (fun _ => rfl) (fun h => absurd h (by decide)) (.cons hdecodes .nil)
  | option item =>
    obtain ⟨itemType, hitem, hok⟩ := bind_eq_ok.mp htype
    cases hok
    obtain ⟨itemConverter, hitem', hok⟩ := bind_eq_ok.mp hconverter
    cases hok
    have hdecodes := (h item (List.mem_singleton_self item) hitem hitem').adapt .raising
    exact decodes_apply .raising [itemType] .optional (fun _ => rfl) (fun h => absurd h (by decide)) (.cons hdecodes .nil)
  | either left right =>
    obtain ⟨leftType, hleft, hrest⟩ := bind_eq_ok.mp htype
    obtain ⟨rightType, hright, hok⟩ := bind_eq_ok.mp hrest
    cases hok
    obtain ⟨leftConverter, hleft', hrest⟩ := bind_eq_ok.mp hconverter
    obtain ⟨rightConverter, hright', hok⟩ := bind_eq_ok.mp hrest
    cases hok
    have hdecodesLeft := (h left (by simp [Primitive.components]) hleft hleft').adapt .raising
    have hdecodesRight := (h right (by simp [Primitive.components]) hright hright').adapt .raising
    exact decodes_apply .raising [leftType, rightType] .either (fun _ => rfl) (fun h => absurd h (by decide))
      (.cons hdecodesLeft (.cons hdecodesRight .nil))
  | tuple items =>
    rw [Value.fieldType, typeExpr_tuple] at htype
    rw [Value.fieldType, converter_tuple] at hconverter
    obtain ⟨_, harity, hrest⟩ := bind_eq_ok.mp htype
    obtain ⟨types, htypes, hok⟩ := bind_eq_ok.mp hrest
    cases hok
    obtain ⟨-, -, hrest⟩ := bind_eq_ok.mp hconverter
    obtain ⟨terms, hterms, hok⟩ := bind_eq_ok.mp hrest
    cases hok
    have hdecodes := decodes_all h htypes hterms
    have hlength : items.length = types.length := (mapM_eq_ok.mp htypes).length_eq
    have hbounds : 2 ≤ types.length ∧ types.length ≤ 6 := by
      rw [← hlength]
      unfold checkArity at harity
      split at harity
      · assumption
      · cases harity
    rw [hlength]
    exact decodes_apply .raising types (.tuple hbounds.1 hbounds.2) (fun _ => rfl)
      (fun h => absurd h (not_isDecoderName_tuple _)) hdecodes

/-- The decoder of every value decodes the type that a declaration gives the value. -/
theorem decodesDeclared (value : Value) : context.DecodesDeclared value := by
  induction value using Value.typeInduction with
  | typeRef identity name => exact decodesDeclared_typeRef identity name
  | application identity arguments ih => exact decodesDeclared_application ih
  | primitive p ih => exact decodesDeclared_primitive ih
  | parameter name =>
    intro type converter htype hconverter
    cases htype
    cases hconverter
    exact ⟨isDecoderBy_path .parameter, keepsConventions_path _⟩
  | misplaced value hmisplaced =>
    intro type converter htype
    rw [hmisplaced] at htype
    cases htype

variable (context)

/-- Where a value has a type expression and a decoder, the decoder is well typed for exactly this type and for the
convention it is tagged with. It has no other convention, and every function inside it is given decoders by the
convention that the function expects. -/
theorem converter_hasDeclaredType (value : Value) {type : TypeExpr} {converter : Converter}
    (htype : context.typeExpr value.fieldType = .ok type)
    (hconverter : context.converter value.fieldType = .ok converter) :
    Typed [] converter.term .silent (converter.convention.decoderOf type) ∧
    (∀ convention' type', Typed [] converter.term .silent (Convention.decoderOf convention' type') →
      convention' = converter.convention) ∧
    ∀ path arguments, Within (.apply (.path path) arguments) converter.term → SuitArguments path arguments := by
  have h := decodesDeclared value htype hconverter
  exact ⟨h.isDecoder.typed, fun _ _ => h.isDecoder.unique, h.keeps⟩

def boxOrOption : Value :=
  .primitive (.either (.apply ⟨"main", "Types", "Box"⟩ [.primitive (.list (.primitive (.scalar .char)))])
    (.primitive (.option (.parameter "a"))))

theorem boxOrOption_hasDeclaredType :
    ∃ type converter, typeExpr ⟨{}, ⟨"main", "Types", "Tree"⟩, "Tree"⟩ boxOrOption.fieldType = .ok type ∧
      Context.converter ⟨{}, ⟨"main", "Types", "Tree"⟩, "Tree"⟩ boxOrOption.fieldType = .ok converter ∧
      Typed [] converter.term .silent (.decoder .raising (.data type)) := by
  refine ⟨_, _, rfl, rfl, ?_⟩
  exact (converter_hasDeclaredType ⟨{}, ⟨"main", "Types", "Tree"⟩, "Tree"⟩ boxOrOption rfl rfl).1

end Context

end TypeScribe
