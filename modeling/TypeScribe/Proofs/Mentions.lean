import TypeScribe.Proofs.Occurrences
import TypeScribe.Proofs.Safety

/-!
# What generated code mentions

A type expression mentions type variables, an expression or the body of a function the decoders of its own module and
the types of records. Each mention comes from something that is named in the values which the code is made of, and each
named type parameter is mentioned.
-/

namespace TypeScribe
open Ocaml (Term TypeExpr TypeBody TypeDefinition Clause Body Function)

/-! ## Type variables -/

namespace Ocaml

mutual

def TypeExpr.variables : TypeExpr → List String
  | .var name => [name]
  | .constructor _ arguments => variablesOfAll arguments
  | .tuple items => variablesOfAll items
  | .arrow domain codomain => domain.variables ++ codomain.variables

def TypeExpr.variablesOfAll : List TypeExpr → List String
  | [] => []
  | type :: rest => type.variables ++ variablesOfAll rest

end

def TypeBody.variables : TypeBody → List String
  | .alias type => type.variables
  | .record fields => fields.flatMap (·.2.variables)
  | .variant constructors => constructors.flatMap fun constructor => TypeExpr.variablesOfAll constructor.2

theorem TypeExpr.mem_variablesOfAll {v : String} {types : List TypeExpr} :
    v ∈ variablesOfAll types ↔ ∃ type ∈ types, v ∈ type.variables := by
  induction types with
  | nil => simp [variablesOfAll]
  | cons type rest ih => rw [variablesOfAll, List.mem_append, ih, List.exists_mem_cons_iff]

theorem TypeExpr.IsMadeOf.variables_eq {type : TypeExpr} {types : List TypeExpr} (h : type.IsMadeOf types) :
    type.variables = variablesOfAll types := by
  cases h with
  | constructor | tuple => rfl
  | only => simp [variablesOfAll]

end Ocaml

/-! ## Decoders and types of records -/

/-- Something of the generated module that an expression mentions. -/
inductive Mention where
  | decoder (name : String)
  | type (type : TypeExpr)

/-- What a variable mentions: nothing unless it has the name of a decoder. -/
def mentionsOfName (name : String) : List Mention :=
  if IsDecoderName name then [.decoder name] else []

namespace Ocaml

mutual

/-- What an expression mentions. -/
def Term.mentions : Term → List Mention
  | .path ⟨[], name⟩ => mentionsOfName name
  | .path _ => []
  | .text _ => []
  | .number _ => []
  | .apply function arguments => function.mentions ++ mentionsOfAll arguments
  | .lambda _ body => body.mentions
  | .construct _ arguments => mentionsOfAll arguments
  | .record fields type => .type type :: fields.flatMap fun field => mentionsOfName field.2
  | .concat left right => left.mentions ++ right.mentions
  | .element array _ => mentionsOfName array
  | .differs left right => left.mentions ++ right.mentions

def Term.mentionsOfAll : List Term → List Mention
  | [] => []
  | term :: rest => term.mentions ++ mentionsOfAll rest

end

def Clause.mentions (clause : Clause) : List Mention :=
  match clause.guard with
  | some guard => guard.mentions
  | none => []

mutual

def Body.mentions : Body → List Mention
  | .value term => term.mentions
  | .choose scrutinee arms => scrutinee.mentions ++ mentionsOfArms arms
  | .proceed scrutinee failures _ next =>
    scrutinee.mentions ++ failures.flatMap (fun arm => arm.1.mentions ++ arm.2.mentions) ++ next.mentions

def Body.mentionsOfArms : List (Clause × Body) → List Mention
  | [] => []
  | (clause, body) :: rest => clause.mentions ++ body.mentions ++ mentionsOfArms rest

end

end Ocaml

attribute [local simp] Term.mentions Term.mentionsOfAll Clause.mentions Body.mentions

/-! ## Building blocks of decoders -/

@[simp] theorem mentionsOfName_decoderName (name : String) :
    mentionsOfName (Ocaml.decoderName name) = [.decoder (Ocaml.decoderName name)] :=
  if_pos (isDecoderName_decoderName name)

@[simp] theorem mentionsOfName_decoderParameter (name : String) :
    mentionsOfName (Ocaml.decoderParameter name) = [.decoder (Ocaml.decoderParameter name)] :=
  if_pos (isDecoderName_decoderParameter name)

@[simp] theorem mentionsOfName_slot (i : Nat) : mentionsOfName (Decoder.slot i) = [] :=
  if_neg fun h => Decoder.not_isFunctionName_slot i (.inl h)

/-- The names in generated functions that are those of no decoder. -/
abbrev localNames : List String :=
  ["json", "item", "items", "message", "tag", "value", "v", "min", "string_of_int"]

@[simp] theorem mentionsOfName_local {name : String} (h : name ∈ localNames) : mentionsOfName name = [] :=
  if_neg ((by decide : ∀ name ∈ localNames, ¬ IsDecoderName name) name h)

namespace Ocaml

theorem Term.mem_mentionsOfAll {mention : Mention} {terms : List Term} :
    mention ∈ mentionsOfAll terms ↔ ∃ term ∈ terms, mention ∈ term.mentions := by
  induction terms with
  | nil => simp [mentionsOfAll]
  | cons term rest ih => rw [mentionsOfAll, List.mem_append, ih, List.exists_mem_cons_iff]

theorem Term.mentionsOfAll_eq_nil {terms : List Term} (h : ∀ term ∈ terms, term.mentions = []) :
    mentionsOfAll terms = [] := by
  rw [List.eq_nil_iff_forall_not_mem]
  intro mention hmem
  obtain ⟨term, hterm, hmem⟩ := mem_mentionsOfAll.mp hmem
  rw [h term hterm] at hmem
  cases hmem

theorem Body.mem_mentionsOfArms {mention : Mention} {arms : List (Clause × Body)} :
    mention ∈ mentionsOfArms arms ↔ ∃ arm ∈ arms, mention ∈ arm.1.mentions ∨ mention ∈ arm.2.mentions := by
  induction arms with
  | nil => simp [mentionsOfArms]
  | cons arm rest ih => rw [mentionsOfArms, List.mem_append, List.mem_append, ih, List.exists_mem_cons_iff]

theorem Body.mentionsOfArms_eq_nil {arms : List (Clause × Body)}
    (h : ∀ arm ∈ arms, arm.1.mentions = [] ∧ arm.2.mentions = []) : mentionsOfArms arms = [] := by
  induction arms with
  | nil => rfl
  | cons arm rest ih =>
    rw [List.forall_mem_cons] at h
    rw [mentionsOfArms, h.1.1, h.1.2, ih h.2]
    rfl

@[simp] theorem Term.mentions_var (name : String) : (Term.var name).mentions = mentionsOfName name := rfl

theorem Term.mentions_path {modules : List String} {name : String} {mention : Mention} :
    mention ∈ (Term.path ⟨modules, name⟩).mentions ↔ modules = [] ∧ mention ∈ mentionsOfName name := by
  cases modules <;> simp [mentions]

end Ocaml

open Ocaml Decoder

@[simp] theorem Runtime.mentions_decode (name : String) : (Runtime.decode name).mentions = [] := rfl

theorem Ocaml.Term.IsMadeOf.mentions_eq {term : Term} {terms : List Term} (h : term.IsMadeOf terms) :
    term.mentions = Term.mentionsOfAll terms := by
  cases h with
  | decode => rfl
  | call => simp
  | only => simp

@[simp] theorem Runtime.mentions_onJson (function : Term) : (Runtime.onJson function).mentions = function.mentions := by
  simp [Runtime.onJson]

@[simp] theorem Runtime.mentions_ok (value : Term) : (Runtime.ok value).mentions = value.mentions := by
  simp [Runtime.ok]

@[simp] theorem Runtime.mentions_errorText (message : String) : (Runtime.errorText message).mentions = [] := rfl

@[simp] theorem Runtime.mentions_errorBefore {front name : String} (h : name ∈ localNames) :
    (Runtime.errorBefore front name).mentions = [] := by
  simp only [Runtime.errorBefore, Runtime.error, Term.mentions, Term.mentionsOfAll, Term.mentions_var,
    mentionsOfName_local h, List.append_nil]

@[simp] theorem Runtime.mentions_errorQuoting {front name : String} (h : name ∈ localNames) :
    (Runtime.errorQuoting front name).mentions = [] := by
  simp only [Runtime.errorQuoting, Runtime.error, Term.mentions, Term.mentionsOfAll, Term.mentions_var,
    mentionsOfName_local h, List.append_nil]

@[simp] theorem Converter.mentions_adapt (converter : Converter) (wanted : Convention) :
    (converter.adapt wanted).mentions = converter.term.mentions := by
  unfold Converter.adapt
  split <;> simp

namespace Decoder

@[simp] theorem mentions_fieldOf (key : String) (decoder : Term) : (fieldOf key decoder).mentions = decoder.mentions := by
  simp [fieldOf]

@[simp] theorem mentions_elements : elements.mentions = [] := by
  simp [elements]

@[simp] theorem mentions_constructed (name : String) (arity : Nat) : (constructed name arity).mentions = [] := by
  refine Term.mentionsOfAll_eq_nil fun term hterm => ?_
  obtain ⟨i, -, rfl⟩ := List.mem_map.mp hterm
  rw [Term.mentions_var, mentionsOfName_slot]

@[simp] theorem mentions_attempt (read : Term) (place name : String) (next : Body) :
    (attempt read place name next).mentions = read.mentions ++ next.mentions := by
  simp [attempt, caught]

@[simp] theorem mentions_emptyArray (decoder name : String) : (emptyArray decoder name).mentions = [] := by
  simp [emptyArray, Body.mentionsOfArms]

theorem mem_mentions_dispatch {mention : Mention} {decoder : String} {arms : List (Clause × Body)} :
    mention ∈ (dispatch decoder arms).mentions ↔ mention ∈ Body.mentionsOfArms arms := by
  simp [dispatch, caught, Body.mem_mentionsOfArms]

end Decoder

theorem Context.mentions_enumerationDecoder (context : Context) (decoder : String) (tags : List String) :
    (context.enumerationDecoder decoder tags).mentions = [] := by
  unfold Context.enumerationDecoder
  split
  · exact mentions_emptyArray _ _
  · rw [Body.mentions, Body.mentionsOfArms_eq_nil, List.append_nil]
    · rfl
    · simp only [List.mem_append, List.mem_map, List.mem_cons, List.not_mem_nil, or_false]
      rintro _ (⟨tag, -, rfl⟩ | rfl | rfl)
      · exact ⟨rfl, by simp⟩
      · exact ⟨rfl, by simp⟩
      · exact ⟨rfl, rfl⟩

end TypeScribe
