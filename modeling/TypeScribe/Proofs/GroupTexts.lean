import TypeScribe.Decoder
import TypeScribe.Proofs.Blocks
import TypeScribe.Proofs.Outcome

/-!
# Texts of declarations and decoders

Type definitions and functions are definitions after a keyword. Those of record types end with a closing mark, so any of
them may stand before another definition of a group.
-/

namespace TypeScribe

open Ocaml

namespace Ocaml

theorem isVisible_join {token : Token} {tokens : List Token} (hmem : token ∈ tokens) (h : IsVisible token.chars) :
    IsVisible (Token.join tokens) := by
  obtain ⟨c, hc, hblank⟩ := h
  refine ⟨c, ?_, hblank⟩
  induction tokens with
  | nil => cases hmem
  | cons first rest ih =>
    cases rest with
    | nil =>
      obtain rfl := List.mem_singleton.mp hmem
      exact hc
    | cons next rest =>
      rw [Lexer.join_cons_cons]
      rcases List.mem_cons.mp hmem with rfl | hmem
      · exact List.mem_append_left _ hc
      · exact List.mem_append_right _ (List.mem_append_right _ (ih hmem))

theorem isVisible_equals : IsVisible (Token.word "=").chars := ⟨'=', List.mem_singleton_self _, by decide⟩

/-! ## Type definitions -/

theorem exists_typeLines_eq (definition : TypeDefinition) : ∃ more following, ∀ keyword,
    definition.lines keyword = ⟨0, keyword ++ (definition.head.tokens false ++ .word "=" :: more)⟩ :: following := by
  cases hbody : definition.body with
  | «alias» type => exact ⟨type.tokens false, [], fun keyword => by simp [TypeDefinition.lines, hbody]⟩
  | record fields =>
    cases fields with
    | nil => exact ⟨[], _, fun keyword => by simp [TypeDefinition.lines, hbody]; rfl⟩
    | cons field fields => exact ⟨[], _, fun keyword => by simp [TypeDefinition.lines, hbody]; rfl⟩
  | variant constructors => exact ⟨[], _, fun keyword => by simp [TypeDefinition.lines, hbody]; rfl⟩

theorem isOpened_typeLines (definition : TypeDefinition) : IsOpened (TypeDefinition.lines · definition) := by
  obtain ⟨more, following, hlines⟩ := exists_typeLines_eq definition
  exact ⟨_, following, isVisible_join (List.mem_append_right _ List.mem_cons_self) isVisible_equals, hlines⟩

theorem isClosed_typeLines {definition : TypeDefinition} {fields : List (String × TypeExpr)}
    (h : definition.body = .record fields) (keyword : List Token) : IsClosed (definition.lines keyword) := by
  cases fields with
  | nil =>
    have hbraces : IsClosed [⟨1, [.word "\x7b"] ++ [.word "\x7d"]⟩] := isClosed_of_mark rfl (by decide) 1 _
    simpa [TypeDefinition.lines, h] using hbraces.append_left [_]
  | cons first rest =>
    have hbrace : IsClosed [⟨1, [] ++ [.word "\x7d"]⟩] := isClosed_of_mark rfl (by decide) 1 []
    simpa [TypeDefinition.lines, h] using hbrace.append_left (_ :: _ :: rest.map _)

/-- The text of a group of types, of which all but the last are record types. -/
theorem source_typeLines {group : DefinitionGroup TypeDefinition} (hne : group.items ≠ [])
    (hrecords : ∀ definition ∈ group.items.dropLast, ∃ fields, definition.body = .record fields) :
    source group.typeLines = joined "type" (if group.recursive then "and" else "type")
      (group.items.map fun definition => afterKeyword (TypeDefinition.lines · definition)) := by
  have hclosed : ∀ definition ∈ group.items.dropLast, ∀ keyword, IsClosed (definition.lines keyword) := by
    intro definition hmem keyword
    obtain ⟨fields, hfields⟩ := hrecords definition hmem
    exact isClosed_typeLines hfields keyword
  exact source_groupLines hne (fun definition _ => isOpened_typeLines definition) hclosed [] "type" _

/-! ## Functions -/

theorem isOpened_functionLines (function : Function) : IsOpened (Function.lines · function) := by
  refine ⟨.word function.name :: function.parameters.map .word ++ [.word "="], function.body.lines 1, ?_, fun keyword => ?_⟩
  · exact isVisible_join (List.mem_append_right _ (List.mem_singleton_self _)) isVisible_equals
  · simp [Function.lines]

/-- The text of a group of functions, of which all but the last end with a closing mark. -/
theorem source_functionLines {group : DefinitionGroup Function} (hne : group.items ≠ [])
    (hclosed : ∀ function ∈ group.items.dropLast, ∀ keyword, IsClosed (function.lines keyword)) :
    source group.functionLines = joined (if group.recursive then "let rec" else "let")
      (if group.recursive then "and" else "let")
      (group.items.map fun function => afterKeyword (Function.lines · function)) := by
  have hopened : ∀ function ∈ group.items, IsOpened (Function.lines · function) :=
    fun function _ => isOpened_functionLines function
  unfold DefinitionGroup.functionLines
  cases group.recursive with
  | true => exact source_groupLines hne hopened hclosed [.word "let"] "rec" "and"
  | false => exact source_groupLines hne hopened hclosed [] "let" "let"

end Ocaml

/-! ## Decoders of record types -/

namespace Context

variable {context : Context}

theorem isClosed_readFields {decoder : String} {last body : Body} {fields : List RecordField} {i depth : Nat}
    (h : context.readFields decoder last i fields = .ok body) (hlast : IsClosed (last.lines depth)) :
    IsClosed (body.lines depth) := by
  induction fields generalizing i body with
  | nil =>
    obtain rfl := pure_eq_ok.mp h
    exact hlast
  | cons field rest ih =>
    obtain ⟨read, -, h⟩ := bind_eq_ok.mp h
    obtain ⟨next, hnext, h⟩ := bind_eq_ok.mp h
    obtain rfl := pure_eq_ok.mp h
    simpa [Decoder.attempt, Body.lines] using (ih hnext).append_left [_, _, _]

theorem isClosed_recordFunction {displayName : String} {parameters : List String} {fields : List RecordField}
    {function : Function} (h : context.recordFunction displayName parameters fields = .ok function)
    (keyword : List Token) : IsClosed (function.lines keyword) := by
  obtain ⟨body, hbody, h⟩ := bind_eq_ok.mp h
  obtain rfl := pure_eq_ok.mp h
  refine IsClosed.append_left (isClosed_readFields hbody ?_) [_]
  simp only [Body.lines, Runtime.ok, Term.tokens, Token.enclose, Token.encloseIf]
  exact isClosed_of_mark (c := ')') rfl (by decide) 1 (_ :: _)

/-! ## The groups of a shape -/

/-- A shape has one type, or before it those of records. -/
theorem isRecord_typeDefinitions {parameters : List String} {shape : Shape} {definitions : List TypeDefinition}
    (h : context.typeDefinitions parameters shape = .ok definitions) :
    definitions ≠ [] ∧ ∀ definition ∈ definitions.dropLast, ∃ fields, definition.body = .record fields := by
  cases shape with
  | sumOfRecords records =>
    obtain ⟨hoisted, hhoisted, h⟩ := bind_eq_ok.mp h
    obtain rfl := pure_eq_ok.mp h
    refine ⟨by simp, fun definition hmem => ?_⟩
    rw [List.dropLast_concat] at hmem
    obtain ⟨record, -, hdefinition⟩ := exists_of_mapM_eq_ok hhoisted hmem
    obtain ⟨body, hbody, hdefinition⟩ := bind_eq_ok.mp hdefinition
    obtain ⟨fields, -, hfields⟩ := bind_eq_ok.mp hbody
    exact ⟨fields, by rw [← pure_eq_ok.mp hdefinition, ← pure_eq_ok.mp hfields]; rfl⟩
  | enumeration tags =>
    obtain rfl := pure_eq_ok.mp h
    simp
  | «alias» | record | single | sum =>
    obtain ⟨_, -, h⟩ := bind_eq_ok.mp h
    obtain rfl := pure_eq_ok.mp h
    simp

/-- A shape has one decoder, or before it those of records. -/
theorem isClosed_functions {parameters : List String} {shape : Shape} {functions : List Function}
    (h : context.functions parameters shape = .ok functions) :
    functions ≠ [] ∧ ∀ function ∈ functions.dropLast, ∀ keyword, IsClosed (function.lines keyword) := by
  cases shape with
  | sumOfRecords records =>
    obtain ⟨hoisted, hhoisted, h⟩ := bind_eq_ok.mp h
    obtain rfl := pure_eq_ok.mp h
    refine ⟨by simp, fun function hmem => ?_⟩
    rw [List.dropLast_concat] at hmem
    obtain ⟨record, -, hfunction⟩ := exists_of_mapM_eq_ok hhoisted hmem
    exact isClosed_recordFunction hfunction
  | enumeration tags =>
    obtain rfl := pure_eq_ok.mp h
    simp
  | «alias» | record | single | sum =>
    obtain ⟨_, -, h⟩ := bind_eq_ok.mp h
    obtain rfl := pure_eq_ok.mp h
    simp

end Context

end TypeScribe
