import TypeScribe.Proofs.GroupTexts
import TypeScribe.Proofs.Lexeme

/-!
# Texts of types and headers

A phrase is what stands between blanks: it starts with a word or an opening parenthesis and ends with a word or a closing
one. Texts of phrases are put together with blanks, commas, arrows and parentheses, whatever their words are, and so are
the heads of types, the headers of decoders and the types of decoders. The types of a shape have these heads in order,
where they are defined as well as where they are decoded.
-/

namespace TypeScribe

open Ocaml

namespace Ocaml

/-! ## Phrases -/

/-- The tokens are a phrase with this text. -/
structure IsPhrase (tokens : List Token) (text : String) : Prop where
  join : Token.join tokens = text.toList
  starts : ∃ first rest, tokens = first :: rest ∧ ((∃ w, first = .word w) ∨ first = .openParen)
  ends : ∃ front last, tokens = front ++ [last] ∧ ((∃ w, last = .word w) ∨ last = .closeParen)

namespace IsPhrase

variable {tokens tokens' : List Token} {text text' : String}

theorem word (w : String) : IsPhrase [.word w] w := ⟨rfl, ⟨_, _, rfl, .inl ⟨w, rfl⟩⟩, ⟨[], _, rfl, .inl ⟨w, rfl⟩⟩⟩

theorem join_append (h : IsPhrase tokens text) {first : Token} (hfirst : (∃ w, first = .word w) ∨ first = .openParen)
    (rest : List Token) : Token.join (tokens ++ first :: rest) = text.toList ++ ' ' :: Token.join (first :: rest) := by
  obtain ⟨front, last, rfl, hlast⟩ := h.ends
  have hgap : Token.gap last first = [' '] := by
    rcases hlast with ⟨w, rfl⟩ | rfl <;> rcases hfirst with ⟨w', rfl⟩ | rfl <;> rfl
  rw [List.append_assoc, List.singleton_append, join_append_cons, h.join, hgap]
  rfl

theorem append (h : IsPhrase tokens text) (h' : IsPhrase tokens' text') :
    IsPhrase (tokens ++ tokens') (text ++ " " ++ text') where
  join := by
    obtain ⟨first, rest, rfl, hfirst⟩ := h'.starts
    rw [h.join_append hfirst, h'.join]
    simp
  starts := by
    obtain ⟨first, rest, rfl, hfirst⟩ := h.starts
    exact ⟨first, rest ++ tokens', rfl, hfirst⟩
  ends := by
    obtain ⟨front, last, rfl, hlast⟩ := h'.ends
    exact ⟨tokens ++ front, last, (List.append_assoc ..).symm, hlast⟩

theorem comma (h : IsPhrase tokens text) (h' : IsPhrase tokens' text') :
    IsPhrase (tokens ++ .comma :: tokens') (text ++ ", " ++ text') where
  join := by
    obtain ⟨front, last, rfl, hlast⟩ := h.ends
    obtain ⟨first, rest, rfl, hfirst⟩ := h'.starts
    have hgap : Token.gap last .comma = [] := by rcases hlast with ⟨w, rfl⟩ | rfl <;> rfl
    have hgap' : Token.gap .comma first = [' '] := by rcases hfirst with ⟨w, rfl⟩ | rfl <;> rfl
    rw [List.append_assoc, List.singleton_append, join_append_cons, h.join, hgap, Lexer.join_cons_cons, hgap', h'.join]
    simp [Token.chars]
  starts := by
    obtain ⟨first, rest, rfl, hfirst⟩ := h.starts
    exact ⟨first, rest ++ .comma :: tokens', rfl, hfirst⟩
  ends := by
    obtain ⟨front, last, rfl, hlast⟩ := h'.ends
    exact ⟨tokens ++ .comma :: front, last, by simp, hlast⟩

theorem enclose (h : IsPhrase tokens text) : IsPhrase (Token.enclose tokens) ("(" ++ text ++ ")") where
  join := by
    have hclosed : Token.join (tokens ++ [.closeParen]) = text.toList ++ [')'] := by
      obtain ⟨front, last, rfl, hlast⟩ := h.ends
      have hgap : Token.gap last .closeParen = [] := by rcases hlast with ⟨w, rfl⟩ | rfl <;> rfl
      rw [List.append_assoc, List.singleton_append, join_append_cons, h.join, hgap]
      rfl
    obtain ⟨first, rest, rfl, -⟩ := h.starts
    rw [Token.enclose, List.cons_append, List.cons_append, Lexer.join_cons_cons, ← List.cons_append, hclosed]
    simp [Token.chars, Token.gap]
  starts := ⟨.openParen, tokens ++ [.closeParen], rfl, .inr rfl⟩
  ends := ⟨.openParen :: tokens, .closeParen, rfl, .inr rfl⟩

theorem arrow (h : IsPhrase tokens text) (h' : IsPhrase tokens' text') :
    IsPhrase (tokens ++ .word "->" :: tokens') (text ++ " -> " ++ text') := by
  have htext : text ++ " -> " ++ text' = text ++ " " ++ "->" ++ " " ++ text' := by
    simp [String.append_assoc]
  have harrow := (h.append (word "->")).append h'
  rw [List.append_assoc, List.singleton_append] at harrow
  exact htext ▸ harrow

theorem words (first : String) (rest : List String) :
    IsPhrase ((first :: rest).map .word) (" ".intercalate (first :: rest)) := by
  induction rest generalizing first with
  | nil => exact String.intercalate_singleton ▸ word first
  | cons next rest ih =>
    rw [String.intercalate_cons_cons]
    exact (word first).append (ih next)

theorem followedBy_comma (h : IsPhrase tokens text) {items : List TypeExpr} {texts : List String}
    (hitems : List.Forall₂ (fun item text => IsPhrase (item.tokens true) text) items texts) :
    IsPhrase (tokens ++ TypeExpr.followedBy .comma items) (", ".intercalate (text :: texts)) := by
  induction hitems generalizing tokens text with
  | nil =>
    rw [TypeExpr.followedBy, List.append_nil, String.intercalate_singleton]
    exact h
  | @cons item text' items texts hitem _ ih =>
    have hboth := ih (h.comma hitem)
    rw [String.intercalate_cons_append] at hboth
    rw [TypeExpr.followedBy, String.intercalate_cons_cons]
    simpa using hboth

theorem arrows {arguments : List TypeExpr} {texts : List String}
    (harguments : List.Forall₂ (fun argument text => IsPhrase (argument.tokens true) text) arguments texts)
    {last : TypeExpr} (hlast : IsPhrase (last.tokens false) text) :
    IsPhrase ((arguments.foldr .arrow last).tokens false) (" -> ".intercalate (texts ++ [text])) := by
  induction harguments with
  | nil => exact String.intercalate_singleton ▸ hlast
  | @cons argument text' arguments texts hargument _ ih =>
    rw [List.cons_append, String.intercalate_cons_of_ne_nil (by simp), List.foldr_cons, TypeExpr.tokens]
    exact hargument.arrow ih

end IsPhrase

/-! ## After keywords -/

/-- The text of a definition after its keyword starts with this head and an equals sign. -/
def Introduces (head text : String) : Prop := ∃ rest, text = " " ++ head ++ " =" ++ rest

theorem IsPhrase.introduces {tokens : List Token} {head : String} (h : IsPhrase tokens head)
    {lines : List Token → List Line} {more : List Token} {following : List Line}
    (hlines : ∀ keyword, lines keyword = ⟨0, keyword ++ (tokens ++ .word "=" :: more)⟩ :: following) :
    Introduces head (afterKeyword lines) := by
  obtain ⟨others, hothers⟩ : ∃ others, Token.join (.word "=" :: more) = '=' :: others := by
    cases more with
    | nil => exact ⟨[], rfl⟩
    | cons next more => exact ⟨_, Lexer.join_cons_cons _ _ _⟩
  have hline := ((IsPhrase.word "").append h).join_append (.inl ⟨"=", rfl⟩) more
  have hchars : (lines [.word ""]).flatMap Line.chars =
      (" " ++ head ++ " ").toList ++ '=' :: (others ++ '\n' :: following.flatMap Line.chars) := by
    rw [hothers, List.append_assoc] at hline
    rw [hlines, List.flatMap_cons, Line.chars, hline]
    simp
  -- the equals sign is visible, so what is cut stands after it
  have hequals : Text.isBlank '=' = false := by decide
  obtain ⟨front, last, htrim, -, rest, hrest⟩ :=
    exists_trimEnd_cons hequals (others ++ '\n' :: following.flatMap Line.chars)
  refine ⟨String.ofList (rest ++ ['\n']), ?_⟩
  rw [afterKeyword, source, hchars, finish_append _ ⟨'=', List.mem_cons_self, hequals⟩, finish, htrim, hrest,
    ← String.toList_inj]
  simp

theorem introduces_functionLines (function : Function) :
    Introduces (" ".intercalate (function.name :: function.parameters)) (afterKeyword (Function.lines · function)) := by
  have hlines : ∀ keyword, function.lines keyword =
      ⟨0, keyword ++ ((function.name :: function.parameters).map .word ++ [.word "="])⟩ :: function.body.lines 1 :=
    fun keyword => by simp [Function.lines]
  exact (IsPhrase.words function.name function.parameters).introduces hlines

theorem introduces_typeLines {definition : TypeDefinition} {head : String}
    (h : IsPhrase (definition.head.tokens false) head) :
    Introduces head (afterKeyword (TypeDefinition.lines · definition)) := by
  obtain ⟨more, following, hlines⟩ := exists_typeLines_eq definition
  exact h.introduces hlines

end Ocaml

/-! ## Heads of types -/

/-- A type as it is declared: its display name and its type parameters in order. -/
structure TypeHead where
  displayName : String
  parameters : List String
deriving DecidableEq, Repr

/-- A type name after the arguments it is applied to. -/
def appliedText (name : String) : List String → String
  | [] => name
  | [argument] => argument ++ " " ++ name
  | arguments => "(" ++ ", ".intercalate arguments ++ ") " ++ name

/-- The type of a result with a value of a type. -/
def resultText (value : String) : String := "(" ++ value ++ ", string) Belt.Result.t"

namespace TypeHead

def typeVariables (head : TypeHead) : List String := head.parameters.map fun parameter => "'" ++ variableName parameter

def text (head : TypeHead) : String := appliedText (typeName head.displayName) head.typeVariables

/-- The name of the decoder and of what it takes: a decoder for each type parameter, and then the JSON value. -/
def header (head : TypeHead) : String :=
  " ".intercalate (decoderName head.displayName :: head.parameters.map decoderParameter ++ ["json"])

/-- The decoder in an interface: it takes a decoder for each type variable, and then a JSON value. -/
def spec (head : TypeHead) : String :=
  let decoders := head.typeVariables.map fun v => "(Js.Json.t -> " ++ resultText v ++ ")"
  "val " ++ decoderName head.displayName ++ " : " ++
    " -> ".intercalate (decoders ++ ["Js.Json.t", resultText head.text])

theorem isPhrase_var (name : String) (inner : Bool) : IsPhrase ((TypeExpr.var name).tokens inner) ("'" ++ name) :=
  .word _

theorem isPhrase_declaredType (head : TypeHead) (inner : Bool) :
    IsPhrase ((declaredType head.displayName head.parameters).tokens inner) head.text := by
  obtain ⟨displayName, parameters⟩ := head
  have hname : IsPhrase [.word (Path.text ⟨[], typeName displayName⟩)] (typeName displayName) := by
    rw [Path.text_local]
    exact .word _
  cases parameters with
  | nil => exact hname
  | cons first rest =>
    cases rest with
    | nil => exact (IsPhrase.word ("'" ++ variableName first)).append hname
    | cons second rest =>
      have hvariables : List.Forall₂ (fun item text => IsPhrase (TypeExpr.tokens true item) text)
          (((second :: rest).map variableName).map .var)
          ((second :: rest).map fun parameter => "'" ++ variableName parameter) := by
        rw [List.map_map, List.forall₂_map_left_iff, List.forall₂_map_right_iff]
        exact List.forall₂_same.mpr fun parameter _ => .word _
      have happlied := ((IsPhrase.word ("'" ++ variableName first)).followedBy_comma hvariables).enclose.append hname
      have htext : text ⟨displayName, first :: second :: rest⟩ =
          "(" ++ ", ".intercalate (("'" ++ variableName first) ::
            (second :: rest).map fun parameter => "'" ++ variableName parameter) ++ ")" ++ " " ++ typeName displayName := by
        have hclose : ") " = ")" ++ " " := rfl
        change "(" ++ ", ".intercalate _ ++ ") " ++ _ = _
        rw [hclose, ← String.append_assoc]
      rw [htext]
      exact happlied

theorem isPhrase_resultType {value : TypeExpr} {text : String} (h : IsPhrase (value.tokens true) text) (inner : Bool) :
    IsPhrase ((resultType value).tokens inner) (resultText text) := by
  have hresult := ((h.comma (.word "string")).enclose).append (.word "Belt.Result.t")
  have htext : resultText text = "(" ++ (text ++ ", " ++ "string") ++ ")" ++ " " ++ "Belt.Result.t" := by
    simp [resultText, String.append_assoc]
  rw [htext]
  exact hresult

theorem isPhrase_decoderType (head : TypeHead) :
    IsPhrase ((decoderType head.displayName head.parameters).tokens false)
      (" -> ".intercalate ((head.typeVariables.map fun v => "(Js.Json.t -> " ++ resultText v ++ ")") ++
        ["Js.Json.t", resultText head.text])) := by
  have hjson : ∀ inner, IsPhrase (jsonType.tokens inner) "Js.Json.t" := fun inner => .word _
  have hdecoders : List.Forall₂ (fun argument text => IsPhrase (TypeExpr.tokens true argument) text)
      (head.parameters.map fun parameter => TypeExpr.arrow jsonType (resultType (.var (variableName parameter))))
      (head.typeVariables.map fun v => "(Js.Json.t -> " ++ resultText v ++ ")") := by
    rw [typeVariables, List.map_map, List.forall₂_map_left_iff, List.forall₂_map_right_iff]
    refine List.forall₂_same.mpr fun parameter _ => ?_
    have hresult := isPhrase_resultType (isPhrase_var (variableName parameter) true) false
    have htext : "(Js.Json.t -> " ++ resultText ("'" ++ variableName parameter) ++ ")" =
        "(" ++ ("Js.Json.t" ++ " -> " ++ resultText ("'" ++ variableName parameter)) ++ ")" := by
      simp [← String.toList_inj]
    rw [Function.comp_apply, htext]
    exact ((hjson true).arrow hresult).enclose
  have hall := IsPhrase.arrows (List.rel_append hdecoders (.cons (hjson true) .nil))
    (isPhrase_resultType (isPhrase_declaredType head true) false)
  rw [List.foldr_append, List.append_assoc] at hall
  exact hall

/-! ## Lines -/

theorem chars_specLine (head : TypeHead) :
    (decoderSpec head.displayName head.parameters).line.chars = head.spec.toList ++ ['\n'] := by
  have hname := ((IsPhrase.word "val").append (.word (decoderName head.displayName))).append (.word ":")
  have htext : "val" ++ " " ++ decoderName head.displayName ++ " " ++ ":" ++ " " =
      "val " ++ decoderName head.displayName ++ " : " := by
    simp [← String.toList_inj]
  have hphrase := hname.append head.isPhrase_decoderType
  rw [htext] at hphrase
  have hjoin : Token.join (.word "val" :: .word (decoderName head.displayName) :: .word ":" ::
      (decoderType head.displayName head.parameters).tokens false) = head.spec.toList := hphrase.join
  simp [Line.chars, ValueSpec.line, decoderSpec, hjoin]

theorem exists_spec_eq (head : TypeHead) : ∃ front, head.spec = front ++ ", string) Belt.Result.t" := by
  have hlast : ["Js.Json.t", resultText head.text] = ["Js.Json.t"] ++ [resultText head.text] := rfl
  rw [spec, hlast, ← List.append_assoc, String.intercalate_append_of_ne_nil (by simp) (by simp),
    String.intercalate_singleton, resultText]
  simp only [← String.append_assoc]
  exact ⟨_, rfl⟩

theorem source_specLines (hoisted : List TypeHead) (own : TypeHead) :
    source ((hoisted ++ [own]).map fun head => (decoderSpec head.displayName head.parameters).line) =
      String.join ((hoisted ++ [own]).map fun head => head.spec ++ "\n") := by
  -- the last line ends with a letter, so nothing is cut
  have hclosed : IsClosed [(decoderSpec own.displayName own.parameters).line] := by
    obtain ⟨front, hfront⟩ := own.exists_spec_eq
    refine ⟨front.toList ++ ", string) Belt.Result.".toList, 't', ?_, by decide⟩
    rw [List.flatMap_singleton, chars_specLine, hfront]
    simp
  have hlines := hclosed.append_left (hoisted.map fun head => (decoderSpec head.displayName head.parameters).line)
  rw [← List.map_singleton (f := fun head : TypeHead => (decoderSpec head.displayName head.parameters).line),
    ← List.map_append] at hlines
  rw [source, hlines.finish_eq, ← String.toList_inj, String.toList_ofList, String.toList_join, List.flatMap_map,
    List.flatMap_map]
  refine List.flatMap_congr fun head _ => ?_
  rw [chars_specLine, String.toList_append]
  rfl

end TypeHead

/-! ## The types of a shape -/

def HoistedRecord.head (record : HoistedRecord) : TypeHead := ⟨record.displayName, record.parameters⟩

/-- The record types that come before a type, one for each branch of a sum of records. -/
def Shape.hoistedHeads : Shape → List TypeHead
  | .sumOfRecords records => records.map HoistedRecord.head
  | _ => []

namespace TypeHead

structure IsDeclaredBy (head : TypeHead) (definition : TypeDefinition) : Prop where
  defines : definition.head = declaredType head.displayName head.parameters
  text : Introduces head.text (afterKeyword (TypeDefinition.lines · definition))

structure IsDecodedBy (head : TypeHead) (function : Function) : Prop where
  name : function.name = decoderName head.displayName
  parameters : function.parameters = head.parameters.map decoderParameter ++ ["json"]
  text : Introduces head.header (afterKeyword (Function.lines · function))

theorem IsDeclaredBy.name {head : TypeHead} {definition : TypeDefinition} (h : head.IsDeclaredBy definition) :
    definition.name = typeName head.displayName :=
  (Ocaml.Path.mk.inj (TypeExpr.constructor.inj h.defines).1).2

theorem isDeclaredBy_declareType (head : TypeHead) (body : TypeBody) :
    head.IsDeclaredBy (declareType head.displayName head.parameters body) where
  defines := rfl
  text := introduces_typeLines (head.isPhrase_declaredType false)

theorem isDecodedBy_decoderFunction (head : TypeHead) (body : Body) :
    head.IsDecodedBy (decoderFunction head.displayName head.parameters body) where
  name := rfl
  parameters := rfl
  text := introduces_functionLines _

end TypeHead

namespace Context

variable {context : Context} {parameters : List String} {shape : Shape}

theorem forall₂_typeDefinitions {definitions : List TypeDefinition}
    (h : context.typeDefinitions parameters shape = .ok definitions) :
    List.Forall₂ TypeHead.IsDeclaredBy (shape.hoistedHeads ++ [⟨context.displayName, parameters⟩]) definitions := by
  have hown : ∀ body, TypeHead.IsDeclaredBy ⟨context.displayName, parameters⟩
      (declareType context.displayName parameters body) := TypeHead.isDeclaredBy_declareType _
  cases shape with
  | sumOfRecords records =>
    obtain ⟨hoisted, hhoisted, h⟩ := bind_eq_ok.mp h
    obtain rfl := pure_eq_ok.mp h
    refine List.rel_append (List.forall₂_map_left_iff.mpr ?_) (.cons (hown _) .nil)
    refine (mapM_eq_ok.mp hhoisted).imp fun record definition hdefinition => ?_
    obtain ⟨body, -, hdefinition⟩ := bind_eq_ok.mp hdefinition
    obtain rfl := pure_eq_ok.mp hdefinition
    exact record.head.isDeclaredBy_declareType body
  | enumeration tags =>
    obtain rfl := pure_eq_ok.mp h
    exact .cons (hown _) .nil
  | «alias» | record | single | sum =>
    obtain ⟨_, -, h⟩ := bind_eq_ok.mp h
    obtain rfl := pure_eq_ok.mp h
    exact .cons (hown _) .nil

theorem isDecodedBy_of_recordFunction {displayName : String} {fields : List RecordField} {function : Function}
    (h : context.recordFunction displayName parameters fields = .ok function) :
    TypeHead.IsDecodedBy ⟨displayName, parameters⟩ function := by
  obtain ⟨body, -, h⟩ := bind_eq_ok.mp h
  obtain rfl := pure_eq_ok.mp h
  exact TypeHead.isDecodedBy_decoderFunction ⟨displayName, parameters⟩ body

/-- The functions for a shape are the decoders of its types, in order. -/
theorem forall₂_functions {functions : List Function} (h : context.functions parameters shape = .ok functions) :
    List.Forall₂ TypeHead.IsDecodedBy (shape.hoistedHeads ++ [⟨context.displayName, parameters⟩]) functions := by
  have hown : ∀ body, TypeHead.IsDecodedBy ⟨context.displayName, parameters⟩
      (decoderFunction context.displayName parameters body) := TypeHead.isDecodedBy_decoderFunction _
  cases shape with
  | sumOfRecords records =>
    obtain ⟨hoisted, hhoisted, h⟩ := bind_eq_ok.mp h
    obtain rfl := pure_eq_ok.mp h
    refine List.rel_append (List.forall₂_map_left_iff.mpr ?_) (.cons (hown _) .nil)
    exact (mapM_eq_ok.mp hhoisted).imp fun record function => isDecodedBy_of_recordFunction
  | record fields =>
    obtain ⟨function, hfunction, h⟩ := bind_eq_ok.mp h
    obtain rfl := pure_eq_ok.mp h
    exact .cons (isDecodedBy_of_recordFunction hfunction) .nil
  | enumeration tags =>
    obtain rfl := pure_eq_ok.mp h
    exact .cons (hown _) .nil
  | «alias» | single | sum =>
    obtain ⟨_, -, h⟩ := bind_eq_ok.mp h
    obtain rfl := pure_eq_ok.mp h
    exact .cons (hown _) .nil

end Context

end TypeScribe
