import TypeScribe.Proofs.Acceptance
import TypeScribe.Proofs.Legibility
import TypeScribe.Proofs.Phrases
import TypeScribe.Proofs.TypeGrammar

/-!
# Printed types can be read in one way only

The text of a type expression is split into tokens again, and by the grammar of OCaml these are one type, the one that
was printed. `HasPlainModules.printed_unambiguous` says so for the type of every value with plain names, and for every
constructor with the types that it carries.
-/

namespace TypeScribe

namespace Ocaml
open Lexer (Lexable Partial Stands)

/-! ## Texts that are split into tokens again -/

/-- A phrase whose tokens the lexer gets back from its text if a delimiter comes next. An asterisk is no such phrase and
not `Lexable` either, since after a parenthesis it starts a comment. -/
structure IsLexed (tokens : List Token) (text : String) : Prop extends IsPhrase tokens text where
  run : ∀ q ∈ [Partial.none, .opened], ∃ complete p more,
    Lexer.run q text.toList = some (complete, p) ∧ Stands p more ∧ complete ++ more = tokens

theorem Lexer.Stands.flush {p : Partial} {tokens : List Token} (h : Stands p tokens) : p.flush = some tokens := by
  have hblank : Lexer.step p ' ' = some (tokens ++ [], .none) := h ' ' (.head _)
  rw [List.append_nil] at hblank
  cases p with
  | none | opened | word cs | operator cs =>
    cases hblank
    rfl
  | point cs => cases hblank
  | bracket cs =>
    -- a blank is never the end of an array
    have hbracket : cs ++ [' '] ≠ "[||]".toList := fun h => by
      cases List.getLast?_concat.symm.trans (congrArg List.getLast? h)
    rw [Lexer.step, if_neg hbracket, if_neg (by decide)] at hblank
    cases hblank
  | literal cs => cases hblank
  | escape cs => cases hblank

namespace IsLexed

variable {tokens tokens' : List Token} {text text' : String}

theorem lex (h : IsLexed tokens text) : lex text.toList = some tokens := by
  obtain ⟨complete, p, more, hrun, hstands, hall⟩ := h.run .none (.head _)
  rw [Ocaml.lex, hrun]
  show (p.flush >>= fun last => some (complete ++ last)) = _
  rw [hstands.flush, ← hall]
  rfl

theorem word {w : String} (h : Lexable [.word w]) : IsLexed [.word w] w where
  toIsPhrase := .word w
  run q hq := by
    cases h with
    | cons hgets =>
      obtain ⟨p, complete, more, hstands, hall, hrun⟩ := hgets
      exact ⟨complete, p, more, hrun q hq, hstands, hall⟩

theorem separated (h : IsLexed tokens text) (h' : IsLexed tokens' text') {mark : List Token} {c : Char} {cs : List Char}
    {separator : String} (hphrase : IsPhrase (tokens ++ mark ++ tokens') (text ++ separator ++ text'))
    (hseparator : separator.toList = c :: cs) (hc : c ∈ [' ', '\n', ')', ',', ';'])
    (hmark : Lexer.run .none (c :: cs) = some (mark, .none)) :
    IsLexed (tokens ++ mark ++ tokens') (text ++ separator ++ text') where
  toIsPhrase := hphrase
  run q hq := by
    obtain ⟨complete, p, more, hrun, hstands, hall⟩ := h.run q hq
    obtain ⟨complete', p', more', hrun', hstands', hall'⟩ := h'.run .none (.head _)
    have hwhole := Lexer.run_append hrun (Lexer.run_delimited hstands hc (Lexer.run_append hmark hrun'))
    refine ⟨complete ++ (more ++ (mark ++ complete')), p', more', ?_, hstands', ?_⟩
    · rw [String.toList_append, String.toList_append, hseparator, List.append_assoc]
      exact hwhole
    · simp only [← hall, ← hall', List.append_assoc]

theorem append (h : IsLexed tokens text) (h' : IsLexed tokens' text') :
    IsLexed (tokens ++ tokens') (text ++ " " ++ text') := by
  have hphrase := h.toIsPhrase.append h'.toIsPhrase
  have hboth := @separated _ _ _ _ h h' [] _ _ _ (by rwa [List.append_nil]) rfl (by decide) rfl
  rwa [List.append_nil] at hboth

theorem comma (h : IsLexed tokens text) (h' : IsLexed tokens' text') :
    IsLexed (tokens ++ .comma :: tokens') (text ++ ", " ++ text') := by
  have hphrase := h.toIsPhrase.comma h'.toIsPhrase
  rw [← List.singleton_append, ← List.append_assoc] at hphrase ⊢
  exact h.separated h' hphrase rfl (by decide) rfl

theorem times (h : IsLexed tokens text) (h' : IsLexed tokens' text') :
    IsLexed (tokens ++ .word "*" :: tokens') (text ++ " * " ++ text') := by
  have hphrase := (h.toIsPhrase.append (.word "*")).append h'.toIsPhrase
  have htext : text ++ " " ++ "*" ++ " " ++ text' = text ++ " * " ++ text' := by
    simp [← String.toList_inj]
  rw [htext] at hphrase
  rw [← List.singleton_append, ← List.append_assoc]
  exact h.separated h' hphrase rfl (by decide) rfl

theorem enclose (h : IsLexed tokens text) : IsLexed (Token.enclose tokens) ("(" ++ text ++ ")") where
  toIsPhrase := h.toIsPhrase.enclose
  run q hq := by
    obtain ⟨complete, p, more, hrun, hstands, hall⟩ := h.run .opened (by decide)
    have hopen : Lexer.run q ['('] = some ([.openParen], .opened) := by
      revert q
      decide
    have hclose : Lexer.run p [')'] = some (more ++ [.closeParen], .none) :=
      Lexer.run_delimited hstands (by decide) rfl
    have hwhole := Lexer.run_append hopen (Lexer.run_append hrun hclose)
    refine ⟨[.openParen] ++ (complete ++ (more ++ [.closeParen])), .none, [], ?_, Lexer.stands_none, ?_⟩
    · rw [String.toList_append, String.toList_append, List.append_assoc]
      exact hwhole
    · simp [Token.enclose, ← hall]

theorem sequence {mark : Token} (hmark : mark = .comma ∨ mark = .word "*") {first : TypeExpr} {rest : List TypeExpr}
    (hitems : ∀ item ∈ first :: rest, ∃ text, IsLexed (item.tokens true) text) :
    ∃ text, IsLexed (first.tokens true ++ TypeExpr.followedBy mark rest) text := by
  induction rest generalizing first with
  | nil =>
    rw [TypeExpr.followedBy, List.append_nil]
    exact hitems first (.head _)
  | cons second rest ih =>
    rw [List.forall_mem_cons] at hitems
    obtain ⟨text, hfirst⟩ := hitems.1
    obtain ⟨text', hrest⟩ := ih hitems.2
    rw [TypeExpr.followedBy, List.cons_append]
    rcases hmark with rfl | rfl
    · exact ⟨_, hfirst.comma hrest⟩
    · exact ⟨_, hfirst.times hrest⟩

end IsLexed

/-! ## Texts of things -/

def Spell (tokens : List Token) (terminals : List Terminal) : Prop :=
  List.Forall₂ (fun token terminal => token.terminal? = some terminal) tokens terminals

namespace Spell

variable {tokens tokens' : List Token} {terminals terminals' : List Terminal}

theorem unique (h : Spell tokens terminals) (h' : Spell tokens terminals') : terminals = terminals' :=
  List.right_unique_forall₂' (fun _ _ _ ha hb => Option.some.inj (ha.symm.trans hb)) h h'

theorem append (h : Spell tokens terminals) (h' : Spell tokens' terminals') :
    Spell (tokens ++ tokens') (terminals ++ terminals') := List.rel_append h h'

theorem enclose (h : Spell tokens terminals) :
    Spell (Token.enclose tokens) (.openParen :: terminals ++ [.closeParen]) :=
  .cons rfl (h.append (.cons rfl .nil))

end Spell

/-- The text is split into tokens that are the terminals of the thing. -/
def IsTextOf {α : Type} (derives : List Terminal → α → Prop) (text : String) (a : α) : Prop :=
  ∃ tokens terminals, lex text.toList = some tokens ∧ Spell tokens terminals ∧ derives terminals a

/-- If a grammar is unambiguous, what has been printed from tokens is the text of one thing only. -/
theorem isTextOf_iff {α : Type} (derives : List Terminal → α → Prop)
    (unique : ∀ terminals a a', derives terminals a → derives terminals a' → a = a') {tokens : List Token}
    {text : String} (htext : IsLexed tokens text) {terminals : List Terminal} (hspell : Spell tokens terminals) {a a' : α}
    (hderives : derives terminals a) : IsTextOf derives (String.ofList (Token.join tokens)) a' ↔ a' = a := by
  have hlex : lex (String.ofList (Token.join tokens)).toList = some tokens := by
    rw [String.toList_ofList, htext.join, htext.lex]
  constructor
  · rintro ⟨tokens', terminals', hlex', hspell', hderives'⟩
    obtain rfl := Option.some.inj (hlex.symm.trans hlex')
    obtain rfl := hspell.unique hspell'
    exact unique _ _ _ hderives' hderives
  · rintro rfl
    exact ⟨tokens, terminals, hlex, hspell, hderives⟩

/-! ## Types of plain names -/

theorem IsVariable.terminal? {name : String} (h : IsVariable name) :
    Token.terminal? (.word ("'" ++ name)) = some (.var name) := by
  have hlexeme : Token.lexeme? (.word ("'" ++ name)) = some (.variable name) := h.ofWord
  exact Token.terminal?_of_lexeme? hlexeme

theorem Path.IsName.terminal? {path : Path} (h : path.IsName) :
    Token.terminal? (.word path.text) = some (.path path) := by
  have hlexeme : Token.lexeme? (.word path.text) = some (.name path) := h.ofWord
  exact Token.terminal?_of_lexeme? hlexeme

namespace TypeExpr

/-- The names are read as names of OCaml, a product has several parts, and no function is in it. -/
inductive IsPlain : TypeExpr → Prop where
  | var {name : String} : IsVariable name → IsPlain (.var name)
  | constructor {path : Path} {arguments : List TypeExpr} :
    path.IsName → (∀ argument ∈ arguments, IsPlain argument) → IsPlain (.constructor path arguments)
  | tuple {items : List TypeExpr} :
    2 ≤ items.length → (∀ item ∈ items, IsPlain item) → IsPlain (.tuple items)

theorem IsPlain.isLexed {type : TypeExpr} (h : type.IsPlain) (inner : Bool) :
    ∃ text, IsLexed (type.tokens inner) text := by
  induction h generalizing inner with
  | var h => exact ⟨_, .word h.lexable⟩
  | @constructor path arguments hpath _ ih =>
    have hword : IsLexed [.word path.text] path.text := .word hpath.lexable
    match arguments with
    | [] => exact ⟨_, hword⟩
    | [argument] =>
      obtain ⟨text, hargument⟩ := ih argument (.head _) true
      exact ⟨_, hargument.append hword⟩
    | first :: second :: rest =>
      obtain ⟨text, harguments⟩ := IsLexed.sequence (.inl rfl) fun item hitem => ih item hitem true
      exact ⟨_, harguments.enclose.append hword⟩
  | @tuple items hsize _ ih =>
    match items with
    | [] => simp at hsize
    | first :: rest =>
      obtain ⟨text, hitems⟩ := IsLexed.sequence (.inr rfl) fun item hitem => ih item hitem true
      exact ⟨_, hitems.enclose⟩

def IsDerived (type : TypeExpr) (tokens : List Token) : Prop :=
  ∃ terminals, Spell tokens terminals ∧ DerivesType .simple terminals type

theorem exists_parts {mark : Token} {terminal : Terminal} (hmark : mark.terminal? = some terminal) {first : TypeExpr}
    {rest : List TypeExpr} (hitems : ∀ item ∈ first :: rest, item.IsDerived (item.tokens true)) :
    ∃ (head : List Terminal × TypeExpr) (parts : List (List Terminal × TypeExpr)),
      (head :: parts).map Prod.snd = first :: rest ∧
      Spell (first.tokens true ++ followedBy mark rest) (head.1 ++ parts.flatMap fun part => terminal :: part.1) ∧
      ∀ part ∈ head :: parts, DerivesType .simple part.1 part.2 := by
  induction rest generalizing first with
  | nil =>
    obtain ⟨terminals, hspell, hfirst⟩ := hitems first (.head _)
    exact ⟨(terminals, first), [], rfl, hspell.append .nil, List.forall_mem_singleton.mpr hfirst⟩
  | cons second rest ih =>
    rw [List.forall_mem_cons] at hitems
    obtain ⟨terminals, hspell, hfirst⟩ := hitems.1
    obtain ⟨head, parts, hmap, hspells, hparts⟩ := ih hitems.2
    exact ⟨(terminals, first), head :: parts, congrArg (first :: ·) hmap, hspell.append (.cons hmark hspells),
      List.forall_mem_cons.mpr ⟨hfirst, hparts⟩⟩

theorem IsPlain.isDerived {type : TypeExpr} (h : type.IsPlain) (inner : Bool) : type.IsDerived (type.tokens inner) := by
  induction h generalizing inner with
  | @var name h => exact ⟨_, .cons h.terminal? .nil, .var name⟩
  | @constructor path arguments hpath _ ih =>
    have hword : Spell [.word path.text] [.path path] := .cons hpath.terminal? .nil
    match arguments with
    | [] => exact ⟨_, hword, .constant path⟩
    | [argument] =>
      obtain ⟨terminals, hspell, hargument⟩ := ih argument (.head _) true
      exact ⟨_, hspell.append hword, .applied path hargument⟩
    | first :: second :: rest =>
      obtain ⟨head, parts, hmap, hspell, hparts⟩ :=
        exists_parts (rfl : Token.terminal? .comma = _) fun item hitem => ih item hitem true
      have hne : parts ≠ [] := fun hnil => by simp [hnil] at hmap
      have hderives := DerivesType.several path hne fun part hpart => .bare (.simple (hparts part hpart))
      have hall := hspell.enclose.append hword
      rw [List.append_assoc] at hall
      exact ⟨_, hall, hmap ▸ hderives⟩
  | @tuple items hsize _ ih =>
    match items with
    | [] => simp at hsize
    | [_] => simp at hsize
    | first :: second :: rest =>
      obtain ⟨head, parts, hmap, hspell, hparts⟩ :=
        exists_parts (rfl : Token.terminal? (.word "*") = _) fun item hitem => ih item hitem true
      have hne : parts ≠ [] := fun hnil => by simp [hnil] at hmap
      have hderives := DerivesType.product hne hparts
      exact ⟨_, hspell.enclose, .grouped (.bare (hmap ▸ hderives))⟩

def text (type : TypeExpr) (inner : Bool) : String := String.ofList (Token.join (type.tokens inner))

/-- The text of a type of plain names is the text of this type only. -/
theorem IsPlain.isTextOf_iff {type : TypeExpr} (h : type.IsPlain) (inner : Bool) {type' : TypeExpr} :
    IsTextOf (DerivesType .full) (type.text inner) type' ↔ type' = type := by
  obtain ⟨text, htext⟩ := h.isLexed inner
  obtain ⟨terminals, hspell, hderives⟩ := h.isDerived inner
  exact Ocaml.isTextOf_iff (DerivesType .full) (fun _ _ _ => DerivesType.unique) htext hspell (.bare (.simple hderives))

end TypeExpr

/-! ## Constructors of plain names -/

def clauseText (clause : String × List TypeExpr) : String :=
  String.ofList (Token.join (TypeDefinition.constructorTokens clause))

variable {name : String} {types : List TypeExpr}

theorem exists_isLexed_constructorTokens (hname : Path.IsConstructor ⟨[], name⟩) (htypes : ∀ type ∈ types, type.IsPlain) :
    ∃ text, IsLexed (TypeDefinition.constructorTokens (name, types)) text := by
  have hbar : IsLexed [.word "|"] "|" := .word (Lexer.lexable_operator (by decide))
  have hof : IsLexed [.word "of"] "of" := .word (Lexer.lexable_keyword (by decide))
  have hcapital : IsLexed [.word name] name := .word (Path.text_local name ▸ hname.lexable)
  cases types with
  | nil => exact ⟨_, hbar.append hcapital⟩
  | cons first rest =>
    obtain ⟨text, htext⟩ := IsLexed.sequence (.inr rfl) fun item hitem => (htypes item hitem).isLexed true
    exact ⟨_, ((hbar.append hcapital).append hof).append htext⟩

theorem exists_spell_constructorTokens (hname : Path.IsConstructor ⟨[], name⟩) (htypes : ∀ type ∈ types, type.IsPlain) :
    ∃ terminals, Spell (TypeDefinition.constructorTokens (name, types)) terminals ∧
      DerivesClause terminals (name, types) := by
  have hcapital : Token.terminal? (.word name) = some (.capital name) := by
    have hlexeme : Token.lexeme? (.word name) = some (.constructor ⟨[], name⟩) := Path.text_local name ▸ hname.ofWord
    exact Token.terminal?_of_lexeme? hlexeme
  have hbar : Token.terminal? (.word "|") = some .bar := by decide
  cases types with
  | nil => exact ⟨_, .cons hbar (.cons hcapital .nil), .constant name⟩
  | cons first rest =>
    obtain ⟨head, parts, hmap, hspell, hparts⟩ :=
      TypeExpr.exists_parts (rfl : Token.terminal? (.word "*") = _) fun item hitem => (htypes item hitem).isDerived true
    have hderives := DerivesClause.carrying name hparts
    exact ⟨_, .cons hbar (.cons hcapital (.cons rfl hspell)), hmap ▸ hderives⟩

/-- The text of a constructor with plain types is the text of this constructor with these types only. -/
theorem isTextOf_clauseText_iff (hname : Path.IsConstructor ⟨[], name⟩) (htypes : ∀ type ∈ types, type.IsPlain)
    {clause : String × List TypeExpr} :
    IsTextOf DerivesClause (clauseText (name, types)) clause ↔ clause = (name, types) := by
  obtain ⟨text, htext⟩ := exists_isLexed_constructorTokens hname htypes
  obtain ⟨terminals, hspell, hderives⟩ := exists_spell_constructorTokens hname htypes
  exact isTextOf_iff DerivesClause (fun _ _ _ => DerivesClause.unique) htext hspell hderives

end Ocaml

/-! ## Types of values -/

open Ocaml (Path TypeExpr DerivesType DerivesClause IsTextOf)

def Value.NamesPlainType : Value → Prop
  | .typeRef _ name => TypeScribe.IsPlain name
  | .application identity _ => TypeScribe.IsPlain identity.name
  | .parameter name => IsPlainVariable name
  | _ => True

def Value.IsPlainType (value : Value) : Prop := ∀ part : Value, part.Occurs value → part.NamesPlainType

namespace Value

theorem isPlainType_typeRef {identity : Identity} {name : String} :
    (typeRef identity name).IsPlainType ↔ TypeScribe.IsPlain name := by
  refine ⟨fun h => h _ .self, fun h part hpart => ?_⟩
  obtain rfl := occurs_typeRef.mp hpart
  exact h

theorem isPlainType_parameter {name : String} : (parameter name).IsPlainType ↔ IsPlainVariable name := by
  refine ⟨fun h => h _ .self, fun h part hpart => ?_⟩
  obtain rfl := occurs_parameter.mp hpart
  exact h

theorem isPlainType_primitive {p : Primitive} :
    (primitive p).IsPlainType ↔ ∀ component ∈ p.components, component.IsPlainType := by
  constructor
  · exact fun h component hmem part hoccurs => h part (.component hmem hoccurs)
  · intro h part hpart
    cases hpart with
    | self => trivial
    | component hmem hoccurs => exact h _ hmem part hoccurs

theorem isPlainType_application {identity : Identity} {arguments : Value} :
    (application identity arguments).IsPlainType ↔
      TypeScribe.IsPlain identity.name ∧ ∀ argument ∈ arguments.flatten, argument.IsPlainType := by
  constructor
  · intro h
    exact ⟨h _ .self, fun argument hmem part hoccurs => h part (.argument (hoccurs.trans (occurs_of_mem_flatten hmem)))⟩
  · rintro ⟨hname, harguments⟩ part hpart
    by_cases hnamed : part.IsNamed
    · rcases (occurs_application hnamed).mp hpart with rfl | ⟨argument, hmem, hoccurs⟩
      · exact hname
      · exact harguments argument hmem part hoccurs
    · cases part with
      | typeRef | application | parameter => exact absurd trivial hnamed
      | _ => trivial

end Value

namespace Context

/-- The type that a value means: a type of the program under its name, reached through the modules that qualify it and
applied to its arguments in order, and a built-in type with its components. Characters and lists of them are texts. -/
inductive Means (context : Context) : Value → TypeExpr → Prop where
  | typeRef {identity : Identity} {name : String} {modules : List String} :
    context.options.dependencies.qualify context.identity identity = .ok modules →
      Means context (.typeRef identity name) (.constructor ⟨modules, Ocaml.typeName name⟩ [])
  | application {identity : Identity} {arguments : Value} {modules : List String} {types : List TypeExpr} :
    context.options.dependencies.qualify context.identity identity = .ok modules →
      List.Forall₂ (Means context) arguments.flatten types →
        Means context (.application identity arguments) (.constructor ⟨modules, Ocaml.typeName identity.name⟩ types)
  | char : Means context (.primitive (.scalar .char)) (.constructor ⟨[], "string"⟩ [])
  | scalar {s : Scalar} : s ≠ .char → Means context (.primitive (.scalar s)) (.constructor s.typePath [])
  | text : Means context (.primitive (.list (.primitive (.scalar .char)))) (.constructor ⟨[], "string"⟩ [])
  | list {item : Value} {type : TypeExpr} : item ≠ .primitive (.scalar .char) → Means context item type →
      Means context (.primitive (.list item)) (.constructor ⟨[], "list"⟩ [type])
  | option {item : Value} {type : TypeExpr} : Means context item type →
      Means context (.primitive (.option item)) (.constructor ⟨[], "option"⟩ [type])
  | either {left right : Value} {type type' : TypeExpr} : Means context left type → Means context right type' →
      Means context (.primitive (.either left right))
        (.constructor ⟨["Aeson", "Compatibility", "Either"], "t"⟩ [type, type'])
  | tuple {items : List Value} {types : List TypeExpr} : 2 ≤ items.length →
      List.Forall₂ (Means context) items types → Means context (.primitive (.tuple items)) (.tuple types)
  | parameter (name : String) : Means context (.parameter name) (.var (Ocaml.variableName name))

variable {context : Context}

theorem forall₂_means {values : List Value} {types : List TypeExpr}
    (h : values.mapM (fun value => context.typeExpr value.fieldType) = .ok types)
    (each : ∀ value ∈ values, ∀ {type}, context.typeExpr value.fieldType = .ok type → context.Means value type) :
    List.Forall₂ context.Means values types := by
  have hfound := List.forall₂_and_left values types |>.mpr ⟨each, mapM_eq_ok.mp h⟩
  exact hfound.imp fun value type h => h.1 h.2

theorem means_of_primitive {p : Primitive}
    (ih : ∀ component ∈ p.components, ∀ {type}, context.typeExpr component.fieldType = .ok type →
      context.Means component type) {type : TypeExpr} (h : context.typeExpr p.fieldType = .ok type) :
    context.Means (.primitive p) type := by
  rw [typeExpr_primitive_eq] at h
  obtain ⟨_, hsize, h⟩ := bind_eq_ok.mp h
  obtain ⟨types, htypes, h⟩ := bind_eq_ok.mp h
  obtain rfl := pure_eq_ok.mp h
  have hmeans := forall₂_means htypes ih
  cases p with
  | scalar s =>
    by_cases hchar : s = .char
    · subst hchar
      exact .char
    · exact .scalar hchar
  | list item =>
    by_cases hchar : item = .primitive (.scalar .char)
    · subst hchar
      exact .text
    · rw [Primitive.typeFrom_list hchar]
      cases hmeans with
      | cons hitem hrest =>
        cases hrest
        exact .list hchar hitem
  | option item =>
    cases hmeans with
    | cons hitem hrest =>
      cases hrest
      exact .option hitem
  | either left right =>
    cases hmeans with
    | cons hleft hrest =>
      cases hrest with
      | cons hright hrest =>
        cases hrest
        exact .either hleft hright
  | tuple items =>
    have hallowed : (Primitive.tuple items).SizeAllowed := (succeeds_checkSize _).mp ⟨_, hsize⟩
    exact .tuple hallowed.1 hmeans

/-- The type expression that is found for a value is the one that it means. -/
theorem means_of_typeExpr {value : Value} {type : TypeExpr} (h : context.typeExpr value.fieldType = .ok type) :
    context.Means value type := by
  induction value using Value.typeInduction generalizing type with
  | typeRef identity name =>
    obtain ⟨path, hpath, h⟩ := bind_eq_ok.mp h
    obtain ⟨modules, hmodules, hpath⟩ := bind_eq_ok.mp hpath
    obtain rfl := pure_eq_ok.mp h
    obtain rfl := pure_eq_ok.mp hpath
    exact .typeRef hmodules
  | application identity arguments ih =>
    rw [typeExpr_application] at h
    obtain ⟨types, htypes, h⟩ := bind_eq_ok.mp h
    obtain ⟨path, hpath, h⟩ := bind_eq_ok.mp h
    obtain ⟨modules, hmodules, hpath⟩ := bind_eq_ok.mp hpath
    obtain rfl := pure_eq_ok.mp h
    obtain rfl := pure_eq_ok.mp hpath
    exact .application hmodules (forall₂_means htypes ih)
  | primitive p ih => exact means_of_primitive ih h
  | parameter name =>
    obtain rfl := pure_eq_ok.mp h
    exact .parameter name
  | misplaced value hmisplaced =>
    rw [hmisplaced] at h
    cases h

/-! ## Plain values mean plain types -/

theorem HasPlainModules.isName_typeName (hmodules : context.HasPlainModules) {identity : Identity} {name : String}
    (hname : TypeScribe.IsPlain name) {modules : List String}
    (h : context.options.dependencies.qualify context.identity identity = .ok modules) :
    Path.IsName ⟨modules, Ocaml.typeName name⟩ where
  modules := hmodules.isCapitalName_of_qualify h
  name := (isName_escapeKeyword hname.identifier hname.operator).name
  free := (isName_escapeKeyword hname.identifier hname.operator).free

theorem forall_isPlain {values : List Value} {types : List TypeExpr} (h : List.Forall₂ context.Means values types)
    (each : ∀ value ∈ values, ∀ {type}, context.Means value type → type.IsPlain) : ∀ type ∈ types, type.IsPlain := by
  intro type htype
  obtain ⟨value, hvalue, hmeans⟩ := exists_of_forall₂_left h.flip htype
  exact each value hvalue hmeans

theorem isName_typePath (s : Scalar) : s.typePath.IsName := by
  cases s <;> decide

/-- What a plain value means is a plain type. -/
theorem HasPlainModules.isPlain (hmodules : context.HasPlainModules) {value : Value} (hvalue : value.IsPlainType)
    {type : TypeExpr} (h : context.Means value type) : type.IsPlain := by
  induction value using Value.typeInduction generalizing type with
  | typeRef identity name =>
    cases h with
    | typeRef hqualify =>
      have hname := Value.isPlainType_typeRef.mp hvalue
      exact .constructor (hmodules.isName_typeName hname hqualify) (List.forall_mem_nil _)
  | application identity arguments ih =>
    cases h with
    | application hqualify hmeans =>
      obtain ⟨hname, harguments⟩ := Value.isPlainType_application.mp hvalue
      have hplain := forall_isPlain hmeans fun argument hargument => ih argument hargument (harguments argument hargument)
      exact .constructor (hmodules.isName_typeName hname hqualify) hplain
  | primitive p ih =>
    have hcomponents := Value.isPlainType_primitive.mp hvalue
    cases h with
    | char | text => exact .constructor (by decide) (List.forall_mem_nil _)
    | @scalar s => exact .constructor (isName_typePath s) (List.forall_mem_nil _)
    | list _ hitem | option hitem =>
      have hplain := ih _ (.head _) (hcomponents _ (.head _)) hitem
      exact .constructor (by decide) (List.forall_mem_singleton.mpr hplain)
    | either hleft hright =>
      have hplain := ih _ (.head _) (hcomponents _ (.head _)) hleft
      have hplain' := ih _ (.tail _ (.head _)) (hcomponents _ (.tail _ (.head _))) hright
      exact .constructor (by decide) (List.forall_mem_cons.mpr ⟨hplain, List.forall_mem_singleton.mpr hplain'⟩)
    | tuple hsize hmeans =>
      have hplain := forall_isPlain hmeans fun component hmem => ih component hmem (hcomponents component hmem)
      exact .tuple (hmeans.length_eq ▸ hsize) hplain
  | parameter name =>
    cases h
    exact .var (isVariable_variableName (Value.isPlainType_parameter.mp hvalue))
  | misplaced value hmisplaced =>
    cases h with
    -- that a list is a type shows only when its item is known not to be a character
    | list hchar _ =>
      rw [Value.fieldType, Value.fieldType_list_of_ne hchar] at hmisplaced
      cases hmisplaced
    | _ => cases hmisplaced

/-! ## Main result -/

/-- Where modules and names are plain, the text of a type expression is the text of no type but the one that the value
means. The text of a constructor is the text of no other constructor, and of this one with no other arguments: several
arguments are told apart from one that is a tuple. -/
theorem HasPlainModules.printed_unambiguous (hmodules : context.HasPlainModules) :
    (∀ (value : Value) (type : TypeExpr), value.IsPlainType → context.typeExpr value.fieldType = .ok type →
      context.Means value type ∧
        ∀ (inner : Bool) (type' : TypeExpr), IsTextOf (DerivesType .full) (type.text inner) type' ↔ type' = type) ∧
    ∀ (constructor : Positional) (clause : String × List TypeExpr), IsLetterName constructor.name →
      (∀ argument ∈ constructor.arguments, argument.IsPlainType) → context.constructorType constructor = .ok clause →
        clause.1 = Ocaml.constructorName constructor.name ∧
        List.Forall₂ context.Means constructor.arguments clause.2 ∧
        ∀ clause' : String × List TypeExpr,
          IsTextOf DerivesClause (Ocaml.clauseText clause) clause' ↔ clause' = clause := by
  refine ⟨fun value type hvalue h => ?_, fun constructor clause hname harguments h => ?_⟩
  · have hmeans := means_of_typeExpr h
    exact ⟨hmeans, fun inner _ => (hmodules.isPlain hvalue hmeans).isTextOf_iff inner⟩
  · obtain ⟨types, htypes, h⟩ := bind_eq_ok.mp h
    obtain rfl := pure_eq_ok.mp h
    have hmeans := forall₂_means htypes fun _ _ _ => means_of_typeExpr
    have hplain := forall_isPlain hmeans fun argument hargument _ => hmodules.isPlain (harguments argument hargument)
    exact ⟨rfl, hmeans, fun _ => Ocaml.isTextOf_clauseText_iff ⟨nofun, isCapitalName_upperFirst hname⟩ hplain⟩

def usesTables : Context where
  options :=
    { dependencies := .ofEntries [
        ⟨⟨"main", "Types", "Tree"⟩, ⟨["src", "types"], []⟩⟩,
        ⟨⟨"main", "Tables", "Table"⟩, ⟨["src", "tables"], ["hashed"]⟩⟩] }
  identity := ⟨"main", "Types", "Tree"⟩
  displayName := "Tree"

def keyParts : List Value := [.parameter "a", .primitive (.option (.primitive (.scalar .int)))]

def textTable : Value :=
  .apply ⟨"main", "Tables", "Table"⟩ [.primitive (.tuple keyParts), .primitive (.list (.primitive (.scalar .char)))]

theorem hasPlainModules_usesTables : usesTables.HasPlainModules := by
  unfold HasPlainModules
  decide

theorem isPlainType_of_mem_keyParts : ∀ part ∈ keyParts, part.IsPlainType := by
  have hnumber : (Value.primitive (.scalar .int)).IsPlainType := Value.isPlainType_primitive.mpr (List.forall_mem_nil _)
  have hoption : (Value.primitive (.option (.primitive (.scalar .int)))).IsPlainType :=
    Value.isPlainType_primitive.mpr (List.forall_mem_singleton.mpr hnumber)
  have hparameter : (Value.parameter "a").IsPlainType := Value.isPlainType_parameter.mpr ⟨by decide, by decide, by decide⟩
  exact List.forall_mem_cons.mpr ⟨hparameter, List.forall_mem_singleton.mpr hoption⟩

theorem isPlainType_textTable : textTable.IsPlainType := by
  have hkey : (Value.primitive (.tuple keyParts)).IsPlainType :=
    Value.isPlainType_primitive.mpr isPlainType_of_mem_keyParts
  have hchar : (Value.primitive (.scalar .char)).IsPlainType := Value.isPlainType_primitive.mpr (List.forall_mem_nil _)
  have htext : (Value.primitive (.list (.primitive (.scalar .char)))).IsPlainType :=
    Value.isPlainType_primitive.mpr (List.forall_mem_singleton.mpr hchar)
  refine Value.isPlainType_application.mpr ⟨⟨by decide, by decide⟩, ?_⟩
  exact List.forall_mem_cons.mpr ⟨hkey, List.forall_mem_singleton.mpr htext⟩

/-- The one type that the text of the table's type can be, and two constructors with texts of their own. -/
theorem textTable_printed :
    ∃ type, usesTables.typeExpr textTable.fieldType = .ok type ∧
      type.text false = "(('a * int option), string) Tables.Hashed.table" ∧ usesTables.Means textTable type ∧
      (∀ type', IsTextOf (DerivesType .full) (type.text false) type' ↔ type' = type) ∧
      ∃ several single, usesTables.constructorType ⟨"Key", keyParts⟩ = .ok several ∧
        usesTables.constructorType ⟨"Key", [.primitive (.tuple keyParts)]⟩ = .ok single ∧
        IsTextOf DerivesClause (Ocaml.clauseText several) several ∧
        ¬ IsTextOf DerivesClause (Ocaml.clauseText several) single := by
  obtain ⟨htypes, hclauses⟩ := hasPlainModules_usesTables.printed_unambiguous
  obtain ⟨hmeans, htext⟩ := htypes textTable _ isPlainType_textTable rfl
  obtain ⟨-, -, hclause⟩ := hclauses ⟨"Key", keyParts⟩ _ (by decide) isPlainType_of_mem_keyParts rfl
  refine ⟨_, rfl, by decide, hmeans, htext false, _, _, rfl, rfl, (hclause _).mpr rfl, fun h => ?_⟩
  cases (hclause _).mp h

end Context

end TypeScribe
