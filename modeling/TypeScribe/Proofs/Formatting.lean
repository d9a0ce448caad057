import TypeScribe.Proofs.BodyReading

/-!
# Formatting

Parentheses balance in what is formatted, and the lexer gets every line of it back.
-/

namespace TypeScribe.Ocaml
open Lexer (Lexable tokensOf)

/-! ## Balance -/

/-- The number of parentheses that are open after tokens, if none is closed that is not open. -/
def openAfter : Nat → List Token → Option Nat
  | n, [] => some n
  | n, .openParen :: rest => openAfter (n + 1) rest
  | n, .openIndex :: rest => openAfter (n + 1) rest
  | 0, .closeParen :: _ => none
  | n + 1, .closeParen :: rest => openAfter n rest
  | n, _ :: rest => openAfter n rest

/-- Every parenthesis is closed, and none is closed that is not open. -/
def Balanced (tokens : List Token) : Prop := openAfter 0 tokens = some 0

instance (tokens : List Token) : Decidable (Balanced tokens) :=
  inferInstanceAs (Decidable (_ = _))

theorem openAfter_append {n m : Nat} {front : List Token} (h : openAfter n front = some m) (back : List Token) :
    openAfter n (front ++ back) = openAfter m back := by
  induction front generalizing n with
  | nil =>
    cases h
    rfl
  | cons token rest ih =>
    cases token with
    | closeParen =>
      cases n with
      | zero => cases h
      | succ n => exact ih h
    | openParen | openIndex => exact ih h
    | word | literal | comma | semicolon => exact ih h

theorem openAfter_add {n m : Nat} {tokens : List Token} (h : openAfter n tokens = some m) (k : Nat) :
    openAfter (n + k) tokens = some (m + k) := by
  induction tokens generalizing n with
  | nil =>
    cases h
    rfl
  | cons token rest ih =>
    cases token with
    | closeParen =>
      cases n with
      | zero => cases h
      | succ n =>
        rw [Nat.succ_add]
        exact ih h
    | openParen | openIndex =>
      have hrest := ih (n := n + 1) h
      rw [Nat.add_right_comm] at hrest
      exact hrest
    | word | literal | comma | semicolon => exact ih h

namespace Balanced

variable {tokens front back : List Token}

theorem nil : Balanced [] := rfl

theorem append (hfront : Balanced front) (hback : Balanced back) : Balanced (front ++ back) := by
  rw [Balanced, openAfter_append hfront]
  exact hback

theorem enclose (h : Balanced tokens) : Balanced (Token.enclose tokens) := by
  show openAfter 1 (tokens ++ [.closeParen]) = some 0
  have hopen : openAfter 1 tokens = some 1 := by
    have hadd := openAfter_add h 1
    rwa [Nat.zero_add] at hadd
  rw [openAfter_append hopen]
  rfl

end Balanced

/-! ## Tokens on one line -/

/-- The tokens can stand on a line: their parentheses balance and the lexer gets them back. -/
structure Printable (tokens : List Token) : Prop where
  lexable : Lexable tokens
  balanced : Balanced tokens

namespace Printable

variable {tokens front back : List Token}

theorem nil : Printable [] := ⟨.nil, .nil⟩

theorem append (hfront : Printable front) (hback : Printable back) : Printable (front ++ back) :=
  ⟨hfront.lexable.append hback.lexable, hfront.balanced.append hback.balanced⟩

theorem enclose (h : Printable tokens) : Printable (Token.enclose tokens) :=
  ⟨((Lexer.lexable_mark (.head _)).append h.lexable).append (Lexer.lexable_mark (by decide)), h.balanced.enclose⟩

theorem encloseIf (h : Printable tokens) (needed : Bool) : Printable (Token.encloseIf needed tokens) := by
  cases needed with
  | true => exact h.enclose
  | false => exact h

theorem word {w : String} (h : Lexable [.word w]) : Printable [.word w] := ⟨h, rfl⟩

theorem keyword {w : String} (h : w.toList ≠ [] ∧ w.toList.all Lexer.isWordChar = true) : Printable [.word w] :=
  word (Lexer.lexable_keyword h)

theorem operator {w : String} (h : w ∈ ["->", "|", "=", "^", "<>", ":"]) : Printable [.word w] :=
  word (Lexer.lexable_operator h)

theorem bracket {w : String} (h : w ∈ ["\x7b", "\x7d", "[||]"]) : Printable [.word w] :=
  word (Lexer.lexable_bracket h)

theorem comma : Printable [.comma] := ⟨Lexer.lexable_mark (by decide), rfl⟩

theorem semicolon : Printable [.semicolon] := ⟨Lexer.lexable_mark (by decide), rfl⟩

theorem ofName {name : String} (h : Path.IsName ⟨[], name⟩) : Printable [.word name] := by
  have hname := h.lexable
  rw [Path.text_local] at hname
  exact word hname

end Printable

/-! ## Types -/

theorem printable_followedBy {rest : List TypeExpr} (h : ∀ type ∈ rest, Printable (type.tokens true)) :
    Printable (TypeExpr.followedBy .comma rest) := by
  induction rest with
  | nil => exact .nil
  | cons type rest ih =>
    rw [List.forall_mem_cons] at h
    exact (Printable.comma.append h.1).append (ih h.2)

theorem TypeExpr.Readable.printable {type : TypeExpr} (h : type.Readable) (inner : Bool) :
    Printable (type.tokens inner) := by
  induction h generalizing inner with
  | var hname => exact .word hname.lexable
  | @constructor path arguments hpath _ ih =>
    have hname : Printable [.word path.text] := .word hpath.lexable
    match arguments, ih with
    | [], _ => exact hname
    | [argument], ih => exact (ih argument List.mem_cons_self true).append hname
    | first :: second :: rest, ih =>
      have hrest := printable_followedBy fun type htype => ih type (List.mem_cons_of_mem first htype) true
      exact ((ih first List.mem_cons_self true).append hrest).enclose.append hname

/-! ## Expressions -/

theorem printable_atoms {arguments : List Term} (h : ∀ argument ∈ arguments, ∀ level, Printable (argument.tokens level)) :
    Printable (Term.atoms arguments) := by
  induction arguments with
  | nil => exact .nil
  | cons argument rest ih =>
    rw [List.forall_mem_cons] at h
    exact (h.1 4).append (ih h.2)

theorem printable_followedByComma {items : List Term} (h : ∀ t ∈ items, ∀ level, Printable (t.tokens level)) :
    Printable (Term.followedByComma items) := by
  induction items with
  | nil => exact .nil
  | cons t rest ih =>
    rw [List.forall_mem_cons] at h
    exact (Printable.comma.append (h.1 1)).append (ih h.2)

theorem printable_recordTokens {fields : List (String × String)}
    (h : ∀ field ∈ fields, Path.IsName ⟨[], field.1⟩ ∧ Path.IsName ⟨[], field.2⟩) :
    Printable (Term.recordTokens fields) := by
  induction fields with
  | nil => exact .nil
  | cons field rest ih =>
    obtain ⟨label, name⟩ := field
    rw [List.forall_mem_cons] at h
    have hfield : Printable [.word label, .word "=", .word name] :=
      (Printable.ofName h.1.1).append ((Printable.operator (by decide)).append (.ofName h.1.2))
    cases rest with
    | nil => exact hfield
    | cons next rest => exact hfield.append (Printable.semicolon.append (ih h.2))

theorem Term.Readable.printable {t : Term} (h : t.Readable) (level : Nat) : Printable (t.tokens level) := by
  induction h generalizing level with
  | path hname => exact .word hname.lexable
  | text s => exact ⟨Lexer.lexable_literal s, rfl⟩
  | number n => exact .word (lexable_number n)
  | apply _ _ _ ih iharguments =>
    rw [Term.tokens]
    exact ((ih 4).append (printable_atoms iharguments)).encloseIf _
  | lambda hparameter _ ih =>
    have hheader := (Printable.keyword (w := "fun") (by decide)).append
      ((Printable.ofName hparameter).append (.operator (w := "->") (by decide)))
    rw [Term.tokens]
    exact (hheader.append (ih 0)).encloseIf _
  | @construct constructor arguments hconstructor _ ih =>
    have hhead : Printable [.word constructor.text] := .word hconstructor.lexable
    cases arguments with
    | nil => exact hhead
    | cons first rest =>
      cases rest with
      | nil =>
        rw [Term.tokens]
        exact (hhead.append (ih first List.mem_cons_self 4)).encloseIf _
      | cons second rest =>
        have hrest := printable_followedByComma fun t ht => ih t (List.mem_cons_of_mem first ht)
        rw [Term.tokens]
        exact (hhead.append ((ih first List.mem_cons_self 1).append hrest).enclose).encloseIf _
  | record _ hfields htype =>
    have hopen : Printable [.word "\x7b"] := .bracket (by decide)
    have hcolon : Printable [.word "\x7d", .word ":"] :=
      (Printable.bracket (by decide)).append (.operator (by decide))
    rw [Term.tokens]
    have hall := ((hopen.append (printable_recordTokens hfields)).append (hcolon.append (htype.printable false))).enclose
    simpa using hall
  | concat _ _ ihleft ihright =>
    have hoperator : Printable [.word "^"] := .operator (by decide)
    rw [Term.tokens]
    exact ((ihleft 3).append (hoperator.append (ihright 2))).encloseIf _
  | @element array index harray =>
    have hname := Path.isWord (Path.isPart_of_mem harray.modules (isPart_of_isLowName harray.name))
    rw [Path.text_local] at hname
    exact ⟨.index hname ((lexable_number index).append (Lexer.lexable_mark (by decide))), rfl⟩
  | differs _ _ ihleft ihright =>
    have hoperator : Printable [.word "<>"] := .operator (by decide)
    rw [Term.tokens]
    exact ((ihleft 2).append (hoperator.append (ihright 2))).encloseIf _

/-! ## Arms -/

theorem Pattern.IsAtom.printable {pattern : Pattern} (h : pattern.IsAtom) (inner : Bool) :
    Printable (pattern.tokens inner) := by
  cases h with
  | bind hname => exact .ofName hname
  | text s => exact ⟨Lexer.lexable_literal s, rfl⟩
  | any => exact .keyword (by decide)
  | constant hconstructor => exact .word hconstructor.lexable
  | emptyArray => exact .bracket (by decide)

theorem Pattern.IsSimple.printable {pattern : Pattern} (h : pattern.IsSimple) : Printable (pattern.tokens false) := by
  cases h with
  | atom hatom => exact hatom.printable false
  | construct hconstructor hargument => exact (Printable.word hconstructor.lexable).append (hargument.printable true)
  | raised hexception hname =>
    exact (Printable.keyword (w := "exception") (by decide)).append
      ((Printable.word hexception.lexable).append (.ofName hname))

theorem Pattern.Readable.printable {pattern : Pattern} (h : pattern.Readable) : Printable (pattern.tokens false) := by
  induction h with
  | simple hsimple => exact hsimple.printable
  | either _ hright ih => exact ih.append ((Printable.operator (w := "|") (by decide)).append hright.printable)

theorem Clause.Readable.printable {clause : Clause} (h : clause.Readable) : Printable clause.tokens := by
  have hbar : Printable [.word "|"] := .operator (by decide)
  have harrow : Printable [.word "->"] := .operator (by decide)
  have hwhen : Printable [.word "when"] := .keyword (by decide)
  obtain ⟨pattern, guard⟩ := clause
  have hpattern := hbar.append h.pattern.printable
  cases guard with
  | none => exact (hpattern.append .nil).append harrow
  | some guard => exact (hpattern.append (hwhen.append ((h.guard guard rfl).printable 0))).append harrow

/-! ## Lines -/

structure Line.IsSource (line : Line) : Prop where
  lexable : Lexable line.tokens
  nonempty : line.tokens ≠ []

/-- Lines that can be formatted, with parentheses that balance over all of them. -/
structure IsBlock (lines : List Line) : Prop where
  each : ∀ line ∈ lines, line.IsSource
  balanced : Balanced (tokensOf lines)

namespace IsBlock

variable {lines lines' : List Line}

theorem nil : IsBlock [] := ⟨nofun, rfl⟩

theorem append (h : IsBlock lines) (h' : IsBlock lines') : IsBlock (lines ++ lines') where
  each := List.forall_mem_append.mpr ⟨h.each, h'.each⟩
  balanced := by
    rw [Body.tokensOf_append]
    exact h.balanced.append h'.balanced

theorem single {depth : Nat} {tokens : List Token} (h : Printable tokens) (hne : tokens ≠ []) :
    IsBlock [⟨depth, tokens⟩] where
  each := List.forall_mem_singleton.mpr ⟨h.lexable, hne⟩
  balanced := by
    rw [tokensOf, List.flatMap_singleton]
    exact h.balanced

theorem isSource_close (h : ∀ line ∈ lines, line.IsSource) : ∀ line ∈ Line.enclose.close lines, line.IsSource := by
  induction lines with
  | nil => exact h
  | cons line rest ih =>
    rw [List.forall_mem_cons] at h
    cases rest with
    | nil =>
      refine List.forall_mem_singleton.mpr ⟨?_, by simp⟩
      exact h.1.lexable.append (Lexer.lexable_mark (by decide))
    | cons next rest => exact List.forall_mem_cons.mpr ⟨h.1, ih h.2⟩

theorem enclose (h : IsBlock lines) (hne : lines ≠ []) : IsBlock (Line.enclose lines) where
  each := by
    cases lines with
    | nil => exact absurd rfl hne
    | cons first rest =>
      have hlines := List.forall_mem_cons.mp h.each
      have hopen : Line.IsSource ⟨first.depth, .openParen :: first.tokens⟩ :=
        ⟨(Lexer.lexable_mark (.head _)).append hlines.1.lexable, List.cons_ne_nil _ _⟩
      exact isSource_close (List.forall_mem_cons.mpr ⟨hopen, hlines.2⟩)
  balanced := by
    rw [Body.tokensOf_enclose hne]
    exact h.balanced.enclose

end IsBlock

/-! ## Bodies -/

theorem Term.Readable.tokens_ne_nil {t : Term} (h : t.Readable) (level : Nat) : t.tokens level ≠ [] := by
  have hleaves := (h.getsBack level).mono (Nat.zero_le level) [.scrutinee]
    (Reader.blocks_cons (by simp [Reader.Frame.strength]) [])
  exact hleaves.ne_nil

theorem isBlock_arm {clause : Clause} (hclause : clause.Readable) {t : Term} (ht : t.Readable) (depth : Nat) :
    IsBlock [⟨depth, Body.armTokens (clause, t)⟩] :=
  .single (hclause.printable.append (ht.printable 0)) (by simp [Body.armTokens, Clause.tokens])

theorem isBlock_opening {scrutinee : Term} (h : scrutinee.Readable) (depth : Nat) :
    IsBlock [⟨depth, Body.opening scrutinee⟩] := by
  have hmatch : Printable [.word "match"] := .keyword (by decide)
  have hwith : Printable [.word "with"] := .keyword (by decide)
  exact .single ((hmatch.append (h.printable 0)).append hwith) (List.cons_ne_nil _ _)

theorem isBlock_armLines {arms : List (Clause × Body)} (hclauses : ∀ arm ∈ arms, arm.1.Readable)
    (hbodies : ∀ arm ∈ arms, arm.2.Readable ∧ ∀ depth, IsBlock (arm.2.lines depth)) (depth : Nat) :
    IsBlock (Body.armLines depth arms) := by
  induction arms with
  | nil => exact .nil
  | cons arm rest ih =>
    obtain ⟨clause, body⟩ := arm
    rw [List.forall_mem_cons] at hclauses hbodies
    have hrest := ih hclauses.2 hbodies.2
    have hclause : IsBlock [⟨depth, clause.tokens⟩] := .single hclauses.1.printable (by simp [Clause.tokens])
    have henclosed : IsBlock (Line.enclose (body.lines (depth + 1))) :=
      (hbodies.1.2 (depth + 1)).enclose (Body.lines_ne_nil _ _)
    cases hbodies.1.1 with
    | value ht => exact (isBlock_arm hclauses.1 ht depth).append hrest
    | choose => exact (hclause.append henclosed).append hrest
    | proceed => exact (hclause.append henclosed).append hrest

theorem Body.Readable.isBlock {body : Body} (h : body.Readable) (depth : Nat) : IsBlock (body.lines depth) := by
  induction h generalizing depth with
  | value ht => exact .single (ht.printable 0) (ht.tokens_ne_nil 0)
  | choose hscrutinee _ hclauses hbodies ih =>
    exact (isBlock_opening hscrutinee depth).append
      (isBlock_armLines hclauses (fun arm harm => ⟨hbodies arm harm, ih arm harm⟩) depth)
  | @proceed scrutinee failures name next hscrutinee hfailures hname _ ih =>
    have hclause : Clause.Readable ⟨.bind name, none⟩ := ⟨.simple (.atom (.bind hname)), nofun⟩
    have hfailures' : IsBlock (failures.map fun arm => ⟨depth, armTokens arm⟩) := by
      clear hscrutinee
      induction failures with
      | nil => exact .nil
      | cons arm rest ihrest =>
        rw [List.forall_mem_cons] at hfailures
        exact (isBlock_arm hfailures.1.1 hfailures.1.2 depth).append (ihrest hfailures.2)
    have hlast : IsBlock [⟨depth, Clause.tokens ⟨.bind name, none⟩⟩] :=
      .single hclause.printable (by simp [Clause.tokens])
    exact ((isBlock_opening hscrutinee depth).append hfailures').append (hlast.append (ih depth))

/-! ## Functions -/

theorem Function.Readable.isBlock {function : Function} (h : function.Readable) {keyword : List Token}
    (hkeyword : Printable keyword) : IsBlock (function.lines keyword) := by
  have hparameters : Printable (function.parameters.map .word) := by
    have hnames := h.parameters
    generalize function.parameters = names at hnames
    induction names with
    | nil => exact .nil
    | cons name rest ih =>
      rw [List.forall_mem_cons] at hnames
      exact (Printable.ofName hnames.1).append (ih hnames.2)
  have hequals : Printable [.word "="] := .operator (by decide)
  have hheader := hkeyword.append (((Printable.ofName h.name).append hparameters).append hequals)
  have hline : IsBlock [⟨0, keyword ++ .word function.name :: function.parameters.map .word ++ [.word "="]⟩] :=
    .single (by simpa using hheader) (by simp)
  exact hline.append (h.body.isBlock 1)

/-- Lines that make up a text, blank ones among them. -/
structure IsText (lines : List Line) : Prop where
  lexable : ∀ line ∈ lines, Lexable line.tokens
  balanced : Balanced (tokensOf lines)
  last : ∃ front last, lines = front ++ [last] ∧ last.tokens ≠ []

namespace IsText

variable {lines lines' : List Line}

theorem append (h : IsText lines) (h' : IsText lines') : IsText (lines ++ lines') where
  lexable := List.forall_mem_append.mpr ⟨h.lexable, h'.lexable⟩
  balanced := by
    rw [Body.tokensOf_append]
    exact h.balanced.append h'.balanced
  last := by
    obtain ⟨front, last, rfl, hlast⟩ := h'.last
    exact ⟨lines ++ front, last, (List.append_assoc _ _ _).symm, hlast⟩

theorem blank (h : IsText lines) : IsText (Line.blank :: lines) where
  lexable := List.forall_mem_cons.mpr ⟨.nil, h.lexable⟩
  balanced := h.balanced
  last := by
    obtain ⟨front, last, rfl, hlast⟩ := h.last
    exact ⟨Line.blank :: front, last, rfl, hlast⟩

end IsText

theorem IsBlock.isText {lines : List Line} (h : IsBlock lines) (hne : lines ≠ []) : IsText lines where
  lexable line hline := (h.each line hline).lexable
  balanced := h.balanced
  last := ⟨lines.dropLast, lines.getLast hne, (List.dropLast_concat_getLast hne).symm,
    (h.each _ (List.getLast_mem hne)).nonempty⟩

theorem Function.Readable.isText {function : Function} (h : function.Readable) {keyword : List Token}
    (hkeyword : Printable keyword) : IsText (function.lines keyword) :=
  (h.isBlock hkeyword).isText (List.cons_ne_nil _ _)

theorem IsText.following {lines : List Line} (hlines : IsText lines) {keyword : List Token} (hkeyword : Printable keyword)
    {functions : List Function} (h : ∀ function ∈ functions, function.Readable) :
    IsText (lines ++ functions.flatMap fun function => Line.blank :: function.lines keyword) := by
  induction functions generalizing lines with
  | nil =>
    rw [List.flatMap_nil, List.append_nil]
    exact hlines
  | cons function rest ih =>
    rw [List.forall_mem_cons] at h
    rw [List.flatMap_cons, ← List.append_assoc]
    exact ih (hlines.append (h.1.isText hkeyword).blank) h.2

theorem isText_functionLines {group : DefinitionGroup Function} (hne : group.items ≠ [])
    (h : ∀ function ∈ group.items, function.Readable) : IsText group.functionLines := by
  obtain ⟨recursive, items⟩ := group
  obtain ⟨first, rest, rfl⟩ := List.exists_cons_of_ne_nil hne
  rw [List.forall_mem_cons] at h
  have hlet : Printable [.word "let"] := .keyword (by decide)
  have hrec : Printable [.word "rec"] := .keyword (by decide)
  have hand : Printable [.word "and"] := .keyword (by decide)
  cases recursive with
  | true => exact (h.1.isText (hlet.append hrec)).following hand h.2
  | false => exact (h.1.isText hlet).following hlet h.2

/-- The reader gets a group of readable functions back from its text, in which parentheses balance. -/
theorem read_functionLines {group : DefinitionGroup Function} (hne : group.items ≠ [])
    (h : ∀ function ∈ group.items, function.Readable) :
    ∃ tokens, lex (source group.functionLines).toList = some tokens ∧ Balanced tokens ∧
      readTokens tokens = some group.definitions := by
  have htext := isText_functionLines hne h
  obtain ⟨front, last, hlines, hlast⟩ := htext.last
  have hlexable := htext.lexable
  rw [hlines] at hlexable
  have hlex := lex_source hlexable hlast
  rw [← hlines] at hlex
  exact ⟨_, hlex, htext.balanced, readTokens_functionLines hne h⟩

end TypeScribe.Ocaml
