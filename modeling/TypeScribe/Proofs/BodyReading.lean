import Mathlib.Data.List.Forall2
import TypeScribe.Proofs.TermReading

/-!
# Reading functions back

`Body.expr` is what a body is meant to be read as. `Body.Readable.leaves` says that the reader gets it from the lines of
the body: an arm that is a match of its own stands in parentheses, so that the next arm belongs to the match around it.
-/

namespace TypeScribe.Ocaml
open Reader

/-! ## Patterns -/

inductive Pattern.IsAtom : Pattern → Prop where
  | bind {name : String} : Path.IsName ⟨[], name⟩ → IsAtom (.bind name)
  | text (s : String) : IsAtom (.text s)
  | any : IsAtom .any
  | constant {constructor : Path} : constructor.IsConstructor → IsAtom (.constant constructor)
  | emptyArray : IsAtom .emptyArray

/-- A pattern without alternatives and without parentheses. -/
inductive Pattern.IsSimple : Pattern → Prop where
  | atom {pattern : Pattern} : pattern.IsAtom → IsSimple pattern
  | construct {constructor : Path} {argument : Pattern} :
    constructor.IsConstructor → argument.IsAtom → IsSimple (.construct constructor argument)
  | raised {exception : Path} {name : String} :
    exception.IsConstructor → Path.IsName ⟨[], name⟩ → IsSimple (.raised exception name)

/-- A pattern that the reader knows. -/
inductive Pattern.Readable : Pattern → Prop where
  | simple {pattern : Pattern} : pattern.IsSimple → Readable pattern
  | either {left right : Pattern} : Readable left → right.IsSimple → Readable (.either left right)

/-- The tokens mean the lexemes. -/
abbrev Spells (tokens : List Token) (lexemes : List Lexeme) : Prop :=
  List.Forall₂ (fun token lexeme => token.lexeme? = some lexeme) tokens lexemes

theorem Pattern.IsAtom.spells {pattern : Pattern} (h : pattern.IsAtom) (inner : Bool) :
    ∃ lexeme, Spells (pattern.tokens inner) [lexeme] ∧ atomPattern? lexeme = some pattern := by
  cases h with
  | bind hname =>
    exact ⟨_, .cons hname.ofWord_local .nil, rfl⟩
  | text s => exact ⟨_, .cons rfl .nil, rfl⟩
  | any => exact ⟨.wildcard, .cons rfl .nil, rfl⟩
  | constant hconstructor => exact ⟨_, .cons hconstructor.ofWord .nil, rfl⟩
  | emptyArray => exact ⟨.emptyArray, .cons rfl .nil, rfl⟩

/-- The lexeme may stand inside a pattern without alternatives. -/
def Lexeme.IsInner (lexeme : Lexeme) : Prop := lexeme ≠ .bar ∧ lexeme ≠ .arrow ∧ lexeme ≠ .whenWord

theorem isInner_of_atomPattern? {lexeme : Lexeme} {pattern : Pattern} (h : atomPattern? lexeme = some pattern) :
    lexeme.IsInner := by
  refine ⟨?_, ?_, ?_⟩ <;> rintro rfl <;> cases h

theorem Pattern.IsSimple.spells {pattern : Pattern} (h : pattern.IsSimple) :
    ∃ lexemes, Spells (pattern.tokens false) lexemes ∧ simplePattern? lexemes = some pattern ∧
      ∀ lexeme ∈ lexemes, lexeme.IsInner := by
  cases h with
  | atom hatom =>
    obtain ⟨lexeme, hspells, hpattern⟩ := hatom.spells false
    exact ⟨[lexeme], hspells, hpattern, List.forall_mem_singleton.mpr (isInner_of_atomPattern? hpattern)⟩
  | @construct constructor argument hconstructor hargument =>
    obtain ⟨lexeme, hspells, hpattern⟩ := hargument.spells true
    refine ⟨[.constructor constructor, lexeme], .cons hconstructor.ofWord hspells, ?_, ?_⟩
    · show (atomPattern? lexeme).map _ = _
      rw [hpattern]
      rfl
    · refine List.forall_mem_cons.mpr ⟨?_, List.forall_mem_singleton.mpr (isInner_of_atomPattern? hpattern)⟩
      refine ⟨?_, ?_, ?_⟩ <;> exact nofun
  | @raised exception name hexception hname =>
    refine ⟨[.exceptionWord, .constructor exception, .name ⟨[], name⟩],
      .cons rfl (.cons hexception.ofWord (.cons hname.ofWord_local .nil)), rfl, ?_⟩
    intro lexeme hlexeme
    simp only [List.mem_cons, List.not_mem_nil, or_false] at hlexeme
    rcases hlexeme with rfl | rfl | rfl
    all_goals refine ⟨?_, ?_, ?_⟩ <;> exact nofun

theorem pattern?_eq_some {lexemes : List Lexeme} {pattern : Pattern} :
    pattern? lexemes = some pattern ↔
      ∃ first rest, (lexemes.splitOn .bar).mapM simplePattern? = some (first :: rest) ∧
        rest.foldl .either first = pattern := by
  unfold pattern?
  cases (lexemes.splitOn .bar).mapM simplePattern? with
  | none => simp
  | some patterns =>
    cases patterns with
    | nil => simp
    | cons first rest =>
      constructor
      · intro h
        exact ⟨first, rest, rfl, Option.some.inj h⟩
      · rintro ⟨_, _, hpatterns, rfl⟩
        cases hpatterns
        rfl

theorem Pattern.Readable.spells {pattern : Pattern} (h : pattern.Readable) :
    ∃ lexemes, Spells (pattern.tokens false) lexemes ∧ pattern? lexemes = some pattern ∧
      ∀ lexeme ∈ lexemes, lexeme ≠ .arrow ∧ lexeme ≠ .whenWord := by
  induction h with
  | simple hsimple =>
    obtain ⟨lexemes, hspells, hpattern, hinner⟩ := hsimple.spells
    refine ⟨lexemes, hspells, pattern?_eq_some.mpr ⟨_, [], ?_, rfl⟩, fun lexeme hlexeme => (hinner lexeme hlexeme).2⟩
    rw [List.splitOn_eq_singleton fun hbar => (hinner _ hbar).1 rfl, List.mapM_cons, hpattern]
    rfl
  | @either left right _ hright ih =>
    obtain ⟨lexemes, hspells, hpattern, hinner⟩ := ih
    obtain ⟨first, rest, hpatterns, hfold⟩ := pattern?_eq_some.mp hpattern
    obtain ⟨lexemes', hspells', hpattern', hinner'⟩ := hright.spells
    refine ⟨lexemes ++ .bar :: lexemes', ?_, pattern?_eq_some.mpr ⟨first, rest ++ [right], ?_, ?_⟩, ?_⟩
    · exact List.rel_append hspells (.cons rfl hspells')
    · rw [List.splitOn_append_cons_self, List.splitOn_eq_singleton fun hbar => (hinner' _ hbar).1 rfl, List.mapM_append,
        hpatterns, List.mapM_cons, hpattern']
      rfl
    · rw [List.foldl_append, hfold]
      rfl
    · intro lexeme hlexeme
      rcases List.mem_append.mp hlexeme with hlexeme | hlexeme
      · exact hinner lexeme hlexeme
      · rcases List.mem_cons.mp hlexeme with rfl | hlexeme
        · exact ⟨nofun, nofun⟩
        · exact (hinner' lexeme hlexeme).2

/-! ## Arms -/

structure Clause.Readable (clause : Clause) : Prop where
  pattern : clause.pattern.Readable
  guard : ∀ guard ∈ clause.guard, guard.Readable

def Clause.arm (clause : Clause) (result : Expr) : Pattern × Option Expr × Expr :=
  (clause.pattern, clause.guard.map Term.expr, result)

def Clause.frame (clause : Clause) (choice : Choice) : Frame :=
  .branch choice clause.pattern (clause.guard.map Term.expr)

/-- Another arm of the match may begin. -/
def Awaits (stack : List Frame) (choice : Choice) (s : State) : Prop :=
  s.read .bar = some (.pattern stack choice [])

theorem reads_pattern {tokens : List Token} {lexemes : List Lexeme} (hspells : Spells tokens lexemes)
    (hinner : ∀ lexeme ∈ lexemes, lexeme ≠ .arrow ∧ lexeme ≠ .whenWord) (stack : List Frame) (choice : Choice)
    (front : List Lexeme) :
    Reads (.pattern stack choice front) tokens (.pattern stack choice (front ++ lexemes)) := by
  induction hspells generalizing front with
  | nil =>
    rw [List.append_nil]
    exact .nil _
  | @cons token lexeme tokens lexemes htoken _ ih =>
    rw [List.forall_mem_cons] at hinner
    have hread : State.read (.pattern stack choice front) lexeme = some (.pattern stack choice (front ++ [lexeme])) := by
      cases lexeme with
      | arrow => exact absurd rfl hinner.1.1
      | whenWord => exact absurd rfl hinner.1.2
      | _ => rfl
    have hrest := ih hinner.2 (front ++ [lexeme])
    rw [List.append_assoc] at hrest
    exact .cons htoken hread hrest

theorem Clause.Readable.reads {clause : Clause} (h : clause.Readable) {stack : List Frame} {choice : Choice} {s : State}
    (hs : Awaits stack choice s) : Reads s clause.tokens (.operand (clause.frame choice :: stack) []) := by
  obtain ⟨lexemes, hspells, hpattern, hinner⟩ := h.pattern.spells
  have hbar : Reads s ([.word "|"] ++ clause.pattern.tokens false) (.pattern stack choice lexemes) :=
    .cons rfl hs (reads_pattern hspells hinner stack choice [])
  obtain ⟨pattern, guard⟩ := clause
  cases guard with
  | none =>
    have harrow : State.read (.pattern stack choice lexemes) .arrow =
        some (.operand (.branch choice pattern none :: stack) []) := by
      show (pattern? lexemes).map _ = _
      rw [hpattern]
      rfl
    have hall := hbar.append (.single (rfl : (Token.word "->").lexeme? = some .arrow) harrow)
    simpa [Clause.tokens, Clause.frame] using hall
  | some guard =>
    have hwhen : State.read (.pattern stack choice lexemes) .whenWord =
        some (.operand (.guard choice pattern :: stack) []) := by
      show (pattern? lexemes).map _ = _
      rw [hpattern]
      rfl
    have hguard : Reads (.operand (.guard choice pattern :: stack) []) (guard.tokens 0 ++ [.word "->"])
        (.operand (.branch choice pattern (some guard.expr) :: stack) []) :=
      ((h.guard guard rfl).getsBack 0 _ (blocks_cons (by simp [Frame.strength]) stack)).ended rfl (fun _ _ => rfl)
        (by decide) rfl
    have hall := hbar.append (.cons (rfl : (Token.word "when").lexeme? = some .whenWord) hwhen hguard)
    simpa [Clause.tokens, Clause.frame] using hall

/-- At least one arm of the match has been read, up to where its result may end. -/
def AfterArm (stack : List Frame) (choice : Choice) (s : State) : Prop :=
  ∃ stack' atoms before pattern guard e, s = .operand stack' atoms ∧ choice = before.add pattern guard e ∧
    ∀ n, 2 ≤ n → close n stack' atoms = some (settle n (.branch before pattern guard :: stack) e)

theorem AfterArm.awaits {stack : List Frame} {choice : Choice} {s : State} (h : AfterArm stack choice s) :
    Awaits stack choice s := by
  obtain ⟨stack', atoms, before, pattern, guard, e, rfl, rfl, hclose⟩ := h
  show (close 2 stack' atoms).bind _ = _
  rw [hclose 2 (Nat.le_refl 2)]
  rfl

theorem AfterArm.leaves {stack : List Frame} {choice : Choice} {s : State} (h : AfterArm stack choice s)
    {tokens : List Token} (hreads : Reads (.operand stack []) tokens s) :
    Leaves 3 stack tokens (.choice choice.scrutinee choice.arms) := by
  obtain ⟨stack', atoms, before, pattern, guard, e, rfl, rfl, hclose⟩ := h
  refine ⟨stack', atoms, hreads, fun n hn => ?_⟩
  rw [hclose n (Nat.le_of_succ_le hn), settle_cons hn]
  rfl

theorem Clause.Readable.afterArm {clause : Clause} (h : clause.Readable) {stack : List Frame} {choice : Choice}
    {s : State} (hs : Awaits stack choice s) {tokens : List Token} {e : Expr}
    (hresult : Leaves 2 (clause.frame choice :: stack) tokens e) :
    ∃ s', Reads s (clause.tokens ++ tokens) s' ∧
      AfterArm stack ⟨choice.scrutinee, choice.arms ++ [clause.arm e]⟩ s' := by
  obtain ⟨stack', atoms, hreads, hclose⟩ := hresult
  exact ⟨_, (h.reads hs).append hreads, stack', atoms, choice, clause.pattern, _, e, rfl, rfl, hclose⟩

/-! ## Bodies -/

namespace Body

mutual

def expr : Body → Expr
  | .value t => t.expr
  | .choose scrutinee arms => .choice scrutinee.expr (armExprs arms)
  | .proceed scrutinee failures name next =>
    .choice scrutinee.expr (failures.map (fun arm => arm.1.arm arm.2.expr) ++ [(.bind name, none, next.expr)])

def armExprs : List (Clause × Body) → List (Pattern × Option Expr × Expr)
  | [] => []
  | (clause, body) :: rest => clause.arm body.expr :: armExprs rest

end

inductive Readable : Body → Prop where
  | value {t : Term} : t.Readable → Readable (.value t)
  | choose {scrutinee : Term} {arms : List (Clause × Body)} :
    scrutinee.Readable → arms ≠ [] → (∀ arm ∈ arms, arm.1.Readable) → (∀ arm ∈ arms, Readable arm.2) →
      Readable (.choose scrutinee arms)
  | proceed {scrutinee : Term} {failures : List (Clause × Term)} {name : String} {next : Body} :
    scrutinee.Readable → (∀ arm ∈ failures, arm.1.Readable ∧ arm.2.Readable) → Path.IsName ⟨[], name⟩ →
      Readable next → Readable (.proceed scrutinee failures name next)

/-! ## Lines -/

open Lexer (tokensOf)

def resultTokens (depth : Nat) : Body → List Token
  | .value t => t.tokens 0
  | body => Token.enclose (tokensOf (body.lines (depth + 1)))

theorem tokensOf_append (lines lines' : List Line) : tokensOf (lines ++ lines') = tokensOf lines ++ tokensOf lines' :=
  List.flatMap_append

theorem tokensOf_close {lines : List Line} (h : lines ≠ []) :
    tokensOf (Line.enclose.close lines) = tokensOf lines ++ [.closeParen] := by
  induction lines with
  | nil => exact absurd rfl h
  | cons line rest ih =>
    cases rest with
    | nil => simp [Line.enclose.close, tokensOf]
    | cons next rest =>
      show line.tokens ++ tokensOf (Line.enclose.close (next :: rest)) = _
      rw [ih (List.cons_ne_nil _ _), ← List.append_assoc]
      rfl

theorem tokensOf_enclose {lines : List Line} (h : lines ≠ []) :
    tokensOf (Line.enclose lines) = Token.enclose (tokensOf lines) := by
  cases lines with
  | nil => exact absurd rfl h
  | cons first rest => exact tokensOf_close (List.cons_ne_nil _ _)

theorem lines_ne_nil (depth : Nat) (body : Body) : body.lines depth ≠ [] := by
  cases body <;> exact List.cons_ne_nil _ _

theorem tokensOf_armLines (depth : Nat) (clause : Clause) (body : Body) (rest : List (Clause × Body)) :
    tokensOf (armLines depth ((clause, body) :: rest)) =
      clause.tokens ++ body.resultTokens depth ++ tokensOf (armLines depth rest) := by
  cases body with
  | value t => rfl
  | choose scrutinee arms =>
    show clause.tokens ++ tokensOf (Line.enclose _ ++ _) = _
    rw [tokensOf_append, tokensOf_enclose (lines_ne_nil _ _), ← List.append_assoc]
    rfl
  | proceed scrutinee failures name next =>
    show clause.tokens ++ tokensOf (Line.enclose _ ++ _) = _
    rw [tokensOf_append, tokensOf_enclose (lines_ne_nil _ _), ← List.append_assoc]
    rfl

theorem tokensOf_value (depth : Nat) (t : Term) : tokensOf ((value t).lines depth) = t.tokens 0 := List.append_nil _

theorem tokensOf_proceed (depth : Nat) (scrutinee : Term) (failures : List (Clause × Term)) (name : String)
    (next : Body) :
    tokensOf ((proceed scrutinee failures name next).lines depth) =
      opening scrutinee ++ failures.flatMap armTokens ++ Clause.tokens ⟨.bind name, none⟩ ++
        tokensOf (next.lines depth) := by
  have hfailures : tokensOf (failures.map fun arm => ⟨depth, armTokens arm⟩) = failures.flatMap armTokens := by
    rw [tokensOf, List.flatMap_map]
  show opening scrutinee ++ tokensOf (failures.map _ ++ _) = _
  rw [tokensOf_append, hfailures, List.append_assoc, List.append_assoc]
  rfl

/-! ## Reading -/

theorem reads_opening {scrutinee : Term} (h : scrutinee.Readable) (stack : List Frame) :
    Reads (.operand stack []) (opening scrutinee) (.opening stack ⟨scrutinee.expr, []⟩) := by
  have hleaves := h.getsBack 0 (.scrutinee :: stack) (blocks_cons (by simp [Frame.strength]) stack)
  exact .cons rfl rfl (hleaves.ended rfl (fun _ _ => rfl) (by decide) rfl)

/-- Whatever is open, the lines of the body leave what the body is meant to be. -/
def GetsBack (body : Body) : Prop :=
  ∀ depth stack, Blocks 1 stack → Leaves 3 stack (tokensOf (body.lines depth)) body.expr

theorem leaves_result {body : Body} (h : body.Readable) (hgets : body.GetsBack) (depth : Nat) (clause : Clause)
    (choice : Choice) (stack : List Frame) :
    Leaves 2 (clause.frame choice :: stack) (body.resultTokens depth) body.expr := by
  have hblocks : Blocks 1 (clause.frame choice :: stack) := blocks_cons (by simp [Clause.frame, Frame.strength]) stack
  have henclosed : ReadsAt 0 (Token.enclose (tokensOf (body.lines (depth + 1)))) body.expr :=
    .of_atom (fun stack atoms => reads_enclose (Nat.le_refl 3) stack atoms
      (hgets (depth + 1) _ (blocks_cons (by simp [Frame.strength]) stack))) 0
  cases h with
  | value ht => exact ht.getsBack 0 _ hblocks
  | choose => exact henclosed _ hblocks
  | proceed => exact henclosed _ hblocks

/-- Arms are read one after the other, each as an arm of the same match. -/
theorem reads_arms {arms : List (Clause × Body)} (hclauses : ∀ arm ∈ arms, arm.1.Readable)
    (hbodies : ∀ arm ∈ arms, Readable arm.2 ∧ arm.2.GetsBack) (hne : arms ≠ []) (depth : Nat) {stack : List Frame}
    {choice : Choice} {s : State} (hs : Awaits stack choice s) :
    ∃ s', Reads s (tokensOf (armLines depth arms)) s' ∧
      AfterArm stack ⟨choice.scrutinee, choice.arms ++ armExprs arms⟩ s' := by
  induction arms generalizing choice s with
  | nil => exact absurd rfl hne
  | cons arm rest ih =>
    obtain ⟨clause, body⟩ := arm
    rw [List.forall_mem_cons] at hclauses hbodies
    obtain ⟨s', hreads, hafter⟩ :=
      hclauses.1.afterArm hs (leaves_result hbodies.1.1 hbodies.1.2 depth clause choice stack)
    rw [tokensOf_armLines]
    cases rest with
    | nil =>
      exact ⟨s', hreads.append (.nil s'), hafter⟩
    | cons next rest =>
      obtain ⟨s'', hreads', hafter'⟩ := ih hclauses.2 hbodies.2 (List.cons_ne_nil _ _) hafter.awaits
      refine ⟨s'', hreads.append hreads', ?_⟩
      rw [List.append_assoc] at hafter'
      exact hafter'

theorem reads_failures {failures : List (Clause × Term)} (h : ∀ arm ∈ failures, arm.1.Readable ∧ arm.2.Readable)
    {stack : List Frame} {choice : Choice} {s : State} (hs : Awaits stack choice s) :
    ∃ s', Reads s (failures.flatMap armTokens) s' ∧
      Awaits stack ⟨choice.scrutinee, choice.arms ++ failures.map fun arm => arm.1.arm arm.2.expr⟩ s' := by
  induction failures generalizing choice s with
  | nil =>
    refine ⟨s, .nil s, ?_⟩
    rw [List.map_nil, List.append_nil]
    exact hs
  | cons arm rest ih =>
    obtain ⟨clause, t⟩ := arm
    rw [List.forall_mem_cons] at h
    have hblocks : Blocks 1 (clause.frame choice :: stack) := blocks_cons (by simp [Clause.frame, Frame.strength]) stack
    obtain ⟨s', hreads, hafter⟩ := h.1.1.afterArm hs (h.1.2.getsBack 0 _ hblocks)
    obtain ⟨s'', hreads', hawaits⟩ := ih h.2 hafter.awaits
    refine ⟨s'', hreads.append hreads', ?_⟩
    rw [List.append_assoc] at hawaits
    exact hawaits

theorem Readable.getsBack {body : Body} (h : body.Readable) : body.GetsBack := by
  induction h with
  | value ht =>
    intro depth stack hstack
    rw [tokensOf_value]
    exact (ht.getsBack 0 stack hstack).mono (Nat.le_succ 2)
  | @choose scrutinee arms hscrutinee hne hclauses hbodies ih =>
    intro depth stack _
    have hs : Awaits stack ⟨scrutinee.expr, []⟩ (.opening stack ⟨scrutinee.expr, []⟩) := rfl
    obtain ⟨s, hreads, hafter⟩ :=
      reads_arms hclauses (fun arm harm => ⟨hbodies arm harm, ih arm harm⟩) hne depth hs
    exact hafter.leaves ((reads_opening hscrutinee stack).append hreads)
  | @proceed scrutinee failures name next hscrutinee hfailures hname _ ih =>
    intro depth stack _
    have hs : Awaits stack ⟨scrutinee.expr, []⟩ (.opening stack ⟨scrutinee.expr, []⟩) := rfl
    obtain ⟨s, hreads, hawaits⟩ := reads_failures hfailures hs
    have hclause : Clause.Readable ⟨.bind name, none⟩ := ⟨.simple (.atom (.bind hname)), nofun⟩
    have hopening := ((reads_opening hscrutinee stack).append hreads).append (hclause.reads hawaits)
    rw [tokensOf_proceed]
    exact .around hopening (Nat.le_refl 3) (ih depth _ (blocks_cons (by simp [Clause.frame, Frame.strength]) stack))

end Body

/-! ## Functions -/

structure Function.Readable (function : Function) : Prop where
  name : Path.IsName ⟨[], function.name⟩
  parameters : ∀ parameter ∈ function.parameters, Path.IsName ⟨[], parameter⟩
  body : function.body.Readable

def Function.definition (function : Function) : Definition :=
  { name := function.name, parameters := function.parameters, body := function.body.expr }

/-- What a group of functions is read as: functions that are not recursive stand alone. -/
def DefinitionGroup.definitions (group : DefinitionGroup Function) : List (DefinitionGroup Definition) :=
  if group.recursive then [⟨true, group.items.map Function.definition⟩]
  else group.items.map fun function => ⟨false, [function.definition]⟩

/-- The outline after a definition has been read. -/
def AfterDefinition (outline : Outline) (s : State) : Prop :=
  ∃ stack atoms before definition, s = .operand stack atoms ∧ outline = Outline.add before definition ∧
    close 3 stack atoms = some ([.definition before definition.name definition.parameters], definition.body)

namespace AfterDefinition

variable {outline : Outline} {s : State}

theorem read_let (h : AfterDefinition outline s) : s.read .letWord = some (.letting outline.groups) := by
  obtain ⟨stack, atoms, before, definition, rfl, rfl, hclose⟩ := h
  show (close 3 stack atoms).bind _ = _
  rw [hclose]
  rfl

theorem read_and (h : AfterDefinition outline s) : s.read .andWord = some (.naming outline) := by
  obtain ⟨stack, atoms, before, definition, rfl, rfl, hclose⟩ := h
  show (close 3 stack atoms).bind _ = _
  rw [hclose]
  rfl

theorem finish (h : AfterDefinition outline s) : s.finish = some outline.groups := by
  obtain ⟨stack, atoms, before, definition, rfl, rfl, hclose⟩ := h
  show (close 3 stack atoms).bind _ = _
  rw [hclose]
  rfl

end AfterDefinition

theorem reads_parameters {names : List String} (h : ∀ name ∈ names, Path.IsName ⟨[], name⟩) (outline : Outline)
    (function : String) (before : List String) :
    Reads (.parameters outline function before) (names.map .word) (.parameters outline function (before ++ names)) := by
  induction names generalizing before with
  | nil =>
    rw [List.append_nil]
    exact .nil _
  | cons name rest ih =>
    rw [List.forall_mem_cons] at h
    have hname := h.1.ofWord_local
    have hrest := ih h.2 (before ++ [name])
    rw [List.append_assoc] at hrest
    exact .cons hname rfl hrest

theorem Function.Readable.reads {function : Function} (h : function.Readable) {keyword : List Token}
    {outline : Outline} {s : State}
    (hname : Reads s (keyword ++ [.word function.name]) (.parameters outline function.name [])) :
    ∃ s', Reads s (Lexer.tokensOf (function.lines keyword)) s' ∧
      AfterDefinition (outline.add function.definition) s' := by
  have hparameters := reads_parameters h.parameters outline function.name []
  have hequals : Reads (.parameters outline function.name function.parameters) [.word "="]
      (.operand [.definition outline function.name function.parameters] []) := .single rfl rfl
  have hheader := (hname.append hparameters).append hequals
  obtain ⟨stack, atoms, hreads, hclose⟩ :=
    h.body.getsBack 1 [.definition outline function.name function.parameters] (blocks_cons (by simp [Frame.strength]) [])
  refine ⟨_, ?_, stack, atoms, outline, function.definition, rfl, rfl, hclose 3 (Nat.le_refl 3)⟩
  have hall := hheader.append hreads
  simpa [Function.lines, Lexer.tokensOf] using hall

/-! ## Groups -/

/-- The outline after one more function, which joins a recursive group and stands alone otherwise. -/
def Reader.Outline.follow (outline : Outline) (function : Function) : Outline :=
  if outline.recursive then outline.add function.definition
  else Outline.add ⟨outline.groups, false, []⟩ function.definition

theorem Reader.Outline.recursive_follow (outline : Outline) (function : Function) :
    (outline.follow function).recursive = outline.recursive := by
  unfold follow
  split
  · rfl
  · next h => exact (Bool.eq_false_iff.mpr h).symm

def followingKeyword (recursive : Bool) : List Token := if recursive then [.word "and"] else [.word "let"]

theorem AfterDefinition.reads_follow {outline : Outline} {s : State} (hs : AfterDefinition outline s)
    {function : Function} (h : function.Readable) :
    ∃ s', Reads s (Lexer.tokensOf (Line.blank :: function.lines (followingKeyword outline.recursive))) s' ∧
      AfterDefinition (outline.follow function) s' := by
  have hname := h.name.ofWord_local
  unfold followingKeyword Outline.follow
  split
  · exact h.reads (.cons rfl hs.read_and (.single hname rfl))
  · exact h.reads (.cons rfl hs.read_let (.single hname rfl))

theorem AfterDefinition.reads_following {functions : List Function} (h : ∀ function ∈ functions, function.Readable)
    {outline : Outline} {s : State} (hs : AfterDefinition outline s) :
    ∃ s', Reads s (Lexer.tokensOf (functions.flatMap fun function =>
      Line.blank :: function.lines (followingKeyword outline.recursive))) s' ∧
        AfterDefinition (functions.foldl Outline.follow outline) s' := by
  induction functions generalizing outline s with
  | nil => exact ⟨s, .nil s, hs⟩
  | cons function rest ih =>
    rw [List.forall_mem_cons] at h
    obtain ⟨s', hreads, hafter⟩ := hs.reads_follow h.1
    obtain ⟨s'', hreads', hafter'⟩ := ih h.2 hafter
    rw [Outline.recursive_follow] at hreads'
    refine ⟨s'', ?_, hafter'⟩
    rw [List.flatMap_cons, Body.tokensOf_append]
    exact hreads.append hreads'

theorem groups_foldl_follow (functions : List Function) (outline : Outline) :
    (functions.foldl Outline.follow outline).groups =
      if outline.recursive then
        outline.done ++ [⟨true, outline.before ++ functions.map Function.definition⟩]
      else outline.groups ++ functions.map fun function => ⟨false, [function.definition]⟩ := by
  induction functions generalizing outline with
  | nil =>
    split
    · next h => simp [Outline.groups, h]
    · simp
  | cons function rest ih =>
    rw [List.foldl_cons, ih, Outline.recursive_follow]
    split
    · next h => simp [Outline.follow, Outline.add, h]
    · next h => simp [Outline.follow, Outline.add, Outline.groups, h]

/-- The reader gets a group of functions back from its lines. -/
theorem readTokens_functionLines {group : DefinitionGroup Function} (hne : group.items ≠ [])
    (h : ∀ function ∈ group.items, function.Readable) :
    readTokens (Lexer.tokensOf group.functionLines) = some group.definitions := by
  obtain ⟨recursive, items⟩ := group
  obtain ⟨first, rest, rfl⟩ := List.exists_cons_of_ne_nil hne
  rw [List.forall_mem_cons] at h
  have hname := h.1.name.ofWord_local
  have hopening : Reads .start ((if recursive then [.word "let", .word "rec"] else [.word "let"]) ++ [.word first.name])
      (.parameters ⟨[], recursive, []⟩ first.name []) := by
    cases recursive with
    | true => exact .cons rfl rfl (.cons rfl rfl (.single hname rfl))
    | false => exact .cons rfl rfl (.single hname rfl)
  obtain ⟨s, hreads, hafter⟩ := h.1.reads hopening
  obtain ⟨s', hreads', hafter'⟩ := hafter.reads_following h.2
  have hall : Reads .start (Lexer.tokensOf (DefinitionGroup.functionLines ⟨recursive, first :: rest⟩)) s' := by
    rw [DefinitionGroup.functionLines, groupLines, Body.tokensOf_append]
    exact hreads.append hreads'
  have hgroups : (rest.foldl Outline.follow (Outline.add ⟨[], recursive, []⟩ first.definition)).groups =
      DefinitionGroup.definitions ⟨recursive, first :: rest⟩ := by
    rw [groups_foldl_follow]
    cases recursive <;> rfl
  rw [readTokens, hall, Option.bind_some, hafter'.finish, hgroups]

end TypeScribe.Ocaml
