import TypeScribe.Ocaml.Token
import TypeScribe.Proofs.Lexer

/-!
# What words mean

A word of OCaml is a keyword, a symbol, a number, a type variable or a path. The last part of a path says by its first
letter whether it names a value or a type, or a constructor.
-/

namespace TypeScribe.Ocaml
open Lexer (isWordChar IsWord Lexable)

/-- The reserved words that are operators, besides the keywords. -/
def wordOperators : List String := ["asr", "land", "lor", "lsl", "lsr", "lxor", "mod"]

def isReserved (w : String) : Bool := keywords.contains w || wordOperators.contains w

/-- The text is a name of the kind that values, labels and types have. An underscore alone is none. -/
def isLowName : List Char → Bool
  | [] => false
  | c :: rest => (c.isLower || c == '_' && !rest.isEmpty) && rest.all isWordChar

def isCapitalName : List Char → Bool
  | [] => false
  | c :: rest => c.isUpper && rest.all isWordChar

/-- What a token means. -/
inductive Lexeme where
  | letWord
  | recWord
  | andWord
  | matchWord
  | withWord
  | whenWord
  | funWord
  | exceptionWord
  | arrow
  | bar
  | equals
  | caret
  | differs
  | colon
  | openBrace
  | closeBrace
  | emptyArray
  | wildcard
  | openParen
  | closeParen
  | openIndex
  | comma
  | semicolon
  | name (path : Path)
  | constructor (path : Path)
  | variable (name : String)
  | number (n : Nat)
  | text (s : String)
deriving DecidableEq, Repr

namespace Lexeme

def symbols : List (String × Lexeme) := [
  ("let", .letWord), ("rec", .recWord), ("and", .andWord), ("match", .matchWord), ("with", .withWord),
  ("when", .whenWord), ("fun", .funWord), ("exception", .exceptionWord), ("->", .arrow), ("|", .bar),
  ("=", .equals), ("^", .caret), ("<>", .differs), (":", .colon), ("\x7b", .openBrace), ("\x7d", .closeBrace),
  ("[||]", .emptyArray), ("_", .wildcard)]

/-- A type variable, without its quote. A quote inside it could end a character literal. -/
def ofVariable (name : List Char) : Option Lexeme :=
  if (isLowName name || isCapitalName name) && !name.contains '\'' && !isReserved (String.ofList name) then
    some (.variable (String.ofList name))
  else none

def ofParts (modules : List (List Char)) (name : List Char) : Option Lexeme :=
  let path : Path := ⟨modules.map String.ofList, String.ofList name⟩
  if !modules.all isCapitalName || isReserved path.name then none
  else if isLowName name then some (.name path)
  else if isCapitalName name then some (.constructor path)
  else none

def ofChars : List Char → Option Lexeme
  | [] => none
  | c :: cs =>
    if c = '\'' then ofVariable cs
    else if (c :: cs).all Char.isDigit then some (.number (Nat.ofDigitChars 10 (c :: cs) 0))
    else
      let parts := (c :: cs).splitOn '.'
      ofParts parts.dropLast (parts.getLastD [])

def ofWord (w : String) : Option Lexeme :=
  (symbols.lookup w).or (ofChars w.toList)

end Lexeme

def Token.lexeme? : Token → Option Lexeme
  | .word w => Lexeme.ofWord w
  | .literal s => some (.text s)
  | .openParen => some .openParen
  | .closeParen => some .closeParen
  | .openIndex => some .openIndex
  | .comma => some .comma
  | .semicolon => some .semicolon

/-! ## Names -/

structure Path.IsName (path : Path) : Prop where
  modules : ∀ m ∈ path.modules, isCapitalName m.toList = true
  name : isLowName path.name.toList = true
  free : isReserved path.name = false

structure Path.IsConstructor (path : Path) : Prop where
  modules : ∀ m ∈ path.modules, isCapitalName m.toList = true
  name : isCapitalName path.name.toList = true

structure IsVariable (name : String) : Prop where
  shape : isLowName name.toList = true ∨ isCapitalName name.toList = true
  unquoted : '\'' ∉ name.toList
  free : isReserved name = false

instance (path : Path) : Decidable path.IsName :=
  decidable_of_iff ((∀ m ∈ path.modules, isCapitalName m.toList = true) ∧ isLowName path.name.toList = true ∧
    isReserved path.name = false) ⟨fun h => ⟨h.1, h.2.1, h.2.2⟩, fun h => ⟨h.modules, h.name, h.free⟩⟩

instance (path : Path) : Decidable path.IsConstructor :=
  decidable_of_iff ((∀ m ∈ path.modules, isCapitalName m.toList = true) ∧ isCapitalName path.name.toList = true)
    ⟨fun h => ⟨h.1, h.2⟩, fun h => ⟨h.modules, h.name⟩⟩

/-- The text is a part of a path. -/
def IsPart (cs : List Char) : Prop :=
  ∃ c rest, cs = c :: rest ∧ (c.isAlpha = true ∨ c = '_') ∧ ∀ d ∈ rest, isWordChar d = true

theorem exists_of_isLowName {cs : List Char} (h : isLowName cs = true) :
    ∃ c rest, cs = c :: rest ∧ (c.isLower = true ∨ c = '_' ∧ rest ≠ []) ∧ ∀ d ∈ rest, isWordChar d = true := by
  cases cs with
  | nil => cases h
  | cons c rest =>
    simp only [isLowName, Bool.and_eq_true, Bool.or_eq_true, beq_iff_eq, List.all_eq_true, Bool.not_eq_true',
      List.isEmpty_eq_false_iff] at h
    exact ⟨c, rest, rfl, h⟩

theorem exists_of_isCapitalName {cs : List Char} (h : isCapitalName cs = true) :
    ∃ c rest, cs = c :: rest ∧ c.isUpper = true ∧ ∀ d ∈ rest, isWordChar d = true := by
  cases cs with
  | nil => cases h
  | cons c rest =>
    simp only [isCapitalName, Bool.and_eq_true, List.all_eq_true] at h
    exact ⟨c, rest, rfl, h⟩

theorem isLowName_append {cs back : List Char} (h : isLowName cs = true) (hback : ∀ c ∈ back, isWordChar c = true) :
    isLowName (cs ++ back) = true := by
  obtain ⟨c, rest, rfl, hc, hrest⟩ := exists_of_isLowName h
  simp only [List.cons_append, isLowName, Bool.and_eq_true, Bool.or_eq_true, beq_iff_eq, List.all_eq_true,
    Bool.not_eq_true', List.isEmpty_eq_false_iff]
  exact ⟨hc.imp id fun ⟨hline, hne⟩ => ⟨hline, List.append_ne_nil_of_left_ne_nil hne back⟩,
    List.forall_mem_append.mpr ⟨hrest, hback⟩⟩

theorem isCapitalName_append {cs back : List Char} (h : isCapitalName cs = true)
    (hback : ∀ c ∈ back, isWordChar c = true) : isCapitalName (cs ++ back) = true := by
  obtain ⟨c, rest, rfl, hc, hrest⟩ := exists_of_isCapitalName h
  rw [List.cons_append, isCapitalName, Bool.and_eq_true, List.all_eq_true]
  exact ⟨hc, List.forall_mem_append.mpr ⟨hrest, hback⟩⟩

theorem isPart_of_isLowName {cs : List Char} (h : isLowName cs = true) : IsPart cs := by
  obtain ⟨c, rest, hcs, hc, hrest⟩ := exists_of_isLowName h
  exact ⟨c, rest, hcs, hc.imp (fun hlower => Lexer.isAlpha_iff.mpr (.inr hlower)) And.left, hrest⟩

theorem isPart_of_isCapitalName {cs : List Char} (h : isCapitalName cs = true) : IsPart cs := by
  obtain ⟨c, rest, hcs, hc, hrest⟩ := exists_of_isCapitalName h
  exact ⟨c, rest, hcs, .inl (Lexer.isAlpha_iff.mpr (.inl hc)), hrest⟩

theorem IsPart.all {cs : List Char} (h : IsPart cs) : ∀ c ∈ cs, isWordChar c = true := by
  obtain ⟨c, rest, rfl, hc, hrest⟩ := h
  exact List.forall_mem_cons.mpr ⟨Lexer.isWordChar_of_first hc, hrest⟩

theorem IsPart.isWord {cs : List Char} (h : IsPart cs) : IsWord cs := by
  refine Lexer.isWord_of_forall ?_ h.all
  obtain ⟨c, rest, rfl, -⟩ := h
  exact List.cons_ne_nil c rest

theorem IsPart.not_mem_point {cs : List Char} (h : IsPart cs) : '.' ∉ cs := by
  intro hmem
  exact absurd (h.all _ hmem) (by decide)

/-! ## Words that are paths -/

def Path.parts (path : Path) : List (List Char) := path.modules.map String.toList ++ [path.name.toList]

theorem Path.toList_text (path : Path) :
    ∃ first rest, path.parts = first :: rest ∧ path.text.toList = first ++ rest.flatMap ('.' :: ·) := by
  obtain ⟨modules, name⟩ := path
  have htext : ∀ modules, (Path.text ⟨modules, name⟩).toList =
      modules.flatMap (fun m => m.toList ++ ['.']) ++ name.toList := by
    intro modules
    rw [Path.text, qualifier, String.toList_append, String.toList_join, List.flatMap_map]
    simp only [String.toList_append]
    rfl
  induction modules with
  | nil => exact ⟨name.toList, [], rfl, by rw [htext]; simp⟩
  | cons m rest ih =>
    obtain ⟨first, others, hparts, hchars⟩ := ih
    refine ⟨m.toList, first :: others, by rw [← hparts]; rfl, ?_⟩
    rw [htext] at hchars ⊢
    rw [List.flatMap_cons, List.append_assoc, hchars]
    simp

theorem splitOn_parts {first : List Char} {rest : List (List Char)} (h : ∀ part ∈ first :: rest, '.' ∉ part) :
    (first ++ rest.flatMap ('.' :: ·)).splitOn '.' = first :: rest := by
  induction rest generalizing first with
  | nil =>
    rw [List.flatMap_nil, List.append_nil]
    exact List.splitOn_eq_singleton (h first (.head _))
  | cons next rest ih =>
    rw [List.forall_mem_cons] at h
    rw [List.flatMap_cons, List.cons_append, List.splitOn_append_cons_self_of_not_mem h.1, ih h.2]

theorem isWord_parts {first : List Char} {rest : List (List Char)} (hfirst : IsWord first)
    (h : ∀ part ∈ rest, IsPart part) : IsWord (first ++ rest.flatMap ('.' :: ·)) := by
  induction rest generalizing first with
  | nil => rwa [List.flatMap_nil, List.append_nil]
  | cons next rest ih =>
    rw [List.forall_mem_cons] at h
    obtain ⟨c, cs, rfl, hc, hcs⟩ := h.1
    rw [List.flatMap_cons, ← List.append_assoc]
    exact ih (hfirst.point hc hcs) h.2

theorem Path.isPart_of_mem {path : Path} (hmodules : ∀ m ∈ path.modules, isCapitalName m.toList = true)
    (hname : IsPart path.name.toList) : ∀ part ∈ path.parts, IsPart part := by
  intro part hpart
  rcases List.mem_append.mp hpart with hpart | hpart
  · obtain ⟨m, hm, rfl⟩ := List.mem_map.mp hpart
    exact isPart_of_isCapitalName (hmodules m hm)
  · rw [List.mem_singleton.mp hpart]
    exact hname

theorem Path.isWord {path : Path} (h : ∀ part ∈ path.parts, IsPart part) : IsWord path.text.toList := by
  obtain ⟨first, rest, hparts, hchars⟩ := path.toList_text
  rw [hparts, List.forall_mem_cons] at h
  rw [hchars]
  exact isWord_parts h.1.isWord h.2

/-! ## Words that are no symbols -/

theorem lookup_symbols_of_first {w : String} {c : Char} {rest : List Char} (hw : w.toList = c :: rest)
    (hc : c.isUpper = true ∨ c.isDigit = true ∨ c = '\'') : Lexeme.symbols.lookup w = none := by
  have hsymbols : ∀ symbol ∈ Lexeme.symbols,
      (symbol.1.toList.head?.any fun c => c.isUpper || c.isDigit || c == '\'') = false := by decide
  rw [List.lookup_eq_none_iff]
  intro symbol hsymbol
  rw [bne_iff_ne]
  rintro rfl
  have hfirst := hsymbols symbol hsymbol
  rw [hw, List.head?_cons, Option.any_some, Bool.or_eq_false_iff, Bool.or_eq_false_iff] at hfirst
  obtain ⟨⟨hupper, hdigit⟩, hquote⟩ := hfirst
  rcases hc with hc | hc | hc
  · exact absurd hc (Bool.eq_false_iff.mp hupper)
  · exact absurd hc (Bool.eq_false_iff.mp hdigit)
  · exact absurd (beq_iff_eq.mpr hc) (Bool.eq_false_iff.mp hquote)

theorem lookup_symbols_of_isLowName {w : String} (h : isLowName w.toList = true) (hfree : isReserved w = false) :
    Lexeme.symbols.lookup w = none := by
  have hsymbols : ∀ symbol ∈ Lexeme.symbols, isReserved symbol.1 = true ∨ isLowName symbol.1.toList = false := by decide
  rw [List.lookup_eq_none_iff]
  intro symbol hsymbol
  rw [bne_iff_ne]
  rintro rfl
  rcases hsymbols symbol hsymbol with hreserved | hlow
  · rw [hreserved] at hfree
    cases hfree
  · rw [hlow] at h
    cases h

theorem isReserved_of_isCapitalName {w : String} (h : isCapitalName w.toList = true) : isReserved w = false := by
  have hreserved : ∀ r ∈ keywords ++ wordOperators, isCapitalName r.toList = false := by decide
  have hmem : w ∉ keywords ++ wordOperators := by
    intro hmem
    rw [hreserved w hmem] at h
    cases h
  rw [isReserved, ← List.contains_append]
  simpa using hmem

theorem isLowName_of_isCapitalName {cs : List Char} (h : isCapitalName cs = true) : isLowName cs = false := by
  obtain ⟨c, rest, rfl, hc, -⟩ := exists_of_isCapitalName h
  have hpart := isPart_of_isCapitalName h
  have hlow : c.isLower = false ∧ (c == '_') = false :=
    Lexer.forall_isWordChar (P := fun c => c.isUpper = true → c.isLower = false ∧ (c == '_') = false) (by decide)
      (hpart.all c List.mem_cons_self) hc
  rw [isLowName, hlow.1, hlow.2]
  rfl

theorem Lexeme.ofChars_path {path : Path} (h : ∀ part ∈ path.parts, IsPart part) :
    ofChars path.text.toList = ofParts (path.modules.map String.toList) path.name.toList := by
  obtain ⟨first, rest, hparts, hchars⟩ := path.toList_text
  have hsplit : path.text.toList.splitOn '.' = path.parts := by
    rw [hchars, hparts]
    exact splitOn_parts fun part hpart => (h part (hparts ▸ hpart)).not_mem_point
  obtain ⟨c, cs, hfirst, hc, -⟩ := h first (hparts ▸ List.mem_cons_self)
  rw [hfirst, List.cons_append] at hchars
  have hquote : c ≠ '\'' := by
    rintro rfl
    exact absurd hc (by decide)
  have hdigit : ¬ (c :: (cs ++ rest.flatMap ('.' :: ·))).all Char.isDigit = true := by
    intro hall
    have hletter := Lexer.forall_isWordChar (P := fun c => c.isAlpha = true ∨ c = '_' → c.isDigit = false) (by decide)
      (Lexer.isWordChar_of_first hc) hc
    rw [List.all_eq_true.mp hall c List.mem_cons_self] at hletter
    cases hletter
  rw [hchars] at hsplit ⊢
  rw [ofChars, if_neg hquote, if_neg hdigit]
  show ofParts (((c :: _).splitOn '.').dropLast) (((c :: _).splitOn '.').getLastD []) = _
  rw [hsplit, Path.parts, List.dropLast_concat, List.getLastD_concat]

theorem Path.text_local (name : String) : Path.text ⟨[], name⟩ = name := by
  simp [Path.text, qualifier]

theorem lookup_symbols_of_modules {path : Path} (hmodules : ∀ m ∈ path.modules, isCapitalName m.toList = true)
    (hne : path.modules ≠ []) : Lexeme.symbols.lookup path.text = none := by
  obtain ⟨modules, name⟩ := path
  obtain ⟨first, rest, hparts, hchars⟩ := Path.toList_text ⟨modules, name⟩
  cases modules with
  | nil => exact absurd rfl hne
  | cons m others =>
    obtain ⟨c, cs, hm, hc, -⟩ := exists_of_isCapitalName (hmodules m List.mem_cons_self)
    have hfirst : m.toList = first := (List.cons.inj hparts).1
    rw [← hfirst, hm] at hchars
    exact lookup_symbols_of_first hchars (.inl hc)

namespace Path

/-- The parts of a path make up the path again. -/
theorem ofParts_parts {path : Path} (hmodules : ∀ m ∈ path.modules, isCapitalName m.toList = true) :
    Lexeme.ofParts (path.modules.map String.toList) path.name.toList =
      if isReserved path.name then none
      else if isLowName path.name.toList then some (.name path)
      else if isCapitalName path.name.toList then some (.constructor path)
      else none := by
  have hall : (path.modules.map String.toList).all isCapitalName = true := by
    rw [List.all_map, List.all_eq_true]
    exact hmodules
  have hback : (path.modules.map String.toList).map String.ofList = path.modules := by
    rw [List.map_map]
    exact (List.map_congr_left fun m _ => String.ofList_toList).trans (List.map_id _)
  simp only [Lexeme.ofParts, hall, hback, String.ofList_toList, Bool.not_true, Bool.false_or]

theorem IsName.ofWord {path : Path} (h : path.IsName) : Lexeme.ofWord path.text = some (.name path) := by
  have hlookup : Lexeme.symbols.lookup path.text = none := by
    by_cases hmodules : path.modules = []
    · obtain ⟨modules, name⟩ := path
      cases hmodules
      rw [text_local]
      exact lookup_symbols_of_isLowName h.name h.free
    · exact lookup_symbols_of_modules h.modules hmodules
  rw [Lexeme.ofWord, hlookup, Option.none_or, Lexeme.ofChars_path (isPart_of_mem h.modules (isPart_of_isLowName h.name)),
    ofParts_parts h.modules, if_neg (Bool.not_eq_true _ ▸ h.free), if_pos h.name]

theorem IsName.ofWord_local {name : String} (h : IsName ⟨[], name⟩) : Lexeme.ofWord name = some (.name ⟨[], name⟩) := by
  have hword := h.ofWord
  rwa [text_local] at hword

theorem IsConstructor.ofWord {path : Path} (h : path.IsConstructor) :
    Lexeme.ofWord path.text = some (.constructor path) := by
  have hlookup : Lexeme.symbols.lookup path.text = none := by
    by_cases hmodules : path.modules = []
    · obtain ⟨modules, name⟩ := path
      cases hmodules
      obtain ⟨c, rest, hname, hc, -⟩ := exists_of_isCapitalName h.name
      rw [text_local]
      exact lookup_symbols_of_first hname (.inl hc)
    · exact lookup_symbols_of_modules h.modules hmodules
  rw [Lexeme.ofWord, hlookup, Option.none_or,
    Lexeme.ofChars_path (isPart_of_mem h.modules (isPart_of_isCapitalName h.name)), ofParts_parts h.modules,
    isReserved_of_isCapitalName h.name, isLowName_of_isCapitalName h.name, if_pos h.name]
  rfl

end Path

theorem IsVariable.ofWord {name : String} (h : IsVariable name) :
    Lexeme.ofWord ("'" ++ name) = some (.variable name) := by
  have hchars : ("'" ++ name).toList = '\'' :: name.toList := by
    rw [String.toList_append]
    rfl
  have hlookup : Lexeme.symbols.lookup ("'" ++ name) = none := lookup_symbols_of_first hchars (.inr (.inr rfl))
  rw [Lexeme.ofWord, hlookup, Option.none_or, hchars, Lexeme.ofChars, if_pos rfl, Lexeme.ofVariable, String.ofList_toList,
    h.free]
  have hquote : name.toList.contains '\'' = false := by simpa using h.unquoted
  rw [Bool.or_eq_true_iff.mpr h.shape, hquote]
  rfl

theorem Lexeme.ofWord_number (n : Nat) : ofWord (toString n) = some (.number n) := by
  have hchars : (toString n).toList = Nat.toDigits 10 n := Nat.toList_repr
  have hdigits : ∀ c ∈ Nat.toDigits 10 n, c.isDigit = true := fun c hc =>
    Nat.isDigit_of_mem_toDigits (by decide) (by decide) hc
  obtain ⟨c, cs, hcons⟩ := List.exists_cons_of_ne_nil (Nat.toDigits_ne_nil : Nat.toDigits 10 n ≠ [])
  have hc : c.isDigit = true := hdigits c (hcons ▸ List.mem_cons_self)
  have hlookup : symbols.lookup (toString n) = none := lookup_symbols_of_first (hchars.trans hcons) (.inr (.inl hc))
  have hquote : c ≠ '\'' := by
    rintro rfl
    cases hc
  have hall : (c :: cs).all Char.isDigit = true := List.all_eq_true.mpr (hcons ▸ hdigits)
  rw [ofWord, hlookup, Option.none_or, hchars, hcons, ofChars, if_neg hquote, if_pos hall, ← hcons,
    Nat.ofDigitChars_ten_toDigits]

/-! ## Words in a line -/

theorem Path.IsName.lexable {path : Path} (h : path.IsName) : Lexable [.word path.text] :=
  Lexer.lexable_word (Path.isWord (Path.isPart_of_mem h.modules (isPart_of_isLowName h.name)))

theorem Path.IsConstructor.lexable {path : Path} (h : path.IsConstructor) : Lexable [.word path.text] :=
  Lexer.lexable_word (Path.isWord (Path.isPart_of_mem h.modules (isPart_of_isCapitalName h.name)))

theorem IsVariable.lexable {name : String} (h : IsVariable name) : Lexable [.word ("'" ++ name)] := by
  have hpart : IsPart name.toList := h.shape.elim isPart_of_isLowName isPart_of_isCapitalName
  refine Lexer.lexable_word (Lexer.isWord_of_forall ?_ ?_)
  · simp
  · intro c hc
    rw [String.toList_append] at hc
    rcases List.mem_append.mp hc with hc | hc
    · rw [List.mem_singleton.mp hc]
      rfl
    · exact hpart.all c hc

theorem lexable_number (n : Nat) : Lexable [.word (toString n)] := by
  have hchars : (toString n).toList = Nat.toDigits 10 n := Nat.toList_repr
  refine Lexer.lexable_keyword ⟨hchars ▸ Nat.toDigits_ne_nil, List.all_eq_true.mpr fun c hc => ?_⟩
  rw [hchars] at hc
  have hdigit : c.isDigit = true := Nat.isDigit_of_mem_toDigits (by decide) (by decide) hc
  rw [isWordChar, Char.isAlphanum, hdigit, Bool.or_true]
  rfl

end TypeScribe.Ocaml
