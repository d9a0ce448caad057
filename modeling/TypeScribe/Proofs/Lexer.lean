import TypeScribe.Ocaml.Token

/-!
# Splitting source text into tokens

A lexer for the part of OCaml that generated decoders are written in. It reads one character after the other and holds
the token that is not complete yet. A text literal is one token, a path with its modules is another, and operators are
as long as they can be. `lex_source` says that the lexer gets the tokens of lines back from their text.
-/

namespace TypeScribe.Ocaml

namespace Lexer

/-- A token of which a part has been read. -/
inductive Partial where
  | none
  /-- Right after an opening parenthesis, where a comment must not begin. -/
  | opened
  | word (cs : List Char)
  | point (cs : List Char)
  | operator (cs : List Char)
  | bracket (cs : List Char)
  | literal (cs : List Char)
  /-- A literal in which an escape has begun. -/
  | escape (cs : List Char)
deriving DecidableEq, Repr

/-- Tokens that are complete, and the one that is not. -/
abbrev Progress := List Token × Partial

def isWordChar (c : Char) : Bool := c.isAlphanum || c == '_' || c == '\''

def isOperatorChar (c : Char) : Bool := "!$%&*+-./:<=>?@^|~".toList.contains c

def unescape : Char → Option Char
  | '"' => some '"'
  | '\\' => some '\\'
  | 'n' => some '\n'
  | 't' => some '\t'
  | _ => none

/-- The token that has been read if nothing continues it. -/
def Partial.flush : Partial → Option (List Token)
  | .none | .opened => some []
  | .word cs | .operator cs => some [.word (String.ofList cs)]
  | _ => .none

/-- A character that no token before it takes in. -/
def start (c : Char) : Option Progress :=
  if c = ' ' ∨ c = '\n' then some ([], .none)
  else if c = '(' then some ([.openParen], .opened)
  else if c = ')' then some ([.closeParen], .none)
  else if c = ',' then some ([.comma], .none)
  else if c = ';' then some ([.semicolon], .none)
  else if c = '\x7b' then some ([.word "\x7b"], .none)
  else if c = '\x7d' then some ([.word "\x7d"], .none)
  else if c = '"' then some ([], .literal [])
  else if c = '[' then some ([], .bracket [c])
  else if isWordChar c then some ([], .word [c])
  else if isOperatorChar c ∧ c ≠ '.' then some ([], .operator [c])
  else none

def after (tokens : List Token) (progress : Progress) : Progress := (tokens ++ progress.1, progress.2)

def step : Partial → Char → Option Progress
  | .none, c => start c
  | .opened, c => if c = '*' then none else start c
  | .word cs, c =>
    if isWordChar c then some ([], .word (cs ++ [c]))
    else if c = '.' then some ([], .point cs)
    else (start c).map (after [.word (String.ofList cs)])
  | .point cs, c =>
    if c = '(' then some ([.word (String.ofList cs), .openIndex], .none)
    else if c.isAlpha ∨ c = '_' then some ([], .word (cs ++ ['.', c]))
    else none
  | .operator cs, c =>
    if isOperatorChar c then some ([], .operator (cs ++ [c]))
    else (start c).map (after [.word (String.ofList cs)])
  | .bracket cs, c =>
    if cs ++ [c] = "[||]".toList then some ([.word "[||]"], .none)
    else if c = '|' then some ([], .bracket (cs ++ [c]))
    else none
  | .literal cs, c =>
    if c = '"' then some ([.literal (String.ofList cs)], .none)
    else if c = '\\' then some ([], .escape cs)
    else some ([], .literal (cs ++ [c]))
  | .escape cs, c => (unescape c).map fun d => ([], .literal (cs ++ [d]))

def run (partly : Partial) : List Char → Option Progress
  | [] => some ([], partly)
  | c :: rest => do
    let (tokens, next) ← step partly c
    return after tokens (← run next rest)

end Lexer

def lex (text : List Char) : Option (List Token) := do
  let (tokens, partly) ← Lexer.run .none text
  return tokens ++ (← partly.flush)

namespace Lexer

/-! ## Runs -/

theorem run_cons {p q r : Partial} {c : Char} {cs : List Char} {tokens more : List Token}
    (hstep : step p c = some (tokens, q)) (hrun : run q cs = some (more, r)) :
    run p (c :: cs) = some (tokens ++ more, r) := by
  rw [run, hstep]
  show (run q cs >>= _) = _
  rw [hrun]
  rfl

theorem exists_of_run_cons {p r : Partial} {c : Char} {cs : List Char} {tokens : List Token}
    (h : run p (c :: cs) = some (tokens, r)) :
    ∃ first next others, step p c = some (first, next) ∧ run next cs = some (others, r) ∧ first ++ others = tokens := by
  rw [run] at h
  obtain ⟨⟨first, next⟩, hstep, h⟩ := Option.bind_eq_some_iff.mp h
  obtain ⟨⟨others, last⟩, hrun, h⟩ := Option.bind_eq_some_iff.mp h
  cases h
  exact ⟨first, next, others, hstep, hrun, rfl⟩

theorem run_append {p q r : Partial} {front back : List Char} {tokens more : List Token}
    (hfront : run p front = some (tokens, q)) (hback : run q back = some (more, r)) :
    run p (front ++ back) = some (tokens ++ more, r) := by
  induction front generalizing p tokens with
  | nil =>
    cases hfront
    exact hback
  | cons c cs ih =>
    obtain ⟨first, next, others, hstep, hrun, rfl⟩ := exists_of_run_cons hfront
    rw [List.cons_append, run_cons hstep (ih hrun), ← List.append_assoc]

/-! ## Tokens -/

/-- What has been read is the given tokens if a delimiter comes next. -/
def Stands (p : Partial) (tokens : List Token) : Prop :=
  ∀ c ∈ [' ', '\n', ')', ',', ';'], step p c = (start c).map (after tokens)

/-- The lexer gets the token back from its form, at the start of a text or after a parenthesis. -/
def GetsBack (token : Token) : Prop :=
  ∃ p tokens more, Stands p more ∧ tokens ++ more = [token] ∧
    ∀ q ∈ [Partial.none, .opened], run q token.chars = some (tokens, p)

theorem stands_none : Stands .none [] := by
  intro c _
  rw [Lexer.step]
  cases start c <;> rfl

theorem stands_opened : Stands .opened [] := by
  intro c hc
  have hne : c ≠ '*' := by
    rintro rfl
    exact absurd hc (by decide)
  rw [Lexer.step, if_neg hne]
  cases start c <;> rfl

theorem stands_word (cs : List Char) : Stands (.word cs) [.word (String.ofList cs)] := by
  intro c hc
  have hword : ¬ isWordChar c = true ∧ c ≠ '.' := by
    simp only [List.mem_cons, List.not_mem_nil, or_false] at hc
    rcases hc with rfl | rfl | rfl | rfl | rfl <;> decide
  rw [Lexer.step, if_neg hword.1, if_neg hword.2]

theorem stands_operator (cs : List Char) : Stands (.operator cs) [.word (String.ofList cs)] := by
  intro c hc
  have hoperator : ¬ isOperatorChar c = true := by
    simp only [List.mem_cons, List.not_mem_nil, or_false] at hc
    rcases hc with rfl | rfl | rfl | rfl | rfl <;> decide
  rw [Lexer.step, if_neg hoperator]

theorem getsBack_openParen : GetsBack .openParen := by
  refine ⟨.opened, [.openParen], [], stands_opened, rfl, ?_⟩
  decide

theorem getsBack_closeParen : GetsBack .closeParen := by
  refine ⟨.none, [.closeParen], [], stands_none, rfl, ?_⟩
  decide

theorem getsBack_comma : GetsBack .comma := by
  refine ⟨.none, [.comma], [], stands_none, rfl, ?_⟩
  decide

theorem getsBack_semicolon : GetsBack .semicolon := by
  refine ⟨.none, [.semicolon], [], stands_none, rfl, ?_⟩
  decide

/-! ## Literals -/

theorem run_literalChar (cs : List Char) (c : Char) :
    run (.literal cs) (Token.literalChar c) = some ([], .literal (cs ++ [c])) := by
  unfold Token.literalChar
  split
  · rfl
  · rfl
  · rfl
  · rfl
  · next hquote hescape _ _ =>
    have hstep : step (.literal cs) c = some ([], .literal (cs ++ [c])) := by
      rw [Lexer.step, if_neg hquote, if_neg hescape]
    exact run_cons hstep (rfl : run (.literal (cs ++ [c])) [] = some ([], _))

theorem run_literalChars (cs text : List Char) :
    run (.literal cs) (text.flatMap Token.literalChar) = some ([], .literal (cs ++ text)) := by
  induction text generalizing cs with
  | nil => rw [List.append_nil]; rfl
  | cons c rest ih =>
    have h := run_append (run_literalChar cs c) (ih (cs ++ [c]))
    rwa [List.append_assoc] at h

theorem run_literal (s : String) {q : Partial} (hq : q ∈ [Partial.none, .opened]) :
    run q (Token.literal s).chars = some ([.literal s], .none) := by
  have hopen : step q '"' = some ([], .literal []) := by
    revert q
    decide
  have hclose : run (.literal s.toList) ['"'] = some ([.literal s], .none) := by
    rw [run, Lexer.step, if_pos rfl, String.ofList_toList]
    rfl
  exact run_cons hopen (run_append (run_literalChars [] s.toList) hclose)

theorem getsBack_literal (s : String) : GetsBack (.literal s) :=
  ⟨.none, [.literal s], [], stands_none, rfl, fun _ => run_literal s⟩

/-! ## Words -/

theorem start_of_isWordChar {c : Char} (h : isWordChar c = true) : start c = some ([], .word [c]) := by
  have hne : ∀ d : Char, isWordChar d = false → c ≠ d := by
    rintro d hd rfl
    rw [h] at hd
    cases hd
  unfold start
  rw [if_neg (not_or.mpr ⟨hne _ (by decide), hne _ (by decide)⟩), if_neg (hne _ (by decide)), if_neg (hne _ (by decide)),
    if_neg (hne _ (by decide)), if_neg (hne _ (by decide)), if_neg (hne _ (by decide)), if_neg (hne _ (by decide)),
    if_neg (hne _ (by decide)), if_neg (hne _ (by decide)), if_pos h]

theorem step_of_isWordChar {c : Char} (h : isWordChar c = true) {q : Partial} (hq : q ∈ [Partial.none, .opened]) :
    step q c = some ([], .word [c]) := by
  have hstar : c ≠ '*' := by
    rintro rfl
    cases h
  simp only [List.mem_cons, List.not_mem_nil, or_false] at hq
  rcases hq with rfl | rfl
  · exact start_of_isWordChar h
  · rw [Lexer.step, if_neg hstar, start_of_isWordChar h]

theorem run_word {cs : List Char} (h : ∀ c ∈ cs, isWordChar c = true) (front : List Char) :
    run (.word front) cs = some ([], .word (front ++ cs)) := by
  induction cs generalizing front with
  | nil => rw [List.append_nil]; rfl
  | cons c cs ih =>
    rw [List.forall_mem_cons] at h
    have hstep : step (.word front) c = some ([], .word (front ++ [c])) := by
      rw [Lexer.step, if_pos h.1]
    have hrun := run_cons hstep (ih h.2 (front ++ [c]))
    rwa [List.append_assoc] at hrun

theorem run_point {c : Char} {cs : List Char} (hc : c.isAlpha = true ∨ c = '_') (h : ∀ d ∈ cs, isWordChar d = true)
    (front : List Char) : run (.word front) ('.' :: c :: cs) = some ([], .word (front ++ '.' :: c :: cs)) := by
  have hpoint : step (.word front) '.' = some ([], .point front) := rfl
  have hletter : step (.point front) c = some ([], .word (front ++ ['.', c])) := by
    have hne : c ≠ '(' := by
      rintro rfl
      exact absurd hc (by decide)
    rw [Lexer.step, if_neg hne, if_pos hc]
  have hrun := run_cons hpoint (run_cons hletter (run_word h (front ++ ['.', c])))
  rwa [List.append_assoc] at hrun

/-- The text is a word as a whole, where a word can begin. -/
structure IsWord (cs : List Char) : Prop where
  run : ∀ q ∈ [Partial.none, .opened], run q cs = some ([], .word cs)
  solid : ∃ c ∈ cs.getLast?, Text.isBlank c = false

theorem isAlpha_iff {c : Char} : c.isAlpha = true ↔ c.isUpper = true ∨ c.isLower = true :=
  Bool.or_eq_true_iff

theorem toNat_lt_of_isWordChar {c : Char} (h : isWordChar c = true) : c.toNat < 128 := by
  have hupper : c.isUpper = true → c.toNat ≤ 90 := fun h => UInt32.le_iff_toNat_le.mp (of_decide_eq_true h).2
  have hlower : c.isLower = true → c.toNat ≤ 122 := fun h =>
    UInt32.le_iff_toNat_le.mp (of_decide_eq_true (Bool.and_eq_true_iff.mp h).2)
  have hdigit : c.isDigit = true → c.toNat ≤ 57 := fun h =>
    UInt32.le_iff_toNat_le.mp (of_decide_eq_true (Bool.and_eq_true_iff.mp h).2)
  simp only [isWordChar, Char.isAlphanum, Bool.or_eq_true, isAlpha_iff, beq_iff_eq] at h
  rcases h with (((h | h) | h) | rfl) | rfl
  · exact Nat.lt_of_le_of_lt (hupper h) (by decide)
  · exact Nat.lt_of_le_of_lt (hlower h) (by decide)
  · exact Nat.lt_of_le_of_lt (hdigit h) (by decide)
  · decide
  · decide

/-- What holds of the first 128 codes holds of the characters that have them. -/
theorem forall_ascii {P : Char → Prop} (h : ∀ n < 128, P (Char.ofNat n)) {c : Char} (hc : c.toNat < 128) : P c := by
  have hall := h c.toNat hc
  rwa [Char.ofNat_toNat] at hall

theorem forall_isWordChar {P : Char → Prop} (h : ∀ n < 128, isWordChar (Char.ofNat n) = true → P (Char.ofNat n))
    {c : Char} (hc : isWordChar c = true) : P c :=
  forall_ascii (P := fun c => isWordChar c = true → P c) h (toNat_lt_of_isWordChar hc) hc

theorem isBlank_of_isWordChar {c : Char} (h : isWordChar c = true) : Text.isBlank c = false :=
  forall_isWordChar (P := fun c => Text.isBlank c = false) (by decide) h

theorem isWord_of_forall {cs : List Char} (hne : cs ≠ []) (h : ∀ c ∈ cs, isWordChar c = true) : IsWord cs where
  run q hq := by
    cases cs with
    | nil => exact absurd rfl hne
    | cons c cs =>
      rw [List.forall_mem_cons] at h
      exact run_cons (step_of_isWordChar h.1 hq) (run_word h.2 [c])
  solid := ⟨cs.getLast hne, List.getLast?_eq_some_getLast hne, isBlank_of_isWordChar (h _ (List.getLast_mem hne))⟩

theorem isWordChar_of_first {c : Char} (h : c.isAlpha = true ∨ c = '_') : isWordChar c = true := by
  unfold isWordChar Char.isAlphanum
  rcases h with h | rfl
  · rw [h]
    rfl
  · rfl

theorem IsWord.point {cs : List Char} (h : IsWord cs) {c : Char} {name : List Char} (hc : c.isAlpha = true ∨ c = '_')
    (hname : ∀ d ∈ name, isWordChar d = true) : IsWord (cs ++ '.' :: c :: name) where
  run q hq := run_append (h.run q hq) (run_point hc hname cs)
  solid := by
    have hall : ∀ d ∈ c :: name, isWordChar d = true := List.forall_mem_cons.mpr ⟨isWordChar_of_first hc, hname⟩
    obtain ⟨d, hlast, hd⟩ := (isWord_of_forall (List.cons_ne_nil c name) hall).solid
    refine ⟨d, ?_, hd⟩
    rw [List.getLast?_append, List.getLast?_cons_cons, Option.mem_def.mp hlast]
    rfl

theorem IsWord.getsBack {w : String} (h : IsWord w.toList) : GetsBack (.word w) := by
  refine ⟨.word w.toList, [], [.word w], ?_, rfl, h.run⟩
  have hstands := stands_word w.toList
  rwa [String.ofList_toList] at hstands

/-! ## Lines -/

def tokensOf (lines : List Line) : List Token := lines.flatMap (·.tokens)

def EndsSolid (token : Token) : Prop := ∃ c ∈ token.chars.getLast?, Text.isBlank c = false

/-- Tokens that can be got back from a line. The point before an index follows a word. -/
inductive Lexable : List Token → Prop where
  | nil : Lexable []
  | cons {token : Token} {rest : List Token} :
    GetsBack token → EndsSolid token → Lexable rest → Lexable (token :: rest)
  | index {array : String} {rest : List Token} :
    IsWord array.toList → Lexable rest → Lexable (.word array :: .openIndex :: rest)

theorem Lexable.append {front back : List Token} (hfront : Lexable front) (hback : Lexable back) :
    Lexable (front ++ back) := by
  induction hfront with
  | nil => exact hback
  | cons hgets hsolid _ ih => exact .cons hgets hsolid ih
  | index harray _ ih => exact .index harray ih

theorem lexable_word {w : String} (h : IsWord w.toList) : Lexable [.word w] :=
  .cons h.getsBack h.solid .nil

theorem lexable_literal (s : String) : Lexable [.literal s] := by
  refine .cons (getsBack_literal s) ⟨'"', ?_, by decide⟩ .nil
  exact List.getLast?_concat

theorem lexable_keyword {w : String} (h : w.toList ≠ [] ∧ w.toList.all isWordChar = true) : Lexable [.word w] :=
  lexable_word (isWord_of_forall h.1 (List.all_eq_true.mp h.2))

theorem lexable_operator {w : String} (h : w ∈ ["->", "|", "=", "^", "<>", ":"]) : Lexable [.word w] := by
  refine .cons ⟨.operator w.toList, [], [.word w], ?_, rfl, ?_⟩ ?_ .nil
  · have hstands := stands_operator w.toList
    rwa [String.ofList_toList] at hstands
  · revert w
    decide
  · simp only [List.mem_cons, List.not_mem_nil, or_false] at h
    rcases h with rfl | rfl | rfl | rfl | rfl | rfl <;> exact ⟨_, rfl, rfl⟩

theorem lexable_bracket {w : String} (h : w ∈ ["\x7b", "\x7d", "[||]"]) : Lexable [.word w] := by
  refine .cons ⟨.none, [.word w], [], stands_none, rfl, ?_⟩ ?_ .nil
  · revert w
    decide
  · simp only [List.mem_cons, List.not_mem_nil, or_false] at h
    rcases h with rfl | rfl | rfl <;> exact ⟨_, rfl, rfl⟩

theorem lexable_mark {token : Token} (h : token ∈ [.openParen, .closeParen, .comma, .semicolon]) : Lexable [token] := by
  simp only [List.mem_cons, List.not_mem_nil, or_false] at h
  rcases h with rfl | rfl | rfl | rfl
  · exact .cons getsBack_openParen ⟨_, rfl, rfl⟩ .nil
  · exact .cons getsBack_closeParen ⟨_, rfl, rfl⟩ .nil
  · exact .cons getsBack_comma ⟨_, rfl, rfl⟩ .nil
  · exact .cons getsBack_semicolon ⟨_, rfl, rfl⟩ .nil

/-- What comes before a delimiter is complete. -/
theorem run_delimited {p r : Partial} {more tokens : List Token} (h : Stands p more) {c : Char} {cs : List Char}
    (hc : c ∈ [' ', '\n', ')', ',', ';']) (hrun : run .none (c :: cs) = some (tokens, r)) :
    run p (c :: cs) = some (more ++ tokens, r) := by
  obtain ⟨first, next, others, hstart, hnext, rfl⟩ := exists_of_run_cons hrun
  have hstep : step p c = some (more ++ first, next) := by
    rw [Lexer.step] at hstart
    rw [h c hc, hstart]
    rfl
  rw [run_cons hstep hnext, List.append_assoc]

theorem gap_cases (token next : Token) (hindex : next ≠ .openIndex) :
    token = .openParen ∨ token = .openIndex ∨ Token.gap token next = [' '] ∨
      Token.gap token next = [] ∧ ∃ c ∈ [' ', '\n', ')', ',', ';'], next.chars = [c] := by
  cases token with
  | openParen => exact .inl rfl
  | openIndex => exact .inr (.inl rfl)
  | _ =>
    cases next with
    | closeParen => exact .inr (.inr (.inr ⟨rfl, ')', by decide, rfl⟩))
    | comma => exact .inr (.inr (.inr ⟨rfl, ',', by decide, rfl⟩))
    | semicolon => exact .inr (.inr (.inr ⟨rfl, ';', by decide, rfl⟩))
    | openIndex => exact absurd rfl hindex
    | _ => exact .inr (.inr (.inl rfl))

theorem not_getsBack_openIndex : ¬ GetsBack .openIndex := by
  rintro ⟨p, tokens, more, -, -, h⟩
  cases h .none (.head _)

theorem join_cons_cons (token next : Token) (rest : List Token) :
    Token.join (token :: next :: rest) = token.chars ++ (Token.gap token next ++ Token.join (next :: rest)) := by
  rw [Token.join, List.append_assoc]

theorem exists_join_cons (token : Token) (rest : List Token) :
    ∃ back, Token.join (token :: rest) = token.chars ++ back := by
  cases rest with
  | nil => exact ⟨[], (List.append_nil _).symm⟩
  | cons next rest => exact ⟨_, join_cons_cons token next rest⟩

/-- The lexer gets the tokens of a line back. -/
theorem run_join {tokens : List Token} (h : Lexable tokens) {q : Partial} (hq : q ∈ [Partial.none, .opened]) :
    ∃ complete p more, run q (Token.join tokens) = some (complete, p) ∧ Stands p more ∧ complete ++ more = tokens := by
  induction h generalizing q with
  | nil =>
    simp only [List.mem_cons, List.not_mem_nil, or_false] at hq
    rcases hq with rfl | rfl
    · exact ⟨[], _, [], rfl, stands_none, rfl⟩
    · exact ⟨[], _, [], rfl, stands_opened, rfl⟩
  | @cons token rest hgets _ hrest ih =>
    obtain ⟨p, complete, more, hstands, htoken, hrun⟩ := hgets
    cases rest with
    | nil => exact ⟨complete, p, more, hrun q hq, hstands, htoken⟩
    | cons next rest =>
      rw [join_cons_cons]
      have hindex : next ≠ .openIndex := by
        rintro rfl
        cases hrest with
        | cons hnext => exact not_getsBack_openIndex hnext
      rcases gap_cases token next hindex with rfl | rfl | hgap | ⟨hgap, c, hc, hchars⟩
      · obtain ⟨others, r, last, hothers, hlast, hall⟩ := ih (List.mem_cons_of_mem _ (List.mem_singleton_self _))
        have hopen : run q ['('] = some ([.openParen], .opened) := by
          revert q
          decide
        exact ⟨_, r, last, run_append hopen hothers, hlast, by rw [List.append_assoc, hall]; rfl⟩
      · exact absurd ⟨p, complete, more, hstands, htoken, hrun⟩ not_getsBack_openIndex
      · obtain ⟨others, r, last, hothers, hlast, hall⟩ := ih (.head _)
        have hspace : run .none (' ' :: Token.join (next :: rest)) = some ([] ++ others, r) := run_cons rfl hothers
        rw [hgap]
        refine ⟨_, r, last, run_append (hrun q hq) (run_delimited hstands (by decide) hspace), hlast, ?_⟩
        rw [List.nil_append, ← List.append_assoc, htoken, List.append_assoc, hall]
        rfl
      · obtain ⟨others, r, last, hothers, hlast, hall⟩ := ih (.head _)
        obtain ⟨back, hback⟩ := exists_join_cons next rest
        rw [hgap, List.nil_append]
        rw [hback, hchars] at hothers ⊢
        refine ⟨_, r, last, run_append (hrun q hq) (run_delimited hstands hc hothers), hlast, ?_⟩
        rw [← List.append_assoc, htoken, List.append_assoc, hall]
        rfl
  | @index array rest harray _ ih =>
    obtain ⟨others, r, last, hothers, hlast, hall⟩ := ih (.head _)
    have hindex : run (.word array.toList) ['.', '('] = some ([.word array, .openIndex], .none) := by
      have hpoint : step (.word array.toList) '.' = some ([], .point array.toList) := rfl
      have hopen : step (.point array.toList) '(' = some ([.word array, .openIndex], .none) := by
        rw [Lexer.step, if_pos rfl, String.ofList_toList]
      exact run_cons hpoint (run_cons hopen (rfl : run .none [] = some ([], .none)))
    have hjoin : Token.join (.word array :: .openIndex :: rest) = array.toList ++ (['.', '('] ++ Token.join rest) := by
      cases rest with
      | nil => simp [Token.join, Token.chars, Token.gap]
      | cons next rest => simp [Token.join, Token.chars, Token.gap]
    rw [hjoin]
    exact ⟨_, r, last, run_append (harray.run q hq) (run_append hindex hothers), hlast, by simp [hall]⟩

theorem run_blanks (n : Nat) : run .none (List.replicate n ' ') = some ([], .none) := by
  induction n with
  | zero => rfl
  | succ n ih =>
    have hblank : step .none ' ' = some ([], .none) := rfl
    exact run_cons hblank ih

theorem run_line {line : Line} (h : Lexable line.tokens) : run .none line.chars = some (line.tokens, .none) := by
  have hend : run .none ['\n'] = some ([], .none) := rfl
  unfold Line.chars
  split
  · next hempty => rw [List.isEmpty_iff.mp hempty, List.nil_append, hend]
  · obtain ⟨complete, p, more, hrun, hstands, hall⟩ := run_join h (.head _)
    have hblanks := run_append (run_blanks (2 * line.depth)) (run_append hrun (run_delimited hstands (by decide) hend))
    rw [List.append_assoc, hblanks, List.nil_append, List.append_nil, hall]

theorem run_lines {lines : List Line} (h : ∀ line ∈ lines, Lexable line.tokens) :
    run .none (lines.flatMap Line.chars) = some (tokensOf lines, .none) := by
  induction lines with
  | nil => rfl
  | cons line rest ih =>
    rw [List.forall_mem_cons] at h
    exact run_append (run_line h.1) (ih h.2)

/-! ## Texts -/

theorem Lexable.solid {tokens : List Token} (h : Lexable tokens) (hne : tokens ≠ []) :
    ∃ front c, Token.join tokens = front ++ [c] ∧ Text.isBlank c = false := by
  induction h with
  | nil => exact absurd rfl hne
  | @cons token rest _ hsolid _ ih =>
    cases rest with
    | nil =>
      obtain ⟨c, hlast, hc⟩ := hsolid
      obtain ⟨front, hfront⟩ := List.getLast?_eq_some_iff.mp hlast
      exact ⟨front, c, hfront, hc⟩
    | cons next rest =>
      obtain ⟨front, c, hfront, hc⟩ := ih (List.cons_ne_nil _ _)
      exact ⟨token.chars ++ (Token.gap token next ++ front), c, by simp [join_cons_cons, hfront], hc⟩
  | @index array rest _ _ ih =>
    cases rest with
    | nil => exact ⟨array.toList ++ ['.'], '(', by simp [Token.join, Token.chars, Token.gap], by decide⟩
    | cons next rest =>
      obtain ⟨front, c, hfront, hc⟩ := ih (List.cons_ne_nil _ _)
      exact ⟨array.toList ++ ('.' :: '(' :: front), c,
        by simp [Token.join, Token.chars, Token.gap, hfront], hc⟩

/-- A text that ends with a line break after something solid is finished. -/
theorem finish_of_solid {front : List Char} {c : Char} (h : Text.isBlank c = false) :
    finish (front ++ [c] ++ ['\n']) = front ++ [c] ++ ['\n'] := by
  have hbreak : Text.isBlank '\n' = true := by decide
  have hsolid : ¬ Text.isBlank c = true := Bool.eq_false_iff.mp h
  rw [finish, Text.trimEnd_append_singleton, if_pos hbreak, Text.trimEnd_append_singleton, if_neg hsolid]

end Lexer

/-- The lexer gets the tokens of lines back from their text, of which the last one is not empty. -/
theorem lex_source {lines : List Line} {last : Line} (h : ∀ line ∈ lines ++ [last], Lexer.Lexable line.tokens)
    (hlast : last.tokens ≠ []) :
    lex (source (lines ++ [last])).toList = some (Lexer.tokensOf (lines ++ [last])) := by
  obtain ⟨front, c, hfront, hc⟩ := (h last (List.mem_append_right lines (List.mem_singleton_self last))).solid hlast
  have hchars : (lines ++ [last]).flatMap Line.chars =
      lines.flatMap Line.chars ++ List.replicate (2 * last.depth) ' ' ++ front ++ [c] ++ ['\n'] := by
    rw [List.flatMap_append, List.flatMap_singleton, Line.chars, if_neg (by simpa using hlast), hfront]
    simp only [List.append_assoc]
  rw [source, String.toList_ofList, hchars, Lexer.finish_of_solid hc, ← hchars, lex, Lexer.run_lines h]
  show some (_ ++ []) = _
  rw [List.append_nil]

end TypeScribe.Ocaml
