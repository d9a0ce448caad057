import TypeScribe.Proofs.Lexer

/-!
# Where a text literal ends

A text literal is read by the steps of the lexer, up to the first quote that is not escaped. So a written literal is read
back for its text, and what follows is left, whatever it is. No literal can start another one, since both would be read
from the longer one.
-/

namespace TypeScribe.Ocaml

namespace Lexer

/-- Reads on in a text literal: its text, and what is left after its closing quote. -/
def scanRest (partly : Partial) : List Char → Option (String × List Char)
  | [] => none
  | c :: rest =>
    match step partly c with
    | some ([], next) => scanRest next rest
    | some ([.literal s], .none) => some (s, rest)
    | _ => none

/-- Reads the text literal at the start of a text: what it stands for, and what is left after it. -/
def scanLiteral : List Char → Option (String × List Char)
  | '"' :: rest => scanRest (.literal []) rest
  | _ => none

theorem scanRest_append {p q : Partial} {front back : List Char} (h : run p front = some ([], q)) :
    scanRest p (front ++ back) = scanRest q back := by
  induction front generalizing p with
  | nil =>
    cases h
    rfl
  | cons c cs ih =>
    obtain ⟨first, next, others, hstep, hrun, htokens⟩ := exists_of_run_cons h
    obtain ⟨rfl, rfl⟩ := List.append_eq_nil_iff.mp htokens
    rw [List.cons_append, scanRest, hstep]
    exact ih hrun

theorem scanLiteral_literal (s : String) (rest : List Char) :
    scanLiteral ((Token.literal s).chars ++ rest) = some (s, rest) := by
  have hform : (Token.literal s).chars ++ rest = '"' :: (s.toList.flatMap Token.literalChar ++ '"' :: rest) := by
    simp [Token.chars, Token.literalChars]
  have hclose : step (.literal s.toList) '"' = some ([.literal s], .none) := by
    rw [step, if_pos rfl, String.ofList_toList]
  rw [hform, scanLiteral, scanRest_append (run_literalChars [] s.toList), List.nil_append, scanRest, hclose]

theorem eq_of_literal_prefix {s t : String} (h : (Token.literal s).chars <+: (Token.literal t).chars) : s = t := by
  obtain ⟨back, hback⟩ := h
  have hlonger := scanLiteral_literal t []
  rw [List.append_nil, ← hback, scanLiteral_literal] at hlonger
  exact congrArg Prod.fst (Option.some.inj hlonger)

theorem newline_notMem_literalChar (c : Char) : '\n' ∉ Token.literalChar c := by
  unfold Token.literalChar
  split
  · decide
  · decide
  · decide
  · decide
  · next hnewline _ => exact fun h => hnewline (List.mem_singleton.mp h).symm

theorem newline_notMem_literal (s : String) : '\n' ∉ (Token.literal s).chars := by
  intro h
  have hmem : '\n' ∈ s.toList.flatMap Token.literalChar := by
    simpa [Token.chars, Token.literalChars] using h
  obtain ⟨c, -, hc⟩ := List.mem_flatMap.mp hmem
  exact newline_notMem_literalChar c hc

end Lexer

open Lexer (scanLiteral)

/-- A written literal is read back whatever follows it, and all that follows is left. So different texts have different
literals, of which none starts another, and none runs over the end of a line. -/
theorem Token.literal_isScanned (s : String) :
    (∀ rest, scanLiteral ((literal s).chars ++ rest) = some (s, rest)) ∧
    (∀ t, (literal s).chars = (literal t).chars ↔ s = t) ∧
    (∀ t, (literal s).chars <+: (literal t).chars ↔ s = t) ∧
    '\n' ∉ (literal s).chars := by
  refine ⟨Lexer.scanLiteral_literal s, fun t => ?_, fun t => ?_, Lexer.newline_notMem_literal s⟩
  · constructor
    · intro h
      exact Lexer.eq_of_literal_prefix (h ▸ List.prefix_rfl)
    · rintro rfl
      rfl
  · constructor
    · exact Lexer.eq_of_literal_prefix
    · rintro rfl
      exact List.prefix_rfl

example : scanLiteral ((Token.literal "a\\").chars ++ " ^ \"b\"".toList) = some ("a\\", " ^ \"b\"".toList) := by decide

end TypeScribe.Ocaml
