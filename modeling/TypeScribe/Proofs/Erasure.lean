import Mathlib.Data.List.Induction
import TypeScribe.Proofs.Literals

/-!
# Source without the content of its literals

`eraseLiterals` keeps what stands outside the text literals of a source, and the quotes. Where no word has a quote in it,
the text of lines is erased to the text of the same lines with empty literals, whatever the literals stand for.
-/

namespace TypeScribe

def IsUnquoted (s : String) : Prop := '"' ∉ s.toList

instance (s : String) : Decidable (IsUnquoted s) := inferInstanceAs (Decidable (¬ _))

namespace Ocaml

/-! ## Scanning -/

/-- Where a character of a source stands. -/
inductive Region where
  | outside
  | literal
  | escape
deriving DecidableEq, Repr

namespace Region

/-- Where the character after `c` stands. -/
def next : Region → Char → Region
  | outside, c => if c = '"' then literal else outside
  | literal, c => if c = '"' then outside else if c = '\\' then escape else literal
  | escape, _ => literal

/-- What is left of a text that begins in a region. The closing quote leads outside. -/
def erase : Region → List Char → List Char
  | _, [] => []
  | region, c :: rest =>
    (if region = outside ∨ region.next c = outside then [c] else []) ++ (region.next c).erase rest

theorem erase_append (region : Region) (front back : List Char) :
    region.erase (front ++ back) = region.erase front ++ (front.foldl next region).erase back := by
  induction front generalizing region with
  | nil => rfl
  | cons c rest ih => rw [List.cons_append, erase, erase, ih, List.append_assoc, List.foldl_cons]

end Region

/-- A source without the content of its literals. A literal ends with the next quote that no backslash escapes. -/
def eraseLiterals (text : String) : String := String.ofList (Region.outside.erase text.toList)

example : eraseLiterals "f \"a\\\"b\" ^ x" = "f \"\" ^ x" := by decide

/-! ## Texts that end outside of literals -/

/-- Every literal of the text is complete, and `erased` is the text without the content of them. -/
structure Erases (text erased : List Char) : Prop where
  complete : text.foldl Region.next .outside = .outside
  erase : Region.outside.erase text = erased

namespace Erases

variable {front back front' back' text erased : List Char}

theorem append (hfront : Erases front front') (hback : Erases back back') :
    Erases (front ++ back) (front' ++ back') where
  complete := by rw [List.foldl_append, hfront.complete, hback.complete]
  erase := by rw [Region.erase_append, hfront.complete, hfront.erase, hback.erase]

theorem of_unquoted (h : '"' ∉ text) : Erases text text := by
  induction text with
  | nil => exact ⟨rfl, rfl⟩
  | cons c rest ih =>
    rw [List.mem_cons, not_or] at h
    have hc : Region.outside.next c = .outside := if_neg (Ne.symm h.1)
    have hfirst : Erases [c] [c] := ⟨hc, by simp [Region.erase]⟩
    exact hfirst.append (ih h.2)

/-- The escape of a character stays in the literal and is erased. -/
theorem region_literalChar (c : Char) :
    (Token.literalChar c).foldl Region.next .literal = .literal ∧ Region.literal.erase (Token.literalChar c) = [] := by
  unfold Token.literalChar
  split
  · decide
  · decide
  · decide
  · decide
  · next hquote hescape _ _ =>
    have hc : Region.literal.next c = .literal := by rw [Region.next, if_neg hquote, if_neg hescape]
    exact ⟨hc, by simp [Region.erase, hc]⟩

theorem region_flatMap_literalChar (s : List Char) :
    (s.flatMap Token.literalChar).foldl Region.next .literal = .literal ∧
      Region.literal.erase (s.flatMap Token.literalChar) = [] := by
  induction s with
  | nil => exact ⟨rfl, rfl⟩
  | cons c rest ih =>
    obtain ⟨hregion, herase⟩ := region_literalChar c
    rw [List.flatMap_cons, List.foldl_append, Region.erase_append, hregion, herase]
    exact ih

theorem literalChars (s : List Char) : Erases (Token.literalChars s) (Token.literalChars []) := by
  obtain ⟨hregion, herase⟩ := region_flatMap_literalChar s
  have hopen : Region.outside.next '"' = .literal := rfl
  constructor
  · rw [Token.literalChars, List.cons_append, List.foldl_cons, List.foldl_append, hopen, hregion]
    rfl
  · rw [Token.literalChars, List.cons_append, Region.erase, hopen, Region.erase_append, herase, hregion]
    rfl

theorem flatMap {α : Type} {f g : α → List Char} {items : List α} (h : ∀ item ∈ items, Erases (f item) (g item)) :
    Erases (items.flatMap f) (items.flatMap g) := by
  induction items with
  | nil => exact ⟨rfl, rfl⟩
  | cons item rest ih =>
    rw [List.forall_mem_cons] at h
    exact h.1.append (ih h.2)

/-- The last character of a text that ends outside of literals is kept. -/
theorem exists_of_append_singleton {c : Char} (h : Erases (text ++ [c]) erased) :
    erased = Region.outside.erase text ++ [c] := by
  have hlast : (text.foldl Region.next .outside).next c = .outside := by
    have hcomplete := h.complete
    rwa [List.foldl_append] at hcomplete
  rw [← h.erase, Region.erase_append, Region.erase, if_pos (.inr hlast)]
  rfl

theorem trimEnd (h : Erases text erased) : Erases (Text.trimEnd text) (Text.trimEnd erased) := by
  induction text using List.reverseRecOn generalizing erased with
  | nil =>
    obtain rfl := h.erase
    exact ⟨rfl, rfl⟩
  | append_singleton text c ih =>
    obtain rfl := h.exists_of_append_singleton
    rw [Text.trimEnd_append_singleton, Text.trimEnd_append_singleton]
    split
    · next hblank =>
      refine ih ⟨?_, rfl⟩
      have hne : c ≠ '"' := by
        rintro rfl
        cases hblank
      -- a blank does not end a literal
      have hcomplete := h.complete
      rw [List.foldl_append, List.foldl_cons, List.foldl_nil] at hcomplete
      cases hregion : text.foldl Region.next .outside with
      | outside => rfl
      | literal =>
        rw [hregion, Region.next, if_neg hne] at hcomplete
        split at hcomplete <;> cases hcomplete
      | escape =>
        rw [hregion] at hcomplete
        cases hcomplete
    · exact h

theorem finish (h : Erases text erased) : Erases (Ocaml.finish text) (Ocaml.finish erased) :=
  h.trimEnd.append (of_unquoted (by decide))

end Erases

/-! ## Source text -/

def Token.Unquoted : Token → Prop
  | .word w => IsUnquoted w
  | _ => True

def Unquoted (tokens : List Token) : Prop := ∀ token ∈ tokens, token.Unquoted

def Line.Unquoted (line : Line) : Prop := Ocaml.Unquoted line.tokens

abbrev Token.emptied : Token → Token := Token.mapText fun _ => ""

abbrev Line.emptied : Line → Line := Line.mapTexts fun _ => ""

theorem Token.Unquoted.erases {token : Token} (h : token.Unquoted) : Erases token.chars token.emptied.chars := by
  cases token with
  | word w => exact .of_unquoted h
  | literal s => exact .literalChars s.toList
  | _ => exact .of_unquoted (by decide)

theorem gap_emptied (token next : Token) : Token.gap token.emptied next.emptied = Token.gap token next := by
  cases token <;> cases next <;> rfl

theorem unquoted_gap (token next : Token) : '"' ∉ Token.gap token next := by
  unfold Token.gap
  split <;> simp

theorem Unquoted.erases_join {tokens : List Token} (h : Unquoted tokens) :
    Erases (Token.join tokens) (Token.join (tokens.map Token.emptied)) := by
  fun_induction Token.join tokens with
  | case1 => exact ⟨rfl, rfl⟩
  | case2 token => exact (h token (List.mem_singleton_self token)).erases
  | case3 token next rest ih =>
    obtain ⟨htoken, hrest⟩ := List.forall_mem_cons.mp h
    rw [List.map_cons, List.map_cons, Token.join, gap_emptied]
    exact (htoken.erases.append (.of_unquoted (unquoted_gap token next))).append (ih hrest)

theorem Line.Unquoted.erases {line : Line} (h : line.Unquoted) : Erases line.chars line.emptied.chars := by
  have hend : Erases ['\n'] ['\n'] := .of_unquoted (by decide)
  have hindent : '"' ∉ List.replicate (2 * line.depth) ' ' := fun hmem => by cases List.eq_of_mem_replicate hmem
  have hempty : line.emptied.tokens.isEmpty = line.tokens.isEmpty := List.isEmpty_map
  unfold Line.chars
  rw [hempty]
  split
  · exact .append (.of_unquoted (by decide)) hend
  · exact ((Erases.of_unquoted hindent).append h.erases_join).append hend

/-- Lines without a quote in a word are erased to the same lines with empty literals. -/
theorem eraseLiterals_source {lines : List Line} (h : ∀ line ∈ lines, line.Unquoted) :
    eraseLiterals (source lines) = source (lines.map Line.emptied) := by
  have hlines : Erases (lines.flatMap Line.chars) (lines.flatMap fun line => line.emptied.chars) :=
    .flatMap fun line hline => (h line hline).erases
  rw [eraseLiterals, source, String.toList_ofList, hlines.finish.erase, source, List.flatMap_map]

end Ocaml

end TypeScribe
