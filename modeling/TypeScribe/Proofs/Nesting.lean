import TypeScribe.Json.Document

/-!
# How deep brackets nest

`nesting` counts the brackets of a JSON text that are open at once, at most; brackets inside texts do not count.
`Document.depth` is the same count on a document. `nesting_toText` says that they agree for a document without numbers
and constants, whose text consists of quoted texts, brackets, commas and colons.
-/

namespace TypeScribe.Json

namespace Document

/-! ## Documents -/

mutual

/-- How many brackets of a document are open at once, at most. -/
def depth : Document → Nat
  | .sequence items => depthOfItems items + 1
  | .map entries => depthOfEntries entries + 1
  | _ => 0

def depthOfItems : List Document → Nat
  | [] => 0
  | item :: rest => max item.depth (depthOfItems rest)

def depthOfEntries : List (String × Document) → Nat
  | [] => 0
  | (_, value) :: rest => max value.depth (depthOfEntries rest)

end

theorem depthOfItems_le {items : List Document} {n : Nat} :
    depthOfItems items ≤ n ↔ ∀ item ∈ items, item.depth ≤ n := by
  induction items with
  | nil => simp [depthOfItems]
  | cons item rest ih => rw [depthOfItems, Nat.max_le, ih, List.forall_mem_cons]

/-- A document that is made of texts, sequences and maps. -/
inductive Textual : Document → Prop where
  | text (s : String) : Textual (.text s)
  | sequence {items : List Document} : (∀ item ∈ items, Textual item) → Textual (.sequence items)
  | map {entries : List (String × Document)} : (∀ entry ∈ entries, Textual entry.2) → Textual (.map entries)

/-! ## What is written for several items -/

def printEntry (entry : String × Document) : List Char :=
  escapedText entry.1 ++ ':' :: entry.2.print

theorem printItems_cons (item : Document) (rest : List Document) :
    printItems (item :: rest) = item.print ++ rest.flatMap fun next => ',' :: next.print := by
  induction rest generalizing item with
  | nil => simp [printItems]
  | cons next rest ih => rw [printItems, ih, List.flatMap_cons, List.cons_append]

theorem printEntries_cons (entry : String × Document) (rest : List (String × Document)) :
    printEntries (entry :: rest) = printEntry entry ++ rest.flatMap fun next => ',' :: printEntry next := by
  induction rest generalizing entry with
  | nil => simp [printEntries, printEntry]
  | cons next rest ih =>
    rw [printEntries, ih, List.flatMap_cons]
    simp [printEntry]

end Document

/-! ## Texts -/

/-- What a scan for brackets is in. -/
inductive Scan where
  | outside
  | inText
  | escaped
deriving DecidableEq, Repr

/-- How many brackets are open at once, at most, in the rest of a text before which `opened` are open. -/
def Scan.deepest : Scan → Nat → List Char → Nat
  | _, opened, [] => opened
  | .outside, opened, c :: rest =>
    if c = '"' then inText.deepest opened rest
    else if c = '[' ∨ c = '{' then outside.deepest (opened + 1) rest
    else if c = ']' ∨ c = '}' then max opened (outside.deepest (opened - 1) rest)
    else outside.deepest opened rest
  | .inText, opened, c :: rest =>
    if c = '"' then outside.deepest opened rest
    else if c = '\\' then escaped.deepest opened rest
    else inText.deepest opened rest
  | .escaped, opened, _ :: rest => inText.deepest opened rest

/-- How many brackets of a JSON text are open at once, at most. -/
def nesting (text : String) : Nat := Scan.outside.deepest 0 text.toList

namespace Scan

theorem le_deepest (scan : Scan) (opened : Nat) (text : List Char) : opened ≤ scan.deepest opened text := by
  fun_induction deepest scan opened text with
  | case3 => omega
  | case4 => exact Nat.le_max_left _ _
  | _ => first | exact Nat.le_refl _ | assumption

theorem deepest_escapedChar (c : Char) (opened : Nat) (rest : List Char) :
    inText.deepest opened (escapedChar c ++ rest) = inText.deepest opened rest := by
  have hdigit : ∀ n < 16, Nat.digitChar n ≠ '"' ∧ Nat.digitChar n ≠ '\\' := by decide
  unfold escapedChar
  split
  · simp [deepest]
  · simp [deepest]
  · simp [deepest]
  · simp [deepest]
  · simp [deepest]
  · simp [deepest]
  · simp [deepest]
  · next quote backslash _ _ _ _ _ =>
    have hquote : c ≠ '"' := quote
    have hbackslash : c ≠ '\\' := backslash
    split
    · next hcontrol =>
      have hhigh := hdigit (c.toNat / 16) (by omega)
      have hlow := hdigit (c.toNat % 16) (by omega)
      simp [deepest, hhigh, hlow]
    · simp [deepest, hquote, hbackslash]

/-- Nothing in a quoted text opens or closes a bracket. -/
theorem deepest_escapedText (s : String) (opened : Nat) (rest : List Char) :
    outside.deepest opened (escapedText s ++ rest) = outside.deepest opened rest := by
  have hbody : ∀ cs : List Char,
      inText.deepest opened (cs.flatMap escapedChar ++ '"' :: rest) = outside.deepest opened rest := by
    intro cs
    induction cs with
    | nil => simp [deepest]
    | cons c cs ih => rw [List.flatMap_cons, List.append_assoc, deepest_escapedChar, ih]
  have hopening : escapedText s ++ rest = '"' :: (s.toList.flatMap escapedChar ++ '"' :: rest) := by
    simp [escapedText]
  rw [hopening, deepest, if_pos rfl, hbody]

theorem deepest_mark {c : Char} (h : c = ',' ∨ c = ':') (opened : Nat) (rest : List Char) :
    outside.deepest opened (c :: rest) = outside.deepest opened rest := by
  rcases h with rfl | rfl <;> simp [deepest]

theorem deepest_opening {c : Char} (h : c = '[' ∨ c = '{') (opened : Nat) (rest : List Char) :
    outside.deepest opened (c :: rest) = outside.deepest (opened + 1) rest := by
  rcases h with rfl | rfl <;> simp [deepest]

theorem deepest_closing {c : Char} (h : c = ']' ∨ c = '}') (opened : Nat) (rest : List Char) :
    outside.deepest (opened + 1) (c :: rest) = max (opened + 1) (outside.deepest opened rest) := by
  rcases h with rfl | rfl <;> simp [deepest]

end Scan

namespace Document
open Scan

/-- The document is written with brackets as deep as its depth, and no bracket is left open. -/
def ScansAs (document : Document) : Prop :=
  ∀ opened rest, outside.deepest opened (document.print ++ rest) =
    max (opened + document.depth) (outside.deepest opened rest)

theorem deepest_printItems {items : List Document} (h : ∀ item ∈ items, item.ScansAs) (opened : Nat) (rest : List Char) :
    outside.deepest opened (printItems items ++ rest) =
      max (opened + depthOfItems items) (outside.deepest opened rest) := by
  have hfollowing : ∀ items : List Document, (∀ item ∈ items, item.ScansAs) →
      outside.deepest opened ((items.flatMap fun next => ',' :: next.print) ++ rest) =
        max (opened + depthOfItems items) (outside.deepest opened rest) := by
    intro items h
    induction items with
    | nil => simp [depthOfItems, le_deepest]
    | cons item items ih =>
      rw [List.forall_mem_cons] at h
      rw [List.flatMap_cons, List.cons_append, List.cons_append, deepest_mark (.inl rfl), List.append_assoc,
        h.1, ih h.2, depthOfItems]
      omega
  cases items with
  | nil => exact hfollowing [] h
  | cons item items =>
    rw [List.forall_mem_cons] at h
    rw [printItems_cons, List.append_assoc, h.1, hfollowing items h.2, depthOfItems]
    omega

theorem deepest_printEntry {entry : String × Document} (h : entry.2.ScansAs) (opened : Nat) (rest : List Char) :
    outside.deepest opened (printEntry entry ++ rest) =
      max (opened + entry.2.depth) (outside.deepest opened rest) := by
  rw [printEntry, List.append_assoc, deepest_escapedText, List.cons_append, deepest_mark (.inr rfl), h]

theorem deepest_printEntries {entries : List (String × Document)} (h : ∀ entry ∈ entries, entry.2.ScansAs)
    (opened : Nat) (rest : List Char) :
    outside.deepest opened (printEntries entries ++ rest) =
      max (opened + depthOfEntries entries) (outside.deepest opened rest) := by
  have hfollowing : ∀ entries : List (String × Document), (∀ entry ∈ entries, entry.2.ScansAs) →
      outside.deepest opened ((entries.flatMap fun next => ',' :: printEntry next) ++ rest) =
        max (opened + depthOfEntries entries) (outside.deepest opened rest) := by
    intro entries h
    induction entries with
    | nil => simp [depthOfEntries, le_deepest]
    | cons entry entries ih =>
      rw [List.forall_mem_cons] at h
      rw [List.flatMap_cons, List.cons_append, List.cons_append, deepest_mark (.inl rfl), List.append_assoc,
        deepest_printEntry h.1, ih h.2, depthOfEntries]
      omega
  cases entries with
  | nil => exact hfollowing [] h
  | cons entry entries =>
    rw [List.forall_mem_cons] at h
    rw [printEntries_cons, List.append_assoc, deepest_printEntry h.1, hfollowing entries h.2, depthOfEntries]
    omega

theorem Textual.scansAs {document : Document} (h : document.Textual) : document.ScansAs := by
  intro opened rest
  induction h generalizing opened rest with
  | text s =>
    rw [print, deepest_escapedText]
    simp [depth, le_deepest]
  | @sequence items _ ih =>
    have hprint : (Document.sequence items).print ++ rest = '[' :: (printItems items ++ ']' :: rest) := by simp [print]
    rw [hprint, deepest_opening (.inl rfl), deepest_printItems ih, deepest_closing (.inl rfl), depth]
    omega
  | @map entries _ ih =>
    have hprint : (Document.map entries).print ++ rest = '{' :: (printEntries entries ++ '}' :: rest) := by simp [print]
    rw [hprint, deepest_opening (.inr rfl), deepest_printEntries ih, deepest_closing (.inr rfl), depth]
    omega

/-- Brackets nest in the text of a document as deep as in the document. -/
theorem nesting_toText {document : Document} (h : document.Textual) : nesting document.toText = document.depth := by
  have hscan := h.scansAs 0 []
  rw [List.append_nil, Nat.zero_add] at hscan
  rw [nesting, toText, String.toList_ofList, hscan, deepest, Nat.max_zero]

end Document

end TypeScribe.Json
