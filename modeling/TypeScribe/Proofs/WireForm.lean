import TypeScribe.Proofs.ReadDepth
import TypeScribe.Proofs.WrittenDescriptors

/-!
# Descriptors survive their JSON form

`parse_print` says what reading makes of the text of any descriptors: the descriptors, or the recursion limit if brackets
nest deeper in that text than `depthLimit`. `parse_print_of_parse` says that the second never happens to descriptors
that were read, in whatever form they were given.
-/

namespace TypeScribe

open Json Json.Reader

namespace Descriptor

theorem textual_sequence (descriptors : List Descriptor) : (Document.sequence (descriptors.map toDocument)).Textual :=
  .sequence (List.forall_mem_map.mpr fun descriptor _ => descriptor.textual)

theorem nesting_print (descriptors : List Descriptor) :
    nesting (print descriptors) = (Document.sequence (descriptors.map toDocument)).depth :=
  Document.nesting_toText (textual_sequence descriptors)

theorem list_reader_readsBack (descriptors : List Descriptor) :
    ReadsBack (list reader) depthLimit (.sequence (descriptors.map toDocument)) descriptors := by
  refine list_readsBack (fun depth' hdepth => ?_) (List.forall_mem_map.mpr fun _ _ => .map _)
  exact List.forall₂_map_left_iff.mpr <| List.forall₂_same.mpr fun descriptor _ => descriptor.readsBack (by omega)

theorem parse_print (descriptors : List Descriptor) :
    parse (print descriptors) =
      if nesting (print descriptors) ≤ depthLimit then .ok descriptors else .error .recursionLimit := by
  rw [nesting_print]
  exact run_toText (list_reader_readsBack descriptors)

/-- Descriptors that were read nest no deeper than brackets may. -/
theorem nesting_print_le_of_parse {text : String} {descriptors : List Descriptor} (h : parse text = .ok descriptors) :
    nesting (print descriptors) ≤ depthLimit := by
  have hgives : (list reader).Gives depthLimit descriptors := by
    rw [parse, run] at h
    split at h
    · cases h
    · next xs rest hread =>
      split at h
      · obtain rfl := Except.ok.inj h
        exact ⟨text.toList, rest, hread⟩
      · cases h
  obtain ⟨depth', hdepth, hitems⟩ := hgives.list
  have hdeepest : Document.depthOfItems (descriptors.map toDocument) ≤ depth' :=
    Document.depthOfItems_le.mpr (List.forall_mem_map.mpr fun descriptor hd => writesWithin (hitems descriptor hd))
  rw [nesting_print, Document.depth, hdepth]
  omega

theorem parse_print_of_parse {text : String} {descriptors : List Descriptor} (h : parse text = .ok descriptors) :
    parse (print descriptors) = .ok descriptors := by
  rw [parse_print, if_pos (nesting_print_le_of_parse h)]

/-- The text of descriptors is read back as the descriptors exactly if brackets nest no deeper in it than they may, and
what was read from any text is read back from its own text. -/
theorem print_roundTrips :
    (∀ descriptors,
      (nesting (print descriptors) ≤ depthLimit → parse (print descriptors) = .ok descriptors) ∧
      (depthLimit < nesting (print descriptors) → parse (print descriptors) = .error .recursionLimit)) ∧
    ∀ text descriptors, parse text = .ok descriptors → parse (print descriptors) = .ok descriptors := by
  refine ⟨fun descriptors => ⟨fun h => ?_, fun h => ?_⟩, fun text descriptors => parse_print_of_parse⟩
  · rw [parse_print, if_pos h]
  · rw [parse_print, if_neg (Nat.not_le.mpr h)]

/-! ## Wide records -/

def intFields : Nat → Value
  | 0 => .field "last" (.primitive (.scalar .int))
  | n + 1 => .product (.field ("field_" ++ toString n) (.primitive (.scalar .int))) (intFields n)

def intRecord (n : Nat) : Descriptor where
  identity := ⟨"p", "m", "wide"⟩
  displayName := "wide"
  constructor := .value (.record "wide" (intFields n))

theorem nesting_intRecord (n : Nat) : nesting (print [intRecord n]) = 2 * n + 8 := by
  have hfields : (intFields n).toDocument.depth = 2 * n + 3 := by
    induction n with
    | zero => rfl
    | succ n ih =>
      simp only [intFields, Value.toDocument, Primitive.toDocument, Document.depth_tagged, Document.depth,
        Document.depthOfItems, Document.depthOfEntries, ih]
      omega
  rw [nesting_print]
  simp only [List.map_cons, List.map_nil, toDocument, intRecord, Identity.depth_toDocument, Constructor.toDocument,
    Alternatives.toDocument, Document.depth_tagged, Document.depth, Document.depthOfItems, Document.depthOfEntries,
    hfields]
  omega

/-- A record of one field, given with keys in another order, a key that is passed over, a field and the identity as
sequences and a scalar as a map. -/
def givenOtherwise : Document :=
  .sequence [.map [
    ("since", .null),
    ("constructor", .tagged "value" <| .tagged "record" <| .sequence [.text "wide",
      .tagged "field" (.sequence [.text "last", .tagged "primitive" (.tagged "int" .null)])]),
    ("identity", .ofTexts ["p", "m", "wide"]),
    ("display_name", .text "wide")]]

/-- A record of 60 integer fields is read back, one of 61 is beyond the limit, and one that was given otherwise is read
back from its own text. -/
theorem intRecord_roundTrips :
    parse (print [intRecord 59]) = .ok [intRecord 59] ∧
    parse (print [intRecord 60]) = .error .recursionLimit ∧
    ∃ descriptors, parse givenOtherwise.toText = .ok descriptors ∧ print descriptors = print [intRecord 0] ∧
      parse (print descriptors) = .ok descriptors := by
  refine ⟨(print_roundTrips.1 _).1 ?_, (print_roundTrips.1 _).2 ?_, ?_⟩
  · rw [nesting_intRecord]
    decide
  · rw [nesting_intRecord]
    decide
  · have hprint : (parse givenOtherwise.toText).toOption.map print = some (print [intRecord 0]) := by decide +kernel
    cases hparse : parse givenOtherwise.toText with
    | error e =>
      rw [hparse] at hprint
      cases hprint
    | ok descriptors =>
      rw [hparse] at hprint
      exact ⟨descriptors, rfl, Option.some.inj hprint, print_roundTrips.2 _ _ hparse⟩

end Descriptor

end TypeScribe
