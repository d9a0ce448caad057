import TypeScribe.Proofs.SteadyDecoders

/-!
# What bodies of decoders end with

A body reads one value after the other. What it ends with is put together here from what its readings end with, whatever
these are: the values of all of them make the result, or the first one that fails gives the message and none after it
counts. A match on tags goes on with the first branch that has the tag.
-/

namespace TypeScribe
open Ocaml (Path Term Pattern Clause Body)
open Json (Document)
open Decoder (slot attempt caught fieldOf elements constructed dispatch)

def acceptance (v : Val) : Val := .construct Runtime.okPath [v]

/-! ## Readings in order -/

/-- An evaluation that makes readings one after the other, each with a place for its message. If all succeed it ends with
what is built of the values. The first one that fails ends it with its message after its place, whatever the later ones
would give. -/
structure ReadsInOrder (readings : List (String × Ending Val)) (build : List Val → Val) (ending : Ending Val) :
    Prop where
  succeeds : ∀ values : List Val, readings.map (·.2) = values.map .value → ending = .value (acceptance (build values))
  fails : ∀ front place message back, readings = front ++ (place, .raised message) :: back →
    (∀ reading ∈ front, ∃ v, reading.2 = .value v) → ending = .value (refusal (place ++ message))
  stops : ∀ front place back, readings = front ++ (place, .fault) :: back →
    (∀ reading ∈ front, ∃ v, reading.2 = .value v) → ending = .fault

/-- Goes on with the values of readings, or ends with the message of the first one that fails after its place. -/
def readInOrder : List (String × Ending Val) → (List Val → Ending Val) → Ending Val
  | [], next => next []
  | (_, .value v) :: rest, next => readInOrder rest fun values => next (v :: values)
  | (place, .raised message) :: _, _ => .value (refusal (place ++ message))
  | (_, .fault) :: _, _ => .fault

theorem readInOrder_values {readings : List (String × Ending Val)} {values : List Val}
    (h : readings.map (·.2) = values.map .value) (next : List Val → Ending Val) :
    readInOrder readings next = next values := by
  induction readings generalizing values next with
  | nil =>
    obtain rfl := List.map_eq_nil_iff.mp h.symm
    rfl
  | cons reading rest ih =>
    obtain ⟨place, ending⟩ := reading
    obtain ⟨v, values, rfl, rfl, hrest⟩ := List.map_eq_cons_iff.mp h.symm
    exact ih hrest.symm _

theorem exists_readInOrder_append {front : List (String × Ending Val)} (h : ∀ reading ∈ front, ∃ v, reading.2 = .value v)
    (back : List (String × Ending Val)) (next : List Val → Ending Val) :
    ∃ later, readInOrder (front ++ back) next = readInOrder back later := by
  induction front generalizing next with
  | nil => exact ⟨next, rfl⟩
  | cons reading rest ih =>
    rw [List.forall_mem_cons] at h
    obtain ⟨place, ending⟩ := reading
    obtain ⟨⟨v, rfl⟩, hrest⟩ := h
    exact ih hrest _

theorem readsInOrder_readInOrder {readings : List (String × Ending Val)} {next : List Val → Ending Val}
    {build : List Val → Val}
    (hnext : ∀ values, values.length = readings.length → next values = .value (acceptance (build values))) :
    ReadsInOrder readings build (readInOrder readings next) where
  succeeds values h := by
    have hlength := congrArg List.length h
    rw [List.length_map, List.length_map] at hlength
    rw [readInOrder_values h, hnext values hlength.symm]
  fails front place message back h hfront := by
    obtain ⟨later, hlater⟩ := exists_readInOrder_append hfront ((place, .raised message) :: back) next
    rw [h, hlater]
    rfl
  stops front place back h hfront := by
    obtain ⟨later, hlater⟩ := exists_readInOrder_append hfront ((place, .fault) :: back) next
    rw [h, hlater]
    rfl

/-! ## The values read -/

theorem Decoder.slot_injective : Function.Injective slot := fun i j h => by
  have hdigits : Nat.toDigits 10 i = Nat.toDigits 10 j := by
    rw [← Nat.toList_repr, ← Nat.toList_repr]
    exact congrArg String.toList ((String.append_right_inj _).mp h)
  rw [← @Nat.ofDigitChars_ten_toDigits i, hdigits, Nat.ofDigitChars_ten_toDigits]

namespace Locals

/-- The variables after values have been read, of which the first is the `i`-th value of all. -/
def reading (locals : Locals) (i : Nat) : List Val → Locals
  | [] => locals
  | v :: rest => reading ((slot i, v) :: locals) (i + 1) rest

theorem lookup_reading_of_lt {locals : Locals} {i j : Nat} (h : j < i) (values : List Val) :
    (locals.reading i values).lookup (slot j) = locals.lookup (slot j) := by
  induction values generalizing locals i with
  | nil => rfl
  | cons v rest ih =>
    rw [reading, ih (Nat.lt_succ_of_lt h)]
    exact lookup_cons_of_ne (Decoder.slot_injective.ne (Nat.ne_of_lt h)) v

theorem lookup_reading (locals : Locals) (i : Nat) {values : List Val} {k : Nat} (hk : k < values.length) :
    (locals.reading i values).lookup (slot (i + k)) = some values[k] := by
  induction values generalizing locals i k with
  | nil => cases hk
  | cons v rest ih =>
    cases k with
    | zero =>
      rw [reading, Nat.add_zero, lookup_reading_of_lt (Nat.lt_succ_self i)]
      exact List.lookup_cons_self
    | succ k =>
      rw [reading, show i + (k + 1) = i + 1 + k by omega]
      exact ih _ _ (Nat.lt_of_succ_lt_succ hk)

theorem AtDocument.slot {locals : Locals} {document : Document} (h : locals.AtDocument document) (i : Nat) (v : Val) :
    AtDocument ((Decoder.slot i, v) :: locals) document :=
  h.cons (Decoder.slot_ne (by decide) i).symm (Decoder.not_isFunctionName_slot i) v

end Locals

section
variable {world : World} {locals : Locals}

theorem evalAll_eq_of_forall₂ {terms : List Term} {values : List Val}
    (h : List.Forall₂ (fun term v => term.eval world locals = .value v) terms values) :
    Term.evalAll world locals terms = .value values := by
  induction h with
  | nil => rfl
  | cons hv _ ih =>
    rw [Term.evalAll, hv, ih]
    rfl

theorem eval_record {fields : List (String × String)} (type : Ocaml.TypeExpr) {values : List Val}
    (h : List.Forall₂ (fun field v => locals.lookup field.2 = some v) fields values) :
    (Term.record fields type).eval world locals = .value (.record ((fields.map (·.1)).zip values)) := by
  have hfields : (fields.mapM fun field => return (field.1, ← locals.get field.2)) =
      Ending.value ((fields.map (·.1)).zip values) := by
    induction h with
    | nil => rfl
    | cons hv _ ih =>
      rw [List.mapM_cons, Locals.get, hv, ih]
      rfl
  rw [Term.eval, hfields]
  rfl

theorem eval_ok {term : Term} {v : Val} (h : term.eval world locals = .value v) :
    (Runtime.ok term).eval world locals = .value (acceptance v) := by
  rw [Runtime.ok, Term.eval, Term.evalAll, h]
  rfl

theorem eval_error {term : Term} {message : String} (h : term.eval world locals = .value (.text message)) :
    (Runtime.error term).eval world locals = .value (refusal message) := by
  rw [Runtime.error, Term.eval, Term.evalAll, h]
  rfl

theorem eval_concat {left right : Term} {s t : String} (hleft : left.eval world locals = .value (.text s))
    (hright : right.eval world locals = .value (.text t)) :
    (Term.concat left right).eval world locals = .value (.text (s ++ t)) := by
  rw [Term.eval, hleft, hright]
  rfl

theorem eval_text (s : String) : (Term.text s).eval world locals = .value (.text s) := by
  rw [Term.eval]

theorem eval_constructed (name : String) (values : List Val) :
    (constructed name values.length).eval world (locals.reading 0 values) =
      .value (.construct ⟨[], Ocaml.constructorName name⟩ values) := by
  have hvalues : List.Forall₂ (fun term v => term.eval world (locals.reading 0 values) = .value v)
      ((List.range values.length).map fun i => Term.var (slot i)) values := by
    refine List.forall₂_iff_get.mpr ⟨by simp, fun k hk hk' => ?_⟩
    have hlookup := Locals.lookup_reading locals 0 hk'
    rw [Nat.zero_add] at hlookup
    simpa using Term.eval_var hlookup
  rw [constructed, Term.eval, evalAll_eq_of_forall₂ hvalues]
  rfl

theorem eval_attempt (read : Term) (place name : String) (next : Body) :
    (attempt read place name next).eval world locals =
      match read.eval world locals with
      | .value v => next.eval world ((name, v) :: locals)
      | .raised message => .value (refusal (place ++ message))
      | .fault => .fault := by
  rw [attempt, Body.eval]
  cases read.eval world locals <;> rfl

end

/-! ## Records -/

namespace Context

variable {context : Context}

/-- What is read of a field: what stands before the message if it cannot be read, and what the reading ends with. -/
def fieldReading (context : Context) (decoder : String) (world : World) (document : Document) (field : RecordField)
    (read : Term) : String × Ending Val :=
  (decoder ++ ": field '" ++ context.options.jsonKey field.name ++ "': ", read.eval world [("json", .json document)])

theorem eval_readFields {decoder : String} {last : Body} {i : Nat} {fields : List RecordField} {body : Body}
    (h : context.readFields decoder last i fields = .ok body) :
    ∃ reads, List.Forall₂ context.ReadsField fields reads ∧
      ∀ (world : World) (locals : Locals) (document : Document), locals.AtDocument document →
        body.eval world locals = readInOrder (List.zipWith (context.fieldReading decoder world document) fields reads)
          fun values => last.eval world (locals.reading i values) := by
  induction fields generalizing i body with
  | nil =>
    obtain rfl := pure_eq_ok.mp h
    exact ⟨[], .nil, fun _ _ _ _ => rfl⟩
  | cons field rest ih =>
    obtain ⟨read, hread, h⟩ := bind_eq_ok.mp h
    obtain ⟨next, hnext, h⟩ := bind_eq_ok.mp h
    obtain rfl := pure_eq_ok.mp h
    obtain ⟨reads, hreads, hnext⟩ := ih hnext
    have hfield := readsField_of_fieldRead hread
    refine ⟨read :: reads, .cons hfield hreads, fun world locals document hlocals => ?_⟩
    rw [eval_attempt, hfield.isSteadyAtDocument world locals document hlocals, List.zipWith_cons_cons, fieldReading]
    cases read.eval world [("json", .json document)] with
    | value v => exact hnext world _ document (hlocals.slot i v)
    | raised message => rfl
    | fault => rfl

/-- A record is built of the values of its fields, each under its label. -/
theorem readsInOrder_recordDecoder {decoder : String} {type : Ocaml.TypeExpr} {fields : List RecordField} {body : Body}
    (h : context.recordDecoder decoder type fields = .ok body) :
    ∃ reads, List.Forall₂ context.ReadsField fields reads ∧ ∀ (world : World) (document : Document),
      ReadsInOrder (List.zipWith (context.fieldReading decoder world document) fields reads)
        (fun values => .record ((fields.map fun field => Ocaml.label field.name).zip values))
        (body.eval world [("json", .json document)]) := by
  obtain ⟨reads, hreads, heval⟩ := eval_readFields h
  refine ⟨reads, hreads, fun world document => ?_⟩
  rw [heval world _ document (Locals.atDocument_json document)]
  refine readsInOrder_readInOrder fun values hvalues => ?_
  rw [List.length_zipWith, ← hreads.length_eq, Nat.min_self] at hvalues
  have hlabels : List.Forall₂
      (fun label v => (Locals.reading [("json", .json document)] 0 values).lookup label.2 = some v)
      (fields.mapIdx fun i field => (Ocaml.label field.name, slot i)) values := by
    refine List.forall₂_iff_get.mpr ⟨by simp [hvalues], fun k hk hk' => ?_⟩
    have hlookup := Locals.lookup_reading [("json", .json document)] 0 hk'
    rw [Nat.zero_add] at hlookup
    simpa using hlookup
  have hnames : (fields.mapIdx fun i field => (Ocaml.label field.name, slot i)).map (·.1) =
      fields.map fun field => Ocaml.label field.name := by
    refine List.ext_getElem (by simp) fun k _ _ => ?_
    simp
  rw [Body.eval, ← hnames]
  exact eval_ok (eval_record type hlabels)

end Context

/-! ## Elements of arrays -/

/-- The length of an array is its number of elements, and numbers are compared and written as they are. -/
structure World.Counts (world : World) : Prop where
  arrayLength : ∀ documents, world ⟨["Array"], "length"⟩ [.items documents] = .value (.number documents.length)
  min : ∀ m n, world ⟨[], "min"⟩ [.number m, .number n] = .value (.number (Min.min m n))
  stringOfInt : ∀ n, world ⟨[], "string_of_int"⟩ [.number n] = .value (.text (toString n))

/-- The world of the run-time library for JSON values that are made of texts, whole numbers, arrays and objects. There
are no decoders of other types in it. -/
def World.library : World := fun path arguments =>
  match path.modules, path.name, arguments with
  | ["Aeson", "Decode"], "string", [] => .value <| .decoder fun
    | .text s => .value (.text s)
    | _ => .raised "Expected string"
  | ["Aeson", "Decode"], "int", [] => .value <| .decoder fun
    | .number (.integer n) => .value (.number n)
    | _ => .raised "Expected int"
  | ["Aeson", "Decode"], "field", [.text key, .decoder read] => .value <| .decoder fun
    | .map entries =>
      match entries.lookup key with
      | some document => read document
      | none => .raised ("Expected field '" ++ key ++ "'")
    | _ => .raised "Expected object"
  | ["Aeson", "Decode"], "optional", [.decoder read] => .value <| .decoder fun document =>
    match read document with
    | .value v => .value (.construct Runtime.somePath [v])
    | .raised _ => .value (.construct Runtime.nonePath [])
    | .fault => .fault
  | ["Aeson", "Decode"], "array", [.decoder read] => .value <| .decoder fun
    | .sequence documents => return .items (← documents.mapM fun document => do
      match ← read document with
      | .json item => return item
      | _ => .fault)
    | _ => .raised "Expected array"
  | ["Js", "Json"], "decodeString", [] => .value <| .decoder fun
    | .text s => .value (.construct Runtime.somePath [.text s])
    | _ => .value (.construct Runtime.nonePath [])
  | ["Array"], "length", [.items documents] => .value (.number documents.length)
  | [], "min", [.number m, .number n] => .value (.number (Min.min m n))
  | [], "string_of_int", [.number n] => .value (.text (toString n))
  | _, _, _ => .fault

theorem World.counts_library : World.library.Counts where
  arrayLength _ := rfl
  min _ _ := rfl
  stringOfInt _ := rfl

def positionPlace (place : String) (i : Nat) : String := place ++ "position " ++ toString i ++ ": "

/-- What is read of the elements of an array from the `i`-th on, each by a decoder of its own. -/
def elementReadings (world : World) (place : String) : Nat → List Term → List Document → List (String × Ending Val)
  | i, decoder :: decoders, document :: documents =>
    (positionPlace place i, decoder.eval world [] >>= (·.feed [.json document])) ::
      elementReadings world place (i + 1) decoders documents
  | _, _, _ => []

/-- An evaluation that decodes the arguments of a constructor from the elements of an array. If there is another number
of them it ends with the first position that one of the two does not have. -/
structure DecodesElements (world : World) (place : String) (constructor : Path) (decoders : List Term)
    (documents : List Document) (ending : Ending Val) : Prop where
  mismatch : documents.length ≠ decoders.length → ending = .value (refusal (
    positionPlace place (min documents.length decoders.length) ++ "expected " ++ toString decoders.length ++
      " elements."))
  inOrder : documents.length = decoders.length →
    ReadsInOrder (elementReadings world place 0 decoders documents) (.construct constructor) ending

structure DecodesArray (world : World) (document : Document) (source : Term) (place : String) (constructor : Path)
    (decoders : List Term) (ending : Ending Val) : Prop where
  raised : ∀ message, source.eval world [("json", .json document)] = .raised message →
    ending = .value (refusal (place ++ message))
  items : ∀ documents, source.eval world [("json", .json document)] = .value (.items documents) →
    DecodesElements world place constructor decoders documents ending

theorem length_elementReadings {world : World} {place : String} {i : Nat} {decoders : List Term}
    {documents : List Document} (h : documents.length = decoders.length) :
    (elementReadings world place i decoders documents).length = decoders.length := by
  induction decoders generalizing i documents with
  | nil => cases documents <;> rfl
  | cons decoder rest ih =>
    cases documents with
    | nil => cases h
    | cons document documents => exact congrArg Nat.succ (ih (Nat.succ.inj h))

/-- An element is decoded wherever the array is at hand and its decoder is steady. -/
theorem Ocaml.Term.IsSteady.eval_onElement {decoder : Term} (h : decoder.IsSteady) {world : World} {locals : Locals}
    (hclear : locals.Clear) {documents : List Document} (hitems : locals.lookup "items" = some (.items documents))
    {i : Nat} {document : Document} (hdocument : documents[i]? = some document) :
    (Term.apply decoder [.element "items" i]).eval world locals =
      decoder.eval world [] >>= (·.feed [.json document]) := by
  have helement : (Term.element "items" i).eval world locals = .value (.json document) := by
    rw [eval, Locals.get, hitems, Ending.value_bind]
    simp only [hdocument]
    rfl
  rw [eval_run helement, h world locals hclear]

namespace Context

variable {context : Context} {body : Body}

theorem eval_readElements {place : String} {last : Body} {i : Nat} {arguments : List Value}
    (h : context.readElements place last i arguments = .ok body) :
    ∃ decoders, arguments.mapM context.raising = .ok decoders ∧
      ∀ (world : World) (locals : Locals) (documents : List Document), locals.Clear →
        locals.lookup "items" = some (.items documents) → documents.length = i + arguments.length →
        body.eval world locals = readInOrder (elementReadings world place i decoders (documents.drop i))
          fun values => last.eval world (locals.reading i values) := by
  induction arguments generalizing i body with
  | nil =>
    obtain rfl := pure_eq_ok.mp h
    exact ⟨[], rfl, fun _ _ _ _ _ _ => rfl⟩
  | cons argument rest ih =>
    obtain ⟨decoder, hdecoder, h⟩ := bind_eq_ok.mp h
    obtain ⟨next, hnext, h⟩ := bind_eq_ok.mp h
    obtain rfl := pure_eq_ok.mp h
    obtain ⟨decoders, hdecoders, hnext⟩ := ih hnext
    refine ⟨decoder :: decoders, mapM_eq_ok.mpr (.cons hdecoder (mapM_eq_ok.mp hdecoders)), ?_⟩
    intro world locals documents hclear hitems hlength
    rw [List.length_cons] at hlength
    have hi : i < documents.length := by omega
    rw [eval_attempt, (isSteady_raising hdecoder).eval_onElement hclear hitems (List.getElem?_eq_getElem hi),
      List.drop_eq_getElem_cons hi, elementReadings]
    cases decoder.eval world [] >>= (·.feed [.json documents[i]]) with
    | value v =>
      refine hnext world _ documents (hclear.cons (Decoder.not_isFunctionName_slot i) v) ?_ (by omega)
      rw [Locals.lookup_cons_of_ne (Decoder.slot_ne (by decide) i).symm]
      exact hitems
    | raised message => rfl
    | fault => rfl

theorem eval_wrongLength {world : World} (hworld : world.Counts) {locals : Locals} (hclear : locals.Clear)
    {documents : List Document} (hitems : locals.lookup "items" = some (.items documents)) (place : String)
    (arity : Nat) :
    (Runtime.error (.concat (.text (place ++ "position ")) (.concat
        (.apply (.var "string_of_int") [.apply (.var "min") [Runtime.arrayLength "items", .number arity]])
        (.text (": expected " ++ toString arity ++ " elements."))))).eval world locals =
      .value (refusal (positionPlace place (min documents.length arity) ++ "expected " ++ toString arity ++
        " elements.")) := by
  have hshortest : (Term.apply (.var "min") [Runtime.arrayLength "items", .number arity]).eval world locals =
      .value (.number ((min documents.length arity : Nat) : Int)) := by
    have harguments : Term.evalAll world locals [Runtime.arrayLength "items", .number arity] =
        .value [.number documents.length, .number arity] := by
      rw [Term.evalAll, Contained.eval_arrayLength hworld.arrayLength hitems, Term.evalAll, Term.eval]
      rfl
    have hmin : Min.min (documents.length : Int) arity = (min documents.length arity : Nat) := by omega
    rw [Term.var, Term.eval_apply_path (hclear.get?_eq_none fun _ => .inr (.inl rfl)) harguments,
      World.call_eq (by simp [Val.isJson]), hworld.min, hmin]
  have htext : (Term.apply (.var "string_of_int")
      [.apply (.var "min") [Runtime.arrayLength "items", .number arity]]).eval world locals =
      .value (.text (toString (min documents.length arity))) := by
    have harguments : Term.evalAll world locals [.apply (.var "min") [Runtime.arrayLength "items", .number arity]] =
        .value [.number ((min documents.length arity : Nat) : Int)] := by
      rw [Term.evalAll, hshortest]
      rfl
    rw [Term.var, Term.eval_apply_path (hclear.get?_eq_none fun _ => .inr (.inr rfl)) harguments,
      World.call_eq (by simp [Val.isJson]), hworld.stringOfInt]
    rfl
  rw [eval_error (eval_concat (eval_text _) (eval_concat htext (eval_text _)))]
  simp only [positionPlace, String.append_assoc]
  rfl

/-- The arguments of a constructor are decoded from the array that `source` reads. -/
theorem decodesArray_positionalDecoder {source : Term} {place : String} {constructor : Positional}
    (h : context.positionalDecoder source place constructor = .ok body) :
    ∃ decoders, constructor.arguments.mapM context.raising = .ok decoders ∧
      ∀ (world : World) (document : Document), world.Counts →
        DecodesArray world document source place ⟨[], Ocaml.constructorName constructor.name⟩ decoders
          (body.eval world [("json", .json document)]) := by
  obtain ⟨next, hnext, h⟩ := bind_eq_ok.mp h
  obtain rfl := pure_eq_ok.mp h
  obtain ⟨decoders, hdecoders, heval⟩ := eval_readElements hnext
  have harity : constructor.arguments.length = decoders.length := (mapM_eq_ok.mp hdecoders).length_eq
  refine ⟨decoders, hdecoders, fun world document hworld => ⟨fun message hsource => ?_, fun documents hsource => ?_⟩⟩
  · rw [Body.eval, hsource]
    rfl
  have hclear : Locals.Clear [("items", .items documents), ("json", .json document)] :=
    (Locals.clear_nil.cons (by decide) _).cons (by decide) _
  constructor
  · intro hlength
    rw [Body.eval, hsource]
    simp only [Contained.failed?_of_value, Contained.failed?_differs hworld.arrayLength]
    rw [harity, if_neg hlength, eval_wrongLength hworld hclear List.lookup_cons_self]
    rfl
  · intro hlength
    rw [Body.eval, hsource]
    simp only [Contained.failed?_of_value, Contained.failed?_differs hworld.arrayLength]
    rw [harity, if_pos hlength]
    have hbody := heval world _ documents hclear List.lookup_cons_self (by omega)
    rw [List.drop_zero] at hbody
    show ReadsInOrder _ _ (next.eval world [("items", .items documents), ("json", .json document)])
    rw [hbody]
    refine readsInOrder_readInOrder fun values hvalues => ?_
    rw [length_elementReadings hlength, ← harity] at hvalues
    rw [Body.eval, ← hvalues]
    exact eval_ok (eval_constructed _ _)

end Context

/-! ## Arguments -/

/-- An evaluation that decodes the arguments of a constructor, where `read` runs a decoder on what holds them. An only
argument is decoded from all of it, several ones are decoded from the elements of an array. -/
def DecodesArguments (world : World) (document : Document) (read : Term → Term) (place : String) (constructor : Path) :
    List Term → Ending Val → Prop
  | [], ending => ending = .value (acceptance (.construct constructor []))
  | [decoder], ending =>
    ReadsInOrder [(place, (read decoder).eval world [("json", .json document)])] (.construct constructor) ending
  | decoders, ending => DecodesArray world document (read elements) place constructor decoders ending

namespace Context

variable {context : Context} {body : Body}

theorem readsInOrder_argumentDecoder {read : Term → Term} {place name : String} {argument : Value}
    (h : context.argumentDecoder read place name argument = .ok body) :
    ∃ decoder, context.raising argument = .ok decoder ∧ ∀ (world : World) (document : Document),
      ReadsInOrder [(place, (read decoder).eval world [("json", .json document)])]
        (.construct ⟨[], Ocaml.constructorName name⟩) (body.eval world [("json", .json document)]) := by
  obtain ⟨decoder, hdecoder, h⟩ := bind_eq_ok.mp h
  obtain rfl := pure_eq_ok.mp h
  refine ⟨decoder, hdecoder, fun world document => ?_⟩
  have hbody : (attempt (read decoder) place (slot 0) (.value (Runtime.ok (constructed name 1)))).eval world
      [("json", .json document)] =
      readInOrder [(place, (read decoder).eval world [("json", .json document)])] fun values =>
        (Body.value (Runtime.ok (constructed name 1))).eval world (Locals.reading [("json", .json document)] 0 values) := by
    rw [eval_attempt]
    cases (read decoder).eval world [("json", .json document)] <;> rfl
  rw [hbody]
  refine readsInOrder_readInOrder fun values hvalues => ?_
  rw [Body.eval, show 1 = values.length from hvalues.symm]
  exact eval_ok (eval_constructed name values)

theorem decodesArguments_contentsDecoder {decoder : String} {constructor : Positional}
    (h : context.contentsDecoder decoder constructor = .ok body) :
    ∃ decoders, constructor.arguments.mapM context.raising = .ok decoders ∧
      ∀ (world : World) (document : Document), world.Counts →
        DecodesArguments world document (fieldOf contentsKey)
          (decoder ++ ": " ++ Ocaml.constructorName constructor.name ++ ": ")
          ⟨[], Ocaml.constructorName constructor.name⟩ decoders (body.eval world [("json", .json document)]) := by
  unfold contentsDecoder at h
  split at h
  · next hnil =>
    obtain rfl := pure_eq_ok.mp h
    refine ⟨[], by rw [hnil]; rfl, fun world document _ => ?_⟩
    rw [Body.eval]
    exact eval_ok (eval_constructed constructor.name [])
  · next argument hsingle =>
    obtain ⟨decoder, hdecoder, hreads⟩ := readsInOrder_argumentDecoder h
    refine ⟨[decoder], ?_, fun world document _ => hreads world document⟩
    rw [hsingle]
    exact mapM_eq_ok.mpr (.cons hdecoder .nil)
  · next hnil hsingle =>
    obtain ⟨decoders, hdecoders, hbody⟩ := decodesArray_positionalDecoder h
    refine ⟨decoders, hdecoders, fun world document hworld => ?_⟩
    have hlength := (mapM_eq_ok.mp hdecoders).length_eq
    obtain _ | ⟨first, _ | ⟨second, rest⟩⟩ := decoders
    · exact (hnil (List.eq_nil_of_length_eq_zero hlength)).elim
    · obtain ⟨argument, hargument⟩ := List.length_eq_one_iff.mp hlength
      exact (hsingle argument hargument).elim
    · exact hbody world document hworld

end Context

end TypeScribe
