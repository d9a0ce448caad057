import TypeScribe.Proofs.InOrder
import TypeScribe.Proofs.PlainNames
import TypeScribe.Proofs.SelfReferences

/-!
# Labels and type names that differ

The labels of a record and the names of types are names of the descriptor with the first letter small, and with an
underscore at the end of a keyword. Names that differ stay apart unless one of them is a keyword and another is that
keyword with the underscore.
-/

namespace TypeScribe
open Ocaml (keywords escapeKeyword TypeBody TypeDefinition Body Function)
open Ocaml.Lexer (isWordChar forall_isWordChar)

/-! ## Keywords -/

namespace Ocaml

theorem notMem_keywords_append (name : String) : name ++ "_" ∉ keywords := by
  have hlast : ∀ word ∈ keywords, word.toList.getLast? ≠ some '_' := by decide
  exact fun hmem => hlast _ hmem (by simp [String.toList_append])

theorem escapeKeyword_of_mem {name : String} (h : name ∈ keywords) : escapeKeyword name = name ++ "_" := by
  rw [escapeKeyword, if_pos (List.contains_iff_mem.mpr h)]

theorem escapeKeyword_of_notMem {name : String} (h : name ∉ keywords) : escapeKeyword name = name := by
  rw [escapeKeyword, if_neg (mt List.contains_iff_mem.mp h)]

/-- Two names are written alike if they are the same or if one is a keyword and the other has the underscore already. -/
theorem escapeKeyword_eq_iff {a b : String} : escapeKeyword a = escapeKeyword b ↔
    a = b ∨ a ∈ keywords ∧ b = a ++ "_" ∨ b ∈ keywords ∧ a = b ++ "_" := by
  by_cases ha : a ∈ keywords
  · have hab : b ∈ keywords → a ≠ b ++ "_" := fun _ hab => notMem_keywords_append b (hab ▸ ha)
    by_cases hb : b ∈ keywords
    · have hba : b ≠ a ++ "_" := fun hba => notMem_keywords_append a (hba ▸ hb)
      simp [escapeKeyword_of_mem, ha, hb, hab hb, hba]
    · have hne : a ≠ b := fun h => hb (h ▸ ha)
      simp [escapeKeyword_of_mem ha, escapeKeyword_of_notMem hb, ha, hb, hne, eq_comm]
  · by_cases hb : b ∈ keywords
    · have hne : a ≠ b := fun h => ha (h ▸ hb)
      simp [escapeKeyword_of_notMem ha, escapeKeyword_of_mem hb, ha, hb, hne]
    · simp [escapeKeyword_of_notMem, ha, hb]

/-- Some name is a keyword once its first letter is small, and occurs with an underscore at its end as well. -/
def Collide (names : List String) : Prop :=
  ∃ name ∈ names, Name.lowerFirst name ∈ keywords ∧ name ++ "_" ∈ names

instance (names : List String) : Decidable (Collide names) := inferInstanceAs (Decidable (∃ name ∈ names, _ ∧ _))

end Ocaml

/-! ## First letters -/

def StartsWith (p : Char → Bool) (name : String) : Prop := name.toList.head?.any p = true

instance (p : Char → Bool) (name : String) : Decidable (StartsWith p name) := inferInstanceAs (Decidable (_ = _))

variable {p : Char → Bool}

theorem startsWith_iff {name : String} : StartsWith p name ↔ ∃ c rest, name.toList = c :: rest ∧ p c = true := by
  unfold StartsWith
  cases name.toList <;> simp

theorem StartsWith.append {name : String} (h : StartsWith p name) (back : String) : StartsWith p (name ++ back) := by
  obtain ⟨c, rest, hname, hc⟩ := startsWith_iff.mp h
  exact startsWith_iff.mpr ⟨c, rest ++ back.toList, by rw [String.toList_append, hname]; rfl, hc⟩

section
variable (hword : ∀ c, p c = true → isWordChar c = true)
include hword

theorem lowerFirst_append {name : String} (h : StartsWith p name) (back : String) :
    Name.lowerFirst (name ++ back) = Name.lowerFirst name ++ back := by
  obtain ⟨c, rest, hname, hc⟩ := startsWith_iff.mp h
  have happend : (name ++ back).toList = c :: (rest ++ back.toList) := by rw [String.toList_append, hname]; rfl
  rw [← String.toList_inj, toList_lowerFirst happend (hword c hc), String.toList_append,
    toList_lowerFirst hname (hword c hc)]
  rfl

variable (hlower : ∀ c d, p c = true → p d = true → c.toLower = d.toLower → c = d)
include hlower

/-- Names that start alike stay apart when the first letter is made small. -/
theorem lowerFirst_inj {a b : String} (ha : StartsWith p a) (hb : StartsWith p b) :
    Name.lowerFirst a = Name.lowerFirst b ↔ a = b := by
  refine ⟨fun h => ?_, fun h => h ▸ rfl⟩
  obtain ⟨c, rest, hachars, hc⟩ := startsWith_iff.mp ha
  obtain ⟨d, rest', hbchars, hd⟩ := startsWith_iff.mp hb
  rw [← String.toList_inj, toList_lowerFirst hachars (hword c hc), toList_lowerFirst hbchars (hword d hd)] at h
  obtain ⟨hfirst, rfl⟩ := List.cons.inj h
  rw [← String.toList_inj, hachars, hbchars, hlower c d hc hd hfirst]

theorem collide_of_lowerFirst {names : List String} (hstart : ∀ name ∈ names, StartsWith p name) {a b : String}
    (ha : a ∈ names) (hb : b ∈ names) (hkeyword : Name.lowerFirst a ∈ keywords)
    (hlonger : Name.lowerFirst b = Name.lowerFirst a ++ "_") : Ocaml.Collide names := by
  have hstarts := (hstart a ha).append "_"
  rw [← lowerFirst_append hword (hstart a ha), lowerFirst_inj hword hlower (hstart b hb) hstarts] at hlonger
  exact ⟨a, ha, hkeyword, hlonger ▸ hb⟩

/-- Names that start alike are written as different names unless two of them collide. -/
theorem nodup_map_escapeKeyword_iff {names : List String} (hnames : names.Nodup)
    (hstart : ∀ name ∈ names, StartsWith p name) :
    (names.map fun name => escapeKeyword (Name.lowerFirst name)).Nodup ↔ ¬ Ocaml.Collide names := by
  rw [List.nodup_map_iff_inj_on hnames]
  constructor
  · rintro h ⟨name, hname, hkeyword, hlonger⟩
    have hsame : escapeKeyword (Name.lowerFirst name) = escapeKeyword (Name.lowerFirst (name ++ "_")) := by
      rw [lowerFirst_append hword (hstart name hname), Ocaml.escapeKeyword_eq_iff]
      exact .inr (.inl ⟨hkeyword, rfl⟩)
    have hlength := congrArg String.length (h name hname _ hlonger hsame)
    rw [String.length_append] at hlength
    simp at hlength
  · intro h a ha b hb hsame
    obtain heq | ⟨hkeyword, heq⟩ | ⟨hkeyword, heq⟩ := Ocaml.escapeKeyword_eq_iff.mp hsame
    · exact (lowerFirst_inj hword hlower (hstart a ha) (hstart b hb)).mp heq
    · exact absurd (collide_of_lowerFirst hword hlower hstart ha hb hkeyword heq) h
    · exact absurd (collide_of_lowerFirst hword hlower hstart hb ha hkeyword heq) h

end

theorem nodup_labels_iff {names : List String} (hnames : names.Nodup)
    (hstart : ∀ name ∈ names, StartsWith Char.isLower name) :
    (names.map Ocaml.label).Nodup ↔ ¬ Ocaml.Collide names := by
  have hword : ∀ c : Char, c.isLower = true → isWordChar c = true := fun c hc =>
    Ocaml.Lexer.isWordChar_of_first (.inl (Ocaml.Lexer.isAlpha_iff.mpr (.inr hc)))
  have hsame : ∀ c : Char, c.isLower = true → c.toLower = c := fun c hc =>
    forall_isWordChar (P := fun c => c.isLower = true → c.toLower = c) (by decide) (hword c hc) hc
  refine nodup_map_escapeKeyword_iff hword (fun c d hc hd hcd => ?_) hnames hstart
  rwa [hsame c hc, hsame d hd] at hcd

theorem nodup_typeNames_iff {names : List String} (hnames : names.Nodup)
    (hstart : ∀ name ∈ names, StartsWith Char.isUpper name) :
    (names.map Ocaml.typeName).Nodup ↔ ¬ Ocaml.Collide names := by
  have hword : ∀ c : Char, c.isUpper = true → isWordChar c = true := fun c hc =>
    Ocaml.Lexer.isWordChar_of_first (.inl (Ocaml.Lexer.isAlpha_iff.mpr (.inl hc)))
  have hcode : ∀ c : Char, c.isUpper = true → c.toLower.toNat = c.toNat + 32 := fun c hc =>
    forall_isWordChar (P := fun c => c.isUpper = true → c.toLower.toNat = c.toNat + 32) (by decide) (hword c hc) hc
  refine nodup_map_escapeKeyword_iff hword (fun c d hc hd hcd => ?_) hnames hstart
  have hcodes := congrArg Char.toNat hcd
  rw [hcode c hc, hcode d hd] at hcodes
  exact Char.toNat_inj.mp (by omega)

/-! ## Labels in the output -/

def Ocaml.TypeDefinition.labels (definition : TypeDefinition) : Option (List String) :=
  match definition.body with
  | .record fields => some (fields.map Prod.fst)
  | _ => none

/-- The labels of the record that is built when all has been read. -/
def Ocaml.Body.labels : Body → Option (List String)
  | .proceed _ _ _ next => next.labels
  | .value (.construct _ [.record fields _]) => some (fields.map Prod.fst)
  | _ => none

namespace Context

variable {context : Context} {parameters : List String} {shape : Shape}

theorem labels_of_recordBody {fields : List RecordField} {body : TypeBody} (h : context.recordBody fields = .ok body)
    (displayName : String) :
    (declareType displayName parameters body).labels = some ((fields.map (·.name)).map Ocaml.label) := by
  obtain ⟨labelled, hlabelled, h⟩ := bind_eq_ok.mp h
  obtain rfl := pure_eq_ok.mp h
  have hlabels : (fields.map (·.name)).map Ocaml.label = labelled.map Prod.fst := by
    rw [List.map_map]
    refine map_eq_of_forall₂ ((mapM_eq_ok.mp hlabelled).imp fun field entry hentry => ?_)
    obtain ⟨type, -, hentry⟩ := bind_eq_ok.mp hentry
    obtain rfl := pure_eq_ok.mp hentry
    rfl
  rw [hlabels]
  rfl

theorem exists_recordDefinition {definitions : List TypeDefinition}
    (h : context.typeDefinitions parameters shape = .ok definitions) {record : String × List RecordField}
    (hmem : record ∈ shape.records context.displayName) :
    ∃ definition ∈ definitions, definition.name = Ocaml.typeName record.1 ∧
      definition.labels = some ((record.2.map (·.name)).map Ocaml.label) := by
  cases shape with
  | record fields =>
    obtain ⟨body, hbody, h⟩ := bind_eq_ok.mp h
    obtain rfl := pure_eq_ok.mp h
    cases List.mem_singleton.mp hmem
    exact ⟨_, List.mem_singleton_self _, rfl, labels_of_recordBody hbody _⟩
  | sumOfRecords records =>
    obtain ⟨hoisted, hhoisted, h⟩ := bind_eq_ok.mp h
    obtain rfl := pure_eq_ok.mp h
    obtain ⟨record, hrecord, rfl⟩ := List.mem_map.mp hmem
    obtain ⟨definition, hdefinition, hmade⟩ := exists_of_forall₂_left (mapM_eq_ok.mp hhoisted) hrecord
    obtain ⟨body, hbody, hmade⟩ := bind_eq_ok.mp hmade
    obtain rfl := pure_eq_ok.mp hmade
    exact ⟨_, List.mem_append_left _ hdefinition, rfl, labels_of_recordBody hbody _⟩
  | _ => cases hmem

theorem labels_of_readFields {decoder : String} {last body : Body} {i : Nat} {fields : List RecordField}
    (h : context.readFields decoder last i fields = .ok body) : body.labels = last.labels := by
  induction fields generalizing i body with
  | nil => rw [pure_eq_ok.mp h]
  | cons field rest ih =>
    obtain ⟨read, -, h⟩ := bind_eq_ok.mp h
    obtain ⟨next, hnext, h⟩ := bind_eq_ok.mp h
    obtain rfl := pure_eq_ok.mp h
    show next.labels = last.labels
    exact ih hnext

theorem labels_of_recordFunction {displayName : String} {fields : List RecordField} {function : Function}
    (h : context.recordFunction displayName parameters fields = .ok function) :
    function.name = Ocaml.decoderName displayName ∧
      function.body.labels = some ((fields.map (·.name)).map Ocaml.label) := by
  obtain ⟨body, hbody, h⟩ := bind_eq_ok.mp h
  obtain rfl := pure_eq_ok.mp h
  refine ⟨rfl, (labels_of_readFields hbody).trans ?_⟩
  show some (List.map Prod.fst _) = some _
  exact congrArg some (List.ext_getElem (by simp) fun _ _ _ => by simp)

theorem exists_labelledFunction {functions : List Function} (h : context.functions parameters shape = .ok functions)
    {record : String × List RecordField} (hmem : record ∈ shape.records context.displayName) :
    ∃ function ∈ functions, function.name = Ocaml.decoderName record.1 ∧
      function.body.labels = some ((record.2.map (·.name)).map Ocaml.label) := by
  cases shape with
  | record fields =>
    obtain ⟨function, hfunction, h⟩ := bind_eq_ok.mp h
    obtain rfl := pure_eq_ok.mp h
    cases List.mem_singleton.mp hmem
    exact ⟨function, List.mem_singleton_self function, labels_of_recordFunction hfunction⟩
  | sumOfRecords records =>
    obtain ⟨hoisted, hhoisted, h⟩ := bind_eq_ok.mp h
    obtain rfl := pure_eq_ok.mp h
    obtain ⟨record, hrecord, rfl⟩ := List.mem_map.mp hmem
    obtain ⟨function, hfunction, hmade⟩ := exists_of_forall₂_left (mapM_eq_ok.mp hhoisted) hrecord
    exact ⟨function, List.mem_append_left _ hfunction, labels_of_recordFunction hmade⟩
  | _ => cases hmem

theorem getLast?_typeDefinitions {definitions : List TypeDefinition}
    (h : context.typeDefinitions parameters shape = .ok definitions) :
    definitions.getLast?.map (·.name) = some (Ocaml.typeName context.displayName) := by
  obtain ⟨front, definition, rfl, hdeclared⟩ := exists_concat_of_forall₂ (forall₂_typeDefinitions h)
  rw [List.getLast?_concat]
  exact congrArg some hdeclared.name

end Context

namespace Descriptor

variable {descriptor : Descriptor} {options : Options}

/-- The declaration is rendered with these labels for the record. -/
def DeclaresLabels (descriptor : Descriptor) (options : Options) (displayName : String) (labels : List String) : Prop :=
  ∀ text, descriptor.renderDeclaration options = .ok text →
    ∃ group, descriptor.declaration options = .ok group ∧ text = Ocaml.source group.typeLines ∧
      ∃ definition ∈ group.items, definition.name = Ocaml.typeName displayName ∧ definition.labels = some labels

def BuildsLabels (descriptor : Descriptor) (options : Options) (displayName : String) (labels : List String) : Prop :=
  ∀ text, descriptor.renderDecoder options = .ok text →
    ∃ group, descriptor.decoder options = .ok group ∧ text = Ocaml.source group.functionLines ∧
      ∃ function ∈ group.items, function.name = Ocaml.decoderName displayName ∧ function.body.labels = some labels

variable {shape : Shape} {record : String × List RecordField}

theorem declaresLabels_of_classify (hshape : descriptor.classify = .ok shape)
    (hrecord : record ∈ shape.records descriptor.displayName) :
    descriptor.DeclaresLabels options record.1 ((record.2.map (·.name)).map Ocaml.label) := by
  intro text htext
  obtain ⟨group, hgroup, htext⟩ := renderDeclaration_eq_ok.mp htext
  obtain ⟨shape', hshape', -, hdefinitions⟩ := declaration_eq_ok.mp hgroup
  obtain rfl : shape' = shape := Except.ok.inj (hshape'.symm.trans hshape)
  exact ⟨group, hgroup, htext.symm, Context.exists_recordDefinition hdefinitions hrecord⟩

theorem buildsLabels_of_classify (hshape : descriptor.classify = .ok shape)
    (hrecord : record ∈ shape.records descriptor.displayName) :
    descriptor.BuildsLabels options record.1 ((record.2.map (·.name)).map Ocaml.label) := by
  intro text htext
  obtain ⟨group, hgroup, htext⟩ := renderDecoder_eq_ok.mp htext
  obtain ⟨shape', hshape', -, hfunctions⟩ := decoder_eq_ok.mp hgroup
  obtain rfl : shape' = shape := Except.ok.inj (hshape'.symm.trans hshape)
  exact ⟨group, hgroup, htext.symm, Context.exists_labelledFunction hfunctions hrecord⟩

def DeclaresType (descriptor : Descriptor) (options : Options) (name : String) : Prop :=
  ∃ group, descriptor.declaration options = .ok group ∧
    descriptor.renderDeclaration options = .ok (Ocaml.source group.typeLines) ∧
    group.items.getLast?.map (·.name) = some name

theorem declaresType_of_renderDeclaration {text : String} (h : descriptor.renderDeclaration options = .ok text) :
    descriptor.DeclaresType options (Ocaml.typeName descriptor.displayName) := by
  obtain ⟨group, hgroup, rfl⟩ := renderDeclaration_eq_ok.mp h
  obtain ⟨shape, -, -, hdefinitions⟩ := declaration_eq_ok.mp hgroup
  have hlast := Context.getLast?_typeDefinitions hdefinitions
  exact ⟨group, hgroup, h, hlast⟩

/-- The labels of a record whose fields differ and start with small letters differ, in the declaration and in the decoder,
unless a field is named like a keyword and another like that keyword with an underscore. The names of types that are
displayed under different names with capitals first differ under the same condition. -/
theorem names_differ_iff (options : Options) :
    (∀ (descriptor : Descriptor) (shape : Shape), descriptor.classify = .ok shape →
      ∀ record ∈ shape.records descriptor.displayName,
        (record.2.map (·.name)).Nodup → (∀ field ∈ record.2, StartsWith Char.isLower field.name) →
        ∃ labels, descriptor.DeclaresLabels options record.1 labels ∧ descriptor.BuildsLabels options record.1 labels ∧
          (labels.Nodup ↔ ¬ Ocaml.Collide (record.2.map (·.name)))) ∧
    ∀ descriptors : List Descriptor, (∀ descriptor ∈ descriptors, Succeeds (descriptor.renderDeclaration options)) →
      (descriptors.map (·.displayName)).Nodup →
      (∀ descriptor ∈ descriptors, StartsWith Char.isUpper descriptor.displayName) →
      ∃ names, List.Forall₂ (fun descriptor name => descriptor.DeclaresType options name) descriptors names ∧
        (names.Nodup ↔ ¬ Ocaml.Collide (descriptors.map (·.displayName))) := by
  constructor
  · intro descriptor shape hshape record hrecord hnames hstart
    have hlabels := nodup_labels_iff hnames (List.forall_mem_map.mpr hstart)
    exact ⟨(record.2.map (·.name)).map Ocaml.label, declaresLabels_of_classify hshape hrecord,
      buildsLabels_of_classify hshape hrecord, hlabels⟩
  · intro descriptors hrendered hnames hstart
    have htypes := nodup_typeNames_iff hnames (List.forall_mem_map.mpr hstart)
    refine ⟨(descriptors.map (·.displayName)).map Ocaml.typeName, ?_, htypes⟩
    rw [List.map_map, List.forall₂_map_right_iff, List.forall₂_same]
    intro descriptor hmem
    obtain ⟨text, htext⟩ := hrendered descriptor hmem
    exact declaresType_of_renderDeclaration htext

def ticket : Descriptor :=
  .ofConstructor ⟨"main", "Types", "Ticket"⟩ <| .value <| .ofFields "Ticket" [
    ("type", .primitive (.scalar .int)),
    ("types", .primitive (.scalar .int))]

theorem ticket_names_differ :
    (∃ labels group group', ticket.declaration {} = .ok group ∧ ticket.decoder {} = .ok group' ∧
      (∃ definition ∈ group.items, definition.labels = some labels) ∧
      (∃ function ∈ group'.items, function.body.labels = some labels) ∧ labels.Nodup) ∧
    ∃ names, List.Forall₂ (fun descriptor name => descriptor.DeclaresType {} name) [ticket, letter] names ∧
      names.Nodup := by
  obtain ⟨hrecords, htypes⟩ := names_differ_iff {}
  constructor
  · obtain ⟨labels, hdeclares, hbuilds, hlabels⟩ := hrecords ticket _ rfl _ (.head _) (by decide) (by
      show ∀ field ∈ [(⟨"type", .primitive (.scalar .int)⟩ : RecordField), ⟨"types", .primitive (.scalar .int)⟩],
        StartsWith Char.isLower field.name
      decide)
    obtain ⟨group, hgroup, -, definition, hdefinition, -, hdeclared⟩ := hdeclares _ rfl
    obtain ⟨group', hgroup', -, function, hfunction, -, hbuilt⟩ := hbuilds _ rfl
    exact ⟨labels, group, group', hgroup, hgroup', ⟨definition, hdefinition, hdeclared⟩,
      ⟨function, hfunction, hbuilt⟩, hlabels.mpr (by decide)⟩
  · have hrendered : ∀ descriptor ∈ [ticket, letter], Succeeds (descriptor.renderDeclaration {}) :=
      List.forall_mem_cons.mpr ⟨⟨_, rfl⟩, List.forall_mem_cons.mpr ⟨⟨_, rfl⟩, List.forall_mem_nil _⟩⟩
    obtain ⟨names, hnames, hdiffer⟩ := htypes [ticket, letter] hrendered (by decide) (by decide)
    exact ⟨names, hnames, hdiffer.mpr (by decide)⟩

def folder : Descriptor :=
  .ofConstructor ⟨"main", "Types", "Folder"⟩ <| .value <| .ofFields "Folder" [
    ("type", .primitive (.scalar .int)),
    ("type_", .primitive (.scalar .int))]

/-- The fields differ and start with small letters, and both get the label `type_`. -/
theorem folder_repeats_label :
    ∃ fields, folder.classify = .ok (.record fields) ∧ fields.map (·.name) = ["type", "type_"] ∧
      folder.renderDeclaration {} = .ok "type folder =\n  \x7b type_ : int\n  ; type_ : int\n  \x7d\n" ∧
      ∃ definition function, folder.declaration {} = .ok ⟨false, [definition]⟩ ∧
        folder.decoder {} = .ok ⟨false, [function]⟩ ∧
        definition.labels = some ["type_", "type_"] ∧ function.body.labels = some ["type_", "type_"] :=
  ⟨_, rfl, by decide, by decide, _, _, rfl, rfl, by decide, by decide⟩

end Descriptor

end TypeScribe
