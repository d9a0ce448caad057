import TypeScribe.Decoder
import TypeScribe.Proofs.Classification
import TypeScribe.Proofs.Lexeme
import TypeScribe.Proofs.Occurrences

/-!
# Plain names

Which names of a descriptor make names of OCaml: a plain identifier may be the name of a type, a field or a variable, one
that starts with a letter may be that of a constructor or a module.
-/

namespace TypeScribe
open Ocaml (isLowName isCapitalName isReserved wordOperators Path IsVariable)
open Ocaml.Lexer (isWordChar forall_isWordChar)

/-! ## Identifiers -/

/-- The name is a letter or an underscore, and then letters, digits, underscores and quotes. -/
def IsIdentifier (name : String) : Prop := isLowName name.toList = true ∨ isCapitalName name.toList = true

def IsLetterName (name : String) : Prop := IsIdentifier name ∧ name.toList.head? ≠ some '_'

instance (name : String) : Decidable (IsIdentifier name) := inferInstanceAs (Decidable (_ ∨ _))

instance (name : String) : Decidable (IsLetterName name) := inferInstanceAs (Decidable (_ ∧ _))

theorem isPart_of_isIdentifier {name : String} (h : IsIdentifier name) : Ocaml.IsPart name.toList :=
  h.elim Ocaml.isPart_of_isLowName Ocaml.isPart_of_isCapitalName

theorem exists_of_isIdentifier {name : String} (h : IsIdentifier name) :
    ∃ c rest, name.toList = c :: rest ∧ (c.isAlpha = true ∨ c = '_' ∧ rest ≠ []) ∧
      isWordChar c = true ∧ ∀ d ∈ rest, isWordChar d = true := by
  have hword := (isPart_of_isIdentifier h).all
  rcases h with h | h
  · obtain ⟨c, rest, hname, hc, hrest⟩ := Ocaml.exists_of_isLowName h
    have hfirst := hc.imp (fun hlower => Ocaml.Lexer.isAlpha_iff.mpr (.inr hlower)) id
    exact ⟨c, rest, hname, hfirst, hword c (hname ▸ List.mem_cons_self), hrest⟩
  · obtain ⟨c, rest, hname, hc, hrest⟩ := Ocaml.exists_of_isCapitalName h
    have hfirst := Ocaml.Lexer.isAlpha_iff.mpr (.inl hc)
    exact ⟨c, rest, hname, .inl hfirst, hword c (hname ▸ List.mem_cons_self), hrest⟩

theorem IsIdentifier.append {front back : String} (hfront : IsIdentifier front)
    (hback : ∀ c ∈ back.toList, isWordChar c = true) : IsIdentifier (front ++ back) := by
  unfold IsIdentifier
  rw [String.toList_append]
  exact hfront.imp (Ocaml.isLowName_append · hback) (Ocaml.isCapitalName_append · hback)

theorem toList_lowerFirst {name : String} {c : Char} {rest : List Char} (hname : name.toList = c :: rest)
    (hc : isWordChar c = true) : (Name.lowerFirst name).toList = c.toLower :: rest := by
  rw [Name.lowerFirst, String.toList_ofList, hname, Name.lowerFirstChars, Text.lower,
    if_pos (Ocaml.Lexer.toNat_lt_of_isWordChar hc)]
  rfl

theorem toList_upperFirst {name : String} {c : Char} {rest : List Char} (hname : name.toList = c :: rest)
    (hc : isWordChar c = true) : (Name.upperFirst name).toList = c.toUpper :: rest := by
  rw [Name.upperFirst, String.toList_ofList, hname, Name.upperFirstChars, Text.upper,
    if_pos (Ocaml.Lexer.toNat_lt_of_isWordChar hc)]
  rfl

theorem isLowName_lowerFirst {name : String} (h : IsIdentifier name) :
    isLowName (Name.lowerFirst name).toList = true := by
  obtain ⟨c, rest, hname, hc, hword, hrest⟩ := exists_of_isIdentifier h
  rw [toList_lowerFirst hname hword]
  simp only [isLowName, Bool.and_eq_true, Bool.or_eq_true, beq_iff_eq, List.all_eq_true, Bool.not_eq_true',
    List.isEmpty_eq_false_iff]
  refine ⟨hc.imp (fun halpha => ?_) (And.imp_left fun hline => ?_), hrest⟩
  · exact forall_isWordChar (P := fun c => c.isAlpha = true → c.toLower.isLower = true) (by decide) hword halpha
  · rw [hline]
    rfl

theorem isWordChar_upperFirst {name : String} (h : IsIdentifier name) :
    ∀ c ∈ (Name.upperFirst name).toList, isWordChar c = true := by
  obtain ⟨c, rest, hname, hc, hword, hrest⟩ := exists_of_isIdentifier h
  rw [toList_upperFirst hname hword]
  refine List.forall_mem_cons.mpr ⟨?_, hrest⟩
  exact forall_isWordChar (P := fun c => isWordChar c.toUpper = true) (by decide) hword

theorem isCapitalName_upperFirst {name : String} (h : IsLetterName name) :
    isCapitalName (Name.upperFirst name).toList = true := by
  obtain ⟨hidentifier, hletter⟩ := h
  obtain ⟨c, rest, hname, hc, hword, hrest⟩ := exists_of_isIdentifier hidentifier
  rcases hc with halpha | ⟨rfl, -⟩
  · rw [toList_upperFirst hname hword, isCapitalName, Bool.and_eq_true, List.all_eq_true]
    refine ⟨?_, hrest⟩
    exact forall_isWordChar (P := fun c => c.isAlpha = true → c.toUpper.isUpper = true) (by decide) hword halpha
  · rw [hname] at hletter
    exact absurd rfl hletter

/-! ## Generated names -/

/-- A word with something in it that no reserved word has is not reserved. -/
theorem isReserved_of_forall {w : String} {P : String → Prop} [DecidablePred P]
    (h : ∀ r ∈ Ocaml.keywords ++ wordOperators, ¬ P r) (hw : P w) : isReserved w = false := by
  have hmem : w ∉ Ocaml.keywords ++ wordOperators := fun hmem => h w hmem hw
  rw [isReserved, ← List.contains_append]
  simpa using hmem

theorem isName_decode {back : String} (h : ∀ c ∈ back.toList, isWordChar c = true) {modules : List String}
    (hmodules : ∀ m ∈ modules, isCapitalName m.toList = true) : Path.IsName ⟨modules, "decode" ++ back⟩ where
  modules := hmodules
  name := by
    rw [String.toList_append]
    simp only [String.reduceToList, List.cons_append, List.nil_append, isLowName, List.all_cons, Bool.and_eq_true,
      List.all_eq_true]
    exact ⟨rfl, rfl, rfl, rfl, rfl, rfl, h⟩
  free := by
    refine isReserved_of_forall (P := fun w => "decode".toList <+: w.toList) (by decide) ?_
    rw [String.toList_append]
    exact List.prefix_append _ _

theorem isName_decoderName {name : String} (h : IsIdentifier name) {modules : List String}
    (hmodules : ∀ m ∈ modules, isCapitalName m.toList = true) : Path.IsName ⟨modules, Ocaml.decoderName name⟩ :=
  isName_decode (isWordChar_upperFirst h) hmodules

theorem isName_decoderParameter {name : String} (h : IsIdentifier name) :
    Path.IsName ⟨[], Ocaml.decoderParameter name⟩ := by
  have hback : ∀ c ∈ ("_" ++ name).toList, isWordChar c = true := by
    rw [String.toList_append]
    exact List.forall_mem_cons.mpr ⟨rfl, (isPart_of_isIdentifier h).all⟩
  have hname : Ocaml.decoderParameter name = "decode" ++ ("_" ++ name) := by
    rw [Ocaml.decoderParameter, ← String.append_assoc]
    rfl
  rw [hname]
  exact isName_decode hback nofun

theorem isName_escapeKeyword {name : String} (h : IsIdentifier name) (hoperator : Name.lowerFirst name ∉ wordOperators) :
    Path.IsName ⟨[], Ocaml.escapeKeyword (Name.lowerFirst name)⟩ := by
  have hlow := isLowName_lowerFirst h
  unfold Ocaml.escapeKeyword
  split
  · refine ⟨nofun, ?_, ?_⟩
    · rw [String.toList_append]
      exact Ocaml.isLowName_append hlow (List.forall_mem_singleton.mpr rfl)
    · refine isReserved_of_forall (P := fun w => w.toList.getLast? = some '_') (by decide) ?_
      rw [String.toList_append]
      exact List.getLast?_concat
  · next hkeyword =>
    refine ⟨nofun, hlow, ?_⟩
    rw [isReserved, Bool.eq_false_iff.mpr hkeyword, Bool.false_or]
    simpa using hoperator

theorem isName_slot (i : Nat) : Path.IsName ⟨[], Decoder.slot i⟩ := by
  have hchars : (Decoder.slot i).toList = 'v' :: Nat.toDigits 10 i := by
    rw [Decoder.slot, String.toList_append]
    exact congrArg ('v' :: ·) Nat.toList_repr
  have hdigits : ∀ c ∈ Nat.toDigits 10 i, c.isDigit = true := fun c hc =>
    Nat.isDigit_of_mem_toDigits (by decide) (by decide) hc
  refine ⟨nofun, ?_, ?_⟩
  · rw [hchars, isLowName, Bool.and_eq_true, List.all_eq_true]
    refine ⟨rfl, fun c hc => ?_⟩
    rw [isWordChar, Char.isAlphanum, hdigits c hc, Bool.or_true]
    rfl
  · refine isReserved_of_forall (P := fun w => w.toList.any Char.isDigit = true) (by decide) (List.any_eq_true.mpr ?_)
    obtain ⟨c, cs, hcons⟩ := List.exists_cons_of_ne_nil (Nat.toDigits_ne_nil : Nat.toDigits 10 i ≠ [])
    exact ⟨c, by simp [hchars, hcons], hdigits c (hcons ▸ List.mem_cons_self)⟩

/-! ## Descriptors -/

/-- The name of a type or of a field, which is told apart from the keywords but not from the operators. -/
structure IsPlain (name : String) : Prop where
  identifier : IsIdentifier name
  operator : Name.lowerFirst name ∉ wordOperators

/-- The name of a type parameter, which is told apart from nothing. A quote in it would end a character literal. -/
structure IsPlainVariable (name : String) : Prop where
  identifier : IsIdentifier name
  unquoted : '\'' ∉ name.toList
  free : isReserved (Name.lowerFirst name) = false

theorem isVariable_variableName {name : String} (h : IsPlainVariable name) : IsVariable (Ocaml.variableName name) where
  shape := .inl (isLowName_lowerFirst h.identifier)
  unquoted := by
    obtain ⟨c, rest, hname, -, hword, -⟩ := exists_of_isIdentifier h.identifier
    have hunquoted := h.unquoted
    rw [hname, List.mem_cons, not_or] at hunquoted
    rw [Ocaml.variableName, toList_lowerFirst hname hword, List.mem_cons, not_or]
    refine ⟨?_, hunquoted.2⟩
    exact forall_isWordChar (P := fun c => '\'' ≠ c → '\'' ≠ c.toLower) (by decide) hword hunquoted.1
  free := h.free

/-- The name at the head of a value is plain. -/
def Value.NamesPlain : Value → Prop
  | .typeRef _ name => IsIdentifier name
  | .application identity _ => IsIdentifier identity.name
  | .parameter name => IsPlainVariable name
  | .field name _ => IsPlain name
  | _ => True

def Constructor.names : Constructor → List String
  | .alias _ => []
  | .value alternatives => alternatives.branches.map (·.name)
  | .enumeration tags => tags
  | .sumOfRecords _ alternatives => alternatives.branches.map (·.name)

def Location.modules (location : Location) : List String := location.file.getLast?.toList ++ location.submodules

/-- The names of types, constructors, fields, variables and modules are plain. -/
structure Descriptor.HasPlainNames (descriptor : Descriptor) (options : Options) : Prop where
  displayName : IsPlain descriptor.displayName
  typeName : ∀ typeName alternatives, descriptor.constructor = .sumOfRecords typeName alternatives → IsIdentifier typeName
  constructors : ∀ name ∈ descriptor.constructor.names, IsLetterName name
  values : ∀ part, descriptor.Holds part → part.NamesPlain
  modules : ∀ entry ∈ options.dependencies.entries, ∀ m ∈ entry.location.modules, IsLetterName m

/-! ## Modules -/

theorem Location.mem_of_mem_dropShared {m : String} {here there : List String} (h : m ∈ dropShared here there) :
    m ∈ there := by
  fun_induction dropShared here there with
  | case1 _ _ _ ih => exact List.mem_cons_of_mem _ (ih h)
  | case2 => exact h
  | case3 => exact h

theorem Location.exists_of_mem_pathFrom {m : String} {here there : Location} (h : m ∈ here.pathFrom there) :
    ∃ source ∈ there.modules, m = Name.upperFirst source := by
  unfold pathFrom at h
  split at h
  · obtain ⟨source, hsource, rfl⟩ := List.mem_map.mp h
    exact ⟨source, List.mem_append_right _ (mem_of_mem_dropShared hsource), rfl⟩
  · obtain ⟨source, hsource, rfl⟩ := List.mem_map.mp h
    exact ⟨source, hsource, rfl⟩

theorem DependencyMap.exists_of_validLocation {map : DependencyMap} {identity : Identity} {location : Location}
    (h : map.validLocation identity = .ok (some location)) : ∃ entry ∈ map.entries, entry.location = location := by
  unfold validLocation at h
  split at h
  · next found hfound =>
    split at h
    · cases h
      exact exists_of_get? hfound
    · cases h
  · cases h

theorem DependencyMap.exists_of_mem_qualify {map : DependencyMap} {current target : Identity} {modules : List String}
    (h : map.qualify current target = .ok modules) {m : String} (hm : m ∈ modules) :
    ∃ entry ∈ map.entries, ∃ source ∈ entry.location.modules, m = Name.upperFirst source := by
  unfold qualify at h
  split at h
  · cases h
    cases hm
  · obtain ⟨here, -, h⟩ := bind_eq_ok.mp h
    obtain ⟨there, hthere, h⟩ := bind_eq_ok.mp h
    split at h
    · split at h
      · cases h
        cases hm
      · cases h
    · obtain ⟨entry, hentry, rfl⟩ := exists_of_validLocation hthere
      cases h
      exact ⟨entry, hentry, Location.exists_of_mem_pathFrom hm⟩
    · obtain ⟨entry, hentry, rfl⟩ := exists_of_validLocation hthere
      split at h
      · cases h
        cases hm
      · cases h
        obtain ⟨source, hsource, rfl⟩ := List.mem_map.mp hm
        exact ⟨entry, hentry, source, hsource, rfl⟩

/-! ## Shapes -/

def Value.IsPlain (value : Value) : Prop := ∀ part : Value, part.Occurs value → part.NamesPlain

theorem Value.IsPlain.of_occurs {value part : Value} (h : value.IsPlain) (hpart : part.Occurs value) : part.IsPlain :=
  fun _ hinner => h _ (hinner.trans hpart)

structure RecordField.IsPlain (field : RecordField) : Prop where
  name : TypeScribe.IsPlain field.name
  value : field.value.IsPlain

structure Positional.IsPlain (constructor : Positional) : Prop where
  name : IsLetterName constructor.name
  arguments : ∀ argument ∈ constructor.arguments, argument.IsPlain

structure HoistedRecord.IsPlain (record : HoistedRecord) : Prop where
  displayName : TypeScribe.IsPlain record.displayName
  branch : IsLetterName record.branch
  nonempty : record.fields ≠ []
  fields : ∀ field ∈ record.fields, field.IsPlain
  parameters : ∀ name ∈ record.parameters, IsPlainVariable name

/-- All names in a shape are plain, and records have fields. -/
def Shape.IsPlain : Shape → Prop
  | .alias p => Value.IsPlain (.primitive p)
  | .record fields => fields ≠ [] ∧ ∀ field ∈ fields, field.IsPlain
  | .single constructor => constructor.IsPlain
  | .sum constructors => ∀ constructor ∈ constructors, constructor.IsPlain
  | .enumeration tags => ∀ tag ∈ tags, IsLetterName tag
  | .sumOfRecords records => ∀ record ∈ records, record.IsPlain

theorem isPlain_hoistedName {typeName branch : String} (htype : IsIdentifier typeName) (hbranch : IsLetterName branch) :
    IsPlain (Shape.hoistedName typeName branch) := by
  have hback := (Ocaml.isPart_of_isCapitalName (isCapitalName_upperFirst hbranch)).all
  have hidentifier : IsIdentifier (Shape.hoistedName typeName branch) := htype.append hback
  refine ⟨hidentifier, fun hoperator => ?_⟩
  obtain ⟨c, rest, hname, -, hword, -⟩ := exists_of_isIdentifier htype
  obtain ⟨d, others, hbranch, hd, -⟩ := Ocaml.exists_of_isCapitalName (isCapitalName_upperFirst hbranch)
  have hchars : (Shape.hoistedName typeName branch).toList = c :: (rest ++ d :: others) := by
    rw [Shape.hoistedName, String.toList_append, hname, hbranch, List.cons_append]
  have hlower : ∀ w ∈ wordOperators, w.toList.any Char.isUpper = false := by decide
  have hcapital : d ∈ (Name.lowerFirst (Shape.hoistedName typeName branch)).toList := by
    rw [toList_lowerFirst hchars hword]
    simp
  exact List.any_eq_false.mp (hlower _ hoperator) d hcapital hd

theorem isPlain_recordFields {typeName : String} {payload : Value} {fields : List RecordField}
    (h : Shape.recordFields typeName payload = .ok fields) (hpayload : payload.IsPlain) :
    fields ≠ [] ∧ ∀ field ∈ fields, field.IsPlain := by
  obtain ⟨hflatten, hne⟩ := Shape.recordFields_eq_ok.mp h
  refine ⟨hne, fun field hfield => ?_⟩
  have hitem : Value.field field.name field.value ∈ payload.flatten := hflatten ▸ List.mem_map_of_mem hfield
  have hoccurs := Value.occurs_of_mem_flatten hitem
  exact ⟨hpayload _ hoccurs, hpayload.of_occurs (.trans (.field .self) hoccurs)⟩

theorem isPlain_arguments {value : Value} (h : value.IsPlain) : ∀ argument ∈ value.flatten, argument.IsPlain :=
  fun _ hargument => h.of_occurs (Value.occurs_of_mem_flatten hargument)

theorem isPlain_ofBranches {typeName : String} {branches : List Branch} {shape : Shape}
    (h : Shape.ofBranches typeName branches = .ok shape) (hnames : ∀ branch ∈ branches, IsLetterName branch.name)
    (hvalues : ∀ branch ∈ branches, branch.value.IsPlain) : shape.IsPlain := by
  unfold Shape.ofBranches at h
  split at h
  · cases h
  · next name payload =>
    obtain ⟨fields, hfields, h⟩ := bind_eq_ok.mp h
    cases h
    exact isPlain_recordFields hfields (hvalues _ List.mem_cons_self)
  · next name payload =>
    cases h
    exact ⟨hnames _ List.mem_cons_self, isPlain_arguments (hvalues _ List.mem_cons_self)⟩
  · obtain ⟨constructors, hconstructors, h⟩ := bind_eq_ok.mp h
    cases h
    intro constructor hmem
    obtain ⟨branch, hbranch, hpositional⟩ := exists_of_mapM_eq_ok hconstructors hmem
    obtain ⟨value, rfl, harguments⟩ := Shape.positional_eq_ok.mp hpositional
    refine ⟨hnames _ hbranch, ?_⟩
    rw [harguments]
    exact isPlain_arguments (hvalues _ hbranch)

theorem isPlain_hoist {typeName : String} {branches : List Branch} {records : List HoistedRecord}
    (h : Shape.hoist typeName branches = .ok records) (htype : IsIdentifier typeName)
    (hnames : ∀ branch ∈ branches, IsLetterName branch.name) (hvalues : ∀ branch ∈ branches, branch.value.IsPlain) :
    Shape.IsPlain (.sumOfRecords records) := by
  unfold Shape.hoist at h
  split at h
  · cases h
  · intro record hmem
    obtain ⟨branch, hbranch, hrecord⟩ := exists_of_mapM_eq_ok h hmem
    obtain ⟨value, rfl, hdisplayName, hfields, hparameters⟩ := Shape.hoistedRecord_eq_ok.mp hrecord
    obtain ⟨hne, hplain⟩ := isPlain_recordFields hfields (hvalues _ hbranch)
    refine ⟨?_, hnames _ hbranch, hne, hplain, fun name hname => ?_⟩
    · rw [hdisplayName]
      exact isPlain_hoistedName htype (hnames _ hbranch)
    · rw [hparameters] at hname
      exact hvalues _ hbranch _ (Value.mem_parameters.mp (mem_sortedNames.mp hname))

/-- The shape of a descriptor with plain names has plain names. -/
theorem Descriptor.HasPlainNames.isPlain_classify {descriptor : Descriptor} {options : Options}
    (h : descriptor.HasPlainNames options) {shape : Shape} (hshape : descriptor.classify = .ok shape) :
    shape.IsPlain := by
  have hvalues : ∀ value ∈ descriptor.constructor.values, value.IsPlain :=
    fun value hvalue part hpart => h.values part ⟨value, hvalue, hpart⟩
  have hnames := h.constructors
  have htypeName := h.typeName
  unfold classify at hshape
  cases hconstructor : descriptor.constructor with
  | «alias» p =>
    simp only [hconstructor, Except.ok.injEq] at hshape hvalues
    subst hshape
    exact hvalues _ (List.mem_singleton_self _)
  | value alternatives =>
    simp only [hconstructor] at hshape hvalues hnames
    exact isPlain_ofBranches hshape (fun _ hbranch => hnames _ (List.mem_map_of_mem hbranch))
      fun _ hbranch => hvalues _ (List.mem_map_of_mem hbranch)
  | enumeration tags =>
    simp only [hconstructor] at hshape hnames
    split at hshape
    · cases hshape
    · cases hshape
      exact hnames
  | sumOfRecords typeName alternatives =>
    simp only [hconstructor] at hshape hvalues hnames
    obtain ⟨records, hrecords, hshape⟩ := bind_eq_ok.mp hshape
    cases hshape
    exact isPlain_hoist hrecords (htypeName _ _ hconstructor) (fun _ hbranch => hnames _ (List.mem_map_of_mem hbranch))
      fun _ hbranch => hvalues _ (List.mem_map_of_mem hbranch)

end TypeScribe
