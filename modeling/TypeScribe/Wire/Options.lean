import TypeScribe.Json.Kinded
import TypeScribe.Name.Transform
import TypeScribe.Options
import TypeScribe.Wire.Value

/-!
# Transforms of names and options in JSON

A step is a map with its kind among its fields. Every field of the options may be absent, and no other field may be
present.
-/

namespace TypeScribe
open Json

/-! ## Writing transforms -/

def NameStep.wireName : NameStep → String
  | .dropPrefix _ => "drop_prefix"
  | .dropChars _ => "drop_chars"
  | .snakeCase => "snake_case"
  | .camelCase => "camel_case"
  | .pascalCase => "pascal_case"
  | .kebabCase => "kebab_case"
  | .lowercase => "lowercase"
  | .uppercase => "uppercase"
  | .lowerFirst => "lower_first"
  | .upperFirst => "upper_first"

def NameStep.toDocument (step : NameStep) : Document :=
  let kind := (kindField, Document.text step.wireName)
  match step with
  | .dropPrefix front => .map [kind, ("prefix", .text front)]
  | .dropChars count => .map [kind, ("count", .number (.integer count.toNat))]
  | _ => .map [kind]

def NameTransform.toDocument (transform : NameTransform) : Document :=
  .sequence (transform.steps.map NameStep.toDocument)

/-! ## Reading transforms -/

/-- How a step is made from the fields beside its kind. -/
abbrev StepForm := Remainder → Except ReadError NameStep

def StepForm.plain (step : NameStep) : StepForm := fun remainder => do
  remainder.ignore
  return step

def NameStep.forms : List (String × StepForm) := [
  ("drop_prefix", fun remainder =>
    (remainder.field "struct variant NameStep::DropPrefix" "prefix" Document.asText).map .dropPrefix),
  ("drop_chars", fun remainder =>
    (remainder.field "struct variant NameStep::DropChars" "count" Document.asCount).map .dropChars),
  ("snake_case", .plain .snakeCase),
  ("camel_case", .plain .camelCase),
  ("pascal_case", .plain .pascalCase),
  ("kebab_case", .plain .kebabCase),
  ("lowercase", .plain .lowercase),
  ("uppercase", .plain .uppercase),
  ("lower_first", .plain .lowerFirst),
  ("upper_first", .plain .upperFirst)]

def StepForm.reader : Reader StepForm := do
  let name ← Reader.textAs "variant identifier"
  match NameStep.forms.lookup name with
  | some form => return form
  | none => throw (.unknownVariant name (NameStep.forms.map (·.1)))

def NameStep.reader : Reader NameStep := do
  let (form, remainder) ← Reader.kinded "internally tagged enum NameStep" StepForm.reader
  liftM (form remainder)

def NameTransform.reader : Reader NameTransform := do
  return { steps := ← Reader.list NameStep.reader }

/-! ## Writing options -/

def Location.toDocument (location : Location) : Document :=
  .map [("file", .ofTexts location.file), ("submodules", .ofTexts location.submodules)]

def Dependency.toDocument (entry : Dependency) : Document :=
  .map [("identity", entry.identity.toDocument), ("location", entry.location.toDocument)]

def DependencyMap.toDocument (map : DependencyMap) : Document :=
  .sequence (map.entries.map Dependency.toDocument)

def Options.toDocument (options : Options) : Document :=
  .map [("field_label", options.fieldLabel.toDocument), ("constructor_tag", options.constructorTag.toDocument),
    ("dependencies", options.dependencies.toDocument), ("signatures", .boolean options.signatures)]

def Options.print (options : Options) : String := options.toDocument.toText

/-! ## Reading options -/

/-- Reads a location, whose submodules may be absent. -/
def Location.reader : Reader Location := do
  let (file, submodules, ()) ← Fields.record "struct ModuleLocation" false <|
    .cons "file" (Reader.list Reader.text) none <|
    .cons "submodules" (Reader.list Reader.text) (some []) .nil
  return { file, submodules }

def Dependency.reader : Reader Dependency := do
  let (identity, location, ()) ← Fields.record "struct DependencyEntry" false <|
    .cons "identity" Identity.reader none <|
    .cons "location" Location.reader none .nil
  return { identity, location }

/-- Reads a dependency map, in whose entries a type may come up again. -/
def DependencyMap.reader : Reader DependencyMap := do
  return .ofEntries (← Reader.list Dependency.reader)

def Options.reader : Reader Options := do
  let (fieldLabel, constructorTag, dependencies, signatures, ()) ← Fields.record "struct Options" true <|
    .cons "field_label" NameTransform.reader (some {}) <|
    .cons "constructor_tag" NameTransform.reader (some {}) <|
    .cons "dependencies" DependencyMap.reader (some .empty) <|
    .cons "signatures" Reader.boolean (some false) .nil
  return { fieldLabel, constructorTag, dependencies, signatures }

def Options.parse (text : String) : Except ReadError Options := Reader.run reader text

def Options.invalidMessage (e : ReadError) : String := "invalid options: " ++ e.message

end TypeScribe
