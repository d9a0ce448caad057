import TypeScribe.Proofs.Soundness

/-!
# Bodies that no exception leaves

`Contained` is the discipline of generated bodies. What may raise is matched only, and the first arm of the match catches
the exception. Elements of an array are read only where its length has been compared with the number of elements due.
Every value that is matched has an arm. A contained body ends with a value or a message.
-/

namespace TypeScribe
open Ocaml (Path Term Pattern Clause Body)

/-- A result with a value or with a message. -/
def Val.IsReport (v : Val) : Prop :=
  (∃ w, v = .construct Runtime.okPath [w]) ∨ ∃ message, v = .construct Runtime.errorPath [.text message]

/-! ## Answers -/

inductive Built (scope : Scope) : Term → Prop where
  | var {name : String} {type : Ty} : scope.lookup name = some type → Built scope (.var name)
  | construct {constructor : Path} {arguments : List Term} :
    (∀ argument ∈ arguments, Built scope argument) → Built scope (.construct constructor arguments)
  | record {fields : List (String × String)} {type : Ocaml.TypeExpr} :
    (∀ field ∈ fields, ∃ type, scope.lookup field.2 = some type) → Built scope (.record fields type)

/-- The expression is a result with a built value or with a message. -/
inductive Answers (scope : Scope) : Term → Prop where
  | ok {value : Term} : Built scope value → Answers scope (Runtime.ok value)
  | error {message : Term} : Typed scope message .silent .text → Answers scope (Runtime.error message)

section Answers

variable {world : World} {scope : Scope} {locals : Locals}

theorem exists_evalAll {arguments : List Term} (h : ∀ argument ∈ arguments, ∃ v, argument.eval world locals = .value v) :
    ∃ values, Term.evalAll world locals arguments = .value values := by
  induction arguments with
  | nil => exact ⟨[], rfl⟩
  | cons first rest ih =>
    rw [List.forall_mem_cons] at h
    obtain ⟨v, hv⟩ := h.1
    obtain ⟨values, hvalues⟩ := ih h.2
    exact ⟨v :: values, by rw [Term.evalAll, hv, hvalues]; rfl⟩

theorem exists_fields {fields : List (String × String)} (h : ∀ field ∈ fields, ∃ v, locals.get field.2 = .value v) :
    ∃ values, (fields.mapM fun field => return (field.1, ← locals.get field.2)) = Ending.value values := by
  induction fields with
  | nil => exact ⟨[], rfl⟩
  | cons first rest ih =>
    rw [List.forall_mem_cons] at h
    obtain ⟨v, hv⟩ := h.1
    obtain ⟨values, hvalues⟩ := ih h.2
    exact ⟨(first.1, v) :: values, by rw [List.mapM_cons, hv, hvalues]; rfl⟩

theorem Built.exists_value {t : Term} (h : Built scope t) (hlocals : scope.Holds locals) :
    ∃ v, t.eval world locals = .value v := by
  induction h with
  | @var name type hlookup =>
    obtain ⟨v, hv, -⟩ := hlocals.lookup hlookup
    exact ⟨v, by rw [Term.var, Term.eval, Locals.get?_variable, hv]⟩
  | @construct constructor _ _ ih =>
    obtain ⟨values, hvalues⟩ := exists_evalAll ih
    exact ⟨.construct constructor values, by rw [Term.eval, hvalues]; rfl⟩
  | @record fields type hfields =>
    have hget : ∀ field ∈ fields, ∃ v, locals.get field.2 = .value v := by
      intro field hmem
      obtain ⟨type, hlookup⟩ := hfields field hmem
      obtain ⟨v, hv, -⟩ := hlocals.lookup hlookup
      exact ⟨v, by rw [Locals.get, hv]⟩
    obtain ⟨values, hvalues⟩ := exists_fields hget
    exact ⟨.record values, by rw [Term.eval, hvalues]; rfl⟩

theorem Answers.isReport {t : Term} (h : Answers scope t) (hworld : world.Lawful) (hlocals : scope.Holds locals) :
    (t.eval world locals).Fits .silent Val.IsReport := by
  cases h with
  | ok hbuilt =>
    obtain ⟨v, hv⟩ := hbuilt.exists_value hlocals
    rw [Runtime.ok, Term.eval, Term.evalAll, hv]
    exact .inl ⟨v, rfl⟩
  | error hmessage =>
    obtain ⟨_, hv, message, rfl⟩ := (hmessage.sound hworld hlocals).exists_value
    rw [Runtime.error, Term.eval, Term.evalAll, hv]
    exact .inr ⟨message, rfl⟩

end Answers

/-! ## Patterns -/

/-- The variables that a pattern binds where a value of a type, or an exception, is matched. -/
def Ocaml.Pattern.scope? : Pattern → Ty → Option Scope
  | .raised _ name, _ => some [(name, .text)]
  | .bind name, type => some [(name, type)]
  | .text _, .text => some []
  | .any, _ => some []
  | .constant constructor, .option _ => if constructor = Runtime.nonePath then some [] else none
  | .construct constructor argument, .option type =>
    if constructor = Runtime.somePath then argument.scope? type else none
  | .construct constructor argument, .report type =>
    if constructor = Runtime.okPath then argument.scope? type
    else if constructor = Runtime.errorPath then argument.scope? .text
    else none
  | .emptyArray, .items _ => some []
  | .either left right, type =>
    match left.scope? type, right.scope? type with
    | some [], some [] => some []
    | _, _ => none
  | _, _ => none

theorem Ocaml.Pattern.exists_of_bind?_construct {constructor : Path} {argument : Pattern} {ending : Ending Val}
    {bound : Locals} (h : (Pattern.construct constructor argument).bind? ending = some bound) :
    ∃ v, ending = .value (.construct constructor [v]) ∧ argument.bind? (.value v) = some bound := by
  unfold bind? at h
  split at h <;> simp_all

theorem Ocaml.Pattern.exists_of_scope?_construct {constructor : Path} {argument : Pattern} {type : Ty} {scope : Scope}
    {v : Val} (h : (Pattern.construct constructor argument).scope? type = some scope)
    (hv : type.Holds (.construct constructor [v])) : ∃ inner, argument.scope? inner = some scope ∧ inner.Holds v := by
  cases type with
  | option type =>
    rw [scope?] at h
    split at h
    · rcases hv with hnone | ⟨w, hsome, hw⟩
      · cases hnone
      · cases hsome
        exact ⟨type, h, hw⟩
    · cases h
  | report type =>
    rw [scope?] at h
    split at h
    · subst constructor
      rcases hv with ⟨w, hok, hw⟩ | ⟨message, herror⟩
      · cases hok
        exact ⟨type, h, hw⟩
      · simp [Runtime.okPath, Runtime.errorPath] at herror
    · split at h
      · subst constructor
        rcases hv with ⟨w, hok, -⟩ | ⟨message, herror⟩
        · simp [Runtime.okPath, Runtime.errorPath] at hok
        · cases herror
          exact ⟨.text, h, message, rfl⟩
      · cases h
  | _ => cases h

theorem Ocaml.Pattern.holds_bind? {pattern : Pattern} {type : Ty} {scope : Scope} {ending : Ending Val} {bound : Locals}
    (hscope : pattern.scope? type = some scope) (hbind : pattern.bind? ending = some bound)
    (hending : ∀ v, ending = .value v → type.Holds v) : scope.Holds bound := by
  induction pattern generalizing type ending scope bound with
  | raised exception name =>
    cases hscope
    cases ending with
    | raised message =>
      rw [bind?] at hbind
      split at hbind
      · cases hbind
        exact .cons ⟨rfl, message, rfl⟩ .nil
      · cases hbind
    | _ => cases hbind
  | bind name =>
    cases hscope
    cases ending with
    | value v =>
      cases hbind
      exact .cons ⟨rfl, hending v rfl⟩ .nil
    | _ => cases hbind
  | any =>
    cases hscope
    cases ending with
    | value v =>
      cases hbind
      exact .nil
    | _ => cases hbind
  | text | constant | emptyArray =>
    have hnil : scope = [] := by
      unfold scope? at hscope
      split at hscope <;> simp_all
    have hbound : bound = [] := by
      unfold bind? at hbind
      split at hbind <;> simp_all
    rw [hnil, hbound]
    exact .nil
  | construct constructor argument ih =>
    obtain ⟨v, rfl, hargument⟩ := exists_of_bind?_construct hbind
    obtain ⟨inner, hinner, hv⟩ := exists_of_scope?_construct hscope (hending _ rfl)
    exact ih hinner hargument fun _ hvalue => by cases hvalue; exact hv
  | either left right ihLeft ihRight =>
    have hscopes : left.scope? type = some [] ∧ right.scope? type = some [] ∧ scope = [] := by
      rw [scope?] at hscope
      split at hscope <;> simp_all
    obtain ⟨hleft, hright, rfl⟩ := hscopes
    rw [bind?] at hbind
    cases hbindLeft : left.bind? ending with
    | some bound' =>
      rw [hbindLeft] at hbind
      cases hbind
      exact ihLeft hleft hbindLeft hending
    | none =>
      rw [hbindLeft] at hbind
      exact ihRight hright hbind hending

/-! ## The discipline -/

/-- No exception leaves the body, which reads its variables as the scope says. -/
inductive Contained : Scope → Body → Prop where
  | value {scope : Scope} {t : Term} : Answers scope t → Contained scope (.value t)
  /-- The exception of a raising expression is caught first. -/
  | attempt {scope : Scope} {read : Term} {place name : String} {type : Ty} {next : Body} :
    Typed scope read .raising type → Contained ((name, type) :: scope) next →
      Contained scope (Decoder.attempt read place name next)
  /-- The length of an array is compared before its elements are read. -/
  | measure {scope : Scope} {source message : Term} {place name : String} {length : Nat} {next : Body} :
    Typed scope source .raising (.items none) → Typed ((name, .items none) :: scope) message .silent .text →
      Contained ((name, .items (some length)) :: scope) next →
      Contained scope (.proceed source [Decoder.caught place,
        (⟨.bind name, some (.differs (Runtime.arrayLength name) (.number length))⟩, Runtime.error message)] name next)
  /-- Every value has an arm, and so does the exception of a raising expression, which comes first. -/
  | choose {scope : Scope} {scrutinee : Term} {effect : Effect} {type : Ty} {arms : List (Clause × Body)} :
    Typed scope scrutinee effect type →
      (effect = .raising → ∃ place, (arms.head?.map fun arm => arm.1) = some (Decoder.caught place).1) →
      (∀ arm ∈ arms, arm.1.guard = none ∧ (arm.1.pattern.scope? type).isSome) →
      (∀ v, type.Holds v → ∃ arm ∈ arms, (arm.1.pattern.bind? (.value v)).isSome) →
      (∀ arm ∈ arms, ∀ bound, arm.1.pattern.scope? type = some bound → Contained (bound ++ scope) arm.2) →
      Contained scope (.choose scrutinee arms)

/-! ## Evaluation of contained bodies -/

namespace Contained

variable {world : World} {scope : Scope} {locals : Locals}

theorem failed?_caught (place message : String) (rest : List (Clause × Term)) :
    Body.failed? world locals (.raised message) (Decoder.caught place :: rest) =
      .value (some (.construct Runtime.errorPath [.text (place ++ message)])) := by
  rfl

theorem failed?_of_value (place : String) (v : Val) (rest : List (Clause × Term)) :
    Body.failed? world locals (.value v) (Decoder.caught place :: rest) =
      Body.failed? world locals (.value v) rest := by
  rfl

theorem eval_arrayLength
    (harray : ∀ documents, world ⟨["Array"], "length"⟩ [.items documents] = .value (.number documents.length))
    {name : String} {documents : List Json.Document} (h : locals.lookup name = some (.items documents)) :
    (Runtime.arrayLength name).eval world locals = .value (.number documents.length) := by
  have harguments : Term.evalAll world locals [.var name] = .value [.items documents] := by
    rw [Term.evalAll, Term.var, Term.eval, Locals.get?_variable, h]
    rfl
  rw [Runtime.arrayLength, Term.eval_apply_path rfl harguments, World.call_eq, harray]
  intro v hmem
  rw [List.mem_singleton.mp hmem]
  rfl

theorem failed?_differs
    (harray : ∀ documents, world ⟨["Array"], "length"⟩ [.items documents] = .value (.number documents.length))
    {name : String} {length : Nat} (documents : List Json.Document) (message : Term) :
    Body.failed? world locals (.value (.items documents))
        [(⟨.bind name, some (.differs (Runtime.arrayLength name) (.number length))⟩, message)] =
      if documents.length = length then .value none
      else message.eval world ((name, .items documents) :: locals) >>= fun v => .value (some v) := by
  have hlength : (Runtime.arrayLength name).eval world ((name, .items documents) :: locals) =
      .value (.number documents.length) := eval_arrayLength harray List.lookup_cons_self
  have hguard : (Term.differs (Runtime.arrayLength name) (.number length)).eval world
      ((name, .items documents) :: locals) = .value (.flag ((documents.length : Int) != length)) := by
    rw [Term.eval, hlength, Term.eval]
    rfl
  rw [Body.failed?, Clause.select?]
  show ((Term.differs _ _).eval world ((name, .items documents) :: locals) >>= _) >>= _ = _
  rw [hguard]
  by_cases h : documents.length = length
  · rw [if_pos h, h]
    simp
    rfl
  · rw [if_neg h]
    have hdiffers : ((documents.length : Int) != length) = true := by
      rw [bne_iff_ne]
      exact fun hlength => h (Int.ofNat_inj.mp hlength)
    rw [hdiffers]
    rfl

/-- An arm for what is matched is found, and it ends well if every arm does. -/
theorem evalArms_fits {type : Ty} {ending : Ending Val} {arms : List (Clause × Body)} {P : Val → Prop}
    (hending : ∀ v, ending = .value v → type.Holds v)
    (hclauses : ∀ arm ∈ arms, arm.1.guard = none ∧ (arm.1.pattern.scope? type).isSome)
    (hmatch : ∃ arm ∈ arms, (arm.1.pattern.bind? ending).isSome)
    (hbodies : ∀ arm ∈ arms, ∀ bound values, arm.1.pattern.scope? type = some bound → bound.Holds values →
      (arm.2.eval world (values ++ locals)).Fits .silent P) :
    (Body.evalArms world locals ending arms).Fits .silent P := by
  induction arms with
  | nil =>
    obtain ⟨arm, hmem, -⟩ := hmatch
    cases hmem
  | cons arm rest ih =>
    obtain ⟨⟨pattern, guard⟩, body⟩ := arm
    rw [List.forall_mem_cons] at hclauses hbodies
    obtain ⟨⟨hguard, hscope⟩, hrest⟩ := hclauses
    cases hguard
    obtain ⟨bound, hbound⟩ := Option.isSome_iff_exists.mp hscope
    rw [Body.evalArms, Clause.select?]
    cases hbind : pattern.bind? ending with
    | some values => exact hbodies.1 bound values hbound (Pattern.holds_bind? hbound hbind hending)
    | none =>
      refine ih hrest ?_ hbodies.2
      obtain ⟨arm', hmem, hsome⟩ := hmatch
      rcases List.mem_cons.mp hmem with rfl | hmem
      · rw [hbind] at hsome
        cases hsome
      · exact ⟨arm', hmem, hsome⟩

theorem attempt_fits {read : Term} {place name : String} {type : Ty} {next : Body}
    (hread : (read.eval world locals).Fits .raising type.Holds)
    (hnext : ∀ v, type.Holds v → (next.eval world ((name, v) :: locals)).Fits .silent Val.IsReport) :
    ((Decoder.attempt read place name next).eval world locals).Fits .silent Val.IsReport := by
  rw [Decoder.attempt, Body.eval]
  cases hending : read.eval world locals with
  | value v =>
    rw [hending] at hread
    rw [failed?_of_value]
    exact hnext v hread
  | raised message =>
    rw [failed?_caught]
    exact .inr ⟨_, rfl⟩
  | fault =>
    rw [hending] at hread
    exact hread.elim

theorem measure_fits {source message : Term} {place name : String} {length : Nat} {next : Body} (hworld : world.Lawful)
    (hlocals : scope.Holds locals) (hsource : (source.eval world locals).Fits .raising (Ty.items none).Holds)
    (hmessage : Typed ((name, .items none) :: scope) message .silent .text)
    (hnext : ∀ documents : List Json.Document, documents.length = length →
      (next.eval world ((name, .items documents) :: locals)).Fits .silent Val.IsReport) :
    ((Body.proceed source [Decoder.caught place,
      (⟨.bind name, some (.differs (Runtime.arrayLength name) (.number length))⟩, Runtime.error message)] name
        next).eval world locals).Fits .silent Val.IsReport := by
  rw [Body.eval]
  cases hending : source.eval world locals with
  | value v =>
    rw [hending] at hsource
    obtain ⟨documents, rfl, -⟩ := hsource
    rw [failed?_of_value, failed?_differs hworld.arrayLength]
    split
    · next hlength => exact hnext documents hlength
    · have hholds : Scope.Holds ((name, .items none) :: scope) ((name, .items documents) :: locals) :=
        .cons ⟨rfl, documents, rfl, nofun⟩ hlocals
      have hanswer := (Answers.error hmessage).isReport hworld hholds
      obtain ⟨v, hv, hreport⟩ := hanswer.exists_value
      rw [hv]
      exact hreport
  | raised message =>
    rw [failed?_caught]
    exact .inr ⟨_, rfl⟩
  | fault =>
    rw [hending] at hsource
    exact hsource.elim

/-- The ending of what is matched has an arm: a value because the arms cover its type, an exception because the first
arm catches it. -/
theorem exists_arm {type : Ty} {effect : Effect} {ending : Ending Val} {arms : List (Clause × Body)}
    (hending : ending.Fits effect type.Holds)
    (hcaught : effect = .raising → ∃ place, (arms.head?.map fun arm => arm.1) = some (Decoder.caught place).1)
    (hcovers : ∀ v, type.Holds v → ∃ arm ∈ arms, (arm.1.pattern.bind? (.value v)).isSome) :
    ∃ arm ∈ arms, (arm.1.pattern.bind? ending).isSome := by
  cases ending with
  | value v => exact hcovers v hending
  | raised message =>
    obtain ⟨place, hfirst⟩ := hcaught hending
    obtain ⟨arm, hmem, hclause⟩ := Option.map_eq_some_iff.mp hfirst
    refine ⟨arm, List.mem_of_mem_head? hmem, ?_⟩
    rw [hclause]
    rfl
  | fault => exact hending.elim

/-- A contained body ends with a value or a message. -/
theorem sound {body : Body} (h : Contained scope body) (hworld : world.Lawful) (hlocals : scope.Holds locals) :
    (body.eval world locals).Fits .silent Val.IsReport := by
  induction h generalizing locals with
  | value hanswers =>
    rw [Body.eval]
    exact hanswers.isReport hworld hlocals
  | attempt hread _ ih =>
    exact attempt_fits (hread.sound hworld hlocals) fun v hv => ih (.cons ⟨rfl, hv⟩ hlocals)
  | measure hsource hmessage _ ih =>
    refine measure_fits hworld hlocals (hsource.sound hworld hlocals) hmessage fun documents hlength => ?_
    refine ih (.cons ⟨rfl, documents, rfl, ?_⟩ hlocals)
    rintro _ ⟨⟩
    exact hlength
  | @choose scope scrutinee effect type arms hscrutinee hcaught hclauses hcovers _ ih =>
    have hfits := hscrutinee.sound hworld hlocals
    rw [Body.eval]
    refine evalArms_fits ?_ hclauses (exists_arm hfits hcaught hcovers) fun arm hmem bound values hbound hholds => ?_
    · intro v hv
      rw [hv] at hfits
      exact hfits
    · exact ih arm hmem bound hbound (List.rel_append hholds hlocals)

end Contained

end TypeScribe
