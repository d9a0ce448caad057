import TypeScribe.Decoder

/-!
# The texts in generated code

`mapTexts` changes the text literals of an expression, of a pattern, of a body or of a function, and leaves all else.
Formatting commutes with it. Two functions whose texts have been made the same differ in nothing but these texts.
-/

namespace TypeScribe

namespace Ocaml

/-! ## Change of texts -/

mutual

/-- The expression with its text literals changed. -/
def Term.mapTexts (f : String → String) : Term → Term
  | .path p => .path p
  | .text s => .text (f s)
  | .number n => .number n
  | .apply function arguments => .apply (function.mapTexts f) (mapTextsOfAll f arguments)
  | .lambda parameter body => .lambda parameter (body.mapTexts f)
  | .construct constructor arguments => .construct constructor (mapTextsOfAll f arguments)
  | .record fields type => .record fields type
  | .concat left right => .concat (left.mapTexts f) (right.mapTexts f)
  | .element array index => .element array index
  | .differs left right => .differs (left.mapTexts f) (right.mapTexts f)

def Term.mapTextsOfAll (f : String → String) : List Term → List Term
  | [] => []
  | term :: rest => term.mapTexts f :: mapTextsOfAll f rest

end

def Pattern.mapTexts (f : String → String) : Pattern → Pattern
  | .text s => .text (f s)
  | .construct constructor argument => .construct constructor (argument.mapTexts f)
  | .either left right => .either (left.mapTexts f) (right.mapTexts f)
  | other => other

def Clause.mapTexts (f : String → String) (clause : Clause) : Clause :=
  ⟨clause.pattern.mapTexts f, clause.guard.map (·.mapTexts f)⟩

mutual

def Body.mapTexts (f : String → String) : Body → Body
  | .value t => .value (t.mapTexts f)
  | .choose scrutinee arms => .choose (scrutinee.mapTexts f) (mapTextsOfArms f arms)
  | .proceed scrutinee failures name next =>
    .proceed (scrutinee.mapTexts f) (failures.map fun arm => (arm.1.mapTexts f, arm.2.mapTexts f)) name
      (next.mapTexts f)

def Body.mapTextsOfArms (f : String → String) : List (Clause × Body) → List (Clause × Body)
  | [] => []
  | (clause, body) :: rest => (clause.mapTexts f, body.mapTexts f) :: mapTextsOfArms f rest

end

def Function.mapTexts (f : String → String) (function : Function) : Function :=
  { function with body := function.body.mapTexts f }

def Token.mapText (f : String → String) : Token → Token
  | .literal s => .literal (f s)
  | other => other

def Line.mapTexts (f : String → String) (line : Line) : Line :=
  ⟨line.depth, line.tokens.map (Token.mapText f)⟩

variable {f : String → String}

theorem Body.mapTextsOfArms_eq_map (arms : List (Clause × Body)) :
    mapTextsOfArms f arms = arms.map fun arm => (arm.1.mapTexts f, arm.2.mapTexts f) := by
  induction arms with
  | nil => rfl
  | cons arm rest ih => rw [mapTextsOfArms, ih, List.map_cons]

/-! ## The change that changes nothing -/

mutual

theorem Term.mapTexts_id : ∀ term : Term, term.mapTexts id = term
  | .path _ | .text _ | .number _ | .record _ _ | .element _ _ => rfl
  | .apply function arguments => by rw [mapTexts, mapTexts_id function, mapTextsOfAll_id arguments]
  | .lambda _ body => by rw [mapTexts, mapTexts_id body]
  | .construct _ arguments => by rw [mapTexts, mapTextsOfAll_id arguments]
  | .concat left right => by rw [mapTexts, mapTexts_id left, mapTexts_id right]
  | .differs left right => by rw [mapTexts, mapTexts_id left, mapTexts_id right]

theorem Term.mapTextsOfAll_id : ∀ terms : List Term, mapTextsOfAll id terms = terms
  | [] => rfl
  | term :: rest => by rw [mapTextsOfAll, mapTexts_id term, mapTextsOfAll_id rest]

end

theorem Pattern.mapTexts_id (pattern : Pattern) : pattern.mapTexts id = pattern := by
  induction pattern with
  | construct _ _ ih => rw [mapTexts, ih]
  | either _ _ ihLeft ihRight => rw [mapTexts, ihLeft, ihRight]
  | _ => rfl

theorem Clause.mapTexts_id (clause : Clause) : clause.mapTexts id = clause := by
  obtain ⟨pattern, guard⟩ := clause
  rw [mapTexts, Pattern.mapTexts_id]
  cases guard with
  | none => rfl
  | some guard => rw [Option.map_some, Term.mapTexts_id]

mutual

theorem Body.mapTexts_id : ∀ body : Body, body.mapTexts id = body
  | .value t => by rw [mapTexts, Term.mapTexts_id]
  | .choose scrutinee arms => by rw [mapTexts, Term.mapTexts_id, mapTextsOfArms_id arms]
  | .proceed scrutinee failures name next => by
    have hfailures : (fun arm : Clause × Term => (arm.1.mapTexts id, arm.2.mapTexts id)) = id :=
      funext fun arm => by rw [Clause.mapTexts_id, Term.mapTexts_id, id]
    rw [mapTexts, Term.mapTexts_id, mapTexts_id next, hfailures, List.map_id]

theorem Body.mapTextsOfArms_id : ∀ arms : List (Clause × Body), mapTextsOfArms id arms = arms
  | [] => rfl
  | (clause, body) :: rest => by rw [mapTextsOfArms, Clause.mapTexts_id, mapTexts_id body, mapTextsOfArms_id rest]

end

theorem Function.mapTexts_id (function : Function) : function.mapTexts id = function := by
  rw [mapTexts, Body.mapTexts_id]

/-! ## Formatting -/

@[simp] theorem Token.map_mapText_enclose (tokens : List Token) :
    (Token.enclose tokens).map (Token.mapText f) = Token.enclose (tokens.map (Token.mapText f)) := by
  simp [Token.enclose, Token.mapText]

@[simp] theorem Token.map_mapText_encloseIf (needed : Bool) (tokens : List Token) :
    (Token.encloseIf needed tokens).map (Token.mapText f) = Token.encloseIf needed (tokens.map (Token.mapText f)) := by
  cases needed with
  | true => exact map_mapText_enclose tokens
  | false => rfl

mutual

theorem TypeExpr.map_mapText_tokens : ∀ (inner : Bool) (type : TypeExpr),
    (type.tokens inner).map (Token.mapText f) = type.tokens inner
  | _, .var _ => rfl
  | _, .constructor _ [] => rfl
  | _, .constructor _ [argument] => by
    simp [tokens, Token.mapText, map_mapText_tokens _ argument]
  | _, .constructor _ (first :: second :: rest) => by
    simp [tokens, Token.mapText, map_mapText_tokens _ first, map_mapText_followedBy _ (second :: rest)]
  | _, .tuple [] => rfl
  | _, .tuple (first :: rest) => by
    simp [tokens, Token.mapText, map_mapText_tokens _ first, map_mapText_followedBy _ rest]
  | _, .arrow domain codomain => by
    simp [tokens, Token.mapText, map_mapText_tokens _ domain, map_mapText_tokens _ codomain]

theorem TypeExpr.map_mapText_followedBy : ∀ (separator : Token) (types : List TypeExpr),
    (followedBy separator types).map (Token.mapText f) = followedBy (separator.mapText f) types
  | _, [] => rfl
  | separator, type :: rest => by
    simp [followedBy, map_mapText_tokens _ type, map_mapText_followedBy separator rest]

end

theorem Term.map_mapText_recordTokens (fields : List (String × String)) :
    (recordTokens fields).map (Token.mapText f) = recordTokens fields := by
  fun_induction recordTokens fields with
  | case1 | case2 => rfl
  | case3 label name next rest ih => simp [Token.mapText, ih]

mutual

theorem Term.tokens_mapTexts : ∀ (level : Nat) (term : Term),
    (term.mapTexts f).tokens level = (term.tokens level).map (Token.mapText f)
  | _, .path _ | _, .text _ | _, .number _ | _, .element _ _ => rfl
  | _, .apply function arguments => by
    simp [mapTexts, tokens, tokens_mapTexts _ function, atoms_mapTexts arguments]
  | _, .lambda _ body => by simp [mapTexts, tokens, Token.mapText, tokens_mapTexts _ body]
  | _, .construct _ [] => rfl
  | _, .construct _ [argument] => by
    simp [mapTexts, mapTextsOfAll, tokens, Token.mapText, tokens_mapTexts _ argument]
  | _, .construct _ (first :: second :: rest) => by
    have hrest := followedByComma_mapTexts (second :: rest)
    simp only [mapTextsOfAll] at hrest
    simp [mapTexts, mapTextsOfAll, tokens, Token.mapText, tokens_mapTexts _ first, hrest]
  | _, .record fields type => by
    simp [mapTexts, tokens, Token.mapText, map_mapText_recordTokens, TypeExpr.map_mapText_tokens]
  | _, .concat left right => by
    simp [mapTexts, tokens, Token.mapText, tokens_mapTexts _ left, tokens_mapTexts _ right]
  | _, .differs left right => by
    simp [mapTexts, tokens, Token.mapText, tokens_mapTexts _ left, tokens_mapTexts _ right]

theorem Term.atoms_mapTexts : ∀ terms : List Term,
    atoms (mapTextsOfAll f terms) = (atoms terms).map (Token.mapText f)
  | [] => rfl
  | term :: rest => by simp [mapTextsOfAll, atoms, tokens_mapTexts _ term, atoms_mapTexts rest]

theorem Term.followedByComma_mapTexts : ∀ terms : List Term,
    followedByComma (mapTextsOfAll f terms) = (followedByComma terms).map (Token.mapText f)
  | [] => rfl
  | term :: rest => by
    simp [mapTextsOfAll, followedByComma, Token.mapText, tokens_mapTexts _ term, followedByComma_mapTexts rest]

end

theorem Pattern.tokens_mapTexts (inner : Bool) (pattern : Pattern) :
    (pattern.mapTexts f).tokens inner = (pattern.tokens inner).map (Token.mapText f) := by
  induction pattern generalizing inner with
  | raised => simp [mapTexts, tokens, Token.mapText]
  | construct _ _ ih => simp [mapTexts, tokens, Token.mapText, ih]
  | either _ _ ihLeft ihRight => simp [mapTexts, tokens, Token.mapText, ihLeft, ihRight]
  | _ => rfl

theorem Clause.tokens_mapTexts (clause : Clause) :
    (clause.mapTexts f).tokens = clause.tokens.map (Token.mapText f) := by
  obtain ⟨pattern, guard⟩ := clause
  cases guard with
  | none => simp [mapTexts, tokens, Token.mapText, Pattern.tokens_mapTexts]
  | some guard => simp [mapTexts, tokens, Token.mapText, Pattern.tokens_mapTexts, Term.tokens_mapTexts]

theorem Body.armTokens_mapTexts (clause : Clause) (term : Term) :
    armTokens (clause.mapTexts f, term.mapTexts f) = (armTokens (clause, term)).map (Token.mapText f) := by
  simp [armTokens, Clause.tokens_mapTexts, Term.tokens_mapTexts]

theorem Body.opening_mapTexts (scrutinee : Term) :
    opening (scrutinee.mapTexts f) = (opening scrutinee).map (Token.mapText f) := by
  simp [opening, Token.mapText, Term.tokens_mapTexts]

theorem Line.map_mapTexts_enclose (lines : List Line) :
    (Line.enclose lines).map (mapTexts f) = Line.enclose (lines.map (mapTexts f)) := by
  have hclose : ∀ lines : List Line, (enclose.close lines).map (mapTexts f) = enclose.close (lines.map (mapTexts f)) :=
    fun lines => by
      fun_induction enclose.close lines with
      | case1 => rfl
      | case2 last => simp [mapTexts, enclose.close, Token.mapText]
      | case3 line next rest ih =>
        rw [List.map_cons, ih]
        rfl
  cases lines with
  | nil => rfl
  | cons first rest => exact hclose _

mutual

theorem Body.lines_mapTexts : ∀ (depth : Nat) (body : Body),
    (body.mapTexts f).lines depth = (body.lines depth).map (Line.mapTexts f)
  | _, .value t => by simp [mapTexts, lines, Line.mapTexts, Term.tokens_mapTexts]
  | depth, .choose scrutinee arms => by
    simp [mapTexts, lines, Line.mapTexts, opening_mapTexts, armLines_mapTexts depth arms]
  | depth, .proceed scrutinee failures name next => by
    have hbind : (Clause.tokens ⟨.bind name, none⟩).map (Token.mapText f) = Clause.tokens ⟨.bind name, none⟩ := rfl
    simp only [mapTexts, lines, Line.mapTexts, opening_mapTexts, armTokens_mapTexts, lines_mapTexts depth next, hbind,
      List.map_cons, List.map_append, List.map_map, Function.comp_def]

theorem Body.armLines_mapTexts : ∀ (depth : Nat) (arms : List (Clause × Body)),
    armLines depth (mapTextsOfArms f arms) = (armLines depth arms).map (Line.mapTexts f)
  | _, [] => rfl
  | depth, (clause, .value t) :: rest => by
    simp [mapTextsOfArms, mapTexts, armLines, Line.mapTexts, armTokens_mapTexts, armLines_mapTexts depth rest]
  | depth, (clause, .choose scrutinee arms) :: rest => by
    have hbody := lines_mapTexts (depth + 1) (.choose scrutinee arms)
    simp only [mapTexts] at hbody
    simp [mapTextsOfArms, mapTexts, armLines, Line.mapTexts, Clause.tokens_mapTexts, hbody, Line.map_mapTexts_enclose,
      armLines_mapTexts depth rest]
  | depth, (clause, .proceed scrutinee failures name next) :: rest => by
    have hbody := lines_mapTexts (depth + 1) (.proceed scrutinee failures name next)
    simp only [mapTexts] at hbody
    simp [mapTextsOfArms, mapTexts, armLines, Line.mapTexts, Clause.tokens_mapTexts, hbody, Line.map_mapTexts_enclose,
      armLines_mapTexts depth rest]

end

/-- The lines of a function with its texts changed are the lines of the function with the literals in them changed. -/
theorem Function.lines_mapTexts (words : List String) (function : Function) :
    (function.mapTexts f).lines (words.map .word) = (function.lines (words.map .word)).map (Line.mapTexts f) := by
  simp [mapTexts, lines, Line.mapTexts, Token.mapText, Body.lines_mapTexts, Function.comp_def]

theorem groupLines_mapTexts (opening following : List String) (functions : List Function) :
    groupLines (opening.map .word) (following.map .word) Function.lines (functions.map (·.mapTexts f)) =
      (groupLines (opening.map .word) (following.map .word) Function.lines functions).map (Line.mapTexts f) := by
  cases functions with
  | nil => rfl
  | cons first rest =>
    have hblank : Line.blank.mapTexts f = Line.blank := rfl
    simp only [List.map_cons, groupLines, Function.lines_mapTexts, List.map_append, List.flatMap_map, List.map_flatMap, hblank]

theorem DefinitionGroup.functionLines_mapTexts (recursive : Bool) (functions : List Function) :
    functionLines ⟨recursive, functions.map (·.mapTexts f)⟩ =
      (functionLines ⟨recursive, functions⟩).map (Line.mapTexts f) := by
  cases recursive with
  | true => exact groupLines_mapTexts ["let", "rec"] ["and"] functions
  | false => exact groupLines_mapTexts ["let"] ["let"] functions

end Ocaml

end TypeScribe
