import TypeScribe.Proofs.Reader

/-!
# Reading expressions back

`Term.expr` is what an expression is meant to be read as. `Term.Readable.readsAt` says that the reader gets it from the
tokens of the expression, at every level of binding and whatever is open around it.
-/

namespace TypeScribe.Ocaml

/-! ## What is meant -/

def Expr.call (function : Expr) : List Expr → Expr
  | [] => function
  | arguments => .apply function arguments

/-- A constructor with arguments. Several arguments form a tuple. -/
def Expr.constructed (constructor : Path) : List Expr → Expr
  | [] => .constructor constructor
  | [argument] => .apply (.constructor constructor) [argument]
  | arguments => .apply (.constructor constructor) [.tuple arguments]

def fieldExprs (fields : List (String × String)) : List (String × Expr) :=
  fields.map fun (label, name) => (label, .name ⟨[], name⟩)

namespace Term

mutual

def expr : Term → Expr
  | .path p => .name p
  | .text s => .text s
  | .number n => .number n
  | .apply function arguments => .call function.expr (exprs arguments)
  | .lambda parameter body => .lambda parameter body.expr
  | .construct constructor arguments => .constructed constructor (exprs arguments)
  | .record fields type => .annotated (.record (fieldExprs fields)) type
  | .concat left right => .concat left.expr right.expr
  | .element array index => .element (.name ⟨[], array⟩) (.number index)
  | .differs left right => .differs left.expr right.expr

def exprs : List Term → List Expr
  | [] => []
  | t :: rest => t.expr :: exprs rest

end

end Term

inductive TypeExpr.Readable : TypeExpr → Prop where
  | var {name : String} : IsVariable name → Readable (.var name)
  | constructor {path : Path} {arguments : List TypeExpr} :
    path.IsName → (∀ argument ∈ arguments, Readable argument) → Readable (.constructor path arguments)

inductive Term.Readable : Term → Prop where
  | path {p : Path} : p.IsName → Readable (.path p)
  | text (s : String) : Readable (.text s)
  | number (n : Nat) : Readable (.number n)
  | apply {function : Term} {arguments : List Term} :
    Readable function → function.expr.isConstructor = false →
      (∀ argument ∈ arguments, Readable argument) → Readable (.apply function arguments)
  | lambda {parameter : String} {body : Term} :
    Path.IsName ⟨[], parameter⟩ → Readable body → Readable (.lambda parameter body)
  | construct {constructor : Path} {arguments : List Term} :
    constructor.IsConstructor → (∀ argument ∈ arguments, Readable argument) →
      Readable (.construct constructor arguments)
  | record {fields : List (String × String)} {type : TypeExpr} :
    fields ≠ [] → (∀ field ∈ fields, Path.IsName ⟨[], field.1⟩ ∧ Path.IsName ⟨[], field.2⟩) → type.Readable →
      Readable (.record fields type)
  | concat {left right : Term} : Readable left → Readable right → Readable (.concat left right)
  | element {array : String} (index : Nat) : Path.IsName ⟨[], array⟩ → Readable (.element array index)
  | differs {left right : Term} : Readable left → Readable right → Readable (.differs left right)

namespace Reader

/-! ## Runs -/

/-- The reader gets from one state to another over tokens. -/
def Reads (s : State) (tokens : List Token) (s' : State) : Prop := run s tokens = some s'

namespace Reads

variable {s s' s'' : State} {tokens more : List Token}

theorem nil (s : State) : Reads s [] s := rfl

theorem append (h : Reads s tokens s') (h' : Reads s' more s'') : Reads s (tokens ++ more) s'' := by
  unfold Reads run at *
  rw [List.foldlM_append, h]
  exact h'

theorem cons {token : Token} {lexeme : Lexeme} (htoken : token.lexeme? = some lexeme)
    (hread : s.read lexeme = some s') (h : Reads s' tokens s'') : Reads s (token :: tokens) s'' := by
  unfold Reads run at *
  rw [List.foldlM_cons, htoken, Option.bind_some, hread]
  exact h

theorem single {token : Token} {lexeme : Lexeme} (htoken : token.lexeme? = some lexeme)
    (hread : s.read lexeme = some s') : Reads s [token] s' :=
  cons htoken hread (nil s')

end Reads

/-- The tokens leave what is closed as `e` by all that ends as much as `reach`. -/
def Leaves (least : Nat) (stack : List Frame) (tokens : List Token) (e : Expr) : Prop :=
  ∃ stack' atoms, Reads (.operand stack []) tokens (.operand stack' atoms) ∧
    ∀ n, least ≤ n → close n stack' atoms = some (settle n stack e)

/-- Nothing that ends as much as `n` ends what is open on the stack. -/
def Blocks (n : Nat) (stack : List Frame) : Prop := ∀ e, settle n stack e = (stack, e)

theorem blocks_cons {n : Nat} {frame : Frame} (h : n < frame.strength) (rest : List Frame) :
    Blocks n (frame :: rest) := by
  intro e
  rw [settle, if_neg (Nat.not_le.mpr h)]

theorem settle_cons {n : Nat} {frame : Frame} (h : frame.strength ≤ n) (rest : List Frame) (e : Expr) :
    settle n (frame :: rest) e = settle n rest (frame.around e) := by
  rw [settle, if_pos h]

/-- The lexeme ends the expression at hand. -/
def IsEnd (lexeme : Lexeme) : Prop :=
  ∀ stack atoms, readOperand stack atoms lexeme =
    (close (reach lexeme) stack atoms).bind fun (stack, e) => proceed e lexeme stack

theorem Leaves.mono {least least' : Nat} {stack : List Frame} {tokens : List Token} {e : Expr}
    (h : Leaves least stack tokens e) (hle : least ≤ least') : Leaves least' stack tokens e := by
  obtain ⟨stack', atoms, hreads, hclose⟩ := h
  exact ⟨stack', atoms, hreads, fun n hn => hclose n (Nat.le_trans hle hn)⟩

theorem Leaves.ne_nil {least : Nat} {stack : List Frame} {tokens : List Token} {e : Expr}
    (h : Leaves least stack tokens e) : tokens ≠ [] := by
  obtain ⟨stack', atoms, hreads, hclose⟩ := h
  rintro rfl
  cases hreads
  cases hclose least (Nat.le_refl least)

/-- What has been left is read by the token that ends it. -/
theorem Leaves.ended {least : Nat} {stack : List Frame} {tokens : List Token} {e : Expr}
    (h : Leaves least stack tokens e) {token : Token} {lexeme : Lexeme} {s : State}
    (htoken : token.lexeme? = some lexeme) (hend : IsEnd lexeme) (hreach : least ≤ reach lexeme)
    (hgo : proceed (settle (reach lexeme) stack e).2 lexeme (settle (reach lexeme) stack e).1 = some s) :
    Reads (.operand stack []) (tokens ++ [token]) s := by
  obtain ⟨stack', atoms, hreads, hclose⟩ := h
  refine hreads.append (.single htoken ?_)
  show readOperand stack' atoms lexeme = some s
  rw [hend, hclose _ hreach, Option.bind_some]
  exact hgo

/-- What is left over an open frame that ends is left around that frame. -/
theorem Leaves.around {least : Nat} {frame : Frame} {stack : List Frame} {opening tokens : List Token} {e : Expr}
    (hopening : Reads (.operand stack []) opening (.operand (frame :: stack) [])) (hstrength : frame.strength ≤ least)
    (h : Leaves least (frame :: stack) tokens e) : Leaves least stack (opening ++ tokens) (frame.around e) := by
  obtain ⟨stack', atoms, hreads, hclose⟩ := h
  refine ⟨stack', atoms, hopening.append hreads, fun n hn => ?_⟩
  rw [hclose n hn, settle_cons (Nat.le_trans hstrength hn)]

/-! ## Levels -/

/-- The tokens are read as an expression of a level of binding. -/
def ReadsAt : Nat → List Token → Expr → Prop
  | 0, tokens, e => ∀ stack, Blocks 1 stack → Leaves 2 stack tokens e
  | 1, tokens, e => ∀ stack, Blocks 1 stack → Leaves 1 stack tokens e
  | 2, tokens, e => ∀ stack, Leaves 1 stack tokens e
  | 3, tokens, e => ∀ stack, ∃ atoms, Reads (.operand stack []) tokens (.operand stack atoms) ∧ applied atoms = some e
  | _, tokens, e => ∀ stack atoms, Reads (.operand stack atoms) tokens (.operand stack (atoms ++ [e]))

theorem ReadsAt.pred {level : Nat} {tokens : List Token} {e : Expr} (h : ReadsAt (level + 1) tokens e) :
    ReadsAt level tokens e := by
  match level, h with
  | 0, h => exact fun stack hstack => (h stack hstack).mono (by decide)
  | 1, h => exact fun stack _ => h stack
  | 2, h =>
    intro stack
    obtain ⟨atoms, hreads, happlied⟩ := h stack
    refine ⟨stack, atoms, hreads, fun n _ => ?_⟩
    rw [close, happlied]
    rfl
  | 3, h => exact fun stack => ⟨[e], h stack [], rfl⟩
  | _ + 4, h => exact h

theorem ReadsAt.mono {level level' : Nat} {tokens : List Token} {e : Expr} (h : ReadsAt level' tokens e)
    (hle : level ≤ level') : ReadsAt level tokens e := by
  induction hle with
  | refl => exact h
  | step _ ih => exact ih h.pred

theorem ReadsAt.of_atom {tokens : List Token} {e : Expr}
    (h : ∀ stack atoms, Reads (.operand stack atoms) tokens (.operand stack (atoms ++ [e]))) (level : Nat) :
    ReadsAt level tokens e := by
  have hatom : ReadsAt (level + 4) tokens e := h
  exact hatom.mono (Nat.le_add_right level 4)

/-- Parentheses make an atom of what has been left in them. -/
theorem reads_enclose {least : Nat} {tokens : List Token} {e : Expr} (hleast : least ≤ 3) (stack : List Frame)
    (atoms : List Expr) (h : Leaves least (.parenthesis atoms [] :: stack) tokens e) :
    Reads (.operand stack atoms) (Token.enclose tokens) (.operand stack (atoms ++ [e])) := by
  refine .cons rfl rfl (h.ended rfl (fun _ _ => rfl) hleast ?_)
  rfl

/-- What binds less tightly than is due is read in parentheses. -/
theorem ReadsAt.encloseIf {own : Nat} {tokens : List Token} {e : Expr} (h : ReadsAt own tokens e) (level : Nat) :
    ReadsAt level (Token.encloseIf (own < level) tokens) e := by
  by_cases hlevel : own < level
  · rw [decide_eq_true hlevel]
    refine .of_atom (fun stack atoms => ?_) level
    have hblocks : Blocks 1 (.parenthesis atoms [] :: stack) := blocks_cons (by simp [Frame.strength]) stack
    exact reads_enclose (by decide) stack atoms (h.mono (Nat.zero_le own) _ hblocks)
  · rw [decide_eq_false hlevel]
    exact h.mono (Nat.le_of_not_lt hlevel)

/-! ## Types -/

theorem reads_followedBy {stack : List Frame} {atoms : List Expr} {e : Expr} {rest : List TypeExpr}
    (h : ∀ type ∈ rest, ∀ groups, Reads (.annotating stack atoms e ⟨groups, []⟩) (type.tokens true)
      (.annotating stack atoms e ⟨groups, [type]⟩)) (group : List TypeExpr) (type : TypeExpr)
    (groups : List (List TypeExpr)) :
    Reads (.annotating stack atoms e ⟨group :: groups, [type]⟩) (TypeExpr.followedBy .comma rest ++ [.closeParen])
      (.annotating stack atoms e ⟨groups, group ++ type :: rest⟩) := by
  induction rest generalizing group type with
  | nil => exact .single rfl rfl
  | cons next rest ih =>
    rw [List.forall_mem_cons] at h
    have hrest := ih h.2 (group ++ [type]) next
    rw [List.append_assoc] at hrest
    rw [TypeExpr.followedBy, List.cons_append, List.cons_append, List.append_assoc]
    exact .cons rfl rfl ((h.1 _).append hrest)

end Reader

open Reader

theorem TypeExpr.Readable.reads {type : TypeExpr} (h : type.Readable) (stack : List Frame) (atoms : List Expr)
    (e : Expr) (inner : Bool) (groups : List (List TypeExpr)) :
    Reads (.annotating stack atoms e ⟨groups, []⟩) (type.tokens inner) (.annotating stack atoms e ⟨groups, [type]⟩) := by
  induction h generalizing inner groups with
  | var hname => exact .single hname.ofWord rfl
  | @constructor path arguments hpath _ ih =>
    have hname : ∀ current, Reads (.annotating stack atoms e ⟨groups, current⟩) [.word path.text]
        (.annotating stack atoms e ⟨groups, [.constructor path current]⟩) := by
      intro current
      exact .single hpath.ofWord rfl
    match arguments, ih with
    | [], _ => exact hname []
    | [argument], ih => exact (ih argument (List.mem_singleton_self _) true groups).append (hname _)
    | first :: second :: rest, ih =>
      have hfirst := ih first List.mem_cons_self true ([] :: groups)
      have hrest := reads_followedBy (fun type htype => ih type (List.mem_cons_of_mem _ htype) true) [] first groups
      rw [TypeExpr.tokens, Token.enclose, List.cons_append, List.append_assoc]
      refine Reads.append ?_ (hname _)
      exact .cons rfl rfl (hfirst.append hrest)

/-! ## Expressions -/

def Term.GetsBack (t : Term) : Prop := ∀ level, ReadsAt level (t.tokens level) t.expr

theorem reads_atoms {arguments : List Term} (h : ∀ argument ∈ arguments, argument.GetsBack) (stack : List Frame)
    (atoms : List Expr) :
    Reads (.operand stack atoms) (Term.atoms arguments) (.operand stack (atoms ++ Term.exprs arguments)) := by
  induction arguments generalizing atoms with
  | nil =>
    rw [Term.exprs, List.append_nil]
    exact .nil _
  | cons argument rest ih =>
    rw [List.forall_mem_cons] at h
    have hrest := ih h.2 (atoms ++ [argument.expr])
    rw [List.append_assoc] at hrest
    exact (h.1 4 stack atoms).append hrest

theorem reads_components {stack : List Frame} {atoms items : List Expr} {first : Term} {rest : List Term}
    (hfirst : first.GetsBack) (h : ∀ t ∈ rest, t.GetsBack) (hitems : items ≠ [] ∨ rest ≠ []) :
    Reads (.operand (.parenthesis atoms items :: stack) [])
      (first.tokens 1 ++ (Term.followedByComma rest ++ [.closeParen]))
      (.operand stack (atoms ++ [.tuple (items ++ first.expr :: Term.exprs rest)])) := by
  have hleaves := hfirst 1 (.parenthesis atoms items :: stack) (blocks_cons (by simp [Frame.strength]) stack)
  induction rest generalizing first items with
  | nil =>
    obtain ⟨item, items, rfl⟩ := List.exists_cons_of_ne_nil (hitems.resolve_right (fun hne => hne rfl))
    exact hleaves.ended rfl (fun _ _ => rfl) (by decide) rfl
  | cons next rest ih =>
    rw [List.forall_mem_cons] at h
    have hcomma : Reads (.operand (.parenthesis atoms items :: stack) []) (first.tokens 1 ++ [.comma])
        (.operand (.parenthesis atoms (items ++ [first.expr]) :: stack) []) :=
      hleaves.ended rfl (fun _ _ => rfl) (by decide) rfl
    have hmore : items ++ [first.expr] ≠ [] ∨ rest ≠ [] := .inl (by simp)
    have hrest := ih h.1 h.2 hmore (h.1 1 _ (blocks_cons (by simp [Frame.strength]) stack))
    rw [List.append_assoc] at hrest
    have hall := hcomma.append hrest
    rw [List.append_assoc] at hall
    simpa [Term.followedByComma, Term.exprs] using hall

theorem reads_fields {fields : List (String × String)} (hne : fields ≠ [])
    (h : ∀ field ∈ fields, Path.IsName ⟨[], field.1⟩ ∧ Path.IsName ⟨[], field.2⟩) (stack : List Frame)
    (atoms : List Expr) (before : List (String × Expr)) :
    Reads (.label stack atoms before) (Term.recordTokens fields ++ [.word "\x7d"])
      (.operand stack (atoms ++ [.record (before ++ fieldExprs fields)])) := by
  induction fields generalizing before with
  | nil => exact absurd rfl hne
  | cons field rest ih =>
    obtain ⟨label, name⟩ := field
    rw [List.forall_mem_cons] at h
    have hlabel := h.1.1.ofWord_local
    have hname := h.1.2.ofWord_local
    have hfield : Reads (.label stack atoms before) [.word label, .word "=", .word name]
        (.operand (.field atoms before label :: stack) [.name ⟨[], name⟩]) :=
      .cons hlabel rfl (.cons rfl rfl (.single hname rfl))
    cases rest with
    | nil => exact hfield.append (.single rfl rfl)
    | cons next rest =>
      have hsemicolon : Reads (.operand (.field atoms before label :: stack) [.name ⟨[], name⟩]) [.semicolon]
          (.label stack atoms (before ++ [(label, .name ⟨[], name⟩)])) := .single rfl rfl
      have hrest := ih (List.cons_ne_nil _ _) h.2 (before ++ [(label, .name ⟨[], name⟩)])
      rw [List.append_assoc] at hrest
      exact (hfield.append hsemicolon).append hrest

theorem applied_cons {function : Expr} (h : function.isConstructor = false) (arguments : List Expr) :
    applied (function :: arguments) = some (.call function arguments) := by
  match arguments with
  | [] => rfl
  | [argument] => rfl
  | first :: second :: rest =>
    show (if function.isConstructor then none else some _) = _
    rw [h]
    rfl

namespace Term.GetsBack

theorem apply {function : Term} {arguments : List Term} (hhead : function.expr.isConstructor = false)
    (hfunction : function.GetsBack) (harguments : ∀ argument ∈ arguments, argument.GetsBack) :
    (Term.apply function arguments).GetsBack := by
  intro level
  have happlication : ReadsAt 3 (function.tokens 4 ++ atoms arguments) (Term.apply function arguments).expr := by
    intro stack
    exact ⟨_, (hfunction 4 stack []).append (reads_atoms harguments stack _), applied_cons hhead _⟩
  exact happlication.encloseIf level

theorem lambda {parameter : String} {body : Term} (hparameter : Path.IsName ⟨[], parameter⟩) (hbody : body.GetsBack) :
    (Term.lambda parameter body).GetsBack := by
  intro level
  have hname := hparameter.ofWord_local
  have hwhole : ReadsAt 0 ([Token.word "fun", .word parameter, .word "->"] ++ body.tokens 0)
      (Term.lambda parameter body).expr := by
    intro stack _
    have hopening : Reads (.operand stack []) [.word "fun", .word parameter, .word "->"]
        (.operand (.lambda parameter :: stack) []) := .cons rfl rfl (.cons hname rfl (.single rfl rfl))
    exact .around hopening (Nat.le_refl 2) (hbody 0 _ (blocks_cons (by simp [Frame.strength]) stack))
  exact hwhole.encloseIf level

theorem constant {constructor : Path} (h : constructor.IsConstructor) : (Term.construct constructor []).GetsBack := by
  intro level
  rw [Term.tokens]
  have hatom : ∀ stack atoms, Reads (.operand stack atoms) [.word constructor.text]
      (.operand stack (atoms ++ [.constructor constructor])) := fun stack atoms => .single h.ofWord rfl
  exact .of_atom hatom level

theorem constructOne {constructor : Path} (h : constructor.IsConstructor) {argument : Term}
    (hargument : argument.GetsBack) : (Term.construct constructor [argument]).GetsBack := by
  intro level
  have happlication : ReadsAt 3 ([Token.word constructor.text] ++ argument.tokens 4)
      (Term.construct constructor [argument]).expr := by
    intro stack
    have hhead : Reads (.operand stack []) [.word constructor.text] (.operand stack [.constructor constructor]) :=
      .single h.ofWord rfl
    exact ⟨_, hhead.append (hargument 4 stack _), rfl⟩
  exact happlication.encloseIf level

theorem constructMany {constructor : Path} (h : constructor.IsConstructor) {first second : Term} {rest : List Term}
    (harguments : ∀ argument ∈ first :: second :: rest, argument.GetsBack) :
    (Term.construct constructor (first :: second :: rest)).GetsBack := by
  intro level
  rw [List.forall_mem_cons] at harguments
  have happlication : ReadsAt 3
      ([Token.word constructor.text] ++ Token.enclose (first.tokens 1 ++ followedByComma (second :: rest)))
      (Term.construct constructor (first :: second :: rest)).expr := by
    intro stack
    have hhead : Reads (.operand stack []) [.word constructor.text] (.operand stack [.constructor constructor]) :=
      .single h.ofWord rfl
    have hcomponents : Reads (.operand (.parenthesis [.constructor constructor] [] :: stack) [])
        (first.tokens 1 ++ (followedByComma (second :: rest) ++ [Token.closeParen]))
        (.operand stack [.constructor constructor, .tuple (exprs (first :: second :: rest))]) :=
      reads_components harguments.1 harguments.2 (.inr (List.cons_ne_nil _ _))
    rw [← List.append_assoc] at hcomponents
    exact ⟨_, hhead.append (.cons rfl rfl hcomponents), rfl⟩
  exact happlication.encloseIf level

theorem construct {constructor : Path} (h : constructor.IsConstructor) {arguments : List Term}
    (harguments : ∀ argument ∈ arguments, argument.GetsBack) : (Term.construct constructor arguments).GetsBack := by
  match arguments, harguments with
  | [], _ => exact constant h
  | [argument], harguments => exact constructOne h (harguments argument List.mem_cons_self)
  | first :: second :: rest, harguments => exact constructMany h harguments

theorem record {fields : List (String × String)} {type : TypeExpr} (hne : fields ≠ [])
    (hfields : ∀ field ∈ fields, Path.IsName ⟨[], field.1⟩ ∧ Path.IsName ⟨[], field.2⟩) (htype : type.Readable) :
    (Term.record fields type).GetsBack := by
  refine .of_atom fun stack atoms => ?_
  have hopening : Reads (.operand stack atoms) [.openParen, .word "\x7b"]
      (.label (.parenthesis atoms [] :: stack) [] []) := .cons rfl rfl (.single rfl rfl)
  have hrecord := hopening.append (reads_fields hne hfields _ _ [])
  have hcolon : Reads (.operand (.parenthesis atoms [] :: stack) [.record (fieldExprs fields)]) [.word ":"]
      (.annotating stack atoms (.record (fieldExprs fields)) ⟨[], []⟩) := .single rfl rfl
  have htype := htype.reads stack atoms (.record (fieldExprs fields)) false []
  have hclose : Reads (.annotating stack atoms (.record (fieldExprs fields)) ⟨[], [type]⟩) [.closeParen]
      (.operand stack (atoms ++ [(Term.record fields type).expr])) := .single rfl rfl
  have hall := hrecord.append (hcolon.append (htype.append hclose))
  simpa [Term.tokens, Token.enclose] using hall

theorem concat {left right : Term} (hleft : left.GetsBack) (hright : right.GetsBack) :
    (Term.concat left right).GetsBack := by
  intro level
  have hconcat : ReadsAt 2 (left.tokens 3 ++ ([Token.word "^"] ++ right.tokens 2)) (Term.concat left right).expr := by
    intro stack
    obtain ⟨atoms, hatoms, happlied⟩ := hleft 3 stack
    have hopening : Reads (.operand stack []) (left.tokens 3 ++ [Token.word "^"]) (.operand (.concat left.expr :: stack) []) := by
      refine hatoms.append (.single rfl ?_)
      show (applied atoms).map _ = _
      rw [happlied]
      rfl
    rw [← List.append_assoc]
    exact .around hopening (Nat.le_refl 1) (hright 2 _)
  exact hconcat.encloseIf level

theorem element {array : String} (harray : Path.IsName ⟨[], array⟩) (index : Nat) :
    (Term.element array index).GetsBack := by
  refine .of_atom fun stack atoms => ?_
  have hindex : State.read (.operand stack (atoms ++ [.name ⟨[], array⟩])) .openIndex =
      some (.operand (.index atoms (.name ⟨[], array⟩) :: stack) []) := by
    simp [State.read, readOperand]
  have hclose : State.read (.operand (.index atoms (.name ⟨[], array⟩) :: stack) [.number index]) .closeParen =
      some (.operand stack (atoms ++ [(Term.element array index).expr])) := rfl
  exact .cons harray.ofWord_local rfl (.cons rfl hindex (.cons (Lexeme.ofWord_number index) rfl (.single rfl hclose)))

theorem differs {left right : Term} (hleft : left.GetsBack) (hright : right.GetsBack) :
    (Term.differs left right).GetsBack := by
  intro level
  have hdiffers : ReadsAt 1 (left.tokens 2 ++ ([Token.word "<>"] ++ right.tokens 2)) (Term.differs left right).expr := by
    intro stack hstack
    have hopening : Reads (.operand stack []) (left.tokens 2 ++ [Token.word "<>"])
        (.operand (.differs left.expr :: stack) []) := by
      refine (hleft 2 stack).ended rfl (fun _ _ => rfl) (Nat.le_refl 1) ?_
      show proceed (settle 1 stack left.expr).2 .differs (settle 1 stack left.expr).1 = _
      rw [hstack]
      rfl
    rw [← List.append_assoc]
    exact .around hopening (Nat.le_refl 1) (hright 2 _)
  exact hdiffers.encloseIf level

end Term.GetsBack

/-- The reader gets every readable expression back. -/
theorem Term.Readable.getsBack {t : Term} (h : t.Readable) : t.GetsBack := by
  induction h with
  | path hname => exact .of_atom fun stack atoms => .single hname.ofWord rfl
  | text s => exact .of_atom fun stack atoms => .single rfl rfl
  | number n => exact .of_atom fun stack atoms => .single (Lexeme.ofWord_number n) rfl
  | apply _ hhead _ ih iharguments => exact .apply hhead ih iharguments
  | lambda hparameter _ ih => exact .lambda hparameter ih
  | construct hconstructor _ ih => exact .construct hconstructor ih
  | record hne hfields htype => exact .record hne hfields htype
  | concat _ _ ihleft ihright => exact .concat ihleft ihright
  | element index harray => exact .element harray index
  | differs _ _ ihleft ihright => exact .differs ihleft ihright

end TypeScribe.Ocaml
