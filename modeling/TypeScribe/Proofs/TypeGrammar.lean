import TypeScribe.Ocaml.TypeExpr
import TypeScribe.Proofs.Lexeme

/-!
# The grammar of type expressions

The grammar of OCaml for types made of variables, type constructors, products and functions, and for constructors that
carry types. A type constructor follows its arguments and binds more tightly than a product, and a product more tightly
than an arrow. The grammar is unambiguous: `DerivesType.unique` and `DerivesClause.unique` run a machine over what the
grammar derives, and it finds the one type that is derived.
-/

namespace TypeScribe.Ocaml

/-! ## Terminals -/

/-- What a token is in a type expression. -/
inductive Terminal where
  | var (name : String)
  | path (path : Path)
  | capital (name : String)
  | openParen
  | closeParen
  | comma
  | times
  | arrow
  | bar
  | of
deriving DecidableEq, Repr

def Lexeme.terminal? : Lexeme → Option Terminal
  | .variable v => some (.var v)
  | .name path => some (.path path)
  | .constructor path => if path.modules.isEmpty then some (.capital path.name) else none
  | .openParen => some .openParen
  | .closeParen => some .closeParen
  | .comma => some .comma
  | .arrow => some .arrow
  | .bar => some .bar
  | _ => none

/-- What a token is in a type expression. Two words matter only there. -/
def Token.terminal? (token : Token) : Option Terminal :=
  if token = .word "*" then some .times
  else if token = .word "of" then some .of
  else token.lexeme?.bind Lexeme.terminal?

theorem Token.terminal?_of_lexeme? {token : Token} {lexeme : Lexeme} (h : token.lexeme? = some lexeme) :
    token.terminal? = lexeme.terminal? := by
  have htimes : token ≠ .word "*" := by
    rintro rfl
    cases (by decide : Token.lexeme? (.word "*") = none).symm.trans h
  have hof : token ≠ .word "of" := by
    rintro rfl
    cases (by decide : Token.lexeme? (.word "of") = none).symm.trans h
  rw [terminal?, if_neg htimes, if_neg hof, h, Option.bind_some]

/-! ## Types -/

/-- How loosely the parts of a type may be bound. -/
inductive TypeLevel where
  | simple
  | product
  | full
deriving DecidableEq, Repr

/-- The terminals are a type. One argument of a type constructor is simple or stands in parentheses, several stand in
parentheses with commas between them, and the parts of a product are simple. -/
inductive DerivesType : TypeLevel → List Terminal → TypeExpr → Prop where
  | var (name : String) : DerivesType .simple [.var name] (.var name)
  | constant (path : Path) : DerivesType .simple [.path path] (.constructor path [])
  | applied {terminals : List Terminal} {type : TypeExpr} (path : Path) :
    DerivesType .simple terminals type → DerivesType .simple (terminals ++ [.path path]) (.constructor path [type])
  | several {first : List Terminal × TypeExpr} {rest : List (List Terminal × TypeExpr)} (path : Path) :
    rest ≠ [] → (∀ part ∈ first :: rest, DerivesType .full part.1 part.2) →
      DerivesType .simple
        (.openParen :: (first.1 ++ rest.flatMap fun part => .comma :: part.1) ++ [.closeParen, .path path])
        (.constructor path ((first :: rest).map Prod.snd))
  | grouped {terminals : List Terminal} {type : TypeExpr} :
    DerivesType .full terminals type → DerivesType .simple (.openParen :: terminals ++ [.closeParen]) type
  | simple {terminals : List Terminal} {type : TypeExpr} :
    DerivesType .simple terminals type → DerivesType .product terminals type
  | product {first : List Terminal × TypeExpr} {rest : List (List Terminal × TypeExpr)} :
    rest ≠ [] → (∀ part ∈ first :: rest, DerivesType .simple part.1 part.2) →
      DerivesType .product (first.1 ++ rest.flatMap fun part => .times :: part.1) (.tuple ((first :: rest).map Prod.snd))
  | bare {terminals : List Terminal} {type : TypeExpr} :
    DerivesType .product terminals type → DerivesType .full terminals type
  | arrow {terminals terminals' : List Terminal} {domain codomain : TypeExpr} :
    DerivesType .product terminals domain → DerivesType .full terminals' codomain →
      DerivesType .full (terminals ++ .arrow :: terminals') (.arrow domain codomain)

/-- The terminals are a constructor of a sum with the types of its arguments, each of them simple. -/
inductive DerivesClause : List Terminal → String × List TypeExpr → Prop where
  | constant (name : String) : DerivesClause [.bar, .capital name] (name, [])
  | carrying {first : List Terminal × TypeExpr} {rest : List (List Terminal × TypeExpr)} (name : String) :
    (∀ part ∈ first :: rest, DerivesType .simple part.1 part.2) →
      DerivesClause (.bar :: .capital name :: .of :: (first.1 ++ rest.flatMap fun part => .times :: part.1))
        (name, (first :: rest).map Prod.snd)

/-! ## The machine -/

namespace TypeMachine

/-- What has been read inside a parenthesis before the part at hand. -/
structure Level where
  items : List TypeExpr := []
  domains : List TypeExpr := []
  factors : List TypeExpr := []

structure State where
  /-- What stands before each parenthesis that is open. -/
  outer : List Level
  level : Level
  /-- The type at hand, or the arguments of a type constructor that is due. -/
  current : List TypeExpr

def product : List TypeExpr → TypeExpr
  | [type] => type
  | types => .tuple types

def State.factors (state : State) : List TypeExpr := state.level.factors ++ state.current

def State.type (state : State) : TypeExpr := state.level.domains.foldr .arrow (product state.factors)

/-- Reads one terminal. Terminals out of place are not noticed. -/
def State.read (state : State) : Terminal → State
  | .var name => { state with current := [.var name] }
  | .path path => { state with current := [.constructor path state.current] }
  | .openParen => ⟨state.level :: state.outer, {}, []⟩
  | .closeParen =>
    match state.outer with
    | [] => state
    | level :: outer => ⟨outer, level, state.level.items ++ [state.type]⟩
  | .comma => ⟨state.outer, { items := state.level.items ++ [state.type] }, []⟩
  | .times => ⟨state.outer, { state.level with factors := state.factors }, []⟩
  | .arrow =>
    ⟨state.outer, { items := state.level.items, domains := state.level.domains ++ [product state.factors] }, []⟩
  | _ => state

def run (state : State) (terminals : List Terminal) : State := terminals.foldl State.read state

theorem run_append (state : State) (front back : List Terminal) :
    run state (front ++ back) = run (run state front) back := List.foldl_append

theorem read_closeParen {state : State} {level : Level} {outer : List Level} (h : state.outer = level :: outer) :
    state.read .closeParen = ⟨outer, level, state.level.items ++ [state.type]⟩ := by
  rw [State.read, h]

/-- Reading the terminals from the state comes to the type, of which parts may be left to be joined. -/
def Reads (terminals : List Terminal) (type : TypeExpr) (outer : List Level) (level : Level) : TypeLevel → Prop
  | .simple => run ⟨outer, level, []⟩ terminals = ⟨outer, level, [type]⟩
  | .product => level.factors = [] →
    let state := run ⟨outer, level, []⟩ terminals
    state.outer = outer ∧ state.level.items = level.items ∧ state.level.domains = level.domains ∧
      product state.factors = type
  | .full => level.factors = [] →
    let state := run ⟨outer, level, []⟩ terminals
    state.outer = outer ∧ state.level.items = level.items ∧ state.type = level.domains.foldr .arrow type

theorem run_factors {rest : List (List Terminal × TypeExpr)}
    (h : ∀ part ∈ rest, ∀ outer level, Reads part.1 part.2 outer level .simple) (outer : List Level) (level : Level)
    (current : List TypeExpr) :
    let state := run ⟨outer, level, current⟩ (rest.flatMap fun part => .times :: part.1)
    state.outer = outer ∧ state.level.items = level.items ∧ state.level.domains = level.domains ∧
      state.factors = level.factors ++ current ++ rest.map Prod.snd := by
  induction rest generalizing level current with
  | nil => exact ⟨rfl, rfl, rfl, (List.append_nil _).symm⟩
  | cons part rest ih =>
    rw [List.forall_mem_cons] at h
    have hpart : run ⟨outer, level, current⟩ (.times :: part.1) =
        ⟨outer, { level with factors := level.factors ++ current }, [part.2]⟩ := h.1 _ _
    rw [List.flatMap_cons, run_append, hpart]
    obtain ⟨houter, hitems, hdomains, hfactors⟩ := ih h.2 { level with factors := level.factors ++ current } [part.2]
    exact ⟨houter, hitems, hdomains, hfactors.trans (by simp)⟩

theorem run_items {rest : List (List Terminal × TypeExpr)}
    (h : ∀ part ∈ rest, ∀ outer level, Reads part.1 part.2 outer level .full) (state : State) :
    let state' := run state (rest.flatMap fun part => .comma :: part.1)
    state'.outer = state.outer ∧
      state'.level.items ++ [state'.type] = state.level.items ++ [state.type] ++ rest.map Prod.snd := by
  induction rest generalizing state with
  | nil => exact ⟨rfl, (List.append_nil _).symm⟩
  | cons part rest ih =>
    rw [List.forall_mem_cons] at h
    rw [List.flatMap_cons, run_append]
    -- the comma before a part completes the type at hand, so types are counted with the one at hand
    obtain ⟨houter, hitems, htype⟩ := h.1 state.outer { items := state.level.items ++ [state.type] } rfl
    obtain ⟨houter', htypes⟩ := ih h.2 (run state (.comma :: part.1))
    refine ⟨houter'.trans houter, htypes.trans ?_⟩
    change (run state (.comma :: part.1)).level.items = _ at hitems
    change (run state (.comma :: part.1)).type = _ at htype
    rw [hitems, htype]
    simp

end TypeMachine

open TypeMachine

/-- The machine reads what the grammar derives. -/
theorem DerivesType.reads {typeLevel : TypeLevel} {terminals : List Terminal} {type : TypeExpr}
    (h : DerivesType typeLevel terminals type) (outer : List Level) (level : Level) :
    Reads terminals type outer level typeLevel := by
  induction h generalizing outer level with
  | var | constant => rfl
  | applied path _ ih =>
    show run _ _ = _
    rw [run_append, (ih outer level : run _ _ = _)]
    rfl
  | @several first rest path _ _ ih =>
    rw [List.forall_mem_cons] at ih
    have hopen : run ⟨outer, level, []⟩ (.openParen :: (first.1 ++ rest.flatMap fun part => .comma :: part.1)) =
        run (run ⟨level :: outer, {}, []⟩ first.1) (rest.flatMap fun part => .comma :: part.1) := run_append _ _ _
    obtain ⟨houter, hitems, htype⟩ := ih.1 (level :: outer) {} rfl
    obtain ⟨houter', htypes⟩ := run_items ih.2 (run ⟨level :: outer, {}, []⟩ first.1)
    show run _ _ = _
    rw [run_append, hopen]
    -- the closing parenthesis leaves all types at hand, as the arguments of the path after it
    show ((run _ _).read .closeParen).read (.path path) = _
    rw [read_closeParen (houter'.trans houter), htypes, hitems, htype]
    rfl
  | @grouped terminals type _ ih =>
    obtain ⟨houter, hitems, htype⟩ := ih (level :: outer) {} rfl
    show run _ _ = _
    rw [run_append]
    show (run ⟨level :: outer, {}, []⟩ terminals).read .closeParen = _
    rw [read_closeParen houter, hitems, htype]
    rfl
  | simple _ ih =>
    intro hfactors
    rw [(ih outer level : run _ _ = _)]
    refine ⟨rfl, rfl, rfl, ?_⟩
    rw [State.factors, hfactors]
    rfl
  | @product first rest hne _ ih =>
    intro hfactors
    rw [List.forall_mem_cons] at ih
    obtain ⟨second, rest, rfl⟩ := List.exists_cons_of_ne_nil hne
    have hfirst : run ⟨outer, level, []⟩ first.1 = ⟨outer, level, [first.2]⟩ := ih.1 outer level
    rw [run_append, hfirst]
    obtain ⟨houter, hitems, hdomains, htypes⟩ := run_factors ih.2 outer level [first.2]
    refine ⟨houter, hitems, hdomains, ?_⟩
    rw [htypes, hfactors]
    rfl
  | bare _ ih =>
    intro hfactors
    obtain ⟨houter, hitems, hdomains, hproduct⟩ := ih outer level hfactors
    exact ⟨houter, hitems, by rw [State.type, hdomains, hproduct]⟩
  | @arrow terminals terminals' domain codomain _ _ ih ih' =>
    intro hfactors
    obtain ⟨houter, hitems, hdomains, hproduct⟩ := ih outer level hfactors
    obtain ⟨houter', hitems', htype⟩ := ih' outer
      { level with domains := level.domains ++ [domain], factors := [] } rfl
    have harrow : (run ⟨outer, level, []⟩ terminals).read .arrow =
        ⟨outer, { level with domains := level.domains ++ [domain], factors := [] }, []⟩ := by
      rw [State.read, houter, hitems, hdomains, hproduct]
    have hrun : run ⟨outer, level, []⟩ (terminals ++ .arrow :: terminals') =
        run ((run ⟨outer, level, []⟩ terminals).read .arrow) terminals' := run_append _ _ _
    rw [hrun, harrow]
    exact ⟨houter', hitems', htype.trans (List.foldr_append ..)⟩

/-- The terminals of a type are the terminals of no other type. -/
theorem DerivesType.unique {terminals : List Terminal} {type type' : TypeExpr}
    (h : DerivesType .full terminals type) (h' : DerivesType .full terminals type') : type = type' := by
  obtain ⟨-, -, htype⟩ := h.reads [] {} rfl
  obtain ⟨-, -, htype'⟩ := h'.reads [] {} rfl
  exact htype.symm.trans htype'

theorem DerivesClause.reads {terminals : List Terminal} {clause : String × List TypeExpr}
    (h : DerivesClause terminals clause) :
    terminals = [.bar, .capital clause.1] ∧ clause.2 = [] ∨
      ∃ rest, terminals = .bar :: .capital clause.1 :: .of :: rest ∧ (run ⟨[], {}, []⟩ rest).factors = clause.2 := by
  cases h with
  | constant name => exact .inl ⟨rfl, rfl⟩
  | @carrying first rest name hparts =>
    rw [List.forall_mem_cons] at hparts
    have hfirst : run ⟨[], {}, []⟩ first.1 = ⟨[], {}, [first.2]⟩ := hparts.1.reads [] {}
    obtain ⟨-, -, -, htypes⟩ := run_factors (fun part hpart => (hparts.2 part hpart).reads) [] {} [first.2]
    refine .inr ⟨_, rfl, ?_⟩
    rw [run_append, hfirst, htypes]
    rfl

/-- The terminals of a constructor are the terminals of no other constructor. -/
theorem DerivesClause.unique {terminals : List Terminal} {clause clause' : String × List TypeExpr}
    (h : DerivesClause terminals clause) (h' : DerivesClause terminals clause') : clause = clause' := by
  obtain ⟨name, types⟩ := clause
  obtain ⟨name', types'⟩ := clause'
  obtain ⟨rfl, rfl⟩ | ⟨rest, rfl, rfl⟩ := h.reads <;> obtain ⟨hterminals, htypes⟩ | ⟨rest', hterminals, htypes⟩ := h'.reads
  · cases hterminals
    exact congrArg (Prod.mk name) htypes.symm
  · cases hterminals
  · cases hterminals
  · cases hterminals
    exact congrArg (Prod.mk name) htypes

end TypeScribe.Ocaml
