import Mathlib.Data.List.Forall2

/-!
# Outcomes of computations that may fail

Two computations agree if both succeed or both fail, with faults in a given relation. Agreement passes through sequencing
and through lists, so it is proved of whole renderings from what holds of their parts.
-/

namespace TypeScribe

variable {ε α β γ δ : Type}

/-! ## Success -/

def Succeeds (x : Except ε α) : Prop := ∃ a, x = .ok a

@[simp] theorem succeeds_ok (a : α) : Succeeds (.ok a : Except ε α) := ⟨a, rfl⟩

@[simp] theorem succeeds_pure (a : α) : Succeeds (pure a : Except ε α) := ⟨a, rfl⟩

@[simp] theorem not_succeeds_error (e : ε) : ¬ Succeeds (.error e : Except ε α) := by
  rintro ⟨a, h⟩
  cases h

theorem bind_eq_ok {x : Except ε α} {f : α → Except ε β} {b : β} :
    x >>= f = .ok b ↔ ∃ a, x = .ok a ∧ f a = .ok b := by
  cases x <;> simp [bind, Except.bind]

theorem pure_eq_ok {a b : α} : (pure a : Except ε α) = .ok b ↔ a = b := by
  simp [pure, Except.pure]

theorem succeeds_bind {x : Except ε α} {f : α → Except ε β} :
    Succeeds (x >>= f) ↔ ∃ a, x = .ok a ∧ Succeeds (f a) := by
  constructor
  · rintro ⟨b, h⟩
    obtain ⟨a, ha, hb⟩ := bind_eq_ok.mp h
    exact ⟨a, ha, b, hb⟩
  · rintro ⟨a, ha, b, hb⟩
    exact ⟨b, bind_eq_ok.mpr ⟨a, ha, hb⟩⟩

theorem succeeds_bind_pure {x : Except ε α} {f : α → β} :
    Succeeds (x >>= fun a => pure (f a)) ↔ Succeeds x := by
  rw [succeeds_bind]
  exact ⟨fun ⟨a, ha, _⟩ => ⟨a, ha⟩, fun ⟨a, ha⟩ => ⟨a, ha, succeeds_pure _⟩⟩

theorem mapM_eq_ok {f : α → Except ε β} {xs : List α} {ys : List β} :
    xs.mapM f = .ok ys ↔ List.Forall₂ (fun x y => f x = .ok y) xs ys := by
  induction xs generalizing ys with
  | nil => cases ys <;> simp [pure, Except.pure]
  | cons x xs ih =>
    rw [List.mapM_cons]
    simp only [bind_eq_ok, pure_eq_ok, ih]
    constructor
    · rintro ⟨y, hy, ys', hys, rfl⟩
      exact .cons hy hys
    · rintro (_ | ⟨hy, hys⟩)
      exact ⟨_, hy, _, hys, rfl⟩

theorem exists_of_forall₂_left {R : α → β → Prop} {xs : List α} {ys : List β} (h : List.Forall₂ R xs ys) {x : α}
    (hx : x ∈ xs) : ∃ y ∈ ys, R x y := by
  induction h with
  | nil => cases hx
  | cons hxy _ ih =>
    rcases List.mem_cons.mp hx with rfl | hx
    · exact ⟨_, List.mem_cons_self, hxy⟩
    · obtain ⟨y, hmem, hxy⟩ := ih hx
      exact ⟨y, List.mem_cons_of_mem _ hmem, hxy⟩

theorem forall₂_trans {R : α → β → Prop} {S : β → γ → Prop} {T : α → γ → Prop} {xs : List α} {ys : List β} {zs : List γ}
    (step : ∀ x y z, R x y → S y z → T x z) (h : List.Forall₂ R xs ys) (h' : List.Forall₂ S ys zs) :
    List.Forall₂ T xs zs := by
  induction h generalizing zs with
  | nil =>
    cases h'
    exact .nil
  | cons hxy _ ih =>
    cases h' with
    | cons hyz h' => exact .cons (step _ _ _ hxy hyz) (ih h')

theorem map_eq_of_forall₂ {f : α → γ} {g : β → γ} {xs : List α} {ys : List β}
    (h : List.Forall₂ (fun x y => f x = g y) xs ys) : xs.map f = ys.map g := by
  induction h with
  | nil => rfl
  | cons hxy _ ih => rw [List.map_cons, List.map_cons, hxy, ih]

theorem flatMap_eq_of_forall₂ {f : α → List γ} {g : β → List γ} {xs : List α} {ys : List β}
    (h : List.Forall₂ (fun x y => f x = g y) xs ys) : xs.flatMap f = ys.flatMap g := by
  rw [List.flatMap_def, List.flatMap_def, map_eq_of_forall₂ h]

theorem any_eq_of_forall₂ {p : α → Bool} {q : β → Bool} {xs : List α} {ys : List β}
    (h : List.Forall₂ (fun x y => p x = q y) xs ys) : xs.any p = ys.any q := by
  induction h with
  | nil => rfl
  | cons hxy _ ih => rw [List.any_cons, List.any_cons, hxy, ih]

theorem exists_of_mapM_eq_ok {f : α → Except ε β} {xs : List α} {ys : List β} (h : xs.mapM f = .ok ys) {y : β}
    (hy : y ∈ ys) : ∃ x ∈ xs, f x = .ok y := by
  induction mapM_eq_ok.mp h with
  | nil => cases hy
  | cons hx _ ih =>
    rcases List.mem_cons.mp hy with rfl | hy
    · exact ⟨_, List.mem_cons_self, hx⟩
    · obtain ⟨x, hmem, hfx⟩ := ih (mapM_eq_ok.mpr ‹_›) hy
      exact ⟨x, List.mem_cons_of_mem _ hmem, hfx⟩

/-- If each pair agrees on a property, some member of one list has it where some member of the other list does. -/
theorem exists_mem_iff_of_forall₂ {R : α → β → Prop} {P : α → Prop} {Q : β → Prop} {xs : List α} {ys : List β}
    (h : List.Forall₂ R xs ys) (step : ∀ x ∈ xs, ∀ y, R x y → (Q y ↔ P x)) : (∃ y ∈ ys, Q y) ↔ ∃ x ∈ xs, P x := by
  induction h with
  | nil => simp
  | cons hxy _ ih =>
    rw [List.forall_mem_cons] at step
    rw [List.exists_mem_cons_iff, List.exists_mem_cons_iff, step.1 _ hxy, ih step.2]

theorem succeeds_mapM {f : α → Except ε β} {xs : List α} :
    Succeeds (xs.mapM f) ↔ ∀ x ∈ xs, Succeeds (f x) := by
  induction xs with
  | nil => simp [List.mapM_nil]
  | cons x xs ih =>
    rw [List.mapM_cons, succeeds_bind, List.forall_mem_cons, ← ih]
    constructor
    · rintro ⟨y, hy, hys⟩
      exact ⟨⟨y, hy⟩, succeeds_bind_pure.mp hys⟩
    · rintro ⟨⟨y, hy⟩, hys⟩
      exact ⟨y, hy, succeeds_bind_pure.mpr hys⟩

theorem bind_pure_eq_error {x : Except ε α} {f : α → β} {e : ε} :
    (x >>= fun a => pure (f a)) = .error e ↔ x = .error e := by
  cases x <;> simp [bind, Except.bind, pure, Except.pure]

/-- A list fails with the fault of the first member that fails. -/
theorem mapM_eq_error {f : α → Except ε β} {xs : List α} {e : ε} :
    xs.mapM f = .error e ↔
      ∃ front x back, xs = front ++ x :: back ∧ (∀ y ∈ front, Succeeds (f y)) ∧ f x = .error e := by
  induction xs with
  | nil => simp [pure, Except.pure]
  | cons first rest ih =>
    rw [List.mapM_cons]
    cases hfirst : f first with
    | error fault =>
      change Except.error fault = _ ↔ _
      constructor
      · rintro ⟨⟩
        exact ⟨[], first, rest, rfl, List.forall_mem_nil _, hfirst⟩
      · rintro ⟨front, x, back, hsplit, hfront, hx⟩
        cases front with
        | nil =>
          obtain ⟨rfl, -⟩ := List.cons.inj hsplit
          cases hfirst.symm.trans hx
          rfl
        | cons y front =>
          obtain ⟨rfl, -⟩ := List.cons.inj hsplit
          obtain ⟨b, hb⟩ := hfront _ List.mem_cons_self
          cases hfirst.symm.trans hb
    | ok b =>
      change (rest.mapM f >>= fun bs => pure (b :: bs)) = _ ↔ _
      rw [bind_pure_eq_error, ih]
      constructor
      · rintro ⟨front, x, back, rfl, hfront, hx⟩
        exact ⟨first :: front, x, back, rfl, List.forall_mem_cons.mpr ⟨⟨b, hfirst⟩, hfront⟩, hx⟩
      · rintro ⟨front, x, back, hsplit, hfront, hx⟩
        cases front with
        | nil =>
          obtain ⟨rfl, -⟩ := List.cons.inj hsplit
          cases hfirst.symm.trans hx
        | cons y front =>
          obtain ⟨rfl, rfl⟩ := List.cons.inj hsplit
          exact ⟨front, x, back, rfl, (List.forall_mem_cons.mp hfront).2, hx⟩

/-! ## Agreement -/

/-- Both computations succeed, or both fail with faults in the relation `R`. -/
inductive Agree (R : ε → ε → Prop) : Except ε α → Except ε β → Prop where
  | ok (a : α) (b : β) : Agree R (.ok a) (.ok b)
  | error {e e' : ε} (related : R e e') : Agree R (.error e) (.error e')

namespace Agree

variable {R : ε → ε → Prop} {x : Except ε α} {y : Except ε β}

theorem succeeds_iff (h : Agree R x y) : Succeeds x ↔ Succeeds y := by
  cases h <;> simp

theorem error_left (h : Agree R x y) {e : ε} (hx : x = .error e) : ∃ e', y = .error e' ∧ R e e' := by
  subst hx
  cases h with
  | error related => exact ⟨_, rfl, related⟩

theorem refl (x : Except ε α) : Agree Eq x x := by
  cases x with
  | ok a => exact .ok a a
  | error e => exact .error rfl

theorem trans {z : Except ε γ} (h : Agree Eq x y) (h' : Agree R y z) : Agree R x z := by
  cases h with
  | ok a b =>
    cases h' with
    | ok _ c => exact .ok a c
  | error same =>
    subst same
    cases h' with
    | error related => exact .error related

theorem trans_eq {z : Except ε γ} (h : Agree R x y) (h' : Agree Eq y z) : Agree R x z := by
  cases h with
  | ok a b =>
    cases h' with
    | ok _ c => exact .ok a c
  | error related =>
    cases h' with
    | error same => exact .error (same ▸ related)

theorem symm (h : Agree Eq x y) : Agree Eq y x := by
  cases h with
  | ok a b => exact .ok b a
  | error related => exact .error related.symm

theorem mono {S : ε → ε → Prop} (h : Agree R x y) (weaker : ∀ e e', R e e' → S e e') : Agree S x y := by
  cases h with
  | ok a b => exact .ok a b
  | error related => exact .error (weaker _ _ related)

theorem bind {f : α → Except ε γ} {g : β → Except ε δ} (h : Agree R x y)
    (next : ∀ a b, x = .ok a → y = .ok b → Agree R (f a) (g b)) : Agree R (x >>= f) (y >>= g) := by
  cases h with
  | ok a b => exact next a b rfl rfl
  | error related => exact .error related

/-- If any two faults are related, the order of two parts does not matter. -/
theorem swap {x' : Except ε γ} {y' : Except ε δ} {σ τ : Type} {f : α → β → σ} {g : δ → γ → τ}
    {y : Except ε β} (total : ∀ e e', R e e') (hx : Agree R x x') (hy : Agree R y y') :
    Agree R (x >>= fun a => y >>= fun b => pure (f a b)) (y' >>= fun b => x' >>= fun a => pure (g b a)) := by
  cases hx with
  | ok a a' =>
    cases hy with
    | ok b b' => exact .ok _ _
    | error related => exact .error related
  | error related =>
    cases hy with
    | ok b b' => exact .error related
    | error _ => exact .error (total _ _)

theorem mapM {f : α → Except ε β} {g : α → Except ε γ} {xs : List α}
    (h : ∀ x ∈ xs, Agree R (f x) (g x)) : Agree R (xs.mapM f) (xs.mapM g) := by
  induction xs with
  | nil => exact .ok _ _
  | cons x xs ih =>
    rw [List.mapM_cons, List.mapM_cons]
    rw [List.forall_mem_cons] at h
    exact h.1.bind fun _ _ _ _ => (ih h.2).bind fun _ _ _ _ => .ok _ _

theorem map_left {f : α → γ} (h : Agree R x y) : Agree R (x >>= fun a => pure (f a)) y := by
  cases h with
  | ok a b => exact .ok _ b
  | error related => exact .error related

theorem mapM_singleton {f : γ → Except ε β} {c : γ} (h : Agree R x (f c)) : Agree R x ([c].mapM f) := by
  rw [List.mapM_cons]
  exact h.trans_eq (refl _).map_left.symm

/-- Two lists are walked alike if each member of one stands for a stretch of the other that is walked alike. -/
theorem mapM_flatMap {f : α → Except ε β} {g : α → List γ} {h : γ → Except ε δ} {xs : List α}
    (part : ∀ x ∈ xs, Agree Eq (f x) ((g x).mapM h)) : Agree Eq (xs.mapM f) ((xs.flatMap g).mapM h) := by
  induction xs with
  | nil => exact .ok _ _
  | cons x xs ih =>
    rw [List.mapM_cons, List.flatMap_cons, List.mapM_append]
    rw [List.forall_mem_cons] at part
    exact part.1.bind fun _ _ _ _ => (ih part.2).bind fun _ _ _ _ => .ok _ _

end Agree

/-! ## Related results -/

/-- Both computations succeed with results in the relation `S`, or both fail with faults in the relation `R`. -/
inductive Matches (R : ε → ε → Prop) (S : α → β → Prop) : Except ε α → Except ε β → Prop where
  | ok {a : α} {b : β} (related : S a b) : Matches R S (.ok a) (.ok b)
  | error {e e' : ε} (related : R e e') : Matches R S (.error e) (.error e')

namespace Matches

variable {R : ε → ε → Prop} {S : α → β → Prop} {T : γ → δ → Prop} {x : Except ε α} {y : Except ε β}

theorem refl (h : ∀ e, R e e) (x : Except ε α) : Matches R Eq x x := by
  cases x with
  | ok a => exact .ok rfl
  | error e => exact .error (h e)

theorem eq_iff {y : Except ε α} : Matches Eq Eq x y ↔ x = y := by
  constructor
  · rintro (rfl | rfl) <;> rfl
  · rintro rfl
    exact .refl (fun _ => rfl) _

theorem ok_iff {y : Except ε α} (h : Matches R Eq x y) {a : α} : x = .ok a ↔ y = .ok a := by
  cases h with
  | ok related => rw [related]
  | error _ => exact iff_of_false (fun h => by cases h) fun h => by cases h

theorem mono {S' : α → β → Prop} (h : Matches R S x y) (weaker : ∀ a b, S a b → S' a b) : Matches R S' x y := by
  cases h with
  | ok related => exact .ok (weaker _ _ related)
  | error related => exact .error related

theorem ok_left (h : Matches R S x y) {a : α} (hx : x = .ok a) : ∃ b, y = .ok b ∧ S a b := by
  subst hx
  cases h with
  | ok related => exact ⟨_, rfl, related⟩

theorem with_ok (h : Matches R S x y) : Matches R (fun a b => S a b ∧ x = .ok a ∧ y = .ok b) x y := by
  cases h with
  | ok related => exact .ok ⟨related, rfl, rfl⟩
  | error related => exact .error related

theorem bind {f : α → Except ε γ} {g : β → Except ε δ} (h : Matches R S x y)
    (next : ∀ a b, S a b → Matches R T (f a) (g b)) : Matches R T (x >>= f) (y >>= g) := by
  cases h with
  | ok related => exact next _ _ related
  | error related => exact .error related

theorem mapM {Q : β → δ → Prop} {f : α → Except ε β} {g : γ → Except ε δ} {xs : List α} {ys : List γ}
    (h : List.Forall₂ (fun x y => Matches R Q (f x) (g y)) xs ys) :
    Matches R (List.Forall₂ Q) (xs.mapM f) (ys.mapM g) := by
  induction h with
  | nil => exact .ok .nil
  | cons hxy _ ih =>
    rw [List.mapM_cons, List.mapM_cons]
    exact hxy.bind fun _ _ hab => ih.bind fun _ _ habs => .ok (.cons hab habs)

theorem mapM_eq {f : α → Except ε β} {g : γ → Except ε β} {xs : List α} {ys : List γ}
    (h : List.Forall₂ (fun x y => Matches R Eq (f x) (g y)) xs ys) : Matches R Eq (xs.mapM f) (ys.mapM g) :=
  (mapM h).mono fun _ _ => List.forall₂_eq_eq_eq ▸ id

end Matches

end TypeScribe
