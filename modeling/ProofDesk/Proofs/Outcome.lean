import Mathlib.Data.List.Forall2

namespace ProofDesk

variable {ε ε' α β : Type}

@[simp]
theorem bind_eq_ok_iff {x : Except ε α} {f : α → Except ε β} {b : β} :
    (x >>= f) = .ok b ↔ ∃ a, x = .ok a ∧ f a = .ok b := by
  cases x with
  | error e => simp [bind, Except.bind]
  | ok a => simp [bind, Except.bind]

@[simp]
theorem pure_eq_ok_iff {a b : α} : (pure a : Except ε α) = .ok b ↔ a = b := by
  simp [pure, Except.pure]

@[simp]
theorem map_eq_ok_iff {x : Except ε α} {f : α → β} {b : β} :
    (f <$> x) = .ok b ↔ ∃ a, x = .ok a ∧ f a = b := by
  cases x with
  | error e => simp [Functor.map, Except.map]
  | ok a => simp [Functor.map, Except.map]

@[simp]
theorem mapError_ok (a : α) (f : ε → ε') : (Except.ok a).mapError f = .ok a := rfl

@[simp]
theorem mapError_error (e : ε) (f : ε → ε') :
    (Except.error e : Except ε α).mapError f = .error (f e) := rfl

@[simp]
theorem mapError_eq_ok_iff {x : Except ε α} {f : ε → ε'} {a : α} :
    x.mapError f = .ok a ↔ x = .ok a := by
  cases x with
  | error e => constructor <;> intro same <;> cases same
  | ok b => constructor <;> intro same <;> cases same <;> rfl

theorem mapM_eq_ok_iff {f : α → Except ε β} {as : List α} {bs : List β} :
    as.mapM f = .ok bs ↔ List.Forall₂ (fun a b => f a = .ok b) as bs := by
  induction as generalizing bs with
  | nil =>
    rw [List.mapM_nil, pure_eq_ok_iff, List.forall₂_nil_left_iff]
    exact eq_comm
  | cons a as ih =>
    simp only [List.mapM_cons, bind_eq_ok_iff, pure_eq_ok_iff, List.forall₂_cons_left_iff, ih]
    constructor
    · rintro ⟨b, first, bs, rest, rfl⟩
      exact ⟨b, bs, first, rest, rfl⟩
    · rintro ⟨b, bs, first, rest, rfl⟩
      exact ⟨b, first, bs, rest, rfl⟩

theorem exists_forall₂_iff {R : α → β → Prop} {as : List α} :
    (∃ bs, List.Forall₂ R as bs) ↔ ∀ a ∈ as, ∃ b, R a b := by
  induction as with
  | nil => simp
  | cons a as ih =>
    rw [List.forall_mem_cons, ← ih]
    simp only [List.forall₂_cons_left_iff]
    constructor
    · rintro ⟨_, b, bs, first, rest, -⟩
      exact ⟨⟨b, first⟩, bs, rest⟩
    · rintro ⟨⟨b, first⟩, bs, rest⟩
      exact ⟨_, b, bs, first, rest, rfl⟩

theorem discard_bind (x : Except ε α) (f : PUnit → Except ε β) :
    (discard x >>= f) = x >>= fun _ => f () := by
  cases x <;> rfl

theorem mapError_bind (x : Except ε α) (f : α → Except ε β) (g : ε → ε') :
    (x >>= f).mapError g = x.mapError g >>= fun a => (f a).mapError g := by
  cases x <;> rfl

theorem mapError_id (x : Except ε α) : (x.mapError fun e => e) = x := by
  cases x <;> rfl

theorem mapError_mapError {ε'' : Type} (x : Except ε α) (f : ε → ε') (g : ε' → ε'') :
    (x.mapError f).mapError g = x.mapError fun e => g (f e) := by
  cases x <;> rfl

/-- Two computations that fail in the same way or give related results. -/
inductive Alike (related : α → β → Prop) : Except ε α → Except ε β → Prop where
  | ok {a : α} {b : β} (same : related a b) : Alike related (.ok a) (.ok b)
  | error (e : ε) : Alike related (.error e) (.error e)

theorem Alike.bind {α' β' : Type} {first : α → β → Prop} {second : α' → β' → Prop}
    {x : Except ε α} {y : Except ε β} {f : α → Except ε α'} {g : β → Except ε β'}
    (start : Alike first x y) (rest : ∀ a b, first a b → Alike second (f a) (g b)) :
    Alike second (x >>= f) (y >>= g) := by
  cases start with
  | ok same => exact rest _ _ same
  | error e => exact Alike.error e

theorem Alike.map {α' β' : Type} {first : α → β → Prop} {second : α' → β' → Prop}
    {x : Except ε α} {y : Except ε β} {f : α → α'} {g : β → β'} (start : Alike first x y)
    (rest : ∀ a b, first a b → second (f a) (g b)) : Alike second (f <$> x) (g <$> y) := by
  cases start with
  | ok same => exact Alike.ok (rest _ _ same)
  | error e => exact Alike.error e

theorem Alike.exists_ok {related : α → β → Prop} {x : Except ε α} {b : β}
    (same : Alike related x (.ok b)) : ∃ a, x = .ok a ∧ related a b := by
  cases same with
  | ok related => exact ⟨_, rfl, related⟩

theorem Alike.exists_ok_right {related : α → β → Prop} {y : Except ε β} {a : α}
    (same : Alike related (.ok a) y) : ∃ b, y = .ok b ∧ related a b := by
  cases same with
  | ok related => exact ⟨_, rfl, related⟩

theorem Alike.map_eq {γ : Type} {related : α → β → Prop} {x : Except ε α} {y : Except ε β}
    {f : α → γ} {g : β → γ} (start : Alike related x y) (same : ∀ a b, related a b → f a = g b) :
    x.map f = y.map g := by
  cases start with
  | ok related => exact congrArg Except.ok (same _ _ related)
  | error e => rfl

theorem Alike.bind_eq {γ : Type} {related : α → β → Prop} {x : Except ε α} {y : Except ε β}
    {f : α → Except ε γ} {g : β → Except ε γ} (start : Alike related x y)
    (same : ∀ a b, related a b → f a = g b) : (x >>= f) = (y >>= g) := by
  cases start with
  | ok related => exact same _ _ related
  | error e => rfl

end ProofDesk
