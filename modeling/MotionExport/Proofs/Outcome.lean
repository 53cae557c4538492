import Mathlib.Tactic.TypeStar

/-! # Outcomes

Computations that may fail: what it takes for them to succeed, and how the outcomes of two of them
are compared. Two runs match if they fail together or succeed together, with causes and results
that are related.
-/

namespace MotionExport

universe u

variable {ε δ : Type*} {α β α' β' : Type u}

theorem bind_eq_ok_iff {x : Except ε α} {f : α → Except ε β} {b : β} :
    x >>= f = .ok b ↔ ∃ a, x = .ok a ∧ f a = .ok b := by
  cases x with
  | error e =>
    constructor
    · intro h
      cases h
    · rintro ⟨_, h, -⟩
      cases h
  | ok a =>
    constructor
    · exact fun h => ⟨a, rfl, h⟩
    · rintro ⟨_, ⟨⟩, h⟩
      exact h

theorem bind_eq_error_iff {x : Except ε α} {f : α → Except ε β} {e : ε} :
    x >>= f = .error e ↔ x = .error e ∨ ∃ a, x = .ok a ∧ f a = .error e := by
  cases x with
  | error e' =>
    constructor
    · rintro ⟨⟩
      exact .inl rfl
    · rintro (⟨⟨⟩⟩ | ⟨_, h, -⟩)
      · rfl
      · cases h
  | ok a =>
    constructor
    · exact fun h => .inr ⟨a, rfl, h⟩
    · rintro (h | ⟨_, ⟨⟩, h⟩)
      · cases h
      · exact h

theorem ok_bind (a : α) (f : α → Except ε β) : (.ok a >>= f) = f a := rfl

theorem bind_bind_self (x : Except ε α) (f : α → Except ε β) :
    (x >>= fun _ => x >>= f) = x >>= f := by
  cases x with
  | error e => rfl
  | ok a => rfl

theorem mapError_ok (f : ε → δ) (a : α) : (.ok a : Except ε α).mapError f = .ok a := rfl

theorem mapError_error (f : ε → δ) (e : ε) :
    (.error e : Except ε α).mapError f = .error (f e) := rfl

theorem mapError_eq_ok_iff {f : ε → δ} {x : Except ε α} {a : α} :
    x.mapError f = .ok a ↔ x = .ok a := by
  cases x with
  | error e =>
    constructor
    · intro h
      cases h
    · intro h
      cases h
  | ok b =>
    constructor
    · rintro ⟨⟩
      rfl
    · rintro ⟨⟩
      rfl

/-- What reads back each element reads back a list. -/
theorem mapM_map_of_forall {m : Type u → Type*} [Monad m] [LawfulMonad m] {f : β → m α} {g : α → β}
    {l : List α} (h : ∀ a ∈ l, f (g a) = pure a) : (l.map g).mapM f = pure l := by
  induction l with
  | nil => rfl
  | cons a l ih =>
    obtain ⟨ha, hl⟩ := List.forall_mem_cons.mp h
    rw [List.map_cons, List.mapM_cons, ha, pure_bind, ih hl, pure_bind]

/-- Both computations fail, from related causes, or both succeed, with related results. -/
inductive Matched (cause : ε → δ → Prop) (result : α → β → Prop) :
    Except ε α → Except δ β → Prop where

  | error {e : ε} {e' : δ} : cause e e' → Matched cause result (.error e) (.error e')

  | ok {a : α} {b : β} : result a b → Matched cause result (.ok a) (.ok b)

namespace Matched

variable {cause : ε → δ → Prop} {result : α → β → Prop} {result' : α' → β' → Prop}
  {x : Except ε α} {y : Except δ β}

theorem bind {f : α → Except ε α'} {g : β → Except δ β'} (h : Matched cause result x y)
    (hfg : ∀ a b, result a b → Matched cause result' (f a) (g b)) :
    Matched cause result' (x >>= f) (y >>= g) := by
  cases h with
  | error he => exact .error he
  | ok hr => exact hfg _ _ hr

theorem refl {cause : ε → ε → Prop} (hc : ∀ e, cause e e) (x : Except ε α) :
    Matched cause Eq x x := by
  cases x with
  | error e => exact .error (hc e)
  | ok a => exact .ok rfl

theorem imp {cause' : ε → δ → Prop} {result₁ : α → β → Prop} (h : Matched cause result x y)
    (hc : ∀ e e', cause e e' → cause' e e') (hr : ∀ a b, result a b → result₁ a b) :
    Matched cause' result₁ x y := by
  cases h with
  | error he => exact .error (hc _ _ he)
  | ok ha => exact .ok (hr _ _ ha)

theorem exists_ok {a : α} (h : Matched cause result (.ok a) y) : ∃ b, y = .ok b ∧ result a b := by
  cases h with
  | ok hr => exact ⟨_, rfl, hr⟩

theorem eq {x y : Except ε α} (h : Matched Eq Eq x y) : x = y := by
  cases h with
  | error he => rw [he]
  | ok hr => rw [hr]

end Matched

end MotionExport
