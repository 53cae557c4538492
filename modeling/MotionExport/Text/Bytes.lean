import MotionExport.Text.Basic

/-! # Bytes

A text is stored as bytes, and a character takes one to four of them. Places in a text are counted
in bytes, and a text is cut between two characters only.
-/

namespace MotionExport

namespace Text

def utf8 (t : Text) : List UInt8 := t.flatMap String.utf8EncodeChar

/-- What stands before a place and what stands behind it. There is none of both if the place is
inside of a character or beyond the end. -/
def cutAt? : Nat → Text → Option (Text × Text)
  | 0, t => some ([], t)
  | _ + 1, [] => none
  | place + 1, c :: t =>
    if c.utf8Size ≤ place + 1 then
      (cutAt? (place + 1 - c.utf8Size) t).map fun (before, behind) => (c :: before, behind)
    else none

def slice? (start stop : Nat) (t : Text) : Option Text := do
  let (upTo, _) ← cutAt? stop t
  let (_, inside) ← cutAt? start upTo
  return inside

variable {t s u : Text} {start stop place : Nat}

@[simp] theorem utf8_nil : utf8 [] = [] := rfl

@[simp] theorem utf8_cons (c : Char) (t : Text) :
    utf8 (c :: t) = String.utf8EncodeChar c ++ t.utf8 := rfl

@[simp] theorem utf8_append (s t : Text) : utf8 (s ++ t) = s.utf8 ++ t.utf8 :=
  List.flatMap_append

theorem cutAt?_append (s u : Text) : cutAt? s.utf8.length (s ++ u) = some (s, u) := by
  induction s with
  | nil => rw [utf8_nil, List.length_nil, List.nil_append, cutAt?]
  | cons c s ih =>
    have hsize := c.utf8Size_pos
    obtain ⟨n, hn⟩ : ∃ n, c.utf8Size + (utf8 s).length = n + 1 :=
      Nat.exists_eq_succ_of_ne_zero (by omega)
    have hrest : n + 1 - c.utf8Size = (utf8 s).length := by omega
    rw [utf8_cons, List.length_append, String.length_utf8EncodeChar, hn, List.cons_append, cutAt?,
      if_pos (by omega), hrest, ih]
    rfl

theorem cutAt?_eq_some_iff :
    cutAt? place t = some (s, u) ↔ s ++ u = t ∧ s.utf8.length = place := by
  constructor
  · intro h
    fun_induction cutAt? place t generalizing s with
    | case1 t => simp_all
    | case2 => cases h
    | case3 place c t hle ih =>
      obtain ⟨⟨before, behind⟩, hcut, hpair⟩ := Option.map_eq_some_iff.mp h
      obtain ⟨rfl, rfl⟩ := Prod.mk.inj hpair
      obtain ⟨rfl, hlength⟩ := ih hcut
      refine ⟨rfl, ?_⟩
      rw [utf8_cons, List.length_append, String.length_utf8EncodeChar, hlength]
      omega
    | case4 => cases h
  · rintro ⟨rfl, rfl⟩
    exact cutAt?_append s u

theorem slice?_eq_some_iff :
    slice? start stop t = some s ↔ ∃ before behind, before ++ s ++ behind = t ∧
      before.utf8.length = start ∧ (before ++ s).utf8.length = stop := by
  simp only [slice?, Option.bind_eq_bind, Option.bind_eq_some_iff, Prod.exists, cutAt?_eq_some_iff,
    Option.pure_def, Option.some.injEq]
  constructor
  · rintro ⟨_, behind, ⟨rfl, hstop⟩, before, _, ⟨rfl, hstart⟩, rfl⟩
    exact ⟨before, behind, rfl, hstart, hstop⟩
  · rintro ⟨before, behind, rfl, hstart, hstop⟩
    exact ⟨_, behind, ⟨rfl, hstop⟩, before, s, ⟨rfl, hstart⟩, rfl⟩

end Text

end MotionExport
