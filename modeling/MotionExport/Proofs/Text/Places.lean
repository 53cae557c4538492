import MotionExport.Text.Bytes

/-! # Places between characters

What is left of a text at a place, and what can be told of it from the bytes. The bytes of a
character that takes several are no ASCII characters. So a class of characters that does not tell
those beyond ASCII apart can be looked up byte by byte, and where a run of such bytes stops, a
character starts.
-/

namespace MotionExport

namespace Text

variable {t s u : Text} {c : Char} {b : UInt8} {p : Char → Bool} {place start stop : Nat}

/-- At the place, `u` is left of the text. -/
def LeavesAt (t : Text) (place : Nat) (u : Text) : Prop :=
  ∃ before, before ++ u = t ∧ (utf8 before).length = place

section Leaving

theorem leavesAt_zero (t : Text) : t.LeavesAt 0 t := ⟨[], rfl, rfl⟩

theorem LeavesAt.exists_cutAt? (h : t.LeavesAt place u) :
    ∃ before, t.cutAt? place = some (before, u) := by
  obtain ⟨before, hcut⟩ := h
  exact ⟨before, cutAt?_eq_some_iff.mpr hcut⟩

theorem LeavesAt.append (h : t.LeavesAt place (s ++ u)) :
    t.LeavesAt (place + (utf8 s).length) u := by
  obtain ⟨before, rfl, rfl⟩ := h
  exact ⟨before ++ s, List.append_assoc _ _ _, by rw [utf8_append, List.length_append]⟩

theorem LeavesAt.cons (h : t.LeavesAt place (c :: u)) : t.LeavesAt (place + c.utf8Size) u := by
  have hbehind := LeavesAt.append (s := [c]) h
  rwa [utf8_cons, utf8_nil, List.append_nil, String.length_utf8EncodeChar] at hbehind

theorem utf8Size_eq_one (hc : c.toNat < 128) : c.utf8Size = 1 :=
  Char.utf8Size_eq_one_iff.mpr (UInt32.le_iff_toNat_le.mpr (Nat.le_of_lt_succ hc))

theorem LeavesAt.cons_ascii (hc : c.toNat < 128) (h : t.LeavesAt place (c :: u)) :
    t.LeavesAt (place + 1) u := by
  have hbehind := h.cons
  rwa [utf8Size_eq_one hc] at hbehind

theorem LeavesAt.drop_utf8 (h : t.LeavesAt place u) : t.utf8.drop place = utf8 u := by
  obtain ⟨before, rfl, rfl⟩ := h
  rw [utf8_append, List.drop_left]

theorem LeavesAt.length_utf8 (h : t.LeavesAt place u) :
    t.utf8.length = place + (utf8 u).length := by
  obtain ⟨before, rfl, rfl⟩ := h
  rw [utf8_append, List.length_append]

theorem LeavesAt.slice?_eq (h : t.LeavesAt start (s ++ u)) (h' : t.LeavesAt stop u) :
    t.slice? start stop = some s := by
  obtain ⟨before, rfl, rfl⟩ := h
  obtain ⟨upTo, happend, rfl⟩ := h'
  obtain rfl : upTo = before ++ s :=
    List.append_cancel_right (happend.trans (List.append_assoc _ _ _).symm)
  exact slice?_eq_some_iff.mpr ⟨before, u, List.append_assoc _ _ _, rfl, rfl⟩

end Leaving

section Classes

/-- The class does not tell the characters beyond ASCII apart. -/
def IsAsciiClass (p : Char → Bool) : Prop :=
  ∀ c d : Char, 128 ≤ c.toNat → 128 ≤ d.toNat → p c = p d

theorem isAsciiClass_of_lt (h : ∀ c, p c = true → c.toNat < 128) : IsAsciiClass p := by
  have hbeyond : ∀ c : Char, 128 ≤ c.toNat → p c = false := fun c hc =>
    Bool.eq_false_iff.mpr fun hp => absurd (h c hp) (Nat.not_lt.mpr hc)
  intro c d hc hd
  rw [hbeyond c hc, hbeyond d hd]

theorem isAsciiClass_eq {a : Char} (ha : a.toNat < 128) : IsAsciiClass (· = a) := by
  refine isAsciiClass_of_lt fun c hc => ?_
  obtain rfl : c = a := of_decide_eq_true hc
  exact ha

theorem isAsciiClass_ne {a : Char} (ha : a.toNat < 128) : IsAsciiClass (· ≠ a) := by
  intro c d hc hd
  have heq : decide (c = a) = decide (d = a) := isAsciiClass_eq ha c d hc hd
  simp only [ne_eq, decide_not, heq]

theorem toNat_lt_of_isDigit (h : c.isDigit = true) : c.toNat < 128 := by
  simp only [Char.isDigit, Bool.and_eq_true, decide_eq_true_eq, UInt32.le_iff_toNat_le] at h
  exact Nat.lt_of_le_of_lt h.2 (by decide)

theorem toNat_lt_of_isAlpha (h : c.isAlpha = true) : c.toNat < 128 := by
  have hletter : c.isAlpha = (decide (65 ≤ c.val ∧ c.val ≤ 90) ||
    decide (97 ≤ c.val) && decide (c.val ≤ 122)) := rfl
  simp only [hletter, Bool.or_eq_true, Bool.and_eq_true, decide_eq_true_eq,
    UInt32.le_iff_toNat_le] at h
  rcases h with ⟨-, hupper⟩ | ⟨-, hlower⟩
  · exact Nat.lt_of_le_of_lt hupper (by decide)
  · exact Nat.lt_of_le_of_lt hlower (by decide)

theorem le_toNat_of_mem_utf8EncodeChar (hc : 128 ≤ c.toNat) :
    ∀ b ∈ String.utf8EncodeChar c, 128 ≤ b.toNat := by
  have hval : c.toNat = c.val.toNat := rfl
  fun_cases String.utf8EncodeChar c
  · omega
  all_goals
    simp only [List.forall_mem_cons, List.not_mem_nil, false_implies, implies_true, and_true,
      UInt8.toNat_ofNat']
    omega

theorem utf8EncodeChar_of_lt (hc : c.toNat < 128) : String.utf8EncodeChar c = [c.val.toUInt8] :=
  String.utf8EncodeChar_eq_singleton (utf8Size_eq_one hc)

theorem ofUInt8_toUInt8 (hc : c.toNat < 256) : Char.ofUInt8 c.val.toUInt8 = c := by
  have hbyte : c.val.toUInt8.toNat = c.val.toNat :=
    (UInt32.toNat_toUInt8 _).trans (Nat.mod_eq_of_lt hc)
  rw [Char.ext_iff, ← UInt32.toNat_inj, ← hbyte]
  exact UInt8.toNat_toUInt32 _

/-- A byte of a character is the character, or they are both beyond ASCII. -/
theorem ofUInt8_of_mem_utf8EncodeChar (h : b ∈ String.utf8EncodeChar c) :
    Char.ofUInt8 b = c ∨ 128 ≤ c.toNat ∧ 128 ≤ (Char.ofUInt8 b).toNat := by
  rcases Nat.lt_or_ge c.toNat 128 with hc | hc
  · left
    rw [utf8EncodeChar_of_lt hc, List.mem_singleton] at h
    rw [h, ofUInt8_toUInt8 (by omega)]
  · have hb : (Char.ofUInt8 b).toNat = b.toNat := UInt8.toNat_toUInt32 b
    exact .inr ⟨hc, hb ▸ le_toNat_of_mem_utf8EncodeChar hc b h⟩

theorem ofUInt8_of_lt (hc : c.toNat < 128) (h : b ∈ String.utf8EncodeChar c) :
    Char.ofUInt8 b = c :=
  (ofUInt8_of_mem_utf8EncodeChar h).resolve_right fun hbeyond => Nat.not_le.mpr hc hbeyond.1

theorem IsAsciiClass.ofUInt8_eq (hp : IsAsciiClass p) (h : b ∈ String.utf8EncodeChar c) :
    p (Char.ofUInt8 b) = p c := by
  rcases ofUInt8_of_mem_utf8EncodeChar h with heq | ⟨hc, hb⟩
  · rw [heq]
  · exact hp _ _ hb hc

theorem exists_utf8_cons (c : Char) (u : Text) :
    ∃ b bytes, utf8 (c :: u) = b :: bytes ∧ b ∈ String.utf8EncodeChar c := by
  obtain ⟨b, bytes, hcons⟩ := List.exists_cons_of_ne_nil (String.utf8EncodeChar_ne_nil (c := c))
  refine ⟨b, bytes ++ utf8 u, ?_, hcons ▸ List.mem_cons_self⟩
  rw [utf8_cons, hcons, List.cons_append]

/-- A run of bytes of the class is the run of its characters. -/
theorem IsAsciiClass.takeWhile_utf8 (hp : IsAsciiClass p) (u : Text) :
    (utf8 u).takeWhile (fun b => p (Char.ofUInt8 b)) = utf8 (u.takeWhile p) := by
  induction u with
  | nil => rfl
  | cons c u ih =>
    cases hc : p c with
    | true =>
      have hbytes : ∀ b ∈ String.utf8EncodeChar c, p (Char.ofUInt8 b) = true := fun b hb =>
        (hp.ofUInt8_eq hb).trans hc
      rw [utf8_cons, List.takeWhile_append_of_pos hbytes, ih, List.takeWhile_cons_of_pos hc,
        utf8_cons]
    | false =>
      -- The first byte of the character is not in the class either.
      obtain ⟨b, bytes, hcons, hmem⟩ := exists_utf8_cons c u
      have hb : p (Char.ofUInt8 b) = false := (hp.ofUInt8_eq hmem).trans hc
      rw [hcons, List.takeWhile_cons_of_neg (by simp [hb]),
        List.takeWhile_cons_of_neg (by simp [hc]), utf8_nil]

theorem IsAsciiClass.any_head?_utf8 (hp : IsAsciiClass p) (u : Text) :
    ((utf8 u).head?.any fun b => p (Char.ofUInt8 b)) = u.head?.any p := by
  cases u with
  | nil => rfl
  | cons c u =>
    obtain ⟨b, bytes, hcons, hmem⟩ := exists_utf8_cons c u
    rw [hcons]
    exact hp.ofUInt8_eq hmem

end Classes

end Text

end MotionExport
