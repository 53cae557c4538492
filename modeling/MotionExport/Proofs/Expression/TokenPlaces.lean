import MotionExport.Expression.ByteScan
import MotionExport.Proofs.Expression.Rescanning
import MotionExport.Proofs.Text.Places

/-! # Places of tokens

The walk over the bytes of a text finds the tokens of the text. Wherever a scanner starts between
two characters, it stops between two characters, and it passes over the bytes of what it reads.
-/

namespace MotionExport

namespace Token

open Text

variable {t u : Text} {c : Char} {b : UInt8} {p : Char → Bool} {place : Nat}

section Classes

theorem toNat_lt_of_continuesIdentifier (h : continuesIdentifier c = true) : c.toNat < 128 := by
  simp only [continuesIdentifier, Char.isAlphanum, Bool.or_eq_true, decide_eq_true_eq] at h
  rcases h with (halpha | hdigit) | rfl
  · exact toNat_lt_of_isAlpha halpha
  · exact toNat_lt_of_isDigit hdigit
  · decide

theorem isAsciiClass_continuesIdentifier : IsAsciiClass continuesIdentifier :=
  isAsciiClass_of_lt fun _ => toNat_lt_of_continuesIdentifier

theorem isAsciiClass_startsIdentifier : IsAsciiClass startsIdentifier :=
  isAsciiClass_of_lt fun _ h =>
    toNat_lt_of_continuesIdentifier (continuesIdentifier_of_starts h)

theorem isAsciiClass_isDigit : IsAsciiClass Char.isDigit :=
  isAsciiClass_of_lt fun _ => toNat_lt_of_isDigit

section Pairs

variable {x y : Char}

theorem toNat_lt_of_pair (hx : x.toNat < 128) (hy : y.toNat < 128) (h : c = x ∨ c = y) :
    c.toNat < 128 := by
  rcases h with rfl | rfl
  · exact hx
  · exact hy

theorem isAsciiClass_pair (hx : x.toNat < 128) (hy : y.toNat < 128) :
    IsAsciiClass fun c => c = x || c = y := by
  refine isAsciiClass_of_lt fun c hc => ?_
  simp only [Bool.or_eq_true, decide_eq_true_eq] at hc
  exact toNat_lt_of_pair hx hy hc

theorem byte_pair_iff (hx : x.toNat < 128) (hy : y.toNat < 128)
    (hb : b ∈ String.utf8EncodeChar c) :
    (Char.ofUInt8 b = x ∨ Char.ofUInt8 b = y) ↔ (c = x ∨ c = y) := by
  have hpair := (isAsciiClass_pair hx hy).ofUInt8_eq hb
  rw [Bool.eq_iff_iff] at hpair
  simpa only [Bool.or_eq_true, decide_eq_true_eq] using hpair

end Pairs

end Classes

section Passing

theorem byteIs_of_leavesAt (hp : IsAsciiClass p) (h : t.LeavesAt place u) :
    byteIs t.utf8 p place = u.head?.any p := by
  rw [byteIs, ← List.head?_drop, h.drop_utf8, hp.any_head?_utf8]

theorem byteIs_iff (hp : IsAsciiClass p) (h : t.LeavesAt place u) :
    byteIs t.utf8 p place = true ↔ ∃ c v, u = c :: v ∧ p c = true := by
  rw [byteIs_of_leavesAt hp h]
  cases u with
  | nil => simp
  | cons c u => simp

theorem byteIs_pair_iff {x y : Char} (hx : x.toNat < 128) (hy : y.toNat < 128)
    (h : t.LeavesAt place u) :
    byteIs t.utf8 (fun c => c = x || c = y) place = true ↔
      ∃ c v, u = c :: v ∧ (c = x ∨ c = y) := by
  rw [byteIs_iff (isAsciiClass_pair hx hy) h]
  simp only [Bool.or_eq_true, decide_eq_true_eq]

theorem passWhile_eq (bytes : List UInt8) (p : Char → Bool) (place : Nat) :
    passWhile bytes p place =
      place + ((bytes.drop place).takeWhile fun b => p (Char.ofUInt8 b)).length := by
  fun_induction passWhile bytes p place with
  | case1 place h ih =>
    have hlt := lt_of_byteIs h
    rw [byteIs_of_getElem? (List.getElem?_eq_getElem hlt)] at h
    rw [ih, List.drop_eq_getElem_cons hlt, List.takeWhile_cons, if_pos h, List.length_cons]
    omega
  | case2 place h =>
    rcases Nat.lt_or_ge place bytes.length with hlt | hge
    · rw [byteIs_of_getElem? (List.getElem?_eq_getElem hlt)] at h
      rw [List.drop_eq_getElem_cons hlt, List.takeWhile_cons, if_neg h, List.length_nil,
        Nat.add_zero]
    · rw [List.drop_eq_nil_of_le hge, List.takeWhile_nil, List.length_nil, Nat.add_zero]

/-- Passing over the bytes of a class leaves what the span of its characters leaves. -/
theorem leavesAt_passWhile (hp : IsAsciiClass p) (h : t.LeavesAt place u) :
    t.LeavesAt (passWhile t.utf8 p place) (span p u).2 := by
  have hspan : t.LeavesAt place ((span p u).1 ++ (span p u).2) := by rwa [span_append]
  rw [passWhile_eq, h.drop_utf8, hp.takeWhile_utf8]
  exact hspan.append

theorem leavesAt_passFraction (h : t.LeavesAt place u) :
    t.LeavesAt (passFraction t.utf8 place) (fractionPart u).2 := by
  have hbyte := byteIs_iff (isAsciiClass_eq (a := '.') (by decide)) h
  unfold passFraction
  split
  · rename_i hpoint
    obtain ⟨c, v, rfl, hc⟩ := hbyte.mp hpoint
    obtain rfl : c = '.' := of_decide_eq_true hc
    exact leavesAt_passWhile isAsciiClass_isDigit (h.cons_ascii (by decide))
  · rename_i hpoint
    rw [fractionPart_of_head?]
    · exact h
    · intro hhead
      obtain ⟨v, rfl⟩ := List.head?_eq_some_iff.mp hhead
      exact hpoint (hbyte.mpr ⟨'.', v, rfl, rfl⟩)

def behindSign : Text → Text
  | c :: u => if c = '+' ∨ c = '-' then u else c :: u
  | [] => []

theorem leavesAt_passSign (h : t.LeavesAt place u) :
    t.LeavesAt (passSign t.utf8 place) (behindSign u) := by
  have hbyte := byteIs_pair_iff (x := '+') (y := '-') (by decide) (by decide) h
  unfold passSign
  split
  · rename_i hsign
    obtain ⟨c, v, rfl, hc⟩ := hbyte.mp hsign
    rw [behindSign, if_pos hc]
    exact h.cons_ascii (toNat_lt_of_pair (by decide) (by decide) hc)
  · rename_i hsign
    cases u with
    | nil => exact h
    | cons c u =>
      have hc : ¬ (c = '+' ∨ c = '-') := fun hc => hsign (hbyte.mpr ⟨c, u, rfl, hc⟩)
      rw [behindSign, if_neg hc]
      exact h

theorem startsSigned_iff :
    startsSigned u = true ↔ (behindSign u).head?.any Char.isDigit = true := by
  cases u with
  | nil => rfl
  | cons c u =>
    by_cases hc : c = '+' ∨ c = '-'
    · have hdigit : c.isDigit = false := by rcases hc with rfl | rfl <;> rfl
      simp [startsSigned, behindSign, hc, hdigit]
    · simp [startsSigned, behindSign, hc]

theorem exponentPart_cons (e : Char) (u : Text) :
    (exponentPart (e :: u)).2 =
      if (e = 'e' ∨ e = 'E') ∧ (behindSign u).head?.any Char.isDigit = true then
        (digits (behindSign u)).2
      else e :: u := by
  split
  · rename_i hstarts
    obtain ⟨he, hdigit⟩ := hstarts
    cases u with
    | nil => cases hdigit
    | cons c u =>
      by_cases hc : c = '+' ∨ c = '-'
      · rw [behindSign, if_pos hc] at hdigit ⊢
        rw [exponentPart_of_sign he hc hdigit]
      · rw [behindSign, if_neg hc] at hdigit ⊢
        rw [exponentPart_of_digit he hdigit]
  · rename_i hstarts
    rw [exponentPart_of_not_starts]
    simpa [startsExponent, startsSigned_iff] using hstarts

theorem leavesAt_passExponent (h : t.LeavesAt place u) :
    t.LeavesAt (passExponent t.utf8 place) (exponentPart u).2 := by
  have hbyte := byteIs_pair_iff (x := 'e') (y := 'E') (by decide) (by decide) h
  unfold passExponent
  split
  · rename_i hletter
    obtain ⟨e, v, rfl, he⟩ := hbyte.mp hletter
    have hbehind : t.LeavesAt (place + 1) v :=
      h.cons_ascii (toNat_lt_of_pair (by decide) (by decide) he)
    have hdigits := leavesAt_passSign hbehind
    rw [byteIs_of_leavesAt isAsciiClass_isDigit hdigits, exponentPart_cons]
    split
    · rename_i hdigit
      rw [if_pos ⟨he, hdigit⟩]
      exact leavesAt_passWhile isAsciiClass_isDigit hdigits
    · rename_i hdigit
      rw [if_neg fun hboth => hdigit hboth.2]
      exact h
  · rename_i hletter
    cases u with
    | nil => exact h
    | cons e u =>
      have he : ¬ (e = 'e' ∨ e = 'E') := fun he => hletter (hbyte.mpr ⟨e, u, rfl, he⟩)
      rw [exponentPart_cons, if_neg fun hboth => he hboth.1]
      exact h

theorem leavesAt_passNumber (h : t.LeavesAt place u) :
    t.LeavesAt (passNumber t.utf8 place) (numberPart u).2 :=
  leavesAt_passExponent (leavesAt_passFraction (leavesAt_passWhile isAsciiClass_isDigit h))

theorem leavesAt_passQuoted (hc : c.toNat < 128) (h : t.LeavesAt place (c :: u)) :
    t.LeavesAt (passQuoted t.utf8 c place) (quotedPart c u).2 := by
  have hstop := leavesAt_passWhile (isAsciiClass_ne hc) (h.cons_ascii hc)
  show t.LeavesAt (min (passWhile t.utf8 (· ≠ c) (place + 1) + 1) t.utf8.length)
    ((span (· ≠ c) u).2.drop 1)
  cases hrest : (span (· ≠ c) u).2 with
  | nil =>
    -- The quote is never closed, and the walk stops at the end.
    rw [hrest] at hstop
    have hlength : t.utf8.length = passWhile t.utf8 (· ≠ c) (place + 1) := hstop.length_utf8
    rw [← hlength, Nat.min_eq_right (Nat.le_succ _), hlength]
    exact hstop
  | cons d rest =>
    have hquote := List.head?_dropWhile_not (· ≠ c) u
    have hdrop : u.dropWhile (· ≠ c) = d :: rest := hrest
    rw [hdrop, List.head?_cons] at hquote
    obtain rfl : d = c := by simpa using hquote
    rw [hrest] at hstop
    have hbehind := hstop.cons_ascii hc
    have hle := hbehind.length_utf8
    rw [Nat.min_eq_left (by omega)]
    exact hbehind

end Passing

section Walking

variable {s : Text} {kind : TokenKind} {next : Nat}

theorem startsNumber_of_leavesAt (h : t.LeavesAt place (c :: u))
    (hb : b ∈ String.utf8EncodeChar c) :
    ((Char.ofUInt8 b).isDigit ||
      Char.ofUInt8 b = '.' && byteIs t.utf8 Char.isDigit (place + 1)) = startsNumber c u := by
  have hdigit : (Char.ofUInt8 b).isDigit = c.isDigit := isAsciiClass_isDigit.ofUInt8_eq hb
  have hpoint : decide (Char.ofUInt8 b = '.') = decide (c = '.') :=
    (isAsciiClass_eq (by decide)).ofUInt8_eq hb
  rw [startsNumber, hdigit, hpoint]
  by_cases hc : c = '.'
  · subst hc
    rw [byteIs_of_leavesAt isAsciiClass_isDigit (h.cons_ascii (by decide))]
  · simp [hc]

theorem tokenEnd?_of_leavesAt (h : t.LeavesAt place (c :: u)) (hb : b ∈ String.utf8EncodeChar c) :
    ∃ next, tokenEnd? t place (Char.ofUInt8 b) = some ((first c u).1.kind, next) ∧
      t.LeavesAt next (first c u).2 := by
  have hidentifier : startsIdentifier (Char.ofUInt8 b) = startsIdentifier c :=
    isAsciiClass_startsIdentifier.ofUInt8_eq hb
  have hquote := byte_pair_iff (x := '"') (y := '\x27') (by decide) (by decide) hb
  rw [tokenEnd?, hidentifier, startsNumber_of_leavesAt h hb, first]
  split
  · rename_i hi
    have hc := toNat_lt_of_continuesIdentifier (continuesIdentifier_of_starts hi)
    exact ⟨_, rfl, leavesAt_passWhile isAsciiClass_continuesIdentifier (h.cons_ascii hc)⟩
  split
  · exact ⟨_, rfl, leavesAt_passNumber h⟩
  split
  · rename_i hq
    have hc : c.toNat < 128 := toNat_lt_of_pair (by decide) (by decide) (hquote.mp hq)
    rw [ofUInt8_of_lt hc hb, if_pos (hquote.mp hq)]
    exact ⟨_, rfl, leavesAt_passQuoted hc h⟩
  · rename_i hq
    obtain ⟨before, hcut⟩ := h.exists_cutAt?
    rw [if_neg (mt hquote.mpr hq), hcut]
    exact ⟨_, rfl, h.cons⟩

theorem scanFrom?_of_none (hb : t.utf8[place]? = none) : scanFrom? t place = some [] := by
  rw [scanFrom?]
  split
  · rfl
  · rename_i b hsome
    rw [hb] at hsome
    cases hsome

theorem scanFrom?_of_some (hb : t.utf8[place]? = some b)
    (hend : tokenEnd? t place (Char.ofUInt8 b) = some (kind, next))
    (htext : t.slice? place next = some s) :
    scanFrom? t place = (scanFrom? t next).map (⟨kind, s⟩ :: ·) := by
  rw [scanFrom?]
  split
  · rename_i hnone
    rw [hb] at hnone
    cases hnone
  · rename_i b' hsome
    obtain rfl : b = b' := Option.some.inj (hb.symm.trans hsome)
    split
    · rename_i hnone
      rw [hend] at hnone
      cases hnone
    · rename_i kind' next' hend'
      obtain ⟨rfl, rfl⟩ := Prod.mk.inj (Option.some.inj (hend.symm.trans hend'))
      rw [htext]
      cases scanFrom? t next with
      | none => rfl
      | some tokens => rfl

/-- From a place between characters the walk finds the tokens of what is left. -/
theorem scanFrom?_of_leavesAt (h : t.LeavesAt place u) : scanFrom? t place = some (scan u) := by
  fun_induction scan u generalizing place with
  | case1 =>
    exact scanFrom?_of_none (List.getElem?_eq_none (Nat.le_of_eq h.length_utf8))
  | case2 c u ih =>
    obtain ⟨b, bytes, hcons, hmem⟩ := exists_utf8_cons c u
    have hb : t.utf8[place]? = some b := by
      rw [← List.head?_drop, h.drop_utf8, hcons, List.head?_cons]
    obtain ⟨next, hend, hnext⟩ := tokenEnd?_of_leavesAt h hmem
    have htext : t.slice? place next = some (first c u).1.text := by
      rw [← first_append] at h
      exact h.slice?_eq hnext
    rw [scanFrom?_of_some hb hend htext, ih hnext]
    rfl

end Walking

end Token

end MotionExport
