import MotionExport.Expression.Token

/-! # Scanning again

Tokens that were written one after the other are found again, as long as none of them runs on into
what follows it. How far a token runs depends on little of what follows, and a text that stops the
same tokens may stand in its place.
-/

namespace MotionExport

namespace Token

variable {c : Char} {s u u' v : Text} {t : Token} {ts : List Token} {p : Char → Bool}

theorem continuesIdentifier_of_starts (h : startsIdentifier c = true) :
    continuesIdentifier c = true := by
  simp only [startsIdentifier, continuesIdentifier, Char.isAlphanum, Bool.or_eq_true] at h ⊢
  exact h.imp_left .inl

theorem continuesIdentifier_of_isDigit (h : c.isDigit = true) : continuesIdentifier c = true := by
  simp [continuesIdentifier, Char.isAlphanum, h]

theorem isDigit_of_not_continues (h : continuesIdentifier c = false) : c.isDigit = false := by
  rw [Bool.eq_false_iff]
  intro hd
  rw [continuesIdentifier_of_isDigit hd] at h
  cases h

theorem isDigit_of_startsIdentifier (h : startsIdentifier c = true) : c.isDigit = false := by
  have hletter : c.isAlpha = (decide (65 ≤ c.val ∧ c.val ≤ 90) ||
    decide (97 ≤ c.val) && decide (c.val ≤ 122)) := rfl
  have hdigit : c.isDigit = (decide (48 ≤ c.val) && decide (c.val ≤ 57)) := rfl
  rw [Bool.eq_false_iff]
  intro hd
  simp only [startsIdentifier, hletter, hdigit, Bool.or_eq_true, Bool.and_eq_true,
    decide_eq_true_eq, UInt32.le_iff_toNat_le] at h hd
  rcases h with (h | h) | rfl
  · simp at h hd; omega
  · simp at h hd; omega
  · simp at hd

theorem not_inexact_of_isDigit (h : c.isDigit = true) : ¬ (c = '.' ∨ c = 'e' ∨ c = 'E') := by
  rintro (rfl | rfl | rfl)
  · exact absurd h (by decide)
  · exact absurd h (by decide)
  · exact absurd h (by decide)

theorem not_sign_of_continuesIdentifier (h : continuesIdentifier c = true) :
    ¬ (c = '+' ∨ c = '-') := by
  rintro (rfl | rfl)
  · exact absurd h (by decide)
  · exact absurd h (by decide)

section Stopping

def startsSigned : Text → Bool
  | c :: t => c.isDigit || (c = '+' || c = '-') && t.head?.any Char.isDigit
  | [] => false

def startsExponent : Text → Bool
  | e :: t => (e = 'e' || e = 'E') && startsSigned t
  | [] => false

/-- Every token that stops before the first text stops before the second one. -/
structure StopsLike (u u' : Text) : Prop where
  nil : u = [] → u' = []
  identifier : u'.head?.any continuesIdentifier = true → u.head?.any continuesIdentifier = true
  digit : u'.head?.any Char.isDigit = true → u.head?.any Char.isDigit = true
  point : u'.head? = some '.' → u.head? = some '.'
  signed : startsSigned u' = true → startsSigned u = true
  exponent : startsExponent u' = true → startsExponent u = true

namespace StopsLike

theorem refl (u : Text) : StopsLike u u := ⟨id, id, id, id, id, id⟩

theorem cons (h : StopsLike u u') (c : Char) : StopsLike (c :: u) (c :: u') where
  nil := nofun
  identifier := id
  digit := id
  point := id
  signed := by
    simp only [startsSigned, Bool.or_eq_true, Bool.and_eq_true]
    exact Or.imp_right (And.imp_right h.digit)
  exponent := by
    simp only [startsExponent, Bool.and_eq_true]
    exact And.imp_right h.signed

theorem append (h : StopsLike u u') (s : Text) : StopsLike (s ++ u) (s ++ u') := by
  induction s with
  | nil => exact h
  | cons c s ih => exact ih.cons c

theorem of_digit (hc : c.isDigit = true) (u u' : Text) : StopsLike (c :: u) (c :: u') where
  nil := nofun
  identifier := id
  digit := id
  point := id
  signed := by simp [startsSigned, hc]
  exponent := by
    have he : ¬ (c = 'e' ∨ c = 'E') := mt Or.inr (not_inexact_of_isDigit hc)
    simp [startsExponent, he]

/-- The start of an identifier stops what the start of another one stops, unless it may be an
exponent. -/
theorem of_identifier {d : Char} (hc : startsIdentifier c = true) (hd : startsIdentifier d = true)
    (he : ¬ (d = 'e' ∨ d = 'E')) (u u' : Text) : StopsLike (c :: u) (d :: u') where
  nil := nofun
  identifier _ := continuesIdentifier_of_starts hc
  digit h := by
    rw [List.head?_cons, Option.any_some, isDigit_of_startsIdentifier hd] at h
    cases h
  point h := by
    cases h
    cases hd
  signed h := by
    have hsign := not_sign_of_continuesIdentifier (continuesIdentifier_of_starts hd)
    simp [startsSigned, isDigit_of_startsIdentifier hd, hsign] at h
  exponent h := by simp [startsExponent, he] at h

theorem of_mark {d : Char} (hi : continuesIdentifier d = false) (hp : d ≠ '.')
    (hs : ¬ (d = '+' ∨ d = '-')) (u u' : Text) : StopsLike (c :: u) (d :: u') where
  nil := nofun
  identifier h := by
    rw [List.head?_cons, Option.any_some, hi] at h
    cases h
  digit h := by
    rw [List.head?_cons, Option.any_some, isDigit_of_not_continues hi] at h
    cases h
  point h := absurd (Option.some.inj h) hp
  signed h := by simp [startsSigned, isDigit_of_not_continues hi, hs] at h
  exponent h := by
    have he : ¬ (d = 'e' ∨ d = 'E') := by
      rintro (rfl | rfl)
      · cases hi
      · cases hi
    simp [startsExponent, he] at h

end StopsLike

theorem span_eq_iff :
    span p (s ++ u) = (s, u) ↔ (∀ c ∈ s, p c = true) ∧ ¬ u.head?.any p = true := by
  induction s with
  | nil =>
    cases u with
    | nil => simp [span]
    | cons c u => by_cases hc : p c = true <;> simp [span, hc]
  | cons c s ih =>
    rw [List.forall_mem_cons, and_assoc, ← ih]
    by_cases hc : p c = true <;> simp [span, hc]

theorem span_stops (hs : span p (s ++ u) = (s, u))
    (hu : u'.head?.any p = true → u.head?.any p = true) : span p (s ++ u') = (s, u') :=
  span_eq_iff.mpr ⟨(span_eq_iff.mp hs).1, fun h => (span_eq_iff.mp hs).2 (hu h)⟩

theorem digits_stops (hs : digits (s ++ u) = (s, u)) (hu : StopsLike u u') :
    digits (s ++ u') = (s, u') :=
  span_stops hs hu.digit

theorem fractionPart_of_head? (h : u.head? ≠ some '.') : fractionPart u = ([], u) := by
  unfold fractionPart
  split
  · exact absurd rfl h
  · rfl

theorem fractionPart_stops (hs : fractionPart (s ++ u) = (s, u)) (hu : StopsLike u u') :
    fractionPart (s ++ u') = (s, u') := by
  by_cases hpoint : (s ++ u).head? = some '.'
  · cases s with
    | nil =>
      obtain ⟨v, rfl⟩ := List.head?_eq_some_iff.mp hpoint
      cases hs
    | cons c s =>
      obtain rfl : c = '.' := by simpa using hpoint
      obtain ⟨hinside, hrest⟩ := Prod.mk.inj hs
      have hdigits : digits (s ++ u) = (s, u) := Prod.ext (List.cons.inj hinside).2 hrest
      rw [List.cons_append, fractionPart, digits_stops hdigits hu]
  · rw [fractionPart_of_head? hpoint] at hs
    obtain rfl : s = [] := (congrArg Prod.fst hs).symm
    exact fractionPart_of_head? fun h => hpoint (hu.point h)

section Exponent

variable {e : Char}

theorem exponentPart_of_not_starts (h : ¬ startsExponent u = true) :
    exponentPart u = ([], u) := by
  unfold exponentPart
  grind [startsExponent, startsSigned]

theorem exponentPart_of_digit (he : e = 'e' ∨ e = 'E') (hu : u.head?.any Char.isDigit = true) :
    exponentPart (e :: u) = (e :: (digits u).1, (digits u).2) := by
  cases u with
  | nil => cases hu
  | cons d u =>
    have hd : d.isDigit = true := hu
    cases u with
    | nil => simp [exponentPart, he, hd, digits, span]
    | cons c u =>
      have hsign := not_sign_of_continuesIdentifier (continuesIdentifier_of_isDigit hd)
      simp [exponentPart, he, hsign, hd]

theorem exponentPart_of_sign (he : e = 'e' ∨ e = 'E') (hc : c = '+' ∨ c = '-')
    (hu : u.head?.any Char.isDigit = true) :
    exponentPart (e :: c :: u) = (e :: c :: (digits u).1, (digits u).2) := by
  cases u with
  | nil => cases hu
  | cons d u =>
    have hd : d.isDigit = true := hu
    simp [exponentPart, he, hc, hd]

theorem exists_exponentLead (h : startsExponent u = true) :
    ∃ lead rest, u = lead ++ rest ∧ lead ≠ [] ∧ rest.head?.any Char.isDigit = true ∧
      ∀ v, v.head?.any Char.isDigit = true →
        exponentPart (lead ++ v) = (lead ++ (digits v).1, (digits v).2) := by
  cases u with
  | nil => cases h
  | cons e u =>
    obtain ⟨he, hu⟩ : (e = 'e' ∨ e = 'E') ∧ startsSigned u = true := by
      simpa [startsExponent] using h
    cases u with
    | nil => cases hu
    | cons c u =>
      rw [startsSigned, Bool.or_eq_true, Bool.and_eq_true] at hu
      rcases hu with hdigit | ⟨hsign, hdigit⟩
      · exact ⟨[e], c :: u, rfl, nofun, hdigit, fun v => exponentPart_of_digit he⟩
      · have hc : c = '+' ∨ c = '-' := by simpa using hsign
        exact ⟨[e, c], u, rfl, nofun, hdigit, fun v => exponentPart_of_sign he hc⟩

theorem exponentPart_stops (hs : exponentPart (s ++ u) = (s, u)) (hu : StopsLike u u') :
    exponentPart (s ++ u') = (s, u') := by
  by_cases hstarts : startsExponent (s ++ u) = true
  · obtain ⟨lead, rest, heq, -, hrest, hlead⟩ := exists_exponentLead hstarts
    rw [heq, hlead rest hrest] at hs
    obtain ⟨rfl, hafter⟩ := Prod.mk.inj hs
    obtain ⟨inside, hinside⟩ : ∃ inside, (digits rest).1 = inside := ⟨_, rfl⟩
    have happend : inside ++ u = rest := by
      rw [← hinside, ← hafter]
      exact span_append _ rest
    have hdigits : digits (inside ++ u) = (inside, u) := by
      rw [happend, ← hinside, ← hafter]
    cases inside with
    | nil =>
      have hnone := (span_eq_iff.mp hdigits).2
      rw [← happend] at hrest
      exact absurd hrest hnone
    | cons d inside =>
      have hd : d.isDigit = true := (span_eq_iff.mp hdigits).1 d List.mem_cons_self
      have hhead : (d :: inside ++ u').head?.any Char.isDigit = true := hd
      rw [hinside, List.append_assoc, hlead _ hhead, digits_stops hdigits hu]
  · rw [exponentPart_of_not_starts hstarts] at hs
    obtain rfl : s = [] := (congrArg Prod.fst hs).symm
    exact exponentPart_of_not_starts fun h => hstarts (hu.exponent h)

end Exponent

/-- A number is a row of digits, a fraction and an exponent, each as long as it can be. -/
theorem numberPart_eq_iff : numberPart u = (s, v) ↔
    ∃ whole fraction exponent, s = whole ++ fraction ++ exponent ∧
      digits u = (whole, fraction ++ (exponent ++ v)) ∧
      fractionPart (fraction ++ (exponent ++ v)) = (fraction, exponent ++ v) ∧
      exponentPart (exponent ++ v) = (exponent, v) := by
  constructor
  · intro h
    have hv : (exponentPart (fractionPart (digits u).2).2).2 = v := congrArg Prod.snd h
    refine ⟨(digits u).1, (fractionPart (digits u).2).1,
      (exponentPart (fractionPart (digits u).2).2).1, (congrArg Prod.fst h).symm, ?_, ?_, ?_⟩
    · rw [← hv, exponentPart_append, fractionPart_append]
    · rw [← hv, exponentPart_append, fractionPart_append]
    · rw [← hv, exponentPart_append]
  · rintro ⟨whole, fraction, exponent, rfl, hw, hf, hx⟩
    simp only [numberPart, hw, hf, hx]

theorem eq_point_of_fractionPart (h : fractionPart u = (c :: s, v)) : c = '.' := by
  by_cases hpoint : u.head? = some '.'
  · obtain ⟨w, rfl⟩ := List.head?_eq_some_iff.mp hpoint
    exact (List.cons.inj (Prod.mk.inj h).1).1.symm
  · rw [fractionPart_of_head? hpoint] at h
    cases h

theorem eq_exponent_of_exponentPart (h : exponentPart u = (c :: s, v)) : c = 'e' ∨ c = 'E' := by
  by_cases hstarts : startsExponent u = true
  · have happend := exponentPart_append u
    rw [h] at happend
    obtain rfl : c :: (s ++ v) = u := happend
    rw [startsExponent, Bool.and_eq_true] at hstarts
    simpa using hstarts.1
  · rw [exponentPart_of_not_starts hstarts] at h
    cases h

theorem digits_of_numberPart (hs : numberPart (s ++ u) = (s, u))
    (hwhole : ∀ c ∈ s, ¬ (c = '.' ∨ c = 'e' ∨ c = 'E')) :
    digits (s ++ u) = (s, u) ∧ exponentPart u = ([], u) := by
  obtain ⟨whole, fraction, exponent, rfl, hw, hf, hx⟩ := numberPart_eq_iff.mp hs
  obtain rfl : fraction = [] := by
    cases fraction with
    | nil => rfl
    | cons c fraction =>
      exact absurd (.inl (eq_point_of_fractionPart hf)) (hwhole c (by simp))
  obtain rfl : exponent = [] := by
    cases exponent with
    | nil => rfl
    | cons c exponent =>
      exact absurd (.inr (eq_exponent_of_exponentPart hx)) (hwhole c (by simp))
  simp only [List.append_nil, List.nil_append] at hw hx ⊢
  exact ⟨hw, hx⟩

theorem numberPart_widened (hs : numberPart (s ++ u) = (s, u))
    (hdigits : ∀ c ∈ s, c.isDigit = true) :
    numberPart (s ++ ".0".toList ++ u) = (s ++ ".0".toList, u) := by
  obtain ⟨hspan, hx⟩ := digits_of_numberPart hs fun c hc => not_inexact_of_isDigit (hdigits c hc)
  have hbehind : ¬ u.head?.any Char.isDigit = true := (span_eq_iff.mp hspan).2
  have hzero : digits ('0' :: u) = (['0'], u) :=
    (span_eq_iff (s := ['0'])).mpr ⟨List.forall_mem_singleton.mpr (by decide), hbehind⟩
  refine numberPart_eq_iff.mpr ⟨s, ".0".toList, [], by simp, ?_, ?_, hx⟩
  · rw [List.append_assoc]
    exact span_eq_iff.mpr ⟨hdigits, by simp⟩
  · show fractionPart ('.' :: '0' :: u) = _
    rw [fractionPart, hzero]
    rfl

theorem numberPart_stops (hs : numberPart (s ++ u) = (s, u)) (hu : StopsLike u u') :
    numberPart (s ++ u') = (s, u') := by
  obtain ⟨whole, fraction, exponent, rfl, hw, hf, hx⟩ := numberPart_eq_iff.mp hs
  rw [List.append_assoc, List.append_assoc] at hw
  refine numberPart_eq_iff.mpr ⟨whole, fraction, exponent, rfl, ?_, ?_, ?_⟩
  · rw [List.append_assoc, List.append_assoc]
    exact digits_stops hw ((hu.append exponent).append fraction)
  · exact fractionPart_stops hf (hu.append exponent)
  · exact exponentPart_stops hx hu

theorem numberPart_cons_stops (hs : numberPart (c :: (s ++ u)) = (c :: s, u))
    (hu : StopsLike u u') : numberPart (c :: (s ++ u')) = (c :: s, u') := by
  rw [← List.cons_append] at hs ⊢
  exact numberPart_stops hs hu

theorem quotedPart_stops (hs : quotedPart c (s ++ u) = (c :: s, u)) (hu : StopsLike u u') :
    quotedPart c (s ++ u') = (c :: s, u') := by
  obtain ⟨inside, rest, hspan⟩ : ∃ inside rest, span (· ≠ c) (s ++ u) = (inside, rest) :=
    ⟨_, _, rfl⟩
  have happend : inside ++ rest = s ++ u := by
    rw [← span_append (· ≠ c) (s ++ u), hspan]
  simp only [quotedPart, hspan] at hs
  obtain ⟨hinside, hrest⟩ := Prod.mk.inj hs
  cases rest with
  | nil =>
    -- The quote is never closed, and nothing follows it.
    obtain rfl : u = [] := hrest.symm
    rw [hu.nil rfl]
    simp only [quotedPart, hspan, hinside, List.drop_nil]
  | cons q rest =>
    obtain rfl : rest = u := hrest
    obtain rfl : inside ++ [q] = s := (List.cons.inj hinside).2
    have hclose : span (· ≠ c) (inside ++ q :: u') = (inside, q :: u') := by
      rw [← happend] at hspan
      exact span_stops hspan id
    rw [List.append_assoc, List.singleton_append, quotedPart, hclose]
    rfl

theorem startsNumber_of_stopsLike (hu : StopsLike u u') (h : startsNumber c u' = true) :
    startsNumber c u = true := by
  simp only [startsNumber, Bool.or_eq_true, Bool.and_eq_true] at h ⊢
  exact h.imp_right (And.imp_right hu.digit)

theorem startsNumber_of_numberPart (hs : numberPart (c :: (s ++ u)) = (c :: s, u))
    (h : startsNumber c (s ++ u) = true) (u' : Text) : startsNumber c (s ++ u') = true := by
  cases s with
  | cons d s => exact h
  | nil =>
    simp only [startsNumber, Bool.or_eq_true, Bool.and_eq_true] at h ⊢
    refine h.imp_right ?_
    rintro ⟨hpoint, hdigit⟩
    obtain rfl : c = '.' := by simpa using hpoint
    cases u with
    | nil => cases hdigit
    | cons d u =>
      have hd : d.isDigit = true := hdigit
      simp [numberPart, digits, span, fractionPart, hd] at hs

end Stopping

/-- Before the text the token stands by itself: what is read there is the token, and no more. -/
inductive StandsBefore : Token → Text → Prop
  | identifier {c : Char} {s u : Text} : startsIdentifier c = true →
      span continuesIdentifier (s ++ u) = (s, u) → StandsBefore ⟨.identifier, c :: s⟩ u
  | number {c : Char} {s u : Text} : startsIdentifier c = false → startsNumber c (s ++ u) = true →
      numberPart (c :: (s ++ u)) = (c :: s, u) → StandsBefore ⟨.number, c :: s⟩ u
  | quoted {c : Char} {s u : Text} : startsIdentifier c = false → startsNumber c (s ++ u) = false →
      c = '"' ∨ c = '\x27' → quotedPart c (s ++ u) = (c :: s, u) → StandsBefore ⟨.quoted, c :: s⟩ u
  | punctuation {c : Char} {u : Text} : startsIdentifier c = false → startsNumber c u = false →
      ¬ (c = '"' ∨ c = '\x27') → StandsBefore ⟨.punctuation, [c]⟩ u

namespace StandsBefore

theorem first_eq (h : t.StandsBefore u) : ∃ c s, t.text = c :: s ∧ first c (s ++ u) = (t, u) := by
  cases h with
  | @identifier c s _ hi hspan => exact ⟨c, s, rfl, by rw [first, if_pos hi, hspan]⟩
  | @number c s _ hi hn hnumber => exact ⟨c, s, rfl, by simp [first, hi, hn, hnumber]⟩
  | @quoted c s _ hi hn hq hquoted => exact ⟨c, s, rfl, by simp [first, hi, hn, hq, hquoted]⟩
  | @punctuation c _ hi hn hq => exact ⟨c, [], rfl, by simp [first, hi, hn, hq]⟩

theorem stopsLike (h : t.StandsBefore u) (hu : StopsLike u u') : t.StandsBefore u' := by
  cases h with
  | identifier hi hspan => exact .identifier hi (span_stops hspan hu.identifier)
  | number hi hn hnumber =>
    exact .number hi (startsNumber_of_numberPart hnumber hn u') (numberPart_cons_stops hnumber hu)
  | @quoted c s _ hi hn hq hquoted =>
    have hn' : startsNumber c (s ++ u') = false :=
      Bool.eq_false_iff.mpr fun h => by
        rw [startsNumber_of_stopsLike (hu.append s) h] at hn
        cases hn
    exact .quoted hi hn' hq (quotedPart_stops hquoted hu)
  | punctuation hi hn hq =>
    refine .punctuation hi (Bool.eq_false_iff.mpr fun h => ?_) hq
    rw [startsNumber_of_stopsLike hu h] at hn
    cases hn

end StandsBefore

theorem standsBefore_first (c : Char) (u : Text) : (first c u).1.StandsBefore (first c u).2 := by
  have hcons : ∀ {part : Text × Text}, part.1 ≠ [] → part.1 ++ part.2 = c :: u →
      ∃ s, part = (c :: s, part.2) ∧ s ++ part.2 = u := by
    rintro ⟨s, v⟩ hne happend
    obtain ⟨d, s, rfl⟩ := List.exists_cons_of_ne_nil hne
    obtain ⟨rfl, hrest⟩ := List.cons.inj happend
    exact ⟨s, rfl, hrest⟩
  unfold first
  split
  · rename_i hi
    refine .identifier hi ?_
    rw [span_append]
  rename_i hi
  rw [Bool.not_eq_true] at hi
  split
  · rename_i hn
    obtain ⟨s, hs, happend⟩ := hcons (numberPart_ne_nil hn) (numberPart_append (c :: u))
    rw [hs]
    exact .number hi (by rwa [happend]) (by rwa [happend])
  rename_i hn
  rw [Bool.not_eq_true] at hn
  split
  · rename_i hq
    obtain ⟨s, hs, happend⟩ := hcons (List.cons_ne_nil _ _) (quotedPart_append c u)
    rw [hs]
    exact .quoted hi (by rwa [happend]) hq (by rwa [happend])
  · rename_i hq
    exact .punctuation hi hn hq

theorem scan_append (h : t.StandsBefore u) : scan (t.text ++ u) = t :: scan u := by
  obtain ⟨c, s, ht, hfirst⟩ := h.first_eq
  rw [ht, List.cons_append, scan, hfirst]

section Tokens

def IsIdentifier (t : Text) : Prop :=
  t.head?.any startsIdentifier = true ∧ ∀ c ∈ t, continuesIdentifier c = true

instance (t : Text) : Decidable (IsIdentifier t) :=
  decidable_of_iff ((t.head?.any startsIdentifier && t.all continuesIdentifier) = true)
    (by rw [IsIdentifier, Bool.and_eq_true, List.all_eq_true])

theorem IsIdentifier.exists_cons (h : IsIdentifier s) : ∃ c v, s = c :: v ∧
    startsIdentifier c = true ∧ ∀ d ∈ v, continuesIdentifier d = true := by
  cases s with
  | nil => cases h.1
  | cons c v => exact ⟨c, v, rfl, h.1, (List.forall_mem_cons.mp h.2).2⟩

theorem standsBefore_identifier (hs : IsIdentifier s)
    (hu : ¬ u.head?.any continuesIdentifier = true) : StandsBefore ⟨.identifier, s⟩ u := by
  obtain ⟨c, v, rfl, hc, hv⟩ := hs.exists_cons
  exact .identifier hc (span_eq_iff.mpr ⟨hv, hu⟩)

theorem StandsBefore.isIdentifier (h : t.StandsBefore u) (ht : t.kind = .identifier) :
    IsIdentifier t.text ∧ ¬ u.head?.any continuesIdentifier = true := by
  cases h with
  | identifier hc hspan =>
    obtain ⟨hinside, hbehind⟩ := span_eq_iff.mp hspan
    exact ⟨⟨hc, List.forall_mem_cons.mpr ⟨continuesIdentifier_of_starts hc, hinside⟩⟩, hbehind⟩
  | number => cases ht
  | quoted => cases ht
  | punctuation => cases ht

/-- A character that starts no longer token stands before every text, but a point does not stand
before a digit. -/
theorem standsBefore_punctuation (hi : startsIdentifier c = false) (hd : c.isDigit = false)
    (hq : ¬ (c = '"' ∨ c = '\x27')) (hp : c = '.' → ¬ u.head?.any Char.isDigit = true) :
    StandsBefore ⟨.punctuation, [c]⟩ u := by
  refine .punctuation hi (Bool.eq_false_iff.mpr fun hn => ?_) hq
  simp only [startsNumber, hd, Bool.false_or, Bool.and_eq_true, decide_eq_true_eq] at hn
  exact hp hn.1 hn.2

theorem standsBefore_quoted {q : Char} (hq : q = '"' ∨ q = '\x27') (hs : q ∉ s) (u : Text) :
    StandsBefore ⟨.quoted, [q] ++ s ++ [q]⟩ u := by
  have hi : startsIdentifier q = false := by rcases hq with rfl | rfl <;> decide
  have hn : startsNumber q (s ++ [q] ++ u) = false := by
    rcases hq with rfl | rfl <;> simp [startsNumber]
  have hspan : span (· ≠ q) (s ++ q :: u) = (s, q :: u) := by
    refine span_eq_iff.mpr ⟨fun d hd => ?_, by simp⟩
    exact decide_eq_true fun hdq => hs (hdq ▸ hd)
  refine .quoted hi hn hq ?_
  show quotedPart q (s ++ [q] ++ u) = _
  rw [List.append_assoc, List.singleton_append, quotedPart, hspan]
  rfl

theorem standsBefore_number (hs : numberPart (s ++ u) = (s, u))
    (hd : s.head?.any Char.isDigit = true) : StandsBefore ⟨.number, s⟩ u := by
  cases s with
  | nil => cases hd
  | cons c s =>
    have hc : c.isDigit = true := hd
    have hi : startsIdentifier c = false := by
      refine Bool.eq_false_iff.mpr fun hi => ?_
      rw [isDigit_of_startsIdentifier hi] at hc
      cases hc
    exact .number hi (by rw [startsNumber, hc, Bool.true_or]) hs

theorem StandsBefore.numberPart_eq (h : t.StandsBefore u) (ht : t.kind = .number) :
    numberPart (t.text ++ u) = (t.text, u) := by
  cases h with
  | identifier => cases ht
  | number _ _ hnumber => exact hnumber
  | quoted => cases ht
  | punctuation => cases ht

end Tokens

/-- Every token of the row stands before the text of those behind it. -/
def Stand : List Token → Prop
  | [] => True
  | t :: ts => t.StandsBefore (concat ts) ∧ Stand ts

theorem concat_cons (t : Token) (ts : List Token) : concat (t :: ts) = t.text ++ concat ts := rfl

theorem scan_concat (h : Stand ts) : scan (concat ts) = ts := by
  induction ts with
  | nil => rw [concat, List.flatMap_nil, scan]
  | cons t ts ih => rw [concat_cons, scan_append h.1, ih h.2]

theorem concat_append (ts ts' : List Token) : concat (ts ++ ts') = concat ts ++ concat ts' :=
  List.flatMap_append

theorem Stand.of_append {ts' : List Token} (h : Stand (ts ++ ts')) : Stand ts' := by
  induction ts with
  | nil => exact h
  | cons t ts ih => exact ih h.2

theorem stand_scan (u : Text) : Stand (scan u) := by
  fun_induction scan u with
  | case1 => trivial
  | case2 c u ih =>
    refine ⟨?_, ih⟩
    rw [concat_scan]
    exact standsBefore_first c u

end Token

end MotionExport
