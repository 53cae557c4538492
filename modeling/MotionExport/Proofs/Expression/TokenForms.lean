import MotionExport.Proofs.Expression.TokenPlaces

/-! # Forms of tokens

Scanning loses nothing: the walk over the bytes of a text comes to its end and cuts the text into
tokens, and what each of them is can be said from its kind and the text behind it.
-/

namespace MotionExport

namespace Token

variable {c : Char} {s u v r : Text} {t : Token}

/-- What a token is in front of the text behind it. An identifier is the longest at its place, a
number starts with a digit or with a point and a digit, a quoted text ends with the next quote of
its kind or is not closed at all, and any other token is one character that starts none of these. -/
def IsFormed (t : Token) (behind : Text) : Prop :=
  match t.kind with
  | .identifier =>
    IsIdentifier t.text ∧ ∀ r, r <+: t.text ++ behind → IsIdentifier r → r <+: t.text
  | .number => ∃ d s, d.isDigit = true ∧ (t.text = d :: s ∨ t.text = '.' :: d :: s)
  | .quoted =>
    ∃ quote inside, (quote = '"' ∨ quote = '\x27') ∧ quote ∉ inside ∧
      (t.text = quote :: inside ++ [quote] ∨ t.text = quote :: inside ∧ behind = [])
  | .punctuation =>
    ∃ c, t.text = [c] ∧ startsIdentifier c = false ∧ startsNumber c behind = false ∧
      ¬ (c = '"' ∨ c = '\x27')

theorem prefix_of_isIdentifier (hu : ¬ u.head?.any continuesIdentifier = true)
    (hr : r <+: s ++ u) (h : IsIdentifier r) : r <+: s := by
  obtain ⟨v, happend⟩ := hr
  rcases List.append_eq_append_iff.mp happend with ⟨rest, hs, -⟩ | ⟨rest, hr, hu'⟩
  · exact ⟨rest, hs.symm⟩
  · -- A longer identifier would go on with the character behind the shorter one.
    cases rest with
    | nil => exact ⟨[], by simp [hr]⟩
    | cons d rest =>
      have hd : continuesIdentifier d = true := h.2 d (by simp [hr])
      exact absurd (by simp [hu', hd]) hu

theorem exists_of_startsNumber (h : startsNumber c s = true) :
    c.isDigit = true ∨ c = '.' ∧ ∃ d v, s = d :: v ∧ d.isDigit = true := by
  simp only [startsNumber, Bool.or_eq_true, Bool.and_eq_true, decide_eq_true_eq] at h
  refine h.imp_right (And.imp_right fun hhead => ?_)
  cases s with
  | nil => cases hhead
  | cons d v => exact ⟨d, v, rfl, hhead⟩

theorem exists_of_quotedPart (h : quotedPart c v = (c :: s, u)) :
    ∃ inside, c ∉ inside ∧ (s = inside ++ [c] ∨ s = inside ∧ u = []) := by
  obtain ⟨inside, rest, hspan⟩ : ∃ inside rest, span (· ≠ c) v = (inside, rest) := ⟨_, _, rfl⟩
  have happend : inside ++ rest = v := by rw [← span_append (· ≠ c) v, hspan]
  have hcut : span (· ≠ c) (inside ++ rest) = (inside, rest) := by rw [happend, hspan]
  obtain ⟨hinside, hstop⟩ := span_eq_iff.mp hcut
  have hquote : c ∉ inside := fun hmem => by simpa using hinside c hmem
  rw [quotedPart, hspan] at h
  obtain ⟨htext, hrest⟩ := Prod.mk.inj h
  refine ⟨inside, hquote, ?_⟩
  cases rest with
  | nil => exact .inr ⟨by simpa using htext.symm, hrest.symm⟩
  | cons d rest =>
    obtain rfl : d = c := by simpa using hstop
    exact .inl (by simpa using htext.symm)

theorem StandsBefore.isFormed (h : t.StandsBefore u) : t.IsFormed u := by
  cases h with
  | @identifier c s u hi hspan =>
    obtain ⟨hidentifier, hbehind⟩ := (StandsBefore.identifier hi hspan).isIdentifier rfl
    exact ⟨hidentifier, fun r hr h => prefix_of_isIdentifier hbehind hr h⟩
  | @number c s u hi hn hnumber =>
    have hstarts := startsNumber_of_numberPart hnumber hn []
    rw [List.append_nil] at hstarts
    rcases exists_of_startsNumber hstarts with hc | ⟨rfl, d, v, rfl, hd⟩
    · exact ⟨c, s, hc, .inl rfl⟩
    · exact ⟨d, v, hd, .inr rfl⟩
  | @quoted c s u hi hn hq hquoted =>
    obtain ⟨inside, hinside, rfl | ⟨rfl, rfl⟩⟩ := exists_of_quotedPart hquoted
    · exact ⟨c, inside, hq, hinside, .inl rfl⟩
    · exact ⟨c, s, hq, hinside, .inr ⟨rfl, rfl⟩⟩
  | @punctuation c u hi hn hq => exact ⟨c, rfl, hi, hn, hq⟩

theorem length_scan_le (u : Text) : (scan u).length ≤ u.length := by
  fun_induction scan u with
  | case1 => exact Nat.le_refl 0
  | case2 c u ih =>
    have hlt := length_first_lt c u
    rw [List.length_cons]
    omega

/-- The walk over the bytes of a text ends, with a token for each character at the most, and at no
place inside of a character is the text looked at or cut. It finds the tokens of the text: written
one after the other they are the text, none of them is empty, and each has the form of its kind at
its place. -/
theorem scanning_loses_nothing (text : Text) :
    scanBytes? text = some (scan text) ∧ (scan text).length ≤ text.length ∧
      concat (scan text) = text ∧
      ∀ before t behind, scan text = before ++ t :: behind →
        t.text ≠ [] ∧ t.IsFormed (concat behind) := by
  have hwalk := scanFrom?_of_leavesAt (Text.leavesAt_zero text)
  refine ⟨hwalk, length_scan_le text, concat_scan text, ?_⟩
  intro before t behind h
  have hstand : Stand (t :: behind) := Stand.of_append (h ▸ stand_scan text)
  obtain ⟨c, s, htext, -⟩ := hstand.1.first_eq
  refine ⟨?_, hstand.1.isFormed⟩
  rw [htext]
  exact List.cons_ne_nil c s

theorem scanning_unclosedQuote :
    scan ['.', '5', '*', '"', 'é'] =
        [⟨.number, ['.', '5']⟩, ⟨.punctuation, ['*']⟩] ++ ⟨.quoted, ['"', 'é']⟩ :: [] ∧
      IsFormed ⟨.quoted, ['"', 'é']⟩ [] :=
  have hscan : scan ['.', '5', '*', '"', 'é'] =
      [⟨.number, ['.', '5']⟩, ⟨.punctuation, ['*']⟩] ++ ⟨.quoted, ['"', 'é']⟩ :: [] := by
    decide +kernel
  ⟨hscan, ((scanning_loses_nothing ['.', '5', '*', '"', 'é']).2.2.2 _ _ _ hscan).2⟩

end Token

end MotionExport
