import MotionExport.Json.Reader
import MotionExport.Proofs.Json.NumberScanning

/-! # Scanning written JSON

The tokens of a written value are found one after the other. A string ends at its own quote, because
the quotes in it are escaped, and a number ends at the comma or the line break behind it.
-/

namespace MotionExport

namespace JsonToken

variable {c : Char} {n : Nat} {t rest : Text} {token : JsonToken} {tokens : List JsonToken}

section Strings

def pieceOf (c : Char) : Piece :=
  if c.toNat < 0x20 ∧ c ∉ ['\x08', '\x0c', '\n', '\r', '\t'] then .unit c.toNat else .char c

theorem hexValue?_digitChar (hn : n < 16) : hexValue? n.digitChar = some n := by
  have hall : ∀ n < 16, hexValue? n.digitChar = some n := by decide
  exact hall n hn

theorem scanPieces_short {a : Char} (hu : a ≠ 'u') (h : shortEscape? a = some c) (t : Text) :
    scanPieces ('\\' :: a :: t) =
      (scanPieces t).map fun (pieces, rest) => (.char c :: pieces, rest) := by
  rw [scanPieces, h]
  · cases scanPieces t <;> rfl
  · rintro _ _ _ _ _ rfl
    contradiction

theorem scanPieces_plain (hquote : c ≠ '"') (hescape : c ≠ '\\') (hc : ¬ c.toNat < 0x20)
    (t : Text) :
    scanPieces (c :: t) = (scanPieces t).map fun (pieces, rest) => (.char c :: pieces, rest) := by
  rw [scanPieces, if_neg (not_or.mpr ⟨hc, hescape⟩)]
  · cases scanPieces t <;> rfl
  · exact hquote
  · rintro _ _ _ _ _ rfl
    contradiction
  · rintro _ _ rfl
    contradiction

theorem scanPieces_long (hn : n < 0x100) (t : Text) :
    scanPieces ("\\u00".toList ++ [(n / 16).digitChar, (n % 16).digitChar] ++ t) =
      (scanPieces t).map fun (pieces, rest) => (.unit n :: pieces, rest) := by
  have hunit : 4096 * 0 + 256 * 0 + 16 * (n / 16) + n % 16 = n := by omega
  have hlist : "\\u00".toList ++ [(n / 16).digitChar, (n % 16).digitChar] ++ t =
      '\\' :: 'u' :: '0' :: '0' :: (n / 16).digitChar :: (n % 16).digitChar :: t := rfl
  have hzero : hexValue? '0' = some 0 := rfl
  rw [hlist, scanPieces]
  simp only [hzero, hexValue?_digitChar (show n / 16 < 16 by omega),
    hexValue?_digitChar (show n % 16 < 16 by omega), Option.bind_eq_bind, Option.bind_some, hunit]
  cases scanPieces t <;> rfl

def shortEscapes : List (Char × Char) :=
  [('"', '"'), ('\\', '\\'), ('\x08', 'b'), ('\x0c', 'f'), ('\n', 'n'), ('\r', 'r'), ('\t', 't')]

theorem escape_of_mem_shortEscapes : ∀ p ∈ shortEscapes, Json.escape p.1 = ['\\', p.2] ∧
    p.2 ≠ 'u' ∧ shortEscape? p.2 = some p.1 ∧ pieceOf p.1 = .char p.1 := by
  decide

theorem escape_of_not_short (h : ∀ p ∈ shortEscapes, c ≠ p.1) : Json.escape c =
    if c.toNat < 0x20 then "\\u00".toList ++ [(c.toNat / 16).digitChar, (c.toNat % 16).digitChar]
    else [c] := by
  simp only [shortEscapes, List.forall_mem_cons] at h
  simp [Json.escape, h]

theorem scanPieces_escape (c : Char) (t : Text) :
    scanPieces (Json.escape c ++ t) =
      (scanPieces t).map fun (pieces, rest) => (pieceOf c :: pieces, rest) := by
  by_cases hshort : ∃ p ∈ shortEscapes, c = p.1
  · obtain ⟨p, hp, rfl⟩ := hshort
    obtain ⟨hescape, hu, hread, hpiece⟩ := escape_of_mem_shortEscapes p hp
    rw [hescape, hpiece]
    exact scanPieces_short hu hread t
  · have hne : ∀ p ∈ shortEscapes, c ≠ p.1 := fun p hp hc => hshort ⟨p, hp, hc⟩
    rw [escape_of_not_short hne]
    simp only [shortEscapes, List.forall_mem_cons] at hne
    split
    · rename_i hc
      have hpiece : pieceOf c = .unit c.toNat := if_pos ⟨hc, by simp [hne]⟩
      rw [hpiece]
      exact scanPieces_long (by omega) t
    · rename_i hc
      have hpiece : pieceOf c = .char c := if_neg fun h => hc h.1
      rw [hpiece]
      exact scanPieces_plain hne.1 hne.2.1 hc t

/-- A string is scanned up to its closing quote. -/
theorem scanPieces_flatMap_escape (s t : Text) :
    scanPieces (s.flatMap Json.escape ++ '"' :: t) = some (s.map pieceOf, t) := by
  induction s with
  | nil =>
    rw [List.flatMap_nil, List.nil_append, scanPieces]
    rfl
  | cons c s ih =>
    rw [List.flatMap_cons, List.append_assoc, scanPieces_escape, ih]
    rfl

theorem textOf_unit (hn : n < 0xD800) (pieces : List Piece) :
    textOf (.unit n :: pieces) = (textOf pieces).map (Char.ofNat n :: ·) := by
  have hhigh : isHighSurrogate n = false := by
    simp only [isHighSurrogate, Bool.and_eq_false_iff, decide_eq_false_iff_not]
    omega
  have hlow : isLowSurrogate n = false := by
    simp only [isLowSurrogate, Bool.and_eq_false_iff, decide_eq_false_iff_not]
    omega
  cases pieces with
  | nil => simp only [textOf, hhigh, hlow, Bool.or_self, Bool.false_eq_true, if_false]
  | cons piece pieces =>
    cases piece <;> simp [textOf, hhigh, hlow]

theorem textOf_map_pieceOf (s : Text) : textOf (s.map pieceOf) = some s := by
  induction s with
  | nil => rfl
  | cons c s ih =>
    rw [List.map_cons, pieceOf]
    split
    · rename_i hcontrol
      rw [textOf_unit (by omega), ih, Char.ofNat_toNat]
      rfl
    · rw [textOf, ih]
      rfl

end Strings

section Tokens

/-- The text is cut into the tokens, with any number of steps that its length allows. -/
def Scans (t : Text) (tokens : List JsonToken) : Prop :=
  ∀ fuel, t.length < fuel → scanWith fuel t = some tokens

theorem Scans.nil : Scans [] [] := by
  intro fuel hfuel
  obtain ⟨fuel, rfl⟩ := Nat.exists_eq_succ_of_ne_zero (Nat.ne_of_gt hfuel)
  rfl

theorem Scans.scan_eq (h : Scans t tokens) : scan t = some tokens := h _ (Nat.lt_succ_self _)

theorem Scans.space (hc : isSpace c = true) (h : Scans t tokens) : Scans (c :: t) tokens := by
  intro fuel hfuel
  rw [List.length_cons] at hfuel
  obtain ⟨fuel, rfl⟩ := Nat.exists_eq_succ_of_ne_zero (Nat.ne_of_gt (Nat.zero_lt_of_lt hfuel))
  have hrest := h (fuel + 1) (by omega)
  rw [scanWith] at hrest ⊢
  rw [List.dropWhile_cons_of_pos hc]
  exact hrest

theorem Scans.newline (h : Scans t tokens) (level : Nat) :
    Scans (Json.newline level ++ t) tokens := by
  have hspaces (k : Nat) : Scans (List.replicate k ' ' ++ t) tokens := by
    induction k with
    | zero => exact h
    | succ k ih => exact .space (by decide) ih
  exact .space (by decide) (hspaces (2 * level))

theorem Scans.cons (hfirst : first (c :: t) = some (token, rest)) (hc : isSpace c = false)
    (hlength : rest.length ≤ t.length) (h : Scans rest tokens) :
    Scans (c :: t) (token :: tokens) := by
  intro fuel hfuel
  rw [List.length_cons] at hfuel
  obtain ⟨fuel, rfl⟩ := Nat.exists_eq_succ_of_ne_zero (Nat.ne_of_gt (Nat.zero_lt_of_lt hfuel))
  rw [scanWith, List.dropWhile_cons_of_neg (by simp [hc])]
  simp only [hfirst, Option.bind_eq_bind, Option.bind_some, h fuel (by omega)]

theorem Scans.mark (hc : isMarkCharacter c = true) (h : Scans t tokens) :
    Scans (c :: t) (.mark c :: tokens) := by
  have hspace : isSpace c = false := by
    simp only [isMarkCharacter, Bool.or_eq_true, decide_eq_true_eq, or_assoc] at hc
    rcases hc with rfl | rfl | rfl | rfl | rfl | rfl <;> decide
  exact .cons (by rw [first, if_pos hc]) hspace le_rfl h

theorem Scans.quote (s : Text) (h : Scans t tokens) :
    Scans (Json.quote s ++ t) (.string (some s) :: tokens) := by
  have hquote : Json.quote s ++ t = '"' :: (s.flatMap Json.escape ++ '"' :: t) := by
    simp [Json.quote]
  have hfirst : first ('"' :: (s.flatMap Json.escape ++ '"' :: t)) =
      some (.string (some s), t) := by
    rw [first, if_neg (by decide), if_pos rfl, scanPieces_flatMap_escape]
    simp only [Option.map_some, textOf_map_pieceOf]
  rw [hquote]
  refine .cons hfirst (by decide) ?_ h
  simp only [List.length_append, List.length_cons]
  omega

theorem Scans.word_null (h : Scans t tokens) : Scans ("null".toList ++ t) (.null :: tokens) :=
  .cons rfl (by decide) (by simp; omega) h

theorem Scans.word_true (h : Scans t tokens) :
    Scans ("true".toList ++ t) (.boolean true :: tokens) :=
  .cons rfl (by decide) (by simp; omega) h

theorem Scans.word_false (h : Scans t tokens) :
    Scans ("false".toList ++ t) (.boolean false :: tokens) :=
  .cons rfl (by decide) (by simp; omega) h

theorem first_of_scan {w : Text} {n : JsonNumber} (h : JsonNumber.scan w = some (n, rest)) :
    first w = some (.number (w.take (w.length - rest.length)), rest) := by
  obtain ⟨c, u, rfl, hc⟩ := JsonNumber.exists_cons_of_scan h
  have hne (a : Char) (ha : JsonNumber.startsNumber a = false) : c ≠ a :=
    JsonNumber.ne_of_startsNumber hc ha
  have hmark : isMarkCharacter c = false := by
    simp [isMarkCharacter, hne '[' rfl, hne ']' rfl, hne '\x7b' rfl, hne '\x7d' rfl, hne ':' rfl,
      hne ',' rfl]
  have hword (a : Char) (start : Text) (ha : JsonNumber.startsNumber a = false) :
      Text.after? (a :: start) (c :: u) = none := if_neg fun heq => hne a ha heq.symm
  rw [first, if_neg (by simp [hmark]), if_neg (hne '"' (by decide)),
    show Text.after? "null".toList (c :: u) = none from hword 'n' _ (by decide),
    show Text.after? "true".toList (c :: u) = none from hword 't' _ (by decide),
    show Text.after? "false".toList (c :: u) = none from hword 'f' _ (by decide), h]
  rfl

theorem Scans.number {w : Text} {n : JsonNumber} (hn : JsonNumber.ofText? w = some n)
    (ht : t.EndsNumber) (h : Scans t tokens) : Scans (w ++ t) (.number w :: tokens) := by
  have hscan := JsonNumber.ofText?_eq_some_iff.mp hn
  obtain ⟨c, u, rfl, hc⟩ := JsonNumber.exists_cons_of_scan hscan
  have hfirst := first_of_scan (JsonNumber.scan_append ht hscan)
  have htake : (c :: u ++ t).take ((c :: u ++ t).length - ([] ++ t).length) = c :: u := by
    rw [List.nil_append, List.length_append, Nat.add_sub_cancel, List.take_left]
  have hspace : isSpace c = false := by
    have hne (a : Char) (ha : JsonNumber.startsNumber a = false) : c ≠ a :=
      JsonNumber.ne_of_startsNumber hc ha
    simp [isSpace, hne ' ' rfl, hne '\t' rfl, hne '\n' rfl, hne '\r' rfl]
  rw [htake, List.nil_append] at hfirst
  exact .cons hfirst hspace (by simp) h

end Tokens

end JsonToken

end MotionExport
