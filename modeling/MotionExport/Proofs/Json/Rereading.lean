import MotionExport.Proofs.Json.Scanning

/-! # Rereading written JSON

A value that has been written is read again as the same value. Writing and reading agree on the
tokens of the value, so each of them is compared with these.
-/

namespace MotionExport

namespace Json

open JsonToken

/-- A value that stands for something: what is written as a number is one, and no string has half a
surrogate pair. -/
inductive IsProper : Json → Prop where

  | null : IsProper null

  | boolean (b : Bool) : IsProper (boolean b)

  | number {written : Text} {n : JsonNumber} :
      JsonNumber.ofText? written = some n → IsProper (number written)

  | string (t : Text) : IsProper (string (some t))

  | array {items : List Json} : (∀ j ∈ items, IsProper j) → IsProper (array items)

  | object {members : List (Option Text × Json)} : (∀ m ∈ members, m.1.isSome = true) →
      (∀ m ∈ members, IsProper m.2) → IsProper (object members)

mutual

def tokens : Json → List JsonToken
  | null => [.null]
  | boolean b => [.boolean b]
  | number written => [.number written]
  | string t => [.string t]
  | array [] => [.mark '[', .mark ']']
  | array (j :: js) => .mark '[' :: (tokens j ++ (itemTokens js ++ [.mark ']']))
  | object [] => [.mark '\x7b', .mark '\x7d']
  | object (m :: ms) => .mark '\x7b' :: (memberTokens m ++ (membersTokens ms ++ [.mark '\x7d']))

def itemTokens : List Json → List JsonToken
  | [] => []
  | j :: js => .mark ',' :: (tokens j ++ itemTokens js)

def memberTokens : Option Text × Json → List JsonToken
  | (key, j) => .string key :: .mark ':' :: tokens j

def membersTokens : List (Option Text × Json) → List JsonToken
  | [] => []
  | m :: ms => .mark ',' :: (memberTokens m ++ membersTokens ms)

end

section Writing

variable {j : Json} {items : List Json} {members : List (Option Text × Json)}
  {t : Text} {ts : List JsonToken}

/-- A written value is scanned as its tokens, in front of what ends a number. -/
def ScansBack (j : Json) : Prop :=
  ∀ level t ts, t.EndsNumber → Scans t ts → Scans (j.write level ++ t) (j.tokens ++ ts)

theorem endsNumber_newline (level : Nat) (t : Text) : (newline level ++ t).EndsNumber := by
  rintro c ⟨⟩
  decide

theorem endsNumber_comma (t : Text) : Text.EndsNumber (',' :: t) := by
  rintro c ⟨⟩
  decide

theorem scans_writeItems (hitems : ∀ j ∈ items, j.ScansBack) (ht : t.EndsNumber) (h : Scans t ts)
    (level : Nat) :
    (writeItems level items ++ t).EndsNumber ∧
      Scans (writeItems level items ++ t) (itemTokens items ++ ts) := by
  induction items with
  | nil =>
    rw [writeItems, itemTokens]
    exact ⟨ht, h⟩
  | cons j items ih =>
    obtain ⟨hj, hitems⟩ := List.forall_mem_cons.mp hitems
    obtain ⟨hends, hscans⟩ := ih hitems
    rw [writeItems, itemTokens]
    simp only [List.append_assoc, List.cons_append]
    exact ⟨endsNumber_comma _, .mark rfl (.newline (hj level _ _ hends hscans) level)⟩

theorem scans_writeMember {m : Option Text × Json} (hkey : m.1.isSome = true) (hm : m.2.ScansBack)
    (ht : t.EndsNumber) (h : Scans t ts) (level : Nat) :
    Scans (writeMember level m ++ t) (memberTokens m ++ ts) := by
  obtain ⟨key, j⟩ := m
  obtain ⟨key, rfl⟩ := Option.isSome_iff_exists.mp hkey
  rw [writeMember, memberTokens]
  simp only [List.append_assoc, List.cons_append]
  exact .quote key (.mark rfl (.space rfl (hm level t ts ht h)))

theorem scans_writeMembers (hkeys : ∀ m ∈ members, m.1.isSome = true)
    (hmembers : ∀ m ∈ members, m.2.ScansBack) (ht : t.EndsNumber) (h : Scans t ts)
    (level : Nat) :
    (writeMembers level members ++ t).EndsNumber ∧
      Scans (writeMembers level members ++ t) (membersTokens members ++ ts) := by
  induction members with
  | nil =>
    rw [writeMembers, membersTokens]
    exact ⟨ht, h⟩
  | cons m members ih =>
    obtain ⟨hkey, hkeys⟩ := List.forall_mem_cons.mp hkeys
    obtain ⟨hm, hmembers⟩ := List.forall_mem_cons.mp hmembers
    obtain ⟨hends, hscans⟩ := ih hkeys hmembers
    rw [writeMembers, membersTokens]
    simp only [List.append_assoc, List.cons_append]
    exact ⟨endsNumber_comma _,
      .mark rfl (.newline (scans_writeMember hkey hm hends hscans level) level)⟩

/-- A proper value is scanned back, by induction on the value. Items and members are inductions of
their own, with what stands behind them kept apart from numbers by a comma or a line break. -/
theorem IsProper.scansBack (h : j.IsProper) : j.ScansBack := by
  induction h with
  | null => exact fun _ _ _ _ hts => .word_null hts
  | boolean b =>
    cases b with
    | true => exact fun _ _ _ _ hts => .word_true hts
    | false => exact fun _ _ _ _ hts => .word_false hts
  | number hn => exact fun _ _ _ ht hts => .number hn ht hts
  | string t => exact fun _ _ _ _ hts => .quote t hts
  | @array items _ ih =>
    intro level t ts ht hts
    cases items with
    | nil => exact .mark rfl (.mark rfl hts)
    | cons j js =>
      obtain ⟨hj, hjs⟩ := List.forall_mem_cons.mp ih
      obtain ⟨hends, hscans⟩ := scans_writeItems hjs
        (endsNumber_newline level (']' :: t)) (.newline (.mark rfl hts) level) (level + 1)
      rw [write, tokens]
      simp only [List.append_assoc, List.cons_append]
      exact .mark rfl (.newline (hj (level + 1) _ _ hends hscans) (level + 1))
  | @object members hkeys _ ih =>
    intro level t ts ht hts
    cases members with
    | nil => exact .mark rfl (.mark rfl hts)
    | cons m ms =>
      obtain ⟨hkey, hkeys⟩ := List.forall_mem_cons.mp hkeys
      obtain ⟨hm, hms⟩ := List.forall_mem_cons.mp ih
      obtain ⟨hends, hscans⟩ := scans_writeMembers hkeys hms
        (endsNumber_newline level ('\x7d' :: t)) (.newline (.mark rfl hts) level) (level + 1)
      rw [write, tokens]
      simp only [List.append_assoc, List.cons_append]
      exact .mark rfl (.newline (scans_writeMember hkey hm hends hscans (level + 1)) (level + 1))

end Writing

section Reading

variable {j : Json} {items : List Json} {members : List (Option Text × Json)} {fuel : Nat}

/-- The tokens of a value are read as the value, in front of any others. -/
def ReadsBack (j : Json) : Prop :=
  ∀ fuel rest, 2 * j.tokens.length ≤ fuel → readValue fuel (j.tokens ++ rest) = some (j, rest)

theorem tokens_ne_close (j : Json) (ts rest : List JsonToken) :
    j.tokens ++ ts ≠ .mark ']' :: rest := by
  cases j with
  | array items => cases items <;> simp [tokens]
  | object members => cases members <;> simp [tokens]
  | _ => simp [tokens]

theorem length_tokens_pos (j : Json) : 0 < j.tokens.length := by
  cases j with
  | array items => cases items <;> simp [tokens]
  | object members => cases members <;> simp [tokens]
  | _ => simp [tokens]

/-- The items of an array are read up to its bracket. A step goes to each item and one more to the
value in it, and there are two steps to a token. -/
theorem readItems_tokens (hj : j.ReadsBack) (hitems : ∀ j ∈ items, j.ReadsBack)
    (hfuel : 2 * (j.tokens ++ itemTokens items).length < fuel) (rest : List JsonToken) :
    readItems fuel (j.tokens ++ (itemTokens items ++ .mark ']' :: rest)) =
      some (j :: items, rest) := by
  induction items generalizing j fuel with
  | nil =>
    obtain ⟨fuel, rfl⟩ := Nat.exists_eq_succ_of_ne_zero (Nat.ne_of_gt (Nat.zero_lt_of_lt hfuel))
    rw [List.length_append] at hfuel
    rw [readItems, hj fuel _ (by omega)]
    rfl
  | cons k items ih =>
    obtain ⟨hk, hitems⟩ := List.forall_mem_cons.mp hitems
    obtain ⟨fuel, rfl⟩ := Nat.exists_eq_succ_of_ne_zero (Nat.ne_of_gt (Nat.zero_lt_of_lt hfuel))
    simp only [itemTokens, List.length_append, List.length_cons] at hfuel
    rw [readItems, hj fuel _ (by omega)]
    simp only [Option.bind_eq_bind, Option.bind_some, itemTokens, List.cons_append,
      List.append_assoc]
    rw [ih hk hitems (by rw [List.length_append]; omega)]
    rfl

theorem readMembers_tokens {m : Option Text × Json} (hm : m.2.ReadsBack)
    (hmembers : ∀ m ∈ members, m.2.ReadsBack)
    (hfuel : 2 * (memberTokens m ++ membersTokens members).length < fuel)
    (rest : List JsonToken) :
    readMembers fuel (memberTokens m ++ (membersTokens members ++ .mark '\x7d' :: rest)) =
      some (m :: members, rest) := by
  induction members generalizing m fuel with
  | nil =>
    obtain ⟨fuel, rfl⟩ := Nat.exists_eq_succ_of_ne_zero (Nat.ne_of_gt (Nat.zero_lt_of_lt hfuel))
    obtain ⟨key, j⟩ := m
    have hj : j.ReadsBack := hm
    simp only [memberTokens, List.length_append, List.length_cons] at hfuel
    rw [memberTokens, List.cons_append, List.cons_append, readMembers, hj fuel _ (by omega)]
    rfl
  | cons k members ih =>
    obtain ⟨hk, hmembers⟩ := List.forall_mem_cons.mp hmembers
    obtain ⟨fuel, rfl⟩ := Nat.exists_eq_succ_of_ne_zero (Nat.ne_of_gt (Nat.zero_lt_of_lt hfuel))
    obtain ⟨key, j⟩ := m
    have hj : j.ReadsBack := hm
    simp only [memberTokens, membersTokens, List.length_append, List.length_cons] at hfuel
    rw [memberTokens, List.cons_append, List.cons_append, readMembers, hj fuel _ (by omega)]
    simp only [Option.bind_eq_bind, Option.bind_some, membersTokens, List.cons_append,
      List.append_assoc]
    rw [ih hk hmembers (by rw [List.length_append]; omega)]
    rfl

theorem readsBack_of_single {token : JsonToken} (htokens : j.tokens = [token])
    (h : ∀ fuel rest, readValue (fuel + 1) (token :: rest) = some (j, rest)) : j.ReadsBack := by
  rintro (_ | fuel) rest hfuel
  · exact absurd j.length_tokens_pos (by omega)
  · rw [htokens]
    exact h fuel rest

theorem IsProper.readsBack (h : j.IsProper) : j.ReadsBack := by
  induction h with
  | null => exact readsBack_of_single rfl fun _ _ => rfl
  | boolean b => exact readsBack_of_single rfl fun _ _ => rfl
  | number hn => exact readsBack_of_single rfl fun _ _ => rfl
  | string t => exact readsBack_of_single rfl fun _ _ => rfl
  | @array items _ ih =>
    rintro (_ | fuel) rest hfuel
    · exact absurd (length_tokens_pos (Json.array items)) (by omega)
    cases items with
    | nil => rfl
    | cons j js =>
      obtain ⟨hj, hjs⟩ := List.forall_mem_cons.mp ih
      simp only [tokens, List.length_cons, List.length_append] at hfuel
      have hitems := readItems_tokens hj hjs
        (show 2 * (j.tokens ++ itemTokens js).length < fuel by rw [List.length_append]; omega) rest
      simp only [tokens, List.cons_append, List.append_assoc, List.nil_append]
      rw [readValue, hitems]
      · rfl
      · exact fun ts => tokens_ne_close j _ ts
  | @object members hkeys _ ih =>
    rintro (_ | fuel) rest hfuel
    · exact absurd (length_tokens_pos (Json.object members)) (by omega)
    cases members with
    | nil => rfl
    | cons m ms =>
      obtain ⟨hm, hms⟩ := List.forall_mem_cons.mp ih
      simp only [tokens, List.length_cons, List.length_append] at hfuel
      have hmembers := readMembers_tokens hm hms
        (show 2 * (memberTokens m ++ membersTokens ms).length < fuel by
          rw [List.length_append]; omega) rest
      simp only [tokens, List.cons_append, List.append_assoc, List.nil_append]
      rw [readValue, hmembers]
      · rfl
      · rw [memberTokens]
        exact fun ts hts => nomatch hts

end Reading

theorem ofText?_write (j : Json) (h : j.IsProper) : ofText? (j.write 0) = some j := by
  have hscan : scan (j.write 0) = some j.tokens := by
    have hscans := h.scansBack 0 [] [] (by rintro _ ⟨⟩) .nil
    rw [List.append_nil, List.append_nil] at hscans
    exact hscans.scan_eq
  have hread := h.readsBack (2 * j.tokens.length + 1) [] (Nat.le_succ _)
  rw [List.append_nil] at hread
  simp only [ofText?, hscan, Option.bind_eq_bind, Option.bind_some, hread]

end Json

end MotionExport
