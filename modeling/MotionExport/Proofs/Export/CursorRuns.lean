import MotionExport.Export.Reading

/-! # Runs of a cursor

Every step of a cursor takes its lines one after the other, and what it leaves behind when it fails
is a cursor at the end. So the cursor stays in its text whatever steps are taken, and it can be said
from the text and the place alone which steps succeed and where they lead.
-/

namespace MotionExport

namespace Cursor

variable {c c' : Cursor} {line marker : Text} {count : Nat}

section Moves

@[simp] theorem lines_advance (c : Cursor) (count : Nat) : (c.advance count).lines = c.lines := rfl

@[simp] theorem position_advance (c : Cursor) (count : Nat) :
    (c.advance count).position = c.position + count := rfl

@[simp] theorem advance_advance (c : Cursor) (m n : Nat) :
    (c.advance m).advance n = c.advance (m + n) := by
  simp [advance, Nat.add_assoc]

@[simp] theorem exhaust_advance (c : Cursor) (count : Nat) :
    (c.advance count).exhaust = c.exhaust := rfl

theorem isExhausted_exhaust (c : Cursor) : c.exhaust.isExhausted = true := by
  simp [isExhausted, exhaust]

theorem next_of_remaining_nil (h : c.remaining = []) : c.next = (none, c) := by
  rw [next, h]

theorem next_of_remaining_cons {rest : List Text} (h : c.remaining = line :: rest) :
    c.next = (some line, c.advance 1) := by
  rw [next, h]

theorem remaining_of_next_none (h : c.next = (none, c')) : c.remaining = [] ∧ c' = c := by
  cases hr : c.remaining with
  | nil =>
    rw [next_of_remaining_nil hr] at h
    exact ⟨rfl, (Prod.mk.inj h).2.symm⟩
  | cons line rest =>
    rw [next_of_remaining_cons hr] at h
    cases h

theorem remaining_of_next_some (h : c.next = (some line, c')) :
    c' = c.advance 1 ∧ c.remaining = line :: c'.remaining := by
  cases hr : c.remaining with
  | nil =>
    rw [next_of_remaining_nil hr] at h
    cases h
  | cons first rest =>
    rw [next_of_remaining_cons hr] at h
    obtain ⟨hfirst, rfl⟩ := Prod.mk.inj h
    obtain rfl : first = line := Option.some.inj hfirst
    have htail : (c.advance 1).remaining = c.remaining.tail := by
      simp [remaining, advance]
    rw [htail, hr]
    exact ⟨rfl, rfl⟩

theorem position_lt_of_remaining_cons {rest : List Text} (h : c.remaining = line :: rest) :
    c.position < c.lines.length := by
  have hlength := congrArg List.length h
  rw [length_remaining, List.length_cons] at hlength
  omega

theorem exhaust_of_remaining_nil (h : c.remaining = []) (hle : c.position ≤ c.lines.length) :
    c.exhaust = c := by
  have hlength : c.lines.length - c.position = 0 := by
    rw [← length_remaining, h]
    rfl
  have hposition : c.lines.length = c.position := by omega
  rw [exhaust, hposition]

end Moves

section ByLines

def seekByLines (marker : Text) (c : Cursor) : Except ExportError Answer × Cursor :=
  match _ : c.next with
  | (none, last) => (.error (.markerNotFound marker), last)
  | (some line, behindLine) =>
    if line.trim = marker then (.ok .done, behindLine) else seekByLines marker behindLine
termination_by c.remaining.length
decreasing_by grind

def skipByLines (total : Nat) : Nat → Cursor → Except ExportError Answer × Cursor
  | 0, c => (.ok .done, c)
  | left + 1, c =>
    match c.next with
    | (none, last) => (.error (.malformedLine last.lines.length (.headerTooShort total)), last)
    | (some _, behindLine) => skipByLines total left behindLine

/-- Hands out lines until they end the statement that has been read up to `text`, and started at the
place `start`. -/
def statementByLines (start : Nat) (mode : Terminator) (text : Text) (c : Cursor) :
    Except ExportError Answer × Cursor :=
  if endsStatement text then (.ok (.statement (mode.finish text)), c)
  else
    match _ : c.next with
    | (none, last) => (.error (.unfinishedStatement start), last)
    | (some line, behindLine) => statementByLines start mode (text ++ line.trim) behindLine
termination_by c.remaining.length
decreasing_by grind

/-- A step that takes its lines one after the other. -/
def performByLines (c : Cursor) : Step → Except ExportError Answer × Cursor
  | .seek marker => seekByLines marker c.rewind
  | .skip count => skipByLines count count c
  | .rewind => (.ok .done, c.rewind)
  | .next => (.ok (.line c.next.1), c.next.2)
  | .nextTrimmed => (.ok (.line (c.next.1.map Text.trim)), c.next.2)
  | .statement seed mode => statementByLines c.position mode seed.trim c

theorem seekByLines_eq (marker : Text) (hle : c.position ≤ c.lines.length) :
    seekByLines marker c =
      match c.remaining.findIdx? fun line => line.trim = marker with
      | some i => (.ok .done, c.advance (i + 1))
      | none => (.error (.markerNotFound marker), c.exhaust) := by
  fun_induction seekByLines marker c with
  | case1 c last h =>
    obtain ⟨hnil, rfl⟩ := remaining_of_next_none h
    simp [hnil, exhaust_of_remaining_nil hnil hle]
  | case2 c line behindLine h hm =>
    obtain ⟨rfl, hcons⟩ := remaining_of_next_some h
    simp [hcons, List.findIdx?_cons, hm]
  | case3 c line behindLine h hm ih =>
    -- The line is not the marker, so the marker is one line further on than for the loop behind it.
    obtain ⟨rfl, hcons⟩ := remaining_of_next_some h
    rw [ih (position_lt_of_remaining_cons hcons), hcons, List.findIdx?_cons,
      if_neg (by simpa using hm)]
    cases (c.advance 1).remaining.findIdx? fun line => line.trim = marker with
    | none => simp
    | some i => simp [Nat.add_comm]

theorem skipByLines_eq (total count : Nat) (hle : c.position ≤ c.lines.length) :
    skipByLines total count c =
      if count ≤ c.remaining.length then (.ok .done, c.advance count)
      else (.error (.malformedLine c.lines.length (.headerTooShort total)), c.exhaust) := by
  induction count generalizing c with
  | zero => simp [skipByLines, advance]
  | succ count ih =>
    unfold skipByLines
    split
    · rename_i last h
      obtain ⟨hnil, rfl⟩ := remaining_of_next_none h
      simp [hnil, exhaust_of_remaining_nil hnil hle]
    · rename_i line behindLine h
      obtain ⟨rfl, hcons⟩ := remaining_of_next_some h
      rw [ih (c := c.advance 1) (position_lt_of_remaining_cons hcons), hcons]
      simp [Nat.add_comm 1 count]

theorem statementByLines_eq (start : Nat) (mode : Terminator) (text : Text)
    (hle : c.position ≤ c.lines.length) :
    statementByLines start mode text c =
      match gather endsStatement text c.remaining with
      | some (statement, used) => (.ok (.statement (mode.finish statement)), c.advance used)
      | none => (.error (.unfinishedStatement start), c.exhaust) := by
  fun_induction statementByLines start mode text c with
  | case1 text c hends => simp [gather_of_complete hends, advance]
  | case2 text c hopen last h =>
    obtain ⟨hnil, rfl⟩ := remaining_of_next_none h
    simp [hnil, gather, hopen, exhaust_of_remaining_nil hnil hle]
  | case3 text c hopen line behindLine h ih =>
    obtain ⟨rfl, hcons⟩ := remaining_of_next_some h
    rw [ih (position_lt_of_remaining_cons hcons), hcons, gather, if_neg hopen]
    cases gather endsStatement (text ++ line.trim) (c.advance 1).remaining with
    | none => simp
    | some gathered => simp [Nat.add_comm]

end ByLines

section Steps

theorem perform_seek (c : Cursor) (marker : Text) : c.perform (.seek marker) =
    match c.lines.findIdx? fun line => line.trim = marker with
    | some i => (.ok .done, c.rewind.advance (i + 1))
    | none => (.error (.markerNotFound marker), c.exhaust) := by
  rw [perform, seek]
  cases c.lines.findIdx? fun line => line.trim = marker with
  | none => rfl
  | some i => simp [rewind, advance]

theorem perform_skip (c : Cursor) (count : Nat) : c.perform (.skip count) =
    if count ≤ c.remaining.length then (.ok .done, c.advance count)
    else (.error (.malformedLine c.lines.length (.headerTooShort count)), c.exhaust) := by
  by_cases h : count ≤ c.remaining.length
  · simp [perform, skip, h]
  · simp [perform, skip, h]

theorem perform_statement (c : Cursor) (seed : Text) (mode : Terminator) :
    c.perform (.statement seed mode) =
      match gather endsStatement seed.trim c.remaining with
      | some (statement, used) => (.ok (.statement (mode.finish statement)), c.advance used)
      | none => (.error (.unfinishedStatement c.position), c.exhaust) := by
  rw [perform, statement, gatherStatement]
  cases gather endsStatement seed.trim c.remaining with
  | none => rfl
  | some gathered => rfl

/-- A step is equal to its loop. The cursor has to be within its lines, since a loop that fails
leaves it where it is. -/
theorem perform_eq_performByLines (hle : c.position ≤ c.lines.length) (step : Step) :
    c.perform step = c.performByLines step := by
  cases step with
  | seek marker =>
    have hstart : c.rewind.position ≤ c.rewind.lines.length := Nat.zero_le _
    rw [perform_seek, performByLines, seekByLines_eq marker hstart]
    rfl
  | skip count => rw [perform_skip, performByLines, skipByLines_eq count count hle]
  | rewind => rfl
  | next => rfl
  | nextTrimmed => rfl
  | statement seed mode =>
    rw [perform_statement, performByLines, statementByLines_eq c.position mode seed.trim hle]

theorem exists_next_eq (hle : c.position ≤ c.lines.length) :
    ∃ line position, c.next = (line, { c with position }) ∧ position ≤ c.lines.length := by
  cases hr : c.remaining with
  | nil => exact ⟨none, c.position, next_of_remaining_nil hr, hle⟩
  | cons line rest =>
    exact ⟨some line, c.position + 1, next_of_remaining_cons hr, position_lt_of_remaining_cons hr⟩

/-- What a step can do: it moves the cursor within its lines, or it fails and leaves the cursor at
their end. -/
theorem perform_cases (hle : c.position ≤ c.lines.length) (step : Step) :
    (∃ answer position, c.perform step = (.ok answer, { c with position }) ∧
      position ≤ c.lines.length) ∨
    ∃ e, c.perform step = (.error e, c.exhaust) := by
  have hrest := c.length_remaining
  cases step with
  | seek marker =>
    rw [perform_seek]
    cases h : c.lines.findIdx? fun line => line.trim = marker with
    | none => exact .inr ⟨_, rfl⟩
    | some i =>
      obtain ⟨hi, -⟩ := List.findIdx?_eq_some_iff_getElem.mp h
      exact .inl ⟨.done, 0 + (i + 1), rfl, by omega⟩
  | skip count =>
    rw [perform_skip]
    by_cases h : count ≤ c.remaining.length
    · rw [if_pos h]
      exact .inl ⟨.done, c.position + count, rfl, by omega⟩
    · rw [if_neg h]
      exact .inr ⟨_, rfl⟩
  | rewind => exact .inl ⟨.done, 0, rfl, Nat.zero_le _⟩
  | next =>
    obtain ⟨line, position, hnext, hposition⟩ := exists_next_eq hle
    exact .inl ⟨.line line, position, by rw [perform, hnext], hposition⟩
  | nextTrimmed =>
    obtain ⟨line, position, hnext, hposition⟩ := exists_next_eq hle
    exact .inl ⟨.line (line.map Text.trim), position, by rw [perform, hnext], hposition⟩
  | statement seed mode =>
    rw [perform_statement]
    cases h : gather endsStatement seed.trim c.remaining with
    | none => exact .inr ⟨_, rfl⟩
    | some gathered =>
      have hused := (eq_of_gather h).2
      exact .inl ⟨_, c.position + gathered.2, rfl, by omega⟩

theorem perform_seek_eq_ok_iff : (c.perform (.seek marker)).1 = .ok .done ↔
    ∃ line ∈ c.lines, line.trim = marker := by
  rw [perform_seek]
  cases h : c.lines.findIdx? fun line => line.trim = marker with
  | none =>
    have hnone := List.findIdx?_eq_none_iff.mp h
    simpa using hnone
  | some i =>
    have hsome : (c.lines.findIdx? fun line => line.trim = marker).isSome = true := by simp [h]
    simpa using hsome

theorem position_perform_seek {before behind : List Text} (h : c.lines = before ++ line :: behind)
    (hfirst : ∀ l ∈ before, l.trim ≠ line.trim) :
    (c.perform (.seek line.trim)).2.position = before.length + 1 := by
  have hnone : (before.findIdx? fun l => l.trim = line.trim) = none := by
    simpa [List.findIdx?_eq_none_iff] using hfirst
  have hfind : (c.lines.findIdx? fun l => l.trim = line.trim) = some before.length := by
    simp [h, List.findIdx?_append, hnone, List.findIdx?_cons]
  rw [perform_seek, hfind]
  simp [rewind]

theorem perform_skip_eq_ok_iff (hle : c.position ≤ c.lines.length) :
    (c.perform (.skip count)).1 = .ok .done ↔ c.position + count ≤ c.lines.length := by
  have hrest := c.length_remaining
  rw [perform_skip]
  split
  · simp only [true_iff]
    omega
  · simp only [reduceCtorEq, false_iff]
    omega

theorem position_perform_skip (h : (c.perform (.skip count)).1 = .ok .done) :
    (c.perform (.skip count)).2.position = c.position + count := by
  rw [perform_skip] at h ⊢
  split at h
  · rename_i hcount
    rw [if_pos hcount, position_advance]
  · cases h

end Steps

section Runs

variable {t : Text}

structure IsIn (c : Cursor) (t : Text) : Prop where
  lines_eq : c.lines = t.lines
  position_le : c.position ≤ c.lines.length

theorem isIn_ofText (t : Text) : (ofText t).IsIn t := ⟨rfl, Nat.zero_le _⟩

theorem IsIn.perform (h : c.IsIn t) (step : Step) : (c.perform step).2.IsIn t := by
  rcases perform_cases h.position_le step with ⟨answer, position, hok, hle⟩ | ⟨e, herror⟩
  · rw [hok]
    exact ⟨h.lines_eq, hle⟩
  · rw [herror]
    exact ⟨h.lines_eq, Nat.le_refl _⟩

def after (c : Cursor) (steps : List Step) : Cursor :=
  steps.foldl (fun c step => (c.perform step).2) c

theorem IsIn.after (h : c.IsIn t) (steps : List Step) : (c.after steps).IsIn t := by
  induction steps generalizing c with
  | nil => exact h
  | cons step steps ih => exact ih (h.perform step)

theorem run_append (c : Cursor) (steps more : List Step) :
    c.run (steps ++ more) = c.run steps ++ (c.after steps).run more := by
  induction steps generalizing c with
  | nil => rfl
  | cons step steps ih => exact congrArg _ (ih _)

/-- What can be said of a cursor over a text whatever it has done before. -/
structure IsConsistent (c : Cursor) (t : Text) : Prop where
  lines_eq : c.lines = t.lines
  position_le : c.position ≤ t.lines.length
  isExhausted_iff : c.isExhausted = true ↔ c.next.1 = none
  /-- A step hands out its lines one after the other, and fails where they end. -/
  perform_eq : ∀ step, c.perform step = c.performByLines step
  /-- A jump does not depend on where the cursor is. -/
  seek_iff : ∀ marker, (c.perform (.seek marker)).1 = .ok .done ↔
    ∃ line ∈ t.lines, line.trim = marker
  seek_first : ∀ before line behind, t.lines = before ++ line :: behind →
    (∀ l ∈ before, l.trim ≠ line.trim) →
    (c.perform (.seek line.trim)).2.position = before.length + 1
  skip_iff : ∀ count, (c.perform (.skip count)).1 = .ok .done ↔
    c.position + count ≤ t.lines.length
  skip_position : ∀ count, (c.perform (.skip count)).1 = .ok .done →
    (c.perform (.skip count)).2.position = c.position + count
  isExhausted_of_error : ∀ step e, (c.perform step).1 = .error e →
    (c.perform step).2.isExhausted = true

theorem isExhausted_iff_next : c.isExhausted = true ↔ c.next.1 = none := by
  have hrest := c.length_remaining
  cases hr : c.remaining with
  | nil =>
    rw [hr, List.length_nil] at hrest
    rw [next_of_remaining_nil hr, isExhausted, decide_eq_true_eq]
    simp only [iff_true]
    omega
  | cons line rest =>
    rw [next_of_remaining_cons hr, isExhausted, decide_eq_true_eq]
    have hlt := position_lt_of_remaining_cons hr
    simp only [reduceCtorEq, iff_false]
    omega

theorem IsIn.isConsistent (h : c.IsIn t) : c.IsConsistent t where
  lines_eq := h.lines_eq
  position_le := h.lines_eq ▸ h.position_le
  isExhausted_iff := isExhausted_iff_next
  perform_eq := perform_eq_performByLines h.position_le
  seek_iff marker := h.lines_eq ▸ perform_seek_eq_ok_iff
  seek_first before line behind hlines hfirst :=
    position_perform_seek (h.lines_eq.trans hlines) hfirst
  skip_iff count := h.lines_eq ▸ perform_skip_eq_ok_iff h.position_le
  skip_position count := position_perform_skip
  isExhausted_of_error step e he := by
    rcases perform_cases h.position_le step with ⟨answer, position, hok, -⟩ | ⟨e', herror⟩
    · rw [hok] at he
      cases he
    · rw [herror]
      exact c.isExhausted_exhaust

/-- In every run over a text, whatever the steps, the cursor is consistent in front of every step
and behind it. -/
theorem run_is_consistent (t : Text) (before behind : List Step) (step : Step) :
    (ofText t).run (before ++ step :: behind) =
      (ofText t).run before ++ ((ofText t).after before).perform step ::
        (((ofText t).after before).perform step).2.run behind ∧
    ((ofText t).after before).IsConsistent t ∧
    (((ofText t).after before).perform step).2.IsConsistent t := by
  have hin : ((ofText t).after before).IsIn t := (isIn_ofText t).after before
  exact ⟨run_append _ before (step :: behind), hin.isConsistent, (hin.perform step).isConsistent⟩

end Runs

end Cursor

end MotionExport
