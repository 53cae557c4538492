import MotionExport.Export.Settings

/-! # Lines and what is gathered from them

Export files wrap statements and declarations over several lines. Gathering joins the trimmed lines
until the text is complete; a statement is complete when it ends in a semicolon.
-/

namespace MotionExport

/-- A line with its place in the file, counted from one. -/
structure Line where
  number : Nat
  text : Text
  deriving DecidableEq

namespace Line

def numbered (first : Nat) : List Text → List Line
  | [] => []
  | t :: ts => ⟨first, t⟩ :: numbered (first + 1) ts

def trimmed (l : Line) : Text := l.text.trim

@[simp] theorem length_numbered (first : Nat) (ts : List Text) :
    (numbered first ts).length = ts.length := by
  induction ts generalizing first with
  | nil => rfl
  | cons t ts ih => simp [numbered, ih]

@[simp] theorem map_text_numbered (first : Nat) (ts : List Text) :
    (numbered first ts).map (·.text) = ts := by
  induction ts generalizing first with
  | nil => rfl
  | cons t ts ih => simp [numbered, ih]

theorem text_mem_of_mem_numbered {first : Nat} {ts : List Text} {l : Line}
    (h : l ∈ numbered first ts) : l.text ∈ ts :=
  map_text_numbered first ts ▸ List.mem_map_of_mem h

theorem numbered_append (first : Nat) (ts us : List Text) :
    numbered first (ts ++ us) = numbered first ts ++ numbered (first + ts.length) us := by
  induction ts generalizing first with
  | nil => rfl
  | cons t ts ih => simp [numbered, ih, Nat.add_comm, Nat.add_left_comm]

theorem drop_numbered (first n : Nat) (ts : List Text) :
    (numbered first ts).drop n = numbered (first + n) (ts.drop n) := by
  induction n generalizing first ts with
  | zero => rfl
  | succ n ih =>
    cases ts with
    | nil => rfl
    | cons t ts => simp [numbered, ih, Nat.add_comm, Nat.add_left_comm]

theorem le_number_of_mem_numbered {first : Nat} {ts : List Text} {l : Line}
    (h : l ∈ numbered first ts) : first ≤ l.number := by
  induction ts generalizing first with
  | nil => simp [numbered] at h
  | cons t ts ih =>
    rcases List.mem_cons.mp h with rfl | h
    · exact Nat.le_refl first
    · exact Nat.le_of_succ_le (ih h)

theorem pairwise_number_numbered (first : Nat) (ts : List Text) :
    (numbered first ts).Pairwise (·.number < ·.number) := by
  induction ts generalizing first with
  | nil => exact .nil
  | cons t ts ih => exact .cons (fun _ h => le_number_of_mem_numbered h) (ih (first + 1))

end Line

/-- Appends trimmed lines to `text` until it is complete. The result is the complete text and the
number of lines it took; none if the lines run out. -/
def gather (complete : Text → Bool) (text : Text) : List Text → Option (Text × Nat)
  | [] => if complete text then some (text, 0) else none
  | line :: rest =>
    if complete text then some (text, 0)
    else (gather complete (text ++ line.trim) rest).map fun (whole, used) => (whole, used + 1)

theorem gather_of_complete {complete : Text → Bool} {text : Text} (h : complete text = true)
    (rest : List Text) : gather complete text rest = some (text, 0) := by
  cases rest <;> simp [gather, h]

theorem complete_of_gather {complete : Text → Bool} {text whole : Text} {rest : List Text}
    {used : Nat} (h : gather complete text rest = some (whole, used)) : complete whole = true := by
  induction rest generalizing text used with
  | nil =>
    obtain ⟨hc, rfl, -⟩ : complete text ∧ text = whole ∧ 0 = used := by simpa [gather] using h
    exact hc
  | cons line rest ih =>
    simp only [gather] at h
    split at h
    · simp_all
    · obtain ⟨⟨w, n⟩, hg, he⟩ := Option.map_eq_some_iff.mp h
      obtain ⟨rfl, -⟩ : w = whole ∧ n + 1 = used := by simpa using he
      exact ih hg

/-- What is gathered is the start followed by the trimmed lines that were used. -/
theorem eq_of_gather {complete : Text → Bool} {text whole : Text} {rest : List Text} {used : Nat}
    (h : gather complete text rest = some (whole, used)) :
    whole = text ++ (rest.take used).flatMap Text.trim ∧ used ≤ rest.length := by
  induction rest generalizing text used with
  | nil =>
    obtain ⟨-, rfl, rfl⟩ : complete text ∧ text = whole ∧ 0 = used := by simpa [gather] using h
    simp
  | cons line rest ih =>
    simp only [gather] at h
    split at h
    · obtain ⟨rfl, rfl⟩ : text = whole ∧ 0 = used := by simpa using h
      simp
    · obtain ⟨⟨w, n⟩, hg, he⟩ := Option.map_eq_some_iff.mp h
      obtain ⟨rfl, rfl⟩ : w = whole ∧ n + 1 = used := by simpa using he
      obtain ⟨hw, hn⟩ := ih hg
      simp [hw, hn]

def endsStatement (t : Text) : Bool := t.endsWith ';'

def gatherStatement (seed : Text) (rest : List Text) : Option (Text × Nat) :=
  gather endsStatement seed.trim rest

end MotionExport
