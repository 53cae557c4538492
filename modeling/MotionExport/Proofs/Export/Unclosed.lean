import MotionExport.Proofs.Export.LogParts
import MotionExport.Proofs.Export.StatementRange

/-! # What the end of a file leaves open

Declarations are read up to the banner, and the dynamics up to the marker at their end. Without it
they are read up to the end of the file, where a declaration or a statement may be left open.
-/

namespace MotionExport

/-- The first line that opens something which neither it nor a later line closes. -/
def unclosed? (opens closes : Text → Bool) : List Line → Option Line
  | [] => none
  | line :: rest =>
    if opens line.trimmed && (line :: rest).all (!closes ·.trimmed) then some line
    else unclosed? opens closes rest

section Unclosed

variable {opens closes complete : Text → Bool} {text whole : Text} {line last : Line}
  {front rest : List Line}

theorem unclosed?_cons_of_not_opens (h : opens line.trimmed = false) :
    unclosed? opens closes (line :: rest) = unclosed? opens closes rest := by
  simp [unclosed?, h]

theorem unclosed?_append (h : closes last.trimmed = true) :
    unclosed? opens closes (front ++ last :: rest) = unclosed? opens closes rest := by
  induction front with
  | nil => simp [unclosed?, h]
  | cons line front ih => simpa [unclosed?, h] using ih

theorem gather_eq_none_iff (hc : CompletedBy complete closes) (ho : complete text = false) :
    gather complete text (rest.map (·.text)) = none ↔ ∀ l ∈ rest, closes l.trimmed = false := by
  induction rest generalizing text with
  | nil => simp [gather, ho]
  | cons line rest ih =>
    have hadd : complete (text ++ line.text.trim) = closes line.trimmed := hc _ _ ho
    rw [List.forall_mem_cons, List.map_cons, gather, ho, if_neg (by simp), Option.map_eq_none_iff]
    cases hl : closes line.trimmed with
    | true =>
      rw [hl] at hadd
      simp [gather_of_complete hadd]
    | false =>
      rw [hl] at hadd
      simpa using ih hadd

theorem unclosed?_of_gather_eq_none (hc : CompletedBy complete closes)
    (hline : complete text = closes line.trimmed) (ho : opens line.trimmed = true)
    (h : gather complete text (rest.map (·.text)) = none) :
    unclosed? opens closes (line :: rest) = some line := by
  cases hl : closes line.trimmed with
  | true =>
    rw [gather_of_complete (hline.trans hl)] at h
    contradiction
  | false =>
    have hrest := (gather_eq_none_iff hc (hline.trans hl)).mp h
    rw [unclosed?, if_pos]
    simpa [ho, hl] using hrest

theorem unclosed?_of_gather_eq_some {used : Nat} (hc : CompletedBy complete closes)
    (hline : complete text = closes line.trimmed)
    (h : gather complete text (rest.map (·.text)) = some (whole, used)) :
    unclosed? opens closes (line :: rest) = unclosed? opens closes (rest.drop used) := by
  cases hl : closes line.trimmed with
  | true =>
    obtain ⟨-, rfl⟩ : text = whole ∧ 0 = used := by
      simpa using (gather_of_complete (hline.trans hl) _).symm.trans h
    simp [unclosed?, hl]
  | false =>
    obtain ⟨front, last, htake, -, hlast⟩ := lines_of_gather hc h (hline.trans hl)
    have hrest : rest = front ++ [last] ++ rest.drop used := by
      rw [← htake, List.take_append_drop]
    have hsplit : line :: rest = line :: front ++ last :: rest.drop used := by
      simpa using hrest
    rw [hsplit]
    exact unclosed?_append hlast

end Unclosed

def ExportError.ofMissing (m : Marker) : Option Nat → ExportError
  | none => .markerNotFound m.text
  | some number => .unfinishedStatement number

namespace Declarations

variable {lines : List Line}

def opens (line : Text) : Bool := (declaration? line).isSome

/-- A line behind which no declaration goes on. -/
def closes (line : Text) : Bool := line ≠ [] && !line.endsWith ','

theorem completedBy_closes : CompletedBy isComplete closes := by
  intro text line h
  cases line with
  | nil => simpa [closes] using h
  | cons c line => simp [isComplete, closes, Text.endsWith_append_of_ne_nil]

/-- The first line of a declaration completes it or not like any other line of it. -/
theorem isComplete_of_declaration? {line start : Text} (h : declaration? line.trim = some start) :
    isComplete start = closes line.trim := by
  unfold declaration? at h
  split at h
  · rename_i c rest hafter
    have hline : "double".toList ++ c :: rest = line.trim := Text.after?_eq_some_iff.mp hafter
    have hne : line.trim ≠ [] := by
      rw [← hline]
      exact List.append_ne_nil_of_right_ne_nil _ (List.cons_ne_nil c rest)
    split at h
    · obtain rfl := Option.some.inj h
      rw [isComplete, Text.endsWith_trim_of_append_eq_trim hline (List.cons_ne_nil c rest), closes,
        decide_eq_true hne, Bool.true_and]
    · contradiction
  · contradiction

/-- Without the banner, the declarations are read up to the end of the file. -/
theorem globals_eq_error {n : Nat} (hmissing : ∀ l ∈ lines, Marker.main.isOn l.trimmed = false)
    (hn : ∀ l ∈ lines.getLast?, l.number = n) :
    globals lines = .error (.ofMissing .main ((unclosed? opens closes lines).map fun _ => n)) := by
  fun_induction globals lines with
  | case1 => rfl
  | case2 line rest hm =>
    rw [hmissing line List.mem_cons_self] at hm
    contradiction
  | case3 line rest hm hd ih =>
    have hopens : opens line.trimmed = false := by rw [opens, hd, Option.isSome_none]
    rw [unclosed?_cons_of_not_opens hopens]
    refine ih (fun l hl => hmissing l (List.mem_cons_of_mem line hl)) fun l hl => hn l ?_
    have hlast : l ∈ ([line] ++ rest).getLast? := List.mem_getLast?_append_of_mem_getLast? hl
    exact hlast
  | case4 line rest hm start hd hg =>
    have hopens : opens line.trimmed = true := by rw [opens, hd, Option.isSome_some]
    have hg : gather isComplete start (rest.map (·.text)) = none := by simpa using hg
    rw [unclosed?_of_gather_eq_none completedBy_closes (isComplete_of_declaration? hd) hopens hg]
    have hlast : (rest.getLastD line).number = n :=
      hn _ (by rw [List.getLast?_cons, List.getLastD_eq_getLast?]; rfl)
    rw [hg, hlast]
    rfl
  | case5 line rest hm start hd declaration used hg ih =>
    have hg : gather isComplete start (rest.map (·.text)) = some (declaration, used) := by
      simpa using hg
    rw [unclosed?_of_gather_eq_some completedBy_closes (isComplete_of_declaration? hd) hg]
    have hrest := ih
      (fun l hl => hmissing l (List.mem_cons_of_mem line (List.mem_of_mem_drop hl)))
      fun l hl => hn l ?_
    · rw [hg]
      dsimp only
      rw [hrest]
      rfl
    · have hlast : l ∈ ((line :: rest.take used) ++ rest.drop used).getLast? :=
        List.mem_getLast?_append_of_mem_getLast? hl
      rwa [List.cons_append, List.take_append_drop] at hlast

end Declarations

namespace EquationFile

variable {mode : Terminator} {specified : Bool} {lines : List Line}

def opensStatement (line : Text) : Bool := line ≠ [] && !Marker.opensSpecified line

theorem dynamics_eq_error (hmissing : ∀ l ∈ lines, Marker.beforeStep.isOn l.trimmed = false) :
    dynamics mode specified lines = .error
      (.ofMissing .beforeStep ((unclosed? opensStatement endsStatement lines).map (·.number))) := by
  fun_induction dynamics mode specified lines with
  | case1 => rfl
  | case2 _ line rest hm =>
    rw [hmissing line List.mem_cons_self] at hm
    contradiction
  | case3 _ line rest hm hb ih =>
    rw [unclosed?_cons_of_not_opens (by simp [opensStatement, hb])]
    exact ih fun l hl => hmissing l (List.mem_cons_of_mem line hl)
  | case4 _ line rest hm hb ho ih =>
    rw [unclosed?_cons_of_not_opens (by simp [opensStatement, ho])]
    exact ih fun l hl => hmissing l (List.mem_cons_of_mem line hl)
  | case5 specified line rest hm hb ho ih =>
    rw [statementAt]
    cases hg : gatherStatement line.text (rest.map (·.text)) with
    | none =>
      have hopens : opensStatement line.trimmed = true := by simp [opensStatement, hb, ho]
      rw [unclosed?_of_gather_eq_none completedBy_endsStatement rfl hopens hg]
      rfl
    | some p =>
      obtain ⟨statement, used⟩ := p
      rw [unclosed?_of_gather_eq_some completedBy_endsStatement rfl hg]
      have hrest := ih used fun l hl =>
        hmissing l (List.mem_cons_of_mem line (List.mem_of_mem_drop hl))
      dsimp only [bind, Except.bind]
      rw [hrest]

theorem behind_eq_error {m : Marker} (hmissing : ∀ l ∈ lines, m.isOn l.trimmed = false) :
    behind m lines = .error (.markerNotFound m.text) := by
  have hpassed : lines.dropWhile (fun l => !m.isOn l.trimmed) = [] :=
    List.dropWhile_eq_nil_iff.mpr fun l hl => by rw [hmissing l hl, Bool.not_false]
  rw [behind, hpassed]

/-- The lines that the dynamics are read from: they follow the first blank line behind the marker
after a step. -/
def dynamicsBody (lines : List Line) : List Line :=
  match behind .afterStep lines with
  | .ok body => (body.dropWhile (·.trimmed ≠ [])).tail
  | .error _ => []

theorem dynamicsAfterBlank_eq_error {body : List Line} (hbody : behind .afterStep lines = .ok body)
    (hmissing : ∀ l ∈ lines, Marker.beforeStep.isOn l.trimmed = false) :
    dynamicsAfterBlank mode body = .error (.ofMissing .beforeStep
      ((unclosed? opensStatement endsStatement (dynamicsBody lines)).map (·.number))) := by
  obtain ⟨front, line, rfl, -, -⟩ := followsMarker_of_behind hbody
  rw [dynamicsAfterBlank, dynamicsBody, hbody]
  dsimp only
  cases hd : body.dropWhile (·.trimmed ≠ []) with
  | nil => rfl
  | cons blank rest =>
    refine dynamics_eq_error fun l hl => hmissing l ?_
    have hbody : l ∈ body := (List.dropWhile_sublist _).subset (hd ▸ List.mem_cons_of_mem blank hl)
    exact List.mem_append_right front (List.mem_cons_of_mem line hbody)

end EquationFile

end MotionExport
