import Mathlib.Data.List.Induction
import MotionExport.Export.StatementLog
import MotionExport.Proofs.Text.Ending

/-! # The size of the auxiliary array

The first declared name that starts like an element of the auxiliary array has its size. The size
should stand between one opening and one closing bracket, but further openings before it and any
number of closing brackets behind it, even none, are read like these.
-/

namespace MotionExport

section Counts

variable {t : Text} {n : Nat}

structure IsDigits (n : Nat) (t : Text) : Prop where
  ne_nil : t ≠ []
  digits : ∀ c ∈ t, c.isDigit = true
  value : digitsValue t = n

/-- A number below `2^64` in digits, behind at most one plus sign. -/
def IsCount (n : Nat) (t : Text) : Prop :=
  n < Nat.pow 2 64 ∧ ∃ digits, IsDigits n digits ∧ (t = digits ∨ t = '+' :: digits)

theorem natural?_eq_some_iff : natural? t = some n ↔ IsDigits n t := by
  unfold natural?
  constructor
  · intro h
    obtain ⟨⟨hne, hall⟩, hvalue⟩ := Option.ite_none_right_eq_some.mp h
    exact ⟨hne, List.all_eq_true.mp hall, Option.some.inj hvalue⟩
  · rintro ⟨hne, hall, rfl⟩
    exact if_pos ⟨hne, List.all_eq_true.mpr hall⟩

theorem count?_eq_some_iff : count? t = some n ↔ IsCount n t := by
  have hfilter : ∀ s, (natural? s).filter (· < Nat.pow 2 64) = some n ↔
      n < Nat.pow 2 64 ∧ IsDigits n s := by
    intro s
    rw [Option.filter_eq_some_iff, natural?_eq_some_iff, decide_eq_true_eq, and_comm]
  unfold count? IsCount
  split
  · rename_i rest
    rw [hfilter]
    refine and_congr_right fun _ => ⟨fun h => ⟨rest, h, .inr rfl⟩, ?_⟩
    rintro ⟨digits, h, rfl | hsign⟩
    · have hplus := h.digits '+' List.mem_cons_self
      contradiction
    · obtain ⟨-, rfl⟩ := List.cons.inj hsign
      exact h
  · rename_i hsign
    rw [hfilter]
    refine and_congr_right fun _ => ⟨fun h => ⟨t, h, .inl rfl⟩, ?_⟩
    rintro ⟨digits, h, rfl | rfl⟩
    · exact h
    · exact absurd rfl (hsign digits)

theorem IsCount.isDigit_or_plus (h : IsCount n t) :
    t ≠ [] ∧ ∀ c ∈ t, c.isDigit = true ∨ c = '+' := by
  obtain ⟨-, digits, hdigits, rfl | rfl⟩ := h
  · exact ⟨hdigits.ne_nil, fun c hc => .inl (hdigits.digits c hc)⟩
  · refine ⟨List.cons_ne_nil _ _, fun c hc => ?_⟩
    rcases List.mem_cons.mp hc with rfl | hc
    · exact .inr rfl
    · exact .inl (hdigits.digits c hc)

end Counts

namespace Text

variable {c : Char} {t : Text}

theorem exists_dropEndWhile_append (c : Char) (t : Text) :
    ∃ k, t.dropEndWhile (· = c) ++ List.replicate k c = t := by
  induction t using List.reverseRecOn with
  | nil => exact ⟨0, rfl⟩
  | append_singleton t d ih =>
    by_cases hd : d = c
    · obtain ⟨k, hk⟩ := ih
      refine ⟨k + 1, ?_⟩
      have hdrop : dropEndWhile (· = c) (t ++ [d]) = dropEndWhile (· = c) t := by
        simp [dropEndWhile, hd]
      rw [hdrop, List.replicate_succ', ← List.append_assoc, hk, hd]
    · exact ⟨0, by rw [dropEndWhile_concat (by simpa using hd), List.replicate_zero,
        List.append_nil]⟩

theorem dropEndWhile_append_replicate (h : ∀ d ∈ t.getLast?, d ≠ c) (k : Nat) :
    (t ++ List.replicate k c).dropEndWhile (· = c) = t := by
  have hreplicate : (List.replicate k c).dropWhile (fun d => decide (d = c)) = [] :=
    List.dropWhile_eq_nil_iff.mpr fun d hd => by simp [List.eq_of_mem_replicate hd]
  rw [dropEndWhile, List.reverse_append, List.reverse_replicate, List.dropWhile_append, hreplicate]
  rcases List.eq_nil_or_concat' t with rfl | ⟨s, d, rfl⟩
  · rfl
  · have hd : d ≠ c := h d (by simp)
    simp [hd]

end Text

namespace StatementLog

variable {declaration size t rest : Text} {opened closed opened' closed' n n' : Nat}

def openings (k : Nat) : Text := (List.replicate k "z[".toList).flatten

theorem openings_succ (k : Nat) : openings (k + 1) = 'z' :: '[' :: openings k := by
  simp [openings, List.replicate_succ]

theorem exists_openings_append (t : Text) : ∃ k, openings k ++ dropAuxOpenings t = t := by
  fun_induction dropAuxOpenings t with
  | case1 t ih =>
    obtain ⟨k, hk⟩ := ih
    exact ⟨k + 1, by rw [openings_succ, List.cons_append, List.cons_append, hk]⟩
  | case2 t => exact ⟨0, rfl⟩

theorem dropAuxOpenings_openings (h : ∀ c ∈ rest.head?, c ≠ 'z') (k : Nat) :
    dropAuxOpenings (openings k ++ rest) = rest := by
  induction k with
  | zero =>
    cases rest with
    | nil => rfl
    | cons c rest =>
      have hc : c ≠ 'z' := h c rfl
      simp [openings, dropAuxOpenings, hc]
  | succ k ih => rw [openings_succ, List.cons_append, List.cons_append, dropAuxOpenings, ih]

/-- The size stands in the declaration behind so many openings and in front of so many closing
brackets. -/
def Encloses (opened closed n : Nat) (declaration : Text) : Prop :=
  ∃ size, IsCount n size ∧ declaration = openings opened ++ size ++ List.replicate closed ']'

/-- The declaration is the name of the array, an opening bracket, the size and a closing one. -/
def DeclaresSize (n : Nat) (declaration : Text) : Prop :=
  ∃ size, IsCount n size ∧ declaration = "z[".toList ++ size ++ [']']

theorem declaresSize_iff : DeclaresSize n declaration ↔ Encloses 1 1 n declaration := Iff.rfl

/-- The brackets around a size can be told from it. -/
theorem dropAuxOpenings_of_isCount (h : IsCount n size) (opened closed : Nat) :
    dropAuxOpenings (openings opened ++ size ++ List.replicate closed ']') =
        size ++ List.replicate closed ']' ∧
      (size ++ List.replicate closed ']').dropEndWhile (· = ']') = size := by
  obtain ⟨hne, hchars⟩ := h.isDigit_or_plus
  constructor
  · rw [List.append_assoc]
    refine dropAuxOpenings_openings (fun c hc => ?_) opened
    rw [List.head?_append_of_ne_nil _ hne] at hc
    rintro rfl
    have hz := hchars 'z' (List.mem_of_mem_head? hc)
    revert hz
    decide
  · refine Text.dropEndWhile_append_replicate (fun c hc => ?_) closed
    rintro rfl
    have hbracket := hchars ']' (List.mem_of_mem_getLast? hc)
    revert hbracket
    decide

/-- A size is read if and only if it stands behind openings and in front of closing brackets. -/
theorem declaredSize?_eq_some_iff :
    declaredSize? declaration = some n ↔ ∃ opened closed, Encloses opened closed n declaration := by
  unfold declaredSize?
  constructor
  · intro h
    obtain ⟨opened, hopened⟩ := exists_openings_append declaration
    obtain ⟨closed, hclosed⟩ := Text.exists_dropEndWhile_append ']' (dropAuxOpenings declaration)
    exact ⟨opened, closed, _, count?_eq_some_iff.mp h, by rw [List.append_assoc, hclosed, hopened]⟩
  · rintro ⟨opened, closed, size, hsize, rfl⟩
    obtain ⟨hopened, hclosed⟩ := dropAuxOpenings_of_isCount hsize opened closed
    rw [hopened, hclosed]
    exact count?_eq_some_iff.mpr hsize

/-- A declaration has its size between brackets in one way only. -/
theorem Encloses.unique (h : Encloses opened closed n declaration)
    (h' : Encloses opened' closed' n' declaration) : opened = opened' ∧ closed = closed' := by
  obtain ⟨size, hsize, rfl⟩ := h
  obtain ⟨size', hsize', heq⟩ := h'
  obtain ⟨hopened, hclosed⟩ := dropAuxOpenings_of_isCount hsize opened closed
  obtain ⟨hopened', hclosed'⟩ := dropAuxOpenings_of_isCount hsize' opened' closed'
  have htails : size ++ List.replicate closed ']' = size' ++ List.replicate closed' ']' := by
    rw [← hopened, heq, hopened']
  have hsizes : size = size' := by rw [← hclosed, htails, hclosed']
  subst hsizes
  have hlength := congrArg List.length htails
  have hlength' := congrArg List.length heq
  simp [openings] at hlength hlength'
  omega

theorem opened_pos (hstarts : declaration.startsWith "z[".toList = true)
    (h : Encloses opened closed n declaration) : 0 < opened := by
  obtain ⟨size, hsize, rfl⟩ := h
  by_contra hzero
  obtain rfl : opened = 0 := by omega
  obtain ⟨rest, hrest⟩ := List.isPrefixOf_iff_prefix.mp hstarts
  obtain ⟨hne, hchars⟩ := hsize.isDigit_or_plus
  obtain ⟨c, size, rfl⟩ := List.exists_cons_of_ne_nil hne
  obtain ⟨rfl, -⟩ := List.cons.inj hrest
  have hz := hchars 'z' List.mem_cons_self
  revert hz
  decide

def auxDeclaration? (log : StatementLog) : Option Text :=
  log.globals.find? fun name => name.startsWith "z[".toList

variable {log : StatementLog}

theorem auxCount_of_undeclared (h : log.auxDeclaration? = none) : log.auxCount = .ok 0 := by
  unfold auxDeclaration? at h
  simp only [auxCount, h]

theorem declaredSize?_of_declared (h : log.auxDeclaration? = some declaration) :
    declaredSize? declaration = some n ↔
      ∃ opened closed, Encloses (opened + 1) closed n declaration := by
  have hstarts := List.find?_some (p := fun name : Text => name.startsWith "z[".toList) h
  rw [declaredSize?_eq_some_iff]
  constructor
  · rintro ⟨opened, closed, hencloses⟩
    obtain ⟨k, rfl⟩ := Nat.exists_eq_add_one.mpr (opened_pos hstarts hencloses)
    exact ⟨k, closed, hencloses⟩
  · rintro ⟨opened, closed, hencloses⟩
    exact ⟨opened + 1, closed, hencloses⟩

theorem auxCount_of_declared (h : log.auxDeclaration? = some declaration) :
    (∀ n, log.auxCount = .ok n ↔ ∃ opened closed, Encloses (opened + 1) closed n declaration) ∧
      ∀ e, log.auxCount = .error e ↔ e = .unreadableAuxSize declaration ∧
        ¬ ∃ n opened closed, Encloses (opened + 1) closed n declaration := by
  simp only [← declaredSize?_of_declared h]
  unfold auxDeclaration? at h
  cases hsize : declaredSize? declaration with
  | none =>
    have hcount : log.auxCount = .error (.unreadableAuxSize declaration) := by
      simp only [auxCount, h, hsize]
    simp [hcount, eq_comm]
  | some n =>
    have hcount : log.auxCount = .ok n := by
      simp only [auxCount, h, hsize]
    simp [hcount]

/-- The size of the array is zero if no name declares it. Otherwise it is the number that stands in
the first such name behind openings and in front of closing brackets, however many; if there is no
such number, that name is reported. The size is the one that the name declares if and only if the
number stands behind one opening and in front of one bracket. -/
theorem auxCount_by_brackets (log : StatementLog) :
    (∀ n, log.auxCount = .ok n ↔ log.auxDeclaration? = none ∧ n = 0 ∨
      ∃ declaration opened closed, log.auxDeclaration? = some declaration ∧
        Encloses (opened + 1) closed n declaration) ∧
    (∀ e, log.auxCount = .error e ↔ ∃ declaration, log.auxDeclaration? = some declaration ∧
      e = .unreadableAuxSize declaration ∧
        ¬ ∃ n opened closed, Encloses (opened + 1) closed n declaration) ∧
    ∀ n, (log.auxCount = .ok n ↔ log.auxDeclaration? = none ∧ n = 0 ∨
        ∃ declaration, log.auxDeclaration? = some declaration ∧ DeclaresSize n declaration) ↔
      ∀ declaration opened closed, log.auxDeclaration? = some declaration →
        Encloses (opened + 1) closed n declaration → opened = 0 ∧ closed = 1 := by
  cases h : log.auxDeclaration? with
  | none => simp [auxCount_of_undeclared h, eq_comm]
  | some declaration =>
    obtain ⟨hok, herror⟩ := auxCount_of_declared h
    refine ⟨fun n => ?_, fun e => ?_, fun n => ?_⟩
    · simp [hok n]
    · simp [herror e]
    · simp only [hok n, declaresSize_iff]
      constructor
      · rintro hdeclared _ opened closed ⟨⟩ hencloses
        rcases hdeclared.mp ⟨opened, closed, hencloses⟩ with ⟨hnone, -⟩ | ⟨_, ⟨⟩, hone⟩
        · contradiction
        · have hunique := hencloses.unique hone
          omega
      · intro hbrackets
        constructor
        · rintro ⟨opened, closed, hencloses⟩
          obtain ⟨rfl, rfl⟩ := hbrackets declaration opened closed rfl hencloses
          exact .inr ⟨declaration, rfl, hencloses⟩
        · rintro (⟨hnone, -⟩ | ⟨_, ⟨⟩, hone⟩)
          · contradiction
          · exact ⟨0, 1, hone⟩

def nestedLog : StatementLog := { globals := [['g'], "z[z[3]]".toList, "z[5]".toList] }

/-- What stands between the brackets is no number, but a size is read. -/
theorem auxCount_nestedLog :
    nestedLog.auxDeclaration? = some "z[z[3]]".toList ∧
      (∀ n, ¬ DeclaresSize n "z[z[3]]".toList) ∧ nestedLog.auxCount = .ok 3 := by
  refine ⟨by decide, fun n hdeclares => ?_, by decide +kernel⟩
  have hnested : Encloses 2 2 3 "z[z[3]]".toList :=
    ⟨['3'], count?_eq_some_iff.mp (by decide +kernel), rfl⟩
  have hunique := hnested.unique (declaresSize_iff.mp hdeclares)
  omega

end StatementLog

end MotionExport
