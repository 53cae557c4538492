import MotionExport.Proofs.Export.Unclosed
import MotionExport.Proofs.Text.Pieces

/-! # Declared names

A declared name is kept, unless it is a built-in one at the start of its declaration, or the last of
what remains and counts as the encoding array. Every name that starts like the one of that array
counts as it, so a declaration may lose a name that is not an entry of the array.
-/

namespace MotionExport

namespace Declarations

section Lines

variable {line : Line} {continued rest : List Line} {text whole : Text} {used : Nat}

/-- The lines of one declaration: it goes on up to the first of them that closes it. -/
def onlyLastCloses : List Line → Bool
  | [] => false
  | [line] => closes line.trimmed
  | line :: rest => !closes line.trimmed && onlyLastCloses rest

theorem onlyLastCloses_cons {next : Line} : onlyLastCloses (line :: next :: rest) = true ↔
    closes line.trimmed = false ∧ onlyLastCloses (next :: rest) = true := by
  simp [onlyLastCloses]

inductive Declared : List Line → List Text → Prop
  | banner {line : Line} {rest : List Line} : Marker.main.isOn line.trimmed = true →
      Declared (line :: rest) []
  | other {line : Line} {rest : List Line} {declared : List Text} :
      Marker.main.isOn line.trimmed = false → declaration? line.trimmed = none →
        Declared rest declared → Declared (line :: rest) declared
  | declaration {line : Line} {continued rest : List Line} {start : Text} {declared : List Text} :
      Marker.main.isOn line.trimmed = false → declaration? line.trimmed = some start →
        onlyLastCloses (line :: continued) = true → Declared rest declared →
          Declared (line :: (continued ++ rest))
            ((start ++ continued.flatMap Line.trimmed) :: declared)

theorem gather_of_onlyLastCloses (hline : isComplete text = closes line.trimmed)
    (h : onlyLastCloses (line :: continued) = true) (rest : List Line) :
    gather isComplete text ((continued ++ rest).map (·.text)) =
      some (text ++ continued.flatMap Line.trimmed, continued.length) := by
  induction continued generalizing line text with
  | nil =>
    rw [gather_of_complete (hline.trans h)]
    simp
  | cons next continued ih =>
    obtain ⟨hopen, hnext⟩ := onlyLastCloses_cons.mp h
    have ho : isComplete text = false := hline.trans hopen
    have hadd : isComplete (text ++ next.trimmed) = closes next.trimmed :=
      completedBy_closes _ _ ho
    rw [List.cons_append, List.map_cons, gather, if_neg (by simp [ho])]
    show (gather isComplete (text ++ next.trimmed) ((continued ++ rest).map (·.text))).map _ = _
    rw [ih hadd hnext]
    simp

theorem exists_continued_of_gather (hline : isComplete text = closes line.trimmed)
    (h : gather isComplete text (rest.map (·.text)) = some (whole, used)) :
    ∃ continued, onlyLastCloses (line :: continued) = true ∧
      rest = continued ++ rest.drop used := by
  induction rest generalizing line text used with
  | nil =>
    obtain ⟨hc, -, -⟩ : isComplete text = true ∧ text = whole ∧ 0 = used := by
      simpa [gather] using h
    exact ⟨[], hline.symm.trans hc, List.drop_nil.symm⟩
  | cons next rest ih =>
    cases hl : closes line.trimmed with
    | true =>
      obtain ⟨-, rfl⟩ : text = whole ∧ 0 = used := by
        simpa using (gather_of_complete (hline.trans hl) _).symm.trans h
      exact ⟨[], hl, rfl⟩
    | false =>
      have ho : isComplete text = false := hline.trans hl
      rw [List.map_cons, gather, if_neg (by simp [ho])] at h
      obtain ⟨⟨w, n⟩, hg, he⟩ := Option.map_eq_some_iff.mp h
      obtain ⟨rfl, rfl⟩ : w = whole ∧ n + 1 = used := by simpa using he
      obtain ⟨continued, hcloses, hrest⟩ := ih (completedBy_closes _ _ ho) hg
      refine ⟨next :: continued, onlyLastCloses_cons.mpr ⟨hl, hcloses⟩, ?_⟩
      rw [List.drop_succ_cons, List.cons_append, ← hrest]

theorem globals_cons_of_onlyLastCloses {start : Text}
    (hm : Marker.main.isOn line.trimmed = false) (hd : declaration? line.trimmed = some start)
    (h : onlyLastCloses (line :: continued) = true) (rest : List Line) :
    globals (line :: (continued ++ rest)) = (globals rest).map
      (namesOf (start ++ continued.flatMap Line.trimmed) ++ ·) := by
  have hgather := gather_of_onlyLastCloses (isComplete_of_declaration? hd) h rest
  rw [globals, if_neg (by simp [hm]), hd]
  simp only [hgather, List.drop_left]
  rfl

/-- What is declared is read, and nothing else. -/
theorem globals_of_declared {lines : List Line} {declared : List Text}
    (h : Declared lines declared) : globals lines = .ok (declared.flatMap namesOf) := by
  induction h with
  | banner hm => rw [globals, if_pos hm, List.flatMap_nil]
  | other hm hd _ ih => rw [globals, if_neg (by simp [hm]), hd, ih]
  | @declaration line continued rest start declared hm hd hcloses _ ih =>
    rw [globals_cons_of_onlyLastCloses hm hd hcloses rest, ih]
    rfl

theorem exists_declared_of_globals {lines : List Line} {names : List Text}
    (h : globals lines = .ok names) : ∃ declared, Declared lines declared := by
  fun_induction globals lines generalizing names with
  | case1 => contradiction
  | case2 line rest hm => exact ⟨[], .banner hm⟩
  | case3 line rest hm hd ih =>
    obtain ⟨declared, hrest⟩ := ih h
    exact ⟨declared, .other (Bool.eq_false_iff.mpr hm) hd hrest⟩
  | case4 line rest hm start hd hg =>
    have hg : gather isComplete start (rest.map (·.text)) = none := by simpa using hg
    rw [hg] at h
    contradiction
  | case5 line rest hm start hd declaration used hg ih =>
    have hg : gather isComplete start (rest.map (·.text)) = some (declaration, used) := by
      simpa using hg
    rw [hg] at h
    obtain ⟨later, hlater, -⟩ := bind_eq_ok_iff.mp h
    obtain ⟨declared, hdeclared⟩ := ih hlater
    obtain ⟨continued, hcloses, hrest⟩ :=
      exists_continued_of_gather (isComplete_of_declaration? hd) hg
    rw [hrest]
    exact ⟨_, .declaration (Bool.eq_false_iff.mpr hm) hd hcloses hdeclared⟩

end Lines

section Names

variable {declaration : Text} {names : List Text} {p q : Text → Bool}

/-- The declaration lists the names: commas stand between them, blanks may stand around them, and a
semicolon ends the last. -/
def Lists (declaration : Text) (names : List Text) : Prop :=
  ∃ pieces : List Text, declaration = [','].intercalate pieces ++ [';'] ∧
    pieces.map Text.trim = names ∧ ∀ piece ∈ pieces, piece.trim ≠ [] ∧ ',' ∉ piece ∧ ';' ∉ piece

def ownNames (names : List Text) : List Text :=
  names.dropWhile fun name => builtinNames.contains name

/-- The own names of a declaration, without the last one if `p` says so. -/
def keptNames (p : Text → Bool) (names : List Text) : List Text :=
  if (ownNames names).getLast?.any p then (ownNames names).dropLast else ownNames names

/-- An entry of the form `Encode[...]`. -/
def isEncoding (name : Text) : Bool := name.startsWith "Encode[".toList && name.endsWith ']'

def resemblesEncoding (name : Text) : Bool := name.startsWith "Encode".toList

theorem resemblesEncoding_of_isEncoding {name : Text} (h : isEncoding name = true) :
    resemblesEncoding name = true := by
  obtain ⟨hstarts, -⟩ := Bool.and_eq_true_iff.mp h
  obtain ⟨rest, rfl⟩ := List.isPrefixOf_iff_prefix.mp hstarts
  exact List.isPrefixOf_iff_prefix.mpr ⟨'[' :: rest, rfl⟩

theorem dropEndWhile_semicolon {t : Text} (h : ';' ∉ t) :
    (t ++ [';']).dropEndWhile (· = ';') = t := by
  rcases List.eq_nil_or_concat' t with rfl | ⟨s, c, rfl⟩
  · rfl
  · have hc : c ≠ ';' := by
      rintro rfl
      exact h (by simp)
    simp [Text.dropEndWhile, hc]

theorem namesOf_eq (declaration : Text) : namesOf declaration = keptNames resemblesEncoding
    ((((declaration.dropEndWhile (· = ';')).splitOn ',').map Text.trim).filter (· ≠ [])) := by
  unfold namesOf keptNames ownNames
  dsimp only
  split
  · rename_i last hlast
    rw [hlast]
    rfl
  · rename_i hnone
    rw [hnone]
    rfl

theorem namesOf_of_lists (h : Lists declaration names) :
    namesOf declaration = keptNames resemblesEncoding names := by
  obtain ⟨pieces, rfl, rfl, hpieces⟩ := h
  have hsemicolon : ';' ∉ [','].intercalate pieces :=
    Text.not_mem_intercalate (by decide) fun piece hmem => (hpieces piece hmem).2.2
  have hnames : ((([','].intercalate pieces).splitOn ',').map Text.trim).filter (· ≠ []) =
      pieces.map Text.trim := by
    rcases pieces with _ | ⟨piece, pieces⟩
    · rfl
    · rw [List.splitOn_intercalate ',' (fun piece hmem => (hpieces piece hmem).2.1)
        (List.cons_ne_nil _ _), List.filter_eq_self]
      simpa using fun piece hmem => (hpieces piece hmem).1
  rw [namesOf_eq, dropEndWhile_semicolon hsemicolon, hnames]

theorem keptNames_concat {own : List Text} {last : Text} (p : Text → Bool)
    (h : ownNames names = own ++ [last]) :
    keptNames p names = if p last then own else own ++ [last] := by
  rw [keptNames, h, List.getLast?_concat, List.dropLast_concat]
  rfl

theorem keptNames_nil (p : Text → Bool) (h : ownNames names = []) : keptNames p names = [] := by
  rw [keptNames, h]
  rfl

theorem keptNames_sublist (h : ∀ name, q name = true → p name = true) (names : List Text) :
    (keptNames p names).Sublist (keptNames q names) := by
  rcases List.eq_nil_or_concat' (ownNames names) with hown | ⟨own, last, hown⟩
  · rw [keptNames_nil p hown]
    exact List.nil_sublist _
  · rw [keptNames_concat p hown, keptNames_concat q hown]
    cases hq : q last with
    | true => simp only [h last hq, if_true, List.Sublist.refl]
    | false =>
      split
      · exact List.sublist_append_left own [last]
      · exact List.Sublist.refl _

/-- Names are kept by the one rule and dropped by the other only at the end of a declaration. -/
theorem keptNames_eq_iff (h : ∀ name, q name = true → p name = true) (names : List Text) :
    keptNames p names = keptNames q names ↔
      ∀ last ∈ (ownNames names).getLast?, p last = true → q last = true := by
  rcases List.eq_nil_or_concat' (ownNames names) with hown | ⟨own, last, hown⟩
  · rw [keptNames_nil p hown, keptNames_nil q hown, hown]
    simp
  · rw [keptNames_concat p hown, keptNames_concat q hown, hown, List.getLast?_concat]
    cases hq : q last with
    | true => simp [h last hq, hq]
    | false =>
      cases hp : p last with
      | true => simp [hp, hq]
      | false => simp [hp]

/-- All names that are declared in front of the main banner are kept, in order, without the built-in
ones at the start of each declaration and without the last of what remains if its name starts like
the one of the encoding array. These are the names that should be kept if and only if no declaration
ends with another name that starts like that one. -/
theorem globals_keeps_names {lines : List Line} {kept : List Text}
    (h : globals lines = .ok kept) : (∃ declared, Declared lines declared) ∧
      ∀ declared names, Declared lines declared → List.Forall₂ Lists declared names →
        kept = names.flatMap (keptNames resemblesEncoding) ∧
          (kept = names.flatMap (keptNames isEncoding) ↔
            ∀ listed ∈ names, ∀ last ∈ (ownNames listed).getLast?,
              resemblesEncoding last = true → isEncoding last = true) := by
  refine ⟨exists_declared_of_globals h, fun declared names hdeclared hnames => ?_⟩
  have hread : declared.flatMap namesOf = names.flatMap (keptNames resemblesEncoding) := by
    clear hdeclared
    induction hnames with
    | nil => rfl
    | cons hlists _ ih => rw [List.flatMap_cons, List.flatMap_cons, namesOf_of_lists hlists, ih]
  have hkept : kept = names.flatMap (keptNames resemblesEncoding) :=
    (Except.ok.inj (h.symm.trans (globals_of_declared hdeclared))).trans hread
  refine ⟨hkept, ?_⟩
  rw [hkept, Text.flatMap_eq_flatMap_iff fun listed _ =>
    keptNames_sublist (fun _ => resemblesEncoding_of_isEncoding) listed]
  exact forall₂_congr fun listed _ =>
    keptNames_eq_iff (fun _ => resemblesEncoding_of_isEncoding) listed

def wrappedDeclaration : List Line :=
  Line.numbered 1 ["double Pi,DEGtoRAD,".toList, "  z[18], g ,Encode[2];".toList, "int i;".toList,
    "/* ** MAIN ** */".toList]

def joinedDeclaration : Text := "Pi,DEGtoRAD,z[18], g ,Encode[2];".toList

theorem globals_wrappedDeclaration :
    globals wrappedDeclaration = .ok ["z[18]".toList, ['g']] ∧
      Declared wrappedDeclaration [joinedDeclaration] ∧
      List.Forall₂ Lists [joinedDeclaration]
        [["Pi".toList, "DEGtoRAD".toList, "z[18]".toList, ['g'], "Encode[2]".toList]] ∧
      ["z[18]".toList, ['g']] = [["Pi".toList, "DEGtoRAD".toList, "z[18]".toList, ['g'],
        "Encode[2]".toList]].flatMap (keptNames isEncoding) := by
  have hglobals : globals wrappedDeclaration = .ok ["z[18]".toList, ['g']] := by decide +kernel
  have hstart : declaration? (Text.trim "double Pi,DEGtoRAD,".toList) =
      some "Pi,DEGtoRAD,".toList := by decide +kernel
  have hdeclared : Declared wrappedDeclaration [joinedDeclaration] :=
    @Declared.declaration ⟨1, _⟩ [⟨2, _⟩] _ _ _ (by decide +kernel) hstart (by decide +kernel)
      (.other (by decide +kernel) (by decide +kernel) (.banner (by decide +kernel)))
  have hlists : List.Forall₂ Lists [joinedDeclaration]
      [["Pi".toList, "DEGtoRAD".toList, "z[18]".toList, ['g'], "Encode[2]".toList]] :=
    .cons ⟨["Pi".toList, "DEGtoRAD".toList, "z[18]".toList, " g ".toList, "Encode[2]".toList],
      by decide +kernel, by decide +kernel, by decide +kernel⟩ .nil
  refine ⟨hglobals, hdeclared, hlists, ?_⟩
  refine ((globals_keeps_names hglobals).2 _ _ hdeclared hlists).2.mpr ?_
  decide +kernel

/-- A declaration that ends in a variable with a name like that of the encoding array. -/
def encoderDeclaration : List Line :=
  Line.numbered 1 ["double z[3],g,Encoder;".toList, "/* 0 MAIN 0 */".toList]

/-- The last variable is lost, although it is no entry of the encoding array. -/
theorem globals_encoderDeclaration :
    globals encoderDeclaration = .ok ["z[3]".toList, ['g']] ∧
      Declared encoderDeclaration ["z[3],g,Encoder;".toList] ∧
      List.Forall₂ Lists ["z[3],g,Encoder;".toList]
        [["z[3]".toList, ['g'], "Encoder".toList]] ∧
      [["z[3]".toList, ['g'], "Encoder".toList]].flatMap (keptNames isEncoding) =
        ["z[3]".toList, ['g'], "Encoder".toList] := by
  have hstart : declaration? (Text.trim "double z[3],g,Encoder;".toList) =
      some "z[3],g,Encoder;".toList := by decide +kernel
  refine ⟨by decide +kernel, ?_, ?_, by decide +kernel⟩
  · exact @Declared.declaration ⟨1, _⟩ [] _ _ _ (by decide +kernel) hstart (by decide +kernel)
      (.banner (by decide +kernel))
  · exact .cons ⟨["z[3]".toList, ['g'], "Encoder".toList], by decide +kernel, by decide +kernel,
      by decide +kernel⟩ .nil

end Names

end Declarations

end MotionExport
