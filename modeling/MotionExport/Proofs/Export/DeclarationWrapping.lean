import MotionExport.Proofs.Export.DeclaredNames
import MotionExport.Proofs.Export.Rewrapping
import MotionExport.Proofs.Export.UnfinishedPlace

/-! # How declarations are wrapped

A declaration goes on in the next line behind a comma. The same names are declared wherever its
lines end, whatever blanks stand around the names, and however many blank lines stand in between.
-/

namespace MotionExport

namespace Declarations

section Cutting

variable {s t : Text}

def cutNames (declaration : Text) : List Text :=
  ((declaration.dropEndWhile (· = ';')).splitOn ',').map Text.trim

theorem cutNames_of_not_mem (h : ',' ∉ t) :
    cutNames t = [(t.dropEndWhile (· = ';')).trim] := by
  have hkept : ',' ∉ t.dropEndWhile (· = ';') := by
    intro hmem
    exact h (List.mem_reverse.mp ((List.dropWhile_sublist _).subset (List.mem_reverse.mp hmem)))
  rw [cutNames, List.splitOn_eq_singleton hkept, List.map_singleton]

theorem cutNames_append_cons (h : ',' ∉ s) (t : Text) :
    cutNames (s ++ ',' :: t) = s.trim :: cutNames t := by
  have hdrop : (s ++ ',' :: t).dropEndWhile (· = ';') = s ++ ',' :: t.dropEndWhile (· = ';') := by
    have hlast := Text.dropEndWhile_append (p := (· = ';')) (s := s ++ [',']) (by simp) t
    simpa using hlast
  rw [cutNames, hdrop, List.splitOn_append_cons_self_of_not_mem h, List.map_cons, cutNames]

theorem cutNames_append_of_blank (hs : ∀ c ∈ s, isBlank c = true) (t : Text) :
    cutNames (s ++ t) = cutNames t := by
  have hdrop : (s ++ t).dropEndWhile (· = ';') = s ++ t.dropEndWhile (· = ';') := by
    apply Text.dropEndWhile_append
    intro c hc
    have hblank := hs c (List.mem_of_getLast? hc)
    by_contra hsemicolon
    obtain rfl : c = ';' := by simpa using hsemicolon
    contradiction
  rw [cutNames, hdrop, cutNames]
  generalize t.dropEndWhile (· = ';') = kept
  clear hdrop
  induction s with
  | nil => rfl
  | cons c s ih =>
    obtain ⟨hc, hs⟩ := List.forall_mem_cons.mp hs
    have hcomma : (c == ',') = false := by
      rw [beq_eq_false_iff_ne]
      rintro rfl
      contradiction
    rw [← ih hs, List.cons_append, List.splitOn_cons_eq_if_modifyHead, hcomma]
    cases (s ++ kept).splitOn ',' with
    | nil => rfl
    | cons piece pieces => simp [Text.trim_cons_blank hc]

end Cutting

section Layout

/-- The pieces of a declaration stand on the lines with commas between them. Behind a comma the line
may end, and blank lines may follow. -/
inductive StandOn : List Text → List Text → Prop where

  | last {piece : Text} (h : ',' ∉ piece) (hne : piece.trim ≠ []) : StandOn [piece] [piece]

  | comma {piece line : Text} {pieces lines : List Text} (h : ',' ∉ piece)
    (rest : StandOn pieces (line :: lines)) :
    StandOn (piece :: pieces) ((piece ++ ',' :: line) :: lines)

  | wrapped {piece after : Text} {pieces blanks lines : List Text} (h : ',' ∉ piece)
    (hafter : ∀ c ∈ after, isBlank c = true) (hblanks : ∀ l ∈ blanks, l.trim = [])
    (rest : StandOn pieces lines) :
    StandOn (piece :: pieces) ((piece ++ ',' :: after) :: (blanks ++ lines))

inductive Declares (pieces : List Text) : List Text → Prop where

  | intro {indent line : Text} {lines : List Text} (hindent : ∀ c ∈ indent, isBlank c = true)
    (hline : line.head?.any isBlank = true) (rest : StandOn pieces (line :: lines)) :
    Declares pieces ((indent ++ "double".toList ++ line) :: lines)

/-- The names that the pieces of a declaration hold. Semicolons stand behind the last one. -/
def pieceNames : List Text → List Text
  | [] => []
  | [last] => [(last.trim.dropEndWhile (· = ';')).trim]
  | piece :: pieces => piece.trim :: pieceNames pieces

theorem pieceNames_cons {piece : Text} {pieces : List Text} (h : pieces ≠ []) :
    pieceNames (piece :: pieces) = piece.trim :: pieceNames pieces := by
  cases pieces with
  | nil => contradiction
  | cons => rfl

variable {piece line : Text} {pieces lines back : List Text}

theorem StandOn.ne_nil (h : StandOn pieces lines) : pieces ≠ [] := by
  cases h <;> simp

theorem isBlank_comma : isBlank ',' = false := by decide

theorem exists_trim_append_comma (piece line : Text) : ∃ before : Text,
    (∀ c ∈ before, isBlank c = true) ∧
      (piece ++ ',' :: line).trim = piece.trimStart ++ ',' :: (before ++ line.trim) := by
  obtain ⟨before, hbefore, hend⟩ := Text.exists_trimEnd_eq_append line
  exact ⟨before, hbefore, by rw [Text.trim_append_cons isBlank_comma, hend]⟩

theorem trim_append_comma {after : Text} (h : ∀ c ∈ after, isBlank c = true) (piece : Text) :
    (piece ++ ',' :: after).trim = piece.trimStart ++ [','] := by
  rw [Text.trim_append_cons isBlank_comma, Text.trimEnd_of_blank h]

theorem not_mem_trimStart (h : ',' ∉ piece) : ',' ∉ piece.trimStart :=
  fun hmem => h ((List.dropWhile_suffix isBlank).subset hmem)

theorem flatMap_trim_of_blank {blanks : List Text} (h : ∀ l ∈ blanks, l.trim = []) :
    blanks.flatMap Text.trim = [] :=
  List.flatMap_eq_nil_iff.mpr h

/-- The names of the pieces are cut from the lines, wherever these end. -/
theorem StandOn.cutNames_eq (h : StandOn pieces lines) :
    cutNames (lines.flatMap Text.trim) = pieceNames pieces := by
  induction h with
  | @last piece hp _ =>
    have htrim : ',' ∉ piece.trim := fun hmem => hp (Text.mem_of_mem_trim hmem)
    simp [cutNames_of_not_mem htrim, pieceNames]
  | @comma piece line pieces lines hp rest ih =>
    obtain ⟨before, hbefore, htrim⟩ := exists_trim_append_comma piece line
    have hjoined : (((piece ++ ',' :: line) :: lines).flatMap Text.trim) =
        piece.trimStart ++ ',' :: (before ++ (line :: lines).flatMap Text.trim) := by
      simp [htrim]
    rw [hjoined, cutNames_append_cons (not_mem_trimStart hp), Text.trim_trimStart,
      cutNames_append_of_blank hbefore, ih, pieceNames_cons rest.ne_nil]
  | @wrapped piece after pieces blanks lines hp hafter hblanks rest ih =>
    have hjoined : (((piece ++ ',' :: after) :: (blanks ++ lines)).flatMap Text.trim) =
        piece.trimStart ++ ',' :: lines.flatMap Text.trim := by
      simp [trim_append_comma hafter, flatMap_trim_of_blank hblanks]
    rw [hjoined, cutNames_append_cons (not_mem_trimStart hp), Text.trim_trimStart, ih,
      pieceNames_cons rest.ne_nil]

theorem gather_of_blank {complete : Text → Bool} {text : Text} {blanks : List Text}
    (ho : complete text = false) (h : ∀ l ∈ blanks, l.trim = []) (rest : List Text) :
    gather complete text (blanks ++ rest) =
      (gather complete text rest).map fun p => (p.1, p.2 + blanks.length) := by
  induction blanks with
  | nil => simp
  | cons l blanks ih =>
    obtain ⟨hl, hblanks⟩ := List.forall_mem_cons.mp h
    rw [List.cons_append, gather, if_neg (by simp [ho]), hl, List.append_nil, ih hblanks]
    simp [Function.comp_def, Nat.add_assoc]

theorem isComplete_append_piece (hp : ',' ∉ piece) (hne : piece.trim ≠ []) (start : Text) :
    isComplete (start ++ piece.trim) = true := by
  unfold isComplete
  rw [Text.endsWith_append_of_ne_nil hne, Bool.not_eq_true', Bool.eq_false_iff]
  intro hcomma
  obtain ⟨s, hs⟩ := Text.endsWith_iff.mp hcomma
  exact hp (Text.mem_of_mem_trim (hs ▸ List.mem_concat_self))

theorem StandOn.exists_cons (h : StandOn pieces lines) :
    ∃ line rest, lines = line :: rest ∧ line.trim ≠ [] := by
  have hcomma : ∀ s t : Text, (s ++ ',' :: t).trim ≠ [] := fun s t =>
    List.ne_nil_of_mem (Text.mem_trim (List.mem_append_right s List.mem_cons_self) isBlank_comma)
  cases h with
  | last _ hne => exact ⟨_, _, rfl, hne⟩
  | comma => exact ⟨_, _, rfl, hcomma _ _⟩
  | wrapped => exact ⟨_, _, rfl, hcomma _ _⟩

theorem StandOn.gather_eq (h : StandOn pieces (line :: lines)) (start : Text) (back : List Text) :
    gather isComplete (start ++ line.trim) (lines ++ back) =
      some (start ++ (line :: lines).flatMap Text.trim, lines.length) := by
  generalize hall : line :: lines = all at h
  induction h generalizing line lines start with
  | @last piece hp hne =>
    obtain ⟨rfl, rfl⟩ := List.cons.inj hall
    rw [gather_of_complete (isComplete_append_piece hp hne start)]
    simp
  | @comma piece next pieces rest hp _ ih =>
    obtain ⟨rfl, rfl⟩ := List.cons.inj hall
    obtain ⟨before, -, htrim⟩ := exists_trim_append_comma piece next
    have hstart : start ++ (piece ++ ',' :: next).trim =
        (start ++ piece.trimStart ++ ',' :: before) ++ next.trim := by
      simp [htrim]
    rw [hstart, ih _ rfl]
    simp [htrim]
  | @wrapped piece after pieces blanks rest hp hafter hblanks hrest ih =>
    obtain ⟨rfl, rfl⟩ := List.cons.inj hall
    obtain ⟨next, more, rfl, -⟩ := hrest.exists_cons
    have hstart : start ++ (piece ++ ',' :: after).trim = (start ++ piece.trimStart) ++ [','] := by
      simp [trim_append_comma hafter]
    have hopen : isComplete ((start ++ piece.trimStart) ++ [',']) = false := by
      rw [isComplete, Text.endsWith_concat, Bool.not_true]
    have hnext : gather isComplete ((start ++ piece.trimStart) ++ [',']) (next :: (more ++ back)) =
        some ((start ++ piece.trimStart) ++ [','] ++ (next :: more).flatMap Text.trim,
          more.length + 1) := by
      rw [gather, hopen, if_neg Bool.false_ne_true, ih _ rfl]
      rfl
    rw [hstart, List.append_assoc blanks, gather_of_blank hopen hblanks, List.cons_append, hnext]
    simp [trim_append_comma hafter, flatMap_trim_of_blank hblanks]
    omega

end Layout

section Reading

variable {pieces pieces' d d' : List Text} {text : Text}

theorem isMainBanner_cons {c : Char} (hc : isBlank c = false) (hslash : c ≠ '/') (t : Text) :
    Marker.main.isOn (c :: t) = false := by
  obtain ⟨w, ws, hwords⟩ := Text.exists_words_cons hc t
  unfold Marker.isOn Marker.isMainBanner
  dsimp only
  rw [hwords]
  split
  · rename_i hfirst
    obtain ⟨rfl, -⟩ := List.cons.inj hfirst
    simp [hslash]
  · rfl

theorem declaration?_append {line : Text} (hline : line.head?.any isBlank = true)
    (hne : line.trim ≠ []) : declaration? ("double".toList ++ line.trimEnd) = some line.trim := by
  obtain ⟨dropped, hdropped⟩ := Text.trimEnd_prefix_self line
  have htrim := Text.trim_trimEnd line
  cases hend : line.trimEnd with
  | nil =>
    rw [hend] at htrim
    exact absurd htrim.symm hne
  | cons c t =>
    have hc : isBlank c = true := by
      rw [← hdropped, hend] at hline
      simpa using hline
    have hafter : Text.after? "double".toList ("double".toList ++ c :: t) = some (c :: t) :=
      Text.after?_eq_some_iff.mpr rfl
    unfold declaration?
    rw [hafter, ← htrim, hend]
    exact if_pos hc

theorem Declares.exists_cons (h : Declares pieces d) : ∃ text line lines, d = text :: lines ∧
    StandOn pieces (line :: lines) ∧ Marker.main.isOn text.trim = false ∧
      declaration? text.trim = some line.trim := by
  obtain @⟨indent, line, lines, hindent, hline, rest⟩ := h
  have htrim : (indent ++ "double".toList ++ line).trim = "double".toList ++ line.trimEnd := by
    rw [List.append_assoc, Text.trim_append_left hindent]
    exact Text.trim_append_cons (s := "doubl".toList) (c := 'e') (by decide) line
  obtain ⟨_, _, hfirst, hne⟩ := rest.exists_cons
  obtain ⟨rfl, -⟩ := List.cons.inj hfirst
  refine ⟨_, line, lines, rfl, rest, ?_⟩
  rw [htrim]
  constructor
  · exact isMainBanner_cons (by decide) (by decide) _
  · exact declaration?_append hline hne

/-- The names of a declaration, and those behind it, whatever its lines are. -/
theorem Declares.globals_eq (h : Declares pieces d) (n : Nat) (back : List Text) :
    globals (Line.numbered n (d ++ back)) =
      (globals (Line.numbered (n + d.length) back)).map fun names =>
        keptNames resemblesEncoding ((pieceNames pieces).filter (· ≠ [])) ++ names := by
  obtain ⟨text, line, lines, rfl, hlines, hm, hd⟩ := h.exists_cons
  have hgather : gather isComplete line.trim
      ((Line.numbered (n + 1) (lines ++ back)).map (·.text)) =
      some ((line :: lines).flatMap Text.trim, lines.length) := by
    rw [Line.map_text_numbered]
    exact hlines.gather_eq [] back
  have hnames : namesOf ((line :: lines).flatMap Text.trim) =
      keptNames resemblesEncoding ((pieceNames pieces).filter (· ≠ [])) := by
    rw [namesOf_eq, ← hlines.cutNames_eq, cutNames]
  have hback : (Line.numbered (n + 1) (lines ++ back)).drop lines.length =
      Line.numbered (n + (text :: lines).length) back := by
    rw [Line.drop_numbered, List.drop_left, List.length_cons, Nat.add_assoc, Nat.add_comm 1]
  have hm' : ¬ Marker.main.isOn (Line.trimmed ⟨n, text⟩) = true := by
    rw [Line.trimmed_mk, hm]
    exact Bool.false_ne_true
  rw [List.cons_append, Line.numbered, globals, if_neg hm', Line.trimmed_mk, hd]
  simp only [hgather, hback, hnames]
  rfl

theorem exists_onlyLastCloses {front : List Line} {last : Line}
    (hfront : ∀ l ∈ front, closes l.trimmed = false) (hlast : closes last.trimmed = true) :
    ∃ continued, front ++ [last] = front.headD last :: continued ∧
      onlyLastCloses (front.headD last :: continued) = true := by
  induction front with
  | nil => exact ⟨[], rfl, hlast⟩
  | cons line front ih =>
    obtain ⟨hline, hfront⟩ := List.forall_mem_cons.mp hfront
    obtain ⟨continued, heq, hcloses⟩ := ih hfront
    exact ⟨_, congrArg (line :: ·) heq, onlyLastCloses_cons.mpr ⟨hline, hcloses⟩⟩

/-- Lines with nothing open behind them declare the same whatever follows. -/
theorem exists_globals_append {front : List Line} (h : roles.Settles front) :
    ∃ declared, ∀ rest, globals (front ++ rest) = (globals rest).map (declared ++ ·) := by
  induction h with
  | nil =>
    refine ⟨[], fun rest => ?_⟩
    rw [List.nil_append]
    cases globals rest <;> rfl
  | @pass line lines hs ho _ ih =>
    obtain ⟨declared, hdeclared⟩ := ih
    refine ⟨declared, fun rest => ?_⟩
    have hm : ¬ Marker.main.isOn line.trimmed = true := Bool.eq_false_iff.mp hs
    have hd : declaration? line.trimmed = none := by
      simpa [roles, opens] using ho
    rw [List.cons_append, globals, if_neg hm, hd]
    exact hdeclared rest
  | @whole front lines last hs ho hfront hlast _ ih =>
    obtain ⟨declared, hdeclared⟩ := ih
    obtain ⟨start, hd⟩ := Option.isSome_iff_exists.mp ho
    obtain ⟨continued, heq, hcloses⟩ := exists_onlyLastCloses hfront hlast
    refine ⟨namesOf (start ++ continued.flatMap Line.trimmed) ++ declared, fun rest => ?_⟩
    have hlines : (front ++ last :: lines) ++ rest =
        front.headD last :: (continued ++ (lines ++ rest)) := by
      rw [← List.cons_append, ← heq]
      simp
    rw [hlines, globals_cons_of_onlyLastCloses hs hd hcloses, hdeclared]
    cases globals rest with
    | error e => rfl
    | ok names => exact congrArg Except.ok (List.append_assoc ..).symm

def Rewraps (d d' : List Text) : Prop :=
  ∃ pieces pieces', Declares pieces d ∧ Declares pieces' d' ∧
    pieceNames pieces = pieceNames pieces'

theorem Rewraps.globals_eq (h : Rewraps d d') {front : List Line} (hfront : roles.Settles front)
    {n : Nat} {back names : List Text}
    (hread : globals (front ++ Line.numbered n (d ++ back)) = .ok names) :
    globals (front ++ Line.numbered n (d' ++ back)) = .ok names := by
  obtain ⟨pieces, pieces', hd, hd', hnames⟩ := h
  obtain ⟨declared, hdeclared⟩ := exists_globals_append hfront
  rw [hdeclared, hd.globals_eq] at hread
  rw [hdeclared, hd'.globals_eq, ← hnames]
  have hback := matched_globals (Line.corresponds_numbered (n + d.length) (n + d'.length) back)
  cases hlater : globals (Line.numbered (n + d.length) back) with
  | error e =>
    rw [hlater] at hread
    cases hread
  | ok later =>
    rw [hlater] at hread hback
    obtain ⟨later', hlater', rfl⟩ := hback.exists_ok
    rw [hlater']
    exact hread

end Reading

section Extent

variable {pieces lines blanks : List Text} {line start : Text}

theorem closes_trim_of_append_comma {s t : Text} (h : closes (s ++ ',' :: t).trim = true) :
    closes t.trim = true := by
  have htrim : (s.trimStart ++ [',']) ++ t.trimEnd = (s ++ ',' :: t).trim := by
    simp [Text.trim_append_cons isBlank_comma]
  obtain ⟨-, hends⟩ := Bool.and_eq_true_iff.mp h
  rw [Bool.not_eq_true'] at hends
  by_cases ht : t.trimEnd = []
  · rw [ht, List.append_nil] at htrim
    rw [← htrim, Text.endsWith_concat] at hends
    contradiction
  · obtain ⟨u, c, hu, hc⟩ := Text.exists_trimEnd_eq_concat ht
    have hne : t.trim ≠ [] := by
      rw [← Text.trim_trimEnd, hu]
      exact List.ne_nil_of_mem (Text.mem_trim List.mem_concat_self hc)
    have hlast := Text.endsWith_trim_of_append_eq_trim (c := ',') htrim ht
    rw [Text.trim_trimEnd, hends] at hlast
    simp [closes, hne, hlast]

theorem exists_standOn_of_closes (t : Text) (h : closes t.trim = true) :
    ∃ pieces, StandOn pieces [t] := by
  by_cases hcomma : ',' ∈ t
  · obtain ⟨s, rest, ht, hs⟩ := List.eq_append_cons_of_mem hcomma
    have hlength : rest.length < t.length := by
      simp [ht]
      omega
    obtain ⟨pieces, hpieces⟩ :=
      exists_standOn_of_closes rest (closes_trim_of_append_comma (ht ▸ h))
    exact ⟨s :: pieces, ht ▸ .comma hs hpieces⟩
  · have hne : t.trim ≠ [] := by
      rintro hnil
      rw [hnil] at h
      contradiction
    exact ⟨[t], .last hcomma hne⟩
termination_by t.length

theorem exists_standOn_append (u : Text) {after : Text} (hafter : ∀ c ∈ after, isBlank c = true)
    (hblanks : ∀ l ∈ blanks, l.trim = []) (rest : StandOn pieces lines) :
    ∃ pieces', StandOn pieces' ((u ++ ',' :: after) :: (blanks ++ lines)) := by
  by_cases hcomma : ',' ∈ u
  · obtain ⟨s, t, hu, hs⟩ := List.eq_append_cons_of_mem hcomma
    have hlength : t.length < u.length := by
      simp [hu]
      omega
    obtain ⟨pieces', hpieces⟩ := exists_standOn_append t hafter hblanks rest
    refine ⟨s :: pieces', ?_⟩
    rw [hu, List.append_assoc, List.cons_append]
    exact .comma hs hpieces
  · exact ⟨u :: pieces, .wrapped hcomma hafter hblanks rest⟩
termination_by u.length

theorem exists_standOn_of_onlyLastCloses {ls : List Line} (h : onlyLastCloses ls = true) :
    ∃ blanks lines pieces, ls.map (·.text) = blanks ++ lines ∧ (∀ l ∈ blanks, l.trim = []) ∧
      StandOn pieces lines := by
  fun_induction onlyLastCloses ls with
  | case1 => contradiction
  | case2 line =>
    obtain ⟨pieces, hpieces⟩ := exists_standOn_of_closes line.text h
    exact ⟨[], _, pieces, rfl, by simp, hpieces⟩
  | case3 line rest hne ih =>
    obtain ⟨hopen, hrest⟩ := Bool.and_eq_true_iff.mp h
    obtain ⟨blanks, lines, pieces, hlines, hblanks, hpieces⟩ := ih hrest
    by_cases hb : line.trimmed = []
    · refine ⟨line.text :: blanks, lines, pieces, by simp [hlines], ?_, hpieces⟩
      exact List.forall_mem_cons.mpr ⟨hb, hblanks⟩
    · obtain ⟨u, hu⟩ : ∃ u, line.text.trim = u ++ [','] := by
        apply Text.endsWith_iff.mp
        show line.trimmed.endsWith ',' = true
        simpa [closes, hb] using hopen
      obtain ⟨before, after, -, hafter, hline⟩ := Text.exists_eq_append_trim line.text
      have htext : line.text = (before ++ u) ++ ',' :: after := by
        rw [hline, hu]
        simp
      obtain ⟨pieces', hpieces'⟩ := exists_standOn_append (before ++ u) hafter hblanks hpieces
      refine ⟨[], _, pieces', ?_, by simp, hpieces'⟩
      rw [List.map_cons, hlines, htext, List.nil_append]

theorem exists_eq_append_of_declaration? (h : declaration? line.trim = some start) :
    ∃ indent behind : Text, (∀ c ∈ indent, isBlank c = true) ∧ behind.head?.any isBlank = true ∧
      behind.trim = start ∧ start ≠ [] ∧ line = indent ++ "double".toList ++ behind := by
  obtain ⟨before, after, hbefore, hafter, hline⟩ := Text.exists_eq_append_trim line
  unfold declaration? at h
  split at h
  · rename_i c rest hrest
    split at h
    · rename_i hc
      obtain rfl := Option.some.inj h
      have hfirst : "double".toList ++ c :: rest = line.trim := Text.after?_eq_some_iff.mp hrest
      refine ⟨before, c :: rest ++ after, hbefore, by simpa using hc,
        Text.trim_append_right hafter _, ?_, ?_⟩
      · -- A trimmed line does not end in a blank, so something follows the blanks behind the word.
        intro hnil
        obtain ⟨s, last, hs, -⟩ := Text.exists_trim_eq_concat (t := line) (by simp [← hfirst])
        have hends := Text.endsWith_trim_of_append_eq_trim (c := last) hfirst (by simp)
        rw [hnil, hs, Text.endsWith_concat] at hends
        contradiction
      · rw [hline, ← hfirst]
        simp
    · contradiction
  · contradiction

/-- Whatever is read as a declaration is a declaration of some pieces. -/
theorem exists_declares {front : List Line} (hfront : roles.Settles front) {n : Nat}
    {rest names : List Text} (h : globals (front ++ Line.numbered n (line :: rest)) = .ok names)
    (hm : Marker.main.isOn line.trim = false) (ho : opens line.trim = true) :
    ∃ pieces d back, line :: rest = d ++ back ∧ Declares pieces d := by
  obtain ⟨start, hd⟩ := Option.isSome_iff_exists.mp ho
  obtain ⟨indent, behind, hindent, hblank, hstart, hne, hline⟩ :=
    exists_eq_append_of_declaration? hd
  have hcloses : isComplete start = closes (Line.trimmed ⟨n, behind⟩) := by
    rw [Line.trimmed_mk, hstart, closes, decide_eq_true hne, Bool.true_and, isComplete]
  obtain ⟨declared, hdeclared⟩ := exists_globals_append hfront
  rw [hdeclared, Line.numbered, globals, Line.trimmed_mk, if_neg (by simp [hm]), hd] at h
  cases hg : gather isComplete start ((Line.numbered (n + 1) rest).map (·.text)) with
  | none =>
    simp only [hg] at h
    cases h
  | some gathered =>
    obtain ⟨declaration, used⟩ := gathered
    obtain ⟨continued, hlast, hrest⟩ := exists_continued_of_gather hcloses hg
    obtain ⟨blanks, lines, pieces, hlines, hblanks, hpieces⟩ :=
      exists_standOn_of_onlyLastCloses hlast
    obtain rfl : blanks = [] := by
      cases blanks with
      | nil => rfl
      | cons l blanks =>
        obtain ⟨rfl, -⟩ := List.cons.inj hlines
        exact absurd (hstart.symm.trans (hblanks _ List.mem_cons_self)) hne
    obtain rfl := hlines
    refine ⟨pieces, line :: continued.map (·.text),
      ((Line.numbered (n + 1) rest).drop used).map (·.text), ?_, ?_⟩
    · have htexts := congrArg (List.map (·.text)) hrest
      rw [Line.map_text_numbered, List.map_append] at htexts
      exact congrArg (line :: ·) htexts
    · rw [hline]
      exact .intro hindent hblank hpieces

end Extent

/-- What stands in front of a declaration: the header and lines with nothing open behind them, or
lines that reach beyond the banner. -/
inductive Precede (settings : ExportSettings) (head : List Text) : Prop where

  | settled (hheader : settings.equationHeader ≤ head.length)
    (h : roles.Settles ((Line.numbered 1 head).drop settings.equationHeader)) :
    Precede settings head

  | banner {names : List Text}
    (h : globals ((Line.numbered 1 head).drop settings.equationHeader) = .ok names) :
    Precede settings head

end Declarations

namespace Cursor

open Declarations

variable {settings : ExportSettings} {c : Cursor} {names : List Text}

def declaredNames (settings : ExportSettings) (c : Cursor) : Except ExportError (List Text) := do
  let (names, _) ← globals (← c.rewind.skip settings.equationHeader)
  .ok names

theorem declaredNames_eq_ok_iff : c.declaredNames settings = .ok names ↔
    Declarations.globals (c.file.drop settings.equationHeader) = .ok names := by
  by_cases hlen : settings.equationHeader ≤ c.lines.length
  · have hskip : c.rewind.skip settings.equationHeader =
        .ok (c.rewind.advance settings.equationHeader) := by
      rw [skip, if_pos (by simpa [rewind, remaining] using hlen)]
    have hread := Cursor.matched_globals (c.rewind.advance settings.equationHeader)
    have hahead : (c.rewind.advance settings.equationHeader).ahead =
        c.file.drop settings.equationHeader := ahead_advance _ _
    rw [hahead] at hread
    rw [declaredNames, hskip, ok_bind]
    generalize (c.rewind.advance settings.equationHeader).globals = x at hread ⊢
    generalize Declarations.globals (c.file.drop settings.equationHeader) = y at hread ⊢
    cases hread with
    | error he =>
      constructor <;> intro h <;> cases h
    | ok hr =>
      obtain ⟨rfl, -⟩ := hr
      constructor <;> rintro ⟨⟩ <;> rfl
  · have hskip : ∃ e, c.rewind.skip settings.equationHeader = .error e := by
      rw [skip, if_neg (by simpa [rewind, remaining] using hlen)]
      exact ⟨_, rfl⟩
    obtain ⟨e, he⟩ := hskip
    have hnil : c.file.drop settings.equationHeader = [] :=
      List.drop_eq_nil_of_le (by simpa [file] using Nat.le_of_not_le hlen)
    rw [declaredNames, he, hnil, Declarations.globals]
    constructor <;> intro h <;> cases h

theorem declaredNames_of_log {log : StatementLog} (h : c.log settings = .ok log) :
    c.declaredNames settings = .ok log.globals := by
  obtain ⟨c₀, hskip, h⟩ := bind_eq_ok_iff.mp h
  obtain ⟨⟨globals, c₁⟩, hglobals, h⟩ := bind_eq_ok_iff.mp h
  obtain ⟨c₂, -, h⟩ := bind_eq_ok_iff.mp h
  obtain ⟨⟨constants, c₃⟩, -, h⟩ := bind_eq_ok_iff.mp h
  obtain ⟨c₄, -, h⟩ := bind_eq_ok_iff.mp h
  obtain ⟨⟨dynamics, c₅⟩, -, h⟩ := bind_eq_ok_iff.mp h
  obtain ⟨c₆, -, h⟩ := bind_eq_ok_iff.mp h
  obtain ⟨⟨⟨outputNames, written⟩, c₇⟩, -, h⟩ := bind_eq_ok_iff.mp h
  obtain ⟨c₈, -, h⟩ := bind_eq_ok_iff.mp h
  obtain ⟨⟨evaluated, c₉⟩, -, h⟩ := bind_eq_ok_iff.mp h
  cases h
  rw [declaredNames, hskip, ok_bind, hglobals]
  rfl

theorem declaredNames_of_rewraps {head back d d' : List Text} (hlines : c.lines = head ++ d ++ back)
    (hhead : Precede settings head) (hd : Rewraps d d') (h : c.declaredNames settings = .ok names)
    (position : Nat) :
    Cursor.declaredNames settings ⟨head ++ d' ++ back, position⟩ = .ok names := by
  rw [declaredNames_eq_ok_iff] at h ⊢
  rw [file, hlines, List.append_assoc] at h
  rw [file, List.append_assoc]
  dsimp only
  cases hhead with
  | settled hheader hsettled =>
    rw [Line.numbered_append, List.drop_append_of_le_length (by simpa using hheader)] at h ⊢
    exact hd.globals_eq hsettled h
  | banner hbanner =>
    obtain ⟨-, hread⟩ := globals_drop_append hbanner (d ++ back)
    obtain ⟨-, hread'⟩ := globals_drop_append hbanner (d' ++ back)
    rw [hread'.trans (hread.symm.trans h)]

/-- Declarations may be wrapped over other lines. What is read as a declaration holds its pieces on
whole lines, and another declaration of the same names in its place changes neither the declared
names nor the size of the auxiliary array. -/
theorem declaredNames_of_rewrapped (settings : ExportSettings) (c : Cursor) (names : List Text)
    (h : c.declaredNames settings = .ok names) :
    (∀ (head : List Text) (line : Text) (rest : List Text), c.lines = head ++ line :: rest →
      settings.equationHeader ≤ head.length →
      Declarations.roles.Settles ((Line.numbered 1 head).drop settings.equationHeader) →
      Marker.main.isOn line.trim = false → Declarations.opens line.trim = true →
      ∃ pieces d back, line :: rest = d ++ back ∧ Declares pieces d) ∧
    ∀ (head d d' back : List Text) (position : Nat), c.lines = head ++ d ++ back →
      Precede settings head → Rewraps d d' →
      Cursor.declaredNames settings ⟨head ++ d' ++ back, position⟩ = .ok names ∧
        ∀ log log', c.log settings = .ok log →
          Cursor.log settings ⟨head ++ d' ++ back, position⟩ = .ok log' →
          log'.globals = log.globals ∧ log'.auxCount = log.auxCount := by
  constructor
  · intro head line rest hlines hheader hsettled hm ho
    rw [declaredNames_eq_ok_iff, file, hlines, Line.numbered_append,
      List.drop_append_of_le_length (by simpa using hheader)] at h
    exact exists_declares hsettled h hm ho
  · intro head d d' back position hlines hhead hd
    have hnames := declaredNames_of_rewraps hlines hhead hd h position
    refine ⟨hnames, fun log log' hlog hlog' => ?_⟩
    have hglobals : log'.globals = log.globals := by
      have hread := (declaredNames_of_log hlog).symm.trans h
      have hread' := (declaredNames_of_log hlog').symm.trans hnames
      exact Except.ok.inj (hread'.trans hread.symm)
    exact ⟨hglobals, by rw [StatementLog.auxCount, hglobals, StatementLog.auxCount]⟩

def brokenDeclaration : List Text := ["double Pi, z[3],".toList, [' '], "\tg;".toList]

def rebrokenDeclaration : List Text := [" double Pi ,".toList, "z[3] , g ;".toList]

theorem rewraps_brokenDeclaration : Rewraps brokenDeclaration rebrokenDeclaration := by
  have hlast : StandOn ["\tg;".toList] ["\tg;".toList] := .last (by decide) (by decide +kernel)
  have hrest : StandOn [" z[3]".toList, "\tg;".toList] [" z[3],".toList, [' '], "\tg;".toList] :=
    @StandOn.wrapped " z[3]".toList [] _ [[' ']] _ (by decide) (by simp) (by decide) hlast
  have hfirst : StandOn [" Pi".toList, " z[3]".toList, "\tg;".toList]
      [" Pi, z[3],".toList, [' '], "\tg;".toList] :=
    @StandOn.comma " Pi".toList _ _ _ (by decide) hrest
  have hlast' : StandOn [" g ;".toList] [" g ;".toList] := .last (by decide) (by decide +kernel)
  have hrest' : StandOn ["z[3] ".toList, " g ;".toList] ["z[3] , g ;".toList] :=
    @StandOn.comma "z[3] ".toList _ _ _ (by decide) hlast'
  have hfirst' : StandOn [" Pi ".toList, "z[3] ".toList, " g ;".toList]
      [" Pi ,".toList, "z[3] , g ;".toList] :=
    @StandOn.wrapped " Pi ".toList [] _ [] _ (by decide) (by simp) (by simp) hrest'
  have hindent : ∀ c ∈ [' '], isBlank c = true := by simp [isBlank, blankCodePoints]
  exact ⟨_, _, @Declares.intro _ [] _ _ (by simp) (by decide) hfirst,
    @Declares.intro _ [' '] _ _ hindent (by decide) hfirst', by decide +kernel⟩

theorem declaredNames_rebrokenDeclaration :
    Cursor.declaredNames { equationHeader := 1 }
        ⟨[[]] ++ brokenDeclaration ++ ["/* 0 MAIN 0 */".toList], 0⟩ =
        .ok ["z[3]".toList, ['g']] ∧
      Precede { equationHeader := 1 } [[]] ∧ Rewraps brokenDeclaration rebrokenDeclaration ∧
      Cursor.declaredNames { equationHeader := 1 }
        ⟨[[]] ++ rebrokenDeclaration ++ ["/* 0 MAIN 0 */".toList], 0⟩ =
        .ok ["z[3]".toList, ['g']] := by
  have hnames : Cursor.declaredNames { equationHeader := 1 }
      ⟨[[]] ++ brokenDeclaration ++ ["/* 0 MAIN 0 */".toList], 0⟩ =
      .ok ["z[3]".toList, ['g']] := by
    rw [declaredNames_eq_ok_iff]
    decide +kernel
  have hhead : Precede { equationHeader := 1 } [[]] := .settled (by decide) .nil
  exact ⟨hnames, hhead, rewraps_brokenDeclaration, ((declaredNames_of_rewrapped _ _ _ hnames).2
    [[]] _ _ _ 0 rfl hhead rewraps_brokenDeclaration).1⟩

end Cursor

end MotionExport
