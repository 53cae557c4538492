import Mathlib.Data.List.Flatten
import Mathlib.Data.List.Range
import MotionExport.Linear.Model
import MotionExport.Linear.Script
import MotionExport.Proofs.Code.BodyLines

/-! # The cells that a script asks for

The script, the matrices of the linear model and the generated module count states, inputs and
outputs in the same order. The script asks for every cell of every matrix once, row by row, by the
names that the module has at the place of the row and at the place of the column.
-/

namespace MotionExport

section Places

variable {α : Type} {i : Nat}

def nameAt (names : List Text) (i : Nat) : Text := names.getD i []

theorem map_nameAt_range (names : List Text) :
    (List.range names.length).map (nameAt names) = names := by
  refine List.ext_getElem (by simp) fun i _ hi => ?_
  simp [nameAt, List.getElem?_eq_getElem hi]

theorem nameAt_mem {names : List Text} (hi : i < names.length) : nameAt names i ∈ names := by
  simp [nameAt, List.getElem?_eq_getElem hi]

theorem zipIdx_map_range (f : Nat → α) (n k : Nat) :
    ((List.range n).map f).zipIdx k = (List.range n).map fun i => (f i, k + i) := by
  apply List.ext_getElem
  · simp
  · simp

end Places

namespace LinearModel

variable {α : Type} {rows : List (List α)} {i j : Nat}

/-- The places of the entries of a matrix, counted from zero. -/
def cells (rows : List (List α)) : List (Nat × Nat) :=
  rows.zipIdx.flatMap fun (row, i) => (List.range row.length).map fun j => (i, j)

theorem mem_cells_iff : (i, j) ∈ cells rows ↔ ∃ row, rows[i]? = some row ∧ j < row.length := by
  simp only [cells, List.mem_flatMap, List.mem_map, List.mem_range, Prod.exists,
    List.mk_mem_zipIdx_iff_getElem?, Prod.mk.injEq]
  constructor
  · rintro ⟨row, _, hrow, _, hj, rfl, rfl⟩
    exact ⟨row, hrow, hj⟩
  · rintro ⟨row, hrow, hj⟩
    exact ⟨row, i, hrow, j, hj, rfl, rfl⟩

theorem pairwise_cells (rows : List (List α)) :
    (cells rows).Pairwise (Prod.Lex (· < ·) (· < ·)) := by
  unfold cells
  rw [List.pairwise_flatMap]
  constructor
  · rintro ⟨row, i⟩ -
    rw [List.pairwise_map]
    exact List.pairwise_lt_range.imp fun h => .right i h
  · have hplaces : (rows.zipIdx.map Prod.snd).Pairwise (· < ·) := by
      rw [List.zipIdx_map_snd]
      exact List.pairwise_lt_range'
    refine (List.pairwise_map.mp hplaces).imp ?_
    rintro ⟨row, i⟩ ⟨row', i'⟩ hlt p hp q hq
    obtain ⟨j, -, rfl⟩ := List.mem_map.mp hp
    obtain ⟨j', -, rfl⟩ := List.mem_map.mp hq
    exact .left j j' hlt

theorem cells_zeroMatrix (m n : Nat) : cells (zeroMatrix m n) =
    (List.range m).flatMap fun i => (List.range n).map fun j => (i, j) := by
  have hrows : zeroMatrix m n = (List.range m).map fun _ => List.replicate n .zero := by
    simp [zeroMatrix, List.map_const']
  rw [cells, hrows, zipIdx_map_range, List.flatMap_map]
  simp

end LinearModel

open LinearModel

section Script

variable {matrix : Text} {row column : Nat → Text} {m n : Nat}

def requestLine (matrix : Text) (i j : Nat) (row column : Text) : Text :=
  matrix ++ "[".toList ++ numeral i ++ ", ".toList ++ numeral j ++ "] = d(".toList ++ row
    ++ ", ".toList ++ column ++ ")".toList

/-- The lines that ask for the cells of a matrix, in the order of the cells, counted from one. -/
def requestLines {α : Type} (matrix : Text) (rows : List (List α)) (row column : Nat → Text) :
    List Text :=
  (cells rows).map fun (i, j) => requestLine matrix (i + 1) (j + 1) (row i) (column j)

/-- The lines of a script that start with the name of a matrix and an opening bracket. -/
def entryLines (script : Text) : List Text :=
  (script.splitOn '\n').filter fun line => (indexedMatrix? defaultMatrixNames line).isSome

theorem entryLine_none (matrix : Text) (i j : Nat) (row column : Text) :
    JacobianScript.entryLine none matrix i j row column = requestLine matrix i j row column := by
  simp [JacobianScript.entryLine, requestLine]

theorem newline_not_mem_numeral (n : Nat) : '\n' ∉ numeral n := by
  intro h
  have hdigit := isDigit_of_mem_numeral h
  contradiction

theorem newline_not_mem_requestLine {i j : Nat} {row column : Text} (hm : '\n' ∉ matrix)
    (hrow : '\n' ∉ row) (hcolumn : '\n' ∉ column) :
    '\n' ∉ requestLine matrix i j row column := by
  simp [requestLine, hm, hrow, hcolumn, newline_not_mem_numeral]

theorem indexedMatrix?_requestLine (hm : matrix ∈ defaultMatrixNames) (i j : Nat)
    (row column : Text) :
    (indexedMatrix? defaultMatrixNames (requestLine matrix i j row column)).isSome = true := by
  unfold indexedMatrix?
  rw [List.find?_isSome]
  refine ⟨matrix, hm, List.isPrefixOf_iff_prefix.mpr ?_⟩
  simp [requestLine]

theorem matrixLines_eq (matrix : Text) (row column : Nat → Text) (m n : Nat) :
    JacobianScript.matrixLines none matrix ((List.range m).map row) ((List.range n).map column) =
      if n = 0 then [] else (List.range m).flatMap fun i =>
        ((List.range n).map fun j => requestLine matrix (i + 1) (j + 1) (row i) (column j))
          ++ [[]] := by
  simp only [JacobianScript.matrixLines, List.map_eq_nil_iff, List.range_eq_nil, zipIdx_map_range,
    List.flatMap_map, List.map_map, Function.comp_def, entryLine_none, Nat.add_comm 1]

theorem filter_matrixLines (hm : matrix ∈ defaultMatrixNames) (row column : Nat → Text)
    (m n : Nat) :
    (JacobianScript.matrixLines none matrix ((List.range m).map row)
        ((List.range n).map column)).filter
          (fun line => (indexedMatrix? defaultMatrixNames line).isSome) =
      requestLines matrix (zeroMatrix m n) row column := by
  have hblank : (indexedMatrix? defaultMatrixNames []).isSome = false := by decide
  rw [requestLines, cells_zeroMatrix, matrixLines_eq]
  split
  · rename_i hn
    simp [hn]
  · simp only [List.filter_flatMap, List.filter_append, List.filter_map, List.map_flatMap,
      List.map_map, Function.comp_def, indexedMatrix?_requestLine hm, List.filter_true]
    simp [hblank]

theorem newline_not_mem_matrixLines (hm : '\n' ∉ matrix) (hrow : ∀ i < m, '\n' ∉ row i)
    (hcolumn : ∀ j < n, '\n' ∉ column j) :
    ∀ line ∈ JacobianScript.matrixLines none matrix ((List.range m).map row)
      ((List.range n).map column), '\n' ∉ line := by
  rw [matrixLines_eq]
  intro line hline
  split at hline
  · contradiction
  · obtain ⟨i, hi, hline⟩ := List.mem_flatMap.mp hline
    rcases List.mem_append.mp hline with hline | hline
    · obtain ⟨j, hj, rfl⟩ := List.mem_map.mp hline
      exact newline_not_mem_requestLine hm (hrow i (List.mem_range.mp hi))
        (hcolumn j (List.mem_range.mp hj))
    · obtain rfl := List.mem_singleton.mp hline
      exact List.not_mem_nil

theorem flatMap_newline_append (lines : List Text) (last : Text) :
    lines.flatMap (· ++ ['\n']) ++ last = ['\n'].intercalate (lines ++ [last]) := by
  induction lines with
  | nil => simp
  | cons line lines ih =>
    rw [List.flatMap_cons, List.append_assoc, ih, List.cons_append,
      List.intercalate_cons_of_ne_nil (by simp)]

theorem rates_map_range (state : Nat → Text) (n : Nat) :
    ((List.range n).map state).map (· ++ ['\x27']) =
      (List.range n).map fun i => state i ++ ['\x27'] := by
  simp

/-- The entries of the four matrices are asked for one matrix after the other. -/
theorem entryLines_render {state input output : Nat → Text} {n p m : Nat}
    (hstate : ∀ i < n, '\n' ∉ state i) (hinput : ∀ j < p, '\n' ∉ input j)
    (houtput : ∀ i < m, '\n' ∉ output i) :
    entryLines (JacobianScript.render {
        states := (List.range n).map state
        inputs := (List.range p).map input
        outputs := (List.range m).map output }) =
      requestLines ['A'] (zeroMatrix n n) (fun i => state i ++ ['\x27']) state ++
        requestLines ['B'] (zeroMatrix n p) (fun i => state i ++ ['\x27']) input ++
        requestLines ['C'] (zeroMatrix m n) output state ++
        requestLines ['D'] (zeroMatrix m p) output input := by
  have hrate : ∀ i < n, '\n' ∉ state i ++ ['\x27'] := fun i hi => by simp [hstate i hi]
  unfold entryLines JacobianScript.render JacobianScript.lines JacobianScript.rates
  dsimp only
  rw [rates_map_range, List.append_assoc _ "encode ".toList, flatMap_newline_append,
    List.splitOn_intercalate]
  · simp only [List.filter_append]
    rw [filter_matrixLines (by decide), filter_matrixLines (by decide),
      filter_matrixLines (by decide), filter_matrixLines (by decide)]
    have hlast : ([("encode ".toList ++
        ", ".toList.intercalate [['A'], ['B'], ['C'], ['D']] : Text)].filter fun line =>
          (indexedMatrix? defaultMatrixNames line).isSome) = [] := by
      decide
    rw [hlast, List.append_nil]
  · intro line hline
    simp only [List.mem_append, List.mem_singleton] at hline
    rcases hline with (((hline | hline) | hline) | hline) | rfl
    · exact newline_not_mem_matrixLines (by decide) hrate hstate line hline
    · exact newline_not_mem_matrixLines (by decide) hrate hinput line hline
    · exact newline_not_mem_matrixLines (by decide) houtput hstate line hline
    · exact newline_not_mem_matrixLines (by decide) houtput hinput line hline
    · decide
  · simp

end Script

section Module

variable {lang : Language} {name name' vector : Text} {i j : Nat}

def vectorEntry (vector : Text) (i : Nat) : Text := vector ++ ['['] ++ numeral i ++ [']']

/-- A line of a method body binds the name to the entry of the vector at the place. -/
def Binds (lang : Language) (body vector : Text) (i : Nat) (name : Text) : Prop :=
  Code.bindingLine lang name (vectorEntry vector i) ∈ body.splitOn '\n'

theorem append_mark_inj {a : Char} {s s' t t' : Text} (ht : a ∉ t) (ht' : a ∉ t') :
    s ++ a :: t = s' ++ a :: t' ↔ s = s' ∧ t = t' := by
  constructor
  · intro h
    rcases List.append_eq_append_iff.mp h with ⟨u, rfl, hu⟩ | ⟨u, rfl, hu⟩
    · cases u with
      | nil => simpa using hu
      | cons b u =>
        obtain ⟨-, rfl⟩ := List.cons.inj hu
        simp at ht
    · cases u with
      | nil => simpa using hu.symm
      | cons b u =>
        obtain ⟨-, rfl⟩ := List.cons.inj hu
        simp at ht'
  · rintro ⟨rfl, rfl⟩
    rfl

/-- The name and the place that a line binds can be told from the line. -/
theorem bindingLine_vectorEntry_inj : Code.bindingLine lang name (vectorEntry vector i) =
    Code.bindingLine lang name' (vectorEntry vector j) ↔ name = name' ∧ i = j := by
  obtain ⟨lead, ending, -, hending, hstart, hline⟩ := Code.exists_bindingLine_eq lang
  have hsplit : ∀ (name : Text) (i : Nat), Code.bindingLine lang name (vectorEntry vector i) =
      (lead ++ name ++ " = ".toList ++ vector) ++ '[' :: (numeral i ++ ']' :: ending) := by
    intro name i
    simp [hline, hstart, vectorEntry]
  have hend : ∀ i, '[' ∉ numeral i ++ ']' :: ending := by
    intro i h
    rcases List.mem_append.mp h with h | h
    · have hdigit := isDigit_of_mem_numeral h
      contradiction
    · exact hending (List.mem_of_ne_of_mem (by decide) h)
  rw [hsplit, hsplit, append_mark_inj (hend i) (hend j)]
  constructor
  · rintro ⟨hname, hplace⟩
    have hnumeral : numeral i = numeral j := List.append_cancel_right hplace
    refine ⟨by simpa using hname, ?_⟩
    rw [← digitsValue_numeral i, hnumeral, digitsValue_numeral]
  · rintro ⟨rfl, rfl⟩
    exact ⟨rfl, rfl⟩

theorem bindingLine_inputs_ne : Code.bindingLine lang ['u'] "self.inputs(t)".toList ≠
    Code.bindingLine lang name (vectorEntry vector i) := by
  obtain ⟨lead, ending, hlead, hending, hstart, hline⟩ := Code.exists_bindingLine_eq lang
  intro h
  have hopen : '[' ∈ Code.bindingLine lang name (vectorEntry vector i) := by
    simp [hline, vectorEntry]
  rw [← h, hline, hstart] at hopen
  revert hopen
  simp [hlead, hending]

theorem newline_not_mem_vectorEntry (hvector : '\n' ∉ vector) (i : Nat) :
    '\n' ∉ vectorEntry vector i := by
  simp [vectorEntry, hvector, newline_not_mem_numeral]

def vectorLines (lang : Language) (vector : Text) (names : List Text) : List Text :=
  names.zipIdx.map fun (name, i) => Code.bindingLine lang name (vectorEntry vector i)

theorem mem_vectorLines_iff {names : List Text} {line : Text} :
    line ∈ vectorLines lang vector names ↔
      ∃ name i, names[i]? = some name ∧
        line = Code.bindingLine lang name (vectorEntry vector i) := by
  simp only [vectorLines, List.mem_map, Prod.exists, List.mk_mem_zipIdx_iff_getElem?, eq_comm]

theorem indent_vectorBindings (lang : Language) (vector : Text) (names : List Text) :
    (Code.vectorBindings lang vector names).map (List.replicate 8 ' ' ++ ·) =
      vectorLines lang vector names := by
  simp only [Code.vectorBindings, vectorLines, vectorEntry, List.map_map, Function.comp_def,
    Code.indent_binding]

theorem mem_splitOn_intercalate {lines : List Text} {line : Text} (hline : line ≠ [])
    (h : ∀ line ∈ lines, '\n' ∉ line) :
    line ∈ (['\n'].intercalate lines).splitOn '\n' ↔ line ∈ lines := by
  by_cases hne : lines = []
  · subst hne
    simp [hline]
  · rw [List.splitOn_intercalate '\n' h hne]

theorem binds_intercalate_iff {names others : List Text} (hvector : '\n' ∉ vector)
    (hnames : ∀ name ∈ names, '\n' ∉ name)
    (hothers : ∀ line ∈ others, '\n' ∉ line ∧
      ∀ name i, line ≠ Code.bindingLine lang name (vectorEntry vector i)) :
    Binds lang (['\n'].intercalate (others ++ vectorLines lang vector names)) vector i name ↔
      names[i]? = some name := by
  have hne : Code.bindingLine lang name (vectorEntry vector i) ≠ [] := by
    cases lang <;> simp [Code.bindingLine]
  rw [Binds, mem_splitOn_intercalate hne, List.mem_append, mem_vectorLines_iff]
  · constructor
    · rintro (hother | ⟨name', j, hj, hline⟩)
      · exact absurd rfl ((hothers _ hother).2 name i)
      · obtain ⟨rfl, rfl⟩ := bindingLine_vectorEntry_inj.mp hline
        exact hj
    · intro hi
      exact .inr ⟨name, i, hi, rfl⟩
  · intro line hline
    rcases List.mem_append.mp hline with hline | hline
    · exact (hothers line hline).1
    · obtain ⟨name', j, hj, rfl⟩ := mem_vectorLines_iff.mp hline
      exact Code.newline_not_mem_bindingLine (hnames name' (List.mem_of_getElem? hj))
        (newline_not_mem_vectorEntry hvector j)

end Module

section Vectors

variable {lang : Language} {items names : List Text} {item first first' : Text}
  {rest rest' : List Text} {i : Nat}

def vectorText (lang : Language) (names : List Text) : Text :=
  match lang with
  | .rust => "vec![".toList ++ ", ".toList.intercalate names ++ [']']
  | .python => "array([".toList ++ ", ".toList.intercalate names ++ "])".toList

/-- The item stands at a place of the text of a vector, where commas stand between the items. -/
def ItemAt (lang : Language) (text : Text) (i : Nat) (item : Text) : Prop :=
  ∃ items, (∀ other ∈ items, ',' ∉ other) ∧ text = vectorText lang items ∧ items[i]? = some item

theorem vector_eq (lang : Language) (names : List Text) :
    lang.vector names = vectorText lang names := by
  cases lang with
  | rust => rfl
  | python => rfl

theorem intercalate_eq_of_vectorText (h : vectorText lang items = vectorText lang names) :
    ", ".toList.intercalate items = ", ".toList.intercalate names := by
  cases lang with
  | rust => exact List.append_cancel_left (List.append_cancel_right h)
  | python => exact List.append_cancel_left (List.append_cancel_right h)

theorem intercalate_comma (first : Text) (rest : List Text) :
    ", ".toList.intercalate (first :: rest) =
      [','].intercalate (first :: rest.map (' ' :: ·)) := by
  have hblank : ∀ (second : Text) (rest : List Text),
      [','].intercalate ((' ' :: second) :: rest) = ' ' :: [','].intercalate (second :: rest) := by
    intro second rest
    cases rest with
    | nil => rfl
    | cons third rest =>
      rw [List.intercalate_cons_of_ne_nil (List.cons_ne_nil _ _),
        List.intercalate_cons_of_ne_nil (List.cons_ne_nil _ _)]
      rfl
  have hseparator : ", ".toList = [',', ' '] := by decide
  induction rest generalizing first with
  | nil => rfl
  | cons second rest ih =>
    rw [List.intercalate_cons_of_ne_nil (List.cons_ne_nil _ _), ih, List.map_cons,
      List.intercalate_cons_of_ne_nil (List.cons_ne_nil _ _), hblank, hseparator]
    simp only [List.append_assoc, List.cons_append, List.nil_append]

theorem cons_eq_of_intercalate (hitems : ∀ other ∈ first :: rest, ',' ∉ other)
    (hnames : ∀ other ∈ first' :: rest', ',' ∉ other)
    (h : ", ".toList.intercalate (first :: rest) = ", ".toList.intercalate (first' :: rest')) :
    first :: rest = first' :: rest' := by
  have hsplit : ∀ {first : Text} {rest : List Text}, (∀ other ∈ first :: rest, ',' ∉ other) →
      (", ".toList.intercalate (first :: rest)).splitOn ',' = first :: rest.map (' ' :: ·) := by
    intro first rest hfree
    rw [intercalate_comma]
    refine List.splitOn_intercalate ',' ?_ (List.cons_ne_nil _ _)
    intro other hother
    rcases List.mem_cons.mp hother with rfl | hother
    · exact hfree _ List.mem_cons_self
    · obtain ⟨item, hitem, rfl⟩ := List.mem_map.mp hother
      exact List.not_mem_cons_of_ne_of_not_mem (by decide)
        (hfree item (List.mem_cons_of_mem _ hitem))
  have hcut := hsplit hitems
  rw [h, hsplit hnames] at hcut
  obtain ⟨rfl, hrest⟩ := List.cons.inj hcut
  rw [List.map_inj_right (by simp)] at hrest
  rw [hrest]

/-- If no name has a comma in it, each is at its place of the vector, and nothing else is. -/
theorem itemAt_vectorText_iff (hnames : ∀ name ∈ names, ',' ∉ name) (hitem : item ≠ []) :
    ItemAt lang (vectorText lang names) i item ↔ names[i]? = some item := by
  constructor
  · rintro ⟨items, hitems, htext, hi⟩
    have hjoined := intercalate_eq_of_vectorText htext
    cases items with
    | nil => cases hi
    | cons first rest =>
      cases names with
      | nil =>
        cases rest with
        | nil =>
          obtain rfl : item = first := List.mem_singleton.mp (List.mem_of_getElem? hi)
          exact absurd (by simpa using hjoined) hitem
        | cons second rest =>
          rw [List.intercalate_cons_of_ne_nil (List.cons_ne_nil _ _)] at hjoined
          simp at hjoined
      | cons first' rest' => rwa [cons_eq_of_intercalate hnames hitems hjoined]
  · intro hi
    exact ⟨names, hnames, rfl, hi⟩

end Vectors

namespace Document

def zeroModel (d : Document) : LinearModel :=
  LinearModel.zeros d.states.length d.inputs.length d.outputNames.length

/-- The script asks for the entries of the matrices by the names of the states, the inputs and the
outputs, in the order in which the generated module has them. -/
structure AsksForCells (d : Document) : Prop where
  states : ∀ lang matrixNames i name,
    Binds lang (Code.value lang matrixNames d .stateBindings) ['x'] i name ↔
      d.stateNames[i]? = some name
  inputs : ∀ lang matrixNames j name,
    Binds lang (Code.value lang matrixNames d .inputBindings) ['u'] j name ↔
      d.inputNames[j]? = some name
  /-- The derivatives are put out in the order of the states, with a `p` behind each name. -/
  derivatives : ∀ lang matrixNames, Code.value lang matrixNames d .derivativeVector =
    vectorText lang (d.stateNames.map (· ++ ['p']))
  derivative_at : (∀ name ∈ d.stateNames, ',' ∉ name) → ∀ lang matrixNames i name,
    ItemAt lang (Code.value lang matrixNames d .derivativeVector) i (name ++ ['p']) ↔
      d.stateNames[i]? = some name
  outputs : ∀ lang matrixNames, Code.value lang matrixNames d .outputVector =
    vectorText lang d.outputNames
  output_at : (∀ name ∈ d.outputNames, ',' ∉ name) → ∀ lang matrixNames i name, name ≠ [] →
    (ItemAt lang (Code.value lang matrixNames d .outputVector) i name ↔
      d.outputNames[i]? = some name)
  /-- The cells of the matrices are counted row by row, each once. -/
  cells : ∀ rows ∈ [d.zeroModel.a, d.zeroModel.b, d.zeroModel.c, d.zeroModel.d],
    (cells rows).Pairwise (Prod.Lex (· < ·) (· < ·)) ∧
      ∀ i j, (i, j) ∈ LinearModel.cells rows ↔ ∃ row, rows[i]? = some row ∧ j < row.length
  entries : entryLines d.jacobianScript.render =
    requestLines ['A'] d.zeroModel.a (fun i => nameAt d.stateNames i ++ ['\x27'])
        (nameAt d.stateNames) ++
      requestLines ['B'] d.zeroModel.b (fun i => nameAt d.stateNames i ++ ['\x27'])
        (nameAt d.inputNames) ++
      requestLines ['C'] d.zeroModel.c (nameAt d.outputNames) (nameAt d.stateNames) ++
      requestLines ['D'] d.zeroModel.d (nameAt d.outputNames) (nameAt d.inputNames)

/-- If no name has a line feed in it, the script asks for each cell of each matrix once, by the
names that the generated module has at the places of its row and of its column. -/
theorem asks_for_cells (d : Document)
    (h : ∀ name ∈ d.stateNames ++ d.inputNames ++ d.outputNames, '\n' ∉ name) :
    d.AsksForCells := by
  have hstates : ∀ name ∈ d.stateNames, '\n' ∉ name := fun name hname => h name (by simp [hname])
  have hinputs : ∀ name ∈ d.inputNames, '\n' ∉ name := fun name hname => h name (by simp [hname])
  have houtputs : ∀ name ∈ d.outputNames, '\n' ∉ name := fun name hname =>
    h name (by simp [hname])
  constructor
  case states =>
    intro lang matrixNames i name
    have hvalue : Code.value lang matrixNames d .stateBindings =
        ['\n'].intercalate ([] ++ vectorLines lang ['x'] d.stateNames) :=
      congrArg ['\n'].intercalate (indent_vectorBindings lang ['x'] d.stateNames)
    rw [hvalue]
    exact binds_intercalate_iff (by decide) hstates (by simp)
  case inputs =>
    intro lang matrixNames j name
    have hvalue : Code.value lang matrixNames d .inputBindings = ['\n'].intercalate
        ([Code.bindingLine lang ['u'] "self.inputs(t)".toList] ++
          vectorLines lang ['u'] d.inputNames) := by
      show Code.indented (lang.binding ['u'] _ :: Code.vectorBindings lang ['u'] d.inputNames) = _
      rw [Code.indented, List.map_cons, Code.indent_binding, indent_vectorBindings]
      rfl
    rw [hvalue]
    refine binds_intercalate_iff (by decide) hinputs fun line hline => ?_
    obtain rfl := List.mem_singleton.mp hline
    exact ⟨Code.newline_not_mem_bindingLine (by decide) (by decide),
      fun _ _ => bindingLine_inputs_ne⟩
  case derivatives => exact fun lang _ => vector_eq lang _
  case derivative_at =>
    intro hnames lang matrixNames i name
    have hmarked : ∀ item ∈ d.stateNames.map (· ++ ['p']), ',' ∉ item := by
      intro item hitem
      obtain ⟨name, hname, rfl⟩ := List.mem_map.mp hitem
      simp [hnames name hname]
    rw [show Code.value lang matrixNames d .derivativeVector = _ from vector_eq lang _,
      itemAt_vectorText_iff hmarked (by simp), List.getElem?_map, Option.map_eq_some_iff]
    simp only [List.append_cancel_right_eq, exists_eq_right]
  case outputs => exact fun lang _ => vector_eq lang _
  case output_at =>
    intro hnames lang matrixNames i name hname
    rw [show Code.value lang matrixNames d .outputVector = _ from vector_eq lang _]
    exact itemAt_vectorText_iff hnames hname
  case cells =>
    intro rows _
    exact ⟨pairwise_cells rows, fun i j => mem_cells_iff⟩
  case entries =>
    have hn : d.stateNames.length = d.states.length := List.length_map _
    have hp : d.inputNames.length = d.inputs.length := List.length_map _
    have hrender := entryLines_render
      (fun _ hi => hstates _ (nameAt_mem hi)) (fun _ hi => hinputs _ (nameAt_mem hi))
      (fun _ hi => houtputs _ (nameAt_mem hi))
    simp only [map_nameAt_range] at hrender
    simpa only [jacobianScript, zeroModel, LinearModel.zeros, hn, hp] using hrender

def cartDocument : Document where
  name := "Cart".toList
  integration := default
  parameters := []
  states := [⟨['q'], .zero, none⟩, ⟨['v'], .zero, none⟩]
  globals := []
  auxCount := 0
  constants := []
  motion := []
  inputs := [⟨['F'], ['0']⟩]
  dependents := []
  outputNames := [['v'], ['q']]
  outputs := []
  linear := []

theorem cartDocument_asksForCells :
    (∀ name ∈ cartDocument.stateNames ++ cartDocument.inputNames ++ cartDocument.outputNames,
      '\n' ∉ name) ∧
    entryLines cartDocument.jacobianScript.render =
      ["A[1, 1] = d(q\x27, q)".toList, "A[1, 2] = d(q\x27, v)".toList,
        "A[2, 1] = d(v\x27, q)".toList, "A[2, 2] = d(v\x27, v)".toList,
        "B[1, 1] = d(q\x27, F)".toList, "B[2, 1] = d(v\x27, F)".toList,
        "C[1, 1] = d(v, q)".toList, "C[1, 2] = d(v, v)".toList,
        "C[2, 1] = d(q, q)".toList, "C[2, 2] = d(q, v)".toList,
        "D[1, 1] = d(v, F)".toList, "D[2, 1] = d(q, F)".toList] ∧
    Code.value .rust defaultMatrixNames cartDocument .stateBindings =
      "        let q = x[0];\n        let v = x[1];".toList ∧
    Code.value .rust defaultMatrixNames cartDocument .inputBindings =
      "        let u = self.inputs(t);\n        let F = u[0];".toList ∧
    Code.value .rust defaultMatrixNames cartDocument .derivativeVector = "vec![qp, vp]".toList ∧
    Code.value .python defaultMatrixNames cartDocument .outputVector = "array([v, q])".toList ∧
    cartDocument.AsksForCells :=
  ⟨by decide, by decide +kernel, by decide +kernel, by decide +kernel, by decide +kernel,
    by decide +kernel, cartDocument.asks_for_cells (by decide)⟩

end Document

end MotionExport
