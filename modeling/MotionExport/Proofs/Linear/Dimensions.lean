import MotionExport.Linear.Model

/-! # Dimensions of a linear model

The numbers of states, inputs and outputs are read from the shapes of the matrices. A matrix is a
list of rows, and one without rows does not tell how many columns it has. So the states and the
outputs, which are rows, always come back, and the inputs, which are only columns, come back as long
as there are states whose rows tell them. Without states and outputs nothing tells the inputs.
-/

namespace MotionExport

namespace LinearModel

structure IsOfShape (matrix : List (List Binary64)) (rows columns : Nat) : Prop where
  rows_eq : matrix.length = rows
  columns_eq : ∀ row ∈ matrix, row.length = columns

/-- The matrices have the shapes that belong to the given dimensions. -/
structure IsOfDimensions (m : LinearModel) (states inputs outputs : Nat) : Prop where
  a : IsOfShape m.a states states
  b : IsOfShape m.b states inputs
  c : IsOfShape m.c outputs states
  d : IsOfShape m.d outputs inputs

variable {m : LinearModel} {matrix : List (List Binary64)}
  {rows columns states inputs outputs : Nat}

theorem isOfShape_zeroMatrix (rows columns : Nat) :
    IsOfShape (zeroMatrix rows columns) rows columns where
  rows_eq := List.length_replicate
  columns_eq row hrow := by
    rw [List.eq_of_mem_replicate hrow]
    exact List.length_replicate

theorem isOfDimensions_zeros (states inputs outputs : Nat) :
    (zeros states inputs outputs).IsOfDimensions states inputs outputs where
  a := isOfShape_zeroMatrix states states
  b := isOfShape_zeroMatrix states inputs
  c := isOfShape_zeroMatrix outputs states
  d := isOfShape_zeroMatrix outputs inputs

theorem IsOfShape.width_eq (h : IsOfShape matrix rows columns) (hrows : 0 < rows ∨ columns = 0) :
    (matrix.head?.map List.length).getD 0 = columns := by
  obtain ⟨rfl, hcolumns⟩ := h
  cases matrix with
  | nil =>
    rcases hrows with hpos | rfl
    · contradiction
    · rfl
  | cons row matrix => exact hcolumns row List.mem_cons_self

/-- The dimensions are read from the shapes, but for inputs that no row of the second matrix
tells. -/
theorem IsOfDimensions.dimensions_eq (h : m.IsOfDimensions states inputs outputs)
    (htold : 0 < states ∨ inputs = 0) : m.dimensions = (states, inputs, outputs) := by
  rw [dimensions, h.a.rows_eq, h.b.width_eq htold, h.c.rows_eq]

/-- States and outputs of a zero model always come back, and so do the inputs if there are states or
no inputs. Without states and outputs all numbers of inputs belong to one and the same model. -/
theorem dimensions_of_zeros (states inputs outputs : Nat) :
    (zeros states inputs outputs).IsOfDimensions states inputs outputs ∧
    (zeros states inputs outputs).dimensions.1 = states ∧
    (zeros states inputs outputs).dimensions.2.2 = outputs ∧
    (0 < states ∨ inputs = 0 →
      (zeros states inputs outputs).dimensions = (states, inputs, outputs)) ∧
    zeros 0 inputs 0 = zeros 0 0 0 := by
  have hzeros := isOfDimensions_zeros states inputs outputs
  refine ⟨hzeros, hzeros.a.rows_eq, hzeros.c.rows_eq, hzeros.dimensions_eq, ?_⟩
  rfl

/-- Two inputs without states and outputs do not come back, whatever is read from the matrices. -/
theorem dimensions_of_inputs_alone :
    (zeros 0 2 0).dimensions = (0, 0, 0) ∧
    (zeros 0 2 0).dimensions ≠ (0, 2, 0) ∧
    ¬ ∃ read : LinearModel → Nat × Nat × Nat,
      ∀ inputs, read (zeros 0 inputs 0) = (0, inputs, 0) := by
  refine ⟨rfl, by decide, ?_⟩
  rintro ⟨read, hread⟩
  have hsame : ((0, 0, 0) : Nat × Nat × Nat) = (0, 2, 0) := (hread 0).symm.trans (hread 2)
  contradiction

end LinearModel

end MotionExport
