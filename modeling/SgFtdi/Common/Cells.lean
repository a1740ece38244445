import Mathlib.Algebra.Ring.Nat
import Mathlib.Data.List.Basic
import Mathlib.Data.List.GetD

/-!
# A block of cells, and the bits of a byte

A block has a fixed number of cells, each of which can be read and set on
its own. Reading outside a block gives the default value, and setting or
writing outside does nothing; `write` sets a row of cells.
-/

namespace SgFtdi

/-- A block of `n` cells. -/
structure Cells (n : ℕ) (α : Type) where
  cell : Fin n → α

namespace Cells

variable {n : ℕ} {α : Type} [Inhabited α] {m m' : Cells n α} {a b i : ℕ} {v : α} {xs ys : List α}

/-- Read a cell. -/
def get (m : Cells n α) (a : ℕ) : α := if h : a < n then m.cell ⟨a, h⟩ else default

/-- Set a cell. -/
def set (m : Cells n α) (a : ℕ) (v : α) : Cells n α := ⟨fun b => if b.val = a then v else m.cell b⟩

/-- Set every cell from `lo` on and below `hi`. -/
def fill (m : Cells n α) (lo hi : ℕ) (v : α) : Cells n α :=
  ⟨fun b => if lo ≤ b.val ∧ b.val < hi then v else m.cell b⟩

/-- Set the cells from `i` on to the values of a list. -/
def write (m : Cells n α) (i : ℕ) (xs : List α) : Cells n α :=
  ⟨fun b => if i ≤ b.val then xs.getD (b.val - i) (m.cell b) else m.cell b⟩

/-- The `k` cells from `i` on. -/
def read (m : Cells n α) (i k : ℕ) : List α := (List.range k).map fun j => m.get (i + j)

/-- A block is its cells. -/
theorem ext_get (h : ∀ a < n, m.get a = m'.get a) : m = m' := by
  rcases m with ⟨f⟩
  rcases m' with ⟨g⟩
  congr 1
  funext b
  have hb := h b.val b.isLt
  simpa [get] using hb

theorem get_set : (m.set a v).get b = if b = a ∧ b < n then v else m.get b := by
  unfold get set
  by_cases hb : b < n
  · simp only [hb, dif_pos, and_true]
  · simp only [hb, dif_neg, not_false_iff, and_false, if_false]

@[simp] theorem get_set_ne (h : b ≠ a) : (m.set a v).get b = m.get b := by
  rw [get_set, if_neg fun hb => h hb.1]

@[simp] theorem get_set_self (h : a < n) : (m.set a v).get a = v := by
  rw [get_set, if_pos ⟨rfl, h⟩]

/-- A cell that is set to what it was. -/
theorem set_get_self : m.set a (m.get a) = m := by
  refine ext_get fun b hb => ?_
  rw [get_set]
  split
  · next h => rw [h.1]
  · rfl

/-- The last value that is set is the one that stays. -/
theorem set_set {w : α} : (m.set a v).set a w = m.set a w := by
  refine ext_get fun b hb => ?_
  rw [get_set, get_set, get_set]
  split <;> rfl

theorem get_fill {lo hi : ℕ} :
    (m.fill lo hi v).get b = if lo ≤ b ∧ b < hi ∧ b < n then v else m.get b := by
  unfold get fill
  by_cases hb : b < n
  · simp only [hb, dif_pos, and_true]
  · simp only [hb, dif_neg, not_false_iff, and_false, if_false]

section Loop

variable {f : ℕ → α} {k j : ℕ}

/-- A loop that sets one cell after another, from `i` on. -/
theorem get_loop_of_out (h : b < i ∨ i + k ≤ b) :
    ((List.range k).foldl (fun m j => m.set (i + j) (f j)) m).get b = m.get b := by
  induction k with
  | zero => rfl
  | succ k ih =>
      rw [List.range_succ, List.foldl_append, List.foldl_cons, List.foldl_nil,
        get_set_ne (by omega), ih (by omega)]

/-- A cell that a loop sets. -/
theorem get_loop (hj : j < k) (hn : i + k ≤ n) :
    ((List.range k).foldl (fun m j => m.set (i + j) (f j)) m).get (i + j) = f j := by
  induction k with
  | zero => exact absurd hj (Nat.not_lt_zero j)
  | succ k ih =>
      rw [List.range_succ, List.foldl_append, List.foldl_cons, List.foldl_nil]
      rcases Nat.lt_succ_iff_lt_or_eq.mp hj with hlt | rfl
      · rw [get_set_ne (by omega), ih hlt (by omega)]
      · exact get_set_self (by omega)

end Loop

/-- A cell outside of what is written. -/
theorem get_write_of_out (h : b < i ∨ i + xs.length ≤ b) : (m.write i xs).get b = m.get b := by
  unfold get write
  by_cases hb : b < n
  · simp only [hb, dif_pos]
    split
    · rw [List.getD_eq_default]
      omega
    · rfl
  · simp only [hb, dif_neg, not_false_iff]

/-- A cell of what is written. -/
theorem get_write (hb : i + a < n) (h : a < xs.length) : (m.write i xs).get (i + a) = xs[a] := by
  unfold get write
  simp only [hb, dif_pos]
  rw [if_pos (Nat.le_add_right i a), Nat.add_sub_cancel_left, List.getD_eq_getElem _ _ h]

theorem get_write_zero (ha : a < n) (h : a < xs.length) : (m.write 0 xs).get a = xs[a] := by
  have hcell : (m.write 0 xs).get (0 + a) = xs[a] := get_write (by omega) h
  rwa [Nat.zero_add] at hcell

theorem write_nil : m.write i [] = m :=
  ext_get fun _ _ => get_write_of_out (by rw [List.length_nil]; omega)

/-- One cell after another. -/
theorem write_cons : m.write i (v :: xs) = (m.set i v).write (i + 1) xs := by
  refine ext_get fun b hb => ?_
  rcases Nat.lt_trichotomy b i with h | h | h
  · rw [get_write_of_out (.inl h), get_write_of_out (.inl (by omega)), get_set_ne (by omega)]
  · subst h
    rw [get_write_of_out (.inl (Nat.lt_succ_self b)), get_set_self hb]
    have hhead : (m.write b (v :: xs)).get (b + 0) = (v :: xs)[0] := get_write hb (by simp)
    exact hhead
  · rcases Nat.lt_or_ge b (i + 1 + xs.length) with hin | hout
    · obtain ⟨d, rfl⟩ := Nat.exists_eq_add_of_le (show i + 1 ≤ b from h)
      have hassoc : i + 1 + d = i + (d + 1) := by omega
      rw [get_write hb (by omega), hassoc, get_write (by omega) (by simp; omega)]
      rfl
    · rw [get_write_of_out (.inr hout), get_set_ne (by omega), get_write_of_out]
      rw [List.length_cons]
      omega

theorem get_write_pair {w : α} (h : i + 1 < n) :
    (m.write i [v, w]).get b = if b = i then v else if b = i + 1 then w else m.get b := by
  rw [write_cons, write_cons, write_nil, get_set, get_set]
  split_ifs <;> first | rfl | omega

@[simp] theorem length_read {k : ℕ} : (m.read i k).length = k := by
  rw [read, List.length_map, List.length_range]

/-- What is read depends on the cells that are read. -/
theorem read_congr {k : ℕ} (h : ∀ a, i ≤ a → a < i + k → m.get a = m'.get a) :
    m.read i k = m'.read i k := by
  refine List.map_congr_left fun j hj => ?_
  rw [List.mem_range] at hj
  exact h _ (by omega) (by omega)

/-- What two reads have in common. -/
theorem read_inj {i' k j : ℕ} (h : m.read i k = m'.read i' k) (hj : j < k) :
    m.get (i + j) = m'.get (i' + j) := by
  unfold read at h
  exact List.map_inj_left.mp h j (List.mem_range.mpr hj)

theorem read_set_of_out {k : ℕ} (h : a < i ∨ i + k ≤ a) : (m.set a v).read i k = m.read i k :=
  read_congr fun _ hlow hhigh => get_set_ne (by omega)

theorem read_write_of_out {j k : ℕ} (h : i + k ≤ j ∨ j + xs.length ≤ i) :
    (m.write j xs).read i k = m.read i k :=
  read_congr fun _ hlow hhigh => get_write_of_out (by omega)

/-- What was written is read back. -/
theorem read_write (h : i + xs.length ≤ n) : (m.write i xs).read i xs.length = xs := by
  refine List.ext_getElem (by simp) fun j hj hj' => ?_
  rw [length_read] at hj
  simp only [read, List.getElem_map, List.getElem_range]
  exact get_write (by omega) hj

end Cells

/-! ## Bits

A field of a byte is read through a mask. Setting or clearing the bits of
one mask changes what is read through it, and nothing that is read
through a mask that has no bit in common. -/

section Bits

/-- Set the bits of a mask in a byte, or clear them. -/
def putBits (x mask : UInt8) (on : Bool) : UInt8 := if on then x ||| mask else x &&& ~~~mask

variable {x y mask other : UInt8} {on : Bool}

/-- Bytes are equal bit by bit. -/
theorem byte_ext (h : ∀ i < 8, x.toBitVec.getLsbD i = y.toBitVec.getLsbD i) : x = y :=
  UInt8.eq_of_toBitVec_eq (BitVec.eq_of_getLsbD_eq h)

theorem bit_and (i : ℕ) : (x &&& y).toBitVec.getLsbD i =
    (x.toBitVec.getLsbD i && y.toBitVec.getLsbD i) := by
  rw [UInt8.toBitVec_and, BitVec.getLsbD_and]

theorem bit_or (i : ℕ) : (x ||| y).toBitVec.getLsbD i =
    (x.toBitVec.getLsbD i || y.toBitVec.getLsbD i) := by
  rw [UInt8.toBitVec_or, BitVec.getLsbD_or]

theorem bit_not {i : ℕ} (hi : i < 8) : (~~~x).toBitVec.getLsbD i = !x.toBitVec.getLsbD i := by
  rw [UInt8.toBitVec_not, BitVec.getLsbD_not]
  simp [hi]

theorem bit_zero (i : ℕ) : (0 : UInt8).toBitVec.getLsbD i = false := by
  simp

/-- **The bits that were set** are all read, and those that were cleared are
not. -/
theorem putBits_and_self : putBits x mask on &&& mask = if on then mask else 0 := by
  refine byte_ext fun i hi => ?_
  cases on
  · simp only [putBits, Bool.false_eq_true, if_false, bit_and, bit_not hi, bit_zero]
    cases mask.toBitVec.getLsbD i <;> simp
  · simp only [putBits, if_true, bit_and, bit_or]
    cases mask.toBitVec.getLsbD i <;> simp

/-- **The other bits** are read as before. -/
theorem putBits_and_of_disjoint (h : mask &&& other = 0) :
    putBits x mask on &&& other = x &&& other := by
  refine byte_ext fun i hi => ?_
  have hbit : (mask &&& other).toBitVec.getLsbD i = false := by rw [h, bit_zero]
  rw [bit_and] at hbit
  cases on
  · simp only [putBits, Bool.false_eq_true, if_false, bit_and, bit_not hi]
    cases ho : other.toBitVec.getLsbD i
    · simp
    · rw [ho, Bool.and_true] at hbit
      simp [hbit]
  · simp only [putBits, if_true, bit_and, bit_or]
    cases ho : other.toBitVec.getLsbD i
    · simp
    · rw [ho, Bool.and_true] at hbit
      simp [hbit]

end Bits

end SgFtdi
