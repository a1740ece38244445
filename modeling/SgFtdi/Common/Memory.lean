import Mathlib.Algebra.Ring.Nat
import Mathlib.Data.List.Basic

/-!
# Blocks of memory

A block is the list of its cells. `slice` reads from it, `overwrite` is
`memcpy` into it, and `memmove` copies within it. A cell that was not
written to reads as before.
-/

namespace SgFtdi

variable {α : Type} {mem xs : List α} {i j n k : ℕ}

/-- `n` cells of a block from `i` on. -/
def slice (mem : List α) (i n : ℕ) : List α := (mem.drop i).take n

/-- Write to a block from `i` on. -/
def overwrite (mem : List α) (i : ℕ) (xs : List α) : List α :=
  mem.take i ++ xs ++ mem.drop (i + xs.length)

/-- Copy within a block, which is read before it is written to. -/
def memmove (mem : List α) (dst src n : ℕ) : List α := overwrite mem dst (slice mem src n)

theorem length_slice (h : i + n ≤ mem.length) : (slice mem i n).length = n := by
  rw [slice, List.length_take, List.length_drop]
  omega

theorem slice_add (mem : List α) (i n k : ℕ) :
    slice mem i (n + k) = slice mem i n ++ slice mem (i + n) k := by
  rw [slice, slice, slice, List.take_add, List.drop_drop]

theorem slice_of_drop_eq {mem' : List α} (h : mem'.drop i = mem.drop i) (hj : i ≤ j) :
    slice mem' j n = slice mem j n := by
  obtain ⟨d, rfl⟩ := Nat.exists_eq_add_of_le hj
  rw [slice, slice, ← List.drop_drop, h, List.drop_drop]

theorem slice_of_take_eq {mem' : List α} (h : mem'.take i = mem.take i) (hj : j + n ≤ i) :
    slice mem' j n = slice mem j n := by
  have hcut : ∀ l : List α, slice l j n = ((l.take i).drop j).take n := by
    intro l
    rw [slice, List.drop_take, List.take_take, min_eq_left (by omega)]
  rw [hcut, hcut, h]

theorem length_overwrite (h : i + xs.length ≤ mem.length) :
    (overwrite mem i xs).length = mem.length := by
  rw [overwrite, List.length_append, List.length_append, List.length_take, List.length_drop]
  omega

/-- **What stands before a write** reads as before. -/
theorem take_overwrite (h : i ≤ mem.length) (hj : j ≤ i) :
    (overwrite mem i xs).take j = mem.take j := by
  have hlen : (mem.take i).length = i := by
    rw [List.length_take]
    omega
  rw [overwrite, List.append_assoc, List.take_append_of_le_length (by omega), List.take_take,
    min_eq_left hj]

/-- **What stands behind a write** reads as before. -/
theorem drop_overwrite (h : i ≤ mem.length) (hj : i + xs.length ≤ j) :
    (overwrite mem i xs).drop j = mem.drop j := by
  have hlen : (mem.take i ++ xs).length = i + xs.length := by
    rw [List.length_append, List.length_take]
    omega
  obtain ⟨d, rfl⟩ := Nat.exists_eq_add_of_le hj
  rw [overwrite, ← List.drop_drop, ← hlen, List.drop_left, List.drop_drop]

/-- **What was written** is read back. -/
theorem slice_overwrite (h : i ≤ mem.length) : slice (overwrite mem i xs) i xs.length = xs := by
  have hlen : (mem.take i).length = i := by
    rw [List.length_take]
    omega
  rw [slice, overwrite, List.append_assoc, List.drop_left' hlen, List.take_left]

/-- **Up to the end of what was written** stands what was before it, and
that. -/
theorem take_overwrite_add (xs : List α) (h : i ≤ mem.length) :
    (overwrite mem i xs).take (i + xs.length) = mem.take i ++ xs := by
  have hlen : (mem.take i ++ xs).length = i + xs.length := by
    rw [List.length_append, List.length_take]
    omega
  rw [overwrite, List.take_left' hlen]

section Memmove

variable {dst src : ℕ}

theorem length_memmove (hs : src + n ≤ mem.length) (hd : dst + n ≤ mem.length) :
    (memmove mem dst src n).length = mem.length :=
  length_overwrite (by rw [length_slice hs]; exact hd)

theorem take_memmove (hd : dst ≤ mem.length) :
    (memmove mem dst src n).take dst = mem.take dst := take_overwrite hd le_rfl

theorem drop_memmove (hs : src + n ≤ mem.length) (hd : dst ≤ mem.length) :
    (memmove mem dst src n).drop (dst + n) = mem.drop (dst + n) :=
  drop_overwrite hd (by rw [length_slice hs])

theorem slice_memmove (hs : src + n ≤ mem.length) (hd : dst ≤ mem.length) :
    slice (memmove mem dst src n) dst n = slice mem src n := by
  have hlen := length_slice hs
  have hback : slice (memmove mem dst src n) dst (slice mem src n).length = slice mem src n :=
    slice_overwrite hd
  rwa [hlen] at hback

end Memmove

end SgFtdi
