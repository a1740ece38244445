import Mathlib.Data.List.Basic
import Mathlib.Data.List.Nodup
import Mathlib.Data.List.Range
import Mathlib.Data.List.Sort

/-!
# Containers

The containers that a program keeps its entries in, read as lists: an
unordered set, a multimap, and a list whose entries are changed in place.
-/

namespace SgFtdi

/-! ## An unordered set

A set of keys kept without repetition, walked in an order nobody
promises. The order is a `Shuffle`, which loses and invents nothing. -/

/-- Keys without repetition. -/
structure Unordered (α : Type) where
  elems : List α
  nodup : elems.Nodup
deriving DecidableEq

/-- A reordering of any list. -/
structure Shuffle where
  run : ∀ {α : Type}, List α → List α
  perm : ∀ {α : Type} (l : List α), (run l).Perm l

namespace Unordered

variable {α : Type}

instance : Membership α (Unordered α) where
  mem s a := a ∈ s.elems

/-- The empty set. -/
def empty : Unordered α := ⟨[], List.nodup_nil⟩

/-- Add a key that may be there already. -/
def insert [DecidableEq α] (s : Unordered α) (a : α) : Unordered α :=
  ⟨s.elems.insert a, s.nodup.insert⟩

/-- Take a key out, if it is there. -/
def erase [DecidableEq α] (s : Unordered α) (a : α) : Unordered α :=
  ⟨s.elems.erase a, s.nodup.erase a⟩

/-- The keys in the order a walk meets them. -/
def walk (s : Unordered α) (order : Shuffle) : List α := order.run s.elems

@[simp] theorem not_mem_empty {a : α} : ¬ a ∈ (empty : Unordered α) := List.not_mem_nil

@[simp] theorem mem_insert [DecidableEq α] {s : Unordered α} {a b : α} :
    b ∈ s.insert a ↔ b = a ∨ b ∈ s := List.mem_insert_iff

@[simp] theorem mem_erase [DecidableEq α] {s : Unordered α} {a b : α} :
    b ∈ s.erase a ↔ b ≠ a ∧ b ∈ s := s.nodup.mem_erase_iff

@[simp] theorem mem_walk {s : Unordered α} {order : Shuffle} {a : α} :
    a ∈ s.walk order ↔ a ∈ s := (order.perm s.elems).mem_iff

end Unordered

/-! ## A multimap, by insertion order

A multimap that only grows while it is in use is the list of its values
in the order they were inserted, each with its key. The place of a value
in that list names it for good. A key's range is the places holding it,
oldest first, and the whole map is walked by key, oldest first among
equal keys. -/

namespace Multimap

variable {α κ : Type}

/-- The places of the values under one key, oldest first. -/
def equalRange [DecidableEq κ] (key : α → κ) (k : κ) (xs : List α) : List ℕ :=
  (List.range xs.length).filter fun i => xs[i]?.map key = some k

/-- The places of the whole map, by key and oldest first among equal keys. -/
def inOrder [LinearOrder κ] (key : α → κ) (xs : List α) : List ℕ :=
  (List.range xs.length).insertionSort fun i j =>
    ∀ a ∈ xs[i]?, ∀ b ∈ xs[j]?, key a ≤ key b

theorem mem_equalRange [DecidableEq κ] {key : α → κ} {k : κ} {xs : List α} {i : ℕ} :
    i ∈ equalRange key k xs ↔ ∃ a, xs[i]? = some a ∧ key a = k := by
  simp only [equalRange, List.mem_filter, List.mem_range, decide_eq_true_eq, Option.map_eq_some_iff]
  constructor
  · rintro ⟨-, h⟩
    exact h
  · rintro ⟨a, ha, hk⟩
    exact ⟨(List.getElem?_eq_some_iff.mp ha).1, a, ha, hk⟩

theorem mem_inOrder [LinearOrder κ] {key : α → κ} {xs : List α} {i : ℕ} :
    i ∈ inOrder key xs ↔ i < xs.length := by
  rw [inOrder, List.mem_insertionSort, List.mem_range]

/-! ### Keys that stand at one place -/

/-- A key stands at one place of a list of keys at most. -/
def Once (k : κ) (ks : List κ) : Prop := ∀ i j : ℕ, ks[i]? = some k → ks[j]? = some k → i = j

theorem Once.of_prefix {k : κ} {ks ks' : List κ} (h : Once k ks') (hp : ks <+: ks') :
    Once k ks := by
  obtain ⟨rest, rfl⟩ := hp
  intro i j hi hj
  have hold : ∀ n : ℕ, ks[n]? = some k → (ks ++ rest)[n]? = some k := fun n hn => by
    rw [List.getElem?_append_left (List.getElem?_eq_some_iff.mp hn).1, hn]
  exact h i j (hold i hi) (hold j hj)

/-- Two places hold it twice. -/
theorem once_of_count [BEq κ] [LawfulBEq κ] {k : κ} {ks : List κ} (h : ks.count k ≤ 1) :
    Once k ks := by
  have hlt : ∀ i j : ℕ, i < j → ks[i]? = some k → ks[j]? ≠ some k := by
    intro i j hij hi hj
    have hfront : k ∈ ks.take j := List.mem_of_getElem? (i := i) (by
      rw [List.getElem?_take_of_lt hij, hi])
    have hback : k ∈ ks.drop j := List.mem_of_getElem? (i := 0) (by
      rw [List.getElem?_drop, Nat.add_zero, hj])
    have hcount : ks.count k = (ks.take j).count k + (ks.drop j).count k := by
      rw [← List.count_append, List.take_append_drop]
    have h₁ := List.count_pos_iff.mpr hfront
    have h₂ := List.count_pos_iff.mpr hback
    omega
  intro i j hi hj
  rcases Nat.lt_trichotomy i j with hij | hij | hij
  · exact absurd hj (hlt i j hij hi)
  · exact hij
  · exact absurd hi (hlt j i hij hj)

end Multimap

/-! ## Slots

A list whose entries are changed one at a time, in place. What an index
points to stays there, and of a kind of entries that there is at most one
of, a change to it is a change to the whole kind. -/

section Slots

variable {α : Type} {l : List α} {i j : ℕ} {a : α} {f g : α → α} {P : α → Bool}

/-- A change depends on the entry it changes only. -/
theorem modify_congr (h : l[i]? = some a) (hf : f a = g a) : l.modify i f = l.modify i g := by
  refine List.ext_getElem? fun j => ?_
  rw [List.getElem?_modify, List.getElem?_modify]
  by_cases hj : i = j
  · subst hj
    simp [h, hf]
  · simp [hj]

/-- Two changes to one entry are one. -/
theorem modify_modify_const (h : l[i]? = some a) :
    (l.modify i f).modify i g = l.modify i fun _ => g (f a) := by
  rw [List.modify_modify_eq]
  exact modify_congr h rfl

theorem getElem?_modify_of_some (h : l[i]? = some a) : (l.modify i f)[i]? = some (f a) := by
  rw [List.getElem?_modify_eq, h]
  rfl

/-- **What holds of every entry** still does, if it does of the changed one. -/
theorem forall_mem_modify {Q : α → Prop} (h : ∀ x ∈ l, Q x)
    (hf : ∀ a, l[i]? = some a → Q (f a)) : ∀ x ∈ l.modify i f, Q x := by
  intro x hx
  rcases h' : l[i]? with _ | a
  · rw [List.modify_eq_self (List.getElem?_eq_none_iff.mp h')] at hx
    exact h x hx
  · obtain ⟨hlt, ha⟩ := List.getElem?_eq_some_iff.mp h'
    rw [List.modify_eq_take_cons_drop hlt, ha, List.mem_append, List.mem_cons] at hx
    rcases hx with hx | rfl | hx
    · exact h x (List.mem_of_mem_take hx)
    · exact hf a h'
    · exact h x (List.mem_of_mem_drop hx)

/-- An entry splits its list. -/
theorem exists_split (h : l[i]? = some a) (f : α → α) :
    ∃ front back, l = front ++ a :: back ∧ l.modify i f = front ++ f a :: back := by
  obtain ⟨hlt, ha⟩ := List.getElem?_eq_some_iff.mp h
  refine ⟨l.take i, l.drop (i + 1), ?_, ?_⟩
  · rw [← ha, ← List.drop_eq_getElem_cons hlt, List.take_append_drop]
  · rw [List.modify_eq_take_cons_drop hlt, ha]

/-- A change outside a kind. -/
theorem filter_modify_of_false (h : l[i]? = some a) (ha : P a = false) (hf : P (f a) = false) :
    (l.modify i f).filter P = l.filter P := by
  obtain ⟨front, back, hl, hm⟩ := exists_split h f
  rw [hm, hl, List.filter_append, List.filter_append, List.filter_cons_of_neg (by rw [hf]; decide),
    List.filter_cons_of_neg (by rw [ha]; decide)]

/-- **A change to the one entry of its kind.** -/
theorem filter_modify_of_single (h : l[i]? = some a) (ha : P a = true)
    (hone : (l.filter P).length ≤ 1) :
    l.filter P = [a] ∧ (l.modify i f).filter P = [f a].filter P := by
  obtain ⟨front, back, hl, hm⟩ := exists_split h f
  rw [hl, List.filter_append, List.filter_cons_of_pos ha, List.length_append,
    List.length_cons] at hone
  have hfront : front.filter P = [] := List.eq_nil_of_length_eq_zero (by omega)
  have hback : back.filter P = [] := List.eq_nil_of_length_eq_zero (by omega)
  constructor
  · rw [hl, List.filter_append, List.filter_cons_of_pos ha, hfront, hback]
    rfl
  · rw [hm, List.filter_append, hfront, List.nil_append, ← List.singleton_append,
      List.filter_append, hback, List.append_nil]

end Slots

end SgFtdi
