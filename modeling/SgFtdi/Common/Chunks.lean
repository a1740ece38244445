import Mathlib.Algebra.Order.Group.Nat
import Mathlib.Data.List.Sort

/-!
# Cutting a list into chunks

`chunks p l` cuts a list from the front into pieces of `p`, the last of
which may be shorter. Nothing is cut with `p = 0`. Pieces that were made
to this size are found again by cutting what they were put together to.
-/

namespace SgFtdi

variable {α : Type}

/-- Cut a list, in at most so many turns. -/
def cut (p : ℕ) : ℕ → List α → List (List α)
  | _, [] => []
  | 0, _ :: _ => []
  | turns + 1, l => l.take p :: cut p turns (l.drop p)

/-- **The chunks of a list.** -/
def chunks (p : ℕ) (l : List α) : List (List α) := if p = 0 then [] else cut p l.length l

@[simp] theorem chunks_nil (p : ℕ) : chunks p ([] : List α) = [] := by
  unfold chunks
  split <;> rfl

/-- The number of turns does not matter, once there are enough. -/
theorem cut_eq_of_le {p : ℕ} (hp : 0 < p) : ∀ {turns turns' : ℕ} {l : List α},
    l.length ≤ turns → l.length ≤ turns' → cut p turns l = cut p turns' l := by
  intro turns
  induction turns with
  | zero =>
      intro turns' l h _
      have : l = [] := List.eq_nil_of_length_eq_zero (by omega)
      subst this
      cases turns' <;> rfl
  | succ turns ih =>
      intro turns' l h h'
      cases l with
      | nil => cases turns' <;> rfl
      | cons a l =>
          cases turns' with
          | zero => simp at h'
          | succ turns' =>
              have hd : ((a :: l).drop p).length ≤ l.length := by
                simp only [List.length_drop, List.length_cons]
                omega
              simp only [List.length_cons] at h h'
              simp only [cut]
              rw [ih (by omega) (by omega : ((a :: l).drop p).length ≤ turns')]

/-- **The chunks of a list that is not empty** are its first `p` elements
and the chunks of the rest. -/
theorem chunks_eq_cons {p : ℕ} (hp : 0 < p) {l : List α} (hl : l ≠ []) :
    chunks p l = l.take p :: chunks p (l.drop p) := by
  unfold chunks
  rw [if_neg (by omega), if_neg (by omega)]
  obtain ⟨a, t, rfl⟩ := List.exists_cons_of_ne_nil hl
  have hd : ((a :: t).drop p).length ≤ t.length := by
    simp only [List.length_drop, List.length_cons]
    omega
  simp only [List.length_cons, cut]
  rw [cut_eq_of_le hp hd le_rfl]

/-- A list no longer than a chunk is one chunk. -/
theorem chunks_of_le {p : ℕ} {l : List α} (hl : l ≠ []) (h : l.length ≤ p) : chunks p l = [l] := by
  have hp : 0 < p := lt_of_lt_of_le (List.length_pos_iff.mpr hl) h
  rw [chunks_eq_cons hp hl, List.take_of_length_le h, List.drop_of_length_le h, chunks_nil]

/-- A full first piece is the first chunk. -/
theorem chunks_append {p : ℕ} (hp : 0 < p) {l l' : List α} (h : l.length = p) :
    chunks p (l ++ l') = l :: chunks p l' := by
  have hl : l ++ l' ≠ [] := by
    intro hc
    rw [List.append_eq_nil_iff] at hc
    rw [hc.1] at h
    simp at h
    omega
  rw [chunks_eq_cons hp hl, List.take_left' h, List.drop_left' h]

/-- **Full chunks in front** stay the first chunks. -/
theorem chunks_append_of_dvd {p : ℕ} (hp : 0 < p) {l' : List α} : ∀ {l : List α},
    p ∣ l.length → chunks p (l ++ l') = chunks p l ++ chunks p l' := by
  intro l
  induction hn : l.length using Nat.strong_induction_on generalizing l with
  | _ n ih =>
    intro hdvd
    by_cases hl : l = []
    · rw [hl, chunks_nil]
      rfl
    · have hpos := List.length_pos_iff.mpr hl
      have hle := Nat.le_of_dvd (by omega) hdvd
      have htake : (l.take p).length = p := by
        rw [List.length_take]
        omega
      have hdrop : (l.drop p).length = n - p := by
        rw [List.length_drop, hn]
      have hrest :=
        ih (n - p) (by omega) hdrop ((Nat.dvd_sub_iff_left hle (Nat.dvd_refl p)).mpr hdvd)
      rw [chunks_eq_cons hp hl, List.cons_append, ← hrest, ← chunks_append hp htake,
        ← List.append_assoc, List.take_append_drop]

/-- **The chunks put together again** are the list. -/
theorem flatten_chunks {p : ℕ} (hp : 0 < p) (l : List α) : (chunks p l).flatten = l := by
  induction hn : l.length using Nat.strong_induction_on generalizing l with
  | _ n ih =>
    by_cases hl : l = []
    · subst hl
      simp
    · have hpos := List.length_pos_iff.mpr hl
      rw [chunks_eq_cons hp hl, List.flatten_cons,
        ih (l.drop p).length (by simp only [List.length_drop]; omega) _ rfl, List.take_append_drop]

/-- No chunk is longer than the list. -/
theorem length_le_of_mem_chunks {p : ℕ} {l c : List α} (h : c ∈ chunks p l) :
    c.length ≤ l.length := by
  rcases Nat.eq_zero_or_pos p with hp | hp
  · rw [chunks, if_pos hp] at h
    exact absurd h List.not_mem_nil
  · rw [← flatten_chunks hp l]
    exact (List.sublist_flatten_of_mem h).length_le

/-- **The number of chunks** is the length over the size of a chunk, rounded
up. -/
theorem length_chunks {p : ℕ} (hp : 0 < p) (l : List α) :
    (chunks p l).length = (l.length + p - 1) / p := by
  induction hn : l.length using Nat.strong_induction_on generalizing l with
  | _ n ih =>
    by_cases hl : l = []
    · subst hl
      rw [List.length_nil] at hn
      subst hn
      rw [chunks_nil, List.length_nil, Nat.div_eq_of_lt (by omega)]
    · have hpos := List.length_pos_iff.mpr hl
      have hdrop : (l.drop p).length = n - p := by rw [List.length_drop, hn]
      rw [chunks_eq_cons hp hl, List.length_cons, ih (n - p) (by omega) _ hdrop]
      have hround : n + p - 1 = (n - 1) + p := by omega
      rw [hround, Nat.add_div_right _ hp]
      rcases Nat.lt_or_ge n p with hlt | hge
      · rw [Nat.div_eq_of_lt (by omega), Nat.div_eq_of_lt (by omega)]
      · have hrest : n - p + p - 1 = n - 1 := by omega
        rw [hrest]

/-- No chunk is empty. -/
theorem ne_nil_of_mem_chunks {p : ℕ} {l c : List α} (h : c ∈ chunks p l) : c ≠ [] := by
  rcases Nat.eq_zero_or_pos p with hp | hp
  · rw [chunks, if_pos hp] at h
    exact absurd h List.not_mem_nil
  · induction hn : l.length using Nat.strong_induction_on generalizing l with
    | _ n ih =>
      by_cases hl : l = []
      · rw [hl, chunks_nil] at h
        exact absurd h List.not_mem_nil
      · have hpos := List.length_pos_iff.mpr hl
        rw [chunks_eq_cons hp hl] at h
        rcases List.mem_cons.mp h with rfl | h
        · intro hnil
          have hlen := congrArg List.length hnil
          rw [List.length_take, List.length_nil] at hlen
          omega
        · exact ih (l.drop p).length (by rw [List.length_drop]; omega) h rfl

/-- **Pieces as a chunked sender makes them**: not empty, each as long as a
chunk but for the last, which may be shorter. -/
structure Framed (p : ℕ) (ls : List (List α)) : Prop where
  nonempty : ∀ l ∈ ls, l ≠ []
  full : ∀ l ∈ ls.dropLast, l.length = p
  fits : ∀ l ∈ ls, l.length ≤ p

namespace Framed

variable {p q : ℕ} {l : List α} {ls : List (List α)}

theorem nil : Framed p ([] : List (List α)) := ⟨by simp, by simp, by simp⟩

theorem tail (h : Framed p (l :: ls)) : Framed p ls := by
  refine ⟨fun k hk => h.nonempty k (List.mem_cons_of_mem _ hk), fun k hk => ?_,
    fun k hk => h.fits k (List.mem_cons_of_mem _ hk)⟩
  have hls : ls ≠ [] := fun hn => by simp [hn] at hk
  refine h.full k ?_
  rw [List.dropLast_cons_of_ne_nil hls]
  exact List.mem_cons_of_mem _ hk

/-- A piece with another one behind it is full. -/
theorem head_length (h : Framed p (l :: ls)) (hls : ls ≠ []) : l.length = p := by
  refine h.full l ?_
  rw [List.dropLast_cons_of_ne_nil hls]
  exact List.mem_cons_self

/-- What fits into one chunk was at most one piece. -/
theorem of_le (h : Framed p ls) (hq : q ≤ p) (hlen : ls.flatten.length ≤ q) : Framed q ls := by
  cases ls with
  | nil => exact .nil
  | cons l ls =>
      have hl : ls = [] := by
        by_contra hls
        obtain ⟨l', ls, rfl⟩ := List.exists_cons_of_ne_nil hls
        have hfull := h.head_length hls
        have hpos := List.length_pos_iff.mpr (h.nonempty l' (by simp))
        simp only [List.flatten_cons, List.length_append] at hlen
        omega
      subst hl
      rw [List.flatten_cons, List.flatten_nil, List.append_nil] at hlen
      exact ⟨h.nonempty, by simp, fun k hk => by rw [List.mem_singleton.mp hk]; exact hlen⟩

end Framed

/-- **Pieces put together are cut where they were joined.** -/
theorem chunks_flatten {p : ℕ} (hp : 0 < p) {ls : List (List α)} (h : Framed p ls) :
    chunks p ls.flatten = ls := by
  induction ls with
  | nil => exact chunks_nil p
  | cons l ls ih =>
      have hl := h.nonempty l List.mem_cons_self
      rw [List.flatten_cons]
      by_cases hls : ls = []
      · subst hls
        rw [List.flatten_nil, List.append_nil]
        exact chunks_of_le hl (h.fits l List.mem_cons_self)
      · rw [chunks_append hp (h.head_length hls), ih h.tail]

end SgFtdi
