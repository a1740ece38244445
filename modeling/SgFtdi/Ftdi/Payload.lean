import SgFtdi.Common.Chunks
import SgFtdi.Ftdi.Data

/-!
# The data in what a chip sends

A transfer is cut into packets, the last of which may be shorter, and each
packet is two status bytes and data. `skipStatus` takes the status bytes
out where the transfer stands, by moving the data of one packet after
another to the front: packet `i` moves to a place before packet `i + 1`,
so none is overwritten before its turn.
-/

namespace SgFtdi

namespace Ftdi

variable {p : ℕ} {mem : List UInt8} {i n r : ℕ}

/-- **The data of a transfer**: every packet without its status bytes. -/
def payload (p : ℕ) (data : List UInt8) : List UInt8 :=
  (chunks p data).flatMap fun packet => packet.drop 2

/-- Nothing but status bytes. -/
theorem payload_of_length_le_two (hp : 2 < p) {data : List UInt8} (h : data.length ≤ 2) :
    payload p data = [] := by
  by_cases hd : data = []
  · rw [hd, payload, chunks_nil]
    rfl
  · rw [payload, chunks_of_le hd (by omega), List.flatMap_cons, List.flatMap_nil,
      List.append_nil, List.drop_of_length_le h]

/-- One packet or less. -/
theorem payload_of_length_le {data : List UInt8} (h : data.length ≤ p) :
    payload p data = data.drop 2 := by
  by_cases hd : data = []
  · rw [hd, payload, chunks_nil]
    rfl
  · rw [payload, chunks_of_le hd h, List.flatMap_cons, List.flatMap_nil, List.append_nil]

/-- **One more packet**, behind full ones. -/
theorem payload_take_add (hp : 2 < p) (hr : r ≤ p) (h : p * i + r ≤ mem.length) :
    payload p (mem.take (p * i + r)) =
      payload p (mem.take (p * i)) ++ slice mem (p * i + 2) (r - 2) := by
  have hfull : p ∣ (mem.take (p * i)).length := by
    rw [List.length_take, min_eq_left (by omega)]
    exact ⟨i, rfl⟩
  have hlast : ((mem.drop (p * i)).take r).length ≤ p := by
    rw [List.length_take]
    omega
  rw [List.take_add]
  show (chunks p _).flatMap _ = _
  rw [chunks_append_of_dvd (by omega) hfull, List.flatMap_append]
  show payload p _ ++ payload p _ = _
  rw [payload_of_length_le hlast, List.drop_take, List.drop_drop, slice]

/-! ## Taking the status bytes out -/

/-- **What the packets before the `i`-th were moved to**: their data stands
behind the first two bytes, and from the data of packet `i` on nothing
has been touched. -/
structure Moved (p i : ℕ) (mem mem' : List UInt8) : Prop where
  length : mem'.length = mem.length
  data : slice mem' 2 ((p - 2) * i) = payload p (mem.take (p * i))
  rest : mem'.drop (2 + p * i) = mem.drop (2 + p * i)

/-- The first packet has its data in place. -/
theorem Moved.one (h : p ≤ mem.length) : Moved p 1 mem mem := by
  refine ⟨rfl, ?_, rfl⟩
  have hlen : (mem.take p).length = p := by
    rw [List.length_take, min_eq_left h]
  rw [Nat.mul_one, Nat.mul_one, payload_of_length_le hlen.le, List.drop_take, slice]

/-- The data of `r` bytes of packet `i`, read behind its status bytes. -/
theorem Moved.slice_eq {mem' : List UInt8} (h : Moved p i mem mem') :
    slice mem' (2 + p * i) r = slice mem (p * i + 2) r := by
  rw [Nat.add_comm (p * i) 2]
  exact slice_of_drop_eq h.rest le_rfl

/-- **Moving the data of one more packet**, or of the rest of one. -/
theorem Moved.memmove {mem' : List UInt8} (hp : 2 < p) (h : Moved p i mem mem') (hr : r ≤ p)
    (hr2 : 2 ≤ r) (hlen : p * i + r ≤ mem.length) :
    (memmove mem' (2 + (p - 2) * i) (2 + p * i) (r - 2)).length = mem.length ∧
      slice (memmove mem' (2 + (p - 2) * i) (2 + p * i) (r - 2)) 2 ((p - 2) * i + (r - 2)) =
        payload p (mem.take (p * i + r)) ∧
      (memmove mem' (2 + (p - 2) * i) (2 + p * i) (r - 2)).drop (2 + p * i + r) =
        mem.drop (2 + p * i + r) := by
  have hle : (p - 2) * i ≤ p * i := Nat.mul_le_mul_right i (Nat.sub_le p 2)
  have hml := h.length
  have hdst : 2 + (p - 2) * i ≤ mem'.length := by omega
  have hsrc : 2 + p * i + (r - 2) ≤ mem'.length := by omega
  refine ⟨?_, ?_, ?_⟩
  · rw [length_memmove hsrc (by omega), h.length]
  · -- what was there is before the place written to
    rw [slice_add, slice_memmove hsrc hdst, slice_of_take_eq (take_memmove hdst) le_rfl, h.data,
      h.slice_eq, payload_take_add hp hr hlen]
  · have hkeep : (SgFtdi.memmove mem' (2 + (p - 2) * i) (2 + p * i) (r - 2)).drop
        (2 + (p - 2) * i + (r - 2)) = mem'.drop (2 + (p - 2) * i + (r - 2)) :=
      drop_memmove hsrc hdst
    obtain ⟨d, hd⟩ := Nat.exists_eq_add_of_le
      (show 2 + (p - 2) * i + (r - 2) ≤ 2 + p * i + r by omega)
    rw [hd, ← List.drop_drop, hkeep, List.drop_drop, ← hd, ← List.drop_drop, h.rest,
      List.drop_drop]

/-- **The loop over full packets.** -/
theorem Moved.moveChunks (hp : 2 < p) : ∀ {turns i : ℕ} {mem' : List UInt8},
    Moved p i mem mem' → p * (i + turns) ≤ mem.length →
      Moved p (i + turns) mem (moveChunks p 2 i turns mem') := by
  intro turns
  induction turns with
  | zero =>
      intro i mem' h _
      exact h
  | succ turns ih =>
      intro i mem' h hlen
      have hmul : p * (i + 1) = p * i + p := Nat.mul_succ p i
      have hmul2 : (p - 2) * (i + 1) = (p - 2) * i + (p - 2) := Nat.mul_succ (p - 2) i
      have hall : p * (i + 1) ≤ p * (i + (turns + 1)) := Nat.mul_le_mul_left p (by omega)
      obtain ⟨h1, h2, h3⟩ := h.memmove hp le_rfl (by omega) (by omega : p * i + p ≤ mem.length)
      have hnext : Moved p (i + 1) mem
          (SgFtdi.memmove mem' (2 + (p - 2) * i) (2 + p * i) (p - 2)) := by
        refine ⟨h1, ?_, ?_⟩
        · rw [hmul2, hmul]
          exact h2
        · rw [hmul, ← Nat.add_assoc]
          exact h3
      have hsum : i + (turns + 1) = i + 1 + turns := by omega
      rw [hsum]
      exact ih hnext (by rw [← hsum]; exact hlen)

/-- What `skipStatus` leaves: the block is as long as before, the data
stands behind the first two bytes, and the answer is its length. -/
structure Skipped (p n : ℕ) (mem : List UInt8) (res : List UInt8 × ℕ) : Prop where
  length : res.1.length = mem.length
  count : res.2 = (payload p (mem.take n)).length
  data : slice res.1 2 res.2 = payload p (mem.take n)
  fits : 2 + res.2 ≤ n
  some_left : 0 < res.2

/-- The answer is as long as the data it leaves. -/
theorem Skipped.of_slice {res : List UInt8 × ℕ} (hlen : n ≤ mem.length)
    (hlength : res.1.length = mem.length)
    (hdata : slice res.1 2 res.2 = payload p (mem.take n)) (hfits : 2 + res.2 ≤ n)
    (hleft : 0 < res.2) : Skipped p n mem res := by
  refine ⟨hlength, ?_, hdata, hfits, hleft⟩
  rw [← hdata, length_slice (by omega)]

/-- The data of all the full packets is brought together. -/
theorem moveChunks_full (hp : 2 < p) (hn : p ≤ n) (hlen : n ≤ mem.length) :
    Moved p (n / p) mem (moveChunks p 2 1 (n / p - 1) mem) := by
  have hone : 1 ≤ n / p := Nat.div_pos hn (by omega)
  have hsum : 1 + (n / p - 1) = n / p := by omega
  have hall : p * (n / p) ≤ n := Nat.mul_div_le n p
  have hloop : Moved p (1 + (n / p - 1)) mem (moveChunks p 2 1 (n / p - 1) mem) :=
    Moved.moveChunks hp (Moved.one (by omega)) (by rw [hsum]; omega)
  rwa [hsum] at hloop

/-- The data of `k` packets is what is left of them when two bytes of each are gone. -/
theorem sub_two_mul (hp : 2 < p) (k : ℕ) : (p - 2) * k + 2 * k = p * k := by
  rw [← Nat.add_mul, Nat.sub_add_cancel (by omega)]

/-- The full packets, and a last one that has data: it is moved behind the
data of the others. -/
theorem skipped_of_rest (hp : 2 < p) (hn : p ≤ n) (hlen : n ≤ mem.length) (hlast : 2 < n % p) :
    Skipped p n mem
      (memmove (moveChunks p 2 1 (n / p - 1) mem) (2 + (p - 2) * (n / p)) (2 + p * (n / p))
        (n % p - 2), n - 2 - 2 * (n / p)) := by
  have hsplit := Nat.div_add_mod n p
  have hrem := Nat.mod_lt n (by omega : p > 0)
  have hmul := sub_two_mul hp (n / p)
  have htotal : n - 2 - 2 * (n / p) = (p - 2) * (n / p) + (n % p - 2) := by omega
  obtain ⟨h1, h2, -⟩ :=
    (moveChunks_full hp hn hlen).memmove hp hrem.le (by omega) (by omega)
  refine .of_slice hlen h1 ?_ ?_ ?_
  · show slice _ 2 (n - 2 - 2 * (n / p)) = _
    rw [htotal, h2, hsplit]
  · show 2 + (n - 2 - 2 * (n / p)) ≤ n
    omega
  · show 0 < n - 2 - 2 * (n / p)
    omega

/-- The full packets, and at most two bytes behind them that are no data. -/
theorem skipped_of_full (hp : 2 < p) (hn : p ≤ n) (hlen : n ≤ mem.length) (hlast : n % p ≤ 2) :
    Skipped p n mem
      (moveChunks p 2 1 (n / p - 1) mem, n - 2 - (2 * (n / p - 1) + n % p)) := by
  have hsplit := Nat.div_add_mod n p
  have hone : 1 ≤ n / p := Nat.div_pos hn (by omega)
  have hmul := sub_two_mul hp (n / p)
  have hpos : p - 2 ≤ (p - 2) * (n / p) := Nat.le_mul_of_pos_right _ hone
  have htotal : n - 2 - (2 * (n / p - 1) + n % p) = (p - 2) * (n / p) := by omega
  have hmoved := moveChunks_full hp hn hlen
  refine .of_slice hlen hmoved.length ?_ ?_ ?_
  · show slice _ 2 (n - 2 - (2 * (n / p - 1) + n % p)) = _
    -- the rest is empty behind its status bytes
    have hempty : slice mem (p * (n / p) + 2) (n % p - 2) = [] := by
      rw [Nat.sub_eq_zero_of_le hlast, slice, List.take_zero]
    have hadd := payload_take_add hp (by omega : n % p ≤ p)
      (by omega : p * (n / p) + n % p ≤ mem.length)
    rw [htotal, hmoved.data, ← List.append_nil (payload p (mem.take (p * (n / p)))), ← hempty,
      ← hadd, hsplit]
  · show 2 + (n - 2 - (2 * (n / p - 1) + n % p)) ≤ n
    omega
  · show 0 < n - 2 - (2 * (n / p - 1) + n % p)
    omega

/-- **The status bytes are taken out**, and nothing else is. -/
theorem skipStatus_skipped (hp : 2 < p) (hn : 2 < n) (hlen : n ≤ mem.length) :
    Skipped p n mem (skipStatus p 2 n mem) := by
  unfold skipStatus
  by_cases hbig : n - 2 > p - 2
  · have hfull : p ≤ n := by omega
    simp only [if_pos hbig]
    by_cases hlast : n % p > 2
    · rw [if_pos hlast]
      exact skipped_of_rest hp hfull hlen hlast
    · rw [if_neg hlast]
      exact skipped_of_full hp hfull hlen (by omega)
  · -- one packet: the data stands behind its status bytes as it is
    simp only [if_neg hbig]
    refine .of_slice hlen rfl ?_ ?_ ?_
    · show slice mem 2 (n - 2) = _
      have hone : (mem.take n).length ≤ p := by
        rw [List.length_take]
        omega
      rw [payload_of_length_le hone, List.drop_take, slice]
    · show 2 + (n - 2) ≤ n
      omega
    · show 0 < n - 2
      omega

end Ftdi

end SgFtdi
