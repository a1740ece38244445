import SgFtdi.Stream.Submissions
import SgFtdi.Stream.Reading

/-!
# Stream — the loop of `read_callback`

`read_callback` cuts what a transfer brought into messages of at most
`read_packetsize` bytes, in a loop that ends when no byte is left. With a
packet size of zero a turn would take nothing and the loop would go on
for ever. Neither the callback nor the constructor looks at the packet
size. But a buffer of no packets is empty, an empty transfer is never
submitted, and what was not submitted is never called back: where the
loop is reached, the packet size is positive.
-/

namespace SgFtdi

namespace Stream

open Prog Relation

variable {σ : Type} {env : Env σ} {m t u : Machine σ} {i : ℕ} {e : FtdiStreamStaticState}

/-- A message leaves the packet size as it is. -/
theorem readMessage_readPacketsize {message : List UInt8}
    (h : readMessage env i e message t = (.ret (), u)) : u.readPacketsize = t.readPacketsize := by
  have hdelivery := ends_ret_of (readMessage_runs i e message t).ends h
  exact hdelivery.work.calm.readPacketsize

/-- **The loop is one message after another**, one for each chunk of the
bytes, however many turns it is given beyond that. -/
theorem readLoop_eq_each {p : ℕ} (hp : 0 < p) : ∀ (turns : ℕ) (data : List UInt8)
    (t : Machine σ), data.length ≤ turns → t.readPacketsize.toNat = p →
      readLoop env i e turns data t = each (chunks p data) (readMessage env i e) t := by
  intro turns
  induction turns with
  | zero =>
      intro data t hlen _
      have hnil : data = [] := List.eq_nil_of_length_eq_zero (by omega)
      rw [hnil, chunks_nil]
      rfl
  | succ turns ih =>
      intro data t hlen ht
      by_cases hdata : data = []
      · rw [hdata, chunks_nil]
        rfl
      · obtain ⟨b, rest, rfl⟩ := List.exists_cons_of_ne_nil hdata
        -- a turn takes one chunk, which is not empty
        have htake : (b :: rest).take (min (b :: rest).length p) = (b :: rest).take p := by
          rw [List.take_eq_take_iff]
          omega
        have hdrop : (b :: rest).drop (min (b :: rest).length p) = (b :: rest).drop p := by
          rcases Nat.le_total (b :: rest).length p with hle | hle
          · rw [Nat.min_eq_left hle, List.drop_length, List.drop_of_length_le hle]
          · rw [Nat.min_eq_right hle]
        have hless : ((b :: rest).drop p).length ≤ turns := by
          rw [List.length_drop]
          omega
        rw [chunks_eq_cons hp hdata]
        have hloop : readLoop env i e (turns + 1) (b :: rest) t =
            andThen (readMessage env i e ((b :: rest).take p))
              (fun _ => readLoop env i e turns ((b :: rest).drop p)) t := by
          rw [← htake, ← hdrop, ← ht]
          rfl
        rw [hloop, each]
        unfold andThen
        cases hmessage : readMessage env i e ((b :: rest).take p) t with
        | mk o u =>
            cases o with
            | ret =>
                have hu := readMessage_readPacketsize hmessage
                exact ih _ u hless (hu ▸ ht)
            | throw cause => rfl
            | hang => rfl

/-- **In flight is what has room for a packet.** -/
theorem Ranged.readPacketsize_pos (h : Ranged env m) (he : m.entryAt i = some e)
    (hfl : e.transfer.inFlight = true) (hread : e.isReading = true) :
    0 < m.readPacketsize.toNat := by
  obtain ⟨-, hpos⟩ := h.flying i e he hfl
  have hsize := hpos hread
  refine Nat.pos_of_ne_zero fun hzero => ?_
  have hempty := h.packets i e he hread (UInt32.toNat_inj.mp hzero)
  omega

/-- **The packet loop ends.** Whatever a constructor accepted, in every
course of a session: when a read transfer comes back the packet size is
positive, and the loop over what it brought is one message for each
chunk of the bytes, none of which is empty, the bytes over the packet
size in number, rounded up. -/
theorem packet_loop_ends (env : Env σ) (m₀ m : Machine σ) (mode : Mode)
    (h : Course env m₀ mode m) (c : Completion) (e : FtdiStreamStaticState)
    (he : m.entryAt c.transfer = some e) (hfl : e.transfer.inFlight = true)
    (hread : e.isReading = true) :
    0 < m.readPacketsize.toNat ∧ (e.back c).brought.length = e.actual c ∧
      (∀ t : Machine σ, t.readPacketsize = m.readPacketsize →
        readLoop env c.transfer (e.back c) (e.back c).brought.length (e.back c).brought t =
          each (chunks m.readPacketsize.toNat (e.back c).brought)
            (readMessage env c.transfer (e.back c)) t) ∧
      (∀ message ∈ chunks m.readPacketsize.toNat (e.back c).brought, message ≠ []) ∧
      (chunks m.readPacketsize.toNat (e.back c).brought).length =
        (e.actual c + m.readPacketsize.toNat - 1) / m.readPacketsize.toNat := by
  have hranged : Ranged env m := h.ranged
  have hp := hranged.readPacketsize_pos he hfl hread
  have hbuffer := (hranged.flying _ e he hfl).1
  obtain ⟨hactual, hbrought⟩ := back_brought (c := c) hread hbuffer
  have hlen : (e.back c).brought.length = e.actual c := by
    rw [hbrought, ← hactual]
    rfl
  refine ⟨hp, hlen, fun t ht => ?_, fun _ hm => ne_nil_of_mem_chunks hm, ?_⟩
  · exact readLoop_eq_each hp _ _ t le_rfl (by rw [ht])
  · rw [length_chunks hp, hlen]

/-- A transfer of one packet that is about to come back. -/
theorem packet_loop_ends_sample :
    ∃ (m : Machine ℕ) (e : FtdiStreamStaticState),
      Session steady (constructed [sampleStream 64 1 0] ⟨64, 4096⟩ 4) .poll [] m ∧
      m.entryAt 0 = some e ∧ 0 < m.readPacketsize.toNat ∧
      (chunks m.readPacketsize.toNat (e.back ⟨0, .completed, [1, 96, 7], 0⟩).brought).length =
        (e.actual ⟨0, .completed, [1, 96, 7], 0⟩ + m.readPacketsize.toNat - 1) /
          m.readPacketsize.toNat := by
  have hidle : Idle (constructed [sampleStream 64 1 0] ⟨64, 4096⟩ 4) :=
    constructed_idle (by decide +kernel)
  obtain ⟨m, hm, he, hfl, hread⟩ := exists_session (P := fun m => (m.entryAt 0).isSome = true ∧
    (m.entryAt 0).all (·.transfer.inFlight) = true ∧ (m.entryAt 0).all (·.isReading) = true)
    steady .poll [] hidle (by decide +kernel)
  obtain ⟨e, he⟩ := Option.isSome_iff_exists.mp he
  simp only [he, Option.all_some] at hfl hread
  obtain ⟨hpos, -, -, -, hturns⟩ := packet_loop_ends steady _ m .poll hm.course
    ⟨0, .completed, [1, 96, 7], 0⟩ e he hfl hread
  exact ⟨m, e, hm, he, hpos, hturns⟩

end Stream

end SgFtdi
