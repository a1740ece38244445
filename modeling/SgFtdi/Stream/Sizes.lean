import SgFtdi.Stream.Construct
import SgFtdi.Stream.Model.Steady
import SgFtdi.Stream.Moves.Setup

/-!
# Stream — the size of a buffer

`FtdiStreamStaticState::init` multiplies the packet size of the object by
the packets per transfer of the stream, in 64 bits, and keeps the product
as an `int`. The constructor looks at neither the packet size nor the
product, so the buffer has the size the two factors call for where the
packet size is not zero and the product fits an `int`
(`initEntry_sized_iff`), and a shorter one, an empty one or one of a
negative size otherwise.
-/

namespace SgFtdi

namespace Stream

open Prog

variable {σ : Type} {env : Env σ} {m m' : Machine σ} {i : ℕ}

/-- The packet size of a direction. -/
def FtdiStreamState.packetsize (m : FtdiStreamState) (isReading : Bool) : UInt32 :=
  if isReading then m.readPacketsize else m.writePacketsize

/-- The packets of a transfer of a direction. -/
def FtdiStreamEntry.packetsPerTransfer (stream : FtdiStreamEntry) (isReading : Bool) : UInt64 :=
  if isReading then stream.readPacketsPerTransfer else stream.writePacketsPerTransfer

/-- The transfers of a direction. -/
def FtdiStreamEntry.transfers (stream : FtdiStreamEntry) (isReading : Bool) : ℕ :=
  if isReading then stream.readTransfers else stream.writeTransfers

/-- **A buffer of the configured size**: so many bytes, and some. -/
def FtdiStreamStaticState.Sized (e : FtdiStreamStaticState) (size : UInt32) (packets : UInt64) :
    Prop :=
  0 < e.bufferSize ∧ e.bufferSize = size.toNat * packets.toNat

instance {e : FtdiStreamStaticState} {size : UInt32} {packets : UInt64} :
    Decidable (e.Sized size packets) := inferInstanceAs (Decidable (_ ∧ _))

/-! ## The product -/

/-- An unsigned 64-bit value as an `int`: its low half, read signed. -/
theorem narrow_eq_bmod (n : UInt64) : narrow n = (n.toNat : ℤ).bmod (2 ^ 32) := by
  have hlow : n.toUInt32.toInt32 = Int32.ofNat n.toNat := by
    rw [← UInt32.toInt32_ofNat']
    congr 1
  rw [narrow, hlow, Int32.toInt_ofNat']
  rfl

/-- Of no bytes there is no buffer. -/
theorem narrow_zero_mul (k : UInt64) : narrow ((0 : UInt32).toUInt64 * k) = 0 := by
  have hzero : ((0 : UInt32).toUInt64 * k).toNat = 0 := by
    rw [UInt64.toNat_mul, UInt32.toNat_toUInt64]
    simp
  rw [narrow_eq_bmod, hzero]
  rfl

/-- A value that fits an `int` is kept. -/
theorem narrow_of_lt {n : UInt64} (h : n.toNat < 2 ^ 31) : narrow n = n.toNat := by
  rw [narrow_eq_bmod]
  exact Int.bmod_eq_of_le (by omega) (by omega)

/-- An `int` is below `2 ^ 31`. -/
theorem narrow_lt (n : UInt64) : narrow n < 2 ^ 31 := by
  rw [narrow_eq_bmod]
  exact Int.bmod_lt (by decide)

/-- **The product is what was configured** where it is not zero and fits an
`int`. -/
theorem narrow_product_iff (p : UInt32) (k : UInt64) :
    (0 < narrow (p.toUInt64 * k) ∧ narrow (p.toUInt64 * k) = p.toNat * k.toNat) ↔
      0 < p.toNat * k.toNat ∧ p.toNat * k.toNat < 2 ^ 31 := by
  have hlt := narrow_lt (p.toUInt64 * k)
  constructor
  · rintro ⟨hpos, heq⟩
    rw [heq] at hpos hlt
    exact ⟨by exact_mod_cast hpos, by exact_mod_cast hlt⟩
  · rintro ⟨hpos, hfits⟩
    have hprod : (p.toUInt64 * k).toNat = p.toNat * k.toNat := by
      rw [UInt64.toNat_mul, UInt32.toNat_toUInt64]
      exact Nat.mod_eq_of_lt (by omega)
    have heq : narrow (p.toUInt64 * k) = p.toNat * k.toNat := by
      rw [narrow_of_lt (by omega), hprod, Int.natCast_mul]
    exact ⟨by rw [heq]; exact_mod_cast hpos, heq⟩

/-! ## The buffer of a new transfer -/

/-- What `init` makes of the size. -/
theorem fill_bufferSize (m : FtdiStreamState) (stream : FtdiStreamEntry)
    (e : FtdiStreamStaticState) : (e.fill m stream).bufferSize =
      narrow ((m.packetsize e.isReading).toUInt64 * stream.packetsPerTransfer e.isReading) := by
  unfold FtdiStreamStaticState.fill FtdiStreamState.packetsize
    FtdiStreamEntry.packetsPerTransfer
  cases e.isReading <;> rfl

/-- The constructor asks for packets where there are transfers. -/
theorem Accepted.packets {sizes : Packetsizes} {stream : FtdiStreamEntry} {isReading : Bool}
    (h : Accepted sizes stream) (ht : 0 < stream.transfers isReading) :
    stream.packetsPerTransfer isReading ≠ 0 := by
  cases isReading
  · exact (h.writes ht).2
  · exact (h.reads ht).2

/-- **An `init` that returns** has allocated what it computed. -/
theorem initEntry_allocates {stream : FtdiStreamEntry} {e : FtdiStreamStaticState}
    (he : m.entryAt i = some e) :
    Ends (initEntry env i stream)
      (fun _ m' => ∃ e', m'.entryAt i = some e' ∧ e'.transfer.buffer.isSome = true ∧
        e'.bufferSize =
          narrow ((m.packetsize e.isReading).toUInt64 * stream.packetsPerTransfer e.isReading))
      (fun _ _ => True) m := by
  refine (initEntry_ends he).mono ?_ fun _ _ _ => trivial
  rintro _ m' ⟨m₁, hready, hsub⟩
  have he₁ : m₁.entryAt i = some ((e.fill m.toFtdiStreamState stream).allocate true) := by
    rw [hready.entryAt, if_pos rfl, he]
    rfl
  obtain ⟨e', he', hsame, -⟩ := hsub.entry he₁
  exact ⟨e', he', hsame.hasBuffer, hsame.bufferSize.trans (fill_bufferSize _ stream e)⟩

/-- **When a buffer has the configured size**: for the streams a
constructor accepted, an `init` that returns has allocated a buffer of the
packet size times the packets per transfer, and not an empty one, exactly
where the packet size is not zero and the product is below `2 ^ 31`. -/
theorem initEntry_sized_iff (env : Env σ) (m : Machine σ) (i : ℕ) (e : FtdiStreamStaticState)
    (stream : FtdiStreamEntry) (handleTimeouts : ℤ)
    (hc : FtdiStream.construct m.streams m.noticeEventFd handleTimeouts =
      .ok ⟨m.readPacketsize, m.writePacketsize⟩)
    (he : m.entryAt i = some e) (hs : m.streams[e.streamId]? = some stream)
    (ht : 0 < stream.transfers e.isReading) :
    Ends (initEntry env i stream)
      (fun _ m' => ∃ e', m'.entryAt i = some e' ∧ e'.transfer.buffer.isSome = true ∧
        (e'.Sized (m.packetsize e.isReading) (stream.packetsPerTransfer e.isReading) ↔
          m.packetsize e.isReading ≠ 0 ∧ (m.packetsize e.isReading).toNat *
            (stream.packetsPerTransfer e.isReading).toNat < 2 ^ 31))
      (fun _ _ => True) m := by
  have hk : stream.packetsPerTransfer e.isReading ≠ 0 :=
    (construct_accepts hc stream (List.mem_of_getElem? hs)).packets ht
  refine (initEntry_allocates he).mono ?_ fun _ _ _ => trivial
  rintro _ m' ⟨e', he', hbuffer, hsize⟩
  refine ⟨e', he', hbuffer, ?_⟩
  rw [FtdiStreamStaticState.Sized, hsize, narrow_product_iff, Nat.mul_pos_iff_of_pos_right]
  · rw [Nat.pos_iff_ne_zero, Ne, Ne, ← UInt32.toNat_inj]
    rfl
  · exact Nat.pos_of_ne_zero fun h0 => hk (UInt64.toNat_inj.mp h0)

/-- An object with one read transfer that was created and not yet
initialised. -/
def created : Machine ℕ :=
  { constructed [sampleStream 64 1 0] ⟨64, 4096⟩ 4 with
    streamstates := some [newEntry 0 0 true false 100] }

/-- One packet of 64 bytes. -/
theorem initEntry_sized_iff_sample :
    ∃ m', initEntry steady 0 (sampleStream 64 1 0) created = (.ret (), m') ∧
      ∃ e', m'.entryAt 0 = some e' ∧ e'.Sized 64 1 := by
  refine ⟨_, Prod.ext (by decide +kernel) rfl, ?_⟩
  obtain ⟨e', he', -, hiff⟩ := ends_ret_of (initEntry_sized_iff steady created 0
    (newEntry 0 0 true false 100) (sampleStream 64 1 0) 1 (by decide +kernel) rfl rfl (by decide))
    (Prod.ext (by decide +kernel) rfl)
  exact ⟨e', he', hiff.mpr (by decide)⟩

/-- A stream whose transfer has `2 ^ 32 + 64` bytes, in packets of 64. -/
def wrappingStream : FtdiStreamEntry :=
  { sampleStream 64 1 0 with readPacketsPerTransfer := 67108865 }

/-- **A transfer that is silently shortened**: the stream is accepted and
started, and its buffer has 64 bytes. -/
theorem buffer_wraps :
    ∃ m, Session steady (constructed [wrappingStream] ⟨64, 4096⟩ 4) .poll [] m ∧
      ∃ e, m.entryAt 0 = some e ∧ e.transfer.inFlight = true ∧ e.bufferSize = 64 ∧
        ¬ e.Sized 64 67108865 := by
  have hidle : Idle (constructed [wrappingStream] ⟨64, 4096⟩ 4) :=
    constructed_idle (by decide +kernel)
  obtain ⟨m, hm, he, hfl, hsize⟩ := exists_session (P := fun m => (m.entryAt 0).isSome = true ∧
    (m.entryAt 0).all (·.transfer.inFlight) = true ∧ (m.entryAt 0).all (·.bufferSize = 64) = true)
    steady .poll [] hidle (by decide +kernel)
  obtain ⟨e, he⟩ := Option.isSome_iff_exists.mp he
  simp only [he, Option.all_some, decide_eq_true_eq] at hfl hsize
  refine ⟨m, hm, e, he, hfl, hsize, fun hsized => ?_⟩
  have hlong : (64 : ℤ) = (64 : UInt32).toNat * (67108865 : UInt64).toNat :=
    hsize.symm.trans hsized.2
  exact absurd hlong (by decide)

end Stream

end SgFtdi
