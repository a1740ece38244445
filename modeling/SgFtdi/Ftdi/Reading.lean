import SgFtdi.Common.Containers
import SgFtdi.Ftdi.Payload

/-!
# What a completed transfer leaves

A read that was asked for is filled from the read buffer, and what is in
the buffer behind it is held for the next one. `promised` is all that has
come and no call has reported yet: the block of the read that is under
way, and behind it what is held.
-/

namespace SgFtdi

namespace Ftdi

open Prog

/-- What a control's block was filled with. -/
def TransferControl.taken (tc : TransferControl) : List UInt8 := tc.buf.take tc.offset

/-- A read that was handed out and not given back yet. -/
def TransferControl.reading (tc : TransferControl) : Bool :=
  decide (tc.direction = .input) && !tc.freed

variable {σ : Type} {env : Env σ} {s t u : Device σ}

/-- The reads that are under way. -/
def Device.readers (s : Device σ) : List TransferControl :=
  s.controls.filter TransferControl.reading

/-- What the read buffer holds for the next read. -/
def Device.held (s : Device σ) : List UInt8 :=
  slice s.readbuffer s.readbufferOffset s.readbufferRemaining

/-- **What has come and was not reported yet.** -/
def Device.promised (s : Device σ) : List UInt8 :=
  s.readers.flatMap TransferControl.taken ++ s.held

/-- A control is not active any more once it is completed or freed, and
what it sends next is behind what it has sent. -/
structure TransferControl.Sound (tc : TransferControl) : Prop where
  offset : tc.offset ≤ tc.size
  pending : tc.active = true → tc.completed = 0 ∧ tc.freed = false
  sends : tc.direction = .output → ∀ transfer, tc.transfer = some transfer →
    transfer.active = true → transfer.buffer = tc.offset ∧ tc.offset + transfer.length ≤ tc.size

/-- **The read buffer is in order**: what is held lies in it, one read at
most is under way, and while its transfer is active nothing is held. -/
structure Device.Sound (s : Device σ) : Prop where
  packet : 2 < s.maxPacketSize
  length : s.readbuffer.length = s.readbufferChunksize
  inside : s.readbufferOffset + s.readbufferRemaining ≤ s.readbufferChunksize
  controls : ∀ tc ∈ s.controls, tc.Sound
  filling : ∀ tc ∈ s.readers, ∀ transfer, tc.transfer = some transfer →
    transfer.active = true → transfer.buffer = 0 ∧ transfer.length = s.readbufferChunksize ∧
      s.readbufferOffset = 0 ∧ s.readbufferRemaining = 0
  single : s.readers.length ≤ 1

theorem TransferControl.reading_iff {tc : TransferControl} :
    tc.reading = true ↔ tc.direction = .input ∧ tc.freed = false := by
  simp [TransferControl.reading]

theorem Device.Sound.length_held (h : s.Sound) : s.held.length = s.readbufferRemaining :=
  length_slice (by rw [h.length]; exact h.inside)

/-- Where all that is wanted is held, the block is filled with a front of it. -/
theorem Device.Sound.front_copied {buf : List UInt8} (h : s.Sound)
    (hall : buf.length ≤ s.readbufferRemaining) :
    (overwrite buf 0 (slice s.readbuffer s.readbufferOffset buf.length)).length = buf.length ∧
      s.held = (overwrite buf 0 (slice s.readbuffer s.readbufferOffset buf.length)).take
        buf.length ++ slice s.readbuffer (s.readbufferOffset + buf.length)
          (s.readbufferRemaining - buf.length) := by
  have hchunk := h.length
  have hinside := h.inside
  have hsize : (slice s.readbuffer s.readbufferOffset buf.length).length = buf.length :=
    length_slice (by omega)
  have hcut := slice_add s.readbuffer s.readbufferOffset buf.length
    (s.readbufferRemaining - buf.length)
  rw [Nat.add_sub_cancel' hall] at hcut
  have htake := take_overwrite_add (slice s.readbuffer s.readbufferOffset buf.length)
    (Nat.zero_le buf.length)
  rw [hsize, Nat.zero_add, List.take_zero, List.nil_append] at htake
  exact ⟨length_overwrite (by omega), by rw [htake]; exact hcut⟩

/-- Where less is held, all of it goes to the front of the block. -/
theorem Device.Sound.held_copied {buf : List UInt8} (h : s.Sound)
    (hmore : s.readbufferRemaining ≤ buf.length) :
    (overwrite buf 0 s.held).length = buf.length ∧
      (overwrite buf 0 s.held).take s.readbufferRemaining = s.held := by
  have hsize : s.held.length = s.readbufferRemaining := h.length_held
  have htake := take_overwrite_add s.held (Nat.zero_le buf.length)
  rw [hsize, Nat.zero_add, List.take_zero, List.nil_append] at htake
  exact ⟨length_overwrite (by omega), htake⟩

/-! ## A script

A system to run examples on: it has the transfers that will come, one for
every round. -/

/-- A system that does what it is asked, and has these transfers to come. -/
def scripted : Env (List (List UInt8)) where
  bulkIn _ w := (([], 0, w.headD []), w.tail)
  bulkOut data w := (([], 0, data.length), w)
  handleEvents w :=
    match w with
    | [] => (([], -1), [])
    | data :: rest => (([.came 0 .completed data, .went 1 .completed data.length], 0), rest)
  submitTransfer _ _ w := (0, w)
  cancelTransfer _ w := w
  allocTransfer w := (true, w)
  malloc w := (true, w)
  realloc _ w := (some fun _ => 0, w)

/-- An opened device. -/
def opened (w : List (List UInt8)) : Device (List (List UInt8)) where
  usbDev := true
  maxPacketSize := 5
  readbuffer := List.replicate 8 0
  readbufferOffset := 0
  readbufferRemaining := 0
  readbufferChunksize := 8
  writebufferChunksize := 2
  errorStr := ""
  controls := []
  received := []
  sent := []
  world := w

theorem opened_sound (w : List (List UInt8)) : (opened w).Sound where
  packet := by show 2 < 5; decide
  length := rfl
  inside := Nat.zero_le 8
  controls := fun _ h => absurd h List.not_mem_nil
  filling := fun _ h => absurd h List.not_mem_nil
  single := Nat.zero_le 1

/-! ## Submitting again -/

/-- A callback's last word on its control: completed, or active again. -/
structure Settles (transfer : Transfer) (tc tc' : TransferControl) : Prop where
  direction : tc'.direction = tc.direction
  buf : tc'.buf = tc.buf
  offset : tc'.offset = tc.offset
  freed : tc'.freed = tc.freed
  done : (tc'.completed ≠ 0 ∧ tc'.transfer = tc.transfer) ∨
    (tc'.completed = tc.completed ∧ tc'.transfer = some { transfer with active := true })

theorem submitAgain_ends (env : Env σ) (id : ℕ) (transfer : Transfer) (s : Device σ) :
    Ends (submitAgain env id transfer) (fun _ t => ∃ w f,
      t = { s with world := w, controls := s.controls.modify id f } ∧
        ∀ tc, Settles transfer tc (f tc)) (fun _ _ => False) s := by
  simp only [submitAgain, world, modifyControl, ends_bind, ends_ask, ends_ite]
  constructor
  · intro _
    exact ⟨_, _, rfl, fun tc => ⟨rfl, rfl, rfl, rfl, .inl ⟨Nat.succ_ne_zero _, rfl⟩⟩⟩
  · intro _
    exact ⟨_, _, rfl, fun tc => ⟨rfl, rfl, rfl, rfl, .inr ⟨rfl, rfl⟩⟩⟩

theorem resubmit_ends (env : Env σ) (id : ℕ) (transfer : Transfer) (s : Device σ) :
    Ends (resubmit env id transfer) (fun _ t => ∃ w f,
      t = { s with world := w, controls := s.controls.modify id f } ∧
        ∀ tc, Settles transfer tc (f tc)) (fun _ _ => False) s := by
  unfold resubmit
  rw [ends_ite]
  constructor
  · intro _
    exact ⟨s.world, _, rfl, fun tc => ⟨rfl, rfl, rfl, rfl, .inl ⟨Nat.succ_ne_zero _, rfl⟩⟩⟩
  · exact fun _ => submitAgain_ends env id transfer s

/-! ## The chunks of a write -/

theorem ends_pieceLength {size offset : ℕ} {length : ℤ} {Q : ℕ → Device σ → Prop}
    {E : Undefined → Device σ → Prop} :
    Ends (pieceLength size offset length) Q E s ↔
      (0 ≤ length ∧ offset + length ≤ size → Q length.toNat s) ∧
        (¬ (0 ≤ length ∧ offset + length ≤ size) → E .outsideBlock s) := by
  rw [pieceLength, ends_ite, ends_pure, ends_raise]

/-- A chunk that stays an `int` with its block lies in it. -/
theorem nextChunk_inside {chunksize : BitVec 32} {size offset : ℕ}
    (h : chunksize.toNat + size ≤ 2 ^ 31) (hoff : offset < size) :
    0 ≤ nextChunk chunksize size offset ∧ offset + nextChunk chunksize size offset ≤ size := by
  have hchunk : chunksize.toInt = chunksize.toNat := BitVec.toInt_eq_toNat_of_lt (by omega)
  have hsum : Int.bmod (offset + chunksize.toNat) (2 ^ 32) = offset + chunksize.toNat :=
    Int.bmod_eq_of_le_mul_two (by omega) (by omega)
  simp only [nextChunk, hchunk, hsum]
  split <;> omega

/-- **The writes that are under way go out in chunks of their blocks.** -/
def Device.Chunked (s : Device σ) : Prop :=
  ∀ tc ∈ s.controls, tc.direction = .output → tc.active = true →
    s.writebufferChunksize.toNat + tc.size ≤ 2 ^ 31

/-! ## The callback of a read -/

/-- **What the callback of a read does**: its control becomes `tc'`, and
what its block has more and what is held is the data that came. -/
structure Filled (s : Device σ) (id : ℕ) (transfer : Transfer) (tc : TransferControl)
    (data : List UInt8) (tc' : TransferControl) (t : Device σ) : Prop where
  usbDev : t.usbDev = s.usbDev
  packet : t.maxPacketSize = s.maxPacketSize
  chunksize : t.readbufferChunksize = s.readbufferChunksize
  writebufferChunksize : t.writebufferChunksize = s.writebufferChunksize
  sent : t.sent = s.sent
  controls : t.controls = s.controls.modify id fun _ => tc'
  direction : tc'.direction = tc.direction
  freed : tc'.freed = tc.freed
  offset : tc'.offset ≤ tc'.size
  length : t.readbuffer.length = s.readbuffer.length
  inside : t.readbufferOffset + t.readbufferRemaining ≤ s.readbuffer.length
  bytes : tc'.taken ++ t.held = tc.taken ++ payload s.maxPacketSize data
  again : tc'.active = true → t.readbufferOffset = 0 ∧ t.readbufferRemaining = 0 ∧
    tc'.completed = tc.completed ∧ tc'.transfer = some { transfer with active := true }

/-- What a control reads as, after its block was filled further. -/
theorem taken_overwrite {tc tc' : TransferControl} {data : List UInt8} (h : tc.offset ≤ tc.size)
    (hbuf : tc'.buf = overwrite tc.buf tc.offset data)
    (hoff : tc'.offset = tc.offset + data.length) : tc'.taken = tc.taken ++ data := by
  rw [TransferControl.taken, hbuf, hoff, take_overwrite_add _ h, TransferControl.taken]

/-- Nothing is held where nothing remains. -/
theorem held_of_remaining (h : s.readbufferRemaining = 0) : s.held = [] := by
  rw [Device.held, h, slice, List.take_zero]

theorem Device.emptied (hoff : s.readbufferOffset = 0) (hrem : s.readbufferRemaining = 0) :
    { s with readbufferOffset := 0, readbufferRemaining := 0 } = s := by
  cases s
  simp only at hoff hrem
  subst hoff hrem
  rfl

/-- A control that was settled is active only if it was submitted again. -/
theorem Settles.again {transfer : Transfer} {tc tc' : TransferControl}
    (h : Settles transfer tc tc') (hover : tc.active = false) (ha : tc'.active = true) :
    tc'.completed = tc.completed ∧ tc'.transfer = some { transfer with active := true } := by
  rcases h.done with ⟨-, htr⟩ | hdone
  · rw [TransferControl.active, htr] at ha
    rw [TransferControl.active, ha] at hover
    exact absurd hover (by decide)
  · exact hdone

theorem Settles.taken {transfer : Transfer} {tc tc' : TransferControl}
    (h : Settles transfer tc tc') : tc'.taken = tc.taken := by
  rw [TransferControl.taken, TransferControl.taken, h.buf, h.offset]

/-- Submitting a read again, with the data that came in its block and the
read buffer empty. -/
theorem resubmit_filled {id : ℕ} {tc tc₀ : TransferControl} {transfer : Transfer}
    {data rb : List UInt8} {l : List TransferControl} (hover : transfer.active = false)
    (hrb : rb.length = s.readbuffer.length)
    (hl : ∀ f, l.modify id f = s.controls.modify id fun _ => f tc₀)
    (hdir : tc₀.direction = tc.direction) (hfreed : tc₀.freed = tc.freed)
    (hdone : tc₀.completed = tc.completed) (htr : tc₀.transfer = some transfer)
    (hoff : tc₀.offset ≤ tc₀.size)
    (hbytes : tc₀.taken = tc.taken ++ payload s.maxPacketSize data) :
    Ends (resubmit env id transfer) (fun _ t => ∃ tc', Filled s id transfer tc data tc' t ∧
        t.received = s.received) (fun _ _ => False)
      { s with
        readbuffer := rb
        readbufferOffset := 0
        readbufferRemaining := 0
        controls := l } := by
  refine (resubmit_ends env id transfer _).mono ?_ fun _ _ h => h
  rintro - t ⟨w, f, rfl, hf⟩
  have hs := hf tc₀
  have hstill : tc₀.active = false := by
    rw [TransferControl.active, htr]
    exact hover
  refine ⟨f tc₀, ?_, rfl⟩
  constructor
  case usbDev => rfl
  case packet => rfl
  case chunksize => rfl
  case writebufferChunksize => rfl
  case sent => rfl
  case controls => exact hl f
  case direction => rw [hs.direction, hdir]
  case freed => rw [hs.freed, hfreed]
  case offset =>
    rw [hs.offset, TransferControl.size, hs.buf]
    exact hoff
  case length => exact hrb
  case inside => exact Nat.zero_le _
  case bytes => rw [hs.taken, hbytes, held_of_remaining rfl, List.append_nil]
  case again =>
    intro ha
    obtain ⟨h1, h2⟩ := hs.again hstill ha
    exact ⟨rfl, rfl, h1.trans hdone, h2⟩

section Filled

variable {id n count : ℕ} {tc : TransferControl} {transfer : Transfer} {data rb : List UInt8}

/-- A control whose transfer is over is not active. -/
theorem TransferControl.not_active_of_transfer (htr : tc.transfer = some transfer)
    (hover : transfer.active = false) : ¬ tc.active = true := by
  rw [TransferControl.active, htr]
  exact fun ha => absurd (hover.symm.trans ha) (by decide)

/-- The data that came has filled the block. -/
theorem Filled.full (hover : transfer.active = false)
    (hc : s.controls[id]? = some { tc with transfer := some transfer }) (htc : tc.offset ≤ tc.size)
    (hrb : rb.length = s.readbuffer.length)
    (hdata : slice rb 2 count = payload s.maxPacketSize data) (hfit : 2 + count ≤ rb.length)
    (hroom : tc.offset + count ≤ tc.size) :
    ∃ tc', Filled s id transfer tc data tc' { s with
      readbuffer := rb
      readbufferOffset := 0
      readbufferRemaining := 0
      controls := (s.controls.modify id fun tc' => { tc' with
        buf := overwrite tc.buf tc.offset (slice rb 2 count)
        offset := tc.offset + count }).modify id fun tc => { tc with completed := 1 } } := by
  have hcount : (slice rb 2 count).length = count := length_slice hfit
  refine ⟨_, rfl, rfl, rfl, rfl, rfl, modify_modify_const hc, rfl, rfl, ?_, hrb, Nat.zero_le _, ?_,
    fun ha => absurd ha (TransferControl.not_active_of_transfer rfl hover)⟩
  · show tc.offset + count ≤ (overwrite tc.buf tc.offset (slice rb 2 count)).length
    rw [length_overwrite (by rw [hcount]; exact hroom)]
    exact hroom
  · rw [held_of_remaining rfl, List.append_nil, ← hdata]
    exact taken_overwrite htc rfl (by rw [hcount])

/-- Some of the data that came is left for the next read. -/
theorem Filled.part (hover : transfer.active = false)
    (hc : s.controls[id]? = some { tc with transfer := some transfer }) (htc : tc.offset ≤ tc.size)
    (hrb : rb.length = s.readbuffer.length)
    (hdata : slice rb 2 count = payload s.maxPacketSize data) (hfit : 2 + count ≤ rb.length)
    (hpart : tc.size - tc.offset ≤ count) :
    ∃ tc', Filled s id transfer tc data tc' { s with
      readbuffer := rb
      readbufferOffset := 2 + (tc.size - tc.offset)
      readbufferRemaining := count - (tc.size - tc.offset)
      controls := (s.controls.modify id fun tc' => { tc' with
        buf := overwrite tc.buf tc.offset (slice rb 2 (tc.size - tc.offset))
        offset := tc.offset + (tc.size - tc.offset) }).modify id
          fun tc => { tc with completed := 1 } } := by
  have hsize : (slice rb 2 (tc.size - tc.offset)).length = tc.size - tc.offset :=
    length_slice (by omega)
  refine ⟨_, rfl, rfl, rfl, rfl, rfl, modify_modify_const hc, rfl, rfl, ?_, hrb, ?_, ?_,
    fun ha => absurd ha (TransferControl.not_active_of_transfer rfl hover)⟩
  · show tc.offset + (tc.size - tc.offset) ≤
      (overwrite tc.buf tc.offset (slice rb 2 (tc.size - tc.offset))).length
    have hbuf : tc.buf.length = tc.size := rfl
    rw [length_overwrite (by rw [hsize, hbuf]; omega)]
    omega
  · show 2 + (tc.size - tc.offset) + (count - (tc.size - tc.offset)) ≤ s.readbuffer.length
    omega
  · have hcut := slice_add rb 2 (tc.size - tc.offset) (count - (tc.size - tc.offset))
    rw [Nat.add_sub_cancel' hpart, hdata] at hcut
    rw [hcut, ← List.append_assoc]
    congr 1
    exact taken_overwrite htc rfl (by rw [hsize])

/-- The callback of a read whose transfer is over, run from a state whose
read buffer it filled from the start. -/
theorem ftdiReadDataCb_ends (hp : 2 < s.maxPacketSize) (hoff : s.readbufferOffset = 0)
    (hrem : s.readbufferRemaining = 0) (hn : n ≤ s.readbuffer.length)
    (hover : transfer.active = false)
    (hc : s.controls[id]? = some { tc with transfer := some transfer })
    (htc : tc.offset ≤ tc.size) :
    Ends (ftdiReadDataCb env id tc transfer n)
      (fun _ t => ∃ tc', Filled s id transfer tc (s.readbuffer.take n) tc' t ∧
        t.received = s.received) (fun _ _ => False) s := by
  have hempty := Device.emptied hoff hrem
  unfold ftdiReadDataCb
  rw [ends_ite]
  constructor
  · -- data has come behind the status bytes of its first packet
    intro hbig
    have hskip := skipStatus_skipped hp hbig hn
    simp only [stripBuffer, ends_bind, ends_ask, hoff, Nat.zero_add]
    generalize skipStatus s.maxPacketSize 2 n s.readbuffer = stripped at hskip ⊢
    obtain ⟨rb, count⟩ := stripped
    have hrb : rb.length = s.readbuffer.length := hskip.length
    have hdata : slice rb 2 count = payload s.maxPacketSize (s.readbuffer.take n) := hskip.data
    have hcount : 2 + count ≤ n := hskip.fits
    have hfit : 2 + count ≤ rb.length := by omega
    simp only [peek, modifyControl, ends_bind, ends_look, ends_alter, ends_ite]
    refine ⟨fun _ => ⟨fun hroom => ⟨fun _ => ?_, fun _ => ?_⟩, fun hpart => ?_⟩,
      fun hnone => absurd hskip.some_left hnone⟩
    · obtain ⟨tc', hfull⟩ := Filled.full hover hc htc hrb hdata hfit hroom
      exact ⟨tc', hfull, trivial⟩
    · -- there is room for more
      have hlen : (slice rb 2 count).length = count := length_slice hfit
      refine resubmit_filled hover hrb (fun f => modify_modify_const hc) rfl rfl rfl rfl ?_ ?_
      · show tc.offset + count ≤ (overwrite tc.buf tc.offset (slice rb 2 count)).length
        rw [length_overwrite (by rw [hlen]; exact hroom)]
        exact hroom
      · rw [← hdata]
        exact taken_overwrite htc rfl (by rw [hlen])
    · obtain ⟨tc', hleft⟩ := Filled.part hover hc htc hrb hdata hfit (by omega)
      exact ⟨tc', hleft, trivial⟩
  · -- the status bytes alone: the read goes on with its block as it is
    intro hsmall
    have hnone : tc.taken = tc.taken ++ payload s.maxPacketSize (s.readbuffer.take n) := by
      have hlen : (s.readbuffer.take n).length ≤ 2 := by
        rw [List.length_take]
        omega
      rw [payload_of_length_le_two hp hlen, List.append_nil]
    have hrun : Ends (resubmit env id transfer) (fun _ t => ∃ tc',
        Filled s id transfer tc (s.readbuffer.take n) tc' t ∧ t.received = s.received)
        (fun _ _ => False) { s with readbufferOffset := 0, readbufferRemaining := 0 } :=
      resubmit_filled hover rfl (fun f => modify_congr hc rfl) rfl rfl rfl rfl htc hnone
    rwa [hempty] at hrun

end Filled

/-! ## The callback of a write -/

/-- **What the callback of a write does**: `n` more bytes of its block are
sent. -/
structure Advanced (s : Device σ) (id n : ℕ) (tc tc' : TransferControl) (t : Device σ) :
    Prop where
  usbDev : t.usbDev = s.usbDev
  packet : t.maxPacketSize = s.maxPacketSize
  chunksize : t.readbufferChunksize = s.readbufferChunksize
  writebufferChunksize : t.writebufferChunksize = s.writebufferChunksize
  readbuffer : t.readbuffer = s.readbuffer
  readbufferOffset : t.readbufferOffset = s.readbufferOffset
  readbufferRemaining : t.readbufferRemaining = s.readbufferRemaining
  received : t.received = s.received
  controls : t.controls = s.controls.modify id fun _ => tc'
  direction : tc'.direction = tc.direction
  freed : tc'.freed = tc.freed
  buf : tc'.buf = tc.buf
  offset : tc'.offset = tc.offset + n
  again : tc'.active = true → tc'.completed = tc.completed ∧
    ∀ transfer, tc'.transfer = some transfer →
      transfer.buffer = tc'.offset ∧ tc'.offset + transfer.length ≤ tc'.size

/-- A control that is not submitted again. -/
theorem Advanced.settled {id n : ℕ} {tc tc' : TransferControl} {transfer : Transfer}
    {l : List TransferControl} (hover : transfer.active = false)
    (hl : l = s.controls.modify id fun _ => tc') (htr : tc'.transfer = some transfer)
    (hdir : tc'.direction = tc.direction) (hfreed : tc'.freed = tc.freed) (hbuf : tc'.buf = tc.buf)
    (hoff : tc'.offset = tc.offset + n) : Advanced s id n tc tc' { s with controls := l } := by
  exact ⟨rfl, rfl, rfl, rfl, rfl, rfl, rfl, rfl, hl, hdir, hfreed, hbuf, hoff,
    fun ha => absurd ha (TransferControl.not_active_of_transfer htr hover)⟩

/-- The callback of a write whose transfer is over. It is undefined only where
the next chunk does not lie in the block. -/
theorem ftdiWriteDataCb_ends {id n : ℕ} {tc : TransferControl} {transfer : Transfer}
    (hover : transfer.active = false)
    (hc : s.controls[id]? = some { tc with transfer := some transfer })
    (hn : tc.offset + n ≤ tc.size) :
    Ends (ftdiWriteDataCb env id tc transfer n)
      (fun _ t => ∃ tc', Advanced s id n tc tc' t ∧ t.sent = s.sent)
      (fun _ t => ¬ s.writebufferChunksize.toNat + tc.size ≤ 2 ^ 31 ∧
        ∃ tc', Advanced s id n tc tc' t ∧ t.sent = s.sent) s := by
  unfold ftdiWriteDataCb
  simp only [modifyControl, ends_bind, ends_look, ends_alter, ends_ite, ends_pieceLength]
  refine ⟨fun _ => ?_, fun hmore => ⟨fun _ => ?_, fun _ => ⟨fun hinside => ?_, fun houtside =>
    ⟨fun hchunked => houtside (nextChunk_inside hchunked (by omega)), ?_⟩⟩⟩⟩
  · exact ⟨_, Advanced.settled hover (modify_modify_const hc) rfl rfl rfl rfl rfl, trivial⟩
  · exact ⟨_, Advanced.settled hover (modify_modify_const hc) rfl rfl rfl rfl rfl, trivial⟩
  · refine (submitAgain_ends env id _ _).mono ?_ fun _ _ h => h.elim
    rintro - t ⟨w, f, rfl, hf⟩
    have hs := hf { tc with transfer := some transfer, offset := tc.offset + n }
    refine ⟨_, ⟨rfl, rfl, rfl, rfl, rfl, rfl, rfl, rfl, modify_modify_const hc, hs.direction,
      hs.freed, hs.buf, hs.offset, ?_⟩, rfl⟩
    intro ha
    obtain ⟨h1, h2⟩ := hs.again hover ha
    refine ⟨h1, fun transfer' htr => ?_⟩
    rw [h2] at htr
    obtain rfl := Option.some.inj htr
    have hsize : (f { tc with transfer := some transfer, offset := tc.offset + n }).size =
        tc.size := congrArg List.length hs.buf
    rw [hs.offset, hsize]
    refine ⟨rfl, ?_⟩
    show tc.offset + n + (nextChunk s.writebufferChunksize tc.size (tc.offset + n)).toNat ≤ tc.size
    omega
  · exact ⟨_, Advanced.settled hover (modify_congr hc rfl) rfl rfl rfl rfl rfl, trivial⟩

/-! ## Completions -/

/-- A read was completed. -/
structure Came (s : Device σ) (id : ℕ) (tc : TransferControl) (data : List UInt8)
    (tc' : TransferControl) (t : Device σ) : Prop where
  control : s.controls[id]? = some tc
  input : tc.direction = .input
  active : tc.active = true
  fits : data.length ≤ s.readbufferChunksize
  received : t.received = s.received ++ [data]
  filled : ∃ transfer, Filled s id transfer tc data tc' t ∧
    transfer.buffer = 0 ∧ transfer.length = s.readbufferChunksize

/-- A write was completed. -/
structure Went (s : Device σ) (id : ℕ) (tc : TransferControl) (n : ℕ) (tc' : TransferControl)
    (t : Device σ) : Prop where
  control : s.controls[id]? = some tc
  output : tc.direction = .output
  active : tc.active = true
  fits : tc.offset + n ≤ tc.size
  sent : t.sent = s.sent ++ [(some id, slice tc.buf tc.offset n)]
  advanced : Advanced s id n tc tc' t

/-- **What a completion does**, of all it can. -/
inductive Completes (s t : Device σ) : Prop where
  | nothing (h : t = s)
  | came (id : ℕ) (tc : TransferControl) (data : List UInt8) (tc' : TransferControl)
      (h : Came s id tc data tc' t)
  | went (id : ℕ) (tc : TransferControl) (n : ℕ) (tc' : TransferControl)
      (h : Went s id tc n tc' t)

/-- A transfer that is active is there. -/
theorem TransferControl.active_of_transfer {tc : TransferControl} {transfer : Transfer}
    (h : tc.transfer = some transfer) (ha : transfer.active = true) : tc.active = true := by
  rw [TransferControl.active, h]
  exact ha

theorem TransferControl.exists_transfer {tc : TransferControl} (ha : tc.active = true) :
    ∃ transfer, tc.transfer = some transfer ∧ transfer.active = true := by
  unfold TransferControl.active at ha
  rcases htr : tc.transfer with _ | transfer
  · rw [htr] at ha
    exact absurd ha (by decide)
  · rw [htr] at ha
    exact ⟨transfer, rfl, ha⟩

/-- An active read is under way. -/
theorem Device.Sound.mem_readers (h : s.Sound) {tc : TransferControl} (hmem : tc ∈ s.controls)
    (hin : tc.direction = .input) (ha : tc.active = true) : tc ∈ s.readers :=
  List.mem_filter.mpr
    ⟨hmem, TransferControl.reading_iff.mpr ⟨hin, ((h.controls tc hmem).pending ha).2⟩⟩

/-- A completed read. -/
theorem complete_came (h : s.Sound) {id : ℕ} {tc : TransferControl} {transfer : Transfer}
    {data : List UInt8} {status : TransferStatus} (hc : s.controls[id]? = some tc)
    (hin : tc.direction = .input) (htr : tc.transfer = some transfer)
    (ha : transfer.active = true) (hfits : data.length ≤ transfer.length) :
    Ends (ftdiReadDataCb env id tc { transfer with status, active := false } data.length)
      (fun _ t => Completes s t) (fun _ _ => False)
      { s with
        readbuffer := overwrite s.readbuffer transfer.buffer data
        received := s.received ++ [data]
        controls := s.controls.modify id fun tc =>
          { tc with transfer := some { transfer with status, active := false } } } := by
  have hmem := List.mem_of_getElem? hc
  have hactive := TransferControl.active_of_transfer htr ha
  obtain ⟨hbuffer, hlength, hoff, hrem⟩ :=
    h.filling tc (h.mem_readers hmem hin hactive) transfer htr ha
  have hroom : 0 + data.length ≤ s.readbuffer.length := by
    rw [h.length]
    omega
  have hlen : (overwrite s.readbuffer 0 data).length = s.readbuffer.length :=
    length_overwrite hroom
  have hdata : (overwrite s.readbuffer 0 data).take data.length = data := by
    have hcut := take_overwrite_add data (Nat.zero_le s.readbuffer.length)
    rwa [Nat.zero_add, List.take_zero, List.nil_append] at hcut
  rw [hbuffer]
  refine (ftdiReadDataCb_ends ?_ ?_ ?_ ?_ rfl (getElem?_modify_of_some hc)
    (h.controls tc hmem).offset).mono ?_ fun _ _ h => h
  · exact h.packet
  · exact hoff
  · exact hrem
  · show data.length ≤ (overwrite s.readbuffer 0 data).length
    omega
  -- the callback has run; only what the transfer itself did is added
  rintro - t ⟨tc', hf, hrec⟩
  have hcontrols : t.controls = s.controls.modify id fun _ => tc' :=
    hf.controls.trans (modify_modify_const hc)
  have hlength' : t.readbuffer.length = s.readbuffer.length := hf.length.trans hlen
  have hinside := hf.inside
  have hbytes := hf.bytes
  simp only [hlen, hdata] at hinside hbytes
  exact .came id tc data tc' ⟨hc, hin, hactive, by rw [← hlength]; exact hfits, hrec, _, { hf with
      controls := hcontrols
      length := hlength'
      inside := hinside
      bytes := hbytes }, rfl, hlength⟩

/-- A completed write. -/
theorem complete_went (h : s.Sound) {id n : ℕ} {tc : TransferControl} {transfer : Transfer}
    {status : TransferStatus} {w : List (Option ℕ × List UInt8)} (hc : s.controls[id]? = some tc)
    (hout : tc.direction = .output) (htr : tc.transfer = some transfer)
    (ha : transfer.active = true) (hn : n ≤ transfer.length)
    (hw : w = s.sent ++ [(some id, slice tc.buf tc.offset n)]) :
    Ends (ftdiWriteDataCb env id tc { transfer with status, active := false } n)
      (fun _ t => Completes s t) (fun _ _ => ¬ s.Chunked)
      { s with
        sent := w
        controls := s.controls.modify id fun tc =>
          { tc with transfer := some { transfer with status, active := false } } } := by
  have hmem := List.mem_of_getElem? hc
  obtain ⟨-, hfits⟩ := (h.controls tc hmem).sends hout transfer htr ha
  have hroom : tc.offset + n ≤ tc.size := by omega
  refine (ftdiWriteDataCb_ends rfl (getElem?_modify_of_some hc) hroom).mono ?_
    fun _ _ hfail hchunked =>
      hfail.1 (hchunked tc hmem hout (TransferControl.active_of_transfer htr ha))
  rintro - t ⟨tc', hf, hsent⟩
  have hcontrols : t.controls = s.controls.modify id fun _ => tc' :=
    hf.controls.trans (modify_modify_const hc)
  exact .went id tc n tc' ⟨hc, hout, TransferControl.active_of_transfer htr ha, hroom,
    hsent.trans hw, { hf with controls := hcontrols }⟩

theorem complete_ends (h : s.Sound) (c : Completion) :
    Ends (complete env c) (fun _ t => Completes s t) (fun _ _ => ¬ s.Chunked) s := by
  -- a completion of no transfer that is under way is none
  have hnothing :
      Ends (pure () : Run σ Unit) (fun _ t => Completes s t) (fun _ _ => ¬ s.Chunked) s :=
    Completes.nothing rfl
  rcases c with ⟨id, status, data⟩ | ⟨id, status, n⟩
  · simp only [complete, ends_bind, ends_look]
    rcases hc : s.controls[id]? with _ | tc
    · exact hnothing
    · rcases hin : tc.direction
      · rcases htr : tc.transfer with _ | transfer
        · simp only [hin, htr]
          exact hnothing
        · simp only [hin, htr, ends_ite]
          refine ⟨fun ha => ?_, fun _ => hnothing⟩
          simp only [modifyControl, ends_bind, ends_alter]
          exact (complete_came h hc hin htr ha (by rw [List.length_take]; omega)).mono
            (fun _ _ h => h) fun _ _ h => h.elim
      · simp only [hin]
        exact hnothing
  · simp only [complete, ends_bind, ends_look]
    rcases hc : s.controls[id]? with _ | tc
    · exact hnothing
    · rcases hout : tc.direction
      · simp only [hout]
        exact hnothing
      · rcases htr : tc.transfer with _ | transfer
        · simp only [hout, htr]
          exact hnothing
        · simp only [hout, htr, ends_ite]
          refine ⟨fun ha => ?_, fun _ => hnothing⟩
          obtain ⟨hbuffer, hfits⟩ :=
            (h.controls tc (List.mem_of_getElem? hc)).sends hout transfer htr ha
          have hlen : (slice tc.buf transfer.buffer transfer.length).length = transfer.length :=
            length_slice (by rw [hbuffer]; exact hfits)
          simp only [modifyControl, ends_bind, ends_alter]
          refine complete_went h hc hout htr ha ?_ ?_
          · rw [List.length_take, hlen]
            omega
          · rw [List.length_take, hlen, hbuffer, slice, slice, List.take_take]

end Ftdi

end SgFtdi
