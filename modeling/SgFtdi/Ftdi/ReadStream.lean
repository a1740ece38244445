import SgFtdi.Ftdi.Reading

/-!
# The bytes of the read stream

Whatever calls are made, synchronous or not, and whatever transfers are
completed while they run, every byte of data that came from the chip is
accounted for once and in order: it was given to the call that reports
it, or is lost with a call that fails, or is promised to the calls to
come. `Account` is that for one piece of a run, and its pieces compose.
-/

namespace SgFtdi

namespace Ftdi

open Prog

variable {σ : Type} {env : Env σ} {s t u : Device σ}

/-- **The account of a piece of a run**: what was promised before and what
came is what went out and what is promised now. -/
structure Account (s : Device σ) (out : List UInt8) (t : Device σ) : Prop where
  packet : t.maxPacketSize = s.maxPacketSize
  bytes : ∃ new, t.received = s.received ++ new ∧
    s.promised ++ new.flatMap (payload s.maxPacketSize) = out ++ t.promised

namespace Account

variable {out out' : List UInt8}

/-- Nothing came. -/
theorem of_received (hp : t.maxPacketSize = s.maxPacketSize) (hr : t.received = s.received)
    (hout : s.promised = out ++ t.promised) : Account s out t :=
  ⟨hp, [], by rw [hr, List.append_nil], by rw [List.flatMap_nil, List.append_nil, hout]⟩

theorem refl (s : Device σ) : Account s [] s := of_received rfl rfl rfl

theorem trans (h : Account s out t) (h' : Account t out' u) : Account s (out ++ out') u := by
  obtain ⟨new, hr, hb⟩ := h.bytes
  obtain ⟨new', hr', hb'⟩ := h'.bytes
  refine ⟨h'.packet.trans h.packet, new ++ new', by rw [hr', hr, List.append_assoc], ?_⟩
  rw [h.packet] at hb'
  rw [List.flatMap_append, ← List.append_assoc, hb, List.append_assoc, hb', List.append_assoc]

end Account

/-! ## What goes on meanwhile -/

/-- **What handling events does to the read stream**: the account of it is
balanced, and where no read is under way nothing of it is touched. -/
structure Meanwhile (s t : Device σ) : Prop where
  sound : t.Sound
  account : Account s [] t
  usbDev : t.usbDev = s.usbDev
  chunksize : t.readbufferChunksize = s.readbufferChunksize
  quiet : s.readers = [] → t.readers = [] ∧ t.readbuffer = s.readbuffer ∧
    t.readbufferOffset = s.readbufferOffset ∧ t.readbufferRemaining = s.readbufferRemaining ∧
    t.received = s.received
  kept : ∀ (id : ℕ) (tc : TransferControl), s.controls[id]? = some tc →
    ∃ tc' : TransferControl, t.controls[id]? = some tc' ∧ tc'.direction = tc.direction ∧
      tc'.freed = tc.freed

namespace Meanwhile

theorem refl (h : s.Sound) : Meanwhile s s :=
  ⟨h, Account.refl s, rfl, rfl, fun h => ⟨h, rfl, rfl, rfl, rfl⟩, fun _ tc h => ⟨tc, h, rfl, rfl⟩⟩

theorem trans (h : Meanwhile s t) (h' : Meanwhile t u) : Meanwhile s u := by
  refine ⟨h'.sound, h.account.trans h'.account, h'.usbDev.trans h.usbDev,
    h'.chunksize.trans h.chunksize, fun hs => ?_, fun id tc hc => ?_⟩
  · obtain ⟨h1, h2, h3, h4, h5⟩ := h.quiet hs
    obtain ⟨h1', h2', h3', h4', h5'⟩ := h'.quiet h1
    exact ⟨h1', h2'.trans h2, h3'.trans h3, h4'.trans h4, h5'.trans h5⟩
  · obtain ⟨tc', hc', hd, hf⟩ := h.kept id tc hc
    obtain ⟨tc'', hc'', hd', hf'⟩ := h'.kept id tc' hc'
    exact ⟨tc'', hc'', hd'.trans hd, hf'.trans hf⟩

end Meanwhile

/-- A control is kept by a change of one to `tc'`. -/
theorem kept_of_modify {id : ℕ} {tc tc' : TransferControl} (hc : s.controls[id]? = some tc)
    (ht : t.controls = s.controls.modify id fun _ => tc') (hd : tc'.direction = tc.direction)
    (hf : tc'.freed = tc.freed) : ∀ (id' : ℕ) (x : TransferControl), s.controls[id']? = some x →
      ∃ x' : TransferControl, t.controls[id']? = some x' ∧ x'.direction = x.direction ∧
        x'.freed = x.freed := by
  intro id' x hx
  rw [ht, List.getElem?_modify, hx]
  by_cases hid : id = id'
  · subst hid
    rw [hc] at hx
    obtain rfl := Option.some.inj hx
    exact ⟨tc', by simp, hd, hf⟩
  · exact ⟨x, by simp [hid], rfl, rfl⟩

/-- A completed read. -/
theorem Came.meanwhile {id : ℕ} {tc tc' : TransferControl} {data : List UInt8} (hs : s.Sound)
    (h : Came s id tc data tc' t) : Meanwhile s t := by
  obtain ⟨transfer, hf, hbuffer, hlength⟩ := h.filled
  have hmem := List.mem_of_getElem? h.control
  obtain ⟨hcompleted, hfreed⟩ := (hs.controls tc hmem).pending h.active
  have hreading : tc.reading = true := TransferControl.reading_iff.mpr ⟨h.input, hfreed⟩
  have hreading' : tc'.reading = true :=
    TransferControl.reading_iff.mpr ⟨hf.direction.trans h.input, hf.freed.trans hfreed⟩
  obtain ⟨hbefore, hafter⟩ := filter_modify_of_single (f := fun _ => tc') h.control hreading
    hs.single
  -- the control is the only one that reads
  have hreaders : s.readers = [tc] := hbefore
  have hreaders' : t.readers = [tc'] := by
    rw [Device.readers, hf.controls, hafter, List.filter_cons_of_pos hreading', List.filter_nil]
  have hinside := hf.inside
  rw [hs.length] at hinside
  refine ⟨⟨?_, ?_, ?_, ?_, ?_, ?_⟩, ⟨hf.packet, [data], h.received, ?_⟩, hf.usbDev, hf.chunksize,
    fun hnone => ?_, kept_of_modify h.control hf.controls hf.direction hf.freed⟩
  · rw [hf.packet]
    exact hs.packet
  · rw [hf.length, hf.chunksize]
    exact hs.length
  · rw [hf.chunksize]
    exact hinside
  · rw [hf.controls]
    refine forall_mem_modify hs.controls fun x _ => ⟨hf.offset, fun ha => ?_, fun hd => ?_⟩
    · exact ⟨(hf.again ha).2.2.1.trans hcompleted, hf.freed.trans hfreed⟩
    · rw [hf.direction, h.input] at hd
      exact absurd hd (by decide)
  · intro x hx transfer' htr ha
    rw [hreaders', List.mem_singleton] at hx
    subst hx
    obtain ⟨h1, h2, -, h4⟩ := hf.again (TransferControl.active_of_transfer htr ha)
    rw [h4] at htr
    obtain rfl := Option.some.inj htr
    exact ⟨hbuffer, hlength.trans hf.chunksize.symm, h1, h2⟩
  · rw [hreaders']
    exact Nat.le_refl 1
  · obtain ⟨old, htr, ha⟩ := TransferControl.exists_transfer h.active
    obtain ⟨-, -, -, hrem⟩ := hs.filling tc (by rw [hreaders]; exact List.mem_singleton_self tc)
      old htr ha
    rw [Device.promised, Device.promised, hreaders, hreaders', held_of_remaining hrem]
    simpa using hf.bytes.symm
  · rw [hreaders] at hnone
    exact absurd hnone (List.cons_ne_nil _ _)

/-- A completed write. -/
theorem Went.meanwhile {id n : ℕ} {tc tc' : TransferControl} (hs : s.Sound)
    (h : Went s id tc n tc' t) : Meanwhile s t := by
  have ha := h.advanced
  have hmem := List.mem_of_getElem? h.control
  obtain ⟨hcompleted, hfreed⟩ := (hs.controls tc hmem).pending h.active
  have hnot : ∀ x : TransferControl, x.direction = .output → x.reading = false := by
    intro x hx
    simp [TransferControl.reading, hx]
  -- a write is none of the reads, before and after
  have hreaders : t.readers = s.readers := by
    rw [Device.readers, ha.controls]
    exact filter_modify_of_false h.control (hnot tc h.output)
      (hnot tc' (ha.direction.trans h.output))
  have hheld : t.held = s.held := by
    rw [Device.held, ha.readbuffer, ha.readbufferOffset, ha.readbufferRemaining, Device.held]
  have hpromised : t.promised = s.promised := by
    rw [Device.promised, hreaders, hheld, Device.promised]
  refine ⟨⟨?_, ?_, ?_, ?_, ?_, ?_⟩, Account.of_received ha.packet ha.received hpromised.symm,
    ha.usbDev, ha.chunksize, fun hnone => ⟨hreaders.trans hnone, ha.readbuffer,
      ha.readbufferOffset, ha.readbufferRemaining, ha.received⟩,
    kept_of_modify h.control ha.controls ha.direction ha.freed⟩
  · rw [ha.packet]
    exact hs.packet
  · rw [ha.readbuffer, ha.chunksize]
    exact hs.length
  · rw [ha.readbufferOffset, ha.readbufferRemaining, ha.chunksize]
    exact hs.inside
  · rw [ha.controls]
    refine forall_mem_modify hs.controls fun x _ =>
      ⟨?_, fun hact => ?_, fun _ transfer htr hact => ?_⟩
    · rw [ha.offset, TransferControl.size, ha.buf]
      exact h.fits
    · exact ⟨(ha.again hact).1.trans hcompleted, ha.freed.trans hfreed⟩
    · exact (ha.again (TransferControl.active_of_transfer htr hact)).2 transfer htr
  · intro x hx transfer htr hact
    rw [hreaders] at hx
    rw [ha.chunksize, ha.readbufferOffset, ha.readbufferRemaining]
    exact hs.filling x hx transfer htr hact
  · rw [hreaders]
    exact hs.single

/-- Chunks of blocks, after a change of one control to `tc'`. -/
theorem Device.Chunked.modify {id : ℕ} {tc tc' : TransferControl} (h : s.Chunked)
    (hc : s.controls[id]? = some tc) (hsize : t.writebufferChunksize = s.writebufferChunksize)
    (ht : t.controls = s.controls.modify id fun _ => tc')
    (hsends : tc'.direction = .output → tc.direction = .output ∧ tc'.size = tc.size)
    (ha : tc.active = true) : t.Chunked := by
  rw [Device.Chunked, ht, hsize]
  refine forall_mem_modify h fun _ _ hout _ => ?_
  obtain ⟨hdir, heq⟩ := hsends hout
  rw [heq]
  exact h tc (List.mem_of_getElem? hc) hdir ha

/-- No completion makes a write go out in other chunks. -/
theorem Completes.chunked (h : Completes s t) (hs : s.Chunked) : t.Chunked := by
  rcases h with rfl | ⟨id, tc, data, tc', hcame⟩ | ⟨id, tc, n, tc', hwent⟩
  · exact hs
  · obtain ⟨transfer, hf, -, -⟩ := hcame.filled
    exact hs.modify hcame.control hf.writebufferChunksize hf.controls
      (fun hout => absurd (hout.symm.trans (hf.direction.trans hcame.input)) (by decide))
      hcame.active
  · have ha := hwent.advanced
    exact hs.modify hwent.control ha.writebufferChunksize ha.controls
      (fun _ => ⟨hwent.output, congrArg List.length ha.buf⟩) hwent.active

/-- **One completion.** -/
theorem complete_meanwhile (h : s.Sound) (c : Completion) :
    Ends (complete env c) (fun _ t => Meanwhile s t ∧ (s.Chunked → t.Chunked))
      (fun _ _ => ¬ s.Chunked) s := by
  refine (complete_ends h c).mono (fun _ t hcomplete => ⟨?_, hcomplete.chunked⟩) fun _ _ h => h
  rcases hcomplete with rfl | ⟨id, tc, data, tc', hcame⟩ | ⟨id, tc, n, tc', hwent⟩
  · exact Meanwhile.refl h
  · exact hcame.meanwhile h
  · exact hwent.meanwhile h

/-- **Any completions**, one after another. -/
theorem each_meanwhile (h : s.Sound) (cs : List Completion) :
    Ends (each cs (complete env)) (fun _ t => Meanwhile s t ∧ (s.Chunked → t.Chunked))
      (fun _ _ => ¬ s.Chunked) s := by
  refine ends_each (I := fun _ t => Meanwhile s t ∧ (s.Chunked → t.Chunked))
    ⟨Meanwhile.refl h, fun hs => hs⟩ fun c rest t ht => ?_
  obtain ⟨hmeanwhile, hchunked⟩ := ht
  refine (complete_meanwhile hmeanwhile.sound c).mono ?_ fun _ _ hnot hs => hnot (hchunked hs)
  exact fun _ _ hu => ⟨hmeanwhile.trans hu.1, fun hs => hu.2 (hchunked hs)⟩

/-! ## Synchronous reads -/

/-- Where no read is under way, the read buffer is the caller's to change. -/
theorem Device.Sound.change (h : s.Sound) (hnone : s.readers = [])
    (hp : t.maxPacketSize = s.maxPacketSize) (hc : t.controls = s.controls)
    (hlen : t.readbuffer.length = t.readbufferChunksize)
    (hin : t.readbufferOffset + t.readbufferRemaining ≤ t.readbufferChunksize) : t.Sound := by
  have hreaders : t.readers = [] := by
    rw [Device.readers, hc]
    exact hnone
  refine ⟨by rw [hp]; exact h.packet, hlen, hin, by rw [hc]; exact h.controls, ?_, ?_⟩
  · intro tc hmem
    rw [hreaders] at hmem
    exact absurd hmem List.not_mem_nil
  · rw [hreaders]
    exact Nat.zero_le 1

/-- What a transfer into the empty read buffer leaves. -/
structure Brought (s : Device σ) (data : List UInt8) (t : Device σ) : Prop where
  sound : t.Sound
  readers : t.readers = []
  packet : t.maxPacketSize = s.maxPacketSize
  usbDev : t.usbDev = s.usbDev
  chunked : s.Chunked → t.Chunked
  readbufferOffset : t.readbufferOffset = 0
  readbufferRemaining : t.readbufferRemaining = 0
  received : t.received = s.received ++ [data]
  fits : data.length ≤ t.readbuffer.length
  stored : t.readbuffer.take data.length = data

theorem bulkTransferIn_ends (hs : s.Sound) (hnone : s.readers = []) (hoff : s.readbufferOffset = 0)
    (hrem : s.readbufferRemaining = 0) :
    Ends (bulkTransferIn env) (fun r t => ∃ data, r.2 = data.length ∧
      (∃ n w, r.1 = (env.bulkIn n w).1.2.1) ∧ Brought s data t)
      (fun _ _ => ¬ s.Chunked) s := by
  simp only [bulkTransferIn, world, ends_bind, ends_look, ends_ask]
  generalize hanswer : env.bulkIn s.readbufferChunksize s.world = answer
  obtain ⟨⟨completions, ret, data⟩, w⟩ := answer
  have hasked : ({ s with world := w } : Device σ).Sound :=
    hs.change hnone rfl rfl hs.length hs.inside
  refine (each_meanwhile hasked completions).mono ?_ fun _ _ h => h
  -- other transfers came in between, and left the read buffer alone
  rintro - u ⟨hu, hchunked⟩
  obtain ⟨hreaders, hrb, hoff', hrem', hrec⟩ := hu.quiet hnone
  have hlen : (data.take s.readbufferChunksize).length ≤ u.readbuffer.length := by
    rw [hrb, List.length_take]
    have := hs.length
    show _ ≤ s.readbuffer.length
    omega
  have hstored := take_overwrite_add (data.take s.readbufferChunksize)
    (Nat.zero_le u.readbuffer.length)
  rw [Nat.zero_add, List.take_zero, List.nil_append] at hstored
  have hover : (overwrite u.readbuffer 0 (data.take s.readbufferChunksize)).length =
      u.readbuffer.length := length_overwrite (by omega)
  simp only [ends_alter, ends_pure]
  refine ⟨_, rfl, ⟨s.readbufferChunksize, s.world, by rw [hanswer]⟩,
    ⟨hu.sound.change hreaders rfl rfl ?_ hu.sound.inside, hreaders, hu.account.packet, hu.usbDev,
      hchunked, hoff'.trans hoff, hrem'.trans hrem, ?_, ?_, hstored⟩⟩
  · show (overwrite u.readbuffer 0 (data.take s.readbufferChunksize)).length = _
    rw [hover, hu.sound.length]
  · show u.received ++ _ = _
    rw [hrec]
  · show _ ≤ (overwrite u.readbuffer 0 (data.take s.readbufferChunksize)).length
    rw [hover]
    exact hlen

/-- A turn of the loop empties the read buffer first. -/
theorem Brought.of_emptied {data : List UInt8}
    (h : Brought { s with readbufferRemaining := 0, readbufferOffset := 0 } data t) :
    Brought s data t :=
  ⟨h.sound, h.readers, h.packet, h.usbDev, h.chunked, h.readbufferOffset, h.readbufferRemaining,
    h.received, h.fits, h.stored⟩

/-- **What a read gives back**, with `before` not reported yet and the block
filled up to `offset`: what is in the block up to the reported length,
and held behind it, is that and the data that came. The block is not
touched behind the reported length. A read that gives back less than its
block was ended by a transfer with no data, and one that fails does so with
the answer of the system. -/
structure Answered (env : Env σ) (s : Device σ) (before buf : List UInt8) (offset : ℕ)
    (r : ℤ × List UInt8)
    (t : Device σ) : Prop where
  sound : t.Sound
  readers : t.readers = []
  packet : t.maxPacketSize = s.maxPacketSize
  usbDev : t.usbDev = s.usbDev
  length : r.2.length = buf.length
  failed : r.1 < 0 → (s.usbDev = false ∧ r.1 = -666) ∨ ∃ n w, r.1 = (env.bulkIn n w).1.2.1
  bytes : ∃ new out, t.received = s.received ++ new ∧
    before ++ new.flatMap (payload s.maxPacketSize) = out ++ t.held ∧
    (0 ≤ r.1 → ∃ n : ℕ, r.1 = n ∧ offset ≤ n ∧ n ≤ buf.length ∧ out = r.2.take n ∧
      r.2.drop n = buf.drop n ∧
      (n < buf.length → t.held = [] ∧ ∃ front last, new = front ++ [last] ∧ last.length ≤ 2))

/-- One turn of the loop, and the rest of it. -/
theorem Answered.turn {buf buf' data : List UInt8} {offset offset' : ℕ} {r : ℤ × List UInt8}
    (h : Answered env t (buf'.take offset') buf' offset' r u)
    (hpacket : t.maxPacketSize = s.maxPacketSize)
    (husb : t.usbDev = s.usbDev) (hrec : t.received = s.received ++ [data])
    (hlen : buf'.length = buf.length) (hle : offset ≤ offset')
    (htake : buf'.take offset' = buf.take offset ++ payload s.maxPacketSize data)
    (hdrop : buf'.drop offset' = buf.drop offset') :
    Answered env s (buf.take offset) buf offset r u := by
  refine ⟨h.sound, h.readers, h.packet.trans hpacket, h.usbDev.trans husb, h.length.trans hlen,
    by rw [← husb]; exact h.failed, ?_⟩
  obtain ⟨new, out, hnew, hbytes, hret⟩ := h.bytes
  refine ⟨data :: new, out, ?_, ?_, fun hr => ?_⟩
  · rw [hnew, hrec, List.append_assoc, List.singleton_append]
  · rw [List.flatMap_cons, ← List.append_assoc, ← htake, ← hpacket, hbytes]
  · obtain ⟨n, hn, h1, h2, h3, h4, h5⟩ := hret hr
    refine ⟨n, hn, hle.trans h1, by omega, h3, ?_, fun hlt => ?_⟩
    · obtain ⟨d, rfl⟩ := Nat.exists_eq_add_of_le h1
      rw [h4, ← List.drop_drop, hdrop, List.drop_drop]
    · obtain ⟨hheld, front, last, hsplit, hlast⟩ := h5 (by omega)
      exact ⟨hheld, data :: front, last, by rw [hsplit]; rfl, hlast⟩

theorem complete_comesBack (c : Completion) : ComesBack (complete env c) := by
  have hsubmit : ∀ id transfer, ComesBack (submitAgain env id transfer) := fun id transfer =>
    ComesBack.bind ComesBack.ask fun _ => ComesBack.ite ComesBack.alter ComesBack.alter
  have hresubmit : ∀ id transfer, ComesBack (resubmit env id transfer) := fun id transfer =>
    ComesBack.ite ComesBack.alter (hsubmit id transfer)
  have hread : ∀ id tc transfer n, ComesBack (ftdiReadDataCb env id tc transfer n) := by
    intro id tc transfer n
    refine ComesBack.ite (ComesBack.bind ComesBack.ask fun count => ComesBack.ite
      (ComesBack.ite ?_ ?_) (hresubmit id transfer)) (hresubmit id transfer)
    · exact ComesBack.bind ComesBack.look fun _ => ComesBack.bind ComesBack.alter fun _ =>
        ComesBack.bind ComesBack.alter fun _ => ComesBack.ite ComesBack.alter
          (hresubmit id transfer)
    · exact ComesBack.bind ComesBack.look fun _ => ComesBack.bind ComesBack.alter fun _ =>
        ComesBack.bind ComesBack.alter fun _ => ComesBack.alter
  have hwrite : ∀ id tc transfer n, ComesBack (ftdiWriteDataCb env id tc transfer n) :=
    fun id tc transfer n => ComesBack.bind ComesBack.alter fun _ => ComesBack.ite ComesBack.alter
      (ComesBack.bind ComesBack.look fun _ => ComesBack.ite ComesBack.alter
        (ComesBack.bind (ComesBack.ite ComesBack.pure ComesBack.raise) fun _ => hsubmit id _))
  -- nothing is asked in a loop, so each branch is a chain of steps
  rcases c with ⟨id, status, data⟩ | ⟨id, status, n⟩
  · refine ComesBack.bind ComesBack.look fun control => ?_
    rcases control with _ | tc
    · exact ComesBack.pure
    · rcases tc with ⟨_ | _, completed, buf, offset, _ | transfer, freed⟩
      · exact ComesBack.pure
      · exact ComesBack.ite (ComesBack.bind ComesBack.alter fun _ =>
          ComesBack.bind ComesBack.alter fun _ => hread _ _ _ _) ComesBack.pure
      · exact ComesBack.pure
      · exact ComesBack.pure
  · refine ComesBack.bind ComesBack.look fun control => ?_
    rcases control with _ | tc
    · exact ComesBack.pure
    · rcases tc with ⟨_ | _, completed, buf, offset, _ | transfer, freed⟩
      · exact ComesBack.pure
      · exact ComesBack.pure
      · exact ComesBack.pure
      · exact ComesBack.ite (ComesBack.bind ComesBack.alter fun _ =>
          ComesBack.bind ComesBack.alter fun _ => hwrite _ _ _ _) ComesBack.pure

theorem bulkTransferIn_comesBack : ComesBack (bulkTransferIn env) :=
  ComesBack.bind ComesBack.look fun _ => ComesBack.bind ComesBack.ask fun _ =>
    ComesBack.bind (ComesBack.each complete_comesBack _) fun _ =>
      ComesBack.bind ComesBack.alter fun _ => ComesBack.pure

/-! ### The ways out of a turn -/

/-- A failure loses what the block was filled with. -/
theorem Brought.failed {data buf : List UInt8} {offset : ℕ} {ret : ℤ} (hb : Brought s data t)
    (hneg : ret < 0) (hret : ∃ n w, ret = (env.bulkIn n w).1.2.1) (text : String) :
    Answered env s (buf.take offset) buf offset (ret, buf) { t with errorStr := text } := by
  have hheld : t.held = [] := held_of_remaining hb.readbufferRemaining
  refine ⟨hb.sound.change hb.readers rfl rfl hb.sound.length hb.sound.inside, hb.readers,
    hb.packet, hb.usbDev, rfl, fun _ => .inr hret, [data],
    buf.take offset ++ [data].flatMap (payload s.maxPacketSize), hb.received, ?_,
    fun hpos => absurd hpos (Int.not_le.mpr hneg)⟩
  show _ = _ ++ t.held
  rw [hheld, List.append_nil]

/-- A transfer without data ends the read. -/
theorem Brought.ended {data buf : List UInt8} {offset : ℕ} (hb : Brought s data t)
    (hp : 2 < s.maxPacketSize) (hsmall : data.length ≤ 2) (hoff : offset ≤ buf.length) :
    Answered env s (buf.take offset) buf offset ((offset : ℤ), buf) t := by
  have hheld : t.held = [] := held_of_remaining hb.readbufferRemaining
  refine ⟨hb.sound, hb.readers, hb.packet, hb.usbDev, rfl, fun hneg => absurd hneg (by omega),
    [data], buf.take offset, hb.received, ?_, fun _ => ⟨offset, rfl, Nat.le_refl _, hoff, rfl, rfl,
      fun _ => ⟨hheld, [], data, rfl, hsmall⟩⟩⟩
  rw [List.flatMap_singleton, payload_of_length_le_two hp hsmall, hheld]

/-- The block is full, and nothing is held. -/
theorem Answered.full {buf : List UInt8} {offset : ℕ} (hs : t.Sound) (hnone : t.readers = [])
    (hrem : t.readbufferRemaining = 0) (hall : offset = buf.length) :
    Answered env t (buf.take offset) buf offset ((offset : ℤ), buf) t := by
  refine ⟨hs, hnone, rfl, rfl, rfl, fun hneg => absurd hneg (by omega), [], buf.take offset,
    (List.append_nil _).symm, ?_, fun _ => ⟨offset, rfl, Nat.le_refl _, Nat.le_of_eq hall, rfl, rfl,
      fun hlt => absurd hlt (by omega)⟩⟩
  rw [held_of_remaining hrem, List.flatMap_nil]

/-- **What a transfer brought, without its status bytes**: `count` bytes of
the read buffer. -/
structure Stripped (s : Device σ) (data : List UInt8) (t : Device σ) (rb : List UInt8)
    (count : ℕ) : Prop where
  length : rb.length = t.readbufferChunksize
  data : slice rb 2 count = payload s.maxPacketSize data
  fits : 2 + count ≤ rb.length
  some_left : 0 < count

theorem Brought.stripped {data : List UInt8} (hb : Brought s data t) (hbig : data.length > 2) :
    Stripped s data t (skipStatus t.maxPacketSize 2 data.length t.readbuffer).1
      (skipStatus t.maxPacketSize 2 data.length t.readbuffer).2 := by
  have hskip := skipStatus_skipped hb.sound.packet hbig hb.fits
  have hdata := hskip.data
  rw [hb.stored, hb.packet] at hdata
  have hfits := hskip.fits
  have hlen := hb.fits
  refine ⟨hskip.length.trans hb.sound.length, ?_, ?_, hskip.some_left⟩
  · rw [hb.packet]
    exact hdata
  · rw [hskip.length]
    omega

section Stripped

variable {data rb buf : List UInt8} {count offset : ℕ}

/-- Data that fits into the block. -/
theorem Stripped.fit (h : Stripped s data t rb count) (hroom : offset + count ≤ buf.length) :
    (overwrite buf offset (slice rb 2 count)).length = buf.length ∧
      (overwrite buf offset (slice rb 2 count)).take (offset + count) =
        buf.take offset ++ payload s.maxPacketSize data ∧
      (overwrite buf offset (slice rb 2 count)).drop (offset + count) =
        buf.drop (offset + count) := by
  have hcount : (slice rb 2 count).length = count := length_slice h.fits
  refine ⟨length_overwrite (by omega), ?_, drop_overwrite (by omega) (by omega)⟩
  have hcut := take_overwrite_add (slice rb 2 count) (show offset ≤ buf.length by omega)
  rw [hcount] at hcut
  rw [hcut, h.data]

/-- The read buffer may be changed to what is left of it. -/
theorem Stripped.sound (h : Stripped s data t rb count) (hb : Brought s data t) {at' left : ℕ}
    (hin : at' + left ≤ rb.length) : ({ t with
      readbuffer := rb
      readbufferOffset := at'
      readbufferRemaining := left } : Device σ).Sound :=
  hb.sound.change hb.readers rfl rfl h.length (by rw [← h.length]; exact hin)

/-- Some of the data is left for the next read. -/
theorem Stripped.part (h : Stripped s data t rb count) (hb : Brought s data t)
    (hoff : offset ≤ buf.length) (hroom : buf.length - offset ≤ count) :
    Answered env s (buf.take offset) buf offset
      (((offset + (buf.length - offset) : ℕ) : ℤ),
        overwrite buf offset (slice rb 2 (buf.length - offset)))
      { t with
        readbuffer := rb
        readbufferOffset := 2 + (buf.length - offset)
        readbufferRemaining := count - (buf.length - offset) } := by
  have hfits := h.fits
  have hsize : (slice rb 2 (buf.length - offset)).length = buf.length - offset :=
    length_slice (by omega)
  have hcut := slice_add rb 2 (buf.length - offset) (count - (buf.length - offset))
  rw [Nat.add_sub_cancel' hroom, h.data] at hcut
  have htake := take_overwrite_add (slice rb 2 (buf.length - offset)) hoff
  rw [hsize] at htake
  have hlen : (overwrite buf offset (slice rb 2 (buf.length - offset))).length = buf.length :=
    length_overwrite (by omega)
  refine ⟨h.sound hb (by omega), hb.readers, hb.packet, hb.usbDev, hlen,
    fun hneg => absurd hneg (by omega), [data],
    (overwrite buf offset (slice rb 2 (buf.length - offset))).take (offset + (buf.length - offset)),
    hb.received, ?_, fun _ => ⟨_, rfl, Nat.le_add_right _ _, by omega, rfl,
      drop_overwrite hoff (by omega), fun hlt => absurd hlt (by omega)⟩⟩
  rw [htake, List.flatMap_singleton, hcut, ← List.append_assoc]
  rfl

end Stripped

/-- **The loop of a read** fills the block further in every turn but the
last, so it ends. -/
theorem readTurns_exits : ∀ {turns : ℕ} {s : Device σ} {buf : List UInt8} {offset : ℕ},
    s.Sound → s.readers = [] → offset < buf.length → buf.length - offset < turns →
      Runs (readTurns env turns buf offset) (Answered env s (buf.take offset) buf offset)
        (fun _ _ => ¬ s.Chunked) (fun _ => False) s := by
  intro turns
  induction turns with
  | zero =>
      intro s buf offset _ _ _ h
      exact absurd h (Nat.not_lt_zero _)
  | succ turns ih =>
      intro s buf offset hs hnone hoff hturns
      have hs' : ({ s with readbufferRemaining := 0, readbufferOffset := 0 } : Device σ).Sound :=
        hs.change hnone rfl rfl hs.length (Nat.zero_le _)
      simp only [readTurns, runs_bind, runs_alter]
      refine (bulkTransferIn_comesBack.runs (bulkTransferIn_ends hs' hnone rfl rfl)).mono ?_
        (fun _ _ h => h) fun _ h => h
      rintro ⟨ret, n⟩ t ⟨data, rfl, hret, hemptied⟩
      have hb : Brought s data t := hemptied.of_emptied
      simp only [runs_ite]
      refine ⟨fun hfail => ?_, fun _ => ⟨fun hbig => ?_, fun hsmall => ?_⟩⟩
      · simp only [errorReturn, runs_bind, runs_alter, runs_pure]
        exact hb.failed hfail hret _
      · -- data has come: it fits and the loop goes on, or a part of it is held
        have hstripped := hb.stripped hbig
        simp only [stripBuffer, runs_bind, runs_ask, hb.readbufferOffset, Nat.zero_add]
        generalize skipStatus t.maxPacketSize 2 data.length t.readbuffer = stripped at hstripped ⊢
        obtain ⟨rb, count⟩ := stripped
        have hstripped : Stripped s data t rb count := hstripped
        have hpos : 0 < count := hstripped.some_left
        have hfits : 2 + count ≤ rb.length := hstripped.fits
        simp only [peek, runs_bind, runs_look, runs_ite, runs_pure, runs_alter]
        refine ⟨fun _ => ⟨fun hroom => ?_, fun hpart => hstripped.part hb (by omega) (by omega)⟩,
          fun hnone' => absurd hpos hnone'⟩
        obtain ⟨hlen, htake, hdrop⟩ := hstripped.fit hroom
        have hnew : ({ t with readbuffer := rb, readbufferOffset := 2 } : Device σ).Sound :=
          hstripped.sound hb (by rw [hb.readbufferRemaining]; omega)
        refine ⟨fun hall => ?_, fun hmore => ?_⟩
        · exact (Answered.full hnew hb.readers hb.readbufferRemaining hall).turn hb.packet hb.usbDev
            hb.received hlen (Nat.le_add_right _ _) htake hdrop
        · refine (ih hnew hb.readers (by omega) (by omega)).mono (fun r u hu => ?_)
            (fun _ _ hnot hchunked => hnot (hb.chunked hchunked)) fun _ h => h
          exact hu.turn hb.packet hb.usbDev hb.received hlen (Nat.le_add_right _ _) htake hdrop
      · rw [runs_pure]
        exact hb.ended hs.packet (by omega) (Nat.le_of_lt hoff)

/-- A read that starts with what was held in its block. -/
theorem Answered.start {buf buf' : List UInt8} {n : ℕ} {r : ℤ × List UInt8}
    (h : Answered env s (buf'.take n) buf' n r t) (hlen : buf'.length = buf.length)
    (htake : buf'.take n = s.held) (hdrop : buf'.drop n = buf.drop n) :
    Answered env s s.held buf 0 r t := by
  refine ⟨h.sound, h.readers, h.packet, h.usbDev, h.length.trans hlen, h.failed, ?_⟩
  obtain ⟨new, out, hnew, hbytes, hret⟩ := h.bytes
  refine ⟨new, out, hnew, by rw [← htake, hbytes], fun hr => ?_⟩
  obtain ⟨k, hk, h1, h2, h3, h4, h5⟩ := hret hr
  refine ⟨k, hk, Nat.zero_le k, by omega, h3, ?_, fun hlt => h5 (by omega)⟩
  obtain ⟨d, rfl⟩ := Nat.exists_eq_add_of_le h1
  rw [h4, ← List.drop_drop, hdrop, List.drop_drop]

/-- **`ftdi_read_data` comes back**, whatever the system answers, and its
account is in order. What is undefined is the chunk of a write. -/
theorem ftdiReadData_exits (hs : s.Sound) (hnone : s.readers = []) (buf : List UInt8) :
    Runs (ftdiReadData env buf) (Answered env s s.held buf 0) (fun _ _ => ¬ s.Chunked)
      (fun _ => False) s := by
  have hp := hs.packet
  have hchunk := hs.length
  have hinside := hs.inside
  simp only [ftdiReadData, runs_bind, runs_look, runs_ite, id]
  refine ⟨fun hclosed => ?_, fun _ => ⟨fun hbogus => absurd hbogus (by omega), fun _ =>
    ⟨fun hall => ?_, fun hmore => ⟨fun hsome => ?_, fun hzero => ?_⟩⟩⟩⟩
  · simp only [errorReturn, runs_bind, runs_alter, runs_pure]
    exact ⟨hs.change hnone rfl rfl hchunk hinside, hnone, rfl, rfl, rfl,
      fun _ => .inl ⟨hclosed, rfl⟩, [], [], (List.append_nil _).symm, List.append_nil _,
      fun hr => absurd hr (Int.not_le.mpr (Int.negSucc_lt_zero 665))⟩
  · -- everything that is wanted is held
    obtain ⟨hlen, hcut⟩ := hs.front_copied hall
    simp only [peek, runs_look, runs_alter, runs_pure]
    refine ⟨hs.change hnone rfl rfl hchunk ?_, hnone, rfl, rfl, hlen,
      fun hneg => absurd hneg (by omega), [], _, (List.append_nil _).symm, ?_,
      fun _ => ⟨buf.length, rfl, Nat.zero_le _, Nat.le_refl _, rfl, ?_,
        fun hlt => absurd hlt (Nat.lt_irrefl _)⟩⟩
    · show s.readbufferOffset + buf.length + (s.readbufferRemaining - buf.length) ≤
        s.readbufferChunksize
      omega
    · rw [List.flatMap_nil, List.append_nil]
      exact hcut
    · rw [List.drop_of_length_le (Nat.le_of_eq hlen), List.drop_of_length_le (Nat.le_refl _)]
  · -- what is held is not enough
    obtain ⟨hlen, htake⟩ := hs.held_copied (by omega : s.readbufferRemaining ≤ buf.length)
    simp only [peek, runs_look]
    refine (readTurns_exits hs hnone ?_ ?_).mono (fun r t ht => ht.start hlen htake ?_)
      (fun _ _ h => h) fun _ h => h
    · show s.readbufferRemaining < (overwrite buf 0 s.held).length
      omega
    · show (overwrite buf 0 s.held).length - s.readbufferRemaining < buf.length + 1
      omega
    · exact drop_overwrite (Nat.zero_le _) (by rw [Nat.zero_add]; exact Nat.le_of_eq hs.length_held)
  · have hempty : s.readbufferRemaining = 0 := Decidable.not_not.mp hzero
    refine (readTurns_exits hs hnone (by omega) (by omega)).mono
      (fun r t ht => ht.start rfl ?_ rfl) (fun _ _ h => h) fun _ h => h
    rw [held_of_remaining hempty, List.take_zero]

/-- **A read comes back**, whatever the system answers, if the writes that
are under way go out in chunks of their blocks. What it gives back and what
is held behind it is what was held and the data that came, so a
short read has given back everything and was ended by a transfer without
data. A failure is the system's: the loop is not left at its end. -/
theorem read_returns (hs : s.Sound) (hnone : s.readers = []) (hchunked : s.Chunked)
    (buf : List UInt8) :
    ∃ ret buf' t, ftdiReadData env buf s = (.ret (ret, buf'), t) ∧ t.Sound ∧
      buf'.length = buf.length ∧
      (ret < 0 → (s.usbDev = false ∧ ret = -666) ∨ ∃ n w, ret = (env.bulkIn n w).1.2.1) ∧
      (0 ≤ ret → ∃ (n : ℕ) (new : List (List UInt8)), ret = n ∧ n ≤ buf.length ∧
        t.received = s.received ++ new ∧
        s.held ++ new.flatMap (payload s.maxPacketSize) = buf'.take n ++ t.held ∧
        buf'.drop n = buf.drop n ∧
        (n < buf.length → t.held = [] ∧ ∃ front last, new = front ++ [last] ∧
          last.length ≤ 2)) := by
  have hafter : After (ftdiReadData env buf) (Answered env s s.held buf 0) s :=
    ((ftdiReadData_exits hs hnone buf).mono (fun _ _ h => h) (fun _ _ hnot => hnot hchunked)
      fun _ h => h).after
  obtain ⟨⟨ret, buf'⟩, t, hrun, h⟩ := hafter
  refine ⟨ret, buf', t, hrun, h.sound, h.length, h.failed, fun hret => ?_⟩
  obtain ⟨new, out, hnew, hbytes, hall⟩ := h.bytes
  obtain ⟨n, hn, -, hle, hout, hdrop, hshort⟩ := hall hret
  exact ⟨n, new, hn, hle, hnew, by rw [hbytes, hout], hdrop, hshort⟩

/-- A read of one packet, some of which is held for the next read. -/
theorem read_returns_sample :
    ∃ ret buf' t, ftdiReadData scripted [0, 0] (opened [[1, 2, 65, 66, 67]]) =
      (.ret (ret, buf'), t) ∧ t.Sound ∧ buf'.length = [0, 0].length ∧
      (ret < 0 → ((opened [[1, 2, 65, 66, 67]]).usbDev = false ∧ ret = -666) ∨
        ∃ n w, ret = (scripted.bulkIn n w).1.2.1) ∧
      (0 ≤ ret → ∃ (n : ℕ) (new : List (List UInt8)), ret = n ∧ n ≤ [0, 0].length ∧
        t.received = (opened [[1, 2, 65, 66, 67]]).received ++ new ∧
        (opened [[1, 2, 65, 66, 67]]).held ++ new.flatMap (payload 5) = buf'.take n ++ t.held ∧
        buf'.drop n = [0, 0].drop n ∧
        (n < [0, 0].length →
          t.held = [] ∧ ∃ front last, new = front ++ [last] ∧ last.length ≤ 2)) :=
  read_returns (opened_sound _) rfl nofun [0, 0]

example : ftdiReadData scripted [0, 0] (opened [[1, 2, 65, 66, 67]]) =
    (.ret (2, [65, 66]), { opened [] with
      readbuffer := [1, 2, 65, 66, 67, 0, 0, 0]
      readbufferOffset := 4
      readbufferRemaining := 1
      received := [[1, 2, 65, 66, 67]] }) := rfl

end Ftdi

end SgFtdi
