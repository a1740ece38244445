import SgFtdi.Stream.Model.Session

/-!
# Stream — what the constructor accepts

`FtdiStream::FtdiStream` goes through the streams once, takes the
smallest packet sizes it meets and throws at the first stream that is not
in order. `Accepted` is what is then known of every stream.
-/

namespace SgFtdi

namespace Stream

variable {streams : List FtdiStreamEntry} {stream : FtdiStreamEntry} {sizes : Packetsizes}

/-- **A stream is in order**, for the packet sizes the object has. -/
structure Accepted (sizes : Packetsizes) (stream : FtdiStreamEntry) : Prop where
  read : sizes.read ≤ stream.ftdi.maxPacketSize
  write : sizes.write ≤ stream.ftdi.writebufferChunksize
  reads : 0 < stream.readTransfers →
    stream.hasReadCallback = true ∧ stream.readPacketsPerTransfer ≠ 0
  writes : 0 < stream.writeTransfers →
    stream.hasWriteCallback = true ∧ stream.writePacketsPerTransfer ≠ 0
  oneWrite : stream.writeTransfers ≤ 1

/-- Smaller packets suit it too. -/
theorem Accepted.smaller {sizes' : Packetsizes} (h : Accepted sizes stream)
    (hr : sizes'.read ≤ sizes.read) (hw : sizes'.write ≤ sizes.write) : Accepted sizes' stream :=
  ⟨UInt32.le_trans hr h.read, UInt32.le_trans hw h.write, h.reads, h.writes, h.oneWrite⟩

/-- The smaller of two sizes, as the constructor takes it. -/
theorem takeSmaller_le (a b : UInt32) :
    (if a > b then b else a) ≤ a ∧ (if a > b then b else a) ≤ b := by
  by_cases h : a > b
  · rw [if_pos h]
    exact ⟨UInt32.le_of_lt h, UInt32.le_refl b⟩
  · rw [if_neg h]
    exact ⟨UInt32.le_refl a, UInt32.not_lt.mp h⟩

/-- **One turn of the loop** puts the stream in order, and takes no larger
packets than before. -/
theorem checkStream_accepts {usbCtx : ℕ} {acc acc' : Packetsizes × Bool}
    (h : FtdiStream.checkStream usbCtx acc stream = .ok acc') :
    Accepted acc'.1 stream ∧ acc'.1.read ≤ acc.1.read ∧ acc'.1.write ≤ acc.1.write := by
  have hr := takeSmaller_le acc.1.read stream.ftdi.maxPacketSize
  have hw := takeSmaller_le acc.1.write stream.ftdi.writebufferChunksize
  unfold FtdiStream.checkStream at h
  generalize (if acc.1.read > stream.ftdi.maxPacketSize then stream.ftdi.maxPacketSize
    else acc.1.read) = r at h hr
  generalize (if acc.1.write > stream.ftdi.writebufferChunksize
    then stream.ftdi.writebufferChunksize else acc.1.write) = w at h hw
  dsimp only at h
  split_ifs at h with h₁ h₂ h₃ h₄ h₅ h₆
  cases h
  refine ⟨⟨hr.2, hw.2, fun hpos => ⟨?_, fun h0 => h₃ ⟨hpos, h0⟩⟩,
    fun hpos => ⟨?_, fun h0 => h₅ ⟨hpos, h0⟩⟩, by omega⟩, hr.1, hw.1⟩
  · exact Bool.not_eq_false _ ▸ fun h0 => h₂ ⟨hpos, h0⟩
  · exact Bool.not_eq_false _ ▸ fun h0 => h₄ ⟨hpos, h0⟩

theorem checkStreams_accepts {usbCtx : ℕ} {acc acc' : Packetsizes × Bool}
    (h : streams.foldlM (FtdiStream.checkStream usbCtx) acc = .ok acc') :
    (∀ stream ∈ streams, Accepted acc'.1 stream) ∧ acc'.1.read ≤ acc.1.read ∧
      acc'.1.write ≤ acc.1.write := by
  induction streams generalizing acc with
  | nil =>
      cases h
      exact ⟨by simp, UInt32.le_refl _, UInt32.le_refl _⟩
  | cons stream streams ih =>
      rw [List.foldlM_cons] at h
      cases hc : FtdiStream.checkStream usbCtx acc stream with
      | error cause => rw [hc] at h; cases h
      | ok acc₁ =>
          rw [hc] at h
          obtain ⟨hone, hr₁, hw₁⟩ := checkStream_accepts hc
          obtain ⟨hrest, hr₂, hw₂⟩ := @ih acc₁ h
          refine ⟨fun s hs => ?_, UInt32.le_trans hr₂ hr₁, UInt32.le_trans hw₂ hw₁⟩
          rcases List.mem_cons.mp hs with rfl | hs
          · exact hone.smaller hr₂ hw₂
          · exact hrest s hs

/-- **What the constructor accepts is in order.** -/
theorem construct_accepts {fd timeouts : ℤ}
    (h : FtdiStream.construct streams fd timeouts = .ok sizes) :
    ∀ stream ∈ streams, Accepted sizes stream := by
  unfold FtdiStream.construct at h
  cases streams with
  | nil => cases h
  | cons first rest =>
      dsimp only at h
      split at h
      · cases h
      · split at h
        · cases h
        · next hfold =>
            split_ifs at h
            cases h
            exact (checkStreams_accepts hfold).1

end Stream

end SgFtdi
