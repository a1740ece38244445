import SgFtdi.Ftdi.Calls
import SgFtdi.Ftdi.ReadStream

/-!
# The read stream over whole runs

A run is any sequence of calls, each of which returned. What the calls say
they got, put together in their order, is the data that the chip has sent,
with what calls that failed have lost in the place where they failed.
-/

namespace SgFtdi

namespace Ftdi

open Prog

variable {σ : Type} {env : Env σ} {s t u : Device σ}

/-! ## Calls that leave the read stream alone -/

/-- A change that the read stream does not see. -/
theorem Meanwhile.unseen (hs : s.Sound) (hp : t.maxPacketSize = s.maxPacketSize)
    (husb : t.usbDev = s.usbDev) (hchunk : t.readbufferChunksize = s.readbufferChunksize)
    (hrb : t.readbuffer = s.readbuffer) (hoff : t.readbufferOffset = s.readbufferOffset)
    (hrem : t.readbufferRemaining = s.readbufferRemaining) (hrec : t.received = s.received)
    (hc : t.controls = s.controls) : Meanwhile s t := by
  have hreaders : t.readers = s.readers := by
    rw [Device.readers, hc, Device.readers]
  have hpromised : t.promised = s.promised := by
    rw [Device.promised, Device.promised, hreaders, Device.held, Device.held, hrb, hoff, hrem]
  refine ⟨⟨by rw [hp]; exact hs.packet, by rw [hrb, hchunk]; exact hs.length,
    by rw [hoff, hrem, hchunk]; exact hs.inside, by rw [hc]; exact hs.controls, ?_,
    by rw [hreaders]; exact hs.single⟩, Account.of_received hp hrec hpromised.symm, husb, hchunk,
    fun hnone => ⟨hreaders.trans hnone, hrb, hoff, hrem, hrec⟩,
    fun id tc h => ⟨tc, by rw [hc]; exact h, rfl, rfl⟩⟩
  intro tc hmem transfer htr ha
  rw [hreaders] at hmem
  rw [hchunk, hoff, hrem]
  exact hs.filling tc hmem transfer htr ha

/-- A control that is handed out for a write. -/
theorem Meanwhile.handOut (hs : s.Sound) {tc : TransferControl}
    (hc : t.controls = s.controls ++ [tc])
    (hout : tc.direction = .output) (htc : tc.Sound) (hp : t.maxPacketSize = s.maxPacketSize)
    (husb : t.usbDev = s.usbDev) (hchunk : t.readbufferChunksize = s.readbufferChunksize)
    (hrb : t.readbuffer = s.readbuffer) (hoff : t.readbufferOffset = s.readbufferOffset)
    (hrem : t.readbufferRemaining = s.readbufferRemaining) (hrec : t.received = s.received) :
    Meanwhile s t := by
  have hnot : tc.reading = false := by
    simp [TransferControl.reading, hout]
  have hreaders : t.readers = s.readers := by
    rw [Device.readers, hc, List.filter_append, List.filter_cons_of_neg (by rw [hnot]; decide),
      List.filter_nil, List.append_nil, Device.readers]
  have hpromised : t.promised = s.promised := by
    rw [Device.promised, Device.promised, hreaders, Device.held, Device.held, hrb, hoff, hrem]
  refine ⟨⟨by rw [hp]; exact hs.packet, by rw [hrb, hchunk]; exact hs.length,
    by rw [hoff, hrem, hchunk]; exact hs.inside, ?_, ?_,
    by rw [hreaders]; exact hs.single⟩, Account.of_received hp hrec hpromised.symm, husb, hchunk,
    fun hnone => ⟨hreaders.trans hnone, hrb, hoff, hrem, hrec⟩, fun id x h => ⟨x, ?_, rfl, rfl⟩⟩
  · intro x hx
    rw [hc, List.mem_append, List.mem_singleton] at hx
    rcases hx with hx | rfl
    · exact hs.controls x hx
    · exact htc
  · intro x hmem transfer htr ha
    rw [hreaders] at hmem
    rw [hchunk, hoff, hrem]
    exact hs.filling x hmem transfer htr ha
  · obtain ⟨hlt, -⟩ := List.getElem?_eq_some_iff.mp h
    rw [hc, List.getElem?_append_left hlt]
    exact h

/-- A change of the read buffer while no read is under way. -/
theorem Account.change {out : List UInt8} (hnone : s.readers = [])
    (hp : t.maxPacketSize = s.maxPacketSize) (hrec : t.received = s.received)
    (hc : t.controls = s.controls) (hout : s.held = out ++ t.held) : Account s out t := by
  have hreaders : t.readers = [] := by
    rw [Device.readers, hc]
    exact hnone
  refine Account.of_received hp hrec ?_
  rw [Device.promised, Device.promised, hnone, hreaders]
  exact hout

/-- **A read is under way** from now on: the control `id` was handed out, and
what is promised goes to it first. -/
structure HandedOut (s : Device σ) (id : ℕ) (t : Device σ) : Prop where
  sound : t.Sound
  account : Account s [] t
  control : ∃ tc, t.controls[id]? = some tc ∧ tc.direction = .input ∧ tc.freed = false

/-- What a submission leaves: a read is under way, or what was held may be
lost. -/
def Submitted (s : Device σ) : Option ℕ → Device σ → Prop
  | some id, t => HandedOut s id t
  | none, t => t.Sound ∧ t.readers = [] ∧ ∃ lost, Account s lost t

/-- What a control takes along of the read stream. -/
def TransferControl.delivered (tc : TransferControl) : List UInt8 :=
  if tc.direction = .input then tc.taken else []

end Ftdi

end SgFtdi
