import SgFtdi.Stream.Moves.Quiet
import SgFtdi.Common.Chunks

/-!
# Stream — the work around a transfer

Most of what a function of the engine does to a transfer leaves it where
it stands: buffers are filled, lengths and counters written, bytes handed
over, an offer refused by libusb. `Work` is any number of such steps and
`Work.calm` its frame. What is left is the few steps that start, end or
switch off a transfer, and `submit` is the first function they are read
off: `Submitted` has a case for every way it returns.
-/

namespace SgFtdi

namespace Stream

open Prog Relation

variable {σ : Type} (env : Env σ)

/-! ## Stopping, and saying why -/

/-- The state after `FtdiStreamStatic::cancel`. -/
def Machine.stopped (m : Machine σ) : Machine σ :=
  Machine.notified { m with shouldRun := false, shouldCancel := true }

/-- The state after a message was queued. -/
def Machine.reported (m : Machine σ) (message : Message) : Machine σ :=
  Machine.note { m with errorSpsc := m.errorSpsc ++ [message] } (.pushed message)

/-- The state after `FtdiStreamStatic::error`. -/
def Machine.errored (m : Machine σ) (message : Message) : Machine σ :=
  if (env.pushError message m.world).1 then
    (m.stopped.withWorld (env.pushError message m.world).2).reported message
  else m.stopped.withWorld (env.pushError message m.world).2

@[simp] theorem stopped_shouldRun (m : Machine σ) : m.stopped.shouldRun = false := rfl

@[simp] theorem stopped_entryAt (m : Machine σ) (i : ℕ) : m.stopped.entryAt i = m.entryAt i := rfl

@[simp] theorem stopped_trace (m : Machine σ) : m.stopped.trace = m.trace := rfl

@[simp] theorem stopped_world (m : Machine σ) : m.stopped.world = m.world := rfl

/-- **A stop with a reason** is a stop, the world asked, and the message
queued where there is room. -/
theorem errored_eq (m : Machine σ) (message : Message) :
    ∃ (errors : List Message) (seen : List Seen),
      m.errored env message = { m.stopped with
        errorSpsc := m.errorSpsc ++ errors
        world := (env.pushError message m.world).2
        trace := m.trace ++ seen } ∧
      (∀ o ∈ seen, o = ⟨false, .pushed message⟩) ∧
      ((env.pushError message m.world).1 = true → ⟨false, .pushed message⟩ ∈ seen) := by
  unfold Machine.errored
  split
  · exact ⟨[message], [⟨false, .pushed message⟩], rfl, by simp, by simp⟩
  · next h => exact ⟨[], [], by simp [Machine.stopped, Machine.notified, Machine.withWorld],
      by simp, fun h' => absurd h' h⟩

@[simp] theorem errored_shouldRun (m : Machine σ) (message : Message) :
    (m.errored env message).shouldRun = false := by
  obtain ⟨_, _, h, -⟩ := errored_eq env m message
  rw [h]
  rfl

@[simp] theorem errored_entryAt (m : Machine σ) (message : Message) (i : ℕ) :
    (m.errored env message).entryAt i = m.entryAt i := by
  obtain ⟨_, _, h, -⟩ := errored_eq env m message
  rw [h]
  rfl

/-- A message leaves nothing but itself on the record. -/
theorem errored_trace (m : Machine σ) (message : Message) :
    Grows (· = ⟨false, .pushed message⟩) m.trace (m.errored env message).trace := by
  obtain ⟨_, seen, h, hs, -⟩ := errored_eq env m message
  rw [h]
  exact ⟨seen, rfl, hs⟩

theorem errored_world (m : Machine σ) (message : Message) :
    WorldStep env m.world (m.errored env message).world := by
  obtain ⟨_, _, h, -⟩ := errored_eq env m message
  rw [h]
  exact .pushError message

variable {env}

section Ends

variable {Q : Unit → Machine σ → Prop} {E : Exn → Machine σ → Prop} {m : Machine σ}

@[simp] theorem ends_cancel : Ends cancel Q E m ↔ Q () m.stopped := Iff.rfl

@[simp] theorem ends_observe {o : Obs} : Ends (observe o) Q E m ↔ Q () (m.note o) := Iff.rfl

@[simp] theorem ends_askWorld {α : Type} {f : σ → α × σ} {Q : α → Machine σ → Prop} :
    Ends (askWorld f) Q E m ↔ Q (f m.world).1 (m.withWorld (f m.world).2) := Iff.rfl

theorem error_eq (message : Message) :
    error env message m = (.ret (), m.errored env message) := by
  show (do
    let accepted ← askWorld (env.pushError message)
    if accepted then do
      alter fun m => { m with errorSpsc := m.errorSpsc ++ [message] }
      observe (.pushed message)
    else pure () : Run σ Unit) m.stopped = _
  show (if (env.pushError message m.world).1 then _ else _ : Run σ Unit)
    (m.stopped.withWorld (env.pushError message m.world).2) = _
  unfold Machine.errored
  split <;> rfl

@[simp] theorem ends_error {message : Message} :
    Ends (error env message) Q E m ↔ Q () (m.errored env message) := by
  unfold Ends
  rw [error_eq]

variable {H : Machine σ → Prop}

@[simp] theorem runs_observe {o : Obs} : Runs (observe o) Q E H m ↔ Q () (m.note o) := Iff.rfl

@[simp] theorem runs_askWorld {α : Type} {f : σ → α × σ} {Q : α → Machine σ → Prop} :
    Runs (askWorld f) Q E H m ↔ Q (f m.world).1 (m.withWorld (f m.world).2) := Iff.rfl

@[simp] theorem runs_error {message : Message} :
    Runs (error env message) Q E H m ↔ Q () (m.errored env message) := by
  unfold Runs
  rw [error_eq]

end Ends

/-! ## Work -/

/-- Two states of one entry that differ in its buffer, its length and its
counters at most. -/
structure Alike (e e' : FtdiStreamStaticState) : Prop where
  streamId : e'.streamId = e.streamId
  isReading : e'.isReading = e.isReading
  isModemStatus : e'.isModemStatus = e.isModemStatus
  eventfd : e'.eventfd = e.eventfd
  bufferSize : e'.bufferSize = e.bufferSize
  enabled : e'.enabled = e.enabled
  inFlight : e'.transfer.inFlight = e.transfer.inFlight
  cancelling : e'.transfer.cancelling = e.transfer.cancelling
  onWire : e'.transfer.onWire = e.transfer.onWire
  hasBuffer : e'.transfer.buffer.isSome = e.transfer.buffer.isSome

theorem Alike.refl {e : FtdiStreamStaticState} : Alike e e :=
  ⟨rfl, rfl, rfl, rfl, rfl, rfl, rfl, rfl, rfl, rfl⟩

theorem Alike.trans {e e₁ e₂ : FtdiStreamStaticState} (h : Alike e e₁) (h' : Alike e₁ e₂) :
    Alike e e₂ :=
  ⟨h'.streamId.trans h.streamId, h'.isReading.trans h.isReading,
    h'.isModemStatus.trans h.isModemStatus, h'.eventfd.trans h.eventfd,
    h'.bufferSize.trans h.bufferSize, h'.enabled.trans h.enabled, h'.inFlight.trans h.inFlight,
    h'.cancelling.trans h.cancelling, h'.onWire.trans h.onWire, h'.hasBuffer.trans h.hasBuffer⟩

/-- Two states of one entry that differ in its counters at most. -/
structure Twin (e e' : FtdiStreamStaticState) : Prop extends Alike e e' where
  transfer : e'.transfer = e.transfer

theorem Twin.refl {e : FtdiStreamStaticState} : Twin e e := ⟨.refl, rfl⟩

theorem Twin.trans {e e₁ e₂ : FtdiStreamStaticState} (h : Twin e e₁) (h' : Twin e₁ e₂) :
    Twin e e₂ := ⟨h.toAlike.trans h'.toAlike, h'.transfer.trans h.transfer⟩

namespace FtdiStreamStaticState

variable (e : FtdiStreamStaticState)

theorem alike_setLength (n : ℤ) : Alike e (e.setLength n) :=
  ⟨rfl, rfl, rfl, rfl, rfl, rfl, rfl, rfl, rfl, rfl⟩

theorem twin_countBytes (n : ℕ) : Twin e (e.countBytes n) :=
  ⟨⟨rfl, rfl, rfl, rfl, rfl, rfl, rfl, rfl, rfl, rfl⟩, rfl⟩

theorem twin_clearCounters : Twin e e.clearCounters :=
  ⟨⟨rfl, rfl, rfl, rfl, rfl, rfl, rfl, rfl, rfl, rfl⟩, rfl⟩

theorem alike_store (bytes : List UInt8) : Alike e (e.store bytes) :=
  ⟨rfl, rfl, rfl, rfl, rfl, rfl, rfl, rfl, rfl, by
    simp [FtdiStreamStaticState.store]⟩

end FtdiStreamStaticState

variable (env)

/-- **A chore**: user code at work, the counters of an entry written or
handed to the user, the clock read. -/
inductive Chore (m : Machine σ) : Machine σ → Prop
  | user {m' : Machine σ} : UserStep env m m' → Chore m m'
  | wrote {i : ℕ} {f : FtdiStreamStaticState → FtdiStreamStaticState} :
      (∀ e, Twin e (f e)) → Chore m (m.modifyEntry i f)
  | counted (s : ℕ) (isReading : Bool) (t : ℕ) (callbacks bytes : UInt64) :
      Chore m (m.told env (.counters s isReading t callbacks bytes))
  | ticked (now : UInt64) : Chore m (Machine.note { m with tsNow := now } (.ticked now))

/-- A transfer has been offered to libusb, which took it or did not. -/
def Machine.offered (m : Machine σ) (i : ℕ) (e : FtdiStreamStaticState) (taken : Bool) :
    Machine σ :=
  (m.withWorld (env.submitTransfer i m.world).2).note
    (.submitted i e.transfer.inFlight e.transfer.length taken)

/-- libusb has taken a transfer. -/
def Machine.launched (m : Machine σ) (i : ℕ) (e : FtdiStreamStaticState) : Machine σ :=
  (m.offered env i e true).modifyEntry i .takeOff

/-- **A step of the work on entry `i`**: a chore, a write to it, bytes
handed to the user, the user asked to fill its buffer, or an offer of it
refused. -/
inductive WorkStep (i : ℕ) (m : Machine σ) : Machine σ → Prop
  | chore {m' : Machine σ} : Chore env m m' → WorkStep i m m'
  | wrote {f : FtdiStreamStaticState → FtdiStreamStaticState} :
      (∀ e, Alike e (f e)) → WorkStep i m (m.modifyEntry i f)
  | handed (s : ℕ) (bytes : List UInt8) : WorkStep i m (m.told env (.readBuffer s bytes))
  | filled {e : FtdiStreamStaticState} : m.entryAt i = some e →
      WorkStep i m (m.note (.filled i e.transfer.inFlight))
  | refused {e : FtdiStreamStaticState} : m.entryAt i = some e →
      WorkStep i m (m.offered env i e false)

/-- Work on entry `i`. -/
def Work (i : ℕ) : Machine σ → Machine σ → Prop := ReflTransGen (WorkStep env i)

variable {env} {m m' m₁ m₂ : Machine σ} {i : ℕ}

theorem Work.refl : Work env i m m := ReflTransGen.refl

theorem Work.trans (h : Work env i m m₁) (h' : Work env i m₁ m₂) : Work env i m m₂ :=
  ReflTransGen.trans h h'

theorem Work.single (h : WorkStep env i m m') : Work env i m m' := ReflTransGen.single h

theorem Work.wrote {f : FtdiStreamStaticState → FtdiStreamStaticState}
    (h : ∀ e, Alike e (f e)) : Work env i m (m.modifyEntry i f) := Work.single (.wrote h)

theorem Work.quiet (h : Quiet env m m') : Work env i m m' :=
  ReflTransGen.mono (fun _ _ hs => .chore (.user hs)) _ _ h

/-- What work on a transfer leaves on the record: nothing that settles
anything. -/
def Obs.minor (i : ℕ) (inFlight : Bool) : Obs → Prop
  | .filled j b => j = i ∧ b = inFlight
  | .submitted j b _ taken => j = i ∧ b = inFlight ∧ taken = false
  | .readBuffer _ _ => True
  | .asked _ _ => True
  | .counted _ _ _ _ _ => True
  | .ticked _ => True
  | _ => False

variable (env) in
/-- **The frame of work**: the entries stay alike, `list_mutex` guards
the lists, and what else may move is named. -/
structure Calm (m m' : Machine σ) : Prop where
  eq : m' = { m with
    streamstates := m'.streamstates
    tsNow := m'.tsNow
    tsActivity := m'.tsActivity
    listEnable := m'.listEnable
    listDisable := m'.listDisable
    listReset := m'.listReset
    noticeCount := m'.noticeCount
    world := m'.world
    trace := m'.trace }
  entries : ∀ j, Option.Rel Alike (m.entryAt j) (m'.entryAt j)
  filed : Filed m m'
  made : m'.streamstates.isSome = m.streamstates.isSome
  world : ReflTransGen (WorldMove env) m.world m'.world

theorem Calm.refl : Calm env m m :=
  ⟨rfl, fun j => by cases m.entryAt j <;> constructor; exact .refl, .refl, rfl, .refl⟩

theorem Calm.trans (h : Calm env m m₁) (h' : Calm env m₁ m₂) : Calm env m m₂ := by
  refine ⟨?_, fun j => ?_, h.filed.trans (by rw [h.eq]) h'.filed, h'.made.trans h.made,
    h.world.trans h'.world⟩
  · rw [h'.eq, h.eq]
  · have h₁ := h.entries j
    have h₂ := h'.entries j
    generalize m.entryAt j = x at h₁ ⊢
    generalize m₁.entryAt j = y at h₁ h₂
    generalize m₂.entryAt j = z at h₂ ⊢
    cases h₁ with
    | none => exact h₂
    | some ha =>
        cases h₂ with
        | some hb => exact .some (ha.trans hb)

theorem Calm.of_entries (h : m'.streamstates = m.streamstates) (j : ℕ) :
    Option.Rel Alike (m.entryAt j) (m'.entryAt j) := by
  have : m'.entryAt j = m.entryAt j := by
    unfold FtdiStreamState.entryAt FtdiStreamState.entries
    rw [h]
  rw [this]
  cases m.entryAt j <;> constructor
  exact .refl

theorem UserStep.calm (h : UserStep env m m') : Calm env m m' := by
  exact ⟨by rw [h.frame.eq], Calm.of_entries h.frame.streamstates, h.frame.filed,
    by rw [h.frame.streamstates], ReflTransGen.mono (fun _ _ => .aside) _ _ h.worlds⟩

theorem modify_calm {f : FtdiStreamStaticState → FtdiStreamStaticState}
    (hf : ∀ e, Alike e (f e)) : Calm env m (m.modifyEntry i f) := by
  refine ⟨rfl, fun j => ?_, .of_eq rfl rfl rfl, modifyEntry_made m i f, .refl⟩
  rw [entryAt_modifyEntry]
  split
  · cases m.entryAt j <;> constructor
    exact hf _
  · cases m.entryAt j <;> constructor
    exact .refl

theorem Chore.calm (h : Chore env m m') : Calm env m m' := by
  cases h with
  | user hu => exact hu.calm
  | wrote hf => exact modify_calm fun e => (hf e).toAlike
  | counted s isReading t callbacks bytes =>
      exact ⟨rfl, Calm.of_entries rfl, .of_unlisted rfl (.one trivial) le_rfl, rfl,
        .single (.counters s isReading t callbacks bytes)⟩
  | ticked now =>
      exact ⟨rfl, Calm.of_entries rfl, .of_unlisted rfl (.one trivial) le_rfl, rfl, .refl⟩

theorem WorkStep.calm (h : WorkStep env i m m') : Calm env m m' := by
  cases h with
  | chore hc => exact hc.calm
  | wrote hf => exact modify_calm hf
  | handed s bytes =>
      exact ⟨rfl, Calm.of_entries rfl, .of_unlisted rfl (.one trivial) le_rfl, rfl,
        .single (.readBuffer s bytes)⟩
  | filled he => exact ⟨rfl, Calm.of_entries rfl, .note trivial, rfl, .refl⟩
  | refused he =>
      exact ⟨rfl, Calm.of_entries rfl, .of_unlisted rfl (.one trivial) le_rfl, rfl,
        .single (.aside (.submitTransfer i))⟩

/-- **The frame rule of work.** -/
theorem Work.calm (h : Work env i m m') : Calm env m m' := by
  induction h with
  | refl => exact .refl
  | tail _ hs ih => exact ih.trans hs.calm

theorem Quiet.calm (h : Quiet env m m') : Calm env m m' := (Work.quiet (i := 0) h).calm

namespace Calm

variable (h : Calm env m m')
include h

theorem shouldRun : m'.shouldRun = m.shouldRun := by rw [h.eq]

theorem shouldCancel : m'.shouldCancel = m.shouldCancel := by rw [h.eq]

theorem streams : m'.streams = m.streams := by rw [h.eq]

theorem readPacketsize : m'.readPacketsize = m.readPacketsize := by rw [h.eq]

theorem epollSet : m'.epollSet = m.epollSet := by rw [h.eq]

/-- An entry is still there. -/
theorem entry {j : ℕ} {e : FtdiStreamStaticState} (he : m.entryAt j = some e) :
    ∃ e', m'.entryAt j = some e' ∧ Alike e e' := by
  have hj := h.entries j
  rw [he] at hj
  generalize m'.entryAt j = x at hj ⊢
  cases hj with
  | some ha => exact ⟨_, rfl, ha⟩

/-- And was there before. -/
theorem entry_back {j : ℕ} {e' : FtdiStreamStaticState} (he : m'.entryAt j = some e') :
    ∃ e, m.entryAt j = some e ∧ Alike e e' := by
  have hj := h.entries j
  rw [he] at hj
  generalize m.entryAt j = x at hj ⊢
  cases hj with
  | some ha => exact ⟨_, rfl, ha⟩

end Calm

theorem UserStep.trace (h : UserStep env m m') : Grows (·.what.isAsked = true) m.trace m'.trace :=
  h.frame.trace

theorem Obs.minor_of_isAsked {o : Obs} {b : Bool} (h : o.isAsked = true) : o.minor i b := by
  cases o <;> simp_all [Obs.isAsked, Obs.minor]

theorem Chore.trace (h : Chore env m m') (i : ℕ) (b : Bool) :
    Grows (·.what.minor i b) m.trace m'.trace := by
  cases h with
  | user hu => exact hu.trace.mono fun _ => Obs.minor_of_isAsked
  | wrote _ => exact .refl
  | counted s isReading t callbacks bytes => exact .one trivial
  | ticked now => exact .one trivial

/-- **The record of work**: every fill and every refused offer is of the
entry worked on, and notes whether that was in flight. -/
theorem Work.trace (h : Work env i m m') {e : FtdiStreamStaticState} (he : m.entryAt i = some e) :
    Grows (·.what.minor i e.transfer.inFlight) m.trace m'.trace := by
  induction h with
  | refl => exact .refl
  | @tail m₁ m₂ h₁ hs ih =>
      refine ih.trans ?_
      obtain ⟨e₁, he₁, ha⟩ := (Work.calm h₁).entry he
      cases hs with
      | chore hc => exact hc.trace _ _
      | wrote _ => exact .refl
      | handed s bytes => exact .one trivial
      | filled h₂ =>
          rw [he₁, Option.some_inj] at h₂
          subst h₂
          exact .one ⟨rfl, ha.inFlight⟩
      | refused h₂ =>
          rw [he₁, Option.some_inj] at h₂
          subst h₂
          exact .one ⟨rfl, ha.inFlight, rfl⟩

/-! ## Submitting -/

variable (env)

/-- **The user has filled a buffer** with `n` bytes. -/
inductive Fill (i : ℕ) (e : FtdiStreamStaticState) (m : Machine σ) : ℤ → Machine σ → Prop
  | mk {n : ℤ} {bytes : List UInt8} {m₁ : Machine σ} :
      (env.callback false e.streamId .writeFillBuffer (e.transfer.buffer.getD []) e.bufferSize
        m.world).1.result = .ok (n, bytes) →
      Quiet env ((m.note (.filled i e.transfer.inFlight)).withWorld
        (env.callback false e.streamId .writeFillBuffer (e.transfer.buffer.getD []) e.bufferSize
          m.world).2) m₁ →
      Fill i e m n (m₁.modifyEntry i (.store bytes))

/-- The length a transfer is to be submitted with: the buffer's for
reading, what the user filled for writing. -/
inductive Prepared (i : ℕ) (e : FtdiStreamStaticState) (m : Machine σ) : ℤ → Machine σ → Prop
  | reading : e.isReading = true → Prepared i e m e.bufferSize m
  | writing {n : ℤ} {m₁ : Machine σ} : e.isReading = false → Fill env i e m n m₁ →
      Prepared i e m n m₁

/-- **How `submit` returns**: there was nothing to submit, the user had
nothing to send, or libusb took the transfer. -/
inductive Submitted (i : ℕ) (m : Machine σ) : Machine σ → Prop
  | kept : (m.shouldRun = true → ∀ e, m.entryAt i = some e → e.enabled = false) → Submitted i m m
  | idle {e : FtdiStreamStaticState} {m₁ : Machine σ} : m.entryAt i = some e → e.enabled = true →
      m.shouldRun = true → Prepared env i e m 0 m₁ →
      Submitted i m ((m₁.modifyEntry i (.setLength 0)).modifyEntry i (.setEnabled false))
  | launched {e e₂ : FtdiStreamStaticState} {n : ℤ} {m₁ : Machine σ} : m.entryAt i = some e →
      e.enabled = true → m.shouldRun = true → Prepared env i e m n m₁ → 0 < n →
      (m₁.modifyEntry i (.setLength n)).entryAt i = some e₂ →
      Submitted i m ((m₁.modifyEntry i (.setLength n)).launched env i e₂)

variable {env} {e : FtdiStreamStaticState} {n : ℤ}

theorem libusbSubmitTransfer_runs (he : m.entryAt i = some e) :
    Runs (libusbSubmitTransfer env i)
      (fun rc m' => (rc = 0 ∧ m' = m.launched env i e) ∨ (rc ≠ 0 ∧ m' = m.offered env i e false))
      (fun _ _ => False) (fun _ => False) m := by
  unfold libusbSubmitTransfer
  simp only [runs_bind, runs_look, id_look, runs_askWorld, he, runs_observe]
  by_cases hrc : (env.submitTransfer i m.world).1 = 0
  · simp only [hrc, decide_true, if_true]
    exact .inl ⟨rfl, rfl⟩
  · simp only [hrc, decide_false, if_false]
    exact .inr ⟨hrc, rfl⟩

theorem libusbSubmitTransfer_ends (he : m.entryAt i = some e) :
    Ends (libusbSubmitTransfer env i)
      (fun rc m' => (rc = 0 ∧ m' = m.launched env i e) ∨ (rc ≠ 0 ∧ m' = m.offered env i e false))
      (fun _ _ => False) m := (libusbSubmitTransfer_runs he).ends

variable {e₀ : FtdiStreamStaticState}

/-- A fill that throws is work like any other. The entry may have changed
a little since the function that fills read it. -/
theorem fillBuffer_ends (he : m.entryAt i = some e₀)
    (hf : e.transfer.inFlight = e₀.transfer.inFlight) :
    Ends (fillBuffer env i e) (fun n m' => Fill env i e m n m')
      (fun _ m' => Work env i m m') m := by
  unfold fillBuffer
  rw [ends_bind, ends_observe, ends_bind]
  refine (userCall_ends _ _).mono ?_ ?_
  · rintro ⟨n, bytes⟩ m₁ ⟨hq, hr⟩
    exact Fill.mk hr hq
  · rintro _ m₁ ⟨hq, -⟩
    rw [hf] at hq
    exact (Work.single (.filled he)).trans (Work.quiet
      ((Quiet.world (.callback _ _ _ _ _ (by decide))).trans hq))

theorem Fill.work (h : Fill env i e m n m') (he : m.entryAt i = some e₀)
    (hf : e.transfer.inFlight = e₀.transfer.inFlight) : Work env i m m' := by
  cases h with
  | mk _ hq =>
      rw [hf] at hq
      refine (Work.single (.filled he)).trans (Work.trans (Work.quiet
        ((Quiet.world (.callback _ _ _ _ _ (by decide))).trans hq)) ?_)
      exact Work.wrote fun e => e.alike_store _

theorem Prepared.work (h : Prepared env i e m n m') (he : m.entryAt i = some e) :
    Work env i m m' := by
  cases h with
  | reading _ => exact .refl
  | writing _ hf => exact hf.work he rfl

/-- A read transfer is offered the whole of its buffer. -/
theorem Prepared.of_reading (h : Prepared env i e m n m₁) (hr : e.isReading = true) :
    n = e.bufferSize := by
  cases h with
  | reading _ => rfl
  | writing hw _ => simp [hr] at hw

/-- Preparing a transfer and giving it its length. -/
theorem Prepared.sized (h : Prepared env i e m n m₁) (he : m.entryAt i = some e) :
    Work env i m (m₁.modifyEntry i (.setLength n)) :=
  (h.work he).trans (Work.wrote fun e => e.alike_setLength n)

theorem submitLength_ends (he : m.entryAt i = some e) :
    Ends (submitLength env i e) (fun n m' => Prepared env i e m n m')
      (fun _ m' => Work env i m m') m := by
  unfold submitLength
  rw [ends_ite]
  refine ⟨fun hr => Prepared.reading hr, fun hr => ?_⟩
  exact (fillBuffer_ends he rfl).mono (fun _ _ hf => .writing (by simpa using hr) hf)
    fun _ _ hw => hw

/-- **What `submit` does.** Where it throws, the transfer stands as it
did. -/
theorem submit_ends (i : ℕ) (m : Machine σ) :
    Ends (submit env i) (fun _ m' => Submitted env i m m') (fun _ m' => Work env i m m') m := by
  unfold submit
  rw [ends_bind, ends_look, id_look]
  cases he : m.entryAt i with
  | none => exact Submitted.kept fun _ e h => by simp [he] at h
  | some e =>
      simp only [ends_ite]
      refine ⟨fun _ => Work.refl, fun _ => ⟨fun hs => ?_, fun hs => ⟨fun hd => ?_, fun hd => ?_⟩⟩⟩
      · exact Submitted.kept fun h => by simp [hs] at h
      · refine Submitted.kept fun _ e' he' => ?_
        rw [he, Option.some_inj] at he'
        exact he' ▸ hd
      replace hs : m.shouldRun = true := by simpa using hs
      replace hd : e.enabled = true := by simpa using hd
      rw [ends_bind]
      refine (submitLength_ends he).mono ?_ fun _ _ hw => hw
      intro n m₁ hp
      have hw := hp.sized he
      obtain ⟨e₂, he₂, -⟩ := hw.calm.entry he
      simp only [ends_bind, ends_alter, ends_ite]
      refine ⟨fun _ => hw, fun hn => ⟨fun hz => ?_, fun hz => ?_⟩⟩
      · subst hz
        exact .idle he hd hs hp
      · refine (libusbSubmitTransfer_ends he₂).mono ?_ fun _ _ hf => hf.elim
        rintro rc m₂ (⟨hrc, rfl⟩ | ⟨hrc, rfl⟩)
        · exact ⟨fun h => absurd hrc h, fun _ => .launched he hd hs hp (by omega) he₂⟩
        · exact ⟨fun _ => hw.trans (Work.single (.refused he₂)), fun h => absurd hrc h⟩

end Stream

end SgFtdi
