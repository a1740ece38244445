import SgFtdi.Stream.Model.Requests

/-!
# Stream — transfers and their callbacks

The functions of `FtdiStreamStatic.cpp` that start, cancel and complete a
transfer: `FtdiStreamStaticState::submit` and `cancel`, the two completion
callbacks, and `cancel` and `error`, which stop the engine.
-/

namespace SgFtdi

namespace Stream

open Prog

variable {σ : Type} (env : Env σ)

/-- `FtdiStreamStatic::cancel`. -/
def cancel : Run σ Unit := do
  alter fun m => { m with shouldRun := false }
  alter fun m => { m with shouldCancel := true }
  issueNotice

/-- `error_spsc.push_back`, whose own exceptions are ignored. -/
def pushBack (message : Message) : Run σ Unit := do
  let accepted ← askWorld (env.pushError message)
  if accepted then do
    alter fun m => { m with errorSpsc := m.errorSpsc ++ [message] }
    observe (.pushed message)
  else pure ()

/-- `FtdiStreamStatic::error`. -/
def error (message : Message) : Run σ Unit := do
  cancel
  pushBack env message

/-- `libusb_submit_transfer`: the transfer is in flight where it returns
zero, and stays idle otherwise. -/
def libusbSubmitTransfer (i : ℕ) : Run σ ℤ := do
  let m ← look id
  let rc ← askWorld (env.submitTransfer i)
  match m.entryAt i with
  | none => pure rc
  | some e => do
      observe (.submitted i e.transfer.inFlight e.transfer.length (rc = 0))
      if rc = 0 then alter (·.modifyEntry i .takeOff) else pure ()
      pure rc

/-- `libusb_cancel_transfer`, whose result nobody reads. -/
def libusbCancelTransfer (i : ℕ) : Run σ Unit := do
  observe (.cancelled i)
  alter (·.modifyEntry i .askCancel)

/-- `WRITE_FILL_BUFFER` for an entry: what the user returns, the buffer
being written. -/
def fillBuffer (i : ℕ) (e : FtdiStreamStaticState) : Run σ ℤ := do
  observe (.filled i e.transfer.inFlight)
  let (n, bytes) ← userCall env (env.callback false e.streamId .writeFillBuffer
    (e.transfer.buffer.getD []) e.bufferSize)
  alter (·.modifyEntry i (.store bytes))
  pure n

/-- The length `submit` gives a transfer: the buffer's size for reading,
what the user fills for writing. -/
def submitLength (i : ℕ) (e : FtdiStreamStaticState) : Run σ ℤ :=
  if e.isReading then pure e.bufferSize else fillBuffer env i e

/-- `FtdiStreamStaticState::submit`. -/
def submit (i : ℕ) : Run σ Unit := do
  let m ← look id
  match m.entryAt i with
  | none => pure ()
  | some e =>
      if e.transfer.buffer = none then raise (.unableToSubmitNull e.streamId e.transferId)
      else if m.shouldRun = false then pure ()
      else if e.enabled = false then pure ()
      else do
        let length ← submitLength env i e
        alter (·.modifyEntry i (.setLength length))
        if length < 0 then raise (.entryFillReported e.streamId e.transferId length)
        else if length = 0 then alter (·.modifyEntry i (.setEnabled false))
        else do
          let rc ← libusbSubmitTransfer env i
          if rc ≠ 0 then raise (.submitTransferError e.streamId e.transferId) else pure ()

/-- `FtdiStreamStaticState::cancel`. The transfer is never null: an entry
without one is not constructed. -/
def cancelEntry (i : ℕ) : Run σ Unit := do
  let m ← look id
  match m.entryAt i with
  | none => pure ()
  | some e => if e.enabled then libusbCancelTransfer i else pure ()

/-- `std::exchange (enabled, true)`, and `submit` where the entry was
disabled before. -/
def arm (i : ℕ) : Run σ Unit := do
  let m ← look id
  match m.entryAt i with
  | none => pure ()
  | some e => do
      alter (·.modifyEntry i (.setEnabled true))
      if e.enabled = false then submit env i else pure ()

/-- `READ_BUFFER` for a stream. -/
def handOver (streamId : ℕ) (bytes : List UInt8) : Run σ Unit := do
  let _ ← tell env (.readBuffer streamId bytes)

/-- The bytes of one message that are passed to the user, nothing where
the message is too short: all of it with modem status, all but its first
two bytes without. -/
def messageBytes (isModemStatus : Bool) (message : List UInt8) : Option (List UInt8) :=
  if isModemStatus then
    if 2 ≤ message.length then some message else none
  else
    if 2 < message.length then some (message.drop 2) else none

/-- One turn of the loop of `read_callback`. -/
def readMessage (i : ℕ) (e : FtdiStreamStaticState) (message : List UInt8) : Run σ Unit :=
  match messageBytes e.isModemStatus message with
  | none => pure ()
  | some bytes => do
      alter (·.modifyEntry i (.countBytes (message.length - 2)))
      handOver env e.streamId bytes

/-- The `while` loop of `read_callback` over the bytes that remain. A
turn that takes no byte would go on for ever, which is what running out
of turns stands for: there are as many as bytes to begin with. -/
def readLoop (i : ℕ) (e : FtdiStreamStaticState) : ℕ → List UInt8 → Run σ Unit
  | _, [] => pure ()
  | 0, _ :: _ => hang
  | turns + 1, data => do
      let m ← look id
      let packetLen := min data.length m.readPacketsize.toNat
      readMessage env i e (data.take packetLen)
      readLoop i e turns (data.drop packetLen)

/-- The bytes a completed read transfer brought. -/
def FtdiStreamStaticState.brought (e : FtdiStreamStaticState) : List UInt8 :=
  (e.transfer.buffer.getD []).take e.transfer.actualLength

/-- What `read_callback` does with the bytes of a completed transfer: one
that holds more than the modem status is cut into messages. -/
def deliver (i : ℕ) (e : FtdiStreamStaticState) : Run σ Unit :=
  if 2 < e.transfer.actualLength then do
    alter fun m => { m with tsActivity := m.tsNow }
    readLoop env i e e.brought.length e.brought
  else if e.isModemStatus ∧ e.transfer.actualLength = 2 then handOver env e.streamId e.brought
  else pure ()

/-- The body of the `try` of `read_callback`. -/
def readTransfer (i : ℕ) (e : FtdiStreamStaticState) : Run σ Unit := do
  if e.transfer.status = .completed then do
    deliver env i e
    let rc ← libusbSubmitTransfer env i
    if rc ≠ 0 then raise .submitTransferFailed else pure ()
  else raise (.unexpectedTransferState e.transfer.status)

/-- `FtdiStreamStatic::read_callback`. -/
def readCallback (i : ℕ) : Run σ Unit := do
  alter (·.modifyEntry i .countCallback)
  let m ← look id
  match m.entryAt i with
  | none => pure ()
  | some e =>
      if e.enabled = false then pure ()
      else if e.transfer.status = .cancelled ∨ m.shouldRun = false then do
        alter (·.modifyEntry i (.setEnabled false))
        cancel
      else
        rescue (readTransfer env i e) fun cause => do
          alter (·.modifyEntry i (.setEnabled false))
          error env (.readCallback e.streamId e.transferId cause)

/-- `WRITE_CONFIRM_TRANSFER` for a completion that moved bytes. -/
def confirmTransfer (i : ℕ) (e : FtdiStreamStaticState) : Run σ Unit :=
  if 0 < e.transfer.actualLength then do
    alter (·.modifyEntry i (.countBytes e.transfer.actualLength))
    let (result, _) ← tell env (.confirmTransfer e.streamId e.transfer.actualLength)
    alter (·.modifyEntry i (.setLength result))
    if result ≠ 0 then raise (.confirmReported result) else pure ()
  else pure ()

/-- The body of the `try` of `write_callback`. -/
def writeTransfer (i : ℕ) (e : FtdiStreamStaticState) : Run σ Unit := do
  confirmTransfer env i e
  let length ← fillBuffer env i e
  alter (·.modifyEntry i (.setLength length))
  if length < 0 then raise (.fillReported length)
  else if length = 0 then alter (·.modifyEntry i (.setEnabled false))
  else do
    let rc ← libusbSubmitTransfer env i
    if rc ≠ 0 then raise .submitTransferFailed else pure ()

/-- `FtdiStreamStatic::write_callback`. -/
def writeCallback (i : ℕ) : Run σ Unit := do
  alter (·.modifyEntry i .countCallback)
  let m ← look id
  match m.entryAt i with
  | none => pure ()
  | some e =>
      if e.enabled = false then pure ()
      else if e.transfer.status = .cancelled ∨ m.shouldRun = false then do
        alter (·.modifyEntry i (.setEnabled false))
        alter (·.modifyEntry i (.setLength 0))
        cancel
      else
        rescue (writeTransfer env i e) fun cause => do
          error env (.writeCallback e.streamId e.transferId cause)
          alter (·.modifyEntry i (.setEnabled false))

/-- The callback a transfer was filled with. -/
def callback (i : ℕ) (e : FtdiStreamStaticState) : Run σ Unit :=
  if e.isReading then readCallback env i else writeCallback env i

/-- Where every transfer stands: enabled, and in flight. -/
def FtdiStreamState.flags (m : FtdiStreamState) : List (Bool × Bool) :=
  m.entries.map fun e => (e.enabled, e.transfer.inFlight)

/-- libusb reports a completion: a transfer in flight becomes idle and its
callback is called. A transfer that is not in flight gets none. -/
def complete (c : Completion) : Run σ Unit := do
  let m ← look id
  match m.entryAt c.transfer with
  | none => pure ()
  | some e =>
      if e.transfer.inFlight = false then pure ()
      else do
        alter (·.modifyEntry c.transfer (.land c))
        observe (.completed c.transfer e.streamId e.isReading c.status (e.moved c)
          (e.actual c))
        callback env c.transfer e
        alter fun m => m.note (.boundary m.flags)

end Stream

end SgFtdi
