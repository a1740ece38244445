import SgFtdi.Common.Memory
import SgFtdi.Common.Prog

/-!
# Reading and writing the chip

The byte streams of `ftdi.c`: `ftdi_read_data` and `ftdi_write_data`, and
their asynchronous counterparts with the callbacks that `libusb` runs.

A chip answers a read in packets, each of which starts with two status
bytes, and the library takes these out in the read buffer itself. What a
caller did not ask for stays there for the next call.

`libusb` is the environment. Every call of it that handles events, a
synchronous transfer included, may complete transfers that were submitted
before, in any number and order, and `complete` is what it does then: it
stores what came, and runs the callback of the transfer. What it does not
define, as freeing a transfer that is still active or sending what lies
outside of a block, is thrown. Sizes are those of blocks that fit into an
`int`, and the build is the one for Linux.
-/

namespace SgFtdi

namespace Ftdi

open Prog

/-- `libusb_transfer_status`. -/
inductive TransferStatus where
  | completed
  | error
  | timedOut
  | cancelled
  | stall
  | noDevice
  | overflow
deriving DecidableEq, Repr

/-- `LIBUSB_TRANSFER_CANCELLED`, which a cancelled transfer control is
completed with. -/
def transferCancelled : ℕ := 3

/-- `LIBUSB_ERROR_INTERRUPTED`. -/
def errorInterrupted : ℤ := -10

/-- Which way the bytes of a transfer go. -/
inductive Direction where
  | input
  | output
deriving DecidableEq, Repr

/-- A `libusb_transfer`: where in its block it starts, how long it is, and
whether it is submitted and has not been completed. -/
structure Transfer where
  status : TransferStatus := .completed
  buffer : ℕ
  length : ℕ
  active : Bool := false
deriving DecidableEq, Repr

/-- A `ftdi_transfer_control`, for the block `buf` of the caller. -/
structure TransferControl where
  direction : Direction
  completed : ℕ
  buf : List UInt8
  offset : ℕ
  transfer : Option Transfer
  freed : Bool := false
deriving DecidableEq, Repr

/-- The size of the block. -/
def TransferControl.size (tc : TransferControl) : ℕ := tc.buf.length

/-- Whether the transfer of a control is active. -/
def TransferControl.active (tc : TransferControl) : Bool :=
  match tc.transfer with
  | some transfer => transfer.active
  | none => false

/-- What `libusb` found completed: the transfer of a control, its status,
and the bytes that came or the number that went. -/
inductive Completion where
  | came (control : ℕ) (status : TransferStatus) (data : List UInt8)
  | went (control : ℕ) (status : TransferStatus) (actualLength : ℕ)
deriving DecidableEq, Repr

/-- What the language or `libusb` leaves undefined. -/
inductive Undefined where
  | activeTransferFreed
  | emptyRealloc
  | outsideBlock
deriving DecidableEq, Repr

/-- **The system**, over a state `σ` of its own. A synchronous transfer and
the handling of events say what was completed meanwhile. -/
structure Env (σ : Type) where
  bulkIn : (length : ℕ) → σ → (List Completion × ℤ × List UInt8) × σ
  bulkOut : (data : List UInt8) → σ → (List Completion × ℤ × ℕ) × σ
  handleEvents : σ → (List Completion × ℤ) × σ
  submitTransfer : (control : ℕ) → Transfer → σ → ℤ × σ
  cancelTransfer : (control : ℕ) → σ → σ
  allocTransfer : σ → Bool × σ
  malloc : σ → Bool × σ
  realloc : (size : ℕ) → σ → Option (ℕ → UInt8) × σ

/-- **The part of a `ftdi_context` that moves data**, with the transfer
controls that were handed out, and what has come from the device and gone
to it, transfer by transfer. What goes is marked with its control, if it
has one. -/
structure Device (σ : Type) where
  usbDev : Bool
  maxPacketSize : ℕ
  readbuffer : List UInt8
  readbufferOffset : ℕ
  readbufferRemaining : ℕ
  readbufferChunksize : ℕ
  writebufferChunksize : BitVec 32
  errorStr : String
  controls : List TransferControl
  received : List (List UInt8)
  sent : List (Option ℕ × List UInt8)
  world : σ

/-- A function of the library. -/
abbrev Run (σ α : Type) : Type := Prog (Device σ) Undefined α

variable {σ : Type} (env : Env σ)

/-- Ask the system. -/
def world {α : Type} (f : σ → α × σ) : Run σ α :=
  ask fun s => ((f s.world).1, { s with world := (f s.world).2 })

/-- `ftdi_error_return`. -/
def errorReturn {α : Type} (code : α) (text : String) : Run σ α := do
  alter fun s => { s with errorStr := text }
  pure code

/-- Change the control behind a pointer. -/
def modifyControl (id : ℕ) (f : TransferControl → TransferControl) : Run σ Unit :=
  alter fun s => { s with controls := s.controls.modify id f }

/-! ## The status bytes -/

/-- The loop that closes the gaps between full packets. -/
def moveChunks (packetSize offset : ℕ) : ℕ → ℕ → List UInt8 → List UInt8
  | _, 0, mem => mem
  | i, turns + 1, mem =>
      moveChunks packetSize offset (i + 1) turns
        (memmove mem (offset + (packetSize - 2) * i) (offset + packetSize * i) (packetSize - 2))

/-- **Take the status bytes out** of the `actualLength` bytes at the start of
the read buffer, `offset` being behind the first two of them. -/
def skipStatus (packetSize offset actualLength : ℕ) (mem : List UInt8) : List UInt8 × ℕ :=
  let numOfChunks := actualLength / packetSize
  let chunkRemains := actualLength % packetSize
  if actualLength - 2 > packetSize - 2 then
    let moved := moveChunks packetSize offset 1 (numOfChunks - 1) mem
    if chunkRemains > 2 then
      (memmove moved (offset + (packetSize - 2) * numOfChunks) (offset + packetSize * numOfChunks)
        (chunkRemains - 2), actualLength - 2 - 2 * numOfChunks)
    else (moved, actualLength - 2 - (2 * (numOfChunks - 1) + chunkRemains))
  else (mem, actualLength - 2)

/-- Take them out of what has just come. -/
def stripBuffer (actualLength : ℕ) : Run σ ℕ :=
  ask fun s =>
    let stripped := skipStatus s.maxPacketSize (s.readbufferOffset + 2) actualLength s.readbuffer
    (stripped.2, { s with readbuffer := stripped.1, readbufferOffset := s.readbufferOffset + 2 })

/-- The next bytes of the read buffer. -/
def peek (n : ℕ) : Run σ (List UInt8) := look fun s => slice s.readbuffer s.readbufferOffset n

/-! ## Callbacks -/

/-- A transfer that was completed is submitted again. -/
def submitAgain (id : ℕ) (transfer : Transfer) : Run σ Unit := do
  let ret ← world (env.submitTransfer id transfer)
  if ret < 0 then modifyControl id fun tc => { tc with completed := 1 }
  else modifyControl id fun tc => { tc with transfer := some { transfer with active := true } }

/-- The end of the callback of a read: the transfer is submitted again unless
it was cancelled. -/
def resubmit (id : ℕ) (transfer : Transfer) : Run σ Unit :=
  if transfer.status = .cancelled then
    modifyControl id fun tc => { tc with completed := transferCancelled }
  else submitAgain env id transfer

/-- `ftdi_read_data_cb`, for a control with its block filled up to its
offset. -/
def ftdiReadDataCb (id : ℕ) (tc : TransferControl) (transfer : Transfer) (actualLength : ℕ) :
    Run σ Unit :=
  if actualLength > 2 then do
    let actualLength ← stripBuffer actualLength
    if actualLength > 0 then
      if tc.offset + actualLength ≤ tc.size then do
        let data ← peek actualLength
        modifyControl id fun tc' =>
          { tc' with buf := overwrite tc.buf tc.offset data, offset := tc.offset + actualLength }
        alter fun s => { s with readbufferOffset := 0, readbufferRemaining := 0 }
        if tc.offset + actualLength = tc.size then
          modifyControl id fun tc => { tc with completed := 1 }
        else resubmit env id transfer
      else do
        let partSize := tc.size - tc.offset
        let data ← peek partSize
        modifyControl id fun tc' =>
          { tc' with buf := overwrite tc.buf tc.offset data, offset := tc.offset + partSize }
        alter fun s => { s with
          readbufferOffset := s.readbufferOffset + partSize
          readbufferRemaining := actualLength - partSize }
        modifyControl id fun tc => { tc with completed := 1 }
    else resubmit env id transfer
  else resubmit env id transfer

/-- **The next chunk of a block**, of which `offset` bytes are sent. The size
of a chunk is read as an `int`, and the sum wraps around. -/
def nextChunk (chunksize : BitVec 32) (size offset : ℕ) : ℤ :=
  let writeSize := chunksize.toInt
  if Int.bmod (offset + writeSize) (2 ^ 32) > size then size - offset else writeSize

example : nextChunk 4096 5000 4096 = 904 ∧ nextChunk 0x80000000 5 0 = -0x80000000 ∧
    nextChunk 0x7FFFFFFF 5 3 = 0x7FFFFFFF := by decide

/-- The length of a piece of a block that `libusb` is to send. It must not be
negative, and the piece has to lie in the block. -/
def pieceLength (size offset : ℕ) (length : ℤ) : Run σ ℕ :=
  if 0 ≤ length ∧ offset + length ≤ size then pure length.toNat else raise .outsideBlock

/-- `ftdi_write_data_cb`. -/
def ftdiWriteDataCb (id : ℕ) (tc : TransferControl) (transfer : Transfer) (actualLength : ℕ) :
    Run σ Unit := do
  let offset := tc.offset + actualLength
  modifyControl id fun tc => { tc with offset := offset }
  if offset = tc.size then modifyControl id fun tc => { tc with completed := 1 }
  else do
    let chunksize ← look Device.writebufferChunksize
    let writeSize := nextChunk chunksize tc.size offset
    if transfer.status = .cancelled then
      modifyControl id fun tc => { tc with completed := transferCancelled }
    else do
      let length ← pieceLength tc.size offset writeSize
      submitAgain env id { transfer with length, buffer := offset }

/-- **`libusb` completes a transfer**: what came is in its block, which is
the read buffer, and the callback runs. It completes what is active, and
it moves no more than it was asked for. -/
def complete : Completion → Run σ Unit
  | .came id status data => do
      let control ← look fun s => s.controls[id]?
      match control with
      | some tc =>
          match tc.direction, tc.transfer with
          | .input, some transfer =>
              if transfer.active then do
                let data := data.take transfer.length
                let transfer := { transfer with status, active := false }
                alter fun s => { s with
                  readbuffer := overwrite s.readbuffer transfer.buffer data
                  received := s.received ++ [data] }
                modifyControl id fun tc => { tc with transfer := some transfer }
                ftdiReadDataCb env id tc transfer data.length
              else pure ()
          | _, _ => pure ()
      | none => pure ()
  | .went id status actualLength => do
      let control ← look fun s => s.controls[id]?
      match control with
      | some tc =>
          match tc.direction, tc.transfer with
          | .output, some transfer =>
              if transfer.active then do
                let data := (slice tc.buf transfer.buffer transfer.length).take actualLength
                let transfer := { transfer with status, active := false }
                alter fun s => { s with sent := s.sent ++ [(some id, data)] }
                modifyControl id fun tc => { tc with transfer := some transfer }
                ftdiWriteDataCb env id tc transfer data.length
              else pure ()
          | _, _ => pure ()
      | none => pure ()

/-! ## The calls of `libusb` that handle events -/

/-- `libusb_handle_events_timeout_completed`. -/
def handleEvents : Run σ ℤ := do
  let (completions, ret) ← world env.handleEvents
  each completions (complete env)
  pure ret

/-- `libusb_bulk_transfer` into the read buffer, whose answer comes with the
number of bytes. -/
def bulkTransferIn : Run σ (ℤ × ℕ) := do
  let length ← look Device.readbufferChunksize
  let (completions, ret, data) ← world (env.bulkIn length)
  each completions (complete env)
  let data := data.take length
  alter fun s => { s with
    readbuffer := overwrite s.readbuffer 0 data
    received := s.received ++ [data] }
  pure (ret, data.length)

/-- `libusb_bulk_transfer` of a piece of a block. -/
def bulkTransferOut (data : List UInt8) : Run σ (ℤ × ℕ) := do
  let (completions, ret, actualLength) ← world (env.bulkOut data)
  each completions (complete env)
  let data := data.take actualLength
  alter fun s => { s with sent := s.sent ++ [(none, data)] }
  pure (ret, data.length)

/-! ## Synchronous reads and writes -/

/-- The loop of `ftdi_read_data`, which is left with -127 when a transfer
brought bytes but none of them was data. -/
def readTurns : ℕ → List UInt8 → ℕ → Run σ (ℤ × List UInt8)
  | 0, _, _ => hang
  | turns + 1, buf, offset => do
      alter fun s => { s with readbufferRemaining := 0, readbufferOffset := 0 }
      let (ret, actualLength) ← bulkTransferIn env
      if ret < 0 then errorReturn (ret, buf) "usb bulk read failed"
      else if actualLength > 2 then do
        let actualLength ← stripBuffer actualLength
        if actualLength > 0 then
          if offset + actualLength ≤ buf.length then do
            let data ← peek actualLength
            let buf := overwrite buf offset data
            let offset := offset + actualLength
            if offset = buf.length then pure ((offset : ℤ), buf) else readTurns turns buf offset
          else do
            let partSize := buf.length - offset
            let data ← peek partSize
            alter fun s => { s with
              readbufferOffset := s.readbufferOffset + partSize
              readbufferRemaining := actualLength - partSize }
            pure (((offset + partSize : ℕ) : ℤ), overwrite buf offset data)
        else pure (-127, buf)
      else pure ((offset : ℤ), buf)

/-- `ftdi_read_data`, which gives back the block it filled. Every turn of its
loop but the last fills the block further. -/
def ftdiReadData (buf : List UInt8) : Run σ (ℤ × List UInt8) := do
  let s ← look id
  if s.usbDev = false then errorReturn (-666, buf) "USB device unavailable"
  else if s.maxPacketSize = 0 then errorReturn (-1, buf) "max_packet_size is bogus (zero)"
  else if buf.length ≤ s.readbufferRemaining then do
    let data ← peek buf.length
    alter fun s => { s with
      readbufferRemaining := s.readbufferRemaining - buf.length
      readbufferOffset := s.readbufferOffset + buf.length }
    pure ((buf.length : ℤ), overwrite buf 0 data)
  else if s.readbufferRemaining ≠ 0 then do
    let data ← peek s.readbufferRemaining
    readTurns env (buf.length + 1) (overwrite buf 0 data) s.readbufferRemaining
  else readTurns env (buf.length + 1) buf 0

/-- `ftdi_read_data_set_chunksize`. -/
def ftdiReadDataSetChunksize (chunksize : ℕ) : Run σ ℤ := do
  alter fun s => { s with readbufferOffset := 0, readbufferRemaining := 0 }
  let chunksize := if chunksize > 16384 then 16384 else chunksize
  if chunksize = 0 then raise .emptyRealloc
  else do
    let fresh ← world (env.realloc chunksize)
    match fresh with
    | none => errorReturn (-1) "out of memory for readbuffer"
    | some cells => do
        alter fun s => { s with
          readbuffer := (s.readbuffer ++ (List.range chunksize).map cells).take chunksize
          readbufferChunksize := chunksize }
        pure 0

/-- The loop of `ftdi_write_data`. -/
def writeTurns (buf : List UInt8) : ℕ → ℕ → Run σ ℤ
  | 0, _ => hang
  | turns + 1, offset =>
      if offset < buf.length then do
        let chunksize ← look Device.writebufferChunksize
        let length ← pieceLength buf.length offset (nextChunk chunksize buf.length offset)
        let (ret, actualLength) ← bulkTransferOut env (slice buf offset length)
        if ret < 0 then errorReturn (-1) "usb bulk write failed"
        else writeTurns buf turns (offset + actualLength)
      else pure (offset : ℤ)

/-- `ftdi_write_data`. -/
def ftdiWriteData (turns : ℕ) (buf : List UInt8) : Run σ ℤ := do
  let usbDev ← look Device.usbDev
  if usbDev = false then errorReturn (-666) "USB device unavailable"
  else writeTurns env buf turns 0

/-- `ftdi_write_data_set_chunksize`. -/
def ftdiWriteDataSetChunksize (chunksize : BitVec 32) : Run σ ℤ := do
  alter fun s => { s with writebufferChunksize := chunksize }
  pure 0

/-! ## Asynchronous reads and writes -/

/-- Hand out a control. -/
def handOut (tc : TransferControl) : Run σ (Option ℕ) :=
  ask fun s => (some s.controls.length, { s with controls := s.controls ++ [tc] })

/-- Submit the transfer of a new control, which is handed out if that is
done. -/
def submitNew (tc : TransferControl) (transfer : Transfer) : Run σ (Option ℕ) := do
  let id ← look fun s => s.controls.length
  let ret ← world (env.submitTransfer id transfer)
  if ret < 0 then pure none
  else handOut { tc with transfer := some { transfer with active := true } }

/-- `ftdi_read_data_submit`. -/
def ftdiReadDataSubmit (buf : List UInt8) : Run σ (Option ℕ) := do
  let s ← look id
  if s.usbDev = false then pure none
  else do
    let allocated ← world env.malloc
    if allocated = false then pure none
    else if buf.length ≤ s.readbufferRemaining then do
      let data ← peek buf.length
      alter fun s => { s with
        readbufferRemaining := s.readbufferRemaining - buf.length
        readbufferOffset := s.readbufferOffset + buf.length }
      handOut
        { direction := .input
          completed := 1
          buf := overwrite buf 0 data
          offset := buf.length
          transfer := none }
    else do
      let data ← peek s.readbufferRemaining
      let allocated ← world env.allocTransfer
      if allocated = false then pure none
      else do
        alter fun s => { s with readbufferRemaining := 0, readbufferOffset := 0 }
        submitNew env
          { direction := .input
            completed := 0
            buf := overwrite buf 0 data
            offset := s.readbufferRemaining
            transfer := none }
          { buffer := 0, length := s.readbufferChunksize }

/-- `ftdi_write_data_submit`. -/
def ftdiWriteDataSubmit (buf : List UInt8) : Run σ (Option ℕ) := do
  let s ← look id
  if s.usbDev = false then pure none
  else do
    let allocated ← world env.malloc
    if allocated = false then pure none
    else do
      let allocated ← world env.allocTransfer
      if allocated = false then pure none
      else do
        let chunk := s.writebufferChunksize.toInt
        let writeSize := if buf.length < chunk then (buf.length : ℤ) else chunk
        let length ← pieceLength buf.length 0 writeSize
        submitNew env
          { direction := .output
            completed := 0
            buf
            offset := 0
            transfer := none }
          { buffer := 0, length }

/-- `libusb_free_transfer`, which must not be called for an active transfer,
and the `free` of the control behind it. -/
def freeControl (id : ℕ) : Run σ Unit := do
  let control ← look fun s => s.controls[id]?
  match control with
  | some tc =>
      if tc.active then raise .activeTransferFreed
      else modifyControl id fun tc => { tc with freed := true }
  | none => pure ()

/-- Whether a control is completed. -/
def completed (id : ℕ) : Run σ Bool :=
  look fun s => match s.controls[id]? with
    | some tc => decide (tc.completed ≠ 0)
    | none => true

/-- Handle events until a cancelled transfer is completed or that fails. -/
def drain (id : ℕ) : ℕ → Run σ Unit
  | 0 => hang
  | turns + 1 => do
      let done ← completed id
      if done = true then pure ()
      else do
        let ret ← handleEvents env
        if ret < 0 then pure () else drain id turns

/-- Cancel a transfer, wait for that and free everything. -/
def cancelAndFree (id turns : ℕ) : Run σ Unit := do
  alter fun s => { s with world := env.cancelTransfer id s.world }
  drain env id turns
  freeControl id

/-- What `ftdi_transfer_data_done` reports of a completed control, with the
block that was filled. -/
def report (tc : TransferControl) : ℤ × List UInt8 :=
  match tc.transfer with
  | some transfer => (if transfer.status = .completed then (tc.offset : ℤ) else -1, tc.buf)
  | none => (tc.offset, tc.buf)

/-- The loop of `ftdi_transfer_data_done`. -/
def doneTurns (id drains : ℕ) : ℕ → Run σ (ℤ × List UInt8)
  | 0 => hang
  | turns + 1 => do
      let done ← completed id
      if done = true then do
        let control ← look fun s => s.controls[id]?
        match control with
        | some tc => do
            freeControl id
            pure (report tc)
        | none => pure (-1, [])
      else do
        let ret ← handleEvents env
        if ret < 0 then
          if ret = errorInterrupted then doneTurns id drains turns
          else do
            cancelAndFree env id drains
            pure (ret, [])
        else doneTurns id drains turns

/-- `ftdi_transfer_data_done`, for a control that was handed out. -/
def ftdiTransferDataDone (id turns : ℕ) : Run σ (ℤ × List UInt8) :=
  doneTurns env id turns turns

/-- `ftdi_transfer_data_cancel`. -/
def ftdiTransferDataCancel (id turns : ℕ) : Run σ Unit := do
  let done ← completed id
  if done = true then freeControl id
  else cancelAndFree env id turns

end Ftdi

end SgFtdi
