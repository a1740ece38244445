import SgFtdi.Common.Containers
import SgFtdi.Common.Prog
import SgFtdi.Stream.Model.Types

/-!
# Stream — the state, and what answers the engine

`FtdiStreamState` and `FtdiStreamStaticState` are the two classes of
`internal.h`. A `Machine` puts the first together with what surrounds it:
the counter of the notice eventfd, the descriptors registered in the two
epolls, the locks, the world and the record of what was done. An `Env`
says how the world answers: the user's callbacks, libusb, the kernel and
the libraries whose code is not in the repository. The world is any type,
so an `Env` and a world are any way those parties may behave.

`streamstates` is the multimap in the order its entries were inserted,
the key of an entry being its `eventfd`; an entry's place in it is the
pointer libusb holds.
-/

namespace SgFtdi

namespace Stream

/-- What the engine uses of a `libusb_transfer`, and the two things libusb
knows of it: whether it is in flight, and whether its cancellation was
asked for. `onWire` is the buffer as it was submitted. -/
structure Transfer where
  buffer : Option (List UInt8)
  length : ℤ
  status : TransferStatus
  actualLength : ℕ
  inFlight : Bool
  cancelling : Bool
  onWire : List UInt8
deriving DecidableEq, Repr

/-- `FtdiStreamStaticState`. -/
structure FtdiStreamStaticState where
  streamId : ℕ
  transferId : ℕ
  isReading : Bool
  isModemStatus : Bool
  eventfd : ℤ
  transfer : Transfer
  bufferSize : ℤ
  enabled : Bool
  counterCallbacks : UInt64
  counterBytes : UInt64
deriving DecidableEq, Repr

/-- How the engine last left its loop, for the record: nothing reads it. -/
inductive Exit where
  | initFailed
  | threadFailed
  | running
  | epollFailed
  | exception
  | counterUsedUp
  | allDisabled
deriving DecidableEq, Repr

/-- What a user asks of the engine. -/
inductive Request where
  | enable (streamId : ℕ)
  | disable (streamId : ℕ)
  | reset (streamId : ℕ)
deriving DecidableEq, Repr

/-- What an accepted request puts on the lists. -/
inductive Queued where
  | enable (fd : ℤ)
  | disable (fd : ℤ)
  | reset (streamId : ℕ)
deriving DecidableEq, Repr

/-- What can be seen of the engine: its dealings with libusb and the user,
in the order they happen. -/
inductive Obs where
  | filled (i : ℕ) (inFlight : Bool)
  | confirmed (streamId : ℕ) (len : ℤ)
  | readBuffer (streamId : ℕ) (bytes : List UInt8)
  | submitted (i : ℕ) (inFlight : Bool) (length : ℤ) (accepted : Bool)
  | cancelled (i : ℕ)
  | completed (i streamId : ℕ) (isReading : Bool) (status : TransferStatus) (bytes : List UInt8)
      (actualLength : ℕ)
  | boundary (entries : List (Bool × Bool))
  | asked (streamId : ℕ) (what : Queued)
  | drained (enable disable : List ℤ) (reset : List ℕ)
  | counted (streamId : ℕ) (isReading : Bool) (transferId : ℕ) (callbacks bytes : UInt64)
  | pushed (message : Message)
  | stopping
  | waitFailed (errno : Errno)
  | threw (cause : Exn)
  | began (now : UInt64)
  | ticked (now : UInt64)
  | opened (fd : ℤ)
  | closed (fd : ℤ)
  | destroyed (why : Exit) (inFlight : List Bool)
deriving DecidableEq, Repr

/-- An observation, and `should_run` when it was made. -/
structure Seen where
  running : Bool
  what : Obs
deriving DecidableEq, Repr

/-- `FtdiStreamState`. `num_streams` is the length of `streams`. -/
structure FtdiStreamState where
  streams : List FtdiStreamEntry
  noticeEventFd : ℤ
  streamstates : Option (List FtdiStreamStaticState)
  epollFd : ℤ
  usbEpollFd : ℤ
  timerFd : ℤ
  readPacketsize : UInt32
  writePacketsize : UInt32
  timeout : UInt64
  cancelCounter : ℤ
  isStartedThr : Bool
  isStartedPoll : Bool
  shouldRun : Bool
  shouldCancel : Bool
  tsNow : UInt64
  tsActivity : UInt64
  listEnable : Unordered ℤ
  listDisable : Unordered ℤ
  listReset : Unordered ℕ
  errorSpsc : List Message

/-- The engine's state and its surroundings. `epollSet` and `usbEpollSet`
are the descriptors registered in `epoll_fd` and `usb_epoll_fd`,
`notifiers` whether this object's pollfd notifiers are installed, `mutex`
and `listMutex` whether `_mutex` is held across the engine's steps and
`list_mutex` by the engine, `threadAlive` whether the engine's thread
runs. -/
structure Machine (σ : Type) extends FtdiStreamState where
  noticeCount : ℕ
  epollSet : List ℤ
  usbEpollSet : List ℤ
  notifiers : Bool
  mutex : Bool
  listMutex : Bool
  threadAlive : Bool
  lastExit : Exit
  world : σ
  trace : List Seen

/-- How a piece of user code comes back, and the requests it made. -/
structure Reply (α : Type) where
  result : Except Exn α
  requests : List Request

/-- A completion libusb is about to report: the bytes the device sent into
a read transfer, or how many it took of a write transfer. -/
structure Completion where
  transfer : ℕ
  status : TransferStatus
  data : List UInt8
  sent : ℕ
deriving DecidableEq, Repr

/-- How a reset comes back. Its control transfers handle libusb's events
while they wait, so completions may be delivered inside it. -/
structure ResetReply where
  completions : List Completion
  reply : Reply Unit

/-- **How the world answers.** One answer for each call that leaves the
repository. `callback` is both callbacks of a stream, by direction, and
returns its `int` with the bytes it wrote into the buffer; `user` is the
user at work on data of their own. -/
structure Env (σ : Type) where
  callback : (isReading : Bool) → (streamId : ℕ) → CallbackType → List UInt8 → (len : ℤ) →
    σ → Reply (ℤ × List UInt8) × σ
  counterCallback : (streamId : ℕ) → (isReading : Bool) → (transferId : ℕ) →
    (callbacks bytes : UInt64) → σ → Reply Unit × σ
  resetCallback : (streamId : ℕ) → σ → ResetReply × σ
  ftdiSetBitmode : (streamId : ℕ) → σ → (ℤ × List Completion) × σ
  ftdiTcioflush : (streamId : ℕ) → σ → (ℤ × List Completion) × σ
  submitTransfer : (i : ℕ) → σ → ℤ × σ
  allocTransfer : σ → Bool × σ
  malloc : (bytes : ℤ) → σ → Bool × σ
  epollCreate : σ → ℤ × σ
  timerfdCreate : σ → ℤ × σ
  timerfdSettime : σ → ℤ × σ
  getPollfds : σ → Option (List ℤ) × σ
  addToEpoll : (sock epollFd : ℤ) → σ → Option Exn × σ
  removeFromEpoll : (sock epollFd : ℤ) → σ → Option Exn × σ
  monotime : σ → UInt64 × σ
  pushError : Message → σ → Bool × σ
  threadStart : σ → Bool × σ
  shuffle : σ → Shuffle
  user : ℕ → σ → σ

/-- A program of the engine. -/
abbrev Run (σ α : Type) : Type := Prog (Machine σ) Exn α

variable {σ : Type}

/-- The entries of `streamstates`, none where it is null. -/
def FtdiStreamState.entries (m : FtdiStreamState) : List FtdiStreamStaticState :=
  m.streamstates.getD []

/-- The entry a pointer points to. -/
def FtdiStreamState.entryAt (m : FtdiStreamState) (i : ℕ) : Option FtdiStreamStaticState :=
  m.entries[i]?

/-- Write to an entry. -/
def Machine.modifyEntry (m : Machine σ) (i : ℕ)
    (f : FtdiStreamStaticState → FtdiStreamStaticState) : Machine σ :=
  { m with streamstates := m.streamstates.map (·.modify i f) }

/-- The places of the entries under a descriptor, as `equal_range` gives
them. -/
def FtdiStreamState.equalRange (m : FtdiStreamState) (fd : ℤ) : List ℕ :=
  Multimap.equalRange FtdiStreamStaticState.eventfd fd m.entries

/-- The places of all entries, as a walk over `streamstates` meets them. -/
def FtdiStreamState.inOrder (m : FtdiStreamState) : List ℕ :=
  Multimap.inOrder FtdiStreamStaticState.eventfd m.entries

/-- Note down what was just done. -/
def Machine.note (m : Machine σ) (o : Obs) : Machine σ :=
  { m with trace := m.trace ++ [⟨m.shouldRun, o⟩] }

/-- The world after an answer. -/
def Machine.withWorld (m : Machine σ) (w : σ) : Machine σ := { m with world := w }

/-- Ask the world. -/
def askWorld {α : Type} (f : σ → α × σ) : Run σ α :=
  Prog.ask fun m => ((f m.world).1, m.withWorld (f m.world).2)

/-- Note down what is being done. -/
def observe (o : Obs) : Run σ Unit := Prog.alter (·.note o)

namespace FtdiStreamStaticState

/-- Write `enabled`. -/
def setEnabled (b : Bool) (e : FtdiStreamStaticState) : FtdiStreamStaticState :=
  { e with enabled := b }

/-- Write `transfer->length`. -/
def setLength (n : ℤ) (e : FtdiStreamStaticState) : FtdiStreamStaticState :=
  { e with transfer := { e.transfer with length := n } }

/-- `++counter_callbacks`. -/
def countCallback (e : FtdiStreamStaticState) : FtdiStreamStaticState :=
  { e with counterCallbacks := e.counterCallbacks + 1 }

/-- `counter_bytes += n`. -/
def countBytes (n : ℕ) (e : FtdiStreamStaticState) : FtdiStreamStaticState :=
  { e with counterBytes := e.counterBytes + UInt64.ofNat n }

/-- Clear both counters. -/
def clearCounters (e : FtdiStreamStaticState) : FtdiStreamStaticState :=
  { e with counterCallbacks := 0, counterBytes := 0 }

/-- The user has written to the front of the buffer. -/
def store (bytes : List UInt8) (e : FtdiStreamStaticState) : FtdiStreamStaticState :=
  { e with transfer := { e.transfer with
      buffer := e.transfer.buffer.map fun old => bytes ++ old.drop bytes.length } }

/-- libusb has taken the transfer. -/
def takeOff (e : FtdiStreamStaticState) : FtdiStreamStaticState :=
  { e with transfer := { e.transfer with
      inFlight := true
      cancelling := false
      onWire := (e.transfer.buffer.getD []).take e.transfer.length.toNat } }

/-- libusb was asked to cancel the transfer, which is only a request. -/
def askCancel (e : FtdiStreamStaticState) : FtdiStreamStaticState :=
  { e with transfer := { e.transfer with cancelling := e.transfer.inFlight } }

/-- The bytes a completion moves: what the device sent into a read
transfer, up to its length, or what it took from the front of a write
transfer. -/
def moved (e : FtdiStreamStaticState) (c : Completion) : List UInt8 :=
  if e.isReading then c.data.take e.transfer.length.toNat
  else e.transfer.onWire.take c.sent

/-- `transfer->actual_length` of a completion, which is at most the length
submitted. -/
def actual (e : FtdiStreamStaticState) (c : Completion) : ℕ :=
  if e.isReading then (c.data.take e.transfer.length.toNat).length
  else min c.sent e.transfer.length.toNat

/-- libusb hands a transfer back: it is idle from here on. -/
def land (c : Completion) (e : FtdiStreamStaticState) : FtdiStreamStaticState :=
  { e with transfer := { e.transfer with
      status := c.status
      actualLength := e.actual c
      buffer := if e.isReading then
          e.transfer.buffer.map fun old => e.moved c ++ old.drop (e.moved c).length
        else e.transfer.buffer
      inFlight := false
      cancelling := false } }

end FtdiStreamStaticState

end Stream

end SgFtdi
