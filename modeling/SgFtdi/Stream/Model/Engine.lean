import SgFtdi.Stream.Model.Transfers

/-!
# Stream — the engine

`process_init`, `process_step` and `process_cleanup` of
`FtdiStreamStatic.cpp`, and the handlers `process_step` calls. What
arrives from outside is an input: the events `epoll_wait` reports, and
with each of them what its handler will find, which is libusb's
completions, the result of a `read`, and what other threads do in the
meantime.
-/

namespace SgFtdi

namespace Stream

open Prog

variable {σ : Type} (env : Env σ)

/-- What happens while `libusb_handle_events_timeout` runs. -/
inductive UsbAction where
  | completed (c : Completion)
  | pollfdAdded (fd : ℤ)
  | pollfdRemoved (fd : ℤ)
  | elsewhere (a : ThreadAction)
deriving DecidableEq, Repr

/-- An event of a batch. `meanwhile` is what other threads do before it is
handled; `usb` and `usbResult` are read where the descriptor is
`usb_epoll_fd`, `fault` where a `read` fails for another reason than an
empty counter, and `between` where another thread runs after the notice
is read and before the engine takes `list_mutex`. -/
structure EpollEvent where
  sock : ℤ
  meanwhile : List ThreadAction
  usb : List UsbAction
  usbResult : ℤ
  fault : Option Errno
  between : List ThreadAction
deriving DecidableEq, Repr

/-- How `epoll_wait` comes back. No event is its timeout. -/
inductive StepInput where
  | failed (errno : Errno)
  | ready (events : List EpollEvent)
deriving DecidableEq, Repr

/-- `LIBUSB_ERROR_INTERRUPTED`. -/
def libusbErrorInterrupted : ℤ := -10

/-- `num_epoll_events`. -/
def numEpollEvents : ℕ := 512

/-- `FtdiStreamStatic::add_to_epoll`, which records a failure and goes
on. -/
def addToEpoll (sock : ℤ) : Run σ Unit := do
  let m ← look id
  let failure ← askWorld (env.addToEpoll sock m.epollFd)
  match failure with
  | none => alter fun m => { m with epollSet := m.epollSet.insert sock }
  | some cause => error env (.addToEpoll cause)

/-- `FtdiStreamStatic::add_to_usb_epoll`. -/
def addToUsbEpoll (sock : ℤ) : Run σ Unit := do
  let m ← look id
  let failure ← askWorld (env.addToEpoll sock m.usbEpollFd)
  match failure with
  | none => alter fun m => { m with usbEpollSet := m.usbEpollSet.insert sock }
  | some cause => error env (.addToUsbEpoll cause)

/-- `FtdiStreamStatic::remove_from_usb_epoll`. -/
def removeFromUsbEpoll (sock : ℤ) : Run σ Unit := do
  let m ← look id
  let failure ← askWorld (env.removeFromEpoll sock m.usbEpollFd)
  match failure with
  | none => alter fun m => { m with usbEpollSet := m.usbEpollSet.erase sock }
  | some cause => error env (.removeFromUsbEpoll cause)

/-- One thing that happens inside `libusb_handle_events_timeout`. The
notifiers are called where they are installed. -/
def usbAction : UsbAction → Run σ Unit
  | .completed c => complete env c
  | .pollfdAdded fd => do
      let m ← look id
      if m.notifiers then addToUsbEpoll env fd else pure ()
  | .pollfdRemoved fd => do
      let m ← look id
      if m.notifiers then removeFromUsbEpoll env fd else pure ()
  | .elsewhere a => threadAction env a

/-- `libusb_handle_events_timeout`, and the check of its result. -/
def handleUsb (usb : List UsbAction) (result : ℤ) : Run σ Unit := do
  each usb (usbAction env)
  if result ≠ 0 ∧ result ≠ libusbErrorInterrupted then raise .handlingLibusbEvents else pure ()

/-! ## Resetting streams -/

/-- A control transfer: libusb's events are handled while it waits. -/
def controlTransfer (f : σ → (ℤ × List Completion) × σ) : Run σ ℤ := do
  let (rc, completions) ← askWorld f
  each completions (complete env)
  pure rc

/-- The `func` of `process_reset_stream_entry`. -/
def resetEntry (streamId : ℕ) (stream : FtdiStreamEntry) : Run σ Unit :=
  if stream.hasResetCallback then do
    let r ← askWorld (env.resetCallback streamId)
    each r.completions (complete env)
    comeBack env r.reply
  else do
    let rc ← controlTransfer env (env.ftdiSetBitmode streamId)
    if rc < 0 then raise .cantResetMode
    else do
      let rc ← controlTransfer env (env.ftdiTcioflush streamId)
      if rc < 0 then raise .cantPurge else pure ()

/-- `func` on the stream of a number, as `streams.at` finds it. -/
def resetAt (streamId : ℕ) : Run σ Unit := do
  let m ← look id
  match m.streams[streamId]? with
  | none => raise .outOfRange
  | some stream => resetEntry env streamId stream

/-- `FtdiStreamStatic::process_reset_stream_entry`. -/
def processResetStreamEntry (resetAll : Bool) : Run σ Unit := do
  let m ← look id
  if resetAll then each (List.range m.streams.length) (resetAt env)
  else do
    each (m.listReset.walk (env.shuffle m.world)) (resetAt env)
    alter fun m => { m with listReset := .empty }

/-! ## The handlers -/

/-- A `read` of the timer or of the notice eventfd that failed: how the
engine takes it. -/
def readFailed (errno : Errno) (message : Errno → Message) : Run σ Unit :=
  match errno with
  | .EWOULDBLOCK => pure ()
  | .EINTR => pure ()
  | .other code => error env (message (.other code))

/-- The counter callback of a stream, where it is set. -/
def callCounter (e : FtdiStreamStaticState) (stream : FtdiStreamEntry) : Run σ Unit :=
  if stream.hasCounterCallback then
    tell env (.counters e.streamId e.isReading e.transferId e.counterCallbacks e.counterBytes)
  else pure ()

/-- The counters of an entry are reported and cleared. -/
def reportCounters (i : ℕ) : Run σ Unit := do
  let m ← look id
  match m.entryAt i with
  | none => pure ()
  | some e =>
      match m.streams[e.streamId]? with
      | none => raise .outOfRange
      | some stream => do
          callCounter env e stream
          alter (·.modifyEntry i .clearCounters)

/-- The end of `event_timer`: the clock is read and the timeout checked. -/
def checkTimeout : Run σ Unit := do
  let m ← look id
  if m.timeout = 0 then pure ()
  else do
    let now ← askWorld env.monotime
    alter fun m => { m with tsNow := now }
    observe (.ticked now)
    if m.tsActivity + m.timeout < now then error env .timeoutReached else pure ()

/-- `FtdiStreamStatic::event_timer`. -/
def eventTimer (fault : Option Errno) : Run σ Unit :=
  match fault with
  | some errno => readFailed env errno .timerFd
  | none => do
      let m ← look id
      each m.inOrder (reportCounters env)
      checkTimeout env

/-- The loop of `event_notice` over `list_enable`, for one descriptor. -/
def enableRange (fd : ℤ) : Run σ Unit := do
  let m ← look id
  each (m.equalRange fd) (arm env)

/-- The loop of `event_notice` over `list_disable`, for one descriptor. -/
def disableRange (fd : ℤ) : Run σ Unit := do
  let m ← look id
  each (m.equalRange fd) cancelEntry

/-- The part of `event_notice` that runs under `list_mutex`. -/
def drain : Run σ Unit := do
  let m ← look id
  observe (.drained m.listEnable.elems m.listDisable.elems m.listReset.elems)
  processResetStreamEntry env false
  let m ← look id
  each (m.listEnable.walk (env.shuffle m.world)) (enableRange env)
  alter fun m => { m with listEnable := .empty }
  let m ← look id
  each (m.listDisable.walk (env.shuffle m.world)) disableRange
  alter fun m => { m with listDisable := .empty }

/-- The lock guard of `event_notice` around what it protects. -/
def lockedDrain : Run σ Unit := do
  alter fun m => { m with listMutex := true }
  leaving (drain env) fun m => { m with listMutex := false }

/-- The `read` of the notice eventfd, which clears its counter. -/
def readNotice (fault : Option Errno) : Run σ (Option Errno) := do
  let m ← look id
  match fault with
  | some errno => pure (some errno)
  | none =>
      if m.noticeCount = 0 then pure (some .EWOULDBLOCK)
      else do
        alter fun m => { m with noticeCount := 0 }
        pure none

/-- `event_notice` after the eventfd is read. -/
def takeNotice : Run σ Unit := do
  let m ← look id
  if m.shouldRun = false then pure ()
  else if m.shouldCancel then alter fun m => { m with shouldRun := false }
  else lockedDrain env

/-- `FtdiStreamStatic::event_notice`. -/
def eventNotice (fault : Option Errno) (between : List ThreadAction) : Run σ Unit := do
  let failure ← readNotice fault
  match failure with
  | some errno => readFailed env errno .eventFd
  | none => do
      each between (threadAction env)
      takeNotice env

/-- A readiness event of any other descriptor. -/
def eventReady (sock : ℤ) : Run σ Unit := enableRange env sock

/-- What `process_step` does with one event. -/
def handleEvent (ev : EpollEvent) : Run σ Unit := do
  each ev.meanwhile (threadAction env)
  let m ← look id
  if ev.sock = m.usbEpollFd then handleUsb env ev.usb ev.usbResult
  else if ev.sock = m.noticeEventFd then eventNotice env ev.fault ev.between
  else if ev.sock = m.timerFd then eventTimer env ev.fault
  else eventReady env ev.sock

/-! ## The steps of a session -/

/-- What `epoll_wait` returns: registered descriptors only, and no more
than fit. -/
def epollWait (m : Machine σ) (events : List EpollEvent) : List EpollEvent :=
  (events.filter fun ev => ev.sock ∈ m.epollSet).take numEpollEvents

/-- Ask for the cancellation of an entry that is still enabled, and say
whether it was. -/
def cancelEnabled (i : ℕ) : Run σ Bool := do
  let m ← look id
  match m.entryAt i with
  | none => pure false
  | some e =>
      if e.enabled then do
        cancelEntry i
        pure true
      else pure false

/-- Say how the loop is left, for the record. -/
def leave (why : Exit) : Run σ Unit := alter fun m => { m with lastExit := why }

/-- The end of `process_step`, after the batch: whether to go on. -/
def endBatch : Run σ Bool := do
  let m ← look id
  if m.shouldRun then pure true
  else do
    rescue (processResetStreamEntry env true) fun _ => pure ()
    let m ← look id
    let someEnabled ← anyOf m.inOrder cancelEnabled
    alter fun m => { m with cancelCounter := m.cancelCounter - 1 }
    let m ← look id
    if someEnabled = false then do
      leave .allDisabled
      pure false
    else if m.cancelCounter < 0 then do
      leave .counterUsedUp
      pure false
    else pure true

/-- The body of the `try` of `process_step`. -/
def processBatch (events : List EpollEvent) : Run σ Bool := do
  each events (handleEvent env)
  endBatch env

/-- `FtdiStreamStatic::process_step`. -/
def processStep (input : StepInput) : Run σ Bool := do
  leave .running
  let m ← look id
  if m.streamstates.isNone then pure false
  else match input with
    | .failed errno => do
        observe (.waitFailed errno)
        cancel
        leave .epollFailed
        pure false
    | .ready events =>
        if (epollWait m events).isEmpty then pure true
        else rescue (processBatch env (epollWait m events)) fun cause => do
          cancel
          leave .exception
          observe (.threw cause)
          raise cause

/-- The closing of `timer_fd`, where it is open. -/
def closeTimer : Run σ Unit := do
  let m ← look id
  if 0 ≤ m.timerFd then do
    observe (.closed m.timerFd)
    alter fun m => { m with timerFd := -1 }
  else pure ()

/-- The closing of `usb_epoll_fd`, which forgets what was registered in
it. -/
def closeUsbEpoll : Run σ Unit := do
  let m ← look id
  if 0 ≤ m.usbEpollFd then do
    observe (.closed m.usbEpollFd)
    alter fun m => { m with usbEpollFd := -1, usbEpollSet := [] }
  else pure ()

/-- The closing of `epoll_fd`. -/
def closeEpoll : Run σ Unit := do
  let m ← look id
  if 0 ≤ m.epollFd then do
    observe (.closed m.epollFd)
    alter fun m => { m with epollFd := -1, epollSet := [] }
  else pure ()

/-- `streamstates.reset ()`: every entry is destroyed, and its transfer
and buffer are freed with it. -/
def resetStreamstates : Run σ Unit := do
  let m ← look id
  match m.streamstates with
  | none => pure ()
  | some entries => do
      observe (.destroyed m.lastExit (entries.map (·.transfer.inFlight)))
      alter fun m => { m with streamstates := none }

/-- `FtdiStreamStatic::process_cleanup`. -/
def processCleanup : Run σ Unit := do
  cancel
  alter fun m => { m with notifiers := false }
  closeTimer
  closeUsbEpoll
  closeEpoll
  resetStreamstates

/-- `int` from an unsigned 64-bit product. -/
def narrow (n : UInt64) : ℤ := n.toUInt32.toInt32.toInt

/-- What `init` sets before the buffer is allocated. -/
def FtdiStreamStaticState.fill (m : FtdiStreamState) (stream : FtdiStreamEntry)
    (e : FtdiStreamStaticState) : FtdiStreamStaticState :=
  if e.isReading then
    { e with
      enabled := stream.readStartEnabled
      bufferSize := narrow (m.readPacketsize.toUInt64 * stream.readPacketsPerTransfer) }
  else
    { e with
      enabled := true
      bufferSize := narrow (m.writePacketsize.toUInt64 * stream.writePacketsPerTransfer) }

/-- `libusb_fill_bulk_transfer` on a new transfer, given whether `malloc`
found room: the length is the buffer's for reading and zero for
writing. -/
def FtdiStreamStaticState.allocate (found : Bool) (e : FtdiStreamStaticState) :
    FtdiStreamStaticState :=
  { e with transfer := { e.transfer with
      buffer := if found then some [] else none
      length := if e.isReading then e.bufferSize else 0 } }

/-- `init` on the descriptor of an entry: a write descriptor is watched. -/
def watch (e : FtdiStreamStaticState) : Run σ Unit :=
  if e.isReading then pure () else addToEpoll env e.eventfd

/-- `FtdiStreamStaticState::init`. -/
def initEntry (i : ℕ) (stream : FtdiStreamEntry) : Run σ Unit := do
  let m ← look id
  alter (·.modifyEntry i (.fill m.toFtdiStreamState stream))
  let m ← look id
  match m.entryAt i with
  | none => pure ()
  | some e => do
      let found ← askWorld (env.malloc e.bufferSize)
      alter (·.modifyEntry i (.allocate found))
      if found = false then
        raise (.unableToAllocateBuffer e.streamId e.transferId e.bufferSize)
      else do
        watch env e
        submit env i

/-- A new entry, before its `init`. -/
def newEntry (streamId transferId : ℕ) (isReading isModemStatus : Bool) (eventfd : ℤ) :
    FtdiStreamStaticState where
  streamId := streamId
  transferId := transferId
  isReading := isReading
  isModemStatus := isModemStatus
  eventfd := eventfd
  transfer := ⟨none, 0, .completed, 0, false, false, []⟩
  bufferSize := 0
  enabled := false
  counterCallbacks := 0
  counterBytes := 0

/-- The callback type that asks for a direction's descriptor. -/
def getFdType (isReading : Bool) : CallbackType := if isReading then .readGetFd else .writeGetFd

/-- The `create_streamstate` of `process_init`. -/
def createStreamstate (streamId : ℕ) (stream : FtdiStreamEntry) (isReading : Bool)
    (transferId : ℕ) : Run σ Unit := do
  let (eventfd, _) ← userCall env (env.callback isReading streamId (getFdType isReading) [] 0)
  let allocated ← askWorld env.allocTransfer
  if allocated = false then raise (.unableToAllocateTransfer streamId transferId)
  else do
    let m ← look id
    alter fun m => { m with streamstates := m.streamstates.map (· ++
      [newEntry streamId transferId isReading stream.readIncludeModemStatus eventfd]) }
    initEntry env m.entries.length stream

/-- The turn of the loop of `process_init` for one stream. -/
def createStream (streamId : ℕ) : Run σ Unit := do
  let m ← look id
  match m.streams[streamId]? with
  | none => pure ()
  | some stream => do
      each (List.range stream.readTransfers) (createStreamstate env streamId stream true)
      each ((List.range stream.writeTransfers).map (stream.readTransfers + ·))
        (createStreamstate env streamId stream false)

/-- The fields `process_init` sets before it opens anything. Where no epoll
is open nothing is registered. -/
def Machine.begun (m : Machine σ) (now : UInt64) : Machine σ :=
  Machine.note { m with
    streamstates := some []
    epollFd := -1
    usbEpollFd := -1
    timerFd := -1
    epollSet := []
    usbEpollSet := []
    cancelCounter := 3
    tsNow := now
    tsActivity := now
    listEnable := .empty
    listDisable := .empty
    listReset := .empty
    shouldRun := true
    shouldCancel := false
    lastExit := .initFailed } (.began now)

/-- The two epolls of `process_init`. Nothing is registered in a new
one. -/
def openEpolls : Run σ Unit := do
  let epollFd ← askWorld env.epollCreate
  alter fun m => { m with epollFd := epollFd, epollSet := [] }
  if epollFd < 0 then raise .unableToInitEpoll
  else do
    observe (.opened epollFd)
    let usbEpollFd ← askWorld env.epollCreate
    alter fun m => { m with usbEpollFd := usbEpollFd, usbEpollSet := [] }
    if usbEpollFd < 0 then raise .unableToInitEpoll
    else do
      observe (.opened usbEpollFd)
      addToEpoll env usbEpollFd

/-- The timer of `process_init`. -/
def openTimer : Run σ Unit := do
  let timerFd ← askWorld env.timerfdCreate
  alter fun m => { m with timerFd := timerFd }
  if timerFd < 0 then raise .unableToInitTimer
  else do
    observe (.opened timerFd)
    let rc ← askWorld env.timerfdSettime
    if rc ≠ 0 then raise .unableToStartTimer
    else addToEpoll env timerFd

/-- The descriptors libusb polls on. -/
def registerPollfds : Run σ Unit := do
  let pollfds ← askWorld env.getPollfds
  match pollfds with
  | none => raise .unableToGetPollfds
  | some fds => each fds (addToUsbEpoll env)

/-- `process_init` up to the reset of the streams: the descriptors it
opens and registers. -/
def openDescriptors : Run σ Unit := do
  openEpolls env
  let m ← look id
  addToEpoll env m.noticeEventFd
  openTimer env
  registerPollfds env
  alter fun m => { m with notifiers := true }

/-- The body of the `try` of `process_init`. -/
def initBody : Run σ Unit := do
  let now ← askWorld env.monotime
  alter (·.begun now)
  openDescriptors env
  processResetStreamEntry env true
  let m ← look id
  each (List.range m.streams.length) (createStream env)

/-- `FtdiStreamStatic::process_init`. -/
def processInit : Run σ Unit := do
  let m ← look id
  if m.streamstates.isSome then raise .stateNotDestroyed
  else rescue (initBody env) fun cause => do
    processCleanup
    error env (.processInit cause)
    raise cause

end Stream

end SgFtdi
