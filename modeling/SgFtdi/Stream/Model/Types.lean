import Mathlib.Data.Int.Notation
import Mathlib.Data.Nat.Notation

/-!
# Stream — the data the engine works on

Statuses, callback types, exceptions and messages of the stream engine,
and the configuration a stream is built from. An exception or a message
is kept as what it is about; `what` and `text` give the words the user
reads.
-/

namespace SgFtdi

namespace Stream

/-- `libusb_transfer_status`. -/
inductive TransferStatus where
  | completed
  | error
  | timedOut
  | cancelled
  | stall
  | noDevice
  | overflow
  | other (code : ℤ)
deriving DecidableEq, Repr

/-- `libusb_transfer_status_name`. -/
def libusbTransferStatusName : TransferStatus → String
  | .completed => "TRANSFER_COMPLETED"
  | .error => "TRANSFER_ERROR"
  | .timedOut => "TRANSFER_TIMED_OUT"
  | .cancelled => "TRANSFER_CANCELLED"
  | .stall => "TRANSFER_STALL"
  | .noDevice => "TRANSFER_NO_DEVICE"
  | .overflow => "TRANSFER_OVERFLOW"
  | .other _ => "UNKNOWN_STATUS"

/-- `FtdiStreamEntry::CallbackType`. -/
inductive CallbackType where
  | writeGetFd
  | readGetFd
  | writeFillBuffer
  | writeConfirmTransfer
  | readBuffer
deriving DecidableEq, Repr

/-- The `errno` values the engine tells apart. `EAGAIN` is `EWOULDBLOCK`. -/
inductive Errno where
  | EWOULDBLOCK
  | EINTR
  | other (code : ℕ)
deriving DecidableEq, Repr

/-- What is thrown: the library's own exceptions, those the user's code
throws, and those of the code the library calls. -/
inductive Exn where
  | submitTransferFailed
  | unexpectedTransferState (status : TransferStatus)
  | confirmReported (result : ℤ)
  | fillReported (result : ℤ)
  | unableToAllocateTransfer (streamId transferId : ℕ)
  | unableToAllocateBuffer (streamId transferId : ℕ) (bytes : ℤ)
  | unableToSubmitNull (streamId transferId : ℕ)
  | entryFillReported (streamId transferId : ℕ) (result : ℤ)
  | submitTransferError (streamId transferId : ℕ)
  | unableToCancelNull (streamId transferId : ℕ)
  | handlingLibusbEvents
  | cantResetMode
  | cantPurge
  | stateNotDestroyed
  | stateNotInitialized
  | unableToInitEpoll
  | unableToInitTimer
  | unableToStartTimer
  | unableToGetPollfds
  | unableToInitEventfd
  | undefinedStreamId
  | noReadCallback (streamId : ℕ)
  | readCallbackError (streamId : ℕ)
  | noStreams
  | differentContexts
  | readPacketsZero
  | readCallbackNotSet
  | writePacketsZero
  | oneWriteTransfer
  | writeCallbackNotSet
  | noTransfers
  | unableToHandleTimeouts
  | threadStarted
  | pollStarted
  | outOfRange
  | thrown (text : String)
  | unknown
deriving DecidableEq, Repr

/-- What `e.what ()` says, and nothing for what is no `std::exception`.
The `strerror` text an exception ends in is left out. -/
def Exn.what : Exn → Option String
  | .submitTransferFailed => "Submit transfer failed"
  | .unexpectedTransferState s => s!"Unexpected LIBUSB_TRANSFER state {libusbTransferStatusName s}"
  | .confirmReported n => s!"Callback WRITE_CONFIRM_TRANSFER reported error {n}"
  | .fillReported n => s!"Callback WRITE_FILL_BUFFER reported error {n}"
  | .unableToAllocateTransfer s t => s!"@{s},{t}: Unable to allocate transfer"
  | .unableToAllocateBuffer s t n =>
      s!"@{s},{t}: Unable to allocate transfer buffer of {n} bytes"
  | .unableToSubmitNull s t => s!"@{s},{t}: Unable to submit null transfer"
  | .entryFillReported s t n => s!"@{s},{t}: Callback WRITE_FILL_BUFFER reported error {n}"
  | .submitTransferError s t => s!"@{s},{t}: Submit transfer error"
  | .unableToCancelNull s t => s!"@{s},{t}: Unable to cancel null transfer"
  | .handlingLibusbEvents => "Error handling libusb events"
  | .cantResetMode => "Can't reset mode"
  | .cantPurge => "Can't Purge"
  | .stateNotDestroyed => "State wasn't properly destroyed"
  | .stateNotInitialized => "State wasn't properly initialized"
  | .unableToInitEpoll => "Unable to init epoll: "
  | .unableToInitTimer => "Unable to init timer_fd: "
  | .unableToStartTimer => "Unable to start timer_fd: "
  | .unableToGetPollfds => "Unable to get pollfds"
  | .unableToInitEventfd => "Unable to init eventfd: "
  | .undefinedStreamId => "Undefined stream id"
  | .noReadCallback s => s!"No read callback defined for stream id {s}"
  | .readCallbackError s => s!"Error reported by read callback for stream id {s}"
  | .noStreams => "No streams were defined"
  | .differentContexts => "All streams must use the same USB context"
  | .readPacketsZero => "Read packets per transfer is zero"
  | .readCallbackNotSet => "Read transfers is nonzero, but read callback is not set"
  | .writePacketsZero => "Write packets per transfer is zero"
  | .oneWriteTransfer => "Only one write transfer is allowed per stream"
  | .writeCallbackNotSet => "Write transfers is nonzero, but write callback is not set"
  | .noTransfers => "No streams have either reading or writing transfers"
  | .unableToHandleTimeouts => "Unable to handle timeouts in libusb"
  | .threadStarted => "Thread version is already started"
  | .pollStarted => "Polling version is already started"
  | .outOfRange => "vector::_M_range_check"
  | .thrown text => text
  | .unknown => none

/-- What `FtdiStreamStatic::error` pushes to `error_spsc`. -/
inductive Message where
  | readCallback (streamId transferId : ℕ) (cause : Exn)
  | writeCallback (streamId transferId : ℕ) (cause : Exn)
  | addToEpoll (cause : Exn)
  | addToUsbEpoll (cause : Exn)
  | removeFromUsbEpoll (cause : Exn)
  | timerFd (errno : Errno)
  | eventFd (errno : Errno)
  | timeoutReached
  | processInit (cause : Exn)
  | processLoop (cause : Exn)
deriving DecidableEq, Repr

/-- The words of a message, `strerror` given. -/
def Message.text (strerror : Errno → String) : Message → String
  | .readCallback s t e => s!"@{s},{t}: read callback - " ++ e.what.getD "unknown exception"
  | .writeCallback s t e => s!"@{s},{t}: write callback - " ++ e.what.getD "unknown exception"
  | .addToEpoll e => "FtdiStreamStatic::add_to_epoll : " ++ e.what.getD "Unknown error"
  | .addToUsbEpoll e => "FtdiStreamStatic::add_to_usb_epoll : " ++ e.what.getD "Unknown error"
  | .removeFromUsbEpoll e =>
      "FtdiStreamStatic::remove_from_usb_epoll : " ++ e.what.getD "Unknown error"
  | .timerFd errno => "Error reading from timer_fd: " ++ strerror errno
  | .eventFd errno => "Error reading from event_fd: " ++ strerror errno
  | .timeoutReached => "Timeout reached"
  | .processInit e => "FtdiStreamStatic::process_init : " ++ e.what.getD "unknown exception"
  | .processLoop e => "FtdiStreamStatic::process_loop : " ++ e.what.getD "unknown exception"

/-- The part of `ftdi_context` a stream is configured from. -/
structure FtdiContext where
  usbCtx : ℕ
  maxPacketSize : UInt32
  writebufferChunksize : UInt32
deriving DecidableEq, Repr

/-- `FtdiStreamEntry`. A callback is what the world answers under the
stream's number; whether one is set is kept here. -/
structure FtdiStreamEntry where
  ftdi : FtdiContext
  readStartEnabled : Bool
  readIncludeModemStatus : Bool
  hasReadCallback : Bool
  readTransfers : ℕ
  readPacketsPerTransfer : UInt64
  hasWriteCallback : Bool
  writeTransfers : ℕ
  writePacketsPerTransfer : UInt64
  hasCounterCallback : Bool
  hasResetCallback : Bool
deriving DecidableEq, Repr

/-- `FtdiStreamEntry::FtdiStreamEntry`: what a stream is before any of its
setters is called. -/
def FtdiStreamEntry.ofContext (ftdi : FtdiContext) : FtdiStreamEntry where
  ftdi := ftdi
  readStartEnabled := true
  readIncludeModemStatus := false
  hasReadCallback := false
  readTransfers := 0
  readPacketsPerTransfer := 0
  hasWriteCallback := false
  writeTransfers := 0
  writePacketsPerTransfer := 0
  hasCounterCallback := false
  hasResetCallback := false

/-- `read_packetsize` and `write_packetsize`. -/
structure Packetsizes where
  read : UInt32
  write : UInt32
deriving DecidableEq, Repr

/-- One turn of the loop of `FtdiStream::FtdiStream`: the packet sizes so
far, and whether there are transfers so far. -/
def FtdiStream.checkStream (usbCtx : ℕ) (acc : Packetsizes × Bool) (stream : FtdiStreamEntry) :
    Except Exn (Packetsizes × Bool) :=
  let sizes : Packetsizes :=
    { read := if acc.1.read > stream.ftdi.maxPacketSize then stream.ftdi.maxPacketSize
        else acc.1.read
      write := if acc.1.write > stream.ftdi.writebufferChunksize
        then stream.ftdi.writebufferChunksize else acc.1.write }
  if stream.ftdi.usbCtx ≠ usbCtx then .error .differentContexts
  else if 0 < stream.readTransfers ∧ stream.hasReadCallback = false then .error .readCallbackNotSet
  else if 0 < stream.readTransfers ∧ stream.readPacketsPerTransfer = 0 then .error .readPacketsZero
  else if 0 < stream.writeTransfers ∧ stream.hasWriteCallback = false then
    .error .writeCallbackNotSet
  else if 0 < stream.writeTransfers ∧ stream.writePacketsPerTransfer = 0 then
    .error .writePacketsZero
  else if 0 < stream.writeTransfers ∧ stream.writeTransfers ≠ 1 then .error .oneWriteTransfer
  else .ok (sizes, acc.2 || decide (0 < stream.readTransfers) || decide (0 < stream.writeTransfers))

/-- `FtdiStream::FtdiStream`, with the answers of `eventfd` and of
`libusb_pollfds_handle_timeouts`: the packet sizes of the new object. -/
def FtdiStream.construct (streams : List FtdiStreamEntry) (noticeEventFd handleTimeouts : ℤ) :
    Except Exn Packetsizes :=
  match streams with
  | [] => .error .noStreams
  | first :: _ =>
      if noticeEventFd < 0 then .error .unableToInitEventfd
      else
        match streams.foldlM (FtdiStream.checkStream first.ftdi.usbCtx)
          (⟨4294967295, 4294967295⟩, false) with
        | .error e => .error e
        | .ok (sizes, areSomeTransfers) =>
            if areSomeTransfers = false then .error .noTransfers
            else if handleTimeouts ≠ 1 then .error .unableToHandleTimeouts
            else .ok sizes

end Stream

end SgFtdi
