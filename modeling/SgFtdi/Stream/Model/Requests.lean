import SgFtdi.Stream.Model.Machine

/-!
# Stream — requests, notices, and calls into user code

`enable_reading`, `disable_reading` and `reset_stream` of
`FtdiStream.cpp`, the notice they issue, and how the engine calls a user's
callback, which may make such requests itself. A request is two steps, as
in the source: the lists change under the locks (`accept…`), and the
notice is written after they are released.

The locks show where a call does not come back. A callback called while
the engine holds `list_mutex`, or while a `start_…` or `stop_…` holds
`_mutex`, cannot get through a request of its own; another thread's
request waits there, and has not happened yet.
-/

namespace SgFtdi

namespace Stream

open Prog

variable {σ : Type} (env : Env σ)

/-- The largest value an eventfd counter takes. -/
def noticeMax : ℕ := 0xfffffffffffffffe

/-- The notice eventfd after a write of one, which is refused where the
counter is full. -/
def Machine.notified (m : Machine σ) : Machine σ :=
  { m with noticeCount := if m.noticeCount < noticeMax then m.noticeCount + 1 else m.noticeCount }

/-- `FtdiStreamState::issue_notice`. -/
def issueNotice : Run σ Unit := alter Machine.notified

/-- A call into user code made with both locks held: a request made there
waits for them for ever. -/
def lockedCall {α : Type} (f : σ → Reply α × σ) : Run σ α := do
  let reply ← askWorld f
  if reply.requests ≠ [] then hang
  else match reply.result with
    | .ok a => pure a
    | .error e => raise e

/-- The lists after a request for a descriptor or a stream. -/
def Machine.queue (m : Machine σ) : Queued → Machine σ
  | .enable fd =>
      { m with listDisable := m.listDisable.erase fd, listEnable := m.listEnable.insert fd }
  | .disable fd =>
      { m with listEnable := m.listEnable.erase fd, listDisable := m.listDisable.insert fd }
  | .reset streamId => { m with listReset := m.listReset.insert streamId }

/-- Both checks every request begins with: the engine is started, and is
not ending. -/
def FtdiStreamState.taking (m : FtdiStreamState) : Bool :=
  (m.isStartedThr || m.isStartedPoll) && !m.shouldCancel

/-- `enable_reading` and `disable_reading` under the locks, for what they
queue of the descriptor: whether the request was accepted. -/
def acceptReading (streamId : ℕ) (what : ℤ → Queued) : Run σ Bool := do
  let m ← look id
  if m.taking = false then pure false
  else match m.streams[streamId]? with
    | none => raise .undefinedStreamId
    | some stream =>
        if stream.hasReadCallback = false then raise (.noReadCallback streamId)
        else do
          let (fd, _) ← lockedCall (env.callback true streamId .readGetFd [] 0)
          if fd < 0 then raise (.readCallbackError streamId)
          else do
            alter (·.queue (what fd))
            observe (.asked streamId (what fd))
            pure true

/-- `reset_stream` under the locks. -/
def acceptReset (streamId : ℕ) : Run σ Bool := do
  let m ← look id
  if m.taking = false then pure false
  else if m.streams.length ≤ streamId then raise .undefinedStreamId
  else do
    alter (·.queue (.reset streamId))
    observe (.asked streamId (.reset streamId))
    pure true

/-- A request under the locks. -/
def accept : Request → Run σ Bool
  | .enable streamId => acceptReading env streamId .enable
  | .disable streamId => acceptReading env streamId .disable
  | .reset streamId => acceptReset streamId

/-- A request: the lists, and the notice where it was accepted. -/
def request (r : Request) : Run σ Unit := do
  let accepted ← accept env r
  if accepted then issueNotice else pure ()

/-- `FtdiStream::enable_reading`. -/
def enableReading (streamId : ℕ) : Run σ Unit := request env (.enable streamId)

/-- `FtdiStream::disable_reading`. -/
def disableReading (streamId : ℕ) : Run σ Unit := request env (.disable streamId)

/-- `FtdiStream::reset_stream`. -/
def resetStream (streamId : ℕ) : Run σ Unit := request env (.reset streamId)

/-- The requests a callback makes, whose exceptions it sees and answers
for itself. -/
def performRequests (rs : List Request) : Run σ Unit :=
  each rs fun r => do
    let m ← look id
    if m.mutex || m.listMutex then hang
    else rescue (request env r) fun _ => pure ()

/-- How a call into user code comes back: its requests, then its result. -/
def comeBack {α : Type} (reply : Reply α) : Run σ α := do
  performRequests env reply.requests
  match reply.result with
  | .ok a => pure a
  | .error e => raise e

/-- A call into user code. -/
def userCall {α : Type} (f : σ → Reply α × σ) : Run σ α := do
  let reply ← askWorld f
  comeBack env reply

/-- What the user is told: the bytes that were read, how many were written,
and the counters of an entry. -/
inductive Telling where
  | readBuffer (streamId : ℕ) (bytes : List UInt8)
  | confirmTransfer (streamId : ℕ) (len : ℤ)
  | counters (streamId : ℕ) (isReading : Bool) (transferId : ℕ) (callbacks bytes : UInt64)
deriving DecidableEq, Repr

/-- What the user answers. -/
abbrev Telling.Answer : Telling → Type
  | .readBuffer _ _ => ℤ × List UInt8
  | .confirmTransfer _ _ => ℤ × List UInt8
  | .counters _ _ _ _ _ => Unit

/-- The call that tells it: `READ_BUFFER`, `WRITE_CONFIRM_TRANSFER`, or the
counter callback. -/
def Telling.call : (t : Telling) → σ → Reply t.Answer × σ
  | .readBuffer streamId bytes => env.callback true streamId .readBuffer bytes bytes.length
  | .confirmTransfer streamId len => env.callback false streamId .writeConfirmTransfer [] len
  | .counters streamId isReading transferId callbacks bytes =>
      env.counterCallback streamId isReading transferId callbacks bytes

/-- What is on record of it. -/
@[simp] def Telling.obs : Telling → Obs
  | .readBuffer streamId bytes => .readBuffer streamId bytes
  | .confirmTransfer streamId len => .confirmed streamId len
  | .counters streamId isReading transferId callbacks bytes =>
      .counted streamId isReading transferId callbacks bytes

/-- Tell the user, and put it on record. -/
def tell (t : Telling) : Run σ t.Answer := do
  observe t.obs
  userCall env (t.call env)

/-- What another thread does between two steps of the engine. A request
is accepted first and noticed later; `stop` is `stop_thread` before it
joins or `stop_poll` before it steps, and either keeps `_mutex`. -/
inductive ThreadAction where
  | accept (r : Request)
  | notify
  | user (k : ℕ)
  | stop
deriving DecidableEq, Repr

/-- How `stop_poll` and `stop_thread` ask the engine to end. -/
def askStop : Run σ Unit := do
  observe .stopping
  alter fun m => { m with shouldCancel := true }
  issueNotice

/-- `stop_poll` and `stop_thread` up to where they wait: `_mutex` is taken
and the engine asked to end. -/
def beginStop : Run σ Unit := do
  alter fun m => { m with mutex := true }
  askStop

/-- Another thread's step. One that needs a lock held elsewhere waits. -/
def threadAction : ThreadAction → Run σ Unit
  | .accept r => do
      let m ← look id
      if m.mutex || m.listMutex then pure ()
      else rescue (do let _ ← accept env r) fun _ => pure ()
  | .notify => issueNotice
  | .user k => alter fun m => m.withWorld (env.user k m.world)
  | .stop => do
      let m ← look id
      if m.mutex || !(m.isStartedThr || m.isStartedPoll) then pure () else beginStop

end Stream

end SgFtdi
