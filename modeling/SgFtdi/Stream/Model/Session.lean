import SgFtdi.Stream.Model.Engine

/-!
# Stream — sessions

The life cycle of `FtdiStreamStatic.cpp` and `FtdiStream.cpp`: starting
and stopping an engine, in poll mode and in thread mode, and what happens
to it in between. A `stop_…` waits for the engine, so it is given what
the engine's remaining steps will be; where they run out it is still
waiting.
-/

namespace SgFtdi

namespace Stream

open Prog

variable {σ : Type} (env : Env σ)

/-- The lock guard of `_mutex`. -/
def withMutex {α : Type} (p : Run σ α) : Run σ α := do
  alter fun m => { m with mutex := true }
  leaving p fun m => { m with mutex := false }

/-- The handler of a start: what was set up is cleaned up, and the flag
of the mode cleared. -/
def startFailed (clear : Machine σ → Machine σ) (cause : Exn) : Run σ Unit := do
  processCleanup
  alter clear
  raise cause

/-- The body of the `try` of `start_poll`. -/
def setUpPoll : Run σ Unit := do
  processInit env
  leave .running
  alter fun m => { m with isStartedPoll := true }

/-- `FtdiStream::start_poll`. -/
def startPoll : Run σ Unit := withMutex do
  let m ← look id
  if m.isStartedThr then raise .threadStarted
  else if m.isStartedPoll then pure ()
  else rescue (setUpPoll env) (startFailed fun m => { m with isStartedPoll := false })

/-- `FtdiStream::poll`. -/
def poll (input : StepInput) : Run σ Bool := do
  let m ← look id
  if m.isStartedPoll then processStep env input else pure false

/-- `while (process_step (state));` -/
def stepUntilDone : List StepInput → Run σ Unit
  | [] => hang
  | input :: inputs => do
      let more ← processStep env input
      if more then stepUntilDone inputs else pure ()

/-- `FtdiStream::stop_poll`. -/
def stopPoll (inputs : List StepInput) : Run σ Unit := withMutex do
  let m ← look id
  if m.isStartedPoll then do
    askStop
    stepUntilDone env inputs
    processCleanup
    alter fun m => { m with isStartedPoll := false }
  else pure ()

/-- The end of `process_loop_thread`, and of the thread. -/
def endThread : Run σ Unit := do
  processCleanup
  alter fun m => { m with threadAlive := false }

/-- The beginning of `process_loop_thread`. -/
def beginThread : Run σ Unit := do
  alter fun m => { m with threadAlive := true }
  let m ← look id
  if m.streamstates.isNone then do
    error env (.processLoop .stateNotInitialized)
    endThread
  else pure ()

/-- The construction of the `std::thread`, which may fail. -/
def launchThread : Run σ Unit := do
  leave .threadFailed
  let started ← askWorld env.threadStart
  if started = false then raise (.thrown "Resource temporarily unavailable")
  else do
    alter fun m => { m with isStartedThr := true }
    beginThread env

/-- The body of the `try` of `start_thread`. -/
def setUpThread : Run σ Unit := do
  processInit env
  launchThread env

/-- `FtdiStream::start_thread`. -/
def startThread : Run σ Unit := withMutex do
  let m ← look id
  if m.isStartedPoll then raise .pollStarted
  else if m.isStartedThr then pure ()
  else rescue (setUpThread env) (startFailed fun m => { m with isStartedThr := false })

/-- One turn of the loop of `process_loop_thread`. -/
def threadStep (input : StepInput) : Run σ Unit := do
  let m ← look id
  if m.threadAlive = false then pure ()
  else
    rescue
      (do
        let more ← processStep env input
        if more then pure () else endThread)
      fun cause => do
        error env (.processLoop cause)
        endThread

/-- `_thr.join ()`. -/
def joinThread (inputs : List StepInput) : Run σ Unit := do
  each inputs (threadStep env)
  let m ← look id
  if m.threadAlive then hang else pure ()

/-- `FtdiStream::stop_thread`. -/
def stopThread (inputs : List StepInput) : Run σ Unit := withMutex do
  let m ← look id
  if m.isStartedThr then do
    askStop
    joinThread env inputs
    processCleanup
    alter fun m => { m with isStartedThr := false }
  else pure ()

/-- `FtdiStreamState::~FtdiStreamState`. -/
def destroyState : Run σ Unit := do
  alter fun m => { m with notifiers := false }
  let m ← look id
  if 0 ≤ m.noticeEventFd then observe (.closed m.noticeEventFd) else pure ()
  closeTimer
  closeUsbEpoll
  closeEpoll
  resetStreamstates

/-- `FtdiStream::~FtdiStream`. -/
def destroy (inputs : List StepInput) : Run σ Unit := do
  stopThread env inputs
  stopPoll env inputs
  destroyState

/-! ## Runs -/

/-- Poll mode or thread mode. -/
inductive Mode where
  | poll
  | thread
deriving DecidableEq, Repr

/-- `start_poll` or `start_thread`. -/
def start : Mode → Run σ Unit
  | .poll => startPoll env
  | .thread => startThread env

/-- What happens to a started engine: one of its steps, or another
thread's. -/
inductive Action where
  | step (input : StepInput)
  | thread (a : ThreadAction)
deriving DecidableEq, Repr

/-- An action. An exception that leaves `process_step` ends that step and
is the caller's business. -/
def act : Action → Run σ Unit
  | .step input => rescue (do let _ ← processStep env input) fun _ => pure ()
  | .thread a => threadAction env a

/-- A run of the engine between its start and its clean-up. -/
def engineRun (actions : List Action) : Run σ Unit := each actions (act env)

/-- **An object between two sessions**: one the constructor accepted, with
nothing started and nothing recorded. -/
structure Idle (m : Machine σ) : Prop where
  constructed : ∃ handleTimeouts,
    FtdiStream.construct m.streams m.noticeEventFd handleTimeouts =
      .ok ⟨m.readPacketsize, m.writePacketsize⟩
  streamstates : m.streamstates = none
  isStartedThr : m.isStartedThr = false
  isStartedPoll : m.isStartedPoll = false
  listMutex : m.listMutex = false
  trace : m.trace = []

/-- **An object that was just constructed**: idle, with nothing open and no
thread. -/
structure New (m : Machine σ) : Prop extends Idle m where
  epollFd : m.epollFd = -1
  usbEpollFd : m.usbEpollFd = -1
  timerFd : m.timerFd = -1
  threadAlive : m.threadAlive = false

/-- **A run of a session** from an idle object: it starts, and the actions
happen. -/
def Session (m₀ : Machine σ) (mode : Mode) (actions : List Action) (m : Machine σ) : Prop :=
  Idle m₀ ∧ ∃ m₁, start env mode m₀ = (.ret (), m₁) ∧ engineRun env actions m₁ = (.ret (), m)

/-- The state a session ends in, where it gets there. -/
def session? (m₀ : Machine σ) (mode : Mode) (actions : List Action) : Option (Machine σ) :=
  match start env mode m₀ with
  | (.ret (), m₁) =>
      match engineRun env actions m₁ with
      | (.ret (), m) => some m
      | _ => none
  | _ => none

/-- What can be called on an object over its life. -/
inductive Call where
  | startPoll
  | poll (input : StepInput)
  | stopPoll (inputs : List StepInput)
  | startThread
  | threadStep (input : StepInput)
  | stopThread (inputs : List StepInput)
  | thread (a : ThreadAction)
  | destroy (inputs : List StepInput)

/-- A call. Its exception is the caller's business. -/
def call : Call → Run σ Unit
  | .startPoll => rescue (startPoll env) fun _ => pure ()
  | .poll input => rescue (do let _ ← poll env input) fun _ => pure ()
  | .stopPoll inputs => rescue (stopPoll env inputs) fun _ => pure ()
  | .startThread => rescue (startThread env) fun _ => pure ()
  | .threadStep input => threadStep env input
  | .stopThread inputs => rescue (stopThread env inputs) fun _ => pure ()
  | .thread a => threadAction env a
  | .destroy inputs => rescue (destroy env inputs) fun _ => pure ()

/-- A finite sequence of calls. -/
def lifeRun (calls : List Call) : Run σ Unit := each calls (call env)

end Stream

end SgFtdi
