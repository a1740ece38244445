import SgFtdi.Stream.Model.Session

/-!
# Stream — a world in which everything works

`granting` grants every call: the kernel hands out its descriptors
upwards, libusb takes every transfer, the user has nothing to send and
throws nothing. It is the ground that particular worlds are varied from.
In `steady` the world is nothing but the next descriptor.
-/

namespace SgFtdi

namespace Stream

open Prog

variable {σ : Type} {env : Env σ} {m₀ m : Machine σ} {mode : Mode} {actions : List Action}

/-- The descriptors a stream's callbacks give. -/
def steadyFd (type : CallbackType) (streamId : ℕ) : ℤ :=
  match type with
  | .readGetFd => 100 + 2 * streamId
  | .writeGetFd => 101 + 2 * streamId
  | _ => 0

/-- **Every call is granted**, in a world that knows the next descriptor
and how to hand it out. -/
def granting (fd : σ → ℕ) (next : σ → σ) : Env σ where
  callback _ s type _ _ w := (⟨.ok (steadyFd type s, []), []⟩, w)
  counterCallback _ _ _ _ _ w := (⟨.ok (), []⟩, w)
  resetCallback _ w := (⟨[], ⟨.ok (), []⟩⟩, w)
  ftdiSetBitmode _ w := ((0, []), w)
  ftdiTcioflush _ w := ((0, []), w)
  submitTransfer _ w := (0, w)
  allocTransfer w := (true, w)
  malloc _ w := (true, w)
  epollCreate w := (fd w, next w)
  timerfdCreate w := (fd w, next w)
  timerfdSettime w := (0, w)
  getPollfds w := (some [], w)
  addToEpoll _ _ w := (none, w)
  removeFromEpoll _ _ w := (none, w)
  monotime w := (0, w)
  pushError _ w := (true, w)
  threadStart w := (true, w)
  shuffle _ := ⟨id, fun l => .refl l⟩
  user _ w := w

/-- **The world that grants every call**, and does nothing else. -/
def steady : Env ℕ := granting id (· + 1)

/-- An object that was just constructed, its notice eventfd being `3`. -/
def constructed (streams : List FtdiStreamEntry) (sizes : Packetsizes) (world : σ) : Machine σ where
  streams := streams
  noticeEventFd := 3
  streamstates := none
  epollFd := -1
  usbEpollFd := -1
  timerFd := -1
  readPacketsize := sizes.read
  writePacketsize := sizes.write
  timeout := 10
  cancelCounter := 3
  isStartedThr := false
  isStartedPoll := false
  shouldRun := true
  shouldCancel := false
  tsNow := 0
  tsActivity := 0
  listEnable := .empty
  listDisable := .empty
  listReset := .empty
  errorSpsc := []
  noticeCount := 0
  epollSet := []
  usbEpollSet := []
  notifiers := false
  mutex := false
  listMutex := false
  threadAlive := false
  lastExit := .running
  world := world
  trace := []

/-- A step in which libusb reports completions: `usb_epoll_fd` is `5` in a
session that begins with descriptor `4`. -/
def reports (completions : List Completion) : Action :=
  .step (.ready [⟨5, [], completions.map .completed, 0, none, []⟩])

/-- A step in which a descriptor is ready. -/
def readies (fd : ℤ) : Action := .step (.ready [⟨fd, [], [], 0, none, []⟩])

/-- A stream with so many read transfers of one packet, and perhaps a write
transfer, on a device of this packet size. -/
def sampleStream (packet : UInt32) (reads writes : ℕ) : FtdiStreamEntry :=
  { FtdiStreamEntry.ofContext ⟨1, packet, 4096⟩ with
    hasReadCallback := true
    readTransfers := reads
    readPacketsPerTransfer := 1
    hasWriteCallback := true
    writeTransfers := writes
    writePacketsPerTransfer := 1 }

/-- What the constructor accepts is idle. -/
theorem constructed_idle {streams : List FtdiStreamEntry} {sizes : Packetsizes} {world : σ}
    (h : FtdiStream.construct streams 3 1 = .ok sizes) : Idle (constructed streams sizes world) :=
  ⟨⟨1, h⟩, rfl, rfl, rfl, rfl, rfl⟩

/-- A new object, from streams the constructor accepts. -/
theorem constructed_new {streams : List FtdiStreamEntry} {sizes : Packetsizes} {world : σ}
    (h : FtdiStream.construct streams 3 1 = .ok sizes) : New (constructed streams sizes world) :=
  ⟨constructed_idle h, rfl, rfl, rfl, rfl⟩

/-- A session that can be run is one. -/
theorem session_of_run (hidle : Idle m₀) (h : session? env m₀ mode actions = some m) :
    Session env m₀ mode actions m := by
  unfold session? at h
  split at h
  · next m₁ hs =>
      split at h
      · next m' hr =>
          rw [Option.some_inj] at h
          exact ⟨hidle, m₁, hs, h ▸ hr⟩
      · cases h
  · cases h

/-- A life that can be run is one. -/
theorem exists_life {P : Machine σ → Prop} (env : Env σ) (calls : List Call) (m₀ : Machine σ)
    (hret : (lifeRun env calls m₀).1 = .ret ()) (hP : P (lifeRun env calls m₀).2) :
    ∃ m, lifeRun env calls m₀ = (.ret (), m) ∧ P m :=
  ⟨_, Prod.ext hret rfl, hP⟩

/-- **A session can be computed**, and what holds of the state it ends
in. -/
theorem exists_session {P : Machine σ → Prop} [DecidablePred P] (env : Env σ) (mode : Mode)
    (actions : List Action) (hidle : Idle m₀)
    (h : (session? env m₀ mode actions).any (fun m => decide (P m)) = true) :
    ∃ m, Session env m₀ mode actions m ∧ P m := by
  obtain ⟨m, hm, hP⟩ := (Option.any_eq_true _ _).mp h
  exact ⟨m, session_of_run hidle hm, of_decide_eq_true hP⟩

end Stream

end SgFtdi
