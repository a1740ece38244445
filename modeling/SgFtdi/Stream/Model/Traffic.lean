import Mathlib.Logic.Function.Basic
import SgFtdi.Stream.Model.Session

/-!
# Stream — requests on their way to the engine

Any number of callers make requests of a started stream while the engine
runs. A request is accepted under the locks and its notice written behind
them; `event_notice` reads the eventfd and drains the lists later. Each of
the four is a step of its own here, run as the machine runs it, and they
interleave in any order. A drain or a callback that does not come back is
no step: the engine stays where it is, and what it has locked stays
locked.
-/

namespace SgFtdi

namespace Stream

open Prog

variable {Caller σ : Type}

/-- Where the engine is: outside of `event_notice`, or in it with the
eventfd read and `list_mutex` not taken yet. -/
inductive Attention where
  | elsewhere
  | noticed
deriving DecidableEq, Repr

/-- The machine, the callers whose request is accepted and whose notice is
not written, and where the engine is. -/
structure Traffic (Caller σ : Type) where
  machine : Machine σ
  unrung : Caller → Bool
  attention : Attention

/-- Nobody has called, and the engine has not begun. -/
def Traffic.opened (m : Machine σ) : Traffic Caller σ := ⟨m, fun _ => false, .elsewhere⟩

/-- The state in which a `stop_…` has asked the engine to end, and written
no notice yet. -/
def Machine.stopAsked (m : Machine σ) : Machine σ :=
  { (Machine.note { m with mutex := true } .stopping) with shouldCancel := true }

/-- A part of a batch under the `catch` of `process_step`. The exception
goes to whoever called that. -/
def caught (p : Run σ Unit) : Run σ Unit :=
  rescue p fun cause => do
    cancel
    leave .exception
    observe (.threw cause)

variable (env : Env σ)

/-- What the engine does outside of `event_notice`. -/
inductive Between (m : Machine σ) : Run σ Unit → Prop
  | completed (c : Completion) : Between m (complete env c)
  | timer (fault : Option Errno) : Between m (eventTimer env fault)
  | ready (sock : ℤ) : sock ∈ m.epollSet → sock ≠ m.usbEpollFd → sock ≠ m.noticeEventFd →
      sock ≠ m.timerFd → Between m (eventReady env sock)

variable [DecidableEq Caller]

/-- **One step of a caller, of a `stop_…` or of the engine.** -/
inductive TrafficMove (s : Traffic Caller σ) : Traffic Caller σ → Prop
  | accepts (c : Caller) (r : Request) {accepted : Bool} {m : Machine σ} : s.unrung c = false →
      s.machine.mutex = false → s.machine.listMutex = false →
      accept env r s.machine = (.ret accepted, m) →
      TrafficMove s { s with machine := m, unrung := Function.update s.unrung c accepted }
  | throws (r : Request) {cause : Exn} {m : Machine σ} : s.machine.mutex = false →
      s.machine.listMutex = false → accept env r s.machine = (.throw cause, m) →
      TrafficMove s { s with machine := m }
  | rings (c : Caller) {m : Machine σ} : s.unrung c = true →
      issueNotice s.machine = (.ret (), m) →
      TrafficMove s { s with machine := m, unrung := Function.update s.unrung c false }
  | user (k : ℕ) :
      TrafficMove s { s with machine := s.machine.withWorld (env.user k s.machine.world) }
  | stops : s.machine.mutex = false →
      TrafficMove s { s with machine := s.machine.stopAsked }
  | stopRings {m : Machine σ} : s.machine.mutex = true → issueNotice s.machine = (.ret (), m) →
      TrafficMove s { s with machine := m }
  | reads (fault : Option Errno) {m : Machine σ} : s.attention = .elsewhere →
      readNotice fault s.machine = (.ret none, m) →
      TrafficMove s { s with machine := m, attention := .noticed }
  | readFails (fault : Option Errno) {errno : Errno} {m m' : Machine σ} :
      s.attention = .elsewhere → readNotice fault s.machine = (.ret (some errno), m) →
      readFailed env errno .eventFd m = (.ret (), m') → TrafficMove s { s with machine := m' }
  | takes {m : Machine σ} : s.attention = .noticed →
      caught (takeNotice env) s.machine = (.ret (), m) →
      TrafficMove s { s with machine := m, attention := .elsewhere }
  | works {p : Run σ Unit} {m : Machine σ} : s.attention = .elsewhere →
      Between env s.machine p → caught p s.machine = (.ret (), m) →
      TrafficMove s { s with machine := m }

end Stream

end SgFtdi
