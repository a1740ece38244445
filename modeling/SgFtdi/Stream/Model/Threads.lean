import SgFtdi.Common.Concurrency
import SgFtdi.Stream.Model.Session

/-!
# Stream — threads and locks

What the threads of a started stream do with `_mutex`, `list_mutex` and
each other, statement by statement: the engine in `process_step`, be it in
its own thread, in `poll` or in `stop_poll`, the user's threads in
`stop_thread`, `stop_poll` and the three requests, and the callbacks, from
which requests are made as well. Data are left to the machine; the flags
kept are those that decide whether a lock is taken or a thread joined.
-/

namespace SgFtdi

namespace Stream

/-- The two mutexes of a stream. -/
inductive Lock where
  | mutex
  | listMutex
deriving DecidableEq, Repr

/-- The engine's thread, and the user's. -/
inductive Thread where
  | engine
  | user (k : ℕ)
deriving DecidableEq, Repr

/-- Where a thread is in `process_step`: between two calls, in a user's
callback, in a request of one at `std::lock` and behind it, in
`event_notice` at the lock guard of `list_mutex` and behind it. A callback
is called with `list_mutex` locked there or not. -/
inductive Spot where
  | loop
  | callback (locked : Bool)
  | requesting (locked : Bool)
  | accepting (locked : Bool)
  | noticing
  | draining
deriving DecidableEq, Repr

/-- Where a thread is in the code: in none of it; in `process_step`, as
the engine's thread or in `poll`; in a request of its own at `std::lock`
and behind it; in a `stop_…` at the lock guard of `_mutex`, behind it, at
the `join` or in the loop over `process_step`, and after that; at its
end. -/
inductive Place where
  | away
  | step (c : Spot)
  | requesting
  | accepting
  | stopCalled (mode : Mode)
  | stopping (mode : Mode)
  | joining
  | stepping (c : Spot)
  | cleaning (mode : Mode)
  | ended
deriving DecidableEq, Repr

/-- The locks held inside `process_step`. -/
def Spot.holds : Spot → Lock → Bool
  | .accepting _, _ => true
  | .callback locked, .listMutex => locked
  | .requesting locked, .listMutex => locked
  | .draining, .listMutex => true
  | _, _ => false

/-- The locks waited for inside `process_step`. -/
def Spot.wants : Spot → Lock → Bool
  | .requesting _, _ => true
  | .noticing, .listMutex => true
  | _, _ => false

/-- The locks held at a place. A `stop_…` keeps `_mutex` to its end. -/
def Place.holds : Place → Lock → Bool
  | .step c, l => c.holds l
  | .stepping c, l => c.holds l || l = .mutex
  | .accepting, _ => true
  | .stopping _, .mutex => true
  | .joining, .mutex => true
  | .cleaning _, .mutex => true
  | _, _ => false

/-- The locks waited for at a place. -/
def Place.wants : Place → Lock → Bool
  | .step c, l => c.wants l
  | .stepping c, l => c.wants l
  | .requesting, _ => true
  | .stopCalled _, .mutex => true
  | _, _ => false

/-- **What the code holds and waits for.** Only the engine's thread is
joined. -/
def discipline : Discipline Thread Lock Place where
  holds p l := p.holds l = true
  wants p l := p.wants l = true
  joins p u := p = .joining ∧ u = .engine
  finished p := p = .ended

/-- **The threads of a started stream.** -/
structure Threads where
  place : Thread → Place
  isStartedThr : Bool
  isStartedPoll : Bool
  shouldCancel : Bool

namespace Threads

/-- A thread goes to a place. -/
def goto (s : Threads) (t : Thread) (p : Place) : Threads :=
  { s with place := Function.update s.place t p }

/-- Nobody holds a lock. -/
def Free (s : Threads) (l : Lock) : Prop := discipline.Free s.place l

/-- `is_started_thr` or `is_started_poll`. -/
def isStarted (s : Threads) : Mode → Bool
  | .thread => s.isStartedThr
  | .poll => s.isStartedPoll

/-- The flag of a mode is cleared. -/
def leave (s : Threads) : Mode → Threads
  | .thread => { s with isStartedThr := false }
  | .poll => { s with isStartedPoll := false }

/-- The engine is asked to end. -/
def cancel (s : Threads) : Threads := { s with shouldCancel := true }

/-- A stream that was just started, in thread mode with its thread in the
loop. -/
def started (mode : Mode) : Threads where
  place t := if t = .engine ∧ mode = .thread then .step .loop else .away
  isStartedThr := mode = .thread
  isStartedPoll := mode = .poll
  shouldCancel := false

end Threads

/-- A statement of `process_step`, as far as locks go. `std::lock` takes
both locks at once, and leaving a request or `event_notice`, by return or
exception, gives back what was taken there. -/
inductive SpotMove (s : Threads) : Spot → Spot → Prop
  | calls : SpotMove s .loop (.callback false)
  | returns : SpotMove s (.callback false) .loop
  | notices : s.shouldCancel = false → SpotMove s .loop .noticing
  | locks : s.Free .listMutex → SpotMove s .noticing .draining
  | callsDraining : SpotMove s .draining (.callback true)
  | returnsDraining : SpotMove s (.callback true) .draining
  | drained : SpotMove s .draining .loop
  | requests (locked : Bool) : SpotMove s (.callback locked) (.requesting locked)
  | accepted (locked : Bool) : s.Free .mutex → s.Free .listMutex →
      SpotMove s (.requesting locked) (.accepting locked)
  | answered (locked : Bool) : SpotMove s (.accepting locked) (.callback locked)

/-- **A thread's move.** -/
inductive ThreadMove (t : Thread) (s : Threads) : Threads → Prop
  | step {c c' : Spot} : s.place t = .step c → SpotMove s c c' →
      ThreadMove t s (s.goto t (.step c'))
  | stepping {c c' : Spot} : s.place t = .stepping c → SpotMove s c c' →
      ThreadMove t s (s.goto t (.stepping c'))
  | cancels {c : Spot} : s.place t = .step c ∨ s.place t = .stepping c → ThreadMove t s s.cancel
  | ends : t = .engine → s.place t = .step .loop → ThreadMove t s (s.goto t .ended)
  | polls : t ≠ .engine → s.place t = .away → s.isStartedPoll = true →
      ThreadMove t s (s.goto t (.step .loop))
  | polled : t ≠ .engine → s.place t = .step .loop → ThreadMove t s (s.goto t .away)
  | requests : t ≠ .engine → s.place t = .away → ThreadMove t s (s.goto t .requesting)
  | accepted : s.place t = .requesting → s.Free .mutex → s.Free .listMutex →
      ThreadMove t s (s.goto t .accepting)
  | answered : s.place t = .accepting → ThreadMove t s (s.goto t .away)
  | callsStop (mode : Mode) : t ≠ .engine → s.place t = .away →
      ThreadMove t s (s.goto t (.stopCalled mode))
  | locks {mode : Mode} : s.place t = .stopCalled mode → s.Free .mutex →
      ThreadMove t s (s.goto t (.stopping mode))
  | skips {mode : Mode} : s.place t = .stopping mode → s.isStarted mode = false →
      ThreadMove t s (s.goto t .away)
  | joins : s.place t = .stopping .thread → s.isStartedThr = true →
      ThreadMove t s (s.goto t .joining).cancel
  | joined : s.place t = .joining → s.place .engine = .ended →
      ThreadMove t s (s.goto t (.cleaning .thread))
  | steps : s.place t = .stopping .poll → s.isStartedPoll = true →
      ThreadMove t s (s.goto t (.stepping .loop)).cancel
  | stepped : s.place t = .stepping .loop → ThreadMove t s (s.goto t (.cleaning .poll))
  | throws : s.place t = .stepping .loop → ThreadMove t s (s.goto t .away)
  | stopped {mode : Mode} : s.place t = .cleaning mode →
      ThreadMove t s ((s.goto t .away).leave mode)

end Stream

end SgFtdi
