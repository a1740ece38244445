import SgFtdi.Stream.Moves.Engine

/-!
# Stream — cleaning up

`process_cleanup` stops the engine, closes what is open and destroys the
entries, whatever they are doing. `Cleaned` is its frame: nothing is left
of `streamstates`, and the record says in what state it went.
-/

namespace SgFtdi

namespace Stream

open Prog

variable {σ : Type} {m m' m₁ m₂ : Machine σ}

/-- A descriptor was closed. -/
def Obs.closing : Obs → Prop
  | .closed _ => True
  | _ => False

/-- What the record says of the entries that are destroyed, where there
are any. -/
def Machine.freed (m : Machine σ) (run : Bool) : List Seen :=
  match m.streamstates with
  | none => []
  | some es => [⟨run, .destroyed m.lastExit (es.map (·.transfer.inFlight))⟩]

/-- **The frame of a clean-up**: descriptors are closed, and then the
entries are destroyed, each in flight or not. -/
structure Cleaned (m m' : Machine σ) : Prop where
  streamstates : m'.streamstates = none
  lastExit : m'.lastExit = m.lastExit
  streams : m'.streams = m.streams
  trace : ∃ run t, Grows (·.what.closing) m.trace t ∧ m'.trace = t ++ m.freed run

/-- A step of a clean-up that has not come to the entries yet. -/
structure Closed (m m' : Machine σ) : Prop where
  streamstates : m'.streamstates = m.streamstates
  lastExit : m'.lastExit = m.lastExit
  streams : m'.streams = m.streams
  trace : Grows (·.what.closing) m.trace m'.trace

theorem Closed.refl : Closed m m := ⟨rfl, rfl, rfl, .refl⟩

theorem Closed.trans (h : Closed m m₁) (h' : Closed m₁ m₂) : Closed m m₂ :=
  ⟨h'.streamstates.trans h.streamstates, h'.lastExit.trans h.lastExit, h'.streams.trans h.streams,
    h.trace.trans h'.trace⟩

theorem closeTimer_ends (m : Machine σ) :
    Ends closeTimer (fun _ t => Closed m t) (fun _ _ => False) m := by
  unfold closeTimer
  rw [ends_bind, ends_look, id_look, ends_ite]
  exact ⟨fun _ => ⟨rfl, rfl, rfl, .one trivial⟩, fun _ => .refl⟩

theorem closeUsbEpoll_ends (m : Machine σ) :
    Ends closeUsbEpoll (fun _ t => Closed m t) (fun _ _ => False) m := by
  unfold closeUsbEpoll
  rw [ends_bind, ends_look, id_look, ends_ite]
  exact ⟨fun _ => ⟨rfl, rfl, rfl, .one trivial⟩, fun _ => .refl⟩

theorem closeEpoll_ends (m : Machine σ) :
    Ends closeEpoll (fun _ t => Closed m t) (fun _ _ => False) m := by
  unfold closeEpoll
  rw [ends_bind, ends_look, id_look, ends_ite]
  exact ⟨fun _ => ⟨rfl, rfl, rfl, .one trivial⟩, fun _ => .refl⟩

theorem resetStreamstates_ends (m : Machine σ) :
    Ends resetStreamstates (fun _ t => Cleaned m t) (fun _ _ => False) m := by
  unfold resetStreamstates
  rw [ends_bind, ends_look, id_look]
  cases hs : m.streamstates with
  | none => exact ⟨hs, rfl, rfl, false, m.trace, .refl, by simp [Machine.freed, hs]⟩
  | some es => exact ⟨rfl, rfl, rfl, m.shouldRun, m.trace, .refl, by simp [Machine.freed, hs]⟩

/-- Closing first and destroying then is a clean-up. -/
theorem Closed.andCleaned (h : Closed m m₁) (h' : Cleaned m₁ m₂) : Cleaned m m₂ := by
  obtain ⟨run, t, ht, hm⟩ := h'.trace
  refine ⟨h'.streamstates, h'.lastExit.trans h.lastExit, h'.streams.trans h.streams, run, t,
    h.trace.trans ht, hm.trans ?_⟩
  simp only [Machine.freed, h.streamstates, h.lastExit]

/-- The descriptors and then the entries. -/
theorem closeAll_ends (h : Closed m m₁) :
    Ends (do closeTimer; closeUsbEpoll; closeEpoll; resetStreamstates : Run σ Unit)
      (fun _ t => Cleaned m t) (fun _ _ => False) m₁ := by
  rw [ends_bind]
  refine (closeTimer_ends m₁).mono (fun _ m₂ h₂ => ?_) fun _ _ hf => hf
  rw [ends_bind]
  refine (closeUsbEpoll_ends m₂).mono (fun _ m₃ h₃ => ?_) fun _ _ hf => hf
  rw [ends_bind]
  refine (closeEpoll_ends m₃).mono (fun _ m₄ h₄ => ?_) fun _ _ hf => hf
  exact (resetStreamstates_ends m₄).mono
    (fun _ m₅ h₅ => (h.trans (h₂.trans (h₃.trans h₄))).andCleaned h₅) fun _ _ hf => hf

/-- **What `process_cleanup` does.** -/
theorem processCleanup_ends (m : Machine σ) :
    Ends processCleanup (fun _ t => Cleaned m t) (fun _ _ => False) m := by
  unfold processCleanup
  rw [ends_bind, ends_cancel, ends_bind, ends_alter]
  exact closeAll_ends ⟨rfl, rfl, rfl, .refl⟩

end Stream

end SgFtdi
