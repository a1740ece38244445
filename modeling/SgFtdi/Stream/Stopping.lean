import SgFtdi.Stream.Shutdown
import SgFtdi.Stream.Refusing
import SgFtdi.Stream.Moves.Standing

/-!
# Stream — what `stop_poll` leaves

The loop of `stop_poll` handles events as any other does, and throws where
it is refused something. `start_poll` and the engine's thread clean up
after an exception; `stop_poll` does not, and the object stays in poll mode
with everything open. Where nothing is refused, nothing is left of the
engine.
-/

namespace SgFtdi

namespace Stream

open Prog Relation

variable {σ : Type} {env : Env σ} {m m' : Machine σ}

/-- **What `stop_poll` is for**: the engine has left poll mode, with no
entries and no descriptors. -/
structure PollLeft (m : Machine σ) : Prop where
  isStartedPoll : m.isStartedPoll = false
  streamstates : m.streamstates = none
  epollFd : m.epollFd = -1
  usbEpollFd : m.usbEpollFd = -1
  timerFd : m.timerFd = -1

/-- **The loop** of `stop_poll` **is refused** something in one of the batches
it comes to. -/
def LoopRefused (env : Env σ) : List StepInput → Machine σ → Prop
  | [], _ => False
  | input :: inputs, m => StepRefused env (fun _ => True) input m ∨
      ∃ t, processStep env input m = (.ret true, t) ∧ LoopRefused env inputs t

/-! ## What throws -/

/-- An engine that was asked to end drains nothing, so a notice is refused
nothing there. -/
theorem not_noticeRefused {F : (ℕ → Bool) → Prop} (fault : Option Errno)
    (between : List ThreadAction) (hc : m.shouldCancel = true) :
    ¬ NoticeRefused env F fault between m := by
  rintro ⟨-, -, t, hrun, -, hnot, -⟩
  have hbeats : Beats .working (each between (threadAction env)) { m with noticeCount := 0 } :=
    Walks.each threadAction_beats
  exact Bool.false_ne_true (hnot.symm.trans (hbeats.cancelling hrun hc))

/-- **The loop throws** where it is refused something, and nowhere else. -/
theorem stepUntilDone_throws : ∀ (inputs : List StepInput) {m : Machine σ}, m.Made → m.Furnished →
    Throws (fun _ => True) (stepUntilDone env inputs) (LoopRefused env inputs m) m
  | [], _, _, _ => trivial
  | input :: inputs, m, hmade, hm => by
      unfold stepUntilDone
      refine Throws.congr (Throws.bind (R := fun more (t : Machine σ) =>
        if more then LoopRefused env inputs t else False)
        (processStep_throws (F := fun _ => True) input hmade hm) ?_) (or_congr_right ?_)
      · refine (ends_self.and (furnished_lasting.processStep input m hm)).mono ?_
          fun _ _ _ => trivial
        rintro more t ⟨hstep, ht⟩
        refine Throws.ite (fun _ => ?_) fun _ => Throws.never (Q := fun _ _ => True) trivial
        exact stepUntilDone_throws inputs (((processStep_beats input m).holdings hstep).made.trans
          hmade) ht
      · constructor
        · rintro ⟨more, t, hstep, h⟩
          split at h
          · next hmore => exact ⟨t, hmore ▸ hstep, h⟩
          · exact h.elim
        · rintro ⟨t, hstep, h⟩
          exact ⟨true, t, hstep, h⟩

/-! ## What is left -/

/-- **`stop_poll` on an engine in poll mode**: either its loop ended and nothing
is left, or it was refused something and everything is. -/
theorem stopPoll_ends (inputs : List StepInput) (hpoll : m.isStartedPoll = true)
    (hopen : m.outline.Open) (hm : m.Furnished) :
    Ends (stopPoll env inputs) (fun _ t => PollLeft t ∧ ¬ LoopRefused env inputs m.askedToStop)
      (fun _ t => (t.isStartedPoll = true ∧ SameHoldings m.outline t.outline) ∧
        LoopRefused env inputs m.askedToStop) m := by
  unfold stopPoll withMutex
  rw [ends_bind, ends_alter, ends_leaving, ends_bind, ends_look, id_look, ends_ite]
  refine ⟨fun _ => ?_, fun h => absurd hpoll h⟩
  have hask : askStop { m with mutex := true } = (.ret (), m.askedToStop) := rfl
  rw [ends_bind]
  refine ends_of_ret hask ?_
  rw [ends_bind]
  have hsame : SameStanding m.outline m.askedToStop.outline :=
    ⟨⟨rfl, rfl, rfl⟩, ⟨rfl, rfl, rfl, rfl⟩⟩
  have hmade : m.askedToStop.Made := hopen.made
  have hfurnished : m.askedToStop.Furnished := hm.same (fun _ => rfl) rfl
  -- the loop keeps what the mode has, and throws where it is refused something
  refine (Ends.and (Beats.stands (stepUntilDone_beats inputs m.askedToStop))
    (stepUntilDone_throws inputs hmade hfurnished)).mono ?_ ?_
  · rintro _ t ⟨ht, hnot⟩
    have hot := (hopen.same hsame.toSameHoldings).same ht.toSameHoldings
    rw [ends_bind]
    refine (processCleanup_outline t).mono (fun _ u hu => ?_) fun _ _ hf => hf.elim
    refine ⟨⟨rfl, ?_, ?_, ?_, ?_⟩, hnot⟩
    · have hmade : u.outline.made = false := by rw [hu]; rfl
      exact Option.isNone_iff_eq_none.mp (by simpa [Machine.outline] using hmade)
    · show u.outline.epollFd = -1
      rw [hu]
      exact if_pos hot.epollFd
    · show u.outline.usbEpollFd = -1
      rw [hu]
      exact if_pos hot.usbEpollFd
    · show u.outline.timerFd = -1
      rw [hu]
      exact if_pos hot.timerFd
  · rintro cause t ⟨ht, hfails⟩
    exact ⟨⟨ht.isStartedPoll.trans hpoll, ht.made, ht.epollFd, ht.usbEpollFd, ht.timerFd⟩,
      hfails.mpr trivial⟩

/-- A clean-up never throws, and neither does what a destructor does last. -/
theorem destroyState_ends (m : Machine σ) :
    Ends destroyState (fun _ _ => True) (fun _ _ => False) m := by
  unfold destroyState
  rw [ends_bind, ends_alter, ends_bind, ends_look, id_look]
  dsimp only
  rw [ends_ite]
  exact ⟨fun _ => (closeAll_outline _).mono (fun _ _ _ => trivial) fun _ _ hf => hf,
    fun _ => (closeAll_outline _).mono (fun _ _ _ => trivial) fun _ _ hf => hf⟩

/-- **A destructor throws** in poll mode where its loop is refused something. -/
theorem destroy_fails (inputs : List StepInput) (hthr : m.isStartedThr = false)
    (hpoll : m.isStartedPoll = true) (hopen : m.outline.Open) (hm : m.Furnished) :
    Ends (destroy env inputs) (fun _ _ => ¬ LoopRefused env inputs m.askedToStop)
      (fun _ _ => LoopRefused env inputs m.askedToStop) m := by
  unfold destroy
  rw [ends_bind]
  refine (stopThread_skips inputs hthr).mono ?_ fun _ _ hf => hf.elim
  rintro _ t rfl
  have hopen' : (Machine.outline { m with mutex := false }).Open := hopen
  rw [ends_bind]
  have hm' : Machine.Furnished { m with mutex := false } := hm.same (fun _ => rfl) rfl
  refine (stopPoll_ends inputs hpoll hopen' hm').mono ?_ fun _ _ h => h.2
  exact fun _ t h => (destroyState_ends t).mono (fun _ _ _ => h.2) fun _ _ hf => hf.elim

/-- **`stop_poll` always stops, unless its loop is refused something.** From
every state in poll mode that calls on a new object lead to, where
`stop_poll` comes back at all, the engine has left poll mode with nothing
open if and only if in no batch of its loop libusb reported an error, a
counter callback threw, or an entry that was switched on was refused; and
the destructor, where it comes back, lets an exception escape if and only
if one of them did. -/
theorem stopPoll_stops (env : Env σ) (m₀ m : Machine σ) (calls : List Call) (hnew : New m₀)
    (hrun : lifeRun env calls m₀ = (.ret (), m))
    (hpoll : m.isStartedPoll = true) (inputs : List StepInput) :
    ((stopPoll env inputs m).1 ≠ .hang →
      (PollLeft (stopPoll env inputs m).2 ↔ ¬ LoopRefused env inputs m.askedToStop)) ∧
    ((destroy env inputs m).1 ≠ .hang →
      ((∃ cause, (destroy env inputs m).1 = .throw cause) ↔
        LoopRefused env inputs m.askedToStop)) := by
  have hstands := lifeRun_stands hnew.standing hrun
  have hm : m.Furnished := furnished_lasting.lifeRun (.of_none hnew.streamstates) hrun
  obtain ⟨hthr, -, hopen⟩ := hstands.of_poll hpoll
  have hstop : Ends (stopPoll env inputs) _ _ m := stopPoll_ends inputs hpoll hopen hm
  have hdestroy : Ends (destroy env inputs) _ _ m := destroy_fails inputs hthr hpoll hopen hm
  unfold Ends at hstop hdestroy
  refine ⟨fun hback => ?_, fun hback => ?_⟩
  · generalize stopPoll env inputs m = r at hstop hback
    obtain ⟨⟨⟩ | cause | -, t⟩ := r
    · exact ⟨fun _ => hstop.2, fun _ => hstop.1⟩
    · refine ⟨fun h => absurd (h.isStartedPoll.symm.trans hstop.1.1) Bool.false_ne_true, ?_⟩
      exact fun h => absurd hstop.2 h
    · exact absurd rfl hback
  · generalize destroy env inputs m = r at hdestroy hback
    obtain ⟨⟨⟩ | cause | -, t⟩ := r
    · exact ⟨fun ⟨_, h⟩ => (nomatch h), fun h => absurd h hdestroy⟩
    · exact ⟨fun _ => hdestroy, fun _ => ⟨cause, rfl⟩⟩
    · exact absurd rfl hback

/-- `libusb_handle_events_timeout` fails. -/
def usbFails : StepInput := .ready [⟨5, [], [], -1, none, []⟩]

/-- libusb reports the last transfer as cancelled. -/
def cancelledBack : StepInput := .ready [⟨5, [], [.completed ⟨0, .cancelled, [], 0⟩], 0, none, []⟩]

/-- A shutdown in which nothing fails. -/
theorem stopPoll_stops_sample :
    ∃ m : Machine ℕ, m.isStartedPoll = true ∧ PollLeft (stopPoll steady [cancelledBack] m).2 := by
  have hnew : New (constructed [sampleStream 64 1 0] ⟨64, 4096⟩ 4) :=
    constructed_new (by decide +kernel)
  obtain ⟨m, hrun, hpoll, hmade, hback, hloop⟩ := exists_life (P := fun m =>
      m.isStartedPoll = true ∧ m.streamstates.isSome = true ∧
      (stopPoll steady [cancelledBack] m).1 ≠ .hang ∧
      (stepUntilDone steady [cancelledBack] m.askedToStop).1 = .ret ())
    steady [.startPoll] (constructed [sampleStream 64 1 0] ⟨64, 4096⟩ 4) (by decide +kernel)
    (by decide +kernel)
  have hmade : m.askedToStop.Made := hmade
  have hm : m.Furnished := furnished_lasting.lifeRun (.of_none hnew.streamstates) hrun
  have hnot := ends_ret_of (stepUntilDone_throws [cancelledBack] hmade
    hm.askedToStop) (Prod.ext hloop rfl)
  exact ⟨m, hpoll, ((stopPoll_stops steady _ m [.startPoll] hnew hrun hpoll
    [cancelledBack]).1 hback).mpr hnot⟩

/-- **A shutdown in which libusb fails** leaves the object in poll mode with
everything open, and its destructor throws. -/
theorem stopPoll_breaks :
    ∃ m : Machine ℕ, lifeRun steady [.startPoll] (constructed [sampleStream 64 1 0] ⟨64, 4096⟩ 4) =
        (.ret (), m) ∧ m.isStartedPoll = true ∧
      (stopPoll steady [usbFails] m).1 = .throw .handlingLibusbEvents ∧
      (stopPoll steady [usbFails] m).2.isStartedPoll = true ∧
      (stopPoll steady [usbFails] m).2.streamstates.isSome = true ∧
      (stopPoll steady [usbFails] m).2.epollFd = 4 ∧
      ¬ PollLeft (stopPoll steady [usbFails] m).2 ∧
      (destroy steady [usbFails] m).1 = .throw .handlingLibusbEvents := by
  obtain ⟨m, hrun, hpoll, hthrow, hstill, hmade, hopen, hdestroy⟩ := exists_life (P := fun m =>
      m.isStartedPoll = true ∧
      (stopPoll steady [usbFails] m).1 = .throw .handlingLibusbEvents ∧
      (stopPoll steady [usbFails] m).2.isStartedPoll = true ∧
      (stopPoll steady [usbFails] m).2.streamstates.isSome = true ∧
      (stopPoll steady [usbFails] m).2.epollFd = 4 ∧
      (destroy steady [usbFails] m).1 = .throw .handlingLibusbEvents)
    steady [.startPoll] (constructed [sampleStream 64 1 0] ⟨64, 4096⟩ 4) (by decide +kernel)
    (by decide +kernel)
  refine ⟨m, hrun, hpoll, hthrow, hstill, hmade, hopen, fun hleft => ?_, hdestroy⟩
  exact absurd (hleft.isStartedPoll.symm.trans hstill) Bool.false_ne_true

end Stream

end SgFtdi
