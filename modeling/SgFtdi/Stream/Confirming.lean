import SgFtdi.Stream.Moves.Held
import SgFtdi.Stream.Writing

/-!
# Stream — what is confirmed

`write_callback` confirms what a completion moved before it does anything
else, but not to an engine that has stopped, and not for a transfer that
came back CANCELLED. What is confirmed is therefore what came back to a
running engine in any other way, over the whole life of an object; the
rest the device has taken, and the user is not told.
-/

namespace SgFtdi

namespace Stream

open Prog Relation

variable {σ : Type} {env : Env σ} {m m' m₁ m₂ : Machine σ} {i s : ℕ}
variable {e : FtdiStreamStaticState}

/-! ## What is taken, credited and confirmed -/

/-- What the device took of a write transfer of a stream. -/
def takenOf (s : ℕ) (o : Seen) : ℤ :=
  match o.what with
  | .completed _ t false _ _ n => if t = s then n else 0
  | _ => 0

/-- What it took of one that came back to a running engine, and not
CANCELLED. -/
def creditedOf (s : ℕ) (o : Seen) : ℤ :=
  match o.what with
  | .completed _ t false status _ n =>
      if t = s ∧ status ≠ .cancelled ∧ o.running = true then n else 0
  | _ => 0

/-- What a stream's user is told in `WRITE_CONFIRM_TRANSFER`. -/
def confirmedOf (s : ℕ) (o : Seen) : ℤ :=
  match o.what with
  | .confirmed t len => if t = s then len else 0
  | _ => 0

/-- The sum of `actual_length` over all write completions of a stream. -/
def taken (s : ℕ) (t : List Seen) : ℤ := (t.map (takenOf s)).sum

/-- The sum of `actual_length` over those that came back to a running
engine, and not CANCELLED. -/
def credited (s : ℕ) (t : List Seen) : ℤ := (t.map (creditedOf s)).sum

/-- The sum of the lengths passed to `WRITE_CONFIRM_TRANSFER`. -/
def confirmed (s : ℕ) (t : List Seen) : ℤ := (t.map (confirmedOf s)).sum

/-- An observation that neither credits nor confirms. -/
def Obs.neutral : Obs → Prop
  | .completed _ _ _ _ _ _ => False
  | .confirmed _ _ => False
  | _ => True

theorem Obs.routine.neutral {o : Obs} {b : Bool} (h : o.routine b) : o.neutral := by
  cases o <;> first | exact h.elim | trivial

theorem Obs.neutral.credited {o : Seen} (h : o.what.neutral) : creditedOf s o = 0 := by
  obtain ⟨run, o⟩ := o
  cases o <;> first | exact h.elim | rfl

theorem Obs.neutral.confirmed {o : Seen} (h : o.what.neutral) : confirmedOf s o = 0 := by
  obtain ⟨run, o⟩ := o
  cases o <;> first | exact h.elim | rfl

/-- **The record settles**: as much is confirmed as was credited. -/
def Machine.Settles (m : Machine σ) (s : ℕ) : Prop := confirmed s m.trace = credited s m.trace

theorem Machine.Settles.of_neutral (h : m.Settles s)
    (ht : Grows (·.what.neutral) m.trace m'.trace) : m'.Settles s := by
  unfold Machine.Settles confirmed credited
  rw [ht.sum_map_eq fun _ ho => ho.confirmed, ht.sum_map_eq fun _ ho => ho.credited]
  exact h

theorem Machine.Settles.of_routine {b : Bool} (h : m.Settles s)
    (ht : Grows (·.what.routine b) m.trace m'.trace) : m'.Settles s :=
  h.of_neutral (ht.mono fun _ ho => Obs.routine.neutral ho)

/-! ## One completion -/

/-- A read completion settles nothing. -/
theorem Machine.Settles.landed {c : Completion} (h : m.Settles s) (hread : e.isReading = true) :
    (m.landed e c).Settles s := by
  unfold Machine.Settles confirmed credited at *
  simp [Machine.landed, confirmedOf, creditedOf, hread, h]

theorem creditedOf_confirmed {run : Bool} {t : ℕ} {n : ℤ} :
    creditedOf s ⟨run, .confirmed t n⟩ = 0 := rfl

/-- **A write completion is settled at once**: it is confirmed exactly when
it is credited, and for as much. -/
theorem WriteBack.settles {c : Completion} (he : m.entryAt c.transfer = some e)
    (hen : e.enabled = true) (hwrite : e.isReading = false)
    (hb : WriteBack env c.transfer (e.back c) (m.landed e c) m') (h : m.Settles s) :
    m'.Settles s := by
  have hroutine := hb.routine (landed_entryAt he)
  have hland : (m.landed e c).trace = m.trace ++
      [⟨m.shouldRun, .completed c.transfer e.streamId false c.status (e.moved c)
        (e.actual c)⟩] := by
    rw [← hwrite]
    rfl
  unfold Machine.Settles confirmed credited at *
  rw [hroutine.sum_map_eq fun _ ho => (Obs.routine.neutral ho).confirmed,
    hroutine.sum_map_eq fun _ ho => (Obs.routine.neutral ho).credited, hland]
  simp only [List.map_append, List.sum_append, List.map_cons, List.map_nil, List.sum_cons,
    List.sum_nil, h]
  by_cases hc : (e.back c).confirms (m.landed e c).shouldRun
  · -- it is confirmed, and was credited as much
    have hstatus' : c.status ≠ .cancelled := hc.2.1
    have hrun' : m.shouldRun = true := hc.2.2.1
    rw [if_pos hc]
    have hsame : creditedOf s ⟨m.shouldRun, .completed c.transfer e.streamId false c.status
        (e.moved c) (e.actual c)⟩ = confirmedOf s ⟨(m.landed e c).shouldRun,
          .confirmed (e.back c).streamId (e.back c).transfer.actualLength⟩ := by
      unfold creditedOf confirmedOf
      by_cases hs : e.streamId = s
      · have hback : (e.back c).streamId = s := hs
        simp only [hs, hback, hstatus', hrun', ne_eq, not_false_eq_true, and_self, if_true]
        rfl
      · have hback : (e.back c).streamId ≠ s := hs
        simp only [hs, hback, false_and, if_false]
    rw [hsame]
    simp [confirmedOf, creditedOf_confirmed]
  · -- it is not confirmed: the engine had stopped, it was CANCELLED, or it moved nothing
    have hnone : ¬ (c.status ≠ .cancelled ∧ m.shouldRun = true ∧ e.actual c ≠ 0) :=
      fun hall => hc ⟨hen, hall.1, hall.2.1, hall.2.2⟩
    rw [if_neg hc]
    have hzero : creditedOf s ⟨m.shouldRun, .completed c.transfer e.streamId false c.status
        (e.moved c) (e.actual c)⟩ = 0 := by
      unfold creditedOf
      dsimp only
      split
      · next hcredit =>
          have hactual : e.actual c = 0 := by
            by_contra hne
            exact hnone ⟨hcredit.2.1, hcredit.2.2, hne⟩
          rw [hactual]
          rfl
      · rfl
    simp [confirmedOf, hzero]

/-- **A completion** leaves the record settled. -/
theorem Completed.settles {c : Completion} (hc : Completed env c m m') (hheld : m.Held)
    (h : m.Settles s) : m'.Settles s := by
  cases hc with
  | @read e _ he _ hread hb => exact (h.landed hread).of_routine (hb.routine (landed_entryAt he))
  | @write e _ he hfl hwrite hb => exact hb.settles he (hheld _ e he hfl) hwrite h

theorem Move.settles (hm : Move env m m') (hheld : m.Held) (h : m.Settles s) : m'.Settles s := by
  cases hm with
  | chore hc => exact h.of_routine (hc.routine false)
  | errored message => exact h.of_routine (errored_routine m message false)
  | pollfds fds => exact h
  | @completed c m₁ hc =>
      have hbound : Grows (·.what.neutral) m₁.trace m₁.boundary.trace := .one trivial
      exact (hc.settles hheld h).of_neutral hbound
  | @armed i e m' he _ _ hsub =>
      have he₁ : (m.modifyEntry i (.setEnabled true)).entryAt i = some (e.setEnabled true) := by
        rw [entryAt_modifyEntry_self, he]
        rfl
      have hmodify : (m.modifyEntry i (.setEnabled true)).Settles s := h
      exact hmodify.of_routine (hsub.routine he₁)
  | cancelled _ _ _ => exact h.of_neutral (.one trivial)

theorem Broken.settles (hb : Broken env m m₁) (h : m.Settles s) : m₁.Settles s := by
  induction hb with
  | here => exact h
  | @armed i e m₁ he _ _ hw =>
      have he₁ : (m.modifyEntry i (.setEnabled true)).entryAt i = some (e.setEnabled true) := by
        rw [entryAt_modifyEntry_self, he]
        rfl
      have hmodify : (m.modifyEntry i (.setEnabled true)).Settles s := h
      exact hmodify.of_routine (hw.routine he₁)
  | unlocked _ ih => exact ih

theorem Step.settles (hst : Step env m m') (hheld : m.Held) (h : m.Settles s) : m'.Settles s := by
  cases hst with
  | handling hh =>
      cases hh with
      | draining hd =>
          cases hd with
          | move hm => exact hm.settles hheld h
          | cleared _ hc => cases hc <;> exact h
      | @accepted t q _ _ _ => exact accepted_eq m t q ▸ h.of_neutral (.one trivial)
      | stopping => exact h.of_neutral (.one trivial)
      | locked _ _ => exact h.of_neutral (.one trivial)
      | _ => exact h
  | waitFailed errno => exact h.of_neutral (.one trivial)
  | crashed cause hb =>
      have hcrash := hb.settles h
      exact hcrash.of_neutral (.one trivial)
  | _ => exact h

theorem Setup.settles (hst : Setup env m m') (hheld : m.Held) (h : m.Settles s) : m'.Settles s := by
  cases hst with
  | opening ho =>
      cases ho with
      | move hm => exact hm.settles hheld h
      | watched _ hw => exact h.of_routine (hw.routine false)
      | noted fd => exact h.of_neutral (.one trivial)
      | _ => exact h
  | created hc => exact h.of_routine hc.routine

/-! ## Every life -/

/-- What lasts: transfers in flight are enabled, and the record settles. -/
structure Settling (s : ℕ) (m : Machine σ) : Prop where
  held : m.Held
  settles : m.Settles s

theorem Settling.cleaned (h : Settling s m) (hc : Cleaned m m') : Settling s m' := by
  refine ⟨fun i e he => ?_, h.settles.of_neutral (hc.ending.mono fun o ho => ?_)⟩
  · simp [FtdiStreamState.entryAt, FtdiStreamState.entries, hc.streamstates] at he
  · obtain ⟨run, o⟩ := o
    cases o <;> first | exact ho.elim | trivial

theorem settling_lasting : Lasting env (Settling s) where
  begun := fun m w now _ h => by
    refine ⟨fun i e he => ?_, h.settles.of_neutral (.one trivial)⟩
    simp [FtdiStreamState.entryAt, FtdiStreamState.entries, Machine.begun] at he
  setup := fun _ _ _ hst h => ⟨hst.held h.held, hst.settles h.held h.settles⟩
  broken := fun _ _ _ _ hb hc h => Settling.cleaned
    ⟨hb.held h.held, h.settles.of_routine hb.routine⟩ hc
  processStep := processStep_preserves fun _ _ hst h =>
    ⟨hst.lives.held h.held, hst.settles h.held h.settles⟩
  cleaned := fun _ _ hc h => h.cleaned hc
  aside := fun _ _ ha h => by
    refine ⟨h.held.of_entries ha.entryAt, h.settles.of_neutral (ha.trace.mono fun o ho => ?_)⟩
    obtain ⟨run, o⟩ := o
    cases o <;> first | exact ho.elim | trivial

/-- **Every byte that came back to a running engine is confirmed.** Over
the whole life of an object, through every start and stop, the lengths
passed to `WRITE_CONFIRM_TRANSFER` for a stream add up to what the device
took in its write completions that were not CANCELLED and met a running
engine. -/
theorem confirmed_eq_credited (env : Env σ) (calls : List Call) (m₀ m : Machine σ)
    (hidle : Idle m₀) (h : lifeRun env calls m₀ = (.ret (), m)) (s : ℕ) :
    confirmed s m.trace = credited s m.trace := by
  have hbegin : Settling s m₀ := by
    refine ⟨fun i e he => ?_, ?_⟩
    · simp [FtdiStreamState.entryAt, FtdiStreamState.entries, hidle.streamstates] at he
    · unfold Machine.Settles
      rw [hidle.trace]
      rfl
  exact (settling_lasting.lifeRun hbegin h).settles

/-- A stop in poll mode, in which the device has the last word. -/
def stopWith (c : Completion) : Call :=
  .stopPoll [.ready [⟨3, [], [], 0, none, []⟩], .ready [⟨5, [], [.completed c], 0, none, []⟩]]

/-- The user of a stream with three bytes to write. -/
def writer : Machine Desk :=
  constructed [sampleStream 64 0 1] ⟨64, 4096⟩ ⟨4, [1, 2, 3], [1, 2, 3]⟩

theorem writer_idle : Idle writer := constructed_idle (by decide +kernel)

/-- Two bytes are taken and confirmed, and then the object is stopped. -/
theorem confirmed_eq_credited_sample :
    ∃ m, lifeRun writing [.startPoll, .poll (.ready [⟨5, [], [.completed ⟨0, .completed, [], 2⟩],
        0, none, []⟩]), stopWith ⟨0, .cancelled, [], 0⟩] writer = (.ret (), m) ∧
      credited 0 m.trace = 2 ∧ confirmed 0 m.trace = credited 0 m.trace := by
  obtain ⟨m, hm, htwo⟩ := exists_life (P := fun m => credited 0 m.trace = 2) writing [.startPoll,
    .poll (.ready [⟨5, [], [.completed ⟨0, .completed, [], 2⟩], 0, none, []⟩]),
    stopWith ⟨0, .cancelled, [], 0⟩] writer (by decide +kernel) (by decide +kernel)
  exact ⟨m, hm, htwo, confirmed_eq_credited writing _ writer m writer_idle hm 0⟩

/-- **A stop leaves bytes unconfirmed**: the device takes two bytes of the
transfer that was in flight, and reports it CANCELLED, or as COMPLETED all
the same; none of them is confirmed, and all three are still in the queue
for the next session. -/
theorem taken_unconfirmed :
    (∃ m, lifeRun writing [.startPoll, stopWith ⟨0, .cancelled, [], 2⟩] writer = (.ret (), m) ∧
      taken 0 m.trace = 2 ∧ confirmed 0 m.trace = 0 ∧ m.world.queue = [1, 2, 3]) ∧
    ∃ m, lifeRun writing [.startPoll, stopWith ⟨0, .completed, [], 2⟩] writer = (.ret (), m) ∧
      taken 0 m.trace = 2 ∧ confirmed 0 m.trace = 0 ∧ m.world.queue = [1, 2, 3] :=
  ⟨exists_life writing _ writer (by decide +kernel) (by decide +kernel),
    exists_life writing _ writer (by decide +kernel) (by decide +kernel)⟩

end Stream

end SgFtdi
