import SgFtdi.Stream.Denying
import SgFtdi.Stream.Shutdown
import SgFtdi.Stream.Moves.Held
import SgFtdi.Stream.Moves.Standing

/-!
# Stream — freeing the transfers

`process_cleanup` frees every transfer, and it is reached in several
ways. One of them waits: `process_step` goes on until every entry is
disabled, and a disabled entry is never in flight. The others do not, and
free what is in flight when they are taken. `Abandons` says of every call
when that is so: by what `epoll_wait`, libusb, the kernel's threads and
the callbacks answer, and by what is in flight and left of
`cancel_counter` before.
-/

namespace SgFtdi

namespace Stream

open Prog Relation

variable {σ : Type} (env : Env σ)

/-- A transfer is in flight. -/
def Flying (f : ℕ → Bool) : Prop := ∃ i, f i = true

/-- **A transfer was freed in flight**: it was when the entries were
destroyed. -/
def Machine.Lost (m : Machine σ) : Prop :=
  ∃ run why flags, ⟨run, .destroyed why flags⟩ ∈ m.trace ∧ true ∈ flags

/-! ## Ways to a clean-up -/

/-- **The engine has stopped with a transfer in flight**, which none of the
resets that come first brings back. -/
def StoppedFlying (m : Machine σ) : Prop :=
  m.shouldRun = false ∧ After (rescue (processResetStreamEntry env true) fun _ => pure ())
    (fun _ t => Flying t.flying) m

/-- **`process_step` gives up** a transfer in flight, returning false:
`epoll_wait` fails, or nothing is left of the count where a batch that is
handled leaves the engine stopped with a transfer in flight. -/
inductive GivesUp (m : Machine σ) : StepInput → Prop
  | failed (errno : Errno) : Flying m.flying → GivesUp m (.failed errno)
  | counted {events : List EpollEvent} : epollWait m events ≠ [] → m.cancelCounter ≤ 0 →
      After (each (epollWait m events) (handleEvent env)) (fun _ t => StoppedFlying env t)
        { m with lastExit := .running } → GivesUp m (.ready events)

/-- **A turn of the thread abandons** a transfer: `process_step` gives it up,
or is refused something with a transfer in flight. -/
def TurnAbandons (input : StepInput) (m : Machine σ) : Prop :=
  m.threadAlive = true ∧ (GivesUp env m input ∨ StepRefused env Flying input m)

/-- **The loop of `stop_poll` abandons** a transfer in the turn in which it is
given up. An exception does not get to the clean-up. -/
def LoopAbandons : List StepInput → Machine σ → Prop
  | [], _ => False
  | input :: inputs, m => GivesUp env m input ∨
      ∃ t, processStep env input m = (.ret true, t) ∧ LoopAbandons inputs t

/-- **`start_thread` abandons** what was submitted where an entry is denied
something, or where the thread is not started. -/
def LaunchAbandons (m : Machine σ) : Prop :=
  SetUpDenied env Flying m ∨
    After (processInit env) (fun _ t => (env.threadStart t.world).1 = false ∧ Flying t.flying) m

/-- `stop_thread` abandons a transfer in one of the turns it waits for. -/
def StopThreadAbandons (inputs : List StepInput) (m : Machine σ) : Prop :=
  m.isStartedThr = true ∧ Meets (TurnAbandons env) (threadStep env) inputs m.askedToStop

/-- `stop_poll` abandons a transfer in its loop. -/
def StopPollAbandons (inputs : List StepInput) (m : Machine σ) : Prop :=
  m.isStartedPoll = true ∧ LoopAbandons env inputs m.askedToStop

/-- **A call abandons a transfer**: it comes to a clean-up while one is in
flight. -/
def Abandons : Call → Machine σ → Prop
  | .startPoll, m => m.isStartedThr = false ∧ m.isStartedPoll = false ∧
      SetUpDenied env Flying { m with mutex := true }
  | .startThread, m => m.isStartedPoll = false ∧ m.isStartedThr = false ∧
      LaunchAbandons env { m with mutex := true }
  | .poll _, _ => False
  | .thread _, _ => False
  | .threadStep input, m => TurnAbandons env input m
  | .stopThread inputs, m => StopThreadAbandons env inputs m
  | .stopPoll inputs, m => StopPollAbandons env inputs m
  | .destroy inputs, m => StopThreadAbandons env inputs m ∨ StopPollAbandons env inputs m

variable {env} {m m' m₁ m₂ : Machine σ} {i : ℕ}

/-! ## The record of what is freed -/

/-- Where nothing is destroyed nothing is lost. -/
theorem lost_of_grows (h : Grows (·.what.spares) m.trace m'.trace) : m'.Lost ↔ m.Lost := by
  obtain ⟨new, hnew, hspares⟩ := h
  unfold Machine.Lost
  rw [hnew]
  constructor
  · rintro ⟨run, why, flags, hmem, hf⟩
    rcases List.mem_append.mp hmem with hold | hin
    · exact ⟨run, why, flags, hold, hf⟩
    · exact (hspares _ hin).elim
  · rintro ⟨run, why, flags, hmem, hf⟩
    exact ⟨run, why, flags, List.mem_append_left _ hmem, hf⟩

theorem Tracks.lost (h : Tracks m m') : m'.Lost ↔ m.Lost := lost_of_grows (Reads.grows h)

theorem Aside.lost (h : Aside m m') : m'.Lost ↔ m.Lost := by
  refine lost_of_grows (h.trace.mono fun o ho => ?_)
  obtain ⟨run, o⟩ := o
  cases o <;> first | exact ho.elim | trivial

theorem Aside.flying (h : Aside m m') : m'.flying = m.flying := by
  funext i
  unfold FtdiStreamState.flying
  rw [h.entryAt]

theorem not_flying_of_none (h : m.streamstates = none) : ¬ Flying m.flying := by
  rintro ⟨i, hi⟩
  simp [FtdiStreamState.flying, FtdiStreamState.entryAt, FtdiStreamState.entries, h] at hi

theorem Machine.Held.not_flying (h : m.Held) (hd : m.AllDisabled) : ¬ Flying m.flying := by
  rintro ⟨i, hi⟩
  rw [h.flying hd] at hi
  cases hi

/-- What is destroyed in flight. -/
theorem true_mem_flags {es : List FtdiStreamStaticState} (h : m.streamstates = some es) :
    true ∈ es.map (·.transfer.inFlight) ↔ Flying m.flying := by
  have hfly : ∀ i, m.flying i = (es[i]?).any (·.transfer.inFlight) := fun i => by
    rw [FtdiStreamState.flying, FtdiStreamState.entryAt, FtdiStreamState.entries, h,
      Option.getD_some]
  rw [List.mem_map]
  constructor
  · rintro ⟨e, he, hfl⟩
    obtain ⟨i, hi⟩ := List.getElem?_of_mem he
    exact ⟨i, by rw [hfly, hi, Option.any_some, hfl]⟩
  · rintro ⟨i, hi⟩
    rw [hfly, Option.any_eq_true] at hi
    obtain ⟨e, he, hfl⟩ := hi
    exact ⟨e, List.mem_of_getElem? he, hfl⟩

/-- **A clean-up loses** what is in flight. -/
theorem Cleaned.lost (h : Cleaned m m') : m'.Lost ↔ m.Lost ∨ Flying m.flying := by
  obtain ⟨run, t, ht, hm⟩ := h.trace
  have hclosed : Machine.Lost { m with trace := t } ↔ m.Lost := by
    refine lost_of_grows (ht.mono fun o ho => ?_)
    obtain ⟨run, o⟩ := o
    cases o <;> first | exact ho.elim | trivial
  rw [← hclosed]
  unfold Machine.Lost
  rw [hm]
  unfold Machine.freed
  cases hs : m.streamstates with
  | none =>
      have hnot := not_flying_of_none hs
      simp [hnot]
  | some es =>
      rw [← true_mem_flags hs]
      constructor
      · rintro ⟨run', why, flags, hmem, hf⟩
        rcases List.mem_append.mp hmem with hold | hnew
        · exact .inl ⟨run', why, flags, hold, hf⟩
        · obtain ⟨-, -, rfl⟩ : run' = run ∧ why = m.lastExit ∧
            flags = es.map (·.transfer.inFlight) := by simpa using hnew
          exact .inr hf
      · rintro (⟨run', why, flags, hold, hf⟩ | hf)
        · exact ⟨run', why, flags, List.mem_append_left _ hold, hf⟩
        · exact ⟨run, m.lastExit, _, List.mem_append_right _ List.mem_cons_self, hf⟩

/-! ## A step of the engine -/

theorem cancelEnabled_leaves (i : ℕ) (m : Machine σ) :
    Ends (cancelEnabled i) (fun b t => t.flying = m.flying ∧
      (b = false → t = m ∧ ∀ e, m.entryAt i = some e → e.enabled = false))
      (fun _ _ => False) m := by
  unfold cancelEnabled
  rw [ends_bind, ends_look, id_look]
  cases he : m.entryAt i with
  | none => exact ⟨rfl, fun _ => ⟨rfl, fun e h => by simp at h⟩⟩
  | some e =>
      simp only [ends_ite]
      refine ⟨fun hen => ?_, fun hen => ⟨rfl, fun _ => ⟨rfl, fun e' h => ?_⟩⟩⟩
      · unfold cancelEntry libusbCancelTransfer
        simp only [ends_bind, ends_look, id_look, he, if_pos hen, ends_observe, ends_alter]
        exact ⟨flying_modifyEntry (m.note (.cancelled i)) i fun _ => rfl, fun h => by cases h⟩
      · rw [Option.some_inj] at h
        simpa [h] using hen

/-- **Where no entry was still enabled**, none is, and nothing was done. -/
theorem anyOf_cancelEnabled_leaves : ∀ (is : List ℕ) (m : Machine σ),
    Ends (anyOf is cancelEnabled) (fun b t => t.flying = m.flying ∧
      (b = false → t = m ∧ ∀ i ∈ is, ∀ e, m.entryAt i = some e → e.enabled = false))
      (fun _ _ => False) m
  | [], m => ⟨rfl, fun _ => ⟨rfl, fun i hi => absurd hi List.not_mem_nil⟩⟩
  | i :: is, m => by
      rw [anyOf, ends_andThen]
      refine (cancelEnabled_leaves i m).mono ?_ fun _ _ hf => hf
      rintro b t ⟨hfly, hb⟩
      rw [ends_andThen]
      refine (anyOf_cancelEnabled_leaves is t).mono ?_ fun _ _ hf => hf
      rintro c u ⟨hfly', hc⟩
      refine ⟨hfly'.trans hfly, fun hbc => ?_⟩
      obtain ⟨rfl, rfl⟩ : b = false ∧ c = false := by simpa using hbc
      obtain ⟨rfl, hi⟩ := hb rfl
      obtain ⟨rfl, his⟩ := hc rfl
      refine ⟨rfl, fun j hj => ?_⟩
      rcases List.mem_cons.mp hj with rfl | hj
      · exact hi
      · exact his j hj


/-- **The end of a batch** gives up a transfer where the count is used up. -/
theorem endBatch_gives (hm : m.Held) :
    Ends (endBatch env) (fun more t => m.cancelCounter ≤ 0 ∧ StoppedFlying env m ↔
      more = false ∧ Flying t.flying) (fun _ _ => False) m := by
  refine (endBatch_ends m).mono (fun more t ht => ?_) fun _ _ hf => hf
  have hstopped : ∀ {u : Machine σ}, m.shouldRun = false →
      rescue (processResetStreamEntry env true) (fun _ => pure ()) m = (.ret (), u) →
      (StoppedFlying env m ↔ Flying u.flying) := fun hr hreset => by
    unfold StoppedFlying
    rw [after_iff hreset]
    exact and_iff_right hr
  cases ht with
  | running hr =>
      refine ⟨fun h => absurd (hr.symm.trans h.2.1) Bool.false_ne_true.symm, fun h => ?_⟩
      exact absurd h.1 Bool.false_ne_true.symm
  | @disabled u v hr hreset hany =>
      obtain ⟨-, hnone⟩ := ends_ret_of (anyOf_cancelEnabled_leaves u.inOrder u) hany
      obtain ⟨rfl, hoff⟩ := hnone rfl
      have hheld : v.Held :=
        inv_of_path (fun _ _ hst ht => hst.lives.held ht) (caughtReset_moves hreset) hm
      have hnot : ¬ Flying v.flying := hheld.not_flying fun i e he =>
        hoff i (Multimap.mem_inOrder.mpr (List.getElem?_eq_some_iff.mp he).1) e he
      rw [hstopped hr hreset]
      exact ⟨fun h => absurd h.2 hnot, fun h => absurd h.2 hnot⟩
  | @usedUp u v hr hreset hany hc =>
      obtain ⟨hfly, -⟩ := ends_ret_of (anyOf_cancelEnabled_leaves u.inOrder u) hany
      have hcount : v.cancelCounter = m.cancelCounter :=
        (moves_kept (wound_moves hr hreset hany)).cancelCounter
      rw [hstopped hr hreset, ← hfly, ← hcount]
      exact ⟨fun h => ⟨rfl, h.2⟩, fun h => ⟨hc, h.2⟩⟩
  | @goesOn u v hr hreset hany hc =>
      have hcount : v.cancelCounter = m.cancelCounter :=
        (moves_kept (wound_moves hr hreset hany)).cancelCounter
      rw [← hcount]
      exact ⟨fun h => absurd h.1 (by omega), fun h => absurd h.1 Bool.false_ne_true.symm⟩

/-- **`process_step` gives up a transfer** where it returns false with one in
flight, and not where it throws. -/
theorem processStep_gives (input : StepInput) (hmade : m.Made) (hm : m.Held) :
    Ends (processStep env input) (fun more t => GivesUp env m input ↔
      more = false ∧ Flying t.flying) (fun _ _ => ¬ GivesUp env m input) m := by
  have hsome := hmade.not_none
  unfold processStep leave
  rw [ends_bind, ends_alter, ends_bind, ends_look, id_look, if_neg hsome]
  cases input with
  | failed errno =>
      simp only [ends_bind, ends_observe, ends_cancel, ends_alter]
      refine ⟨fun h => ?_, fun h => .failed errno h.2⟩
      cases h with
      | failed _ hfly => exact ⟨rfl, hfly⟩
  | ready events =>
      have hwait : epollWait { m with lastExit := .running } events = epollWait m events := rfl
      dsimp only
      rw [hwait, ends_ite]
      -- a batch is the second of the two ways
      have hiff : GivesUp env m (.ready events) ↔ epollWait m events ≠ [] ∧ m.cancelCounter ≤ 0 ∧
          After (each (epollWait m events) (handleEvent env)) (fun _ t => StoppedFlying env t)
            { m with lastExit := .running } := by
        refine ⟨fun h => ?_, fun h => .counted h.1 h.2.1 h.2.2⟩
        cases h with
        | counted h₁ h₂ h₃ => exact ⟨h₁, h₂, h₃⟩
      rw [hiff]
      refine ⟨fun hempty => ?_, fun hempty => ?_⟩
      · refine ⟨fun h => absurd (List.isEmpty_iff.mp hempty) h.1, fun h => ?_⟩
        exact absurd h.1 Bool.false_ne_true.symm
      have hsome : epollWait m events ≠ [] := fun h => hempty (List.isEmpty_iff.mpr h)
      rw [ends_rescue]
      unfold processBatch
      rw [ends_bind]
      have hsock : ∀ ev ∈ epollWait m events, ev.sock ∈ m.epollSet :=
        fun ev hev => epollWait_mem hev
      have hbegin : Machine.Held { m with lastExit := .running } := hm.of_entries fun _ => rfl
      refine ((ends_self.and (handleEvents_follows (m := { m with lastExit := .running })
        hsock)).and (handleEvents_counter hsock)).mono ?_ ?_
      -- the handlers leave the count alone, so it is the one before the batch
      · rintro _ t ⟨⟨hrun, hp⟩, hcount⟩
        have hheld : t.Held := inv_of_path (fun _ _ hst ht => hst.lives.held ht) hp hbegin
        refine (endBatch_gives hheld).mono (fun more u hu => ?_) fun _ _ hf => hf.elim
        rw [after_iff hrun, ← hu, hcount]
        exact and_iff_right hsome
      -- what throws leaves no state in which the batch has been handled
      · rintro cause t ⟨⟨hrun, -⟩, -⟩
        simp only [ends_bind, ends_cancel, ends_alter, ends_observe, ends_raise]
        rintro ⟨-, -, _, u, hret, -⟩
        rw [hrun] at hret
        cases hret

/-! ## Every call -/

/-- **What an object has between its calls.** -/
structure Sits (m : Machine σ) : Prop where
  held : m.Held
  furnished : m.Furnished
  standing : m.outline.Standing

theorem steps_lost (h : ReflTransGen (Step env) m m') : m'.Lost ↔ m.Lost :=
  inv_of_path (I := fun t => t.Lost ↔ m.Lost) (fun _ _ hst ht => hst.tracks.lost.trans ht) h Iff.rfl

/-- Nothing is lost by `process_step` itself. -/
theorem processStep_lost (input : StepInput) (m : Machine σ) :
    Ends (processStep env input) (fun _ t => t.Lost ↔ m.Lost) (fun _ t => t.Lost ↔ m.Lost) m := by
  refine Ends.mono (processStep_follows input m) (fun _ _ ht => steps_lost ht) ?_
  rintro _ t ⟨u, hu, rfl⟩
  exact steps_lost hu

theorem processCleanup_lost (m : Machine σ) :
    Ends processCleanup (fun _ t => t.Lost ↔ m.Lost ∨ Flying m.flying) (fun _ _ => False) m :=
  (processCleanup_ends m).mono (fun _ _ h => h.lost) fun _ _ hf => hf

theorem endThread_lost (m : Machine σ) :
    Ends endThread (fun _ t => t.Lost ↔ m.Lost ∨ Flying m.flying) (fun _ _ => False) m := by
  unfold endThread
  rw [ends_bind]
  exact (processCleanup_lost m).mono (fun _ _ h => h) fun _ _ hf => hf

theorem Sits.made (h : Sits m) (halive : m.threadAlive = true) : m.Made :=
  (h.standing.of_alive halive).2.2.made

/-- **A turn of the thread** loses what it abandons. -/
theorem threadStep_lost (input : StepInput) (h : Sits m) :
    Ends (threadStep env input) (fun _ t => t.Lost ↔ m.Lost ∨ TurnAbandons env input m)
      (fun _ _ => False) m := by
  unfold threadStep
  rw [ends_bind, ends_look, id_look, ends_ite]
  refine ⟨fun hdead => ?_, fun halive => ?_⟩
  · refine (or_iff_left fun hturn => ?_).symm
    exact Bool.false_ne_true (hdead.symm.trans hturn.1)
  have halive : m.threadAlive = true := Bool.not_eq_false _ ▸ halive
  have hiff : TurnAbandons env input m ↔ GivesUp env m input ∨ StepRefused env Flying input m :=
    and_iff_right halive
  rw [hiff, ends_rescue, ends_bind]
  refine (((processStep_gives input (h.made halive) h.held).and (processStep_throws (F := Flying)
    input (h.made halive) h.furnished)).and (processStep_lost input m)).mono ?_ ?_
  · rintro more t ⟨⟨hgives, hnot⟩, hlost⟩
    rw [hgives, or_iff_left hnot, ends_ite]
    refine ⟨fun hmore => ?_, fun hover => ?_⟩
    · show t.Lost ↔ _
      rw [hlost, hmore]
      simp
    · refine (endThread_lost t).mono (fun _ u hu => ?_) fun _ _ hf => hf.elim
      rw [hu, hlost, Bool.eq_false_iff.mpr hover, eq_self_iff_true, true_and]
  · rintro cause t ⟨⟨hnot, hrefused⟩, hlost⟩
    have hrefused : StepRefused env Flying input m ↔ Flying t.flying := hrefused
    rw [or_iff_right hnot, hrefused, ends_bind, ends_error]
    have haside : Aside t (t.errored env (.processLoop cause)) := errored_aside t _
    refine (endThread_lost _).mono (fun _ u hu => ?_) fun _ _ hf => hf
    rw [hu, haside.lost, haside.flying, hlost]

theorem Sits.aside (h : Sits m) (ha : Aside m m') (hs : SameStanding m.outline m'.outline) :
    Sits m' :=
  ⟨h.held.of_entries ha.entryAt, h.furnished.same ha.entryAt ha.streams, hs.standing h.standing⟩

theorem askedToStop_aside (m : Machine σ) : Aside m m.askedToStop :=
  ⟨rfl, rfl, .one trivial, .inl rfl⟩

theorem Sits.asked (h : Sits m) : Sits m.askedToStop :=
  h.aside (askedToStop_aside m) ⟨⟨rfl, rfl, rfl⟩, ⟨rfl, rfl, rfl, rfl⟩⟩

theorem threadStep_sits (input : StepInput) (h : Sits m) :
    Ends (threadStep env input) (fun _ t => Sits t ∧ t.isStartedThr = m.isStartedThr)
      (fun _ _ => False) m := by
  refine (((held_lasting.threadStep input m h.held).and
    (furnished_lasting.threadStep input m h.furnished)).and
      (threadStep_stands input h.standing)).mono ?_ fun _ _ hf => hf.2
  rintro _ t ⟨⟨hheld, hfurnished⟩, hstanding, hthr⟩
  exact ⟨⟨hheld, hfurnished, hstanding⟩, hthr⟩

/-- **`stop_thread`** loses what the turns it waits for abandon: when the
thread has ended it has cleaned up. -/
theorem stopThread_lost (inputs : List StepInput) (h : Sits m) :
    Ends (stopThread env inputs) (fun _ t => t.Lost ↔ m.Lost ∨ StopThreadAbandons env inputs m)
      (fun _ _ => True) m := by
  unfold stopThread withMutex
  rw [ends_bind, ends_alter, ends_leaving, ends_bind, ends_look, id_look, ends_ite]
  refine ⟨fun hthr => ?_, fun hthr => (or_iff_left fun hstop => hthr hstop.1).symm⟩
  have hthr : m.isStartedThr = true := hthr
  have hask : askStop { m with mutex := true } = (.ret (), m.askedToStop) := rfl
  have hiff : StopThreadAbandons env inputs m ↔
      Meets (TurnAbandons env) (threadStep env) inputs m.askedToStop := and_iff_right hthr
  rw [ends_bind]
  refine ends_of_ret hask ?_
  -- one turn after another, each of which loses what it abandons
  have hloop := ends_each_meets (B := TurnAbandons env) (f := threadStep env)
    (I := fun t => Sits t ∧ t.isStartedThr = true) (R := Machine.Lost) (l := inputs)
    ⟨h.asked, hthr⟩ fun input t ht => ((threadStep_lost input ht.1).and
      (threadStep_sits input ht.1)).mono
        (fun _ u hu => ⟨⟨hu.2.1, hu.2.2.trans ht.2⟩, hu.1⟩) fun _ _ _ => trivial
  rw [ends_bind]
  unfold joinThread
  rw [ends_bind]
  refine hloop.mono ?_ fun _ _ _ => trivial
  rintro _ t ⟨⟨ht, hthrt⟩, hlost⟩
  rw [ends_bind, ends_look, id_look, ends_ite]
  refine ⟨fun _ => trivial, fun hdead => ?_⟩
  -- the join is over when the thread has ended, which has cleaned up
  have hdead : t.threadAlive = false := Bool.eq_false_iff.mpr hdead
  have hnone : t.streamstates = none := ((ht.standing.of_thread hthrt).2 hdead).streamstates
  show Ends (_ >>= _) _ _ t
  rw [ends_bind]
  refine (processCleanup_lost t).mono (fun _ u hu => ?_) fun _ _ _ => trivial
  show u.Lost ↔ _
  rw [hu, or_iff_left (not_flying_of_none hnone), hlost, (askedToStop_aside m).lost, hiff]

/-- **The loop of `stop_poll`** leaves in flight what it abandons. -/
theorem stepUntilDone_lost : ∀ (inputs : List StepInput) {m : Machine σ}, m.Made → m.Held →
    Ends (stepUntilDone env inputs)
      (fun _ t => (t.Lost ↔ m.Lost) ∧ (LoopAbandons env inputs m ↔ Flying t.flying))
      (fun _ t => (t.Lost ↔ m.Lost) ∧ ¬ LoopAbandons env inputs m) m
  | [], _, _, _ => trivial
  | input :: inputs, m, hmade, hm => by
      unfold stepUntilDone
      rw [ends_bind]
      refine (((ends_self.and (processStep_gives input hmade hm)).and
        (processStep_lost input m)).and (held_lasting.processStep input m hm)).mono ?_ ?_
      · rintro more t ⟨⟨⟨hrun, hgives⟩, hlost⟩, ht⟩
        -- the condition of the loop, read after this step
        have hstep := after_iff (R := fun more u => more = true ∧ LoopAbandons env inputs u) hrun
        have hloop : LoopAbandons env (input :: inputs) m ↔
            (more = false ∧ Flying t.flying) ∨ (more = true ∧ LoopAbandons env inputs t) := by
          rw [← hgives, ← hstep]
          refine or_congr_right ⟨?_, ?_⟩
          · exact fun ⟨u, hu, h⟩ => ⟨true, u, hu, rfl, h⟩
          · rintro ⟨_, u, hu, rfl, h⟩
            exact ⟨u, hu, h⟩
        rw [hloop, ends_ite]
        have hmadet : t.Made := ((processStep_beats input m).holdings hrun).made.trans hmade
        refine ⟨fun hmore => ?_, fun hover => ?_⟩
        · subst hmore
          refine (stepUntilDone_lost inputs hmadet ht).mono ?_ ?_
          · exact fun _ u hu => ⟨hu.1.trans hlost, by simp [hu.2]⟩
          · exact fun _ u hu => ⟨hu.1.trans hlost, by simp [hu.2]⟩
        · obtain rfl : more = false := Bool.eq_false_iff.mpr hover
          exact ⟨hlost, by simp⟩
      · rintro cause t ⟨⟨⟨hrun, hnot⟩, hlost⟩, -⟩
        refine ⟨hlost, fun hloop => ?_⟩
        rcases hloop with hgives | ⟨u, hu, -⟩
        · exact hnot hgives
        · rw [hrun] at hu
          cases hu

/-- **`stop_poll`** loses what its loop abandons. -/
theorem stopPoll_lost (inputs : List StepInput) (h : Sits m) :
    Ends (stopPoll env inputs) (fun _ t => t.Lost ↔ m.Lost ∨ StopPollAbandons env inputs m)
      (fun _ t => t.Lost ↔ m.Lost ∨ StopPollAbandons env inputs m) m := by
  unfold stopPoll withMutex
  rw [ends_bind, ends_alter, ends_leaving, ends_bind, ends_look, id_look, ends_ite]
  refine ⟨fun hpoll => ?_, fun hpoll => (or_iff_left fun hstop => hpoll hstop.1).symm⟩
  have hpoll : m.isStartedPoll = true := hpoll
  have hmade : m.askedToStop.Made := (h.standing.of_poll hpoll).2.2.made
  have hask : askStop { m with mutex := true } = (.ret (), m.askedToStop) := rfl
  have hiff : StopPollAbandons env inputs m ↔ LoopAbandons env inputs m.askedToStop :=
    and_iff_right hpoll
  rw [hiff, ends_bind]
  refine ends_of_ret hask ?_
  rw [ends_bind]
  refine (stepUntilDone_lost inputs hmade h.asked.held).mono ?_ ?_
  · rintro _ t ⟨hlost, hfly⟩
    rw [ends_bind]
    refine (processCleanup_lost t).mono (fun _ u hu => ?_) fun _ _ hf => hf.elim
    show u.Lost ↔ _
    rw [hu, hlost, hfly, (askedToStop_aside m).lost]
  · rintro cause t ⟨hlost, hnot⟩
    show t.Lost ↔ _
    rw [or_iff_left hnot, hlost, (askedToStop_aside m).lost]

/-- **`process_init`** loses what was submitted before an entry was denied
something. -/
theorem processInit_lost (hnone : m.streamstates = none) :
    Ends (processInit env) (fun _ t => (t.Lost ↔ m.Lost) ∧ ¬ SetUpDenied env Flying m)
      (fun _ t => (t.Lost ↔ m.Lost ∨ SetUpDenied env Flying m) ∧ t.streamstates = none) m := by
  have hbegun : ∀ (w : σ) now {t : Machine σ},
      ReflTransGen (Setup env) ((m.withWorld w).begun now) t → (t.Lost ↔ m.Lost) := by
    intro w now t ht
    have hfirst : ((m.withWorld w).begun now).Lost ↔ m.Lost := lost_of_grows (.one trivial)
    exact inv_of_path (I := fun t => t.Lost ↔ m.Lost) (fun _ _ hst ht => hst.tracks.lost.trans ht)
      ht hfirst
  have hnot : ¬ Flying fun _ => false := fun ⟨_, h⟩ => Bool.false_ne_true h
  unfold processInit
  rw [ends_bind, ends_look, id_look, if_neg (by simp [hnone]), ends_rescue]
  refine ((initBody_ends m).and (initBody_throws hnot m)).mono ?_ ?_
  · rintro _ t ⟨⟨w, now, -, hp, -⟩, hdenied⟩
    exact ⟨hbegun w now hp, hdenied⟩
  · rintro cause t ⟨⟨w, now, u, -, hp, hb⟩, hdenied⟩
    have hdenied : SetUpDenied env Flying m ↔ Flying t.flying := hdenied
    rw [ends_bind]
    refine (processCleanup_ends t).mono (fun _ v hv => ?_) fun _ _ hf => hf.elim
    have haside : Aside v (v.errored env (.processInit cause)) := errored_aside v _
    rw [ends_bind, ends_error]
    refine ⟨?_, haside.streamstates.trans hv.streamstates⟩
    rw [haside.lost, hv.lost, hb.tracks.lost, hbegun w now hp, hdenied]

theorem startFailed_lost {f : Machine σ → Machine σ} (cause : Exn)
    (hclear : ∀ m, (f m).trace = m.trace) (m : Machine σ) :
    Ends (startFailed f cause) (fun _ _ => False)
      (fun _ t => t.Lost ↔ m.Lost ∨ Flying m.flying) m := by
  unfold startFailed
  rw [ends_bind]
  refine (processCleanup_lost m).mono (fun _ t ht => ?_) fun _ _ hf => hf.elim
  show (f t).Lost ↔ _
  rw [← ht, Machine.Lost, hclear, Machine.Lost]

theorem startPoll_lost (h : Sits m) :
    Ends (startPoll env) (fun _ t => t.Lost ↔ m.Lost ∨ Abandons env .startPoll m)
      (fun _ t => t.Lost ↔ m.Lost ∨ Abandons env .startPoll m) m := by
  unfold startPoll withMutex
  rw [ends_bind, ends_alter, ends_leaving, ends_bind, ends_look, id_look, ends_ite]
  refine ⟨fun hthr => (or_iff_left fun hstart => ?_).symm, fun hthr => ?_⟩
  · exact Bool.false_ne_true (hstart.1.symm.trans hthr)
  rw [ends_ite]
  refine ⟨fun hpoll => (or_iff_left fun hstart => ?_).symm, fun hpoll => ?_⟩
  · exact Bool.false_ne_true (hstart.2.1.symm.trans hpoll)
  have hthr : m.isStartedThr = false := Bool.eq_false_iff.mpr hthr
  have hpoll : m.isStartedPoll = false := Bool.eq_false_iff.mpr hpoll
  have hnone : m.streamstates = none := (h.standing.of_neither hthr hpoll).2.streamstates
  have hiff : Abandons env .startPoll m ↔ SetUpDenied env Flying { m with mutex := true } :=
    ⟨fun h => h.2.2, fun h => ⟨hthr, hpoll, h⟩⟩
  rw [hiff, ends_rescue]
  unfold setUpPoll
  rw [ends_bind]
  refine (processInit_lost (m := { m with mutex := true }) hnone).mono ?_ ?_
  · exact fun _ t ht => ht.1.trans (or_iff_left ht.2).symm
  · rintro cause t ⟨hlost, hnonet⟩
    refine (startFailed_lost
      (f := fun m => { m with isStartedPoll := false }) cause (fun _ => rfl) t).mono
        (fun _ _ hf => hf.elim) fun _ u hu => ?_
    exact hu.trans ((or_iff_left (not_flying_of_none hnonet)).trans hlost)

/-- **The construction of the thread**, after the entries were made. -/
theorem launchThread_lost (hmade : m.Made) :
    Ends (launchThread env)
      (fun _ t => (t.Lost ↔ m.Lost) ∧ (env.threadStart m.world).1 = true)
      (fun _ t => (t.Lost ↔ m.Lost) ∧ t.flying = m.flying ∧ (env.threadStart m.world).1 = false)
      m := by
  have hsome := hmade.not_none
  unfold launchThread leave
  rw [ends_bind, ends_alter, ends_bind, ends_askWorld, ends_ite]
  refine ⟨fun hfail => ⟨Iff.rfl, rfl, hfail⟩, fun hstart => ?_⟩
  unfold beginThread
  rw [ends_bind, ends_alter, ends_bind, ends_alter, ends_bind, ends_look, ends_ite]
  exact ⟨fun h => absurd h hsome, fun _ => ⟨Iff.rfl, Bool.not_eq_false _ ▸ hstart⟩⟩

theorem startThread_lost (h : Sits m) :
    Ends (startThread env) (fun _ t => t.Lost ↔ m.Lost ∨ Abandons env .startThread m)
      (fun _ t => t.Lost ↔ m.Lost ∨ Abandons env .startThread m) m := by
  unfold startThread withMutex
  rw [ends_bind, ends_alter, ends_leaving, ends_bind, ends_look, id_look, ends_ite]
  refine ⟨fun hpoll => (or_iff_left fun hstart => ?_).symm, fun hpoll => ?_⟩
  · exact Bool.false_ne_true (hstart.1.symm.trans hpoll)
  rw [ends_ite]
  refine ⟨fun hthr => (or_iff_left fun hstart => ?_).symm, fun hthr => ?_⟩
  · exact Bool.false_ne_true (hstart.2.1.symm.trans hthr)
  have hthr : m.isStartedThr = false := Bool.eq_false_iff.mpr hthr
  have hpoll : m.isStartedPoll = false := Bool.eq_false_iff.mpr hpoll
  have hnone : m.streamstates = none := (h.standing.of_neither hthr hpoll).2.streamstates
  have hiff : Abandons env .startThread m ↔ LaunchAbandons env { m with mutex := true } :=
    ⟨fun h => h.2.2, fun h => ⟨hpoll, hthr, h⟩⟩
  rw [hiff, ends_rescue]
  unfold setUpThread LaunchAbandons
  rw [ends_bind]
  refine ((ends_self.and (processInit_lost (m := { m with mutex := true }) hnone)).and
    (processInit_stands _)).mono ?_ ?_
  -- the entries are there, and the thread is started or not
  · rintro _ t ⟨⟨hrun, hlost, hnot⟩, hopen, -⟩
    rw [after_iff hrun, or_iff_right hnot]
    refine (launchThread_lost hopen.made).mono ?_ ?_
    · rintro _ u ⟨hu, hstarted⟩
      refine (hu.trans hlost).trans (or_iff_left fun hfail => ?_).symm
      exact Bool.false_ne_true (hfail.1.symm.trans hstarted)
    · rintro cause u ⟨hu, hfly, hfail⟩
      refine (startFailed_lost
        (f := fun m => { m with isStartedThr := false }) cause (fun _ => rfl) u).mono
          (fun _ _ hf => hf.elim) fun _ v hv => ?_
      rw [and_iff_right hfail, ← hfly]
      exact hv.trans (or_congr_left (hu.trans hlost))
  -- an entry was denied something: `process_init` has cleaned up after itself
  · rintro cause t ⟨⟨hrun, hlost, hnonet⟩, -⟩
    have hnot : ¬ After (processInit env) (fun _ t => (env.threadStart t.world).1 = false ∧
        Flying t.flying) { m with mutex := true } := by
      rintro ⟨_, u, hret, -⟩
      rw [hrun] at hret
      cases hret
    rw [or_iff_left hnot]
    refine (startFailed_lost
      (f := fun m => { m with isStartedThr := false }) cause (fun _ => rfl) t).mono
        (fun _ _ hf => hf.elim) fun _ u hu => ?_
    exact hu.trans ((or_iff_left (not_flying_of_none hnonet)).trans hlost)

/-- What a destructor does last frees nothing: there is nothing left. -/
theorem destroyState_lost (h : m.outline.Bare) :
    Ends destroyState (fun _ t => t.Lost ↔ m.Lost) (fun _ _ => False) m := by
  refine (destroyState_idle h).mono ?_ fun _ _ hf => hf
  rintro _ t rfl
  split
  · exact lost_of_grows (m := m) (.one trivial)
  · exact Iff.rfl

/-- **A destructor** loses what the stop of its mode does. -/
theorem destroy_lost (inputs : List StepInput) (h : Sits m) :
    Ends (destroy env inputs) (fun _ t => t.Lost ↔ m.Lost ∨ Abandons env (.destroy inputs) m)
      (fun _ t => t.Lost ↔ m.Lost ∨ Abandons env (.destroy inputs) m) m := by
  unfold destroy
  rw [ends_bind]
  cases hpoll : m.isStartedPoll with
  | true =>
      -- in poll mode there is no thread to stop
      have hthr : m.isStartedThr = false := (h.standing.of_poll hpoll).1
      have hiff : Abandons env (.destroy inputs) m ↔ StopPollAbandons env inputs m :=
        or_iff_right fun hstop => Bool.false_ne_true (hthr.symm.trans hstop.1)
      refine (stopThread_skips inputs hthr).mono ?_ fun _ _ hf => hf.elim
      rintro _ t rfl
      have ht : Sits { m with mutex := false } :=
        h.aside ⟨rfl, rfl, .refl, .inl rfl⟩ ⟨⟨rfl, rfl, rfl⟩, ⟨rfl, rfl, rfl, rfl⟩⟩
      rw [hiff, ends_bind]
      refine ((stopPoll_lost inputs ht).and (stopPoll_stands inputs ht.standing)).mono ?_
        fun _ _ hu => hu.1
      rintro _ u ⟨hlost, hu, hthru, hpollu⟩
      refine (destroyState_lost (hu.of_neither (hthru.trans hthr) hpollu).2).mono
        (fun _ v hv => hv.trans hlost) fun _ _ hf => hf.elim
  | false =>
      have hiff : Abandons env (.destroy inputs) m ↔ StopThreadAbandons env inputs m :=
        or_iff_left fun hstop => Bool.false_ne_true (hpoll.symm.trans hstop.1)
      rw [hiff]
      refine ((stopThread_lost inputs h).and (stopThread_stands inputs h.standing)).mono ?_
        fun _ _ hf => hf.2.elim
      rintro _ t ⟨hlost, ht, hthr, hpollt⟩
      rw [ends_bind]
      refine (stopPoll_skips inputs (hpollt.trans hpoll)).mono ?_ fun _ _ hf => hf.elim
      rintro _ u rfl
      have hbare : (Machine.outline { t with mutex := false }).Bare :=
        (ht.of_neither hthr (hpollt.trans hpoll)).2.same ⟨rfl, rfl, rfl, rfl⟩
      exact (destroyState_lost hbare).mono (fun _ v hv => hv.trans hlost) fun _ _ hf => hf.elim

/-- **Every call** loses what it abandons. -/
theorem call_lost (c : Call) (h : Sits m) :
    Ends (call env c) (fun _ t => t.Lost ↔ m.Lost ∨ Abandons env c m) (fun _ _ => False) m := by
  cases c with
  | startPoll => exact ends_rescue.mpr (startPoll_lost h)
  | poll input =>
      have hpoll : Ends (poll env input) (fun _ t => t.Lost ↔ m.Lost) (fun _ t => t.Lost ↔ m.Lost)
          m := by
        unfold poll
        rw [ends_bind, ends_look, id_look, ends_ite]
        exact ⟨fun _ => processStep_lost input m, fun _ => Iff.rfl⟩
      refine ends_rescue.mpr (ends_bind.mpr (hpoll.mono (fun _ t ht => ?_) fun _ t ht => ?_))
      · exact ht.trans (or_iff_left id).symm
      · exact ht.trans (or_iff_left id).symm
  | stopPoll inputs => exact ends_rescue.mpr (stopPoll_lost inputs h)
  | startThread => exact ends_rescue.mpr (startThread_lost h)
  | threadStep input => exact threadStep_lost input h
  | stopThread inputs =>
      exact ends_rescue.mpr (((stopThread_lost inputs h).and
        (stopThread_stands inputs h.standing)).mono (fun _ _ hu => hu.1) fun _ _ hf => hf.2.elim)
  | thread a =>
      refine (threadAction_ends a m).mono (fun _ t hp => ?_) fun _ _ hf => hf
      have ht : t.Lost ↔ m.Lost := inv_of_path (I := fun t => t.Lost ↔ m.Lost)
        (fun _ _ hst ht => hst.aside.lost.trans ht) hp Iff.rfl
      exact ht.trans (or_iff_left id).symm
  | destroy inputs => exact ends_rescue.mpr (destroy_lost inputs h)

/-! ## Every life -/

theorem New.sits {m₀ : Machine σ} (h : New m₀) : Sits m₀ :=
  ⟨.of_none h.streamstates, .of_none h.streamstates, h.standing⟩

theorem call_sits (c : Call) (h : Sits m) :
    Ends (call env c) (fun _ t => Sits t) (fun _ _ => True) m :=
  (((held_lasting.call c m h.held).and (furnished_lasting.call c m h.furnished)).and
    (call_stands c h.standing)).mono (fun _ _ ht => ⟨ht.1.1, ht.1.2, ht.2⟩) fun _ _ _ => trivial

/-- **No transfer is freed in flight exactly where no call abandons one.**
Over the whole life of an object, in poll mode and in thread mode, with any
world and any other threads: on the way out on which `process_step` finds
every entry disabled no transfer is in flight, and every other way to
`process_cleanup` frees what is in flight when it is taken. -/
theorem freed_idle_iff (env : Env σ) (calls : List Call) (m₀ m : Machine σ) (hnew : New m₀)
    (h : lifeRun env calls m₀ = (.ret (), m)) :
    (∀ run why flags, ⟨run, .destroyed why flags⟩ ∈ m.trace → ∀ f ∈ flags, f = false) ↔
      ¬ Meets (Abandons env) (call env) calls m₀ := by
  -- from call to call, by what each one loses
  have hrun := ends_each_meets (B := Abandons env) (f := call env) (I := Sits) (R := Machine.Lost)
    (l := calls) hnew.sits fun c t ht =>
      ((call_sits c ht).and (call_lost c ht)).mono (fun _ _ hu => hu) fun _ _ _ => trivial
  obtain ⟨-, hlost⟩ := ends_ret_of hrun h
  have hnone : ¬ m₀.Lost := by
    rintro ⟨run, why, flags, hmem, -⟩
    rw [hnew.trace] at hmem
    exact List.not_mem_nil hmem
  rw [← (hlost.trans (or_iff_right hnone))]
  constructor
  · rintro hall ⟨run, why, flags, hmem, hf⟩
    exact absurd (hall run why flags hmem true hf) Bool.false_ne_true.symm
  · intro hnot run why flags hmem f hf
    rw [Bool.eq_false_iff]
    rintro rfl
    exact hnot ⟨run, why, flags, hmem, hf⟩

/-- Whether what is seen frees nothing in flight. -/
def Obs.freesIdle : Obs → Bool
  | .destroyed _ flags => flags.all (· = false)
  | _ => true

/-- A life of one stream that is stopped in order, the device having
nothing more to say. -/
theorem freed_idle_iff_sample :
    ∃ m, lifeRun steady [.startPoll, .stopPoll [.ready [⟨3, [], [], 0, none, []⟩],
        .ready [⟨5, [], [.completed ⟨0, .cancelled, [], 0⟩], 0, none, []⟩]]]
        (constructed [sampleStream 64 1 0] ⟨64, 4096⟩ 4) = (.ret (), m) ∧
      ¬ Meets (Abandons steady) (call steady) [.startPoll, .stopPoll
        [.ready [⟨3, [], [], 0, none, []⟩],
          .ready [⟨5, [], [.completed ⟨0, .cancelled, [], 0⟩], 0, none, []⟩]]]
        (constructed [sampleStream 64 1 0] ⟨64, 4096⟩ 4) := by
  have hnew : New (constructed [sampleStream 64 1 0] ⟨64, 4096⟩ 4) :=
    constructed_new (by decide +kernel)
  obtain ⟨m, hm, hfreed⟩ := exists_life (P := fun m => m.trace.all (·.what.freesIdle) = true)
    steady [.startPoll, .stopPoll [.ready [⟨3, [], [], 0, none, []⟩],
      .ready [⟨5, [], [.completed ⟨0, .cancelled, [], 0⟩], 0, none, []⟩]]]
    (constructed [sampleStream 64 1 0] ⟨64, 4096⟩ 4) (by decide +kernel) (by decide +kernel)
  refine ⟨m, hm, (freed_idle_iff steady _ _ m hnew hm).mp fun run why flags hmem f hf => ?_⟩
  have hall := List.all_eq_true.mp hfreed _ hmem
  simpa using List.all_eq_true.mp hall f hf

/-- libusb takes the first transfer and refuses the second. -/
def refusing : Env ℕ := { steady with submitTransfer := fun i w => (if i = 0 then 0 else -1, w) }

/-- No thread can be started. -/
def threadless : Env ℕ := { steady with threadStart := fun w => (false, w) }

/-- Some life of some object frees a transfer in flight on this way out. -/
def FreesInFlight (why : Exit) : Prop :=
  ∃ (env : Env ℕ) (calls : List Call) (m₀ m : Machine ℕ), Idle m₀ ∧
    lifeRun env calls m₀ = (.ret (), m) ∧
    ∃ flags, ⟨false, .destroyed why flags⟩ ∈ m.trace ∧ true ∈ flags

/-- A life that can be run, and what it frees. -/
theorem freesInFlight_of_run {why : Exit} {m₀ : Machine ℕ} (flags : List Bool) (env : Env ℕ)
    (calls : List Call) (hidle : Idle m₀) (hret : (lifeRun env calls m₀).1 = .ret ())
    (hmem : ⟨false, .destroyed why flags⟩ ∈ (lifeRun env calls m₀).2.trace) (hf : true ∈ flags) :
    FreesInFlight why :=
  ⟨env, calls, m₀, _, hidle, Prod.ext hret rfl, flags, hmem, hf⟩

/-- **A transfer is freed in flight** on every other way out: when
`process_init` fails after a transfer was submitted, when the thread
cannot be started, when `epoll_wait` is interrupted, when an exception
leaves the loop, and when `cancel_counter` is used up by a notice and
three ticks of the timer before libusb has answered. -/
theorem freed_in_flight :
    FreesInFlight .initFailed ∧ FreesInFlight .threadFailed ∧ FreesInFlight .epollFailed ∧
      FreesInFlight .exception ∧ FreesInFlight .counterUsedUp := by
  have h₁ : Idle (constructed [sampleStream 64 1 0] ⟨64, 4096⟩ 4) :=
    constructed_idle (by decide +kernel)
  have h₂ : Idle (constructed [sampleStream 64 2 0] ⟨64, 4096⟩ 4) :=
    constructed_idle (by decide +kernel)
  refine ⟨?_, ?_, ?_, ?_, ?_⟩
  · exact freesInFlight_of_run [true, false] refusing [.startPoll] h₂
      (by decide +kernel) (by decide +kernel) (by decide)
  · exact freesInFlight_of_run [true] threadless [.startThread] h₁
      (by decide +kernel) (by decide +kernel) (by decide)
  · exact freesInFlight_of_run [true] steady
      [.startThread, .threadStep (.failed .EINTR)] h₁
      (by decide +kernel) (by decide +kernel) (by decide)
  · exact freesInFlight_of_run [true] steady
      [.startThread, .threadStep (.ready [⟨5, [], [], -1, none, []⟩])] h₁
      (by decide +kernel) (by decide +kernel) (by decide)
  · exact freesInFlight_of_run [true] steady
      [.startPoll, .stopPoll [.ready [⟨3, [], [], 0, none, []⟩],
        .ready [⟨6, [], [], 0, none, []⟩], .ready [⟨6, [], [], 0, none, []⟩],
        .ready [⟨6, [], [], 0, none, []⟩]]] h₁
      (by decide +kernel) (by decide +kernel) (by decide)

end Stream

end SgFtdi
