import SgFtdi.Stream.Moves.Calls

/-!
# Stream — an object between its calls

Between two calls an object stands in one of four ways: idle, started in
poll mode, started with its thread running, or started with its thread at
an end. What it holds goes with it: everything in the second and third,
nothing in the others. Every call leads from one to one of them, whichever
way it comes back.
-/

namespace SgFtdi

namespace Stream

open Prog Relation

variable {σ : Type} {env : Env σ} {m m' : Machine σ} {b : Phase} {c c' : Outline}

/-- **Nothing is there**: no entries, and no descriptor open. -/
structure Outline.Bare (c : Outline) : Prop where
  made : c.made = false
  epollFd : c.epollFd < 0
  usbEpollFd : c.usbEpollFd < 0
  timerFd : c.timerFd < 0

/-- **How an object stands between its calls.** -/
inductive Outline.Standing (c : Outline) : Prop
  | idle : c.isStartedThr = false → c.isStartedPoll = false → c.threadAlive = false →
      c.Bare → Standing c
  | polled : c.isStartedThr = false → c.isStartedPoll = true → c.threadAlive = false →
      c.Open → Standing c
  | running : c.isStartedThr = true → c.isStartedPoll = false → c.threadAlive = true →
      c.Open → Standing c
  | ended : c.isStartedThr = true → c.isStartedPoll = false → c.threadAlive = false →
      c.Bare → Standing c

/-- In poll mode everything is open, and there is no thread. -/
theorem Outline.Standing.of_poll (h : c.Standing) (hpoll : c.isStartedPoll = true) :
    c.isStartedThr = false ∧ c.threadAlive = false ∧ c.Open := by
  cases h with
  | idle _ h _ _ => exact absurd (h.symm.trans hpoll) Bool.false_ne_true
  | polled h₁ _ h₂ h₃ => exact ⟨h₁, h₂, h₃⟩
  | running _ h _ _ => exact absurd (h.symm.trans hpoll) Bool.false_ne_true
  | ended _ h _ _ => exact absurd (h.symm.trans hpoll) Bool.false_ne_true

/-- In thread mode nothing is there once the thread has ended. -/
theorem Outline.Standing.of_thread (h : c.Standing) (hthr : c.isStartedThr = true) :
    c.isStartedPoll = false ∧ (c.threadAlive = false → c.Bare) := by
  cases h with
  | idle h _ _ _ => exact absurd (h.symm.trans hthr) Bool.false_ne_true
  | polled h _ _ _ => exact absurd (h.symm.trans hthr) Bool.false_ne_true
  | running _ h₁ h₂ _ =>
      exact ⟨h₁, fun hdead => absurd (hdead.symm.trans h₂) Bool.false_ne_true⟩
  | ended _ h₁ _ h₂ => exact ⟨h₁, fun _ => h₂⟩

/-- Where the thread is alive everything is open. -/
theorem Outline.Standing.of_alive (h : c.Standing) (halive : c.threadAlive = true) :
    c.isStartedThr = true ∧ c.isStartedPoll = false ∧ c.Open := by
  cases h with
  | idle _ _ h _ => exact absurd (h.symm.trans halive) Bool.false_ne_true
  | polled _ _ h _ => exact absurd (h.symm.trans halive) Bool.false_ne_true
  | running h₁ h₂ _ h₃ => exact ⟨h₁, h₂, h₃⟩
  | ended _ _ h _ => exact absurd (h.symm.trans halive) Bool.false_ne_true

/-- In neither mode nothing is there. -/
theorem Outline.Standing.of_neither (h : c.Standing) (hthr : c.isStartedThr = false)
    (hpoll : c.isStartedPoll = false) : c.threadAlive = false ∧ c.Bare := by
  cases h with
  | idle _ _ h₁ h₂ => exact ⟨h₁, h₂⟩
  | polled _ h _ _ => exact absurd (hpoll.symm.trans h) Bool.false_ne_true
  | running h _ _ _ => exact absurd (hthr.symm.trans h) Bool.false_ne_true
  | ended h _ _ _ => exact absurd (hthr.symm.trans h) Bool.false_ne_true

theorem Outline.Bare.streamstates (h : m.outline.Bare) : m.streamstates = none :=
  Option.isNone_iff_eq_none.mp (by simpa [Machine.outline] using h.made)

theorem New.bare (h : New m) : m.outline.Bare := by
  refine ⟨?_, h.epollFd.trans_lt (by decide), h.usbEpollFd.trans_lt (by decide),
    h.timerFd.trans_lt (by decide)⟩
  show m.streamstates.isSome = false
  rw [h.streamstates]
  rfl

theorem New.standing (h : New m) : m.outline.Standing :=
  .idle h.isStartedThr h.isStartedPoll h.threadAlive h.bare

/-- The same modes and the same holdings. -/
structure SameStanding (c c' : Outline) : Prop extends SameModes c c', SameHoldings c c'

theorem Outline.Bare.same (hc : c.Bare) (h : SameHoldings c c') : c'.Bare :=
  ⟨h.made.trans hc.made, h.epollFd.trans_lt hc.epollFd, h.usbEpollFd.trans_lt hc.usbEpollFd,
    h.timerFd.trans_lt hc.timerFd⟩

theorem SameStanding.standing (h : SameStanding c c') (hc : c.Standing) : c'.Standing := by
  cases hc with
  | idle h₁ h₂ h₃ hb =>
      exact .idle (h.isStartedThr.trans h₁) (h.isStartedPoll.trans h₂) (h.threadAlive.trans h₃)
        (hb.same h.toSameHoldings)
  | polled h₁ h₂ h₃ ho =>
      exact .polled (h.isStartedThr.trans h₁) (h.isStartedPoll.trans h₂) (h.threadAlive.trans h₃)
        (ho.same h.toSameHoldings)
  | running h₁ h₂ h₃ ho =>
      exact .running (h.isStartedThr.trans h₁) (h.isStartedPoll.trans h₂) (h.threadAlive.trans h₃)
        (ho.same h.toSameHoldings)
  | ended h₁ h₂ h₃ hb =>
      exact .ended (h.isStartedThr.trans h₁) (h.isStartedPoll.trans h₂) (h.threadAlive.trans h₃)
        (hb.same h.toSameHoldings)

/-- **What works** leaves an object standing as it does. -/
theorem Beats.stands {α : Type} {p : Run σ α} (h : Beats .working p m) :
    Ends p (fun _ t => SameStanding m.outline t.outline)
      (fun _ t => SameStanding m.outline t.outline) m :=
  ends_self.mono (fun _ _ hp => ⟨h.modes hp, h.holdings hp⟩)
    fun _ _ hp => ⟨h.modes hp, h.holdings hp⟩

/-- **After a clean-up** nothing is there, in the same mode. -/
theorem processCleanup_bare (m : Machine σ) :
    Ends processCleanup (fun _ t => t.outline.Bare ∧ SameModes m.outline t.outline)
      (fun _ _ => False) m := by
  refine (processCleanup_outline m).mono (fun _ t ht => ?_) fun _ _ hf => hf
  rw [ht]
  exact ⟨⟨rfl, shut_neg _, shut_neg _, shut_neg _⟩, ⟨rfl, rfl, rfl⟩⟩

/-! ## Starting -/

/-- Every number refuses a descriptor, as far as is known. -/
theorem refuses_any (env : Env σ) : env.Refuses fun _ => True :=
  ⟨fun _ _ => trivial, fun _ _ => trivial⟩

/-- **Where `process_init` returns** the engine is set up. -/
theorem processInit_stands (m : Machine σ) :
    Ends (processInit env) (fun _ t => t.outline.Open ∧ SameModes m.outline t.outline)
      (fun _ t => SameModes m.outline t.outline) m := by
  have hmodes := ends_self.mono (p := processInit env)
    (fun _ t ht => (processInit_beats (refuses_any env) m).modes ht)
    fun _ t ht => (processInit_beats (refuses_any env) m).modes ht
  refine Ends.and (E := fun _ _ => True) ?_ hmodes |>.mono (fun _ _ h => h) fun _ _ h => h.2
  unfold processInit
  rw [ends_bind, ends_look, id_look, ends_ite]
  refine ⟨fun _ => trivial, fun _ => ?_⟩
  rw [ends_rescue]
  refine (initBody_opens m).mono (fun _ _ h => h) fun cause t _ => ?_
  -- the handler throws what it caught
  rw [ends_bind]
  refine ends_self.mono (fun _ u _ => ?_) fun _ _ _ => trivial
  rw [ends_bind]
  exact ends_self.mono (fun _ _ _ => trivial) fun _ _ _ => trivial

/-- **The handler of a start** leaves nothing, and clears its flag. -/
theorem startFailed_stands {clear : Machine σ → Machine σ} (cause : Exn) {E : Machine σ → Prop}
    (h : ∀ t : Machine σ, t.outline.Bare → SameModes m.outline t.outline → E (clear t)) :
    Ends (startFailed clear cause) (fun _ _ => False) (fun _ t => E t) m := by
  unfold startFailed
  rw [ends_bind]
  refine (processCleanup_bare m).mono (fun _ t ht => ?_) fun _ _ hf => hf.elim
  rw [ends_bind, ends_alter, ends_raise]
  exact h t ht.1 ht.2

theorem withMutex_stands {α : Type} {p : Run σ α} {P Q : Outline → Prop}
    (h : Ends p (fun _ t => P t.outline) (fun _ t => Q t.outline) { m with mutex := true }) :
    Ends (withMutex p) (fun _ t => P t.outline) (fun _ t => Q t.outline) m := by
  unfold withMutex
  rw [ends_bind, ends_alter, ends_leaving]
  exact h

theorem startPoll_stands (hm : m.outline.Standing) :
    Ends (startPoll env) (fun _ t => t.outline.Standing) (fun _ t => t.outline.Standing) m := by
  refine withMutex_stands ?_
  rw [ends_bind, ends_look, id_look, ends_ite]
  refine ⟨fun _ => hm, fun hthr => ?_⟩
  rw [ends_ite]
  refine ⟨fun _ => hm, fun hpoll => ?_⟩
  have hthr : m.isStartedThr = false := Bool.eq_false_iff.mpr hthr
  have hpoll : m.isStartedPoll = false := Bool.eq_false_iff.mpr hpoll
  have halive : m.threadAlive = false := (hm.of_neither hthr hpoll).1
  rw [ends_rescue]
  unfold setUpPoll
  rw [ends_bind]
  refine (processInit_stands _).mono ?_ ?_
  · rintro _ t ⟨hopen, hmodes⟩
    exact .polled (hmodes.isStartedThr.trans hthr) rfl (hmodes.threadAlive.trans halive)
      (hopen.same ⟨rfl, rfl, rfl, rfl⟩)
  · rintro cause t hmodes
    refine (startFailed_stands cause fun u hbare hu => ?_).mono
      (fun _ _ hf => hf.elim) fun _ _ h => h
    have hu := hmodes.trans hu
    exact .idle (hu.isStartedThr.trans hthr) rfl (hu.threadAlive.trans halive)
      (hbare.same ⟨rfl, rfl, rfl, rfl⟩)

theorem launchThread_stands (hpoll : m.isStartedPoll = false) (hopen : m.outline.Open) :
    Ends (launchThread env) (fun _ t => t.outline.Standing)
      (fun _ t => SameModes m.outline t.outline) m := by
  have hsome : ¬ m.streamstates.isNone = true := Machine.Made.not_none hopen.made
  unfold launchThread leave
  rw [ends_bind, ends_alter, ends_bind, ends_askWorld, ends_ite]
  refine ⟨fun _ => ⟨rfl, rfl, rfl⟩, fun _ => ?_⟩
  unfold beginThread
  rw [ends_bind, ends_alter, ends_bind, ends_alter, ends_bind, ends_look, ends_ite]
  exact ⟨fun h => absurd h hsome, fun _ => .running rfl hpoll rfl (hopen.same ⟨rfl, rfl, rfl, rfl⟩)⟩

theorem startThread_stands (hm : m.outline.Standing) :
    Ends (startThread env) (fun _ t => t.outline.Standing) (fun _ t => t.outline.Standing) m := by
  refine withMutex_stands ?_
  rw [ends_bind, ends_look, id_look, ends_ite]
  refine ⟨fun _ => hm, fun hpoll => ?_⟩
  rw [ends_ite]
  refine ⟨fun _ => hm, fun hthr => ?_⟩
  have hthr : m.isStartedThr = false := Bool.eq_false_iff.mpr hthr
  have hpoll : m.isStartedPoll = false := Bool.eq_false_iff.mpr hpoll
  have halive : m.threadAlive = false := (hm.of_neither hthr hpoll).1
  rw [ends_rescue]
  have hfail : ∀ (cause : Exn) (t : Machine σ), SameModes m.outline t.outline →
      Ends (startFailed (fun m => { m with isStartedThr := false }) cause)
        (fun _ u => u.outline.Standing) (fun _ u => u.outline.Standing) t := by
    intro cause t hmodes
    refine (startFailed_stands cause fun u hbare hu => ?_).mono
      (fun _ _ hf => hf.elim) fun _ _ h => h
    have hu := hmodes.trans hu
    exact .idle rfl (hu.isStartedPoll.trans hpoll) (hu.threadAlive.trans halive)
      (hbare.same ⟨rfl, rfl, rfl, rfl⟩)
  unfold setUpThread
  rw [ends_bind]
  refine (processInit_stands _).mono ?_ hfail
  rintro _ t ⟨hopen, hmodes⟩
  refine (launchThread_stands (hmodes.isStartedPoll.trans hpoll) hopen).mono (fun _ _ h => h)
    fun cause u hu => ?_
  exact hfail cause u (hmodes.trans hu)

/-! ## Stopping -/

/-- Asking an engine to end takes nothing from it. -/
theorem askStop_stands (m : Machine σ) :
    Ends askStop (fun _ t => SameStanding m.outline t.outline) (fun _ _ => False) m :=
  ⟨⟨rfl, rfl, rfl⟩, ⟨rfl, rfl, rfl, rfl⟩⟩

/-- The loop of `stop_poll` and `askStop` before it. -/
theorem stepUntilDone_stands (inputs : List StepInput) (m : Machine σ) :
    Ends (do askStop; stepUntilDone env inputs) (fun _ t => SameStanding m.outline t.outline)
      (fun _ t => SameStanding m.outline t.outline) m :=
  Beats.stands (Walks.bind (askStop_beats m) fun _ t _ => stepUntilDone_beats inputs t)

/-- **`stop_poll`** leaves an idle object where it returns, and one that
stands as it did where it throws. -/
theorem stopPoll_stands (inputs : List StepInput) (hm : m.outline.Standing) :
    Ends (stopPoll env inputs) (fun _ t => t.outline.Standing ∧
        t.outline.isStartedThr = m.isStartedThr ∧ t.outline.isStartedPoll = false)
      (fun _ t => m.isStartedPoll = true ∧ SameStanding m.outline t.outline) m := by
  refine withMutex_stands (P := fun c => c.Standing ∧ c.isStartedThr = m.isStartedThr ∧
    c.isStartedPoll = false)
    (Q := fun c => m.isStartedPoll = true ∧ SameStanding m.outline c) ?_
  rw [ends_bind, ends_look, id_look, ends_ite]
  refine ⟨fun hpoll => ?_, fun hpoll => ⟨hm, rfl, Bool.eq_false_iff.mpr hpoll⟩⟩
  have hloop : Ends (do askStop; stepUntilDone env inputs) _ _ { m with mutex := true } :=
    stepUntilDone_stands inputs _
  rw [ends_bind] at hloop
  rw [ends_bind]
  refine hloop.mono (fun _ t ht => ?_) fun _ t ht => ⟨hpoll, ht⟩
  rw [ends_bind]
  refine Ends.mono ht (fun _ u hu => ?_) fun _ u hu => ⟨hpoll, hu⟩
  rw [ends_bind]
  refine (processCleanup_bare u).mono ?_ fun _ _ hf => hf.elim
  rintro _ v ⟨hbare, hv⟩
  have hmodes := hu.toSameModes.trans hv
  obtain ⟨hthr, halive, -⟩ := hm.of_poll hpoll
  exact ⟨.idle (hmodes.isStartedThr.trans hthr) rfl (hmodes.threadAlive.trans halive)
    (hbare.same ⟨rfl, rfl, rfl, rfl⟩), hmodes.isStartedThr, rfl⟩

theorem endThread_stands (hthr : m.isStartedThr = true) (hpoll : m.isStartedPoll = false) :
    Ends endThread (fun _ t => t.outline.Standing ∧ t.isStartedThr = true)
      (fun _ _ => False) m := by
  unfold endThread
  rw [ends_bind]
  refine (processCleanup_bare m).mono ?_ fun _ _ hf => hf
  rintro _ t ⟨hbare, hmodes⟩
  exact ⟨.ended (hmodes.isStartedThr.trans hthr) (hmodes.isStartedPoll.trans hpoll) rfl
    (hbare.same ⟨rfl, rfl, rfl, rfl⟩), hmodes.isStartedThr.trans hthr⟩

/-- **A turn of the thread** leaves it running, or at its end. -/
theorem threadStep_stands (input : StepInput) (hm : m.outline.Standing) :
    Ends (threadStep env input)
      (fun _ t => t.outline.Standing ∧ t.isStartedThr = m.isStartedThr) (fun _ _ => False) m := by
  unfold threadStep
  rw [ends_bind, ends_look, id_look, ends_ite]
  refine ⟨fun _ => ⟨hm, rfl⟩, fun halive => ?_⟩
  have halive : m.threadAlive = true := Bool.not_eq_false _ ▸ halive
  obtain ⟨hthr, hpoll, -⟩ := hm.of_alive halive
  have hend : ∀ t : Machine σ, SameModes m.outline t.outline →
      Ends endThread (fun _ u => u.outline.Standing ∧ u.isStartedThr = m.isStartedThr)
        (fun _ _ => False) t := fun t ht =>
    (endThread_stands (ht.isStartedThr.trans hthr) (ht.isStartedPoll.trans hpoll)).mono
      (fun _ _ hu => ⟨hu.1, hu.2.trans hthr.symm⟩) fun _ _ hf => hf
  rw [ends_rescue, ends_bind]
  refine (Beats.stands (processStep_beats input m)).mono (fun more t ht => ?_) fun cause t ht => ?_
  · rw [ends_ite]
    refine ⟨fun _ => ⟨ht.standing hm, ht.isStartedThr⟩, fun _ => ?_⟩
    exact (hend t ht.toSameModes).mono (fun _ _ h => h) fun _ _ hf => hf.elim
  · rw [ends_bind, ends_error]
    have herror : Beats .working (error env (.processLoop cause)) t := error_beats _ t
    exact hend _ (ht.toSameModes.trans (herror.modes (error_eq _)))

/-- **`stop_thread`** leaves an idle object, unless it is one in poll mode. -/
theorem stopThread_stands (inputs : List StepInput) (hm : m.outline.Standing) :
    Ends (stopThread env inputs) (fun _ t => t.outline.Standing ∧ t.outline.isStartedThr = false ∧
      t.outline.isStartedPoll = m.isStartedPoll) (fun _ _ => False) m := by
  refine withMutex_stands (P := fun c => c.Standing ∧ c.isStartedThr = false ∧
    c.isStartedPoll = m.isStartedPoll) (Q := fun _ => False) ?_
  rw [ends_bind, ends_look, id_look, ends_ite]
  refine ⟨fun hthr => ?_, fun hthr => ⟨hm, Bool.eq_false_iff.mpr hthr, rfl⟩⟩
  have hthr : m.isStartedThr = true := hthr
  have hnot : m.isStartedPoll = false := (hm.of_thread hthr).1
  rw [ends_bind]
  refine (askStop_stands _).mono (fun _ t ht => ?_) fun _ _ hf => hf
  have ht : SameStanding m.outline t.outline := ht
  rw [ends_bind]
  unfold joinThread
  rw [ends_bind]
  refine Ends.mono (Q := fun _ u => u.outline.Standing ∧ u.isStartedThr = true)
    (E := fun _ _ => False) ?_ ?_ fun _ _ hf => hf
  · refine ends_each (I := fun _ (u : Machine σ) => u.outline.Standing ∧ u.isStartedThr = true)
      ⟨ht.standing hm, ht.isStartedThr.trans hthr⟩ fun input _ u hu => ?_
    exact (threadStep_stands input hu.1).mono (fun _ _ h => ⟨h.1, h.2.trans hu.2⟩) fun _ _ hf => hf
  · rintro _ u ⟨hu, hthru⟩
    rw [ends_bind, ends_look, id_look, ends_ite]
    refine ⟨fun _ => trivial, fun halive => ?_⟩
    have halive : u.threadAlive = false := Bool.eq_false_iff.mpr halive
    have hpoll : u.isStartedPoll = false := (hu.of_thread hthru).1
    show Ends (_ >>= _) _ _ u
    rw [ends_bind]
    refine (processCleanup_bare u).mono ?_ fun _ _ hf => hf.elim
    rintro _ v ⟨hbare, hv⟩
    exact ⟨.idle rfl (hv.isStartedPoll.trans hpoll) (hv.threadAlive.trans halive)
      (hbare.same ⟨rfl, rfl, rfl, rfl⟩), rfl, (hv.isStartedPoll.trans hpoll).trans hnot.symm⟩

/-! ## Destruction -/

/-- `stop_poll` does nothing outside poll mode. -/
theorem stopPoll_skips (inputs : List StepInput) (hpoll : m.isStartedPoll = false) :
    Ends (stopPoll env inputs) (fun _ t => t = { m with mutex := false })
      (fun _ _ => False) m := by
  unfold stopPoll withMutex
  rw [ends_bind, ends_alter, ends_leaving, ends_bind, ends_look, id_look, ends_ite]
  exact ⟨fun h => absurd (hpoll.symm.trans h) Bool.false_ne_true, fun _ => rfl⟩

/-- `stop_thread` does nothing outside thread mode. -/
theorem stopThread_skips (inputs : List StepInput) (hthr : m.isStartedThr = false) :
    Ends (stopThread env inputs) (fun _ t => t = { m with mutex := false })
      (fun _ _ => False) m := by
  unfold stopThread withMutex
  rw [ends_bind, ends_alter, ends_leaving, ends_bind, ends_look, id_look, ends_ite]
  exact ⟨fun h => absurd (hthr.symm.trans h) Bool.false_ne_true, fun _ => rfl⟩

/-- Where nothing is there, there is nothing to close. -/
theorem closeAll_bare (h : m.outline.Bare) :
    Ends (do closeTimer; closeUsbEpoll; closeEpoll; resetStreamstates : Run σ Unit)
      (fun _ t => t = m) (fun _ _ => False) m := by
  have hnone := h.streamstates
  have h₁ : ¬ 0 ≤ m.timerFd := not_le.mpr h.timerFd
  have h₂ : ¬ 0 ≤ m.usbEpollFd := not_le.mpr h.usbEpollFd
  have h₃ : ¬ 0 ≤ m.epollFd := not_le.mpr h.epollFd
  unfold closeTimer closeUsbEpoll closeEpoll resetStreamstates
  simp only [ends_bind, ends_look, id_look, if_neg h₁, if_neg h₂, if_neg h₃, hnone, ends_pure]

/-- **What a destructor does last** on an idle object is to close the notice
eventfd. -/
theorem destroyState_idle (h : m.outline.Bare) :
    Ends destroyState (fun _ t => t = if 0 ≤ m.noticeEventFd then
        Machine.note { m with notifiers := false } (.closed m.noticeEventFd)
      else { m with notifiers := false }) (fun _ _ => False) m := by
  unfold destroyState
  rw [ends_bind, ends_alter, ends_bind, ends_look, id_look]
  dsimp only
  rw [ends_ite]
  refine ⟨fun hfd => ?_, fun hfd => ?_⟩
  · rw [ends_bind, ends_observe, if_pos hfd]
    exact closeAll_bare (h.same ⟨rfl, rfl, rfl, rfl⟩)
  · rw [if_neg hfd]
    exact closeAll_bare (h.same ⟨rfl, rfl, rfl, rfl⟩)

/-- **A destructor** leaves an idle object where it returns, and one in poll
mode where it throws. -/
theorem destroy_stands (inputs : List StepInput) (hm : m.outline.Standing) :
    Ends (destroy env inputs) (fun _ t => t.outline.Standing)
      (fun _ t => t.outline.Standing) m := by
  -- once neither mode is on, the destructor of the base finds nothing open
  have hlast : ∀ {t : Machine σ}, t.outline.Standing → t.isStartedThr = false →
      t.isStartedPoll = false → Ends (destroyState : Run σ Unit)
        (fun _ u => u.outline.Standing) (fun _ u => u.outline.Standing) t := by
    intro t ht hthr hpoll
    refine (destroyState_idle (ht.of_neither hthr hpoll).2).mono ?_ fun _ _ hf => hf.elim
    rintro _ u rfl
    split
    · exact SameStanding.standing (c := t.outline) ⟨⟨rfl, rfl, rfl⟩, ⟨rfl, rfl, rfl, rfl⟩⟩ ht
    · exact SameStanding.standing (c := t.outline) ⟨⟨rfl, rfl, rfl⟩, ⟨rfl, rfl, rfl, rfl⟩⟩ ht
  unfold destroy
  rw [ends_bind]
  cases hpoll : m.isStartedPoll with
  | true =>
      have hthr : m.isStartedThr = false := (hm.of_poll hpoll).1
      refine (stopThread_skips inputs hthr).mono ?_ fun _ _ hf => hf.elim
      rintro _ t rfl
      have hsame : SameStanding m.outline (Machine.outline { m with mutex := false }) :=
        ⟨⟨rfl, rfl, rfl⟩, ⟨rfl, rfl, rfl, rfl⟩⟩
      rw [ends_bind]
      refine (stopPoll_stands inputs (hsame.standing hm)).mono ?_ fun _ _ h => h.2.standing hm
      rintro _ t ⟨ht, hthrt, hpollt⟩
      exact hlast ht (hthrt.trans hthr) hpollt
  | false =>
      refine (stopThread_stands inputs hm).mono ?_ fun _ _ hf => hf.elim
      rintro _ t ⟨ht, hthr, hpollt⟩
      rw [ends_bind]
      refine (stopPoll_skips inputs (hpollt.trans hpoll)).mono ?_ fun _ _ hf => hf.elim
      rintro _ u rfl
      have hsame : SameStanding t.outline (Machine.outline { t with mutex := false }) :=
        ⟨⟨rfl, rfl, rfl⟩, ⟨rfl, rfl, rfl, rfl⟩⟩
      exact hlast (hsame.standing ht) hthr (hpollt.trans hpoll)

/-- **Every call** leads from one way of standing to another. -/
theorem call_stands (c : Call) (hm : m.outline.Standing) :
    Ends (call env c) (fun _ t => t.outline.Standing) (fun _ _ => False) m := by
  cases c with
  | startPoll =>
      exact (ends_rescue.mpr (startPoll_stands hm)).mono (fun _ _ h => h) fun _ _ hf => hf
  | poll input =>
      have hbeats : Beats .working (do let _ ← poll env input; pure ()) m :=
        Walks.bind (Walks.look_bind (Walks.ite (fun _ => processStep_beats input m) fun _ =>
          Walks.pure)) fun _ _ _ => Walks.pure
      exact ends_rescue.mpr ((Beats.stands hbeats).mono (fun _ _ h => h.standing hm)
        fun _ _ h => h.standing hm)
  | stopPoll inputs =>
      refine ends_rescue.mpr ((stopPoll_stands inputs hm).mono (fun _ _ h => h.1) fun _ t h => ?_)
      exact h.2.standing hm
  | startThread => exact ends_rescue.mpr (startThread_stands hm)
  | threadStep input => exact (threadStep_stands input hm).mono (fun _ _ h => h.1) fun _ _ hf => hf
  | stopThread inputs =>
      exact ends_rescue.mpr
        ((stopThread_stands inputs hm).mono (fun _ _ h => h.1) fun _ _ hf => hf.elim)
  | thread a =>
      refine (Ends.and (Beats.stands (threadAction_beats a m)) (threadAction_ends a m)).mono ?_ ?_
      · exact fun _ _ h => h.1.standing hm
      · exact fun _ _ h => h.2
  | destroy inputs => exact ends_rescue.mpr (destroy_stands inputs hm)

/-- **An object stands** after any calls. -/
theorem lifeRun_stands {calls : List Call} (hm : m.outline.Standing)
    (hrun : lifeRun env calls m = (.ret (), m')) : m'.outline.Standing :=
  ends_ret_of (ends_each (I := fun _ (t : Machine σ) => t.outline.Standing) hm
    fun c _ _ ht => call_stands c ht) hrun

end Stream

end SgFtdi
