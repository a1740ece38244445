import SgFtdi.Stream.Stopping
import SgFtdi.Stream.Release
import SgFtdi.Stream.Landing
import SgFtdi.Stream.TransferState

/-!
# Stream — transfers that are left enabled

`process_step` ends a shutdown where it finds every entry disabled, and
takes an enabled entry for one that is still in flight. So it is, as long
as nothing is switched on that does not take off: `submit` returns at once
where `should_run` is down and leaves by an exception where libusb or the
user refuses, and neither restores the flag that was set before it was
called.
-/

namespace SgFtdi

namespace Stream

open Prog Relation

variable {σ : Type} {env : Env σ} {m m' m₁ : Machine σ} {i : ℕ}

/-- **Every transfer is level**: its entry is enabled just where it is in
flight. -/
def Machine.Level (m : Machine σ) : Prop :=
  ∀ i e, m.entryAt i = some e → e.enabled = e.transfer.inFlight

/-! ## What is bad -/

/-- **An entry is stranded**: it is switched on, and not submitted, because
`should_run` is down, or because the user does not fill it or libusb does
not take it. -/
def ArmStrands (env : Env σ) (i : ℕ) (m : Machine σ) : Prop :=
  ∃ e, m.entryAt i = some e ∧ e.enabled = false ∧ (m.shouldRun = false ∨
    Unsubmitted env i (e.setEnabled true) (m.modifyEntry i (.setEnabled true)))

/-- One of the entries of a descriptor is. -/
def RangeStrands (env : Env σ) (fd : ℤ) (m : Machine σ) : Prop :=
  Meets (ArmStrands env) (arm env) (m.equalRange fd) m

/-- One is when the engine goes through `list_enable`. -/
def DrainStrands (env : Env σ) (m : Machine σ) : Prop :=
  ∃ t, processResetStreamEntry env false (m.note
      (.drained m.listEnable.elems m.listDisable.elems m.listReset.elems)) = (.ret (), t) ∧
    Meets (RangeStrands env) (enableRange env) (t.listEnable.walk (env.shuffle t.world)) t

/-- One is in the handling of a notice. -/
def NoticeStrands (env : Env σ) (m : Machine σ) : Prop :=
  m.shouldRun = true ∧ m.shouldCancel = false ∧ DrainStrands env { m with listMutex := true }

/-- One is in the handling of an event: a notice, or the readiness of a
descriptor. -/
def EventStrands (env : Env σ) (ev : EpollEvent) (m : Machine σ) : Prop :=
  ∃ t, each ev.meanwhile (threadAction env) m = (.ret (), t) ∧ ev.sock ≠ t.usbEpollFd ∧
    ((ev.sock = t.noticeEventFd ∧ ∃ u v, readNotice ev.fault t = (.ret none, u) ∧
        each ev.between (threadAction env) u = (.ret (), v) ∧ NoticeStrands env v) ∨
      (ev.sock ≠ t.noticeEventFd ∧ ev.sock ≠ t.timerFd ∧ RangeStrands env ev.sock t))

/-- One is in a `process_step`. -/
def StepStrands (env : Env σ) (input : StepInput) (m : Machine σ) : Prop :=
  ∃ events, input = .ready events ∧
    Meets (EventStrands env) (handleEvent env) (epollWait m events) { m with lastExit := .running }

/-- **One is in a run of the engine.** -/
def RunStrands (env : Env σ) (actions : List Action) (m : Machine σ) : Prop :=
  Meets (fun a t => ∃ input, a = .step input ∧ StepStrands env input t) (act env) actions m

/-! ## What keeps transfers level -/

theorem Machine.Level.same (h : m.Level) (he : ∀ j, m'.entryAt j = m.entryAt j) : m'.Level :=
  fun j e' he' => h j e' ((he j).symm.trans he')

theorem Machine.Level.errored (h : m.Level) (message : Message) : (m.errored env message).Level :=
  h.same fun j => errored_entryAt env m message j

/-- **One entry is singled out.** -/
theorem Machine.Level.single (h : m.Level) (hothers : Others i m m')
    (hi : ∀ e', m'.entryAt i = some e' → e'.enabled = e'.transfer.inFlight) : m'.Level := by
  intro j e' he'
  by_cases hij : i = j
  · exact hi e' (hij ▸ he')
  · have hj := hothers j hij
    rw [he'] at hj
    generalize he : m.entryAt j = x at hj
    cases hj with
    | some hs => rw [hs.enabled, hs.inFlight, h j _ he]

/-- A write that leaves both flags alone. -/
theorem modify_level {f : FtdiStreamStaticState → FtdiStreamStaticState}
    (hf : ∀ e, (f e).enabled = e.enabled ∧ (f e).transfer.inFlight = e.transfer.inFlight) :
    Preserves Machine.Level (alter (·.modifyEntry i f) : Run σ Unit) := by
  refine Preserves.alter fun m h => h.single (Others.modify i m f) fun e' he' => ?_
  rw [entryAt_modifyEntry_self] at he'
  obtain ⟨e, he, rfl⟩ := Option.map_eq_some_iff.mp he'
  rw [(hf e).1, (hf e).2, h i e he]

theorem askWorld_level {α : Type} (f : σ → α × σ) : Preserves Machine.Level (askWorld f) :=
  fun _ h => h

theorem observe_level (o : Obs) : Preserves Machine.Level (observe o : Run σ Unit) :=
  fun _ h => h

theorem error_level (message : Message) : Preserves Machine.Level (error env message) :=
  fun _ h => ends_error.mpr (h.errored message)

theorem comeBack_level {α : Type} (reply : Reply α) :
    Preserves Machine.Level (comeBack env reply) := fun m h =>
  (comeBack_ends reply m).mono (fun _ _ hq => h.same hq.1.frame.entryAt)
    fun _ _ hq => h.same hq.1.frame.entryAt

theorem threadAction_level (a : ThreadAction) :
    Preserves Machine.Level (threadAction env a) := fun m h =>
  (threadAction_ends a m).mono
    (fun _ _ ht => inv_of_path (fun _ _ hp hl => hl.same hp.aside.entryAt) ht h)
    fun _ _ hf => hf.elim

/-- **A completion** leaves its transfer level: switched off, or in flight
again. -/
theorem Completed.level {c : Completion} (hc : Completed env c m m₁) (h : m.Level) : m₁.Level := by
  have hhandled : ∀ {e e' : FtdiStreamStaticState}, m.entryAt c.transfer = some e →
      e.transfer.inFlight = true → Handled (m.landed e c) m₁ (e.back c) e' →
        e'.enabled = e'.transfer.inFlight := by
    intro e e' he hfl hh
    cases hh with
    | off hen _ _ =>
        have hen : e.enabled = false := hen
        exact absurd (hen.symm.trans ((h _ e he).trans hfl)) Bool.false_ne_true
    | switchedOff hoff hidle _ => exact hoff.trans hidle.symm
    | again _ _ _ hon hfl => exact hon.trans hfl.symm
  cases hc with
  | @read e _ he hfl hr hb =>
      obtain ⟨e₁, he₁, -, hh⟩ := hb.entry (landed_entryAt he)
      refine h.single ((landed_others m e c).trans hb.others) fun e' he' => ?_
      obtain rfl := Option.some_inj.mp (he₁.symm.trans he')
      exact hhandled he hfl hh
  | @write e _ he hfl hr hb =>
      obtain ⟨e₁, he₁, -, hh⟩ := hb.entry (landed_entryAt he) hr
      refine h.single ((landed_others m e c).trans (hb.others (landed_entryAt he))) fun e' he' => ?_
      obtain rfl := Option.some_inj.mp (he₁.symm.trans he')
      exact hhandled he hfl hh

theorem complete_level (c : Completion) : Preserves Machine.Level (complete env c) := fun m h =>
  (complete_ends c m).mono
    (fun _ t ht => by
      rcases ht with rfl | ⟨m₁, hc, rfl⟩
      · exact h
      · exact (hc.level h).same fun _ => rfl)
    fun _ _ hf => hf.elim

theorem controlTransfer_level (f : σ → (ℤ × List Completion) × σ) :
    Preserves Machine.Level (controlTransfer env f) :=
  Preserves.bind (askWorld_level f) fun _ =>
    Preserves.bind (Preserves.each complete_level) fun _ => Preserves.pure

theorem resetEntry_level (s : ℕ) (stream : FtdiStreamEntry) :
    Preserves Machine.Level (resetEntry env s stream) := by
  refine Preserves.ite ?_ ?_
  · exact Preserves.bind (askWorld_level _) fun r =>
      Preserves.bind (Preserves.each complete_level) fun _ => comeBack_level r.reply
  · refine Preserves.bind (controlTransfer_level _) fun _ => Preserves.ite Preserves.raise ?_
    exact Preserves.bind (controlTransfer_level _) fun _ =>
      Preserves.ite Preserves.raise Preserves.pure

theorem resetAt_level (s : ℕ) : Preserves Machine.Level (resetAt env s) := by
  refine Preserves.bind Preserves.look fun m => ?_
  split
  · exact Preserves.raise
  · exact resetEntry_level s _

theorem processResetStreamEntry_level (resetAll : Bool) :
    Preserves Machine.Level (processResetStreamEntry env resetAll) := by
  refine Preserves.bind Preserves.look fun m => Preserves.ite ?_ ?_
  · exact Preserves.each resetAt_level
  · exact Preserves.bind (Preserves.each resetAt_level) fun _ => Preserves.alter fun _ h => h

theorem pollfd_level {f : σ → Option Exn × σ} {change : Machine σ → List ℤ}
    {message : Exn → Message} :
    Preserves Machine.Level (do
      let failure ← askWorld f
      match failure with
      | none => alter fun m => { m with usbEpollSet := change m }
      | some cause => error env (message cause)) := by
  refine Preserves.bind (askWorld_level f) fun failure => ?_
  cases failure with
  | none => exact Preserves.alter fun _ h => h
  | some cause => exact error_level _

theorem usbAction_level (a : UsbAction) : Preserves Machine.Level (usbAction env a) := by
  cases a with
  | completed c => exact complete_level c
  | pollfdAdded fd =>
      refine Preserves.bind Preserves.look fun m => Preserves.ite ?_ Preserves.pure
      exact Preserves.bind Preserves.look fun _ => pollfd_level
  | pollfdRemoved fd =>
      refine Preserves.bind Preserves.look fun m => Preserves.ite ?_ Preserves.pure
      exact Preserves.bind Preserves.look fun _ => pollfd_level
  | elsewhere a => exact threadAction_level a

theorem handleUsb_level (usb : List UsbAction) (result : ℤ) :
    Preserves Machine.Level (handleUsb env usb result) :=
  Preserves.bind (Preserves.each usbAction_level) fun _ =>
    Preserves.ite Preserves.raise Preserves.pure

theorem readFailed_level (errno : Errno) (message : Errno → Message) :
    Preserves Machine.Level (readFailed env errno message) := by
  cases errno with
  | EWOULDBLOCK => exact Preserves.pure
  | EINTR => exact Preserves.pure
  | other code => exact error_level _

theorem reportCounters_level (i : ℕ) : Preserves Machine.Level (reportCounters env i) := by
  refine Preserves.bind Preserves.look fun m => ?_
  split
  · exact Preserves.pure
  · split
    · exact Preserves.raise
    · refine Preserves.bind (Preserves.ite ?_ Preserves.pure) fun _ => modify_level fun _ =>
        ⟨rfl, rfl⟩
      exact Preserves.bind (observe_level _) fun _ =>
        Preserves.bind (askWorld_level _) comeBack_level

theorem checkTimeout_level : Preserves Machine.Level (checkTimeout env) := by
  refine Preserves.bind Preserves.look fun m => Preserves.ite Preserves.pure ?_
  refine Preserves.bind (askWorld_level _) fun now => ?_
  refine Preserves.bind (Preserves.alter fun _ h => h) fun _ => ?_
  exact Preserves.bind (observe_level _) fun _ => Preserves.ite (error_level _) Preserves.pure

theorem eventTimer_level (fault : Option Errno) :
    Preserves Machine.Level (eventTimer env fault) := by
  cases fault with
  | some errno => exact readFailed_level errno _
  | none =>
      exact Preserves.bind Preserves.look fun m =>
        Preserves.bind (Preserves.each reportCounters_level) fun _ => checkTimeout_level

theorem cancelEntry_level (i : ℕ) : Preserves Machine.Level (cancelEntry i : Run σ Unit) := by
  refine Preserves.bind Preserves.look fun m => ?_
  split
  · exact Preserves.pure
  · refine Preserves.ite ?_ Preserves.pure
    exact Preserves.bind (observe_level _) fun _ => modify_level fun _ => ⟨rfl, rfl⟩

theorem disableRange_level (fd : ℤ) : Preserves Machine.Level (disableRange fd : Run σ Unit) :=
  Preserves.bind Preserves.look fun _ => Preserves.each cancelEntry_level

/-! ## What keeps them level where nothing is stranded -/

theorem readNotice_furnished (fault : Option Errno) (hm : m.Furnished) :
    Ends (readNotice fault : Run σ (Option Errno)) (fun _ t => t.Furnished)
      (fun _ _ => True) m := by
  unfold readNotice
  rw [ends_bind, ends_look]
  cases fault with
  | some errno => exact hm
  | none =>
      dsimp only
      rw [ends_ite]
      exact ⟨fun _ => hm, fun _ => hm.same (fun _ => rfl) rfl⟩

/-- **Switching on** an entry that is not stranded. -/
theorem arm_level (i : ℕ) (h : m.Level) (hm : m.Furnished) (hs : ¬ ArmStrands env i m) :
    Ends (arm env i) (fun _ t => t.Level) (fun _ t => t.Level) m := by
  unfold arm
  rw [ends_bind, ends_look, id_look]
  cases he : m.entryAt i with
  | none => exact h
  | some e =>
      dsimp only
      rw [ends_bind, ends_alter, ends_ite]
      have he₁ : (m.modifyEntry i (.setEnabled true)).entryAt i = some (e.setEnabled true) := by
        rw [entryAt_modifyEntry_self, he]
        rfl
      refine ⟨fun hen => ?_, fun hen => ?_⟩
      · have hrun : m.shouldRun = true := by
          refine Bool.not_eq_false _ ▸ fun hr => hs ⟨e, he, hen, .inl hr⟩
        refine ((submit_refused he₁ (hm i e he).1).and (submit_ends i _)).mono ?_ fun _ t ht => ?_
        · rintro _ t ⟨-, hsub⟩
          refine h.single ((Others.modify i m _).trans hsub.others) fun e' he' => ?_
          obtain ⟨e₂, he₂, -, hcase⟩ := hsub.entry he₁
          obtain rfl := Option.some_inj.mp (he₂.symm.trans he')
          rcases hcase with ⟨-, -, hoff⟩ | ⟨-, hoff, hidle, -⟩ | ⟨-, -, hon, hfl, -⟩
          · exact absurd (hoff hrun) Bool.false_ne_true.symm
          · exact hoff.trans ((h i e he).symm.trans hen ▸ hidle).symm
          · exact hon.trans hfl.symm
        · exact absurd ⟨e, he, hen, .inr ht.1.2.2⟩ hs
      · have hen : e.enabled = true := Bool.not_eq_false _ ▸ hen
        refine h.single (Others.modify i m _) fun e' he' => ?_
        obtain rfl := Option.some_inj.mp (he₁.symm.trans he')
        exact hen.symm.trans (h i e he)

theorem enableRange_level {fd : ℤ} (h : m.Level) (hm : m.Furnished)
    (hs : ¬ RangeStrands env fd m) :
    Ends (enableRange env fd) (fun _ t => t.Level ∧ t.Furnished) (fun _ t => t.Level) m := by
  unfold enableRange
  rw [ends_bind, ends_look]
  refine ends_each_unless (I := fun t : Machine σ => t.Level ∧ t.Furnished) ⟨h, hm⟩ hs
    fun i _ t ht hi => ?_
  exact ((arm_level i ht.1 ht.2 hi).and (arm_furnished i ht.2)).mono (fun _ _ hu => hu)
    fun _ _ hu => hu.1

theorem drain_level (h : m.Level) (hm : m.Furnished) (hs : ¬ DrainStrands env m) :
    Ends (drain env) (fun _ t => t.Level) (fun _ t => t.Level) m := by
  unfold drain
  rw [ends_bind, ends_look, id_look, ends_bind, ends_observe, ends_bind]
  have hkeeps : Preserves Machine.Level (processResetStreamEntry env false) :=
    processResetStreamEntry_level false
  have hreset := (hkeeps (m.note
    (.drained m.listEnable.elems m.listDisable.elems m.listReset.elems))
    (h.same fun _ => rfl)).and (processResetStreamEntry_furnished false
      (hm.same (fun _ => rfl) rfl))
  refine (ends_self.and hreset).mono ?_ fun _ _ ht => ht.2.1
  rintro _ t ⟨hreset, ht⟩
  rw [ends_bind, ends_look, id_look, ends_bind]
  have hmeets : ¬ Meets (RangeStrands env) (enableRange env)
      (t.listEnable.walk (env.shuffle t.world)) t := fun hm => hs ⟨t, hreset, hm⟩
  refine (ends_each_unless (I := fun t => t.Level ∧ t.Furnished) ht hmeets
    fun fd _ _ hu hfd => enableRange_level hu.1 hu.2 hfd).mono ?_ fun _ _ hu => hu
  rintro _ u ⟨hu, -⟩
  have hrest : Preserves Machine.Level (do
      let m ← look id
      each (m.listDisable.walk (env.shuffle m.world)) disableRange
      alter fun m => { m with listDisable := .empty } : Run σ Unit) :=
    Preserves.bind Preserves.look fun _ =>
      Preserves.bind (Preserves.each disableRange_level) fun _ => Preserves.alter fun _ h => h
  rw [ends_bind, ends_alter]
  exact hrest _ (hu.same fun _ => rfl)

theorem takeNotice_level (h : m.Level) (hm : m.Furnished) (hs : ¬ NoticeStrands env m) :
    Ends (takeNotice env) (fun _ t => t.Level) (fun _ t => t.Level) m := by
  unfold takeNotice
  rw [ends_bind, ends_look, id_look, ends_ite]
  refine ⟨fun _ => h, fun hr => ?_⟩
  rw [ends_ite]
  refine ⟨fun _ => h.same fun _ => rfl, fun hc => ?_⟩
  unfold lockedDrain
  rw [ends_bind, ends_alter, ends_leaving]
  have hlocked : Machine.Level { m with listMutex := true } := h.same fun _ => rfl
  refine (drain_level hlocked (hm.same (fun _ => rfl) rfl) fun hd => hs ⟨?_, ?_, hd⟩).mono
    (fun _ _ ht => ht.same fun _ => rfl) fun _ _ ht => ht.same fun _ => rfl
  · exact Bool.not_eq_false _ ▸ hr
  · exact Bool.eq_false_iff.mpr hc

theorem readNotice_level (fault : Option Errno) :
    Preserves Machine.Level (readNotice fault : Run σ (Option Errno)) := by
  refine Preserves.bind Preserves.look fun m => ?_
  cases fault with
  | some errno => exact Preserves.pure
  | none =>
      refine Preserves.ite Preserves.pure ?_
      exact Preserves.bind (Preserves.alter fun _ h => h) fun _ => Preserves.pure

/-- **An event** in whose handling nothing is stranded. -/
theorem handleEvent_level (ev : EpollEvent) (h : m.Level) (hm : m.Furnished)
    (hs : ¬ EventStrands env ev m) :
    Ends (handleEvent env ev) (fun _ t => t.Level) (fun _ t => t.Level) m := by
  unfold handleEvent
  rw [ends_bind]
  refine ((ends_self.and (Preserves.each threadAction_level m h)).and
    (each_threadAction_furnished ev.meanwhile hm)).mono ?_ fun _ _ ht => ht.1.2
  rintro _ t ⟨⟨hmean, ht⟩, hmt⟩
  rw [ends_bind, ends_look, id_look, ends_ite]
  -- libusb, the notice, the timer, or a descriptor of entries
  refine ⟨fun _ => handleUsb_level _ _ t ht, fun husb => ?_⟩
  rw [ends_ite]
  refine ⟨fun hnotice => ?_, fun hnotice => ?_⟩
  · unfold eventNotice
    rw [ends_bind]
    refine ((ends_self.and (readNotice_level ev.fault t ht)).and
      (readNotice_furnished ev.fault hmt)).mono ?_ fun _ _ hu => hu.1.2
    rintro failure u ⟨⟨hread, hu⟩, hmu⟩
    cases failure with
    | some errno => exact readFailed_level errno _ u hu
    | none =>
        dsimp only
        rw [ends_bind]
        refine ((ends_self.and (Preserves.each threadAction_level u hu)).and
          (each_threadAction_furnished ev.between hmu)).mono ?_ fun _ _ hv => hv.1.2
        rintro _ v ⟨⟨hbetween, hv⟩, hmv⟩
        exact takeNotice_level hv hmv fun hn =>
          hs ⟨t, hmean, husb, .inl ⟨hnotice, u, v, hread, hbetween, hn⟩⟩
  · rw [ends_ite]
    refine ⟨fun _ => eventTimer_level _ t ht, fun htimer => ?_⟩
    refine (enableRange_level ht hmt fun hr => hs ⟨t, hmean, husb, .inr ⟨hnotice, htimer, hr⟩⟩).mono
      (fun _ _ hu => hu.1) fun _ _ hu => hu

/-- **A batch** in which nothing is stranded. -/
theorem handleEvents_level {events : List EpollEvent} (h : m.Level) (hm : m.Furnished)
    (hsock : ∀ ev ∈ events, ev.sock ∈ m.epollSet)
    (hs : ¬ Meets (EventStrands env) (handleEvent env) events m) :
    Ends (each events (handleEvent env)) (fun _ t => t.Level) (fun _ t => t.Level) m := by
  refine (ends_each_unless (I := fun t => t.Level ∧ ReflTransGen (Handling env) m t) ⟨h, .refl⟩ hs
    fun ev hev t ht hs => ?_).mono (fun _ _ ht => ht.1) fun _ _ ht => ht
  have hmem : ev.sock ∈ t.epollSet := (handling_fixed ht.2).epollSet ▸ hsock ev hev
  exact ((handleEvent_level ev ht.1 (handling_furnished ht.2 hm) hs).and
    (handleEvent_follows ev hmem)).mono (fun _ _ hu => ⟨hu.1, ht.2.trans hu.2⟩) fun _ _ hu => hu.1

/-! ## The end of a batch -/

theorem cancelEnabled_level (i : ℕ) : Preserves Machine.Level (cancelEnabled i : Run σ Bool) := by
  refine Preserves.bind Preserves.look fun m => ?_
  split
  · exact Preserves.pure
  · exact Preserves.ite
      (Preserves.bind (cancelEntry_level i) fun _ => Preserves.pure) Preserves.pure

theorem leave_level (why : Exit) : Preserves Machine.Level (leave why : Run σ Unit) :=
  Preserves.alter fun _ h => h

theorem endBatch_level : Preserves Machine.Level (endBatch env) := by
  refine Preserves.bind Preserves.look fun m => Preserves.ite Preserves.pure ?_
  refine Preserves.bind (Preserves.rescue (processResetStreamEntry_level true)
    fun _ => Preserves.pure) fun _ => ?_
  refine Preserves.bind Preserves.look fun m => ?_
  refine Preserves.bind (Preserves.anyOf cancelEnabled_level) fun someEnabled => ?_
  refine Preserves.bind (Preserves.alter fun _ h => h) fun _ => ?_
  refine Preserves.bind Preserves.look fun m => ?_
  refine Preserves.ite (Preserves.bind (leave_level _) fun _ => Preserves.pure) ?_
  exact Preserves.ite (Preserves.bind (leave_level _) fun _ => Preserves.pure) Preserves.pure

/-- **A `process_step`** in which nothing is stranded. -/
theorem processStep_level (input : StepInput) (h : m.Level) (hm : m.Furnished)
    (hs : ¬ StepStrands env input m) :
    Ends (processStep env input) (fun _ t => t.Level) (fun _ t => t.Level) m := by
  have hbegin : Machine.Level { m with lastExit := .running } := h.same fun _ => rfl
  unfold processStep leave
  rw [ends_bind, ends_alter, ends_bind, ends_look, id_look, ends_ite]
  refine ⟨fun _ => hbegin, fun _ => ?_⟩
  cases input with
  | failed errno => exact hbegin.same fun _ => rfl
  | ready events =>
      dsimp only
      rw [ends_ite]
      refine ⟨fun _ => hbegin, fun _ => ?_⟩
      rw [ends_rescue]
      unfold processBatch
      rw [ends_bind]
      refine (handleEvents_level hbegin (hm.same (fun _ => rfl) rfl)
        (fun ev hev => epollWait_mem (m := m) hev) fun hm => hs ⟨events, rfl, hm⟩).mono
        (fun _ t ht => ?_) fun _ t ht => ?_
      · exact (endBatch_level t ht).mono (fun _ _ hu => hu) fun _ _ hu => hu.same fun _ => rfl
      · exact ht.same fun _ => rfl

/-- **A run** in which nothing is stranded. -/
theorem engineRun_level {actions : List Action} (h : m.Level) (hm : m.Furnished)
    (hs : ¬ RunStrands env actions m) :
    Ends (engineRun env actions) (fun _ t => t.Level ∧ t.Furnished)
      (fun _ t => t.Level ∧ t.Furnished) m := by
  refine ends_each_unless (I := fun t => t.Level ∧ t.Furnished) ⟨h, hm⟩ hs
    fun a _ t ht ha => ?_
  cases a with
  | step input =>
      refine ends_rescue.mpr (ends_bind.mpr ?_)
      exact ((processStep_level input ht.1 ht.2 fun hstep => ha ⟨input, rfl, hstep⟩).and
        (furnished_lasting.processStep input t ht.2)).mono (fun _ _ hu => hu) fun _ _ hu => hu
  | thread a =>
      exact (threadAction_level a t ht.1).and (furnished_lasting.threadAction a t ht.2)

/-! ## When a shutdown is over -/

/-- **What is level and has landed** is disabled. -/
theorem Machine.Level.disabled (h : m.Level) (hl : m.Landed) : m.AllDisabled :=
  fun i e he => (h i e he).trans (hl.idle i e he)

/-- Where every entry is disabled there is none to cancel. -/
theorem anyOf_cancelEnabled_none (h : m.AllDisabled) : ∀ is : List ℕ,
    anyOf is cancelEnabled m = (.ret false, m)
  | [] => rfl
  | i :: is => by
      have hi : cancelEnabled i m = (.ret false, m) := by
        unfold cancelEnabled
        rw [Prog.bind_ret (p := Prog.look id) (a := m) rfl]
        cases he : m.entryAt i with
        | none => rfl
        | some e =>
            dsimp only
            rw [if_neg (Bool.eq_false_iff.mp (h i e he))]
            rfl
      unfold anyOf andThen
      rw [hi]
      dsimp only
      rw [anyOf_cancelEnabled_none h is]
      rfl

/-- **The end of a batch after which the shutdown is over.** -/
theorem endBatch_over (h : m.Level) (hl : m.Landed) :
    Ends (endBatch env) (fun more t => more = false ∧ t.lastExit = .allDisabled ∧ t.AllDisabled)
      (fun _ _ => False) m := by
  have hcaught : Preserves Machine.Level
      (rescue (processResetStreamEntry env true) fun _ => pure ()) :=
    Preserves.rescue (processResetStreamEntry_level true) fun _ => Preserves.pure
  -- nothing is left to cancel
  have hany : ∀ {u v : Machine σ} {b : Bool},
      rescue (processResetStreamEntry env true) (fun _ => pure ()) m = (.ret (), u) →
      anyOf u.inOrder cancelEnabled u = (.ret b, v) → b = false ∧ v.AllDisabled := by
    intro u v b hreset hany
    have hu : u.Level := ends_ret_of (Q := fun _ t => t.Level) (hcaught m h) hreset
    have hoff := hu.disabled (hl.moves (caughtReset_moves hreset))
    rw [anyOf_cancelEnabled_none hoff] at hany
    cases hany
    exact ⟨rfl, hoff⟩
  refine (endBatch_ends m).mono (fun more t ht => ?_) fun _ _ hf => hf
  cases ht with
  | running hr => exact absurd (hl.shouldRun.symm.trans hr) Bool.false_ne_true
  | disabled _ hreset hb => exact ⟨rfl, rfl, (hany hreset hb).2⟩
  | usedUp _ hreset hb _ => exact absurd (hany hreset hb).1.symm Bool.false_ne_true
  | goesOn _ hreset hb _ => exact absurd (hany hreset hb).1.symm Bool.false_ne_true

/-- **A `process_step` after everything has landed** finds every entry disabled,
unless a handler throws. -/
theorem processStep_over {input : StepInput} (hm : m.Made) (hfurnished : m.Furnished)
    (h : m.Level) (hl : m.Landed) (hev : input.eventful m = true)
    (hs : ¬ StepStrands env input m) :
    Ends (processStep env input)
      (fun more t => more = false ∧ t.lastExit = .allDisabled ∧ t.AllDisabled)
      (fun _ _ => StepRefused env (fun _ => True) input m) m := by
  have hsome := hm.not_none
  refine Ends.mono (Q := fun p t => (p = false ∧ t.lastExit = .allDisabled ∧ t.AllDisabled) ∧ _)
    (Ends.and (E := fun _ _ => True) ?_ (processStep_throws (F := fun _ => True) input hm
      hfurnished)) (fun _ _ h => h.1) fun _ _ h => h.2.mpr trivial
  have hbegin : Machine.Level { m with lastExit := .running } := h.same fun _ => rfl
  have hdown : Machine.Landed { m with lastExit := .running } := ⟨hl.shouldRun, hl.idle⟩
  unfold processStep leave
  rw [ends_bind, ends_alter, ends_bind, ends_look, id_look, if_neg hsome]
  cases input with
  | failed errno => cases hev
  | ready events =>
      have hev : (!(epollWait m events).isEmpty) = true := hev
      have hsome : ¬ (epollWait m events).isEmpty = true := by simpa using hev
      dsimp only
      rw [ends_ite]
      refine ⟨fun hnone => absurd hnone hsome, fun _ => ?_⟩
      rw [ends_rescue]
      unfold processBatch
      rw [ends_bind]
      have hsock : ∀ ev ∈ epollWait m events, ev.sock ∈ m.epollSet :=
        fun ev hev => epollWait_mem hev
      -- the batch leaves every entry level and everything down, and its end sees that
      refine Ends.mono (Ends.and (handleEvents_follows (m := { m with lastExit := .running }) hsock)
        (handleEvents_level hbegin (hfurnished.same (fun _ => rfl) rfl) hsock
          fun hm => hs ⟨events, rfl, hm⟩)) ?_ ?_
      · rintro _ t ⟨hp, ht⟩
        exact (endBatch_over ht (hdown.handling hp)).mono (fun _ _ h => h) fun _ _ hf => hf.elim
      · exact fun _ _ _ => trivial

/-! ## The forced exit -/

/-- Some entry is enabled. -/
def Machine.SomeEnabled (m : Machine σ) : Prop :=
  ∃ i e, m.entryAt i = some e ∧ e.enabled = true

/-- Asking for a cancellation leaves an entry enabled. -/
theorem cancelEnabled_finds (i : ℕ) (m : Machine σ) :
    Ends (cancelEnabled i) (fun b t => b = true ∨ m.SomeEnabled → t.SomeEnabled)
      (fun _ _ => False) m := by
  unfold cancelEnabled
  rw [ends_bind, ends_look, id_look]
  cases he : m.entryAt i with
  | none => exact fun h => h.resolve_left Bool.false_ne_true
  | some e =>
      dsimp only
      rw [ends_ite]
      refine ⟨fun hen => ?_, fun _ => fun h => h.resolve_left Bool.false_ne_true⟩
      unfold cancelEntry libusbCancelTransfer
      simp only [ends_bind, ends_look, id_look, he, if_pos hen, ends_observe, ends_alter]
      refine fun _ => ⟨i, e.askCancel, ?_, hen⟩
      rw [entryAt_modifyEntry_self, note_entryAt, he]
      rfl

theorem anyOf_cancelEnabled_finds : ∀ (is : List ℕ) (m : Machine σ),
    Ends (anyOf is cancelEnabled) (fun b t => b = true ∨ m.SomeEnabled → t.SomeEnabled)
      (fun _ _ => False) m
  | [], _ => fun h => h.resolve_left Bool.false_ne_true
  | i :: is, m => by
      rw [anyOf, ends_andThen]
      refine (cancelEnabled_finds i m).mono ?_ fun _ _ hf => hf
      intro b t hb
      rw [ends_andThen]
      refine (anyOf_cancelEnabled_finds is t).mono ?_ fun _ _ hf => hf
      intro c u hc h
      rcases h with hbc | h
      · rcases Bool.or_eq_true_iff.mp hbc with hb' | hc'
        · exact hc (.inr (hb (.inl hb')))
        · exact hc (.inl hc')
      · exact hc (.inr (hb (.inr h)))

/-- **A batch that ends by the count** leaves an entry enabled. -/
theorem endBatch_forced (h : m.lastExit ≠ .counterUsedUp) :
    Ends (endBatch env) (fun _ t => t.lastExit = .counterUsedUp → t.SomeEnabled)
      (fun _ _ => True) m := by
  refine (endBatch_ends m).mono (fun more t ht hexit => ?_) fun _ _ _ => trivial
  cases ht with
  | running _ => exact absurd hexit h
  | disabled _ _ _ => cases hexit
  | @usedUp u v _ _ hany _ =>
      have hfound := ends_ret_of (anyOf_cancelEnabled_finds u.inOrder u) hany
      obtain ⟨i, e, he, hen⟩ := hfound (.inl rfl)
      exact ⟨i, e, he, hen⟩
  | @goesOn u v hr hreset hany _ =>
      have hkept : v.lastExit = m.lastExit := (moves_kept (wound_moves hr hreset hany)).lastExit
      exact absurd (hkept.symm.trans hexit) h

/-- **A `process_step` that is left by the count**, where nothing is stranded,
leaves a transfer in flight. -/
theorem processStep_forced (input : StepInput) (h : m.Level) (hm : m.Furnished)
    (hs : ¬ StepStrands env input m) :
    Ends (processStep env input) (fun _ t => t.lastExit = .counterUsedUp →
      ∃ i e, t.entryAt i = some e ∧ e.transfer.inFlight = true) (fun _ _ => True) m := by
  have hexit : Ends (processStep env input)
      (fun _ t => t.lastExit = .counterUsedUp → t.SomeEnabled) (fun _ _ => True) m := by
    unfold processStep leave
    rw [ends_bind, ends_alter, ends_bind, ends_look, id_look, ends_ite]
    refine ⟨fun _ hexit => (by cases hexit), fun _ => ?_⟩
    cases input with
    | failed errno => exact fun hexit => by cases hexit
    | ready events =>
        dsimp only
        rw [ends_ite]
        refine ⟨fun _ hexit => (by cases hexit), fun _ => ?_⟩
        rw [ends_rescue]
        unfold processBatch
        rw [ends_bind]
        refine Ends.mono (handleEvents_follows (m := { m with lastExit := .running })
          fun ev hev => epollWait_mem (m := m) hev) ?_ fun _ _ _ => trivial
        intro _ t hp
        have hrunning : t.lastExit = .running := handling_lastExit hp
        refine (endBatch_forced (hrunning ▸ by decide)).mono (fun _ _ h => h) fun _ _ _ => trivial
  refine (Ends.and hexit (processStep_level input h hm hs)).mono ?_ fun _ _ _ => trivial
  rintro _ t ⟨hforced, ht⟩ hleft
  obtain ⟨i, e, he, hen⟩ := hforced hleft
  exact ⟨i, e, he, (ht i e he).symm.trans hen⟩

/-! ## Runs -/

/-- **A set-up in which nothing was stranded**: `should_run` is still up, or no
entry is enabled. -/
theorem SetUp.level {m₀ : Machine σ} (h : SetUp env m₀ m)
    (hup : m.shouldRun = true ∨ m.AllDisabled) : m.Level := by
  have hsound : m.Sound := h.working.1
  intro i e he
  obtain ⟨hheld, hfl⟩ := hsound i e he
  rcases hup with hr | hoff
  · exact Bool.eq_iff_iff.mpr ⟨hfl hr, hheld⟩
  · have hen := hoff i e he
    exact hen.trans (Bool.eq_false_iff.mpr fun h => Bool.eq_false_iff.mp hen (hheld h)).symm

theorem act_beats (a : Action) (m : Machine σ) : Beats .working (act env a) m := by
  cases a with
  | step input =>
      exact Walks.rescue (Walks.bind (processStep_beats input m) fun _ _ _ => Walks.pure)
        fun _ _ _ => Walks.pure
  | thread a => exact threadAction_beats a m

/-- The entries of a session are there throughout its run. -/
theorem engineRun_made {actions : List Action} {o : Outcome Exn Unit} (hm : m.Made)
    (hrun : engineRun env actions m = (o, m')) : m'.Made :=
  (Beats.holdings (Walks.each act_beats) hrun).made.trans hm

/-- **The shutdown test is exact, where nothing is stranded.** In every run of a
session in which no entry is switched on without taking off: an entry is
enabled only where its transfer is in flight. So once everything has
landed the next `process_step` that has an event returns false because all
entries are disabled: it raises only where libusb or a counter callback
fails, and does not come back only where a callback makes a request of its
own. One that is left by the count leaves a transfer in flight. -/
theorem shutdown_exact (env : Env σ) (m₀ m₁ m : Machine σ) (mode : Mode) (actions : List Action)
    (hidle : Idle m₀) (hstart : start env mode m₀ = (.ret (), m₁))
    (hup : m₁.shouldRun = true ∨ m₁.AllDisabled)
    (hrun : engineRun env actions m₁ = (.ret (), m)) (hclean : ¬ RunStrands env actions m₁) :
    (∀ i e, m.entryAt i = some e → e.enabled = true → e.transfer.inFlight = true) ∧
    ∀ input, ¬ StepStrands env input m →
      (m.Landed → input.eventful m = true →
        ((processStep env input m).1 = .hang ∧ ¬ Asleep env) ∨
        StepRefused env (fun _ => True) input m ∨ ∃ t, processStep env input m = (.ret false, t) ∧
          t.lastExit = .allDisabled ∧ t.AllDisabled) ∧
      ∀ more t, processStep env input m = (.ret more, t) → t.lastExit = .counterUsedUp →
        ∃ i e, t.entryAt i = some e ∧ e.transfer.inFlight = true := by
  have hset := ends_ret_of (Q := fun _ t => SetUp env m₀ t) (start_ends hidle mode) hstart
  have hm₁ : m₁.Furnished := by
    cases mode with
    | poll =>
        exact ends_ret_of (furnished_lasting.startPoll m₀ (.of_none hidle.streamstates)) hstart
    | thread =>
        exact ends_ret_of (furnished_lasting.startThread m₀ (.of_none hidle.streamstates)) hstart
  -- the run keeps enabled and in flight the same
  obtain ⟨hlevel, hm⟩ : m.Level ∧ m.Furnished :=
    ends_ret_of (Q := fun _ t => t.Level ∧ t.Furnished)
      (engineRun_level (hset.level hup) hm₁ hclean) hrun
  refine ⟨fun i e he hen => (hlevel i e he).symm.trans hen, fun input hs => ⟨?_, ?_⟩⟩
  · intro hlanded hev
    have hover := processStep_over (engineRun_made hset.made hrun) hm hlevel hlanded hev hs
    unfold Ends at hover
    rcases hstep : processStep env input m with ⟨more | cause | -, t⟩
    · rw [hstep] at hover
      obtain ⟨rfl, hexit, hoff⟩ := hover
      exact .inr (.inr ⟨t, rfl, hexit, hoff⟩)
    · rw [hstep] at hover
      exact .inr (.inl hover)
    -- with everything down only a request keeps a step from coming back
    · have hback : Asleep env → (processStep env input m).1 ≠ .hang :=
        fun h => (processStep_sure h input m hlanded).comesBack
      exact .inl ⟨rfl, fun h => hback h (congrArg Prod.fst hstep)⟩
  · exact fun more t hstep hleft => ends_ret_of (processStep_forced input hlevel hm hs) hstep hleft

/-- Nothing is stranded by libusb's events alone. -/
theorem not_meets_usb : ∀ {events : List EpollEvent} {m : Machine σ},
    (∀ ev ∈ events, ev.meanwhile = [] ∧ ev.sock = m.usbEpollFd) →
      ¬ Meets (EventStrands env) (handleEvent env) events m
  | [], _, _, hmeets => hmeets
  | ev :: events, m, h, .inl ⟨t, hmean, husb, _⟩ => by
      obtain ⟨hnone, hsock⟩ := h ev List.mem_cons_self
      rw [hnone] at hmean
      cases hmean
      exact husb hsock
  | ev :: events, m, h, .inr ⟨t, hrun, hmeets⟩ => by
      have hkept := (handleEvent_beats (b := .working) ev m).holdings hrun
      refine not_meets_usb (fun ev' hev' => ?_) hmeets
      obtain ⟨hnone, hsock⟩ := h ev' (List.mem_cons_of_mem _ hev')
      exact ⟨hnone, hsock.trans hkept.usbEpollFd.symm⟩

/-- So in a batch that is libusb's. -/
theorem not_stepStrands_usb {events : List EpollEvent}
    (h : ∀ ev ∈ events, ev.meanwhile = [] ∧ ev.sock = m.usbEpollFd) :
    ¬ StepStrands env (.ready events) m := by
  rintro ⟨events', heq, hmeets⟩
  obtain rfl := StepInput.ready.inj heq
  refine not_meets_usb (m := { m with lastExit := .running }) (fun ev hev => ?_) hmeets
  exact h ev (List.mem_of_mem_filter (List.mem_of_mem_take hev))

/-- A transfer fails while another is in flight, which stays enabled. -/
theorem shutdown_exact_sample :
    ∃ m : Machine ℕ, m.shouldRun = false ∧ m.flags = [(false, false), (true, true)] ∧
      ∀ i e, m.entryAt i = some e → e.enabled = true → e.transfer.inFlight = true := by
  have hidle : Idle (constructed [sampleStream 64 2 0] ⟨64, 4096⟩ 4) :=
    constructed_idle (by decide +kernel)
  obtain ⟨m, ⟨-, m₁, hstart, hrun⟩, hr, hflags⟩ := exists_session (P := fun m =>
      m.shouldRun = false ∧ m.flags = [(false, false), (true, true)])
    steady .poll [reports [⟨0, .error, [], 0⟩]] hidle (by decide +kernel)
  have hstate : m₁ = (start steady .poll (constructed [sampleStream 64 2 0] ⟨64, 4096⟩ 4)).2 :=
    (congrArg Prod.snd hstart).symm
  have hup : m₁.shouldRun = true ∧ 5 = m₁.usbEpollFd := by
    rw [hstate]
    decide +kernel
  refine ⟨m, hr, hflags, (shutdown_exact steady _ m₁ m .poll _ hidle hstart (.inl hup.1) hrun ?_).1⟩
  rintro (⟨input, h, hs⟩ | ⟨_, _, h⟩)
  · obtain rfl := Action.step.inj h
    exact not_stepStrands_usb (by simpa using hup.2) hs
  · exact h

/-- The notice eventfd is ready. -/
def noticeReady : StepInput := .ready [⟨3, [], [], 0, none, []⟩]

/-- **A write transfer that is left enabled**: a read transfer fails, and the
write descriptor is ready in the same batch. Nothing is in flight from then
on, and `process_step` goes on until its count is used up. -/
theorem write_stranded :
    ∃ m : Machine ℕ, Session steady (constructed [sampleStream 64 1 1] ⟨64, 4096⟩ 4) .poll
        [.step (.ready [⟨5, [], [.completed ⟨0, .error, [], 0⟩], 0, none, []⟩,
          ⟨101, [], [], 0, none, []⟩])] m ∧
      m.shouldRun = false ∧ m.flags = [(false, false), (true, false)] ∧
      noticeReady.eventful m = true ∧ (processStep steady noticeReady m).1 = .ret true ∧
      (stepUntilDone steady [noticeReady, noticeReady, noticeReady] m).1 = .ret () ∧
      (stepUntilDone steady [noticeReady, noticeReady, noticeReady] m).2.lastExit =
        .counterUsedUp ∧
      (stepUntilDone steady [noticeReady, noticeReady, noticeReady] m).2.flags =
        [(false, false), (true, false)] :=
  exists_session steady .poll _ (constructed_idle (by decide +kernel)) (by decide +kernel)

end Stream

end SgFtdi
