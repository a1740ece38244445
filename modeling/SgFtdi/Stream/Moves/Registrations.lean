import SgFtdi.Stream.Moves.Calls

/-!
# Stream — registrations

`add_to_epoll` and `add_to_usb_epoll` throw nothing: where the kernel
refuses a descriptor they record an error and stop the engine, and the
steps of `process_init` that follow are made all the same. `Unregistered`
says where one of them is refused, each being asked in the state the one
before it has left, and `initBody_starts` that the engine is stopped there
and nowhere else.
-/

namespace SgFtdi

namespace Stream

open Prog Relation

variable {σ : Type} {env : Env σ} {m m' t u : Machine σ} {i s : ℕ} {r r' : Prop}
variable {stream : FtdiStreamEntry}

/-! ## Registrations -/

/-- A descriptor is not taken into an epoll. -/
def NotAdded (env : Env σ) (sock epollFd : ℤ) (w : σ) : Prop :=
  (env.addToEpoll sock epollFd w).1 ≠ none

/-- **A part of a start**: the engine is stopped where a registration was
refused, and what is open and registered stays so. -/
structure Proceeds (refused : Prop) (m t : Machine σ) : Prop where
  halted : t.shouldRun = false ↔ m.shouldRun = false ∨ refused
  shouldCancel : t.shouldRun = true → t.shouldCancel = m.shouldCancel
  holdings : SameHoldings m.outline t.outline
  noticeEventFd : t.noticeEventFd = m.noticeEventFd
  streams : t.streams = m.streams
  epollSet : ∀ sock ∈ m.epollSet, sock ∈ t.epollSet

namespace Proceeds

theorem stays (h : Proceeds r m t) (ht : t.shouldRun = true) : m.shouldRun = true := by
  rw [← Bool.not_eq_false] at ht ⊢
  exact fun hm => ht (h.halted.mpr (.inl hm))

theorem refl : Proceeds False m m :=
  ⟨by simp, fun _ => rfl, ⟨rfl, rfl, rfl, rfl⟩, rfl, rfl, fun _ hs => hs⟩

theorem trans (h : Proceeds r m t) (h' : Proceeds r' t u) : Proceeds (r ∨ r') m u := by
  refine ⟨?_, fun hu => ?_, h.holdings.trans h'.holdings, h'.noticeEventFd.trans h.noticeEventFd,
    h'.streams.trans h.streams, fun sock hs => h'.epollSet sock (h.epollSet sock hs)⟩
  · rw [h'.halted, h.halted, or_assoc]
  · exact (h'.shouldCancel hu).trans (h.shouldCancel (h'.stays hu))

theorem congr (h : Proceeds r m t) (hr : r ↔ r') : Proceeds r' m t :=
  ⟨h.halted.trans (by rw [hr]), h.shouldCancel, h.holdings, h.noticeEventFd, h.streams, h.epollSet⟩

/-- A part in which nothing is registered. -/
theorem still (h : Proceeds r m t) (h' : Proceeds False t u) : Proceeds r m u :=
  (h.trans h').congr (by simp)

theorem andThen (h : Proceeds False m t) (h' : Proceeds r t u) : Proceeds r m u :=
  (h.trans h').congr (by simp)

theorem of_frame (h : Frame m t) : Proceeds False m t := by
  rw [h.eq]
  exact ⟨by simp, fun _ => rfl, ⟨rfl, rfl, rfl, rfl⟩, rfl, rfl, fun _ hs => hs⟩

theorem modify (i : ℕ) (f : FtdiStreamStaticState → FtdiStreamStaticState) :
    Proceeds False m (m.modifyEntry i f) :=
  ⟨by simp, fun _ => rfl, ⟨modifyEntry_made m i f, rfl, rfl, rfl⟩, rfl, rfl, fun _ hs => hs⟩

theorem withWorld (w : σ) : Proceeds False m (m.withWorld w) :=
  ⟨by simp, fun _ => rfl, ⟨rfl, rfl, rfl, rfl⟩, rfl, rfl, fun _ hs => hs⟩

theorem offered (m : Machine σ) (i : ℕ) (e : FtdiStreamStaticState) (taken : Bool) :
    Proceeds False m (m.offered env i e taken) :=
  ⟨by simp [Machine.offered], fun _ => rfl, ⟨rfl, rfl, rfl, rfl⟩, rfl, rfl, fun _ hs => hs⟩

theorem emplaced (e : FtdiStreamStaticState) : Proceeds False m (m.emplaced e) := by
  refine ⟨by simp [Machine.emplaced], fun _ => rfl, ⟨?_, rfl, rfl, rfl⟩, rfl, rfl, fun _ hs => hs⟩
  exact Option.isSome_map

theorem errored (m : Machine σ) (message : Message) :
    Proceeds True m (m.errored env message) := by
  obtain ⟨errors, seen, h, -⟩ := errored_eq env m message
  rw [h]
  exact ⟨by simp, by simp, ⟨rfl, rfl, rfl, rfl⟩, rfl, rfl, fun _ hs => hs⟩

end Proceeds

theorem errored_streamstates (m : Machine σ) (message : Message) :
    (m.errored env message).streamstates = m.streamstates := by
  obtain ⟨errors, seen, h, -⟩ := errored_eq env m message
  rw [h]
  rfl

/-- **`add_to_epoll`** stops the engine where it is refused, and registers
the descriptor otherwise. -/
theorem addToEpoll_proceeds (sock : ℤ) (m : Machine σ) :
    Ends (addToEpoll env sock)
      (fun _ t => Proceeds (NotAdded env sock m.epollFd m.world) m t ∧
        t.streamstates = m.streamstates ∧ (t.shouldRun = true → sock ∈ t.epollSet))
      (fun _ _ => False) m := by
  unfold addToEpoll NotAdded
  rw [ends_bind, ends_look, id_look, ends_bind, ends_askWorld]
  cases (env.addToEpoll sock m.epollFd m.world).1 with
  | none =>
      refine ⟨⟨by simp, fun _ => rfl, ⟨rfl, rfl, rfl, rfl⟩, rfl, rfl, fun s hs => ?_⟩, rfl,
        fun _ => List.mem_insert_self⟩
      exact List.mem_insert_of_mem hs
  | some cause =>
      rw [ends_error]
      refine ⟨((Proceeds.withWorld _).andThen (.errored _ _)).congr (by simp), ?_, fun hr => ?_⟩
      · exact errored_streamstates _ _
      · rw [errored_shouldRun] at hr
        cases hr

theorem addToUsbEpoll_proceeds (sock : ℤ) (m : Machine σ) :
    Ends (addToUsbEpoll env sock)
      (fun _ t => Proceeds (NotAdded env sock m.usbEpollFd m.world) m t ∧
        t.streamstates = m.streamstates) (fun _ _ => False) m := by
  unfold addToUsbEpoll NotAdded
  rw [ends_bind, ends_look, id_look, ends_bind, ends_askWorld]
  cases (env.addToEpoll sock m.usbEpollFd m.world).1 with
  | none =>
      exact ⟨⟨by simp, fun _ => rfl, ⟨rfl, rfl, rfl, rfl⟩, rfl, rfl, fun s hs => hs⟩, rfl⟩
  | some cause =>
      rw [ends_error]
      exact ⟨((Proceeds.withWorld _).andThen (.errored _ _)).congr (by simp),
        errored_streamstates _ _⟩

/-- **A loop of a start**: each turn proceeds, and so does the loop. -/
theorem each_proceeds {β : Type} {B : β → Machine σ → Prop} {f : β → Run σ Unit}
    {J : Machine σ → Prop} {l : List β} (hp : Proceeds r' m t) (hJ : J t)
    (hbody : ∀ x u, (∃ r, Proceeds r m u) → J u →
      Ends (f x) (fun _ v => Proceeds (B x u) u v ∧ J v) (fun _ _ => True) u) :
    Ends (each l f) (fun _ v => Proceeds (r' ∨ Meets B f l t) m v ∧ J v)
      (fun _ _ => True) t := by
  have hloop := ends_each_meets (B := B) (f := f) (R := fun u => u.shouldRun = false)
    (I := fun u => (∃ r, Proceeds r m u) ∧ J u) (l := l) ⟨⟨_, hp⟩, hJ⟩ fun x u hu => ?_
  · refine hloop.mono ?_ fun _ _ _ => trivial
    rintro _ v ⟨⟨⟨r, hr⟩, hv⟩, hiff⟩
    refine ⟨⟨hiff.trans ?_, hr.shouldCancel, hr.holdings, hr.noticeEventFd, hr.streams,
      hr.epollSet⟩, hv⟩
    rw [hp.halted, or_assoc]
  · obtain ⟨⟨r, hr⟩, hu⟩ := hu
    refine (hbody x u ⟨r, hr⟩ hu).mono (fun _ v hv => ?_) fun _ _ _ => trivial
    exact ⟨⟨⟨_, hr.trans hv.1⟩, hv.2⟩, hv.1.halted⟩

/-! ## The descriptors -/

/-- The registration of `usb_epoll_fd` is refused, after two epolls were
created. -/
def UsbEpollRefused (env : Env σ) (m : Machine σ) : Prop :=
  let epoll := env.epollCreate m.world
  let usbEpoll := env.epollCreate epoll.2
  NotAdded env usbEpoll.1 epoll.1 usbEpoll.2

/-- The registration of `timer_fd` is refused, after the timer was
started. -/
def TimerRefused (env : Env σ) (m : Machine σ) : Prop :=
  let timer := env.timerfdCreate m.world
  NotAdded env timer.1 m.epollFd (env.timerfdSettime timer.2).2

/-- The registration of a descriptor libusb polls on is refused. -/
def PollfdRefused (env : Env σ) (m : Machine σ) : Prop :=
  ∃ fds, (env.getPollfds m.world).1 = some fds ∧
    Meets (fun fd t => NotAdded env fd t.usbEpollFd t.world) (addToUsbEpoll env) fds
      (m.withWorld (env.getPollfds m.world).2)

/-- **A registration of `process_init` before the streams is refused**, each
being asked in the state the one before it has left. -/
def DescriptorRefused (env : Env σ) (m : Machine σ) : Prop :=
  UsbEpollRefused env m ∨ After (openEpolls env) (fun _ m₁ =>
    NotAdded env m₁.noticeEventFd m₁.epollFd m₁.world ∨
      After (addToEpoll env m₁.noticeEventFd) (fun _ m₂ =>
        TimerRefused env m₂ ∨ After (openTimer env) (fun _ m₃ => PollfdRefused env m₃) m₂) m₁) m

/-- The three descriptors a session waits for are registered. -/
structure Registered (m : Machine σ) : Prop where
  usbEpollFd : m.usbEpollFd ∈ m.epollSet
  noticeEventFd : m.noticeEventFd ∈ m.epollSet
  timerFd : m.timerFd ∈ m.epollSet

theorem Registered.proceeds (hm : Registered m) (h : Proceeds r m t) : Registered t := by
  have husb : t.usbEpollFd = m.usbEpollFd := h.holdings.usbEpollFd
  have htimer : t.timerFd = m.timerFd := h.holdings.timerFd
  refine ⟨h.epollSet _ ?_, h.epollSet _ ?_, h.epollSet _ ?_⟩
  · exact husb ▸ hm.usbEpollFd
  · exact h.noticeEventFd ▸ hm.noticeEventFd
  · exact htimer ▸ hm.timerFd

theorem openEpolls_proceeds (m : Machine σ) :
    Ends (openEpolls env)
      (fun _ t => ∃ epollFd usbEpollFd, Proceeds (UsbEpollRefused env m)
        { m with epollFd := epollFd, usbEpollFd := usbEpollFd, epollSet := [] } t ∧
        t.streamstates = m.streamstates ∧ (t.shouldRun = true → t.usbEpollFd ∈ t.epollSet))
      (fun _ _ => True) m := by
  unfold openEpolls UsbEpollRefused
  simp only [ends_bind, ends_askWorld, ends_alter, ends_ite, ends_raise, ends_observe]
  refine ⟨fun _ => trivial, fun _ => ⟨fun _ => trivial, fun _ => ?_⟩⟩
  refine (addToEpoll_proceeds _ _).mono ?_ fun _ _ hf => hf.elim
  rintro _ t ⟨hp, hs, hin⟩
  refine ⟨_, _, ⟨hp.halted, hp.shouldCancel, ⟨hp.holdings.made,
    hp.holdings.epollFd, hp.holdings.usbEpollFd, hp.holdings.timerFd⟩,
    hp.noticeEventFd, hp.streams, hp.epollSet⟩, hs, fun hr => ?_⟩
  have hfd : t.usbEpollFd = (env.epollCreate (env.epollCreate m.world).2).1 :=
    hp.holdings.usbEpollFd
  exact hfd ▸ hin hr

theorem openTimer_proceeds (m : Machine σ) :
    Ends (openTimer env)
      (fun _ t => ∃ timerFd, Proceeds (TimerRefused env m) { m with timerFd := timerFd } t ∧
        t.streamstates = m.streamstates ∧ (t.shouldRun = true → t.timerFd ∈ t.epollSet))
      (fun _ _ => True) m := by
  unfold openTimer TimerRefused
  simp only [ends_bind, ends_askWorld, ends_alter, ends_ite, ends_raise, ends_observe]
  refine ⟨fun _ => trivial, fun _ => ⟨fun _ => trivial, fun _ => ?_⟩⟩
  refine (addToEpoll_proceeds _ _).mono ?_ fun _ _ hf => hf.elim
  rintro _ t ⟨hp, hs, hin⟩
  refine ⟨_, ⟨hp.halted, hp.shouldCancel, ⟨hp.holdings.made,
    hp.holdings.epollFd, hp.holdings.usbEpollFd, hp.holdings.timerFd⟩,
    hp.noticeEventFd, hp.streams, hp.epollSet⟩, hs, fun hr => ?_⟩
  have hfd : t.timerFd = (env.timerfdCreate m.world).1 := hp.holdings.timerFd
  exact hfd ▸ hin hr

theorem registerPollfds_proceeds (m : Machine σ) :
    Ends (registerPollfds env)
      (fun _ t => Proceeds (PollfdRefused env m) m t ∧ t.streamstates = m.streamstates)
      (fun _ _ => True) m := by
  unfold registerPollfds
  rw [ends_bind, ends_askWorld]
  cases hfds : (env.getPollfds m.world).1 with
  | none => trivial
  | some fds =>
      have hwhy : PollfdRefused env m ↔ Meets (fun fd t => NotAdded env fd t.usbEpollFd t.world)
          (addToUsbEpoll env) fds (m.withWorld (env.getPollfds m.world).2) := by
        unfold PollfdRefused
        simp [hfds]
      rw [hwhy]
      have hloop := each_proceeds (B := fun fd t => NotAdded env fd t.usbEpollFd t.world)
        (f := addToUsbEpoll env) (J := fun t => t.streamstates = m.streamstates) (l := fds)
        (Proceeds.withWorld (m := m) (env.getPollfds m.world).2) rfl fun fd u _ hu => ?_
      · exact hloop.mono (fun _ v hv => ⟨hv.1.congr (by simp), hv.2⟩) fun _ _ _ => trivial
      · exact (addToUsbEpoll_proceeds fd u).mono (fun _ v hv => ⟨hv.1, hv.2.trans hu⟩)
          fun _ _ _ => trivial

/-- **The descriptors of a session** are open and registered, where none was
refused. -/
theorem openDescriptors_proceeds (m : Machine σ) :
    Ends (openDescriptors env)
      (fun _ t => (t.shouldRun = false ↔ m.shouldRun = false ∨ DescriptorRefused env m) ∧
        (t.shouldRun = true → t.shouldCancel = m.shouldCancel ∧ Registered t) ∧
        t.streams = m.streams ∧ t.streamstates = m.streamstates)
      (fun _ _ => True) m := by
  unfold openDescriptors
  rw [ends_bind]
  refine (ends_self.and (openEpolls_proceeds m)).mono ?_ fun _ _ _ => trivial
  rintro _ m₁ ⟨hrun₁, epollFd, usbEpollFd, h₁, hs₁, hin₁⟩
  rw [ends_bind, ends_look, id_look, ends_bind]
  refine (ends_self.and (addToEpoll_proceeds _ m₁)).mono ?_ fun _ _ _ => trivial
  rintro _ m₂ ⟨hrun₂, h₂, hs₂, hin₂⟩
  rw [ends_bind]
  refine (ends_self.and (openTimer_proceeds m₂)).mono ?_ fun _ _ _ => trivial
  rintro _ m₃ ⟨hrun₃, timerFd, h₃, hs₃, hin₃⟩
  rw [ends_bind]
  refine (registerPollfds_proceeds m₃).mono ?_ fun _ _ _ => trivial
  rintro _ m₄ ⟨h₄, hs₄⟩
  -- each refusal is read off the state that the steps before have left
  have hwhy : DescriptorRefused env m ↔ UsbEpollRefused env m ∨
      NotAdded env m₁.noticeEventFd m₁.epollFd m₁.world ∨ TimerRefused env m₂ ∨
        PollfdRefused env m₃ := by
    unfold DescriptorRefused
    rw [after_iff hrun₁, after_iff hrun₂, after_iff hrun₃]
  refine ⟨?_, fun hr₄ => ?_, ?_, hs₄.trans (hs₃.trans (hs₂.trans hs₁))⟩
  · show m₄.shouldRun = false ↔ _
    rw [h₄.halted, h₃.halted, hwhy]
    show (m₂.shouldRun = false ∨ _) ∨ _ ↔ _
    rw [h₂.halted, h₁.halted]
    simp only [or_assoc]
  · have hr₃ := h₄.stays hr₄
    have hr₂ : m₂.shouldRun = true := h₃.stays hr₃
    have hr₁ := h₂.stays hr₂
    have hreg : Registered m₃ := by
      have husb : m₃.usbEpollFd = m₁.usbEpollFd :=
        h₃.holdings.usbEpollFd.trans h₂.holdings.usbEpollFd
      have hnotice : m₃.noticeEventFd = m₁.noticeEventFd := h₃.noticeEventFd.trans h₂.noticeEventFd
      refine ⟨?_, ?_, hin₃ hr₃⟩
      · exact husb ▸ h₃.epollSet _ (h₂.epollSet _ (hin₁ hr₁))
      · exact hnotice ▸ h₃.epollSet _ (hin₂ hr₂)
    have hreg₄ := hreg.proceeds h₄
    refine ⟨?_, ⟨hreg₄.usbEpollFd, hreg₄.noticeEventFd, hreg₄.timerFd⟩⟩
    exact (h₄.shouldCancel hr₄).trans ((h₃.shouldCancel hr₃).trans ((h₂.shouldCancel hr₂).trans
      (h₁.shouldCancel hr₁)))
  · exact h₄.streams.trans (h₃.streams.trans (h₂.streams.trans h₁.streams))

/-! ## The reset of the streams -/

/-- **The user asks nothing of the engine** from inside a callback that a
start calls. A request would wait for `_mutex`, which the start holds. -/
structure Unasking (env : Env σ) : Prop where
  callback : ∀ isReading s type buffer len w,
    (env.callback isReading s type buffer len w).1.requests = []
  resetCallback : ∀ s w, (env.resetCallback s w).1.reply.requests = []

theorem comeBack_comesBack {α : Type} {reply : Reply α} (h : reply.requests = []) :
    ComesBack (comeBack env reply) := by
  unfold comeBack
  rw [h]
  refine ComesBack.bind ComesBack.pure fun _ => ?_
  cases reply.result with
  | ok a => exact ComesBack.pure
  | error cause => exact ComesBack.raise

section Nobody

variable (h : ∀ i, m.entryAt i = none)
include h

/-- A completion of no entry is no completion. -/
theorem complete_nobody (c : Completion) : complete env c m = (.ret (), m) := by
  unfold complete
  rw [Prog.bind_ret (p := Prog.look id) (a := m) rfl, h]
  rfl

theorem each_complete_nobody (cs : List Completion) :
    each cs (complete env) m = (.ret (), m) := by
  induction cs with
  | nil => rfl
  | cons c cs ih =>
      show andThen (complete env c) (fun _ => each cs (complete env)) m = _
      unfold andThen
      rw [complete_nobody h]
      exact ih

theorem controlTransfer_nobody (f : σ → (ℤ × List Completion) × σ) :
    controlTransfer env f m = (.ret (f m.world).1.1, m.withWorld (f m.world).2) := by
  show andThen (each (f m.world).1.2 (complete env)) (fun _ => pure (f m.world).1.1)
    (m.withWorld (f m.world).2) = _
  unfold andThen
  rw [each_complete_nobody (m := m.withWorld (f m.world).2) h]
  rfl

theorem resetEntry_runs (s : ℕ) (stream : FtdiStreamEntry) :
    Runs (resetEntry env s stream) (fun _ t => Quiet env m t) (fun _ _ => True)
      (fun _ => ¬ Unasking env) m := by
  unfold resetEntry
  rw [runs_ite]
  refine ⟨fun _ => ?_, fun _ => ?_⟩
  · rw [runs_bind, runs_askWorld, runs_bind]
    unfold Runs
    rw [each_complete_nobody (m := m.withWorld (env.resetCallback s m.world).2) h]
    refine Runs.mono (Ends.runs_unless (comeBack_ends _ _) fun hu : Unasking env =>
      comeBack_comesBack (hu.resetCallback s m.world)) ?_ (fun _ _ _ => trivial) fun _ hu => hu
    exact fun _ _ hq => (Quiet.world (.resetCallback s)).trans hq.1
  · rw [runs_bind]
    unfold Runs
    rw [controlTransfer_nobody h]
    refine runs_ite.mpr ⟨fun _ => trivial, fun _ => ?_⟩
    rw [runs_bind]
    unfold Runs
    rw [controlTransfer_nobody (m := m.withWorld (env.ftdiSetBitmode s m.world).2) h]
    exact runs_ite.mpr ⟨fun _ => trivial, fun _ =>
      (Quiet.world (.ftdiSetBitmode s)).trans (Quiet.world (.ftdiTcioflush s))⟩

/-- **While there are no entries** a reset of all streams is the user's
business. -/
theorem resetAll_runs :
    Runs (processResetStreamEntry env true) (fun _ t => Quiet env m t) (fun _ _ => True)
      (fun _ => ¬ Unasking env) m := by
  unfold processResetStreamEntry
  rw [runs_bind, runs_look, id_look, if_pos rfl]
  refine runs_each (I := fun t => Quiet env m t) .refl fun s t ht => ?_
  unfold resetAt
  rw [runs_bind, runs_look, id_look]
  cases t.streams[s]? with
  | none => trivial
  | some stream =>
      exact (resetEntry_runs (fun i => (ht.frame.entryAt i).trans (h i)) s stream).mono
        (fun _ _ hu => ht.trans hu) (fun _ _ _ => trivial) fun _ hu => hu

end Nobody

/-! ## The entries -/

/-- The descriptor of a new write entry is not registered, after its buffer
was allocated. -/
def WatchRefused (env : Env σ) (i : ℕ) (stream : FtdiStreamEntry) (m : Machine σ) : Prop :=
  ∃ e, m.entryAt i = some e ∧ e.isReading = false ∧
    let buffer := env.malloc (e.fill m.toFtdiStreamState stream).bufferSize m.world
    buffer.1 = true ∧ NotAdded env e.eventfd m.epollFd buffer.2

/-- The same for an entry that is about to be created: its descriptor was
given, and its transfer allocated. -/
def EntryRefused (env : Env σ) (s : ℕ) (stream : FtdiStreamEntry) (isReading : Bool) (t : ℕ)
    (m : Machine σ) : Prop :=
  After (userCall env (env.callback isReading s (getFdType isReading) [] 0)) (fun a m₁ =>
    (env.allocTransfer m₁.world).1 = true ∧
      WatchRefused env m₁.entries.length stream ((m₁.withWorld
        (env.allocTransfer m₁.world).2).emplaced
          (newEntry s t isReading stream.readIncludeModemStatus a.1))) m

/-- The same for the entries of a stream: the reads first, and then the
writes. -/
def StreamRefused (env : Env σ) (s : ℕ) (m : Machine σ) : Prop :=
  ∃ stream, m.streams[s]? = some stream ∧
    (Meets (fun t => EntryRefused env s stream true t) (createStreamstate env s stream true)
        (List.range stream.readTransfers) m ∨
      After (each (List.range stream.readTransfers) (createStreamstate env s stream true))
        (fun _ m₁ => Meets (fun t => EntryRefused env s stream false t)
          (createStreamstate env s stream false)
          ((List.range stream.writeTransfers).map (stream.readTransfers + ·)) m₁) m)

/-- **A registration of `process_init` is refused.** -/
def Unregistered (env : Env σ) (m₀ : Machine σ) : Prop :=
  let begun := (m₀.withWorld (env.monotime m₀.world).2).begun (env.monotime m₀.world).1
  DescriptorRefused env begun ∨ After (openDescriptors env) (fun _ m₁ =>
    After (processResetStreamEntry env true) (fun _ m₂ =>
      Meets (StreamRefused env) (createStream env) (List.range m₂.streams.length) m₂) m₁) begun

theorem Proceeds.of_calm (h : Calm env m t) : Proceeds False m t := by
  refine ⟨by rw [h.shouldRun]; simp, fun _ => h.shouldCancel, ⟨h.made, ?_, ?_, ?_⟩, ?_, h.streams,
    fun sock hs => h.epollSet ▸ hs⟩ <;> rw [h.eq] <;> rfl

theorem Submitted.proceeds (h : Submitted env i m t) : Proceeds False m t := by
  cases h with
  | kept _ => exact .refl
  | idle he _ _ hp =>
      exact (Proceeds.of_calm (hp.sized he).calm).andThen (.modify i _)
  | launched he _ _ hp _ _ =>
      exact (Proceeds.of_calm (hp.sized he).calm).andThen (.still (.offered ..) (.modify i _))

/-- **The initialisation of an entry** stops the engine where its descriptor
is not registered. -/
theorem initEntry_proceeds {e : FtdiStreamStaticState} (he : m.entryAt i = some e) :
    Ends (initEntry env i stream) (fun _ t => Proceeds (WatchRefused env i stream m) m t)
      (fun _ _ => True) m := by
  have he₁ : (m.modifyEntry i (.fill m.toFtdiStreamState stream)).entryAt i =
      some (e.fill m.toFtdiStreamState stream) := by
    rw [entryAt_modifyEntry_self, he]
    rfl
  unfold initEntry
  simp only [ends_bind, ends_look, id_look, ends_alter, he₁, ends_askWorld, modifyEntry_world,
    ends_ite, ends_raise]
  refine ⟨fun _ => trivial, fun hfound => ?_⟩
  rw [Bool.not_eq_false] at hfound
  have hready := ((Proceeds.modify (m := m) i (.fill m.toFtdiStreamState stream)).still
    (.withWorld (env.malloc (e.fill m.toFtdiStreamState stream).bufferSize m.world).2)).still
      (.modify i (.allocate (env.malloc (e.fill m.toFtdiStreamState stream).bufferSize
        m.world).1))
  have hwhy : WatchRefused env i stream m ↔ e.isReading = false ∧ NotAdded env e.eventfd m.epollFd
      (env.malloc (e.fill m.toFtdiStreamState stream).bufferSize m.world).2 := by
    unfold WatchRefused
    simp [he, hfound]
  unfold watch
  rw [ends_ite, fill_isReading, fill_eventfd]
  refine ⟨fun hr => ?_, fun hr => ?_⟩
  · refine (submit_ends i _).mono (fun _ t hs => ?_) fun _ _ _ => trivial
    exact (hready.still hs.proceeds).congr (by simp [hwhy, hr])
  · refine (addToEpoll_proceeds _ _).mono (fun _ t ht => ?_) fun _ _ _ => trivial
    refine (submit_ends i t).mono (fun _ u hs => ?_) fun _ _ _ => trivial
    refine (hready.andThen (ht.1.still hs.proceeds)).congr ?_
    rw [hwhy, Bool.not_eq_true] at *
    exact ⟨fun h => ⟨hr, h⟩, fun h => h.2⟩

theorem createStreamstate_proceeds (hm : m.Made) (isReading : Bool) (j : ℕ) :
    Ends (createStreamstate env s stream isReading j)
      (fun _ t => Proceeds (EntryRefused env s stream isReading j m) m t) (fun _ _ => True) m := by
  unfold createStreamstate
  rw [ends_bind]
  refine (ends_self.and (userCall_ends _ m)).mono ?_ fun _ _ _ => trivial
  rintro ⟨fd, b⟩ m₁ ⟨hrun, hq, -⟩
  simp only [ends_bind, ends_askWorld, ends_ite, ends_raise, ends_look, id_look, ends_alter]
  refine ⟨fun _ => trivial, fun halloc => ?_⟩
  rw [Bool.not_eq_false] at halloc
  have hp : Proceeds False m (m₁.withWorld (env.allocTransfer m₁.world).2) :=
    ((Proceeds.withWorld _).still (.of_frame hq.frame)).still (.withWorld _)
  have hwhy : EntryRefused env s stream isReading j m ↔
      WatchRefused env m₁.entries.length stream ((m₁.withWorld
        (env.allocTransfer m₁.world).2).emplaced
          (newEntry s j isReading stream.readIncludeModemStatus fd)) := by
    unfold EntryRefused
    rw [after_iff hrun]
    simp [halloc]
  have he := emplaced_entryAt (m := m₁.withWorld (env.allocTransfer m₁.world).2)
    (hp.holdings.made.trans hm) (newEntry s j isReading stream.readIncludeModemStatus fd)
  refine (initEntry_proceeds he).mono (fun _ t ht => ?_) fun _ _ _ => trivial
  exact ((hp.still (.emplaced _)).andThen ht).congr hwhy.symm

/-- The user has nothing to send in the buffer of an entry. -/
def NothingToSend (env : Env σ) (e : FtdiStreamStaticState) : Prop :=
  ∃ buffer w b,
    (env.callback false e.streamId .writeFillBuffer buffer e.bufferSize w).1.result = .ok (0, b)

/-- **An entry has started**: a read entry that is to start is in flight,
where its buffer has room for anything, and a write entry is where the user
had something to send. -/
structure EntryStarted (env : Env σ) (streams : List FtdiStreamEntry) (e : FtdiStreamStaticState) :
    Prop where
  reads : e.isReading = true → ∀ stream, streams[e.streamId]? = some stream →
    (e.transfer.inFlight = true ↔ stream.readStartEnabled = true ∧ e.bufferSize ≠ 0)
  writes : e.isReading = false →
    e.transfer.inFlight = true ∨ (e.enabled = false ∧ NothingToSend env e)

theorem EntryStarted.twin {streams : List FtdiStreamEntry} {e e' : FtdiStreamStaticState}
    (h : EntryStarted env streams e) (ht : Twin e e') : EntryStarted env streams e' := by
  refine ⟨fun hrd stream hs => ?_, fun hwr => ?_⟩
  · rw [ht.inFlight, ht.bufferSize]
    exact h.reads (ht.isReading ▸ hrd) stream (ht.streamId ▸ hs)
  · rw [ht.inFlight, ht.enabled, NothingToSend, ht.streamId, ht.bufferSize]
    exact h.writes (ht.isReading ▸ hwr)

theorem Prepared.filled {e : FtdiStreamStaticState} {n : ℤ} (h : Prepared env i e m n m')
    (hwr : e.isReading = false) : ∃ bytes,
      (env.callback false e.streamId .writeFillBuffer (e.transfer.buffer.getD []) e.bufferSize
        m.world).1.result = .ok (n, bytes) := by
  cases h with
  | reading hrd => exact absurd (hwr.symm.trans hrd) Bool.false_ne_true
  | writing _ hf =>
      cases hf with
      | mk hres _ => exact ⟨_, hres⟩

theorem Submitted.nothing {e e' : FtdiStreamStaticState} (h : Submitted env i m m')
    (he : m.entryAt i = some e) (hen : e.enabled = true) (hr : m.shouldRun = true)
    (hwr : e.isReading = false) (he' : m'.entryAt i = some e')
    (hidle : e'.transfer.inFlight = false) : NothingToSend env e := by
  cases h with
  | kept hk => exact absurd ((hk hr e he).symm.trans hen) Bool.false_ne_true
  | idle he₁ _ _ hp =>
      rw [he, Option.some_inj] at he₁
      subst he₁
      obtain ⟨bytes, hres⟩ := hp.filled hwr
      exact ⟨_, _, _, hres⟩
  | launched _ _ _ _ _ he₂ =>
      rw [launched_entryAt he₂, Option.some_inj] at he'
      rw [← he'] at hidle
      cases hidle

/-- **A new entry has started**, where the engine runs. -/
theorem Created.started {isReading : Bool} {j : ℕ} (h : Created env s j stream isReading m m')
    (hr : m'.shouldRun = true) :
    ∃ e', m'.entryAt m.entries.length = some e' ∧ EntryStarted env m.streams e' := by
  obtain ⟨-, fd, e₀, e', -, he₀, he', hsame, hcase⟩ := h.entries
  have hs := h.stream
  have hid : e₀.streamId = s := by
    rw [he₀]
    unfold FtdiStreamStaticState.fresh FtdiStreamStaticState.fill
    split <;> rfl
  have hrd₀ : e₀.isReading = isReading := by
    rw [he₀]
    exact fill_isReading m.toFtdiStreamState stream _
  refine ⟨e', he', fun hrd stream' hs' => ?_, fun hwr => ?_⟩
  · have hrd : isReading = true := hrd₀.symm.trans (hsame.isReading.symm.trans hrd)
    rw [hsame.streamId, hid, hs, Option.some_inj] at hs'
    subst hs'
    have hen₀ : e₀.enabled = stream.readStartEnabled := by
      rw [he₀, hrd]
      rfl
    rw [hsame.bufferSize, ← hen₀]
    rcases hcase with ⟨hfl, hoff⟩ | ⟨-, hen, -, hfl, hsize⟩
    · obtain ⟨-, hzero⟩ := hoff hr
      rw [hfl]
      exact ⟨fun h => absurd h Bool.false_ne_true, fun ⟨h₁, h₂⟩ => absurd (hzero h₁ hrd) h₂⟩
    · exact ⟨fun _ => ⟨hen, hsize hrd⟩, fun _ => hfl⟩
  · have hwr₀ : isReading = false := hrd₀.symm.trans (hsame.isReading.symm.trans hwr)
    have hen₀ : e₀.enabled = true := by
      rw [he₀, hwr₀]
      rfl
    rcases hcase with ⟨hfl, hoff⟩ | ⟨-, -, -, hfl, -⟩
    · refine .inr ⟨(hoff hr).1, ?_⟩
      unfold NothingToSend
      rw [hsame.streamId, hsame.bufferSize, hid]
      -- another look at the same entry, which tells what the user answered
      cases h with
      | @mk fd' m₁ _ _ hm _ hready hsub =>
          obtain ⟨e₁, he₁, hm₁, -⟩ := hready.fresh hm
          have hnothing := hsub.nothing hm₁ (by rw [he₁, hwr₀]; rfl)
            (hsub.shouldRun.symm.trans hr) (by rw [he₁, hwr₀]; rfl) he' hfl
          have hid₁ : e₁.streamId = s := by rw [he₁, hwr₀]; rfl
          have hsize : e₁.bufferSize = e₀.bufferSize := by rw [he₁, he₀, hwr₀]; rfl
          rw [← hid₁, ← hsize]
          exact hnothing
    · exact .inl hfl

/-- Every entry has started, where the engine runs. -/
def AllStarted (env : Env σ) (m : Machine σ) : Prop :=
  m.shouldRun = true → ∀ i e, m.entryAt i = some e → EntryStarted env m.streams e

theorem AllStarted.quiet (h : AllStarted env m) (hq : Quiet env m t) : AllStarted env t := by
  intro hr i e he
  rw [hq.frame.entryAt] at he
  rw [hq.frame.streams]
  exact h (hq.frame.shouldRun.symm.trans hr) i e he

theorem AllStarted.created {isReading : Bool} {j : ℕ} (h : AllStarted env m)
    (hc : Created env s j stream isReading m m') : AllStarted env m' := by
  intro hr i e' he'
  rw [hc.streams]
  by_cases hi : m.entries.length = i
  · obtain ⟨e₁, he₁, hstarted⟩ := hc.started hr
    rw [hi, he', Option.some_inj] at he₁
    exact he₁ ▸ hstarted
  · have hj := hc.entries.1 i hi
    rw [he'] at hj
    generalize hx : m.entryAt i = x at hj
    cases hj with
    | some ht => exact (h (hc.stays hr) i _ hx).twin ht

/-- **The entries of one direction of a stream.** -/
theorem createAll_proceeds (hs : m.streams[s]? = some stream) (hm : m.Made)
    (ha : AllStarted env m) (isReading : Bool) (js : List ℕ) :
    Ends (each js (createStreamstate env s stream isReading))
      (fun _ t => Proceeds (Meets (fun j => EntryRefused env s stream isReading j)
        (createStreamstate env s stream isReading) js m) m t ∧ AllStarted env t)
      (fun _ _ => True) m := by
  have hloop := each_proceeds (B := fun j => EntryRefused env s stream isReading j)
    (f := createStreamstate env s stream isReading) (J := AllStarted env) (l := js)
    (Proceeds.refl (m := m)) ha fun j u ⟨r, hr⟩ hu => ?_
  · exact hloop.mono (fun _ v hv => ⟨hv.1.congr (by simp), hv.2⟩) fun _ _ _ => trivial
  · have hmu : u.Made := hr.holdings.made.trans hm
    refine ((createStreamstate_proceeds hmu isReading j).and
      (createStreamstate_quiet (hr.streams ▸ hs) hmu isReading j)).mono ?_ fun _ _ _ => trivial
    rintro _ v ⟨hv, m₂, hq, hc⟩
    exact ⟨hv, (hu.quiet hq).created hc⟩

theorem createStream_proceeds (s : ℕ) (hm : m.Made) (ha : AllStarted env m) :
    Ends (createStream env s)
      (fun _ t => Proceeds (StreamRefused env s m) m t ∧ AllStarted env t) (fun _ _ => True) m := by
  unfold createStream
  rw [ends_bind, ends_look, id_look]
  cases hs : m.streams[s]? with
  | none => exact ⟨Proceeds.refl.congr (by simp [StreamRefused, hs]), ha⟩
  | some stream =>
      simp only [ends_bind]
      refine (ends_self.and (createAll_proceeds hs hm ha true _)).mono ?_ fun _ _ _ => trivial
      rintro _ m₁ ⟨hrun, hp₁, ha₁⟩
      have hs₁ : m₁.streams[s]? = some stream := hp₁.streams ▸ hs
      refine (createAll_proceeds hs₁ (hp₁.holdings.made.trans hm) ha₁ false _).mono ?_
        fun _ _ _ => trivial
      rintro _ m₂ ⟨hp₂, ha₂⟩
      refine ⟨(hp₁.trans hp₂).congr ?_, ha₂⟩
      simp only [StreamRefused, hs, Option.some_inj, exists_eq_left', after_iff hrun]

/-! ## `process_init` -/

/-- **`process_init` that returns** has stopped the engine where a
registration was refused, and has otherwise started everything. -/
theorem initBody_starts (m : Machine σ) :
    Ends (initBody env)
      (fun _ t => (t.shouldRun = false ↔ Unregistered env m) ∧
        (t.shouldRun = true → t.shouldCancel = false ∧ Registered t) ∧ AllStarted env t)
      (fun _ _ => True) m := by
  unfold initBody Unregistered
  rw [ends_bind, ends_askWorld, ends_bind, ends_alter, ends_bind]
  generalize hm₀ : (m.withWorld (env.monotime m.world).2).begun (env.monotime m.world).1 = m₀
  have hrun₀ : m₀.shouldRun = true := by rw [← hm₀]; rfl
  have hcancel₀ : m₀.shouldCancel = false := by rw [← hm₀]; rfl
  have hss₀ : m₀.streamstates = some [] := by rw [← hm₀]; rfl
  refine (ends_self.and (openDescriptors_proceeds m₀)).mono ?_ fun _ _ _ => trivial
  rintro _ m₁ ⟨hgo₁, hiff₁, hreg₁, hst₁, hss₁⟩
  -- there are no entries yet, so that a reset finds nothing to cancel
  have hnobody : ∀ i, m₁.entryAt i = none := by
    intro i
    rw [FtdiStreamState.entryAt, FtdiStreamState.entries, hss₁, hss₀]
    rfl
  rw [ends_bind]
  refine (ends_self.and (resetAll_runs hnobody).ends).mono ?_ fun _ _ _ => trivial
  rintro _ m₂ ⟨hgo₂, hq₂⟩
  have hp₂ : Proceeds False m₁ m₂ := .of_frame hq₂.frame
  have hmade₂ : m₂.Made := by
    show m₂.streamstates.isSome = true
    rw [hq₂.frame.streamstates, hss₁, hss₀]
    rfl
  have ha₂ : AllStarted env m₂ := by
    intro _ i e he
    rw [hq₂.frame.entryAt, hnobody] at he
    cases he
  rw [ends_bind, ends_look, id_look]
  have hloop := each_proceeds (B := StreamRefused env) (f := createStream env)
    (J := AllStarted env) (l := List.range m₂.streams.length) hp₂ ha₂ fun s u hr hu => by
      obtain ⟨r, hr⟩ := hr
      have hmade : u.Made := hr.holdings.made.trans (hp₂.holdings.made.symm.trans hmade₂)
      exact createStream_proceeds s hmade hu
  refine hloop.mono ?_ fun _ _ _ => trivial
  rintro _ m₃ ⟨hp₃, ha₃⟩
  refine ⟨?_, fun hr₃ => ?_, ha₃⟩
  · show m₃.shouldRun = false ↔ DescriptorRefused env m₀ ∨ After (openDescriptors env) _ m₀
    rw [after_iff hgo₁, after_iff hgo₂, hp₃.halted, hiff₁]
    simp [hrun₀]
  · obtain ⟨hcancel₁, hreg⟩ := hreg₁ (hp₃.stays hr₃)
    exact ⟨(hp₃.shouldCancel hr₃).trans (hcancel₁.trans hcancel₀), hreg.proceeds hp₃⟩

end Stream

end SgFtdi
