import SgFtdi.Stream.Moves.Drain

/-!
# Stream — the engine, step by step

A `Step` is a move, a step of a drain, or a piece of the engine's
bookkeeping, and every program of the engine is a path of steps: an
action on a started engine leads from one state to another by steps
alone. What every step keeps, every run keeps.
-/

namespace SgFtdi

namespace Stream

open Prog Relation

variable {σ : Type} (env : Env σ)

/-- The state after a user has asked the engine to end. -/
def Machine.askedToStop (m : Machine σ) : Machine σ :=
  Machine.notified { (Machine.note { m with mutex := true } .stopping) with shouldCancel := true }

/-- The state after an exception has left `process_step`. -/
def Machine.crashed (m : Machine σ) (cause : Exn) : Machine σ :=
  Machine.note { m.stopped with lastExit := .exception } (.threw cause)

/-- **A step of another thread**: user code at work, a request put on the
lists, or the engine asked to end. -/
inductive Passing (m : Machine σ) : Machine σ → Prop
  | user {m' : Machine σ} : UserStep env m m' → Passing m m'
  | accepted {s : ℕ} {q : Queued} : m.taking = true → m.listMutex = false → Names env s q →
      Passing m (m.accepted s q)
  | stopping : Passing m m.askedToStop

/-- **A step of handling an event**: of a drain, or around it. -/
inductive Handling (m : Machine σ) : Machine σ → Prop
  | draining {m' : Machine σ} : Draining env m m' → Handling m m'
  | accepted {s : ℕ} {q : Queued} : m.taking = true → m.listMutex = false → Names env s q →
      Handling m (m.accepted s q)
  | stopping : Handling m m.askedToStop
  | noticed : Handling m { m with noticeCount := 0 }
  | obeyed : m.shouldCancel = true → Handling m { m with shouldRun := false }
  | locked : m.shouldRun = true → m.shouldCancel = false → Handling m m.locked
  | unlocked : m.listMutex = true → m.listEnable = .empty → m.listDisable = .empty →
      m.listReset = .empty → Handling m m.unlocked

/-- **A step of the engine**: of handling an event, or of getting through
`process_step`. -/
inductive Step (m : Machine σ) : Machine σ → Prop
  | handling {m' : Machine σ} : Handling env m m' → Step m m'
  | counted (n : ℤ) : Step m { m with cancelCounter := n }
  | left (why : Exit) : Step m { m with lastExit := why }
  | waitFailed (errno : Errno) : Step m (m.note (.waitFailed errno)).stopped
  | crashed {m₁ : Machine σ} (cause : Exn) : Broken env m m₁ → Step m (m₁.crashed cause)

variable {env} {m m' m₁ m₂ : Machine σ} {i : ℕ} {fd : ℤ}

theorem Handling.move (h : Move env m m') : Handling env m m' := .draining (.move h)

theorem handling_of_moves (h : ReflTransGen (Move env) m m') :
    ReflTransGen (Handling env) m m' := ReflTransGen.mono (fun _ _ hs => .move hs) _ _ h

theorem handling_of_draining (h : ReflTransGen (Draining env) m m') :
    ReflTransGen (Handling env) m m' := ReflTransGen.mono (fun _ _ hs => .draining hs) _ _ h

theorem steps_of_handling (h : ReflTransGen (Handling env) m m') :
    ReflTransGen (Step env) m m' := ReflTransGen.mono (fun _ _ hs => .handling hs) _ _ h

theorem steps_of_moves (h : ReflTransGen (Move env) m m') : ReflTransGen (Step env) m m' :=
  steps_of_handling (handling_of_moves h)

theorem follows_handling {α : Type} {p : Run σ α} {B : Machine σ → Machine σ → Prop}
    (h : Follows (Move env) B p m) : Follows (Handling env) B p m :=
  h.mono (fun _ _ hs => .move hs) fun _ _ hb => hb

/-! ## What no step touches -/

/-- **The configuration of a session**, which no step changes. -/
structure Fixed (m m' : Machine σ) : Prop where
  streams : m'.streams = m.streams
  noticeEventFd : m'.noticeEventFd = m.noticeEventFd
  usbEpollFd : m'.usbEpollFd = m.usbEpollFd
  timerFd : m'.timerFd = m.timerFd
  readPacketsize : m'.readPacketsize = m.readPacketsize
  epollSet : m'.epollSet = m.epollSet

theorem Fixed.refl : Fixed m m := ⟨rfl, rfl, rfl, rfl, rfl, rfl⟩

theorem Fixed.trans (h : Fixed m m₁) (h' : Fixed m₁ m₂) : Fixed m m₂ :=
  ⟨h'.streams.trans h.streams, h'.noticeEventFd.trans h.noticeEventFd,
    h'.usbEpollFd.trans h.usbEpollFd, h'.timerFd.trans h.timerFd,
    h'.readPacketsize.trans h.readPacketsize, h'.epollSet.trans h.epollSet⟩

theorem Kept.fixed (h : Kept m m') : Fixed m m' :=
  ⟨h.streams, h.noticeEventFd, h.usbEpollFd, h.timerFd, h.readPacketsize, h.epollSet⟩

theorem Broken.fixed (h : Broken env m m₁) : Fixed m m₁ := by
  induction h with
  | here => exact .refl
  | armed _ _ _ hw => exact ((Kept.modify _ _).trans (Kept.of_calm hw.calm)).fixed
  | unlocked _ ih =>
      exact ⟨ih.streams, ih.noticeEventFd, ih.usbEpollFd, ih.timerFd, ih.readPacketsize,
        ih.epollSet⟩

theorem Draining.fixed (h : Draining env m m') : Fixed m m' := by
  cases h with
  | move hm => exact hm.kept.fixed
  | cleared _ hc => cases hc <;> exact ⟨rfl, rfl, rfl, rfl, rfl, rfl⟩

theorem Handling.fixed (h : Handling env m m') : Fixed m m' := by
  cases h with
  | draining hd => exact hd.fixed
  | accepted _ _ _ => rw [accepted_eq]; exact ⟨rfl, rfl, rfl, rfl, rfl, rfl⟩
  | _ => exact ⟨rfl, rfl, rfl, rfl, rfl, rfl⟩

theorem Step.fixed (h : Step env m m') : Fixed m m' := by
  cases h with
  | handling hh => exact hh.fixed
  | crashed cause hb =>
      have h := hb.fixed
      exact ⟨h.streams, h.noticeEventFd, h.usbEpollFd, h.timerFd, h.readPacketsize, h.epollSet⟩
  | _ => exact ⟨rfl, rfl, rfl, rfl, rfl, rfl⟩

theorem handling_fixed (h : ReflTransGen (Handling env) m m') : Fixed m m' := by
  induction h with
  | refl => exact .refl
  | tail _ hs ih => exact ih.trans hs.fixed

/-- An engine that has stopped stays stopped. -/
theorem Handling.stays (h : Handling env m m') (hr : m'.shouldRun = true) :
    m.shouldRun = true := by
  cases h with
  | draining hd =>
      cases hd with
      | move hm => exact hm.kept.stays hr
      | cleared _ hc => cases hc <;> exact hr
  | accepted _ _ _ => exact accepted_shouldRun m _ _ ▸ hr
  | locked h _ => exact h
  | obeyed _ => cases hr
  | _ => exact hr

theorem Step.stays (h : Step env m m') (hr : m'.shouldRun = true) : m.shouldRun = true := by
  cases h with
  | handling hh => exact hh.stays hr
  | waitFailed errno => cases hr
  | crashed cause hb => cases hr
  | _ => exact hr

/-- **Every step is a step in the life of every transfer.** -/
theorem Handling.lives (h : Handling env m m') : AllLive m m' := by
  have hrun := h.stays
  cases h with
  | draining hd =>
      cases hd with
      | move hm => exact hm.lives
      | cleared _ hc => cases hc <;> exact .of_alike (Calm.of_entries rfl) hrun
  | accepted _ _ _ => exact .of_alike (Calm.of_entries (accepted_streamstates m _ _)) hrun
  | _ => exact .of_alike (Calm.of_entries rfl) hrun

theorem Step.lives (h : Step env m m') : AllLive m m' := by
  have hrun := h.stays
  cases h with
  | handling hh => exact hh.lives
  | crashed cause hb => exact hb.lives (fun _ => rfl) rfl
  | _ => exact .of_alike (Calm.of_entries rfl) hrun

/-- Handling an event leaves the loop nowhere. -/
theorem Handling.lastExit (h : Handling env m m') : m'.lastExit = m.lastExit := by
  cases h with
  | draining hd =>
      cases hd with
      | move hm => exact hm.kept.lastExit
      | cleared _ hc => cases hc <;> rfl
  | accepted _ _ _ => exact accepted_lastExit m _ _
  | _ => rfl

theorem handling_lastExit (h : ReflTransGen (Handling env) m m') : m'.lastExit = m.lastExit :=
  inv_of_path (I := fun t => t.lastExit = m.lastExit) (fun _ _ hs ht => hs.lastExit.trans ht) h rfl

/-! ## The programs that step -/

theorem passing_of_quiet (h : Quiet env m m') : ReflTransGen (Passing env) m m' :=
  ReflTransGen.mono (fun _ _ hs => .user hs) _ _ h

theorem Passing.handling (h : Passing env m m') : Handling env m m' := by
  cases h with
  | user hu => exact .move (.chore (.user hu))
  | accepted ht hl hn => exact .accepted ht hl hn
  | stopping => exact .stopping

/-- **What another thread does**, whole. -/
theorem threadAction_ends (a : ThreadAction) (m : Machine σ) :
    Ends (threadAction env a) (fun _ t => ReflTransGen (Passing env) m t) (fun _ _ => False) m := by
  cases a with
  | accept r =>
      unfold threadAction
      rw [ends_bind, ends_look, id_look, ends_ite]
      refine ⟨fun _ => .refl, fun hm => ?_⟩
      have hfree : m.listMutex = false := by simp_all
      rw [ends_rescue, ends_bind]
      refine (accept_ends r hfree).mono (fun b t ha => ?_) fun _ _ hq => passing_of_quiet hq
      cases ha with
      | refused hq => exact passing_of_quiet hq
      | queued hq ht hl hn => exact (passing_of_quiet hq).tail (.accepted ht hl hn)
  | notify => exact .single (.user .notified)
  | user k => exact .single (.user (.world (.user k)))
  | stop =>
      unfold threadAction
      rw [ends_bind, ends_look, id_look, ends_ite]
      exact ⟨fun _ => .refl, fun _ => .single .stopping⟩

theorem threadAction_follows (a : ThreadAction) (m : Machine σ) :
    Follows (Handling env) Eq (threadAction env a) m := by
  refine (threadAction_ends a m).mono (fun _ t hp => ?_) fun _ _ hf => hf.elim
  exact ReflTransGen.mono (fun _ _ hs => hs.handling) _ _ hp

theorem each_threadAction_follows (actions : List ThreadAction) (m : Machine σ) :
    Follows (Handling env) Eq (each actions (threadAction env)) m :=
  Follows.each fun a _ t _ => threadAction_follows a t

/-- Registering a pollfd, or failing to. -/
theorem pollfd_follows {f : σ → Option Exn × σ} (hf : ∀ w, WorldStep env w (f w).2)
    (change : Machine σ → List ℤ) (message : Exn → Message) (m : Machine σ) :
    Follows (Move env) Eq (do
      let failure ← askWorld f
      match failure with
      | none => alter fun m => { m with usbEpollSet := change m }
      | some cause => error env (message cause)) m := by
  refine Follows.bind (askWorld_follows hf m) fun failure t _ => ?_
  cases failure with
  | none => exact Follows.alter (.pollfds _)
  | some cause => exact error_follows _ t

theorem usbAction_follows (a : UsbAction) (m : Machine σ) :
    Follows (Handling env) Eq (usbAction env a) m := by
  cases a with
  | completed c => exact follows_handling (complete_follows c m)
  | pollfdAdded fd =>
      refine Follows.look_bind (Follows.ite (fun _ => ?_) fun _ => Follows.pure)
      exact follows_handling (Follows.look_bind
        (pollfd_follows (fun _ => .addToEpoll fd _) _ .addToUsbEpoll m))
  | pollfdRemoved fd =>
      refine Follows.look_bind (Follows.ite (fun _ => ?_) fun _ => Follows.pure)
      exact follows_handling (Follows.look_bind
        (pollfd_follows (fun _ => .removeFromEpoll fd _) _ .removeFromUsbEpoll m))
  | elsewhere a => exact threadAction_follows a m

theorem handleUsb_follows (usb : List UsbAction) (result : ℤ) (m : Machine σ) :
    Follows (Handling env) Eq (handleUsb env usb result) m := by
  refine Follows.bind (Follows.each fun a _ t _ => usbAction_follows a t) fun _ t _ => ?_
  exact Follows.ite (fun _ => Follows.raise rfl) fun _ => Follows.pure

theorem readFailed_follows (errno : Errno) (message : Errno → Message) (m : Machine σ) :
    Follows (Move env) Eq (readFailed env errno message) m := by
  cases errno with
  | EWOULDBLOCK => exact Follows.pure
  | EINTR => exact Follows.pure
  | other code => exact error_follows _ m

theorem callCounter_follows (e : FtdiStreamStaticState) (stream : FtdiStreamEntry)
    (m : Machine σ) : Follows (Move env) Eq (callCounter env e stream) m := by
  refine Follows.ite (fun _ => ?_) fun _ => Follows.pure
  have hcall : Move env m (m.told env _) := .chore (.counted e.streamId e.isReading e.transferId
    e.counterCallbacks e.counterBytes)
  refine (tell_ends _ m).mono (fun _ t hq => ?_) fun _ t hq => ⟨t, ?_, rfl⟩
  · exact (ReflTransGen.single hcall).trans (Move.quiet hq.1)
  · exact (ReflTransGen.single hcall).trans (Move.quiet hq.1)

theorem reportCounters_follows (i : ℕ) (m : Machine σ) :
    Follows (Move env) Eq (reportCounters env i) m := by
  refine Follows.look_bind ?_
  rw [id_look]
  cases m.entryAt i with
  | none => exact Follows.pure
  | some e =>
      dsimp only
      cases m.streams[e.streamId]? with
      | none => exact raise_follows _ m
      | some stream =>
          refine Follows.bind (callCounter_follows e stream m) fun _ t _ => ?_
          exact Follows.alter (.chore (.wrote fun e => e.twin_clearCounters))

theorem checkTimeout_follows (m : Machine σ) :
    Follows (Move env) Eq (checkTimeout env) m := by
  refine Follows.look_bind (Follows.ite (fun _ => Follows.pure) fun _ => ?_)
  refine Follows.bind (askWorld_follows (fun _ => .monotime) m) fun now t _ => ?_
  unfold Follows
  rw [ends_bind, ends_alter, ends_bind, ends_observe]
  refine Follows.from (ReflTransGen.single (.chore (.ticked now))) ?_
  exact Follows.ite (fun _ => error_follows _ _) fun _ => Follows.pure

theorem eventTimer_follows (fault : Option Errno) (m : Machine σ) :
    Follows (Move env) Eq (eventTimer env fault) m := by
  cases fault with
  | some errno => exact readFailed_follows errno _ m
  | none =>
      refine Follows.look_bind ?_
      refine Follows.bind (Follows.each fun i _ t _ => reportCounters_follows i t) fun _ t _ => ?_
      exact checkTimeout_follows t

theorem lockedDrain_follows (hr : m.shouldRun = true) (hc : m.shouldCancel = false) :
    Follows (Handling env) (Broken env) (lockedDrain env) m := by
  refine (lockedDrain_ends m).mono ?_ ?_
  · rintro _ t ⟨u, hu, h₁, h₂, h₃, h₄, rfl⟩
    exact ((ReflTransGen.single (.locked hr hc)).trans (handling_of_draining hu)).tail
      (.unlocked h₄ h₁ h₂ h₃)
  · rintro _ t ⟨u, v, hu, hb, rfl⟩
    exact ⟨u, (ReflTransGen.single (.locked hr hc)).trans (handling_of_draining hu), .unlocked hb⟩

theorem takeNotice_follows (m : Machine σ) :
    Follows (Handling env) (Broken env) (takeNotice env) m := by
  refine Follows.look_bind (Follows.ite (fun _ => Follows.pure) fun hr => ?_)
  refine Follows.ite (fun hc => Follows.alter (.obeyed hc)) fun hc => ?_
  exact lockedDrain_follows (by simpa using hr) (by simpa using hc)

theorem handling_broken {α : Type} {p : Run σ α} (h : Follows (Handling env) Eq p m) :
    Follows (Handling env) (Broken env) p m :=
  h.mono (fun _ _ hs => hs) fun _ _ hb => hb ▸ .here

theorem eventNotice_follows (fault : Option Errno) (between : List ThreadAction) (m : Machine σ) :
    Follows (Handling env) (Broken env) (eventNotice env fault between) m := by
  have hread : Follows (Handling env) (Broken env) (readNotice fault) m := by
    refine Follows.look_bind ?_
    cases fault with
    | some errno => exact Follows.pure
    | none =>
        refine Follows.ite (fun _ => Follows.pure) fun _ => ?_
        exact Follows.alter_bind .noticed Follows.pure
  refine Follows.bind hread fun failure t _ => ?_
  cases failure with
  | some errno => exact handling_broken (follows_handling (readFailed_follows errno _ t))
  | none =>
      refine Follows.bind (handling_broken (each_threadAction_follows between t)) fun _ u _ => ?_
      exact takeNotice_follows u

/-- **One event**, of a descriptor that is registered. -/
theorem handleEvent_follows (ev : EpollEvent) (h : ev.sock ∈ m.epollSet) :
    Follows (Handling env) (Broken env) (handleEvent env ev) m := by
  refine Follows.bind (handling_broken (each_threadAction_follows ev.meanwhile m)) fun _ t ht => ?_
  refine Follows.look_bind (Follows.ite (fun _ => ?_) fun h₁ => Follows.ite (fun _ => ?_)
    fun h₂ => Follows.ite (fun _ => ?_) fun h₃ => ?_)
  · exact handling_broken (handleUsb_follows _ _ t)
  · exact eventNotice_follows _ _ t
  · exact handling_broken (follows_handling (eventTimer_follows _ t))
  · have hs : ev.sock ∈ t.epollSet := (handling_fixed ht).epollSet ▸ h
    exact follows_handling (enableRange_follows (.ready hs h₁ h₂ h₃))

theorem cancelEnabled_returns (i : ℕ) (m : Machine σ) :
    Ends (cancelEnabled i) (fun _ _ => True) (fun _ _ => False) m := by
  unfold cancelEnabled cancelEntry
  rw [ends_bind, ends_look]
  split
  · trivial
  · rw [ends_ite]
    refine ⟨fun _ => ?_, fun _ => trivial⟩
    rw [ends_bind, ends_bind, ends_look]
    split
    · trivial
    · rw [ends_ite]
      exact ⟨fun _ => trivial, fun _ => trivial⟩

theorem anyOf_cancelEnabled_returns : ∀ (is : List ℕ) (m : Machine σ),
    Ends (anyOf is cancelEnabled) (fun _ _ => True) (fun _ _ => False) m
  | [], _ => trivial
  | i :: is, m => by
      rw [anyOf, ends_andThen]
      refine (cancelEnabled_returns i m).mono (fun _ t _ => ?_) fun _ _ hf => hf
      rw [ends_andThen]
      exact (anyOf_cancelEnabled_returns is t).mono (fun _ _ _ => trivial) fun _ _ hf => hf

variable (env) in
/-- **How a batch ends**: the engine runs on, or it has stopped, its streams
are reset, whatever that throws, and every entry that is still enabled is
asked to stop. Then it is over where none was, or where the count is used
up. -/
inductive BatchEnded (m : Machine σ) : Bool → Machine σ → Prop
  | running : m.shouldRun = true → BatchEnded m true m
  | disabled {u v : Machine σ} : m.shouldRun = false →
      rescue (processResetStreamEntry env true) (fun _ => pure ()) m = (.ret (), u) →
      anyOf u.inOrder cancelEnabled u = (.ret false, v) → BatchEnded m false
        { v with cancelCounter := v.cancelCounter - 1, lastExit := .allDisabled }
  | usedUp {u v : Machine σ} : m.shouldRun = false →
      rescue (processResetStreamEntry env true) (fun _ => pure ()) m = (.ret (), u) →
      anyOf u.inOrder cancelEnabled u = (.ret true, v) → v.cancelCounter ≤ 0 →
      BatchEnded m false
        { v with cancelCounter := v.cancelCounter - 1, lastExit := .counterUsedUp }
  | goesOn {u v : Machine σ} : m.shouldRun = false →
      rescue (processResetStreamEntry env true) (fun _ => pure ()) m = (.ret (), u) →
      anyOf u.inOrder cancelEnabled u = (.ret true, v) → 0 < v.cancelCounter →
      BatchEnded m true { v with cancelCounter := v.cancelCounter - 1 }

theorem endBatch_ends (m : Machine σ) :
    Ends (endBatch env) (fun more t => BatchEnded env m more t) (fun _ _ => False) m := by
  unfold endBatch
  rw [ends_bind, ends_look, id_look, ends_ite]
  refine ⟨fun hr => .running hr, fun hr => ?_⟩
  have hr : m.shouldRun = false := by simpa using hr
  have hcaught : Ends (rescue (processResetStreamEntry env true) fun _ => pure ())
      (fun _ _ => True) (fun _ _ => False) m :=
    ends_rescue.mpr (ends_self.mono (fun _ _ _ => trivial) fun _ _ _ => trivial)
  rw [ends_bind]
  refine (ends_self.and hcaught).mono ?_ fun _ _ hf => hf.2
  rintro _ u ⟨hreset, -⟩
  rw [ends_bind, ends_look, id_look, ends_bind]
  refine (ends_self.and (anyOf_cancelEnabled_returns _ u)).mono ?_ fun _ _ hf => hf.2
  rintro someEnabled v ⟨hany, -⟩
  unfold leave
  rw [ends_bind, ends_alter, ends_bind, ends_look, id_look, ends_ite]
  refine ⟨fun hb => ?_, fun hb => ?_⟩
  · subst hb
    exact .disabled hr hreset hany
  · obtain rfl : someEnabled = true := Bool.not_eq_false _ ▸ hb
    rw [ends_ite]
    refine ⟨fun hc => ?_, fun hc => ?_⟩
    · have hc : v.cancelCounter - 1 < 0 := hc
      exact .usedUp hr hreset hany (by omega)
    · have hc : ¬ v.cancelCounter - 1 < 0 := hc
      exact .goesOn hr hreset hany (by omega)

/-- The resets at the end of a batch. -/
theorem caughtReset_moves
    (h : rescue (processResetStreamEntry env true) (fun _ => pure ()) m = (.ret (), m')) :
    ReflTransGen (Move env) m m' := by
  have hreset : Follows (Move env) Eq
      (rescue (processResetStreamEntry env true) fun _ => pure ()) m :=
    Follows.rescue (resetAll_follows m) fun _ u t _ ht => ht ▸ ReflTransGen.refl
  exact ends_ret_of (Q := fun _ t => ReflTransGen (Move env) m t) hreset h

/-- The cancellations, which an engine that has stopped has reason for. -/
theorem cancelAll_moves {is : List ℕ} {b : Bool} (hr : m.shouldRun = false)
    (h : anyOf is cancelEnabled m = (.ret b, m')) : ReflTransGen (Move env) m m' := by
  have hcancel : Follows (Move env) Eq (anyOf is cancelEnabled) m :=
    Follows.anyOf fun i _ u hu => cancelEnabled_follows i u
      (Bool.eq_false_iff.mpr fun h => by simp [(moves_kept hu).stays h] at hr)
  exact ends_ret_of (Q := fun _ t => ReflTransGen (Move env) m t) hcancel h

/-- Both. -/
theorem wound_moves {u : Machine σ} {b : Bool} (hr : m.shouldRun = false)
    (hreset : rescue (processResetStreamEntry env true) (fun _ => pure ()) m = (.ret (), u))
    (hany : anyOf u.inOrder cancelEnabled u = (.ret b, m')) : ReflTransGen (Move env) m m' := by
  have hu := caughtReset_moves hreset
  refine hu.trans (cancelAll_moves (Bool.eq_false_iff.mpr fun h => ?_) hany)
  simp [(moves_kept hu).stays h] at hr

theorem endBatch_follows (m : Machine σ) : Follows (Step env) Eq (endBatch env) m := by
  refine (endBatch_ends m).mono (fun _ t ht => ?_) fun _ _ hf => hf.elim
  cases ht with
  | running _ => exact .refl
  | disabled hr hreset hany =>
      exact ((steps_of_moves (wound_moves hr hreset hany)).tail (.counted _)).tail (.left _)
  | usedUp hr hreset hany _ =>
      exact ((steps_of_moves (wound_moves hr hreset hany)).tail (.counted _)).tail (.left _)
  | goesOn hr hreset hany _ =>
      exact (steps_of_moves (wound_moves hr hreset hany)).tail (.counted _)

theorem epollWait_mem {events : List EpollEvent} {ev : EpollEvent}
    (h : ev ∈ epollWait m events) : ev.sock ∈ m.epollSet := by
  have := List.mem_of_mem_take h
  rw [List.mem_filter] at this
  exact of_decide_eq_true this.2

theorem handleEvents_follows {events : List EpollEvent}
    (h : ∀ ev ∈ events, ev.sock ∈ m.epollSet) :
    Follows (Handling env) (Broken env) (each events (handleEvent env)) m :=
  Follows.each fun ev hev _ ht => handleEvent_follows ev ((handling_fixed ht).epollSet ▸ h ev hev)

theorem processBatch_follows {events : List EpollEvent}
    (h : ∀ ev ∈ events, ev.sock ∈ m.epollSet) :
    Follows (Step env) (Broken env) (processBatch env events) m := by
  refine Follows.bind ((handleEvents_follows h).mono (fun _ _ hs => .handling hs)
    fun _ _ hb => hb) fun _ t _ => ?_
  exact (endBatch_follows t).mono (fun _ _ hs => hs) fun _ _ hb => hb ▸ .here

/-- **A step of `process_step`** is a path, and so it is when an exception
leaves it. -/
theorem processStep_follows (input : StepInput) (m : Machine σ) :
    Follows (Step env) Eq (processStep env input) m := by
  refine Follows.alter_bind (.left .running) (Follows.look_bind ?_)
  refine Follows.ite (fun _ => Follows.pure) fun _ => ?_
  cases input with
  | failed errno =>
      refine Ends.mono (Q := fun _ t => ReflTransGen (Step env) _ t)
        (E := fun _ t => ∃ u, ReflTransGen (Step env) _ u ∧ u = t) ?_ (fun _ _ h => h)
        fun _ _ h => h
      rw [ends_bind, ends_observe, ends_bind, ends_cancel]
      refine Follows.from (ReflTransGen.single (.waitFailed errno)) ?_
      exact Follows.alter_bind (.left _) Follows.pure
  | ready events =>
      refine Follows.ite (fun _ => Follows.pure) fun _ => ?_
      refine Follows.rescue (processBatch_follows fun ev hev => epollWait_mem hev) ?_
      rintro cause u t _ hb
      rw [ends_bind, ends_cancel, ends_bind]
      exact ⟨_, ReflTransGen.single (.crashed cause hb), rfl⟩

/-- **An action** on a started engine is a path of steps. -/
theorem act_follows (a : Action) (m : Machine σ) : Follows (Step env) Eq (act env a) m := by
  cases a with
  | step input =>
      refine Follows.rescue (C := Eq) ?_ fun _ u t _ ht => ht ▸ ReflTransGen.refl
      exact Follows.bind (processStep_follows input m) fun _ _ _ => Follows.pure
  | thread a =>
      exact (threadAction_follows a m).mono (fun _ _ hs => .handling hs) fun _ _ hb => hb

theorem engineRun_follows (actions : List Action) (m : Machine σ) :
    Follows (Step env) Eq (engineRun env actions) m :=
  Follows.each fun a _ t _ => act_follows a t

/-- **A run of the engine is a path of steps.** -/
theorem engineRun_steps {actions : List Action} (h : engineRun env actions m = (.ret (), m')) :
    ReflTransGen (Step env) m m' :=
  ends_ret_of (Q := fun _ t => ReflTransGen (Step env) m t) (engineRun_follows actions m) h

end Stream

end SgFtdi
