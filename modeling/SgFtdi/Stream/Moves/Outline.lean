import SgFtdi.Stream.Moves.Setup

/-!
# Stream — the engine in outline

What an engine shows of its life: the two flags that stop it, which
descriptors it has open, whether its entries exist, in which mode it was
started, whether its thread runs, and the record. A `Beat` is the smallest thing that can be told
apart there. Every program of the engine is a path of beats as far as it
gets, also where it throws or does not come back, so what every beat keeps
holds wherever the engine is.
-/

namespace SgFtdi

namespace Stream

open Prog Relation

/-- **What is seen of an engine.** -/
structure Outline where
  shouldRun : Bool
  shouldCancel : Bool
  isStartedThr : Bool
  isStartedPoll : Bool
  threadAlive : Bool
  made : Bool
  epollFd : ℤ
  usbEpollFd : ℤ
  timerFd : ℤ
  trace : List Seen

variable {σ : Type}

/-- The engine in outline. -/
def Machine.outline (m : Machine σ) : Outline :=
  ⟨m.shouldRun, m.shouldCancel, m.isStartedThr, m.isStartedPoll, m.threadAlive,
    m.streamstates.isSome, m.epollFd, m.usbEpollFd, m.timerFd, m.trace⟩

/-- Note down what was just done. -/
def Outline.note (c : Outline) (o : Obs) : Outline :=
  { c with trace := c.trace ++ [⟨c.shouldRun, o⟩] }

/-- **An observation of work**: a transfer is submitted, or the user is
called about the bytes of one. -/
def Obs.works : Obs → Bool
  | .submitted _ _ _ _ => true
  | .readBuffer _ _ => true
  | .filled _ _ => true
  | .confirmed _ _ => true
  | _ => false

/-- An observation of what begins and ends. -/
def Obs.lasting : Obs → Bool
  | .began _ => true
  | .opened _ => true
  | .closed _ => true
  | .destroyed _ _ => true
  | _ => false

/-- What a program of the engine may do: open descriptors, which are refused
by certain numbers, and close them. -/
structure Phase where
  opens : Bool
  closes : Bool
  refuses : ℤ → Prop

/-- It neither opens nor closes. -/
def Phase.working : Phase := ⟨false, false, fun _ => False⟩

/-- It closes. -/
def Phase.closing : Phase := ⟨false, true, fun _ => False⟩

/-- It opens, and closes what it opened. -/
def Phase.starting (r : ℤ → Prop) : Phase := ⟨true, true, r⟩

/-- The kernel refuses a descriptor by such a number. -/
structure Env.Refuses (env : Env σ) (r : ℤ → Prop) : Prop where
  epollCreate : ∀ w, (env.epollCreate w).1 < 0 → r (env.epollCreate w).1
  timerfdCreate : ∀ w, (env.timerfdCreate w).1 < 0 → r (env.timerfdCreate w).1

/-- **The smallest things an engine does.** It works only while it runs; a
descriptor is opened where none is, and closed where one is; the entries
are made where there are none, and destroyed when the descriptors are
closed. -/
inductive Beat (p : Phase) (c : Outline) : Outline → Prop
  | noted {o : Obs} : o.works = false → o.lasting = false → Beat p c (c.note o)
  | worked {o : Obs} : o.works = true → c.shouldRun = true → Beat p c (c.note o)
  | stopped : Beat p c { c with shouldRun := false, shouldCancel := true }
  | asked : Beat p c { c with shouldCancel := true }
  | begun (now : UInt64) : p.opens = true → c.made = false →
      Beat p c (Outline.note { c with
        made := true
        epollFd := -1
        usbEpollFd := -1
        timerFd := -1
        shouldRun := true
        shouldCancel := false } (.began now))
  | refused {fd : ℤ} : p.opens = true → fd < 0 → p.refuses fd → c.epollFd < 0 →
      Beat p c { c with epollFd := fd }
  | refusedUsb {fd : ℤ} : p.opens = true → fd < 0 → p.refuses fd → c.usbEpollFd < 0 →
      Beat p c { c with usbEpollFd := fd }
  | refusedTimer {fd : ℤ} : p.opens = true → fd < 0 → p.refuses fd → c.timerFd < 0 →
      Beat p c { c with timerFd := fd }
  | opened {fd : ℤ} : p.opens = true → 0 ≤ fd → c.made = true → c.epollFd < 0 →
      Beat p c (Outline.note { c with epollFd := fd } (.opened fd))
  | openedUsb {fd : ℤ} : p.opens = true → 0 ≤ fd → c.made = true → c.usbEpollFd < 0 →
      Beat p c (Outline.note { c with usbEpollFd := fd } (.opened fd))
  | openedTimer {fd : ℤ} : p.opens = true → 0 ≤ fd → c.made = true → c.timerFd < 0 →
      Beat p c (Outline.note { c with timerFd := fd } (.opened fd))
  | closed : p.closes = true → 0 ≤ c.epollFd →
      Beat p c { c.note (.closed c.epollFd) with epollFd := -1 }
  | closedUsb : p.closes = true → 0 ≤ c.usbEpollFd →
      Beat p c { c.note (.closed c.usbEpollFd) with usbEpollFd := -1 }
  | closedTimer : p.closes = true → 0 ≤ c.timerFd →
      Beat p c { c.note (.closed c.timerFd) with timerFd := -1 }
  | freed (why : Exit) (inFlight : List Bool) : p.closes = true → c.epollFd < 0 →
      c.usbEpollFd < 0 → c.timerFd < 0 →
        Beat p c { c.note (.destroyed why inFlight) with made := false }

/-- A program as a path of beats. -/
abbrev Beats {α : Type} (b : Phase) (p : Run σ α) (m : Machine σ) : Prop :=
  Walks (Beat b) Machine.outline p m

variable {env : Env σ} {m m' m₁ m₂ : Machine σ} {i : ℕ} {e : FtdiStreamStaticState}
variable {b : Phase} {r : ℤ → Prop}

/-! ## What is not seen -/

@[simp] theorem withWorld_outline (m : Machine σ) (w : σ) : (m.withWorld w).outline = m.outline :=
  rfl

@[simp] theorem note_outline (m : Machine σ) (o : Obs) : (m.note o).outline = m.outline.note o :=
  rfl

@[simp] theorem notified_outline (m : Machine σ) : m.notified.outline = m.outline := rfl

@[simp] theorem modifyEntry_outline (m : Machine σ) (i : ℕ) (f) :
    (m.modifyEntry i f).outline = m.outline := by
  unfold Machine.outline
  rw [modifyEntry_made]
  rfl

theorem askWorld_beats {α : Type} (f : σ → α × σ) (m : Machine σ) : Beats b (askWorld f) m :=
  Walks.ask rfl

theorem observe_beats {o : Obs} (hw : o.works = false) (hl : o.lasting = false) (m : Machine σ) :
    Beats b (observe o) m := Walks.alter (.noted hw hl)

theorem observe_works {o : Obs} (hw : o.works = true) (hr : m.shouldRun = true) :
    Beats b (observe o) m := Walks.alter (.worked hw hr)

theorem modify_beats (i : ℕ) (f) (m : Machine σ) :
    Beats b (alter (·.modifyEntry i f) : Run σ Unit) m := Walks.unseen (modifyEntry_outline m i f)

/-! ## Requests and user code -/

theorem beats_undisturbed (c : Outline) :
    Undisturbed fun t : Machine σ => ReflTransGen (Beat b) c t.outline where
  withWorld _ _ h := h
  accepted t s q h := h.tail (by
    rw [show (t.accepted s q).outline = t.outline.note (.asked s q) by rw [accepted_eq]; rfl]
    exact .noted rfl rfl)
  notified _ h := h

theorem userCall_beats {α : Type} (f : σ → Reply α × σ) (m : Machine σ) :
    Beats b (userCall env f) m := Walks.of_stays ((beats_undisturbed _).userCall f)

theorem accept_beats (r : Request) (m : Machine σ) : Beats b (accept env r) m :=
  Walks.of_stays ((beats_undisturbed _).accept r)

theorem askStop_beats (m : Machine σ) : Beats b (askStop : Run σ Unit) m :=
  Walks.bind (observe_beats rfl rfl m) fun _ t _ =>
    Walks.bind (Walks.alter (s := t) .asked) fun _ _ _ => Walks.unseen rfl

theorem threadAction_beats (a : ThreadAction) (m : Machine σ) : Beats b (threadAction env a) m := by
  cases a with
  | accept r =>
      refine Walks.look_bind (Walks.ite (fun _ => Walks.pure) fun _ => ?_)
      exact Walks.rescue (Walks.bind (accept_beats r m) fun _ _ _ => Walks.pure) fun _ _ _ =>
        Walks.pure
  | notify => exact Walks.unseen rfl
  | user k => exact Walks.unseen rfl
  | stop =>
      refine Walks.look_bind (Walks.ite (fun _ => Walks.pure) fun _ => ?_)
      exact Walks.bind (Walks.unseen rfl) fun _ t _ => askStop_beats t

/-! ## Transfers -/

theorem cancel_beats (m : Machine σ) : Beats b (cancel : Run σ Unit) m :=
  ReflTransGen.single .stopped

theorem error_beats (message : Message) (m : Machine σ) : Beats b (error env message) m := by
  unfold error pushBack
  refine Walks.bind (cancel_beats m) fun _ t _ => Walks.bind (askWorld_beats _ t) fun _ u _ => ?_
  exact Walks.ite (fun _ => Walks.bind (Walks.unseen rfl) fun _ v _ => observe_beats rfl rfl v)
    fun _ => Walks.pure

theorem libusbSubmitTransfer_beats (hr : m.shouldRun = true) :
    Beats b (libusbSubmitTransfer env i) m := by
  refine Walks.look_bind (Walks.bind (askWorld_beats _ m) fun rc t ht => ?_)
  have hrt : t.shouldRun = true := by cases ht; exact hr
  rw [id_look]
  cases m.entryAt i with
  | none => exact Walks.pure
  | some e =>
      refine Walks.bind (observe_works rfl hrt) fun _ u _ => ?_
      exact Walks.ite (fun _ => Walks.bind (modify_beats i _ u) fun _ _ _ => Walks.pure)
        fun _ => Walks.pure

theorem fillBuffer_beats (e : FtdiStreamStaticState) (hr : m.shouldRun = true) :
    Beats b (fillBuffer env i e) m := by
  refine Walks.bind (observe_works rfl hr) fun _ t _ => ?_
  exact Walks.bind (userCall_beats _ t) fun _ u _ =>
    Walks.bind (modify_beats i _ u) fun _ _ _ => Walks.pure

theorem submit_beats (i : ℕ) (m : Machine σ) : Beats b (submit env i) m := by
  refine Walks.look_bind ?_
  rw [id_look]
  cases he : m.entryAt i with
  | none => exact Walks.pure
  | some e =>
      refine Walks.ite (fun _ => Walks.raise) fun _ => Walks.ite (fun _ => Walks.pure) fun hr => ?_
      have hr : m.shouldRun = true := by simpa using hr
      refine Walks.ite (fun _ => Walks.pure) fun _ => ?_
      refine Walks.bind (Walks.ite (fun _ => Walks.pure) fun _ => fillBuffer_beats e hr) ?_
      intro n t ht
      have hrt : t.shouldRun = true :=
        ((ends_ret_of (submitLength_ends he) ht).work he).calm.shouldRun.trans hr
      refine Walks.bind (modify_beats i _ t) fun _ u hu => ?_
      have hru : u.shouldRun = true := by cases hu; exact hrt
      refine Walks.ite (fun _ => Walks.raise) fun _ =>
        Walks.ite (fun _ => modify_beats i _ u) fun _ => ?_
      exact Walks.bind (libusbSubmitTransfer_beats hru) fun _ _ _ =>
        Walks.ite (fun _ => Walks.raise) fun _ => Walks.pure

theorem libusbCancelTransfer_beats (i : ℕ) (m : Machine σ) :
    Beats b (libusbCancelTransfer i : Run σ Unit) m :=
  Walks.bind (observe_beats rfl rfl m) fun _ t _ => modify_beats i _ t

theorem cancelEntry_beats (i : ℕ) (m : Machine σ) : Beats b (cancelEntry i : Run σ Unit) m := by
  refine Walks.look_bind ?_
  rw [id_look]
  cases m.entryAt i with
  | none => exact Walks.pure
  | some e =>
      exact Walks.ite (fun _ => libusbCancelTransfer_beats i m) fun _ => Walks.pure

theorem arm_beats (i : ℕ) (m : Machine σ) : Beats b (arm env i) m := by
  refine Walks.look_bind ?_
  rw [id_look]
  cases m.entryAt i with
  | none => exact Walks.pure
  | some e =>
      refine Walks.bind (modify_beats i _ m) fun _ t _ => ?_
      exact Walks.ite (fun _ => submit_beats i t) fun _ => Walks.pure

/-- The user is told of bytes only while the engine runs. -/
theorem tell_works {t : Telling} (hw : t.obs.works = true) (hr : m.shouldRun = true) :
    Beats b (tell env t) m :=
  Walks.bind (observe_works hw hr) fun _ u _ => userCall_beats _ u

theorem handOver_beats (s : ℕ) (bytes : List UInt8) (hr : m.shouldRun = true) :
    Beats b (handOver env s bytes) m :=
  Walks.bind (tell_works rfl hr) fun _ _ _ => Walks.pure

theorem readMessage_beats (i : ℕ) (e : FtdiStreamStaticState) (message : List UInt8)
    (hr : m.shouldRun = true) : Beats b (readMessage env i e message) m := by
  unfold readMessage
  cases messageBytes e.isModemStatus message with
  | none => exact Walks.pure
  | some bytes =>
      refine Walks.bind (modify_beats i _ m) fun _ t ht => ?_
      have hrt : t.shouldRun = true := by cases ht; exact hr
      exact handOver_beats _ _ hrt

theorem readLoop_beats (i : ℕ) (e : FtdiStreamStaticState) : ∀ (turns : ℕ) {data : List UInt8}
    {m : Machine σ}, m.shouldRun = true → Beats b (readLoop env i e turns data) m
  | turns, [], _, _ => by cases turns <;> exact Walks.pure
  | 0, _ :: _, _, _ => Walks.hang
  | turns + 1, a :: l, m, hr => by
      refine Walks.look_bind (Walks.bind (readMessage_beats i e _ hr) fun _ t ht => ?_)
      have hrt : t.shouldRun = true :=
        (ends_ret_of (readMessage_runs i e _ m).ends ht).work.calm.shouldRun.trans hr
      exact readLoop_beats i e turns hrt

theorem deliver_beats (i : ℕ) (e : FtdiStreamStaticState) (hr : m.shouldRun = true) :
    Beats b (deliver env i e) m := by
  refine Walks.ite (fun _ => ?_) fun _ => Walks.ite (fun _ => handOver_beats _ _ hr) fun _ =>
    Walks.pure
  exact Walks.bind (Walks.unseen rfl) fun _ t ht => readLoop_beats i e _ (by cases ht; exact hr)

theorem readTransfer_beats (i : ℕ) (e : FtdiStreamStaticState) (hr : m.shouldRun = true) :
    Beats b (readTransfer env i e) m := by
  refine Walks.ite (fun _ => ?_) fun _ => Walks.raise
  refine Walks.bind (deliver_beats i e hr) fun _ t ht => ?_
  have hrt : t.shouldRun = true :=
    (ends_ret_of (deliver_ends i e m) ht).work.calm.shouldRun.trans (m.touch_shouldRun e ▸ hr)
  exact Walks.bind (libusbSubmitTransfer_beats hrt) fun _ _ _ =>
    Walks.ite (fun _ => Walks.raise) fun _ => Walks.pure

theorem readCallback_beats (i : ℕ) (m : Machine σ) : Beats b (readCallback env i) m := by
  refine Walks.bind (modify_beats i _ m) fun _ t _ => Walks.look_bind ?_
  rw [id_look]
  cases t.entryAt i with
  | none => exact Walks.pure
  | some e =>
      refine Walks.ite (fun _ => Walks.pure) fun _ => Walks.ite (fun _ => ?_) fun hgo => ?_
      · exact Walks.bind (modify_beats i _ t) fun _ u _ => cancel_beats u
      · have hr : t.shouldRun = true := by
          push Not at hgo
          simpa using hgo.2
        refine Walks.rescue (readTransfer_beats i e hr) fun cause u _ => ?_
        exact Walks.bind (modify_beats i _ u) fun _ v _ => error_beats _ v

theorem confirmTransfer_beats (i : ℕ) (e : FtdiStreamStaticState) (hr : m.shouldRun = true) :
    Beats b (confirmTransfer env i e) m := by
  refine Walks.ite (fun _ => ?_) fun _ => Walks.pure
  refine Walks.bind (modify_beats i _ m) fun _ t ht => ?_
  have hrt : t.shouldRun = true := by cases ht; exact hr
  refine Walks.bind (tell_works rfl hrt) fun _ u _ => ?_
  exact Walks.bind (modify_beats i _ u) fun _ _ _ =>
    Walks.ite (fun _ => Walks.raise) fun _ => Walks.pure

theorem writeTransfer_beats (he : m.entryAt i = some e) (hr : m.shouldRun = true) :
    Beats b (writeTransfer env i e) m := by
  refine Walks.bind (confirmTransfer_beats i e hr) fun _ t ht => ?_
  have hc := ends_ret_of (confirmTransfer_ends i e m) ht
  obtain ⟨e₁, he₁, ha⟩ := hc.entry he
  have hrt : t.shouldRun = true := hc.shouldRun.trans hr
  refine Walks.bind (fillBuffer_beats e hrt) fun n u hu => ?_
  have hru : u.shouldRun = true :=
    ((ends_ret_of (fillBuffer_ends he₁ ha.inFlight.symm) hu).work he₁
      ha.inFlight.symm).calm.shouldRun.trans hrt
  refine Walks.bind (modify_beats i _ u) fun _ v hv => ?_
  have hrv : v.shouldRun = true := by cases hv; exact hru
  refine Walks.ite (fun _ => Walks.raise) fun _ =>
    Walks.ite (fun _ => modify_beats i _ v) fun _ => ?_
  exact Walks.bind (libusbSubmitTransfer_beats hrv) fun _ _ _ =>
    Walks.ite (fun _ => Walks.raise) fun _ => Walks.pure

theorem writeCallback_beats (i : ℕ) (m : Machine σ) : Beats b (writeCallback env i) m := by
  refine Walks.bind (modify_beats i _ m) fun _ t _ => Walks.look_bind ?_
  rw [id_look]
  cases he : t.entryAt i with
  | none => exact Walks.pure
  | some e =>
      refine Walks.ite (fun _ => Walks.pure) fun _ => Walks.ite (fun _ => ?_) fun hgo => ?_
      · exact Walks.bind (modify_beats i _ t) fun _ u _ =>
          Walks.bind (modify_beats i _ u) fun _ v _ => cancel_beats v
      · have hr : t.shouldRun = true := by
          push Not at hgo
          simpa using hgo.2
        refine Walks.rescue (writeTransfer_beats he hr) fun cause u _ => ?_
        exact Walks.bind (error_beats _ u) fun _ v _ => modify_beats i _ v

theorem complete_beats (c : Completion) (m : Machine σ) : Beats b (complete env c) m := by
  refine Walks.look_bind ?_
  rw [id_look]
  cases m.entryAt c.transfer with
  | none => exact Walks.pure
  | some e =>
      refine Walks.ite (fun _ => Walks.pure) fun _ => ?_
      refine Walks.bind (modify_beats _ _ m) fun _ t _ => ?_
      refine Walks.bind (observe_beats rfl rfl t) fun _ u _ => ?_
      refine Walks.bind (Walks.ite (fun _ => readCallback_beats _ u) fun _ =>
        writeCallback_beats _ u) fun _ v _ => ?_
      exact Walks.alter (.noted rfl rfl)

/-! ## Handlers -/

theorem pollfd_beats {f : σ → Option Exn × σ} {change : Machine σ → List ℤ}
    {message : Exn → Message} (m : Machine σ) :
    Beats b (do
      let failure ← askWorld f
      match failure with
      | none => alter fun m => { m with usbEpollSet := change m }
      | some cause => error env (message cause)) m := by
  refine Walks.bind (askWorld_beats _ m) fun failure t _ => ?_
  cases failure with
  | none => exact Walks.unseen rfl
  | some cause => exact error_beats _ t

theorem addToUsbEpoll_beats (sock : ℤ) (m : Machine σ) : Beats b (addToUsbEpoll env sock) m :=
  Walks.look_bind (pollfd_beats m)

theorem usbAction_beats (a : UsbAction) (m : Machine σ) : Beats b (usbAction env a) m := by
  cases a with
  | completed c => exact complete_beats c m
  | pollfdAdded fd =>
      exact Walks.look_bind (Walks.ite (fun _ => addToUsbEpoll_beats fd m) fun _ => Walks.pure)
  | pollfdRemoved fd =>
      exact Walks.look_bind (Walks.ite (fun _ => Walks.look_bind (pollfd_beats m)) fun _ =>
        Walks.pure)
  | elsewhere a => exact threadAction_beats a m

theorem handleUsb_beats (usb : List UsbAction) (result : ℤ) (m : Machine σ) :
    Beats b (handleUsb env usb result) m :=
  Walks.bind (Walks.each usbAction_beats) fun _ _ _ =>
    Walks.ite (fun _ => Walks.raise) fun _ => Walks.pure

theorem controlTransfer_beats (f : σ → (ℤ × List Completion) × σ) (m : Machine σ) :
    Beats b (controlTransfer env f) m :=
  Walks.bind (askWorld_beats f m) fun _ _ _ =>
    Walks.bind (Walks.each complete_beats) fun _ _ _ => Walks.pure

theorem resetEntry_beats (s : ℕ) (stream : FtdiStreamEntry) (m : Machine σ) :
    Beats b (resetEntry env s stream) m := by
  refine Walks.ite (fun _ => ?_) fun _ => ?_
  · refine Walks.bind (askWorld_beats _ m) fun r t _ => ?_
    refine Walks.bind (Walks.each complete_beats) fun _ u _ => ?_
    refine Walks.bind (Walks.of_stays ((beats_undisturbed _).performRequests _)) fun _ v _ => ?_
    cases r.reply.result with
    | ok a => exact Walks.pure
    | error e => exact Walks.raise
  · refine Walks.bind (controlTransfer_beats _ m) fun rc t _ => ?_
    refine Walks.ite (fun _ => Walks.raise) fun _ => ?_
    exact Walks.bind (controlTransfer_beats _ t) fun _ _ _ =>
      Walks.ite (fun _ => Walks.raise) fun _ => Walks.pure

theorem resetAt_beats (s : ℕ) (m : Machine σ) : Beats b (resetAt env s) m := by
  refine Walks.look_bind ?_
  rw [id_look]
  cases m.streams[s]? with
  | none => exact Walks.raise
  | some stream => exact resetEntry_beats s stream m

theorem processResetStreamEntry_beats (resetAll : Bool) (m : Machine σ) :
    Beats b (processResetStreamEntry env resetAll) m :=
  Walks.look_bind (Walks.ite (fun _ => Walks.each resetAt_beats) fun _ =>
    Walks.bind (Walks.each resetAt_beats) fun _ _ _ => Walks.unseen rfl)

theorem readFailed_beats (errno : Errno) (message : Errno → Message) (m : Machine σ) :
    Beats b (readFailed env errno message) m := by
  cases errno with
  | EWOULDBLOCK => exact Walks.pure
  | EINTR => exact Walks.pure
  | other code => exact error_beats _ m

theorem reportCounters_beats (i : ℕ) (m : Machine σ) : Beats b (reportCounters env i) m := by
  refine Walks.look_bind ?_
  rw [id_look]
  cases m.entryAt i with
  | none => exact Walks.pure
  | some e =>
      dsimp only
      cases m.streams[e.streamId]? with
      | none => exact Walks.raise
      | some stream =>
          refine Walks.bind (Walks.ite (fun _ => ?_) fun _ => Walks.pure) fun _ t _ =>
            modify_beats i _ t
          exact Walks.bind (observe_beats rfl rfl m) fun _ t _ => userCall_beats _ t

theorem checkTimeout_beats (m : Machine σ) : Beats b (checkTimeout env) m := by
  refine Walks.look_bind (Walks.ite (fun _ => Walks.pure) fun _ => ?_)
  refine Walks.bind (askWorld_beats _ m) fun now t _ =>
    Walks.bind (Walks.unseen rfl) fun _ u _ => ?_
  exact Walks.bind (observe_beats rfl rfl u) fun _ v _ =>
    Walks.ite (fun _ => error_beats _ v) fun _ => Walks.pure

theorem eventTimer_beats (fault : Option Errno) (m : Machine σ) :
    Beats b (eventTimer env fault) m := by
  cases fault with
  | some errno => exact readFailed_beats errno _ m
  | none =>
      exact Walks.look_bind (Walks.bind (Walks.each reportCounters_beats) fun _ t _ =>
        checkTimeout_beats t)

theorem enableRange_beats (fd : ℤ) (m : Machine σ) : Beats b (enableRange env fd) m :=
  Walks.look_bind (Walks.each arm_beats)

theorem disableRange_beats (fd : ℤ) (m : Machine σ) : Beats b (disableRange fd : Run σ Unit) m :=
  Walks.look_bind (Walks.each cancelEntry_beats)

theorem drain_beats (m : Machine σ) : Beats b (drain env) m := by
  refine Walks.look_bind (Walks.bind (observe_beats rfl rfl m) fun _ t _ => ?_)
  refine Walks.bind (processResetStreamEntry_beats false t) fun _ u _ => Walks.look_bind ?_
  refine Walks.bind (Walks.each enableRange_beats) fun _ v _ => Walks.bind (Walks.unseen rfl) ?_
  exact fun _ w _ => Walks.look_bind (Walks.bind (Walks.each disableRange_beats) fun _ _ _ =>
    Walks.unseen rfl)

theorem readNotice_beats (fault : Option Errno) (m : Machine σ) :
    Beats b (readNotice fault : Run σ (Option Errno)) m := by
  refine Walks.look_bind ?_
  cases fault with
  | some errno => exact Walks.pure
  | none =>
      exact Walks.ite (fun _ => Walks.pure) fun _ =>
        Walks.bind (Walks.unseen rfl) fun _ _ _ => Walks.pure

theorem eventNotice_beats (fault : Option Errno) (between : List ThreadAction) (m : Machine σ) :
    Beats b (eventNotice env fault between) m := by
  refine Walks.bind (readNotice_beats fault m) fun failure t _ => ?_
  cases failure with
  | some errno => exact readFailed_beats errno _ t
  | none =>
      refine Walks.bind (Walks.each threadAction_beats) fun _ u _ => Walks.look_bind ?_
      refine Walks.ite (fun _ => Walks.pure) fun _ => Walks.ite (fun hc => ?_) fun _ => ?_
      · have hstop : Machine.outline { u with shouldRun := false } =
            { u.outline with shouldRun := false, shouldCancel := true } := by
          have hc : u.shouldCancel = true := hc
          unfold Machine.outline
          rw [hc]
        exact Walks.alter (hstop ▸ .stopped)
      · exact Walks.bind (Walks.unseen rfl) fun _ v _ => Walks.leaving (drain_beats v) fun _ => rfl

theorem handleEvent_beats (ev : EpollEvent) (m : Machine σ) : Beats b (handleEvent env ev) m := by
  refine Walks.bind (Walks.each threadAction_beats) fun _ t _ => Walks.look_bind ?_
  refine Walks.ite (fun _ => handleUsb_beats _ _ t) fun _ => Walks.ite (fun _ => ?_) fun _ => ?_
  · exact eventNotice_beats _ _ t
  · exact Walks.ite (fun _ => eventTimer_beats _ t) fun _ => enableRange_beats _ t

/-! ## Steps -/

theorem leave_beats (why : Exit) (m : Machine σ) : Beats b (leave why) m := Walks.unseen rfl

theorem cancelEnabled_beats (i : ℕ) (m : Machine σ) : Beats b (cancelEnabled i : Run σ Bool) m := by
  refine Walks.look_bind ?_
  rw [id_look]
  cases m.entryAt i with
  | none => exact Walks.pure
  | some e =>
      refine Walks.ite (fun _ => ?_) fun _ => Walks.pure
      exact Walks.bind (cancelEntry_beats i m) fun _ _ _ => Walks.pure

theorem endBatch_beats (m : Machine σ) : Beats b (endBatch env) m := by
  refine Walks.look_bind (Walks.ite (fun _ => Walks.pure) fun _ => ?_)
  refine Walks.bind (Walks.rescue (processResetStreamEntry_beats true m) fun _ _ _ =>
    Walks.pure) fun _ t _ => Walks.look_bind ?_
  refine Walks.bind (Walks.anyOf cancelEnabled_beats) fun some u _ => ?_
  refine Walks.bind (Walks.unseen rfl) fun _ v _ => Walks.look_bind ?_
  refine Walks.ite (fun _ => ?_) fun _ => Walks.ite (fun _ => ?_) fun _ => Walks.pure
  · exact Walks.bind (leave_beats _ v) fun _ _ _ => Walks.pure
  · exact Walks.bind (leave_beats _ v) fun _ _ _ => Walks.pure

theorem processStep_beats (input : StepInput) (m : Machine σ) :
    Beats b (processStep env input) m := by
  refine Walks.bind (leave_beats _ m) fun _ t _ => Walks.look_bind ?_
  refine Walks.ite (fun _ => Walks.pure) fun _ => ?_
  cases input with
  | failed errno =>
      refine Walks.bind (observe_beats rfl rfl t) fun _ u _ => ?_
      refine Walks.bind (cancel_beats u) fun _ v _ => ?_
      exact Walks.bind (leave_beats _ v) fun _ _ _ => Walks.pure
  | ready events =>
      refine Walks.ite (fun _ => Walks.pure) fun _ => Walks.rescue ?_ fun cause u _ => ?_
      · exact Walks.bind (Walks.each handleEvent_beats) fun _ u _ => endBatch_beats u
      · refine Walks.bind (cancel_beats u) fun _ v _ => Walks.bind (leave_beats _ v) ?_
        exact fun _ w _ => Walks.bind (observe_beats rfl rfl w) fun _ _ _ => Walks.raise

/-- The same modes, and the same thread. -/
structure SameModes (c c' : Outline) : Prop where
  isStartedThr : c'.isStartedThr = c.isStartedThr
  isStartedPoll : c'.isStartedPoll = c.isStartedPoll
  threadAlive : c'.threadAlive = c.threadAlive

theorem SameModes.trans {c c₁ c₂ : Outline} (h : SameModes c c₁) (h' : SameModes c₁ c₂) :
    SameModes c c₂ :=
  ⟨h'.isStartedThr.trans h.isStartedThr, h'.isStartedPoll.trans h.isStartedPoll,
    h'.threadAlive.trans h.threadAlive⟩

theorem Beat.modes {c c' : Outline} (h : Beat b c c') : SameModes c c' := by
  cases h <;> exact ⟨rfl, rfl, rfl⟩

/-- A beat is nothing to the modes. -/
theorem Beats.modes {α : Type} {p : Run σ α} {o : Outcome Exn α} (h : Beats b p m)
    (hp : p m = (o, m')) : SameModes m.outline m'.outline := by
  have hall := inv_of_path (I := SameModes m.outline) (fun _ _ hb hc => hc.trans hb.modes) h
    ⟨rfl, rfl, rfl⟩
  rwa [hp] at hall

/-- **The same descriptors and entries.** -/
structure SameHoldings (c c' : Outline) : Prop where
  made : c'.made = c.made
  epollFd : c'.epollFd = c.epollFd
  usbEpollFd : c'.usbEpollFd = c.usbEpollFd
  timerFd : c'.timerFd = c.timerFd

theorem SameHoldings.trans {c c₁ c₂ : Outline} (h : SameHoldings c c₁) (h' : SameHoldings c₁ c₂) :
    SameHoldings c c₂ :=
  ⟨h'.made.trans h.made, h'.epollFd.trans h.epollFd, h'.usbEpollFd.trans h.usbEpollFd,
    h'.timerFd.trans h.timerFd⟩

theorem Beat.holdings {c c' : Outline} (h : Beat .working c c') : SameHoldings c c' := by
  cases h with
  | begun now hb _ => cases hb
  | refused hb _ _ _ => cases hb
  | refusedUsb hb _ _ _ => cases hb
  | refusedTimer hb _ _ _ => cases hb
  | opened hb _ _ _ => cases hb
  | openedUsb hb _ _ _ => cases hb
  | openedTimer hb _ _ _ => cases hb
  | closed hb _ => cases hb
  | closedUsb hb _ => cases hb
  | closedTimer hb _ => cases hb
  | freed why inFlight hb _ _ _ => cases hb
  | _ => exact ⟨rfl, rfl, rfl, rfl⟩

/-- **A program that works** leaves them alone, whichever way it ends. -/
theorem Beats.holdings {α : Type} {p : Run σ α} {o : Outcome Exn α} (h : Beats .working p m)
    (hp : p m = (o, m')) : SameHoldings m.outline m'.outline := by
  have hall := inv_of_path (I := SameHoldings m.outline) (fun _ _ hb hc => hc.trans hb.holdings) h
    ⟨rfl, rfl, rfl, rfl⟩
  rwa [hp] at hall

/-! ## Cleaning up -/

section Closing

variable (hb : b.closes = true)
include hb

theorem closeTimer_beats (m : Machine σ) : Beats b (closeTimer : Run σ Unit) m :=
  Walks.look_bind (Walks.ite (fun h => ReflTransGen.single (.closedTimer hb h)) fun _ => Walks.pure)

theorem closeUsbEpoll_beats (m : Machine σ) : Beats b (closeUsbEpoll : Run σ Unit) m :=
  Walks.look_bind (Walks.ite (fun h => ReflTransGen.single (.closedUsb hb h)) fun _ => Walks.pure)

theorem closeEpoll_beats (m : Machine σ) : Beats b (closeEpoll : Run σ Unit) m :=
  Walks.look_bind (Walks.ite (fun h => ReflTransGen.single (.closed hb h)) fun _ => Walks.pure)

theorem resetStreamstates_beats (h₁ : m.epollFd < 0) (h₂ : m.usbEpollFd < 0)
    (h₃ : m.timerFd < 0) : Beats b (resetStreamstates : Run σ Unit) m := by
  refine Walks.look_bind ?_
  rw [id_look]
  cases m.streamstates with
  | none => exact Walks.pure
  | some entries => exact ReflTransGen.single (.freed _ _ hb h₁ h₂ h₃)

end Closing

/-- A descriptor after it was closed. -/
def shut (fd : ℤ) : ℤ := if 0 ≤ fd then -1 else fd

theorem shut_neg (fd : ℤ) : shut fd < 0 := by
  unfold shut
  split <;> omega

/-- The engine in outline when everything is closed and destroyed. -/
def Outline.shut (c : Outline) : Outline :=
  { c with
    made := false
    epollFd := Stream.shut c.epollFd
    usbEpollFd := Stream.shut c.usbEpollFd
    timerFd := Stream.shut c.timerFd }

theorem closeTimer_outline (m : Machine σ) :
    Ends closeTimer (fun _ t => t.outline =
      { m.outline with timerFd := shut m.timerFd, trace := t.trace }) (fun _ _ => False) m := by
  unfold closeTimer shut
  rw [ends_bind, ends_look, id_look, ends_ite]
  exact ⟨fun h => by rw [if_pos h]; rfl, fun h => by rw [if_neg h]; rfl⟩

theorem closeUsbEpoll_outline (m : Machine σ) :
    Ends closeUsbEpoll (fun _ t => t.outline =
      { m.outline with usbEpollFd := shut m.usbEpollFd, trace := t.trace })
      (fun _ _ => False) m := by
  unfold closeUsbEpoll shut
  rw [ends_bind, ends_look, id_look, ends_ite]
  exact ⟨fun h => by rw [if_pos h]; rfl, fun h => by rw [if_neg h]; rfl⟩

theorem closeEpoll_outline (m : Machine σ) :
    Ends closeEpoll (fun _ t => t.outline =
      { m.outline with epollFd := shut m.epollFd, trace := t.trace }) (fun _ _ => False) m := by
  unfold closeEpoll shut
  rw [ends_bind, ends_look, id_look, ends_ite]
  exact ⟨fun h => by rw [if_pos h]; rfl, fun h => by rw [if_neg h]; rfl⟩

theorem resetStreamstates_outline (m : Machine σ) :
    Ends resetStreamstates (fun _ t => t.outline =
      { m.outline with made := false, trace := t.trace }) (fun _ _ => False) m := by
  unfold resetStreamstates
  rw [ends_bind, ends_look, id_look]
  cases hs : m.streamstates with
  | none =>
      show m.outline = { m.outline with made := false, trace := m.trace }
      unfold Machine.outline
      rw [hs]
      rfl
  | some entries => rfl

/-- The descriptors and then the entries. -/
theorem closeAll_outline (m : Machine σ) :
    Ends (do closeTimer; closeUsbEpoll; closeEpoll; resetStreamstates : Run σ Unit)
      (fun _ t => t.outline = { m.outline.shut with trace := t.trace }) (fun _ _ => False) m := by
  rw [ends_bind]
  refine (closeTimer_outline m).mono (fun _ t ht => ?_) fun _ _ hf => hf
  rw [ends_bind]
  refine (closeUsbEpoll_outline t).mono (fun _ u hu => ?_) fun _ _ hf => hf
  rw [ends_bind]
  refine (closeEpoll_outline u).mono (fun _ v hv => ?_) fun _ _ hf => hf
  refine (resetStreamstates_outline v).mono (fun _ w hw => ?_) fun _ _ hf => hf
  have husb : t.usbEpollFd = m.usbEpollFd := congrArg Outline.usbEpollFd ht
  have hepoll : u.epollFd = m.epollFd :=
    (congrArg Outline.epollFd hu).trans (congrArg Outline.epollFd ht)
  rw [hw, hv, hu, ht, husb, hepoll]
  rfl

/-- **What `process_cleanup` leaves.** -/
theorem processCleanup_outline (m : Machine σ) :
    Ends processCleanup (fun _ t => t.outline = { m.outline.shut with
      shouldRun := false, shouldCancel := true, trace := t.trace }) (fun _ _ => False) m := by
  unfold processCleanup
  rw [ends_bind, ends_cancel, ends_bind, ends_alter]
  exact (closeAll_outline _).mono (fun _ t ht => ht) fun _ _ hf => hf

/-- **The end of a clean-up** in beats: the descriptors are closed, and the
entries destroyed. -/
theorem closeAll_beats (hb : b.closes = true) (m : Machine σ) :
    Beats b (do closeTimer; closeUsbEpoll; closeEpoll; resetStreamstates : Run σ Unit) m := by
  refine Walks.bind (closeTimer_beats hb m) fun _ t ht => ?_
  have ht := ends_ret_of (Q := fun _ t => t.outline =
    { m.outline with timerFd := shut m.timerFd, trace := t.trace }) (closeTimer_outline m) ht
  refine Walks.bind (closeUsbEpoll_beats hb t) fun _ u hu => ?_
  have hu := ends_ret_of (Q := fun _ u => u.outline =
    { t.outline with usbEpollFd := shut t.usbEpollFd, trace := u.trace })
      (closeUsbEpoll_outline t) hu
  refine Walks.bind (closeEpoll_beats hb u) fun _ v hv => ?_
  have hv := ends_ret_of (Q := fun _ v => v.outline =
    { u.outline with epollFd := shut u.epollFd, trace := v.trace }) (closeEpoll_outline u) hv
  have h₁ : v.outline.epollFd = shut u.epollFd := by rw [hv]
  have h₂ : v.outline.usbEpollFd = shut t.usbEpollFd := by rw [hv, hu]
  have h₃ : v.outline.timerFd = shut m.timerFd := by rw [hv, hu, ht]
  exact resetStreamstates_beats hb (h₁.trans_lt (shut_neg _)) (h₂.trans_lt (shut_neg _))
    (h₃.trans_lt (shut_neg _))

theorem processCleanup_beats (hb : b.closes = true) (m : Machine σ) :
    Beats b (processCleanup : Run σ Unit) m :=
  Walks.bind (cancel_beats m) fun _ _ _ => Walks.bind (Walks.unseen rfl) fun _ u _ =>
    closeAll_beats hb u

/-! ## Setting up -/

theorem addToEpoll_beats (sock : ℤ) (m : Machine σ) : Beats b (addToEpoll env sock) m := by
  refine Walks.look_bind (Walks.bind (askWorld_beats _ m) fun failure t _ => ?_)
  cases failure with
  | none => exact Walks.unseen rfl
  | some cause => exact error_beats _ t

theorem initEntry_beats (i : ℕ) (stream : FtdiStreamEntry) (m : Machine σ) :
    Beats b (initEntry env i stream) m := by
  refine Walks.look_bind (Walks.bind (modify_beats i _ m) fun _ t _ => Walks.look_bind ?_)
  rw [id_look]
  cases t.entryAt i with
  | none => exact Walks.pure
  | some e =>
      refine Walks.bind (askWorld_beats _ t) fun found u _ => ?_
      refine Walks.bind (modify_beats i _ u) fun _ v _ => ?_
      refine Walks.ite (fun _ => Walks.raise) fun _ => Walks.bind ?_ fun _ w _ => submit_beats i w
      exact Walks.ite (fun _ => Walks.pure) fun _ => addToEpoll_beats _ v

theorem createStreamstate_beats (s : ℕ) (stream : FtdiStreamEntry) (isReading : Bool) (t : ℕ)
    (m : Machine σ) : Beats b (createStreamstate env s stream isReading t) m := by
  refine Walks.bind (userCall_beats _ m) fun fd u _ => ?_
  refine Walks.bind (askWorld_beats _ u) fun allocated v _ => ?_
  refine Walks.ite (fun _ => Walks.raise) fun _ => Walks.look_bind ?_
  refine Walks.bind (Walks.unseen ?_) fun _ w _ => initEntry_beats _ stream w
  unfold Machine.outline
  cases v.streamstates <;> rfl

theorem createStream_beats (s : ℕ) (m : Machine σ) : Beats b (createStream env s) m := by
  refine Walks.look_bind ?_
  rw [id_look]
  cases m.streams[s]? with
  | none => exact Walks.pure
  | some stream =>
      exact Walks.bind (Walks.each (createStreamstate_beats s stream true)) fun _ _ _ =>
        Walks.each (createStreamstate_beats s stream false)

theorem registerPollfds_beats (m : Machine σ) : Beats b (registerPollfds env) m := by
  refine Walks.bind (askWorld_beats _ m) fun pollfds t _ => ?_
  cases pollfds with
  | none => exact Walks.raise
  | some fds => exact Walks.each addToUsbEpoll_beats

/-- A descriptor that is asked for is refused, or opened. -/
theorem open_beats {g : Machine σ → Machine σ} {fd : ℤ} {cause : Exn} {k : Run σ Unit}
    (hrefused : fd < 0 → Beat b m.outline (g m).outline)
    (hopened : 0 ≤ fd → Beat b m.outline ((g m).outline.note (.opened fd)))
    (hk : 0 ≤ fd → Beats b k ((g m).note (.opened fd))) :
    Beats b (do
      alter g
      if fd < 0 then raise cause
      else do
        observe (.opened fd)
        k) m := by
  by_cases h : fd < 0
  · simp only [if_pos h]
    exact ReflTransGen.single (hrefused h)
  · simp only [if_neg h]
    have h : 0 ≤ fd := by omega
    exact ReflTransGen.trans (ReflTransGen.single (hopened h)) (hk h)

/-- What `add_to_epoll` leaves alone. -/
theorem addToEpoll_holdings (sock : ℤ) (m : Machine σ) :
    Ends (addToEpoll env sock) (fun _ t => SameHoldings m.outline t.outline)
      (fun _ _ => False) m := by
  refine (ends_self.and (addToEpoll_ends sock m)).mono ?_ fun _ _ hf => hf.2
  exact fun _ t ht => (addToEpoll_beats sock m).holdings ht.1

section Opening

variable (hr : env.Refuses r)
include hr

theorem openEpolls_beats (hm : m.Made) (h₁ : m.epollFd < 0) (h₂ : m.usbEpollFd < 0) :
    Beats (.starting r) (openEpolls env) m := by
  refine Walks.bind (askWorld_beats _ m) fun fd t ht => ?_
  cases ht
  refine open_beats (fun h => .refused rfl h (hr.epollCreate _ h) h₁)
    (fun h => .opened rfl h hm h₁) fun _ => ?_
  refine Walks.bind (askWorld_beats _ _) fun fd' u hu => ?_
  cases hu
  exact open_beats (fun h => .refusedUsb rfl h (hr.epollCreate _ h) h₂)
    (fun h => .openedUsb rfl h hm h₂) fun _ => addToEpoll_beats _ _

theorem openTimer_beats (hm : m.Made) (h : m.timerFd < 0) :
    Beats (.starting r) (openTimer env) m := by
  refine Walks.bind (askWorld_beats _ m) fun fd t ht => ?_
  cases ht
  refine open_beats (fun hfd => .refusedTimer rfl hfd (hr.timerfdCreate _ hfd) h)
    (fun hfd => .openedTimer rfl hfd hm h) ?_
  refine fun _ => Walks.bind (askWorld_beats _ _) fun rc u _ => ?_
  exact Walks.ite (fun _ => Walks.raise) fun _ => addToEpoll_beats _ u

end Opening

/-- **Both epolls are open** where `process_init` goes on. -/
theorem openEpolls_opens (hm : m.Made) :
    Ends (openEpolls env) (fun _ t => t.Made ∧ 0 ≤ t.epollFd ∧ 0 ≤ t.usbEpollFd ∧
      t.timerFd = m.timerFd) (fun _ _ => True) m := by
  unfold openEpolls
  simp only [ends_bind, ends_askWorld, ends_alter, ends_ite, ends_raise, ends_observe]
  refine ⟨fun _ => trivial, fun h₁ => ⟨fun _ => trivial, fun h₂ => ?_⟩⟩
  refine (addToEpoll_holdings _ _).mono (fun _ t hh => ?_) fun _ _ _ => trivial
  exact ⟨hh.made.trans hm, (not_lt.mp h₁).trans_eq hh.epollFd.symm,
    (not_lt.mp h₂).trans_eq hh.usbEpollFd.symm, hh.timerFd⟩

/-- And so is the timer. -/
theorem openTimer_opens (m : Machine σ) :
    Ends (openTimer env) (fun _ t => t.streamstates.isSome = m.streamstates.isSome ∧
      t.epollFd = m.epollFd ∧ t.usbEpollFd = m.usbEpollFd ∧ 0 ≤ t.timerFd) (fun _ _ => True) m := by
  unfold openTimer
  simp only [ends_bind, ends_askWorld, ends_alter, ends_ite, ends_raise, ends_observe]
  refine ⟨fun _ => trivial, fun h => ⟨fun _ => trivial, fun _ => ?_⟩⟩
  refine (addToEpoll_holdings _ _).mono (fun _ t hh => ?_) fun _ _ _ => trivial
  exact ⟨hh.made, hh.epollFd, hh.usbEpollFd, (not_lt.mp h).trans_eq hh.timerFd.symm⟩

/-- **An engine that is set up**: its entries are there, and its descriptors
open. -/
structure Outline.Open (c : Outline) : Prop where
  made : c.made = true
  epollFd : 0 ≤ c.epollFd
  usbEpollFd : 0 ≤ c.usbEpollFd
  timerFd : 0 ≤ c.timerFd

theorem Outline.Open.same {c c' : Outline} (hc : c.Open) (h : SameHoldings c c') : c'.Open :=
  ⟨h.made.trans hc.made, hc.epollFd.trans_eq h.epollFd.symm,
    hc.usbEpollFd.trans_eq h.usbEpollFd.symm, hc.timerFd.trans_eq h.timerFd.symm⟩

theorem openDescriptors_opens (hm : m.Made) :
    Ends (openDescriptors env) (fun _ t => t.outline.Open) (fun _ _ => True) m := by
  unfold openDescriptors
  rw [ends_bind]
  refine (openEpolls_opens hm).mono (fun _ t ht => ?_) fun _ _ h => h
  obtain ⟨hmade, h₁, h₂, -⟩ := ht
  rw [ends_bind, ends_look, id_look, ends_bind]
  refine (addToEpoll_holdings _ t).mono (fun _ u hu => ?_) fun _ _ _ => trivial
  rw [ends_bind]
  refine (openTimer_opens u).mono (fun _ v hv => ?_) fun _ _ h => h
  obtain ⟨hmv, hev, huv, htv⟩ := hv
  have hv : v.outline.Open := ⟨hmv.trans (hu.made.trans hmade),
    h₁.trans_eq (hev.trans hu.epollFd).symm, h₂.trans_eq (huv.trans hu.usbEpollFd).symm, htv⟩
  rw [ends_bind]
  refine ends_self.mono (fun _ w hw => ?_) fun _ _ _ => trivial
  exact (hv.same ((registerPollfds_beats v).holdings hw)).same ⟨rfl, rfl, rfl, rfl⟩

/-- **Where `process_init` returns** the engine is set up. -/
theorem initBody_opens (m : Machine σ) :
    Ends (initBody env) (fun _ t => t.outline.Open) (fun _ _ => True) m := by
  unfold initBody
  rw [ends_bind, ends_askWorld, ends_bind, ends_alter, ends_bind]
  have hmade : ((m.withWorld (env.monotime m.world).2).begun (env.monotime m.world).1).Made := rfl
  refine (openDescriptors_opens hmade).mono (fun _ t ht => ?_) fun _ _ h => h
  rw [ends_bind]
  refine ends_self.mono (fun _ u hu => ?_) fun _ _ _ => trivial
  have hu := ht.same ((processResetStreamEntry_beats true t).holdings hu)
  rw [ends_bind, ends_look]
  refine ends_self.mono (fun _ v hv => ?_) fun _ _ _ => trivial
  exact hu.same (Beats.holdings (Walks.each createStream_beats) hv)

section Starting

variable (hr : env.Refuses r)
include hr

theorem openDescriptors_beats (hm : m.Made) (h₁ : m.epollFd < 0) (h₂ : m.usbEpollFd < 0)
    (h₃ : m.timerFd < 0) : Beats (.starting r) (openDescriptors env) m := by
  refine Walks.bind (openEpolls_beats hr hm h₁ h₂) fun _ t ht => Walks.look_bind ?_
  obtain ⟨hmt, -, -, hft⟩ := ends_ret_of (openEpolls_opens hm) ht
  refine Walks.bind (addToEpoll_beats _ t) fun _ u hu => ?_
  have hu := ends_ret_of (Q := fun _ u => SameHoldings t.outline u.outline)
    (addToEpoll_holdings _ t) hu
  have htimer : u.timerFd < 0 := (hu.timerFd.trans hft).trans_lt h₃
  refine Walks.bind (openTimer_beats hr (hu.made.trans hmt) htimer) fun _ v _ => ?_
  exact Walks.bind (registerPollfds_beats v) fun _ _ _ => Walks.unseen rfl

theorem initBody_beats (hm : m.streamstates = none) :
    Beats (.starting r) (initBody env) m := by
  have hneg : (-1 : ℤ) < 0 := by decide
  refine Walks.bind (askWorld_beats _ m) fun now t ht => ?_
  cases ht
  have hmade : (m.withWorld (env.monotime m.world).2).outline.made = false := by
    show m.streamstates.isSome = false
    rw [hm]
    rfl
  refine Walks.bind (Walks.alter (.begun _ rfl hmade)) fun _ u hu => ?_
  cases hu
  refine Walks.bind (openDescriptors_beats hr rfl hneg hneg hneg) fun _ v _ => ?_
  refine Walks.bind (processResetStreamEntry_beats true v) fun _ w _ => Walks.look_bind ?_
  exact Walks.each createStream_beats

theorem processInit_beats (m : Machine σ) : Beats (.starting r) (processInit env) m := by
  refine Walks.look_bind (Walks.ite (fun _ => Walks.raise) fun hm => ?_)
  refine Walks.rescue (initBody_beats hr (by simpa using hm)) fun cause t _ => ?_
  exact Walks.bind (processCleanup_beats rfl t) fun _ u _ =>
    Walks.bind (error_beats _ u) fun _ _ _ => Walks.raise

end Starting

end Stream

end SgFtdi
