import SgFtdi.Stream.Moves.Life

/-!
# Stream — what the engine is refused

An exception leaves the handling of an event where somebody refuses what
the engine asks for: libusb reports an error, a counter callback throws, a
reset fails, or an entry that is switched on is not filled by the user or
not taken by libusb. The refusals are read off these answers, each in the
state in which it is asked for, and `handleEvents_throws` says that there
is no other reason to throw. `F` is what is asked of the transfers in
flight when that happens.
-/

namespace SgFtdi

namespace Stream

open Prog Relation

variable {σ : Type} (env : Env σ) (F : (ℕ → Bool) → Prop)

/-! ## The answers that refuse -/

/-- `WRITE_FILL_BUFFER` throws or returns a negative length. -/
def FillRefused (e : FtdiStreamStaticState) (m : Machine σ) : Prop :=
  ∀ n b, (env.callback false e.streamId .writeFillBuffer (e.transfer.buffer.getD [])
    e.bufferSize m.world).1.result = .ok (n, b) → n < 0

/-- libusb does not take the transfer. -/
def SubmitRefused (i : ℕ) (m : Machine σ) : Prop := (env.submitTransfer i m.world).1 ≠ 0

/-- **`submit` is refused** for an enabled entry of a running engine: its
buffer has a negative size, the user does not fill it, or libusb does not
take it. -/
inductive Unsubmitted (i : ℕ) (e : FtdiStreamStaticState) (m : Machine σ) : Prop
  | size : e.isReading = true → e.bufferSize < 0 → Unsubmitted i e m
  | fill : e.isReading = false → FillRefused env e m → Unsubmitted i e m
  | submit {n : ℤ} {m₁ : Machine σ} : submitLength env i e m = (.ret n, m₁) → 0 < n →
      SubmitRefused env i m₁ → Unsubmitted i e m

/-- **An entry is switched on and refused**: a disabled one, while
`should_run` is up. -/
def ArmRefused (i : ℕ) (m : Machine σ) : Prop :=
  ∃ e, m.entryAt i = some e ∧ e.enabled = false ∧ m.shouldRun = true ∧
    Unsubmitted env i (e.setEnabled true) (m.modifyEntry i (.setEnabled true)) ∧ F m.flying

/-- One of the entries of a descriptor is. -/
def RangeRefused (fd : ℤ) (m : Machine σ) : Prop :=
  Meets (ArmRefused env F) (arm env) (m.equalRange fd) m

/-- `libusb_handle_events_timeout` reports an error. -/
def UsbRefused (usb : List UsbAction) (result : ℤ) (m : Machine σ) : Prop :=
  result ≠ 0 ∧ result ≠ libusbErrorInterrupted ∧
    ∃ t, each usb (usbAction env) m = (.ret (), t) ∧ F t.flying

/-- The counter callback of an entry's stream throws. -/
def CounterRefused (i : ℕ) (m : Machine σ) : Prop :=
  ∃ e stream cause, m.entryAt i = some e ∧ m.streams[e.streamId]? = some stream ∧
    stream.hasCounterCallback = true ∧
    (env.counterCallback e.streamId e.isReading e.transferId e.counterCallbacks e.counterBytes
      m.world).1.result = .error cause ∧ F m.flying

/-- **A reset fails**: there is no such stream, its reset callback throws, or
the device does not take one of the two control transfers. -/
inductive ResetRefused (streamId : ℕ) (m : Machine σ) : Prop
  | unknown : m.streams[streamId]? = none → F m.flying → ResetRefused streamId m
  | callback {stream : FtdiStreamEntry} {cause : Exn} {t : Machine σ} :
      m.streams[streamId]? = some stream → stream.hasResetCallback = true →
      each (env.resetCallback streamId m.world).1.completions (complete env)
        (m.withWorld (env.resetCallback streamId m.world).2) = (.ret (), t) →
      (env.resetCallback streamId m.world).1.reply.result = .error cause → F t.flying →
      ResetRefused streamId m
  | mode {stream : FtdiStreamEntry} {rc : ℤ} {t : Machine σ} :
      m.streams[streamId]? = some stream → stream.hasResetCallback = false →
      controlTransfer env (env.ftdiSetBitmode streamId) m = (.ret rc, t) → rc < 0 → F t.flying →
      ResetRefused streamId m
  | purge {stream : FtdiStreamEntry} {rc rc' : ℤ} {t u : Machine σ} :
      m.streams[streamId]? = some stream → stream.hasResetCallback = false →
      controlTransfer env (env.ftdiSetBitmode streamId) m = (.ret rc, t) → 0 ≤ rc →
      controlTransfer env (env.ftdiTcioflush streamId) t = (.ret rc', u) → rc' < 0 →
      F u.flying → ResetRefused streamId m

/-- **What was requested is refused** when the engine goes through the lists. -/
def DrainRefused (m : Machine σ) : Prop :=
  Meets (ResetRefused env F) (resetAt env) (m.listReset.walk (env.shuffle m.world)) m ∨
    ∃ t, processResetStreamEntry env false m = (.ret (), t) ∧
      Meets (RangeRefused env F) (enableRange env) (t.listEnable.walk (env.shuffle t.world)) t

/-- In the handling of a notice, which drains the lists of an engine that is
neither at its end nor asked to end. -/
def NoticeRefused (fault : Option Errno) (between : List ThreadAction) (m : Machine σ) : Prop :=
  fault = none ∧ m.noticeCount ≠ 0 ∧
    ∃ t, each between (threadAction env) { m with noticeCount := 0 } = (.ret (), t) ∧
      t.shouldRun = true ∧ t.shouldCancel = false ∧ DrainRefused env F t.locked

/-- **The handling of an event is refused** something, by the descriptor that
is ready. -/
def EventRefused (ev : EpollEvent) (m : Machine σ) : Prop :=
  ∃ t, each ev.meanwhile (threadAction env) m = (.ret (), t) ∧
    if ev.sock = t.usbEpollFd then UsbRefused env F ev.usb ev.usbResult t
    else if ev.sock = t.noticeEventFd then NoticeRefused env F ev.fault ev.between t
    else if ev.sock = t.timerFd then
      ev.fault = none ∧ Meets (CounterRefused env F) (reportCounters env) t.inOrder t
    else RangeRefused env F ev.sock t

/-- **A batch is refused** something. -/
def BatchRefused (events : List EpollEvent) (m : Machine σ) : Prop :=
  Meets (EventRefused env F) (handleEvent env) events m

/-- **A `process_step` is refused** something in its batch. -/
def StepRefused (input : StepInput) (m : Machine σ) : Prop :=
  ∃ events, input = .ready events ∧
    BatchRefused env F (epollWait m events) { m with lastExit := .running }

variable {env F} {m m' m₁ : Machine σ} {i : ℕ} {e : FtdiStreamStaticState}

/-! ## What every entry has -/

/-- **Every entry is furnished**: it has its buffer, and a stream it is of. -/
def Machine.Furnished (m : Machine σ) : Prop :=
  ∀ i e, m.entryAt i = some e →
    e.transfer.buffer.isSome = true ∧ (m.streams[e.streamId]?).isSome = true

theorem Machine.Furnished.of_none (h : m.streamstates = none) : m.Furnished := by
  intro i e he
  simp [FtdiStreamState.entryAt, FtdiStreamState.entries, h] at he

theorem Machine.Furnished.same (h : m.Furnished) (he : ∀ j, m'.entryAt j = m.entryAt j)
    (hs : m'.streams = m.streams) : m'.Furnished := by
  intro i e hi
  rw [hs]
  exact h i e (he i ▸ hi)

theorem Machine.Furnished.askedToStop (h : m.Furnished) : m.askedToStop.Furnished :=
  h.same (fun _ => rfl) rfl

/-- What lives on is furnished. -/
theorem AllLive.furnished (h : AllLive m m') (hs : m'.streams = m.streams) (hm : m.Furnished) :
    m'.Furnished := by
  intro i e' he'
  obtain ⟨e, he, hl⟩ := h.back he'
  rw [hl.same.hasBuffer, hl.same.streamId, hs]
  exact hm i e he

theorem moves_furnished (h : ReflTransGen (Move env) m m') (hm : m.Furnished) : m'.Furnished :=
  inv_of_path (fun _ _ hst ht => hst.lives.furnished hst.kept.streams ht) h hm

theorem handling_furnished (h : ReflTransGen (Handling env) m m') (hm : m.Furnished) :
    m'.Furnished :=
  inv_of_path (fun _ _ hst ht => hst.lives.furnished hst.fixed.streams ht) h hm

theorem Created.furnished {s t : ℕ} {stream : FtdiStreamEntry} {isReading : Bool}
    (h : Created env s t stream isReading m m') (hm : m.Furnished) : m'.Furnished := by
  obtain ⟨hothers, fd, e₀, e, -, hfresh, he, hsame, -⟩ := h.entries
  intro j e' he'
  rw [h.streams]
  by_cases hj : m.entries.length = j
  · subst hj
    obtain rfl := Option.some_inj.mp (he.symm.trans he')
    rw [hsame.hasBuffer, hsame.streamId, hfresh]
    refine ⟨rfl, ?_⟩
    unfold FtdiStreamStaticState.fresh FtdiStreamStaticState.fill
    split <;> exact Option.isSome_iff_exists.mpr ⟨stream, h.stream⟩
  · have hrel := hothers j hj
    rw [he'] at hrel
    generalize ho : m.entryAt j = x at hrel
    cases hrel with
    | some ha =>
        rw [ha.hasBuffer, ha.streamId]
        exact hm j _ ho

theorem Setup.furnished (h : Setup env m m') (hm : m.Furnished) : m'.Furnished := by
  cases h with
  | created hc => exact hc.furnished hm
  | opening ho =>
      cases ho with
      | move hm' => exact hm'.lives.furnished hm'.kept.streams hm
      | watched _ hw => exact hm.same hw.entryAt hw.streams
      | _ => exact hm

/-- **Every entry is furnished, over every life.** -/
theorem furnished_lasting : Lasting env (Machine.Furnished : Machine σ → Prop) where
  begun := fun _ _ _ _ _ i e he => by
    simp [FtdiStreamState.entryAt, FtdiStreamState.entries, Machine.begun] at he
  setup := fun _ _ _ hst hm => hst.furnished hm
  broken := fun _ _ _ _ _ hc _ => .of_none hc.streamstates
  processStep := processStep_preserves fun _ _ hst hm =>
    hst.lives.furnished hst.fixed.streams hm
  cleaned := fun _ _ hc _ => .of_none hc.streamstates
  aside := fun _ _ ha hm => hm.same ha.entryAt ha.streams

/-! ## Submitting -/

theorem fillBuffer_refused (i : ℕ) (e : FtdiStreamStaticState) (m : Machine σ) :
    Ends (fillBuffer env i e) (fun n _ => FillRefused env e m ↔ n < 0)
      (fun _ _ => FillRefused env e m) m := by
  unfold fillBuffer
  simp only [ends_bind, ends_observe]
  refine (userCall_ends _ _).mono ?_ ?_
  · rintro ⟨n, b⟩ t ⟨-, hr⟩
    have hr : (env.callback false e.streamId .writeFillBuffer (e.transfer.buffer.getD [])
      e.bufferSize m.world).1.result = .ok (n, b) := hr
    refine ⟨fun hrefused => hrefused n b hr, fun hn n' b' hok => ?_⟩
    rw [hr, Except.ok.injEq, Prod.mk.injEq] at hok
    exact hok.1 ▸ hn
  · rintro cause t ⟨-, hr⟩ n b hok
    have hr : (env.callback false e.streamId .writeFillBuffer (e.transfer.buffer.getD [])
      e.bufferSize m.world).1.result = .error cause := hr
    rw [hr] at hok
    cases hok

theorem libusbSubmitTransfer_refused (i : ℕ) (m : Machine σ) :
    Ends (libusbSubmitTransfer env i) (fun rc _ => rc = (env.submitTransfer i m.world).1)
      (fun _ _ => False) m := by
  unfold libusbSubmitTransfer
  rw [ends_bind, ends_look, ends_bind, ends_askWorld, id_look]
  cases m.entryAt i with
  | none => rfl
  | some e =>
      simp only [ends_bind, ends_observe, ends_ite]
      exact ⟨fun _ => rfl, fun _ => rfl⟩

/-- A refused length: the buffer's, or the user's. -/
theorem submitLength_refused (i : ℕ) (e : FtdiStreamStaticState) (m : Machine σ) :
    Ends (submitLength env i e)
      (fun n _ => (e.isReading = true ∧ e.bufferSize < 0 ∨
        e.isReading = false ∧ FillRefused env e m) ↔ n < 0)
      (fun _ _ => e.isReading = false ∧ FillRefused env e m) m := by
  unfold submitLength
  rw [ends_ite]
  refine ⟨fun hr => ?_, fun hr => ?_⟩
  · show _ ↔ _
    simp [hr]
  · have hr : e.isReading = false := Bool.eq_false_iff.mpr hr
    refine (fillBuffer_refused i e m).mono (fun n _ hn => ?_) fun _ _ h => ⟨hr, h⟩
    simp [hr, hn]

/-- **`submit` throws** over what it is refused, and over nothing else. -/
theorem submit_refused (he : m.entryAt i = some e) (hbuffer : e.transfer.buffer.isSome = true) :
    Ends (submit env i)
      (fun _ _ => ¬ (m.shouldRun = true ∧ e.enabled = true ∧ Unsubmitted env i e m))
      (fun _ _ => m.shouldRun = true ∧ e.enabled = true ∧ Unsubmitted env i e m) m := by
  have hnull : ¬ e.transfer.buffer = none := fun h => by simp [h] at hbuffer
  unfold submit
  rw [ends_bind, ends_look, id_look, he]
  dsimp only
  rw [if_neg hnull, ends_ite]
  refine ⟨fun hdown h => Bool.eq_false_iff.mp hdown h.1, fun hrun => ?_⟩
  have hrun : m.shouldRun = true := Bool.not_eq_false _ ▸ hrun
  rw [ends_ite]
  refine ⟨fun hoff h => Bool.eq_false_iff.mp hoff h.2.1, fun hen => ?_⟩
  have hen : e.enabled = true := Bool.not_eq_false _ ▸ hen
  simp only [hrun, hen, true_and]
  rw [ends_bind]
  refine ((submitLength_refused i e m).and ends_self).mono ?_ fun _ _ h => .fill h.1.1 h.1.2
  rintro n m₁ ⟨hlength, heq⟩
  -- a refusal is of the length, or of the transfer in this state
  have hcases : Unsubmitted env i e m → n < 0 ∨ (0 < n ∧ SubmitRefused env i m₁) := by
    intro h
    cases h with
    | size hr hsize => exact .inl (hlength.mp (.inl ⟨hr, hsize⟩))
    | fill hr hfill => exact .inl (hlength.mp (.inr ⟨hr, hfill⟩))
    | submit heq' hn h =>
        have hpair := heq.symm.trans heq'
        rw [Prod.mk.injEq, Outcome.ret.injEq] at hpair
        obtain ⟨rfl, rfl⟩ := hpair
        exact .inr ⟨hn, h⟩
  simp only [ends_bind, ends_alter, ends_ite]
  refine ⟨fun hn => ?_, fun hn => ⟨fun hz hr => ?_, fun hz => ?_⟩⟩
  · rcases hlength.mpr hn with ⟨hr, hsize⟩ | ⟨hr, hfill⟩
    · exact .size hr hsize
    · exact .fill hr hfill
  · rcases hcases hr with h | ⟨h, -⟩ <;> omega
  · refine (libusbSubmitTransfer_refused i _).mono ?_ fun _ _ hf => hf.elim
    rintro rc t rfl
    refine ⟨fun hne => .submit heq (by omega) hne, fun hz hr => ?_⟩
    rcases hcases hr with h | ⟨-, h⟩
    · omega
    · exact hz h

/-! ## Switching entries on -/

theorem Calm.flying (h : Calm env m m') : m'.flying = m.flying := by
  funext j
  unfold FtdiStreamState.flying
  have hj := h.entries j
  generalize m.entryAt j = x at hj ⊢
  generalize m'.entryAt j = y at hj ⊢
  cases hj with
  | none => rfl
  | some ha => simp [ha.inFlight]

/-- A write to an entry that leaves its flight alone. -/
theorem flying_modifyEntry (m : Machine σ) (i : ℕ)
    {f : FtdiStreamStaticState → FtdiStreamStaticState}
    (hf : ∀ e, (f e).transfer.inFlight = e.transfer.inFlight) :
    (m.modifyEntry i f).flying = m.flying := by
  funext j
  unfold FtdiStreamState.flying
  rw [entryAt_modifyEntry]
  split
  · cases m.entryAt j <;> simp [hf]
  · rfl

theorem arm_throws (i : ℕ) (hm : m.Furnished) :
    Throws (fun t => F t.flying) (arm env i) (ArmRefused env F i m) m := by
  unfold arm Throws
  rw [ends_bind, ends_look, id_look]
  cases he : m.entryAt i with
  | none =>
      rintro ⟨e, he', -⟩
      rw [he] at he'
      cases he'
  | some e =>
      dsimp only
      have he₁ : (m.modifyEntry i (.setEnabled true)).entryAt i = some (e.setEnabled true) := by
        rw [entryAt_modifyEntry_self, he]
        rfl
      -- of the entry that is there, so the condition is about its submission
      have hiff : ArmRefused env F i m ↔ e.enabled = false ∧ m.shouldRun = true ∧
          Unsubmitted env i (e.setEnabled true) (m.modifyEntry i (.setEnabled true)) ∧
          F m.flying := by
        refine ⟨?_, fun h => ⟨e, he, h⟩⟩
        rintro ⟨e', he', h⟩
        obtain rfl := Option.some_inj.mp (he.symm.trans he')
        exact h
      rw [ends_bind, ends_alter, ends_ite]
      refine ⟨fun hoff => ?_, fun hon h => hon (hiff.mp h).1⟩
      have hfly : (m.modifyEntry i (.setEnabled true)).flying = m.flying :=
        flying_modifyEntry m i fun _ => rfl
      refine ((submit_ends i _).and (submit_refused he₁ (hm i e he).1)).mono ?_ ?_
      -- the submission returned, so nothing was refused
      · exact fun _ _ h hr => h.2 ⟨(hiff.mp hr).2.1, rfl, (hiff.mp hr).2.2.1⟩
      · rintro _ t ⟨hw, hrun, -, hun⟩
        rw [hw.calm.flying, hfly, hiff]
        exact ⟨fun h => h.2.2.2, fun h => ⟨hoff, hrun, hun, h⟩⟩

theorem arm_furnished (i : ℕ) (hm : m.Furnished) :
    Ends (arm env i) (fun _ t => t.Furnished) (fun _ _ => True) m := by
  unfold arm
  rw [ends_bind, ends_look, id_look]
  cases he : m.entryAt i with
  | none => exact hm
  | some e =>
      dsimp only
      rw [ends_bind, ends_alter, ends_ite]
      refine ⟨fun hoff => ?_, fun hon => ?_⟩
      · refine (submit_ends i _).mono (fun _ t hs => ?_) fun _ _ _ => trivial
        exact (lives_of_submitted he hoff hs).furnished hs.kept_frame.streams hm
      · have hself : m.modifyEntry i (.setEnabled true) = m := by
          refine modifyEntry_eq_self fun e' he' => ?_
          obtain rfl := Option.some_inj.mp (he.symm.trans he')
          have hon : e.enabled = true := Bool.not_eq_false _ ▸ hon
          simp [FtdiStreamStaticState.setEnabled, ← hon]
        rw [hself]
        exact hm

theorem enableRange_furnished (fd : ℤ) (hm : m.Furnished) :
    Ends (enableRange env fd) (fun _ t => t.Furnished) (fun _ _ => True) m :=
  ends_each (I := fun _ (t : Machine σ) => t.Furnished) hm fun i _ _ ht => arm_furnished i ht

/-- **The loop over a descriptor's range** throws where an entry in it is
refused. -/
theorem enableRange_throws (fd : ℤ) (hm : m.Furnished) :
    Throws (fun t => F t.flying) (enableRange env fd) (RangeRefused env F fd m) m :=
  Throws.look_bind (Throws.each hm fun i _ _ ht => ⟨arm_furnished i ht, arm_throws i ht⟩)

/-! ## The events that are not the notice -/

theorem pollfd_returns {f : σ → Option Exn × σ} (change : Machine σ → List ℤ)
    (message : Exn → Message) (m : Machine σ) :
    Ends (do
      let failure ← askWorld f
      match failure with
      | none => alter fun m => { m with usbEpollSet := change m }
      | some cause => error env (message cause)) (fun _ _ => True) (fun _ _ => False) m := by
  rw [ends_bind, ends_askWorld]
  cases (f m.world).1 with
  | none => trivial
  | some cause =>
      dsimp only
      rw [ends_error]
      trivial

/-- Nothing that happens in `libusb_handle_events_timeout` throws. -/
theorem usbAction_returns (a : UsbAction) (m : Machine σ) :
    Ends (usbAction env a) (fun _ _ => True) (fun _ _ => False) m := by
  cases a with
  | completed c => exact (complete_ends c m).mono (fun _ _ _ => trivial) fun _ _ hf => hf
  | elsewhere a => exact (threadAction_ends a m).mono (fun _ _ _ => trivial) fun _ _ hf => hf
  | pollfdAdded fd =>
      unfold usbAction
      rw [ends_bind, ends_look, ends_ite]
      exact ⟨fun _ => pollfd_returns _ .addToUsbEpoll m, fun _ => trivial⟩
  | pollfdRemoved fd =>
      unfold usbAction
      rw [ends_bind, ends_look, ends_ite]
      exact ⟨fun _ => pollfd_returns _ .removeFromUsbEpoll m, fun _ => trivial⟩

theorem each_returns {β : Type} {body : β → Run σ Unit}
    (h : ∀ x m, Ends (body x) (fun _ _ => True) (fun _ _ => False) m) (xs : List β)
    (m : Machine σ) : Ends (each xs body) (fun _ _ => True) (fun _ _ => False) m :=
  ends_each (I := fun _ _ => True) trivial fun x _ t _ => h x t

theorem handleUsb_throws (usb : List UsbAction) (result : ℤ) (m : Machine σ) :
    Throws (fun t => F t.flying) (handleUsb env usb result) (UsbRefused env F usb result m) m := by
  have hafter : Throws (fun t => F t.flying) (handleUsb env usb result) _ m :=
    Throws.after (R := fun _ (t : Machine σ) =>
      if result ≠ 0 ∧ result ≠ libusbErrorInterrupted then F t.flying else False)
      ((each_returns usbAction_returns usb m).mono (fun _ t _ => Throws.ite
        (fun _ => Throws.raise) fun _ => Throws.never (Q := fun _ _ => True) trivial)
        fun _ _ hf => hf)
  refine hafter.congr ⟨?_, ?_⟩
  · rintro ⟨_, t, hrun, ht⟩
    split at ht
    · next h => exact ⟨h.1, h.2, t, hrun, ht⟩
    · exact ht.elim
  · rintro ⟨h₁, h₂, t, hrun, ht⟩
    refine ⟨(), t, hrun, ?_⟩
    rw [if_pos ⟨h₁, h₂⟩]
    exact ht

/-- **A counter callback** is all that throws where counters are reported. -/
theorem reportCounters_throws (i : ℕ) (hm : m.Furnished) :
    Throws (fun t => F t.flying) (reportCounters env i) (CounterRefused env F i m) m := by
  unfold reportCounters Throws
  rw [ends_bind, ends_look, id_look]
  cases he : m.entryAt i with
  | none =>
      rintro ⟨e, _, _, he', -⟩
      rw [he] at he'
      cases he'
  | some e =>
      -- every entry has its stream, so the callback is asked for
      obtain ⟨stream, hs⟩ := Option.isSome_iff_exists.mp (hm i e he).2
      have hiff : CounterRefused env F i m ↔ ∃ cause, stream.hasCounterCallback = true ∧
          (env.counterCallback e.streamId e.isReading e.transferId e.counterCallbacks
            e.counterBytes m.world).1.result = .error cause ∧ F m.flying := by
        refine ⟨?_, fun ⟨cause, h⟩ => ⟨e, stream, cause, he, hs, h⟩⟩
        rintro ⟨e', stream', cause, he', hs', h⟩
        obtain rfl := Option.some_inj.mp (he.symm.trans he')
        obtain rfl := Option.some_inj.mp (hs.symm.trans hs')
        exact ⟨cause, h⟩
      rw [hiff]
      simp only [hs]
      unfold callCounter
      rw [ends_bind, ends_ite]
      refine ⟨fun hcb => ?_, fun hcb => ?_⟩
      · refine (tell_ends _ m).mono ?_ ?_
        · rintro _ t ⟨-, hok⟩ ⟨cause, -, herror, -⟩
          have hok : (env.counterCallback e.streamId e.isReading e.transferId e.counterCallbacks
            e.counterBytes m.world).1.result = .ok _ := hok
          rw [herror] at hok
          cases hok
        · rintro cause t ⟨hq, herror⟩
          have hfly : t.flying = m.flying := hq.calm.flying
          rw [hfly]
          exact ⟨fun ⟨_, _, _, h⟩ => h, fun h => ⟨cause, hcb, herror, h⟩⟩
      · rintro ⟨cause, h, -⟩
        exact hcb h

theorem reportCounters_furnished (i : ℕ) (hm : m.Furnished) :
    Ends (reportCounters env i) (fun _ t => t.Furnished) (fun _ _ => True) m :=
  Ends.mono (reportCounters_follows i m) (fun _ _ ht => moves_furnished ht hm) fun _ _ _ => trivial

theorem checkTimeout_returns (m : Machine σ) :
    Ends (checkTimeout env) (fun _ _ => True) (fun _ _ => False) m := by
  unfold checkTimeout
  rw [ends_bind, ends_look, ends_ite]
  refine ⟨fun _ => trivial, fun _ => ?_⟩
  rw [ends_bind, ends_askWorld, ends_bind, ends_alter, ends_bind, ends_observe, ends_ite]
  refine ⟨fun _ => ?_, fun _ => trivial⟩
  rw [ends_error]
  trivial

theorem readFailed_returns (errno : Errno) (message : Errno → Message) (m : Machine σ) :
    Ends (readFailed env errno message) (fun _ _ => True) (fun _ _ => False) m := by
  cases errno with
  | EWOULDBLOCK => trivial
  | EINTR => trivial
  | other code =>
      unfold readFailed
      rw [ends_error]
      trivial

/-- **A tick** throws where a counter callback does. -/
theorem eventTimer_throws (fault : Option Errno) (hm : m.Furnished) :
    Throws (fun t => F t.flying) (eventTimer env fault)
      (fault = none ∧ Meets (CounterRefused env F) (reportCounters env) m.inOrder m) m := by
  cases fault with
  | some errno =>
      exact (Throws.never (readFailed_returns errno _ m)).congr (by simp)
  | none =>
      have hloop : Throws (fun t => F t.flying) (each m.inOrder (reportCounters env))
          (Meets (CounterRefused env F) (reportCounters env) m.inOrder m) m :=
        Throws.each hm fun i _ _ ht => ⟨reportCounters_furnished i ht, reportCounters_throws i ht⟩
      refine Throws.look_bind (Throws.congr (Throws.bind (R := fun _ _ => False) hloop ?_) ?_)
      · exact ends_self.mono (fun _ t _ => Throws.never (checkTimeout_returns t))
          fun _ _ _ => trivial
      · simp

/-! ## Resets and drains -/

theorem controlTransfer_returns (f : σ → (ℤ × List Completion) × σ) (m : Machine σ) :
    Ends (controlTransfer env f) (fun _ _ => True) (fun _ _ => False) m := by
  unfold controlTransfer
  rw [ends_bind, ends_askWorld, ends_bind]
  refine (each_returns (fun c t => ?_) _ _).mono (fun _ _ _ => trivial) fun _ _ hf => hf
  exact (complete_ends c t).mono (fun _ _ _ => trivial) fun _ _ hf => hf

/-- The two control transfers of a reset without a callback. -/
theorem resetDevice_throws {streamId : ℕ} {stream : FtdiStreamEntry}
    (hs : m.streams[streamId]? = some stream) (hcb : stream.hasResetCallback = false) :
    Throws (fun t => F t.flying) (resetEntry env streamId stream) (ResetRefused env F streamId m)
      m := by
  unfold resetEntry
  rw [if_neg (Bool.eq_false_iff.mp hcb)]
  -- without a callback there are two transfers, and the second is made if the first is
  -- taken
  have hpurge : ∀ t : Machine σ, Throws (fun t => F t.flying) (do
      let rc ← controlTransfer env (env.ftdiTcioflush streamId)
      if rc < 0 then raise .cantPurge else pure () : Run σ Unit) _ t := fun t =>
    Throws.after (R := fun (rc : ℤ) (u : Machine σ) => if rc < 0 then F u.flying else False)
      ((controlTransfer_returns _ t).mono (fun _ u _ => Throws.ite (fun _ => Throws.raise)
        fun _ => Throws.never (Q := fun _ _ => True) trivial) fun _ _ hf => hf)
  have hmode : Ends (controlTransfer env (env.ftdiSetBitmode streamId)) (fun _ _ => True)
      (fun _ _ => False) m := controlTransfer_returns _ m
  have hall := Throws.after (s := m) (F := fun t => F t.flying)
    (hmode.mono (fun rc t _ => Throws.ite (c := rc < 0)
        (fun _ => Throws.raise (e := Exn.cantResetMode))
        fun _ => hpurge t) fun _ _ hf => hf)
  refine hall.congr ⟨?_, ?_⟩
  · rintro ⟨rc, t, hmode, ht⟩
    split at ht
    · next hrc => exact .mode hs hcb hmode hrc ht
    · next hrc =>
        obtain ⟨rc', u, hflush, hu⟩ := ht
        split at hu
        · next hrc' => exact .purge hs hcb hmode (not_lt.mp hrc) hflush hrc' hu
        · exact hu.elim
  · intro h
    cases h with
    | unknown hnone _ =>
        rw [hs] at hnone
        cases hnone
    | callback hs' hcb' _ _ _ =>
        obtain rfl := Option.some_inj.mp (hs.symm.trans hs')
        exact absurd (hcb.symm.trans hcb') Bool.false_ne_true
    | mode _ _ hmode hrc hF =>
        refine ⟨_, _, hmode, ?_⟩
        rw [if_pos hrc]
        exact hF
    | purge _ _ hmode hrc hflush hrc' hF =>
        refine ⟨_, _, hmode, ?_⟩
        rw [if_neg (not_lt.mpr hrc)]
        refine ⟨_, _, hflush, ?_⟩
        rw [if_pos hrc']
        exact hF

/-- The callback of a reset that has one. -/
theorem resetCallback_throws {streamId : ℕ} {stream : FtdiStreamEntry}
    (hs : m.streams[streamId]? = some stream) (hcb : stream.hasResetCallback = true) :
    Throws (fun t => F t.flying) (resetEntry env streamId stream) (ResetRefused env F streamId m)
      m := by
  unfold resetEntry Throws
  rw [if_pos hcb, ends_bind, ends_askWorld, ends_bind]
  -- a stream with a callback is reset by it, whatever the transfers would answer
  have hback : ∀ t : Machine σ, each (env.resetCallback streamId m.world).1.completions
      (complete env) (m.withWorld (env.resetCallback streamId m.world).2) = (.ret (), t) →
      (ResetRefused env F streamId m ↔ ∃ cause,
        (env.resetCallback streamId m.world).1.reply.result = .error cause ∧ F t.flying) := by
    intro t hrun
    refine ⟨fun h => ?_, fun ⟨cause, h, hF⟩ => .callback hs hcb hrun h hF⟩
    cases h with
    | unknown hnone _ =>
        rw [hs] at hnone
        cases hnone
    | callback _ _ hrun' h hF =>
        rw [hrun] at hrun'
        cases hrun'
        exact ⟨_, h, hF⟩
    | mode hs' hcb' _ _ _ =>
        obtain rfl := Option.some_inj.mp (hs.symm.trans hs')
        exact absurd (hcb'.symm.trans hcb) Bool.false_ne_true
    | purge hs' hcb' _ _ _ _ _ =>
        obtain rfl := Option.some_inj.mp (hs.symm.trans hs')
        exact absurd (hcb'.symm.trans hcb) Bool.false_ne_true
  refine (ends_self.and (each_returns (fun c t => (complete_ends c t).mono
    (fun _ _ _ => trivial) fun _ _ hf => hf) _ _)).mono ?_ fun _ _ hf => hf.2.elim
  rintro _ t ⟨hrun, -⟩
  refine (comeBack_ends _ t).mono ?_ ?_
  · rintro _ u ⟨-, hok⟩ hr
    obtain ⟨cause, herror, -⟩ := (hback t hrun).mp hr
    rw [herror] at hok
    cases hok
  · rintro cause u ⟨hq, herror⟩
    show _ ↔ F u.flying
    rw [hback t hrun, hq.calm.flying]
    exact ⟨fun ⟨_, _, h⟩ => h, fun h => ⟨cause, herror, h⟩⟩

theorem resetAt_throws (streamId : ℕ) (m : Machine σ) :
    Throws (fun t => F t.flying) (resetAt env streamId) (ResetRefused env F streamId m) m := by
  unfold resetAt
  refine Throws.look_bind ?_
  rw [id_look]
  cases hs : m.streams[streamId]? with
  | none =>
      refine Throws.congr Throws.raise ⟨.unknown hs, fun h => ?_⟩
      cases h with
      | unknown _ hF => exact hF
      | callback hs' _ _ _ _ => cases hs.symm.trans hs'
      | mode hs' _ _ _ _ => cases hs.symm.trans hs'
      | purge hs' _ _ _ _ _ _ => cases hs.symm.trans hs'
  | some stream =>
      cases hcb : stream.hasResetCallback with
      | true => exact resetCallback_throws hs hcb
      | false => exact resetDevice_throws hs hcb

theorem each_resetAt_throws (ss : List ℕ) (m : Machine σ) :
    Throws (fun t => F t.flying) (each ss (resetAt env))
      (Meets (ResetRefused env F) (resetAt env) ss m) m :=
  Throws.each (I := fun _ => True) trivial fun s _ t _ =>
    ⟨ends_self.mono (fun _ _ _ => trivial) fun _ _ _ => trivial, resetAt_throws s t⟩

theorem processResetStreamEntry_furnished (resetAll : Bool) (hm : m.Furnished) :
    Ends (processResetStreamEntry env resetAll) (fun _ t => t.Furnished) (fun _ _ => True) m := by
  have hloop : ∀ ss : List ℕ, Ends (each ss (resetAt env)) (fun _ t => t.Furnished)
      (fun _ _ => True) m := fun ss =>
    Ends.mono (Follows.each fun s _ t _ => resetAt_follows s t)
      (fun _ _ ht => moves_furnished ht hm) fun _ _ _ => trivial
  unfold processResetStreamEntry
  rw [ends_bind, ends_look, ends_ite]
  refine ⟨fun _ => hloop _, fun _ => ?_⟩
  rw [ends_bind]
  exact (hloop _).mono (fun _ _ ht => ht) fun _ _ _ => trivial

theorem disableRange_returns (fd : ℤ) (m : Machine σ) :
    Ends (disableRange fd : Run σ Unit) (fun _ _ => True) (fun _ _ => False) m := by
  refine each_returns (fun i t => ?_) _ m
  unfold cancelEntry
  rw [ends_bind, ends_look]
  split
  · trivial
  · rw [ends_ite]
    exact ⟨fun _ => trivial, fun _ => trivial⟩

/-- **A drain** throws where a reset or an entry is refused. -/
theorem drain_throws (hm : m.Furnished) (hl : m.listMutex = true) :
    Throws (fun t => F t.flying) (drain env) (DrainRefused env F m.locked) m := by
  have hlocked : m.note (.drained m.listEnable.elems m.listDisable.elems m.listReset.elems) =
      m.locked := by
    unfold Machine.locked
    rw [← hl]
  unfold drain
  refine Throws.look_bind ?_
  unfold observe
  refine Throws.alter_bind ?_
  rw [id_look, hlocked]
  -- the streams to reset come first, and then the entries to enable
  have hreset : Throws (fun t => F t.flying) (processResetStreamEntry env false)
      (Meets (ResetRefused env F) (resetAt env) (m.locked.listReset.walk
        (env.shuffle m.locked.world)) m.locked) m.locked := by
    unfold processResetStreamEntry
    refine Throws.look_bind ?_
    rw [if_neg Bool.false_ne_true]
    refine Throws.congr (Throws.bind (R := fun _ _ => False) (each_resetAt_throws _ _) ?_) (by simp)
    exact ends_self.mono (fun _ _ _ => Throws.never (Q := fun _ _ => True) trivial)
      fun _ _ _ => trivial
  refine Throws.congr (Throws.bind (R := fun _ (t : Machine σ) => Meets (RangeRefused env F)
    (enableRange env) (t.listEnable.walk (env.shuffle t.world)) t) hreset ?_) ?_
  · refine (processResetStreamEntry_furnished false ?_).mono (fun _ t ht => ?_)
      fun _ _ _ => trivial
    · exact hm.same (fun _ => rfl) rfl
    refine Throws.look_bind ?_
    refine Throws.congr (Throws.bind (R := fun _ _ => False) (Throws.each ht
      fun fd _ _ hu => ⟨enableRange_furnished fd hu, enableRange_throws fd hu⟩) ?_) (by simp)
    refine ends_self.mono (fun _ u _ => Throws.alter_bind (Throws.look_bind (Throws.never
      (Q := fun _ _ => True) ?_))) fun _ _ _ => trivial
    -- what is left, the entries to disable, never throws
    rw [ends_bind]
    exact each_returns disableRange_returns _ _
  · exact or_congr_right ⟨fun ⟨_, t, h⟩ => ⟨t, h⟩, fun ⟨t, h⟩ => ⟨(), t, h⟩⟩

/-! ## Events -/

theorem lockedDrain_throws (hm : m.Furnished) :
    Throws (fun t => F t.flying) (lockedDrain env) (DrainRefused env F m.locked) m := by
  unfold lockedDrain
  refine Throws.alter_bind (Throws.leaving ?_ fun _ => Iff.rfl)
  exact drain_throws (m := { m with listMutex := true }) (hm.same (fun _ => rfl) rfl) rfl

theorem takeNotice_throws (hm : m.Furnished) :
    Throws (fun t => F t.flying) (takeNotice env)
      (m.shouldRun = true ∧ m.shouldCancel = false ∧ DrainRefused env F m.locked) m := by
  unfold takeNotice
  refine Throws.look_bind ?_
  rw [id_look]
  cases hr : m.shouldRun with
  | false => exact Throws.congr (Throws.never (Q := fun _ _ => True) trivial) (by simp)
  | true =>
      cases hc : m.shouldCancel with
      | true => exact Throws.congr (Throws.never (Q := fun _ _ => True) trivial) (by simp)
      | false => exact Throws.congr (lockedDrain_throws hm) (by simp)

/-- Other threads throw nothing, and leave every entry furnished. -/
theorem each_threadAction_furnished (actions : List ThreadAction) (hm : m.Furnished) :
    Ends (each actions (threadAction env)) (fun _ t => t.Furnished) (fun _ _ => False) m := by
  refine ends_each (I := fun _ (t : Machine σ) => t.Furnished) hm fun a _ t ht => ?_
  refine (threadAction_ends a t).mono (fun _ u hu => ?_) fun _ _ hf => hf
  exact inv_of_path (fun _ _ hs h => h.same hs.aside.entryAt hs.aside.streams) hu ht

/-- **A notice** throws where the drain it is taken for does. -/
theorem eventNotice_throws (fault : Option Errno) (between : List ThreadAction)
    (hm : m.Furnished) :
    Throws (fun t => F t.flying) (eventNotice env fault between)
      (NoticeRefused env F fault between m) m := by
  have hignored : ∀ errno (t : Machine σ), Throws (fun t => F t.flying)
      (readFailed env errno .eventFd) False t := fun errno t =>
    Throws.never (readFailed_returns errno _ t)
  unfold eventNotice readNotice Throws
  rw [ends_bind, ends_bind, ends_look, id_look]
  cases fault with
  | some errno => exact (hignored errno m).congr (by simp [NoticeRefused])
  | none =>
      dsimp only
      rw [ends_ite]
      refine ⟨fun hz => (hignored .EWOULDBLOCK m).congr (by simp [NoticeRefused, hz]),
        fun hz => ?_⟩
      rw [ends_bind, ends_alter, ends_pure]
      refine Throws.congr (Throws.after (R := fun _ (t : Machine σ) => t.shouldRun = true ∧
        t.shouldCancel = false ∧ DrainRefused env F t.locked) ?_) ?_
      · refine (each_threadAction_furnished between ?_).mono
          (fun _ t ht => takeNotice_throws ht) fun _ _ hf => hf
        exact hm.same (fun _ => rfl) rfl
      · exact ⟨fun ⟨_, t, hrun, h⟩ => ⟨rfl, hz, t, hrun, h⟩,
          fun ⟨_, _, t, hrun, h⟩ => ⟨(), t, hrun, h⟩⟩

/-- **One event** throws where its handling is refused something. -/
theorem handleEvent_throws (ev : EpollEvent) (hm : m.Furnished) :
    Throws (fun t => F t.flying) (handleEvent env ev) (EventRefused env F ev m) m := by
  unfold handleEvent
  refine Throws.congr (Throws.after (R := fun _ (t : Machine σ) =>
    if ev.sock = t.usbEpollFd then UsbRefused env F ev.usb ev.usbResult t
    else if ev.sock = t.noticeEventFd then NoticeRefused env F ev.fault ev.between t
    else if ev.sock = t.timerFd then
      ev.fault = none ∧ Meets (CounterRefused env F) (reportCounters env) t.inOrder t
    else RangeRefused env F ev.sock t) ?_) ?_
  · refine (each_threadAction_furnished ev.meanwhile hm).mono (fun _ t ht => ?_) fun _ _ hf => hf
    refine Throws.look_bind (Throws.ite (fun _ => handleUsb_throws _ _ t) fun _ =>
      Throws.ite (fun _ => eventNotice_throws _ _ ht) fun _ =>
      Throws.ite (fun _ => eventTimer_throws _ ht) fun _ => enableRange_throws _ ht)
  · exact ⟨fun ⟨_, t, h⟩ => ⟨t, h⟩, fun ⟨t, h⟩ => ⟨(), t, h⟩⟩

/-- **A batch throws where it is refused something**, and nowhere else. -/
theorem handleEvents_throws {events : List EpollEvent} (hm : m.Furnished)
    (hsock : ∀ ev ∈ events, ev.sock ∈ m.epollSet) :
    Throws (fun t => F t.flying) (each events (handleEvent env)) (BatchRefused env F events m)
      m := by
  refine Throws.each (I := fun t => ReflTransGen (Handling env) m t) .refl fun ev hev t ht => ?_
  refine ⟨?_, handleEvent_throws ev (handling_furnished ht hm)⟩
  have hev : ev.sock ∈ t.epollSet := (handling_fixed ht).epollSet ▸ hsock ev hev
  exact Ends.mono (handleEvent_follows ev hev) (fun _ _ hu => ht.trans hu) fun _ _ _ => trivial

/-! ## The steps of the engine -/

/-- **`process_step` throws** where its batch is refused something, and
nowhere else. -/
theorem processStep_throws (input : StepInput) (hmade : m.Made) (hm : m.Furnished) :
    Throws (fun t => F t.flying) (processStep env input) (StepRefused env F input m) m := by
  have hsome := hmade.not_none
  unfold processStep leave
  refine Throws.alter_bind (Throws.look_bind ?_)
  rw [id_look, if_neg hsome]
  cases input with
  | failed errno =>
      refine Throws.congr (Throws.never (Q := fun _ _ => True) ?_) (by simp [StepRefused])
      trivial
  | ready events =>
      -- the batch is what the answer of `epoll_wait` leaves of the events
      have hiff : BatchRefused env F (epollWait m events) { m with lastExit := .running } ↔
          StepRefused env F (.ready events) m := by
        refine ⟨fun h => ⟨events, rfl, h⟩, ?_⟩
        rintro ⟨events', heq, h⟩
        obtain rfl := StepInput.ready.inj heq
        exact h
      have hwait : epollWait { m with lastExit := .running } events = epollWait m events := rfl
      dsimp only
      rw [hwait]
      split
      · next hempty =>
          refine Throws.congr (Throws.never (Q := fun _ _ => True) trivial) ?_
          rw [← hiff, List.isEmpty_iff.mp hempty]
          exact Iff.rfl
      · refine Throws.congr ?_ hiff
        have hbegin : Machine.Furnished { m with lastExit := .running } :=
          hm.same (fun _ => rfl) rfl
        refine Throws.rescue (Throws.congr (Throws.bind (R := fun _ _ => False)
          (handleEvents_throws hbegin fun ev hev => epollWait_mem (m := m) hev) ?_) (by simp)) ?_
        -- the end of a batch never throws
        · exact ends_self.mono (fun _ t _ => Throws.never (endBatch_ends t)) fun _ _ _ => trivial
        · exact fun cause t => Iff.rfl

end Stream

end SgFtdi
