import SgFtdi.Stream.Moves.Upkeep

/-!
# Stream — what the user is really told

The record says what the engine told the user. `Env.logged` is a user who
keeps a list of the calls as they come in, with their arguments, and
answers as before; what is said of the list is said of the calls
themselves. `Echoing` ties the two: whatever the engine does, the list
and the record grow by the same.
-/

namespace SgFtdi

namespace Stream

open Prog Relation

variable {σ : Type} {env : Env σ}

/-! ## The list -/

/-- A call into user code, with its arguments. -/
inductive UserCall where
  | callback (isReading : Bool) (streamId : ℕ) (type : CallbackType) (buffer : List UInt8)
      (len : ℤ)
  | counterCallback (streamId : ℕ) (isReading : Bool) (transferId : ℕ) (callbacks bytes : UInt64)
deriving DecidableEq, Repr

/-- The world answers as before, and the calls are put on the list. -/
def logging {α : Type} (calls : List UserCall) (f : σ → α × σ) (w : σ × List UserCall) :
    α × σ × List UserCall := ((f w.1).1, (f w.1).2, w.2 ++ calls)

/-- **A user who keeps a list** of the calls. -/
def Env.logged (env : Env σ) : Env (σ × List UserCall) where
  callback isReading s type buffer len :=
    logging [.callback isReading s type buffer len] (env.callback isReading s type buffer len)
  counterCallback s isReading t callbacks bytes :=
    logging [.counterCallback s isReading t callbacks bytes]
      (env.counterCallback s isReading t callbacks bytes)
  resetCallback s := logging [] (env.resetCallback s)
  ftdiSetBitmode s := logging [] (env.ftdiSetBitmode s)
  ftdiTcioflush s := logging [] (env.ftdiTcioflush s)
  submitTransfer i := logging [] (env.submitTransfer i)
  allocTransfer := logging [] env.allocTransfer
  malloc bytes := logging [] (env.malloc bytes)
  epollCreate := logging [] env.epollCreate
  timerfdCreate := logging [] env.timerfdCreate
  timerfdSettime := logging [] env.timerfdSettime
  getPollfds := logging [] env.getPollfds
  addToEpoll sock epollFd := logging [] (env.addToEpoll sock epollFd)
  removeFromEpoll sock epollFd := logging [] (env.removeFromEpoll sock epollFd)
  monotime := logging [] env.monotime
  pushError message := logging [] (env.pushError message)
  threadStart := logging [] env.threadStart
  shuffle w := env.shuffle w.1
  user k w := (env.user k w.1, w.2)

/-- A call by which the user is told something. -/
def UserCall.tells : UserCall → Bool
  | .callback _ _ type _ _ => type = .readBuffer || type = .writeConfirmTransfer
  | .counterCallback _ _ _ _ _ => true

/-- **What the user was told**: the `READ_BUFFER` and
`WRITE_CONFIRM_TRANSFER` calls and those of the counter callback. -/
def told (calls : List UserCall) : List UserCall := calls.filter (·.tells)

/-- The call that tells it. -/
def Telling.userCall : Telling → UserCall
  | .readBuffer s bytes => .callback true s .readBuffer bytes bytes.length
  | .confirmTransfer s len => .callback false s .writeConfirmTransfer [] len
  | .counters s isReading t callbacks bytes => .counterCallback s isReading t callbacks bytes

/-- What an observation says the user was told. -/
def Obs.telling : Obs → Option Telling
  | .readBuffer s bytes => some (.readBuffer s bytes)
  | .confirmed s len => some (.confirmTransfer s len)
  | .counted s isReading t callbacks bytes => some (.counters s isReading t callbacks bytes)
  | _ => none

/-- What the record says the user was told. -/
def tellings (t : List Seen) : List Telling := t.filterMap (·.what.telling)

/-- **An answer by which the user is told nothing** leaves the list. -/
theorem told_of_worldStep {w w' : σ × List UserCall} (h : WorldStep env.logged w w') :
    told w'.2 = told w.2 := by
  cases h with
  | callback isReading s type buffer len htype =>
      have hsilent : (UserCall.callback isReading s type buffer len).tells = false := by
        simp [UserCall.tells, htype.1, htype.2]
      show told (w.2 ++ [_]) = _
      rw [told, List.filter_append, List.filter_cons_of_neg
        (by rw [hsilent]; exact Bool.false_ne_true),
        List.filter_nil, List.append_nil]
      rfl
  | user k => rfl
  | _ =>
      show told (w.2 ++ []) = _
      rw [List.append_nil]

theorem told_of_worlds {w w' : σ × List UserCall} (h : ReflTransGen (WorldStep env.logged) w w') :
    told w'.2 = told w.2 := by
  induction h with
  | refl => rfl
  | tail _ hs ih => exact (told_of_worldStep hs).trans ih

variable {m m' m₁ : Machine (σ × List UserCall)} {i : ℕ} {e e₁ : FtdiStreamStaticState} {n : ℤ}

/-- **The user is told something**, and it is on the list. -/
theorem told_told (m : Machine (σ × List UserCall)) (t : Telling) :
    told (m.told env.logged t).world.2 = told m.world.2 ++ [t.userCall] := by
  have htells : t.userCall.tells = true := by cases t <;> rfl
  have hcall : (m.told env.logged t).world.2 = m.world.2 ++ [t.userCall] := by cases t <;> rfl
  rw [hcall, told, List.filter_append, List.filter_cons_of_pos htells, List.filter_nil]
  rfl

/-! ## The list and the record -/

/-- **The list and the record have grown by the same.** -/
def Echoing (m m' : Machine (σ × List UserCall)) : Prop :=
  ∃ ts : List Telling, told m'.world.2 = told m.world.2 ++ ts.map Telling.userCall ∧
    tellings m'.trace = tellings m.trace ++ ts

namespace Echoing

theorem refl : Echoing m m := ⟨[], by simp, by simp⟩

theorem trans (h : Echoing m m₁) (h' : Echoing m₁ m') : Echoing m m' := by
  obtain ⟨ts, hlist, hrecord⟩ := h
  obtain ⟨us, hlist', hrecord'⟩ := h'
  refine ⟨ts ++ us, ?_, ?_⟩
  · rw [hlist', hlist, List.append_assoc, List.map_append]
  · rw [hrecord', hrecord, List.append_assoc]

/-- Nothing is told. -/
theorem silent (hw : ReflTransGen (WorldStep env.logged) m.world m'.world)
    (ht : Grows (·.what.telling = none) m.trace m'.trace) : Echoing m m' := by
  refine ⟨[], ?_, ?_⟩
  · rw [List.map_nil, List.append_nil]
    exact told_of_worlds hw
  · rw [List.append_nil]
    exact ht.filterMap_eq fun _ ho => ho

/-- The world is not asked. -/
theorem aside (hw : m'.world = m.world) (ht : Grows (·.what.telling = none) m.trace m'.trace) :
    Echoing m m' := by
  refine ⟨[], by rw [hw, List.map_nil, List.append_nil], ?_⟩
  rw [List.append_nil]
  exact ht.filterMap_eq fun _ ho => ho

theorem told (m : Machine (σ × List UserCall)) (t : Telling) :
    Echoing m (m.told env.logged t) := by
  refine ⟨[t], told_told m t, ?_⟩
  rw [told_trace, tellings, List.filterMap_append]
  cases t <;> rfl

theorem plain (h : Plain env.logged m m') : Echoing m m' := by
  refine silent h.world (h.trace.mono fun o ho => ?_)
  obtain ⟨running, what⟩ := o
  cases what <;> first | rfl | exact ho.elim

theorem quiet (h : Quiet env.logged m m') : Echoing m m' := plain (.quiet h)

theorem modify (i : ℕ) (f : FtdiStreamStaticState → FtdiStreamStaticState) :
    Echoing m (m.modifyEntry i f) := aside rfl .refl

theorem stopped : Echoing m m.stopped := aside rfl .refl

theorem errored (message : Message) : Echoing m (m.errored env.logged message) :=
  plain (.errored message)

/-- libusb is offered a transfer. -/
theorem offered (taken : Bool) : Echoing m (m.offered env.logged i e taken) :=
  silent (.single (.submitTransfer i)) (.one rfl)

theorem launched : Echoing m (m.launched env.logged i e) := by
  have hoffered : Echoing m (m.offered env.logged i e true) := offered true
  exact hoffered.trans (modify i _)

end Echoing

/-! ## Every step echoes -/

theorem Chore.echoing (h : Chore env.logged m m') : Echoing m m' := by
  cases h with
  | user hu => exact .quiet (.single hu)
  | wrote _ => exact .modify _ _
  | counted s isReading t callbacks bytes => exact .told m _
  | ticked now => exact .aside rfl (.one rfl)

theorem Work.echoing (h : Work env.logged i m m') : Echoing m m' := by
  induction h with
  | refl => exact .refl
  | tail _ hs ih =>
      refine ih.trans ?_
      cases hs with
      | chore hc => exact hc.echoing
      | wrote _ => exact .modify _ _
      | handed s bytes => exact .told _ _
      | filled _ => exact .aside rfl (.one rfl)
      | refused _ => exact .offered false

theorem Fill.echoing (h : Fill env.logged i e m n m') : Echoing m m' := by
  cases h with
  | mk _ hq =>
      have hasked : Echoing m ((m.note (.filled i e.transfer.inFlight)).withWorld
          (env.logged.callback false e.streamId .writeFillBuffer (e.transfer.buffer.getD [])
            e.bufferSize m.world).2) :=
        .silent (.single (.callback _ _ _ _ _ (by decide))) (.one rfl)
      exact (hasked.trans (.quiet hq)).trans (.modify i _)

theorem Submitted.echoing (h : Submitted env.logged i m m') : Echoing m m' := by
  have hprepared : ∀ {e n m₁}, Prepared env.logged i e m n m₁ → Echoing m m₁ := by
    rintro e n m₁ (_ | ⟨_, hf⟩)
    · exact .refl
    · exact hf.echoing
  cases h with
  | kept _ => exact .refl
  | idle _ _ _ hp => exact ((hprepared hp).trans (.modify i _)).trans (.modify i _)
  | launched _ _ _ hp _ _ => exact ((hprepared hp).trans (.modify i _)).trans .launched

theorem ReadBack.echoing (h : ReadBack env.logged i e m m') : Echoing m m' := by
  cases h with
  | off _ => exact .refl
  | stopped _ _ => exact (Echoing.modify i _).trans .stopped
  | again _ _ _ hd _ =>
      have htouched : Echoing m (m.touch e) := by
        rw [m.touch_eq e]
        exact .aside rfl .refl
      exact (htouched.trans hd.work.echoing).trans .launched
  | @failed m₁ cause _ _ _ hw =>
      have hheard : Echoing m (m.heard e) := by
        rw [m.heard_eq e]
        exact .aside rfl .refl
      exact ((hheard.trans hw.echoing).trans (.modify i _)).trans (.errored _)

theorem Confirm.echoing {b : Bool} (h : Confirm env.logged i e m b m') : Echoing m m' := by
  have hconfirming : Echoing m (m.confirming env.logged i e) :=
    (Echoing.modify i _).trans (.told _ _)
  cases h with
  | none _ => exact .refl
  | taken _ _ hq => exact (hconfirming.trans (.quiet hq)).trans (.modify i _)
  | failed _ hw => exact hconfirming.trans hw.echoing

theorem WriteBack.echoing (h : WriteBack env.logged i e m m') : Echoing m m' := by
  cases h with
  | off _ => exact .refl
  | stopped _ _ =>
      exact ((Echoing.modify i _).trans (.modify i _)).trans .stopped
  | idle _ _ _ hc hf =>
      exact ((hc.echoing.trans hf.echoing).trans (.modify i _)).trans (.modify i _)
  | again _ _ _ hc hf _ _ =>
      exact ((hc.echoing.trans hf.echoing).trans (.modify i _)).trans .launched
  | failed _ _ _ hc hw =>
      exact ((hc.echoing.trans hw.echoing).trans (.errored _)).trans (.modify i _)

/-- **A completion** tells the user what its callback tells. -/
theorem Completed.echoing {c : Completion} (h : Completed env.logged c m m') : Echoing m m' := by
  have hlanded : ∀ e, Echoing m (m.landed e c) := fun e => .aside rfl (.one rfl)
  cases h with
  | read _ _ _ hb => exact (hlanded _).trans hb.echoing
  | write _ _ _ hb => exact (hlanded _).trans hb.echoing

/-- **The engine echoes**, whatever it does. -/
theorem upkeep_echoing (b : Machine (σ × List UserCall)) : Upkeep env.logged (Echoing b) where
  plain _ _ hp hb := hb.trans (.plain hp)
  complete c m hb := by
    refine (complete_ends c m).mono ?_ fun _ _ hf => hf.elim
    rintro _ m' (rfl | ⟨m₁, hc, rfl⟩)
    · exact hb
    · exact (hb.trans hc.echoing).trans (.aside rfl (.one rfl))
  reportCounters i := by
    refine Preserves.bind Preserves.look fun m => ?_
    split
    · exact Preserves.pure
    · split
      · exact Preserves.raise
      · refine Preserves.bind (Preserves.ite ?_ Preserves.pure) fun _ =>
          Preserves.alter fun _ hb => hb.trans (.modify i _)
        exact Untouched.tell (fun _ _ hp hb => hb.trans (.plain hp)) fun _ hb =>
          hb.trans (.told _ _)
  cancelEntry i := by
    refine Preserves.bind Preserves.look fun m => ?_
    split
    · exact Preserves.pure
    · refine Preserves.ite (Preserves.bind (Preserves.alter fun _ hb => ?_) fun _ =>
        Preserves.alter fun _ hb => hb.trans (.modify i _)) Preserves.pure
      exact hb.trans (.aside rfl (.one rfl))

theorem arm_echoing (b : Machine (σ × List UserCall)) (i : ℕ) :
    Preserves (Echoing b) (arm env.logged i) := by
  refine Preserves.bind Preserves.look fun m => ?_
  split
  · exact Preserves.pure
  · refine Preserves.bind (Preserves.alter fun _ hb => hb.trans (.modify i _)) fun _ =>
      Preserves.ite (fun t hb => ?_) Preserves.pure
    exact (submit_ends i t).mono (fun _ _ hs => hb.trans hs.echoing)
      fun _ _ hw => hb.trans hw.echoing

/-! ## A start echoes -/

theorem Watched.echoing {sock : ℤ} (h : Watched env.logged sock m m') : Echoing m m' := by
  cases h with
  | added w hw => exact .silent (.single hw) .refl
  | failed w cause hw =>
      have hasked : Echoing m (m.withWorld w) := .silent (.single hw) .refl
      exact hasked.trans (.errored _)

theorem Ready.echoing {stream : FtdiStreamEntry} (h : Ready env.logged i stream m m') :
    Echoing m m' := by
  have hfilled : ∀ {w}, WorldStep env.logged m.world w → Echoing m (m.filled i stream w) :=
    fun hw => .silent (.single hw) .refl
  cases h with
  | reading _ _ hw => exact hfilled hw
  | writing _ _ hw hwatched => exact (hfilled hw).trans hwatched.echoing

theorem emplaced_echoing (m : Machine (σ × List UserCall)) : Echoing m (m.emplaced e) :=
  .aside rfl .refl

/-- **An entry is created**, or its creation breaks off. -/
theorem createStreamstate_echoing {s : ℕ} {stream : FtdiStreamEntry} (isReading : Bool) (j : ℕ)
    (hm : m.Made) (hs : m.streams[s]? = some stream) :
    Ends (createStreamstate env.logged s stream isReading j) (fun _ t => Echoing m t)
      (fun _ t => Echoing m t) m := by
  refine (createStreamstate_quiet hs hm isReading j).mono ?_ ?_
  · rintro _ t ⟨m₂, hq, hc⟩
    cases hc with
    | mk _ _ _ hready hsubmitted =>
        exact (((Echoing.quiet hq).trans (emplaced_echoing m₂)).trans hready.echoing).trans
          hsubmitted.echoing
  · rintro _ t ⟨m₂, hq, hb⟩
    refine (Echoing.quiet hq).trans ?_
    cases hb with
    | here => exact .refl
    | unallocated _ hw => exact .silent (.single hw) .refl
    | created _ hready hw =>
        exact ((emplaced_echoing m₂).trans hready.echoing).trans hw.echoing

theorem initBody_echoing (b : Machine (σ × List UserCall)) :
    Ends (initBody env.logged) (fun _ t => Echoing b t) (fun _ t => Echoing b t) b := by
  have hbegun : ∀ {w now u}, WorldStep env.logged b.world w →
      Plain env.logged ((b.withWorld w).begun now) u → Echoing b u := by
    intro w now u hw hp
    have hgrown : Grows (·.what.telling = none) b.trace (b.trace ++ [⟨true, .began now⟩]) :=
      .one rfl
    have hb : Echoing b ((b.withWorld w).begun now) := .silent (.single hw) hgrown
    exact hb.trans (.plain hp)
  refine initBody_ends_of (fun w now u hw hp => ?_) fun w now u cause hw hp => hbegun hw hp
  exact createStreams_keeps (fun s stream isReading j t ht hmade hs =>
    (createStreamstate_echoing isReading j hmade hs).mono (fun _ _ hu => ht.trans hu)
      fun _ _ hu => ht.trans hu) (hbegun hw hp) (hp.made rfl) _

/-- **In every course** the list and the record grow by the same. -/
theorem Course.echoing {m₀ : Machine (σ × List UserCall)} {mode : Mode}
    (h : Course env.logged m₀ mode m) : Echoing m₀ m := by
  refine h.inv (fun t hret => ?_) (upkeep_echoing m₀) (arm_echoing m₀)
  exact (ends_ret_of (Q := fun _ t => Echoing { m₀ with mutex := true } t)
    (initBody_echoing _) hret)

end Stream

end SgFtdi
