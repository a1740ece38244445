import SgFtdi.Stream.Moves.Life
import SgFtdi.Stream.Moves.Registrations

/-!
# Stream — what the engine does beside its transfers

Between the few functions that move a transfer or write to an entry the
engine does much that does neither: it answers requests, watches
descriptors, reads its clock and its eventfds, says how it stops. `Plain`
is all of that. What is kept where nothing else is done, and by the few
functions that do more, is kept by every handler, by every step and by
every run of the engine: `Upkeep` names those functions, and its lemmas
carry an invariant through the rest.
-/

namespace SgFtdi

namespace Stream

open Prog Relation

variable {σ : Type} {env : Env σ} {m m' m₁ t u : Machine σ} {i : ℕ}
variable {I : Machine σ → Prop}

/-- What tells of no transfer that came back or was offered, of no bytes
handed over and of no counter. -/
def Obs.plain : Obs → Prop
  | .confirmed _ _ => False
  | .readBuffer _ _ => False
  | .submitted _ _ _ _ => False
  | .completed _ _ _ _ _ _ => False
  | .boundary _ => False
  | .counted _ _ _ _ _ => False
  | .destroyed _ _ => False
  | _ => True

variable (env) in
/-- **Nothing was done to a transfer**: the entries and the configuration
are the same, the record has grown by what is plain, and the user was told
nothing. -/
structure Plain (m m' : Machine σ) : Prop where
  streamstates : m'.streamstates = m.streamstates
  streams : m'.streams = m.streams
  readPacketsize : m'.readPacketsize = m.readPacketsize
  writePacketsize : m'.writePacketsize = m.writePacketsize
  trace : Grows (·.what.plain) m.trace m'.trace
  world : ReflTransGen (WorldStep env) m.world m'.world

namespace Plain

theorem refl : Plain env m m := ⟨rfl, rfl, rfl, rfl, .refl, .refl⟩

theorem trans (h : Plain env m t) (h' : Plain env t u) : Plain env m u :=
  ⟨h'.streamstates.trans h.streamstates, h'.streams.trans h.streams,
    h'.readPacketsize.trans h.readPacketsize, h'.writePacketsize.trans h.writePacketsize,
    h.trace.trans h'.trace, h.world.trans h'.world⟩

theorem withWorld {w : σ} (h : WorldStep env m.world w) : Plain env m (m.withWorld w) :=
  ⟨rfl, rfl, rfl, rfl, .refl, .single h⟩

theorem note {o : Obs} (h : o.plain) : Plain env m (m.note o) :=
  ⟨rfl, rfl, rfl, rfl, .one h, .refl⟩

theorem quiet (h : Quiet env m m') : Plain env m m' := by
  have hf := h.frame
  refine ⟨hf.streamstates, hf.streams, hf.readPacketsize, by rw [hf.eq],
    hf.trace.mono fun o ho => ?_, h.worlds⟩
  obtain ⟨run, o⟩ := o
  cases o <;> first | exact trivial | simp [Obs.isAsked] at ho
theorem errored (message : Message) : Plain env m (m.errored env message) := by
  obtain ⟨_, seen, h, hseen, -⟩ := errored_eq env m message
  rw [h]
  refine ⟨rfl, rfl, rfl, rfl, ⟨seen, rfl, fun o ho => ?_⟩, .single (.pushError message)⟩
  rw [hseen o ho]
  trivial

theorem passing (h : Passing env m m') : Plain env m m' := by
  cases h with
  | user hu => exact quiet (.single hu)
  | @accepted s q _ _ _ =>
      rw [accepted_eq]
      exact ⟨rfl, rfl, rfl, rfl, .one trivial, .refl⟩
  | stopping => exact ⟨rfl, rfl, rfl, rfl, .one trivial, .refl⟩

theorem entryAt (h : Plain env m m') (j : ℕ) : m'.entryAt j = m.entryAt j := by
  unfold FtdiStreamState.entryAt FtdiStreamState.entries
  rw [h.streamstates]

theorem made (h : Plain env m m') (hm : m.Made) : m'.Made := by
  rw [Machine.Made, h.streamstates]
  exact hm

end Plain

/-! ## What is kept where nothing is done to a transfer -/

variable (env) in
/-- **Kept by what is plain.** -/
def Untouched (I : Machine σ → Prop) : Prop := ∀ m m', Plain env m m' → I m → I m'

namespace Untouched

variable (h : Untouched env I)
include h

theorem alter {f : Machine σ → Machine σ} (hf : ∀ m, Plain env m (f m)) :
    Preserves I (Prog.alter f : Run σ Unit) := Preserves.alter fun m hm => h m _ (hf m) hm

theorem askWorld {α : Type} {f : σ → α × σ} (hf : ∀ w, WorldStep env w (f w).2) :
    Preserves I (Stream.askWorld f) :=
  Preserves.ask fun m hm => h m _ (.withWorld (hf m.world)) hm

theorem observe {o : Obs} (ho : o.plain) : Preserves I (Stream.observe o : Run σ Unit) :=
  h.alter fun _ => .note ho

theorem error (message : Message) : Preserves I (Stream.error env message) := fun m hm =>
  ends_error.mpr (h m _ (.errored message) hm)

theorem cancel : Preserves I (Stream.cancel : Run σ Unit) :=
  h.alter (f := Machine.stopped) fun _ => ⟨rfl, rfl, rfl, rfl, .refl, .refl⟩

theorem leave (why : Exit) : Preserves I (Stream.leave why : Run σ Unit) :=
  h.alter fun _ => ⟨rfl, rfl, rfl, rfl, .refl, .refl⟩

theorem comeBack {α : Type} (reply : Reply α) : Preserves I (Stream.comeBack env reply) :=
  fun m hm => (comeBack_ends reply m).mono (fun _ t ht => h m t (.quiet ht.1) hm)
    fun _ t ht => h m t (.quiet ht.1) hm

theorem userCall {α : Type} {f : σ → Reply α × σ} (hf : ∀ w, WorldStep env w (f w).2) :
    Preserves I (Stream.userCall env f) :=
  Preserves.bind (h.askWorld hf) fun reply => h.comeBack reply

/-- The user is told something. -/
theorem tell {t : Telling} (ht : ∀ m, I m → I (m.told env t)) : Preserves I (Stream.tell env t) :=
  fun m hm => (tell_ends t m).mono (fun _ u hu => h _ u (.quiet hu.1) (ht m hm))
    fun _ u hu => h _ u (.quiet hu.1) (ht m hm)

theorem threadAction (a : ThreadAction) : Preserves I (Stream.threadAction env a) := fun m hm =>
  (threadAction_ends a m).mono
    (fun _ _ ht => inv_of_path (fun s t hp hs => h s t (.passing hp) hs) ht hm)
    fun _ _ hf => hf.elim

theorem readFailed (errno : Errno) (message : Errno → Message) :
    Preserves I (Stream.readFailed env errno message) := by
  cases errno with
  | EWOULDBLOCK => exact Preserves.pure
  | EINTR => exact Preserves.pure
  | other code => exact h.error _

theorem checkTimeout : Preserves I (Stream.checkTimeout env) := by
  refine Preserves.bind Preserves.look fun m => Preserves.ite Preserves.pure ?_
  refine Preserves.bind (h.askWorld fun _ => .monotime) fun now => ?_
  refine Preserves.bind (h.alter fun _ => ⟨rfl, rfl, rfl, rfl, .refl, .refl⟩) fun _ => ?_
  exact Preserves.bind (h.observe trivial) fun _ => Preserves.ite (h.error _) Preserves.pure

theorem readNotice (fault : Option Errno) :
    Preserves I (Stream.readNotice fault : Run σ (Option Errno)) := by
  refine Preserves.bind Preserves.look fun m => ?_
  split
  · exact Preserves.pure
  · refine Preserves.ite Preserves.pure ?_
    exact Preserves.bind (h.alter fun _ => ⟨rfl, rfl, rfl, rfl, .refl, .refl⟩) fun _ =>
      Preserves.pure

/-! ### The descriptors of a start -/

/-- A descriptor is registered, or that it was not is said. -/
theorem registration {f : σ → Option Exn × σ} {change : Machine σ → Machine σ}
    {message : Exn → Message} (hf : ∀ w, WorldStep env w (f w).2)
    (hc : ∀ m, Plain env m (change m)) :
    Preserves I (do
      let failure ← Stream.askWorld f
      match failure with
      | none => Prog.alter change
      | some cause => Stream.error env (message cause)) := by
  refine Preserves.bind (h.askWorld hf) fun failure => ?_
  cases failure with
  | none => exact h.alter hc
  | some cause => exact h.error _

theorem addToEpoll (sock : ℤ) : Preserves I (Stream.addToEpoll env sock) :=
  Preserves.bind Preserves.look fun _ => h.registration (fun _ => .addToEpoll _ _) fun _ =>
    ⟨rfl, rfl, rfl, rfl, .refl, .refl⟩

theorem addToUsbEpoll (sock : ℤ) : Preserves I (Stream.addToUsbEpoll env sock) :=
  Preserves.bind Preserves.look fun _ => h.registration (fun _ => .addToEpoll _ _) fun _ =>
    ⟨rfl, rfl, rfl, rfl, .refl, .refl⟩

theorem removeFromUsbEpoll (sock : ℤ) : Preserves I (Stream.removeFromUsbEpoll env sock) :=
  Preserves.bind Preserves.look fun _ => h.registration (fun _ => .removeFromEpoll _ _) fun _ =>
    ⟨rfl, rfl, rfl, rfl, .refl, .refl⟩

theorem openEpolls : Preserves I (Stream.openEpolls env) := by
  refine Preserves.bind (h.askWorld fun _ => .epollCreate) fun epollFd => ?_
  refine Preserves.bind (h.alter fun _ => ⟨rfl, rfl, rfl, rfl, .refl, .refl⟩) fun _ => ?_
  refine Preserves.ite Preserves.raise (Preserves.bind (h.observe trivial) fun _ => ?_)
  refine Preserves.bind (h.askWorld fun _ => .epollCreate) fun usbEpollFd => ?_
  refine Preserves.bind (h.alter fun _ => ⟨rfl, rfl, rfl, rfl, .refl, .refl⟩) fun _ => ?_
  exact Preserves.ite Preserves.raise
    (Preserves.bind (h.observe trivial) fun _ => h.addToEpoll usbEpollFd)

theorem openTimer : Preserves I (Stream.openTimer env) := by
  refine Preserves.bind (h.askWorld fun _ => .timerfdCreate) fun timerFd => ?_
  refine Preserves.bind (h.alter fun _ => ⟨rfl, rfl, rfl, rfl, .refl, .refl⟩) fun _ => ?_
  refine Preserves.ite Preserves.raise (Preserves.bind (h.observe trivial) fun _ => ?_)
  exact Preserves.bind (h.askWorld fun _ => .timerfdSettime) fun rc =>
    Preserves.ite Preserves.raise (h.addToEpoll timerFd)

theorem registerPollfds : Preserves I (Stream.registerPollfds env) := by
  refine Preserves.bind (h.askWorld fun _ => .getPollfds) fun pollfds => ?_
  cases pollfds with
  | none => exact Preserves.raise
  | some fds => exact Preserves.each h.addToUsbEpoll

theorem openDescriptors : Preserves I (Stream.openDescriptors env) := by
  refine Preserves.bind h.openEpolls fun _ => Preserves.bind Preserves.look fun m => ?_
  refine Preserves.bind (h.addToEpoll _) fun _ => Preserves.bind h.openTimer fun _ => ?_
  exact Preserves.bind h.registerPollfds fun _ => h.alter fun _ =>
    ⟨rfl, rfl, rfl, rfl, .refl, .refl⟩

end Untouched

/-- What happened since a state, and was plain. -/
theorem untouched_plain (b : Machine σ) : Untouched env (Plain env b) :=
  fun _ _ hp hb => hb.trans hp

/-! ## What a run keeps -/

variable (env) in
/-- **Kept by the engine**, but for what switches entries on: a property
that nothing plain touches, and that the functions that write to an entry
keep. -/
structure Upkeep (I : Machine σ → Prop) : Prop where
  plain : Untouched env I
  complete : ∀ c, Preserves I (complete env c)
  reportCounters : ∀ i, Preserves I (reportCounters env i)
  cancelEntry : ∀ i, Preserves I (cancelEntry i : Run σ Unit)

namespace Upkeep

variable (h : Upkeep env I)
include h

theorem controlTransfer {f : σ → (ℤ × List Completion) × σ}
    (hf : ∀ w, WorldStep env w (f w).2) : Preserves I (Stream.controlTransfer env f) :=
  Preserves.bind (h.plain.askWorld hf) fun _ =>
    Preserves.bind (Preserves.each h.complete) fun _ => Preserves.pure

theorem resetEntry (s : ℕ) (stream : FtdiStreamEntry) :
    Preserves I (Stream.resetEntry env s stream) := by
  refine Preserves.ite ?_ ?_
  · exact Preserves.bind (h.plain.askWorld fun _ => .resetCallback s) fun r =>
      Preserves.bind (Preserves.each h.complete) fun _ => h.plain.comeBack r.reply
  · refine Preserves.bind (h.controlTransfer fun _ => .ftdiSetBitmode s) fun _ =>
      Preserves.ite Preserves.raise ?_
    exact Preserves.bind (h.controlTransfer fun _ => .ftdiTcioflush s) fun _ =>
      Preserves.ite Preserves.raise Preserves.pure

theorem resetAt (s : ℕ) : Preserves I (Stream.resetAt env s) := by
  refine Preserves.bind Preserves.look fun m => ?_
  split
  · exact Preserves.raise
  · exact h.resetEntry s _

theorem processResetStreamEntry (resetAll : Bool) :
    Preserves I (Stream.processResetStreamEntry env resetAll) := by
  refine Preserves.bind Preserves.look fun m => Preserves.ite ?_ ?_
  · exact Preserves.each h.resetAt
  · exact Preserves.bind (Preserves.each h.resetAt) fun _ =>
      h.plain.alter fun _ => ⟨rfl, rfl, rfl, rfl, .refl, .refl⟩

theorem usbAction (a : UsbAction) : Preserves I (Stream.usbAction env a) := by
  cases a with
  | completed c => exact h.complete c
  | pollfdAdded fd =>
      exact Preserves.bind Preserves.look fun m =>
        Preserves.ite (h.plain.addToUsbEpoll fd) Preserves.pure
  | pollfdRemoved fd =>
      exact Preserves.bind Preserves.look fun m =>
        Preserves.ite (h.plain.removeFromUsbEpoll fd) Preserves.pure
  | elsewhere a => exact h.plain.threadAction a

theorem handleUsb (usb : List UsbAction) (result : ℤ) :
    Preserves I (Stream.handleUsb env usb result) :=
  Preserves.bind (Preserves.each h.usbAction) fun _ => Preserves.ite Preserves.raise Preserves.pure

theorem eventTimer (fault : Option Errno) : Preserves I (Stream.eventTimer env fault) := by
  cases fault with
  | some errno => exact h.plain.readFailed errno _
  | none =>
      exact Preserves.bind Preserves.look fun m =>
        Preserves.bind (Preserves.each h.reportCounters) fun _ => h.plain.checkTimeout

theorem disableRange (fd : ℤ) : Preserves I (Stream.disableRange fd : Run σ Unit) :=
  Preserves.bind Preserves.look fun _ => Preserves.each h.cancelEntry

theorem cancelEnabled (i : ℕ) : Preserves I (Stream.cancelEnabled i : Run σ Bool) := by
  refine Preserves.bind Preserves.look fun m => ?_
  split
  · exact Preserves.pure
  · exact Preserves.ite (Preserves.bind (h.cancelEntry i) fun _ => Preserves.pure) Preserves.pure

theorem endBatch : Preserves I (Stream.endBatch env) := by
  refine Preserves.bind Preserves.look fun m => Preserves.ite Preserves.pure ?_
  refine Preserves.bind (Preserves.rescue (h.processResetStreamEntry true)
    fun _ => Preserves.pure) fun _ => ?_
  refine Preserves.bind Preserves.look fun m => ?_
  refine Preserves.bind (Preserves.anyOf h.cancelEnabled) fun someEnabled => ?_
  refine Preserves.bind (h.plain.alter fun _ => ⟨rfl, rfl, rfl, rfl, .refl, .refl⟩) fun _ => ?_
  refine Preserves.bind Preserves.look fun m => ?_
  refine Preserves.ite (Preserves.bind (h.plain.leave _) fun _ => Preserves.pure) ?_
  exact Preserves.ite (Preserves.bind (h.plain.leave _) fun _ => Preserves.pure) Preserves.pure

/-! ### With what switches entries on -/

section Arming

variable (harm : ∀ i, Preserves I (Stream.arm env i))
include harm

omit h in
theorem enableRange (fd : ℤ) : Preserves I (Stream.enableRange env fd) :=
  Preserves.bind Preserves.look fun _ => Preserves.each harm

theorem drain : Preserves I (Stream.drain env) := by
  refine Preserves.bind Preserves.look fun m => Preserves.bind (h.plain.observe trivial) fun _ => ?_
  refine Preserves.bind (h.processResetStreamEntry false) fun _ => ?_
  refine Preserves.bind Preserves.look fun m => ?_
  refine Preserves.bind (Preserves.each (enableRange harm)) fun _ => ?_
  refine Preserves.bind (h.plain.alter fun _ => ⟨rfl, rfl, rfl, rfl, .refl, .refl⟩) fun _ => ?_
  refine Preserves.bind Preserves.look fun m => ?_
  refine Preserves.bind (Preserves.each h.disableRange) fun _ => ?_
  exact h.plain.alter fun _ => ⟨rfl, rfl, rfl, rfl, .refl, .refl⟩

theorem takeNotice : Preserves I (Stream.takeNotice env) := by
  refine Preserves.bind Preserves.look fun m => Preserves.ite Preserves.pure ?_
  refine Preserves.ite (h.plain.alter fun _ => ⟨rfl, rfl, rfl, rfl, .refl, .refl⟩) ?_
  refine Preserves.bind (h.plain.alter fun _ => ⟨rfl, rfl, rfl, rfl, .refl, .refl⟩) fun _ => ?_
  exact Preserves.leaving (h.drain harm) fun m hm => h.plain m _
    ⟨rfl, rfl, rfl, rfl, .refl, .refl⟩ hm

theorem eventNotice (fault : Option Errno) (between : List ThreadAction) :
    Preserves I (Stream.eventNotice env fault between) := by
  refine Preserves.bind (h.plain.readNotice fault) fun failure => ?_
  cases failure with
  | some errno => exact h.plain.readFailed errno _
  | none => exact Preserves.bind (Preserves.each h.plain.threadAction) fun _ => h.takeNotice harm

theorem handleEvent (ev : EpollEvent) : Preserves I (Stream.handleEvent env ev) := by
  refine Preserves.bind (Preserves.each h.plain.threadAction) fun _ => ?_
  refine Preserves.bind Preserves.look fun m => Preserves.ite (h.handleUsb _ _) ?_
  refine Preserves.ite (h.eventNotice harm _ _) (Preserves.ite (h.eventTimer _) ?_)
  exact enableRange harm _

theorem processStep (input : StepInput) : Preserves I (Stream.processStep env input) := by
  refine Preserves.bind (h.plain.leave _) fun _ => Preserves.bind Preserves.look fun m => ?_
  refine Preserves.ite Preserves.pure ?_
  cases input with
  | failed errno =>
      refine Preserves.bind (h.plain.observe trivial) fun _ => ?_
      exact Preserves.bind h.plain.cancel fun _ =>
        Preserves.bind (h.plain.leave _) fun _ => Preserves.pure
  | ready events =>
      refine Preserves.ite Preserves.pure (Preserves.rescue ?_ fun cause => ?_)
      · exact Preserves.bind (Preserves.each (h.handleEvent harm)) fun _ => h.endBatch
      · refine Preserves.bind h.plain.cancel fun _ => Preserves.bind (h.plain.leave _) fun _ => ?_
        exact Preserves.bind (h.plain.observe trivial) fun _ => Preserves.raise

theorem act (a : Action) : Preserves I (Stream.act env a) := by
  cases a with
  | step input =>
      exact Preserves.rescue (Preserves.bind (h.processStep harm input) fun _ => Preserves.pure)
        fun _ => Preserves.pure
  | thread a => exact h.plain.threadAction a

/-- **A run keeps it.** -/
theorem engineRun (actions : List Action) : Preserves I (Stream.engineRun env actions) :=
  Preserves.each (h.act harm)

end Arming

end Upkeep

/-! ## Whatever the engine does, in any order -/

variable (env) in
/-- **One of the things the engine does**: a completion it is told of, the
counters of an entry, a cancellation, an entry switched on, or what is
plain. -/
inductive Doing (m : Machine σ) : Machine σ → Prop
  | plain {m' : Machine σ} : Plain env m m' → Doing m m'
  | completed {m' : Machine σ} {o : Outcome Exn Unit} (c : Completion) :
      complete env c m = (o, m') → o ≠ .hang → Doing m m'
  | reported {m' : Machine σ} {o : Outcome Exn Unit} (i : ℕ) :
      reportCounters env i m = (o, m') → o ≠ .hang → Doing m m'
  | cancelled {m' : Machine σ} {o : Outcome Exn Unit} (i : ℕ) :
      cancelEntry i m = (o, m') → o ≠ .hang → Doing m m'
  | armed {m' : Machine σ} {o : Outcome Exn Unit} (i : ℕ) :
      arm env i m = (o, m') → o ≠ .hang → Doing m m'

/-- How a program ends, it ends in a state that it leads to. -/
theorem preserves_of_doing {b : Machine σ} {p : Run σ Unit}
    (h : ∀ t u o, p t = (o, u) → o ≠ .hang → Doing env t u) :
    Preserves (ReflTransGen (Doing env) b) p := fun t ht =>
  ends_self.mono (fun _ u hu => ht.tail (h t u _ hu nofun)) fun _ u hu => ht.tail (h t u _ hu nofun)

/-- **All that the engine does** is one such thing after another. -/
theorem upkeep_doing (b : Machine σ) : Upkeep env (ReflTransGen (Doing env) b) where
  plain _ _ hp ht := ht.tail (.plain hp)
  complete c := preserves_of_doing fun _ _ _ hrun hend => .completed c hrun hend
  reportCounters i := preserves_of_doing fun _ _ _ hrun hend => .reported i hrun hend
  cancelEntry i := preserves_of_doing fun _ _ _ hrun hend => .cancelled i hrun hend

theorem arm_doing (b : Machine σ) (i : ℕ) : Preserves (ReflTransGen (Doing env) b) (arm env i) :=
  preserves_of_doing fun _ _ _ hrun hend => .armed i hrun hend

theorem ends_outcome {p : Run σ Unit} {o : Outcome Exn Unit} {Q : Machine σ → Prop}
    (h : Ends p (fun _ u => Q u) (fun _ u => Q u) t) (hrun : p t = (o, u)) (hend : o ≠ .hang) :
    Q u := by
  cases o with
  | ret => exact ends_ret_of (Q := fun _ u => Q u) h hrun
  | throw cause => exact ends_throw_of (E := fun _ u => Q u) h hrun
  | hang => exact absurd rfl hend

/-- **What is kept by the engine** is kept by each thing it does. -/
theorem Upkeep.doing (h : Upkeep env I) (harm : ∀ i, Preserves I (Stream.arm env i))
    (hd : Doing env m t) (hm : I m) : I t := by
  cases hd with
  | plain hp => exact h.plain m t hp hm
  | completed c hrun hend => exact ends_outcome (h.complete c m hm) hrun hend
  | reported i hrun hend => exact ends_outcome (h.reportCounters i m hm) hrun hend
  | cancelled i hrun hend => exact ends_outcome (h.cancelEntry i m hm) hrun hend
  | armed i hrun hend => exact ends_outcome (harm i m hm) hrun hend

/-! ## What a start keeps -/

section Nobody

variable (hnobody : ∀ i, m.entryAt i = none)
include hnobody

/-- **Where there is no entry** everything is plain. -/
theorem upkeep_nobody : Upkeep env (Plain env m) where
  plain := untouched_plain m
  complete c t ht := by
    have hnone : ∀ i, t.entryAt i = none := fun i => (ht.entryAt i).trans (hnobody i)
    exact ends_of_ret (complete_nobody hnone c) ht
  reportCounters i t ht := by
    unfold reportCounters
    rw [ends_bind, ends_look, id_look, ht.entryAt, hnobody]
    exact ht
  cancelEntry i t ht := by
    unfold cancelEntry
    rw [ends_bind, ends_look, id_look, ht.entryAt, hnobody]
    exact ht

end Nobody

/-- **A set-up** is what is plain, and then the creation of the entries. -/
theorem initBody_ends_of {Q : Unit → Machine σ → Prop} {E : Exn → Machine σ → Prop}
    (hcreate : ∀ w now u, WorldStep env m.world w → Plain env ((m.withWorld w).begun now) u →
      Ends (each (List.range u.streams.length) (createStream env)) Q E u)
    (hthrow : ∀ w now u cause, WorldStep env m.world w →
      Plain env ((m.withWorld w).begun now) u → E cause u) :
    Ends (initBody env) Q E m := by
  unfold initBody
  rw [ends_bind, ends_askWorld, ends_bind, ends_alter, ends_bind]
  let m₁ := (m.withWorld (env.monotime m.world).2).begun (env.monotime m.world).1
  have hkeep : Upkeep env (Plain env m₁) := upkeep_nobody fun _ => rfl
  refine (hkeep.plain.openDescriptors _ .refl).mono (fun _ u hu => ?_)
    fun cause u hu => hthrow _ _ u cause .monotime hu
  rw [ends_bind]
  refine (hkeep.processResetStreamEntry true u hu).mono (fun _ v hv => ?_)
    fun cause v hv => hthrow _ _ v cause .monotime hv
  exact hcreate _ _ v .monotime hv

/-- **The creation of the entries** keeps what the creation of one keeps,
whatever else it needs of the configuration. -/
theorem createStreams_keeps
    (hcreate : ∀ s stream isReading j u, I u → u.Made → u.streams[s]? = some stream →
      Ends (createStreamstate env s stream isReading j) (fun _ t => I t) (fun _ t => I t) u)
    (hI : I m) (hm : m.Made) (ss : List ℕ) :
    Ends (each ss (createStream env)) (fun _ t => I t) (fun _ t => I t) m := by
  let J : Machine σ → Prop := fun t => I t ∧ t.Made ∧ t.streams = m.streams
  have hone : ∀ (s : ℕ) (stream : FtdiStreamEntry) (isReading : Bool) (j : ℕ) (u : Machine σ),
      m.streams[s]? = some stream → J u →
        Ends (createStreamstate env s stream isReading j) (fun _ t => J t) (fun _ t => I t) u := by
    intro s stream isReading j u hs ⟨hu, hmade, hstreams⟩
    have hs' : u.streams[s]? = some stream := hstreams ▸ hs
    refine ((hcreate s stream isReading j u hu hmade hs').and
      (createStreamstate_quiet hs' hmade isReading j)).mono ?_ fun _ t ht => ht.1
    rintro _ t ⟨ht, m₂, hq, hc⟩
    exact ⟨ht, hc.made, hc.streams.trans (hq.frame.streams.trans hstreams)⟩
  have hall : ∀ (s : ℕ) (stream : FtdiStreamEntry) (isReading : Bool) (js : List ℕ)
      (u : Machine σ), m.streams[s]? = some stream → J u →
        Ends (each js (createStreamstate env s stream isReading)) (fun _ t => J t)
          (fun _ t => I t) u := fun s stream isReading js u hs hu =>
    ends_each (I := fun _ => J) hu fun j _ t ht => hone s stream isReading j t hs ht
  refine (ends_each (I := fun _ => J) ⟨hI, hm, rfl⟩ fun s _ u hu => ?_).mono
    (fun _ _ ht => ht.1) fun _ _ ht => ht
  unfold createStream
  rw [ends_bind, ends_look, id_look, hu.2.2]
  cases hs : m.streams[s]? with
  | none => exact hu
  | some stream =>
      rw [ends_bind]
      exact (hall s stream true _ u hs hu).mono (fun _ t ht => hall s stream false _ t hs ht)
        fun _ _ ht => ht

/-- The thread of an engine that was set up begins, or is not made. -/
theorem launchThread_plain (h : m.Made) :
    Ends (launchThread env) (fun _ t => Plain env m t) (fun _ t => t.trace = m.trace) m := by
  unfold launchThread leave
  rw [ends_bind, ends_alter, ends_bind, ends_askWorld, ends_ite]
  refine ⟨fun _ => rfl, fun _ => ?_⟩
  unfold beginThread
  rw [ends_bind, ends_alter, ends_bind, ends_alter, ends_bind, ends_look, id_look, if_neg]
  · exact ⟨rfl, rfl, rfl, rfl, .refl, .single .threadStart⟩
  · simpa [Machine.withWorld] using Option.isSome_iff_ne_none.mp h

variable (env) in
/-- **The set-up a start did**, and left in a state from which the record
only grew by what a clean-up leaves. -/
def SetUpEnded (m₀ m : Machine σ) : Prop :=
  ∃ o t, initBody env { m₀ with mutex := true } = (o, t) ∧ o ≠ .hang ∧
    Grows (·.what.ending) t.trace m.trace

theorem SetUpEnded.andGrows {m₀ : Machine σ} (h : SetUpEnded env m₀ m)
    (hg : Grows (·.what.ending) m.trace t.trace) : SetUpEnded env m₀ t := by
  obtain ⟨o, u, hret, hend, hu⟩ := h
  exact ⟨o, u, hret, hend, hu.trans hg⟩

theorem processInit_plain {m₀ : Machine σ} (h : m₀.streamstates = none) :
    Ends (processInit env)
      (fun _ t => initBody env { m₀ with mutex := true } = (.ret (), t) ∧ t.Made)
      (fun _ t => SetUpEnded env m₀ t) { m₀ with mutex := true } := by
  unfold processInit
  rw [ends_bind, ends_look, id_look, if_neg (by simp [h]), ends_rescue]
  refine (ends_self.and (initBody_ends _)).mono ?_ fun cause t ht => ?_
  · rintro _ t ⟨hret, w, now, -, -, hmade, -⟩
    exact ⟨hret, hmade⟩
  · have hended : SetUpEnded env m₀ t := ⟨_, t, ht.1, nofun, .refl⟩
    rw [ends_bind]
    refine (processCleanup_ends t).mono (fun _ v hv => ?_) fun _ _ hf => hf.elim
    rw [ends_bind, ends_error]
    refine (hended.andGrows hv.ending).andGrows ((errored_trace env v _).mono fun o ho => ?_)
    rw [ho]
    trivial

theorem startFailed_throws {m₀ : Machine σ} {clear : Machine σ → Machine σ} {cause : Exn}
    {Q : Unit → Machine σ → Prop} (hclear : ∀ m, (clear m).trace = m.trace)
    (h : SetUpEnded env m₀ m) :
    Ends (startFailed clear cause) Q (fun _ t => SetUpEnded env m₀ t) m := by
  unfold startFailed
  rw [ends_bind]
  refine (processCleanup_ends m).mono (fun _ v hv => ?_) fun _ _ hf => hf.elim
  rw [ends_bind, ends_alter]
  exact (h.andGrows hv.ending).andGrows (.of_eq (hclear v))

/-- **A start that returns** has set the entries up, and has done what is
plain since. One that throws has cleaned up since. -/
theorem start_plain {m₀ : Machine σ} (h : Idle m₀) (mode : Mode) :
    Ends (start env mode)
      (fun _ m => ∃ t, initBody env { m₀ with mutex := true } = (.ret (), t) ∧ Plain env t m)
      (fun _ m => SetUpEnded env m₀ m) m₀ := by
  cases mode with
  | poll =>
      unfold start startPoll withMutex
      rw [ends_bind, ends_alter, ends_leaving, ends_bind, ends_look, id_look]
      simp only [h.isStartedThr, h.isStartedPoll, Bool.false_eq_true, if_false]
      rw [ends_rescue]
      unfold setUpPoll
      rw [ends_bind]
      refine (processInit_plain h.streamstates).mono (fun _ t ht => ?_) fun cause t ht => ?_
      · exact ⟨t, ht.1, rfl, rfl, rfl, rfl, .refl, .refl⟩
      · exact startFailed_throws (fun _ => rfl) ht
  | thread =>
      unfold start startThread withMutex
      rw [ends_bind, ends_alter, ends_leaving, ends_bind, ends_look, id_look]
      simp only [h.isStartedThr, h.isStartedPoll, Bool.false_eq_true, if_false]
      rw [ends_rescue]
      unfold setUpThread
      rw [ends_bind]
      refine (processInit_plain h.streamstates).mono (fun _ t ht => ?_) fun cause t ht => ?_
      · refine (launchThread_plain ht.2).mono (fun _ u hu => ?_) fun cause u hu => ?_
        · exact ⟨t, ht.1, hu.trans ⟨rfl, rfl, rfl, rfl, .refl, .refl⟩⟩
        · exact startFailed_throws (fun _ => rfl) ⟨_, t, ht.1, nofun, .of_eq hu⟩
      · exact startFailed_throws (fun _ => rfl) ht

/-! ## Courses -/

variable (env) in
/-- **A course of a session**: it has started, and the engine has done what
it does, in any order and up to any point of its steps. -/
def Course (m₀ : Machine σ) (mode : Mode) (m : Machine σ) : Prop :=
  Idle m₀ ∧ ∃ m₁, start env mode m₀ = (.ret (), m₁) ∧ ReflTransGen (Doing env) m₁ m

/-- Every run of a session is a course. -/
theorem Session.course {m₀ : Machine σ} {mode : Mode} {actions : List Action}
    (h : Session env m₀ mode actions m) : Course env m₀ mode m := by
  obtain ⟨hidle, m₁, hstart, hrun⟩ := h
  have hkeeps : Preserves (ReflTransGen (Doing env) m₁) (engineRun env actions) :=
    (upkeep_doing m₁).engineRun (arm_doing m₁) actions
  exact ⟨hidle, m₁, hstart, ends_outcome (hkeeps m₁ .refl) hrun nofun⟩

/-- **What holds once the entries are set up**, and is kept by the engine,
holds in every course. -/
theorem Course.inv {m₀ : Machine σ} {mode : Mode} (h : Course env m₀ mode m)
    (hset : ∀ t, initBody env { m₀ with mutex := true } = (.ret (), t) → I t)
    (hkeep : Upkeep env I) (harm : ∀ i, Preserves I (arm env i)) : I m := by
  obtain ⟨hidle, m₁, hstart, hpath⟩ := h
  obtain ⟨t, hret, hplain⟩ := ends_ret_of (start_plain hidle mode) hstart
  have hstep : ∀ s u, Doing env s u → I s → I u := fun _ _ hd hs => hkeep.doing harm hd hs
  exact inv_of_path hstep hpath (hkeep.plain t m₁ hplain (hset t hret))

end Stream

end SgFtdi
