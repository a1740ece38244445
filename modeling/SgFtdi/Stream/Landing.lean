import SgFtdi.Stream.Moves.Registrations

/-!
# Stream — after everything has landed

Once `should_run` is down and no transfer is in flight, no completion
reaches a callback, no entry is submitted and no list is drained. What is
left of `process_step` runs straight through: it comes back unless a
callback that is still called makes a request of its own, and waits for a
lock that will not be released.
-/

namespace SgFtdi

namespace Stream

open Prog Relation

variable {σ : Type} {env : Env σ} {m m' : Machine σ}

/-- **Everything has landed**: `should_run` is down and nothing is in
flight. -/
structure Machine.Landed (m : Machine σ) : Prop where
  shouldRun : m.shouldRun = false
  idle : ∀ i e, m.entryAt i = some e → e.transfer.inFlight = false

/-- What has landed does not take off again. -/
theorem Machine.Landed.lives (h : m.Landed) (hl : AllLive m m')
    (hstays : m'.shouldRun = true → m.shouldRun = true) : m'.Landed where
  shouldRun := Bool.eq_false_iff.mpr fun hr => Bool.eq_false_iff.mp h.shouldRun (hstays hr)
  idle i e' he' := by
    obtain ⟨e, he, hlive⟩ := hl.back he'
    have hidle := h.idle i e he
    cases hlive.life with
    | kept _ hfl _ => exact hfl.trans hidle
    | down hfl _ _ _ => exact absurd (hidle.symm.trans hfl) Bool.false_ne_true
    | up hr _ _ _ _ _ => exact absurd (h.shouldRun.symm.trans hr) Bool.false_ne_true
    | stranded _ _ hfl _ => exact hfl.trans hidle

theorem Machine.Landed.moves (h : m.Landed) (hp : ReflTransGen (Move env) m m') : m'.Landed :=
  inv_of_path (fun _ _ hst hl => hl.lives hst.lives hst.kept.stays) hp h

theorem Machine.Landed.handling (h : m.Landed) (hp : ReflTransGen (Handling env) m m') :
    m'.Landed :=
  inv_of_path (fun _ _ hst hl => hl.lives hst.lives hst.stays) hp h

/-! ## What comes back -/

/-- **The user asks nothing of the engine** from inside any callback. -/
structure Asleep (env : Env σ) : Prop extends Unasking env where
  counterCallback : ∀ s isReading t callbacks bytes w,
    (env.counterCallback s isReading t callbacks bytes w).1.requests = []

/-- What has landed stays landed where flights and `should_run` are left
alone. -/
theorem Machine.Landed.same (h : m.Landed) (hr : m'.shouldRun = m.shouldRun)
    (he : ∀ j, m'.entryAt j = m.entryAt j) : m'.Landed :=
  ⟨hr.trans h.shouldRun, fun i e hi => h.idle i e (he i ▸ hi)⟩

theorem Machine.Landed.modify (h : m.Landed) (i : ℕ)
    {f : FtdiStreamStaticState → FtdiStreamStaticState}
    (hf : ∀ e, (f e).transfer.inFlight = e.transfer.inFlight) : (m.modifyEntry i f).Landed := by
  refine ⟨h.shouldRun, fun j e he => ?_⟩
  rw [entryAt_modifyEntry] at he
  split at he
  · obtain ⟨e₀, he₀, rfl⟩ := Option.map_eq_some_iff.mp he
    exact (hf e₀).trans (h.idle j e₀ he₀)
  · exact h.idle j e he

theorem observe_sure (o : Obs) : Sure Machine.Landed (observe o : Run σ Unit) :=
  Sure.alter fun _ h => h.same rfl fun _ => rfl

theorem askWorld_sure {α : Type} (f : σ → α × σ) : Sure Machine.Landed (askWorld f) :=
  Sure.ask fun _ h => h.same rfl fun _ => rfl

theorem error_sure (message : Message) : Sure Machine.Landed (error env message) := fun m h =>
  runs_error.mpr ⟨errored_shouldRun env m message, fun i e he =>
    h.idle i e (errored_entryAt env m message i ▸ he)⟩

/-- A completion of a transfer that is not in flight is none. -/
theorem complete_sure (c : Completion) : Sure Machine.Landed (complete env c) := by
  refine Sure.look_bind fun m h => ?_
  rw [id_look]
  cases he : m.entryAt c.transfer with
  | none => exact h
  | some e =>
      dsimp only
      rw [if_pos (h.idle _ e he)]
      exact h

theorem comeBack_sure {α : Type} {reply : Reply α} (h : reply.requests = []) :
    Sure Machine.Landed (comeBack env reply) := by
  unfold comeBack
  rw [h]
  refine Sure.bind Sure.pure fun _ => ?_
  cases reply.result with
  | ok a => exact Sure.pure
  | error cause => exact Sure.raise

theorem pollfd_sure {f : σ → Option Exn × σ} (change : Machine σ → List ℤ)
    (message : Exn → Message) : Sure Machine.Landed (do
      let failure ← askWorld f
      match failure with
      | none => alter fun m => { m with usbEpollSet := change m }
      | some cause => error env (message cause)) := by
  refine Sure.bind (askWorld_sure f) fun failure => ?_
  cases failure with
  | none => exact Sure.alter fun _ hm => hm.same rfl fun _ => rfl
  | some cause => exact error_sure _

theorem readFailed_sure (errno : Errno) (message : Errno → Message) :
    Sure Machine.Landed (readFailed env errno message) := by
  cases errno with
  | EWOULDBLOCK => exact Sure.pure
  | EINTR => exact Sure.pure
  | other code => exact error_sure _

/-- An engine that has stopped switches an entry on and submits nothing. -/
theorem arm_sure (i : ℕ) : Sure Machine.Landed (arm env i) := by
  refine Sure.look_bind fun m hm => ?_
  rw [id_look]
  cases m.entryAt i with
  | none => exact hm
  | some e =>
      refine Sure.bind (Sure.alter fun t ht => ht.modify i fun _ => rfl)
        (fun _ => Sure.ite (fun _ => Sure.look_bind fun t ht => ?_) fun _ => Sure.pure) m hm
      rw [id_look]
      cases t.entryAt i with
      | none => exact ht
      | some e =>
          dsimp only
          rw [if_pos ht.shouldRun]
          exact runs_ite.mpr ⟨fun _ => ht, fun _ => ht⟩

theorem cancelEnabled_sure (i : ℕ) : Sure Machine.Landed (cancelEnabled i : Run σ Bool) := by
  have hentry : Sure Machine.Landed (cancelEntry i : Run σ Unit) := by
    refine Sure.look_bind fun m hm => ?_
    rw [id_look]
    cases m.entryAt i with
    | none => exact hm
    | some e =>
        refine runs_ite.mpr ⟨fun _ => ?_, fun _ => hm⟩
        refine Sure.bind (observe_sure _) (fun _ => Sure.alter fun t ht => ?_) m hm
        refine ⟨ht.shouldRun, fun j e he => ?_⟩
        rw [entryAt_modifyEntry] at he
        split at he
        · obtain ⟨e₀, he₀, rfl⟩ := Option.map_eq_some_iff.mp he
          exact ht.idle j e₀ he₀
        · exact ht.idle j e he
  refine Sure.look_bind fun m hm => ?_
  rw [id_look]
  cases m.entryAt i with
  | none => exact hm
  | some e =>
      refine runs_ite.mpr ⟨fun _ => ?_, fun _ => hm⟩
      exact Sure.bind hentry (fun _ => Sure.pure) m hm

theorem leave_sure (why : Exit) : Sure Machine.Landed (leave why : Run σ Unit) :=
  Sure.alter fun _ hm => hm.same rfl fun _ => rfl

section Asleep

variable (h : Asleep env)
include h

theorem acceptReading_sure (s : ℕ) (what : ℤ → Queued) :
    Sure Machine.Landed (acceptReading env s what) := by
  refine Sure.look_bind fun m hm => ?_
  rw [id_look, runs_ite]
  refine ⟨fun _ => hm, fun _ => ?_⟩
  cases m.streams[s]? with
  | none => exact hm
  | some stream =>
      have hcall : Sure Machine.Landed
          (lockedCall (env.callback true s .readGetFd [] 0)) := by
        refine fun t ht => ?_
        unfold lockedCall
        rw [runs_bind, runs_askWorld, h.callback, if_neg (not_not.mpr rfl)]
        have ht' : (t.withWorld (env.callback true s .readGetFd [] 0 t.world).2).Landed :=
          ht.same rfl fun _ => rfl
        cases (env.callback true s .readGetFd [] 0 t.world).1.result <;> exact ht'
      refine Sure.ite (fun _ => Sure.raise) (fun _ => Sure.bind hcall fun a => ?_) m hm
      refine Sure.ite (fun _ => Sure.raise) fun _ => ?_
      refine Sure.bind (Sure.alter fun t ht => ?_) fun _ =>
        Sure.bind (observe_sure _) fun _ => Sure.pure
      cases hw : what a.1 <;> exact ht.same rfl fun _ => rfl

theorem accept_sure (r : Request) : Sure Machine.Landed (accept env r) := by
  cases r with
  | enable s => exact acceptReading_sure h s _
  | disable s => exact acceptReading_sure h s _
  | reset s =>
      refine Sure.look_bind fun m hm => ?_
      refine Sure.ite (fun _ => Sure.pure)
        (fun _ => Sure.ite (fun _ => Sure.raise) fun _ => ?_) m hm
      exact Sure.bind (Sure.alter fun t ht => ht.same rfl fun _ => rfl) fun _ =>
        Sure.bind (observe_sure _) fun _ => Sure.pure

theorem threadAction_sure (a : ThreadAction) : Sure Machine.Landed (threadAction env a) := by
  cases a with
  | accept r =>
      refine Sure.look_bind fun m hm => Sure.ite (fun _ => Sure.pure) (fun _ => ?_) m hm
      exact Sure.rescue (Sure.bind (accept_sure h r) fun _ => Sure.pure) fun _ => Sure.pure
  | notify => exact Sure.alter fun _ hm => hm.same rfl fun _ => rfl
  | user k => exact Sure.alter fun _ hm => hm.same rfl fun _ => rfl
  | stop =>
      refine Sure.look_bind fun m hm => Sure.ite (fun _ => Sure.pure) (fun _ => ?_) m hm
      refine Sure.bind (Sure.alter fun _ ht => ht.same rfl fun _ => rfl) fun _ => ?_
      exact Sure.bind (observe_sure _) fun _ => Sure.bind
        (Sure.alter fun _ ht => ht.same rfl fun _ => rfl) fun _ =>
          Sure.alter fun _ ht => ht.same rfl fun _ => rfl

theorem resetEntry_sure (s : ℕ) (stream : FtdiStreamEntry) :
    Sure Machine.Landed (resetEntry env s stream) := by
  have htransfer : ∀ f : σ → (ℤ × List Completion) × σ,
      Sure Machine.Landed (controlTransfer env f) := fun f =>
    Sure.bind (askWorld_sure f) fun _ => Sure.bind (Sure.each complete_sure _) fun _ => Sure.pure
  refine Sure.ite (fun _ => fun m hm => ?_) fun _ => ?_
  · rw [runs_bind, runs_askWorld]
    refine Sure.bind (Sure.each complete_sure _)
      (fun _ => comeBack_sure (h.resetCallback s m.world)) _ ?_
    exact hm.same rfl fun _ => rfl
  · refine Sure.bind (htransfer _) fun _ => Sure.ite (fun _ => Sure.raise) fun _ => ?_
    exact Sure.bind (htransfer _) fun _ => Sure.ite (fun _ => Sure.raise) fun _ => Sure.pure

/-- The resets of all streams. -/
theorem resetAll_sure : Sure Machine.Landed (processResetStreamEntry env true) := by
  refine Sure.look_bind fun m hm => ?_
  rw [if_pos rfl]
  refine Sure.each (fun s => Sure.look_bind fun t ht => ?_) _ m hm
  rw [id_look]
  cases t.streams[s]? with
  | none => exact ht
  | some stream => exact resetEntry_sure h s stream t ht

theorem usbAction_sure (a : UsbAction) : Sure Machine.Landed (usbAction env a) := by
  cases a with
  | completed c => exact complete_sure c
  | pollfdAdded fd =>
      refine Sure.look_bind fun m hm => runs_ite.mpr ⟨fun _ => ?_, fun _ => hm⟩
      exact pollfd_sure _ .addToUsbEpoll m hm
  | pollfdRemoved fd =>
      refine Sure.look_bind fun m hm => runs_ite.mpr ⟨fun _ => ?_, fun _ => hm⟩
      exact pollfd_sure _ .removeFromUsbEpoll m hm
  | elsewhere a => exact threadAction_sure h a

theorem reportCounters_sure (i : ℕ) : Sure Machine.Landed (reportCounters env i) := by
  refine Sure.look_bind fun m hm => ?_
  rw [id_look]
  cases m.entryAt i with
  | none => exact hm
  | some e =>
      dsimp only
      cases m.streams[e.streamId]? with
      | none => exact hm
      | some stream =>
          refine Sure.bind (Sure.ite (fun _ => ?_) fun _ => Sure.pure)
            (fun _ => Sure.alter fun t ht => ht.modify i fun _ => rfl) m hm
          refine Sure.bind (observe_sure _) fun _ t ht => ?_
          unfold userCall
          rw [runs_bind, runs_askWorld]
          exact comeBack_sure (h.counterCallback _ _ _ _ _ t.world) _ (ht.same rfl fun _ => rfl)

theorem eventTimer_sure (fault : Option Errno) : Sure Machine.Landed (eventTimer env fault) := by
  cases fault with
  | some errno => exact readFailed_sure errno _
  | none =>
      refine Sure.look_bind fun m hm => Sure.bind (Sure.each (reportCounters_sure h) _)
        (fun _ => Sure.look_bind fun t ht => ?_) m hm
      refine Sure.ite (fun _ => Sure.pure) (fun _ => Sure.bind (askWorld_sure _) fun now => ?_) t ht
      refine Sure.bind (Sure.alter fun _ hu => hu.same rfl fun _ => rfl) fun _ => ?_
      exact Sure.bind (observe_sure _) fun _ => Sure.ite (fun _ => error_sure _) fun _ => Sure.pure

theorem eventNotice_sure (fault : Option Errno) (between : List ThreadAction) :
    Sure Machine.Landed (eventNotice env fault between) := by
  have hread : Sure Machine.Landed (readNotice fault : Run σ (Option Errno)) := by
    refine Sure.look_bind fun m hm => ?_
    cases fault with
    | some errno => exact hm
    | none =>
        exact Sure.ite (fun _ => Sure.pure) (fun _ => Sure.bind
          (Sure.alter fun _ ht => ht.same rfl fun _ => rfl) fun _ => Sure.pure) m hm
  refine Sure.bind hread fun failure => ?_
  cases failure with
  | some errno => exact readFailed_sure errno _
  | none =>
      refine Sure.bind (Sure.each (threadAction_sure h) _) fun _ => Sure.look_bind fun m hm => ?_
      rw [id_look, if_pos hm.shouldRun]
      exact hm

theorem handleEvent_sure (ev : EpollEvent) : Sure Machine.Landed (handleEvent env ev) := by
  refine Sure.bind (Sure.each (threadAction_sure h) _) fun _ => Sure.look_bind fun m hm => ?_
  have husb : Sure Machine.Landed (handleUsb env ev.usb ev.usbResult) :=
    Sure.bind (Sure.each (usbAction_sure h) _) fun _ =>
      Sure.ite (fun _ => Sure.raise) fun _ => Sure.pure
  refine runs_ite.mpr ⟨fun _ => husb m hm, fun _ => ?_⟩
  refine runs_ite.mpr ⟨fun _ => eventNotice_sure h _ _ m hm, fun _ => ?_⟩
  refine runs_ite.mpr ⟨fun _ => eventTimer_sure h _ m hm, fun _ => ?_⟩
  exact Sure.look_bind (fun t ht => Sure.each arm_sure _ t ht) m hm

theorem endBatch_sure : Sure Machine.Landed (endBatch env) := by
  refine Sure.look_bind fun m hm => runs_ite.mpr ⟨fun _ => hm, fun _ => ?_⟩
  refine Sure.bind (Sure.rescue (resetAll_sure h) fun _ => Sure.pure) (fun _ => ?_) m hm
  refine Sure.look_bind fun t ht => Sure.bind (Sure.anyOf cancelEnabled_sure _) (fun _ => ?_) t ht
  refine Sure.bind (Sure.alter fun _ hu => hu.same rfl fun _ => rfl) fun _ => ?_
  refine Sure.look_bind fun u hu => runs_ite.mpr ⟨fun _ => ?_, fun _ => ?_⟩
  · exact Sure.bind (leave_sure _) (fun _ => Sure.pure) u hu
  · refine runs_ite.mpr ⟨fun _ => ?_, fun _ => hu⟩
    exact Sure.bind (leave_sure _) (fun _ => Sure.pure) u hu

/-- **After everything has landed `process_step` comes back**, where no
callback makes a request. -/
theorem processStep_sure (input : StepInput) : Sure Machine.Landed (processStep env input) := by
  have hcancel : Sure Machine.Landed (cancel : Run σ Unit) :=
    fun m hm => ⟨rfl, fun i e he => hm.idle i e he⟩
  refine Sure.bind (leave_sure _) fun _ => Sure.look_bind fun m hm => ?_
  refine runs_ite.mpr ⟨fun _ => hm, fun _ => ?_⟩
  cases input with
  | failed errno =>
      exact Sure.bind (observe_sure _) (fun _ => Sure.bind hcancel fun _ =>
        Sure.bind (leave_sure _) fun _ => Sure.pure) m hm
  | ready events =>
      refine runs_ite.mpr ⟨fun _ => hm, fun _ => ?_⟩
      refine Sure.rescue (Sure.bind (Sure.each (handleEvent_sure h) _) fun _ => endBatch_sure h)
        (fun cause => ?_) m hm
      exact Sure.bind hcancel fun _ => Sure.bind (leave_sure _) fun _ =>
        Sure.bind (observe_sure _) fun _ => Sure.raise

end Asleep

end Stream

end SgFtdi
