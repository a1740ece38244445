import SgFtdi.Stream.Moves.Flight

/-!
# Stream — the life of an object

An object is started and stopped any number of times, in either mode, and
destroyed. `Lasting` names the few things that are ever done to it: steps
of a set-up and of the engine, clean-ups, and what is aside from both.
What is kept by each of them is kept by every call, and so over every
life.
-/

namespace SgFtdi

namespace Stream

open Prog Relation

variable {σ : Type} {env : Env σ} {m m' m₁ m₂ : Machine σ} {i : ℕ}
variable {I : Machine σ → Prop}

/-- What is recorded aside from set-up, engine and clean-up. -/
def Obs.aside : Obs → Prop
  | .asked _ _ => True
  | .pushed _ => True
  | .stopping => True
  | .closed _ => True
  | _ => False

/-- **Something is done aside**: the entries stand as they did, and the
loop is not left for the reason that all of them are disabled. -/
structure Aside (m m' : Machine σ) : Prop where
  streams : m'.streams = m.streams
  streamstates : m'.streamstates = m.streamstates
  trace : Grows (·.what.aside) m.trace m'.trace
  lastExit : m'.lastExit = m.lastExit ∨ m'.lastExit ≠ .allDisabled

theorem Aside.entryAt (h : Aside m m') (j : ℕ) : m'.entryAt j = m.entryAt j := by
  unfold FtdiStreamState.entryAt FtdiStreamState.entries
  rw [h.streamstates]

variable (env) in
/-- **What lasts** over the life of an object: it is kept by everything
that is ever done to it. What a set-up that breaks off leaves is seen by
the clean-up alone. -/
structure Lasting (I : Machine σ → Prop) : Prop where
  begun : ∀ m w now, m.streamstates = none → I m → I ((m.withWorld w).begun now)
  setup : ∀ m m', m.lastExit ≠ .allDisabled → Setup env m m' → I m → I m'
  broken : ∀ m m' m'', m.lastExit ≠ .allDisabled → SetupBroken env m m' → Cleaned m' m'' →
    I m → I m''
  processStep : ∀ input, Preserves I (processStep env input)
  cleaned : ∀ m m', Cleaned m m' → I m → I m'
  aside : ∀ m m', Aside m m' → I m → I m'

/-- What every step of the engine keeps, `process_step` keeps. -/
theorem processStep_preserves (h : ∀ m m', Step env m m' → I m → I m') (input : StepInput) :
    Preserves I (processStep env input) := by
  intro m hm
  refine Ends.mono (processStep_follows input m) (fun _ t hp => inv_of_path h hp hm) ?_
  rintro _ t ⟨u, hp, rfl⟩
  exact inv_of_path h hp hm

theorem Watched.lastExit {sock : ℤ} (h : Watched env sock m m') : m'.lastExit = m.lastExit := by
  cases h with
  | added _ _ => rfl
  | failed w _ _ => exact (Kept.errored (m := m.withWorld w) _).lastExit

theorem Ready.lastExit {stream : FtdiStreamEntry} (h : Ready env i stream m m₁) :
    m₁.lastExit = m.lastExit := by
  cases h with
  | reading _ _ _ => rfl
  | writing _ _ _ hw => exact hw.lastExit

/-- A set-up does not leave the loop. -/
theorem Setup.lastExit (h : Setup env m m') (hx : m.lastExit ≠ .allDisabled) :
    m'.lastExit ≠ .allDisabled := by
  cases h with
  | created hc =>
      cases hc with
      | mk _ _ _ hr hsub => exact hsub.kept_frame.lastExit ▸ hr.lastExit ▸ hx
  | opening ho =>
      cases ho with
      | move hm => exact hm.kept.lastExit ▸ hx
      | watched _ hw => exact hw.lastExit ▸ hx
      | flagged _ _ _ _ _ why hwhy =>
          rcases hwhy with rfl | hwhy
          · exact hx
          · exact hwhy
      | _ => exact hx

/-! ## What is done aside -/

/-- A flag or the world is written. -/
theorem alter_aside {f : Machine σ → Machine σ} (h : ∀ m, (f m).streams = m.streams ∧
    (f m).streamstates = m.streamstates ∧ (f m).trace = m.trace ∧
    (f m).lastExit = m.lastExit) (m : Machine σ) : Aside m (f m) :=
  ⟨(h m).1, (h m).2.1, .of_eq (h m).2.2.1, .inl (h m).2.2.2⟩

theorem errored_aside (m : Machine σ) (message : Message) : Aside m (m.errored env message) := by
  obtain ⟨_, _, h, -⟩ := errored_eq env m message
  refine ⟨by rw [h]; rfl, by rw [h]; rfl, (errored_trace env m message).mono fun o ho => ?_,
    .inl ?_⟩
  · rw [ho]
    trivial
  · exact (Kept.errored message).lastExit

theorem Quiet.aside (h : Quiet env m m') : Aside m m' := by
  refine ⟨h.frame.streams, h.frame.streamstates, h.frame.trace.mono fun o ho => ?_,
    .inl (by rw [h.frame.eq])⟩
  obtain ⟨run, o⟩ := o
  cases o <;> first | exact trivial | simp [Obs.isAsked] at ho

theorem Passing.aside (h : Passing env m m') : Aside m m' := by
  cases h with
  | user hu => exact (Quiet.single hu).aside
  | @accepted s q _ _ _ =>
      refine ⟨by rw [accepted_eq], accepted_streamstates m s q, ?_,
        .inl (accepted_lastExit m s q)⟩
      rw [accepted_trace]
      exact .one trivial
  | stopping => exact ⟨rfl, rfl, .one trivial, .inl rfl⟩

namespace Lasting

variable (h : Lasting env I)
include h

theorem alter {f : Machine σ → Machine σ} (hf : ∀ m, (f m).streams = m.streams ∧
    (f m).streamstates = m.streamstates ∧ (f m).trace = m.trace ∧
    (f m).lastExit = m.lastExit) :
    Preserves I (Prog.alter f : Run σ Unit) :=
  fun m hm => h.aside m (f m) (alter_aside hf m) hm

theorem leave {why : Exit} (hwhy : why ≠ .allDisabled) :
    Preserves I (Stream.leave why : Run σ Unit) :=
  fun m hm => h.aside m _ ⟨rfl, rfl, .refl, .inr hwhy⟩ hm

theorem askWorld {α : Type} (f : σ → α × σ) : Preserves I (Stream.askWorld f) :=
  fun m hm => h.aside m _ ⟨rfl, rfl, .refl, .inl rfl⟩ hm

theorem error (message : Message) : Preserves I (Stream.error env message) := by
  intro m hm
  rw [ends_error]
  exact h.aside m _ (errored_aside m message) hm

theorem threadAction (a : ThreadAction) : Preserves I (Stream.threadAction env a) := by
  intro m hm
  refine (threadAction_ends a m).mono (fun _ t hp => ?_) fun _ _ hf => hf.elim
  exact inv_of_path (fun u v hs hu => h.aside u v hs.aside hu) hp hm

theorem askStop : Preserves I (Stream.askStop : Run σ Unit) :=
  fun m hm => h.aside m _ ⟨rfl, rfl, .one trivial, .inl rfl⟩ hm

theorem withMutex {α : Type} {p : Run σ α} (hp : Preserves I p) :
    Preserves I (Stream.withMutex p) :=
  Preserves.bind (h.alter fun _ => ⟨rfl, rfl, rfl, rfl⟩) fun _ =>
    Preserves.leaving hp fun m hm => h.aside m _ ⟨rfl, rfl, .refl, .inl rfl⟩ hm

theorem processCleanup : Preserves I (Stream.processCleanup : Run σ Unit) := fun m hm =>
  (processCleanup_ends m).mono (fun _ t hc => h.cleaned m t hc hm) fun _ _ hf => hf.elim

/-! ## Starting -/

/-- **A set-up**, from an object whose entries are destroyed, up to where
it ends, or breaks off and is cleaned up. -/
theorem initBody (hm : I m) (hnone : m.streamstates = none) :
    Ends (Stream.initBody env) (fun _ t => I t) (fun _ t => ∀ u, Cleaned t u → I u) m := by
  have hbegun : ∀ w now, I ((m.withWorld w).begun now) ∧
      ((m.withWorld w).begun now).lastExit ≠ .allDisabled :=
    fun w now => ⟨h.begun m w now hnone hm, fun hx => by cases hx⟩
  have hset : ∀ {b t : Machine σ}, I b ∧ b.lastExit ≠ .allDisabled →
      ReflTransGen (Setup env) b t → I t ∧ t.lastExit ≠ .allDisabled := fun hb hp =>
    inv_of_path (I := fun t => I t ∧ t.lastExit ≠ .allDisabled)
      (fun u v huv hu => ⟨h.setup u v hu.2 huv hu.1, huv.lastExit hu.2⟩) hp hb
  refine (initBody_ends m).mono ?_ ?_
  · rintro _ t ⟨w, now, _, hp, -⟩
    exact (hset (hbegun w now) hp).1
  · rintro _ t ⟨w, now, u, _, hp, hb⟩
    obtain ⟨hu, hx⟩ := hset (hbegun w now) hp
    exact fun v hv => h.broken u t v hx hb hv hu

theorem processInit : Preserves I (Stream.processInit env) := by
  intro m hm
  unfold Stream.processInit
  rw [ends_bind, ends_look, id_look, ends_ite]
  refine ⟨fun _ => hm, fun hs => ?_⟩
  rw [ends_rescue]
  refine (h.initBody hm (by simpa using hs)).mono (fun _ _ ht => ht) fun cause t ht => ?_
  rw [ends_bind]
  refine (processCleanup_ends t).mono (fun _ u hu => ?_) fun _ _ hf => hf.elim
  exact Preserves.bind (h.error _) (fun _ => Preserves.raise) u (ht u hu)

theorem startFailed {clear : Machine σ → Machine σ} (cause : Exn)
    (hclear : ∀ m, (clear m).streams = m.streams ∧ (clear m).streamstates = m.streamstates ∧
      (clear m).trace = m.trace ∧ (clear m).lastExit = m.lastExit) :
    Preserves I (Stream.startFailed clear cause) :=
  Preserves.bind h.processCleanup fun _ => Preserves.bind (h.alter hclear) fun _ =>
    Preserves.raise

theorem startPoll : Preserves I (Stream.startPoll env) := by
  refine h.withMutex (Preserves.bind Preserves.look fun m => ?_)
  refine Preserves.ite Preserves.raise (Preserves.ite Preserves.pure ?_)
  exact Preserves.rescue (Preserves.bind h.processInit fun _ =>
    Preserves.bind (h.leave (by decide)) fun _ => h.alter fun _ => ⟨rfl, rfl, rfl, rfl⟩)
    fun cause => h.startFailed cause fun _ => ⟨rfl, rfl, rfl, rfl⟩

theorem endThread : Preserves I (Stream.endThread : Run σ Unit) :=
  Preserves.bind h.processCleanup fun _ => h.alter fun _ => ⟨rfl, rfl, rfl, rfl⟩

theorem beginThread : Preserves I (Stream.beginThread env) := by
  refine Preserves.bind (h.alter fun _ => ⟨rfl, rfl, rfl, rfl⟩) fun _ =>
    Preserves.bind Preserves.look fun m => ?_
  exact Preserves.ite (Preserves.bind (h.error _) fun _ => h.endThread) Preserves.pure

theorem launchThread : Preserves I (Stream.launchThread env) := by
  refine Preserves.bind (h.leave (by decide)) fun _ => Preserves.bind (h.askWorld _) ?_
  intro started
  refine Preserves.ite Preserves.raise ?_
  exact Preserves.bind (h.alter fun _ => ⟨rfl, rfl, rfl, rfl⟩) fun _ => h.beginThread

theorem startThread : Preserves I (Stream.startThread env) := by
  refine h.withMutex (Preserves.bind Preserves.look fun m => ?_)
  refine Preserves.ite Preserves.raise (Preserves.ite Preserves.pure ?_)
  exact Preserves.rescue (Preserves.bind h.processInit fun _ => h.launchThread)
    fun cause => h.startFailed cause fun _ => ⟨rfl, rfl, rfl, rfl⟩

/-! ## Running and stopping -/

theorem poll (input : StepInput) : Preserves I (Stream.poll env input) :=
  Preserves.bind Preserves.look fun _ => Preserves.ite (h.processStep input) Preserves.pure

theorem stepUntilDone (inputs : List StepInput) :
    Preserves I (Stream.stepUntilDone env inputs) := by
  induction inputs with
  | nil => exact Preserves.hang
  | cons input inputs ih =>
      exact Preserves.bind (h.processStep input) fun _ => Preserves.ite ih Preserves.pure

theorem stopPoll (inputs : List StepInput) : Preserves I (Stream.stopPoll env inputs) := by
  refine h.withMutex (Preserves.bind Preserves.look fun m => ?_)
  exact Preserves.ite (Preserves.bind h.askStop fun _ =>
    Preserves.bind (h.stepUntilDone inputs) fun _ => Preserves.bind h.processCleanup
      fun _ => h.alter fun _ => ⟨rfl, rfl, rfl, rfl⟩) Preserves.pure

theorem threadStep (input : StepInput) : Preserves I (Stream.threadStep env input) := by
  refine Preserves.bind Preserves.look fun m => Preserves.ite Preserves.pure ?_
  exact Preserves.rescue (Preserves.bind (h.processStep input)
    fun _ => Preserves.ite Preserves.pure h.endThread) fun _ =>
      Preserves.bind (h.error _) fun _ => h.endThread

theorem stopThread (inputs : List StepInput) : Preserves I (Stream.stopThread env inputs) := by
  have hjoin : Preserves I (joinThread env inputs) := by
    refine Preserves.bind (Preserves.each h.threadStep) fun _ =>
      Preserves.bind Preserves.look fun m => ?_
    exact Preserves.ite Preserves.hang Preserves.pure
  refine h.withMutex (Preserves.bind Preserves.look fun m => ?_)
  exact Preserves.ite (Preserves.bind h.askStop fun _ => Preserves.bind hjoin fun _ =>
    Preserves.bind h.processCleanup fun _ => h.alter fun _ => ⟨rfl, rfl, rfl, rfl⟩)
    Preserves.pure

theorem destroyState : Preserves I (Stream.destroyState : Run σ Unit) := by
  intro m hm
  have hclose : ∀ {t : Machine σ}, Closed m t →
      Ends (do closeTimer; closeUsbEpoll; closeEpoll; resetStreamstates : Run σ Unit)
        (fun _ u => I u) (fun _ u => I u) t := fun ht =>
    (closeAll_ends ht).mono (fun _ u hc => h.cleaned m u hc hm) fun _ _ hf => hf.elim
  unfold Stream.destroyState
  rw [ends_bind, ends_alter, ends_bind, ends_look, id_look]
  dsimp only
  rw [ends_ite]
  refine ⟨fun _ => ?_, fun _ => hclose ⟨rfl, rfl, rfl, .refl⟩⟩
  rw [ends_bind, ends_observe]
  exact hclose ⟨rfl, rfl, rfl, .one trivial⟩

/-- **Every call keeps what lasts.** -/
theorem call (c : Call) : Preserves I (Stream.call env c) := by
  cases c with
  | startPoll => exact Preserves.rescue h.startPoll fun _ => Preserves.pure
  | poll input =>
      exact Preserves.rescue (Preserves.bind (h.poll input) fun _ => Preserves.pure)
        fun _ => Preserves.pure
  | stopPoll inputs => exact Preserves.rescue (h.stopPoll inputs) fun _ => Preserves.pure
  | startThread => exact Preserves.rescue h.startThread fun _ => Preserves.pure
  | threadStep input => exact h.threadStep input
  | stopThread inputs => exact Preserves.rescue (h.stopThread inputs) fun _ => Preserves.pure
  | thread a => exact h.threadAction a
  | destroy inputs =>
      exact Preserves.rescue (Preserves.bind (h.stopThread inputs) fun _ =>
        Preserves.bind (h.stopPoll inputs) fun _ => h.destroyState) fun _ => Preserves.pure

/-- **What lasts holds over every life.** -/
theorem lifeRun {calls : List Call} (hm : I m)
    (hrun : Stream.lifeRun env calls m = (.ret (), m')) : I m' :=
  ends_ret_of (Q := fun _ t => I t) ((Preserves.each h.call) m hm) hrun

end Lasting

end Stream

end SgFtdi
