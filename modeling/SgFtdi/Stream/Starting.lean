import SgFtdi.Stream.Moves.Registrations
import SgFtdi.Stream.Model.Steady

/-!
# Stream — what a start leaves

`process_init` fails in two ways. Most of its steps throw, and then nothing
is left of what was set up. A registration that is refused throws nothing:
the engine is stopped, `submit` does nothing any more, and the start
returns. `started_iff` says when a start that returned has started.
-/

namespace SgFtdi

namespace Stream

open Prog Relation

variable {σ : Type} {env : Env σ} {m m' t u : Machine σ} {i s : ℕ}

/-! ## A start that throws -/

/-- A descriptor that is closed is `-1`. -/
structure Outline.Marked (c : Outline) : Prop where
  epollFd : c.epollFd = -1 ∨ 0 ≤ c.epollFd
  usbEpollFd : c.usbEpollFd = -1 ∨ 0 ≤ c.usbEpollFd
  timerFd : c.timerFd = -1 ∨ 0 ≤ c.timerFd

theorem Beat.marked {c c' : Outline} (h : Beat (.starting (· = -1)) c c') (hc : c.Marked) :
    c'.Marked := by
  cases h with
  | begun now _ _ => exact ⟨.inl rfl, .inl rfl, .inl rfl⟩
  | refused _ _ hfd _ => exact ⟨.inl hfd, hc.usbEpollFd, hc.timerFd⟩
  | refusedUsb _ _ hfd _ => exact ⟨hc.epollFd, .inl hfd, hc.timerFd⟩
  | refusedTimer _ _ hfd _ => exact ⟨hc.epollFd, hc.usbEpollFd, .inl hfd⟩
  | opened _ hfd _ _ => exact ⟨.inr hfd, hc.usbEpollFd, hc.timerFd⟩
  | openedUsb _ hfd _ _ => exact ⟨hc.epollFd, .inr hfd, hc.timerFd⟩
  | openedTimer _ hfd _ _ => exact ⟨hc.epollFd, hc.usbEpollFd, .inr hfd⟩
  | closed _ _ => exact ⟨.inl rfl, hc.usbEpollFd, hc.timerFd⟩
  | closedUsb _ _ => exact ⟨hc.epollFd, .inl rfl, hc.timerFd⟩
  | closedTimer _ _ => exact ⟨hc.epollFd, hc.usbEpollFd, .inl rfl⟩
  | _ => exact ⟨hc.epollFd, hc.usbEpollFd, hc.timerFd⟩

/-- **Nothing is left of a start.** -/
structure Undone (m : Machine σ) : Prop where
  streamstates : m.streamstates = none
  epollFd : m.epollFd = -1
  usbEpollFd : m.usbEpollFd = -1
  timerFd : m.timerFd = -1

theorem Undone.marked (h : Undone m) : m.outline.Marked :=
  ⟨.inl h.epollFd, .inl h.usbEpollFd, .inl h.timerFd⟩

theorem Undone.same (hm : Undone m) (h : SameHoldings m.outline t.outline) : Undone t := by
  refine ⟨?_, h.epollFd.trans hm.epollFd, h.usbEpollFd.trans hm.usbEpollFd,
    h.timerFd.trans hm.timerFd⟩
  have hmade : t.streamstates.isSome = m.streamstates.isSome := h.made
  rw [hm.streamstates] at hmade
  simpa using hmade

theorem shut_marked {fd : ℤ} (h : fd = -1 ∨ 0 ≤ fd) : shut fd = -1 := by
  unfold shut
  split <;> omega

/-- **A clean-up leaves nothing.** -/
theorem processCleanup_undone (h : m.outline.Marked) :
    Ends processCleanup (fun _ t => Undone t) (fun _ _ => False) m := by
  refine (processCleanup_outline m).mono (fun _ t ht => ?_) fun _ _ hf => hf
  have hmade : t.outline.made = false := by rw [ht]; rfl
  have h₁ : t.outline.epollFd = shut m.epollFd := by rw [ht]; rfl
  have h₂ : t.outline.usbEpollFd = shut m.usbEpollFd := by rw [ht]; rfl
  have h₃ : t.outline.timerFd = shut m.timerFd := by rw [ht]; rfl
  refine ⟨?_, h₁.trans (shut_marked h.epollFd), h₂.trans (shut_marked h.usbEpollFd),
    h₃.trans (shut_marked h.timerFd)⟩
  have hmade : t.streamstates.isSome = false := hmade
  simpa using hmade

theorem startFailed_undone {clear : Machine σ → Machine σ} {cause : Exn}
    (hclear : ∀ t : Machine σ, SameHoldings t.outline (clear t).outline) (h : m.outline.Marked) :
    Ends (startFailed clear cause) (fun _ _ => False) (fun _ t => Undone t) m := by
  unfold startFailed
  rw [ends_bind]
  exact (processCleanup_undone h).mono (fun _ t ht => ht.same (hclear t)) fun _ _ hf => hf.elim

/-- **What a start that returns leaves**, from the state it was called
in. -/
structure SetOff (env : Env σ) (m₀ m : Machine σ) : Prop where
  opened : m.outline.Open
  halted : m.shouldRun = false ↔ Unregistered env { m₀ with mutex := true }
  ready : m.shouldRun = true → m.shouldCancel = false ∧ Registered m
  entries : AllStarted env m

/-- The flags of a mode are nothing to it. -/
theorem SetOff.flagged {m₀ : Machine σ} (h : SetOff env m₀ m) (mutex started polled alive : Bool)
    (why : Exit) (w : σ) : SetOff env m₀ { m with
      mutex := mutex
      isStartedThr := started
      isStartedPoll := polled
      threadAlive := alive
      lastExit := why
      world := w } := by
  refine ⟨⟨h.opened.made, h.opened.epollFd, h.opened.usbEpollFd, h.opened.timerFd⟩, h.halted,
    fun hr => ?_, h.entries⟩
  obtain ⟨hcancel, hreg⟩ := h.ready hr
  exact ⟨hcancel, hreg.usbEpollFd, hreg.noticeEventFd, hreg.timerFd⟩

section Throwing

variable (hr : env.Refuses (· = -1))
include hr

theorem initBody_marked (m : Machine σ) :
    Ends (initBody env) (fun _ t => t.outline.Marked) (fun _ t => t.outline.Marked) m := by
  have hneg : (-1 : ℤ) < 0 := by decide
  unfold initBody
  rw [ends_bind, ends_askWorld, ends_bind, ends_alter]
  generalize hb : (m.withWorld (env.monotime m.world).2).begun (env.monotime m.world).1 = b
  have h₁ : b.epollFd = -1 := by rw [← hb]; rfl
  have h₂ : b.usbEpollFd = -1 := by rw [← hb]; rfl
  have h₃ : b.timerFd = -1 := by rw [← hb]; rfl
  have hmade : b.Made := by rw [← hb]; rfl
  have hmarked : b.outline.Marked := ⟨.inl h₁, .inl h₂, .inl h₃⟩
  refine ends_of_state (I := fun t : Machine σ => t.outline.Marked) (inv_of_path
    (I := Outline.Marked) (fun _ _ hb => Beat.marked hb) ?_ hmarked)
  exact Walks.bind (openDescriptors_beats hr hmade (h₁ ▸ hneg) (h₂ ▸ hneg) (h₃ ▸ hneg))
    fun _ v _ => Walks.bind (processResetStreamEntry_beats true v) fun _ w _ =>
      Walks.look_bind (Walks.each createStream_beats)

/-- **`process_init`**, whichever way it comes back. -/
theorem processInit_starts (hm : m.streamstates = none) :
    Ends (processInit env) (fun _ t => SetOff env m t) (fun _ t => Undone t)
      { m with mutex := true } := by
  unfold processInit
  rw [ends_bind, ends_look, id_look, if_neg (by simp [hm]), ends_rescue]
  refine (((initBody_opens _).and (initBody_starts _)).and (initBody_marked hr _)).mono ?_ ?_
  · rintro _ t ⟨⟨hopen, hiff, hready, hall⟩, -⟩
    exact ⟨hopen, hiff, hready, hall⟩
  · rintro cause t ⟨-, ht⟩
    rw [ends_bind]
    refine (processCleanup_undone ht).mono (fun _ u hu => ?_) fun _ _ hf => hf.elim
    rw [ends_bind, ends_error]
    exact hu.same (Proceeds.errored u _).holdings

theorem startPoll_starts (hm : m.streamstates = none) (ht : m.isStartedThr = false)
    (hp : m.isStartedPoll = false) :
    Ends (startPoll env) (fun _ t => SetOff env m t) (fun _ t => Undone t) m := by
  unfold startPoll withMutex
  rw [ends_bind, ends_alter, ends_leaving, ends_bind, ends_look, id_look]
  simp only [ht, hp, Bool.false_eq_true, if_false]
  rw [ends_rescue]
  unfold setUpPoll
  rw [ends_bind]
  refine (processInit_starts hr hm).mono (fun _ t ht => ?_) fun cause t ht => ?_
  · exact ht.flagged false t.isStartedThr true t.threadAlive .running t.world
  · refine Ends.mono (startFailed_undone ?_ ht.marked) (fun _ _ hf => hf.elim) fun _ u hu => ?_
    · exact fun _ => ⟨rfl, rfl, rfl, rfl⟩
    · exact ⟨hu.streamstates, hu.epollFd, hu.usbEpollFd, hu.timerFd⟩

theorem startThread_starts (hm : m.streamstates = none) (ht : m.isStartedThr = false)
    (hp : m.isStartedPoll = false) :
    Ends (startThread env) (fun _ t => SetOff env m t) (fun _ t => Undone t) m := by
  unfold startThread withMutex
  rw [ends_bind, ends_alter, ends_leaving, ends_bind, ends_look, id_look]
  simp only [ht, hp, Bool.false_eq_true, if_false]
  rw [ends_rescue]
  have hfailed : ∀ cause (t : Machine σ), t.outline.Marked →
      Ends (startFailed (fun m => { m with isStartedThr := false }) cause) (fun _ _ => False)
        (fun _ u => Undone { u with mutex := false }) t := by
    intro cause t ht
    refine Ends.mono (startFailed_undone ?_ ht) (fun _ _ hf => hf.elim) fun _ u hu => ?_
    · exact fun _ => ⟨rfl, rfl, rfl, rfl⟩
    · exact ⟨hu.streamstates, hu.epollFd, hu.usbEpollFd, hu.timerFd⟩
  unfold setUpThread
  rw [ends_bind]
  refine (processInit_starts hr hm).mono (fun _ t ht => ?_) fun cause t ht =>
    (hfailed cause t ht.marked).mono (fun _ _ hf => hf.elim) fun _ _ hu => hu
  unfold launchThread leave
  rw [ends_bind, ends_alter, ends_bind, ends_askWorld, ends_ite]
  refine ⟨fun _ => ?_, fun _ => ?_⟩
  · -- the thread could not be created, and all is undone
    refine (hfailed _ _ ?_).mono (fun _ _ hf => hf.elim) fun _ _ hu => hu
    exact ⟨.inr ht.opened.epollFd, .inr ht.opened.usbEpollFd, .inr ht.opened.timerFd⟩
  · unfold beginThread
    simp only [ends_bind, ends_alter, ends_look, id_look]
    have hsome : t.streamstates ≠ none := by
      have hmade : t.streamstates.isSome = true := ht.opened.made
      intro hnone
      rw [hnone] at hmade
      cases hmade
    rw [if_neg (by simpa [Machine.withWorld] using hsome)]
    exact ht.flagged false true t.isStartedPoll true .threadFailed _

theorem start_starts (h : Idle m) (mode : Mode) :
    Ends (start env mode) (fun _ t => SetOff env m t) (fun _ t => Undone t) m := by
  cases mode with
  | poll => exact startPoll_starts hr h.streamstates h.isStartedThr h.isStartedPoll
  | thread => exact startThread_starts hr h.streamstates h.isStartedThr h.isStartedPoll

end Throwing

/-! ## A start comes back -/

theorem error_comesBack (message : Message) : ComesBack (error env message) := by
  intro m
  rw [error_eq]
  nofun

theorem addToEpoll_comesBack (sock : ℤ) : ComesBack (addToEpoll env sock) := by
  refine ComesBack.look.bind fun m => ComesBack.ask.bind fun failure => ?_
  cases failure with
  | none => exact ComesBack.alter
  | some cause => exact error_comesBack _

theorem addToUsbEpoll_comesBack (sock : ℤ) : ComesBack (addToUsbEpoll env sock) := by
  refine ComesBack.look.bind fun m => ComesBack.ask.bind fun failure => ?_
  cases failure with
  | none => exact ComesBack.alter
  | some cause => exact error_comesBack _

theorem openDescriptors_comesBack : ComesBack (openDescriptors env) := by
  refine ComesBack.bind ?_ fun _ => ComesBack.look.bind fun m =>
    (addToEpoll_comesBack _).bind fun _ => ComesBack.bind ?_ fun _ => ComesBack.bind ?_ fun _ =>
      ComesBack.alter
  · refine ComesBack.ask.bind fun epollFd => ComesBack.alter.bind fun _ =>
      ComesBack.ite ComesBack.raise (ComesBack.alter.bind fun _ => ?_)
    exact ComesBack.ask.bind fun usbEpollFd => ComesBack.alter.bind fun _ =>
      ComesBack.ite ComesBack.raise (ComesBack.alter.bind fun _ => addToEpoll_comesBack _)
  · refine ComesBack.ask.bind fun timerFd => ComesBack.alter.bind fun _ =>
      ComesBack.ite ComesBack.raise (ComesBack.alter.bind fun _ => ?_)
    exact ComesBack.ask.bind fun rc => ComesBack.ite ComesBack.raise (addToEpoll_comesBack _)
  · refine ComesBack.ask.bind fun pollfds => ?_
    cases pollfds with
    | none => exact ComesBack.raise
    | some fds => exact ComesBack.each addToUsbEpoll_comesBack fds

theorem processCleanup_comesBack : ComesBack (processCleanup : Run σ Unit) := by
  have hclose : ∀ (c : Machine σ → Prop) [DecidablePred c] (o : Machine σ → Obs)
      (f : Machine σ → Machine σ), ComesBack (do
        let m ← look id
        if c m then do
          observe (o m)
          alter f
        else pure () : Run σ Unit) := fun c _ o f =>
    ComesBack.look.bind fun m => ComesBack.ite (ComesBack.alter.bind fun _ => ComesBack.alter)
      ComesBack.pure
  refine ComesBack.bind (fun m => nofun) fun _ => ComesBack.alter.bind fun _ =>
    (hclose _ (fun m => .closed m.timerFd) _).bind fun _ =>
      (hclose _ (fun m => .closed m.usbEpollFd) _).bind fun _ =>
        (hclose _ (fun m => .closed m.epollFd) _).bind fun _ => ComesBack.look.bind fun m => ?_
  cases m.streamstates with
  | none => exact ComesBack.pure
  | some entries => exact ComesBack.alter.bind fun _ => ComesBack.alter

theorem startFailed_comesBack (clear : Machine σ → Machine σ) (cause : Exn) :
    ComesBack (startFailed clear cause) :=
  processCleanup_comesBack.bind fun _ => ComesBack.alter.bind fun _ => ComesBack.raise

theorem launchThread_comesBack : ComesBack (launchThread env) := by
  refine ComesBack.alter.bind fun _ => ComesBack.ask.bind fun started =>
    ComesBack.ite ComesBack.raise (ComesBack.alter.bind fun _ => ComesBack.alter.bind fun _ =>
      ComesBack.look.bind fun m => ComesBack.ite ?_ ComesBack.pure)
  exact (error_comesBack _).bind fun _ => processCleanup_comesBack.bind fun _ => ComesBack.alter

section Unasking

variable (hu : Unasking env)
include hu

theorem callback_comesBack (isReading : Bool) (s : ℕ) (type : CallbackType) (buffer : List UInt8)
    (len : ℤ) : ComesBack (userCall env (env.callback isReading s type buffer len)) :=
  fun m => comeBack_comesBack (hu.callback isReading s type buffer len m.world)
    (m.withWorld (env.callback isReading s type buffer len m.world).2)

theorem submit_comesBack (i : ℕ) : ComesBack (submit env i) := by
  refine ComesBack.look.bind fun m => ?_
  cases m.entryAt i with
  | none => exact ComesBack.pure
  | some e =>
      refine ComesBack.ite ComesBack.raise (ComesBack.ite ComesBack.pure
        (ComesBack.ite ComesBack.pure (ComesBack.bind ?_ fun n => ComesBack.alter.bind fun _ =>
          ComesBack.ite ComesBack.raise (ComesBack.ite ComesBack.alter
            (ComesBack.bind ?_ fun rc => ComesBack.ite ComesBack.raise ComesBack.pure)))))
      · exact ComesBack.ite ComesBack.pure (ComesBack.alter.bind fun _ =>
          ComesBack.bind (callback_comesBack hu _ _ _ _ _) fun _ => ComesBack.alter.bind fun _ =>
            ComesBack.pure)
      · refine ComesBack.look.bind fun m => ComesBack.ask.bind fun rc => ?_
        cases m.entryAt i with
        | none => exact ComesBack.pure
        | some e => exact ComesBack.alter.bind fun _ =>
            ComesBack.ite (ComesBack.alter.bind fun _ => ComesBack.pure) ComesBack.pure

theorem createStreamstate_comesBack (s : ℕ) (stream : FtdiStreamEntry) (isReading : Bool)
    (j : ℕ) : ComesBack (createStreamstate env s stream isReading j) := by
  refine ComesBack.bind (callback_comesBack hu _ _ _ _ _) fun a =>
    ComesBack.ask.bind fun allocated =>
    ComesBack.ite ComesBack.raise (ComesBack.look.bind fun m => ComesBack.alter.bind fun _ => ?_)
  refine ComesBack.look.bind fun m' => ComesBack.alter.bind fun _ => ComesBack.look.bind fun t => ?_
  cases t.entryAt m.entries.length with
  | none => exact ComesBack.pure
  | some e =>
      refine ComesBack.ask.bind fun found => ComesBack.alter.bind fun _ =>
        ComesBack.ite ComesBack.raise (ComesBack.bind ?_ fun _ => submit_comesBack hu _)
      exact ComesBack.ite ComesBack.pure (addToEpoll_comesBack _)

theorem createStream_comesBack (s : ℕ) : ComesBack (createStream env s) := by
  refine ComesBack.look.bind fun m => ?_
  cases m.streams[s]? with
  | none => exact ComesBack.pure
  | some stream =>
      exact (ComesBack.each (createStreamstate_comesBack hu s stream true) _).bind fun _ =>
        ComesBack.each (createStreamstate_comesBack hu s stream false) _

/-- **A start comes back**, unless the user asks something of the engine
inside of it. -/
theorem initBody_comesBack (m : Machine σ) : (initBody env m).1 ≠ .hang := by
  refine Runs.comesBack (Q := fun _ _ => True) (E := fun _ _ => True) ?_
  unfold initBody
  rw [runs_bind, runs_askWorld, runs_bind, runs_alter, runs_bind]
  generalize hm₀ : (m.withWorld (env.monotime m.world).2).begun (env.monotime m.world).1 = m₀
  have hss₀ : m₀.streamstates = some [] := by rw [← hm₀]; rfl
  refine (openDescriptors_comesBack.runs (openDescriptors_proceeds m₀)).mono ?_
    (fun _ _ _ => trivial) fun _ hf => hf
  rintro _ m₁ ⟨-, -, -, hss₁⟩
  have hnobody : ∀ i, m₁.entryAt i = none := by
    intro i
    rw [FtdiStreamState.entryAt, FtdiStreamState.entries, hss₁, hss₀]
    rfl
  rw [runs_bind]
  refine (resetAll_runs hnobody).mono (fun _ m₂ _ => ?_) (fun _ _ _ => trivial)
    fun _ hf => hf hu
  rw [runs_bind, runs_look]
  exact (ComesBack.each (createStream_comesBack hu) _).runs
    (ends_of_state (I := fun _ => True) trivial)

theorem start_comesBack (mode : Mode) : ComesBack (start env mode) := by
  have hinit : ComesBack (processInit env) := by
    refine ComesBack.look.bind fun m => ComesBack.ite ComesBack.raise
      (ComesBack.rescue (initBody_comesBack hu) fun cause => ?_)
    exact processCleanup_comesBack.bind fun _ => (error_comesBack _).bind fun _ => ComesBack.raise
  cases mode with
  | poll =>
      refine ComesBack.alter.bind fun _ => ComesBack.leaving (ComesBack.look.bind fun m =>
        ComesBack.ite ComesBack.raise (ComesBack.ite ComesBack.pure (ComesBack.rescue ?_
          fun cause => startFailed_comesBack _ cause)))
      exact hinit.bind fun _ => ComesBack.alter.bind fun _ => ComesBack.alter
  | thread =>
      refine ComesBack.alter.bind fun _ => ComesBack.leaving (ComesBack.look.bind fun m =>
        ComesBack.ite ComesBack.raise (ComesBack.ite ComesBack.pure (ComesBack.rescue ?_
          fun cause => startFailed_comesBack _ cause)))
      exact hinit.bind fun _ => launchThread_comesBack

end Unasking

/-! ## The engine of a start that returns -/

theorem mem_layoutOf_read {streams : List FtdiStreamEntry} {s : ℕ} :
    (s, true) ∈ layoutOf streams ↔
      ∃ stream, streams[s]? = some stream ∧ 0 < stream.readTransfers := by
  have hrow : ∀ k, (s, true) ∈ rowOf streams k ↔
      k = s ∧ ∃ stream, streams[k]? = some stream ∧ 0 < stream.readTransfers := by
    intro k
    unfold rowOf
    cases streams[k]? with
    | none => simp
    | some stream =>
        simp only [List.mem_append, List.mem_replicate, Prod.mk.injEq, Option.some_inj,
          exists_eq_left', Bool.true_eq_false, and_false, or_false]
        constructor <;> rintro ⟨h₁, h₂⟩
        · exact ⟨h₂.1.symm, Nat.pos_of_ne_zero h₁⟩
        · exact ⟨h₂.ne', h₁.symm, trivial⟩
  unfold layoutOf
  simp only [List.mem_flatMap, List.mem_range, hrow]
  constructor
  · rintro ⟨k, -, rfl, h⟩
    exact h
  · rintro ⟨stream, hs, hpos⟩
    exact ⟨s, (List.getElem?_eq_some_iff.mp hs).1, rfl, stream, hs, hpos⟩

/-- **A session has started**: the engine runs, its descriptors are open and
registered, and there is one entry for each configured transfer, every read
entry that is to start being in flight, and every write entry where the
user had something to send. -/
structure Started (env : Env σ) (m₀ m : Machine σ) : Prop where
  shouldRun : m.shouldRun = true
  shouldCancel : m.shouldCancel = false
  opened : m.outline.Open
  registered : Registered m
  layout : m.layout = layoutOf m₀.streams
  reads : ∀ i e stream, m.entryAt i = some e → e.isReading = true →
    m₀.streams[e.streamId]? = some stream → stream.readStartEnabled = true →
      e.transfer.inFlight = true
  writes : ∀ i e, m.entryAt i = some e → e.isReading = false →
    e.transfer.inFlight = true ∨ (e.enabled = false ∧ NothingToSend env e)

/-- No stream whose reads are to start has buffers of no bytes. -/
def RoomToRead (m : FtdiStreamState) : Prop :=
  ∀ (s : ℕ) stream, m.streams[s]? = some stream → 0 < stream.readTransfers →
    stream.readStartEnabled = true →
      narrow (m.readPacketsize.toUInt64 * stream.readPacketsPerTransfer) ≠ 0

theorem SetOff.succeeds_iff {m₀ : Machine σ} (h : SetOff env m₀ m) (hs : SetUp env m₀ m) :
    Started env m₀ m ↔ ¬ Unregistered env { m₀ with mutex := true } ∧
      RoomToRead m₀.toFtdiStreamState := by
  have hconf := (show Reached env m₀ m from ⟨m, hs, .refl⟩).configuration
  have hsize : ∀ i e, m.entryAt i = some e → e.isReading = true → ∃ stream,
      m₀.streams[e.streamId]? = some stream ∧
        e.bufferSize = narrow (m₀.readPacketsize.toUInt64 * stream.readPacketsPerTransfer) := by
    intro i e he hrd
    obtain ⟨stream, hst, -, hbuf⟩ := (hconf.entries i e he).stream
    exact ⟨stream, hst, hbuf hrd⟩
  constructor
  · intro hm
    refine ⟨fun hun => Bool.false_ne_true ((h.halted.mpr hun).symm.trans hm.shouldRun), ?_⟩
    intro s stream hst hpos hen
    -- the stream has an entry, which is in flight
    have hmem : (s, true) ∈ m.layout := hs.layout ▸ mem_layoutOf_read.mpr ⟨stream, hst, hpos⟩
    obtain ⟨i, hi⟩ := List.mem_iff_getElem?.mp hmem
    rw [layout_getElem?, Option.map_eq_some_iff] at hi
    obtain ⟨e, he, howner⟩ := hi
    obtain ⟨rfl, hrd⟩ := Prod.mk.inj howner
    obtain ⟨stream', hst', hbuf⟩ := hsize i e he hrd
    rw [hst, Option.some_inj] at hst'
    subst hst'
    have hstarted := (h.entries hm.shouldRun i e he).reads hrd stream (hconf.streams ▸ hst)
    rw [← hbuf]
    exact (hstarted.mp (hm.reads i e stream he hrd hst hen)).2
  · rintro ⟨hreg, hroom⟩
    have hr : m.shouldRun = true := by
      rw [← Bool.not_eq_false]
      exact fun hf => hreg (h.halted.mp hf)
    obtain ⟨hcancel, hregistered⟩ := h.ready hr
    refine ⟨hr, hcancel, h.opened, hregistered, hs.layout, fun i e stream he hrd hst hen => ?_,
      fun i e he hwr => (h.entries hr i e he).writes hwr⟩
    refine ((h.entries hr i e he).reads hrd stream (hconf.streams ▸ hst)).mpr ⟨hen, ?_⟩
    obtain ⟨stream', hst', hbuf⟩ := hsize i e he hrd
    rw [hst, Option.some_inj] at hst'
    subst hst'
    have hmem : (e.streamId, true) ∈ layoutOf m₀.streams := by
      rw [← hs.layout]
      refine List.mem_iff_getElem?.mpr ⟨i, ?_⟩
      rw [layout_getElem?, he, ← hrd]
      rfl
    obtain ⟨stream', hst', hpos⟩ := mem_layoutOf_read.mp hmem
    rw [hst, Option.some_inj] at hst'
    subst hst'
    rw [hbuf]
    exact hroom e.streamId stream hst hpos hen

/-- **A start that throws leaves nothing, and a start that returns has
started** exactly where no registration it asked for was refused and no
read transfer that is to start has a buffer of no bytes. It comes back one
way or the other, unless a callback it calls makes a request. -/
theorem started_iff (env : Env σ) (m₀ : Machine σ) (mode : Mode) (h : Idle m₀)
    (hrefuses : env.Refuses (· = -1)) :
    (∀ cause m, start env mode m₀ = (.throw cause, m) → Undone m) ∧
      (∀ m, start env mode m₀ = (.ret (), m) → (Started env m₀ m ↔
        ¬ Unregistered env { m₀ with mutex := true } ∧ RoomToRead m₀.toFtdiStreamState)) ∧
      (Unasking env → (start env mode m₀).1 ≠ .hang) := by
  have hends := (start_starts hrefuses h mode).and (start_ends h mode)
  refine ⟨fun cause m hm => ?_, fun m hm => ?_, fun hu => start_comesBack hu mode m₀⟩
  · exact (ends_throw_of hends hm).1
  · obtain ⟨hset, hsetup⟩ := ends_ret_of hends hm
    exact hset.succeeds_iff hsetup

/-- A start that can be run. -/
theorem exists_start {P : Machine σ → Prop} (env : Env σ) (mode : Mode) (m₀ : Machine σ)
    (hret : (start env mode m₀).1 = .ret ()) (hP : P (start env mode m₀).2) :
    ∃ m, start env mode m₀ = (.ret (), m) ∧ P m :=
  ⟨_, Prod.ext hret rfl, hP⟩

/-- One read transfer of one packet. -/
def reader : Machine ℕ := constructed [sampleStream 64 1 0] ⟨64, 4096⟩ 4

theorem reader_idle : Idle reader := constructed_idle (by decide +kernel)

/-- In a world that grants everything a start returns. -/
theorem started_iff_sample :
    ∃ m, start steady .poll reader = (.ret (), m) ∧
      (m.shouldRun = true ∧ (m.entryAt 0).any (·.transfer.inFlight) = true) ∧
      (Started steady reader m ↔ ¬ Unregistered steady { reader with mutex := true } ∧
        RoomToRead reader.toFtdiStreamState) := by
  have hrefuses : steady.Refuses (· = -1) := by
    constructor <;> intro w hw <;> exact absurd hw (by simp [steady, granting])
  obtain ⟨m, hm, hP⟩ := exists_start (P := fun m =>
    m.shouldRun = true ∧ (m.entryAt 0).any (·.transfer.inFlight) = true) steady .poll reader
    (by decide +kernel) (by decide +kernel)
  exact ⟨m, hm, hP, (started_iff steady reader .poll reader_idle hrefuses).2.1 m hm⟩

/-- A world whose epolls have no room for the notice eventfd. -/
def deaf : Env ℕ := { steady with
  addToEpoll := fun sock _ w =>
    (if sock = 3 then some (.thrown "No space left on device") else none, w) }

/-- **A start returns, and nothing has started**: the registration of the
notice eventfd fails, so the engine is stopped before any transfer is
submitted, and the start returns all the same. -/
theorem start_returns_stopped :
    ∃ m, start deaf .poll reader = (.ret (), m) ∧ m.shouldRun = false ∧
      (m.entryAt 0).any (fun e => !e.transfer.inFlight) = true ∧ ¬ Started deaf reader m := by
  obtain ⟨m, hm, hstopped, hidle⟩ := exists_start (P := fun m => m.shouldRun = false ∧
    (m.entryAt 0).any (fun e => !e.transfer.inFlight) = true) deaf .poll reader
    (by decide +kernel) (by decide +kernel)
  refine ⟨m, hm, hstopped, hidle, fun hstarted => ?_⟩
  exact Bool.false_ne_true (hstopped.symm.trans hstarted.shouldRun)

end Stream

end SgFtdi
