import SgFtdi.Stream.Moves.Cleanup

/-!
# Stream — setting up a session

`process_init` is a path of its own steps: descriptors are opened and
registered, streams are reset, and entries are created, each of them
filled and submitted before the next. `Session.path` puts the two halves
together: every state of a session is reached from a freshly begun one by
the steps of its set-up and then the steps of the engine.
-/

namespace SgFtdi

namespace Stream

open Prog Relation

variable {σ : Type} (env : Env σ)

/-- `add_to_epoll` has registered a descriptor, or has stopped the engine
over it. -/
inductive Watched (sock : ℤ) (m : Machine σ) : Machine σ → Prop
  | added (w : σ) : WorldStep env m.world w →
      Watched sock m { m.withWorld w with epollSet := m.epollSet.insert sock }
  | failed (w : σ) (cause : Exn) : WorldStep env m.world w →
      Watched sock m ((m.withWorld w).errored env (.addToEpoll cause))

/-- The state with a new entry, filled and with a buffer. -/
def Machine.filled (m : Machine σ) (i : ℕ) (stream : FtdiStreamEntry) (w : σ) : Machine σ :=
  ((m.modifyEntry i (.fill m.toFtdiStreamState stream)).withWorld w).modifyEntry i
    (.allocate true)

/-- **A new entry is ready to be submitted.** A write entry's descriptor
is watched by then. -/
inductive Ready (i : ℕ) (stream : FtdiStreamEntry) (m : Machine σ) : Machine σ → Prop
  | reading {e : FtdiStreamStaticState} {w : σ} : m.entryAt i = some e → e.isReading = true →
      WorldStep env m.world w → Ready i stream m (m.filled i stream w)
  | writing {e : FtdiStreamStaticState} {w : σ} {m₁ : Machine σ} : m.entryAt i = some e →
      e.isReading = false → WorldStep env m.world w →
      Watched env e.eventfd (m.filled i stream w) m₁ → Ready i stream m m₁

/-- `streamstates->emplace`. -/
def Machine.emplaced (m : Machine σ) (e : FtdiStreamStaticState) : Machine σ :=
  { m with streamstates := m.streamstates.map (· ++ [e]) }

/-- `streamstates` is there. -/
def Machine.Made (m : Machine σ) : Prop := m.streamstates.isSome = true

theorem Machine.Made.not_none {m : Machine σ} (h : m.Made) : ¬ m.streamstates.isNone = true := by
  intro hnone
  rw [Machine.Made, Option.isNone_iff_eq_none.mp hnone] at h
  cases h

/-- The descriptor a stream's callback gave for a direction. -/
def Given (isReading : Bool) (s : ℕ) (fd : ℤ) : Prop :=
  ∃ w b, (env.callback isReading s (getFdType isReading) [] 0 w).1.result = .ok (fd, b)

/-- **An entry has been created**: emplaced, made ready and submitted. -/
inductive Created (s t : ℕ) (stream : FtdiStreamEntry) (isReading : Bool) (m : Machine σ) :
    Machine σ → Prop
  | mk {fd : ℤ} {m₁ m' : Machine σ} : m.streams[s]? = some stream → m.Made →
      Given env isReading s fd →
      Ready env m.entries.length stream
        (m.emplaced (newEntry s t isReading stream.readIncludeModemStatus fd)) m₁ →
      Submitted env m.entries.length m₁ m' → Created s t stream isReading m m'

/-- **A step that opens a session**: a move, a descriptor opened or
registered, or a flag of the life cycle. -/
inductive Opening (m : Machine σ) : Machine σ → Prop
  | move {m' : Machine σ} : Move env m m' → Opening m m'
  | opened (fd : ℤ) : Opening m { m with epollFd := fd, epollSet := [] }
  | openedUsb (fd : ℤ) : m.epollSet = [] →
      Opening m { m with usbEpollFd := fd, usbEpollSet := [] }
  | openedTimer (fd : ℤ) : (∀ s ∈ m.epollSet, s = m.usbEpollFd ∨ s = m.noticeEventFd) →
      Opening m { m with timerFd := fd }
  | noted (fd : ℤ) : Opening m (m.note (.opened fd))
  | watched {sock : ℤ} {m' : Machine σ} :
      sock = m.usbEpollFd ∨ sock = m.noticeEventFd ∨ sock = m.timerFd →
      Watched env sock m m' → Opening m m'
  | flagged (notifiers mutex started polled alive : Bool) (why : Exit) :
      why = m.lastExit ∨ why ≠ .allDisabled → Opening m { m with
        notifiers := notifiers
        mutex := mutex
        isStartedThr := started
        isStartedPoll := polled
        threadAlive := alive
        lastExit := why }

/-- **A step of the set-up.** -/
inductive Setup (m : Machine σ) : Machine σ → Prop
  | opening {m' : Machine σ} : Opening env m m' → Setup m m'
  | created {s t : ℕ} {stream : FtdiStreamEntry} {isReading : Bool} {m' : Machine σ} :
      Created env s t stream isReading m m' → Setup m m'

/-- **What an exception interrupts in the set-up**: nothing, or the
initialisation of a new entry. -/
inductive SetupBroken (m : Machine σ) : Machine σ → Prop
  | here : SetupBroken m m
  | unallocated {s t : ℕ} {stream : FtdiStreamEntry} {isReading : Bool} {fd : ℤ} {w : σ} :
      m.Made → WorldStep env m.world w →
      SetupBroken m (((m.emplaced (newEntry s t isReading stream.readIncludeModemStatus
        fd)).modifyEntry m.entries.length (.fill m.toFtdiStreamState stream)).withWorld
        w |>.modifyEntry m.entries.length (.allocate false))
  | created {s t : ℕ} {stream : FtdiStreamEntry} {isReading : Bool} {fd : ℤ}
      {m₁ m' : Machine σ} : m.Made →
      Ready env m.entries.length stream
        (m.emplaced (newEntry s t isReading stream.readIncludeModemStatus fd)) m₁ →
      Work env m.entries.length m₁ m' → SetupBroken m m'

variable {env} {m m' m₁ m₂ : Machine σ} {i : ℕ}

theorem Opening.world {w : σ} (h : WorldStep env m.world w) : Opening env m (m.withWorld w) :=
  .move (.chore (.user (.world h)))

theorem opening_of_moves (h : ReflTransGen (Move env) m m') : ReflTransGen (Opening env) m m' :=
  ReflTransGen.mono (fun _ _ hs => .move hs) _ _ h

theorem setup_of_opening (h : ReflTransGen (Opening env) m m') : ReflTransGen (Setup env) m m' :=
  ReflTransGen.mono (fun _ _ hs => .opening hs) _ _ h

theorem setup_of_moves (h : ReflTransGen (Move env) m m') : ReflTransGen (Setup env) m m' :=
  setup_of_opening (opening_of_moves h)

theorem follows_opening {α : Type} {p : Run σ α} (h : Follows (Move env) Eq p m) :
    Follows (Opening env) Eq p m := h.mono (fun _ _ hs => .move hs) fun _ _ hb => hb

/-! ## Opening descriptors -/

theorem addToEpoll_ends (sock : ℤ) (m : Machine σ) :
    Ends (addToEpoll env sock) (fun _ m' => Watched env sock m m') (fun _ _ => False) m := by
  unfold addToEpoll
  rw [ends_bind, ends_look, id_look, ends_bind, ends_askWorld]
  have hw : WorldStep env m.world (env.addToEpoll sock m.epollFd m.world).2 := .addToEpoll _ _
  cases (env.addToEpoll sock m.epollFd m.world).1 with
  | none => exact .added _ hw
  | some cause =>
      simp only [ends_error]
      exact .failed _ cause hw

/-- What `add_to_epoll` leaves: the configuration, and one descriptor more
at most. -/
theorem Watched.frame {sock : ℤ} (h : Watched env sock m m') :
    m'.usbEpollFd = m.usbEpollFd ∧ m'.noticeEventFd = m.noticeEventFd ∧
      ∀ s ∈ m'.epollSet, s = sock ∨ s ∈ m.epollSet := by
  cases h with
  | added w _ => exact ⟨rfl, rfl, fun s hs => List.mem_insert_iff.mp hs⟩
  | failed w cause _ =>
      have hk : Kept (m.withWorld w) ((m.withWorld w).errored env (.addToEpoll cause)) :=
        .errored _
      exact ⟨hk.usbEpollFd, hk.noticeEventFd, fun s hs => .inr (hk.epollSet ▸ hs)⟩

theorem openEpolls_ends (m : Machine σ) :
    Ends (openEpolls env)
      (fun _ t => ReflTransGen (Opening env) m t ∧ ∀ s ∈ t.epollSet, s = t.usbEpollFd)
      (fun _ t => ReflTransGen (Opening env) m t) m := by
  unfold openEpolls
  simp only [ends_bind, ends_askWorld, ends_alter, ends_ite, ends_raise]
  have hopen : ReflTransGen (Opening env) m
      { m.withWorld (env.epollCreate m.world).2 with
        epollFd := (env.epollCreate m.world).1, epollSet := [] } :=
    (ReflTransGen.single (.world .epollCreate)).tail (.opened _)
  refine ⟨fun _ => hopen, fun _ => ?_⟩
  rw [ends_observe]
  have hnoted := hopen.tail (.noted (env.epollCreate m.world).1)
  have hopenUsb := (hnoted.tail (.world .epollCreate)).tail
    (.openedUsb (env.epollCreate (env.epollCreate m.world).2).1 rfl)
  refine ⟨fun _ => hopenUsb, fun _ => ?_⟩
  rw [ends_observe]
  refine (addToEpoll_ends _ _).mono (fun _ t hw => ⟨?_, fun s hs => ?_⟩) fun _ _ hf => hf.elim
  · exact (hopenUsb.tail (.noted _)).tail (.watched (.inl rfl) hw)
  · obtain ⟨h₁, -, h₃⟩ := hw.frame
    rcases h₃ s hs with hs | hs
    · exact hs.trans h₁.symm
    · exact absurd hs List.not_mem_nil

theorem openTimer_ends (h : ∀ s ∈ m.epollSet, s = m.usbEpollFd ∨ s = m.noticeEventFd) :
    Ends (openTimer env) (fun _ t => ReflTransGen (Opening env) m t)
      (fun _ t => ReflTransGen (Opening env) m t) m := by
  unfold openTimer
  simp only [ends_bind, ends_askWorld, ends_alter, ends_ite, ends_raise]
  have hopen : ReflTransGen (Opening env) m
      { m.withWorld (env.timerfdCreate m.world).2 with
        timerFd := (env.timerfdCreate m.world).1 } :=
    (ReflTransGen.single (.world .timerfdCreate)).tail (.openedTimer _ h)
  refine ⟨fun _ => hopen, fun _ => ?_⟩
  rw [ends_observe]
  have hset := (hopen.tail (.noted (env.timerfdCreate m.world).1)).tail
    (.world .timerfdSettime)
  refine ⟨fun _ => hset, fun _ => ?_⟩
  exact (addToEpoll_ends _ _).mono (fun _ t hw => hset.tail (.watched (.inr (.inr rfl)) hw))
    fun _ _ hf => hf.elim

theorem registerPollfds_follows (m : Machine σ) :
    Follows (Move env) Eq (registerPollfds env) m := by
  refine Follows.bind (askWorld_follows (fun _ => .getPollfds) m) fun pollfds t _ => ?_
  cases pollfds with
  | none => exact raise_follows _ t
  | some fds =>
      exact Follows.each fun fd _ u _ => Follows.look_bind
        (pollfd_follows (fun _ => .addToEpoll fd _) _ .addToUsbEpoll u)

theorem openDescriptors_follows (m : Machine σ) :
    Follows (Opening env) Eq (openDescriptors env) m := by
  unfold Follows openDescriptors
  rw [ends_bind]
  refine (openEpolls_ends m).mono ?_ fun _ t ht => ⟨t, ht, rfl⟩
  rintro _ m₁ ⟨hp₁, hset₁⟩
  rw [ends_bind, ends_look, id_look, ends_bind]
  refine (addToEpoll_ends _ _).mono (fun _ m₂ hw => ?_) fun _ _ hf => hf.elim
  have hp₂ : ReflTransGen (Opening env) m m₂ := hp₁.tail (.watched (.inr (.inl rfl)) hw)
  obtain ⟨h₁, h₂, h₃⟩ := hw.frame
  have hset₂ : ∀ s ∈ m₂.epollSet, s = m₂.usbEpollFd ∨ s = m₂.noticeEventFd := by
    intro s hs
    rw [h₁, h₂]
    rcases h₃ s hs with hs | hs
    · exact .inr hs
    · exact .inl (hset₁ s hs)
  rw [ends_bind]
  refine (openTimer_ends hset₂).mono (fun _ m₃ hp₃ => ?_)
    fun _ t ht => ⟨t, hp₂.trans ht, rfl⟩
  refine Follows.from (hp₂.trans hp₃)
    (Follows.bind (follows_opening (registerPollfds_follows m₃)) fun _ t _ => ?_)
  exact Follows.alter (.flagged true t.mutex t.isStartedThr t.isStartedPoll t.threadAlive
    t.lastExit (.inl rfl))

/-! ## Creating entries -/

theorem emplaced_entryAt (h : m.streamstates.isSome = true) (e : FtdiStreamStaticState) :
    (m.emplaced e).entryAt m.entries.length = some e := by
  obtain ⟨es, hes⟩ := Option.isSome_iff_exists.mp h
  simp [Machine.emplaced, FtdiStreamState.entryAt, FtdiStreamState.entries, hes]

theorem fill_isReading (m : FtdiStreamState) (stream : FtdiStreamEntry)
    (e : FtdiStreamStaticState) : (e.fill m stream).isReading = e.isReading := by
  unfold FtdiStreamStaticState.fill
  split <;> rfl

theorem fill_eventfd (m : FtdiStreamState) (stream : FtdiStreamEntry)
    (e : FtdiStreamStaticState) : (e.fill m stream).eventfd = e.eventfd := by
  unfold FtdiStreamStaticState.fill
  split <;> rfl

theorem watchEntry_ends {stream : FtdiStreamEntry} {e : FtdiStreamStaticState} {w : σ}
    (he : m.entryAt i = some e) (hw : WorldStep env m.world w) :
    Ends (watch env (e.fill m.toFtdiStreamState stream))
      (fun _ m' => Ready env i stream m m') (fun _ _ => False) (m.filled i stream w) := by
  unfold watch
  rw [ends_ite, fill_isReading, fill_eventfd]
  refine ⟨fun hr => .reading he hr hw, fun hr => ?_⟩
  exact (addToEpoll_ends _ _).mono (fun _ _ h => .writing he (by simpa using hr) hw h)
    fun _ _ hf => hf

/-- **The initialisation of an entry**: ready, and then submitted. -/
theorem initEntry_ends {stream : FtdiStreamEntry} {e : FtdiStreamStaticState}
    (he : m.entryAt i = some e) :
    Ends (initEntry env i stream)
      (fun _ m' => ∃ m₁, Ready env i stream m m₁ ∧ Submitted env i m₁ m')
      (fun _ m' => (∃ w, WorldStep env m.world w ∧
          m' = ((m.modifyEntry i (.fill m.toFtdiStreamState stream)).withWorld w).modifyEntry i
            (.allocate false)) ∨
        ∃ m₁, Ready env i stream m m₁ ∧ Work env i m₁ m') m := by
  have he₁ : (m.modifyEntry i (.fill m.toFtdiStreamState stream)).entryAt i =
      some (e.fill m.toFtdiStreamState stream) := by
    rw [entryAt_modifyEntry_self, he]
    rfl
  unfold initEntry
  simp only [ends_bind, ends_look, id_look, ends_alter, he₁, ends_askWorld, modifyEntry_world,
    ends_ite, ends_raise]
  refine ⟨fun hfound => .inl ⟨_, .malloc _, by rw [hfound]⟩, fun hfound => ?_⟩
  rw [Bool.not_eq_false] at hfound
  rw [hfound]
  refine (watchEntry_ends he (.malloc _)).mono (fun _ m₁ hr => ?_) fun _ _ hf => hf.elim
  exact (submit_ends i m₁).mono (fun _ _ hs => ⟨m₁, hr, hs⟩) fun _ _ hs => .inr ⟨m₁, hr, hs⟩

theorem getFd_worldStep (isReading : Bool) (s : ℕ) (w : σ) :
    WorldStep env w (env.callback isReading s (getFdType isReading) [] 0 w).2 :=
  .callback _ _ _ _ _ (by cases isReading <;> decide)

/-- **The creation of an entry**: the user gives a descriptor, and then the
entry is there. -/
theorem createStreamstate_quiet {s : ℕ} {stream : FtdiStreamEntry}
    (hs : m.streams[s]? = some stream) (hm : m.Made) (isReading : Bool) (t : ℕ) :
    Ends (createStreamstate env s stream isReading t)
      (fun _ m' => ∃ m₂, Quiet env m m₂ ∧ Created env s t stream isReading m₂ m')
      (fun _ m' => ∃ m₂, Quiet env m m₂ ∧ SetupBroken env m₂ m') m := by
  unfold createStreamstate
  have hfd : ∀ w, WorldStep env w _ := getFd_worldStep isReading s
  rw [ends_bind]
  refine (userCall_ends _ m).mono ?_ fun _ t hq => ⟨t, (Quiet.world (hfd _)).trans hq.1, .here⟩
  rintro ⟨fd, b⟩ m₁ ⟨hq, hres⟩
  simp only [ends_bind, ends_askWorld, ends_ite, ends_raise, ends_look, id_look, ends_alter]
  have hq₁ := ((Quiet.world (hfd m.world)).trans hq).trans
    (Quiet.world (w := (env.allocTransfer m₁.world).2) .allocTransfer)
  generalize m₁.withWorld (env.allocTransfer m₁.world).2 = m₂ at hq₁ ⊢
  have hstreams : m₂.streams[s]? = some stream := hq₁.frame.streams ▸ hs
  have hmade : m₂.Made := (congrArg Option.isSome hq₁.frame.streamstates).trans hm
  refine ⟨fun _ => ⟨m₂, hq₁, .here⟩, fun _ => ?_⟩
  have he := emplaced_entryAt hmade (newEntry s t isReading stream.readIncludeModemStatus fd)
  refine (initEntry_ends (m := m₂.emplaced
    (newEntry s t isReading stream.readIncludeModemStatus fd)) he).mono ?_ ?_
  · rintro _ m' ⟨m₃, hr, hsub⟩
    exact ⟨m₂, hq₁, .mk hstreams hmade ⟨_, _, hres⟩ hr hsub⟩
  · rintro _ m' (⟨w, hw, rfl⟩ | ⟨m₃, hr, hwork⟩)
    · exact ⟨m₂, hq₁, .unallocated hmade hw⟩
    · exact ⟨m₂, hq₁, .created hmade hr hwork⟩

theorem createStreamstate_ends {s : ℕ} {stream : FtdiStreamEntry}
    (hs : m.streams[s]? = some stream) (hm : m.Made) (isReading : Bool) (t : ℕ) :
    Ends (createStreamstate env s stream isReading t)
      (fun _ m' => ∃ m₂, ReflTransGen (Move env) m m₂ ∧ Created env s t stream isReading m₂ m')
      (fun _ m' => ∃ m₂, ReflTransGen (Move env) m m₂ ∧ SetupBroken env m₂ m') m :=
  (createStreamstate_quiet hs hm isReading t).mono (fun _ _ ⟨m₂, hq, hc⟩ => ⟨m₂, Move.quiet hq, hc⟩)
    fun _ _ ⟨m₂, hq, hb⟩ => ⟨m₂, Move.quiet hq, hb⟩

/-! ## A new entry -/

/-- A new entry as it is offered to `submit`. -/
def FtdiStreamStaticState.fresh (m : FtdiStreamState) (stream : FtdiStreamEntry) (s t : ℕ)
    (isReading : Bool) (fd : ℤ) : FtdiStreamStaticState :=
  ((newEntry s t isReading stream.readIncludeModemStatus fd).fill m stream).allocate true

theorem Watched.entryAt {sock : ℤ} (h : Watched env sock m m') (j : ℕ) :
    m'.entryAt j = m.entryAt j := by
  cases h with
  | added w _ => rfl
  | failed w cause _ => exact errored_entryAt ..

theorem Watched.streams {sock : ℤ} (h : Watched env sock m m') : m'.streams = m.streams := by
  cases h with
  | added w _ => rfl
  | failed w cause _ => exact (Kept.errored (m := m.withWorld w) _).streams

theorem Watched.made {sock : ℤ} (h : Watched env sock m m') :
    m'.streamstates.isSome = m.streamstates.isSome := by
  cases h with
  | added w _ => rfl
  | failed w cause _ => exact (Kept.errored (m := m.withWorld w) _).made

theorem Watched.stays {sock : ℤ} (h : Watched env sock m m') (hr : m'.shouldRun = true) :
    m.shouldRun = true := by
  cases h with
  | added w _ => exact hr
  | failed w cause _ => simp at hr

theorem filled_entryAt {stream : FtdiStreamEntry} {w : σ} (j : ℕ) :
    (m.filled i stream w).entryAt j = if i = j then
      (m.entryAt j).map fun e => (e.fill m.toFtdiStreamState stream).allocate true
    else m.entryAt j := by
  unfold Machine.filled
  rw [entryAt_modifyEntry]
  split
  · next h =>
      subst h
      rw [withWorld_entryAt, entryAt_modifyEntry_self, Option.map_map]
      rfl
  · next h => rw [withWorld_entryAt, entryAt_modifyEntry_ne _ h]

/-- What being made ready leaves of the entries. -/
theorem Ready.entryAt {stream : FtdiStreamEntry} (h : Ready env i stream m m₁) (j : ℕ) :
    m₁.entryAt j = if i = j then
      (m.entryAt j).map fun e => (e.fill m.toFtdiStreamState stream).allocate true
    else m.entryAt j := by
  cases h with
  | reading _ _ _ => exact filled_entryAt j
  | writing _ _ _ hw => rw [hw.entryAt, filled_entryAt]

theorem Ready.streams {stream : FtdiStreamEntry} (h : Ready env i stream m m₁) :
    m₁.streams = m.streams := by
  cases h with
  | reading _ _ _ => rfl
  | writing _ _ _ hw => exact hw.streams

theorem Ready.made {stream : FtdiStreamEntry} (h : Ready env i stream m m₁) :
    m₁.streamstates.isSome = m.streamstates.isSome := by
  have hf : ∀ w, (m.filled i stream w).streamstates.isSome = m.streamstates.isSome := by
    intro w
    unfold Machine.filled
    rw [modifyEntry_made]
    exact modifyEntry_made m i _
  cases h with
  | reading _ _ _ => exact hf _
  | writing _ _ _ hw => exact hw.made.trans (hf _)

theorem Ready.stays {stream : FtdiStreamEntry} (h : Ready env i stream m m₁)
    (hr : m₁.shouldRun = true) : m.shouldRun = true := by
  cases h with
  | reading _ _ _ => exact hr
  | writing _ _ _ hw => exact hw.stays hr

theorem emplaced_entryAt_lt (e : FtdiStreamStaticState) {j : ℕ} (hj : j ≠ m.entries.length) :
    (m.emplaced e).entryAt j = m.entryAt j := by
  unfold Machine.emplaced FtdiStreamState.entryAt FtdiStreamState.entries at *
  cases hs : m.streamstates with
  | none => rfl
  | some es =>
      rw [hs] at hj
      simp only [Option.getD_some, Option.map_some] at hj ⊢
      rcases Nat.lt_or_gt_of_ne hj with h | h
      · rw [List.getElem?_append_left h]
      · rw [List.getElem?_eq_none (by simp; omega), List.getElem?_eq_none (by omega)]

/-- **A new entry joins the others**, which stay alike. While the engine
runs it is in flight, or switched off because it was not to start or had
nothing to start with. -/
theorem Created.entries {s t : ℕ} {stream : FtdiStreamEntry} {isReading : Bool}
    (h : Created env s t stream isReading m m') :
    Others m.entries.length m m' ∧ ∃ fd e₀ e', Given env isReading s fd ∧
      e₀ = FtdiStreamStaticState.fresh m.toFtdiStreamState stream s t isReading fd ∧
      m'.entryAt m.entries.length = some e' ∧ Same e₀ e' ∧
      ((e'.transfer.inFlight = false ∧ (m'.shouldRun = true → e'.enabled = false ∧
          (e₀.enabled = true → isReading = true → e₀.bufferSize = 0))) ∨
        (m'.shouldRun = true ∧ e₀.enabled = true ∧ e'.enabled = true ∧
          e'.transfer.inFlight = true ∧ (isReading = true → e₀.bufferSize ≠ 0))) := by
  cases h with
  | @mk fd m₁ _ hs hm hg hr hsub =>
      generalize hn : m.entries.length = n at hr hsub ⊢
      generalize he₀ : FtdiStreamStaticState.fresh m.toFtdiStreamState stream s t isReading fd = e₀
      have hread : e₀.isReading = isReading := by
        rw [← he₀]
        exact fill_isReading m.toFtdiStreamState stream _
      have hidle : e₀.transfer.inFlight = false := by
        rw [← he₀]
        unfold FtdiStreamStaticState.fresh FtdiStreamStaticState.fill
        split <;> rfl
      have he₁ : m₁.entryAt n = some e₀ := by
        rw [hr.entryAt, if_pos rfl, ← hn, emplaced_entryAt hm]
        exact congrArg some he₀
      have hothers : Others n m m₁ := by
        refine .of_eq fun j hj => ?_
        rw [hr.entryAt, if_neg hj, emplaced_entryAt_lt _ (by omega)]
      refine ⟨hothers.trans hsub.others, fd, e₀, ?_⟩
      obtain ⟨e', he', hsame, hcase⟩ := hsub.entry he₁
      refine ⟨e', hg, he₀.symm, he', hsame, ?_⟩
      rw [hsub.shouldRun]
      rcases hcase with ⟨h₁, h₂, h₃⟩ | ⟨h₁, h₂, h₃, h₄⟩ | ⟨h₁, h₂, h₃, h₄⟩
      · refine .inl ⟨h₂.trans hidle, fun hrun => ⟨h₁.trans (h₃ hrun), fun hen => ?_⟩⟩
        rw [h₃ hrun] at hen
        cases hen
      · exact .inl ⟨h₃.trans hidle, fun _ => ⟨h₂, fun _ hrd => h₄ (hread.trans hrd)⟩⟩
      · exact .inr ⟨h₁, h₂, h₃, h₄.1, fun hrd => h₄.2 (hread.trans hrd)⟩

/-! ## The layout of a session -/

/-- Whose entry it is, and which way it goes. -/
def FtdiStreamStaticState.owner (e : FtdiStreamStaticState) : ℕ × Bool := (e.streamId, e.isReading)

/-- The owners of the entries, in the order they were created. -/
def FtdiStreamState.layout (m : FtdiStreamState) : List (ℕ × Bool) := m.entries.map (·.owner)

theorem layout_getElem? (m : FtdiStreamState) (j : ℕ) :
    m.layout[j]? = (m.entryAt j).map (·.owner) := List.getElem?_map

/-- No life changes an owner. -/
theorem AllLive.layout (h : AllLive m m') : m'.layout = m.layout := by
  refine List.ext_getElem? fun j => ?_
  rw [layout_getElem?, layout_getElem?]
  have hj := h j
  generalize m.entryAt j = x at hj ⊢
  generalize m'.entryAt j = y at hj ⊢
  cases hj with
  | none => rfl
  | some hl => simp [FtdiStreamStaticState.owner, hl.same.streamId, hl.same.isReading]

theorem moves_layout (h : ReflTransGen (Move env) m m') : m'.layout = m.layout :=
  inv_of_path (I := fun t => t.layout = m.layout) (fun _ _ hs ht => hs.lives.layout.trans ht) h rfl

/-- **A new entry is the last of the layout.** -/
theorem Created.layout {s t : ℕ} {stream : FtdiStreamEntry} {isReading : Bool}
    (h : Created env s t stream isReading m m') : m'.layout = m.layout ++ [(s, isReading)] := by
  obtain ⟨hothers, fd, e₀, e', -, he₀, he', hs, -⟩ := h.entries
  have hnew : e'.owner = (s, isReading) := by
    have h₁ : e₀.streamId = s := by
      rw [he₀]
      unfold FtdiStreamStaticState.fresh FtdiStreamStaticState.fill
      split <;> rfl
    have h₂ : e₀.isReading = isReading := by
      rw [he₀]
      exact fill_isReading m.toFtdiStreamState stream _
    rw [FtdiStreamStaticState.owner, hs.streamId, hs.isReading, h₁, h₂]
  have hlen : m.layout.length = m.entries.length := List.length_map ..
  refine List.ext_getElem? fun j => ?_
  rw [layout_getElem?]
  by_cases hj : m.entries.length = j
  · rw [← hj, he', Option.map_some, hnew, ← hlen, List.getElem?_concat_length]
  · have hrel := hothers j hj
    have hold : (m.layout ++ [(s, isReading)])[j]? = m.layout[j]? := by
      rcases Nat.lt_or_gt_of_ne hj with hlt | hlt
      · rw [List.getElem?_eq_none (by simp; omega), List.getElem?_eq_none (by omega)]
      · rw [List.getElem?_append_left (by omega)]
    rw [hold, layout_getElem?]
    generalize m.entryAt j = x at hrel ⊢
    generalize m'.entryAt j = y at hrel ⊢
    cases hrel with
    | none => rfl
    | some ha => simp [FtdiStreamStaticState.owner, ha.streamId, ha.isReading]

theorem Created.stream {s t : ℕ} {stream : FtdiStreamEntry} {isReading : Bool}
    (h : Created env s t stream isReading m m') : m.streams[s]? = some stream := by
  cases h with
  | mk hs _ _ _ _ => exact hs

theorem Created.streams {s t : ℕ} {stream : FtdiStreamEntry} {isReading : Bool}
    (h : Created env s t stream isReading m m') : m'.streams = m.streams := by
  cases h with
  | mk _ _ _ hr hsub => exact hsub.kept_frame.streams.trans hr.streams

theorem Created.made {s t : ℕ} {stream : FtdiStreamEntry} {isReading : Bool}
    (h : Created env s t stream isReading m m') : m'.Made := by
  cases h with
  | mk _ hm _ hr hsub =>
      unfold Machine.Made at *
      rw [hsub.kept_frame.made, hr.made]
      simpa [Machine.emplaced] using hm

/-- **The layout a configuration asks for.** -/
def rowOf (streams : List FtdiStreamEntry) (s : ℕ) : List (ℕ × Bool) :=
  match streams[s]? with
  | none => []
  | some stream =>
      List.replicate stream.readTransfers (s, true) ++
        List.replicate stream.writeTransfers (s, false)

/-- One direction of a stream, entry by entry. -/
theorem createAll_ends {s : ℕ} {stream : FtdiStreamEntry} {isReading : Bool} :
    ∀ {ts : List ℕ} {m : Machine σ}, m.streams[s]? = some stream → m.Made →
      Ends (each ts (createStreamstate env s stream isReading))
        (fun _ t => ReflTransGen (Setup env) m t ∧ t.streams = m.streams ∧ t.Made ∧
          t.layout = m.layout ++ List.replicate ts.length (s, isReading))
        (fun _ t => ∃ u, ReflTransGen (Setup env) m u ∧ SetupBroken env u t) m := by
  intro ts
  induction ts with
  | nil => exact fun _ hm => ⟨.refl, rfl, hm, by simp⟩
  | cons t ts ih =>
      intro m hs hm
      rw [each, ends_andThen]
      refine (createStreamstate_ends hs hm isReading t).mono ?_ ?_
      · rintro _ m₁ ⟨m₀, hp, hc⟩
        have hst : m₁.streams = m.streams := hc.streams.trans (moves_kept hp).streams
        have hp₁ : ReflTransGen (Setup env) m m₁ := (setup_of_moves hp).tail (.created hc)
        refine (ih (hst ▸ hs) hc.made).mono ?_ ?_
        · rintro _ m₂ ⟨hp₂, hst₂, hm₂, hl⟩
          refine ⟨hp₁.trans hp₂, hst₂.trans hst, hm₂, ?_⟩
          rw [hl, hc.layout, moves_layout hp, List.append_assoc]
          rfl
        · rintro _ m₂ ⟨u, hu, hb⟩
          exact ⟨u, hp₁.trans hu, hb⟩
      · rintro _ m₁ ⟨u, hu, hb⟩
        exact ⟨u, setup_of_moves hu, hb⟩

theorem createStream_ends (s : ℕ) (hm : m.Made) :
    Ends (createStream env s)
      (fun _ t => ReflTransGen (Setup env) m t ∧ t.streams = m.streams ∧ t.Made ∧
        t.layout = m.layout ++ rowOf m.streams s)
      (fun _ t => ∃ u, ReflTransGen (Setup env) m u ∧ SetupBroken env u t) m := by
  unfold createStream rowOf
  rw [ends_bind, ends_look, id_look]
  cases hs : m.streams[s]? with
  | none => exact ⟨.refl, rfl, hm, by simp⟩
  | some stream =>
      dsimp only
      rw [ends_bind]
      refine (createAll_ends hs hm).mono ?_ fun _ _ h => h
      rintro _ m₁ ⟨hp₁, hst₁, hm₁, hl₁⟩
      refine (createAll_ends (hst₁ ▸ hs) hm₁).mono ?_ ?_
      · rintro _ m₂ ⟨hp₂, hst₂, hm₂, hl₂⟩
        refine ⟨hp₁.trans hp₂, hst₂.trans hst₁, hm₂, ?_⟩
        rw [hl₂, hl₁, List.append_assoc]
        simp
      · rintro _ m₂ ⟨u, hu, hb⟩
        exact ⟨u, hp₁.trans hu, hb⟩

theorem createStreams_ends : ∀ {ss : List ℕ} {m : Machine σ}, m.Made →
    Ends (each ss (createStream env))
      (fun _ t => ReflTransGen (Setup env) m t ∧ t.Made ∧
        t.layout = m.layout ++ ss.flatMap (rowOf m.streams))
      (fun _ t => ∃ u, ReflTransGen (Setup env) m u ∧ SetupBroken env u t) m := by
  intro ss
  induction ss with
  | nil => exact fun hm => ⟨.refl, hm, by simp⟩
  | cons s ss ih =>
      intro m hm
      rw [each, ends_andThen]
      refine (createStream_ends s hm).mono ?_ fun _ _ h => h
      rintro _ m₁ ⟨hp₁, hst₁, hm₁, hl₁⟩
      refine (ih hm₁).mono ?_ ?_
      · rintro _ m₂ ⟨hp₂, hm₂, hl₂⟩
        refine ⟨hp₁.trans hp₂, hm₂, ?_⟩
        rw [hl₂, hl₁, hst₁, List.append_assoc, List.flatMap_cons]
      · rintro _ m₂ ⟨u, hu, hb⟩
        exact ⟨u, hp₁.trans hu, hb⟩

/-! ## `process_init` -/

/-- What opening a session leaves alone. -/
theorem Opening.frame (h : Opening env m m') :
    m'.streams = m.streams ∧ m'.noticeEventFd = m.noticeEventFd ∧
      m'.readPacketsize = m.readPacketsize ∧ m'.streamstates.isSome = m.streamstates.isSome ∧
      m'.layout = m.layout := by
  cases h with
  | move hm =>
      have hk := hm.kept
      exact ⟨hk.streams, hk.noticeEventFd, hk.readPacketsize, hk.made, hm.lives.layout⟩
  | watched _ hw =>
      cases hw with
      | added w _ => exact ⟨rfl, rfl, rfl, rfl, rfl⟩
      | failed w cause _ =>
          have hm : Move env (m.withWorld w) ((m.withWorld w).errored env (.addToEpoll cause)) :=
            .errored _
          have hk := hm.kept
          exact ⟨hk.streams, hk.noticeEventFd, hk.readPacketsize, hk.made, hm.lives.layout⟩
  | _ => exact ⟨rfl, rfl, rfl, rfl, rfl⟩

theorem openings_frame (h : ReflTransGen (Opening env) m m') :
    m'.streams = m.streams ∧ m'.streamstates.isSome = m.streamstates.isSome ∧
      m'.layout = m.layout := by
  induction h with
  | refl => exact ⟨rfl, rfl, rfl⟩
  | tail _ hs ih =>
      obtain ⟨h₁, -, -, h₂, h₃⟩ := hs.frame
      exact ⟨h₁.trans ih.1, h₂.trans ih.2.1, h₃.trans ih.2.2⟩

/-- The layout of a whole configuration. -/
def layoutOf (streams : List FtdiStreamEntry) : List (ℕ × Bool) :=
  (List.range streams.length).flatMap (rowOf streams)

/-- **`process_init` sets a session up** from the state in which it has
begun, and leaves the entries the configuration asks for. -/
theorem initBody_ends (m : Machine σ) :
    Ends (initBody env)
      (fun _ t => ∃ w now, WorldStep env m.world w ∧
        ReflTransGen (Setup env) ((m.withWorld w).begun now) t ∧ t.Made ∧
        t.layout = layoutOf m.streams)
      (fun _ t => ∃ w now u, WorldStep env m.world w ∧
        ReflTransGen (Setup env) ((m.withWorld w).begun now) u ∧ SetupBroken env u t) m := by
  unfold initBody
  rw [ends_bind, ends_askWorld, ends_bind, ends_alter, ends_bind]
  have hw : WorldStep env m.world (env.monotime m.world).2 := .monotime
  generalize hm₀ : (m.withWorld (env.monotime m.world).2).begun (env.monotime m.world).1 = m₀
  have hst₀ : m₀.streams = m.streams := by rw [← hm₀]; rfl
  have hmade₀ : m₀.streamstates.isSome = true := by rw [← hm₀]; rfl
  have hlay₀ : m₀.layout = [] := by rw [← hm₀]; rfl
  refine Ends.mono (openDescriptors_follows m₀) (fun _ m₁ hp₁ => ?_) ?_
  · rw [ends_bind]
    refine Ends.mono (resetAll_follows m₁) (fun _ m₂ hp₂ => ?_) ?_
    · have hp : ReflTransGen (Opening env) m₀ m₂ := hp₁.trans (opening_of_moves hp₂)
      obtain ⟨hst, hmade, hlay⟩ := openings_frame hp
      rw [ends_bind, ends_look, id_look]
      refine (createStreams_ends (hmade.trans hmade₀)).mono ?_ ?_
      · rintro _ m₃ ⟨hp₃, hmade₃, hlay₃⟩
        refine ⟨_, _, hw, hm₀ ▸ (setup_of_opening hp).trans hp₃, hmade₃, ?_⟩
        rw [hlay₃, hlay, hlay₀, hst, hst₀]
        rfl
      · rintro _ t ⟨u, hu, hb⟩
        exact ⟨_, _, u, hw, hm₀ ▸ (setup_of_opening hp).trans hu, hb⟩
    · rintro _ t ⟨u, hu, rfl⟩
      exact ⟨_, _, u, hw, hm₀ ▸ setup_of_opening (hp₁.trans (opening_of_moves hu)), .here⟩
  · rintro _ t ⟨u, hu, rfl⟩
    exact ⟨_, _, u, hw, hm₀ ▸ setup_of_opening hu, .here⟩

/-! ## Sessions -/

variable (env) in
/-- The state in which a session has begun: nothing is open, and no entry
is there. -/
def Begun (m₀ m : Machine σ) : Prop :=
  ∃ w now, WorldStep env m₀.world w ∧ m = (Machine.withWorld { m₀ with mutex := true } w).begun now

section Begun

variable {m₀ b : Machine σ} (h : Begun env m₀ b)
include h

theorem Begun.entryAt (i : ℕ) : b.entryAt i = none := by
  obtain ⟨w, now, -, rfl⟩ := h
  simp [FtdiStreamState.entryAt, FtdiStreamState.entries, Machine.begun]

theorem Begun.trace : ∃ now, b.trace = m₀.trace ++ [⟨true, .began now⟩] := by
  obtain ⟨w, now, -, rfl⟩ := h
  exact ⟨now, rfl⟩

theorem Begun.streams : b.streams = m₀.streams := by
  obtain ⟨w, now, -, rfl⟩ := h
  rfl

theorem Begun.readPacketsize : b.readPacketsize = m₀.readPacketsize := by
  obtain ⟨w, now, -, rfl⟩ := h
  rfl

end Begun

variable (env) in
/-- **A session that is set up**, for the configuration it was asked
for. -/
structure SetUp (m₀ m : Machine σ) : Prop where
  path : ∃ b, Begun env m₀ b ∧ ReflTransGen (Setup env) b m
  layout : m.layout = layoutOf m₀.streams
  made : m.Made

theorem SetUp.andOpening {m₀ : Machine σ} (h : SetUp env m₀ m) (ho : Opening env m m') :
    SetUp env m₀ m' := by
  obtain ⟨⟨b, hb, hp⟩, hl, hm⟩ := h
  obtain ⟨-, -, -, h₁, h₂⟩ := ho.frame
  exact ⟨⟨b, hb, hp.tail (.opening ho)⟩, h₂.trans hl, h₁.trans hm⟩

/-- What a failed start adds to the record. -/
def Obs.ending : Obs → Prop
  | .closed _ => True
  | .destroyed _ _ => True
  | .pushed _ => True
  | _ => False

/-- A clean-up is the end of a session. -/
theorem Cleaned.ending (h : Cleaned m m') : Grows (·.what.ending) m.trace m'.trace := by
  obtain ⟨run, t, ht, hm⟩ := h.trace
  rw [hm]
  refine (ht.mono fun o ho => ?_).trans ⟨_, rfl, fun o ho => ?_⟩
  · obtain ⟨run, o⟩ := o
    cases o <;> first | exact ho.elim | trivial
  · unfold Machine.freed at ho
    split at ho
    · exact absurd ho List.not_mem_nil
    · rw [List.mem_singleton.mp ho]
      trivial

variable (env) in
/-- **A start that has failed**: its set-up was interrupted, and what was
there is cleaned up. -/
def Aborted (m₀ m : Machine σ) : Prop :=
  ∃ b u v, Begun env m₀ b ∧ ReflTransGen (Setup env) b u ∧ SetupBroken env u v ∧
    Grows (·.what.ending) v.trace m.trace

theorem Aborted.andGrows {m₀ : Machine σ} (h : Aborted env m₀ m)
    (hg : Grows (·.what.ending) m.trace m'.trace) : Aborted env m₀ m' := by
  obtain ⟨b, u, v, hb, hu, hv, ht⟩ := h
  exact ⟨b, u, v, hb, hu, hv, ht.trans hg⟩

theorem SetUp.aborted {m₀ : Machine σ} (h : SetUp env m₀ m) : Aborted env m₀ m := by
  obtain ⟨⟨b, hb, hp⟩, -, -⟩ := h
  exact ⟨b, m, m, hb, hp, .here, .refl⟩

theorem startFailed_ends {m₀ : Machine σ} {clear : Machine σ → Machine σ} {cause : Exn}
    {Q : Unit → Machine σ → Prop} (hclear : ∀ m, (clear m).trace = m.trace)
    (h : Aborted env m₀ m) : Ends (startFailed clear cause) Q (fun _ t => Aborted env m₀ t) m := by
  unfold startFailed
  rw [ends_bind]
  refine (processCleanup_ends m).mono (fun _ t ht => ?_) fun _ _ hf => hf.elim
  refine h.andGrows ?_
  rw [hclear]
  exact ht.ending

theorem processInit_ends {m₀ : Machine σ} (hm : m₀.streamstates = none) :
    Ends (processInit env) (fun _ t => SetUp env m₀ t) (fun _ t => Aborted env m₀ t)
      { m₀ with mutex := true } := by
  unfold processInit
  rw [ends_bind, ends_look, id_look, if_neg (by simp [hm]), ends_rescue]
  refine (initBody_ends _).mono ?_ ?_
  · rintro _ t ⟨w, now, hw, hp, hmade, hl⟩
    exact ⟨⟨_, ⟨w, now, hw, rfl⟩, hp⟩, hl, hmade⟩
  · rintro cause t ⟨w, now, u, hw, hp, hb⟩
    rw [ends_bind]
    refine (processCleanup_ends t).mono (fun _ v hv => ?_) fun _ _ hf => hf.elim
    rw [ends_bind, ends_error]
    refine ⟨_, u, t, ⟨w, now, hw, rfl⟩, hp, hb, hv.ending.trans ?_⟩
    exact (errored_trace env v _).mono fun o ho => by rw [ho]; trivial

theorem startPoll_ends {m₀ : Machine σ} (h : Idle m₀) :
    Ends (startPoll env) (fun _ t => SetUp env m₀ t) (fun _ t => Aborted env m₀ t) m₀ := by
  unfold startPoll withMutex
  rw [ends_bind, ends_alter, ends_leaving, ends_bind, ends_look, id_look]
  simp only [h.isStartedThr, h.isStartedPoll, Bool.false_eq_true, if_false]
  rw [ends_rescue]
  unfold setUpPoll
  rw [ends_bind]
  refine (processInit_ends h.streamstates).mono (fun _ t ht => ?_) fun cause t ht => ?_
  · have h₁ := ht.andOpening (.flagged t.notifiers t.mutex t.isStartedThr t.isStartedPoll
      t.threadAlive .running (.inr (by decide)))
    have h₂ := h₁.andOpening (.flagged t.notifiers t.mutex t.isStartedThr true t.threadAlive
      .running (.inl rfl))
    exact h₂.andOpening (.flagged t.notifiers false t.isStartedThr true t.threadAlive .running
      (.inl rfl))
  · refine Ends.mono (startFailed_ends (Q := fun _ _ => False) ?_ ht) (fun _ _ hf => hf.elim)
      fun _ _ ha => ha
    exact fun _ => rfl

theorem launchThread_ends {m₀ : Machine σ} (h : SetUp env m₀ m) :
    Ends (launchThread env) (fun _ t => SetUp env m₀ t) (fun _ t => SetUp env m₀ t) m := by
  unfold launchThread
  rw [ends_bind]
  have h₁ := h.andOpening (.flagged m.notifiers m.mutex m.isStartedThr m.isStartedPoll
    m.threadAlive .threadFailed (.inr (by decide)))
  have h₂ := h₁.andOpening (.world .threadStart)
  show Ends (_ >>= _) _ _ _
  rw [ends_bind, ends_askWorld, ends_ite]
  refine ⟨fun _ => h₂, fun _ => ?_⟩
  rw [ends_bind]
  have h₃ := h₂.andOpening (.flagged m.notifiers m.mutex true m.isStartedPoll m.threadAlive
    .threadFailed (.inl rfl))
  have h₄ := h₃.andOpening (.flagged m.notifiers m.mutex true m.isStartedPoll true
    .threadFailed (.inl rfl))
  show Ends (beginThread env) _ _ _
  unfold beginThread
  rw [ends_bind, ends_alter, ends_bind, ends_look, id_look, if_neg]
  · exact h₄
  · have hmade : m.streamstates.isSome = true := h.made
    simpa [Machine.withWorld] using Option.isSome_iff_ne_none.mp hmade

theorem startThread_ends {m₀ : Machine σ} (h : Idle m₀) :
    Ends (startThread env) (fun _ t => SetUp env m₀ t) (fun _ t => Aborted env m₀ t) m₀ := by
  unfold startThread withMutex
  rw [ends_bind, ends_alter, ends_leaving, ends_bind, ends_look, id_look]
  simp only [h.isStartedThr, h.isStartedPoll, Bool.false_eq_true, if_false]
  rw [ends_rescue]
  have hfail : ∀ (cause : Exn) (t : Machine σ), Aborted env m₀ t →
      Ends (startFailed (fun m => { m with isStartedThr := false }) cause)
        (fun _ u => SetUp env m₀ { u with mutex := false })
        (fun _ u => Aborted env m₀ { u with mutex := false }) t := by
    intro cause t ht
    refine Ends.mono (startFailed_ends (Q := fun _ _ => False) ?_ ht) (fun _ _ hf => hf.elim)
      fun _ _ ha => ha
    exact fun _ => rfl
  unfold setUpThread
  rw [ends_bind]
  refine (processInit_ends h.streamstates).mono (fun _ t ht => ?_) fun cause t ht =>
    hfail cause t ht
  refine (launchThread_ends ht).mono (fun _ u hu => ?_) fun cause u hu => hfail cause u hu.aborted
  exact hu.andOpening (.flagged u.notifiers false u.isStartedThr u.isStartedPoll u.threadAlive
    u.lastExit (.inl rfl))

/-- A start, whichever way it goes. -/
theorem start_ends {m₀ : Machine σ} (h : Idle m₀) (mode : Mode) :
    Ends (start env mode) (fun _ t => SetUp env m₀ t) (fun _ t => Aborted env m₀ t) m₀ := by
  cases mode with
  | poll => exact startPoll_ends h
  | thread => exact startThread_ends h

variable (env) in
/-- **A state the engine passes through**, once its session is set up: at
the end of a step, of a callback, or in between. -/
def Reached (m₀ m : Machine σ) : Prop :=
  ∃ m₁, SetUp env m₀ m₁ ∧ ReflTransGen (Step env) m₁ m

/-- **A session is a path**: its set-up, from a state in which nothing is
there yet, and then the steps of its engine. -/
theorem Session.path {m₀ : Machine σ} {mode : Mode} {actions : List Action}
    (h : Session env m₀ mode actions m) : Reached env m₀ m := by
  obtain ⟨hidle, m₁, hstart, hrun⟩ := h
  have hset := ends_ret_of (Q := fun _ t => SetUp env m₀ t) (start_ends hidle mode) hstart
  exact ⟨m₁, hset, engineRun_steps hrun⟩

/-- **What begins true and every step keeps is true of every state the
engine passes through.** -/
theorem Reached.inv {m₀ : Machine σ} {I : Machine σ → Prop} (h : Reached env m₀ m)
    (hbegun : ∀ b, Begun env m₀ b → I b) (hsetup : ∀ s t, Setup env s t → I s → I t)
    (hstep : ∀ s t, Step env s t → I s → I t) : I m := by
  obtain ⟨m₁, ⟨⟨b, hb, hp⟩, -, -⟩, hp'⟩ := h
  exact inv_of_path hstep hp' (inv_of_path hsetup hp (hbegun b hb))

/-- And so of every session. -/
theorem Session.inv {m₀ : Machine σ} {mode : Mode} {actions : List Action} {I : Machine σ → Prop}
    (h : Session env m₀ mode actions m) (hbegun : ∀ b, Begun env m₀ b → I b)
    (hsetup : ∀ s t, Setup env s t → I s → I t) (hstep : ∀ s t, Step env s t → I s → I t) :
    I m := h.path.inv hbegun hsetup hstep

theorem Created.stays {s t : ℕ} {stream : FtdiStreamEntry} {isReading : Bool}
    (h : Created env s t stream isReading m m') (hr : m'.shouldRun = true) :
    m.shouldRun = true := by
  cases h with
  | mk _ _ _ hready hsub => exact hready.stays (hsub.shouldRun ▸ hr)

theorem Setup.stays (h : Setup env m m') (hr : m'.shouldRun = true) : m.shouldRun = true := by
  cases h with
  | opening ho =>
      cases ho with
      | move hm => exact hm.kept.stays hr
      | watched _ hw => exact hw.stays hr
      | _ => exact hr
  | created hc => exact hc.stays hr

/-! ## What an entry is configured to -/

variable (env) in
/-- **An entry is what its stream asks for**, in a session of these streams
and this packet size. -/
structure Configured (streams : List FtdiStreamEntry) (p : UInt32) (e : FtdiStreamStaticState) :
    Prop where
  stream : ∃ stream, streams[e.streamId]? = some stream ∧
    e.isModemStatus = stream.readIncludeModemStatus ∧
    (e.isReading = true → e.bufferSize = narrow (p.toUInt64 * stream.readPacketsPerTransfer))
  given : Given env e.isReading e.streamId e.eventfd
  hasBuffer : e.transfer.buffer.isSome = true

theorem Configured.same {streams : List FtdiStreamEntry} {p : UInt32}
    {e e' : FtdiStreamStaticState} (h : Configured env streams p e) (hs : Same e e') :
    Configured env streams p e' := by
  obtain ⟨⟨stream, h₁, h₂, h₃⟩, hg, hb⟩ := h
  refine ⟨⟨stream, ?_, ?_, fun hr => ?_⟩, ?_, hs.hasBuffer.trans hb⟩
  · rw [hs.streamId, h₁]
  · rw [hs.isModemStatus, h₂]
  · rw [hs.bufferSize, h₃ (hs.isReading ▸ hr)]
  · rw [hs.isReading, hs.streamId, hs.eventfd]
    exact hg

/-- A new entry is configured as its stream asks for. -/
theorem configured_fresh (t : ℕ) {s : ℕ} {stream : FtdiStreamEntry} {isReading : Bool} {fd : ℤ}
    (hs : m.streams[s]? = some stream) (hg : Given env isReading s fd) :
    Configured env m.streams m.readPacketsize
      (FtdiStreamStaticState.fresh m.toFtdiStreamState stream s t isReading fd) := by
  unfold FtdiStreamStaticState.fresh FtdiStreamStaticState.fill
  split
  · exact ⟨⟨stream, hs, rfl, fun _ => rfl⟩, hg, rfl⟩
  · next hr => exact ⟨⟨stream, hs, rfl, fun h => absurd h hr⟩, hg, rfl⟩

variable (env) in
/-- **The configuration of a session**, which nothing changes. -/
structure Configuration (ss : List FtdiStreamEntry) (p : UInt32) (m : Machine σ) : Prop where
  streams : m.streams = ss
  readPacketsize : m.readPacketsize = p
  entries : ∀ i e, m.entryAt i = some e → Configured env ss p e

section Configuration

variable {streams : List FtdiStreamEntry} {p : UInt32}

theorem Configuration.lives (h : Configuration env streams p m) (hl : AllLive m m')
    (hs : m'.streams = m.streams) (hp : m'.readPacketsize = m.readPacketsize) :
    Configuration env streams p m' := by
  refine ⟨hs.trans h.streams, hp.trans h.readPacketsize, fun i e' he' => ?_⟩
  obtain ⟨e, he, hlv⟩ := hl.back he'
  exact (h.entries i e he).same hlv.same

theorem Step.configuration (hst : Step env m m') (h : Configuration env streams p m) :
    Configuration env streams p m' :=
  h.lives hst.lives hst.fixed.streams hst.fixed.readPacketsize

theorem Watched.readPacketsize {sock : ℤ} (h : Watched env sock m m') :
    m'.readPacketsize = m.readPacketsize := by
  cases h with
  | added w _ => rfl
  | failed w cause _ => exact (Kept.errored (m := m.withWorld w) _).readPacketsize

theorem Created.readPacketsize {s t : ℕ} {stream : FtdiStreamEntry} {isReading : Bool}
    (h : Created env s t stream isReading m m') : m'.readPacketsize = m.readPacketsize := by
  cases h with
  | mk _ _ _ hr hsub =>
      rw [hsub.kept_frame.readPacketsize]
      cases hr with
      | reading _ _ _ => rfl
      | writing _ _ _ hw => exact hw.readPacketsize

theorem Setup.configuration (hst : Setup env m m') (h : Configuration env streams p m) :
    Configuration env streams p m' := by
  cases hst with
  | opening ho =>
      cases ho with
      | move hm => exact h.lives hm.lives hm.kept.streams hm.kept.readPacketsize
      | watched _ hw =>
          refine ⟨hw.streams.trans h.streams, hw.readPacketsize.trans h.readPacketsize, ?_⟩
          exact fun i e he => h.entries i e (hw.entryAt i ▸ he)
      | _ => exact ⟨h.streams, h.readPacketsize, h.entries⟩
  | @created s t stream isReading _ hc =>
      refine ⟨hc.streams.trans h.streams, hc.readPacketsize.trans h.readPacketsize, ?_⟩
      have hstream := hc.stream
      obtain ⟨hothers, fd, e₀, e', hg, he₀, he', hs, -⟩ := hc.entries
      intro j e he
      by_cases hj : m.entries.length = j
      · rw [← hj, he', Option.some_inj] at he
        have hf := configured_fresh t hstream hg
        rw [← he₀, h.streams, h.readPacketsize] at hf
        exact he ▸ hf.same hs
      · have hrel := hothers j hj
        rw [he] at hrel
        generalize ho : m.entryAt j = x at hrel
        cases hrel with
        | some ha => exact (h.entries j _ ho).same ha.toAlike.same

theorem Begun.configuration {m₀ b : Machine σ} (h : Begun env m₀ b) :
    Configuration env m₀.streams m₀.readPacketsize b := by
  refine ⟨h.streams, h.readPacketsize, fun i e he => ?_⟩
  rw [h.entryAt] at he
  cases he

/-- **Every state of a session is as it was configured.** -/
theorem Reached.configuration {m₀ : Machine σ} (h : Reached env m₀ m) :
    Configuration env m₀.streams m₀.readPacketsize m :=
  h.inv (fun _ hb => hb.configuration) (fun _ _ hst => hst.configuration)
    fun _ _ hst => hst.configuration

end Configuration

/-! ## The record of a set-up -/

theorem Watched.routine {sock : ℤ} (h : Watched env sock m m') (b : Bool) :
    Grows (·.what.routine b) m.trace m'.trace := by
  cases h with
  | added w _ => exact .refl
  | failed w cause _ => exact errored_routine (m.withWorld w) _ b

theorem Ready.routine {stream : FtdiStreamEntry} (h : Ready env i stream m m₁) (b : Bool) :
    Grows (·.what.routine b) m.trace m₁.trace := by
  cases h with
  | reading _ _ _ => exact .refl
  | writing _ _ _ hw => exact hw.routine b

/-- What a new entry is when it is ready. -/
theorem Ready.fresh {s t : ℕ} {stream : FtdiStreamEntry} {isReading : Bool} {fd : ℤ}
    (hm : m.Made) (h : Ready env m.entries.length stream
      (m.emplaced (newEntry s t isReading stream.readIncludeModemStatus fd)) m₁) :
    ∃ e₀, e₀ = FtdiStreamStaticState.fresh m.toFtdiStreamState stream s t isReading fd ∧
      m₁.entryAt m.entries.length = some e₀ ∧ e₀.transfer.inFlight = false := by
  refine ⟨_, rfl, ?_, ?_⟩
  · rw [h.entryAt, if_pos rfl, emplaced_entryAt hm]
    rfl
  · unfold FtdiStreamStaticState.fresh FtdiStreamStaticState.fill
    split <;> rfl

/-- A new entry is offered when it is idle. -/
theorem Created.routine {s t : ℕ} {stream : FtdiStreamEntry} {isReading : Bool}
    (h : Created env s t stream isReading m m') :
    Grows (·.what.routine false) m.trace m'.trace := by
  cases h with
  | mk _ hm _ hr hsub =>
      obtain ⟨e₀, -, he₀, hidle⟩ := hr.fresh hm
      exact (hr.routine false).trans ((hsub.routine he₀).mono fun _ ho => hidle ▸ ho)

theorem SetupBroken.routine (h : SetupBroken env m m') :
    Grows (·.what.routine false) m.trace m'.trace := by
  cases h with
  | here => exact .refl
  | unallocated _ _ => exact .refl
  | created hm hr hw =>
      obtain ⟨e₀, -, he₀, hidle⟩ := hr.fresh hm
      exact (hr.routine false).trans ((hw.routine he₀).mono fun _ ho => hidle ▸ ho)

end Stream

end SgFtdi
