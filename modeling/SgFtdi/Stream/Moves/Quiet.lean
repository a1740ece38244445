import SgFtdi.Common.Record
import SgFtdi.Stream.Model.Session

/-!
# Stream — what user code can do to the engine

A callback, another thread and a library the engine calls change the
world, and may make requests; nothing else of the engine is theirs to
touch. `UserStep` is one such change and `Quiet` any number of them.
`Quiet.frame` is the frame rule: a quiet stretch moves the request lists,
the notice counter, the world and the record of what was asked, and
nothing else.
-/

namespace SgFtdi

namespace Stream

open Prog Relation

variable {σ : Type} (env : Env σ)

/-! ## The state, by its fields -/

@[simp] theorem id_look {α : Type} (a : α) : id a = a := rfl

theorem entryAt_modifyEntry (m : Machine σ) (i j : ℕ)
    (f : FtdiStreamStaticState → FtdiStreamStaticState) :
    (m.modifyEntry i f).entryAt j = if i = j then (m.entryAt j).map f else m.entryAt j := by
  unfold FtdiStreamState.entryAt FtdiStreamState.entries Machine.modifyEntry
  cases m.streamstates with
  | none => simp
  | some es =>
      simp only [Option.map_some, Option.getD_some, List.getElem?_modify]
      by_cases hij : i = j
      · simp [hij]
      · simp [hij]

@[simp] theorem entryAt_modifyEntry_self (m : Machine σ) (i : ℕ)
    (f : FtdiStreamStaticState → FtdiStreamStaticState) :
    (m.modifyEntry i f).entryAt i = (m.entryAt i).map f := by
  rw [entryAt_modifyEntry, if_pos rfl]

theorem entryAt_modifyEntry_ne (m : Machine σ) {i j : ℕ} (h : i ≠ j)
    (f : FtdiStreamStaticState → FtdiStreamStaticState) :
    (m.modifyEntry i f).entryAt j = m.entryAt j := by
  rw [entryAt_modifyEntry, if_neg h]

/-- Two writes to one entry are one. -/
@[simp] theorem modifyEntry_modifyEntry (m : Machine σ) (i : ℕ)
    (f g : FtdiStreamStaticState → FtdiStreamStaticState) :
    (m.modifyEntry i f).modifyEntry i g = m.modifyEntry i (g ∘ f) := by
  unfold Machine.modifyEntry
  simp only [Option.map_map]
  congr 3
  funext es
  simp [List.modify_modify_eq]

/-- A write that changes nothing of the entry changes nothing. -/
theorem modifyEntry_eq_self {m : Machine σ} {i : ℕ}
    {f : FtdiStreamStaticState → FtdiStreamStaticState}
    (h : ∀ e, m.entryAt i = some e → f e = e) : m.modifyEntry i f = m := by
  rcases m with ⟨⟨streams, fd, ss, _⟩, _⟩
  unfold Machine.modifyEntry
  cases ss with
  | none => rfl
  | some es =>
      simp only [Option.map_some, Machine.mk.injEq, FtdiStreamState.mk.injEq, Option.some.injEq,
        and_true, true_and]
      refine List.ext_getElem? fun j => ?_
      rw [List.getElem?_modify]
      by_cases hij : i = j
      · subst hij
        cases he : es[i]? with
        | none => simp
        | some e => simpa using h e he
      · simp [hij]

theorem modifyEntry_made (m : Machine σ) (i : ℕ) (f) :
    (m.modifyEntry i f).streamstates.isSome = m.streamstates.isSome := by
  simp [Machine.modifyEntry]

@[simp] theorem modifyEntry_shouldRun (m : Machine σ) (i : ℕ) (f) :
    (m.modifyEntry i f).shouldRun = m.shouldRun := rfl

@[simp] theorem modifyEntry_trace (m : Machine σ) (i : ℕ) (f) :
    (m.modifyEntry i f).trace = m.trace := rfl

@[simp] theorem modifyEntry_world (m : Machine σ) (i : ℕ) (f) :
    (m.modifyEntry i f).world = m.world := rfl

@[simp] theorem modifyEntry_readPacketsize (m : Machine σ) (i : ℕ) (f) :
    (m.modifyEntry i f).readPacketsize = m.readPacketsize := rfl

@[simp] theorem note_shouldRun (m : Machine σ) (o : Obs) : (m.note o).shouldRun = m.shouldRun := rfl

@[simp] theorem note_streamstates (m : Machine σ) (o : Obs) :
    (m.note o).streamstates = m.streamstates := rfl

@[simp] theorem note_entryAt (m : Machine σ) (o : Obs) (i : ℕ) :
    (m.note o).entryAt i = m.entryAt i := rfl

@[simp] theorem note_trace (m : Machine σ) (o : Obs) :
    (m.note o).trace = m.trace ++ [⟨m.shouldRun, o⟩] := rfl

@[simp] theorem note_world (m : Machine σ) (o : Obs) : (m.note o).world = m.world := rfl

@[simp] theorem note_readPacketsize (m : Machine σ) (o : Obs) :
    (m.note o).readPacketsize = m.readPacketsize := rfl

@[simp] theorem withWorld_shouldRun (m : Machine σ) (w : σ) :
    (m.withWorld w).shouldRun = m.shouldRun := rfl

@[simp] theorem withWorld_entryAt (m : Machine σ) (w : σ) (i : ℕ) :
    (m.withWorld w).entryAt i = m.entryAt i := rfl

@[simp] theorem withWorld_trace (m : Machine σ) (w : σ) : (m.withWorld w).trace = m.trace := rfl

@[simp] theorem withWorld_world (m : Machine σ) (w : σ) : (m.withWorld w).world = w := rfl

@[simp] theorem withWorld_readPacketsize (m : Machine σ) (w : σ) :
    (m.withWorld w).readPacketsize = m.readPacketsize := rfl

/-! ## What the world does -/

/-- **The world answers a call** that tells the user nothing. -/
inductive WorldStep (w : σ) : σ → Prop
  | callback (isReading : Bool) (streamId : ℕ) (type : CallbackType) (buffer : List UInt8)
      (len : ℤ) : type ≠ .writeConfirmTransfer ∧ type ≠ .readBuffer →
      WorldStep w (env.callback isReading streamId type buffer len w).2
  | resetCallback (streamId : ℕ) : WorldStep w (env.resetCallback streamId w).2
  | ftdiSetBitmode (streamId : ℕ) : WorldStep w (env.ftdiSetBitmode streamId w).2
  | ftdiTcioflush (streamId : ℕ) : WorldStep w (env.ftdiTcioflush streamId w).2
  | submitTransfer (i : ℕ) : WorldStep w (env.submitTransfer i w).2
  | allocTransfer : WorldStep w (env.allocTransfer w).2
  | malloc (bytes : ℤ) : WorldStep w (env.malloc bytes w).2
  | epollCreate : WorldStep w (env.epollCreate w).2
  | timerfdCreate : WorldStep w (env.timerfdCreate w).2
  | timerfdSettime : WorldStep w (env.timerfdSettime w).2
  | getPollfds : WorldStep w (env.getPollfds w).2
  | addToEpoll (sock epollFd : ℤ) : WorldStep w (env.addToEpoll sock epollFd w).2
  | removeFromEpoll (sock epollFd : ℤ) : WorldStep w (env.removeFromEpoll sock epollFd w).2
  | monotime : WorldStep w (env.monotime w).2
  | pushError (message : Message) : WorldStep w (env.pushError message w).2
  | threadStart : WorldStep w (env.threadStart w).2
  | user (k : ℕ) : WorldStep w (env.user k w)

/-- The world answers a call, other than to confirm a transfer. -/
inductive WorldMove (w : σ) : σ → Prop
  | aside {w' : σ} : WorldStep env w w' → WorldMove w w'
  | readBuffer (streamId : ℕ) (bytes : List UInt8) :
      WorldMove w ((Telling.readBuffer streamId bytes).call env w).2
  | counters (streamId : ℕ) (isReading : Bool) (transferId : ℕ) (callbacks bytes : UInt64) :
      WorldMove w ((Telling.counters streamId isReading transferId callbacks bytes).call env w).2

/-- The user has been told something. -/
def Machine.told (m : Machine σ) (t : Telling) : Machine σ :=
  (m.note t.obs).withWorld (t.call env m.world).2

@[simp] theorem told_entryAt (m : Machine σ) (t : Telling) (i : ℕ) :
    (m.told env t).entryAt i = m.entryAt i := rfl

@[simp] theorem told_trace (m : Machine σ) (t : Telling) :
    (m.told env t).trace = m.trace ++ [⟨m.shouldRun, t.obs⟩] := rfl

@[simp] theorem told_shouldRun (m : Machine σ) (t : Telling) :
    (m.told env t).shouldRun = m.shouldRun := rfl

/-- What a request of a stream may queue: a descriptor the stream's
callback gave for its reads, or the stream itself. -/
def Names (streamId : ℕ) : Queued → Prop
  | .enable fd => ∃ w b, (env.callback true streamId .readGetFd [] 0 w).1.result = .ok (fd, b)
  | .disable fd => ∃ w b, (env.callback true streamId .readGetFd [] 0 w).1.result = .ok (fd, b)
  | .reset s => s = streamId

/-- The state in which a request is on the lists, and no notice of it is
written yet. -/
def Machine.accepted (m : Machine σ) (s : ℕ) (q : Queued) : Machine σ :=
  (m.queue q).note (.asked s q)

/-- **One thing user code does**: the world changes, a request is made, or
a notice is written. -/
inductive UserStep (m : Machine σ) : Machine σ → Prop
  | world {w : σ} : WorldStep env m.world w → UserStep m (m.withWorld w)
  | requested {s : ℕ} {q : Queued} : m.taking = true → m.listMutex = false → Names env s q →
      UserStep m (m.accepted s q).notified
  | notified : UserStep m m.notified

/-- User code at work. -/
def Quiet : Machine σ → Machine σ → Prop := ReflTransGen (UserStep env)

variable {env} {m m' m₁ m₂ : Machine σ}

theorem Quiet.refl : Quiet env m m := ReflTransGen.refl

theorem Quiet.trans (h : Quiet env m m₁) (h' : Quiet env m₁ m₂) : Quiet env m m₂ :=
  ReflTransGen.trans h h'

theorem Quiet.single (h : UserStep env m m') : Quiet env m m' := ReflTransGen.single h

theorem Quiet.world {w : σ} (h : WorldStep env m.world w) : Quiet env m (m.withWorld w) :=
  Quiet.single (.world h)

/-! ## The request lists -/

/-- What is on the three request lists. -/
@[ext]
structure Lists where
  enable : Unordered ℤ
  disable : Unordered ℤ
  reset : Unordered ℕ
deriving DecidableEq

/-- Nothing is on any of them. -/
def Lists.empty : Lists := ⟨.empty, .empty, .empty⟩

/-- The lists after a request. -/
def Lists.queue (l : Lists) : Queued → Lists
  | .enable fd => { l with disable := l.disable.erase fd, enable := l.enable.insert fd }
  | .disable fd => { l with enable := l.enable.erase fd, disable := l.disable.insert fd }
  | .reset s => { l with reset := l.reset.insert s }

/-- The lists as they stand. -/
def FtdiStreamState.lists (m : FtdiStreamState) : Lists :=
  ⟨m.listEnable, m.listDisable, m.listReset⟩

theorem queue_lists (m : Machine σ) (q : Queued) : (m.queue q).lists = m.lists.queue q := by
  cases q <;> rfl

/-- A request changes the lists, and the record. -/
theorem accepted_eq (m : Machine σ) (s : ℕ) (q : Queued) :
    m.accepted s q = { m with
      listEnable := (m.lists.queue q).enable
      listDisable := (m.lists.queue q).disable
      listReset := (m.lists.queue q).reset
      trace := m.trace ++ [⟨m.shouldRun, .asked s q⟩] } := by cases q <;> rfl

@[simp] theorem accepted_trace (m : Machine σ) (s : ℕ) (q : Queued) :
    (m.accepted s q).trace = m.trace ++ [⟨m.shouldRun, .asked s q⟩] := by rw [accepted_eq]

@[simp] theorem accepted_lists (m : Machine σ) (s : ℕ) (q : Queued) :
    (m.accepted s q).lists = m.lists.queue q := queue_lists m q

@[simp] theorem accepted_streamstates (m : Machine σ) (s : ℕ) (q : Queued) :
    (m.accepted s q).streamstates = m.streamstates := by rw [accepted_eq]

@[simp] theorem accepted_shouldRun (m : Machine σ) (s : ℕ) (q : Queued) :
    (m.accepted s q).shouldRun = m.shouldRun := by rw [accepted_eq]

@[simp] theorem accepted_lastExit (m : Machine σ) (s : ℕ) (q : Queued) :
    (m.accepted s q).lastExit = m.lastExit := by rw [accepted_eq]

theorem le_notified (m : Machine σ) : m.noticeCount ≤ m.notified.noticeCount := by
  unfold Machine.notified
  dsimp only
  split <;> omega

/-- A notice that is written can be read. -/
theorem notified_pos (m : Machine σ) : 0 < m.notified.noticeCount := by
  unfold Machine.notified noticeMax
  dsimp only
  split <;> omega

/-- The lists after one more observation: a request goes on them, and a
drain takes all there is. -/
def enlist (l : Lists) (o : Seen) : Lists :=
  match o.what with
  | .asked _ q => l.queue q
  | .drained _ _ _ => .empty
  | _ => l

/-- What is observed outside of a drain: a request only where `list_mutex`
is free. -/
def Obs.files (locked : Bool) : Obs → Prop
  | .asked _ _ => locked = false
  | .drained _ _ _ => False
  | _ => True

/-- An observation that has nothing to do with the lists. -/
def Obs.unlisted : Obs → Prop
  | .asked _ _ => False
  | .drained _ _ _ => False
  | _ => True

theorem Obs.unlisted.files {o : Obs} (h : o.unlisted) (locked : Bool) : o.files locked := by
  cases o <;> first | exact h.elim | trivial

theorem Obs.unlisted.enlist {o : Seen} (h : o.what.unlisted) (l : Lists) :
    Stream.enlist l o = l := by
  obtain ⟨run, o⟩ := o
  cases o <;> first | exact h.elim | rfl

/-- What is observed while `list_mutex` is held leaves the lists alone. -/
theorem lists_of_locked {t t' : List Seen} {l l' : Lists}
    (h : Reads enlist (·.what.files true) t t' l l') : l' = l := by
  obtain ⟨seg, -, hseg, hl⟩ := h
  have hstill : ∀ o ∈ seg, o.what.unlisted := fun o ho => by
    have hf := hseg o ho
    obtain ⟨run, o⟩ := o
    cases o <;> first | exact hf | cases hf
  have hnone : Reads enlist (fun _ => True) t (t ++ seg) l l :=
    .of_grows ⟨seg, rfl, hstill⟩ (fun _ _ => trivial) fun _ ho => ho.enlist
  obtain ⟨seg', heq, -, hl'⟩ := hnone
  rw [← hl, List.append_cancel_left heq, hl']

/-- **Requests are filed**: what is on the lists comes from requests on the
record, made while `list_mutex` was free, and a notice follows them. -/
structure Filed (m m' : Machine σ) : Prop where
  lists : Reads enlist (·.what.files m.listMutex) m.trace m'.trace m.lists m'.lists
  count : m.noticeCount ≤ m'.noticeCount
  rung : m'.lists = m.lists ∨ 0 < m'.noticeCount

namespace Filed

theorem of_unlisted (hl : m'.lists = m.lists) (ht : Grows (·.what.unlisted) m.trace m'.trace)
    (hc : m.noticeCount ≤ m'.noticeCount) : Filed m m' := by
  refine ⟨?_, hc, .inl hl⟩
  rw [hl]
  exact .of_grows ht (fun _ ho => ho.files _) fun _ ho => ho.enlist

theorem of_eq (hl : m'.lists = m.lists) (ht : m'.trace = m.trace)
    (hc : m'.noticeCount = m.noticeCount) : Filed m m' := of_unlisted hl (.of_eq ht) hc.ge

theorem refl : Filed m m := of_eq rfl rfl rfl

theorem note {o : Obs} (h : o.unlisted) : Filed m (m.note o) :=
  of_unlisted rfl (.one h) le_rfl

theorem trans (h : Filed m m₁) (hm : m₁.listMutex = m.listMutex) (h' : Filed m₁ m₂) :
    Filed m m₂ := by
  refine ⟨h.lists.trans (hm ▸ h'.lists), h.count.trans h'.count, ?_⟩
  rcases h'.rung with h₂ | h₂
  · rcases h.rung with h₁ | h₁
    · exact .inl (h₂.trans h₁)
    · exact .inr (h₁.trans_le h'.count)
  · exact .inr h₂

/-- **`list_mutex` guards the lists.** -/
theorem locked (h : Filed m m') (hm : m.listMutex = true) : m'.lists = m.lists :=
  lists_of_locked (hm ▸ h.lists)

end Filed

/-- An observation that a request was accepted. -/
def Obs.isAsked : Obs → Bool
  | .asked _ _ => true
  | _ => false

/-- **The frame of a quiet stretch**: all it may leave behind. -/
structure Frame (m m' : Machine σ) : Prop where
  eq : m' = { m with
    listEnable := m'.listEnable
    listDisable := m'.listDisable
    listReset := m'.listReset
    noticeCount := m'.noticeCount
    world := m'.world
    trace := m'.trace }
  trace : Grows (·.what.isAsked = true) m.trace m'.trace
  filed : Filed m m'

theorem Frame.refl : Frame m m := ⟨rfl, .refl, .refl⟩

theorem Frame.trans (h : Frame m m₁) (h' : Frame m₁ m₂) : Frame m m₂ :=
  ⟨by rw [h'.eq, h.eq], h.trace.trans h'.trace, h.filed.trans (by rw [h.eq]) h'.filed⟩

theorem UserStep.frame (h : UserStep env m m') : Frame m m' := by
  cases h with
  | world hw => exact ⟨rfl, .refl, .of_eq rfl rfl rfl⟩
  | @requested s q ht hl hn =>
      refine ⟨by rw [accepted_eq]; rfl, ?_, ?_, le_trans ?_ (le_notified _), .inr (notified_pos _)⟩
      · show Grows _ m.trace (m.accepted s q).trace
        rw [accepted_trace]
        exact .one rfl
      · show Reads _ _ m.trace (m.accepted s q).trace _ (m.accepted s q).lists
        rw [accepted_trace, accepted_lists]
        exact .one hl
      · rw [accepted_eq]
  | notified => exact ⟨rfl, .refl, .of_unlisted rfl .refl (le_notified m)⟩

/-- **The frame rule.** -/
theorem Quiet.frame (h : Quiet env m m') : Frame m m' := by
  induction h with
  | refl => exact Frame.refl
  | tail _ hs ih => exact ih.trans hs.frame

/-- The user at work is told nothing. -/
theorem UserStep.worlds (h : UserStep env m m') :
    ReflTransGen (WorldStep env) m.world m'.world := by
  cases h with
  | world hw => exact .single hw
  | @requested _ q _ _ _ => cases q <;> exact .refl
  | notified => exact .refl

theorem Quiet.worlds (h : Quiet env m m') : ReflTransGen (WorldStep env) m.world m'.world := by
  induction h with
  | refl => exact .refl
  | tail _ hs ih => exact ih.trans hs.worlds

namespace Frame

variable (h : Frame m m')
include h

theorem streamstates : m'.streamstates = m.streamstates := by rw [h.eq]

theorem shouldRun : m'.shouldRun = m.shouldRun := by rw [h.eq]

theorem streams : m'.streams = m.streams := by rw [h.eq]

theorem readPacketsize : m'.readPacketsize = m.readPacketsize := by rw [h.eq]

theorem entries : m'.entries = m.entries := by
  unfold FtdiStreamState.entries
  rw [h.streamstates]

theorem entryAt (i : ℕ) : m'.entryAt i = m.entryAt i := by
  unfold FtdiStreamState.entryAt
  rw [h.entries]

end Frame

/-! ## The programs that are quiet -/

/-- A program that only user code works in. -/
def IsQuiet {α : Type} (env : Env σ) (p : Run σ α) : Prop :=
  ∀ m, Ends p (fun _ m' => Quiet env m m') (fun _ m' => Quiet env m m') m

theorem IsQuiet.askWorld {α : Type} {f : σ → α × σ} (h : ∀ w, WorldStep env w (f w).2) :
    IsQuiet env (askWorld f) := fun m => Quiet.world (h m.world)

/-- The call that asks a stream for a descriptor, with what it may name. -/
theorem getFd_runs (s : ℕ) (m : Machine σ) :
    Runs (lockedCall (env.callback true s .readGetFd [] 0))
      (fun a m' => Quiet env m m' ∧ m'.taking = m.taking ∧ m'.listMutex = m.listMutex ∧
        ∃ w, (env.callback true s .readGetFd [] 0 w).1.result = .ok a)
      (fun _ m' => Quiet env m m') (fun m' => Quiet env m m') m := by
  have hw : WorldStep env m.world (env.callback true s .readGetFd [] 0 m.world).2 :=
    .callback true s .readGetFd [] 0 (by decide)
  unfold lockedCall askWorld
  rw [runs_bind, runs_ask, runs_ite]
  refine ⟨fun _ => Quiet.world hw, fun _ => ?_⟩
  cases hr : (env.callback true s .readGetFd [] 0 m.world).1.result with
  | ok a => exact ⟨Quiet.world hw, rfl, rfl, m.world, hr⟩
  | error e => exact Quiet.world hw

variable (env) in
/-- **How a request fares under the locks**: it is refused, or it is put on
the lists. -/
inductive Admitted (m : Machine σ) : Bool → Machine σ → Prop
  | refused {m' : Machine σ} : Quiet env m m' → Admitted m false m'
  | queued {s : ℕ} {q : Queued} {m₁ : Machine σ} : Quiet env m m₁ → m₁.taking = true →
      m₁.listMutex = false → Names env s q → Admitted m true (m₁.accepted s q)

theorem acceptReading_runs (s : ℕ) {what : ℤ → Queued}
    (h : what = .enable ∨ what = .disable) {m : Machine σ} (hm : m.listMutex = false) :
    Runs (acceptReading env s what) (fun b m' => Admitted env m b m') (fun _ m' => Quiet env m m')
      (fun m' => Quiet env m m') m := by
  unfold acceptReading
  rw [runs_bind, runs_look, id_look, runs_ite]
  refine ⟨fun _ => .refused .refl, fun ht => ?_⟩
  replace ht : m.taking = true := by simpa using ht
  cases m.streams[s]? with
  | none => exact Quiet.refl
  | some stream =>
      simp only [runs_ite]
      refine ⟨fun _ => Quiet.refl, fun _ => ?_⟩
      rw [runs_bind]
      refine (getFd_runs s m).mono ?_ (fun _ _ hq => hq) fun _ hq => hq
      rintro ⟨fd, b⟩ m' ⟨hq, htk, hlm, w, hw⟩
      simp only [runs_ite]
      refine ⟨fun _ => hq, fun _ => ?_⟩
      have hn : Names env s (what fd) := by
        rcases h with rfl | rfl
        · exact ⟨w, b, hw⟩
        · exact ⟨w, b, hw⟩
      exact Admitted.queued hq (htk.trans ht) (hlm.trans hm) hn

theorem acceptReset_runs (s : ℕ) {m : Machine σ} (hm : m.listMutex = false) :
    Runs (acceptReset s) (fun b m' => Admitted env m b m') (fun _ m' => Quiet env m m')
      (fun m' => Quiet env m m') m := by
  unfold acceptReset
  rw [runs_bind, runs_look, id_look, runs_ite]
  refine ⟨fun _ => .refused .refl, fun ht => ?_⟩
  replace ht : m.taking = true := by simpa using ht
  rw [runs_ite]
  exact ⟨fun _ => Quiet.refl, fun _ => Admitted.queued (q := .reset s) .refl ht hm rfl⟩

/-- A request can be accepted where `list_mutex` is free. -/
theorem accept_runs (r : Request) {m : Machine σ} (hm : m.listMutex = false) :
    Runs (accept env r) (fun b m' => Admitted env m b m') (fun _ m' => Quiet env m m')
      (fun m' => Quiet env m m') m := by
  cases r with
  | enable s => exact acceptReading_runs s (.inl rfl) hm
  | disable s => exact acceptReading_runs s (.inr rfl) hm
  | reset s => exact acceptReset_runs s hm

theorem accept_ends (r : Request) {m : Machine σ} (hm : m.listMutex = false) :
    Ends (accept env r) (fun b m' => Admitted env m b m') (fun _ m' => Quiet env m m') m :=
  (accept_runs r hm).ends

theorem request_runs (r : Request) {m : Machine σ} (hm : m.listMutex = false) :
    Runs (request env r) (fun _ m' => Quiet env m m') (fun _ m' => Quiet env m m')
      (fun m' => Quiet env m m') m := by
  unfold request
  rw [runs_bind]
  refine (accept_runs r hm).mono (fun accepted m' ha => ?_) (fun _ _ hq => hq) fun _ hq => hq
  cases ha with
  | refused hq => exact hq
  | queued hq ht hl hn => exact hq.trans (Quiet.single (.requested ht hl hn))

/-- **The requests of a callback**, also where one of them hangs. -/
theorem performRequests_runs (rs : List Request) (m : Machine σ) :
    Runs (performRequests env rs) (fun _ m' => Quiet env m m') (fun _ _ => False)
      (fun m' => Quiet env m m') m := by
  refine runs_each (I := fun t => Quiet env m t) .refl fun r t ht => ?_
  rw [runs_bind, runs_look, runs_ite]
  refine ⟨fun _ => ht, fun hl => ?_⟩
  have hfree : t.listMutex = false := by simp_all
  rw [runs_rescue]
  exact (request_runs r hfree).mono (fun _ _ hq => ht.trans hq) (fun _ _ hq => ht.trans hq)
    fun _ hq => ht.trans hq

/-- How user code comes back: quietly, with its own result. -/
theorem comeBack_ends {α : Type} (reply : Reply α) (m : Machine σ) :
    Ends (comeBack env reply) (fun a m' => Quiet env m m' ∧ reply.result = .ok a)
      (fun e m' => Quiet env m m' ∧ reply.result = .error e) m := by
  unfold comeBack
  rw [ends_bind]
  refine (performRequests_runs reply.requests m).ends.mono (fun _ m' hq => ?_)
    fun _ _ hf => hf.elim
  cases hr : reply.result with
  | ok a => exact ⟨hq, rfl⟩
  | error e => exact ⟨hq, rfl⟩

/-- **A call into user code** comes back quietly, from the world the call
left, with the result the world gave. -/
theorem userCall_ends {α : Type} (f : σ → Reply α × σ) (m : Machine σ) :
    Ends (userCall env f)
      (fun a m' => Quiet env (m.withWorld (f m.world).2) m' ∧ (f m.world).1.result = .ok a)
      (fun e m' => Quiet env (m.withWorld (f m.world).2) m' ∧ (f m.world).1.result = .error e)
      m := by
  unfold userCall askWorld
  rw [ends_bind, ends_ask]
  exact comeBack_ends _ _

/-! ## User code that does not come back -/

/-- **What user code cannot disturb**: it survives an answer of the world,
a request that is filed, and a notice. -/
structure Undisturbed (I : Machine σ → Prop) : Prop where
  withWorld : ∀ m w, I m → I (m.withWorld w)
  accepted : ∀ m s q, I m → I (m.accepted s q)
  notified : ∀ m, I m → I m.notified

namespace Undisturbed

variable {I : Machine σ → Prop} (h : Undisturbed I)

include h

theorem askWorld {α : Type} (f : σ → α × σ) : Stays I (askWorld f) :=
  Stays.ask fun m hm => h.withWorld m _ hm

theorem lockedCall {α : Type} (f : σ → Reply α × σ) : Stays I (lockedCall f) := by
  refine Stays.bind (h.askWorld f) fun reply => Stays.ite Stays.hang ?_
  cases reply.result with
  | ok a => exact Stays.pure
  | error e => exact Stays.raise

theorem file (s : ℕ) (q : Queued) : Stays I (do
    alter (·.queue q)
    observe (.asked s q)
    pure true : Run σ Bool) := fun m hm => h.accepted m s q hm

theorem accept (r : Request) : Stays I (accept env r) := by
  have hreading : ∀ (s : ℕ) (what : ℤ → Queued), Stays I (acceptReading env s what) := by
    intro s what
    refine Stays.bind Stays.look fun m => Stays.ite Stays.pure ?_
    cases m.streams[s]? with
    | none => exact Stays.raise
    | some stream =>
        refine Stays.ite Stays.raise (Stays.bind (h.lockedCall _) fun a => ?_)
        exact Stays.ite Stays.raise (h.file s _)
  cases r with
  | enable s => exact hreading s .enable
  | disable s => exact hreading s .disable
  | reset s =>
      refine Stays.bind Stays.look fun m => Stays.ite Stays.pure (Stays.ite Stays.raise ?_)
      exact h.file s _

theorem performRequests (rs : List Request) : Stays I (performRequests env rs) := by
  have hrequest : ∀ r, Stays I (request env r) := fun r =>
    Stays.bind (h.accept r) fun _ => Stays.ite (Stays.alter h.notified) Stays.pure
  exact Stays.each fun r _ => Stays.bind Stays.look fun m => Stays.ite Stays.hang
    (Stays.rescue (hrequest r) fun _ => Stays.pure)

/-- A call into user code, also one that does not come back. -/
theorem userCall {α : Type} (f : σ → Reply α × σ) : Stays I (userCall env f) := by
  refine Stays.bind (h.askWorld f) fun reply =>
    Stays.bind (h.performRequests reply.requests) fun _ => ?_
  cases reply.result with
  | ok a => exact Stays.pure
  | error e => exact Stays.raise

end Undisturbed

/-! ## Telling the user -/

variable (env) in
/-- **The user was told something and does not come back**: a request made
there hangs. -/
def StuckIn (t : Telling) (m m' : Machine σ) : Prop :=
  performRequests env (t.call env m.world).1.requests (m.told env t) = (.hang, m')

/-- **How the user takes what is told.** -/
theorem tell_runs (t : Telling) (m : Machine σ) :
    Runs (tell env t)
      (fun a m' => Quiet env (m.told env t) m' ∧ (t.call env m.world).1.result = .ok a)
      (fun e m' => Quiet env (m.told env t) m' ∧ (t.call env m.world).1.result = .error e)
      (StuckIn env t m) m := by
  unfold tell observe userCall askWorld comeBack
  rw [runs_bind, runs_alter, runs_bind, runs_ask, runs_bind]
  refine (performRequests_runs _ (m.told env t)).ends.runs_self.mono (fun _ m' hq => ?_)
    (fun _ _ hf => hf.elim) fun _ h => h
  simp only [note_world]
  cases (t.call env m.world).1.result with
  | ok a => exact ⟨hq, rfl⟩
  | error e => exact ⟨hq, rfl⟩

theorem tell_ends (t : Telling) (m : Machine σ) :
    Ends (tell env t)
      (fun a m' => Quiet env (m.told env t) m' ∧ (t.call env m.world).1.result = .ok a)
      (fun e m' => Quiet env (m.told env t) m' ∧ (t.call env m.world).1.result = .error e) m :=
  (tell_runs t m).ends

/-- A user who is stuck has filed requests, perhaps, and done no more. -/
theorem StuckIn.quiet {t : Telling} (h : StuckIn env t m m') : Quiet env (m.told env t) m' := by
  have hruns : Runs (performRequests env _) _ _ _ (m.told env t) :=
    performRequests_runs (t.call env m.world).1.requests _
  unfold Runs at hruns
  rwa [h] at hruns

end Stream

end SgFtdi
