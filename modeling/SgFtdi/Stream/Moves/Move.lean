import SgFtdi.Stream.Moves.Completion

/-!
# Stream — moves, and the life of a transfer

A `Move` is one thing the engine does outside of its own bookkeeping: a
chore, a message, a completion, a transfer switched on or asked to stop.
Each carries the reason the source has for it. `Move.lives` says what a
move can do to an entry, in the terms of a life: a transfer stays as it
is, comes down, goes up, or is stranded by an exception. Whatever is true
of every life is true of every run.
-/

namespace SgFtdi

namespace Stream

open Prog Relation

variable {σ : Type} (env : Env σ)

/-! ## Moves -/

/-- Why an entry may be switched on: its descriptor is on `list_enable`
while the engine goes through it, or has become ready. -/
inductive WhyOn (m : Machine σ) (fd : ℤ) : Prop
  | asked : m.listMutex = true → fd ∈ m.listEnable → WhyOn m fd
  | ready : fd ∈ m.epollSet → fd ≠ m.usbEpollFd → fd ≠ m.noticeEventFd → fd ≠ m.timerFd →
      WhyOn m fd

/-- Why a cancellation may be asked for: the descriptor is on
`list_disable` while the engine goes through it, or the engine is
stopping. -/
inductive WhyOff (m : Machine σ) (fd : ℤ) : Prop
  | asked : m.listMutex = true → fd ∈ m.listDisable → WhyOff m fd
  | stopping : m.shouldRun = false → WhyOff m fd

/-- **A move of the engine.** -/
inductive Move (m : Machine σ) : Machine σ → Prop
  | chore {m' : Machine σ} : Chore env m m' → Move m m'
  | errored (message : Message) : Move m (m.errored env message)
  | pollfds (fds : List ℤ) : Move m { m with usbEpollSet := fds }
  | completed {c : Completion} {m₁ : Machine σ} : Completed env c m m₁ → Move m m₁.boundary
  | armed {i : ℕ} {e : FtdiStreamStaticState} {m' : Machine σ} : m.entryAt i = some e →
      e.enabled = false → WhyOn m e.eventfd →
      Submitted env i (m.modifyEntry i (.setEnabled true)) m' → Move m m'
  | cancelled {i : ℕ} {e : FtdiStreamStaticState} : m.entryAt i = some e → e.enabled = true →
      WhyOff m e.eventfd → Move m ((m.note (.cancelled i)).modifyEntry i .askCancel)

/-- **What an exception interrupts**: nothing, or the switching on of an
entry, which is left enabled. On its way out it releases `list_mutex`. -/
inductive Broken (m : Machine σ) : Machine σ → Prop
  | here : Broken m m
  | armed {i : ℕ} {e : FtdiStreamStaticState} {m' : Machine σ} : m.entryAt i = some e →
      e.enabled = false → WhyOn m e.eventfd →
      Work env i (m.modifyEntry i (.setEnabled true)) m' → Broken m m'
  | unlocked {m' : Machine σ} : Broken m m' → Broken m { m' with listMutex := false }

/-! ## The life of a transfer -/

/-- What an entry keeps for good. -/
structure Same (e e' : FtdiStreamStaticState) : Prop where
  streamId : e'.streamId = e.streamId
  isReading : e'.isReading = e.isReading
  isModemStatus : e'.isModemStatus = e.isModemStatus
  eventfd : e'.eventfd = e.eventfd
  bufferSize : e'.bufferSize = e.bufferSize
  hasBuffer : e'.transfer.buffer.isSome = e.transfer.buffer.isSome

theorem Same.refl {e : FtdiStreamStaticState} : Same e e := ⟨rfl, rfl, rfl, rfl, rfl, rfl⟩

theorem Same.trans {e e₁ e₂ : FtdiStreamStaticState} (h : Same e e₁) (h' : Same e₁ e₂) :
    Same e e₂ :=
  ⟨h'.streamId.trans h.streamId, h'.isReading.trans h.isReading,
    h'.isModemStatus.trans h.isModemStatus, h'.eventfd.trans h.eventfd,
    h'.bufferSize.trans h.bufferSize, h'.hasBuffer.trans h.hasBuffer⟩

theorem Alike.same {e e' : FtdiStreamStaticState} (h : Alike e e') : Same e e' :=
  ⟨h.streamId, h.isReading, h.isModemStatus, h.eventfd, h.bufferSize, h.hasBuffer⟩

/-- **A step in the life of a transfer**, while `should_run` goes from
`run` to `run'`. A read transfer that was enabled comes down only when
the engine stops. -/
inductive Life (run run' : Bool) (e e' : FtdiStreamStaticState) : Prop
  | kept : e'.enabled = e.enabled → e'.transfer.inFlight = e.transfer.inFlight →
      (run' = true → run = true) → Life run run' e e'
  | down : e.transfer.inFlight = true → e'.enabled = false → e'.transfer.inFlight = false →
      (run' = true → run = true ∧ (e.enabled = true → e.isReading = false)) → Life run run' e e'
  | up : run = true → e.enabled = false → e'.enabled = true → e'.transfer.inFlight = true →
      run' = true → (e.isReading = true → e.bufferSize ≠ 0) → Life run run' e e'
  | stranded : e.enabled = false → e'.enabled = true →
      e'.transfer.inFlight = e.transfer.inFlight → run' = false → Life run run' e e'

/-- An entry lives on. -/
structure Lives (run run' : Bool) (e e' : FtdiStreamStaticState) : Prop where
  same : Same e e'
  life : Life run run' e e'

/-- Every entry lives on. -/
def AllLive (m m' : Machine σ) : Prop :=
  ∀ j, Option.Rel (Lives m.shouldRun m'.shouldRun) (m.entryAt j) (m'.entryAt j)

variable {env} {m m' m₁ m₂ : Machine σ} {i j : ℕ} {e e₁ e' : FtdiStreamStaticState}

theorem Alike.lives {run run' : Bool} (h : Alike e e') (hr : run' = true → run = true) :
    Lives run run' e e' := ⟨h.same, .kept h.enabled h.inFlight hr⟩

namespace AllLive

theorem entry (h : AllLive m m') (he : m.entryAt j = some e) :
    ∃ e', m'.entryAt j = some e' ∧ Lives m.shouldRun m'.shouldRun e e' := by
  have hj := h j
  rw [he] at hj
  generalize m'.entryAt j = x at hj ⊢
  cases hj with
  | some hl => exact ⟨_, rfl, hl⟩

theorem back (h : AllLive m m') (he : m'.entryAt j = some e') :
    ∃ e, m.entryAt j = some e ∧ Lives m.shouldRun m'.shouldRun e e' := by
  have hj := h j
  rw [he] at hj
  generalize m.entryAt j = x at hj ⊢
  cases hj with
  | some hl => exact ⟨_, rfl, hl⟩

/-- **One entry is singled out**: the others keep their transfers, and what
this one does is given. -/
theorem single (i : ℕ) (hothers : ∀ j, i ≠ j → Option.Rel Twin (m.entryAt j) (m'.entryAt j))
    (hrun : m'.shouldRun = true → m.shouldRun = true)
    (hi : Option.Rel (Lives m.shouldRun m'.shouldRun) (m.entryAt i) (m'.entryAt i)) :
    AllLive m m' := by
  intro j
  by_cases hij : i = j
  · exact hij ▸ hi
  · have hj := hothers j hij
    generalize m.entryAt j = x at hj ⊢
    generalize m'.entryAt j = y at hj ⊢
    cases hj with
    | none => constructor
    | some ha => exact .some (ha.toAlike.lives hrun)

/-- All entries stay alike. -/
theorem of_alike (h : ∀ j, Option.Rel Alike (m.entryAt j) (m'.entryAt j))
    (hrun : m'.shouldRun = true → m.shouldRun = true) : AllLive m m' := by
  intro j
  have hj := h j
  generalize m.entryAt j = x at hj ⊢
  generalize m'.entryAt j = y at hj ⊢
  cases hj with
  | none => constructor
  | some ha => exact .some (ha.lives hrun)

theorem of_calm (h : Calm env m m') : AllLive m m' :=
  of_alike h.entries fun hr => h.shouldRun ▸ hr

end AllLive

/-! ## The other entries -/

/-- A chore leaves every transfer as it is. -/
theorem Chore.twins (h : Chore env m m') (j : ℕ) :
    Option.Rel Twin (m.entryAt j) (m'.entryAt j) := by
  have heq : ∀ {t : Machine σ}, t.entryAt j = m.entryAt j →
      Option.Rel Twin (m.entryAt j) (t.entryAt j) := by
    intro t ht
    rw [ht]
    cases m.entryAt j <;> constructor
    exact .refl
  cases h with
  | user hu => exact heq (hu.frame.entryAt j)
  | @wrote k f hf =>
      rw [entryAt_modifyEntry]
      split
      · cases m.entryAt j <;> constructor
        exact hf _
      · exact heq (t := m) rfl
  | counted s isReading t callbacks bytes => exact heq rfl
  | ticked now => exact heq rfl

/-- Every entry but `i` keeps its transfer. -/
def Others (i : ℕ) (m m' : Machine σ) : Prop :=
  ∀ j, i ≠ j → Option.Rel Twin (m.entryAt j) (m'.entryAt j)

namespace Others

theorem of_eq (h : ∀ j, i ≠ j → m'.entryAt j = m.entryAt j) : Others i m m' := by
  intro j hij
  rw [h j hij]
  cases m.entryAt j <;> constructor
  exact .refl

theorem of_quiet (h : Quiet env m m') : Others i m m' := of_eq fun j _ => h.frame.entryAt j

theorem of_chore (h : Chore env m m') : Others i m m' := fun j _ => h.twins j

theorem modify (i : ℕ) (m : Machine σ) (f : FtdiStreamStaticState → FtdiStreamStaticState) :
    Others i m (m.modifyEntry i f) := of_eq fun _ hij => entryAt_modifyEntry_ne m hij f

theorem trans (h : Others i m m₁) (h' : Others i m₁ m₂) : Others i m m₂ := by
  intro j hij
  have h₁ := h j hij
  have h₂ := h' j hij
  generalize m.entryAt j = x at h₁ ⊢
  generalize m₁.entryAt j = y at h₁ h₂
  generalize m₂.entryAt j = z at h₂ ⊢
  cases h₁ with
  | none => exact h₂
  | some ha =>
      cases h₂ with
      | some hb => exact .some (ha.trans hb)

/-- Work on an entry leaves the others alone. -/
theorem of_work (h : Work env i m m') : Others i m m' := by
  induction h with
  | refl => exact of_eq fun _ _ => rfl
  | tail _ hs ih =>
      refine ih.trans ?_
      cases hs with
      | chore hc => exact of_chore hc
      | wrote _ => exact modify i _ _
      | _ => exact of_eq fun _ _ => rfl

/-- What is done to the entry itself afterwards does not matter. -/
theorem andModify (h : Others i m m₁) (f : FtdiStreamStaticState → FtdiStreamStaticState) :
    Others i m (m₁.modifyEntry i f) := h.trans (modify i m₁ f)

theorem andErrored (h : Others i m m₁) (message : Message) :
    Others i m (m₁.errored env message) :=
      h.trans (of_eq fun j _ => errored_entryAt env m₁ message j)

/-- Nor does taking off. -/
theorem andLaunched (h : Others i m m₁) (e : FtdiStreamStaticState) :
    Others i m (m₁.launched env i e) := h.trans (modify i (m₁.offered env i e true) _)

end Others

theorem launched_entryAt (he : m.entryAt i = some e) :
    (m.launched env i e₁).entryAt i = some e.takeOff := by
  rw [Machine.launched, entryAt_modifyEntry_self]
  simp [Machine.offered, he]

/-! ## Submitting -/

/-- **What `submit` leaves of the entry**: it stays as it is, where there
is nothing to do; it is switched off, a read transfer only where its
buffer is empty; or it is in flight. -/
theorem Submitted.entry (h : Submitted env i m m') (he : m.entryAt i = some e) :
    ∃ e', m'.entryAt i = some e' ∧ Same e e' ∧
      ((e'.enabled = e.enabled ∧ e'.transfer.inFlight = e.transfer.inFlight ∧
          (m.shouldRun = true → e.enabled = false)) ∨
        (m.shouldRun = true ∧ e'.enabled = false ∧ e'.transfer.inFlight = e.transfer.inFlight ∧
          (e.isReading = true → e.bufferSize = 0)) ∨
        (m.shouldRun = true ∧ e.enabled = true ∧ e'.enabled = true ∧
          e'.transfer.inFlight = true ∧ (e.isReading = true → e.bufferSize ≠ 0))) := by
  cases h with
  | kept hk => exact ⟨e, he, Alike.refl.same, .inl ⟨rfl, rfl, fun hr => hk hr e he⟩⟩
  | @idle e₀ m₁ he₀ hen hr hp =>
      rw [he, Option.some_inj] at he₀
      subst he₀
      obtain ⟨e₁, he₁, ha⟩ := (hp.sized he).calm.entry he
      refine ⟨e₁.setEnabled false, by rw [entryAt_modifyEntry_self, he₁]; rfl, ?_, .inr (.inl ?_)⟩
      · exact ⟨ha.streamId, ha.isReading, ha.isModemStatus, ha.eventfd, ha.bufferSize, ha.hasBuffer⟩
      exact ⟨hr, rfl, ha.inFlight, fun hread => (hp.of_reading hread).symm⟩
  | @launched e₀ e₂ n m₁ he₀ hen hr hp hn he₂ =>
      rw [he, Option.some_inj] at he₀
      subst he₀
      obtain ⟨e₁, he₁, ha⟩ := (hp.sized he).calm.entry he
      refine ⟨e₁.takeOff, launched_entryAt he₁, ?_, .inr (.inr ⟨hr, hen, ?_, rfl, fun hread => ?_⟩)⟩
      · exact ⟨ha.streamId, ha.isReading, ha.isModemStatus, ha.eventfd, ha.bufferSize, ha.hasBuffer⟩
      · exact ha.enabled.trans hen
      · have hsize := hp.of_reading hread
        omega

theorem Submitted.shouldRun (h : Submitted env i m m') : m'.shouldRun = m.shouldRun := by
  cases h with
  | kept _ => rfl
  | idle he _ _ hp => exact (hp.sized he).calm.shouldRun
  | launched he _ _ hp _ _ => exact (hp.sized he).calm.shouldRun

theorem Submitted.others (h : Submitted env i m m') : Others i m m' := by
  cases h with
  | kept _ => exact .of_eq fun _ _ => rfl
  | idle he _ _ hp => exact (Others.of_work (hp.sized he)).andModify _
  | launched he _ _ hp _ _ => exact (Others.of_work (hp.sized he)).andLaunched _

theorem lives_of_submitted (he : m.entryAt i = some e) (hen : e.enabled = false)
    (h : Submitted env i (m.modifyEntry i (.setEnabled true)) m') : AllLive m m' := by
  have he₁ : (m.modifyEntry i (.setEnabled true)).entryAt i = some (e.setEnabled true) := by
    rw [entryAt_modifyEntry_self, he]
    rfl
  have hrun : m'.shouldRun = m.shouldRun := h.shouldRun
  refine .single i ((Others.modify i m _).trans h.others) (fun hr => hrun ▸ hr) ?_
  obtain ⟨e', he', hs, hcase⟩ := h.entry he₁
  rw [he, he']
  refine .some ⟨⟨hs.streamId, hs.isReading, hs.isModemStatus, hs.eventfd, hs.bufferSize,
    hs.hasBuffer⟩, ?_⟩
  rcases hcase with ⟨h₁, h₂, h₃⟩ | ⟨hr, h₁, h₂, -⟩ | ⟨hr, -, h₁, h₂, h₃⟩
  · refine .stranded hen h₁ h₂ ?_
    rw [hrun, Bool.eq_false_iff]
    exact fun hr => absurd (h₃ hr) (by simp [FtdiStreamStaticState.setEnabled])
  · exact .kept (h₁.trans hen.symm) h₂ fun _ => hr
  · exact .up hr hen h₁ h₂ (hrun.trans hr) h₃

/-! ## Completing -/

theorem back_same (e : FtdiStreamStaticState) (c : Completion) : Same e (e.back c) := by
  refine ⟨rfl, rfl, rfl, rfl, rfl, ?_⟩
  show (e.land c).transfer.buffer.isSome = _
  unfold FtdiStreamStaticState.land
  dsimp only
  split
  · rw [Option.isSome_map]
  · rfl

theorem landed_others (m : Machine σ) (e : FtdiStreamStaticState) (c : Completion) :
    Others c.transfer m (m.landed e c) :=
  (Others.modify c.transfer m (.land c)).trans (Others.modify c.transfer _ .countCallback)

/-- **How a callback leaves its transfer**: untouched, switched off, or
in flight again. A read transfer is switched off only where the engine
stops. -/
inductive Handled (m m' : Machine σ) (e e' : FtdiStreamStaticState) : Prop
  | off : e.enabled = false → m' = m → e' = e → Handled m m' e e'
  | switchedOff : e'.enabled = false → e'.transfer.inFlight = e.transfer.inFlight →
      (m'.shouldRun = true → m.shouldRun = true ∧ e.isReading = false) → Handled m m' e e'
  | again : m'.shouldRun = true → m.shouldRun = true → e.enabled = true → e'.enabled = true →
      e'.transfer.inFlight = true → Handled m m' e e'

/-- What is left of an entry that `read_callback` is done with. -/
theorem ReadBack.entry (h : ReadBack env i e m m') (he : m.entryAt i = some e) :
    ∃ e', m'.entryAt i = some e' ∧ Same e e' ∧ Handled m m' e e' := by
  cases h with
  | off hen => exact ⟨e, he, Alike.refl.same, .off hen rfl rfl⟩
  | stopped hen hs =>
      refine ⟨e.setEnabled false, ?_, ⟨rfl, rfl, rfl, rfl, rfl, rfl⟩, .switchedOff rfl rfl ?_⟩
      · rw [stopped_entryAt, entryAt_modifyEntry_self, he]
        rfl
      · exact fun hr => by simp at hr
  | @again m₁ e₁ hen hr hc hd he₁ =>
      have hc := (m.touch_calm e).trans hd.work.calm
      obtain ⟨e₀, he₀, ha⟩ := hc.entry he
      refine ⟨e₀.takeOff, launched_entryAt he₀, ?_, .again ?_ hr hen (ha.enabled.trans hen) rfl⟩
      · exact ⟨ha.streamId, ha.isReading, ha.isModemStatus, ha.eventfd, ha.bufferSize, ha.hasBuffer⟩
      · exact hc.shouldRun.trans hr
  | @failed m₁ cause hen hr hc hw =>
      obtain ⟨e₀, he₀, ha⟩ := ((m.heard_calm e).trans hw.calm).entry he
      refine ⟨e₀.setEnabled false, ?_, ?_, .switchedOff rfl ha.inFlight ?_⟩
      · rw [errored_entryAt, entryAt_modifyEntry_self, he₀]
        rfl
      · exact ⟨ha.streamId, ha.isReading, ha.isModemStatus, ha.eventfd, ha.bufferSize, ha.hasBuffer⟩
      · exact fun hr => by simp at hr

theorem ReadBack.others (h : ReadBack env i e m m') : Others i m m' := by
  cases h with
  | off _ => exact .of_eq fun _ _ => rfl
  | stopped _ _ => exact Others.modify i m _
  | again _ _ _ hd _ =>
      have ht : Others i m (m.touch e) := .of_eq fun j _ => m.touch_entryAt e j
      exact (ht.trans (Others.of_work hd.work)).andLaunched _
  | failed _ _ _ hw =>
      have ht : Others i m (m.heard e) := .of_eq fun j _ => m.heard_entryAt e j
      exact ((ht.trans (Others.of_work hw)).andModify _).andErrored _

/-- The state after a confirmation, but for the call itself, is calm. -/
theorem Confirm.others {b : Bool} (h : Confirm env i e m b m₁) : Others i m m₁ := by
  have hc : Others i m (m.confirming env i e) := Others.modify i m _
  cases h with
  | none _ => exact .of_eq fun _ _ => rfl
  | taken _ _ hq => exact (hc.trans (Others.of_quiet hq)).andModify _
  | failed _ hw => exact hc.trans (Others.of_work hw)

theorem Confirm.shouldRun {b : Bool} (h : Confirm env i e m b m₁) :
    m₁.shouldRun = m.shouldRun := by
  cases h with
  | none _ => rfl
  | taken _ _ hq => exact hq.calm.shouldRun
  | failed _ hw => exact hw.calm.shouldRun

/-- What is left of an entry that `write_callback` is done with. -/
theorem WriteBack.entry (h : WriteBack env i e m m') (he : m.entryAt i = some e)
    (hwr : e.isReading = false) :
    ∃ e', m'.entryAt i = some e' ∧ Same e e' ∧ Handled m m' e e' := by
  cases h with
  | off hen => exact ⟨e, he, Alike.refl.same, .off hen rfl rfl⟩
  | stopped hen hs =>
      refine ⟨(e.setEnabled false).setLength 0, ?_, ⟨rfl, rfl, rfl, rfl, rfl, rfl⟩,
        .switchedOff rfl rfl ?_⟩
      · rw [stopped_entryAt, modifyEntry_modifyEntry, entryAt_modifyEntry_self, he]
        rfl
      · exact fun hr => by simp at hr
  | @idle m₁ m₂ hen hr hc hcf hf =>
      obtain ⟨e₁, he₁, ha⟩ := hcf.entry he
      obtain ⟨e₂, he₂, ha₂⟩ := (hf.work he₁ ha.inFlight.symm).calm.entry he₁
      have hs := ha.trans ha₂
      refine ⟨(e₂.setLength 0).setEnabled false, ?_, ?_,
        .switchedOff rfl hs.inFlight fun _ => ⟨hr, hwr⟩⟩
      · rw [modifyEntry_modifyEntry, entryAt_modifyEntry_self, he₂]
        rfl
      · exact ⟨hs.streamId, hs.isReading, hs.isModemStatus, hs.eventfd, hs.bufferSize, hs.hasBuffer⟩
  | @again n m₁ m₂ e₂ hen hr hc hcf hf hn he₂ =>
      obtain ⟨e₁, he₁, ha⟩ := hcf.entry he
      -- filled again: the length is set, and libusb takes the transfer
      have hw := hf.work he₁ ha.inFlight.symm
      obtain ⟨e₃, he₃, ha₃⟩ := hw.calm.entry he₁
      rw [entryAt_modifyEntry_self, he₃, Option.map_some, Option.some_inj] at he₂
      subst he₂
      have hs := ha.trans ha₃
      refine ⟨(e₃.setLength n).takeOff, launched_entryAt ?_, ?_,
        .again ?_ hr hen (hs.enabled.trans hen) rfl⟩
      · rw [entryAt_modifyEntry_self, he₃]
        rfl
      · exact ⟨hs.streamId, hs.isReading, hs.isModemStatus, hs.eventfd, hs.bufferSize, hs.hasBuffer⟩
      · exact hw.calm.shouldRun.trans (hcf.shouldRun.trans hr)
  | @failed b m₁ m₂ cause hen hr hc hcf hw =>
      obtain ⟨e₁, he₁, ha⟩ := hcf.entry he
      obtain ⟨e₂, he₂, ha₂⟩ := hw.calm.entry he₁
      have hs := ha.trans ha₂
      refine ⟨e₂.setEnabled false, ?_, ?_, .switchedOff rfl hs.inFlight fun _ => ⟨hr, hwr⟩⟩
      · rw [entryAt_modifyEntry_self, errored_entryAt, he₂]
        rfl
      · exact ⟨hs.streamId, hs.isReading, hs.isModemStatus, hs.eventfd, hs.bufferSize, hs.hasBuffer⟩

theorem WriteBack.others (h : WriteBack env i e m m') (he : m.entryAt i = some e) :
    Others i m m' := by
  cases h with
  | off _ => exact .of_eq fun _ _ => rfl
  | stopped _ _ => exact (Others.modify i m _).andModify _
  | idle _ _ _ hcf hf =>
      obtain ⟨e₁, he₁, ha⟩ := hcf.entry he
      have hw := hf.work he₁ ha.inFlight.symm
      exact ((hcf.others.trans (Others.of_work hw)).andModify _).andModify _
  | again _ _ _ hcf hf _ _ =>
      obtain ⟨e₁, he₁, ha⟩ := hcf.entry he
      have hw := hf.work he₁ ha.inFlight.symm
      exact ((hcf.others.trans (Others.of_work hw)).andModify _).andLaunched _
  | failed _ _ _ hcf hw =>
      exact ((hcf.others.trans (Others.of_work hw)).andErrored _).andModify _

/-- A callback that has handled a landed transfer has lived its life on. -/
theorem lives_of_handled {c : Completion} (he : m.entryAt c.transfer = some e)
    (hfl : e.transfer.inFlight = true) (hothers : Others c.transfer (m.landed e c) m')
    (h : ∃ e', m'.entryAt c.transfer = some e' ∧ Same (e.back c) e' ∧
      Handled (m.landed e c) m' (e.back c) e') : AllLive m m' := by
  obtain ⟨e', he', hs, hh⟩ := h
  have hsame : Same e e' := (back_same e c).trans hs
  refine .single c.transfer ((landed_others m e c).trans hothers) (fun hr => ?_) ?_
  · cases hh with
    | off _ hm _ => rw [hm] at hr; exact hr
    | switchedOff _ _ h₃ => exact (h₃ hr).1
    | again _ h₂ _ _ _ => exact h₂
  rw [he, he']
  refine .some ⟨hsame, ?_⟩
  cases hh with
  | off h₁ hm h₃ =>
      subst h₃
      refine .down hfl h₁ rfl fun hr => ?_
      rw [hm] at hr
      exact ⟨hr, fun hen => absurd hen (Bool.eq_false_iff.mp h₁)⟩
  | switchedOff h₁ h₂ h₃ => exact .down hfl h₁ h₂ fun hr => ⟨(h₃ hr).1, fun _ => (h₃ hr).2⟩
  | again h₁ h₂ h₃ h₄ h₅ => exact .kept (h₄.trans h₃.symm) (h₅.trans hfl.symm) fun _ => h₂

theorem Completed.lives {c : Completion} (h : Completed env c m m') : AllLive m m' := by
  cases h with
  | read he hfl hr hb => exact lives_of_handled he hfl hb.others (hb.entry (landed_entryAt he))
  | write he hfl hr hb =>
      exact lives_of_handled he hfl (hb.others (landed_entryAt he))
        (hb.entry (landed_entryAt he) hr)

/-- **Every move is a step in the life of every transfer.** -/
theorem Move.lives (h : Move env m m') : AllLive m m' := by
  cases h with
  | chore hc => exact .of_calm hc.calm
  | errored message =>
      refine .of_alike (fun j => ?_) fun hr => by simp at hr
      rw [errored_entryAt]
      cases m.entryAt j <;> constructor
      exact .refl
  | pollfds fds => exact .of_alike (Calm.of_entries rfl) id
  | completed hc => exact hc.lives
  | armed he hen _ hs => exact lives_of_submitted he hen hs
  | @cancelled i e he hen _ =>
      refine .single i (Others.modify i (m.note (.cancelled i)) _) (fun hr => hr) ?_
      rw [entryAt_modifyEntry_self, note_entryAt, he]
      exact .some ⟨⟨rfl, rfl, rfl, rfl, rfl, rfl⟩, .kept rfl rfl id⟩

/-- **An exception strands one transfer at most**, once the engine has
stopped over it. -/
theorem Broken.lives (h : Broken env m m₁) (hm : ∀ j, m'.entryAt j = m₁.entryAt j)
    (hr : m'.shouldRun = false) : AllLive m m' := by
  have hrun : m'.shouldRun = true → m.shouldRun = true := fun h => by simp [hr] at h
  induction h generalizing m' with
  | here =>
      refine .of_alike (fun j => ?_) hrun
      rw [hm]
      cases m.entryAt j <;> constructor
      exact .refl
  | @armed i e m₁ he hen hwhy hw =>
      have hothers := (Others.modify i m (.setEnabled true)).trans (Others.of_work hw)
      refine .single i (fun j hij => by rw [hm]; exact hothers j hij) hrun ?_
      have he₁ : (m.modifyEntry i (.setEnabled true)).entryAt i = some (e.setEnabled true) := by
        rw [entryAt_modifyEntry_self, he]
        rfl
      obtain ⟨e', he', ha⟩ := hw.calm.entry he₁
      rw [hm, he, he']
      refine .some ⟨?_, .stranded hen ha.enabled ha.inFlight hr⟩
      exact ⟨ha.streamId, ha.isReading, ha.isModemStatus, ha.eventfd, ha.bufferSize, ha.hasBuffer⟩
  | unlocked _ ih => exact ih hm hr hrun

/-! ## What no move touches -/

/-- An engine that has stopped takes no more requests. -/
def Machine.Minds (m : Machine σ) : Prop := m.shouldRun = false → m.shouldCancel = true

/-- **The frame of a move**: what may be different after it is named, and
`list_mutex` guards the lists. -/
structure Kept (m m' : Machine σ) : Prop where
  eq : m' = { m with
    streamstates := m'.streamstates
    shouldRun := m'.shouldRun
    shouldCancel := m'.shouldCancel
    tsNow := m'.tsNow
    tsActivity := m'.tsActivity
    listEnable := m'.listEnable
    listDisable := m'.listDisable
    listReset := m'.listReset
    errorSpsc := m'.errorSpsc
    noticeCount := m'.noticeCount
    usbEpollSet := m'.usbEpollSet
    world := m'.world
    trace := m'.trace }
  filed : Filed m m'
  made : m'.streamstates.isSome = m.streamstates.isSome
  stays : m'.shouldRun = true → m.shouldRun = true
  minds : m.Minds → m'.Minds

namespace Kept

theorem refl : Kept m m := ⟨rfl, .refl, rfl, id, id⟩

theorem trans (h : Kept m m₁) (h' : Kept m₁ m₂) : Kept m m₂ :=
  ⟨by rw [h'.eq, h.eq], h.filed.trans (by rw [h.eq]) h'.filed, h'.made.trans h.made,
    fun hr => h.stays (h'.stays hr), fun hm => h'.minds (h.minds hm)⟩

theorem of_calm (h : Calm env m m') : Kept m m' :=
  ⟨by rw [h.eq], h.filed, h.made, fun hr => h.shouldRun ▸ hr, fun hm hr =>
    h.shouldCancel.trans (hm (h.shouldRun.symm.trans hr))⟩

theorem modify (i : ℕ) (f : FtdiStreamStaticState → FtdiStreamStaticState) :
    Kept m (m.modifyEntry i f) := ⟨rfl, .of_eq rfl rfl rfl, modifyEntry_made m i f, id, id⟩

theorem note {o : Obs} (ho : o.unlisted) : Kept m (m.note o) := ⟨rfl, .note ho, rfl, id, id⟩

theorem withWorld (w : σ) : Kept m (m.withWorld w) := ⟨rfl, .of_eq rfl rfl rfl, rfl, id, id⟩

theorem stopped : Kept m m.stopped :=
  ⟨rfl, .of_unlisted rfl .refl (le_notified _), rfl, fun hr => by simp at hr, fun _ _ => rfl⟩

theorem errored (message : Message) : Kept m (m.errored env message) := by
  obtain ⟨_, _, h, -⟩ := errored_eq env m message
  refine ⟨by rw [h]; rfl, .of_unlisted (by rw [h]; rfl) ?_ ?_, by rw [h]; rfl,
    fun hr => by simp at hr, fun _ _ => by rw [h]; rfl⟩
  · exact (errored_trace env m message).mono fun o ho => by rw [ho]; trivial
  · rw [h]
    exact le_notified _

theorem offered (i : ℕ) (e : FtdiStreamStaticState) (taken : Bool) :
    Kept m (m.offered env i e taken) :=
  ⟨rfl, .of_unlisted rfl (.one trivial) le_rfl, rfl, id, id⟩

theorem launched (i : ℕ) (e : FtdiStreamStaticState) : Kept m (m.launched env i e) :=
  (offered i e true).trans (modify i _)

theorem landed {c : Completion} : Kept m (m.landed e c) :=
  (modify _ _).trans ((note (by exact trivial)).trans (modify _ _))

variable (h : Kept m m')
include h

theorem streams : m'.streams = m.streams := by rw [h.eq]

theorem noticeEventFd : m'.noticeEventFd = m.noticeEventFd := by rw [h.eq]

theorem usbEpollFd : m'.usbEpollFd = m.usbEpollFd := by rw [h.eq]

theorem timerFd : m'.timerFd = m.timerFd := by rw [h.eq]

theorem readPacketsize : m'.readPacketsize = m.readPacketsize := by rw [h.eq]

theorem epollSet : m'.epollSet = m.epollSet := by rw [h.eq]

theorem listMutex : m'.listMutex = m.listMutex := by rw [h.eq]

theorem lastExit : m'.lastExit = m.lastExit := by rw [h.eq]

theorem listEnable (hm : m.listMutex = true) : m'.listEnable = m.listEnable :=
  congrArg Lists.enable (h.filed.locked hm)

theorem listDisable (hm : m.listMutex = true) : m'.listDisable = m.listDisable :=
  congrArg Lists.disable (h.filed.locked hm)

theorem listReset (hm : m.listMutex = true) : m'.listReset = m.listReset :=
  congrArg Lists.reset (h.filed.locked hm)

end Kept

theorem Submitted.kept_frame (h : Submitted env i m m') : Kept m m' := by
  cases h with
  | kept _ => exact .refl
  | idle he _ _ hp => exact (Kept.of_calm (hp.sized he).calm).trans (.modify i _)
  | launched he _ _ hp _ _ => exact (Kept.of_calm (hp.sized he).calm).trans (.launched i _)

theorem ReadBack.kept (h : ReadBack env i e m m') : Kept m m' := by
  cases h with
  | off _ => exact .refl
  | stopped _ _ => exact (Kept.modify i _).trans .stopped
  | again _ _ _ hd _ =>
      exact (Kept.of_calm ((m.touch_calm e).trans hd.work.calm)).trans (.launched i _)
  | failed _ _ _ hw =>
      exact (Kept.of_calm ((m.heard_calm e).trans hw.calm)).trans
        ((Kept.modify i _).trans (.errored _))

theorem Confirm.kept {b : Bool} (h : Confirm env i e m b m₁) : Kept m m₁ := by
  have hc : Kept m (m.confirming env i e) :=
    (Kept.modify _ _).trans ((Kept.note (by exact trivial)).trans (.withWorld _))
  cases h with
  | none _ => exact .refl
  | taken _ _ hq => exact hc.trans ((Kept.of_calm hq.calm).trans (.modify i _))
  | failed _ hw => exact hc.trans (.of_calm hw.calm)

theorem WriteBack.kept (h : WriteBack env i e m m') (he : m.entryAt i = some e) : Kept m m' := by
  cases h with
  | off _ => exact .refl
  | stopped _ _ => exact (Kept.modify i _).trans ((Kept.modify i _).trans .stopped)
  | idle _ _ _ hcf hf =>
      obtain ⟨e₁, he₁, ha⟩ := hcf.entry he
      have hw := Kept.of_calm (hf.work he₁ ha.inFlight.symm).calm
      exact hcf.kept.trans (hw.trans ((Kept.modify i _).trans (.modify i _)))
  | again _ _ _ hcf hf _ _ =>
      obtain ⟨e₁, he₁, ha⟩ := hcf.entry he
      have hw := Kept.of_calm (hf.work he₁ ha.inFlight.symm).calm
      exact hcf.kept.trans (hw.trans ((Kept.modify i _).trans (.launched i _)))
  | failed _ _ _ hcf hw =>
      exact hcf.kept.trans ((Kept.of_calm hw.calm).trans ((Kept.errored _).trans (.modify i _)))

/-- **The frame rule of moves.** -/
theorem Move.kept (h : Move env m m') : Kept m m' := by
  cases h with
  | chore hc => exact .of_calm hc.calm
  | errored message => exact .errored message
  | pollfds fds => exact ⟨rfl, .of_eq rfl rfl rfl, rfl, id, id⟩
  | completed hc =>
      refine Kept.trans ?_ (Kept.note (by exact trivial))
      cases hc with
      | read he _ _ hb => exact Kept.landed.trans hb.kept
      | write he _ _ hb => exact Kept.landed.trans (hb.kept (landed_entryAt he))
  | armed _ _ _ hs => exact (Kept.modify _ _).trans hs.kept_frame
  | cancelled _ _ _ => exact (Kept.note (by exact trivial)).trans (.modify _ _)

/-! ## The record of a move -/

/-- An observation every move may make: user code, offers and messages.
Offers note whether the transfer was in flight. -/
def Obs.routine (inFlight : Bool) : Obs → Prop
  | .filled _ b => b = inFlight
  | .submitted _ b _ _ => b = inFlight
  | .readBuffer _ _ => True
  | .asked _ _ => True
  | .counted _ _ _ _ _ => True
  | .ticked _ => True
  | .cancelled _ => True
  | .pushed _ => True
  | _ => False

theorem Obs.minor.routine {o : Obs} {b : Bool} (h : o.minor i b) : o.routine b := by
  cases o <;> first | exact h.elim | exact h.2 | exact h.2.1 | trivial

theorem Chore.routine (h : Chore env m m') (b : Bool) :
    Grows (·.what.routine b) m.trace m'.trace := (h.trace 0 b).mono fun _ ho => ho.routine

theorem Work.routine (h : Work env i m m') (he : m.entryAt i = some e) :
    Grows (·.what.routine e.transfer.inFlight) m.trace m'.trace :=
  (h.trace he).mono fun _ ho => ho.routine

theorem errored_routine (m : Machine σ) (message : Message) (b : Bool) :
    Grows (·.what.routine b) m.trace (m.errored env message).trace :=
  (errored_trace env m message).mono fun o ho => by rw [ho]; trivial

theorem launched_routine (env : Env σ) (m : Machine σ) (i : ℕ) (e : FtdiStreamStaticState) :
    Grows (·.what.routine e.transfer.inFlight) m.trace (m.launched env i e).trace := .one rfl

theorem Submitted.routine (h : Submitted env i m m') (he : m.entryAt i = some e) :
    Grows (·.what.routine e.transfer.inFlight) m.trace m'.trace := by
  cases h with
  | kept _ => exact .refl
  | idle he₁ _ _ hp =>
      rw [he, Option.some_inj] at he₁
      exact he₁ ▸ (hp.sized (he₁ ▸ he)).routine (he₁ ▸ he)
  | @launched e₁ e₂ n m₁ he₁ _ _ hp _ he₂ =>
      rw [he, Option.some_inj] at he₁
      subst he₁
      have hw := hp.sized he
      obtain ⟨e₃, he₃, ha⟩ := hw.calm.entry he
      rw [he₂, Option.some_inj] at he₃
      rw [← ha.inFlight, ← he₃]
      exact ((hw.routine he).mono fun o ho => by rwa [he₃, ha.inFlight]).trans
        (launched_routine env _ i e₂)

theorem ReadBack.routine (h : ReadBack env i e m m') (he : m.entryAt i = some e) :
    Grows (·.what.routine e.transfer.inFlight) m.trace m'.trace := by
  cases h with
  | off _ => exact .refl
  | stopped _ _ => exact .refl
  | @again m₁ e₁ _ _ _ hd he₁ =>
      have het := (m.touch_entryAt e i).trans he
      obtain ⟨e₂, he₂, ha⟩ := hd.work.calm.entry het
      rw [he₁, Option.some_inj] at he₂
      rw [← ha.inFlight, ← he₂, ← m.touch_trace e]
      exact ((hd.work.routine het).mono fun o ho => by rwa [he₂, ha.inFlight]).trans
        (launched_routine env _ i e₁)
  | failed _ _ _ hw =>
      rw [← m.heard_trace e]
      exact (hw.routine ((m.heard_entryAt e i).trans he)).trans (errored_routine _ _ _)

/-- A confirmation is recorded, and routine besides. -/
theorem Confirm.routine {b : Bool} (h : Confirm env i e m b m₁) (he : m.entryAt i = some e) :
    Grows (·.what.routine e.transfer.inFlight) (m.trace ++ (if e.transfer.actualLength = 0 then []
      else [⟨m.shouldRun, .confirmed e.streamId e.transfer.actualLength⟩])) m₁.trace := by
  have hc : (m.confirming env i e).entryAt i = some (e.countBytes e.transfer.actualLength) := by
    simp [Machine.confirming, he]
  cases h with
  | none h0 => rw [if_pos h0, List.append_nil]; exact .refl
  | taken hpos _ hq =>
      have hw := (Work.quiet (i := i) hq).routine hc
      rw [if_neg (by omega)]
      exact hw
  | failed hpos hw =>
      have hw := hw.routine hc
      rw [if_neg (by omega)]
      exact hw

/-- Whether `write_callback` confirms what a completion moved. -/
def FtdiStreamStaticState.confirms (e : FtdiStreamStaticState) (run : Bool) : Prop :=
  e.enabled = true ∧ e.transfer.status ≠ .cancelled ∧ run = true ∧ e.transfer.actualLength ≠ 0

instance (e : FtdiStreamStaticState) (run : Bool) : Decidable (e.confirms run) :=
  inferInstanceAs (Decidable (_ ∧ _ ∧ _ ∧ _))

/-- **What `write_callback` records**: the confirmation first, and routine
besides. -/
theorem WriteBack.routine (h : WriteBack env i e m m') (he : m.entryAt i = some e) :
    Grows (·.what.routine e.transfer.inFlight) (m.trace ++ (if e.confirms m.shouldRun then
      [⟨m.shouldRun, .confirmed e.streamId e.transfer.actualLength⟩] else [])) m'.trace := by
  -- the confirmation comes first, if there is something to confirm
  have hcon : ∀ {b : Bool} {m₁ : Machine σ}, e.enabled = true → m.shouldRun = true →
      e.transfer.status ≠ .cancelled → Confirm env i e m b m₁ →
      Grows (·.what.routine e.transfer.inFlight) (m.trace ++ (if e.confirms m.shouldRun then
        [⟨m.shouldRun, .confirmed e.streamId e.transfer.actualLength⟩] else [])) m₁.trace := by
    intro b m₁ h₁ h₂ h₃ hcf
    have hr := hcf.routine he
    by_cases h0 : e.transfer.actualLength = 0
    · rw [if_pos h0] at hr
      rw [if_neg fun h => h.2.2.2 h0]
      exact hr
    · rw [if_neg h0] at hr
      rw [if_pos ⟨h₁, h₃, h₂, h0⟩]
      exact hr
  cases h with
  | off hen =>
      rw [if_neg fun h => by simp [h.1] at hen, List.append_nil]
      exact .refl
  | stopped _ hs =>
      rw [if_neg, List.append_nil]
      · exact .refl
      · rintro ⟨-, h₂, h₃, -⟩
        rcases hs with hs | hs
        · exact h₂ hs
        · simp [hs] at h₃
  | @idle m₁ m₂ hen hr hc hcf hf =>
      obtain ⟨e₁, he₁, ha⟩ := hcf.entry he
      have hw := (hf.work he₁ ha.inFlight.symm).routine he₁
      exact (hcon hen hr hc hcf).trans (hw.mono fun o ho => ha.inFlight ▸ ho)
  | @again n m₁ m₂ e₂ hen hr hc hcf hf _ he₂ =>
      obtain ⟨e₁, he₁, ha⟩ := hcf.entry he
      have hw := hf.work he₁ ha.inFlight.symm
      obtain ⟨e₃, he₃, ha₃⟩ := hw.calm.entry he₁
      rw [entryAt_modifyEntry_self, he₃, Option.map_some, Option.some_inj] at he₂
      have hfl : e₂.transfer.inFlight = e.transfer.inFlight := by
        rw [← he₂]
        exact ha₃.inFlight.trans ha.inFlight
      refine (hcon hen hr hc hcf).trans (((hw.routine he₁).mono fun o ho => ha.inFlight ▸ ho).trans
        ?_)
      have hl := launched_routine env (m₂.modifyEntry i (.setLength n)) i e₂
      rwa [hfl] at hl
  | @failed b m₁ m₂ cause hen hr hc hcf hw =>
      obtain ⟨e₁, he₁, ha⟩ := hcf.entry he
      refine (hcon hen hr hc hcf).trans (((hw.routine he₁).mono fun o ho => ha.inFlight ▸ ho).trans
        ?_)
      exact errored_routine _ _ _

/-! ## The programs that move -/

theorem Move.quiet (h : Quiet env m m') : ReflTransGen (Move env) m m' :=
  ReflTransGen.mono (fun _ _ hs => .chore (.user hs)) _ _ h

/-- An exception that interrupts nothing. -/
theorem follows_broken {α : Type} {p : Run σ α} (h : Follows (Move env) Eq p m) :
    Follows (Move env) (Broken env) p m :=
  h.mono (fun _ _ hs => hs) fun _ _ hb => hb ▸ .here

/-- A quiet program moves, and throws with nothing interrupted. -/
theorem IsQuiet.follows {α : Type} {p : Run σ α} (h : IsQuiet env p) (m : Machine σ) :
    Follows (Move env) Eq p m :=
  (h m).mono (fun _ _ hq => Move.quiet hq) fun _ t hq => ⟨t, Move.quiet hq, rfl⟩

theorem askWorld_follows {α : Type} {f : σ → α × σ} (h : ∀ w, WorldStep env w (f w).2)
    (m : Machine σ) : Follows (Move env) Eq (askWorld f) m :=
  (IsQuiet.askWorld h).follows m

theorem error_follows (message : Message) (m : Machine σ) :
    Follows (Move env) Eq (error env message) m := by
  unfold Follows
  rw [ends_error]
  exact .single (.errored message)

theorem complete_follows (c : Completion) (m : Machine σ) :
    Follows (Move env) Eq (complete env c) m := by
  refine (complete_ends c m).mono ?_ fun _ _ hf => hf.elim
  rintro _ m' (rfl | ⟨m₁, hc, rfl⟩)
  · exact .refl
  · exact .single (.completed hc)

/-- **Switching an entry on** is a move, or breaks off in the middle. -/
theorem arm_follows (i : ℕ) (m : Machine σ)
    (h : ∀ e, m.entryAt i = some e → WhyOn m e.eventfd) :
    Follows (Move env) (Broken env) (arm env i) m := by
  unfold Follows arm
  rw [ends_bind, ends_look, id_look]
  cases he : m.entryAt i with
  | none => exact ReflTransGen.refl
  | some e =>
      simp only [ends_bind, ends_alter, ends_ite]
      refine ⟨fun hen => ?_, fun hen => ?_⟩
      · exact (submit_ends i _).mono (fun _ _ hs => .single (.armed he hen (h e he) hs))
          fun _ m' hw => ⟨m, .refl, .armed he hen (h e he) hw⟩
      · have hm : m.modifyEntry i (.setEnabled true) = m := by
          refine modifyEntry_eq_self fun e' he' => ?_
          rw [he, Option.some_inj] at he'
          subst he'
          have : e.enabled = true := by simpa using hen
          simp [FtdiStreamStaticState.setEnabled, ← this]
        rw [hm]
        exact ReflTransGen.refl

theorem cancelEntry_follows {B : Machine σ → Machine σ → Prop} (i : ℕ) (m : Machine σ)
    (h : ∀ e, m.entryAt i = some e → WhyOff m e.eventfd) :
    Follows (Move env) B (cancelEntry i) m := by
  unfold Follows cancelEntry
  rw [ends_bind, ends_look, id_look]
  cases he : m.entryAt i with
  | none => exact ReflTransGen.refl
  | some e =>
      simp only [ends_ite]
      exact ⟨fun hen => .single (.cancelled he hen (h e he)), fun _ => .refl⟩

theorem cancelEnabled_follows {B : Machine σ → Machine σ → Prop} (i : ℕ) (m : Machine σ)
    (h : m.shouldRun = false) :
    Follows (Move env) B (cancelEnabled i) m := by
  unfold cancelEnabled
  refine Follows.look_bind ?_
  rw [id_look]
  cases m.entryAt i with
  | none => exact Follows.pure
  | some e =>
      refine Follows.ite (fun _ => ?_) fun _ => Follows.pure
      exact Follows.bind (cancelEntry_follows i m fun _ _ => .stopping h) fun _ _ _ => Follows.pure

theorem each_complete_follows (cs : List Completion) (m : Machine σ) :
    Follows (Move env) Eq (each cs (complete env)) m :=
  Follows.each fun c _ t _ => complete_follows c t

theorem controlTransfer_follows {f : σ → (ℤ × List Completion) × σ}
    (h : ∀ w, WorldStep env w (f w).2) (m : Machine σ) :
    Follows (Move env) Eq (controlTransfer env f) m := by
  unfold controlTransfer
  refine Follows.bind (askWorld_follows h m) fun r t _ => ?_
  exact Follows.bind (each_complete_follows r.2 t) fun _ _ _ => Follows.pure

theorem raise_follows {α : Type} (cause : Exn) (m : Machine σ) :
    Follows (Move env) Eq (raise cause : Run σ α) m := Follows.raise rfl

theorem resetEntry_follows (s : ℕ) (stream : FtdiStreamEntry) (m : Machine σ) :
    Follows (Move env) Eq (resetEntry env s stream) m := by
  unfold resetEntry
  refine Follows.ite (fun _ => ?_) fun _ => ?_
  · refine Follows.bind (askWorld_follows (fun _ => .resetCallback s) m) fun r t _ => ?_
    refine Follows.bind (each_complete_follows r.completions t) fun _ u _ => ?_
    exact IsQuiet.follows (fun m => (comeBack_ends r.reply m).mono (fun _ _ h => h.1)
      fun _ _ h => h.1) u
  · refine Follows.bind (controlTransfer_follows (fun _ => .ftdiSetBitmode s) m) fun rc t _ => ?_
    refine Follows.ite (fun _ => raise_follows _ t) fun _ => ?_
    refine Follows.bind (controlTransfer_follows (fun _ => .ftdiTcioflush s) t) fun rc u _ => ?_
    exact Follows.ite (fun _ => raise_follows _ u) fun _ => Follows.pure

theorem resetAt_follows (s : ℕ) (m : Machine σ) :
    Follows (Move env) Eq (resetAt env s) m := by
  unfold resetAt
  refine Follows.look_bind ?_
  rw [id_look]
  cases m.streams[s]? with
  | none => exact raise_follows _ m
  | some stream => exact resetEntry_follows s stream m

/-- Resetting every stream. -/
theorem resetAll_follows (m : Machine σ) :
    Follows (Move env) Eq (processResetStreamEntry env true) m := by
  unfold processResetStreamEntry
  exact Follows.look_bind (Follows.each fun s _ t _ => resetAt_follows s t)

end Stream

end SgFtdi
