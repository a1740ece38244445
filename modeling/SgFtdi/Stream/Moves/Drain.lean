import SgFtdi.Stream.Moves.Move

/-!
# Stream — draining the request lists

Under `list_mutex` the engine resets, switches on and asks to cancel what
the three lists name, and clears each list when it has been dealt with.
`Settled` says what that means for a descriptor on `list_enable`: every
read transfer under it is on, unless it has nothing to read into.
`drain_ends` is the whole of it: moves and cleared lists, up to the end
or up to an exception.
-/

namespace SgFtdi

namespace Stream

open Prog Relation

variable {σ : Type} (env : Env σ)

/-! ## Dealing with a descriptor -/

/-- A read transfer at this place is on, unless there is nothing it could
read into. -/
def Machine.SettledAt (m : Machine σ) (i : ℕ) : Prop :=
  m.shouldRun = true → ∀ e, m.entryAt i = some e → e.isReading = true →
    e.enabled = true ∨ e.bufferSize = 0

/-- **A descriptor is settled** when every read transfer under it is on. -/
def Machine.Settled (m : Machine σ) (fd : ℤ) : Prop := ∀ i ∈ m.equalRange fd, m.SettledAt i

variable {env} {m m' m₁ m₂ : Machine σ} {i : ℕ} {fd : ℤ}

theorem mem_equalRange_iff {m : FtdiStreamState} :
    i ∈ m.equalRange fd ↔ ∃ e, m.entryAt i = some e ∧ e.eventfd = fd := Multimap.mem_equalRange

/-- A switched-on read transfer stays on while the engine runs. -/
theorem AllLive.settledAt (h : AllLive m m') (hrun : m'.shouldRun = true → m.shouldRun = true)
    (hs : m.SettledAt i) : m'.SettledAt i := by
  intro hr e' he' hread
  obtain ⟨e, he, hl⟩ := h.back he'
  have hbefore := hs (hrun hr) e he (hl.same.isReading ▸ hread)
  rw [hl.same.bufferSize]
  cases hl.life with
  | kept h₁ _ _ => rwa [h₁]
  | down _ _ _ h₄ =>
      rcases hbefore with hen | hb
      · have hr₂ := (h₄ hr).2 hen
        rw [← hl.same.isReading, hread] at hr₂
        cases hr₂
      · exact .inr hb
  | up _ _ h₃ _ _ _ => exact .inl h₃
  | stranded _ h₂ _ _ => exact .inl h₂

/-- The places under a descriptor do not change. -/
theorem AllLive.mem_equalRange (h : AllLive m m') :
    i ∈ m'.equalRange fd ↔ i ∈ m.equalRange fd := by
  rw [mem_equalRange_iff, mem_equalRange_iff]
  constructor
  · rintro ⟨e', he', hfd⟩
    obtain ⟨e, he, hl⟩ := h.back he'
    exact ⟨e, he, hl.same.eventfd ▸ hfd⟩
  · rintro ⟨e, he, hfd⟩
    obtain ⟨e', he', hl⟩ := h.entry he
    exact ⟨e', he', hl.same.eventfd.trans hfd⟩

/-! ## Along a path of moves -/

theorem moves_kept (h : ReflTransGen (Move env) m m') : Kept m m' := by
  induction h with
  | refl => exact .refl
  | tail _ hs ih => exact ih.trans hs.kept

theorem moves_mem_equalRange (h : ReflTransGen (Move env) m m') :
    i ∈ m'.equalRange fd ↔ i ∈ m.equalRange fd := by
  induction h with
  | refl => exact Iff.rfl
  | tail _ hs ih => exact hs.lives.mem_equalRange.trans ih

theorem moves_settledAt (h : ReflTransGen (Move env) m m') (hs : m.SettledAt i) :
    m'.SettledAt i :=
  inv_of_path (I := fun m => m.SettledAt i) (fun _ _ hst => hst.lives.settledAt hst.kept.stays)
    h hs

theorem moves_settled (h : ReflTransGen (Move env) m m') (hs : m.Settled fd) :
    m'.Settled fd := fun i hi => moves_settledAt h (hs i ((moves_mem_equalRange h).mp hi))

theorem WhyOn.along (hw : WhyOn m fd) (h : Kept m m') : WhyOn m' fd := by
  cases hw with
  | asked hl hfd => exact .asked (h.listMutex.trans hl) (h.listEnable hl ▸ hfd)
  | ready h₁ h₂ h₃ h₄ =>
      exact .ready (h.epollSet ▸ h₁) (h.usbEpollFd ▸ h₂) (h.noticeEventFd ▸ h₃) (h.timerFd ▸ h₄)

theorem WhyOff.along (hw : WhyOff m fd) (h : Kept m m') : WhyOff m' fd := by
  cases hw with
  | asked hl hfd => exact .asked (h.listMutex.trans hl) (h.listDisable hl ▸ hfd)
  | stopping hr => exact .stopping (Bool.eq_false_iff.mpr fun hr' => by simp [h.stays hr'] at hr)

/-! ## The loops over a descriptor's range -/

/-- After `submit` a read transfer that was enabled is on, or has nothing
to read into. -/
theorem submitted_settledAt (h : Submitted env i (m.modifyEntry i (.setEnabled true)) m') :
    m'.SettledAt i := by
  intro hr e' he' hread
  cases he : m.entryAt i with
  | none =>
      have hn : (m.modifyEntry i (.setEnabled true)).entryAt i = none := by
        rw [entryAt_modifyEntry_self, he]
        rfl
      cases h with
      | kept _ => rw [hn] at he'; cases he'
      | idle h₁ _ _ _ => rw [hn] at h₁; cases h₁
      | launched h₁ _ _ _ _ _ => rw [hn] at h₁; cases h₁
  | some e =>
      have he₁ : (m.modifyEntry i (.setEnabled true)).entryAt i = some (e.setEnabled true) := by
        rw [entryAt_modifyEntry_self, he]
        rfl
      obtain ⟨e₂, he₂, hs, hcase⟩ := h.entry he₁
      rw [he₂, Option.some_inj] at he'
      subst he'
      rcases hcase with ⟨h₁, -, -⟩ | ⟨-, -, -, h₄⟩ | ⟨-, -, h₂, -⟩
      · exact .inl h₁
      · exact .inr (hs.bufferSize.trans (h₄ (hs.isReading ▸ hread)))
      · exact .inl h₂

theorem arm_settles (i : ℕ) (m : Machine σ) :
    Ends (arm env i) (fun _ m' => m'.SettledAt i) (fun _ _ => True) m := by
  unfold arm
  rw [ends_bind, ends_look, id_look]
  cases he : m.entryAt i with
  | none => exact fun _ e he' => by simp [he] at he'
  | some e =>
      simp only [ends_bind, ends_alter, ends_ite]
      refine ⟨fun _ => (submit_ends i _).mono (fun _ _ => submitted_settledAt) fun _ _ _ => trivial,
        fun _ => ?_⟩
      intro _ e' he' _
      rw [entryAt_modifyEntry_self, he, Option.map_some, Option.some_inj] at he'
      subst he'
      exact .inl rfl

/-- What an entry of a range is, wherever a path of moves has led. -/
theorem eventfd_of_range {t : Machine σ} {e : FtdiStreamStaticState} (hi : i ∈ m.equalRange fd)
    (ht : ReflTransGen (Move env) m t) (he : t.entryAt i = some e) : e.eventfd = fd := by
  obtain ⟨e', he', hfd⟩ := mem_equalRange_iff.mp ((moves_mem_equalRange ht).mpr hi)
  rw [he, Option.some_inj] at he'
  exact he' ▸ hfd

/-- **The loop over a descriptor's range** moves for the reason it runs
for, and settles the descriptor. -/
theorem enableRange_ends (h : WhyOn m fd) :
    Ends (enableRange env fd) (fun _ m' => ReflTransGen (Move env) m m' ∧ m'.Settled fd)
      (fun _ m' => ∃ u, ReflTransGen (Move env) m u ∧ Broken env u m') m := by
  unfold enableRange
  rw [ends_bind, ends_look, id_look]
  refine (Follows.each_achieves (P := fun i t => t.SettledAt i) (fun _ _ _ => moves_settledAt)
    fun i hi t ht => ?_).mono ?_ fun _ _ he => he
  · have hwhy : ∀ e, t.entryAt i = some e → WhyOn t e.eventfd := fun e he =>
      eventfd_of_range hi ht he ▸ h.along (moves_kept ht)
    refine ((arm_follows i t hwhy).and (arm_settles i t)).mono (fun _ _ h => h) fun _ _ h => h.1
  · rintro _ t ⟨ht, hall⟩
    exact ⟨ht, fun i hi => hall i ((moves_mem_equalRange ht).mp hi)⟩

theorem enableRange_follows (h : WhyOn m fd) :
    Follows (Move env) (Broken env) (enableRange env fd) m :=
  (enableRange_ends h).mono (fun _ _ h => h.1) fun _ _ h => h

theorem disableRange_follows (h : WhyOff m fd) :
    Follows (Move env) (Broken env) (disableRange fd) m := by
  unfold disableRange
  exact Follows.look_bind (Follows.each fun i hi t ht => cancelEntry_follows i t fun e he =>
    eventfd_of_range hi ht he ▸ h.along (moves_kept ht))

/-! ## Draining the lists -/

/-- **A list is cleared** when it has been dealt with. -/
inductive Cleared (m : Machine σ) : Machine σ → Prop
  | reset : Cleared m { m with listReset := .empty }
  | enable : (∀ fd ∈ m.listEnable, m.Settled fd) → Cleared m { m with listEnable := .empty }
  | disable : Cleared m { m with listDisable := .empty }

variable (env)

/-- A step under `list_mutex`. -/
inductive Draining (m : Machine σ) : Machine σ → Prop
  | move {m' : Machine σ} : Move env m m' → Draining m m'
  | cleared {m' : Machine σ} : m.listMutex = true → Cleared m m' → Draining m m'

/-- The state in which the engine has taken `list_mutex` and looks at the
lists. -/
def Machine.locked (m : Machine σ) : Machine σ :=
  Machine.note { m with listMutex := true }
    (.drained m.listEnable.elems m.listDisable.elems m.listReset.elems)

/-- The state after it is released. -/
def Machine.unlocked (m : Machine σ) : Machine σ := { m with listMutex := false }

variable {env}

theorem draining_of_moves (h : ReflTransGen (Move env) m m') :
    ReflTransGen (Draining env) m m' := ReflTransGen.mono (fun _ _ hs => .move hs) _ _ h

/-- The resets of a drain, up to the list they clear. -/
theorem resetListed_ends (hl : m.listMutex = true) :
    Ends (processResetStreamEntry env false)
      (fun _ t => ReflTransGen (Draining env) m t ∧ t.listReset = .empty ∧ t.listMutex = true)
      (fun _ t => ∃ u, ReflTransGen (Draining env) m u ∧ Broken env u t) m := by
  unfold processResetStreamEntry
  rw [ends_bind, ends_look, id_look, if_neg Bool.false_ne_true, ends_bind]
  refine Ends.mono (follows_broken (Follows.each fun s _ t _ => resetAt_follows s t)) ?_ ?_
  · intro _ t ht
    have hlt : t.listMutex = true := (moves_kept ht).listMutex.trans hl
    exact ⟨(draining_of_moves ht).tail (.cleared hlt .reset), rfl, hlt⟩
  · rintro _ t ⟨u, hu, hb⟩
    exact ⟨u, draining_of_moves hu, hb⟩

/-- **A drain deals with every list and clears it**, or breaks off. -/
theorem drain_ends (hl : m.listMutex = true) :
    Ends (drain env)
      (fun _ t => ReflTransGen (Draining env) (m.note
          (.drained m.listEnable.elems m.listDisable.elems m.listReset.elems)) t ∧
        t.listEnable = .empty ∧ t.listDisable = .empty ∧ t.listReset = .empty ∧
        t.listMutex = true)
      (fun _ t => ∃ u, ReflTransGen (Draining env) (m.note
          (.drained m.listEnable.elems m.listDisable.elems m.listReset.elems)) u ∧
        Broken env u t) m := by
  unfold drain
  rw [ends_bind, ends_look, id_look, ends_bind, ends_observe, ends_bind]
  generalize hm₀ : m.note (.drained m.listEnable.elems m.listDisable.elems
    m.listReset.elems) = m₀
  have hl₀ : m₀.listMutex = true := by rw [← hm₀]; exact hl
  clear hm₀ hl
  refine (resetListed_ends hl₀).mono ?_ fun _ _ he => he
  rintro _ m₁ ⟨hp₁, hr₁, hl₁⟩
  rw [ends_bind, ends_look, id_look, ends_bind]
  -- the loop over `list_enable` settles each of its descriptors
  refine (Follows.each_achieves (S := Move env) (B := Broken env)
    (P := fun fd t => t.Settled fd) (fun _ _ _ => moves_settled) fun fd hfd t ht => ?_).mono ?_ ?_
  · refine enableRange_ends (WhyOn.along (.asked hl₁ ?_) (moves_kept ht))
    exact Unordered.mem_walk.mp hfd
  · rintro _ m₂ ⟨hp₂, hset⟩
    have hk₂ := moves_kept hp₂
    have hl₂ : m₂.listMutex = true := hk₂.listMutex.trans hl₁
    have hen : ∀ fd ∈ m₂.listEnable, m₂.Settled fd := by
      rw [hk₂.listEnable hl₁]
      exact fun fd hfd => hset fd (Unordered.mem_walk.mpr hfd)
    rw [ends_bind, ends_alter, ends_bind, ends_look, id_look, ends_bind]
    generalize hm₃ : ({ m₂ with listEnable := .empty } : Machine σ) = m₃
    have hp₃ : ReflTransGen (Draining env) m₀ m₃ := by
      rw [← hm₃]
      exact (hp₁.trans (draining_of_moves hp₂)).tail (.cleared hl₂ (.enable hen))
    have hl₃ : m₃.listMutex = true := by rw [← hm₃]; exact hl₂
    have hr₃ : m₃.listReset = .empty := by rw [← hm₃]; exact (hk₂.listReset hl₁).trans hr₁
    have he₃ : m₃.listEnable = .empty := by rw [← hm₃]
    have hdisable : Follows (Move env) (Broken env)
        (each (m₃.listDisable.walk (env.shuffle m₃.world)) disableRange) m₃ :=
      Follows.each fun fd hfd t ht => disableRange_follows
        (WhyOff.along (.asked hl₃ (Unordered.mem_walk.mp hfd)) (moves_kept ht))
    refine Ends.mono hdisable ?_ ?_
    · intro _ m₄ hp₄
      have hk₄ := moves_kept hp₄
      have hl₄ : m₄.listMutex = true := hk₄.listMutex.trans hl₃
      refine ⟨(hp₃.trans (draining_of_moves hp₄)).tail (.cleared hl₄ .disable), ?_, rfl, ?_, hl₄⟩
      · exact (hk₄.listEnable hl₃).trans he₃
      · exact (hk₄.listReset hl₃).trans hr₃
    · rintro _ t ⟨u, hu, hb⟩
      exact ⟨u, hp₃.trans (draining_of_moves hu), hb⟩
  · rintro _ t ⟨u, hu, hb⟩
    exact ⟨u, hp₁.trans (draining_of_moves hu), hb⟩

/-- **The lock guard around a drain.** -/
theorem lockedDrain_ends (m : Machine σ) :
    Ends (lockedDrain env)
      (fun _ t => ∃ u, ReflTransGen (Draining env) m.locked u ∧ u.listEnable = .empty ∧
        u.listDisable = .empty ∧ u.listReset = .empty ∧ u.listMutex = true ∧ t = u.unlocked)
      (fun _ t => ∃ u v, ReflTransGen (Draining env) m.locked u ∧ Broken env u v ∧
        t = v.unlocked) m := by
  unfold lockedDrain
  rw [ends_bind, ends_alter, ends_leaving]
  refine (drain_ends (m := { m with listMutex := true }) rfl).mono ?_ ?_
  · rintro _ t ⟨hp, h₁, h₂, h₃, h₄⟩
    exact ⟨t, hp, h₁, h₂, h₃, h₄, rfl⟩
  · rintro _ t ⟨u, hu, hb⟩
    exact ⟨u, t, hu, hb, rfl⟩

end Stream

end SgFtdi
