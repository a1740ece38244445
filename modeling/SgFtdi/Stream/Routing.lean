import SgFtdi.Stream.Pausing

/-!
# Stream — which transfers a descriptor reaches

All transfers stand in one multimap, by descriptor alone. A request and a
readiness event reach whatever stands under theirs, so they reach the
right transfers only as far as descriptors are not shared. `Apart` says
how far that is: a descriptor named in a request is for the reads of that
stream alone, and no read shares a descriptor with a write.
-/

namespace SgFtdi

namespace Stream

open Prog Relation

variable {σ : Type} {env : Env σ} {m m' m₁ m₂ : Machine σ} {i : ℕ} {fd : ℤ}
variable {e e' : FtdiStreamStaticState} {R : ℕ → Prop}

/-! ## Touching some transfers only -/

/-- An observation of dealings with libusb over transfers of `R` alone. -/
def Obs.within (R : ℕ → Prop) : Obs → Prop
  | .filled i _ => R i
  | .submitted i _ _ _ => R i
  | .cancelled i => R i
  | .completed _ _ _ _ _ _ => False
  | .destroyed _ _ => False
  | _ => True

/-- **Only transfers of `R` are touched**: the other entries are what they
were, and nothing is filled, submitted or cancelled of them. -/
structure Touches (R : ℕ → Prop) (m m' : Machine σ) : Prop where
  others : ∀ i, ¬ R i → m'.entryAt i = m.entryAt i
  trace : Grows (·.what.within R) m.trace m'.trace

namespace Touches

theorem refl : Touches R m m := ⟨fun _ _ => rfl, .refl⟩

theorem aside (h : Touches R m m₁) (hs : m₂.streamstates = m₁.streamstates)
    (ht : m₂.trace = m₁.trace) : Touches R m m₂ := by
  refine ⟨fun i hi => ?_, ht ▸ h.trace⟩
  rw [← h.others i hi]
  unfold FtdiStreamState.entryAt FtdiStreamState.entries
  rw [hs]

theorem note {o : Obs} (h : Touches R m m₁) (ho : o.within R) : Touches R m (m₁.note o) :=
  ⟨h.others, h.trace.trans (.one ho)⟩

theorem modify (h : Touches R m m₁) (hi : R i)
    (f : FtdiStreamStaticState → FtdiStreamStaticState) : Touches R m (m₁.modifyEntry i f) := by
  refine ⟨fun j hj => ?_, h.trace⟩
  have hij : i ≠ j := fun hij => hj (hij ▸ hi)
  rw [entryAt_modifyEntry_ne m₁ hij, h.others j hj]

theorem accepted (h : Touches R m m₁) (s : ℕ) (q : Queued) : Touches R m (m₁.accepted s q) := by
  have hq : Touches R m (m₁.queue q) := by
    cases q <;> exact h.aside rfl rfl
  exact hq.note trivial

end Touches

/-! ## The programs that touch one transfer -/

section Programs

variable {m₀ : Machine σ}

theorem observe_touches {o : Obs} (ho : o.within R) :
    Stays (Touches R m₀) (observe o : Run σ Unit) := Stays.alter fun _ h => h.note ho

theorem modify_touches (hi : R i) (f : FtdiStreamStaticState → FtdiStreamStaticState) :
    Stays (Touches R m₀) (alter (·.modifyEntry i f) : Run σ Unit) :=
  Stays.alter fun _ h => h.modify hi f

theorem touches_undisturbed : Undisturbed (Touches R m₀) where
  withWorld _ _ h := h.aside rfl rfl
  accepted _ s q h := h.accepted s q
  notified _ h := h.aside rfl rfl

theorem libusbSubmitTransfer_touches (hi : R i) :
    Stays (Touches R m₀) (libusbSubmitTransfer env i) := by
  refine Stays.bind Stays.look fun m => Stays.bind (touches_undisturbed.askWorld _) fun rc => ?_
  cases m.entryAt i with
  | none => exact Stays.pure
  | some e =>
      refine Stays.bind (observe_touches hi) fun _ => ?_
      exact Stays.ite (Stays.bind (modify_touches hi _) fun _ => Stays.pure) Stays.pure

theorem submit_touches (hi : R i) : Stays (Touches R m₀) (submit env i) := by
  refine Stays.bind Stays.look fun m => ?_
  cases m.entryAt i with
  | none => exact Stays.pure
  | some e =>
      refine Stays.ite Stays.raise (Stays.ite Stays.pure (Stays.ite Stays.pure
        (Stays.bind ?_ fun n => Stays.bind (modify_touches hi _) fun _ => ?_)))
      · refine Stays.ite Stays.pure (Stays.bind (observe_touches hi) fun _ =>
          Stays.bind (touches_undisturbed.userCall _) fun a => ?_)
        exact Stays.bind (modify_touches hi _) fun _ => Stays.pure
      · refine Stays.ite Stays.raise (Stays.ite (modify_touches hi _) ?_)
        exact Stays.bind (libusbSubmitTransfer_touches hi) fun _ =>
          Stays.ite Stays.raise Stays.pure

theorem arm_touches (hi : R i) : Stays (Touches R m₀) (arm env i) := by
  refine Stays.bind Stays.look fun m => ?_
  cases m.entryAt i with
  | none => exact Stays.pure
  | some e =>
      exact Stays.bind (modify_touches hi _) fun _ => Stays.ite (submit_touches hi) Stays.pure

theorem cancelEntry_touches (hi : R i) : Stays (Touches R m₀) (cancelEntry i : Run σ Unit) := by
  refine Stays.bind Stays.look fun m => ?_
  cases m.entryAt i with
  | none => exact Stays.pure
  | some e =>
      exact Stays.ite (Stays.bind (observe_touches hi) fun _ => modify_touches hi _) Stays.pure

end Programs

/-- **A loop over a descriptor's range** touches what stands under it. -/
theorem enableRange_touches (h : ∀ i ∈ m.equalRange fd, R i) :
    Touches R m (enableRange env fd m).2 :=
  Stays.each (fun i hi => arm_touches (h i hi)) m .refl

theorem disableRange_touches (h : ∀ i ∈ m.equalRange fd, R i) :
    Touches R m (disableRange fd m).2 :=
  Stays.each (fun i hi => cancelEntry_touches (h i hi)) m .refl

/-! ## Descriptors that stand apart -/

/-- The stream of a request about reading, and the descriptor it named. -/
def Obs.reading : Obs → Option (ℕ × ℤ)
  | .asked s (.enable fd) => some (s, fd)
  | .asked s (.disable fd) => some (s, fd)
  | _ => none

/-- **The descriptors stand apart**: under one that was named in a request
are read transfers of that stream only, and no read transfer shares its
descriptor with a write transfer. -/
def FtdiStreamState.ApartIn (m : FtdiStreamState) (t : List Seen) : Prop :=
  (∀ o ∈ t, ∀ r ∈ o.what.reading, ∀ e ∈ m.entries, e.eventfd = r.2 →
    e.isReading = true ∧ e.streamId = r.1) ∧
  ∀ e ∈ m.entries, ∀ e' ∈ m.entries, e.isReading = true → e'.isReading = false →
    e.eventfd ≠ e'.eventfd

instance (m : FtdiStreamState) (t : List Seen) : Decidable (m.ApartIn t) :=
  inferInstanceAs (Decidable (_ ∧ _))

/-- The places of the write transfers. -/
def FtdiStreamState.writes (m : FtdiStreamState) : List ℕ :=
  (List.range m.entries.length).filter fun i => (m.entryAt i).any (!·.isReading)

theorem mem_entries {m : FtdiStreamState} (he : m.entryAt i = some e) : e ∈ m.entries :=
  List.mem_of_getElem? he

theorem lt_of_entryAt {m : FtdiStreamState} (he : m.entryAt i = some e) : i < m.entries.length :=
  (List.getElem?_eq_some_iff.mp he).1

theorem mem_readsOf {s : ℕ} (he : m.entryAt i = some e) (hr : e.isReading = true)
    (hs : e.streamId = s) : i ∈ m.readsOf s := by
  rw [FtdiStreamState.readsOf, List.mem_filter, List.mem_range, decide_eq_true_eq]
  refine ⟨lt_of_entryAt he, ?_⟩
  rw [layout_getElem?, he, Option.map_some, FtdiStreamStaticState.owner, hr, hs]

theorem mem_writes (he : m.entryAt i = some e) (hw : e.isReading = false) : i ∈ m.writes := by
  rw [FtdiStreamState.writes, List.mem_filter, List.mem_range, he]
  exact ⟨lt_of_entryAt he, by simp [hw]⟩

/-- No step changes what an entry is for. -/
theorem steps_same (h : ReflTransGen (Step env) m m') (j : ℕ) :
    Option.Rel Same (m.entryAt j) (m'.entryAt j) := by
  induction h with
  | refl =>
      cases m.entryAt j <;> constructor
      exact Alike.refl.same
  | @tail m₁ m₂ _ hs ih =>
      have hj := hs.lives j
      generalize m.entryAt j = x at ih ⊢
      generalize m₁.entryAt j = y at ih hj
      generalize m₂.entryAt j = z at hj ⊢
      cases ih with
      | none => cases hj; constructor
      | some ha =>
          cases hj with
          | some hb => exact .some (ha.trans hb.same)

/-- What stands apart in the end has stood apart all along. -/
theorem FtdiStreamState.ApartIn.back (h : m'.ApartIn m'.trace)
    (hp : ReflTransGen (Step env) m m') : m.ApartIn m.trace := by
  have hthere : ∀ e ∈ m.entries, ∃ e' ∈ m'.entries, Same e e' := by
    intro e he
    obtain ⟨j, hj⟩ := List.mem_iff_getElem?.mp he
    have hrel := steps_same hp j
    rw [show m.entryAt j = some e from hj] at hrel
    generalize hj' : m'.entryAt j = x at hrel
    cases hrel with
    | some hs => exact ⟨_, mem_entries hj', hs⟩
  refine ⟨fun o ho r hr e he hfd => ?_, fun e₁ he₁ e₂ he₂ h₁ h₂ => ?_⟩
  · obtain ⟨e', he', hs⟩ := hthere e he
    have hown := h.1 o ((steps_trace_grows hp).subset ho) r hr e' he' (hs.eventfd.trans hfd)
    rwa [hs.isReading, hs.streamId] at hown
  · obtain ⟨e₁', he₁', hs₁⟩ := hthere e₁ he₁
    obtain ⟨e₂', he₂', hs₂⟩ := hthere e₂ he₂
    have hne := h.2 e₁' he₁' e₂' he₂' (hs₁.isReading.trans h₁) (hs₂.isReading.trans h₂)
    rwa [hs₁.eventfd, hs₂.eventfd] at hne

/-! ## A transfer that is off -/

/-- A request to read under this descriptor was accepted in between, or it
is on no list and the transfer is off. -/
def StaysOff (i : ℕ) (fd : ℤ) (m m' : Machine σ) : Prop :=
  (∃ o ∈ since m m', ∃ s, o.what = .asked s (.enable fd)) ∨
    (¬ m'.lists.Holds (.enable fd) ∧ ∀ e, m'.entryAt i = some e → e.enabled = false)

/-- **What keeps a transfer off**: the list does not name it, and no write
transfer becomes ready under its descriptor. -/
theorem StaysOff.step (h : StaysOff i fd m m₁) (hp : m.trace <+: m₁.trace)
    (hst : Step env m₁ m₂) (hwatch : m₁.Watching)
    (hlone : ∀ e ∈ m₁.entries, e.eventfd = fd → e.isReading = true)
    (hfd : ∀ e, m₁.entryAt i = some e → e.eventfd = fd) : StaysOff i fd m m₂ := by
  rcases h with ⟨o, ho, hs⟩ | ⟨hlist, hoff⟩
  · exact .inl ⟨o, since_mono hp hst.trace_grows ho, hs⟩
  by_cases hq : m₂.lists.Holds (.enable fd)
  · rcases hst.asked hq with hq | ⟨o, ho, hs⟩
    · exact absurd hq hlist
    · exact .inl ⟨o, since_subset hp ho, hs⟩
  refine .inr ⟨hq, fun e' he' => ?_⟩
  rw [Bool.eq_false_iff]
  intro hon
  obtain ⟨e, he, -⟩ := hst.lives.back he'
  have hwhy := hst.why he he' (hoff e he) hon
  rw [hfd e he] at hwhy
  cases hwhy with
  | asked _ hmem => exact hlist hmem
  | ready hset h₁ h₂ h₃ =>
      rcases hwatch fd hset with h | h | h | ⟨j, e₁, he₁, hw, hfd₁⟩
      · exact h₁ h
      · exact h₂ h
      · exact h₃ h
      · rw [hlone e₁ (mem_entries he₁) hfd₁] at hw
        cases hw

/-- **A read transfer that is off stays off** along a path, unless a
request names its descriptor. -/
theorem staysOff_of_path (hp : ReflTransGen (Step env) m m') (hwatch : m.Watching)
    (hapart : m.ApartIn m.trace) (he : m.entryAt i = some e) (hr : e.isReading = true)
    (hoff : e.enabled = false) (hlist : ¬ m.lists.Holds (.enable e.eventfd)) :
    StaysOff i e.eventfd m m' := by
  induction hp with
  | refl =>
      refine .inr ⟨hlist, fun e' he' => ?_⟩
      rw [he, Option.some_inj] at he'
      exact he' ▸ hoff
  | @tail m₁ m₂ hp hst ih =>
      have hwatch₁ : m₁.Watching := inv_of_path (fun _ _ hs => hs.watching) hp hwatch
      refine ih.step (steps_trace_grows hp) hst hwatch₁ (fun e₁ he₁ hfd => ?_) fun e₁ he₁ => ?_
      · obtain ⟨j, hj⟩ := List.mem_iff_getElem?.mp he₁
        have hrel := steps_same hp j
        rw [show m₁.entryAt j = some e₁ from hj] at hrel
        generalize hj' : m.entryAt j = x at hrel
        cases hrel with
        | @some e₀ _ hs =>
            rw [hs.isReading]
            by_contra hw
            exact hapart.2 e (mem_entries he) _ (mem_entries hj') hr (by simpa using hw)
              (hfd.symm.trans hs.eventfd)
      · exact (rel_of_entryAt (steps_same hp i) he he₁).eventfd

/-- **Requests and readiness events reach the right transfers**, where the
descriptors stand apart. From every state of a session, what is on the
lists was asked for by a stream; such a request reaches read transfers of
that stream only, and a write descriptor that is ready reaches write
transfers only. A read transfer that is off, and that no request waiting
on the list is about to switch on, stays off until one for its stream is
accepted. -/
theorem routed (env : Env σ) (m₀ m m' : Machine σ) (actions : List Action)
    (h : Reached env m₀ m) (hrun : engineRun env actions m = (.ret (), m'))
    (hapart : m'.ApartIn m'.trace) :
    (∀ fd, fd ∈ m.listEnable ∨ fd ∈ m.listDisable →
      ∃ s, ∃ o ∈ m.trace, o.what.reading = some (s, fd)) ∧
    (∀ s fd, (∃ o ∈ m.trace, o.what.reading = some (s, fd)) →
      Touches (· ∈ m.readsOf s) m (enableRange env fd m).2 ∧
      Touches (· ∈ m.readsOf s) m (disableRange fd m).2) ∧
    (∀ e ∈ m.entries, e.isReading = false →
      Touches (· ∈ m.writes) m (eventReady env e.eventfd m).2) ∧
    ∀ i e e', m.entryAt i = some e → e.isReading = true → e.enabled = false →
      e.eventfd ∉ m.listEnable → m'.entryAt i = some e' → e'.enabled = true →
      ∃ o ∈ since m m', ∃ fd, o.what = .asked e.streamId (.enable fd) := by
  have hp := engineRun_steps hrun
  have hnow := hapart.back hp
  refine ⟨fun fd hfd => ?_, fun s fd ⟨o, ho, hread⟩ => ?_, fun e he hw => ?_,
    fun i e e' he hr hoff hlist he' hon => ?_⟩
  · rcases hfd with hfd | hfd
    · obtain ⟨o, ho, s, hs⟩ := h.asked (q := .enable fd) hfd
      exact ⟨s, o, ho, by rw [hs]; rfl⟩
    · obtain ⟨o, ho, s, hs⟩ := h.asked (q := .disable fd) hfd
      exact ⟨s, o, ho, by rw [hs]; rfl⟩
  · -- a request reaches the read transfers of the stream that made it
    have hreads : ∀ i ∈ m.equalRange fd, i ∈ m.readsOf s := by
      intro i hi
      obtain ⟨e, he, hfd⟩ := mem_equalRange_iff.mp hi
      obtain ⟨hr, hs⟩ := hnow.1 o ho (s, fd) hread e (mem_entries he) hfd
      exact mem_readsOf he hr hs
    exact ⟨enableRange_touches hreads, disableRange_touches hreads⟩
  · refine enableRange_touches fun i hi => ?_
    obtain ⟨e₁, he₁, hfd⟩ := mem_equalRange_iff.mp hi
    refine mem_writes he₁ (Bool.eq_false_iff.mpr fun hr => ?_)
    exact hnow.2 e₁ (mem_entries he₁) e he hr hw hfd
  · rcases staysOff_of_path hp h.watching hnow he hr hoff hlist with ⟨o, ho, s, hs⟩ | ⟨-, hstill⟩
    · -- the stream that asked is the one whose descriptor this is
      have hsame := rel_of_entryAt (steps_same hp i) he he'
      obtain ⟨-, hown⟩ := hapart.1 o (List.mem_of_mem_drop ho) (s, e.eventfd)
        (by rw [hs]; rfl) e' (mem_entries he') hsame.eventfd
      rw [hsame.streamId] at hown
      exact ⟨o, ho, e.eventfd, by rw [hs, hown]⟩
    · exact absurd ((hstill e' he').symm.trans hon) Bool.false_ne_true

/-- A stream that reads and writes, its reading disabled by another thread:
the request reaches its read transfer only. -/
theorem routed_sample :
    ∃ m, Session steady (constructed [sampleStream 64 1 1, sampleStream 64 1 0] ⟨64, 4096⟩ 4) .poll
      [.thread (.accept (.disable 0))] m ∧
      Touches (· ∈ m.readsOf 0) m (disableRange 100 m).2 := by
  have hidle : Idle (constructed [sampleStream 64 1 1, sampleStream 64 1 0] ⟨64, 4096⟩ 4) :=
    constructed_idle (by decide +kernel)
  obtain ⟨m, hm, hasked, hret, hapart⟩ := exists_session (P := fun m =>
      (∃ o ∈ m.trace, o.what.reading = some (0, 100)) ∧
      (engineRun steady (pause 0 [0]) m).1 = .ret () ∧
      (engineRun steady (pause 0 [0]) m).2.ApartIn (engineRun steady (pause 0 [0]) m).2.trace)
    steady .poll [.thread (.accept (.disable 0))] hidle (by decide +kernel)
  have hrun : engineRun steady (pause 0 [0]) m = (.ret (), _) := Prod.ext hret rfl
  exact ⟨m, hm, ((routed steady _ m _ _ hm.path hrun hapart).2.1 0 100 hasked).2⟩

/-- A world in which one descriptor is given for everything. -/
def sharing : Env ℕ := { steady with
  callback := fun _ _ type _ _ w =>
    (⟨.ok (if type = .readGetFd ∨ type = .writeGetFd then 100 else 0, []), []⟩, w) }

/-- A stream that is not read from until it is asked to. -/
def quietStream : FtdiStreamEntry := { sampleStream 64 1 1 with readStartEnabled := false }

/-- **Where a descriptor is shared** both go astray. The write descriptor of
the first stream becomes ready, and its read transfer is submitted though
no request was made; then reading from the first stream is disabled, and
the read transfer of the second is cancelled. -/
theorem misrouted :
    ∃ m m' m'', Session sharing (constructed [quietStream, sampleStream 64 1 0] ⟨64, 4096⟩ 4) .poll
        [] m ∧
      (m.shouldRun = true ∧ (m.entryAt 0).any (fun e => e.isReading && !e.enabled) = true ∧
        m.listEnable = .empty) ∧
      engineRun sharing [readies 100] m = (.ret (), m') ∧
      (m'.shouldRun = true ∧ ⟨true, .submitted 0 false 64 true⟩ ∈ since m m' ∧
        (∀ o ∈ m'.trace, o.what.isAsked = false)) ∧
      engineRun sharing [.thread (.accept (.disable 0)), .thread .notify, readies 3] m' =
        (.ret (), m'') ∧
      m''.shouldRun = true ∧ 2 ∈ m'.readsOf 1 ∧ ⟨true, .cancelled 2⟩ ∈ since m' m'' ∧
        ∀ o ∈ m''.trace, ∀ r ∈ o.what.reading, r.1 = 0 := by
  have hidle : Idle (constructed [quietStream, sampleStream 64 1 0] ⟨64, 4096⟩ 4) :=
    constructed_idle (by decide +kernel)
  obtain ⟨m, hm, h₁, h₂, h₃, h₄, h₅⟩ := exists_session (P := fun m =>
      (m.shouldRun = true ∧ (m.entryAt 0).any (fun e => e.isReading && !e.enabled) = true ∧
        m.listEnable = .empty) ∧
      (engineRun sharing [readies 100] m).1 = .ret () ∧
      ((engineRun sharing [readies 100] m).2.shouldRun = true ∧
        ⟨true, .submitted 0 false 64 true⟩ ∈ since m (engineRun sharing [readies 100] m).2 ∧
        (∀ o ∈ (engineRun sharing [readies 100] m).2.trace, o.what.isAsked = false)) ∧
      (engineRun sharing [.thread (.accept (.disable 0)), .thread .notify, readies 3]
        (engineRun sharing [readies 100] m).2).1 = .ret () ∧
      (engineRun sharing [.thread (.accept (.disable 0)), .thread .notify, readies 3]
          (engineRun sharing [readies 100] m).2).2.shouldRun = true ∧
        2 ∈ (engineRun sharing [readies 100] m).2.readsOf 1 ∧
        ⟨true, .cancelled 2⟩ ∈ since (engineRun sharing [readies 100] m).2
          (engineRun sharing [.thread (.accept (.disable 0)), .thread .notify, readies 3]
            (engineRun sharing [readies 100] m).2).2 ∧
        ∀ o ∈ (engineRun sharing [.thread (.accept (.disable 0)), .thread .notify, readies 3]
            (engineRun sharing [readies 100] m).2).2.trace, ∀ r ∈ o.what.reading, r.1 = 0)
    sharing .poll [] hidle (by decide +kernel)
  exact ⟨m, _, _, hm, h₁, Prod.ext h₂ rfl, h₃, Prod.ext h₄ rfl, h₅⟩

end Stream

end SgFtdi
