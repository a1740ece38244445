import SgFtdi.Stream.Stopping

/-!
# Stream — the life cycle of an object and its descriptors

Whatever is called on an object, at every moment each descriptor that was
opened and not closed since is held in one of its three places, and there
are none without entries. So nothing is closed twice, and nothing is lost
by being overwritten. Between calls an object in neither mode holds
nothing. A destructor closes what is left, unless an exception leaves its
shutdown.
-/

namespace SgFtdi

namespace Stream

open Prog Relation

variable {σ : Type} {env : Env σ} {m m' : Machine σ} {b : Phase} {c c' : Outline}
variable {r : ℤ → Prop} {t : List Seen} {v : ℤ}

/-- How often a descriptor was opened. -/
def openings (v : ℤ) (t : List Seen) : ℕ := t.countP fun o => o.what = .opened v

/-- How often it was closed. -/
def closings (v : ℤ) (t : List Seen) : ℕ := t.countP fun o => o.what = .closed v

/-- Whether a place holds a descriptor, as a number. -/
def place (fd v : ℤ) : ℕ := if fd = v then 1 else 0

/-- In how many places it is held. -/
def Outline.holds (c : Outline) (v : ℤ) : ℕ :=
  place c.epollFd v + place c.usbEpollFd v + place c.timerFd v

/-- **The balance of an object's life**: never both modes; where there are no
entries no descriptor is open; and what was opened is closed or held. -/
structure Outline.Balanced (c : Outline) : Prop where
  modes : ¬ (c.isStartedThr = true ∧ c.isStartedPoll = true)
  bare : c.made = false → c.Bare
  low : -1 ≤ c.epollFd ∧ -1 ≤ c.usbEpollFd ∧ -1 ≤ c.timerFd
  balance : ∀ v, 0 ≤ v → openings v c.trace = closings v c.trace + c.holds v

/-! ## What one step does to the balance -/

theorem openings_note (v : ℤ) (t : List Seen) (run : Bool) (o : Obs) :
    openings v (t ++ [⟨run, o⟩]) = openings v t + if o = .opened v then 1 else 0 := by
  simp [openings, List.countP_append, List.countP_singleton]

theorem closings_note (v : ℤ) (t : List Seen) (run : Bool) (o : Obs) :
    closings v (t ++ [⟨run, o⟩]) = closings v t + if o = .closed v then 1 else 0 := by
  simp [closings, List.countP_append, List.countP_singleton]

/-- **One observation keeps the balance** where what it opens and closes is
what the places gain and lose. -/
theorem Outline.Balanced.andNote (h : c.Balanced) {o : Obs} {run : Bool}
    (ht : c'.trace = c.trace ++ [⟨run, o⟩])
    (hholds : ∀ v, 0 ≤ v → c.holds v + (if o = .opened v then 1 else 0) =
      c'.holds v + if o = .closed v then 1 else 0) :
    ∀ v, 0 ≤ v → openings v c'.trace = closings v c'.trace + c'.holds v := by
  intro v hv
  have hbal := h.balance v hv
  have hgain := hholds v hv
  rw [ht, openings_note, closings_note]
  omega

/-- What neither opens nor closes is nothing to the balance. -/
theorem Outline.Balanced.note {o : Obs} (h : c.Balanced) (ho : ∀ v, o ≠ .opened v)
    (hc : ∀ v, o ≠ .closed v) : (c.note o).Balanced where
  modes := h.modes
  bare hm := (h.bare hm).same ⟨rfl, rfl, rfl, rfl⟩
  low := h.low
  balance := h.andNote rfl fun v _ => by rw [if_neg (ho v), if_neg (hc v)]; rfl

theorem Obs.apart_of_lasting {o : Obs} (h : o.lasting = false) :
    (∀ v, o ≠ .opened v) ∧ ∀ v, o ≠ .closed v := by
  constructor <;> rintro v rfl <;> cases h

theorem Obs.apart_of_works {o : Obs} (h : o.works = true) :
    (∀ v, o ≠ .opened v) ∧ ∀ v, o ≠ .closed v := by
  constructor <;> rintro v rfl <;> cases h

/-- A place in which nothing is held. -/
theorem place_neg {fd : ℤ} (h : fd < 0) (hv : 0 ≤ v) : place fd v = 0 := if_neg (by omega)

theorem opened_place (fd v : ℤ) : (if Obs.opened fd = .opened v then 1 else 0) = place fd v := by
  simp [place]

theorem closed_place (fd v : ℤ) : (if Obs.closed fd = .closed v then 1 else 0) = place fd v := by
  simp [place]

theorem holds_bare (h : c.Bare) (hv : 0 ≤ v) : c.holds v = 0 := by
  unfold Outline.holds
  rw [place_neg h.epollFd hv, place_neg h.usbEpollFd hv, place_neg h.timerFd hv]

/-- **A place is filled** by what was opened. -/
theorem Outline.Balanced.opens {old fd : ℤ} {run : Bool} (h : c.Balanced)
    (ht : c'.trace = c.trace ++ [⟨run, .opened fd⟩]) (hold : old < 0)
    (hswap : ∀ v, c'.holds v + place old v = c.holds v + place fd v) :
    ∀ v, 0 ≤ v → openings v c'.trace = closings v c'.trace + c'.holds v := by
  refine h.andNote ht fun v hv => ?_
  have hs := hswap v
  rw [place_neg hold hv] at hs
  simp only [opened_place, reduceCtorEq, if_false]
  omega

/-- **A place is emptied** of what was closed. -/
theorem Outline.Balanced.closes {old : ℤ} {run : Bool} (h : c.Balanced)
    (ht : c'.trace = c.trace ++ [⟨run, .closed old⟩])
    (hswap : ∀ v, c'.holds v + place old v = c.holds v + place (-1) v) :
    ∀ v, 0 ≤ v → openings v c'.trace = closings v c'.trace + c'.holds v := by
  refine h.andNote ht fun v hv => ?_
  have hs := hswap v
  have hnone : place (-1) v = 0 := place_neg (by decide) hv
  simp only [closed_place, reduceCtorEq, if_false]
  omega

/-- **A place stays empty** where nothing was opened. -/
theorem Outline.Balanced.refuses {old fd : ℤ} (h : c.Balanced) (ht : c'.trace = c.trace)
    (hold : old < 0) (hfd : fd < 0)
    (hswap : ∀ v, c'.holds v + place old v = c.holds v + place fd v) :
    ∀ v, 0 ≤ v → openings v c'.trace = closings v c'.trace + c'.holds v := by
  intro v hv
  have hbal := h.balance v hv
  have hs := hswap v
  rw [place_neg hold hv, place_neg hfd hv] at hs
  rw [ht]
  omega

/-- **A beat keeps the balance**, where a descriptor is refused by `-1`. -/
theorem Beat.balanced (hb : ∀ fd, b.opens = true → b.refuses fd → fd = -1) (h : Beat b c c')
    (hc : c.Balanced) : c'.Balanced := by
  obtain ⟨hl₁, hl₂, hl₃⟩ := hc.low
  have hneg : (-1 : ℤ) < 0 := by decide
  cases h with
  | noted _ hl => exact hc.note (Obs.apart_of_lasting hl).1 (Obs.apart_of_lasting hl).2
  | worked hw _ => exact hc.note (Obs.apart_of_works hw).1 (Obs.apart_of_works hw).2
  | stopped =>
      exact ⟨hc.modes, fun hm => (hc.bare hm).same ⟨rfl, rfl, rfl, rfl⟩, hc.low, hc.balance⟩
  | asked => exact ⟨hc.modes, fun hm => (hc.bare hm).same ⟨rfl, rfl, rfl, rfl⟩, hc.low, hc.balance⟩
  | begun now _ hm =>
      refine ⟨hc.modes, fun h => absurd h.symm Bool.false_ne_true, ⟨le_rfl, le_rfl, le_rfl⟩, ?_⟩
      refine hc.andNote rfl fun v hv => ?_
      rw [holds_bare (hc.bare hm) hv]
      simp only [reduceCtorEq, if_false, Outline.holds, Outline.note, place_neg hneg hv]
  -- what is refused is `-1`, so that nothing is open in its place
  | refused hs hfd hr hold =>
      refine ⟨hc.modes, fun hm => ?_, ⟨(hb _ hs hr).ge, hl₂, hl₃⟩,
        hc.refuses rfl hold hfd fun v => by simp only [Outline.holds]; omega⟩
      exact ⟨hm, hfd, (hc.bare hm).usbEpollFd, (hc.bare hm).timerFd⟩
  | refusedUsb hs hfd hr hold =>
      refine ⟨hc.modes, fun hm => ?_, ⟨hl₁, (hb _ hs hr).ge, hl₃⟩,
        hc.refuses rfl hold hfd fun v => by simp only [Outline.holds]; omega⟩
      exact ⟨hm, (hc.bare hm).epollFd, hfd, (hc.bare hm).timerFd⟩
  | refusedTimer hs hfd hr hold =>
      refine ⟨hc.modes, fun hm => ?_, ⟨hl₁, hl₂, (hb _ hs hr).ge⟩,
        hc.refuses rfl hold hfd fun v => by simp only [Outline.holds]; omega⟩
      exact ⟨hm, (hc.bare hm).epollFd, (hc.bare hm).usbEpollFd, hfd⟩
  -- the place was empty, and one more descriptor is open
  | opened hs hfd hmade hold =>
      exact ⟨hc.modes, fun h => absurd (h.symm.trans hmade) Bool.false_ne_true,
        ⟨hneg.le.trans hfd, hl₂, hl₃⟩,
        hc.opens rfl hold fun v => by simp only [Outline.holds, Outline.note]; omega⟩
  | openedUsb hs hfd hmade hold =>
      exact ⟨hc.modes, fun h => absurd (h.symm.trans hmade) Bool.false_ne_true,
        ⟨hl₁, hneg.le.trans hfd, hl₃⟩,
        hc.opens rfl hold fun v => by simp only [Outline.holds, Outline.note]; omega⟩
  | openedTimer hs hfd hmade hold =>
      exact ⟨hc.modes, fun h => absurd (h.symm.trans hmade) Bool.false_ne_true,
        ⟨hl₁, hl₂, hneg.le.trans hfd⟩,
        hc.opens rfl hold fun v => by simp only [Outline.holds, Outline.note]; omega⟩
  -- what was in the place is closed, and `-1` is put there
  | closed hs hfd =>
      exact ⟨hc.modes, fun hm => ⟨hm, hneg, (hc.bare hm).usbEpollFd, (hc.bare hm).timerFd⟩,
        ⟨le_rfl, hl₂, hl₃⟩,
        hc.closes rfl fun v => by simp only [Outline.holds, Outline.note]; omega⟩
  | closedUsb hs hfd =>
      exact ⟨hc.modes, fun hm => ⟨hm, (hc.bare hm).epollFd, hneg, (hc.bare hm).timerFd⟩,
        ⟨hl₁, le_rfl, hl₃⟩,
        hc.closes rfl fun v => by simp only [Outline.holds, Outline.note]; omega⟩
  | closedTimer hs hfd =>
      exact ⟨hc.modes, fun hm => ⟨hm, (hc.bare hm).epollFd, (hc.bare hm).usbEpollFd, hneg⟩,
        ⟨hl₁, hl₂, le_rfl⟩,
        hc.closes rfl fun v => by simp only [Outline.holds, Outline.note]; omega⟩
  | freed why inFlight hs h₁ h₂ h₃ =>
      refine ⟨hc.modes, fun _ => ⟨rfl, h₁, h₂, h₃⟩, hc.low, hc.andNote rfl fun v hv => ?_⟩
      simp only [reduceCtorEq, if_false]
      rfl

theorem Turn.balanced (hb : ∀ fd, b.opens = true → b.refuses fd → fd = -1) (h : Turn b c c')
    (hc : c.Balanced) : c'.Balanced := by
  have hbare : ∀ {c' : Outline}, c'.made = c.made → SameHoldings c c' → c'.made = false → c'.Bare :=
    fun hmade hsame hm => (hc.bare (hmade.symm.trans hm)).same hsame
  cases h with
  | beat h => exact h.balanced hb hc
  | startedPoll hthr =>
      exact ⟨fun h => absurd (hthr.symm.trans h.1) Bool.false_ne_true,
        hbare rfl ⟨rfl, rfl, rfl, rfl⟩, hc.low, hc.balance⟩
  | startedThr hpoll =>
      exact ⟨fun h => absurd (hpoll.symm.trans h.2) Bool.false_ne_true,
        hbare rfl ⟨rfl, rfl, rfl, rfl⟩, hc.low, hc.balance⟩
  | leftPoll _ =>
      exact ⟨fun h => absurd h.2 Bool.false_ne_true, hbare rfl ⟨rfl, rfl, rfl, rfl⟩, hc.low,
        hc.balance⟩
  | leftThr _ =>
      exact ⟨fun h => absurd h.1 Bool.false_ne_true, hbare rfl ⟨rfl, rfl, rfl, rfl⟩, hc.low,
        hc.balance⟩
  | spawned => exact ⟨hc.modes, hbare rfl ⟨rfl, rfl, rfl, rfl⟩, hc.low, hc.balance⟩
  | ended _ => exact ⟨hc.modes, hbare rfl ⟨rfl, rfl, rfl, rfl⟩, hc.low, hc.balance⟩

/-! ## Runs -/

theorem New.balanced (h : New m) : m.outline.Balanced where
  modes := fun hm => absurd (h.isStartedThr.symm.trans hm.1) Bool.false_ne_true
  bare _ := h.bare
  low := ⟨h.epollFd.ge, h.usbEpollFd.ge, h.timerFd.ge⟩
  balance v hv := by
    rw [holds_bare h.bare hv]
    show openings v m.trace = closings v m.trace + 0
    rw [h.trace]
    rfl

/-- What a call may be refused by, where the kernel refuses by `-1`. -/
theorem phase_refuses (c : Call) :
    ∀ fd, (c.phase (· = -1)).opens = true → (c.phase (· = -1)).refuses fd → fd = -1 := by
  intro fd ho hr
  cases c with
  | startPoll => exact hr
  | startThread => exact hr
  | _ => cases ho

/-- A step of an object's life that keeps the balance. -/
def BalancedTurn (c c' : Outline) : Prop := (∃ b, Turn b c c') ∧ c'.Balanced

/-- **Any calls but its destruction** are a path of balanced steps. -/
theorem lifeRun_balanced (hkernel : env.Refuses (· = -1)) {calls : List Call}
    (hcalls : ∀ c ∈ calls, c.destroys = false) (hm : m.outline.Balanced) :
    Walks BalancedTurn Machine.outline (lifeRun env calls) m ∧
      (lifeRun env calls m).2.outline.Balanced := by
  have hpath : Walks (fun c c' => ∃ call : Call, Turn (call.phase (· = -1)) c c')
      Machine.outline (lifeRun env calls) m :=
    Walks.each_mem fun c hc t => (call_turns hkernel c (hcalls c hc) t).mono fun _ _ h => ⟨c, h⟩
  obtain ⟨hinto, hend⟩ := path_into
    (fun c c' ⟨call, h⟩ hc => h.balanced (phase_refuses call) hc) hpath hm
  exact ⟨ReflTransGen.mono (fun c c' h => ⟨⟨_, h.1.choose_spec⟩, h.2⟩) _ _ hinto, hend⟩

/-! ## Destruction -/

/-- **What a destructor does last**, on an idle object. -/
theorem destroyState_bare (h : m.outline.Bare) :
    Ends destroyState (fun _ t => t.noticeEventFd = m.noticeEventFd ∧ ∀ v, 0 ≤ v →
      openings v t.trace = openings v m.trace ∧
      closings v t.trace = closings v m.trace + if v = m.noticeEventFd then 1 else 0)
      (fun _ _ => False) m := by
  refine (destroyState_idle h).mono ?_ fun _ _ hf => hf
  rintro _ t rfl
  split
  · refine ⟨rfl, fun v hv => ?_⟩
    simp only [Machine.note, openings_note, closings_note, reduceCtorEq, if_false, Nat.add_zero,
      closed_place, place, eq_comm (a := v), true_and]
  · refine ⟨rfl, fun v hv => ⟨rfl, ?_⟩⟩
    rw [if_neg (by omega)]
    rfl

/-- **Every descriptor is closed as often as it was opened**, and the notice
eventfd once more. -/
def AllClosed (m : Machine σ) : Prop :=
  ∀ v, 0 ≤ v → closings v m.trace = openings v m.trace + if v = m.noticeEventFd then 1 else 0

/-- While an engine is set up not everything is closed. -/
theorem Outline.Balanced.not_allClosed (hbal : m.outline.Balanced) (hopen : m.outline.Open) :
    ¬ AllClosed m := by
  intro hall
  have hfd : 0 ≤ m.epollFd := hopen.epollFd
  have h₁ := hall m.epollFd hfd
  have h₂ : openings m.epollFd m.trace = closings m.epollFd m.trace + m.outline.holds m.epollFd :=
    hbal.balance _ hfd
  have h₃ : 1 ≤ m.outline.holds m.epollFd := by
    have hself : place m.epollFd m.epollFd = 1 := if_pos rfl
    have hholds : m.outline.holds m.epollFd = place m.epollFd m.epollFd +
      place m.usbEpollFd m.epollFd + place m.timerFd m.epollFd := rfl
    omega
  omega

/-- What closes keeps the balance. -/
theorem Turns.balanced {α : Type} {p : Run σ α} {o : Outcome Exn α} (h : Turns .closing p m)
    (hm : m.outline.Balanced) (hp : p m = (o, m')) : m'.outline.Balanced := by
  have hall := inv_of_path (I := Outline.Balanced)
    (fun _ _ ht hc => ht.balanced (fun _ ho => absurd ho Bool.false_ne_true) hc) h hm
  rwa [hp] at hall

theorem AllClosed.of_bare (hbal : m.outline.Balanced) (hbare : m.outline.Bare) :
    Ends destroyState (fun _ t => AllClosed t) (fun _ _ => False) m := by
  refine (destroyState_bare hbare).mono ?_ fun _ _ hf => hf
  rintro _ t ⟨hfd, hall⟩ v hv
  obtain ⟨hopen, hclose⟩ := hall v hv
  have h : openings v m.trace = closings v m.trace + m.outline.holds v := hbal.balance v hv
  rw [holds_bare hbare hv] at h
  rw [hopen, hclose, hfd, h]
  rfl

/-- **What a destructor leaves**: everything closed where it returns, and not
where an exception leaves it. -/
theorem destroy_closes (inputs : List StepInput) (hm : m.outline.Standing)
    (hbal : m.outline.Balanced) (hfurnished : m.Furnished) :
    Ends (destroy env inputs)
      (fun _ t => AllClosed t ∧ ¬ (m.isStartedPoll = true ∧ LoopRefused env inputs m.askedToStop))
      (fun _ t => ¬ AllClosed t ∧ m.isStartedPoll = true ∧
        LoopRefused env inputs m.askedToStop) m := by
  unfold destroy
  rw [ends_bind]
  cases hpoll : m.isStartedPoll with
  | true =>
      -- poll mode: `stop_thread` has nothing to do
      obtain ⟨hthr, -, hopen⟩ := hm.of_poll hpoll
      refine (stopThread_skips inputs hthr).mono ?_ fun _ _ hf => hf.elim
      rintro _ t rfl
      rw [ends_bind]
      have hopen' : (Machine.outline { m with mutex := false }).Open := hopen
      have hbal' : (Machine.outline { m with mutex := false }).Balanced := hbal
      have hfurnished' : Machine.Furnished { m with mutex := false } :=
        hfurnished.same (fun _ => rfl) rfl
      refine (ends_self.and (stopPoll_ends inputs hpoll hopen' hfurnished')).mono ?_ ?_
      · rintro _ t ⟨hrun, hleft, hnot⟩
        have ht := (stopPoll_turns rfl inputs _).balanced hbal' hrun
        refine (AllClosed.of_bare ht (ht.bare ?_)).mono (fun _ _ h => ⟨h, fun h => hnot h.2⟩)
          fun _ _ hf => hf.elim
        show t.streamstates.isSome = false
        rw [hleft.streamstates]
        rfl
      · rintro cause t ⟨hrun, ⟨-, hsame⟩, hfails⟩
        have ht := (stopPoll_turns rfl inputs _).balanced hbal' hrun
        exact ⟨ht.not_allClosed (hopen'.same hsame), rfl, hfails⟩
  | false =>
      refine (ends_self.and (stopThread_stands inputs hm)).mono ?_ fun _ _ h => h.2.elim
      rintro _ t ⟨hrun, ht, hthr, hpollt⟩
      -- any other: `stop_poll` has nothing to do
      have hbalt := (stopThread_turns rfl inputs m).balanced hbal hrun
      rw [ends_bind]
      refine (stopPoll_skips inputs (hpollt.trans hpoll)).mono ?_ fun _ _ hf => hf.elim
      rintro _ u rfl
      have hbare : t.outline.Bare := (ht.of_neither hthr (hpollt.trans hpoll)).2
      have hleft : Machine.outline { t with mutex := false } = t.outline := rfl
      refine (AllClosed.of_bare (hleft.symm ▸ hbalt) (hleft.symm ▸ hbare)).mono ?_
        fun _ _ hf => hf.elim
      exact fun _ _ h => ⟨h, fun h => Bool.false_ne_true h.1⟩

/-- What is there where nothing is. -/
theorem Outline.Balanced.idle (hbal : m.outline.Balanced) (hbare : m.outline.Bare) :
    m.streamstates = none ∧ m.epollFd = -1 ∧ m.usbEpollFd = -1 ∧ m.timerFd = -1 := by
  have hlow : -1 ≤ m.epollFd ∧ -1 ≤ m.usbEpollFd ∧ -1 ≤ m.timerFd := hbal.low
  have h₁ : m.epollFd < 0 := hbare.epollFd
  have h₂ : m.usbEpollFd < 0 := hbare.usbEpollFd
  have h₃ : m.timerFd < 0 := hbare.timerFd
  have hmade : m.streamstates.isSome = false := hbare.made
  refine ⟨Option.isNone_iff_eq_none.mp (by simpa using hmade), ?_, ?_, ?_⟩ <;> omega

/-- **An object's life keeps its descriptors balanced, unless the loop its
destructor runs is refused something.** After any calls on a new object: never
both modes at any moment, and each descriptor is held or closed as often as
it was opened; in neither mode nothing is there. The destructor, where it
comes back, closes everything exactly once if and only if it does not stop
an engine in poll mode whose loop is refused something. -/
theorem life_balanced (env : Env σ) (hkernel : env.Refuses (· = -1)) (m₀ m : Machine σ)
    (calls : List Call) (hnew : New m₀) (hcalls : ∀ c ∈ calls, c.destroys = false)
    (hrun : lifeRun env calls m₀ = (.ret (), m)) (inputs : List StepInput) :
    Walks BalancedTurn Machine.outline (lifeRun env calls) m₀ ∧
    ¬ (m.isStartedThr = true ∧ m.isStartedPoll = true) ∧
    (m.isStartedThr = false → m.isStartedPoll = false →
      m.streamstates = none ∧ m.epollFd = -1 ∧ m.usbEpollFd = -1 ∧ m.timerFd = -1) ∧
    ((destroy env inputs m).1 ≠ .hang →
      (AllClosed (destroy env inputs m).2 ↔
        ¬ (m.isStartedPoll = true ∧ LoopRefused env inputs m.askedToStop))) := by
  obtain ⟨hwalk, hend⟩ := lifeRun_balanced hkernel hcalls hnew.balanced
  have hstands := lifeRun_stands hnew.standing hrun
  rw [hrun] at hend
  refine ⟨hwalk, hend.modes, fun hthr hpoll => hend.idle (hstands.of_neither hthr hpoll).2,
    fun hback => ?_⟩
  have hm : m.Furnished := furnished_lasting.lifeRun (.of_none hnew.streamstates) hrun
  have hdestroy : Ends (destroy env inputs) _ _ m := destroy_closes inputs hstands hend hm
  unfold Ends at hdestroy
  generalize destroy env inputs m = r at hdestroy hback
  obtain ⟨⟨⟩ | cause | -, t⟩ := r
  · exact ⟨fun _ => hdestroy.2, fun _ => hdestroy.1⟩
  · exact ⟨fun h => absurd h hdestroy.1, fun h => absurd hdestroy.2 h⟩
  · exact absurd rfl hback

/-- A kernel that grants descriptors upwards never refuses one. -/
theorem steady_refuses : steady.Refuses (· = -1) :=
  ⟨fun w h => absurd h (Int.natCast_nonneg w).not_gt,
    fun w h => absurd h (Int.natCast_nonneg w).not_gt⟩

/-- A life that ends as it should: the destructor stops the engine. -/
theorem life_balanced_sample :
    ∃ m : Machine ℕ, m.isStartedPoll = true ∧ AllClosed (destroy steady [cancelledBack] m).2 := by
  have hnew : New (constructed [sampleStream 64 1 0] ⟨64, 4096⟩ 4) :=
    constructed_new (by decide +kernel)
  obtain ⟨m, hrun, hpoll, hmade, hback, hloop⟩ := exists_life (P := fun m =>
      m.isStartedPoll = true ∧ m.streamstates.isSome = true ∧
      (destroy steady [cancelledBack] m).1 ≠ .hang ∧
      (stepUntilDone steady [cancelledBack] m.askedToStop).1 = .ret ())
    steady [.startPoll, .startThread] (constructed [sampleStream 64 1 0] ⟨64, 4096⟩ 4)
    (by decide +kernel) (by decide +kernel)
  have hmade : m.askedToStop.Made := hmade
  have hm : m.Furnished := furnished_lasting.lifeRun (.of_none hnew.streamstates) hrun
  have hnot := ends_ret_of (stepUntilDone_throws [cancelledBack] hmade
    hm.askedToStop) (Prod.ext hloop rfl)
  have hlife := life_balanced steady steady_refuses _ m [.startPoll, .startThread] hnew (by decide)
    hrun [cancelledBack]
  exact ⟨m, hpoll, (hlife.2.2.2 hback).mpr fun h => hnot h.2⟩

/-- **A life that does not**: libusb fails while the destructor stops the
engine, and `epoll_fd` is opened once and never closed. -/
theorem life_unbalanced :
    ∃ m : Machine ℕ, lifeRun steady [.startPoll] (constructed [sampleStream 64 1 0] ⟨64, 4096⟩ 4) =
        (.ret (), m) ∧
      (destroy steady [usbFails] m).1 = .throw .handlingLibusbEvents ∧
      openings 4 (destroy steady [usbFails] m).2.trace = 1 ∧
      closings 4 (destroy steady [usbFails] m).2.trace = 0 ∧
      ¬ AllClosed (destroy steady [usbFails] m).2 := by
  obtain ⟨m, hrun, hthrow, hopen, hclosed, hfd⟩ := exists_life (P := fun m =>
      (destroy steady [usbFails] m).1 = .throw .handlingLibusbEvents ∧
      openings 4 (destroy steady [usbFails] m).2.trace = 1 ∧
      closings 4 (destroy steady [usbFails] m).2.trace = 0 ∧
      (destroy steady [usbFails] m).2.noticeEventFd = 3)
    steady [.startPoll] (constructed [sampleStream 64 1 0] ⟨64, 4096⟩ 4) (by decide +kernel)
    (by decide +kernel)
  refine ⟨m, hrun, hthrow, hopen, hclosed, fun hall => ?_⟩
  have h := hall 4 (by decide)
  rw [hopen, hclosed, hfd] at h
  exact absurd h (by decide)

end Stream

end SgFtdi
