import SgFtdi.Stream.Moves.Outline
import SgFtdi.Stream.Model.Steady

/-!
# Stream — shutdown ends

Once `should_run` is down, `process_step` counts its turns that had an
event down from three, and goes on only while the count is not used up.
So it lingers three times at the most over a whole session, and the loop of
`stop_poll` ends four turns after the engine hears of it.
-/

namespace SgFtdi

namespace Stream

open Prog Relation

variable {σ : Type} {env : Env σ} {m m' m₁ : Machine σ}

/-! ## What is counted -/

/-- `epoll_wait` comes back with an event at least. -/
def StepInput.eventful (input : StepInput) (m : Machine σ) : Bool :=
  match input with
  | .failed _ => false
  | .ready events => !(epollWait m events).isEmpty

/-- A `process_step` that had an event and ended with `should_run` down has
returned true. -/
def lingers (env : Env σ) (input : StepInput) (m : Machine σ) : Bool :=
  input.eventful m &&
    match processStep env input m with
    | (.ret true, t) => !t.shouldRun
    | _ => false

/-- How often that happens in a run. -/
def lingering (env : Env σ) : List Action → Machine σ → ℕ
  | [], _ => 0
  | .step input :: actions, m =>
      (lingers env input m).toNat + lingering env actions (act env (.step input) m).2
  | .thread a :: actions, m => lingering env actions (act env (.thread a) m).2

/-- The turns of `while (process_step (state));`. -/
def turns (env : Env σ) : List StepInput → Machine σ → ℕ
  | [], _ => 0
  | input :: inputs, m =>
      match processStep env input m with
      | (.ret true, t) => turns env inputs t + 1
      | _ => 1

/-- Every `epoll_wait` of the loop comes back with an event or an error. -/
def Wakes (env : Env σ) : List StepInput → Machine σ → Prop
  | [], _ => True
  | input :: inputs, m =>
      (input.eventful m = true ∨ ∃ errno, input = .failed errno) ∧
        ∀ t, processStep env input m = (.ret true, t) → Wakes env inputs t

/-- The notice eventfd is read in the handling of a batch, and the read
succeeds. -/
def ReadsNotice (env : Env σ) (input : StepInput) (m : Machine σ) : Prop :=
  ∃ events pre ev post t u v, input = .ready events ∧ epollWait m events = pre ++ ev :: post ∧
    each pre (handleEvent env) { m with lastExit := .running } = (.ret (), t) ∧
    each ev.meanwhile (threadAction env) t = (.ret (), u) ∧
    ev.sock ≠ u.usbEpollFd ∧ ev.sock = u.noticeEventFd ∧
    readNotice ev.fault u = (.ret none, v)

/-- **The loop hears of the end** after so many turns: the engine has stopped
by itself, or the notice is read in the turn that comes next. -/
def Hears (env : Env σ) : ℕ → List StepInput → Machine σ → Prop
  | 0, inputs, m => m.shouldRun = false ∨ ∃ input rest, inputs = input :: rest ∧
      ReadsNotice env input m
  | n + 1, inputs, m => ∃ input rest t, inputs = input :: rest ∧
      processStep env input m = (.ret true, t) ∧ Hears env n rest t

/-- A `process_step` of the loop does not come back. -/
def Sticks (env : Env σ) : List StepInput → Machine σ → Prop
  | [], _ => False
  | input :: inputs, m => (processStep env input m).1 = .hang ∨
      ∃ t, processStep env input m = (.ret true, t) ∧ Sticks env inputs t

/-! ## What nothing takes back -/

theorem Beats.cancelling {α : Type} {p : Run σ α} {o : Outcome Exn α} (h : Beats .working p m)
    (hp : p m = (o, m')) (hc : m.shouldCancel = true) : m'.shouldCancel = true := by
  have hall := inv_of_path (I := fun c : Outline => c.shouldCancel = true) (fun c c' hb hc => ?_)
    h hc
  · rwa [hp] at hall
  · cases hb with
    | begun now hs _ => cases hs
    | _ => first | exact hc | rfl

theorem Beats.down {α : Type} {p : Run σ α} {o : Outcome Exn α} (h : Beats .working p m)
    (hp : p m = (o, m')) (hr : m.shouldRun = false) : m'.shouldRun = false := by
  have hall := inv_of_path (I := fun c : Outline => c.shouldRun = false) (fun c c' hb hc => ?_)
    h hr
  · rwa [hp] at hall
  · cases hb with
    | begun now hs _ => cases hs
    | _ => first | exact hc | rfl

/-! ## The count -/

theorem Kept.cancelCounter (h : Kept m m') : m'.cancelCounter = m.cancelCounter := by rw [h.eq]

theorem Broken.cancelCounter (h : Broken env m m') : m'.cancelCounter = m.cancelCounter := by
  induction h with
  | here => rfl
  | armed _ _ _ hw => exact ((Kept.modify _ _).trans (Kept.of_calm hw.calm)).cancelCounter
  | unlocked _ ih => exact ih

theorem Handling.cancelCounter (h : Handling env m m') : m'.cancelCounter = m.cancelCounter := by
  cases h with
  | draining hd =>
      cases hd with
      | move hm => exact hm.kept.cancelCounter
      | cleared _ hc => cases hc <;> rfl
  | accepted _ _ _ => exact accepted_eq m _ _ ▸ rfl
  | _ => rfl

theorem handling_cancelCounter (h : ReflTransGen (Handling env) m m') :
    m'.cancelCounter = m.cancelCounter :=
  inv_of_path (I := fun u => u.cancelCounter = m.cancelCounter)
    (fun _ _ hst hu => hst.cancelCounter.trans hu) h rfl

/-- A batch is nothing to the count. -/
theorem handleEvents_counter {events : List EpollEvent} (h : ∀ ev ∈ events, ev.sock ∈ m.epollSet) :
    Ends (each events (handleEvent env)) (fun _ t => t.cancelCounter = m.cancelCounter)
      (fun _ t => t.cancelCounter = m.cancelCounter) m := by
  refine Ends.mono (handleEvents_follows h) (fun _ _ ht => handling_cancelCounter ht) ?_
  rintro _ t ⟨u, hu, hb⟩
  exact hb.cancelCounter.trans (handling_cancelCounter hu)

/-- **The end of a batch** counts where the engine has stopped, and goes on
where the count is not used up. -/
theorem endBatch_counts (m : Machine σ) :
    Ends (endBatch env) (fun more t => (m.shouldRun = true ∧ t = m) ∨
      (m.shouldRun = false ∧ t.cancelCounter = m.cancelCounter - 1 ∧
        (more = true → 0 ≤ t.cancelCounter))) (fun _ _ => False) m := by
  refine (endBatch_ends m).mono (fun more t ht => ?_) fun _ _ hf => hf
  have hcount : ∀ {u v : Machine σ} {b : Bool}, m.shouldRun = false →
      rescue (processResetStreamEntry env true) (fun _ => pure ()) m = (.ret (), u) →
      anyOf u.inOrder cancelEnabled u = (.ret b, v) → v.cancelCounter = m.cancelCounter :=
    fun hr hreset hany => (moves_kept (wound_moves hr hreset hany)).cancelCounter
  cases ht with
  | running hr => exact .inl ⟨hr, rfl⟩
  | disabled hr hreset hany =>
      exact .inr ⟨hr, congrArg (· - 1) (hcount hr hreset hany),
        fun h => absurd h Bool.false_ne_true⟩
  | usedUp hr hreset hany _ =>
      exact .inr ⟨hr, congrArg (· - 1) (hcount hr hreset hany),
        fun h => absurd h Bool.false_ne_true⟩
  | @goesOn u v hr hreset hany hc =>
      refine .inr ⟨hr, congrArg (· - 1) (hcount hr hreset hany), fun _ => ?_⟩
      show 0 ≤ v.cancelCounter - 1
      omega

/-- **A `process_step` counts** where it lingers, and never counts up. -/
theorem processStep_counts (input : StepInput) (m : Machine σ) :
    Ends (processStep env input) (fun more t => t.cancelCounter ≤ m.cancelCounter ∧
        (input.eventful m = true → more = true → t.shouldRun = false →
          t.cancelCounter = m.cancelCounter - 1 ∧ 0 ≤ t.cancelCounter))
      (fun _ t => t.cancelCounter ≤ m.cancelCounter) m := by
  have hfalse : ∀ {P : Prop}, false = true → P := fun h => absurd h Bool.false_ne_true
  unfold processStep leave
  rw [ends_bind, ends_alter, ends_bind, ends_look, id_look, ends_ite]
  refine ⟨fun _ => ⟨le_refl _, fun _ => hfalse⟩, fun _ => ?_⟩
  cases input with
  | failed errno => exact ⟨le_refl _, fun _ => hfalse⟩
  | ready events =>
      dsimp only
      rw [ends_ite]
      refine ⟨fun hnone => ⟨le_refl _, fun hev => ?_⟩, fun hsome => ?_⟩
      · have hev : (!(epollWait m events).isEmpty) = true := hev
        have hnone : (epollWait m events).isEmpty = true := hnone
        rw [hnone] at hev
        cases hev
      · rw [ends_rescue]
        unfold processBatch
        rw [ends_bind]
        -- no handler touches the count, only the end of the batch does
        have hevents : Ends (each (epollWait { m with lastExit := .running } events)
            (handleEvent env)) _ _ _ := handleEvents_counter fun ev hev => epollWait_mem hev
        refine hevents.mono ?_ ?_
        · intro _ t ht
          refine (endBatch_counts t).mono (fun more u hu => ?_) fun _ _ hf => hf.elim
          rcases hu with ⟨hr, rfl⟩ | ⟨-, hcount, hmore⟩
          · exact ⟨ht.le, fun _ _ hu => absurd (hr.symm.trans hu) Bool.false_ne_true.symm⟩
          · have hle : u.cancelCounter = m.cancelCounter - 1 := hcount.trans (by rw [ht])
            exact ⟨by omega, fun _ hm _ => ⟨hle, hmore hm⟩⟩
        · intro cause t ht
          exact ht.le

/-- After an `epoll_wait` that fails nothing goes on. -/
theorem processStep_failed (errno : Errno) (m : Machine σ) :
    Ends (processStep env (.failed errno)) (fun more _ => more = false) (fun _ _ => False) m := by
  unfold processStep leave
  rw [ends_bind, ends_alter, ends_bind, ends_look, id_look, ends_ite]
  exact ⟨fun _ => rfl, fun _ => rfl⟩

/-- Nor where there are no entries. -/
theorem processStep_unmade (input : StepInput) (h : m.streamstates = none) :
    Ends (processStep env input) (fun more _ => more = false) (fun _ _ => False) m := by
  have hnone : m.streamstates.isNone = true := by rw [h]; rfl
  unfold processStep leave
  rw [ends_bind, ends_alter, ends_bind, ends_look, id_look, if_pos hnone]
  rfl

/-! ## The turns of the loop -/

/-- A notice that is read ends an engine that was asked to end. -/
theorem handleEvent_stops {ev : EpollEvent} {u v : Machine σ} (hc : m.shouldCancel = true)
    (hmean : each ev.meanwhile (threadAction env) m = (.ret (), u)) (husb : ev.sock ≠ u.usbEpollFd)
    (hsock : ev.sock = u.noticeEventFd) (hread : readNotice ev.fault u = (.ret none, v)) :
    Ends (handleEvent env ev) (fun _ t => t.shouldRun = false) (fun _ _ => True) m := by
  have heach : ∀ (as : List ThreadAction) (t : Machine σ),
      Beats .working (each as (threadAction env)) t := fun _ _ => Walks.each threadAction_beats
  have hu : u.shouldCancel = true := (heach ev.meanwhile m).cancelling hmean hc
  have hv : v.shouldCancel = true := (readNotice_beats ev.fault u).cancelling hread hu
  unfold handleEvent
  rw [ends_bind]
  refine ends_of_ret hmean ?_
  rw [ends_bind, ends_look, id_look, if_neg husb, if_pos hsock]
  unfold eventNotice
  rw [ends_bind]
  refine ends_of_ret hread ?_
  dsimp only
  rw [ends_bind]
  refine (ends_of_state (I := fun t => t.shouldCancel = true)
    ((heach ev.between v).cancelling rfl hv)).mono (fun _ w hw => ?_) fun _ _ _ => trivial
  unfold takeNotice
  rw [ends_bind, ends_look, id_look, ends_ite]
  refine ⟨fun hr => hr, fun _ => ?_⟩
  rw [if_pos hw]
  rfl

theorem ReadsNotice.eventful {input : StepInput} (h : ReadsNotice env input m) :
    input.eventful m = true := by
  obtain ⟨events, pre, ev, post, -, -, -, rfl, hev, -⟩ := h
  simp [StepInput.eventful, hev]

/-- **The turn in which the notice is read** leaves an engine that was asked
to end stopped. -/
theorem ReadsNotice.stops {input : StepInput} (h : ReadsNotice env input m)
    (hc : m.shouldCancel = true) (hstep : processStep env input m = (.ret true, m')) :
    m'.shouldRun = false := by
  obtain ⟨events, pre, ev, post, t, u, v, rfl, hev, hpre, hmean, husb, hsock, hread⟩ := h
  have hsome : ¬ m.streamstates.isNone = true := fun hnone => by
    have := ends_ret_of (processStep_unmade _ (by simpa using hnone)) hstep
    cases this
  refine ends_ret_of (Q := fun _ t => t.shouldRun = false) (E := fun _ _ => True) ?_ hstep
  have hwait : epollWait { m with lastExit := .running } events = pre ++ ev :: post := hev
  have heach : ∀ (events : List EpollEvent) (t : Machine σ),
      Beats .working (each events (handleEvent env)) t := fun _ _ => Walks.each handleEvent_beats
  have hct : t.shouldCancel = true := (heach pre { m with lastExit := .running }).cancelling hpre hc
  unfold processStep leave
  rw [ends_bind, ends_alter, ends_bind, ends_look, id_look, if_neg hsome]
  dsimp only
  rw [hwait, if_neg (by simp), ends_rescue]
  unfold processBatch
  rw [ends_bind]
  refine Ends.mono (Q := fun _ t => t.shouldRun = false) (E := fun _ _ => True) ?_ ?_ ?_
  · rw [ends_each_append]
    refine ends_of_ret hpre ?_
    rw [each, ends_andThen]
    refine (handleEvent_stops hct hmean husb hsock hread).mono (fun _ w hw => ?_)
      fun _ _ _ => trivial
    exact (ends_of_state (I := fun t => t.shouldRun = false) ((heach post w).down rfl hw)).mono
      (fun _ _ h => h) fun _ _ _ => trivial
  · intro _ w hw
    exact (ends_of_state (I := fun t => t.shouldRun = false) ((endBatch_beats w).down rfl hw)).mono
      (fun _ _ h => h) fun _ _ _ => trivial
  · intro _ _ _
    trivial

/-- **A loop that begins stopped** takes as many turns as are left to count,
and one more. -/
theorem turns_stopped : ∀ (inputs : List StepInput) (m : Machine σ), Wakes env inputs m →
    m.shouldRun = false → turns env inputs m ≤ m.cancelCounter.toNat + 1
  | [], _, _, _ => Nat.zero_le _
  | input :: inputs, m, hw, hr => by
      unfold turns
      split
      · next t hstep =>
          obtain ⟨hwakes, hrest⟩ := hw
          have hrt : t.shouldRun = false := (processStep_beats input m).down hstep hr
          have hev : input.eventful m = true := by
            rcases hwakes with h | ⟨errno, rfl⟩
            · exact h
            · exact absurd (ends_ret_of (processStep_failed errno m) hstep) Bool.false_ne_true.symm
          obtain ⟨-, hcount⟩ := ends_ret_of (processStep_counts input m) hstep
          obtain ⟨hcount, hpos⟩ := hcount hev rfl hrt
          have := turns_stopped inputs t (hrest t hstep) hrt
          omega
      · omega

/-- **A loop that hears of its end** takes four turns more. -/
theorem turns_heard : ∀ (n : ℕ) (inputs : List StepInput) (m : Machine σ), Wakes env inputs m →
    m.shouldCancel = true → m.cancelCounter ≤ 3 → Hears env n inputs m →
    turns env inputs m ≤ n + 4
  | 0, inputs, m, hw, hc, hcount, hears => by
      rcases hears with hr | ⟨input, inputs, rfl, hread⟩
      · have := turns_stopped inputs m hw hr
        omega
      · unfold turns
        split
        · next t hstep =>
            have hrt : t.shouldRun = false := hread.stops hc hstep
            have := turns_stopped inputs t (hw.2 t hstep) hrt
            obtain ⟨hle, hdown⟩ := ends_ret_of (processStep_counts input m) hstep
            have hdown := hdown hread.eventful rfl hrt
            omega
        · omega
  | n + 1, _, m, hw, hc, hcount, hears => by
      obtain ⟨input, inputs, t, rfl, hstep, hears⟩ := hears
      have hct : t.shouldCancel = true := (processStep_beats input m).cancelling hstep hc
      have hle := (ends_ret_of (processStep_counts input m) hstep).1
      have := turns_heard n inputs t (hw.2 t hstep) hct (hle.trans hcount) hears
      simp only [turns, hstep]
      omega

/-- What comes after the input that is there. -/
theorem Wakes.append (errno : Errno) : ∀ {inputs : List StepInput} {m : Machine σ},
    Wakes env inputs m → Wakes env (inputs ++ [.failed errno]) m
  | [], _, _ => ⟨.inr ⟨errno, rfl⟩, fun _ _ => trivial⟩
  | _ :: _, _, h => ⟨h.1, fun t ht => (h.2 t ht).append errno⟩

theorem Hears.append (extra : StepInput) : ∀ {n : ℕ} {inputs : List StepInput} {m : Machine σ},
    Hears env n inputs m → Hears env n (inputs ++ [extra]) m
  | 0, _, _, .inl hr => .inl hr
  | 0, _, _, .inr ⟨input, rest, h, hread⟩ => .inr ⟨input, rest ++ [extra], by rw [h]; rfl, hread⟩
  | _ + 1, _, _, ⟨input, rest, t, h, hstep, hears⟩ =>
      ⟨input, rest ++ [extra], t, by rw [h]; rfl, hstep, hears.append extra⟩

/-- **A loop that does not end** waits in one of its turns, or has used up
what it is given. -/
theorem stepUntilDone_hangs (extra : StepInput) : ∀ (inputs : List StepInput) (m : Machine σ),
    (stepUntilDone env inputs m).1 = .hang →
      Sticks env inputs m ∨ turns env (inputs ++ [extra]) m = inputs.length + 1
  | [], m, _ => by
      refine .inr ?_
      simp only [List.nil_append, turns]
      split <;> rfl
  | input :: inputs, m, h => by
      have h : (andThen (processStep env input)
        (fun more => if more then stepUntilDone env inputs else pure ()) m).1 = .hang := h
      unfold andThen at h
      simp only [List.cons_append, turns, Sticks]
      rcases hstep : processStep env input m with ⟨(_ | _) | cause | -, t⟩
      · rw [hstep] at h
        cases h
      · rw [hstep] at h
        rcases stepUntilDone_hangs extra inputs t h with hs | hturns
        · exact .inl (.inr ⟨t, rfl, hs⟩)
        · exact .inr (by simp [hturns])
      · rw [hstep] at h
        cases h
      · exact .inl (.inl rfl)

/-! ## Sessions -/

theorem Watched.cancelCounter {sock : ℤ} (h : Watched env sock m m') :
    m'.cancelCounter = m.cancelCounter := by
  cases h with
  | added w _ => rfl
  | failed w cause _ => exact (Kept.errored (m := m.withWorld w) _).cancelCounter

theorem Created.cancelCounter {s t : ℕ} {stream : FtdiStreamEntry} {isReading : Bool}
    (h : Created env s t stream isReading m m') : m'.cancelCounter = m.cancelCounter := by
  cases h with
  | mk _ _ _ hready hsub =>
      rw [hsub.kept_frame.cancelCounter]
      cases hready with
      | reading _ _ _ => rfl
      | writing _ _ _ hw => exact hw.cancelCounter

theorem Setup.cancelCounter (h : Setup env m m') : m'.cancelCounter = m.cancelCounter := by
  cases h with
  | opening ho =>
      cases ho with
      | move hm => exact hm.kept.cancelCounter
      | watched _ hw => exact hw.cancelCounter
      | _ => rfl
  | created hc => exact hc.cancelCounter

/-- A session begins with three turns to count. -/
theorem SetUp.cancelCounter {m₀ : Machine σ} (h : SetUp env m₀ m) : m.cancelCounter = 3 := by
  obtain ⟨⟨b, ⟨w, now, -, rfl⟩, hp⟩, -, -⟩ := h
  exact inv_of_path (I := fun u => u.cancelCounter = 3)
    (fun _ _ hst hu => hst.cancelCounter.trans hu) hp rfl

/-- A step lingers where it counts. -/
theorem lingers_iff {input : StepInput} : lingers env input m = true ↔
    input.eventful m = true ∧ ∃ t, processStep env input m = (.ret true, t) ∧
      t.shouldRun = false := by
  unfold lingers
  rw [Bool.and_eq_true]
  refine and_congr_right fun _ => ?_
  split
  · next t hstep => simp [hstep]
  · next hstep =>
      exact ⟨fun h => absurd h Bool.false_ne_true, fun ⟨t, ht, _⟩ => absurd ht (hstep t)⟩

/-- **A step that lingers uses one turn up.** -/
theorem step_counts (input : StepInput) (m : Machine σ) :
    Ends (act env (.step input)) (fun _ t => t.cancelCounter ≤ m.cancelCounter ∧
      (lingers env input m = true → t.cancelCounter = m.cancelCounter - 1 ∧ 0 ≤ t.cancelCounter))
      (fun _ _ => False) m := by
  unfold act
  rw [ends_rescue, ends_bind]
  refine (ends_self.and (processStep_counts input m)).mono ?_ ?_
  · rintro more t ⟨hstep, hle, hcount⟩
    refine ⟨hle, fun hl => ?_⟩
    obtain ⟨hev, t', hstep', hr⟩ := lingers_iff.mp hl
    obtain ⟨hmore, rfl⟩ := Prod.ext_iff.mp (hstep.symm.trans hstep')
    exact hcount hev (by simpa using hmore) hr
  · rintro cause t ⟨hstep, hle⟩
    refine ⟨hle, fun hl => ?_⟩
    obtain ⟨-, t', hstep', -⟩ := lingers_iff.mp hl
    cases hstep.symm.trans hstep'

/-- **A run lingers as often as it may.** -/
theorem lingering_le : ∀ (actions : List Action) (m : Machine σ),
    Ends (engineRun env actions) (fun _ t => t.cancelCounter ≤ m.cancelCounter ∧
      lingering env actions m ≤ m.cancelCounter.toNat) (fun _ _ => False) m
  | [], m => ⟨le_refl _, Nat.zero_le _⟩
  | .step input :: actions, m => by
      show Ends (andThen (act env (.step input)) fun _ => engineRun env actions) _ _ m
      rw [ends_andThen]
      refine (ends_self.and (step_counts input m)).mono ?_ fun _ _ h => h.2
      rintro _ t ⟨hact, hle, hcount⟩
      refine (lingering_le actions t).mono (fun _ u hu => ⟨hu.1.trans hle, ?_⟩) fun _ _ hf => hf
      simp only [lingering, hact]
      cases hl : lingers env input m with
      | false => simpa using hu.2.trans (Int.toNat_le_toNat hle)
      | true =>
          have := hcount hl
          simp only [Bool.toNat_true]
          omega
  | .thread a :: actions, m => by
      show Ends (andThen (threadAction env a) fun _ => engineRun env actions) _ _ m
      rw [ends_andThen]
      refine (ends_self.and (threadAction_follows a m)).mono ?_ ?_
      · rintro _ t ⟨hact, hpath⟩
        have hle : t.cancelCounter = m.cancelCounter := handling_cancelCounter hpath
        refine (lingering_le actions t).mono (fun _ u hu => ?_) fun _ _ hf => hf
        simp only [lingering, act, hact]
        exact hle ▸ hu
      · exact fun e t h => (ends_throw_of (threadAction_ends a m) h.1).elim

/-- **Shutdown ends.** In every run of a session at most three steps of the
engine that had an event return true with `should_run` down. So from every
state of a session the loop of `stop_poll`, each of whose waits ends,
takes at most four turns from the one on in which the notice is read, or
four where the engine has stopped by itself; it does not wait for more
unless one of its turns does not come back. -/
theorem shutdown_ends (env : Env σ) (m₀ m₁ m : Machine σ) (mode : Mode) (actions : List Action)
    (hidle : Idle m₀) (hstart : start env mode m₀ = (.ret (), m₁))
    (hrun : engineRun env actions m₁ = (.ret (), m)) :
    lingering env actions m₁ ≤ 3 ∧
    ∀ (inputs : List StepInput) (n : ℕ), Wakes env inputs m.askedToStop →
      Hears env n inputs m.askedToStop → turns env inputs m.askedToStop ≤ n + 4 ∧
        (n + 4 ≤ inputs.length → (stepUntilDone env inputs m.askedToStop).1 = .hang →
          Sticks env inputs m.askedToStop) := by
  have hset := ends_ret_of (Q := fun _ t => SetUp env m₀ t) (start_ends hidle mode) hstart
  obtain ⟨hle, hling⟩ := ends_ret_of (lingering_le actions m₁) hrun
  rw [hset.cancelCounter] at hle hling
  refine ⟨hling, fun inputs n hw hears => ⟨turns_heard n inputs _ hw rfl hle hears, ?_⟩⟩
  intro hlen hhang
  refine (stepUntilDone_hangs (.failed .EINTR) inputs _ hhang).resolve_right fun hall => ?_
  have := turns_heard n _ _ (hw.append .EINTR) rfl hle (hears.append (.failed .EINTR))
  omega

/-- What the loop of the sample is given: the transfer that is still in
flight comes back. -/
def lastBack : List StepInput :=
  [.ready [⟨5, [], [.completed ⟨1, .cancelled, [], 0⟩], 0, none, []⟩]]

/-- A transfer fails while another is in flight: the step lingers once, and
the loop ends with the turn in which the other comes back. -/
theorem shutdown_ends_sample :
    ∃ m₁ m : Machine ℕ, lingering steady [reports [⟨0, .error, [], 0⟩]] m₁ = 1 ∧
      turns steady lastBack m.askedToStop ≤ 0 + 4 := by
  have hidle : Idle (constructed [sampleStream 64 2 0] ⟨64, 4096⟩ 4) :=
    constructed_idle (by decide +kernel)
  obtain ⟨m, ⟨-, m₁, hstart, hrun⟩, hr, hev⟩ := exists_session (P := fun m => m.shouldRun = false ∧
      lastBack.all (StepInput.eventful · m.askedToStop) = true)
    steady .poll [reports [⟨0, .error, [], 0⟩]] hidle (by decide +kernel)
  have hwakes : Wakes steady lastBack m.askedToStop :=
    ⟨.inl (List.all_eq_true.mp hev _ List.mem_cons_self), fun _ _ => trivial⟩
  have hstate : m₁ = (start steady .poll (constructed [sampleStream 64 2 0] ⟨64, 4096⟩ 4)).2 :=
    (congrArg Prod.snd hstart).symm
  refine ⟨m₁, m, ?_, ((shutdown_ends steady _ m₁ m .poll _ hidle hstart hrun).2 _ 0 hwakes
    (.inl hr)).1⟩
  rw [hstate]
  decide +kernel

end Stream

end SgFtdi
