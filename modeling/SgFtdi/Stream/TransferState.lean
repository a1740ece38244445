import SgFtdi.Stream.Moves.Setup
import SgFtdi.Stream.Model.Steady

/-!
# Stream — where every transfer stands

`enabled` is written in six places, some of them before it is known
whether libusb will take the transfer. The invariant that comes out of it
all: a transfer in flight is enabled, and as long as `should_run` is true
an enabled transfer is in flight. No step of a life breaks it, so it
holds at every boundary of a session, and no transfer is submitted or
filled while it is in flight.
-/

namespace SgFtdi

namespace Stream

open Prog Relation

variable {σ : Type} {env : Env σ} {m m' m₁ : Machine σ} {i j : ℕ}

/-- **The invariant of an entry**, while `should_run` is `run`. -/
def FtdiStreamStaticState.Sound (run : Bool) (e : FtdiStreamStaticState) : Prop :=
  (e.transfer.inFlight = true → e.enabled = true) ∧
    (run = true → e.enabled = true → e.transfer.inFlight = true)

/-- **Every entry is sound.** -/
def Machine.Sound (m : Machine σ) : Prop :=
  ∀ i e, m.entryAt i = some e → e.Sound m.shouldRun

/-- What the record says is sound: at a boundary every entry is, and no
transfer is offered or filled in flight. -/
def Seen.Sound (o : Seen) : Prop :=
  match o.what with
  | .boundary flags => ∀ f ∈ flags, (f.2 = true → f.1 = true) ∧
      (o.running = true → f.1 = true → f.2 = true)
  | .submitted _ inFlight _ _ => inFlight = false
  | .filled _ inFlight => inFlight = false
  | _ => True

/-- A sound observation of the engine at work, which destroys nothing. -/
def Seen.Working (o : Seen) : Prop :=
  o.Sound ∧ match o.what with
    | .destroyed _ _ => False
    | _ => True

/-- The whole record is sound. -/
def Machine.Noted (m : Machine σ) : Prop := ∀ o ∈ m.trace, o.Sound

/-! ## No life breaks it -/

theorem Life.sound {run run' : Bool} {e e' : FtdiStreamStaticState} (h : Life run run' e e')
    (hs : e.Sound run) : e'.Sound run' := by
  obtain ⟨h₁, h₂⟩ := hs
  cases h with
  | kept hen hfl hr =>
      rw [FtdiStreamStaticState.Sound, hen, hfl]
      exact ⟨h₁, fun hrun => h₂ (hr hrun)⟩
  | down _ hen hfl _ => exact ⟨fun h => by simp [hfl] at h, fun _ h => by simp [hen] at h⟩
  | up _ _ hen hfl _ _ => exact ⟨fun _ => hen, fun _ _ => hfl⟩
  | stranded _ hen _ hr => exact ⟨fun _ => hen, fun h => by simp [hr] at h⟩

theorem AllLive.sound (h : AllLive m m') (hs : m.Sound) : m'.Sound := by
  intro i e' he'
  obtain ⟨e, he, hl⟩ := h.back he'
  exact hl.life.sound (hs i e he)

/-- A new entry is sound from the start. -/
theorem Created.sound {s t : ℕ} {stream : FtdiStreamEntry} {isReading : Bool}
    (h : Created env s t stream isReading m m') (hs : m.Sound) : m'.Sound := by
  obtain ⟨hothers, fd, e₀, e, -, -, he, -, hcase⟩ := h.entries
  intro j e' he'
  by_cases hj : m.entries.length = j
  · subst hj
    rw [he, Option.some_inj] at he'
    subst he'
    rcases hcase with ⟨hfl, hen⟩ | ⟨_, _, hen, hfl, _⟩
    · exact ⟨fun h => by simp [hfl] at h, fun hr h => by simp [(hen hr).1] at h⟩
    · exact ⟨fun _ => hen, fun _ _ => hfl⟩
  · have hrel := hothers j hj
    rw [he'] at hrel
    generalize ho : m.entryAt j = x at hrel
    cases hrel with
    | some ha => exact (ha.lives h.stays).life.sound (hs j _ ho)

theorem Opening.sound (h : Opening env m m') (hs : m.Sound) : m'.Sound := by
  cases h with
  | move hm => exact hm.lives.sound hs
  | watched _ hw =>
      intro i e he
      rw [hw.entryAt] at he
      have hse := hs i e he
      exact ⟨hse.1, fun hr => hse.2 (hw.stays hr)⟩
  | _ => exact hs

theorem Setup.sound (h : Setup env m m') (hs : m.Sound) : m'.Sound := by
  cases h with
  | opening ho => exact ho.sound hs
  | created hc => exact hc.sound hs

theorem Step.sound (h : Step env m m') (hs : m.Sound) : m'.Sound := h.lives.sound hs

/-! ## The record -/

/-- What is routine for idle transfers is sound. -/
theorem Obs.routine.working {o : Seen} (h : o.what.routine false) : o.Working := by
  obtain ⟨run, o⟩ := o
  cases o <;> first | exact h.elim | exact ⟨h, trivial⟩

theorem working_of_routine (h : Grows (·.what.routine false) m.trace m'.trace) :
    Grows Seen.Working m.trace m'.trace := h.mono fun _ ho => ho.working

/-- A state that is sound makes a sound boundary. -/
theorem Machine.Sound.boundary (h : m.Sound) : Grows Seen.Working m.trace m.boundary.trace := by
  refine .one ⟨fun f hf => ?_, trivial⟩
  obtain ⟨e, he, rfl⟩ := List.mem_map.mp hf
  obtain ⟨i, hi⟩ := List.getElem?_of_mem he
  exact h i e hi

theorem Completed.working {c : Completion} (h : Completed env c m m₁) :
    Grows Seen.Working m.trace m₁.trace := by
  have hl : ∀ e, Grows Seen.Working m.trace (m.landed e c).trace := fun _ => .one ⟨trivial, trivial⟩
  cases h with
  | @read e _ he _ _ hb =>
      exact (hl e).trans (working_of_routine (hb.routine (landed_entryAt he)))
  | @write e _ he _ _ hb =>
      have hw := (hb.routine (landed_entryAt he)).mono fun _ ho => Obs.routine.working ho
      refine (hl e).trans (Grows.trans ?_ hw)
      split
      · exact .one ⟨trivial, trivial⟩
      · rw [List.append_nil]
        exact .refl

/-- An entry that may be switched on is idle. -/
theorem Machine.Sound.idle {e : FtdiStreamStaticState} (h : m.Sound) (he : m.entryAt i = some e)
    (hen : e.enabled = false) : e.transfer.inFlight = false := by
  rw [Bool.eq_false_iff]
  intro hfl
  simp [(h i e he).1 hfl] at hen

theorem Move.working (h : Move env m m') (hs : m.Sound) :
    Grows Seen.Working m.trace m'.trace := by
  cases h with
  | chore hc => exact working_of_routine (hc.routine false)
  | errored message => exact working_of_routine (errored_routine m message false)
  | pollfds fds => exact .refl
  | completed hc => exact hc.working.trans (hc.lives.sound hs).boundary
  | @armed i e m' he hen _ hsub =>
      have he₁ : (m.modifyEntry i (.setEnabled true)).entryAt i = some (e.setEnabled true) := by
        rw [entryAt_modifyEntry_self, he]
        rfl
      have hfl : (e.setEnabled true).transfer.inFlight = false :=
        Machine.Sound.idle (e := e) hs he hen
      have hr := hsub.routine he₁
      rw [hfl] at hr
      exact working_of_routine hr
  | cancelled _ _ _ => exact .one ⟨trivial, trivial⟩

theorem Broken.working (h : Broken env m m₁) (hs : m.Sound) :
    Grows Seen.Working m.trace m₁.trace := by
  induction h with
  | here => exact .refl
  | @armed i e m₁ he hen _ hw =>
      have he₁ : (m.modifyEntry i (.setEnabled true)).entryAt i = some (e.setEnabled true) := by
        rw [entryAt_modifyEntry_self, he]
        rfl
      have hfl : (e.setEnabled true).transfer.inFlight = false :=
        Machine.Sound.idle (e := e) hs he hen
      have hr := hw.routine he₁
      rw [hfl] at hr
      exact working_of_routine hr
  | unlocked _ ih => exact ih

theorem Handling.working (h : Handling env m m') (hs : m.Sound) :
    Grows Seen.Working m.trace m'.trace := by
  cases h with
  | draining hd =>
      cases hd with
      | move hm => exact hm.working hs
      | cleared _ hc => cases hc <;> exact .refl
  | accepted _ _ _ => exact accepted_trace m _ _ ▸ .one ⟨trivial, trivial⟩
  | stopping => exact .one ⟨trivial, trivial⟩
  | locked _ _ => exact .one ⟨trivial, trivial⟩
  | _ => exact .refl

theorem Step.working (h : Step env m m') (hs : m.Sound) :
    Grows Seen.Working m.trace m'.trace := by
  cases h with
  | handling hh => exact hh.working hs
  | waitFailed errno => exact .one ⟨trivial, trivial⟩
  | crashed cause hb => exact (hb.working hs).trans (.one ⟨trivial, trivial⟩)
  | _ => exact .refl

theorem Setup.working (h : Setup env m m') (hs : m.Sound) :
    Grows Seen.Working m.trace m'.trace := by
  cases h with
  | opening ho =>
      cases ho with
      | move hm => exact hm.working hs
      | watched _ hw => exact working_of_routine (hw.routine false)
      | noted fd => exact .one ⟨trivial, trivial⟩
      | _ => exact .refl
  | created hc => exact working_of_routine hc.routine

/-- **Along a path** of sound steps the entries stay sound, and the record
grows by what is sound. -/
theorem path_working {S : Machine σ → Machine σ → Prop}
    (hsound : ∀ s t, S s t → s.Sound → t.Sound)
    (hwork : ∀ s t, S s t → s.Sound → Grows Seen.Working s.trace t.trace)
    (h : ReflTransGen S m m') (hs : m.Sound) :
    m'.Sound ∧ Grows Seen.Working m.trace m'.trace :=
  inv_of_path (I := fun t => t.Sound ∧ Grows Seen.Working m.trace t.trace)
    (fun s t hst ht => ⟨hsound s t hst ht.1, ht.2.trans (hwork s t hst ht.1)⟩) h ⟨hs, .refl⟩

theorem setup_working (h : ReflTransGen (Setup env) m m') (hs : m.Sound) :
    m'.Sound ∧ Grows Seen.Working m.trace m'.trace :=
  path_working (fun _ _ hst => hst.sound) (fun _ _ hst => hst.working) h hs

theorem steps_working (h : ReflTransGen (Step env) m m') (hs : m.Sound) :
    m'.Sound ∧ Grows Seen.Working m.trace m'.trace :=
  path_working (fun _ _ hst => hst.sound) (fun _ _ hst => hst.working) h hs

/-! ## Every run -/

/-- A session begins with no entry. -/
theorem Begun.sound {m₀ b : Machine σ} (h : Begun env m₀ b) : b.Sound := by
  intro i e he
  rw [h.entryAt] at he
  cases he

/-- The record of an idle object is empty, and grows by what is sound. -/
theorem Machine.noted_of_working {m₀ : Machine σ} (hidle : Idle m₀)
    (h : Grows Seen.Working m₀.trace m.trace) : m.Noted := by
  refine h.forall_mem (fun o ho => ?_) fun _ ho => ho.1
  rw [hidle.trace] at ho
  exact absurd ho List.not_mem_nil

theorem Begun.working {m₀ b : Machine σ} (h : Begun env m₀ b) :
    Grows Seen.Working m₀.trace b.trace := by
  obtain ⟨now, htrace⟩ := h.trace
  exact htrace ▸ .one ⟨trivial, trivial⟩

theorem SetUp.working {m₀ : Machine σ} (h : SetUp env m₀ m) :
    m.Sound ∧ Grows Seen.Working m₀.trace m.trace := by
  obtain ⟨⟨b, hb, hp⟩, -, -⟩ := h
  have hset := setup_working hp hb.sound
  exact ⟨hset.1, hb.working.trans hset.2⟩

theorem Aborted.noted {m₀ : Machine σ} (h : Aborted env m₀ m) (hidle : Idle m₀) : m.Noted := by
  obtain ⟨b, u, v, hb, hu, hv, hg⟩ := h
  have hw : Grows Seen.Working m₀.trace v.trace :=
    (hb.working.trans (setup_working hu hb.sound).2).trans (working_of_routine hv.routine)
  refine hg.forall_mem (Machine.noted_of_working hidle hw) fun o ho => ?_
  obtain ⟨run, o⟩ := o
  cases o <;> first | exact ho.elim | trivial

/-- **The state of the transfers is sound in every run.** From
`process_init` to `process_cleanup`, whatever the world, the completions,
the events and the other threads do: at the end of `process_init` and of
every `process_step` every transfer in flight is enabled and, while
`should_run` is true, every enabled transfer is in flight; the same at
the end of every completion callback; and no transfer is submitted or its
buffer filled while it is in flight, not even by a set-up that fails. -/
theorem transfer_state_sound (env : Env σ) (m₀ : Machine σ) (mode : Mode) (hidle : Idle m₀) :
    (∀ actions m, Session env m₀ mode actions m → m.Sound ∧ m.Noted) ∧
      ∀ cause m, start env mode m₀ = (.throw cause, m) → m.Noted := by
  refine ⟨fun actions m h => ?_, fun cause m h => ?_⟩
  · obtain ⟨m₁, hset, hp⟩ := h.path
    obtain ⟨hs, hg⟩ := steps_working hp hset.working.1
    exact ⟨hs, Machine.noted_of_working hidle (hset.working.2.trans hg)⟩
  · have ha := ends_throw_of (E := fun _ t => Aborted env m₀ t) (start_ends hidle mode) h
    exact ha.noted hidle

/-- A session of one stream, with a completion of each kind of transfer. -/
theorem transfer_state_sound_sample :
    ∃ m, Session steady (constructed [sampleStream 64 2 1] ⟨64, 4096⟩ 4) .poll
      [reports [⟨0, .completed, [1, 96, 7, 8], 0⟩, ⟨1, .cancelled, [], 0⟩], readies 101] m ∧
      m.Sound ∧ m.Noted := by
  have hidle : Idle (constructed [sampleStream 64 2 1] ⟨64, 4096⟩ 4) :=
    constructed_idle (by decide +kernel)
  obtain ⟨m, hm, -⟩ := exists_session (P := fun _ => True) steady .poll
    [reports [⟨0, .completed, [1, 96, 7, 8], 0⟩, ⟨1, .cancelled, [], 0⟩], readies 101] hidle
    (by decide +kernel)
  exact ⟨m, hm, (transfer_state_sound steady _ .poll hidle).1 _ m hm⟩

end Stream

end SgFtdi
