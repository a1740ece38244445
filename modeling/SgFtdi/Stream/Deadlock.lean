import SgFtdi.Common.Trail
import SgFtdi.Stream.Model.Threads

/-!
# Stream — stopping and requesting

`std::lock` takes both mutexes of a request at once, and still a request
made in a callback may wait for ever: `stop_thread` keeps `_mutex` while
it joins the thread the callback runs in, `stop_poll` keeps it while it
steps the engine itself, and `event_notice` keeps `list_mutex` around the
callbacks of a drain. `deadlock_exact` says that there are no other
deadlocks.
-/

namespace SgFtdi

namespace Stream

open Relation

/-- A thread is deadlocked with itself or with others. -/
def Threads.Deadlocked (s : Threads) : Prop := discipline.Deadlocked s.place

/-- A callback's request is at `std::lock`. -/
def Place.asks : Place → Bool
  | .step (.requesting _) => true
  | .stepping (.requesting _) => true
  | _ => false

/-- **A move is careless**: a callback makes a request while its thread
holds a lock or is joined, or a thread begins to join the engine's while a
callback's request of that is at `std::lock`. -/
def Careless (t : Thread) (s s' : Threads) : Prop :=
  ((s'.place t).asks = true ∧ (s.place t).asks = false ∧
      ((∃ l, (s.place t).holds l = true) ∨ ∃ u, discipline.joins (s.place u) t)) ∨
    (s'.place t = .joining ∧ s.place t ≠ .joining ∧ (s.place .engine).asks = true)

variable {s s' : Threads} {t u : Thread} {mode : Mode} {run : List (Thread × Threads)}

/-! ## Where a move leads -/

@[simp] theorem goto_place_self (s : Threads) (t : Thread) (p : Place) :
    (s.goto t p).place t = p := by
  unfold Threads.goto
  exact Function.update_self t p s.place

theorem goto_place_ne (s : Threads) (p : Place) (h : u ≠ t) :
    (s.goto t p).place u = s.place u := by
  unfold Threads.goto
  exact Function.update_of_ne h p s.place

@[simp] theorem cancel_place (s : Threads) : s.cancel.place = s.place := rfl

@[simp] theorem leave_place (s : Threads) (mode : Mode) : (s.leave mode).place = s.place := by
  cases mode <;> rfl

/-- A move moves its thread only. -/
theorem ThreadMove.others (h : ThreadMove t s s') (hu : u ≠ t) : s'.place u = s.place u := by
  cases h with
  | cancels _ => rfl
  | joins _ _ => exact goto_place_ne s _ hu
  | steps _ _ => exact goto_place_ne s _ hu
  | stopped _ =>
      rw [leave_place]
      exact goto_place_ne s _ hu
  | _ => exact goto_place_ne s _ hu

/-- **How a callback's request comes about**: it is made in the callback,
and what is held there is held on. -/
theorem ThreadMove.asks (h : ThreadMove t s s') (hask : (s'.place t).asks = true) (l : Lock) :
    (s'.place t).holds l = (s.place t).holds l := by
  cases h with
  | step hp hm =>
      rw [hp]
      rw [goto_place_self] at hask ⊢
      cases hm with
      | requests locked => cases l <;> rfl
      | _ => cases hask
  | stepping hp hm =>
      rw [hp]
      rw [goto_place_self] at hask ⊢
      cases hm with
      | requests locked => cases l <;> rfl
      | _ => cases hask
  | cancels _ => rfl
  | stopped _ =>
      rw [leave_place, goto_place_self] at hask
      cases hask
  | joins _ _ =>
      rw [cancel_place, goto_place_self] at hask
      cases hask
  | steps _ _ =>
      rw [cancel_place, goto_place_self] at hask
      cases hask
  | _ =>
      rw [goto_place_self] at hask
      cases hask

/-! ## Locks are locks -/

@[simp] theorem stepping_holds {c : Spot} {l : Lock} :
    (Place.stepping c).holds l = true ↔ c.holds l = true ∨ l = .mutex := by
  simp [Place.holds]

theorem takes_of_le {p : Place} (h : ∀ l, p.holds l = true → (s.place t).holds l = true) :
    discipline.Takes s.place t p := fun l hl => .inl (h l hl)

/-- A statement of `process_step` takes only what is free, in whatever
else its thread is. -/
theorem SpotMove.takes {c c' : Spot} (h : SpotMove s c c') (l : Lock) (hl : c'.holds l = true) :
    c.holds l = true ∨ s.Free l := by
  cases h with
  | calls => cases l <;> cases hl
  | returns => cases l <;> cases hl
  | notices _ => cases l <;> cases hl
  | locks hfree =>
      cases l with
      | mutex => cases hl
      | listMutex => exact .inr hfree
  | callsDraining =>
      cases l with
      | mutex => cases hl
      | listMutex => exact .inl rfl
  | returnsDraining =>
      cases l with
      | mutex => cases hl
      | listMutex => exact .inl rfl
  | drained => cases l <;> cases hl
  | requests locked => cases l <;> exact .inl hl
  | accepted locked hmutex hlist =>
      cases l with
      | mutex => exact .inr hmutex
      | listMutex => exact .inr hlist
  | answered locked => exact .inl rfl

/-- Whoever moves takes only what is free. -/
theorem ThreadMove.exclusive (h : ThreadMove t s s') (hs : discipline.Exclusive s.place) :
    discipline.Exclusive s'.place := by
  -- a place that holds nothing takes nothing
  have hnone : ∀ {p : Place}, (∀ l, p.holds l = false) → discipline.Takes s.place t p := by
    intro p hp
    refine takes_of_le fun l hl => ?_
    rw [hp l] at hl
    cases hl
  -- nor does one that holds the mutex it comes with
  have hmutex : ∀ {p q : Place}, s.place t = q → q.holds .mutex = true →
      (∀ l, p.holds l = true → l = .mutex) → discipline.Takes s.place t p := by
    intro p q hq hheld hp
    refine takes_of_le fun l hl => ?_
    rw [hp l hl, hq]
    exact hheld
  cases h with
  | step hp hm =>
      refine hs.update fun l hl => ?_
      rcases hm.takes l hl with h | h
      · exact .inl (by rw [hp]; exact h)
      · exact .inr h
  | stepping hp hm =>
      refine hs.update fun l hl => ?_
      show (s.place t).holds l = true ∨ s.Free l
      rw [hp, stepping_holds]
      rcases stepping_holds.mp hl with hl | hl
      · rcases hm.takes l hl with h | h
        · exact .inl (.inl h)
        · exact .inr h
      · exact .inl (.inr hl)
  | cancels _ => exact hs
  | ends _ _ => exact hs.update (hnone fun l => by cases l <;> rfl)
  | polls _ _ _ => exact hs.update (hnone fun l => by cases l <;> rfl)
  | polled _ _ => exact hs.update (hnone fun l => by cases l <;> rfl)
  | requests _ _ => exact hs.update (hnone fun l => by cases l <;> rfl)
  | accepted hp h₁ h₂ =>
      refine hs.update fun l hl => .inr ?_
      cases l with
      | mutex => exact h₁
      | listMutex => exact h₂
  | answered _ => exact hs.update (hnone fun l => by cases l <;> rfl)
  | callsStop _ _ _ => exact hs.update (hnone fun l => by cases l <;> rfl)
  | locks hp hfree =>
      refine hs.update fun l hl => .inr ?_
      cases l with
      | mutex => exact hfree
      | listMutex => cases hl
  | skips _ _ => exact hs.update (hnone fun l => by cases l <;> rfl)
  | joins hp _ => exact hs.update (hmutex hp rfl fun l hl => by cases l <;> first | rfl | cases hl)
  | joined hp _ => exact hs.update (hmutex hp rfl fun l hl => by cases l <;> first | rfl | cases hl)
  | steps hp _ => exact hs.update (hmutex hp rfl fun l hl => by cases l <;> first | rfl | cases hl)
  | stepped hp => exact hs.update (hmutex hp rfl fun l hl => by cases l <;> first | rfl | cases hl)
  | throws _ => exact hs.update (hnone fun l => by cases l <;> rfl)
  | stopped _ =>
      rw [leave_place]
      exact hs.update (hnone fun l => by cases l <;> rfl)

/-! ## No careless move, no deadlock -/

/-- **The places of the engine's thread.** -/
def Place.ofEngine : Place → Bool
  | .away => true
  | .step _ => true
  | .ended => true
  | _ => false

/-- **What holds while no move is careless**: a callback's request is made
with no lock held, and never on a thread that is joined. -/
structure Threads.Clear (s : Threads) : Prop where
  engine : (s.place .engine).ofEngine = true
  bare : ∀ t l, (s.place t).asks = true → (s.place t).holds l = false
  joined : ∀ u, s.place u = .joining → (s.place .engine).asks = false

/-- How far from running on a thread may be: one that waits for
`list_mutex` alone waits for nobody who waits, one that joins the engine
waits for it there at most. -/
def Place.rank : Place → ℕ
  | .step .noticing => 1
  | .stepping .noticing => 1
  | .joining => 2
  | .step (.requesting _) => 3
  | .stepping (.requesting _) => 3
  | .requesting => 3
  | .stopCalled _ => 3
  | _ => 0

theorem Place.rank_of_holds {p : Place} {l : Lock} (h : p.holds l = true)
    (hbare : p.asks = true → p.holds l = false) : p.rank ≤ 2 := by
  have hquiet : p.asks ≠ true := fun hask => Bool.false_ne_true ((hbare hask).symm.trans h)
  cases p with
  | step c =>
      cases c with
      | requesting _ => exact absurd rfl hquiet
      | noticing => exact Nat.le_succ 1
      | _ => exact Nat.zero_le 2
  | stepping c =>
      cases c with
      | requesting _ => exact absurd rfl hquiet
      | noticing => exact Nat.le_succ 1
      | _ => exact Nat.zero_le 2
  | requesting => cases h
  | stopCalled _ => cases h
  | joining => exact Nat.le_refl 2
  | _ => exact Nat.zero_le 2

theorem Place.rank_of_holds_list {p : Place} (h : p.holds .listMutex = true)
    (hbare : p.asks = true → p.holds .listMutex = false) : p.rank = 0 := by
  have hquiet : p.asks ≠ true := fun hask => Bool.false_ne_true ((hbare hask).symm.trans h)
  cases p with
  | step c =>
      cases c with
      | requesting _ => exact absurd rfl hquiet
      | noticing => cases h
      | _ => rfl
  | stepping c =>
      cases c with
      | requesting _ => exact absurd rfl hquiet
      | noticing => cases h
      | _ => rfl
  | requesting => cases h
  | stopCalled _ => cases h
  | joining => cases h
  | _ => rfl

theorem Place.rank_of_wants {p : Place} {l : Lock} (h : p.wants l = true) :
    p.rank = 3 ∨ p.rank = 1 ∧ l = .listMutex := by
  cases p with
  | step c =>
      cases c with
      | requesting _ => exact .inl rfl
      | noticing =>
          cases l with
          | mutex => cases h
          | listMutex => exact .inr ⟨rfl, rfl⟩
      | _ => cases h
  | stepping c =>
      cases c with
      | requesting _ => exact .inl rfl
      | noticing =>
          cases l with
          | mutex => cases h
          | listMutex => exact .inr ⟨rfl, rfl⟩
      | _ => cases h
  | requesting => exact .inl rfl
  | stopCalled _ => exact .inl rfl
  | _ => cases h

/-- The engine's thread waits for `list_mutex` at most, where no request
is made on it. -/
theorem Place.rank_of_engine {p : Place} (h : p.ofEngine = true) (hask : p.asks = false) :
    p.rank ≤ 1 := by
  cases p with
  | step c =>
      cases c with
      | requesting _ => cases hask
      | noticing => exact Nat.le_refl 1
      | _ => exact Nat.zero_le 1
  | away => exact Nat.zero_le 1
  | ended => exact Nat.zero_le 1
  | _ => cases h

/-- **A clear state is not deadlocked.** -/
theorem Threads.Clear.not_deadlocked (h : s.Clear) : ¬ s.Deadlocked := by
  refine Discipline.not_deadlocked_of_rank Place.rank ?_
  intro t u hw
  cases hw with
  | @lock l hwants hholds =>
      rcases Place.rank_of_wants hwants with hr | ⟨hr, rfl⟩
      · have hle := Place.rank_of_holds hholds (h.bare u l)
        omega
      · have hzero := Place.rank_of_holds_list hholds (h.bare u .listMutex)
        omega
  | join hjoins hover =>
      obtain ⟨hp, rfl⟩ := hjoins
      have hle := Place.rank_of_engine h.engine (h.joined t hp)
      have htwo : (s.place t).rank = 2 := by rw [hp]; rfl
      omega

/-- The engine's thread stays in its own places. -/
theorem ThreadMove.ofEngine (h : ThreadMove t s s') (hs : (s.place .engine).ofEngine = true) :
    (s'.place .engine).ofEngine = true := by
  by_cases ht : .engine = t
  · subst ht
    cases h with
    | step _ _ => rw [goto_place_self]; rfl
    | ends _ _ => rw [goto_place_self]; rfl
    | cancels _ => exact hs
    | polls hne _ _ => exact absurd rfl hne
    | polled hne _ => exact absurd rfl hne
    | requests hne _ => exact absurd rfl hne
    | callsStop _ hne _ => exact absurd rfl hne
    | stepping hp _ => rw [hp] at hs; cases hs
    | accepted hp _ _ => rw [hp] at hs; cases hs
    | answered hp => rw [hp] at hs; cases hs
    | locks hp _ => rw [hp] at hs; cases hs
    | skips hp _ => rw [hp] at hs; cases hs
    | joins hp _ => rw [hp] at hs; cases hs
    | joined hp _ => rw [hp] at hs; cases hs
    | steps hp _ => rw [hp] at hs; cases hs
    | stepped hp => rw [hp] at hs; cases hs
    | throws hp => rw [hp] at hs; cases hs
    | stopped hp => rw [hp] at hs; cases hs
  · rw [h.others ht]
    exact hs

/-- A thread that joins is none the engine runs in. -/
theorem not_engine (hs : (s.place .engine).ofEngine = true) (hu : s.place u = .joining) :
    .engine ≠ u := by
  rintro rfl
  rw [hu] at hs
  cases hs

/-- **A move that is not careless keeps a state clear.** -/
theorem Threads.Clear.move (hs : s.Clear) (h : ThreadMove t s s') (hc : ¬ Careless t s s') :
    s'.Clear := by
  have hengine := h.ofEngine hs.engine
  refine ⟨hengine, ?_, ?_⟩
  · intro u l hask
    by_cases hut : u = t
    · subst hut
      rw [h.asks hask l]
      by_cases hbefore : (s.place u).asks = true
      · exact hs.bare u l hbefore
      · by_contra hheld
        refine hc (.inl ⟨hask, ?_, .inl ⟨l, ?_⟩⟩)
        · simpa using hbefore
        · simpa using hheld
    · rw [h.others hut] at hask ⊢
      exact hs.bare u l hask
  · intro u hu
    by_contra hask
    have hask : (s'.place .engine).asks = true := by simpa using hask
    have hne := not_engine hengine hu
    by_cases hbefore : s.place u = .joining
    · -- it was joining already, so the request is new
      have hquiet := hs.joined u hbefore
      by_cases ht : .engine = t
      · subst ht
        exact hc (.inl ⟨hask, hquiet, .inr ⟨u, hbefore, rfl⟩⟩)
      · rw [h.others ht, hquiet] at hask
        cases hask
    · -- it has just begun to join
      have hut : u = t := by
        by_contra hut
        rw [h.others hut] at hu
        exact hbefore hu
      subst hut
      rw [h.others hne] at hask
      exact hc (.inr ⟨hu, hbefore, hask⟩)

/-! ## A careless move is a deadlock -/

theorem Place.wants_of_asks {p : Place} (h : p.asks = true) (l : Lock) : p.wants l = true := by
  cases p with
  | step c =>
      cases c with
      | requesting _ => cases l <;> rfl
      | _ => cases h
  | stepping c =>
      cases c with
      | requesting _ => cases l <;> rfl
      | _ => cases h
  | _ => cases h

/-- A thread that joins and a request of the engine's wait for each
other. -/
theorem deadlocked_of_join (hu : s.place u = .joining) (hask : (s.place .engine).asks = true) :
    s.Deadlocked := by
  have hover : s.place .engine ≠ .ended := by
    intro hover
    rw [hover] at hask
    cases hask
  refine Discipline.Deadlocked.pair (t := .engine) (u := u) ?_ (.join ⟨hu, rfl⟩ hover)
  refine .lock (l := .mutex) (Place.wants_of_asks hask _) ?_
  show (s.place u).holds .mutex = true
  rw [hu]
  rfl

/-- **A careless move leads into a deadlock.** -/
theorem ThreadMove.deadlocks (h : ThreadMove t s s') (hs : (s.place .engine).ofEngine = true)
    (hc : Careless t s s') : s'.Deadlocked := by
  have hengine := h.ofEngine hs
  rcases hc with ⟨hask, -, ⟨l, hl⟩ | ⟨u, hu, rfl⟩⟩ | ⟨ht, -, hask⟩
  · have hheld : (s'.place t).holds l = true := (h.asks hask l).trans hl
    exact .alone (.lock (Place.wants_of_asks hask l) hheld)
  · have hne := not_engine hs hu
    refine deadlocked_of_join (u := u) ?_ hask
    rw [h.others hne.symm]
    exact hu
  · refine deadlocked_of_join ht ?_
    rw [h.others (not_engine hengine ht)]
    exact hask

/-- **Clear is not deadlocked**, and nothing else is. -/
theorem clear_iff (hs : (s.place .engine).ofEngine = true) : s.Clear ↔ ¬ s.Deadlocked := by
  constructor
  · exact Threads.Clear.not_deadlocked
  · intro hdead
    refine ⟨hs, fun t l hask => ?_, fun u hu => ?_⟩
    · by_contra hheld
      have hheld : (s.place t).holds l = true := by simpa using hheld
      exact hdead (.alone (.lock (Place.wants_of_asks hask l) hheld))
    · by_contra hask
      exact hdead (deadlocked_of_join hu (by simpa using hask))

theorem started_away (mode : Mode) (t : Thread) : (Threads.started mode).place t = .away ∨
    (Threads.started mode).place t = .step .loop := by
  unfold Threads.started
  dsimp only
  split
  · exact .inr rfl
  · exact .inl rfl

theorem started_clear (mode : Mode) : (Threads.started mode).Clear := by
  refine ⟨?_, ?_, ?_⟩
  · rcases started_away mode .engine with h | h <;> rw [h] <;> rfl
  · intro t l hask
    rcases started_away mode t with h | h <;> rw [h] at hask <;> cases hask
  · intro u hu
    rcases started_away mode u with h | h <;> rw [h] at hu <;> cases hu

/-- **No lock is ever held twice.** -/
theorem run_exclusive (h : Trail ThreadMove (.started mode) run) :
    Throughout (fun s => discipline.Exclusive s.place) (.started mode) run := by
  refine h.throughout (fun t s s' hm hs => hm.exclusive hs) fun t u l ht _ => ?_
  have ht : ((Threads.started mode).place t).holds l = true := ht
  rcases started_away mode t with hp | hp <;> rw [hp] at ht <;> cases l <;> cases ht

/-- **Deadlocks between stopping and requesting.** No state of a run is
deadlocked if and only if no move of the run is careless. -/
theorem deadlock_exact (mode : Mode) (run : List (Thread × Threads))
    (h : Trail ThreadMove (.started mode) run) :
    Throughout (fun s => ¬ s.Deadlocked) (.started mode) run ↔
      Spares Careless (.started mode) run := by
  have hstart := started_clear mode
  refine h.forall_iff (fun t s s' hm hs => hm.ofEngine hs) ?_ hstart.engine hstart.not_deadlocked
  intro t s s' hm hs hdead
  constructor
  · exact fun hdead' hc => hdead' (hm.deadlocks hs hc)
  · exact fun hc => (((clear_iff hs).mpr hdead).move hm hc).not_deadlocked

/-- Where the engine's thread and one of the user's are the only ones in
the code, a lock is free that neither holds. -/
theorem free_of_away {l : Lock} (haway : ∀ k, s.place (.user (k + 1)) = .away)
    (hengine : (s.place .engine).holds l = false)
    (huser : (s.place (.user 0)).holds l = false) : s.Free l := by
  intro u hu
  have hu : (s.place u).holds l = true := hu
  cases u with
  | engine =>
      rw [hengine] at hu
      cases hu
  | user k =>
      cases k with
      | zero =>
          rw [huser] at hu
          cases hu
      | succ k =>
          rw [haway k] at hu
          cases hu

/-- A move to anywhere else is not careless. -/
theorem not_careless (hask : (s'.place t).asks = false) (hjoin : s'.place t ≠ .joining) :
    ¬ Careless t s s' := by
  rintro (⟨hasks, -, -⟩ | ⟨hjoins, -, -⟩)
  · rw [hask] at hasks
    cases hasks
  · exact hjoin hjoins

/-- A callback makes a request and it is answered, and then `stop_thread`
is called. -/
theorem deadlock_exact_sample : ∃ run, run.length = 8 ∧
    Trail ThreadMove (.started .thread) run ∧
    Throughout (fun s => ¬ s.Deadlocked) (.started .thread) run := by
  let s₀ := Threads.started .thread
  let s₁ := s₀.goto .engine (.step (.callback false))
  let s₂ := s₁.goto .engine (.step (.requesting false))
  let s₃ := s₂.goto .engine (.step (.accepting false))
  let s₄ := s₃.goto .engine (.step (.callback false))
  let s₅ := s₄.goto .engine (.step .loop)
  let s₆ := s₅.goto (.user 0) (.stopCalled .thread)
  let s₇ := s₆.goto (.user 0) (.stopping .thread)
  let s₈ := (s₇.goto (.user 0) .joining).cancel
  have hrun : Trail ThreadMove s₀ [(.engine, s₁), (.engine, s₂), (.engine, s₃), (.engine, s₄),
      (.engine, s₅), (.user 0, s₆), (.user 0, s₇), (.user 0, s₈)] := by
    refine .cons (.step rfl .calls) (.cons (.step rfl (.requests false)) ?_)
    refine .cons (.step rfl (.accepted false ?_ ?_)) (.cons (.step rfl (.answered false)) ?_)
    · exact free_of_away (fun _ => rfl) rfl rfl
    · exact free_of_away (fun _ => rfl) rfl rfl
    refine .cons (.step rfl .returns) (.cons (.callsStop .thread nofun rfl) ?_)
    refine .cons (.locks rfl ?_) (.cons (.joins rfl rfl) (.nil _))
    exact free_of_away (fun _ => rfl) rfl rfl
  refine ⟨_, ?_, hrun, (deadlock_exact .thread _ hrun).mpr ?_⟩
  · rfl
  · refine ⟨not_careless rfl nofun, ?_, not_careless rfl nofun, not_careless rfl nofun,
      not_careless rfl nofun, not_careless rfl nofun, not_careless rfl nofun, ?_, trivial⟩
    · -- the callback holds nothing, and nobody joins yet
      rintro (⟨-, -, ⟨l, hl⟩ | ⟨u, hu, -⟩⟩ | ⟨hjoins, -, -⟩)
      · cases l <;> cases hl
      · cases u with
        | engine => cases hu
        | user k => cases hu
      · cases hjoins
    · rintro (⟨hasks, -, -⟩ | ⟨-, -, hasks⟩) <;> cases hasks

/-- A callback of the engine makes a request after `stop_thread` has begun
to wait for the engine's thread. -/
theorem stop_thread_deadlocks : ∃ run, Trail ThreadMove (.started .thread) run ∧
    ¬ Throughout (fun s => ¬ s.Deadlocked) (.started .thread) run := by
  let s₀ := Threads.started .thread
  let s₁ := s₀.goto .engine (.step (.callback false))
  let s₂ := s₁.goto (.user 0) (.stopCalled .thread)
  let s₃ := s₂.goto (.user 0) (.stopping .thread)
  let s₄ := (s₃.goto (.user 0) .joining).cancel
  let s₅ := s₄.goto .engine (.step (.requesting false))
  refine ⟨[(.engine, s₁), (.user 0, s₂), (.user 0, s₃), (.user 0, s₄), (.engine, s₅)], ?_, ?_⟩
  · refine .cons (.step rfl .calls) (.cons (.callsStop .thread nofun rfl) ?_)
    refine .cons (.locks rfl ?_) (.cons (.joins rfl rfl) ?_)
    · exact free_of_away (fun _ => rfl) rfl rfl
    · exact .cons (.step rfl (.requests false)) (.nil _)
  · intro hall
    exact hall s₅ (by simp) (deadlocked_of_join (u := .user 0) rfl rfl)

/-! ## The machine's calls that do not come back

The machine keeps of the locks whether a `stop_…` that waits holds
`_mutex` and whether the engine holds `list_mutex`, and a request made
from a callback does not come back there where either is held. That is a
deadlock of the threads, and the only one a request leads into. -/

/-- A `stop_…` that waits for the engine. -/
def Place.waitsForEngine : Place → Bool
  | .joining => true
  | .stepping _ => true
  | _ => false

/-- **The machine of an engine that runs in thread `t`.** -/
structure Threads.Shows {σ : Type} (s : Threads) (t : Thread) (m : Machine σ) : Prop where
  mutex : m.mutex = true ↔ ∃ u, (s.place u).waitsForEngine = true
  listMutex : m.listMutex = true ↔ (s.place t).holds .listMutex = true

/-- **The engine runs in one thread**: its own, or that of a `stop_poll`
that steps it. -/
def Threads.RunsIn (s : Threads) (t : Thread) : Prop :=
  (t = .engine ∧ ∀ u c, s.place u ≠ .stepping c) ∨ ∃ c, s.place t = .stepping c

theorem ThreadMove.asks_holds (h : ThreadMove t s s') (hask : (s'.place t).asks = true)
    (hnew : (s.place t).asks = false) (hl : (s.place t).holds .mutex = true) :
    (s.place t).waitsForEngine = true := by
  cases h with
  | step hp hm =>
      rw [goto_place_self] at hask
      rw [hp] at hl
      cases hm with
      | requests _ => cases hl
      | _ => cases hask
  | stepping hp _ => rw [hp]; rfl
  | cancels _ => exact absurd (hnew.symm.trans hask) Bool.false_ne_true
  | joins _ _ => rw [cancel_place, goto_place_self] at hask; cases hask
  | steps _ _ => rw [cancel_place, goto_place_self] at hask; cases hask
  | stopped _ => rw [leave_place, goto_place_self] at hask; cases hask
  | _ => rw [goto_place_self] at hask; cases hask

/-- **A request from a callback ends in a deadlock** exactly where the
machine says that it does not come back. -/
theorem asking_deadlocks_iff {σ : Type} {m : Machine σ} (hs : s.Clear) (hin : s.RunsIn t)
    (hm : s.Shows t m) (h : ThreadMove t s s') (hnew : (s.place t).asks = false)
    (hask : (s'.place t).asks = true) :
    s'.Deadlocked ↔ (m.mutex || m.listMutex) = true := by
  rw [Bool.or_eq_true, hm.mutex, hm.listMutex]
  constructor
  · intro hdead
    have hc : Careless t s s' := by
      by_contra hc
      exact (hs.move h hc).not_deadlocked hdead
    rcases hc with ⟨-, -, ⟨l, hl⟩ | ⟨u, hu, -⟩⟩ | ⟨hjoins, -, -⟩
    · cases l with
      | mutex => exact .inl ⟨t, h.asks_holds hask hnew hl⟩
      | listMutex => exact .inr hl
    · exact .inl ⟨u, by rw [hu]; rfl⟩
    · rw [hjoins] at hask
      cases hask
  · intro hlocked
    refine h.deadlocks hs.engine (.inl ⟨hask, hnew, ?_⟩)
    rcases hlocked with ⟨u, hu⟩ | hl
    · rcases hin with ⟨rfl, hnone⟩ | ⟨c, hc⟩
      · -- the engine's own thread: whoever waits for it joins it
        cases hp : s.place u with
        | joining => exact .inr ⟨u, hp, rfl⟩
        | stepping c => exact absurd hp (hnone u c)
        | _ => rw [hp] at hu; cases hu
      · refine .inl ⟨.mutex, ?_⟩
        rw [hc, stepping_holds]
        exact .inr rfl
    · exact .inl ⟨.listMutex, hl⟩

theorem performRequests_locked {σ : Type} {m : Machine σ} (env : Env σ) (r : Request)
    (rs : List Request) (h : (m.mutex || m.listMutex) = true) :
    performRequests env (r :: rs) m = (.hang, m) := by
  show Prog.andThen (if m.mutex || m.listMutex then Prog.hang else _) _ m = (.hang, m)
  rw [if_pos h]
  rfl

end Stream

end SgFtdi
