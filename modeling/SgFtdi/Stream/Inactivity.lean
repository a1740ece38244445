import Mathlib.Data.UInt
import SgFtdi.Stream.TransferState
import SgFtdi.Stream.Model.Steady

/-!
# Stream — the inactivity timeout

`event_timer` compares the clock with the last activity it knows of. What
it knows can be read off the record: `noticed` follows the engine, which
notes a completed read transfer and nothing else, and `active` what really
moved. The engine is early where the two differ, and where the sum it
forms does not fit sixty-four bits.
-/

namespace SgFtdi

namespace Stream

open Prog Relation

variable {σ : Type} {env : Env σ} {m m' m₁ m₂ : Machine σ} {i : ℕ} {e : FtdiStreamStaticState}

/-! ## The clock, by the record -/

/-- `ts_now` and `ts_activity`. -/
structure Clock where
  now : UInt64
  activity : UInt64
deriving DecidableEq, Repr

/-- The clock of an engine. -/
def FtdiStreamState.clock (m : FtdiStreamState) : Clock := ⟨m.tsNow, m.tsActivity⟩

/-- What the engine takes for activity: a read transfer that completed with
more than the modem status while the engine was running. -/
def Seen.noticed (o : Seen) : Bool :=
  match o.what with
  | .completed _ _ isReading status _ actualLength =>
      isReading && o.running && decide (status = .completed) && decide (2 < actualLength)
  | _ => false

/-- The engine's clock after one more observation. -/
def tick (c : Clock) (o : Seen) : Clock :=
  match o.what with
  | .began now => ⟨now, now⟩
  | .ticked now => { c with now := now }
  | .completed _ _ _ _ _ _ => if o.noticed then { c with activity := c.now } else c
  | _ => c

/-- **The last activity the engine takes notice of.** -/
def noticed (t : List Seen) : ℕ := (t.foldl tick ⟨0, 0⟩).activity.toNat

/-- Payload has moved: more than the modem status of a read transfer, or
anything of a write transfer. -/
def Obs.payload : Obs → Bool
  | .completed _ _ isReading _ _ actualLength =>
      if isReading then decide (2 < actualLength) else decide (0 < actualLength)
  | _ => false

/-- The time of the last tick or start, and of the last activity, after one
more observation. -/
def passing (c : ℕ × ℕ) (o : Seen) : ℕ × ℕ :=
  match o.what with
  | .began now => (now.toNat, now.toNat)
  | .ticked now => (now.toNat, c.2)
  | .completed _ _ _ _ _ _ => if o.what.payload then (c.1, max c.2 c.1) else c
  | _ => c

/-- **The last activity**: the start, or the last tick or start before a
completion that moved payload, whichever is latest. -/
def active (t : List Seen) : ℕ := (t.foldl passing (0, 0)).2

/-- What is noticed is activity. -/
theorem Seen.payload_of_noticed {o : Seen} (h : o.noticed = true) : o.what.payload = true := by
  obtain ⟨run, o⟩ := o
  cases o with
  | completed _ _ isReading status _ actualLength =>
      simp only [noticed, Bool.and_eq_true, decide_eq_true_eq] at h
      obtain ⟨⟨⟨rfl, -⟩, -⟩, hlen⟩ := h
      exact decide_eq_true hlen
  | _ => cases h

theorem tick_le_passing {c : Clock} {d : ℕ × ℕ} (o : Seen) (hnow : c.now.toNat = d.1)
    (hle : c.activity.toNat ≤ d.2) :
    (tick c o).now.toNat = (passing d o).1 ∧ (tick c o).activity.toNat ≤ (passing d o).2 := by
  obtain ⟨run, o⟩ := o
  cases o with
  | began now => exact ⟨rfl, le_rfl⟩
  | ticked now => exact ⟨rfl, hle⟩
  | completed i streamId isReading status bytes actualLength =>
      unfold tick passing
      dsimp only
      by_cases hn : Seen.noticed ⟨run, .completed i streamId isReading status bytes actualLength⟩
      · rw [if_pos hn, if_pos (Seen.payload_of_noticed hn)]
        exact ⟨hnow, hnow.le.trans (le_max_right _ _)⟩
      · rw [if_neg hn]
        split
        · exact ⟨hnow, hle.trans (le_max_left _ _)⟩
        · exact ⟨hnow, hle⟩
  | _ => exact ⟨hnow, hle⟩

/-- **The engine is never ahead** of what has really moved. -/
theorem noticed_le_active (t : List Seen) : noticed t ≤ active t := by
  have hall : ∀ (t : List Seen) (c : Clock) (d : ℕ × ℕ), c.now.toNat = d.1 →
      c.activity.toNat ≤ d.2 → (t.foldl tick c).activity.toNat ≤ (t.foldl passing d).2 := by
    intro t
    induction t with
    | nil => exact fun _ _ _ h => h
    | cons o t ih =>
        intro c d hnow hle
        obtain ⟨hnow', hle'⟩ := tick_le_passing o hnow hle
        exact ih _ _ hnow' hle'
  exact hall t ⟨0, 0⟩ (0, 0) rfl le_rfl

/-- An observation that is nothing to the clock. -/
def Obs.timeless : Obs → Prop
  | .began _ => False
  | .ticked _ => False
  | .completed _ _ _ _ _ _ => False
  | _ => True

theorem tick_of_timeless {o : Seen} (h : o.what.timeless) (c : Clock) : tick c o = c := by
  obtain ⟨run, o⟩ := o
  cases o <;> first | exact h.elim | rfl

/-! ## Every step keeps the clock -/

/-- **The record dates the clock**: it has grown by what leads from the clock
before to the clock now, and the timeout is the same. -/
structure Dated (m m' : Machine σ) : Prop where
  reads : Reads tick (fun _ => True) m.trace m'.trace m.clock m'.clock
  timeout : m'.timeout = m.timeout

namespace Dated

theorem trans (h : Dated m m₁) (h' : Dated m₁ m₂) : Dated m m₂ :=
  ⟨h.reads.trans h'.reads, h'.timeout.trans h.timeout⟩

theorem of_timeless (hc : m'.clock = m.clock) (ht : m'.timeout = m.timeout)
    (hg : Grows (·.what.timeless) m.trace m'.trace) : Dated m m' := by
  refine ⟨?_, ht⟩
  rw [hc]
  exact Reads.of_grows hg (fun _ _ => trivial) fun _ ho => tick_of_timeless ho

theorem of_eq (hc : m'.clock = m.clock) (ht : m'.timeout = m.timeout)
    (htrace : m'.trace = m.trace) : Dated m m' := of_timeless hc ht (.of_eq htrace)

theorem refl : Dated m m := of_eq rfl rfl rfl

theorem note {o : Obs} (h : o.timeless) : Dated m (m.note o) := of_timeless rfl rfl (.one h)

theorem modify (i : ℕ) (f : FtdiStreamStaticState → FtdiStreamStaticState) :
    Dated m (m.modifyEntry i f) := of_eq rfl rfl rfl

theorem accepted (s : ℕ) (q : Queued) : Dated m (m.accepted s q) := by
  refine of_timeless ?_ ?_ (accepted_trace m s q ▸ .one trivial) <;> rw [accepted_eq]
  rfl

end Dated

theorem UserStep.dated (h : UserStep env m m') : Dated m m' := by
  cases h with
  | world _ => exact .of_eq rfl rfl rfl
  | requested _ _ _ => exact (Dated.accepted _ _).trans (.of_eq rfl rfl rfl)
  | notified => exact .of_eq rfl rfl rfl

theorem Chore.dated (h : Chore env m m') : Dated m m' := by
  cases h with
  | user hu => exact hu.dated
  | wrote _ => exact .modify _ _
  | counted s isReading t callbacks bytes => exact .of_timeless rfl rfl (.one trivial)
  | ticked now => exact ⟨.one trivial, rfl⟩

theorem Work.dated (h : Work env i m m') : Dated m m' := by
  induction h with
  | refl => exact .refl
  | tail _ hs ih =>
      refine ih.trans ?_
      cases hs with
      | chore hc => exact hc.dated
      | wrote _ => exact .modify _ _
      | handed s bytes => exact .of_timeless rfl rfl (.one trivial)
      | filled _ => exact .note trivial
      | refused _ => exact .of_timeless rfl rfl (.one trivial)

theorem Quiet.dated (h : Quiet env m m') : Dated m m' := (Work.quiet (i := 0) h).dated

theorem errored_dated (m : Machine σ) (message : Message) : Dated m (m.errored env message) := by
  obtain ⟨_, _, h, -⟩ := errored_eq env m message
  refine .of_timeless ?_ ?_ ((errored_trace env m message).mono fun o ho => by rw [ho]; trivial)
  · rw [h]
    rfl
  · rw [h]
    rfl

theorem launched_dated (m : Machine σ) (i : ℕ) (e : FtdiStreamStaticState) :
    Dated m (m.launched env i e) := .of_timeless rfl rfl (.one trivial)

theorem Submitted.dated (h : Submitted env i m m') : Dated m m' := by
  cases h with
  | kept _ => exact .refl
  | idle he _ _ hp => exact (hp.sized he).dated.trans (.modify _ _)
  | launched he _ _ hp _ _ => exact (hp.sized he).dated.trans (launched_dated _ _ _)

/-- What is put on the record when a transfer lands. -/
def Machine.landing (m : Machine σ) (e : FtdiStreamStaticState) (c : Completion) : Seen :=
  ⟨m.shouldRun, .completed c.transfer e.streamId e.isReading c.status (e.moved c) (e.actual c)⟩

/-- **A transfer that lands**, unnoticed. -/
theorem landed_dated {c : Completion} (h : (m.landing e c).noticed = false) :
    Dated m (m.landed e c) := by
  refine ⟨⟨[m.landing e c], rfl, fun _ _ => trivial, ?_⟩, rfl⟩
  have htick : tick m.clock (m.landing e c) =
    if (m.landing e c).noticed then { m.clock with activity := m.clock.now } else m.clock := rfl
  rw [List.foldl_cons, List.foldl_nil, htick, h]
  rfl

/-- **A read transfer that completes** while the engine is running: where it
is taken notice of, it is at once. -/
theorem heard_dated {c : Completion} (hread : e.isReading = true) (hr : m.shouldRun = true) :
    Dated m ((m.landed e c).heard (e.back c)) := by
  refine ⟨⟨[m.landing e c], (m.landed e c).heard_trace (e.back c), fun _ _ => trivial, ?_⟩, ?_⟩
  · have htick : tick m.clock (m.landing e c) =
      if (m.landing e c).noticed then { m.clock with activity := m.clock.now } else m.clock := rfl
    have hn : (m.landing e c).noticed =
        (decide (c.status = .completed) && decide (2 < e.actual c)) := by
      simp [Seen.noticed, Machine.landing, hread, hr]
    rw [List.foldl_cons, List.foldl_nil, htick, hn]
    unfold Machine.heard Machine.touch
    have hstatus : (e.back c).transfer.status = c.status := rfl
    have hlen : (e.back c).transfer.actualLength = e.actual c := rfl
    rw [hstatus, hlen]
    by_cases h₁ : c.status = .completed
    · by_cases h₂ : 2 < e.actual c
      · simp only [h₁, h₂, if_true, decide_true, Bool.and_self]
        rfl
      · simp only [h₁, h₂, if_true, if_false, decide_true, decide_false, Bool.and_false]
        rfl
    · simp only [h₁, if_false, decide_false, Bool.false_and]
      rfl
  · rw [Machine.heard_eq]
    rfl

theorem Confirm.dated {b : Bool} (h : Confirm env i e m b m₁) : Dated m m₁ := by
  have hc : Dated m (m.confirming env i e) := .of_timeless rfl rfl (.one trivial)
  cases h with
  | none _ => exact .refl
  | taken _ _ hq => exact hc.trans (hq.dated.trans (.modify _ _))
  | failed _ hw => exact hc.trans hw.dated

theorem WriteBack.dated (h : WriteBack env i e m m') (he : m.entryAt i = some e) :
    Dated m m' := by
  cases h with
  | off _ => exact .refl
  | stopped _ _ => exact .of_eq rfl rfl rfl
  | idle _ _ _ hcf hf =>
      obtain ⟨e₁, he₁, ha⟩ := hcf.entry he
      exact hcf.dated.trans ((hf.work he₁ ha.inFlight.symm).dated.trans (.of_eq rfl rfl rfl))
  | again _ _ _ hcf hf _ _ =>
      obtain ⟨e₁, he₁, ha⟩ := hcf.entry he
      exact hcf.dated.trans ((hf.work he₁ ha.inFlight.symm).dated.trans
        ((Dated.modify _ _).trans (launched_dated _ _ _)))
  | failed _ _ _ hcf hw =>
      exact hcf.dated.trans (hw.dated.trans ((errored_dated _ _).trans (.modify _ _)))

theorem Completed.dated {c : Completion} (h : Completed env c m m₁) (hs : m.Sound) :
    Dated m m₁ := by
  cases h with
  | @read e _ he hfl hread hb =>
      cases hb with
      | off hoff =>
          have hoff : e.enabled = false := hoff
          exact absurd (hoff.symm.trans ((hs _ e he).1 hfl)) Bool.false_ne_true
      | stopped _ hstop =>
          refine (landed_dated ?_).trans (.of_eq rfl rfl rfl)
          rcases hstop with hstatus | hr
          · have hstatus : c.status = .cancelled := hstatus
            simp [Seen.noticed, Machine.landing, hstatus]
          · have hr : m.shouldRun = false := hr
            simp [Seen.noticed, Machine.landing, hr]
      | again _ hr hstatus hd _ =>
          have ht : (m.landed e c).heard (e.back c) = (m.landed e c).touch (e.back c) :=
            if_pos hstatus
          have hr : m.shouldRun = true := hr
          have hheard := heard_dated (c := c) hread hr
          rw [ht] at hheard
          exact hheard.trans (hd.work.dated.trans (launched_dated _ _ _))
      | failed _ hr _ hw =>
          have hr : m.shouldRun = true := hr
          exact (heard_dated hread hr).trans (hw.dated.trans
            ((Dated.modify _ _).trans (errored_dated _ _)))
  | @write e _ he _ hread hb =>
      have hn : (m.landing e c).noticed = false := by
        simp [Seen.noticed, Machine.landing, hread]
      exact (landed_dated hn).trans (hb.dated (landed_entryAt he))

theorem Move.dated (h : Move env m m') (hs : m.Sound) : Dated m m' := by
  cases h with
  | chore hc => exact hc.dated
  | errored message => exact errored_dated m message
  | pollfds fds => exact .of_eq rfl rfl rfl
  | completed hc => exact (hc.dated hs).trans (.note trivial)
  | armed _ _ _ hsub => exact (Dated.modify _ _).trans hsub.dated
  | @cancelled i e _ _ _ =>
      exact (Dated.note (o := .cancelled i) trivial).trans (.modify _ _)

theorem Broken.dated (h : Broken env m m₁) : Dated m m₁ := by
  induction h with
  | here => exact .refl
  | armed _ _ _ hw => exact (Dated.modify _ _).trans hw.dated
  | unlocked _ ih => exact ih.trans (.of_eq rfl rfl rfl)

theorem Handling.dated (h : Handling env m m') (hs : m.Sound) : Dated m m' := by
  cases h with
  | draining hd =>
      cases hd with
      | move hm => exact hm.dated hs
      | cleared _ hc => cases hc <;> exact .of_eq rfl rfl rfl
  | accepted _ _ _ => exact .accepted _ _
  | stopping => exact .of_timeless rfl rfl (.one trivial)
  | locked _ _ => exact .of_timeless rfl rfl (.one trivial)
  | _ => exact .of_eq rfl rfl rfl

theorem Step.dated (h : Step env m m') (hs : m.Sound) : Dated m m' := by
  cases h with
  | handling hh => exact hh.dated hs
  | waitFailed errno => exact .of_timeless rfl rfl (.one trivial)
  | crashed cause hb => exact hb.dated.trans (.of_timeless rfl rfl (.one trivial))
  | _ => exact .of_eq rfl rfl rfl

theorem Watched.dated {sock : ℤ} (h : Watched env sock m m') : Dated m m' := by
  cases h with
  | added w _ => exact .of_eq rfl rfl rfl
  | failed w cause _ =>
      have hworld : Dated m (m.withWorld w) := .of_eq rfl rfl rfl
      exact hworld.trans (errored_dated _ _)

theorem Created.dated {s t : ℕ} {stream : FtdiStreamEntry} {isReading : Bool}
    (h : Created env s t stream isReading m m') : Dated m m' := by
  cases h with
  | @mk fd m₁ _ _ _ _ hready hsub =>
      have hnew : Dated m (m.emplaced
        (newEntry s t isReading stream.readIncludeModemStatus fd)) := .of_eq rfl rfl rfl
      refine hnew.trans (Dated.trans ?_ hsub.dated)
      cases hready with
      | reading _ _ _ => exact .of_eq rfl rfl rfl
      | @writing _ w _ _ _ _ hw =>
          have hfilled : ∀ m i, Dated m (Machine.filled m i stream w) :=
            fun _ _ => .of_eq rfl rfl rfl
          exact (hfilled _ _).trans hw.dated

theorem Setup.dated (h : Setup env m m') (hs : m.Sound) : Dated m m' := by
  cases h with
  | opening ho =>
      cases ho with
      | move hm => exact hm.dated hs
      | watched _ hw => exact hw.dated
      | noted fd => exact .note trivial
      | _ => exact .of_eq rfl rfl rfl
  | created hc => exact hc.dated

/-- **What a session knows of the time** is on its record, at every state it
passes through. -/
theorem Reached.dated {m₀ : Machine σ} (h : Reached env m₀ m) (hidle : Idle m₀) :
    m.trace.foldl tick ⟨0, 0⟩ = m.clock ∧ m.timeout = m₀.timeout := by
  have hall : m.Sound ∧ m.trace.foldl tick ⟨0, 0⟩ = m.clock ∧ m.timeout = m₀.timeout := by
    refine h.inv (I := fun t => t.Sound ∧ t.trace.foldl tick ⟨0, 0⟩ = t.clock ∧
      t.timeout = m₀.timeout) ?_ ?_ ?_
    · rintro b hb
      refine ⟨hb.sound, ?_⟩
      obtain ⟨w, now, -, rfl⟩ := hb
      refine ⟨?_, rfl⟩
      show (m₀.trace ++ _).foldl tick ⟨0, 0⟩ = _
      rw [hidle.trace]
      rfl
    · rintro s t hst ⟨hs, hclock, ht⟩
      have hd := hst.dated hs
      exact ⟨hst.sound hs, hd.reads.foldl_eq hclock, hd.timeout.trans ht⟩
    · rintro s t hst ⟨hs, hclock, ht⟩
      have hd := hst.dated hs
      exact ⟨hst.sound hs, hd.reads.foldl_eq hclock, hd.timeout.trans ht⟩
  exact hall.2

/-! ## A tick -/

/-- The time the clock shows. -/
def Machine.reading (env : Env σ) (m : Machine σ) : UInt64 := (env.monotime m.world).1

/-- The state after `event_timer` has read it. -/
def Machine.ticking (env : Env σ) (m : Machine σ) : Machine σ :=
  Machine.note { m.withWorld (env.monotime m.world).2 with tsNow := m.reading env }
    (.ticked (m.reading env))

/-- The test of `event_timer`. -/
def Machine.overdue (env : Env σ) (m : Machine σ) : Prop :=
  m.tsActivity + m.timeout < m.reading env

instance (env : Env σ) (m : Machine σ) : Decidable (m.overdue env) :=
  inferInstanceAs (Decidable (_ < _))

/-- **What a tick does**, where there is a timeout. -/
theorem checkTimeout_eq (hT : m.timeout ≠ 0) :
    checkTimeout env m = (.ret (), if m.overdue env
      then (m.ticking env).errored env .timeoutReached else m.ticking env) := by
  show (if m.timeout = 0 then pure () else _ : Run σ Unit) m = _
  rw [if_neg hT]
  show (if m.tsActivity + m.timeout < (env.monotime m.world).1 then error env .timeoutReached
    else pure () : Run σ Unit) (m.ticking env) = _
  have htest : m.overdue env ↔ m.tsActivity + m.timeout < (env.monotime m.world).1 := Iff.rfl
  by_cases h : m.overdue env
  · rw [if_pos h, if_pos (htest.mp h)]
    exact error_eq _
  · rw [if_neg h, if_neg (htest.not.mp h)]
    rfl

/-- **When the test of the engine is right**, for the timeout `T` and the time
`now`: its sum fits and `now` is not between its deadline and the true one,
or its sum does not fit and what is left of it is not passed. -/
def TellsRight (t : List Seen) (T now : ℕ) : Prop :=
  if noticed t + T < 2 ^ 64 then ¬ (noticed t + T < now ∧ now ≤ active t + T)
  else now + 2 ^ 64 ≤ noticed t + T

instance (t : List Seen) (T now : ℕ) : Decidable (TellsRight t T now) :=
  inferInstanceAs (Decidable (if noticed t + T < 2 ^ 64
    then ¬ (noticed t + T < now ∧ now ≤ active t + T) else now + 2 ^ 64 ≤ noticed t + T))

/-- **A sum that wraps** against the sum that does not. -/
theorem wrapped_lt_iff {a b T now : ℕ} (hle : a ≤ b) (ha : a < 2 ^ 64) (hT : T < 2 ^ 64)
    (hnow : now < 2 ^ 64) : (((a + T) % 2 ^ 64 < now) ↔ b + T < now) ↔
      if a + T < 2 ^ 64 then ¬ (a + T < now ∧ now ≤ b + T) else now + 2 ^ 64 ≤ a + T := by
  split
  · next h =>
      rw [Nat.mod_eq_of_lt h]
      omega
  · next h =>
      have hmod : (a + T) % 2 ^ 64 = a + T - 2 ^ 64 := by omega
      rw [hmod]
      omega

/-- **The timeout is exact where the engine's test is right.** At every tick of
every session, with a timeout set before the start: `event_timer` reports it
just where its test holds, and the test holds just where more time than the
timeout has passed since the last activity, in exact integers, if and only
if no activity the engine takes no notice of, and no sum that does not fit,
is in between. -/
theorem timeout_exact (env : Env σ) (m₀ m t : Machine σ) (hidle : Idle m₀)
    (hreached : Reached env m₀ m) (hT : m₀.timeout ≠ 0)
    (hreports : each m.inOrder (reportCounters env) m = (.ret (), t)) :
    eventTimer env none m = (.ret (), if t.overdue env
      then (t.ticking env).errored env .timeoutReached else t.ticking env) ∧
    ((t.overdue env ↔ active t.trace + m₀.timeout.toNat < (t.reading env).toNat) ↔
      TellsRight t.trace m₀.timeout.toNat (t.reading env).toNat) := by
  have ht : Reached env m₀ t := by
    obtain ⟨m₁, hset, hpath⟩ := hreached
    have hmoves := ends_ret_of (Q := fun _ u => ReflTransGen (Move env) m u)
      (Follows.each fun i _ u _ => reportCounters_follows i u) hreports
    exact ⟨m₁, hset, hpath.trans (steps_of_moves hmoves)⟩
  obtain ⟨hclock, htimeout⟩ := ht.dated hidle
  refine ⟨?_, ?_⟩
  · show andThen (each m.inOrder (reportCounters env)) (fun _ => checkTimeout env) m = _
    unfold andThen
    rw [hreports]
    exact checkTimeout_eq (htimeout ▸ hT)
  · have hnoticed : noticed t.trace = t.tsActivity.toNat := by
      rw [noticed, hclock]
      rfl
    have htest : t.overdue env ↔
        (noticed t.trace + m₀.timeout.toNat) % 2 ^ 64 < (t.reading env).toNat := by
      rw [Machine.overdue, UInt64.lt_iff_toNat_lt, UInt64.toNat_add, hnoticed, htimeout]
    rw [htest]
    exact wrapped_lt_iff (noticed_le_active _) (hnoticed ▸ UInt64.toNat_lt _)
      (UInt64.toNat_lt _) (UInt64.toNat_lt _)

/-- A world that grants everything, where the user always has a byte to send
and the clock shows one time after the other. -/
def clocked : Env (ℕ × List UInt64) :=
  { granting Prod.fst fun w => (w.1 + 1, w.2) with
    callback := fun _ s type _ _ w => match type with
      | .writeFillBuffer => (⟨.ok (1, [7]), []⟩, w)
      | _ => (⟨.ok (steadyFd type s, []), []⟩, w)
    monotime := fun w => (w.2.headD 0, (w.1, w.2.tail)) }

/-- An object that was just constructed, and the times to come. -/
def timed (stream : FtdiStreamEntry) (times : List UInt64) : Machine (ℕ × List UInt64) :=
  constructed [stream] ⟨64, 4096⟩ (4, times)

/-- The timer is due, in a session that begins with descriptor `4`. -/
def timerDue : Action := .step (.ready [⟨6, [], [], 0, none, []⟩])

/-- A read transfer completes after the tick at `8`, and is noticed. -/
theorem timeout_exact_sample :
    ∃ m t : Machine (ℕ × List UInt64), active t.trace = 8 ∧ (t.reading clocked).toNat = 16 ∧
      (t.overdue clocked ↔ active t.trace + 10 < (t.reading clocked).toNat) ∧
      eventTimer clocked none m = (.ret (), t.ticking clocked) := by
  have hidle : Idle (timed (sampleStream 64 1 0) [0, 8, 16]) :=
    constructed_idle (by decide +kernel)
  obtain ⟨m, hsession, hret, hactive, hreading, hright, hnot⟩ := exists_session (P := fun m =>
      (each m.inOrder (reportCounters clocked) m).1 = .ret () ∧
      active (each m.inOrder (reportCounters clocked) m).2.trace = 8 ∧
      ((each m.inOrder (reportCounters clocked) m).2.reading clocked).toNat = 16 ∧
      TellsRight (each m.inOrder (reportCounters clocked) m).2.trace 10 16 ∧
      ¬ (each m.inOrder (reportCounters clocked) m).2.overdue clocked)
    clocked .poll [timerDue, reports [⟨0, .completed, [1, 96, 7], 0⟩]] hidle (by decide +kernel)
  obtain ⟨htimer, hiff⟩ := timeout_exact clocked _ m _ hidle hsession.path (by decide)
    (Prod.ext hret rfl)
  rw [if_neg hnot] at htimer
  exact ⟨m, _, hactive, hreading, hiff.mpr (hreading ▸ hright), htimer⟩

/-- **Timeouts that are reported and have not passed**: eight seconds after a
write transfer completed, with a timeout of ten, and at once, with the
longest timeout there is. -/
theorem timeout_early :
    (∃ m, Session clocked (timed (sampleStream 64 0 1) [0, 8, 16]) .poll
        [timerDue, reports [⟨0, .completed, [], 1⟩]] m ∧ m.timeout = 10 ∧
      active m.trace = 8 ∧ (m.reading clocked).toNat = 16 ∧ m.errorSpsc = [] ∧
      (eventTimer clocked none m).2.errorSpsc = [.timeoutReached]) ∧
    ∃ m, Session clocked
        { timed (sampleStream 64 1 0) [5, 5] with timeout := 2 ^ 64 - 1 } .poll [] m ∧
          m.timeout.toNat = 2 ^ 64 - 1 ∧
      active m.trace = 5 ∧ (m.reading clocked).toNat = 5 ∧ m.errorSpsc = [] ∧
      (eventTimer clocked none m).2.errorSpsc = [.timeoutReached] := by
  constructor
  · exact exists_session clocked .poll _ (constructed_idle (by decide +kernel)) (by decide +kernel)
  · have hidle : Idle (timed (sampleStream 64 1 0) [5, 5]) :=
      constructed_idle (by decide +kernel)
    refine exists_session clocked .poll _ ?_ (by decide +kernel)
    exact ⟨hidle.constructed, rfl, rfl, rfl, rfl, rfl⟩

end Stream

end SgFtdi
