import SgFtdi.Stream.Pausing

/-!
# Stream — why the engine stops

`should_run` is cleared in many places, and each of them leaves something
on the record: a message, an exception, a user's request to stop, a failed
`epoll_wait` or a CANCELLED completion. An engine that is not going is
`Explained` by one of these. Only the first two tell the user why; where
the last two do not occur, the engine never stops silently.
-/

namespace SgFtdi

namespace Stream

open Prog Relation

variable {σ : Type} {env : Env σ} {m m' m₁ m₂ : Machine σ} {i : ℕ}
variable {e : FtdiStreamStaticState}

/-! ## Going, or explained -/

/-- The engine runs, and nobody has asked it to end. -/
def FtdiStreamState.Going (m : FtdiStreamState) : Prop :=
  m.shouldRun = true ∧ m.shouldCancel = false

/-- What tells the user why: a message, or an exception. -/
def Obs.loud : Obs → Bool
  | .pushed _ => true
  | .threw _ => true
  | _ => false

/-- A completion that came back CANCELLED to a running engine. -/
def Seen.cutShort (o : Seen) : Bool :=
  match o.what with
  | .completed _ _ _ .cancelled _ _ => o.running
  | _ => false

/-- A failed `epoll_wait`. -/
def Obs.interrupted : Obs → Bool
  | .waitFailed _ => true
  | _ => false

/-- **A reason to stop.** -/
def Seen.Reason (o : Seen) : Prop :=
  o.what.loud = true ∨ o.what = .stopping ∨ o.what.interrupted = true ∨ o.cutShort = true

/-- **An engine that has stopped has a reason** on the record. -/
def Explained (m : Machine σ) : Prop := m.Going ∨ ∃ o ∈ m.trace, o.Reason

theorem Calm.going (h : Calm env m m') (hg : m.Going) : m'.Going :=
  ⟨h.shouldRun.trans hg.1, h.shouldCancel.trans hg.2⟩

/-- What is added to the record explains it too. -/
theorem Explained.of_reason {o : Seen} (ho : o.Reason) (hm : o ∈ m.trace) : Explained m :=
  .inr ⟨o, hm, ho⟩

/-- **A message explains a stop**, where the queue takes it. -/
theorem errored_explained (haccepts : ∀ message w, (env.pushError message w).1 = true)
    (m : Machine σ) (message : Message) : Explained (m.errored env message) := by
  obtain ⟨errors, seen, h, -, hpushed⟩ := errored_eq env m message
  refine .of_reason (o := ⟨false, .pushed message⟩) (.inl rfl) ?_
  rw [h]
  exact List.mem_append_right _ (hpushed (haccepts _ _))

section Steps

variable (haccepts : ∀ message w, (env.pushError message w).1 = true)
include haccepts

/-- An entry written after a message was queued. -/
theorem errored_modify_explained (m : Machine σ) (message : Message)
    (f : FtdiStreamStaticState → FtdiStreamStaticState) :
    Explained ((m.errored env message).modifyEntry i f) := by
  rcases errored_explained haccepts m message with ⟨hr, -⟩ | hreason
  · simp at hr
  · exact .inr hreason

theorem ReadBack.explained {c : Completion} (h : ReadBack env i (e.back c) (m.landed e c) m')
    (hg : m.Going) : Explained m' := by
  have hland : (m.landed e c).Going := hg
  cases h with
  | off _ => exact .inl hland
  | stopped _ hs =>
      -- a running engine stops here only over a cancellation
      have hstatus : c.status = .cancelled := hs.resolve_right (by
        rw [hland.1]
        decide)
      refine .of_reason (o := ⟨m.shouldRun, .completed c.transfer e.streamId e.isReading c.status
        (e.moved c) (e.actual c)⟩) (.inr (.inr (.inr ?_))) ?_
      · rw [hstatus, hg.1]
        rfl
      · exact List.mem_append_right _ (List.mem_singleton.mpr rfl)
  | again _ _ _ hd _ => exact .inl (((Machine.touch_calm _ _).trans hd.work.calm).going hland)
  | failed _ _ _ _ => exact errored_explained haccepts _ _

omit haccepts in
theorem Confirm.going {b : Bool} (h : Confirm env i e m b m₁) (hg : m.Going) : m₁.Going := by
  have hc : (m.confirming env i e).Going := hg
  cases h with
  | none _ => exact hg
  | taken _ _ hq => exact hq.calm.going hc
  | failed _ hw => exact hw.calm.going hc

theorem WriteBack.explained {c : Completion} (he : m.entryAt c.transfer = some e)
    (h : WriteBack env c.transfer (e.back c) (m.landed e c) m') (hg : m.Going) : Explained m' := by
  have hland : (m.landed e c).Going := hg
  cases h with
  | off _ => exact .inl hland
  | stopped _ hs =>
      have hstatus : c.status = .cancelled := hs.resolve_right (by
        rw [hland.1]
        decide)
      refine .of_reason (o := ⟨m.shouldRun, .completed c.transfer e.streamId e.isReading c.status
        (e.moved c) (e.actual c)⟩) (.inr (.inr (.inr ?_))) ?_
      · rw [hstatus, hg.1]
        rfl
      · exact List.mem_append_right _ (List.mem_singleton.mpr rfl)
  | idle _ _ _ hc hf =>
      obtain ⟨e₁, he₁, ha⟩ := hc.entry (landed_entryAt he)
      exact .inl ((hf.work he₁ ha.inFlight.symm).calm.going (hc.going hland))
  | again _ _ _ hc hf _ _ =>
      obtain ⟨e₁, he₁, ha⟩ := hc.entry (landed_entryAt he)
      exact .inl ((hf.work he₁ ha.inFlight.symm).calm.going (hc.going hland))
  | failed _ _ _ _ _ => exact errored_modify_explained haccepts _ _ _

omit haccepts in
theorem Submitted.going (h : Submitted env i m m') (hg : m.Going) : m'.Going := by
  cases h with
  | kept _ => exact hg
  | idle he _ _ hp => exact (hp.sized he).calm.going hg
  | launched he _ _ hp _ _ => exact (hp.sized he).calm.going hg

/-- **A move** of a going engine leaves it going, or explained. -/
theorem Move.explained (h : Move env m m') (hg : m.Going) : Explained m' := by
  cases h with
  | chore hc => exact .inl (hc.calm.going hg)
  | errored message => exact errored_explained haccepts m message
  | pollfds fds => exact .inl hg
  | @completed c m₁ hc =>
      have hback : Explained m₁ := by
        cases hc with
        | read _ _ _ hb => exact hb.explained haccepts hg
        | write he _ _ hb => exact hb.explained haccepts he hg
      rcases hback with hgoing | ⟨o, ho, hreason⟩
      · exact .inl hgoing
      · exact .of_reason hreason (List.mem_append_left _ ho)
  | armed _ _ _ hsub => exact .inl (hsub.going hg)
  | cancelled _ _ _ => exact .inl hg

/-- **A step** leaves an explained engine explained. -/
theorem Step.explained (h : Step env m m') (hm : Explained m) : Explained m' := by
  rcases hm with hg | ⟨o, ho, hreason⟩
  · cases h with
    | handling hh =>
        cases hh with
        | draining hd =>
            cases hd with
            | move hm => exact hm.explained haccepts hg
            | cleared _ hc => cases hc <;> exact .inl hg
        | @accepted s q _ _ _ => exact accepted_eq m s q ▸ .inl hg
        | stopping =>
            exact .of_reason (o := ⟨m.shouldRun, .stopping⟩) (.inr (.inl rfl))
              (List.mem_append_right _ (List.mem_singleton.mpr rfl))
        | obeyed hc =>
            rw [hg.2] at hc
            cases hc
        | _ => exact .inl hg
    | waitFailed errno =>
        exact .of_reason (o := ⟨m.shouldRun, .waitFailed errno⟩) (.inr (.inr (.inl rfl)))
          (List.mem_append_right _ (List.mem_singleton.mpr rfl))
    | crashed cause hb =>
        exact .of_reason (o := ⟨false, .threw cause⟩) (.inl rfl)
          (List.mem_append_right _ (List.mem_singleton.mpr rfl))
    | _ => exact .inl hg
  · exact .of_reason hreason (h.tracks.grows.mem ho)

theorem Watched.explained {sock : ℤ} (h : Watched env sock m m') (hg : m.Going) :
    Explained m' := by
  cases h with
  | added w _ => exact .inl hg
  | failed w cause _ => exact errored_explained haccepts (m.withWorld w) _

theorem Created.explained {s t : ℕ} {stream : FtdiStreamEntry} {isReading : Bool}
    (h : Created env s t stream isReading m m') (hg : m.Going) : Explained m' := by
  cases h with
  | @mk fd m₁ _ _ hmade _ hready hsub =>
      obtain ⟨e₀, -, he₀, -⟩ := hready.fresh hmade
      have hbefore : Explained m₁ := by
        cases hready with
        | reading _ _ _ => exact .inl hg
        | writing _ _ _ hw => exact hw.explained haccepts hg
      rcases hbefore with hgoing | ⟨o, ho, hreason⟩
      · exact .inl (hsub.going hgoing)
      · exact .of_reason hreason ((hsub.routine he₀).mem ho)

theorem Setup.explained (h : Setup env m m') (hm : Explained m) : Explained m' := by
  rcases hm with hg | ⟨o, ho, hreason⟩
  · cases h with
    | opening ho =>
        cases ho with
        | move hm => exact hm.explained haccepts hg
        | watched _ hw => exact hw.explained haccepts hg
        | _ => exact .inl hg
    | created hc => exact hc.explained haccepts hg
  · exact .of_reason hreason (h.tracks.grows.mem ho)

end Steps

/-- **Wherever the engine is**, it goes on or is explained. -/
theorem Reached.explained {m₀ : Machine σ} (h : Reached env m₀ m)
    (haccepts : ∀ message w, (env.pushError message w).1 = true) : Explained m := by
  obtain ⟨m₁, ⟨⟨b, ⟨w, now, -, hb⟩, hp⟩, -, -⟩, hp'⟩ := h
  have hbegun : Explained b := by
    rw [hb]
    exact .inl ⟨rfl, rfl⟩
  have hset : Explained m₁ :=
    inv_of_path (I := Explained) (fun _ _ hst ht => hst.explained haccepts ht) hp hbegun
  exact inv_of_path (I := Explained) (fun _ _ hst ht => hst.explained haccepts ht) hp' hset

/-! ## Stopping -/

/-- **The engine says why it stops**, in every run in which the user does
not ask it to, no `epoll_wait` fails and no completion comes back CANCELLED
while it runs: where `should_run` is false, a message was queued or an
exception has left `process_step`. -/
theorem stops_aloud (env : Env σ) (m₀ m : Machine σ) (mode : Mode) (actions : List Action)
    (h : Session env m₀ mode actions m)
    (haccepts : ∀ message w, (env.pushError message w).1 = true)
    (hnostop : ∀ o ∈ m.trace, o.what ≠ .stopping)
    (hwaits : ∀ o ∈ m.trace, o.what.interrupted = false)
    (hcancelled : ∀ o ∈ m.trace, o.cutShort = false) (hstop : m.shouldRun = false) :
    ∃ o ∈ m.trace, o.what.loud = true := by
  rcases h.path.explained haccepts with ⟨hr, -⟩ | ⟨o, ho, hreason⟩
  · rw [hstop] at hr
    cases hr
  · refine ⟨o, ho, ?_⟩
    rcases hreason with hloud | hasked | hwait | hback
    · exact hloud
    · exact absurd hasked (hnostop o ho)
    · rw [hwaits o ho] at hwait
      cases hwait
    · rw [hcancelled o ho] at hback
      cases hback

/-- A step of `epoll_wait` that fails. -/
def waitFails (errno : Errno) : Action := .step (.failed errno)

/-- A stop over a completion that failed: a device that is gone. -/
theorem stops_aloud_sample :
    ∃ m, Session steady (constructed [sampleStream 64 1 0] ⟨64, 4096⟩ 4) .poll
      [reports [⟨0, .noDevice, [], 0⟩]] m ∧ m.shouldRun = false ∧
      ∃ o ∈ m.trace, o.what.loud = true := by
  have hidle : Idle (constructed [sampleStream 64 1 0] ⟨64, 4096⟩ 4) :=
    constructed_idle (by decide +kernel)
  obtain ⟨m, hm, hstop, hnostop, hwaits, hcancelled⟩ := exists_session (P := fun m =>
    m.shouldRun = false ∧ (∀ o ∈ m.trace, o.what ≠ .stopping) ∧
      (∀ o ∈ m.trace, o.what.interrupted = false) ∧ ∀ o ∈ m.trace, o.cutShort = false) steady .poll
    [reports [⟨0, .noDevice, [], 0⟩]] hidle (by decide +kernel)
  exact ⟨m, hm, hstop, stops_aloud steady _ m .poll _ hm (fun _ _ => rfl) hnostop hwaits
    hcancelled hstop⟩

/-- **Two silent stops**: a signal interrupts `epoll_wait`, and the user
disables reading from a stream. -/
theorem stops_silently :
    (∃ m, Session steady (constructed [sampleStream 64 1 0] ⟨64, 4096⟩ 4) .poll
      [waitFails .EINTR] m ∧ m.shouldRun = false ∧ (∀ o ∈ m.trace, o.what ≠ .stopping) ∧
      ∀ o ∈ m.trace, o.what.loud = false) ∧
    ∃ m, Session steady (constructed [sampleStream 64 1 0] ⟨64, 4096⟩ 4) .poll
      (pause 0 [0]) m ∧ m.shouldRun = false ∧ (∀ o ∈ m.trace, o.what ≠ .stopping) ∧
        ∀ o ∈ m.trace, o.what.loud = false := by
  have hidle : Idle (constructed [sampleStream 64 1 0] ⟨64, 4096⟩ 4) :=
    constructed_idle (by decide +kernel)
  exact ⟨exists_session (P := fun m => m.shouldRun = false ∧
      (∀ o ∈ m.trace, o.what ≠ .stopping) ∧ ∀ o ∈ m.trace, o.what.loud = false) steady .poll _
      hidle (by decide +kernel),
    exists_session (P := fun m => m.shouldRun = false ∧
      (∀ o ∈ m.trace, o.what ≠ .stopping) ∧ ∀ o ∈ m.trace, o.what.loud = false) steady .poll _
      hidle (by decide +kernel)⟩

end Stream

end SgFtdi
