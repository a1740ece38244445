import SgFtdi.Stream.Moves.Reasons
import SgFtdi.Stream.Moves.Held
import SgFtdi.Stream.Model.Steady

/-!
# Stream — what pausing a stream does

`disable_reading` becomes a cancellation, and the cancellation comes back
to `read_callback` as it would from a shutdown: the callback cannot tell
them apart, and stops the engine. So a running engine's record is one of
things the engine survives, and a CANCELLED completion is none of them.
-/

namespace SgFtdi

namespace Stream

open Prog Relation

variable {σ : Type} {env : Env σ} {m m' m₁ m₂ : Machine σ} {i s : ℕ}
variable {e : FtdiStreamStaticState}

/-! ## What a running engine has survived -/

/-- An observation the engine survives. -/
def Obs.survivable : Obs → Prop
  | .completed _ _ _ status _ _ => status ≠ .cancelled
  | .waitFailed _ => False
  | .threw _ => False
  | _ => True

theorem Obs.routine.survivable {o : Obs} {b : Bool} (h : o.routine b) : o.survivable := by
  cases o <;> first | exact h.elim | trivial

theorem survivable_of_routine {b : Bool} (h : Grows (·.what.routine b) m.trace m'.trace) :
    Grows (·.what.survivable) m.trace m'.trace := h.mono fun _ ho => ho.survivable

/-- **A completion after which the engine runs** was not CANCELLED. -/
theorem Completed.status {c : Completion} (h : Completed env c m m') (hheld : m.Held)
    (hr : m'.shouldRun = true) : c.status ≠ .cancelled := by
  cases h with
  | @read e _ he hfl _ hb =>
      have hen : e.enabled = true := hheld _ e he hfl
      cases hb with
      | off hoff => exact absurd hen (Bool.eq_false_iff.mp hoff)
      | stopped _ _ => simp at hr
      | failed _ _ _ _ => simp at hr
      | again _ _ hstatus _ _ =>
          have hstatus : c.status = .completed := hstatus
          rw [hstatus]
          decide
  | @write e _ he hfl _ hb =>
      have hen : e.enabled = true := hheld _ e he hfl
      cases hb with
      | off hoff => exact absurd hen (Bool.eq_false_iff.mp hoff)
      | stopped _ _ => simp at hr
      | failed _ _ _ _ _ => simp at hr
      | idle _ _ hstatus _ _ => exact hstatus
      | again _ _ hstatus _ _ _ _ => exact hstatus

theorem Completed.survivable {c : Completion} (h : Completed env c m m') (hheld : m.Held)
    (hr : m'.shouldRun = true) : Grows (·.what.survivable) m.trace m'.trace := by
  have hland : ∀ e, Grows (·.what.survivable) m.trace (m.landed e c).trace := fun e =>
    .one (h.status hheld hr)
  cases h with
  | @read e _ he _ _ hb =>
      exact (hland e).trans (survivable_of_routine (hb.routine (landed_entryAt he)))
  | @write e _ he _ _ hb =>
      have hwrite := (hb.routine (landed_entryAt he)).mono fun _ ho => Obs.routine.survivable ho
      refine (hland e).trans (Grows.trans ?_ hwrite)
      split
      · exact .one trivial
      · exact .of_eq (List.append_nil _)

theorem Move.survivable (h : Move env m m') (hheld : m.Held) (hr : m'.shouldRun = true) :
    Grows (·.what.survivable) m.trace m'.trace := by
  cases h with
  | chore hc => exact survivable_of_routine (hc.routine false)
  | errored message => simp at hr
  | pollfds fds => exact .refl
  | @completed c m₁ hc =>
      have hbound : Grows (·.what.survivable) m₁.trace m₁.boundary.trace := .one trivial
      exact (hc.survivable hheld hr).trans hbound
  | @armed i e m' he _ _ hsub =>
      have he₁ : (m.modifyEntry i (.setEnabled true)).entryAt i = some (e.setEnabled true) := by
        rw [entryAt_modifyEntry_self, he]
        rfl
      exact survivable_of_routine (m := m.modifyEntry i _) (hsub.routine he₁)
  | cancelled _ _ _ => exact .one trivial

/-- **While the engine runs**, a step records what it survives. -/
theorem Step.survivable (h : Step env m m') (hheld : m.Held) (hr : m'.shouldRun = true) :
    Grows (·.what.survivable) m.trace m'.trace := by
  cases h with
  | handling hh =>
      cases hh with
      | draining hd =>
          cases hd with
          | move hm => exact hm.survivable hheld hr
          | cleared _ hc => cases hc <;> exact .refl
      | accepted _ _ _ => exact accepted_trace m _ _ ▸ .one trivial
      | stopping => exact .one trivial
      | locked _ _ => exact .one trivial
      | _ => exact .refl
  | waitFailed errno => simp at hr
  | crashed cause hb => cases hr
  | _ => exact .refl

theorem Setup.survivable (h : Setup env m m') (hheld : m.Held) (hr : m'.shouldRun = true) :
    Grows (·.what.survivable) m.trace m'.trace := by
  cases h with
  | opening ho =>
      cases ho with
      | move hm => exact hm.survivable hheld hr
      | watched _ hw => exact survivable_of_routine (hw.routine false)
      | noted fd => exact .one trivial
      | _ => exact .refl
  | created hc => exact survivable_of_routine hc.routine

/-- The whole record of a running engine is of what it survives. -/
structure Surviving (m : Machine σ) : Prop where
  held : m.Held
  survived : m.shouldRun = true → ∀ o ∈ m.trace, o.what.survivable

/-- **Wherever the engine runs**, it has survived what is on the record. -/
theorem Reached.surviving {m₀ : Machine σ} (h : Reached env m₀ m) (hidle : Idle m₀) :
    Surviving m := by
  obtain ⟨m₁, ⟨⟨b, hb, hp⟩, -, -⟩, hp'⟩ := h
  have hbegun : Surviving b := by
    refine ⟨hb.held, fun _ o ho => ?_⟩
    obtain ⟨now, htrace⟩ := hb.trace
    rw [htrace, hidle.trace, List.nil_append, List.mem_singleton] at ho
    exact ho ▸ trivial
  have hset : Surviving m₁ := inv_of_path (I := Surviving)
    (fun t u hst ht => ⟨hst.held ht.held, fun hr =>
      (hst.survivable ht.held hr).forall_mem (ht.survived (hst.stays hr)) fun _ ho => ho⟩)
    hp hbegun
  exact inv_of_path (I := Surviving)
    (fun t u hst ht => ⟨hst.lives.held ht.held, fun hr =>
      (hst.survivable ht.held hr).forall_mem (ht.survived (hst.stays hr)) fun _ ho => ho⟩)
    hp' hset

/-- An engine that is reached can be run on. -/
theorem Reached.andRun {m₀ : Machine σ} {rest : List Action} (h : Reached env m₀ m)
    (hrest : engineRun env rest m = (.ret (), m')) : Reached env m₀ m' := by
  obtain ⟨m₁, hset, hp⟩ := h
  exact ⟨m₁, hset, hp.trans (engineRun_steps hrest)⟩

/-! ## A stream is paused -/

/-- The places of the read transfers of a stream. -/
def FtdiStreamState.readsOf (m : FtdiStreamState) (s : ℕ) : List ℕ :=
  (List.range m.entries.length).filter fun i => m.layout[i]? = some (s, true)

/-- A request to disable reading from a stream was accepted. -/
def Obs.disables (s : ℕ) : Obs → Bool
  | .asked t (.disable _) => t = s
  | _ => false

/-- A transfer has come back CANCELLED. -/
def Obs.returnsCancelled (i : ℕ) : Obs → Bool
  | .completed j _ _ .cancelled _ _ => j = i
  | _ => false

/-- **A stream was paused**, from one state to another: a request for it
was accepted, libusb was asked to cancel its read transfers, and they have
come back CANCELLED. -/
def Paused (s : ℕ) (m m' : Machine σ) : Prop :=
  (∃ o ∈ since m m', o.what.disables s = true) ∧
    ∀ i ∈ m.readsOf s, (∃ o ∈ since m m', o.what = .cancelled i) ∧
      ∃ o ∈ since m m', o.what.returnsCancelled i = true

instance (s : ℕ) (m m' : Machine σ) : Decidable (Paused s m m') :=
  inferInstanceAs (Decidable (_ ∧ _))

/-- **Pausing a stream stops the engine**, in every run: whatever else
happens, by the time the read transfers of the stream have come back
CANCELLED `should_run` is false. -/
theorem pausing_stops (env : Env σ) (m₀ m m' : Machine σ) (mode : Mode)
    (actions rest : List Action) (h : Session env m₀ mode actions m)
    (hrest : engineRun env rest m = (.ret (), m')) (s : ℕ) (hreads : m.readsOf s ≠ [])
    (hpaused : Paused s m m') : m'.shouldRun = false := by
  obtain ⟨i, is, hi⟩ := List.exists_cons_of_ne_nil hreads
  obtain ⟨-, hback⟩ := hpaused
  obtain ⟨-, o, ho, hreturn⟩ := hback i (hi ▸ List.mem_cons_self)
  have hsurviving : Surviving m' := (h.path.andRun hrest).surviving h.1
  rw [Bool.eq_false_iff]
  intro hr
  have hsurvived := hsurviving.survived hr o (List.mem_of_mem_drop ho)
  -- what came back CANCELLED was not survived
  obtain ⟨run, o⟩ := o
  cases o with
  | completed j t isReading status bytes n =>
      cases status <;> first | exact hsurvived rfl | cases hreturn
  | _ => cases hreturn

/-- Another thread disables reading from a stream, the engine reads the
notice, and transfers come back CANCELLED. -/
def pause (s : ℕ) (is : List ℕ) : List Action :=
  [.thread (.accept (.disable s)), .thread .notify, readies 3,
    reports (is.map fun i => ⟨i, .cancelled, [], 0⟩)]

/-- A stream with two read transfers, in thread mode. -/
theorem pausing_stops_sample :
    ∃ m m', Session steady (constructed [sampleStream 64 2 1] ⟨64, 4096⟩ 4) .thread [] m ∧
      engineRun steady (pause 0 [1, 0]) m = (.ret (), m') ∧ m'.shouldRun = false := by
  have hidle : Idle (constructed [sampleStream 64 2 1] ⟨64, 4096⟩ 4) :=
    constructed_idle (by decide +kernel)
  obtain ⟨m, hm, hreads, hret, hpaused⟩ := exists_session (P := fun m => m.readsOf 0 ≠ [] ∧
      (engineRun steady (pause 0 [1, 0]) m).1 = .ret () ∧
      Paused 0 m (engineRun steady (pause 0 [1, 0]) m).2) steady .thread [] hidle
    (by decide +kernel)
  have hrest : engineRun steady (pause 0 [1, 0]) m = (.ret (), _) := Prod.ext hret rfl
  exact ⟨m, _, hm, hrest, pausing_stops steady _ m _ .thread [] _ hm hrest 0 hreads hpaused⟩

/-- **The other streams are stopped too**: two streams with a read transfer
each are running, the first is paused, and libusb is asked to cancel the
transfer of the second. -/
theorem pausing_stops_others :
    ∃ m m', Session steady (constructed [sampleStream 64 1 0, sampleStream 64 1 0] ⟨64, 4096⟩ 4)
      .poll [] m ∧ m.shouldRun = true ∧ m.shouldCancel = false ∧
      m.equalRange 100 = m.readsOf 0 ∧ (∀ i ∈ m.readsOf 0, m.flying i = true) ∧
      engineRun steady (pause 0 [0]) m = (.ret (), m') ∧ Paused 0 m m' ∧
      m'.shouldRun = false ∧ ⟨false, .cancelled 1⟩ ∈ m'.trace := by
  have hidle : Idle (constructed [sampleStream 64 1 0, sampleStream 64 1 0] ⟨64, 4096⟩ 4) :=
    constructed_idle (by decide +kernel)
  obtain ⟨m, hm, hrun, hcancel, hown, hfly, hret, hrest⟩ := exists_session (P := fun m =>
    m.shouldRun = true ∧ m.shouldCancel = false ∧ m.equalRange 100 = m.readsOf 0 ∧
      (∀ i ∈ m.readsOf 0, m.flying i = true) ∧
      (engineRun steady (pause 0 [0]) m).1 = .ret () ∧
      Paused 0 m (engineRun steady (pause 0 [0]) m).2 ∧
      (engineRun steady (pause 0 [0]) m).2.shouldRun = false ∧
      ⟨false, .cancelled 1⟩ ∈ (engineRun steady (pause 0 [0]) m).2.trace) steady .poll [] hidle
    (by decide +kernel)
  exact ⟨m, _, hm, hrun, hcancel, hown, hfly, Prod.ext hret rfl, hrest⟩

end Stream

end SgFtdi
