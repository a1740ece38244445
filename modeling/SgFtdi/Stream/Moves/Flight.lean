import SgFtdi.Stream.Moves.Setup
import Mathlib.Logic.Function.Basic

/-!
# Stream — the record accounts for the transfers in flight

What libusb owns can be read off its dealings with the engine: a transfer
it has taken is its own until it reports a completion. `Tracks` says that
a stretch of a run records exactly the flights it begins and ends, and
every step of a set-up and of the engine tracks.
-/

namespace SgFtdi

namespace Stream

open Prog Relation

variable {σ : Type} {env : Env σ} {m m' m₁ m₂ : Machine σ} {i : ℕ}

/-! ## What libusb owns -/

/-- The transfers libusb has taken and not completed, after one more
observation. -/
def flight (out : ℕ → Bool) (o : Seen) : ℕ → Bool :=
  match o.what with
  | .submitted i _ _ taken => if taken then Function.update out i true else out
  | .completed i _ _ _ _ _ => Function.update out i false
  | .destroyed _ _ => fun _ => false
  | _ => out

/-- **The transfers libusb owns**, by the record of its dealings with the
engine. -/
def outstanding (t : List Seen) : ℕ → Bool := t.foldl flight fun _ => false

/-- The transfers in flight. -/
def FtdiStreamState.flying (m : FtdiStreamState) (i : ℕ) : Bool :=
  (m.entryAt i).any (·.transfer.inFlight)

/-- An observation of the engine at work frees nothing. -/
def Obs.spares : Obs → Prop
  | .destroyed _ _ => False
  | _ => True

/-- An observation after which the same transfers are in flight. -/
def Obs.still : Obs → Prop
  | .submitted _ _ _ taken => taken = false
  | .completed _ _ _ _ _ _ => False
  | .destroyed _ _ => False
  | _ => True

/-- **The record tracks the flights**: it has grown by what leads from the
transfers in flight before to those in flight now. -/
def Tracks (m m' : Machine σ) : Prop :=
  Reads flight (·.what.spares) m.trace m'.trace m.flying m'.flying

theorem Obs.still.spares {o : Obs} (h : o.still) : o.spares := by
  cases o <;> first | exact h.elim | trivial

theorem Obs.still.flight {o : Seen} (h : o.what.still) (out : ℕ → Bool) :
    Stream.flight out o = out := by
  obtain ⟨run, o⟩ := o
  cases o with
  | submitted _ _ _ taken =>
      replace h : taken = false := h
      simp [Stream.flight, h]
  | completed _ _ _ _ _ => exact h.elim
  | destroyed _ _ => exact h.elim
  | _ => rfl

namespace Tracks

theorem trans (h : Tracks m m₁) (h' : Tracks m₁ m₂) : Tracks m m₂ := Reads.trans h h'

/-- The same transfers are in flight, and nothing says otherwise. -/
theorem of_still (hf : m'.flying = m.flying) (h : Grows (·.what.still) m.trace m'.trace) :
    Tracks m m' := by
  unfold Tracks
  rw [hf]
  exact Reads.of_grows h (fun _ ho => ho.spares) fun _ ho => ho.flight

theorem of_eq (hs : m'.streamstates = m.streamstates) (ht : m'.trace = m.trace) :
    Tracks m m' := by
  refine of_still (funext fun i => ?_) (.of_eq ht)
  unfold FtdiStreamState.flying FtdiStreamState.entryAt FtdiStreamState.entries
  rw [hs]

theorem refl : Tracks m m := of_eq rfl rfl

theorem note {o : Obs} (h : o.still) : Tracks m (m.note o) := of_still rfl (.one h)

/-- A write to an entry that leaves its flight alone. -/
theorem modify {f : FtdiStreamStaticState → FtdiStreamStaticState}
    (hf : ∀ e, (f e).transfer.inFlight = e.transfer.inFlight) :
    Tracks m (m.modifyEntry i f) := by
  refine of_still (funext fun j => ?_) .refl
  unfold FtdiStreamState.flying
  rw [entryAt_modifyEntry]
  split
  · cases m.entryAt j <;> simp [hf]
  · rfl

theorem setEnabled (i : ℕ) (b : Bool) : Tracks m (m.modifyEntry i (.setEnabled b)) :=
  modify fun _ => rfl

theorem setLength (i : ℕ) (n : ℤ) : Tracks m (m.modifyEntry i (.setLength n)) :=
  modify fun _ => rfl

theorem of_calm (h : Calm env m m') (ht : Grows (·.what.still) m.trace m'.trace) :
    Tracks m m' := by
  refine of_still (funext fun j => ?_) ht
  unfold FtdiStreamState.flying
  have hj := h.entries j
  generalize m.entryAt j = x at hj ⊢
  generalize m'.entryAt j = y at hj ⊢
  cases hj with
  | none => rfl
  | some ha => simp [ha.inFlight]

end Tracks

/-! ## Every step tracks -/

theorem Obs.minor.still {o : Obs} {b : Bool} (h : o.minor i b) : o.still := by
  cases o <;> first | exact h.elim | exact h.2.2 | trivial

theorem Chore.tracks (h : Chore env m m') : Tracks m m' :=
  .of_calm h.calm ((h.trace 0 false).mono fun _ ho => ho.still)

theorem WorkStep.tracks (h : WorkStep env i m m') : Tracks m m' := by
  cases h with
  | chore hc => exact hc.tracks
  | wrote hf => exact .modify fun e => (hf e).inFlight
  | handed s bytes => exact .note trivial
  | filled _ => exact .note trivial
  | refused _ => exact .of_still rfl (.one rfl)

theorem Work.tracks (h : Work env i m m') : Tracks m m' := by
  induction h with
  | refl => exact .refl
  | tail _ hs ih => exact ih.trans hs.tracks

theorem Quiet.tracks (h : Quiet env m m') : Tracks m m' := (Work.quiet (i := 0) h).tracks

theorem errored_tracks (m : Machine σ) (message : Message) :
    Tracks m (m.errored env message) := by
  refine .of_still (funext fun j => ?_) ((errored_trace env m message).mono fun o ho => ?_)
  · unfold FtdiStreamState.flying
    rw [errored_entryAt]
  · rw [ho]
    trivial

theorem stopped_tracks (m : Machine σ) : Tracks m m.stopped := .of_eq rfl rfl

/-- **A transfer that is taken** is in flight. -/
theorem launched_tracks {e e₁ : FtdiStreamStaticState} (he : m.entryAt i = some e) :
    Tracks m (m.launched env i e₁) := by
  refine ⟨[_], rfl, by simp [Obs.spares], funext fun j => ?_⟩
  simp only [List.foldl_cons, List.foldl_nil, flight, if_true]
  have hm : (m.offered env i e₁ true).entryAt j = m.entryAt j := rfl
  unfold FtdiStreamState.flying Machine.launched
  rw [entryAt_modifyEntry, hm]
  by_cases hij : i = j
  · subst hij
    simp [he, FtdiStreamStaticState.takeOff]
  · simp [hij, Ne.symm hij]

/-- **A transfer that has landed** is not. -/
theorem landed_tracks {e : FtdiStreamStaticState} {c : Completion} :
    Tracks m (m.landed e c) := by
  have hcount : Tracks ((m.modifyEntry c.transfer (.land c)).note (.completed c.transfer e.streamId
      e.isReading c.status (e.moved c) (e.actual c))) (m.landed e c) := .modify fun _ => rfl
  refine Tracks.trans ?_ hcount
  refine ⟨[_], rfl, by simp [Obs.spares], funext fun j => ?_⟩
  simp only [List.foldl_cons, List.foldl_nil, flight]
  unfold FtdiStreamState.flying
  rw [note_entryAt, entryAt_modifyEntry]
  by_cases hij : c.transfer = j
  · subst hij
    cases m.entryAt c.transfer <;> simp [FtdiStreamStaticState.land]
  · simp [hij, Ne.symm hij]

theorem Submitted.tracks (h : Submitted env i m m') : Tracks m m' := by
  cases h with
  | kept _ => exact .refl
  | idle he _ _ hp => exact (hp.sized he).tracks.trans (.setEnabled i false)
  | launched he _ _ hp _ he₂ => exact (hp.sized he).tracks.trans (launched_tracks he₂)

variable {e : FtdiStreamStaticState}

theorem ReadBack.tracks (h : ReadBack env i e m m') : Tracks m m' := by
  cases h with
  | off _ => exact .refl
  | stopped _ _ => exact (Tracks.setEnabled i false).trans (stopped_tracks _)
  | again _ _ _ hd he₁ =>
      have ht : Tracks m (m.touch e) := .of_eq (m.touch_streamstates e) (m.touch_trace e)
      exact (ht.trans hd.work.tracks).trans (launched_tracks he₁)
  | failed _ _ _ hw =>
      have ht : Tracks m (m.heard e) := .of_eq (m.heard_streamstates e) (m.heard_trace e)
      exact (ht.trans hw.tracks).trans ((Tracks.setEnabled i false).trans (errored_tracks _ _))

theorem Confirm.tracks {b : Bool} (h : Confirm env i e m b m₁) : Tracks m m₁ := by
  have hc : Tracks m (m.confirming env i e) :=
    (Tracks.modify (i := i) (f := .countBytes e.transfer.actualLength) fun _ => rfl).trans
      ((Tracks.note (o := .confirmed e.streamId e.transfer.actualLength) trivial).trans
        (.of_eq rfl rfl))
  cases h with
  | none _ => exact .refl
  | taken _ _ hq => exact hc.trans (hq.tracks.trans (.setLength i 0))
  | failed _ hw => exact hc.trans hw.tracks

theorem WriteBack.tracks (h : WriteBack env i e m m') (he : m.entryAt i = some e) :
    Tracks m m' := by
  cases h with
  | off _ => exact .refl
  | stopped _ _ =>
      exact (Tracks.setEnabled i false).trans ((Tracks.setLength i 0).trans (stopped_tracks _))
  | idle _ _ _ hcf hf =>
      obtain ⟨e₁, he₁, ha⟩ := hcf.entry he
      exact hcf.tracks.trans ((hf.work he₁ ha.inFlight.symm).tracks.trans
        ((Tracks.setLength i 0).trans (.setEnabled i false)))
  | again _ _ _ hcf hf _ he₂ =>
      obtain ⟨e₁, he₁, ha⟩ := hcf.entry he
      exact hcf.tracks.trans ((hf.work he₁ ha.inFlight.symm).tracks.trans
        ((Tracks.setLength i _).trans (launched_tracks he₂)))
  | failed _ _ _ hcf hw =>
      exact hcf.tracks.trans (hw.tracks.trans ((errored_tracks _ _).trans (.setEnabled i false)))

theorem Completed.tracks {c : Completion} (h : Completed env c m m₁) : Tracks m m₁ := by
  cases h with
  | read _ _ _ hb => exact landed_tracks.trans hb.tracks
  | write he _ _ hb => exact landed_tracks.trans (hb.tracks (landed_entryAt he))

theorem Move.tracks (h : Move env m m') : Tracks m m' := by
  cases h with
  | chore hc => exact hc.tracks
  | errored message => exact errored_tracks m message
  | pollfds fds => exact .of_eq rfl rfl
  | completed hc => exact hc.tracks.trans (.note trivial)
  | armed _ _ _ hs => exact (Tracks.setEnabled _ true).trans hs.tracks
  | @cancelled i e _ _ _ =>
      exact (Tracks.note (o := .cancelled i) trivial).trans (.modify fun _ => rfl)

theorem Broken.tracks (h : Broken env m m₁) : Tracks m m₁ := by
  induction h with
  | here => exact .refl
  | armed _ _ _ hw => exact (Tracks.setEnabled _ true).trans hw.tracks
  | unlocked _ ih => exact ih.trans (.of_eq rfl rfl)

theorem Handling.tracks (h : Handling env m m') : Tracks m m' := by
  cases h with
  | draining hd =>
      cases hd with
      | move hm => exact hm.tracks
      | cleared _ hc => cases hc <;> exact .of_eq rfl rfl
  | @accepted s q _ _ _ =>
      refine .of_still (funext fun i => ?_) (accepted_trace m s q ▸ .one trivial)
      unfold FtdiStreamState.flying FtdiStreamState.entryAt FtdiStreamState.entries
      rw [accepted_streamstates]
  | stopping => exact .of_still rfl (.one trivial)
  | locked _ _ => exact .of_still rfl (.one trivial)
  | _ => exact .of_eq rfl rfl

theorem Step.tracks (h : Step env m m') : Tracks m m' := by
  cases h with
  | handling hh => exact hh.tracks
  | waitFailed errno => exact .of_still rfl (.one trivial)
  | crashed cause hb => exact hb.tracks.trans (.of_still rfl (.one trivial))
  | _ => exact .of_eq rfl rfl

/-! ## So does every step of a set-up -/

/-- A new entry is not in flight. -/
theorem emplaced_tracks {e : FtdiStreamStaticState} (hfl : e.transfer.inFlight = false) :
    Tracks m (m.emplaced e) := by
  refine .of_still (funext fun j => ?_) .refl
  unfold FtdiStreamState.flying
  by_cases hj : j = m.entries.length
  · have hold : m.entryAt j = none := by
      unfold FtdiStreamState.entryAt
      exact List.getElem?_eq_none (by omega)
    rw [hold, hj]
    cases hs : m.streamstates with
    | none => simp [Machine.emplaced, FtdiStreamState.entryAt, FtdiStreamState.entries, hs]
    | some es => rw [emplaced_entryAt (by simp [hs])]; simp [hfl]
  · rw [emplaced_entryAt_lt e hj]

theorem Watched.tracks {sock : ℤ} (h : Watched env sock m m') : Tracks m m' := by
  cases h with
  | added w _ => exact .of_eq rfl rfl
  | failed w cause _ => exact (Tracks.of_eq rfl rfl).trans (errored_tracks (m.withWorld w) _)

theorem Ready.tracks {stream : FtdiStreamEntry} (h : Ready env i stream m m₁) : Tracks m m₁ := by
  have hf : ∀ w, Tracks m (m.filled i stream w) := fun w =>
    (Tracks.modify fun e => by unfold FtdiStreamStaticState.fill; split <;> rfl).trans
      ((Tracks.of_eq (m := m.modifyEntry i (.fill m.toFtdiStreamState stream)) rfl rfl).trans
        (.modify fun _ => rfl))
  cases h with
  | reading _ _ _ => exact hf _
  | writing _ _ _ hw => exact (hf _).trans hw.tracks

theorem Opening.tracks (h : Opening env m m') : Tracks m m' := by
  cases h with
  | move hm => exact hm.tracks
  | watched _ hw => exact hw.tracks
  | noted fd => exact .note trivial
  | _ => exact .of_eq rfl rfl

theorem Created.tracks {s t : ℕ} {stream : FtdiStreamEntry} {isReading : Bool}
    (h : Created env s t stream isReading m m') : Tracks m m' := by
  cases h with
  | mk _ _ _ hr hsub => exact (emplaced_tracks rfl).trans (hr.tracks.trans hsub.tracks)

theorem Setup.tracks (h : Setup env m m') : Tracks m m' := by
  cases h with
  | opening ho => exact ho.tracks
  | created hc => exact hc.tracks

theorem SetupBroken.tracks (h : SetupBroken env m m') : Tracks m m' := by
  cases h with
  | here => exact .refl
  | unallocated _ _ =>
      refine (emplaced_tracks rfl).trans ((Tracks.modify fun e => ?_).trans
        ((Tracks.of_eq rfl rfl).trans (.modify fun _ => rfl)))
      unfold FtdiStreamStaticState.fill
      split <;> rfl
  | created _ hr hw => exact (emplaced_tracks rfl).trans (hr.tracks.trans hw.tracks)

end Stream

end SgFtdi
