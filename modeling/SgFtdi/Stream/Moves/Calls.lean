import SgFtdi.Stream.Moves.Outline

/-!
# Stream — calls in outline

What the calls on an object are made of. A `Turn` is a beat, or a change
of mode: a mode is started only where the other is not, and left only
where there are no entries.
-/

namespace SgFtdi

namespace Stream

open Prog Relation

variable {σ : Type}

/-- **What a call does**: a beat, or it starts a mode where the other is not
started, or leaves one where there are no entries; and a thread begins and
ends. -/
inductive Turn (p : Phase) (c : Outline) : Outline → Prop
  | beat {c' : Outline} : Beat p c c' → Turn p c c'
  | startedPoll : c.isStartedThr = false → Turn p c { c with isStartedPoll := true }
  | startedThr : c.isStartedPoll = false → Turn p c { c with isStartedThr := true }
  | leftPoll : c.made = false → Turn p c { c with isStartedPoll := false }
  | leftThr : c.made = false → Turn p c { c with isStartedThr := false }
  | spawned : Turn p c { c with threadAlive := true }
  | ended : c.made = false → Turn p c { c with threadAlive := false }

/-- And an object that is destroyed closes the notice eventfd. -/
inductive Parting (p : Phase) (c : Outline) : Outline → Prop
  | turn {c' : Outline} : Turn p c c' → Parting p c c'
  | dismissed (fd : ℤ) : Parting p c (c.note (.closed fd))

/-- A program as a path of turns. -/
abbrev Turns {α : Type} (b : Phase) (p : Run σ α) (m : Machine σ) : Prop :=
  Walks (Turn b) Machine.outline p m

variable {env : Env σ} {m m' m₁ m₂ : Machine σ} {b : Phase} {r : ℤ → Prop}

theorem Beats.turns {α : Type} {p : Run σ α} (h : Beats b p m) : Turns b p m :=
  h.mono fun _ _ hb => .beat hb

theorem withMutex_turns {α : Type} {p : Run σ α} (h : ∀ m, Turns b p m) (m : Machine σ) :
    Turns b (withMutex p) m :=
  Walks.bind (Walks.unseen rfl) fun _ t _ => Walks.leaving (h t) fun _ => rfl

theorem processCleanup_made {t : Machine σ} (h : processCleanup m = (.ret (), t)) :
    t.outline.made = false := by
  have hnone := (ends_ret_of (Q := fun _ t => Cleaned m t) (processCleanup_ends m) h).streamstates
  show t.streamstates.isSome = false
  rw [hnone]
  rfl

theorem startFailed_turns {clear : Machine σ → Machine σ} (hb : b.closes = true) (cause : Exn)
    (hclear : ∀ t : Machine σ, t.outline.made = false → Turn b t.outline (clear t).outline)
    (m : Machine σ) : Turns b (startFailed clear cause) m :=
  Walks.bind (processCleanup_beats hb m).turns fun _ _ ht =>
    Walks.bind (Walks.alter (hclear _ (processCleanup_made ht))) fun _ _ _ => Walks.raise

theorem startPoll_turns (hr : env.Refuses r) (m : Machine σ) :
    Turns (.starting r) (startPoll env) m := by
  refine withMutex_turns (fun m => ?_) m
  refine Walks.look_bind (Walks.ite (fun _ => Walks.raise) fun hthr => ?_)
  refine Walks.ite (fun _ => Walks.pure) fun _ => Walks.rescue ?_ fun cause t _ =>
    startFailed_turns rfl cause (fun _ ht => .leftPoll ht) t
  refine Walks.bind (processInit_beats hr m).turns fun _ t ht => ?_
  have hthr : t.isStartedThr = false :=
    ((processInit_beats hr m).modes ht).isStartedThr.trans (Bool.eq_false_iff.mpr hthr)
  refine Walks.bind (leave_beats _ t).turns fun _ u hu => Walks.alter (.startedPoll ?_)
  cases hu
  exact hthr

theorem stepUntilDone_beats : ∀ (inputs : List StepInput) (m : Machine σ),
    Beats b (stepUntilDone env inputs) m
  | [], _ => Walks.hang
  | input :: inputs, m => Walks.bind (processStep_beats input m) fun _ t _ =>
      Walks.ite (fun _ => stepUntilDone_beats inputs t) fun _ => Walks.pure

theorem stopPoll_turns (hb : b.closes = true) (inputs : List StepInput) (m : Machine σ) :
    Turns b (stopPoll env inputs) m := by
  refine withMutex_turns (fun m => ?_) m
  refine Walks.look_bind (Walks.ite (fun _ => ?_) fun _ => Walks.pure)
  refine Walks.bind (askStop_beats m).turns fun _ t _ => ?_
  refine Walks.bind (stepUntilDone_beats inputs t).turns fun _ u _ => ?_
  exact Walks.bind (processCleanup_beats hb u).turns fun _ _ hv =>
    Walks.alter (.leftPoll (processCleanup_made hv))

theorem endThread_turns (hb : b.closes = true) (m : Machine σ) :
    Turns b (endThread : Run σ Unit) m :=
  Walks.bind (processCleanup_beats hb m).turns fun _ _ ht =>
    Walks.alter (.ended (processCleanup_made ht))

theorem threadStep_turns (hb : b.closes = true) (input : StepInput) (m : Machine σ) :
    Turns b (threadStep env input) m := by
  refine Walks.look_bind (Walks.ite (fun _ => Walks.pure) fun _ => Walks.rescue ?_ ?_)
  · exact Walks.bind (processStep_beats input m).turns fun _ t _ =>
      Walks.ite (fun _ => Walks.pure) fun _ => endThread_turns hb t
  · exact fun cause t _ => Walks.bind (error_beats _ t).turns fun _ u _ => endThread_turns hb u

theorem launchThread_turns (hb : b.closes = true) (h : m.isStartedPoll = false) :
    Turns b (launchThread env) m := by
  refine Walks.bind (leave_beats _ m).turns fun _ t ht => ?_
  cases ht
  refine Walks.bind (askWorld_beats _ _).turns fun started u hu => ?_
  cases hu
  refine Walks.ite (fun _ => Walks.raise) fun _ => ?_
  refine Walks.bind (Walks.alter (.startedThr h)) fun _ v _ => ?_
  refine Walks.bind (Walks.alter .spawned) fun _ w _ => Walks.look_bind (Walks.ite (fun _ => ?_) ?_)
  · exact Walks.bind (error_beats _ w).turns fun _ x _ => endThread_turns hb x
  · exact fun _ => Walks.pure

theorem startThread_turns (hr : env.Refuses r) (m : Machine σ) :
    Turns (.starting r) (startThread env) m := by
  refine withMutex_turns (fun m => ?_) m
  refine Walks.look_bind (Walks.ite (fun _ => Walks.raise) fun hpoll => ?_)
  refine Walks.ite (fun _ => Walks.pure) fun _ => Walks.rescue ?_ fun cause t _ =>
    startFailed_turns rfl cause (fun _ ht => .leftThr ht) t
  refine Walks.bind (processInit_beats hr m).turns fun _ t ht => launchThread_turns rfl ?_
  exact ((processInit_beats hr m).modes ht).isStartedPoll.trans (Bool.eq_false_iff.mpr hpoll)

theorem stopThread_turns (hb : b.closes = true) (inputs : List StepInput) (m : Machine σ) :
    Turns b (stopThread env inputs) m := by
  refine withMutex_turns (fun m => ?_) m
  refine Walks.look_bind (Walks.ite (fun _ => ?_) fun _ => Walks.pure)
  refine Walks.bind (askStop_beats m).turns fun _ t _ => ?_
  refine Walks.bind ?_ fun _ u _ => ?_
  · exact Walks.bind (Walks.each (threadStep_turns hb)) fun _ _ _ => Walks.look_bind
      (Walks.ite (fun _ => Walks.hang) fun _ => Walks.pure)
  · exact Walks.bind (processCleanup_beats hb u).turns fun _ _ hv =>
      Walks.alter (.leftThr (processCleanup_made hv))

/-- What a call may do. -/
def Call.phase (r : ℤ → Prop) : Call → Phase
  | .startPoll => .starting r
  | .startThread => .starting r
  | .poll _ => .working
  | .thread _ => .working
  | _ => .closing

/-- Whether a call destroys the object. -/
def Call.destroys : Call → Bool
  | .destroy _ => true
  | _ => false

/-- **Every call is a path of turns**, and opens nothing unless it is a
start. -/
theorem call_turns (hr : env.Refuses r) (c : Call) (hc : c.destroys = false) (m : Machine σ) :
    Turns (c.phase r) (call env c) m := by
  have hpure : ∀ {b : Phase} (_ : Exn) (t : Machine σ), Turns b (pure () : Run σ Unit) t :=
    fun _ _ => Walks.pure
  cases c with
  | startPoll => exact Walks.rescue (startPoll_turns hr m) fun e t _ => hpure e t
  | poll input =>
      refine Walks.rescue (Beats.turns ?_) fun e t _ => hpure e t
      exact Walks.bind (Walks.look_bind (Walks.ite (fun _ => processStep_beats input m) fun _ =>
        Walks.pure)) fun _ _ _ => Walks.pure
  | stopPoll inputs => exact Walks.rescue (stopPoll_turns rfl inputs m) fun e t _ => hpure e t
  | startThread => exact Walks.rescue (startThread_turns hr m) fun e t _ => hpure e t
  | threadStep input => exact threadStep_turns rfl input m
  | stopThread inputs => exact Walks.rescue (stopThread_turns rfl inputs m) fun e t _ => hpure e t
  | thread a => exact (threadAction_beats a m).turns
  | destroy inputs => cases hc

theorem destroy_partings (hb : b.closes = true) (inputs : List StepInput) (m : Machine σ) :
    Walks (Parting b) Machine.outline (destroy env inputs) m := by
  have hturn : ∀ {α : Type} {p : Run σ α} {t : Machine σ}, Turns b p t →
      Walks (Parting b) Machine.outline p t := fun h => h.mono fun _ _ ht => .turn ht
  refine Walks.bind (hturn (stopThread_turns hb inputs m)) fun _ t _ => ?_
  refine Walks.bind (hturn (stopPoll_turns hb inputs t)) fun _ u _ => ?_
  refine Walks.bind (Walks.unseen rfl) fun _ v _ => Walks.look_bind ?_
  exact Walks.ite (fun _ => Walks.bind (Walks.alter (.dismissed _)) fun _ w _ =>
    hturn (closeAll_beats hb w).turns) fun _ => hturn (closeAll_beats hb v).turns

/-- Every call at all is a path of partings. -/
theorem call_partings (hr : env.Refuses r) (c : Call) (m : Machine σ) :
    Walks (Parting (c.phase r)) Machine.outline (call env c) m := by
  cases hc : c.destroys with
  | false => exact (call_turns hr c hc m).mono fun _ _ ht => .turn ht
  | true =>
      cases c with
      | destroy inputs =>
          exact Walks.rescue (destroy_partings rfl inputs m) fun _ _ _ => Walks.pure
      | _ => cases hc

end Stream

end SgFtdi
