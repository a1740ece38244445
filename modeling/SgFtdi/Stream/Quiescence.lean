import SgFtdi.Stream.Moves.Reasons
import SgFtdi.Stream.Moves.Calls
import SgFtdi.Stream.Model.Steady

/-!
# Stream — quiescence after a stop

`should_run` is raised by `process_init` and by nothing else, so what is
recorded after a stop is recorded by an engine that does not run, until
one begins again. An engine works only while it runs: the handlers and
`submit` look at `should_run` before they call libusb or the user. Both
are read off the beats of the engine in outline, whatever arrives.
-/

namespace SgFtdi

namespace Stream

open Prog Relation

variable {σ : Type} {env : Env σ} {m m' : Machine σ} {c c' : Outline}
variable {t : List Seen} {a : Seen} {b : Phase} {r r' r₁ : Bool}

/-- An engine begins. -/
def Obs.begins : Obs → Bool
  | .began _ => true
  | _ => false

/-- No engine begins. -/
def NoneBegins (t : List Seen) : Prop := ∀ a ∈ t, a.what.begins = false

/-- **What follows a stop**, `r` being `should_run` in the end: until an
engine begins, nothing is done by one that runs, and where none begins
none runs in the end. -/
def Stopped (t : List Seen) (r : Bool) : Prop :=
  ∀ mid post, t = mid ++ post → NoneBegins mid →
    (∀ a ∈ mid, a.running = false) ∧ (post = [] → r = false)

/-- **A record that ebbs**, `should_run` being `r` before it and `r'` after:
the engine works only while it runs, and from a stop on it does not run
until one begins again. -/
structure Ebbs (r : Bool) (t : List Seen) (r' : Bool) : Prop where
  working : ∀ a ∈ t, a.what.works = true → a.running = true
  first : r = false → Stopped t r'
  later : ∀ pre a post, t = pre ++ a :: post → a.running = false → Stopped post r'

/-! ## Records that ebb -/

theorem Stopped.nil : Stopped [] false := by
  intro mid post h _
  rw [(List.append_eq_nil_iff.mp h.symm).1]
  exact ⟨fun _ ha => absurd ha List.not_mem_nil, fun _ => rfl⟩

/-- The flag may go down. -/
theorem Stopped.keep (h : Stopped t r₁) (hr : r' = true → r₁ = true) : Stopped t r' := by
  intro mid post ht hmid
  obtain ⟨hall, hend⟩ := h mid post ht hmid
  refine ⟨hall, fun hp => Bool.eq_false_iff.mpr fun hr' => ?_⟩
  rw [hend hp] at hr
  cases hr hr'

/-- One more observation, which brings the flag up only where an engine
begins. -/
theorem Stopped.snoc (h : Stopped t r₁) (ha : a.running = r')
    (hr : a.what.begins = false → r' = true → r₁ = true) : Stopped (t ++ [a]) r' := by
  intro mid post ht hmid
  rcases List.eq_nil_or_concat post with rfl | ⟨post, a', rfl⟩
  · rw [List.append_nil] at ht
    subst ht
    obtain ⟨hall, hend⟩ := h t [] (List.append_nil t).symm fun x hx =>
      hmid x (List.mem_append_left _ hx)
    have hlast : a.what.begins = false := hmid a (List.mem_append_right _ List.mem_cons_self)
    have hr' : r' = false := Bool.eq_false_iff.mpr fun h' => by
      rw [hend rfl] at hr
      cases hr hlast h'
    refine ⟨fun x hx => ?_, fun _ => hr'⟩
    rcases List.mem_append.mp hx with hx | hx
    · exact hall x hx
    · rw [List.mem_singleton.mp hx, ha, hr']
  · have ht : t ++ [a] = (mid ++ post) ++ [a'] := by simpa using ht
    obtain ⟨rfl, -⟩ := List.append_inj' ht rfl
    exact ⟨(h mid post rfl hmid).1, fun hp => absurd hp (by simp)⟩

theorem Ebbs.nil : Ebbs r [] r where
  working _ ha := absurd ha List.not_mem_nil
  first hr := hr ▸ .nil
  later pre a post h := by simp at h

theorem Ebbs.keep (h : Ebbs r t r₁) (hr : r' = true → r₁ = true) : Ebbs r t r' where
  working := h.working
  first h₀ := (h.first h₀).keep hr
  later pre a post ht ha := (h.later pre a post ht ha).keep hr

theorem Ebbs.snoc (h : Ebbs r t r₁) (ha : a.running = r')
    (hw : a.what.works = true → a.running = true)
    (hr : a.what.begins = false → r' = true → r₁ = true) : Ebbs r (t ++ [a]) r' where
  working x hx := by
    rcases List.mem_append.mp hx with hx | hx
    · exact h.working x hx
    · exact List.mem_singleton.mp hx ▸ hw
  first h₀ := (h.first h₀).snoc ha hr
  later pre x post ht hx := by
    rcases List.eq_nil_or_concat post with rfl | ⟨post, a', rfl⟩
    · obtain ⟨-, hax⟩ := List.append_inj' ht rfl
      have hfalse : r' = false := by
        rw [← ha, List.singleton_inj.mp hax]
        exact hx
      exact hfalse ▸ .nil
    · have ht : t ++ [a] = (pre ++ x :: post) ++ [a'] := by simpa using ht
      obtain ⟨rfl, haa⟩ := List.append_inj' ht rfl
      rw [List.concat_eq_append, ← List.singleton_inj.mp haa]
      exact (h.later pre x post rfl hx).snoc ha hr

/-! ## The engine in outline -/

/-- **What a step puts on the record**: nothing, or one observation. The flag
goes up only with the observation that an engine begins. -/
theorem Parting.says (h : Parting b c c') :
    (c'.trace = c.trace ∧ (c'.shouldRun = true → c.shouldRun = true)) ∨
      ∃ a, c'.trace = c.trace ++ [a] ∧ a.running = c'.shouldRun ∧
        (a.what.works = true → a.running = true) ∧
        (a.what.begins = false → c'.shouldRun = true → c.shouldRun = true) := by
  have hnote : ∀ {o : Obs} {r : Bool}, o.works = false → o.works = true → r = true :=
    fun h h' => absurd (h.symm.trans h') Bool.false_ne_true
  cases h with
  | turn ht =>
      cases ht with
      | beat hb =>
          cases hb with
          | noted hw _ => exact .inr ⟨_, rfl, rfl, hnote hw, fun _ => id⟩
          | worked _ hr => exact .inr ⟨_, rfl, rfl, fun _ => hr, fun _ => id⟩
          | stopped => exact .inl ⟨rfl, fun h => absurd h Bool.false_ne_true⟩
          | begun now _ _ =>
              exact .inr ⟨_, rfl, rfl, fun _ => rfl, fun h => absurd h.symm Bool.false_ne_true⟩
          | opened _ _ _ _ => exact .inr ⟨_, rfl, rfl, hnote rfl, fun _ => id⟩
          | openedUsb _ _ _ _ => exact .inr ⟨_, rfl, rfl, hnote rfl, fun _ => id⟩
          | openedTimer _ _ _ _ => exact .inr ⟨_, rfl, rfl, hnote rfl, fun _ => id⟩
          | closed _ => exact .inr ⟨_, rfl, rfl, hnote rfl, fun _ => id⟩
          | closedUsb _ => exact .inr ⟨_, rfl, rfl, hnote rfl, fun _ => id⟩
          | closedTimer _ => exact .inr ⟨_, rfl, rfl, hnote rfl, fun _ => id⟩
          | freed why inFlight _ _ _ => exact .inr ⟨_, rfl, rfl, hnote rfl, fun _ => id⟩
          | _ => exact .inl ⟨rfl, id⟩
      | _ => exact .inl ⟨rfl, id⟩
  | dismissed fd => exact .inr ⟨_, rfl, rfl, hnote rfl, fun _ => id⟩

/-- `should_cancel` is set wherever `should_run` is not. -/
def Outline.Minds (c : Outline) : Prop := c.shouldRun = false → c.shouldCancel = true

theorem Parting.minds (h : Parting b c c') (hc : c.Minds) : c'.Minds := by
  cases h with
  | turn ht =>
      cases ht with
      | beat hb =>
          cases hb with
          | stopped => exact fun _ => rfl
          | asked => exact fun _ => rfl
          | begun now _ _ => exact fun h => absurd h.symm Bool.false_ne_true
          | _ => exact hc
      | _ => exact hc
  | dismissed fd => exact hc

/-- The record of an outline since an earlier one ebbs. -/
def Outline.EbbsSince (c₀ c : Outline) : Prop :=
  ∃ t, c.trace = c₀.trace ++ t ∧ Ebbs c₀.shouldRun t c.shouldRun

theorem Parting.ebbs {c₀ : Outline} (h : Parting b c c') (hc : c₀.EbbsSince c) :
    c₀.EbbsSince c' := by
  obtain ⟨t, ht, hebbs⟩ := hc
  rcases h.says with ⟨htrace, hr⟩ | ⟨a, htrace, ha, hw, hr⟩
  · exact ⟨t, htrace.trans ht, hebbs.keep hr⟩
  · refine ⟨t ++ [a], ?_, hebbs.snoc ha hw hr⟩
    rw [htrace, ht, List.append_assoc]

/-- **What every step of an object's life keeps** holds after any calls,
whichever way they end. -/
theorem lifeRun_inv {I : Outline → Prop}
    (hstep : ∀ b c c', Parting b c c' → I c → I c') (calls : List Call) (hm : I m.outline) :
    I (lifeRun env calls m).2.outline := by
  have hpath : Walks (fun c c' => ∃ b, Parting b c c') Machine.outline (lifeRun env calls) m :=
    Walks.each fun c t =>
      (call_partings (r := fun _ => True) ⟨fun _ _ => trivial, fun _ _ => trivial⟩ c t).mono
        fun _ _ h => ⟨_, h⟩
  exact inv_of_path (fun c c' ⟨b, h⟩ => hstep b c c' h) hpath hm

/-! ## Sessions -/

theorem Step.minds (h : Step env m m') (hm : m.Minds) : m'.Minds := by
  cases h with
  | handling hh =>
      cases hh with
      | draining hd =>
          cases hd with
          | move hmv => exact hmv.kept.minds hm
          | cleared _ hc => cases hc <;> exact hm
      | accepted _ _ _ => exact (accepted_eq m _ _) ▸ hm
      | stopping => exact fun _ => rfl
      | obeyed hc => exact fun _ => hc
      | _ => exact hm
  | waitFailed errno => exact fun _ => rfl
  | crashed cause hb => exact fun _ => rfl
  | _ => exact hm

theorem Watched.minds {sock : ℤ} (h : Watched env sock m m') (hm : m.Minds) : m'.Minds := by
  cases h with
  | added w _ => exact hm
  | failed w cause _ => exact (Kept.errored (m := m.withWorld w) _).minds hm

theorem Created.minds {s t : ℕ} {stream : FtdiStreamEntry} {isReading : Bool}
    (h : Created env s t stream isReading m m') (hm : m.Minds) : m'.Minds := by
  cases h with
  | mk _ _ _ hready hsub =>
      refine hsub.kept_frame.minds ?_
      cases hready with
      | reading _ _ _ => exact hm
      | writing _ _ _ hw => exact hw.minds hm

theorem Setup.minds (h : Setup env m m') (hm : m.Minds) : m'.Minds := by
  cases h with
  | opening ho =>
      cases ho with
      | move hmv => exact hmv.kept.minds hm
      | watched _ hw => exact hw.minds hm
      | _ => exact hm
  | created hc => exact hc.minds hm

/-- **`should_cancel` is set wherever `should_run` is not**, also while a
session is set up. -/
theorem Reached.minds {m₀ : Machine σ} (h : Reached env m₀ m) : m.Minds := by
  refine h.inv (fun b hb => ?_) (fun _ _ hst => hst.minds) fun _ _ hst => hst.minds
  obtain ⟨w, now, -, rfl⟩ := hb
  exact fun hr => absurd hr.symm Bool.false_ne_true

/-- A stopped engine is not started by its own steps. -/
theorem steps_stopped (h : ReflTransGen (Step env) m m') (hr : m.shouldRun = false) :
    m'.shouldRun = false := by
  refine inv_of_path (I := fun u => u.shouldRun = false) (fun u v hst hu => ?_) h hr
  exact Bool.eq_false_iff.mpr fun hv => Bool.eq_false_iff.mp hu (hst.stays hv)

/-- **Quiescence after a stop.** Over any calls on an object, whatever
arrives in them and whichever way they end, its record ebbs: after a stop
no transfer is submitted and no user's callback is called about bytes, and
`should_run` stays down until an engine begins. `should_cancel` is set
wherever `should_run` is not, between the calls and within. -/
theorem quiescent (env : Env σ) (m : Machine σ) (hm : m.Minds) (calls : List Call) :
    (∃ t, (lifeRun env calls m).2.trace = m.trace ++ t ∧
      Ebbs m.shouldRun t (lifeRun env calls m).2.shouldRun) ∧
    (lifeRun env calls m).2.Minds ∧
    ∀ m₀ s t, Reached env m₀ s → ReflTransGen (Step env) s t →
      s.Minds ∧ (s.shouldRun = false → t.shouldRun = false) := by
  refine ⟨?_, ?_, fun m₀ s t hs hst => ⟨hs.minds, steps_stopped hst⟩⟩
  · exact lifeRun_inv (I := m.outline.EbbsSince) (fun _ _ _ h => h.ebbs) calls
      ⟨[], (List.append_nil _).symm, .nil⟩
  · exact lifeRun_inv (I := Outline.Minds) (fun _ _ _ h => h.minds) calls hm

/-- An engine is started, its `epoll_wait` fails, a completion arrives
afterwards, it is stopped, and started again. -/
def failAndRestart : List Call :=
  [.startPoll, .poll (.failed .EINTR),
    .poll (.ready [⟨5, [], [.completed ⟨0, .completed, [1, 96, 7], 0⟩], 0, none, []⟩]),
    .stopPoll [.failed .EINTR], .startPoll]

/-- The completion that comes after the stop is one of them. -/
theorem quiescent_sample :
    ∃ m m' : Machine ℕ, lifeRun steady failAndRestart m = (.ret (), m') ∧ m'.Minds ∧
      (∃ t, m'.trace = m.trace ++ t ∧ Ebbs m.shouldRun t m'.shouldRun) ∧
      m'.shouldRun = true ∧ ⟨false, .completed 0 0 true .completed [1, 96, 7] 3⟩ ∈ m'.trace := by
  obtain ⟨m', hrun, hr, hafter⟩ := exists_life (P := fun m => m.shouldRun = true ∧
      ⟨false, .completed 0 0 true .completed [1, 96, 7] 3⟩ ∈ m.trace)
    steady failAndRestart (constructed [sampleStream 64 1 0] ⟨64, 4096⟩ 4)
    (by decide +kernel) (by decide +kernel)
  obtain ⟨hebbs, hminds, -⟩ := quiescent steady (constructed [sampleStream 64 1 0] ⟨64, 4096⟩ 4)
    (fun h => absurd h.symm Bool.false_ne_true) failAndRestart
  rw [hrun] at hebbs hminds
  exact ⟨_, m', hrun, hminds, hebbs, hr, hafter⟩

end Stream

end SgFtdi
