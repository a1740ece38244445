import SgFtdi.Common.Concurrency
import SgFtdi.Stream.Model.Steady
import SgFtdi.Stream.Model.Traffic
import SgFtdi.Stream.Moves.Reasons

/-!
# Stream — no request is lost, and none goes unnoticed

The request lists hold exactly what was asked since the last drain, the
last request for a descriptor alone, as long as the engine runs. So a drain
finds every descriptor on the list of its last request, and no descriptor
stands on two lists. The notice eventfd is the lists' doorbell: a request
rings behind its change of the lists, `event_notice` reads the eventfd
ahead of its drain, and every early return of `event_notice` either leaves
the eventfd as it is or stops the engine.
-/

namespace SgFtdi

namespace Stream

open Prog Relation

variable {σ : Type} {env : Env σ} {m m' m₁ m₂ t : Machine σ} {q : Queued}

/-! ## The last request -/

/-- What a request is for: a descriptor, or a stream. -/
def Queued.subject : Queued → ℤ ⊕ ℕ
  | .enable fd => .inl fd
  | .disable fd => .inl fd
  | .reset s => .inr s

/-- The last request for a subject since the last drain, after one more
observation. -/
def lastAsked (x : ℤ ⊕ ℕ) (last : Option Queued) (o : Seen) : Option Queued :=
  match o.what with
  | .asked _ q => if q.subject = x then some q else last
  | .drained _ _ _ => none
  | _ => last

/-- The last request for a subject since the last drain on a record. -/
def lastRequest (x : ℤ ⊕ ℕ) (t : List Seen) : Option Queued := t.foldl (lastAsked x) none

/-- A request is among those a drain found. -/
def Queued.among (enable disable : List ℤ) (reset : List ℕ) : Queued → Prop
  | .enable fd => fd ∈ enable
  | .disable fd => fd ∈ disable
  | .reset s => s ∈ reset

/-- **What a drain finds**: of every subject the last request since the
drain before, on its own list, and nothing else. -/
def FindsLast (pre : List Seen) (o : Seen) : Prop :=
  ∀ enable disable reset, o.what = .drained enable disable reset →
    ∀ q : Queued, q.among enable disable reset ↔ lastRequest q.subject pre = some q

theorem Lists.holds_iff_among {l : Lists} :
    l.Holds q ↔ q.among l.enable.elems l.disable.elems l.reset.elems := by
  cases q <;> rfl

/-- A request takes the place of the one before it for its subject. -/
theorem Lists.holds_queue_iff {l : Lists} {q' : Queued} :
    (l.queue q').Holds q ↔ if q'.subject = q.subject then q' = q else l.Holds q := by
  cases q <;> cases q' <;>
    simp only [Lists.Holds, Lists.queue, Queued.subject, Unordered.mem_insert,
      Unordered.mem_erase, Sum.inl.injEq, Sum.inr.injEq, reduceCtorEq, if_false,
      Queued.enable.injEq, Queued.disable.injEq, Queued.reset.injEq] <;> split <;> simp_all <;>
    tauto

/-- Lists that hold the last requests still do after one more observation. -/
theorem enlist_holds {l : Lists} {last : ℤ ⊕ ℕ → Option Queued}
    (h : ∀ q : Queued, l.Holds q ↔ last q.subject = some q) (o : Seen) (q : Queued) :
    (enlist l o).Holds q ↔ lastAsked q.subject (last q.subject) o = some q := by
  obtain ⟨run, o⟩ := o
  cases o with
  | asked s q' =>
      simp only [enlist, lastAsked]
      rw [Lists.holds_queue_iff]
      split
      · rw [Option.some_inj]
      · exact h q
  | drained _ _ _ =>
      simp only [enlist, lastAsked]
      exact ⟨fun hq => absurd hq (Lists.not_holds_empty q), fun hq => by cases hq⟩
  | _ => exact h q

theorem foldl_enlist_holds : ∀ (seg : List Seen) (l : Lists) (last : ℤ ⊕ ℕ → Option Queued),
    (∀ q : Queued, l.Holds q ↔ last q.subject = some q) →
    ∀ q : Queued, (seg.foldl enlist l).Holds q ↔
      seg.foldl (lastAsked q.subject) (last q.subject) = some q
  | [], _, _, h, q => h q
  | o :: seg, _, last, h, q =>
      foldl_enlist_holds seg _ (fun x => lastAsked x (last x) o) (enlist_holds h o) q

/-- **The lists of a record** hold the last request for each subject. -/
theorem enlisted_holds (t : List Seen) (q : Queued) :
    (t.foldl enlist .empty).Holds q ↔ lastRequest q.subject t = some q :=
  foldl_enlist_holds t .empty (fun _ => none)
    (fun q => ⟨fun hq => absurd hq (Lists.not_holds_empty q), fun hq => by cases hq⟩) q

/-- No descriptor is on both lists. -/
def Lists.Apart (l : Lists) : Prop := ∀ fd, fd ∈ l.enable → ¬ fd ∈ l.disable

theorem Lists.Apart.of_holds {l l' : Lists} (h : l.Apart) (hl : ∀ q, l'.Holds q → l.Holds q) :
    l'.Apart := fun fd hen hdis => h fd (hl (.enable fd) hen) (hl (.disable fd) hdis)

theorem Lists.apart_empty : Lists.empty.Apart := fun _ h => absurd h Unordered.not_mem_empty

theorem Lists.Apart.queue {l : Lists} (h : l.Apart) (q : Queued) : (l.queue q).Apart := by
  intro fd hen hdis
  cases q with
  | enable fd' =>
      rcases Unordered.mem_insert.mp hen with rfl | hold
      · exact (Unordered.mem_erase.mp hdis).1 rfl
      · exact h fd hold (Unordered.mem_erase.mp hdis).2
  | disable fd' =>
      rcases Unordered.mem_insert.mp hdis with rfl | hold
      · exact (Unordered.mem_erase.mp hen).1 rfl
      · exact h fd (Unordered.mem_erase.mp hen).2 hold
  | reset s => exact h fd hen hdis

theorem Lists.Apart.foldl : ∀ (seg : List Seen) {l : Lists}, l.Apart → (seg.foldl enlist l).Apart
  | [], _, h => h
  | o :: seg, l, h => by
      refine Lists.Apart.foldl seg (l := enlist l o) ?_
      obtain ⟨run, o⟩ := o
      cases o with
      | asked s q => exact h.queue q
      | drained _ _ _ => exact Lists.apart_empty
      | _ => exact h

/-! ## Lists in order -/

/-- The lists follow the record. -/
def Listed (m m' : Machine σ) : Prop :=
  Reads enlist (·.what.files m.listMutex) m.trace m'.trace m.lists m'.lists

/-- **The lists are in order**: `list_mutex` is free, no descriptor is on
two lists, a running engine's lists are those of its record, and every
drain found the last requests. -/
structure Orderly (m : Machine σ) : Prop where
  free : m.listMutex = false
  apart : m.lists.Apart
  recorded : m.shouldRun = true → m.lists = m.trace.foldl enlist .empty
  drains : AtEach FindsLast m.trace

/-- What is observed outside of a drain is none. -/
theorem Obs.files.findsLast {b : Bool} {o : Seen} (h : o.what.files b) (pre : List Seen) :
    FindsLast pre o := by
  intro enable disable reset heq
  rw [heq] at h
  exact h.elim

/-- **Whatever follows the record keeps the lists in order.** -/
theorem Orderly.listed (h : Orderly m) (hl : Listed m m') (hfree : m'.listMutex = false)
    (hstays : m'.shouldRun = true → m.shouldRun = true) : Orderly m' := by
  have hg : Grows (·.what.files m.listMutex) m.trace m'.trace := Reads.grows hl
  obtain ⟨seg, hseg, -, hfold⟩ := hl
  refine ⟨hfree, ?_, fun hr => ?_, ?_⟩
  · rw [← hfold]
    exact h.apart.foldl seg
  · rw [hseg, List.foldl_append, ← h.recorded (hstays hr), hfold]
  · exact h.drains.grows hg fun pre o ho => ho.findsLast pre

/-- What a drain of lists in order finds. -/
theorem Orderly.findsLast (h : Orderly m) (hr : m.shouldRun = true) :
    FindsLast m.trace ⟨m.shouldRun,
      .drained m.listEnable.elems m.listDisable.elems m.listReset.elems⟩ := by
  intro enable disable reset heq q
  cases heq
  rw [← enlisted_holds, ← h.recorded hr]
  exact (Lists.holds_iff_among (l := m.lists)).symm

/-! ## A drain, as a whole -/

/-- What is observed while `list_mutex` is held has nothing to do with the
lists. -/
theorem Obs.files.unlisted {o : Obs} (h : o.files true) : o.unlisted := by
  cases o <;> first | exact h | cases h

theorem Filed.unlisted (h : Filed m m') (hm : m.listMutex = true) :
    Grows (·.what.unlisted) m.trace m'.trace :=
  h.lists.grows.mono fun _ ho => (hm ▸ ho : Obs.files true _).unlisted

/-- **Under `list_mutex`** nothing is asked, and what is on a list was there. -/
structure Guarded (m m' : Machine σ) : Prop where
  trace : Grows (·.what.unlisted) m.trace m'.trace
  holds : ∀ q, m'.lists.Holds q → m.lists.Holds q
  listMutex : m'.listMutex = true
  stays : m'.shouldRun = true → m.shouldRun = true

theorem Draining.guarded (h : Draining env m m') (hm : m.listMutex = true) : Guarded m m' := by
  cases h with
  | move hmove =>
      have hk := hmove.kept
      refine ⟨hk.filed.unlisted hm, fun q hq => ?_, hk.listMutex.trans hm, hk.stays⟩
      rwa [hk.filed.locked hm] at hq
  | cleared _ hc =>
      refine ⟨?_, fun q hq => hc.holds hq, ?_, ?_⟩ <;> cases hc
      · exact .refl
      · exact .refl
      · exact .refl
      · exact hm
      · exact hm
      · exact hm
      · exact id
      · exact id
      · exact id

theorem draining_guarded (h : ReflTransGen (Draining env) m m') (hm : m.listMutex = true) :
    Guarded m m' := by
  induction h with
  | refl => exact ⟨.refl, fun _ hq => hq, hm, id⟩
  | tail _ hs ih =>
      have hg := hs.guarded ih.listMutex
      exact ⟨ih.trace.trans hg.trace, fun q hq => ih.holds q (hg.holds q hq), hg.listMutex,
        fun hr => ih.stays (hg.stays hr)⟩

/-- A program that broke off in a drain leaves no more on the lists. -/
theorem Broken.guarded (h : Broken env m m') (hm : m.listMutex = true) :
    Grows (·.what.unlisted) m.trace m'.trace ∧ ∀ q, m'.lists.Holds q → m.lists.Holds q := by
  refine ⟨h.filed.unlisted hm, fun q hq => ?_⟩
  rwa [h.filed.locked hm] at hq

/-- **How `event_notice` ends behind the `read`**: the engine has stopped
and nothing new is on the lists, or the lists are drained. -/
inductive Taken (m : Machine σ) : Machine σ → Prop
  | stopped : Taken m { m with shouldRun := false }
  | drained {t : Machine σ} : m.shouldRun = true → t.listMutex = false → t.lists.Apart →
      Grows (·.what.unlisted) m.locked.trace t.trace →
      t.lists = .empty ∨ t.shouldRun = false → Taken m t

theorem crash_ends (cause : Exn) (m : Machine σ) :
    Ends (do
      cancel
      leave .exception
      observe (.threw cause) : Run σ Unit)
      (fun _ t => t = m.crashed cause) (fun _ _ => False) m := rfl

theorem lists_empty_of (he : m.listEnable = .empty) (hd : m.listDisable = .empty)
    (hr : m.listReset = .empty) : m.lists = .empty := by
  rw [FtdiStreamState.lists, he, hd, hr]
  rfl

theorem caught_lockedDrain_ends (h : m.lists.Apart) (hr : m.shouldRun = true) :
    Ends (caught (lockedDrain env)) (fun _ t => Taken m t) (fun _ _ => False) m := by
  unfold caught
  rw [ends_rescue]
  refine (lockedDrain_ends m).mono ?_ ?_
  · rintro - t ⟨u, hp, he, hd, hre, -, rfl⟩
    have hg := draining_guarded hp rfl
    have hempty : u.unlocked.lists = .empty := lists_empty_of he hd hre
    refine .drained hr rfl ?_ hg.trace (.inl hempty)
    rw [hempty]
    exact Lists.apart_empty
  · rintro cause t ⟨u, v, hp, hb, rfl⟩
    refine (crash_ends cause _).mono ?_ fun _ _ hf => hf
    rintro - t rfl
    have hg := draining_guarded hp rfl
    obtain ⟨htrace, hholds⟩ := hb.guarded hg.listMutex
    refine .drained hr rfl ?_ ?_ (.inr rfl)
    · exact h.of_holds fun q hq => hg.holds q (hholds q hq)
    · exact (hg.trace.trans htrace).trans (.one trivial)

theorem caught_takeNotice_ends (h : m.lists.Apart) :
    Ends (caught (takeNotice env)) (fun _ t => Taken m t) (fun _ _ => False) m := by
  unfold caught takeNotice
  rw [ends_rescue, ends_bind, ends_look, id_look, ends_ite]
  refine ⟨fun hr => ?_, fun hr => ?_⟩
  · have heq : { m with shouldRun := false } = m := by rw [← hr]
    exact heq ▸ Taken.stopped
  · rw [ends_ite]
    refine ⟨fun _ => .stopped, fun _ => ?_⟩
    rw [← ends_rescue]
    exact caught_lockedDrain_ends h (by simpa using hr)

/-- **A notice that is taken leaves the lists in order.** -/
theorem Taken.orderly (h : Taken m t) (ho : Orderly m) : Orderly t := by
  cases h with
  | stopped => exact ⟨ho.free, ho.apart, fun hr => absurd hr Bool.false_ne_true, ho.drains⟩
  | drained hr hfree hapart htrace hleft =>
      have hdrained : AtEach FindsLast m.locked.trace := ho.drains.one (ho.findsLast hr)
      refine ⟨hfree, hapart, fun hrun => ?_, ?_⟩
      · have hlists : t.lists = .empty := by
          rcases hleft with hl | hstop
          · exact hl
          · exact absurd (hstop.symm.trans hrun) Bool.false_ne_true
        obtain ⟨seg, hseg, hall⟩ := htrace
        have hreads : Reads enlist (fun _ => True) m.locked.trace t.trace .empty .empty :=
          .of_grows ⟨seg, hseg, hall⟩ (fun _ _ => trivial) fun _ ho => ho.enlist
        rw [hlists]
        refine (hreads.foldl_eq ?_).symm
        rw [Machine.locked, note_trace, List.foldl_append]
        rfl
      · exact hdrained.grows htrace fun pre o ho => (ho.files true).findsLast pre

/-! ## The other steps -/

/-- **A step that adds to the lists only with a ring.** -/
structure Rings (m m' : Machine σ) : Prop where
  filed : Filed m m'
  listMutex : m'.listMutex = m.listMutex ∨ m'.listMutex = false
  stays : m'.shouldRun = true → m.shouldRun = true

theorem Rings.orderly (h : Rings m m') (ho : Orderly m) : Orderly m' := by
  refine ho.listed h.filed.lists ?_ h.stays
  rcases h.listMutex with heq | hfree
  · exact heq.trans ho.free
  · exact hfree

theorem Kept.rings (h : Kept m m') : Rings m m' := ⟨h.filed, .inl h.listMutex, h.stays⟩

theorem Quiet.rings (h : Quiet env m m') : Rings m m' := by
  have hf := h.frame
  exact ⟨hf.filed, .inl (by rw [hf.eq]), fun hr => hf.shouldRun ▸ hr⟩

theorem Broken.listMutex (h : Broken env m m') :
    m'.listMutex = m.listMutex ∨ m'.listMutex = false := by
  induction h with
  | here => exact .inl rfl
  | armed _ _ _ hw => exact .inl ((Kept.modify _ _).trans (.of_calm hw.calm)).listMutex
  | unlocked _ _ => exact .inr rfl

/-- The engine stops where an exception breaks a batch off. -/
theorem Broken.rings (hk : Kept m m₁) (h : Broken env m₁ m') (cause : Exn) :
    Rings m (m'.crashed cause) := by
  have hfiled : Filed m m' := hk.filed.trans hk.listMutex h.filed
  refine ⟨⟨?_, ?_, .inr ?_⟩, ?_, fun hr => absurd hr Bool.false_ne_true⟩
  · refine hfiled.lists.trans ?_
    exact .of_grows (Q := (·.what.unlisted)) (.one trivial) (fun _ ho => ho.files _)
      fun _ ho => ho.enlist
  · exact hfiled.count.trans (le_notified _)
  · exact notified_pos _
  · have hm := h.listMutex
    rw [hk.listMutex] at hm
    exact hm

theorem caught_ends {p : Run σ Unit} (h : Follows (Move env) (Broken env) p m) :
    Ends (caught p) (fun _ t => Rings m t) (fun _ _ => False) m := by
  unfold caught
  rw [ends_rescue]
  refine Ends.mono h (fun _ t hp => (moves_kept hp).rings) ?_
  rintro cause t ⟨u, hp, hb⟩
  refine (crash_ends cause t).mono ?_ fun _ _ hf => hf
  rintro - v rfl
  exact hb.rings (moves_kept hp) cause

theorem Between.follows {p : Run σ Unit} (h : Between env m p) :
    Follows (Move env) (Broken env) p m := by
  cases h with
  | completed c => exact follows_broken (complete_follows c m)
  | timer fault => exact follows_broken (eventTimer_follows fault m)
  | ready sock hin husb hnotice htimer =>
      exact enableRange_follows (.ready hin husb hnotice htimer)

/-- **The `read` of the eventfd** clears its counter, or fails and leaves it. -/
theorem readNotice_ret (fault : Option Errno) (m : Machine σ) :
    readNotice fault m = (.ret none, { m with noticeCount := 0 }) ∨
      ∃ errno, readNotice fault m = (.ret (some errno), m) := by
  cases fault with
  | some errno => exact .inr ⟨errno, rfl⟩
  | none =>
      by_cases hzero : m.noticeCount = 0
      · refine .inr ⟨.EWOULDBLOCK, ?_⟩
        show (if m.noticeCount = 0 then _ else _ : Run σ (Option Errno)) m = _
        rw [if_pos hzero]
        rfl
      · refine .inl ?_
        show (if m.noticeCount = 0 then _ else _ : Run σ (Option Errno)) m = _
        rw [if_neg hzero]
        rfl

theorem accepted_listed (s : ℕ) (h : m.listMutex = false) : Listed m (m.accepted s q) := by
  rw [Listed, accepted_trace, accepted_lists]
  exact .one h

/-! ## Traffic -/

section Traffic

variable {Caller : Type} {s s' : Traffic Caller σ}

/-- **The notice eventfd is the doorbell of the lists.** For an engine that
has stopped nothing waits. -/
def bell : Doorbell (Traffic Caller σ) Caller where
  waits s := s.machine.shouldRun = true ∧ s.machine.lists ≠ .empty
  rings s := s.machine.noticeCount
  about s c := s.unrung c = true
  coming s := s.attention = .noticed

/-- A step that rings for what it adds. -/
theorem Rings.bell (h : Rings s.machine s'.machine) (hcoming : s'.attention = s.attention)
    (habout : ∀ c, s.unrung c = true → s'.unrung c = true) : bell.Move s s' := by
  rcases h.filed.rung with heq | hpos
  · refine .passed (fun hc => hcoming.trans hc) ?_ h.filed.count habout
    rintro ⟨hr, hne⟩
    exact ⟨h.stays hr, heq ▸ hne⟩
  · exact .rung hpos

theorem Rings.notified : Rings m m.notified :=
  ⟨.of_unlisted rfl .refl (le_notified m), .inl rfl, id⟩

theorem Rings.stopAsked : Rings m m.stopAsked :=
  ⟨.of_unlisted rfl (.one trivial) le_rfl, .inl rfl, id⟩

theorem Rings.withWorld (w : σ) : Rings m (m.withWorld w) := (Kept.withWorld w).rings

theorem issueNotice_ends (m : Machine σ) :
    Ends (issueNotice : Run σ Unit) (fun _ t => t = m.notified) (fun _ _ => False) m := rfl

theorem Taken.quenched (h : Taken m t) : ¬ (t.shouldRun = true ∧ t.lists ≠ .empty) := by
  rintro ⟨hr, hne⟩
  cases h with
  | stopped => cases hr
  | drained _ _ _ _ hleft =>
      rcases hleft with hl | hstop
      · exact hne hl
      · exact absurd (hstop.symm.trans hr) Bool.false_ne_true

theorem Setup.rings (h : Setup env m m') : Rings m m' := ⟨h.filed, .inl h.listMutex, h.stays⟩

/-- A stream that has started is in order, and heard. -/
theorem SetUp.orderly {m₀ : Machine σ} (h : SetUp env m₀ m) (hidle : Idle m₀) :
    Orderly m ∧ bell.Heard (Traffic.opened m : Traffic Caller σ) := by
  obtain ⟨⟨b, ⟨w, now, -, rfl⟩, hp⟩, -, -⟩ := h
  refine inv_of_path (I := fun t => Orderly t ∧
    bell.Heard (Traffic.opened t : Traffic Caller σ)) (fun t u hs ht => ?_) hp ?_
  · have hmove : bell.Move (Traffic.opened t : Traffic Caller σ) (Traffic.opened u) :=
      Rings.bell hs.rings rfl fun _ hc => hc
    exact ⟨hs.rings.orderly ht.1, hmove.heard ht.2⟩
  · refine ⟨⟨hidle.listMutex, Lists.apart_empty, fun _ => ?_, ?_⟩, fun hw => absurd rfl hw.2⟩
    · show Lists.empty = (m₀.trace ++ [_]).foldl enlist .empty
      rw [hidle.trace]
      rfl
    · show AtEach FindsLast (m₀.trace ++ [_])
      rw [hidle.trace]
      refine AtEach.nil.one fun enable disable reset heq => ?_
      cases heq

variable [DecidableEq Caller]

theorem caught_readFailed (errno : Errno) (message : Errno → Message) (m : Machine σ) :
    caught (readFailed env errno message) m = readFailed env errno message m := by
  cases errno with
  | EWOULDBLOCK => rfl
  | EINTR => rfl
  | other code =>
      show rescue (error env (message (.other code))) _ m = error env (message (.other code)) m
      unfold rescue
      rw [error_eq]

/-- **`event_notice`, undisturbed, is these steps** in a row. -/
theorem eventNotice_traffic {fault : Option Errno} {unrung : Caller → Bool}
    (h : caught (eventNotice env fault []) m = (.ret (), m')) :
    ReflTransGen (TrafficMove env) ⟨m, unrung, .elsewhere⟩ ⟨m', unrung, .elsewhere⟩ := by
  unfold caught rescue eventNotice at h
  rcases readNotice_ret fault m with hread | ⟨errno, hread⟩
  · rw [Prog.bind_ret hread] at h
    exact .tail (.single (.reads fault rfl hread)) (.takes rfl h)
  · rw [Prog.bind_ret hread] at h
    exact .single (.readFails fault rfl hread ((caught_readFailed errno _ _).symm.trans h))

/-- **Every step keeps the lists in order**, and is one of the doorbell's. -/
theorem TrafficMove.keeps (h : TrafficMove env s s') (ho : Orderly s.machine) :
    Orderly s'.machine ∧ bell.Move s s' := by
  cases h with
  | accepts c r hidle hmutex hfree heq =>
      have hadmitted := ends_ret_of (accept_ends r hfree) heq
      cases hadmitted with
      | refused hq =>
          refine ⟨hq.rings.orderly ho, Rings.bell hq.rings rfl fun d hd => ?_⟩
          have hne : d ≠ c := by
            rintro rfl
            exact absurd (hidle.symm.trans hd) Bool.false_ne_true
          dsimp only
          rw [Function.update_of_ne hne]
          exact hd
      | queued hq _ hfree₁ _ =>
          refine ⟨?_, .left c (Function.update_self _ _ _)⟩
          exact (hq.rings.orderly ho).listed (accepted_listed _ hfree₁)
            (by rw [accepted_eq]; exact hfree₁) fun hr => by rwa [accepted_shouldRun] at hr
  | throws r hmutex hfree heq =>
      have hq := (ends_throw_of (accept_ends r hfree) heq).rings
      exact ⟨hq.orderly ho, hq.bell rfl fun _ hc => hc⟩
  | rings c hc heq =>
      obtain rfl := ends_ret_of (issueNotice_ends s.machine) heq
      exact ⟨Rings.notified.orderly ho, .rung (notified_pos _)⟩
  | user k =>
      have hr : Rings s.machine (s.machine.withWorld (env.user k s.machine.world)) := .withWorld _
      exact ⟨hr.orderly ho, hr.bell rfl fun _ hc => hc⟩
  -- a stop is asked for, and rung for once the mutex is let go
  | stops _ => exact ⟨Rings.stopAsked.orderly ho, Rings.stopAsked.bell rfl fun _ hc => hc⟩
  | stopRings _ heq =>
      obtain rfl := ends_ret_of (issueNotice_ends s.machine) heq
      exact ⟨Rings.notified.orderly ho, .rung (notified_pos _)⟩
  | @reads fault m _ heq =>
      rcases readNotice_ret fault s.machine with hread | ⟨errno, hread⟩
      · obtain rfl : { s.machine with noticeCount := 0 } = m :=
          congrArg Prod.snd (hread.symm.trans heq)
        exact ⟨ho.listed .refl ho.free id, .stopped rfl⟩
      · cases hread.symm.trans heq
  | @readFails fault errno m m' _ heq heq' =>
      rcases readNotice_ret fault s.machine with hread | ⟨errno', hread⟩
      · cases hread.symm.trans heq
      · obtain rfl : s.machine = m := congrArg Prod.snd (hread.symm.trans heq)
        have hp : ReflTransGen (Move env) s.machine m' :=
          ends_ret_of (Q := fun _ t => ReflTransGen (Move env) s.machine t)
            (readFailed_follows errno .eventFd s.machine) heq'
        have hr : Rings s.machine m' := (moves_kept hp).rings
        exact ⟨hr.orderly ho, hr.bell rfl fun _ hc => hc⟩
  | takes _ heq =>
      have ht := ends_ret_of (caught_takeNotice_ends ho.apart) heq
      exact ⟨ht.orderly ho, .taken ht.quenched⟩
  | works hnot hb heq =>
      have hr := ends_ret_of (caught_ends hb.follows) heq
      exact ⟨hr.orderly ho, hr.bell rfl fun _ hc => hc⟩

theorem traffic_keeps (h : ReflTransGen (TrafficMove env) s s') (ho : Orderly s.machine)
    (hb : bell.Heard s) : Orderly s'.machine ∧ bell.Heard s' := by
  induction h with
  | refl => exact ⟨ho, hb⟩
  | tail _ hs ih =>
      obtain ⟨ho', hmove⟩ := hs.keeps ih.1
      exact ⟨ho', hmove.heard ih.2⟩

/-- **No request is lost, and none goes unnoticed.** With any callers, and
their steps and the engine's in any order: no descriptor is on two lists;
every drain finds of each descriptor its last request since the drain
before, on that request's list; and wherever a running engine is outside
of `event_notice` and every accepted call has returned, what is on a list
has its notice in the eventfd. -/
theorem requests_heard {m₀ m₁ : Machine σ} {mode : Mode} (hidle : Idle m₀)
    (hstart : start env mode m₀ = (.ret (), m₁)) {s : Traffic Caller σ}
    (hrun : ReflTransGen (TrafficMove env) (.opened m₁) s) :
    (∀ fd, ¬ (fd ∈ s.machine.listEnable ∧ fd ∈ s.machine.listDisable)) ∧
      AtEach FindsLast s.machine.trace ∧
      (s.machine.shouldRun = true → s.attention = .elsewhere → (∀ c, s.unrung c = false) →
        s.machine.listEnable ≠ .empty ∨ s.machine.listDisable ≠ .empty ∨
          s.machine.listReset ≠ .empty → 0 < s.machine.noticeCount) := by
  have hopened : Orderly m₁ ∧ bell.Heard (Traffic.opened m₁ : Traffic Caller σ) :=
    (ends_ret_of (start_ends hidle mode) hstart).orderly hidle
  obtain ⟨ho, hb⟩ := hopened
  obtain ⟨ho', hb'⟩ := traffic_keeps hrun ho hb
  refine ⟨fun fd hfd => ho'.apart fd hfd.1 hfd.2, ho'.drains, fun hr hatt hunrung hlists => ?_⟩
  refine hb'.rings (fun hc => ?_) (fun c hc => ?_) ⟨hr, fun hempty => ?_⟩
  · have hc : s.attention = .noticed := hc
    rw [hatt] at hc
    cases hc
  · exact absurd ((hunrung c).symm.trans hc) Bool.false_ne_true
  · have h₁ : s.machine.listEnable = .empty := congrArg Lists.enable hempty
    have h₂ : s.machine.listDisable = .empty := congrArg Lists.disable hempty
    have h₃ : s.machine.listReset = .empty := congrArg Lists.reset hempty
    rcases hlists with h | h | h
    · exact h h₁
    · exact h h₂
    · exact h h₃

/-- A stream whose reading is switched on, and off again when that is
done. -/
theorem requests_heard_sample : ∃ s : Traffic Bool ℕ,
    ReflTransGen (TrafficMove steady) (.opened
      (start steady .poll (constructed [sampleStream 64 1 0] ⟨64, 4096⟩ 4)).2) s ∧
      (⟨true, .drained [100] [] []⟩ ∈ s.machine.trace ∧ AtEach FindsLast s.machine.trace) ∧
      s.machine.listDisable ≠ .empty ∧ 0 < s.machine.noticeCount := by
  have hidle : Idle (constructed [sampleStream 64 1 0] ⟨64, 4096⟩ 4) :=
    constructed_idle (by decide +kernel)
  have hret : ∀ {α : Type} {p : Run ℕ α} {a : α} {m : Machine ℕ}, (p m).1 = .ret a →
      p m = (.ret a, (p m).2) := fun h => Prod.ext h rfl
  have hrun : ReflTransGen (TrafficMove steady) (.opened
      (start steady .poll (constructed [sampleStream 64 1 0] ⟨64, 4096⟩ 4)).2 : Traffic Bool ℕ) _ :=
    .tail (.tail (.tail (.tail (.tail (.tail .refl
      (.accepts true (.enable 0) rfl (by decide +kernel) (by decide +kernel)
        (hret (a := true) (by decide +kernel))))
      (.rings true rfl (hret rfl)))
      (.reads none rfl (hret (by decide +kernel))))
      (.takes rfl (hret (by decide +kernel))))
      (.accepts false (.disable 0) rfl (by decide +kernel) (by decide +kernel)
        (hret (a := true) (by decide +kernel))))
      (.rings false rfl (hret rfl))
  have hstart : start steady .poll (constructed [sampleStream 64 1 0] ⟨64, 4096⟩ 4) = _ :=
    hret (a := ()) (by decide +kernel)
  obtain ⟨-, hdrains, hheard⟩ := requests_heard hidle hstart hrun
  refine ⟨_, hrun, ⟨by decide +kernel, hdrains⟩, by decide +kernel, ?_⟩
  exact hheard (by decide +kernel) rfl (by decide) (.inr (.inl (by decide +kernel)))

end Traffic

end Stream

end SgFtdi
