import SgFtdi.Stream.Moves.Flight

/-!
# Stream — why a transfer is switched on

A transfer that is off goes on for one of two reasons: its descriptor is
on `list_enable` while the engine drains it, or the descriptor has become
ready. Both can be traced back. What is on a list was asked for by a
request on the record, and what can become ready is one of the engine's
own descriptors or was registered for a write transfer.
-/

namespace SgFtdi

namespace Stream

open Prog Relation

variable {σ : Type} {env : Env σ} {m m' m₁ m₂ : Machine σ} {i : ℕ} {fd : ℤ}
variable {e e' : FtdiStreamStaticState}

/-! ## The record since a state -/

/-- What was recorded from one state to another. -/
def since (m m' : Machine σ) : List Seen := m'.trace.drop m.trace.length

theorem since_eq {seg : List Seen} (h : m'.trace = m.trace ++ seg) : since m m' = seg := by
  rw [since, h, List.drop_left]

/-- What was recorded since then was recorded since before. -/
theorem since_subset (h : m.trace <+: m₁.trace) : since m₁ m' ⊆ since m m' :=
  List.drop_subset_drop_left m'.trace h.length_le

theorem since_mono {o : Seen} (h : m.trace <+: m₁.trace) (h' : m₁.trace <+: m'.trace)
    (ho : o ∈ since m m₁) : o ∈ since m m' := by
  obtain ⟨seg, hseg⟩ := h
  obtain ⟨rest, hrest⟩ := h'
  rw [since_eq hseg.symm] at ho
  have hsince : since m m' = seg ++ rest :=
    since_eq (by rw [← List.append_assoc, hseg, hrest])
  rw [hsince]
  exact List.mem_append_left _ ho

theorem Step.trace_grows (h : Step env m m') : m.trace <+: m'.trace := h.tracks.grows.isPrefix

theorem steps_trace_grows (h : ReflTransGen (Step env) m m') : m.trace <+: m'.trace := by
  induction h with
  | refl => exact List.prefix_refl _
  | tail _ hs ih => exact ih.trans hs.trace_grows

/-! ## Switching on -/

theorem rel_of_entryAt {R : FtdiStreamStaticState → FtdiStreamStaticState → Prop}
    (h : Option.Rel R (m.entryAt i) (m'.entryAt i)) (he : m.entryAt i = some e)
    (he' : m'.entryAt i = some e') : R e e' := by
  rw [he, he'] at h
  cases h with
  | some hr => exact hr

/-- A completion switches nothing on. -/
theorem Completed.off {c : Completion} (h : Completed env c m m') (he : m.entryAt i = some e)
    (he' : m'.entryAt i = some e') (hoff : e.enabled = false) : e'.enabled = false := by
  obtain ⟨e₀, he₀, hothers, e₁, he₁, hh⟩ : ∃ e₀, m.entryAt c.transfer = some e₀ ∧
      Others c.transfer m m' ∧ ∃ e₁, m'.entryAt c.transfer = some e₁ ∧
        Handled (m.landed e₀ c) m' (e₀.back c) e₁ := by
    cases h with
    | @read e₀ _ he₀ _ _ hb =>
        obtain ⟨e₁, he₁, -, hh⟩ := hb.entry (landed_entryAt he₀)
        exact ⟨e₀, he₀, (landed_others m e₀ c).trans hb.others, e₁, he₁, hh⟩
    | @write e₀ _ he₀ _ hr hb =>
        obtain ⟨e₁, he₁, -, hh⟩ := hb.entry (landed_entryAt he₀) hr
        exact ⟨e₀, he₀, (landed_others m e₀ c).trans (hb.others (landed_entryAt he₀)), e₁, he₁, hh⟩
  by_cases hi : c.transfer = i
  · subst hi
    rw [he, Option.some_inj] at he₀
    rw [he', Option.some_inj] at he₁
    subst he₀ he₁
    cases hh with
    | off _ _ heq => exact heq ▸ hoff
    | switchedOff h₁ _ _ => exact h₁
    | again _ _ hen _ _ => exact absurd (hoff.symm.trans hen) Bool.false_ne_true
  · exact (rel_of_entryAt (hothers i hi) he he').enabled.trans hoff

/-- What an entry that changes only in passing is. -/
theorem not_on (h : Option.Rel Alike (m.entryAt i) (m'.entryAt i)) (he : m.entryAt i = some e)
    (he' : m'.entryAt i = some e') (hoff : e.enabled = false) : e'.enabled ≠ true := by
  rw [(rel_of_entryAt h he he').enabled, hoff]
  exact Bool.false_ne_true

/-- **A move that switches a transfer on** has its reason. -/
theorem Move.why (h : Move env m m') (he : m.entryAt i = some e) (he' : m'.entryAt i = some e')
    (hoff : e.enabled = false) (hon : e'.enabled = true) : WhyOn m e.eventfd := by
  cases h with
  | chore hc => exact absurd hon (not_on (hc.calm.entries i) he he' hoff)
  | errored message =>
      rw [errored_entryAt, he, Option.some_inj] at he'
      exact absurd (hoff.symm.trans (he' ▸ hon)) Bool.false_ne_true
  | pollfds fds => exact absurd hon (not_on (Calm.of_entries rfl i) he he' hoff)
  | completed hc =>
      rw [Machine.boundary, note_entryAt] at he'
      exact absurd ((hc.off he he' hoff).symm.trans hon) Bool.false_ne_true
  | @armed j e₁ _ he₁ _ hwhy hs =>
      by_cases hj : j = i
      · subst hj
        rw [he, Option.some_inj] at he₁
        exact he₁ ▸ hwhy
      · have hothers := (Others.modify j m (.setEnabled true)).trans hs.others
        rw [(rel_of_entryAt (hothers i hj) he he').enabled, hoff] at hon
        cases hon
  | @cancelled j e₁ he₁ hen _ =>
      rw [entryAt_modifyEntry, note_entryAt, he] at he'
      split at he'
      · rw [Option.map_some, Option.some_inj] at he'
        subst he'
        exact absurd (hoff.symm.trans hon) Bool.false_ne_true
      · rw [Option.some_inj] at he'
        exact absurd (hoff.symm.trans (he' ▸ hon)) Bool.false_ne_true

theorem Broken.why (h : Broken env m m') (he : m.entryAt i = some e)
    (he' : m'.entryAt i = some e') (hoff : e.enabled = false) (hon : e'.enabled = true) :
    WhyOn m e.eventfd := by
  induction h with
  | here => exact absurd hon (not_on (Calm.of_entries rfl i) he he' hoff)
  | @armed j e₁ _ he₁ _ hwhy hw =>
      by_cases hj : j = i
      · subst hj
        rw [he, Option.some_inj] at he₁
        exact he₁ ▸ hwhy
      · have hothers := (Others.modify j m (.setEnabled true)).trans (Others.of_work hw)
        rw [(rel_of_entryAt (hothers i hj) he he').enabled, hoff] at hon
        cases hon
  | unlocked _ ih => exact ih he'

/-- **A step that switches a transfer on** has its reason. -/
theorem Step.why (h : Step env m m') (he : m.entryAt i = some e) (he' : m'.entryAt i = some e')
    (hoff : e.enabled = false) (hon : e'.enabled = true) : WhyOn m e.eventfd := by
  have hsame : m'.streamstates = m.streamstates → WhyOn m e.eventfd := fun hs =>
    absurd hon (not_on (Calm.of_entries hs i) he he' hoff)
  cases h with
  | handling hh =>
      cases hh with
      | draining hd =>
          cases hd with
          | move hm => exact hm.why he he' hoff hon
          | cleared _ hc => cases hc <;> exact hsame rfl
      | accepted _ _ _ => exact hsame (accepted_streamstates m _ _)
      | _ => exact hsame rfl
  | crashed cause hb => exact hb.why he he' hoff hon
  | _ => exact hsame rfl

/-! ## What is on the lists was asked for -/

/-- A request stands on its list. -/
def Lists.Holds (l : Lists) : Queued → Prop
  | .enable fd => fd ∈ l.enable
  | .disable fd => fd ∈ l.disable
  | .reset s => s ∈ l.reset

theorem Lists.not_holds_empty (q : Queued) : ¬ Lists.empty.Holds q := by
  cases q <;> exact Unordered.not_mem_empty

theorem Lists.holds_queue {l : Lists} {q q' : Queued} (h : (l.queue q').Holds q) :
    l.Holds q ∨ q = q' := by
  cases q <;> cases q' <;>
    simp only [Lists.Holds, Lists.queue, Unordered.mem_insert, Unordered.mem_erase,
      Queued.enable.injEq, Queued.disable.injEq, Queued.reset.injEq] at h ⊢ <;> tauto

/-- A request on the lists was there before, or is on the record. -/
theorem Lists.holds_foldl {q : Queued} : ∀ {seg : List Seen} {l : Lists},
    (seg.foldl enlist l).Holds q → l.Holds q ∨ ∃ o ∈ seg, ∃ s, o.what = .asked s q
  | [], _, h => .inl h
  | o :: seg, l, h => by
      rcases @holds_foldl q seg _ h with h | ⟨o', ho', h⟩
      · obtain ⟨run, o⟩ := o
        cases o with
        | asked s q' =>
            rcases Lists.holds_queue h with h | rfl
            · exact .inl h
            · exact .inr ⟨_, List.mem_cons_self, s, rfl⟩
        | drained _ _ _ => exact absurd h (Lists.not_holds_empty q)
        | _ => exact .inl h
      · exact .inr ⟨o', List.mem_cons_of_mem _ ho', h⟩

variable {q : Queued}

/-- **A request that is filed** is on the record. -/
theorem Filed.asked (h : Filed m m') (hq : m'.lists.Holds q) :
    m.lists.Holds q ∨ ∃ o ∈ since m m', ∃ s, o.what = .asked s q := by
  obtain ⟨seg, hseg, -, hl⟩ := h.lists
  rw [since_eq hseg]
  exact Lists.holds_foldl (hl ▸ hq)

theorem Cleared.holds (h : Cleared m m') (hq : m'.lists.Holds q) : m.lists.Holds q := by
  cases h <;> cases q <;> first | exact hq | exact absurd hq Unordered.not_mem_empty

theorem Broken.filed (h : Broken env m m') : Filed m m' := by
  induction h with
  | here => exact .refl
  | armed _ _ _ hw => exact ((Kept.modify _ _).trans (.of_calm hw.calm)).filed
  | unlocked _ ih => exact ⟨ih.lists, ih.count, ih.rung⟩

/-- **What a step leaves on the lists** was there before, or asked for by a
request on the record. -/
theorem Step.asked (h : Step env m m') (hq : m'.lists.Holds q) :
    m.lists.Holds q ∨ ∃ o ∈ since m m', ∃ s, o.what = .asked s q := by
  cases h with
  | handling hh =>
      cases hh with
      | draining hd =>
          cases hd with
          | move hm => exact hm.kept.filed.asked hq
          | cleared _ hc => exact .inl (hc.holds hq)
      | @accepted s q' _ _ _ =>
          rw [since_eq (accepted_trace m s q')]
          rw [accepted_lists] at hq
          rcases Lists.holds_queue hq with hq | rfl
          · exact .inl hq
          · exact .inr ⟨_, List.mem_singleton.mpr rfl, s, rfl⟩
      | _ => exact .inl hq
  | crashed cause hb =>
      rcases hb.filed.asked hq with hq | ⟨o, ho, hs⟩
      · exact .inl hq
      · exact .inr ⟨o, since_mono hb.tracks.grows.isPrefix (List.prefix_append _ _) ho, hs⟩
  | _ => exact .inl hq

theorem Watched.filed {sock : ℤ} (h : Watched env sock m m') : Filed m m' := by
  cases h with
  | added w _ => exact .of_eq rfl rfl rfl
  | failed w cause _ =>
      have herrored : ∀ message, Kept (m.withWorld w) ((m.withWorld w).errored env message) :=
        fun message => .errored message
      exact ((Kept.withWorld w).trans (herrored _)).filed

theorem Ready.filed {stream : FtdiStreamEntry} (h : Ready env i stream m m₁) : Filed m m₁ := by
  cases h with
  | reading _ _ _ => exact .of_eq rfl rfl rfl
  | @writing _ w _ _ _ _ hw =>
      have hfilled : Filed m (m.filled i stream w) := .of_eq rfl rfl rfl
      exact hfilled.trans rfl hw.filed

theorem Watched.listMutex {sock : ℤ} (h : Watched env sock m m') :
    m'.listMutex = m.listMutex := by
  cases h with
  | added _ _ => rfl
  | failed _ _ _ =>
      have herrored : ∀ m message, Kept m (Machine.errored env m message) :=
        fun m message => .errored message
      exact (herrored _ _).listMutex

theorem Ready.listMutex {stream : FtdiStreamEntry} (h : Ready env i stream m m₁) :
    m₁.listMutex = m.listMutex := by
  cases h with
  | reading _ _ _ => rfl
  | writing _ _ _ hw => exact hw.listMutex

/-- **So is what a set-up leaves on the lists.** -/
theorem Setup.filed (h : Setup env m m') : Filed m m' := by
  cases h with
  | created hc =>
      cases hc with
      | @mk fd m₁ _ _ _ _ hr hsub =>
          have he : ∀ e, Filed m (m.emplaced e) := fun _ => .of_eq rfl rfl rfl
          exact ((he _).trans rfl hr.filed).trans hr.listMutex hsub.kept_frame.filed
  | opening ho =>
      cases ho with
      | move hm => exact hm.kept.filed
      | watched _ hw => exact hw.filed
      | noted fd => exact .note trivial
      | _ => exact .of_eq rfl rfl rfl

theorem Setup.listMutex (h : Setup env m m') : m'.listMutex = m.listMutex := by
  cases h with
  | created hc =>
      cases hc with
      | mk _ _ _ hr hsub => exact hsub.kept_frame.listMutex.trans hr.listMutex
  | opening ho =>
      cases ho with
      | move hm => exact hm.kept.listMutex
      | watched _ hw => exact hw.listMutex
      | _ => rfl

/-- **Whatever is on a list** was asked for in the session. -/
theorem Reached.asked {m₀ : Machine σ} (h : Reached env m₀ m) (hq : m.lists.Holds q) :
    ∃ o ∈ m.trace, ∃ s, o.what = .asked s q := by
  obtain ⟨m₁, ⟨⟨b, hb, hp⟩, -, -⟩, hp'⟩ := h
  have hall : ∀ {t u : Machine σ}, Grows (fun _ => True) t.trace u.trace →
      (u.lists.Holds q → t.lists.Holds q ∨ ∃ o ∈ since t u, ∃ s, o.what = .asked s q) →
      (t.lists.Holds q → ∃ o ∈ t.trace, ∃ s, o.what = .asked s q) →
      u.lists.Holds q → ∃ o ∈ u.trace, ∃ s, o.what = .asked s q := by
    intro t u hg hstep ht hu
    rcases hstep hu with hold | ⟨o, ho, hs⟩
    · obtain ⟨o, ho, hs⟩ := ht hold
      exact ⟨o, hg.mem ho, hs⟩
    · exact ⟨o, List.mem_of_mem_drop ho, hs⟩
  have hbegun : b.lists.Holds q → ∃ o ∈ b.trace, ∃ s, o.what = .asked s q := by
    obtain ⟨w, now, -, rfl⟩ := hb
    exact fun hq => absurd hq (Lists.not_holds_empty q)
  refine inv_of_path (I := fun t => t.lists.Holds q → ∃ o ∈ t.trace, ∃ s, o.what = .asked s q)
    (fun t u hs => hall (hs.tracks.grows.mono fun _ _ => trivial) hs.asked) hp' ?_ hq
  exact inv_of_path (I := fun t => t.lists.Holds q → ∃ o ∈ t.trace, ∃ s, o.what = .asked s q)
    (fun t u hs => hall (hs.tracks.grows.mono fun _ _ => trivial) hs.filed.asked) hp hbegun

/-! ## What is registered -/

/-- **What can become ready**: the engine's own descriptors, and those of
its write transfers. -/
def Machine.Watching (m : Machine σ) : Prop :=
  ∀ sock ∈ m.epollSet, sock = m.usbEpollFd ∨ sock = m.noticeEventFd ∨ sock = m.timerFd ∨
    ∃ i e, m.entryAt i = some e ∧ e.isReading = false ∧ e.eventfd = sock

theorem Machine.Watching.lives (h : m.Watching) (hl : AllLive m m') (hf : Fixed m m') :
    m'.Watching := by
  intro sock hsock
  rw [hf.usbEpollFd, hf.noticeEventFd, hf.timerFd]
  rcases h sock (hf.epollSet ▸ hsock) with h | h | h | ⟨j, e, he, hw, hfd⟩
  · exact .inl h
  · exact .inr (.inl h)
  · exact .inr (.inr (.inl h))
  · obtain ⟨e', he', hlv⟩ := hl.entry he
    exact .inr (.inr (.inr ⟨j, e', he', hlv.same.isReading.trans hw, hlv.same.eventfd.trans hfd⟩))

theorem Step.watching (h : Step env m m') (hw : m.Watching) : m'.Watching :=
  hw.lives h.lives h.fixed

theorem Watched.epollSet {sock : ℤ} (h : Watched env sock m m') :
    m'.usbEpollFd = m.usbEpollFd ∧ m'.noticeEventFd = m.noticeEventFd ∧ m'.timerFd = m.timerFd ∧
      ∀ s ∈ m'.epollSet, s = sock ∨ s ∈ m.epollSet := by
  cases h with
  | added w _ => exact ⟨rfl, rfl, rfl, fun s hs => List.mem_insert_iff.mp hs⟩
  | failed w cause _ =>
      have hk : Kept (m.withWorld w) ((m.withWorld w).errored env (.addToEpoll cause)) :=
        .errored _
      exact ⟨hk.usbEpollFd, hk.noticeEventFd, hk.timerFd, fun s hs => .inr (hk.epollSet ▸ hs)⟩

/-- A new entry's descriptor is registered where it is for writing. -/
theorem Ready.epollSet {stream : FtdiStreamEntry} (h : Ready env i stream m m₁) :
    m₁.usbEpollFd = m.usbEpollFd ∧ m₁.noticeEventFd = m.noticeEventFd ∧ m₁.timerFd = m.timerFd ∧
      ∀ s ∈ m₁.epollSet, s ∈ m.epollSet ∨
        ∃ e, m.entryAt i = some e ∧ e.isReading = false ∧ e.eventfd = s := by
  cases h with
  | reading _ _ _ => exact ⟨rfl, rfl, rfl, fun s hs => .inl hs⟩
  | @writing e w _ he hr _ hw =>
      obtain ⟨h₁, h₂, h₃, h₄⟩ := hw.epollSet
      refine ⟨h₁, h₂, h₃, fun s hs => ?_⟩
      rcases h₄ s hs with rfl | hs
      · exact .inr ⟨e, he, hr, rfl⟩
      · exact .inl hs

theorem Created.watching {s t : ℕ} {stream : FtdiStreamEntry} {isReading : Bool}
    (h : Created env s t stream isReading m m') (hw : m.Watching) : m'.Watching := by
  have hothers := h.entries.1
  cases h with
  | @mk fd m₁ _ _ hm _ hr hsub =>
      obtain ⟨h₁, h₂, h₃, h₄⟩ := hr.epollSet
      have hk := hsub.kept_frame
      intro sock hsock
      rw [hk.usbEpollFd, hk.noticeEventFd, hk.timerFd, h₁, h₂, h₃]
      rcases h₄ sock (hk.epollSet ▸ hsock) with hs | ⟨e, he, hwr, hfd⟩
      · rcases hw sock hs with h | h | h | ⟨j, e, he, hwr, hfd⟩
        · exact .inl h
        · exact .inr (.inl h)
        · exact .inr (.inr (.inl h))
        · have hj : m.entries.length ≠ j := fun hj => by
            have := (List.getElem?_eq_some_iff.mp he).1
            omega
          have hrel := hothers j hj
          rw [he] at hrel
          generalize he' : m'.entryAt j = x at hrel
          cases hrel with
          | some ha =>
              exact .inr (.inr (.inr ⟨j, _, he', ha.isReading.trans hwr, ha.eventfd.trans hfd⟩))
      · rw [emplaced_entryAt hm, Option.some_inj] at he
        obtain ⟨e₁, he₁, hwr₁, hfd₁⟩ : ∃ e₁, m₁.entryAt m.entries.length = some e₁ ∧
            e₁.isReading = false ∧ e₁.eventfd = sock := by
          rw [hr.entryAt, if_pos rfl, emplaced_entryAt hm, he]
          exact ⟨_, rfl, (fill_isReading _ _ e).trans hwr, (fill_eventfd _ _ e).trans hfd⟩
        obtain ⟨e', he', hsame, -⟩ := hsub.entry he₁
        exact .inr (.inr (.inr ⟨_, e', he', hsame.isReading.trans hwr₁, hsame.eventfd.trans hfd₁⟩))

theorem Setup.watching (h : Setup env m m') (hw : m.Watching) : m'.Watching := by
  cases h with
  | created hc => exact hc.watching hw
  | opening ho =>
      cases ho with
      | move hm => exact hw.lives hm.lives hm.kept.fixed
      | opened fd => exact fun sock hsock => absurd hsock List.not_mem_nil
      | openedUsb fd hset => exact fun sock hsock => by simp [hset] at hsock
      | noted fd => exact hw
      | openedTimer fd hset =>
          intro sock hsock
          rcases hset sock hsock with h | h
          · exact .inl h
          · exact .inr (.inl h)
      | @watched sock _ hsock hwd =>
          obtain ⟨h₁, h₂, h₃, h₄⟩ := hwd.epollSet
          intro s hs
          rw [h₁, h₂, h₃]
          rcases h₄ s hs with rfl | hs
          · rcases hsock with h | h | h
            · exact .inl h
            · exact .inr (.inl h)
            · exact .inr (.inr (.inl h))
          · rcases hw s hs with h | h | h | ⟨j, e, he, hwr, hfd⟩
            · exact .inl h
            · exact .inr (.inl h)
            · exact .inr (.inr (.inl h))
            · exact .inr (.inr (.inr ⟨j, e, (hwd.entryAt j).trans he, hwr, hfd⟩))
      | flagged _ _ _ _ _ _ _ => exact hw

theorem Begun.watching {m₀ b : Machine σ} (h : Begun env m₀ b) : b.Watching := by
  obtain ⟨w, now, -, rfl⟩ := h
  exact fun sock hsock => absurd hsock List.not_mem_nil

/-- **Wherever the engine is**, it watches its own descriptors and those of
its write transfers. -/
theorem Reached.watching {m₀ : Machine σ} (h : Reached env m₀ m) : m.Watching := by
  exact h.inv (fun _ hb => hb.watching) (fun _ _ hs => hs.watching) fun _ _ hs => hs.watching

end Stream

end SgFtdi
