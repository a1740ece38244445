import SgFtdi.Common.Trail
import SgFtdi.Stream.Model.UsbContext
import SgFtdi.Stream.Moves.Setup

/-!
# Stream — watching libusb's descriptors

The notifiers belong to the context and not to the stream, and they are
installed after libusb was asked for its descriptors. A change is lost on
a stream that has started where another stream has installed or cleared
the notifiers since, and on one that starts between its question and its
installation. `watching_exact` says that nothing else is lost.
-/

namespace SgFtdi

namespace Stream

open Prog

/-- **Every stream that is started watches what libusb polls on.** -/
def UsbContext.Followed (c : UsbContext) : Prop :=
  ∀ i, (c.stream i).registration = .installed → (c.stream i).usbEpoll = c.pollfds

/-- **A move loses a change**: libusb's descriptors change while the
notifiers of a started stream are not the installed ones, or a stream
installs its own when the descriptors are no longer what it was
answered. -/
def Loses (_ : Option ℕ) (c c' : UsbContext) : Prop :=
  (c'.pollfds ≠ c.pollfds ∧
      ∃ i, (c.stream i).registration = .installed ∧ c.notified ≠ some i) ∨
    ∃ i answer, (c.stream i).registration = .answered answer [] ∧
      (c'.stream i).registration = .installed ∧ answer.toFinset ≠ c.pollfds

/-- What every move keeps: the notifiers are those of a started stream, and
what is registered and what is yet to register are what was answered. -/
structure UsbContext.Ordered (c : UsbContext) : Prop where
  notified : ∀ i, c.notified = some i → (c.stream i).registration = .installed
  answered : ∀ i answer rest, (c.stream i).registration = .answered answer rest →
    (c.stream i).usbEpoll ∪ rest.toFinset = answer.toFinset

variable {c c' : UsbContext} {i j : ℕ} {who : Option ℕ} {run : List (Option ℕ × UsbContext)}

@[simp] theorem put_stream_self (c : UsbContext) (i : ℕ) (w : Watcher) :
    (c.put i w).stream i = w := by
  unfold UsbContext.put
  exact Function.update_self i w c.stream

theorem put_stream_ne (c : UsbContext) (w : Watcher) (h : j ≠ i) :
    (c.put i w).stream j = c.stream j := by
  unfold UsbContext.put
  exact Function.update_of_ne h w c.stream

@[simp] theorem put_pollfds (c : UsbContext) (i : ℕ) (w : Watcher) :
    (c.put i w).pollfds = c.pollfds := rfl

@[simp] theorem put_notified (c : UsbContext) (i : ℕ) (w : Watcher) :
    (c.put i w).notified = c.notified := rfl

@[simp] theorem setPollfdNotifiers_stream (c : UsbContext) (userData : Option ℕ) :
    (c.setPollfdNotifiers userData).stream = c.stream := rfl

@[simp] theorem setPollfdNotifiers_pollfds (c : UsbContext) (userData : Option ℕ) :
    (c.setPollfdNotifiers userData).pollfds = c.pollfds := rfl

@[simp] theorem change_registration (c : UsbContext) (f : Finset ℤ → Finset ℤ) (i : ℕ) :
    ((c.change f).stream i).registration = (c.stream i).registration := by
  unfold UsbContext.change
  dsimp only
  split <;> rfl

theorem change_usbEpoll (c : UsbContext) (f : Finset ℤ → Finset ℤ) (h : c.notified = some i) :
    ((c.change f).stream i).usbEpoll = f (c.stream i).usbEpoll := by
  unfold UsbContext.change
  dsimp only
  rw [if_pos h]

theorem change_stream_ne (c : UsbContext) (f : Finset ℤ → Finset ℤ) (h : c.notified ≠ some i) :
    (c.change f).stream i = c.stream i := by
  unfold UsbContext.change
  dsimp only
  rw [if_neg h]

/-! ## What every move keeps -/

theorem UsbContext.Ordered.change (h : c.Ordered) (f : Finset ℤ → Finset ℤ) :
    (c.change f).Ordered := by
  refine ⟨fun i hi => ?_, fun i answer rest hi => ?_⟩
  · rw [change_registration]
    exact h.notified i hi
  · rw [change_registration] at hi
    have hne : c.notified ≠ some i := by
      intro howner
      rw [h.notified i howner] at hi
      cases hi
    rw [change_stream_ne c f hne]
    exact h.answered i answer rest hi

/-- A stream goes on, and somebody is notified from here on. -/
theorem UsbContext.Ordered.put {w : Watcher} {userData : Option ℕ} (h : c.Ordered)
    (hw : ∀ answer rest, w.registration = .answered answer rest →
      w.usbEpoll ∪ rest.toFinset = answer.toFinset)
    (hn : ∀ j, userData = some j → ((c.put i w).stream j).registration = .installed) :
    ((c.put i w).setPollfdNotifiers userData).Ordered := by
  refine ⟨hn, fun j answer rest hj => ?_⟩
  rw [setPollfdNotifiers_stream] at hj ⊢
  by_cases hji : j = i
  · subst hji
    rw [put_stream_self] at hj ⊢
    exact hw answer rest hj
  · rw [put_stream_ne c w hji] at hj ⊢
    exact h.answered j answer rest hj

/-- A stream that is not started goes on, and the notifiers stay. -/
theorem UsbContext.Ordered.goOn {w : Watcher} (h : c.Ordered)
    (hi : (c.stream i).registration ≠ .installed)
    (hw : ∀ answer rest, w.registration = .answered answer rest →
      w.usbEpoll ∪ rest.toFinset = answer.toFinset) : (c.put i w).Ordered := by
  have hstay : ((c.put i w).setPollfdNotifiers c.notified).Ordered := by
    refine h.put hw fun j hj => ?_
    have hinst := h.notified j hj
    have hji : j ≠ i := by
      rintro rfl
      exact hi hinst
    rw [put_stream_ne c w hji]
    exact hinst
  exact hstay

theorem UsbContext.Ordered.move (h : c.Ordered) (hm : ContextMove who c c') : c'.Ordered := by
  cases hm with
  | added _ => exact h.change _
  | removed _ => exact h.change _
  | @answered c i answer hoff hanswer =>
      refine h.goOn (by rw [hoff]; nofun) fun answer' rest hw => ?_
      cases hw
      exact Finset.empty_union _
  | @registered c i answer rest fd hreg =>
      refine h.goOn (by rw [hreg]; nofun) fun answer' rest' hw => ?_
      cases hw
      rw [← h.answered i answer (fd :: rest) hreg, List.toFinset_cons, Finset.insert_union,
        Finset.union_insert]
  | @installed c i answer hreg =>
      refine h.put (fun _ _ hw => by cases hw) fun j hj => ?_
      cases hj
      rw [put_stream_self]
  | cleaned _ => exact h.put (fun _ _ hw => by cases hw) fun _ hj => by cases hj
  | destroyed _ => exact h.put (fun _ _ hw => by cases hw) fun _ hj => by cases hj

/-! ## What one move does -/

/-- A change reaches every started stream exactly where none of them has
notifiers other than the installed ones. -/
theorem followed_change_iff (hc : c.Followed) (f : Finset ℤ → Finset ℤ)
    (hf : f c.pollfds ≠ c.pollfds) :
    (c.change f).Followed ↔
      ∀ i, (c.stream i).registration = .installed → c.notified = some i := by
  constructor
  · intro hfollowed i hi
    by_contra hne
    have hsame := hfollowed i (by rw [change_registration]; exact hi)
    rw [change_stream_ne c f hne, hc i hi] at hsame
    exact hf hsame.symm
  · intro hall i hi
    rw [change_registration] at hi
    rw [change_usbEpoll c f (hall i hi), hc i hi]
    rfl

/-- Where a stream that goes on is not started the others decide. -/
theorem followed_put {w : Watcher} (hc : c.Followed) (userData : Option ℕ)
    (hw : w.registration = .installed → w.usbEpoll = c.pollfds) :
    ((c.put i w).setPollfdNotifiers userData).Followed := by
  intro j hj
  rw [setPollfdNotifiers_stream] at hj ⊢
  by_cases hji : j = i
  · subst hji
    rw [put_stream_self] at hj ⊢
    exact hw hj
  · rw [put_stream_ne c w hji] at hj ⊢
    exact hc j hj

theorem not_loses_change (f : Finset ℤ → Finset ℤ) (hf : f c.pollfds ≠ c.pollfds) :
    ¬ Loses none c (c.change f) ↔
      ∀ i, (c.stream i).registration = .installed → c.notified = some i := by
  constructor
  · intro hkeeps i hi
    by_contra hne
    exact hkeeps (.inl ⟨hf, i, hi, hne⟩)
  · rintro hall (⟨-, i, hi, hne⟩ | ⟨i, answer, hans, hinst, -⟩)
    · exact hne (hall i hi)
    · rw [change_registration, hans] at hinst
      cases hinst

/-- A stream that does not install its notifiers loses nothing. -/
theorem not_loses_put {w : Watcher} {userData : Option ℕ} (hw : w.registration ≠ .installed) :
    ¬ Loses who c ((c.put i w).setPollfdNotifiers userData) := by
  rintro (⟨hne, -⟩ | ⟨j, answer, hans, hinst, -⟩)
  · exact hne rfl
  · rw [setPollfdNotifiers_stream] at hinst
    by_cases hji : j = i
    · subst hji
      rw [put_stream_self] at hinst
      exact hw hinst
    · rw [put_stream_ne c w hji, hans] at hinst
      cases hinst

/-- `libusb_set_pollfd_notifiers` in `process_init`. -/
def UsbContext.install (c : UsbContext) (i : ℕ) : UsbContext :=
  (c.put i { c.stream i with registration := .installed }).setPollfdNotifiers (some i)

theorem followed_install_iff {answer : List ℤ} (ho : c.Ordered) (hc : c.Followed)
    (hreg : (c.stream i).registration = .answered answer []) :
    (c.install i).Followed ↔ answer.toFinset = c.pollfds := by
  have hepoll : (c.stream i).usbEpoll = answer.toFinset := by
    rw [← ho.answered i answer [] hreg]
    exact (Finset.union_empty _).symm
  unfold UsbContext.install
  constructor
  · intro hfollowed
    have hnow := hfollowed i (by rw [setPollfdNotifiers_stream, put_stream_self])
    rw [setPollfdNotifiers_stream, put_stream_self] at hnow
    exact hepoll.symm.trans hnow
  · intro hsame
    exact followed_put hc _ fun _ => hepoll.trans hsame

theorem not_loses_install {answer : List ℤ}
    (hreg : (c.stream i).registration = .answered answer []) :
    ¬ Loses who c (c.install i) ↔ answer.toFinset = c.pollfds := by
  unfold UsbContext.install
  constructor
  · intro hkeeps
    by_contra hne
    refine hkeeps (.inr ⟨i, answer, hreg, ?_, hne⟩)
    rw [setPollfdNotifiers_stream, put_stream_self]
  · rintro hsame (⟨hne, -⟩ | ⟨j, answer', hans, hinst, hne⟩)
    · exact hne rfl
    · rw [setPollfdNotifiers_stream] at hinst
      by_cases hji : j = i
      · subst hji
        rw [hreg] at hans
        cases hans
        exact hne hsame
      · rw [put_stream_ne c _ hji, hans] at hinst
        cases hinst

/-- **One move**: where every started stream has followed libusb so far,
it does so after the move exactly where the move loses nothing. -/
theorem ContextMove.followed_iff (hm : ContextMove who c c') (ho : c.Ordered) (hc : c.Followed) :
    c'.Followed ↔ ¬ Loses who c c' := by
  cases hm with
  | @added c fd hfd =>
      have hne : insert fd c.pollfds ≠ c.pollfds := by
        intro heq
        exact hfd (heq ▸ Finset.mem_insert_self fd c.pollfds)
      rw [followed_change_iff hc _ hne, not_loses_change _ hne]
  | @removed c fd hfd =>
      have hne : c.pollfds.erase fd ≠ c.pollfds := by
        intro heq
        exact Finset.notMem_erase fd c.pollfds (heq.symm ▸ hfd)
      rw [followed_change_iff hc (·.erase fd) hne, not_loses_change (·.erase fd) hne]
  | answered _ _ =>
      exact ⟨fun _ => not_loses_put nofun, fun _ => followed_put hc c.notified nofun⟩
  | registered _ =>
      exact ⟨fun _ => not_loses_put nofun, fun _ => followed_put hc c.notified nofun⟩
  | installed hreg => exact (followed_install_iff ho hc hreg).trans (not_loses_install hreg).symm
  | cleaned _ => exact ⟨fun _ => not_loses_put nofun, fun _ => followed_put hc none nofun⟩
  | destroyed _ => exact ⟨fun _ => not_loses_put nofun, fun _ => followed_put hc none nofun⟩

theorem fresh_ordered (pollfds : Finset ℤ) : (UsbContext.fresh pollfds).Ordered :=
  ⟨nofun, nofun⟩

theorem fresh_followed (pollfds : Finset ℤ) : (UsbContext.fresh pollfds).Followed :=
  nofun

/-- **Watching libusb's descriptors.** In every state of a run every
started stream has registered what libusb polls on, if and only if no move
of the run loses a change. -/
theorem watching_exact (pollfds : Finset ℤ) (run : List (Option ℕ × UsbContext))
    (h : Trail ContextMove (.fresh pollfds) run) :
    Throughout UsbContext.Followed (.fresh pollfds) run ↔ Spares Loses (.fresh pollfds) run :=
  h.forall_iff (fun _ _ _ hm ho => ho.move hm) (fun _ _ _ hm ho hc => hm.followed_iff ho hc)
    (fresh_ordered pollfds) (fresh_followed pollfds)

/-- A stream starts, libusb changes its descriptors, and the stream
stops. -/
theorem watching_exact_sample : ∃ run, run.length = 6 ∧
    Trail ContextMove (.fresh {5}) run ∧ Throughout UsbContext.Followed (.fresh {5}) run := by
  let c₀ := UsbContext.fresh {5}
  let c₁ := c₀.put 0 ⟨.answered [5] [5], ∅⟩
  let c₂ := c₁.put 0 ⟨.answered [5] [], {5}⟩
  let c₃ := c₂.install 0
  let c₄ := c₃.change (insert 7)
  let c₅ := c₄.change (·.erase 5)
  let c₆ := (c₅.put 0 ⟨.off, ∅⟩).setPollfdNotifiers none
  have hrun : Trail ContextMove c₀ [(some 0, c₁), (some 0, c₂), (some 0, c₃), (none, c₄),
      (none, c₅), (some 0, c₆)] := by
    refine .cons (.answered rfl rfl) (.cons (.registered rfl) (.cons (.installed rfl) ?_))
    refine .cons (.added (by decide)) (.cons (.removed (by decide)) ?_)
    exact .cons (.cleaned nofun) (.nil _)
  -- stream `0` is the only one that is ever started
  have honly : ∀ i, (c₃.stream i).registration = .installed → c₃.notified = some i := by
    intro i hi
    cases i with
    | zero => rfl
    | succ i => cases hi
  refine ⟨_, rfl, hrun, (watching_exact {5} _ hrun).mpr ?_⟩
  refine ⟨not_loses_put nofun, not_loses_put nofun, (not_loses_install rfl).mpr rfl, ?_, ?_,
    not_loses_put nofun, trivial⟩
  · exact (not_loses_change _ (by decide)).mpr honly
  · refine (not_loses_change (·.erase 5) (by decide)).mpr fun i hi => ?_
    rw [change_registration] at hi
    exact honly i hi

/-- A second stream starts, and its notifiers take the place of the
first's. -/
theorem two_streams_lose : ∃ run, Trail ContextMove (.fresh {5}) run ∧
    ¬ Throughout UsbContext.Followed (.fresh {5}) run := by
  let c₀ := UsbContext.fresh {5}
  let c₁ := c₀.put 0 ⟨.answered [5] [5], ∅⟩
  let c₂ := c₁.put 0 ⟨.answered [5] [], {5}⟩
  let c₃ := c₂.install 0
  let c₄ := c₃.put 1 ⟨.answered [5] [5], ∅⟩
  let c₅ := c₄.put 1 ⟨.answered [5] [], {5}⟩
  let c₆ := c₅.install 1
  let c₇ := c₆.change (insert 7)
  refine ⟨[(some 0, c₁), (some 0, c₂), (some 0, c₃), (some 1, c₄), (some 1, c₅), (some 1, c₆),
    (none, c₇)], ?_, fun hall => ?_⟩
  · refine .cons (.answered rfl rfl) (.cons (.registered rfl) (.cons (.installed rfl) ?_))
    refine .cons (.answered rfl rfl) (.cons (.registered rfl) (.cons (.installed rfl) ?_))
    exact .cons (.added (by decide)) (.nil _)
  · have hfollowed : (c₇.stream 0).usbEpoll = c₇.pollfds := hall c₇ (by simp) 0 rfl
    revert hfollowed
    decide

/-! ## The machine of one stream

What the notifiers, `process_init` and `process_cleanup` do to the machine
of a stream is what the moves above say of it. -/

section Machine

variable {σ : Type} {env : Env σ} {m : Machine σ}

/-- Every registration succeeds. -/
structure Env.Registers (env : Env σ) : Prop where
  addToEpoll : ∀ sock epollFd w, (env.addToEpoll sock epollFd w).1 = none
  removeFromEpoll : ∀ sock epollFd w, (env.removeFromEpoll sock epollFd w).1 = none

/-- **The machine of stream `i`**: its notifiers are installed or not, and
it has registered what the context says of it. -/
structure UsbContext.Shows (c : UsbContext) (i : ℕ) (m : Machine σ) : Prop where
  notifiers : m.notifiers = true ↔ c.notified = some i
  usbEpoll : m.usbEpollSet.toFinset = (c.stream i).usbEpoll
  nodup : m.usbEpollSet.Nodup

theorem addToUsbEpoll_inserts (henv : env.Registers) (sock : ℤ) (m : Machine σ) :
    Ends (addToUsbEpoll env sock)
      (fun _ t => t.notifiers = m.notifiers ∧ t.usbEpollSet = m.usbEpollSet.insert sock)
      (fun _ _ => False) m := by
  unfold addToUsbEpoll
  rw [ends_bind, ends_look, id_look, ends_bind, ends_askWorld, henv.addToEpoll]
  exact ⟨rfl, rfl⟩

theorem removeFromUsbEpoll_erases (henv : env.Registers) (sock : ℤ) (m : Machine σ) :
    Ends (removeFromUsbEpoll env sock)
      (fun _ t => t.notifiers = m.notifiers ∧ t.usbEpollSet = m.usbEpollSet.erase sock)
      (fun _ _ => False) m := by
  unfold removeFromUsbEpoll
  rw [ends_bind, ends_look, id_look, ends_bind, ends_askWorld, henv.removeFromEpoll]
  exact ⟨rfl, rfl⟩

theorem toFinset_insert (l : List ℤ) (fd : ℤ) :
    (l.insert fd).toFinset = insert fd l.toFinset := by
  ext x
  rw [List.mem_toFinset, List.mem_insert_iff, Finset.mem_insert, List.mem_toFinset]

theorem toFinset_erase {l : List ℤ} (h : l.Nodup) (fd : ℤ) :
    (l.erase fd).toFinset = l.toFinset.erase fd := by
  ext x
  rw [List.mem_toFinset, h.mem_erase_iff, Finset.mem_erase, List.mem_toFinset]

/-- A stream that is not notified of a change is left as it is. -/
theorem UsbContext.Shows.unnotified (h : c.Shows i m) (hn : m.notifiers ≠ true)
    (f : Finset ℤ → Finset ℤ) : (c.change f).Shows i m := by
  have hne : c.notified ≠ some i := fun howner => hn (h.notifiers.mpr howner)
  refine ⟨h.notifiers, ?_, h.nodup⟩
  rw [change_stream_ne c f hne]
  exact h.usbEpoll

/-- **`add_to_usb_epoll`**, called at a change. -/
theorem pollfdAdded_shows (henv : env.Registers) (h : c.Shows i m) (fd : ℤ) :
    Ends (usbAction env (.pollfdAdded fd)) (fun _ t => (c.change (insert fd)).Shows i t)
      (fun _ _ => False) m := by
  unfold usbAction
  rw [ends_bind, ends_look, id_look, ends_ite]
  refine ⟨fun hn => ?_, fun hn => h.unnotified hn _⟩
  refine (addToUsbEpoll_inserts henv fd m).mono ?_ fun _ _ hf => hf
  rintro _ t ⟨hnot, hset⟩
  refine ⟨by rw [hnot]; exact h.notifiers, ?_, ?_⟩
  · rw [change_usbEpoll c _ (h.notifiers.mp hn), hset, toFinset_insert, h.usbEpoll]
  · rw [hset]
    exact h.nodup.insert

/-- **`remove_from_usb_epoll`**, called at a change. -/
theorem pollfdRemoved_shows (henv : env.Registers) (h : c.Shows i m) (fd : ℤ) :
    Ends (usbAction env (.pollfdRemoved fd)) (fun _ t => (c.change (·.erase fd)).Shows i t)
      (fun _ _ => False) m := by
  unfold usbAction
  rw [ends_bind, ends_look, id_look, ends_ite]
  refine ⟨fun hn => ?_, fun hn => h.unnotified hn _⟩
  refine (removeFromUsbEpoll_erases henv fd m).mono ?_ fun _ _ hf => hf
  rintro _ t ⟨hnot, hset⟩
  refine ⟨by rw [hnot]; exact h.notifiers, ?_, ?_⟩
  · rw [change_usbEpoll c _ (h.notifiers.mp hn), hset, toFinset_erase h.nodup, h.usbEpoll]
  · rw [hset]
    exact h.nodup.erase fd

/-- One turn of the loop over the answer of `libusb_get_pollfds`. -/
theorem register_shows (henv : env.Registers) (h : c.Shows i m) (w : Registration) (fd : ℤ) :
    Ends (addToUsbEpoll env fd)
      (fun _ t => (c.put i ⟨w, insert fd (c.stream i).usbEpoll⟩).Shows i t)
      (fun _ _ => False) m := by
  refine (addToUsbEpoll_inserts henv fd m).mono ?_ fun _ _ hf => hf
  rintro _ t ⟨hnot, hset⟩
  refine ⟨by rw [hnot]; exact h.notifiers, ?_, ?_⟩
  · rw [put_stream_self, hset, toFinset_insert, h.usbEpoll]
  · rw [hset]
    exact h.nodup.insert

/-- The whole loop, from the answer to the last descriptor of it. -/
theorem registerAll_shows (henv : env.Registers) (answer : List ℤ) : ∀ (rest : List ℤ)
    {c : UsbContext} {m : Machine σ}, c.Shows i m →
    (c.stream i).registration = .answered answer rest →
    Ends (each rest (addToUsbEpoll env))
      (fun _ t => ∃ run, Trail ContextMove c run ∧ ∃ c' ∈ c :: run.map Prod.snd,
        c'.Shows i t ∧ (c'.stream i).registration = .answered answer [])
      (fun _ _ => False) m
  | [], c, m, h, hreg => ⟨[], .nil c, c, List.mem_cons_self, h, hreg⟩
  | fd :: rest, c, m, h, hreg => by
      rw [each, ends_andThen]
      refine (register_shows henv h (.answered answer rest) fd).mono ?_ fun _ _ hf => hf
      rintro _ t ht
      have hput : ((c.put i ⟨.answered answer rest, insert fd (c.stream i).usbEpoll⟩).stream
          i).registration = .answered answer rest := by rw [put_stream_self]
      refine (registerAll_shows henv answer rest ht hput).mono ?_ fun _ _ hf => hf
      rintro _ u ⟨run, hrun, c', hc', hshows, hdone⟩
      refine ⟨(some i, _) :: run, .cons (.registered hreg) hrun, c', ?_, hshows, hdone⟩
      exact List.mem_cons_of_mem c hc'

/-- **The descriptors `process_init` registers** are the answer of
`libusb_get_pollfds`, where that is what libusb polls on. -/
theorem registerPollfds_shows (henv : env.Registers) (h : c.Shows i m)
    (hoff : c.stream i = ⟨.off, ∅⟩) (hanswer : ∀ w answer,
      (env.getPollfds w).1 = some answer → answer.toFinset = c.pollfds) :
    Ends (registerPollfds env)
      (fun _ t => ∃ run, Trail ContextMove c run ∧ ∃ c' ∈ c :: run.map Prod.snd, c'.Shows i t ∧
        ∃ answer, (c'.stream i).registration = .answered answer [])
      (fun cause _ => cause = .unableToGetPollfds) m := by
  unfold registerPollfds
  rw [ends_bind, ends_askWorld]
  cases hp : (env.getPollfds m.world).1 with
  | none => exact rfl
  | some answer =>
      have hshows : (c.put i ⟨.answered answer answer, ∅⟩).Shows i
          (m.withWorld (env.getPollfds m.world).2) := by
        refine ⟨h.notifiers, ?_, h.nodup⟩
        rw [put_stream_self]
        exact h.usbEpoll.trans (by rw [hoff])
      refine (registerAll_shows henv answer answer hshows (by rw [put_stream_self])).mono ?_
        fun _ _ hf => hf.elim
      rintro _ t ⟨run, hrun, c', hc', ht, hdone⟩
      refine ⟨(some i, _) :: run, .cons (.answered (by rw [hoff]) (hanswer _ _ hp)) hrun, c', ?_,
        ht, answer, hdone⟩
      exact List.mem_cons_of_mem c hc'

/-- The installation of the notifiers. -/
theorem install_shows (h : c.Shows i m) : (c.install i).Shows i { m with notifiers := true } := by
  unfold UsbContext.install
  refine ⟨⟨fun _ => rfl, fun _ => rfl⟩, ?_, h.nodup⟩
  rw [setPollfdNotifiers_stream, put_stream_self]
  exact h.usbEpoll

/-- No notifiers, and nothing registered where nothing is open. -/
def Machine.Unnotified (m : Machine σ) : Prop :=
  m.notifiers = false ∧ (m.usbEpollFd < 0 → m.usbEpollSet = [])

theorem closeTimer_unnotified (h : m.Unnotified) :
    Ends closeTimer (fun _ t => t.Unnotified) (fun _ _ => False) m := by
  unfold closeTimer
  rw [ends_bind, ends_look, id_look, ends_ite]
  exact ⟨fun _ => h, fun _ => h⟩

theorem closeUsbEpoll_unnotified (h : m.Unnotified) :
    Ends closeUsbEpoll (fun _ t => t.notifiers = false ∧ t.usbEpollSet = []) (fun _ _ => False)
      m := by
  unfold closeUsbEpoll
  rw [ends_bind, ends_look, id_look, ends_ite]
  exact ⟨fun _ => ⟨h.1, rfl⟩, fun hclosed => ⟨h.1, h.2 (by omega)⟩⟩

theorem closeEpoll_unnotified (h : m.notifiers = false ∧ m.usbEpollSet = []) :
    Ends closeEpoll (fun _ t => t.notifiers = false ∧ t.usbEpollSet = []) (fun _ _ => False)
      m := by
  unfold closeEpoll
  rw [ends_bind, ends_look, id_look, ends_ite]
  exact ⟨fun _ => h, fun _ => h⟩

theorem resetStreamstates_unnotified (h : m.notifiers = false ∧ m.usbEpollSet = []) :
    Ends resetStreamstates (fun _ t => t.notifiers = false ∧ t.usbEpollSet = [])
      (fun _ _ => False) m := by
  unfold resetStreamstates
  rw [ends_bind, ends_look, id_look]
  cases m.streamstates with
  | none => exact h
  | some entries => exact h

/-- **`process_cleanup`** clears the notifiers, whosever they are, and
forgets what was registered. -/
theorem processCleanup_shows (c : UsbContext) (i : ℕ)
    (hopen : m.usbEpollFd < 0 → m.usbEpollSet = []) :
    Ends processCleanup
      (fun _ t => ((c.put i ⟨.off, ∅⟩).setPollfdNotifiers none).Shows i t)
      (fun _ _ => False) m := by
  have hcleared : Machine.Unnotified { m.stopped with notifiers := false } := ⟨rfl, hopen⟩
  unfold processCleanup
  rw [ends_bind, ends_cancel, ends_bind, ends_alter, ends_bind]
  refine (closeTimer_unnotified hcleared).mono (fun _ t ht => ?_) fun _ _ hf => hf
  rw [ends_bind]
  refine (closeUsbEpoll_unnotified ht).mono (fun _ u hu => ?_) fun _ _ hf => hf
  rw [ends_bind]
  refine (closeEpoll_unnotified hu).mono (fun _ v hv => ?_) fun _ _ hf => hf
  refine (resetStreamstates_unnotified hv).mono ?_ fun _ _ hf => hf
  rintro _ w ⟨hnot, hset⟩
  refine ⟨?_, ?_, by rw [hset]; exact List.nodup_nil⟩
  · rw [hnot]
    exact ⟨nofun, nofun⟩
  · rw [setPollfdNotifiers_stream, put_stream_self, hset]
    rfl

end Machine

end Stream

end SgFtdi
