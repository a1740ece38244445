import SgFtdi.Stream.Moves.Registrations
import SgFtdi.Stream.Notice
import SgFtdi.Stream.Routing
import SgFtdi.Stream.TransferState

/-!
# Stream — what becomes of the last request

When the lists are empty and no cancellation is under way, the last request
of a stream should have had its way. An enabling has: a drain found it and
switched the read transfers on. A disabling only asks libusb to cancel, and
`enabled` stays true meanwhile. A transfer that comes back CANCELLED ends
the engine, and one that comes back COMPLETED is submitted again, so while
the engine runs a read transfer that is on never goes off. `Serving` says
from what moment on the transfers of a stream are on.
-/

namespace SgFtdi

namespace Stream

open Prog Relation

variable {σ : Type} {env : Env σ} {m m' m₁ m₂ : Machine σ} {s i : ℕ} {fd : ℤ}

/-! ## At rest -/

/-- Whether the last accepted request about reading from a stream was to
enable it, after one more observation. -/
def latest (s : ℕ) (last : Option Bool) (o : Seen) : Option Bool :=
  match o.what with
  | .asked t (.enable _) => if t = s then some true else last
  | .asked t (.disable _) => if t = s then some false else last
  | _ => last

/-- Whether the last accepted request about reading from a stream was to
enable it, none where there was no such request. -/
def lastReading (s : ℕ) (t : List Seen) : Option Bool := t.foldl (latest s) none

/-- A transfer reads from a stream. -/
def FtdiStreamStaticState.ReadsFrom (e : FtdiStreamStaticState) (s : ℕ) : Prop :=
  e.isReading = true ∧ e.streamId = s

instance (e : FtdiStreamStaticState) (s : ℕ) : Decidable (e.ReadsFrom s) :=
  inferInstanceAs (Decidable (_ ∧ _))

/-- **The descriptor is the stream's own**: its read transfers stand under
it and nothing else does, and its requests name it and no others do. -/
def Machine.Sole (m : Machine σ) (s : ℕ) (fd : ℤ) : Prop :=
  (∀ e ∈ m.entries, e.eventfd = fd ↔ e.ReadsFrom s) ∧
    ∀ o ∈ m.trace, ∀ r ∈ o.what.reading, r.2 = fd ↔ r.1 = s

instance (m : Machine σ) (s : ℕ) (fd : ℤ) : Decidable (m.Sole s fd) :=
  inferInstanceAs (Decidable (_ ∧ _))

/-- **At rest**: the lists are empty, no notice is pending, and every
transfer that libusb was asked to cancel has come back. -/
def Machine.AtRest (m : Machine σ) : Prop :=
  m.lists = .empty ∧ m.noticeCount = 0 ∧ ∀ e ∈ m.entries, e.transfer.cancelling = false

instance (m : Machine σ) : Decidable m.AtRest := inferInstanceAs (Decidable (_ ∧ _))

/-- **The last request has its way**: disabled, no read transfer of the
stream is in flight, and enabled, all are. -/
def Machine.Obeys (m : Machine σ) (s : ℕ) : Prop :=
  (lastReading s m.trace = some false →
    ∀ e ∈ m.entries, e.ReadsFrom s → e.transfer.inFlight = false) ∧
  (lastReading s m.trace = some true →
    ∀ e ∈ m.entries, e.ReadsFrom s → e.transfer.inFlight = true)

instance (m : Machine σ) (s : ℕ) : Decidable (m.Obeys s) := inferInstanceAs (Decidable (_ ∧ _))

/-- A drain has found a descriptor to enable. -/
def Obs.finds (fd : ℤ) : Obs → Prop
  | .drained enable _ _ => fd ∈ enable
  | _ => False

/-- A drain on the record found a descriptor to enable. -/
def Found (fd : ℤ) (t : List Seen) : Prop := ∃ o ∈ t, o.what.finds fd

/-- A stream reads from the start. -/
def FtdiStreamState.Starts (m : FtdiStreamState) (s : ℕ) : Prop :=
  ∃ stream, m.streams[s]? = some stream ∧ stream.readStartEnabled = true

theorem Found.grows {t t' : List Seen} (h : Found fd t) (hp : t <+: t') : Found fd t' := by
  obtain ⟨o, ho, hfinds⟩ := h
  exact ⟨o, hp.subset ho, hfinds⟩

theorem Obs.files.not_finds {o : Obs} {locked : Bool} (h : o.files locked) : ¬ o.finds fd := by
  intro hfinds
  cases o with
  | drained _ _ _ => exact h
  | _ => exact hfinds

/-- Outside of a drain nothing is found. -/
theorem Listed.found (h : Listed m m') (hf : Found fd m'.trace) : Found fd m.trace := by
  obtain ⟨o, ho, hfinds⟩ := hf
  rcases (Reads.grows h).mem_or ho with hold | hnew
  · exact ⟨o, hold, hfinds⟩
  · exact absurd hfinds hnew.not_finds

/-! ## The list and the last request -/

/-- A stream that was last enabled is on the list, or has been found there. -/
theorem enlist_asked {l : Lists} {last : Option Bool} {o : Seen} {locked : Bool} {P : Prop}
    (hown : ∀ r ∈ o.what.reading, r.2 = fd ↔ r.1 = s) (hfiles : o.what.files locked)
    (h : last = some true → fd ∈ l.enable ∨ P) (hlast : latest s last o = some true) :
    fd ∈ (enlist l o).enable ∨ P := by
  obtain ⟨run, o⟩ := o
  cases o with
  | drained _ _ _ => exact hfiles.elim
  | asked t q =>
      cases q with
      | enable fd' =>
          have hfd := hown (t, fd') rfl
          simp only [latest] at hlast
          split at hlast
          · next ht => exact .inl (Unordered.mem_insert.mpr (.inl (hfd.mpr ht).symm))
          · exact (h hlast).imp_left fun hmem => Unordered.mem_insert.mpr (.inr hmem)
      | disable fd' =>
          have hfd := hown (t, fd') rfl
          simp only [latest] at hlast
          split at hlast
          · cases hlast
          · next ht =>
              -- a request of another stream names another descriptor
              refine (h hlast).imp_left fun hmem => Unordered.mem_erase.mpr ⟨?_, hmem⟩
              rintro rfl
              exact ht (hfd.mp rfl)
      | reset _ => exact h hlast
  | _ => exact h hlast

theorem foldl_enlist_asked {locked : Bool} {P : Prop} : ∀ (seg : List Seen) (l : Lists)
    (last : Option Bool), (∀ o ∈ seg, ∀ r ∈ o.what.reading, r.2 = fd ↔ r.1 = s) →
    (∀ o ∈ seg, o.what.files locked) → (last = some true → fd ∈ l.enable ∨ P) →
    seg.foldl (latest s) last = some true → fd ∈ (seg.foldl enlist l).enable ∨ P
  | [], _, _, _, _, h, hlast => h hlast
  | o :: seg, l, last, hown, hfiles, h, hlast =>
      foldl_enlist_asked seg (enlist l o) (latest s last o)
        (fun x hx => hown x (.tail _ hx)) (fun x hx => hfiles x (.tail _ hx))
        (enlist_asked (hown o (.head _)) (hfiles o (.head _)) h) hlast

/-- **The list keeps up with the record** outside of drains. -/
theorem Listed.asked {P : Prop} (h : Listed m m') (hsole : m'.Sole s fd)
    (hbefore : lastReading s m.trace = some true → fd ∈ m.listEnable ∨ P)
    (hlast : lastReading s m'.trace = some true) : fd ∈ m'.listEnable ∨ P := by
  obtain ⟨seg, hseg, hfiles, hfold⟩ := h
  have hown : ∀ o ∈ seg, ∀ r ∈ o.what.reading, r.2 = fd ↔ r.1 = s := fun o ho =>
    hsole.2 o (hseg ▸ List.mem_append_right _ ho)
  rw [lastReading, hseg, List.foldl_append] at hlast
  have hlists := foldl_enlist_asked seg m.lists _ hown hfiles hbefore hlast
  rw [hfold] at hlists
  exact hlists

/-! ## What serves the stream -/

/-- The drain at work has yet to be through with a descriptor to enable. -/
def Machine.Owes (m : Machine σ) (fd : ℤ) : Prop := m.listMutex = true ∧ fd ∈ m.listEnable

/-- **The read transfers of a stream are served**: one that is on was on
from the start or found by a drain, and from then on they all are on,
unless there is nothing to read into. -/
structure Machine.Serving (m : Machine σ) (s : ℕ) (fd : ℤ) : Prop where
  on : ∀ i e, m.entryAt i = some e → e.eventfd = fd → e.enabled = true →
    e.bufferSize ≠ 0 ∧ (m.Starts s ∨ Found fd m.trace)
  started : m.Starts s → m.Settled fd
  found : Found fd m.trace → m.Owes fd ∨ m.Settled fd
  owed : m.Owes fd → Found fd m.trace
  asked : lastReading s m.trace = some true → fd ∈ m.listEnable ∨ Found fd m.trace

/-- **An ordinary change**: requests are filed, no list is drained, and a
transfer that goes on had a reason. -/
structure Ordinary (m m' : Machine σ) : Prop where
  listed : Listed m m'
  lives : AllLive m m'
  why : ∀ i e e', m.entryAt i = some e → m'.entryAt i = some e' → e.enabled = false →
    e'.enabled = true → WhyOn m e.eventfd
  listMutex : m'.listMutex = m.listMutex
  streams : m'.streams = m.streams
  stays : m'.shouldRun = true → m.shouldRun = true

theorem Ordinary.of_eq (hl : Listed m m') (hs : m'.streamstates = m.streamstates)
    (hm : m'.listMutex = m.listMutex) (hss : m'.streams = m.streams)
    (hr : m'.shouldRun = true → m.shouldRun = true) : Ordinary m m' := by
  refine ⟨hl, .of_alike (Calm.of_entries hs) hr, fun i e e' he he' hoff hon => ?_, hm, hss, hr⟩
  exact absurd hon (not_on (Calm.of_entries hs i) he he' hoff)

theorem Move.ordinary (h : Move env m m') : Ordinary m m' :=
  ⟨h.kept.filed.lists, h.lives, fun _ _ _ he he' => h.why he he', h.kept.listMutex,
    h.kept.streams, h.kept.stays⟩

theorem accepted_ordinary (q : Queued) (hfree : m.listMutex = false) :
    Ordinary m (m.accepted s q) := by
  refine .of_eq (accepted_listed s hfree) (accepted_streamstates m s q) ?_ ?_ fun hr => ?_
  · rw [accepted_eq]
  · rw [accepted_eq]
  · rwa [accepted_shouldRun] at hr

theorem Listed.locked (h : Listed m m') (hm : m.listMutex = true) : m'.lists = m.lists := by
  rw [Listed, hm] at h
  exact lists_of_locked h

theorem Listed.isPrefix (h : Listed m m') : m.trace <+: m'.trace := (Reads.grows h).isPrefix

/-- What goes on under the stream's own descriptor was on the list. -/
theorem Machine.Sole.owes (h : m.Sole s fd) (hw : m.Watching) (hwhy : WhyOn m fd) :
    m.Owes fd := by
  cases hwhy with
  | asked hm hmem => exact ⟨hm, hmem⟩
  | ready hset h₁ h₂ h₃ =>
      rcases hw fd hset with hsock | hsock | hsock | ⟨i, e, he, hwr, hfd⟩
      · exact absurd hsock h₁
      · exact absurd hsock h₂
      · exact absurd hsock h₃
      · have hread := ((h.1 e (mem_entries he)).mp hfd).1
        exact absurd (hread.symm.trans hwr) Bool.true_eq_false.mp

theorem AllLive.settled (h : AllLive m m') (hr : m'.shouldRun = true → m.shouldRun = true)
    (hs : m.Settled fd) : m'.Settled fd :=
  fun i hi => h.settledAt hr (hs i (h.mem_equalRange.mp hi))

/-- A read transfer that is on after an ordinary change was on before, or
is on because the drain at work owed it. -/
theorem Ordinary.on (h : Ordinary m m') (hw : m.Watching) (hsole : m.Sole s fd)
    (hr : m'.shouldRun = true) (hm : m.Serving s fd) {e' : FtdiStreamStaticState}
    (he' : m'.entryAt i = some e') (hfd : e'.eventfd = fd) (hon : e'.enabled = true) :
    e'.bufferSize ≠ 0 ∧ (m.Starts s ∨ Found fd m.trace) := by
  obtain ⟨e, he, hlife⟩ := h.lives.back he'
  have hfd₀ : e.eventfd = fd := hlife.same.eventfd ▸ hfd
  rw [hlife.same.bufferSize]
  by_cases hon₀ : e.enabled = true
  · exact hm.on i e he hfd₀ hon₀
  have hoff : e.enabled = false := Bool.eq_false_iff.mpr hon₀
  have howed := hsole.owes hw (hfd₀ ▸ h.why i e e' he he' hoff hon)
  refine ⟨?_, .inr (hm.owed howed)⟩
  have hread := ((hsole.1 e (mem_entries he)).mp hfd₀).1
  cases hlife.life with
  | kept hen _ _ => exact absurd (hen ▸ hon) hon₀
  | down _ hen _ _ => exact absurd (hen ▸ hon) Bool.false_ne_true
  | up _ _ _ _ _ hsize => exact hsize hread
  | stranded _ _ _ hstop => exact absurd (hstop ▸ hr) Bool.false_ne_true

/-- **Ordinary changes keep the stream served.** -/
theorem Ordinary.serving (h : Ordinary m m') (hw : m.Watching) (hsole : m.Sole s fd)
    (hsole' : m'.Sole s fd) (hr : m'.shouldRun = true) (hm : m.Serving s fd) :
    m'.Serving s fd := by
  have hgrows := h.listed.isPrefix
  have hstarts : m'.Starts s ↔ m.Starts s := by
    rw [FtdiStreamState.Starts, FtdiStreamState.Starts, h.streams]
  have howes : m'.Owes fd ↔ m.Owes fd := by
    rw [Machine.Owes, Machine.Owes, h.listMutex]
    refine and_congr_right fun hlocked => ?_
    rw [show m'.listEnable = m.listEnable from congrArg Lists.enable (h.listed.locked hlocked)]
  refine ⟨fun i e' he' hfd hon => ?_, fun hst => ?_, fun hf => ?_, fun ho => ?_, fun hlast => ?_⟩
  · rw [hstarts]
    exact (h.on hw hsole hr hm he' hfd hon).imp_right (.imp_right (·.grows hgrows))
  · exact h.lives.settled h.stays (hm.started (hstarts.mp hst))
  · rw [howes]
    exact (hm.found (h.listed.found hf)).imp_right (h.lives.settled h.stays)
  · exact (hm.owed (howes.mp ho)).grows hgrows
  · exact (h.listed.asked hsole' hm.asked hlast).imp_right (·.grows hgrows)

/-! ## Every step -/

/-- A drain begins: what is on the list it has found, and owes. -/
theorem Machine.Serving.locked (hm : m.Serving s fd) : m.locked.Serving s fd := by
  have hgrows : m.trace <+: m.locked.trace := List.prefix_append _ _
  have hlast : lastReading s m.locked.trace = lastReading s m.trace := by
    rw [lastReading, show m.locked.trace = m.trace ++ [_] from rfl, List.foldl_append]
    rfl
  have hfound : fd ∈ m.listEnable → Found fd m.locked.trace := fun hmem =>
    ⟨_, List.mem_append_right _ (List.mem_singleton_self _), hmem⟩
  refine ⟨fun i e he hfd hon => ?_, hm.started, fun hf => ?_, fun ho => hfound ho.2, fun h => ?_⟩
  · exact (hm.on i e he hfd hon).imp_right (.imp_right (·.grows hgrows))
  · by_cases hmem : fd ∈ m.listEnable
    · exact .inl ⟨rfl, hmem⟩
    -- it was found by a drain before this one
    obtain ⟨o, ho, hfinds⟩ := hf
    rcases List.mem_append.mp ho with hold | hnew
    · rcases hm.found ⟨o, hold, hfinds⟩ with howes | hset
      · exact absurd howes.2 hmem
      · exact .inr hset
    · rw [List.mem_singleton.mp hnew] at hfinds
      exact absurd hfinds hmem
  · rw [hlast] at h
    exact .inr ((hm.asked h).elim hfound (·.grows hgrows))

/-- A list is cleared when the drain is through with it. -/
theorem Cleared.serving (h : Cleared m m') (hlocked : m.listMutex = true)
    (hm : m.Serving s fd) : m'.Serving s fd := by
  cases h with
  | reset => exact ⟨hm.on, hm.started, hm.found, hm.owed, hm.asked⟩
  | disable => exact ⟨hm.on, hm.started, hm.found, hm.owed, hm.asked⟩
  | enable hset =>
      refine ⟨hm.on, hm.started, fun hf => .inr ?_, fun ho => ?_, fun hlast => .inr ?_⟩
      · rcases hm.found hf with howes | hsettled
        · exact hset fd howes.2
        · exact hsettled
      · exact absurd ho.2 Unordered.not_mem_empty
      · rcases hm.asked hlast with hmem | hf
        · exact hm.owed ⟨hlocked, hmem⟩
        · exact hf

theorem Handling.serving (h : Handling env m m') (hw : m.Watching) (hsole : m.Sole s fd)
    (hsole' : m'.Sole s fd) (hr : m'.shouldRun = true) (hm : m.Serving s fd) :
    m'.Serving s fd := by
  cases h with
  | draining hd =>
      cases hd with
      | move hmove => exact hmove.ordinary.serving hw hsole hsole' hr hm
      | cleared hlocked hc => exact hc.serving hlocked hm
  | accepted _ hfree _ => exact (accepted_ordinary _ hfree).serving hw hsole hsole' hr hm
  | stopping =>
      have hlisted : Listed m m.askedToStop := Reads.one trivial
      exact (Ordinary.of_eq hlisted rfl rfl rfl id).serving hw hsole hsole' hr hm
  | noticed => exact ⟨hm.on, hm.started, hm.found, hm.owed, hm.asked⟩
  | obeyed _ => exact absurd hr Bool.false_ne_true
  | locked _ _ => exact hm.locked
  | unlocked _ hempty _ _ =>
      refine ⟨hm.on, hm.started, fun hf => .inr ?_, fun ho => absurd ho.1 Bool.false_ne_true,
        hm.asked⟩
      rcases hm.found hf with howes | hsettled
      · have hmem := howes.2
        rw [hempty] at hmem
        exact absurd hmem Unordered.not_mem_empty
      · exact hsettled

/-- **A step keeps the stream served.** -/
theorem Step.serving (h : Step env m m') (hw : m.Watching) (hsole : m.Sole s fd)
    (hsole' : m'.Sole s fd) (hr : m'.shouldRun = true) (hm : m.Serving s fd) :
    m'.Serving s fd := by
  cases h with
  | handling hh => exact hh.serving hw hsole hsole' hr hm
  | counted _ => exact ⟨hm.on, hm.started, hm.found, hm.owed, hm.asked⟩
  | left _ => exact ⟨hm.on, hm.started, hm.found, hm.owed, hm.asked⟩
  | waitFailed _ => exact absurd hr Bool.false_ne_true
  | crashed _ _ => exact absurd hr Bool.false_ne_true

/-! ## While the engine is set up -/

theorem Opening.ordinary (h : Opening env m m') : Ordinary m m' := by
  cases h with
  | move hm => exact hm.ordinary
  | watched _ hw =>
      have hsame : m'.streamstates = m.streamstates := by
        cases hw with
        | added _ _ => rfl
        | failed _ _ _ => exact errored_streamstates _ _
      exact .of_eq hw.filed.lists hsame hw.listMutex hw.streams hw.stays
  | noted _ => exact .of_eq (Reads.one trivial) rfl rfl rfl id
  | _ => exact .of_eq .refl rfl rfl rfl id

/-- Every entry but the new one was there before. -/
theorem Created.older {t i j : ℕ} {stream : FtdiStreamEntry} {isReading : Bool}
    {e : FtdiStreamStaticState} (h : Created env t j stream isReading m m')
    (hi : m.entries.length ≠ i) (he : m'.entryAt i = some e) :
    ∃ e₁, m.entryAt i = some e₁ ∧ Alike e₁ e := by
  obtain ⟨hothers, -⟩ := h.entries
  have hrel := hothers i hi
  rw [he] at hrel
  generalize m.entryAt i = x at hrel ⊢
  cases hrel with
  | some ht => exact ⟨_, rfl, ht.toAlike⟩

/-- The new entry reads from the start where its stream does. -/
theorem Created.newest {t j : ℕ} {stream : FtdiStreamEntry} {isReading : Bool}
    {e : FtdiStreamStaticState} (h : Created env t j stream isReading m m') (hsole' : m'.Sole s fd)
    (hr : m'.shouldRun = true) (he : m'.entryAt m.entries.length = some e)
    (hfd : e.eventfd = fd) : (m.Starts s ↔ stream.readStartEnabled = true) ∧
      (e.enabled = true ↔ stream.readStartEnabled = true ∧ e.bufferSize ≠ 0) := by
  have hstream := h.stream
  obtain ⟨-, fd', e₀, e', -, he₀, he', hsame, hcase⟩ := h.entries
  obtain rfl : e' = e := Option.some_inj.mp (he'.symm.trans he)
  obtain ⟨hread, hs⟩ := (hsole'.1 e' (mem_entries he')).mp hfd
  subst he₀
  rw [hsame.bufferSize]
  cases isReading with
  | false => exact absurd (hread.symm.trans hsame.isReading) Bool.true_eq_false.mp
  | true =>
      obtain rfl : t = s := hsame.streamId.symm.trans hs
      refine ⟨⟨?_, fun hst => ⟨stream, hstream, hst⟩⟩, ?_⟩
      · rintro ⟨stream', hstream', hst⟩
        rw [hstream, Option.some_inj] at hstream'
        rwa [hstream']
      · rcases hcase with ⟨-, hoff⟩ | ⟨-, hst, hon, -, hsize⟩
        · rw [(hoff hr).1]
          refine ⟨fun hon => absurd hon Bool.false_ne_true, fun hboth => ?_⟩
          exact absurd ((hoff hr).2 hboth.1 rfl) hboth.2
        · exact ⟨fun _ => ⟨hst, hsize rfl⟩, fun _ => hon⟩

/-- **A new read transfer is on** if the stream reads from the start and
there is something to read into. -/
theorem Created.serving {t j : ℕ} {stream : FtdiStreamEntry} {isReading : Bool}
    (h : Created env t j stream isReading m m') (hnone : ¬ Found fd m.trace)
    (hfree : m.listMutex = false) (hsole' : m'.Sole s fd) (hr : m'.shouldRun = true)
    (hm : m.Serving s fd) : m'.Serving s fd := by
  have hsetup : Setup env m m' := .created h
  have hlisted : Listed m m' := hsetup.filed.lists
  have hfree' : m'.listMutex = false := hsetup.listMutex.trans hfree
  have hstarts : m'.Starts s ↔ m.Starts s := by
    rw [FtdiStreamState.Starts, FtdiStreamState.Starts, h.streams]
  -- the new entry is the last one; of the others nothing has changed
  refine ⟨fun i e he hfd hon => ?_, fun hst i hi _ e he hread => ?_, fun hf => ?_,
    fun ho => ?_, fun hlast => ?_⟩
  · rw [hstarts]
    by_cases hi : m.entries.length = i
    · subst hi
      obtain ⟨hiff, hwhen⟩ := h.newest hsole' hr he hfd
      obtain ⟨hst, hboth⟩ := hwhen.mp hon |>.imp_left hiff.mpr
      exact ⟨hboth, .inl hst⟩
    · obtain ⟨e₁, he₁, ha⟩ := h.older hi he
      rw [ha.bufferSize]
      exact (hm.on i e₁ he₁ (ha.eventfd ▸ hfd) (ha.enabled ▸ hon)).imp_right
        (.imp_right (·.grows hlisted.isPrefix))
  · rw [hstarts] at hst
    have hfd : e.eventfd = fd := by
      obtain ⟨e₁, he₁, hfd⟩ := mem_equalRange_iff.mp hi
      rw [he, Option.some_inj] at he₁
      rwa [he₁]
    by_cases hj : m.entries.length = i
    · subst hj
      obtain ⟨hiff, hwhen⟩ := h.newest hsole' hr he hfd
      by_cases hsize : e.bufferSize = 0
      · exact .inr hsize
      · exact .inl (hwhen.mpr ⟨hiff.mp hst, hsize⟩)
    · obtain ⟨e₁, he₁, ha⟩ := h.older hj he
      rw [ha.enabled, ha.bufferSize]
      have hi₁ : i ∈ m.equalRange fd := mem_equalRange_iff.mpr ⟨e₁, he₁, ha.eventfd ▸ hfd⟩
      exact hm.started hst i hi₁ (hsetup.stays hr) e₁ he₁ (ha.isReading ▸ hread)
  · exact absurd (hlisted.found hf) hnone
  · exact absurd (hfree'.symm.trans ho.1) Bool.false_ne_true
  · exact (hlisted.asked hsole' hm.asked hlast).imp_right (·.grows hlisted.isPrefix)

/-! ## Every run -/

/-- What is the stream's own later has been its own before. -/
theorem Machine.Sole.back (h : m'.Sole s fd) (hp : m.trace <+: m'.trace)
    (hthere : ∀ i e, m.entryAt i = some e → ∃ e', m'.entryAt i = some e' ∧ Same e e') :
    m.Sole s fd := by
  refine ⟨fun e he => ?_, fun o ho => h.2 o (hp.subset ho)⟩
  obtain ⟨i, hi⟩ := List.mem_iff_getElem?.mp he
  obtain ⟨e', he', hsame⟩ := hthere i e hi
  have howned := h.1 e' (mem_entries he')
  rwa [FtdiStreamStaticState.ReadsFrom, hsame.eventfd, hsame.isReading, hsame.streamId] at howned

theorem AllLive.there (h : AllLive m m') {e : FtdiStreamStaticState}
    (he : m.entryAt i = some e) : ∃ e', m'.entryAt i = some e' ∧ Same e e' := by
  obtain ⟨e', he', hl⟩ := h.entry he
  exact ⟨e', he', hl.same⟩

theorem Setup.there (h : Setup env m m') {e : FtdiStreamStaticState}
    (he : m.entryAt i = some e) : ∃ e', m'.entryAt i = some e' ∧ Same e e' := by
  cases h with
  | opening ho => exact ho.ordinary.lives.there he
  | created hc =>
      have hlt := lt_of_entryAt he
      have hrel := hc.entries.1 i (by omega)
      rw [he] at hrel
      generalize m'.entryAt i = x at hrel ⊢
      cases hrel with
      | some ht => exact ⟨_, rfl, ht.toAlike.same⟩

/-- **What setting up keeps**: no drain yet, and the stream served. -/
structure Machine.Fresh (m : Machine σ) (s : ℕ) (fd : ℤ) : Prop where
  watching : m.Watching
  listMutex : m.listMutex = false
  notFound : ¬ Found fd m.trace
  serving : m.Sole s fd → m.shouldRun = true → m.Serving s fd

theorem Setup.fresh (h : Setup env m m') (hm : m.Fresh s fd) : m'.Fresh s fd := by
  have hlisted : Listed m m' := h.filed.lists
  refine ⟨h.watching hm.watching, h.listMutex.trans hm.listMutex,
    fun hf => hm.notFound (hlisted.found hf), fun hsole' hr => ?_⟩
  have hsole : m.Sole s fd := hsole'.back hlisted.isPrefix fun _ _ => h.there
  have hserving := hm.serving hsole (h.stays hr)
  cases h with
  | opening ho => exact ho.ordinary.serving hm.watching hsole hsole' hr hserving
  | created hc => exact hc.serving hm.notFound hm.listMutex hsole' hr hserving

theorem Begun.fresh {m₀ b : Machine σ} (h : Begun env m₀ b) (hidle : Idle m₀) :
    b.Fresh s fd := by
  have hnone := h.entryAt
  have hwatch := h.watching
  obtain ⟨w, now, -, rfl⟩ := h
  have htrace : (Machine.begun (Machine.withWorld { m₀ with mutex := true } w) now).trace =
      [⟨true, .began now⟩] := by
    show m₀.trace ++ [_] = _
    rw [hidle.trace]
    rfl
  have hnot : ¬ Found fd [⟨true, .began now⟩] := by
    rintro ⟨o, ho, hfinds⟩
    rw [List.mem_singleton.mp ho] at hfinds
    exact hfinds
  rw [← htrace] at hnot
  refine ⟨hwatch, hidle.listMutex, hnot, fun _ _ => ⟨fun i e he => ?_, fun _ i hi => ?_,
    fun hf => absurd hf hnot, fun ho => ?_, fun hlast => ?_⟩⟩
  · rw [hnone i] at he
    cases he
  · obtain ⟨e, he, -⟩ := mem_equalRange_iff.mp hi
    rw [hnone i] at he
    cases he
  · exact absurd (hidle.listMutex.symm.trans ho.1) Bool.false_ne_true
  · rw [htrace] at hlast
    cases hlast

/-- **In every run the stream is served.** -/
theorem Reached.serving {m₀ : Machine σ} (h : Reached env m₀ m) (hidle : Idle m₀)
    (hsole : m.Sole s fd) (hr : m.shouldRun = true) : m.Serving s fd := by
  obtain ⟨m₁, ⟨⟨b, hbegun, hsetup⟩, -, -⟩, hsteps⟩ := h
  have hfresh : m₁.Fresh s fd :=
    inv_of_path (I := fun t => t.Fresh s fd) (fun _ _ hs => hs.fresh) hsetup (hbegun.fresh hidle)
  -- the descriptor was the stream's own at every step before
  have hrun : m.Watching ∧ (m.Sole s fd → m.shouldRun = true → m.Serving s fd) := by
    refine inv_of_path (I := fun t => t.Watching ∧
      (t.Sole s fd → t.shouldRun = true → t.Serving s fd)) (fun t u hs ht => ?_) hsteps
      ⟨hfresh.watching, hfresh.serving⟩
    refine ⟨hs.watching ht.1, fun hsole' hr' => ?_⟩
    have hsole₁ : t.Sole s fd := hsole'.back hs.trace_grows fun _ _ => hs.lives.there
    exact hs.serving ht.1 hsole₁ hsole' hr' (ht.2 hsole₁ (hs.stays hr'))
  exact hrun.2 hsole hr

theorem Reached.sound {m₀ : Machine σ} (h : Reached env m₀ m) : m.Sound := by
  obtain ⟨m₁, hset, hsteps⟩ := h
  exact (steps_working hsteps hset.working.1).1

/-! ## The last request -/

/-- **When the last request has its way.** At rest, with the engine
running, a stream that was last enabled has all its read transfers in
flight exactly if each has something to read into. One that was last
disabled has none in flight exactly if none was ever started: the stream
does not read from the start, and no drain has found a request to enable
it, or there is nothing to read into. -/
theorem obeys_iff (env : Env σ) (m₀ m : Machine σ) (hidle : Idle m₀) (h : Reached env m₀ m)
    (hr : m.shouldRun = true) (hrest : m.AtRest) (s : ℕ) (fd : ℤ) (hsole : m.Sole s fd) :
    m.Obeys s ↔
      (lastReading s m.trace = some true → ∀ e ∈ m.entries, e.ReadsFrom s → e.bufferSize ≠ 0) ∧
      (lastReading s m.trace = some false → ∀ e ∈ m.entries, e.ReadsFrom s →
        e.bufferSize = 0 ∨ (¬ m.Starts s ∧ ¬ Found fd m.trace)) := by
  have hserving := h.serving hidle hsole hr
  have hsound := h.sound
  have hlist : ¬ fd ∈ m.listEnable := by
    rw [show m.listEnable = .empty from congrArg Lists.enable hrest.1]
    exact Unordered.not_mem_empty
  have hsettled : Found fd m.trace → m.Settled fd := fun hf =>
    (hserving.found hf).resolve_left fun howes => hlist howes.2
  -- a read transfer of the stream is in flight if it is on, and on if settled
  have hon : m.Settled fd → ∀ e ∈ m.entries, e.ReadsFrom s → e.bufferSize ≠ 0 →
      e.transfer.inFlight = true := by
    intro hset e he hreads hsize
    obtain ⟨i, hi⟩ := List.mem_iff_getElem?.mp he
    have hmem : i ∈ m.equalRange fd := mem_equalRange_iff.mpr ⟨e, hi, (hsole.1 e he).mpr hreads⟩
    rcases hset i hmem hr e hi hreads.1 with hen | hzero
    · exact (hsound i e hi).2 hr hen
    · exact absurd hzero hsize
  have hwhy : ∀ e ∈ m.entries, e.ReadsFrom s → e.transfer.inFlight = true →
      e.bufferSize ≠ 0 ∧ (m.Starts s ∨ Found fd m.trace) := by
    intro e he hreads hfl
    obtain ⟨i, hi⟩ := List.mem_iff_getElem?.mp he
    exact hserving.on i e hi ((hsole.1 e he).mpr hreads) ((hsound i e hi).1 hfl)
  refine ⟨fun ⟨hdisabled, henabled⟩ => ⟨fun hlast e he hreads => ?_, fun hlast e he hreads => ?_⟩,
    fun ⟨hsized, hnever⟩ => ⟨fun hlast e he hreads => ?_, fun hlast e he hreads => ?_⟩⟩
  · exact (hwhy e he hreads (henabled hlast e he hreads)).1
  · by_contra hbut
    obtain ⟨hsize, hbegan⟩ := not_or.mp hbut
    have hset : m.Settled fd := by
      by_cases hst : m.Starts s
      · exact hserving.started hst
      · exact hsettled (by_contra fun hf => hbegan ⟨hst, hf⟩)
    exact absurd ((hdisabled hlast e he hreads).symm.trans (hon hset e he hreads hsize))
      Bool.false_ne_true
  · rw [Bool.eq_false_iff]
    intro hfl
    obtain ⟨hsize, hbegan⟩ := hwhy e he hreads hfl
    rcases hnever hlast e he hreads with hzero | ⟨hst, hf⟩
    · exact hsize hzero
    · exact hbegan.elim hst hf
  · have hf := (hserving.asked hlast).resolve_left hlist
    exact hon (hsettled hf) e he hreads (hsized hlast e he hreads)

/-- Another thread makes a request about reading, and the engine reads the
notice. -/
def turn (r : Request) : List Action := [.thread (.accept r), .thread .notify, readies 3]

/-- A stream that reads from the start is enabled once more. -/
theorem obeys_iff_sample :
    ∃ m, Session steady (constructed [sampleStream 64 1 0] ⟨64, 4096⟩ 4) .poll
      (turn (.enable 0)) m ∧ lastReading 0 m.trace = some true ∧
      (m.Obeys 0 ↔
        (lastReading 0 m.trace = some true →
          ∀ e ∈ m.entries, e.ReadsFrom 0 → e.bufferSize ≠ 0) ∧
        (lastReading 0 m.trace = some false → ∀ e ∈ m.entries, e.ReadsFrom 0 →
          e.bufferSize = 0 ∨ (¬ m.Starts 0 ∧ ¬ Found 100 m.trace))) := by
  have hidle : Idle (constructed [sampleStream 64 1 0] ⟨64, 4096⟩ 4) :=
    constructed_idle (by decide +kernel)
  obtain ⟨m, hm, hr, hrest, hsole, hlast⟩ := exists_session (P := fun m =>
    m.shouldRun = true ∧ m.AtRest ∧ m.Sole 0 100 ∧ lastReading 0 m.trace = some true)
    steady .poll (turn (.enable 0)) hidle (by decide +kernel)
  exact ⟨m, hm, hlast, obeys_iff steady _ m hidle hm.path hr hrest 0 100 hsole⟩

/-- **A disabling that does not have its way**: the transfer completes
normally after libusb was asked to cancel it, and is in flight again when
everything has come to rest. -/
theorem disobeys :
    ∃ m, Session steady (constructed [sampleStream 64 1 0] ⟨64, 4096⟩ 4) .poll
      (turn (.disable 0) ++ [reports [⟨0, .completed, [1, 96, 7], 0⟩]]) m ∧
      m.shouldRun = true ∧ m.AtRest ∧ m.Sole 0 100 ∧ ⟨true, .cancelled 0⟩ ∈ m.trace ∧
      ¬ m.Obeys 0 := by
  have hidle : Idle (constructed [sampleStream 64 1 0] ⟨64, 4096⟩ 4) :=
    constructed_idle (by decide +kernel)
  exact exists_session (P := fun m => m.shouldRun = true ∧ m.AtRest ∧ m.Sole 0 100 ∧
    ⟨true, .cancelled 0⟩ ∈ m.trace ∧ ¬ m.Obeys 0) steady .poll
    (turn (.disable 0) ++ [reports [⟨0, .completed, [1, 96, 7], 0⟩]]) hidle (by decide +kernel)

end Stream

end SgFtdi
