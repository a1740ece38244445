import Mathlib.Data.List.Basic
import Mathlib.Data.Nat.Notation
import Mathlib.Logic.Function.Basic
import Mathlib.Logic.Relation

/-!
# Threads that meet

Three ways in which what one thread does depends on another: the locks and
ends it waits for, a bell that tells it of something, and a queue it is
shown the front of.
-/

namespace SgFtdi

open Relation

/-! ## Locks

A `Discipline` reads off each place of a thread's code which locks are
held there, which must be free before the thread goes on, and whose end it
waits for. Locks are not recursive: one that a thread holds itself is not
free for it. A system of threads is deadlocked where a thread waits, over
however many others, for itself. -/

section Locks

variable {Thread Lock Place : Type}

/-- **What a place of the code holds and waits for.** -/
structure Discipline (Thread Lock Place : Type) where
  holds : Place → Lock → Prop
  wants : Place → Lock → Prop
  joins : Place → Thread → Prop
  finished : Place → Prop

namespace Discipline

variable (D : Discipline Thread Lock Place) {s : Thread → Place} {t u : Thread} {p : Place}

/-- A thread waits for the owner of a lock it wants, which may be itself,
and for a thread it joins. -/
inductive WaitsFor (s : Thread → Place) (t u : Thread) : Prop
  | lock {l : Lock} : D.wants (s t) l → D.holds (s u) l → WaitsFor s t u
  | join : D.joins (s t) u → ¬ D.finished (s u) → WaitsFor s t u

/-- **A deadlock**: a thread that waits for itself, directly or through
others. -/
def Deadlocked (s : Thread → Place) : Prop := ∃ t, TransGen (D.WaitsFor s) t t

/-- Nobody holds a lock. -/
def Free (s : Thread → Place) (l : Lock) : Prop := ∀ u, ¬ D.holds (s u) l

/-- No lock is held twice. -/
def Exclusive (s : Thread → Place) : Prop :=
  ∀ t u l, D.holds (s t) l → D.holds (s u) l → t = u

/-- A thread that goes to a place takes there only what is free. -/
def Takes (s : Thread → Place) (t : Thread) (p : Place) : Prop :=
  ∀ l, D.holds p l → D.holds (s t) l ∨ D.Free s l

variable {D}

/-- A thread that waits for itself. -/
theorem Deadlocked.alone (h : D.WaitsFor s t t) : D.Deadlocked s := ⟨t, .single h⟩

/-- Two threads that wait for each other. -/
theorem Deadlocked.pair (h : D.WaitsFor s t u) (h' : D.WaitsFor s u t) : D.Deadlocked s :=
  ⟨t, .tail (.single h) h'⟩

/-- **Where every wait goes down in rank nothing is deadlocked.** -/
theorem not_deadlocked_of_rank (rank : Place → ℕ)
    (h : ∀ t u, D.WaitsFor s t u → rank (s u) < rank (s t)) : ¬ D.Deadlocked s := by
  rintro ⟨t, ht⟩
  have hdown : ∀ v, TransGen (D.WaitsFor s) t v → rank (s v) < rank (s t) := by
    intro v hv
    induction hv with
    | single hw => exact h _ _ hw
    | tail _ hw ih =>
        have hlt := h _ _ hw
        omega
  have hlt := hdown t ht
  omega

variable [DecidableEq Thread]

/-- **Locks stay exclusive** where each is taken only when it is free. -/
theorem Exclusive.update (h : D.Exclusive s) (ht : D.Takes s t p) :
    D.Exclusive (Function.update s t p) := by
  -- whoever else holds what `t` holds now held it before
  have hother : ∀ u l, u ≠ t → D.holds (s u) l → D.holds p l → False := by
    intro u l hut hu hp
    rcases ht l hp with hmine | hfree
    · exact hut (h u t l hu hmine)
    · exact hfree u hu
  intro u v l hu hv
  by_cases hut : u = t <;> by_cases hvt : v = t
  · rw [hut, hvt]
  · subst hut
    rw [Function.update_self] at hu
    rw [Function.update_of_ne hvt] at hv
    exact (hother v l hvt hv hu).elim
  · subst hvt
    rw [Function.update_self] at hv
    rw [Function.update_of_ne hut] at hu
    exact (hother u l hut hu hv).elim
  · rw [Function.update_of_ne hut] at hu
    rw [Function.update_of_ne hvt] at hv
    exact h u v l hu hv

end Discipline

end Locks

/-! ## A doorbell

Callers leave something and then ring; whoever attends to the bell stops it
and then takes all there is. The two steps of a caller and the two of the
attendant may interleave in any way. A caller rings behind what it has
left, and the bell is stopped ahead of the taking, so what waits while
nobody is about to ring and nobody is on the way has a bell that is still
ringing.

A `Doorbell` reads these off the states of any system: whether something
waits there, how often the bell was rung since it was stopped, which
callers are about to ring, and whether the attendant is on the way. -/

section Bell

variable {S Caller : Type}

/-- **What the states of a system say of its doorbell.** -/
structure Doorbell (S Caller : Type) where
  waits : S → Prop
  rings : S → ℕ
  about : S → Caller → Prop
  coming : S → Prop

namespace Doorbell

variable (D : Doorbell S Caller) {s t : S}

/-- **One step**: a caller leaves something and is about to ring, someone
rings, the attendant sets out, it takes what waits, or nothing of this
happens and nothing is added. -/
inductive Move (s t : S) : Prop
  | left (c : Caller) : D.about t c → Move s t
  | rung : 0 < D.rings t → Move s t
  | stopped : D.coming t → Move s t
  | taken : ¬ D.waits t → Move s t
  | passed : (D.coming s → D.coming t) → (D.waits t → D.waits s) → D.rings s ≤ D.rings t →
      (∀ c, D.about s c → D.about t c) → Move s t

/-- **What waits is heard**, or will be. -/
def Heard (s : S) : Prop := D.waits s → D.coming s ∨ 0 < D.rings s ∨ ∃ c, D.about s c

variable {D}

theorem Move.heard (h : D.Move s t) (hs : D.Heard s) : D.Heard t := by
  intro hw
  cases h with
  | left c hc => exact .inr (.inr ⟨c, hc⟩)
  | rung hr => exact .inr (.inl hr)
  | stopped hc => exact .inl hc
  | taken hn => exact absurd hw hn
  | passed hcoming hwaits hrings habout =>
      rcases hs (hwaits hw) with hc | hr | ⟨c, hc⟩
      · exact .inl (hcoming hc)
      · exact .inr (.inl (by omega))
      · exact .inr (.inr ⟨c, habout c hc⟩)

/-- **Nothing waits unheard**: with nobody on the way and nobody about to
ring, the bell rings for what waits. -/
theorem Heard.rings (h : D.Heard s) (hcoming : ¬ D.coming s) (habout : ∀ c, ¬ D.about s c)
    (hwaits : D.waits s) : 0 < D.rings s := by
  rcases h hwaits with hc | hr | ⟨c, hc⟩
  · exact absurd hc hcoming
  · exact hr
  · exact absurd hc (habout c)

end Doorbell

end Bell

/-! ## A sender that shows the front of its queue

A sender keeps what was appended to its queue until a receiver has taken
it. It offers a window, which is a copy of the front of the queue; the
receiver takes the front of the window, and only then does the sender
drop it. One window is out at a time. Whatever the order of appends,
offers and takes, what the receiver has got and what is still queued make
up what was appended. -/

/-- A sender, with what its receiver has got. -/
structure Sender (α : Type) where
  appended : List α
  queue : List α
  sent : List α
  window : Option (List α)

namespace Sender

variable {α : Type} {s t : Sender α}

/-- **What can happen to a sender.** -/
inductive Step (s : Sender α) : Sender α → Prop
  | append (xs : List α) : Step s { s with
      appended := s.appended ++ xs
      queue := s.queue ++ xs }
  | offer (n : ℕ) : s.window = none → Step s { s with window := some (s.queue.take n) }
  | taken {w : List α} (k : ℕ) : s.window = some w → Step s { s with
      sent := s.sent ++ w.take k
      queue := s.queue.drop (w.take k).length
      window := none }

/-- **Nothing is lost, sent twice or reordered**, and the window is the
front of the queue. -/
structure Exact (s : Sender α) : Prop where
  balance : s.sent ++ s.queue = s.appended
  window : ∀ w, s.window = some w → w <+: s.queue

theorem Step.exact (h : Step s t) (hs : s.Exact) : t.Exact := by
  cases h with
  | append xs =>
      refine ⟨?_, fun w hw => (hs.window w hw).trans (List.prefix_append _ _)⟩
      show s.sent ++ (s.queue ++ xs) = s.appended ++ xs
      rw [← List.append_assoc, hs.balance]
  | offer n hn =>
      refine ⟨hs.balance, fun w hw => ?_⟩
      cases hw
      exact List.take_prefix n s.queue
  | @taken w k hw =>
      refine ⟨?_, fun w' hw' => by cases hw'⟩
      have hfront : w.take k <+: s.queue := (List.take_prefix k w).trans (hs.window w hw)
      obtain ⟨rest, hrest⟩ := hfront
      show s.sent ++ w.take k ++ s.queue.drop (w.take k).length = s.appended
      rw [← hs.balance, ← hrest, List.drop_left, List.append_assoc]

/-- **Along every run of a sender.** -/
theorem exact_of_steps (h : ReflTransGen Step s t) (hs : s.Exact) : t.Exact := by
  induction h with
  | refl => exact hs
  | tail _ hst ih => exact hst.exact ih

end Sender

end SgFtdi
