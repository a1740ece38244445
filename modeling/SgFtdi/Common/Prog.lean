import Mathlib.Logic.Relation

/-!
# Programs with a state, exceptions and no promise to come back

A `Prog` runs on a state and ends in one of three ways: it returns a
value, it throws, or it never comes back. The state it has reached is
kept in every case, so what an exception leaves behind is still there for
the handler that catches it.

`Ends` is the weakest precondition of such a program, one postcondition
for the return and one for the throw, and nothing asked of a program that
does not come back. Its rules are equivalences, so rewriting with them
runs a program symbolically. `Follows` reads a program as a path of steps
of a relation, with one broken step allowed before a throw; its rules
compose paths, so a program built from steps is itself a path.
-/

namespace SgFtdi

/-- How a run of a program ends. -/
inductive Outcome (ε α : Type) where
  | ret (a : α)
  | throw (e : ε)
  | hang
deriving DecidableEq, Repr

/-- A program over a state `σ` with exceptions `ε`. -/
def Prog (σ ε α : Type) : Type := σ → Outcome ε α × σ

namespace Prog

variable {σ ε α β : Type}

/-- Return a value and leave the state alone. -/
def ret (a : α) : Prog σ ε α := fun s => (.ret a, s)

/-- Run `p`, and `f` on what it returns. -/
def andThen (p : Prog σ ε α) (f : α → Prog σ ε β) : Prog σ ε β := fun s =>
  match p s with
  | (.ret a, s') => f a s'
  | (.throw e, s') => (.throw e, s')
  | (.hang, s') => (.hang, s')

instance : Monad (Prog σ ε) where
  pure := ret
  bind := andThen

/-- Throw an exception. -/
def raise (e : ε) : Prog σ ε α := fun s => (.throw e, s)

/-- Never come back: an endless loop, or a lock nobody will release. -/
def hang : Prog σ ε α := fun s => (.hang, s)

/-- Look at the state. -/
def look (f : σ → α) : Prog σ ε α := fun s => (.ret (f s), s)

/-- Change the state. -/
def alter (f : σ → σ) : Prog σ ε Unit := fun s => (.ret (), f s)

/-- Ask the state for a value, which may change it. -/
def ask (f : σ → α × σ) : Prog σ ε α := fun s => (.ret (f s).1, (f s).2)

/-- Run `p`, and the handler on what it throws. -/
def rescue (p : Prog σ ε α) (handler : ε → Prog σ ε α) : Prog σ ε α := fun s =>
  match p s with
  | (.ret a, s') => (.ret a, s')
  | (.throw e, s') => handler e s'
  | (.hang, s') => (.hang, s')

/-- Run `p`, and change the state on the way out however it leaves. -/
def leaving (p : Prog σ ε α) (f : σ → σ) : Prog σ ε α := fun s =>
  match p s with
  | (.ret a, s') => (.ret a, f s')
  | (.throw e, s') => (.throw e, f s')
  | (.hang, s') => (.hang, s')

/-- Run the body on every element of a list, in order. -/
def each : List β → (β → Prog σ ε Unit) → Prog σ ε Unit
  | [], _ => ret ()
  | x :: xs, body => andThen (body x) fun _ => each xs body

/-- Run a body on each element and say whether one of them answered yes. -/
def anyOf : List β → (β → Prog σ ε Bool) → Prog σ ε Bool
  | [], _ => ret false
  | x :: xs, body => andThen (body x) fun b => andThen (anyOf xs body) fun c => ret (b || c)

/-- One after another, in groups or not. -/
theorem bind_bind {γ : Type} (p : Prog σ ε α) (f : α → Prog σ ε β) (g : β → Prog σ ε γ) :
    p >>= f >>= g = p >>= fun a => f a >>= g := by
  funext s
  show andThen (andThen p f) g s = andThen p (fun a => andThen (f a) g) s
  unfold andThen
  rcases p s with ⟨a | e | -, t⟩ <;> rfl

/-- Behind what has returned. -/
theorem bind_ret {p : Prog σ ε α} {f : α → Prog σ ε β} {a : α} {s s' : σ}
    (hp : p s = (.ret a, s')) : (p >>= f) s = f a s' := by
  show andThen p f s = _
  unfold andThen
  rw [hp]

theorem raise_bind (e : ε) (f : α → Prog σ ε β) : (raise e >>= f : Prog σ ε β) = raise e := rfl

theorem ite_bind {c : Prop} [Decidable c] (p q : Prog σ ε α) (f : α → Prog σ ε β) :
    (if c then p else q) >>= f = if c then p >>= f else q >>= f := by
  split <;> rfl

/-! ## Weakest preconditions -/

/-- **The weakest precondition.** Where the run returns `Q` holds of the
value and the state, where it throws `E` does. -/
def Ends (p : Prog σ ε α) (Q : α → σ → Prop) (E : ε → σ → Prop) (s : σ) : Prop :=
  match p s with
  | (.ret a, s') => Q a s'
  | (.throw e, s') => E e s'
  | (.hang, _) => True

variable {Q Q' : α → σ → Prop} {E E' : ε → σ → Prop} {R : β → σ → Prop} {s s' : σ}
variable {p : Prog σ ε α}

theorem ends_ret_of {a : α} (h : Ends p Q E s) (hp : p s = (.ret a, s')) : Q a s' := by
  simpa only [Ends, hp] using h

theorem ends_throw_of {e : ε} (h : Ends p Q E s) (hp : p s = (.throw e, s')) : E e s' := by
  simpa only [Ends, hp] using h

/-- A precondition gives any weaker postcondition. -/
theorem Ends.mono (h : Ends p Q E s) (hQ : ∀ a t, Q a t → Q' a t) (hE : ∀ e t, E e t → E' e t) :
    Ends p Q' E' s := by
  unfold Ends at h ⊢
  rcases hp : p s with ⟨a | e | -, t⟩
  · rw [hp] at h; exact hQ a t h
  · rw [hp] at h; exact hE e t h
  · trivial

/-- Two postconditions of one run hold together. -/
theorem Ends.and (h : Ends p Q E s) (h' : Ends p Q' E' s) :
    Ends p (fun a t => Q a t ∧ Q' a t) (fun e t => E e t ∧ E' e t) s := by
  unfold Ends at h h' ⊢
  rcases hp : p s with ⟨a | e | -, t⟩
  · rw [hp] at h h'; exact ⟨h, h'⟩
  · rw [hp] at h h'; exact ⟨h, h'⟩
  · trivial

/-- What a run reaches is a postcondition of it. -/
theorem ends_self : Ends p (fun a t => p s = (.ret a, t)) (fun e t => p s = (.throw e, t)) s := by
  unfold Ends
  rcases hp : p s with ⟨a | e | -, t⟩ <;> simp

/-- A run that is known to return. -/
theorem ends_of_ret {a : α} (hp : p s = (.ret a, s')) (h : Q a s') : Ends p Q E s := by
  unfold Ends
  rw [hp]
  exact h

/-- What holds of the state a run gets to. -/
theorem ends_of_state {I : σ → Prop} (h : I (p s).2) :
    Ends p (fun _ t => I t) (fun _ t => I t) s := by
  unfold Ends
  rcases hp : p s with ⟨a | e | -, t⟩
  · rwa [hp] at h
  · rwa [hp] at h
  · trivial

@[simp] theorem ends_ret {a : α} : Ends (ret a) Q E s ↔ Q a s := Iff.rfl

@[simp] theorem ends_pure {a : α} : Ends (pure a : Prog σ ε α) Q E s ↔ Q a s := Iff.rfl

@[simp] theorem ends_raise {e : ε} : Ends (raise e) Q E s ↔ E e s := Iff.rfl

@[simp] theorem ends_hang : Ends (hang : Prog σ ε α) Q E s := trivial

@[simp] theorem ends_look {f : σ → α} : Ends (look f) Q E s ↔ Q (f s) s := Iff.rfl

@[simp] theorem ends_alter {f : σ → σ} {Q : Unit → σ → Prop} :
    Ends (alter f) Q E s ↔ Q () (f s) := Iff.rfl

@[simp] theorem ends_ask {f : σ → α × σ} : Ends (ask f) Q E s ↔ Q (f s).1 (f s).2 := Iff.rfl

@[simp] theorem ends_andThen {f : α → Prog σ ε β} :
    Ends (andThen p f) R E s ↔ Ends p (fun a t => Ends (f a) R E t) E s := by
  unfold Ends andThen
  rcases p s with ⟨a | e | -, t⟩ <;> rfl

@[simp] theorem ends_bind {f : α → Prog σ ε β} :
    Ends (p >>= f) R E s ↔ Ends p (fun a t => Ends (f a) R E t) E s := ends_andThen

@[simp] theorem ends_rescue {handler : ε → Prog σ ε α} :
    Ends (rescue p handler) Q E s ↔ Ends p Q (fun e t => Ends (handler e) Q E t) s := by
  unfold Ends rescue
  rcases p s with ⟨a | e | -, t⟩ <;> rfl

@[simp] theorem ends_leaving {f : σ → σ} :
    Ends (leaving p f) Q E s ↔ Ends p (fun a t => Q a (f t)) (fun e t => E e (f t)) s := by
  unfold Ends leaving
  rcases p s with ⟨a | e | -, t⟩ <;> rfl

theorem ends_ite {c : Prop} [Decidable c] {q : Prog σ ε α} :
    Ends (if c then p else q) Q E s ↔ (c → Ends p Q E s) ∧ (¬ c → Ends q Q E s) := by
  split <;> simp [*]

/-- A loop over two lists is one after the other. -/
theorem ends_each_append {body : β → Prog σ ε Unit} {Q : Unit → σ → Prop} {ys : List β} :
    ∀ {xs : List β} {s : σ}, Ends (each (xs ++ ys) body) Q E s ↔
      Ends (each xs body) (fun _ t => Ends (each ys body) Q E t) E s
  | [], _ => Iff.rfl
  | x :: xs, s => by
      have ih : ∀ t, Ends (each (xs ++ ys) body) Q E t ↔ _ := fun _ => ends_each_append
      simp only [List.cons_append, each, ends_andThen, ih]

/-- **The loop rule.** What each turn of the body keeps, on the elements
still to come, the loop keeps. -/
theorem ends_each {body : β → Prog σ ε Unit} {I : List β → σ → Prop} {E : ε → σ → Prop} :
    ∀ {xs : List β} {s : σ}, I xs s →
      (∀ x rest t, I (x :: rest) t → Ends (body x) (fun _ => I rest) E t) →
      Ends (each xs body) (fun _ => I []) E s
  | [], _, h, _ => h
  | x :: xs, s, h, hbody => by
      rw [each, ends_andThen]
      exact (hbody x xs s h).mono (fun _ _ ht => ends_each ht hbody) fun _ _ he => he

/-- **A turn of a loop is bad**: one that is reached, all before it having
returned. -/
def Meets (bad : β → σ → Prop) (body : β → Prog σ ε Unit) : List β → σ → Prop
  | [], _ => False
  | x :: xs, s => bad x s ∨ ∃ t, body x s = (.ret (), t) ∧ Meets bad body xs t

/-- **The loop rule for a loop that meets nothing bad.** -/
theorem ends_each_unless {bad : β → σ → Prop} {body : β → Prog σ ε Unit} {I J : σ → Prop} :
    ∀ {xs : List β} {s : σ}, I s → ¬ Meets bad body xs s →
      (∀ x ∈ xs, ∀ t, I t → ¬ bad x t → Ends (body x) (fun _ => I) (fun _ => J) t) →
      Ends (each xs body) (fun _ => I) (fun _ => J) s
  | [], _, h, _, _ => h
  | x :: xs, s, h, hmeets, hbody => by
      rw [each, ends_andThen]
      refine (ends_self.and (hbody x List.mem_cons_self s h fun hx => hmeets (.inl hx))).mono ?_
        fun _ _ he => he.2
      rintro _ t ⟨hrun, ht⟩
      exact ends_each_unless ht (fun hmeets' => hmeets (.inr ⟨t, hrun, hmeets'⟩))
        fun y hy => hbody y (List.mem_cons_of_mem _ hy)

/-- **The loop rule for what stops a loop's owner**: a flag that every turn
raises exactly where the turn is bad is raised by the loop exactly where
it meets a bad turn. -/
theorem ends_each_meets {B : β → σ → Prop} {f : β → Prog σ ε Unit} {I R : σ → Prop} :
    ∀ {l : List β} {s : σ}, I s →
      (∀ x t, I t → Ends (f x) (fun _ u => I u ∧ (R u ↔ R t ∨ B x t))
        (fun _ _ => True) t) →
      Ends (each l f) (fun _ u => I u ∧ (R u ↔ R s ∨ Meets B f l s))
        (fun _ _ => True) s
  | [], _, h, _ => ⟨h, by simp [Meets]⟩
  | x :: l, s, h, hbody => by
      rw [each, ends_andThen]
      refine (ends_self.and (hbody x s h)).mono ?_ fun _ _ _ => trivial
      rintro _ t ⟨hrun, ht, hone⟩
      refine (ends_each_meets ht hbody).mono ?_ fun _ _ _ => trivial
      rintro _ u ⟨hu, hrest⟩
      refine ⟨hu, ?_⟩
      -- only this turn leaves `t`, so the rest of the loop is met there
      have hlater : (∃ t', f x s = (.ret (), t') ∧ Meets B f l t') ↔
          Meets B f l t := by
        rw [hrun]
        simp
      rw [hrest, hone, Meets, hlater, or_assoc]

/-! ## When a program throws -/

/-- **`R` says when a program throws**, and leaves a state with `F`: where it
returns `R` does not hold, and where it throws `R` holds just if `F` holds
of what is left. -/
def Throws (F : σ → Prop) (p : Prog σ ε α) (R : Prop) (s : σ) : Prop :=
  Ends p (fun _ _ => ¬ R) (fun _ t => R ↔ F t) s

section Throws

variable {F : σ → Prop} {P P' : Prop}

theorem Throws.congr (h : Throws F p P s) (hP : P ↔ P') : Throws F p P' s := by
  rwa [Throws, ← hP]

theorem Throws.never (h : Ends p Q (fun _ _ => False) s) : Throws F p False s :=
  h.mono (fun _ _ _ => id) fun _ _ hf => hf.elim

/-- A program that never leaves a state with `F` where it throws. -/
theorem Throws.unless (h : Ends p Q (fun _ t => ¬ F t) s) : Throws F p False s :=
  h.mono (fun _ _ _ => id) fun _ _ hf => ⟨False.elim, hf⟩

theorem Throws.raise {e : ε} : Throws F (raise e : Prog σ ε α) (F s) s := Iff.rfl

theorem Throws.look_bind {f : σ → α} {k : α → Prog σ ε β} (h : Throws F (k (f s)) P s) :
    Throws F (Prog.look f >>= k) P s := h

theorem Throws.alter_bind {f : σ → σ} {k : Unit → Prog σ ε β} (h : Throws F (k ()) P (f s)) :
    Throws F (Prog.alter f >>= k) P s := h

/-- Behind a program that does not throw. -/
theorem Throws.after {f : α → Prog σ ε β} {R : α → σ → Prop}
    (h : Ends p (fun a t => Throws F (f a) (R a t) t) (fun _ _ => False) s) :
    Throws F (p >>= f) (∃ a t, p s = (.ret a, t) ∧ R a t) s := by
  unfold Throws
  rw [ends_bind]
  refine (ends_self.and h).mono ?_ fun _ _ hf => hf.2.elim
  rintro a t ⟨hrun, ht⟩
  refine Throws.congr ht ⟨fun hr => ⟨a, t, hrun, hr⟩, ?_⟩
  rintro ⟨a', t', hrun', hr⟩
  rw [hrun] at hrun'
  cases hrun'
  exact hr

/-- One program and then another, either of which may throw. -/
theorem Throws.bind {f : α → Prog σ ε β} {R : α → σ → Prop} (h : Throws F p P s)
    (hf : Ends p (fun a t => Throws F (f a) (R a t) t) (fun _ _ => True) s) :
    Throws F (p >>= f) (P ∨ ∃ a t, p s = (.ret a, t) ∧ R a t) s := by
  unfold Throws
  rw [ends_bind]
  refine ((ends_self.and h).and hf).mono ?_ ?_
  · rintro a t ⟨⟨hrun, hnot⟩, ht⟩
    refine Throws.congr ht ⟨fun hr => .inr ⟨a, t, hrun, hr⟩, ?_⟩
    rintro (hp | ⟨a', t', hrun', hr⟩)
    · exact absurd hp hnot
    · rw [hrun] at hrun'
      cases hrun'
      exact hr
  · rintro e t ⟨⟨hrun, hiff⟩, -⟩
    refine ⟨?_, fun hF => .inl (hiff.mpr hF)⟩
    rintro (hp | ⟨a', t', hrun', -⟩)
    · exact hiff.mp hp
    · rw [hrun] at hrun'
      cases hrun'

theorem Throws.ite {c : Prop} [Decidable c] {q : Prog σ ε α} (hp : c → Throws F p P s)
    (hq : ¬ c → Throws F q P' s) : Throws F (if c then p else q) (if c then P else P') s := by
  split
  · next h => exact hp h
  · next h => exact hq h

theorem Throws.leaving {f : σ → σ} (h : Throws F p P s) (hf : ∀ t, F (f t) ↔ F t) :
    Throws F (leaving p f) P s := by
  unfold Throws
  rw [ends_leaving]
  exact Ends.mono h (fun _ _ hr => hr) fun _ t hr => hr.trans (hf t).symm

/-- A handler that throws on. -/
theorem Throws.rescue {handler : ε → Prog σ ε α} (h : Throws F p P s)
    (hh : ∀ e t, Ends (handler e) (fun _ _ => False) (fun _ u => F u ↔ F t) t) :
    Throws F (rescue p handler) P s := by
  unfold Throws
  rw [ends_rescue]
  refine Ends.mono h (fun _ _ hr => hr) fun e t hiff => ?_
  exact (hh e t).mono (fun _ _ hf => hf.elim) fun _ _ hu => hiff.trans hu.symm

/-- **The loop rule for exceptions**: a loop throws where one of its turns
does. -/
theorem Throws.each {R : β → σ → Prop} {body : β → Prog σ ε Unit} {I : σ → Prop} :
    ∀ {xs : List β} {s : σ}, I s →
      (∀ x ∈ xs, ∀ t, I t → Ends (body x) (fun _ => I) (fun _ _ => True) t ∧
        Throws F (body x) (R x t) t) →
      Throws F (Prog.each xs body) (Meets R body xs s) s
  | [], _, _, _ => id
  | x :: xs, s, hs, h => by
      obtain ⟨hkeep, hthrow⟩ := h x List.mem_cons_self s hs
      have hrest : Ends (body x) (fun _ t => Throws F (Prog.each xs body) (Meets R body xs t) t)
          (fun _ _ => True) s :=
        hkeep.mono (fun _ _ ht => Throws.each ht fun y hy => h y (List.mem_cons_of_mem _ hy))
          fun _ _ _ => trivial
      refine Throws.congr (Throws.bind (R := fun _ t => Meets R body xs t) hthrow hrest) ?_
      exact or_congr_right ⟨fun ⟨_, t, ht⟩ => ⟨t, ht⟩, fun ⟨t, ht⟩ => ⟨(), t, ht⟩⟩

end Throws

/-- **`p` comes back, and `R` holds of what it leaves.** -/
def After (p : Prog σ ε α) (R : α → σ → Prop) (s : σ) : Prop := ∃ a t, p s = (.ret a, t) ∧ R a t

theorem after_iff {R : α → σ → Prop} {a : α} (hp : p s = (.ret a, s')) :
    After p R s ↔ R a s' := by
  refine ⟨?_, fun h => ⟨a, s', hp, h⟩⟩
  rintro ⟨a', t, hp', h⟩
  rw [hp] at hp'
  cases hp'
  exact h

/-! ## Invariants of programs -/

/-- **A program preserves `I`**, whichever way it comes back. -/
def Preserves (I : σ → Prop) (p : Prog σ ε α) : Prop :=
  ∀ s, I s → Ends p (fun _ t => I t) (fun _ t => I t) s

section Preserves

variable {I : σ → Prop}

theorem Preserves.pure {a : α} : Preserves I (pure a : Prog σ ε α) := fun _ h => h

theorem Preserves.raise {e : ε} : Preserves I (raise e : Prog σ ε α) := fun _ h => h

theorem Preserves.hang : Preserves I (hang : Prog σ ε α) := fun _ _ => trivial

theorem Preserves.alter {f : σ → σ} (h : ∀ s, I s → I (f s)) :
    Preserves I (alter f : Prog σ ε Unit) := h

theorem Preserves.bind {f : α → Prog σ ε β} (hp : Preserves I p)
    (hf : ∀ a, Preserves I (f a)) : Preserves I (p >>= f) := by
  intro s hs
  rw [ends_bind]
  exact (hp s hs).mono (fun a t ht => hf a t ht) fun _ _ ht => ht

theorem Preserves.look {f : σ → α} : Preserves I (look f : Prog σ ε α) := fun _ h => h

theorem Preserves.ask {f : σ → α × σ} (h : ∀ s, I s → I (f s).2) :
    Preserves I (ask f : Prog σ ε α) := h

theorem Preserves.rescue {handler : ε → Prog σ ε α} (hp : Preserves I p)
    (hh : ∀ e, Preserves I (handler e)) : Preserves I (rescue p handler) := by
  intro s hs
  rw [ends_rescue]
  exact (hp s hs).mono (fun _ _ ht => ht) fun e t ht => hh e t ht

theorem Preserves.leaving {f : σ → σ} (hp : Preserves I p) (hf : ∀ s, I s → I (f s)) :
    Preserves I (leaving p f) := by
  intro s hs
  rw [ends_leaving]
  exact (hp s hs).mono (fun _ t ht => hf t ht) fun _ t ht => hf t ht

theorem Preserves.ite {c : Prop} [Decidable c] {q : Prog σ ε α} (hp : Preserves I p)
    (hq : Preserves I q) : Preserves I (if c then p else q) := by
  split
  · exact hp
  · exact hq

theorem Preserves.each {body : β → Prog σ ε Unit} {xs : List β}
    (h : ∀ x, Preserves I (body x)) : Preserves I (each xs body) := by
  induction xs with
  | nil => exact fun _ hs => hs
  | cons x xs ih => exact Preserves.bind (h x) fun _ => ih

theorem Preserves.anyOf {body : β → Prog σ ε Bool} {xs : List β}
    (h : ∀ x, Preserves I (body x)) : Preserves I (anyOf xs body) := by
  induction xs with
  | nil => exact fun _ hs => hs
  | cons x xs ih =>
      exact Preserves.bind (h x) fun _ => Preserves.bind ih fun _ => Preserves.pure

end Preserves

/-! ## Programs that come back -/

/-- **A program comes back**, by return or by exception. -/
def ComesBack (p : Prog σ ε α) : Prop := ∀ s, (p s).1 ≠ .hang

section ComesBack

theorem ComesBack.pure {a : α} : ComesBack (pure a : Prog σ ε α) := fun _ => nofun

theorem ComesBack.raise {e : ε} : ComesBack (raise e : Prog σ ε α) := fun _ => nofun

theorem ComesBack.look {f : σ → α} : ComesBack (look f : Prog σ ε α) := fun _ => nofun

theorem ComesBack.alter {f : σ → σ} : ComesBack (alter f : Prog σ ε Unit) := fun _ => nofun

theorem ComesBack.ask {f : σ → α × σ} : ComesBack (ask f : Prog σ ε α) := fun _ => nofun

theorem ComesBack.bind {f : α → Prog σ ε β} (hp : ComesBack p) (hf : ∀ a, ComesBack (f a)) :
    ComesBack (p >>= f) := by
  intro s
  show (andThen p f s).1 ≠ .hang
  have hs := hp s
  unfold andThen
  generalize p s = r at hs ⊢
  rcases r with ⟨a | e | -, t⟩
  · exact hf a t
  · nofun
  · exact absurd rfl hs

theorem ComesBack.rescue {handler : ε → Prog σ ε α} (hp : ComesBack p)
    (hh : ∀ e, ComesBack (handler e)) : ComesBack (rescue p handler) := by
  intro s
  have hs := hp s
  unfold Prog.rescue
  generalize p s = r at hs ⊢
  rcases r with ⟨a | e | -, t⟩
  · nofun
  · exact hh e t
  · exact absurd rfl hs

theorem ComesBack.ite {c : Prop} [Decidable c] {q : Prog σ ε α} (hp : ComesBack p)
    (hq : ComesBack q) : ComesBack (if c then p else q) := by
  split
  · exact hp
  · exact hq

theorem ComesBack.leaving {f : σ → σ} (hp : ComesBack p) : ComesBack (leaving p f) := by
  intro s
  have hs := hp s
  unfold Prog.leaving
  generalize p s = r at hs ⊢
  rcases r with ⟨a | e | -, t⟩
  · nofun
  · nofun
  · exact absurd rfl hs

theorem ComesBack.each {body : β → Prog σ ε Unit} (h : ∀ x, ComesBack (body x)) :
    ∀ xs : List β, ComesBack (each xs body)
  | [] => ComesBack.pure
  | x :: xs => (h x).bind fun _ => ComesBack.each h xs

end ComesBack

/-- A program that comes back and does not throw returns. -/
theorem Ends.after {p : Prog σ ε α} {Q : α → σ → Prop} {s : σ}
    (h : Ends p Q (fun _ _ => False) s) (hp : ComesBack p) : After p Q s := by
  have hback := hp s
  unfold Ends at h
  rcases hrun : p s with ⟨a | e | -, t⟩
  · rw [hrun] at h
    exact ⟨a, t, hrun, h⟩
  · rw [hrun] at h
    exact h.elim
  · rw [hrun] at hback
    exact absurd rfl hback

/-- What is left by a program that returns is a postcondition of it. -/
theorem After.ends {p : Prog σ ε α} {Q : α → σ → Prop} {E : ε → σ → Prop} {s : σ}
    (h : After p Q s) : Ends p Q E s := by
  obtain ⟨a, t, hp, hQ⟩ := h
  exact ends_of_ret hp hQ

/-- **One program after another**, both of which return. -/
theorem After.bind {p : Prog σ ε α} {f : α → Prog σ ε β} {Q : α → σ → Prop} {R : β → σ → Prop}
    {s : σ} (h : After p Q s) (hf : ∀ a t, Q a t → After (f a) R t) : After (p >>= f) R s := by
  obtain ⟨a, t, hp, hQ⟩ := h
  obtain ⟨b, u, hfa, hR⟩ := hf a t hQ
  exact ⟨b, u, (bind_ret hp).trans hfa, hR⟩

theorem After.mono {p : Prog σ ε α} {Q Q' : α → σ → Prop} {s : σ} (h : After p Q s)
    (hQ : ∀ a t, Q a t → Q' a t) : After p Q' s := by
  obtain ⟨a, t, hp, hq⟩ := h
  exact ⟨a, t, hp, hQ a t hq⟩

/-- A handler is not needed by what returns. -/
theorem After.rescue {p : Prog σ ε α} {handler : ε → Prog σ ε α} {Q : α → σ → Prop} {s : σ}
    (h : After p Q s) : After (Prog.rescue p handler) Q s := by
  obtain ⟨a, t, hp, hQ⟩ := h
  refine ⟨a, t, ?_, hQ⟩
  unfold Prog.rescue
  rw [hp]

section After

variable {Q : α → σ → Prop} {R : β → σ → Prop}

@[simp] theorem after_pure {a : α} : After (pure a : Prog σ ε α) Q s ↔ Q a s := after_iff rfl

theorem after_look_bind {f : σ → α} {k : α → Prog σ ε β} :
    After (look f >>= k) R s ↔ After (k (f s)) R s := Iff.rfl

theorem after_ask_bind {f : σ → α × σ} {k : α → Prog σ ε β} :
    After (ask f >>= k) R s ↔ After (k (f s).1) R (f s).2 := Iff.rfl

/-- Behind what has returned. -/
theorem after_bind_of_ret {p : Prog σ ε α} {k : α → Prog σ ε β} {a : α} {t : σ}
    (hp : p s = (.ret a, t)) : After (p >>= k) R s ↔ After (k a) R t := by
  unfold After
  rw [bind_ret hp]

theorem after_ite {c : Prop} [Decidable c] {p q : Prog σ ε α} :
    After (if c then p else q) Q s ↔ (c → After p Q s) ∧ (¬ c → After q Q s) := by
  split <;> simp [*]

end After

/-! ## What holds even of a run that never ends -/

/-- **A program stays in `I`**, whichever way it comes back, and as far as
it gets where it does not. -/
def Stays (I : σ → Prop) (p : Prog σ ε α) : Prop := ∀ s, I s → I (p s).2

section Stays

variable {I : σ → Prop}

theorem Stays.pure {a : α} : Stays I (pure a : Prog σ ε α) := fun _ h => h

theorem Stays.raise {e : ε} : Stays I (raise e : Prog σ ε α) := fun _ h => h

theorem Stays.hang : Stays I (hang : Prog σ ε α) := fun _ h => h

theorem Stays.look {f : σ → α} : Stays I (look f : Prog σ ε α) := fun _ h => h

theorem Stays.alter {f : σ → σ} (h : ∀ s, I s → I (f s)) : Stays I (alter f : Prog σ ε Unit) := h

theorem Stays.ask {f : σ → α × σ} (h : ∀ s, I s → I (f s).2) : Stays I (ask f : Prog σ ε α) := h

theorem Stays.bind {f : α → Prog σ ε β} (hp : Stays I p) (hf : ∀ a, Stays I (f a)) :
    Stays I (p >>= f) := by
  intro s hs
  have ht := hp s hs
  show I (andThen p f s).2
  unfold andThen
  generalize p s = r at ht ⊢
  rcases r with ⟨a | e | -, t⟩
  · exact hf a t ht
  · exact ht
  · exact ht

theorem Stays.rescue {handler : ε → Prog σ ε α} (hp : Stays I p) (hh : ∀ e, Stays I (handler e)) :
    Stays I (rescue p handler) := by
  intro s hs
  have ht := hp s hs
  unfold Prog.rescue
  generalize p s = r at ht ⊢
  rcases r with ⟨a | e | -, t⟩
  · exact ht
  · exact hh e t ht
  · exact ht

theorem Stays.ite {c : Prop} [Decidable c] {q : Prog σ ε α} (hp : Stays I p) (hq : Stays I q) :
    Stays I (if c then p else q) := by
  split
  · exact hp
  · exact hq

theorem Stays.each {body : β → Prog σ ε Unit} : ∀ {xs : List β},
    (∀ x ∈ xs, Stays I (body x)) → Stays I (each xs body)
  | [], _ => fun _ hs => hs
  | x :: _, h => Stays.bind (h x List.mem_cons_self) fun _ =>
      Stays.each fun y hy => h y (List.mem_cons_of_mem _ hy)

end Stays

/-! ## Where a run gets to -/

/-- **Where a run gets to**, whichever way it ends: `Ends` with a third
postcondition, for the state of a run that does not come back. -/
def Runs (p : Prog σ ε α) (Q : α → σ → Prop) (E : ε → σ → Prop) (H : σ → Prop) (s : σ) : Prop :=
  match p s with
  | (.ret a, s') => Q a s'
  | (.throw e, s') => E e s'
  | (.hang, s') => H s'

section Runs

variable {H H' : σ → Prop} {c : Prop} [Decidable c]

theorem Runs.mono (h : Runs p Q E H s) (hQ : ∀ a t, Q a t → Q' a t) (hE : ∀ e t, E e t → E' e t)
    (hH : ∀ t, H t → H' t) : Runs p Q' E' H' s := by
  unfold Runs at h ⊢
  rcases hp : p s with ⟨a | e | -, t⟩
  · rw [hp] at h; exact hQ a t h
  · rw [hp] at h; exact hE e t h
  · rw [hp] at h; exact hH t h

/-- Where a run ends is where it gets to. -/
theorem Runs.ends (h : Runs p Q E H s) : Ends p Q E s := by
  unfold Runs at h
  unfold Ends
  rcases hp : p s with ⟨a | e | -, t⟩
  · rw [hp] at h; exact h
  · rw [hp] at h; exact h
  · trivial

/-- A program that comes back does so from every state. -/
theorem ComesBack.runs (hp : ComesBack p) (h : Ends p Q E s) : Runs p Q E (fun _ => False) s := by
  have hs := hp s
  unfold Ends at h
  unfold Runs
  generalize p s = r at hs h ⊢
  rcases r with ⟨a | e | -, t⟩
  · exact h
  · exact h
  · exact hs rfl

/-- What holds of a program that comes back holds of how it does. -/
theorem ComesBack.outcome {R : Outcome ε α → σ → Prop} (hp : ComesBack p)
    (h : Ends p (fun a t => R (.ret a) t) (fun e t => R (.throw e) t) s) :
    R (p s).1 (p s).2 := by
  have hback := hp s
  unfold Ends at h
  rcases hrun : p s with ⟨a | e | -, t⟩
  · rwa [hrun] at h
  · rwa [hrun] at h
  · rw [hrun] at hback
    exact absurd rfl hback

/-- A program that hangs only where `P` fails. -/
theorem Ends.runs_unless {P : Prop} (h : Ends p Q E s) (hp : P → ComesBack p) :
    Runs p Q E (fun _ => ¬ P) s := by
  by_cases hP : P
  · exact ((hp hP).runs h).mono (fun _ _ hq => hq) (fun _ _ he => he) fun _ hf => hf.elim
  · unfold Ends at h
    unfold Runs
    generalize p s = r at h ⊢
    rcases r with ⟨a | e | -, t⟩
    · exact h
    · exact h
    · exact hP

theorem Runs.comesBack (h : Runs p Q E (fun _ => False) s) : (p s).1 ≠ .hang := by
  unfold Runs at h
  generalize p s = r at h ⊢
  rcases r with ⟨a | e | -, t⟩
  · nofun
  · nofun
  · exact h.elim

/-- A program that neither throws nor hangs returns. -/
theorem Runs.after (h : Runs p Q (fun _ _ => False) (fun _ => False) s) : After p Q s := by
  unfold Runs at h
  rcases hp : p s with ⟨a | e | -, t⟩
  · rw [hp] at h
    exact ⟨a, t, hp, h⟩
  · rw [hp] at h
    exact h.elim
  · rw [hp] at h
    exact h.elim

/-- How a run ends, where it does not hang. -/
theorem Ends.runs_self (h : Ends p Q E s) : Runs p Q E (fun t => p s = (.hang, t)) s := by
  unfold Ends at h
  unfold Runs
  rcases hp : p s with ⟨a | e | -, t⟩
  · rwa [hp] at h
  · rwa [hp] at h
  · rfl

@[simp] theorem runs_pure {a : α} : Runs (pure a : Prog σ ε α) Q E H s ↔ Q a s := Iff.rfl

@[simp] theorem runs_raise {e : ε} : Runs (raise e) Q E H s ↔ E e s := Iff.rfl

@[simp] theorem runs_hang : Runs (hang : Prog σ ε α) Q E H s ↔ H s := Iff.rfl

@[simp] theorem runs_look {f : σ → α} : Runs (look f) Q E H s ↔ Q (f s) s := Iff.rfl

@[simp] theorem runs_alter {f : σ → σ} {Q : Unit → σ → Prop} :
    Runs (alter f) Q E H s ↔ Q () (f s) := Iff.rfl

@[simp] theorem runs_ask {f : σ → α × σ} : Runs (ask f) Q E H s ↔ Q (f s).1 (f s).2 := Iff.rfl

@[simp] theorem runs_bind {f : α → Prog σ ε β} :
    Runs (p >>= f) R E H s ↔ Runs p (fun a t => Runs (f a) R E H t) E H s := by
  show Runs (andThen p f) R E H s ↔ _
  unfold Runs andThen
  rcases p s with ⟨a | e | -, t⟩ <;> rfl

@[simp] theorem runs_rescue {handler : ε → Prog σ ε α} :
    Runs (rescue p handler) Q E H s ↔ Runs p Q (fun e t => Runs (handler e) Q E H t) H s := by
  unfold Runs rescue
  rcases p s with ⟨a | e | -, t⟩ <;> rfl

@[simp] theorem runs_leaving {f : σ → σ} :
    Runs (leaving p f) Q E H s ↔
      Runs p (fun a t => Q a (f t)) (fun e t => E e (f t)) H s := by
  unfold Runs leaving
  rcases p s with ⟨a | e | -, t⟩ <;> rfl

theorem runs_ite {q : Prog σ ε α} :
    Runs (if c then p else q) Q E H s ↔ (c → Runs p Q E H s) ∧ (¬ c → Runs q Q E H s) := by
  split <;> simp [*]

/-- The loop rule, for what also says where the loop hangs. -/
theorem runs_each {body : β → Prog σ ε Unit} {I : σ → Prop} : ∀ {xs : List β} {s : σ}, I s →
    (∀ x t, I t → Runs (body x) (fun _ => I) E H t) → Runs (each xs body) (fun _ => I) E H s
  | [], _, h, _ => h
  | x :: xs, s, h, hbody => by
      show Runs (body x >>= fun _ => each xs body) _ _ _ s
      rw [runs_bind]
      exact (hbody x s h).mono (fun _ _ ht => runs_each ht hbody) (fun _ _ he => he) fun _ hh => hh

end Runs

/-! ## What comes back into an invariant -/

/-- **A program comes back into `I`** from every state in it. -/
def Sure (I : σ → Prop) (p : Prog σ ε α) : Prop :=
  ∀ s, I s → Runs p (fun _ t => I t) (fun _ t => I t) (fun _ => False) s

section Sure

variable {I : σ → Prop}

theorem Sure.pure {a : α} : Sure I (pure a : Prog σ ε α) := fun _ h => h

theorem Sure.raise {e : ε} : Sure I (raise e : Prog σ ε α) := fun _ h => h

theorem Sure.alter {f : σ → σ} (h : ∀ s, I s → I (f s)) : Sure I (alter f : Prog σ ε Unit) := h

theorem Sure.ask {f : σ → α × σ} (h : ∀ s, I s → I (f s).2) : Sure I (ask f : Prog σ ε α) := h

theorem Sure.bind {f : α → Prog σ ε β} (hp : Sure I p) (hf : ∀ a, Sure I (f a)) :
    Sure I (p >>= f) := by
  intro s hs
  rw [runs_bind]
  exact (hp s hs).mono (fun a t ht => hf a t ht) (fun _ _ ht => ht) fun _ hf => hf

theorem Sure.look_bind {f : σ → α} {k : α → Prog σ ε β}
    (h : ∀ s, I s → Runs (k (f s)) (fun _ t => I t) (fun _ t => I t) (fun _ => False) s) :
    Sure I (Prog.look f >>= k) := h

theorem Sure.ite {c : Prop} [Decidable c] {q : Prog σ ε α} (hp : c → Sure I p)
    (hq : ¬ c → Sure I q) : Sure I (if c then p else q) := by
  split
  · next h => exact hp h
  · next h => exact hq h

theorem Sure.rescue {handler : ε → Prog σ ε α} (hp : Sure I p) (hh : ∀ e, Sure I (handler e)) :
    Sure I (rescue p handler) := by
  intro s hs
  rw [runs_rescue]
  exact (hp s hs).mono (fun _ _ ht => ht) (fun e t ht => hh e t ht) fun _ hf => hf

theorem Sure.each {body : β → Prog σ ε Unit} (h : ∀ x, Sure I (body x)) (xs : List β) :
    Sure I (each xs body) := fun _ hs => runs_each hs fun x t ht => h x t ht

theorem Sure.anyOf {body : β → Prog σ ε Bool} (h : ∀ x, Sure I (body x)) :
    ∀ xs : List β, Sure I (anyOf xs body)
  | [] => Sure.pure
  | x :: xs => Sure.bind (h x) fun _ => Sure.bind (Sure.anyOf h xs) fun _ => Sure.pure

end Sure

/-! ## Programs as paths -/

open Relation

/-- **A run reads as a path of `S`.** Where it returns, the states it
starts and ends in are joined by steps; where it throws, a path is
followed by one broken step `B`. -/
def Follows (S B : σ → σ → Prop) (p : Prog σ ε α) (s : σ) : Prop :=
  Ends p (fun _ t => ReflTransGen S s t) (fun _ t => ∃ u, ReflTransGen S s u ∧ B u t) s

variable {S B : σ → σ → Prop}

theorem Follows.ret {a : α} : Follows S B (ret a : Prog σ ε α) s := ReflTransGen.refl

theorem Follows.pure {a : α} : Follows S B (pure a : Prog σ ε α) s := ReflTransGen.refl

theorem Follows.raise {e : ε} (h : B s s) : Follows S B (raise e : Prog σ ε α) s :=
  ⟨s, ReflTransGen.refl, h⟩

theorem Follows.alter {f : σ → σ} (h : S s (f s)) : Follows S B (alter f : Prog σ ε Unit) s :=
  ReflTransGen.single h

/-- A path to the state a run starts in carries over to the whole run. -/
theorem Follows.from (hst : ReflTransGen S s s') (h : Follows S B p s') :
    Ends p (fun _ t => ReflTransGen S s t) (fun _ t => ∃ u, ReflTransGen S s u ∧ B u t) s' :=
  Ends.mono h (fun _ _ hu => hst.trans hu) fun _ _ ⟨v, hv, hb⟩ => ⟨v, hst.trans hv, hb⟩

theorem Follows.bind {f : α → Prog σ ε β} (hp : Follows S B p s)
    (hf : ∀ a t, ReflTransGen S s t → Follows S B (f a) t) : Follows S B (p >>= f) s := by
  unfold Follows
  rw [ends_bind]
  exact Ends.mono hp (fun a t ht => Follows.from ht (hf a t ht)) fun _ _ he => he

/-- A look at the state fixes what the rest may assume of it. -/
theorem Follows.look_bind {f : σ → α} {g : α → Prog σ ε β} (h : Follows S B (g (f s)) s) :
    Follows S B (Prog.look f >>= g) s := h

/-- One step, and then the rest from where it leads. -/
theorem Follows.alter_bind {f : σ → σ} {g : Unit → Prog σ ε β} (hs : S s (f s))
    (h : Follows S B (g ()) (f s)) : Follows S B (Prog.alter f >>= g) s := by
  unfold Follows
  rw [ends_bind, ends_alter]
  exact Follows.from (ReflTransGen.single hs) h

theorem Follows.ite {c : Prop} [Decidable c] {q : Prog σ ε α} (hp : c → Follows S B p s)
    (hq : ¬ c → Follows S B q s) : Follows S B (if c then p else q) s := by
  split
  · next h => exact hp h
  · next h => exact hq h

/-- **The loop rule for paths.** Each turn may use that it starts where a
path leads. -/
theorem Follows.each {body : β → Prog σ ε Unit} : ∀ {xs : List β} {s : σ},
    (∀ x ∈ xs, ∀ t, ReflTransGen S s t → Follows S B (body x) t) → Follows S B (each xs body) s
  | [], _, _ => Follows.ret
  | x :: _, s, h =>
      Follows.bind (h x List.mem_cons_self s ReflTransGen.refl) fun _ _ ht =>
        Follows.each fun y hy u hu => h y (List.mem_cons_of_mem _ hy) u (ht.trans hu)

/-- **What each turn achieves for its element** holds of all of them in
the end, where no step of the path undoes it. -/
theorem Follows.each_achieves {body : β → Prog σ ε Unit} {P : β → σ → Prop}
    (hP : ∀ x t u, ReflTransGen S t u → P x t → P x u) : ∀ {xs : List β} {s : σ},
    (∀ x ∈ xs, ∀ t, ReflTransGen S s t → Ends (body x) (fun _ u => ReflTransGen S t u ∧ P x u)
      (fun _ u => ∃ v, ReflTransGen S t v ∧ B v u) t) →
    Ends (Prog.each xs body) (fun _ t => ReflTransGen S s t ∧ ∀ x ∈ xs, P x t)
      (fun _ t => ∃ u, ReflTransGen S s u ∧ B u t) s
  | [], _, _ => ⟨ReflTransGen.refl, fun _ h => absurd h List.not_mem_nil⟩
  | x :: xs, s, h => by
      rw [Prog.each, ends_andThen]
      refine (h x List.mem_cons_self s ReflTransGen.refl).mono ?_ fun _ _ he => he
      rintro _ t ⟨ht, hx⟩
      refine (each_achieves hP fun y hy u hu =>
        h y (List.mem_cons_of_mem _ hy) u (ht.trans hu)).mono ?_ ?_
      · rintro _ u ⟨hu, hall⟩
        refine ⟨ht.trans hu, fun y hy => ?_⟩
        rcases List.mem_cons.mp hy with rfl | hy
        · exact hP _ t u hu hx
        · exact hall y hy
      · rintro _ u ⟨v, hv, hb⟩
        exact ⟨v, ht.trans hv, hb⟩

theorem Follows.anyOf {body : β → Prog σ ε Bool} : ∀ {xs : List β} {s : σ},
    (∀ x ∈ xs, ∀ t, ReflTransGen S s t → Follows S B (body x) t) → Follows S B (anyOf xs body) s
  | [], _, _ => Follows.ret
  | x :: _, s, h =>
      Follows.bind (h x List.mem_cons_self s ReflTransGen.refl) fun _ _ ht =>
        Follows.bind (Follows.anyOf fun y hy u hu => h y (List.mem_cons_of_mem _ hy) u
          (ht.trans hu)) fun _ _ _ => Follows.ret

/-- A handler takes over after the broken step. -/
theorem Follows.rescue {C : σ → σ → Prop} {handler : ε → Prog σ ε α} (hp : Follows S C p s)
    (hh : ∀ e u t, ReflTransGen S s u → C u t →
      Ends (handler e) (fun _ v => ReflTransGen S u v)
        (fun _ v => ∃ w, ReflTransGen S u w ∧ B w v) t) :
    Follows S B (rescue p handler) s := by
  unfold Follows
  rw [ends_rescue]
  refine Ends.mono hp (fun _ _ h => h) ?_
  rintro e t ⟨u, hu, hb⟩
  exact (hh e u t hu hb).mono (fun _ _ hv => hu.trans hv) fun _ _ ⟨w, hw, hb'⟩ =>
    ⟨w, hu.trans hw, hb'⟩

/-- A longer relation and a wider broken step. -/
theorem Follows.mono {S' B' : σ → σ → Prop} (hp : Follows S B p s) (hS : ∀ s t, S s t → S' s t)
    (hB : ∀ s t, B s t → B' s t) : Follows S' B' p s :=
  Ends.mono hp (fun _ _ ht => ReflTransGen.mono hS _ _ ht)
    fun _ _ ⟨u, hu, hb⟩ => ⟨u, ReflTransGen.mono hS _ _ hu, hB _ _ hb⟩

/-! ## Programs as paths of an abstraction -/

/-- **A run reads as a path of an abstraction** `S` of the states under
`f`, as far as it gets, whichever way it ends. -/
def Walks {τ : Type} (S : τ → τ → Prop) (f : σ → τ) (p : Prog σ ε α) (s : σ) : Prop :=
  ReflTransGen S (f s) (f (p s).2)

section Walks

variable {τ : Type} {S : τ → τ → Prop} {f : σ → τ}

theorem Walks.pure {a : α} : Walks S f (pure a : Prog σ ε α) s := ReflTransGen.refl

theorem Walks.raise {e : ε} : Walks S f (raise e : Prog σ ε α) s := ReflTransGen.refl

theorem Walks.hang : Walks S f (hang : Prog σ ε α) s := ReflTransGen.refl

theorem Walks.alter {g : σ → σ} (h : S (f s) (f (g s))) :
    Walks S f (alter g : Prog σ ε Unit) s := ReflTransGen.single h

/-- A change that the abstraction does not see. -/
theorem Walks.unseen {g : σ → σ} (h : f (g s) = f s) :
    Walks S f (Prog.alter g : Prog σ ε Unit) s := by
  show ReflTransGen S (f s) (f (g s))
  rw [h]

theorem Walks.ask {g : σ → α × σ} (h : f (g s).2 = f s) : Walks S f (ask g : Prog σ ε α) s := by
  show ReflTransGen S (f s) (f (g s).2)
  rw [h]

/-- A look at the state fixes what the rest may assume of it. -/
theorem Walks.look_bind {g : σ → α} {k : α → Prog σ ε β} (h : Walks S f (k (g s)) s) :
    Walks S f (Prog.look g >>= k) s := h

/-- The rest may assume that what comes before has returned. -/
theorem Walks.bind {k : α → Prog σ ε β} (hp : Walks S f p s)
    (hk : ∀ a t, p s = (.ret a, t) → Walks S f (k a) t) : Walks S f (p >>= k) s := by
  show ReflTransGen S (f s) (f (andThen p k s).2)
  unfold Walks at hp hk
  unfold andThen
  rcases hr : p s with ⟨a | e | -, t⟩
  · rw [hr] at hp
    exact hp.trans (hk a t hr)
  · rwa [hr] at hp
  · rwa [hr] at hp

theorem Walks.rescue {handler : ε → Prog σ ε α} (hp : Walks S f p s)
    (hh : ∀ e t, p s = (.throw e, t) → Walks S f (handler e) t) :
    Walks S f (rescue p handler) s := by
  unfold Walks Prog.rescue at *
  rcases hr : p s with ⟨a | e | -, t⟩
  · rwa [hr] at hp
  · rw [hr] at hp
    exact hp.trans (hh e t hr)
  · rwa [hr] at hp

theorem Walks.leaving {g : σ → σ} (hp : Walks S f p s) (hg : ∀ t, f (g t) = f t) :
    Walks S f (leaving p g) s := by
  unfold Walks Prog.leaving at *
  rcases hr : p s with ⟨a | e | -, t⟩
  · rw [hr] at hp
    exact (hg t).symm ▸ hp
  · rw [hr] at hp
    exact (hg t).symm ▸ hp
  · rwa [hr] at hp

theorem Walks.ite {c : Prop} [Decidable c] {q : Prog σ ε α} (hp : c → Walks S f p s)
    (hq : ¬ c → Walks S f q s) : Walks S f (if c then p else q) s := by
  split
  · next h => exact hp h
  · next h => exact hq h

theorem Walks.each_mem {body : β → Prog σ ε Unit} : ∀ {xs : List β} {s : σ},
    (∀ x ∈ xs, ∀ t, Walks S f (body x) t) → Walks S f (Prog.each xs body) s
  | [], _, _ => ReflTransGen.refl
  | x :: _, s, h => Walks.bind (h x List.mem_cons_self s) fun _ _ _ =>
      Walks.each_mem fun y hy => h y (List.mem_cons_of_mem _ hy)

theorem Walks.each {body : β → Prog σ ε Unit} (h : ∀ x t, Walks S f (body x) t)
    {xs : List β} {s : σ} : Walks S f (Prog.each xs body) s := Walks.each_mem fun x _ => h x

theorem Walks.anyOf {body : β → Prog σ ε Bool} (h : ∀ x t, Walks S f (body x) t) :
    ∀ {xs : List β} {s : σ}, Walks S f (anyOf xs body) s
  | [], _ => ReflTransGen.refl
  | x :: _, s => Walks.bind (h x s) fun _ _ _ =>
      Walks.bind (Walks.anyOf h) fun _ _ _ => Walks.pure

theorem Walks.mono {T : τ → τ → Prop} (h : Walks S f p s) (hST : ∀ x y, S x y → T x y) :
    Walks T f p s := ReflTransGen.mono hST _ _ h

/-- A program that stays where a path leads is one. -/
theorem Walks.of_stays (h : Stays (fun t => ReflTransGen S (f s) (f t)) p) : Walks S f p s :=
  h s ReflTransGen.refl

end Walks

/-- **An invariant of the steps holds along the path.** -/
theorem inv_of_path {I : σ → Prop} (hstep : ∀ s t, S s t → I s → I t) {s t : σ}
    (h : ReflTransGen S s t) (hs : I s) : I t := by
  induction h with
  | refl => exact hs
  | tail _ hst ih => exact hstep _ _ hst ih

/-- A path whose steps keep an invariant is one of steps into it. -/
theorem path_into {I : σ → Prop} (hstep : ∀ s t, S s t → I s → I t) {s t : σ}
    (h : ReflTransGen S s t) (hs : I s) :
    ReflTransGen (fun x y => S x y ∧ I y) s t ∧ I t := by
  induction h with
  | refl => exact ⟨.refl, hs⟩
  | tail _ hst ih => exact ⟨ih.1.tail ⟨hst, hstep _ _ hst ih.2⟩, hstep _ _ hst ih.2⟩

end Prog

end SgFtdi
