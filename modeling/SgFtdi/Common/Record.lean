import Mathlib.Algebra.BigOperators.Group.List.Basic
import Mathlib.Algebra.Ring.Int.Defs
import Mathlib.Data.List.Basic

/-!
# A record that only grows

`Grows P t t'` says that the list `t'` is `t` with entries behind it that
all satisfy `P`. What is read off a record by a filter that passes none
of the new entries is unchanged, and what holds of every old entry and of
every new one holds of them all. `Reads` is growth with a value that is
read off the record entry by entry, and `AtEach` says what holds of every
entry and what stands before it. A `Transcript` is a record of questions
and answers that is true to the world they were put to.
-/

namespace SgFtdi

variable {α β : Type} {P Q : α → Prop} {t t₁ t₂ : List α}

/-- `t₁` is `t` and then entries that satisfy `P`. -/
def Grows (P : α → Prop) (t t₁ : List α) : Prop := ∃ seg, t₁ = t ++ seg ∧ ∀ a ∈ seg, P a

namespace Grows

theorem refl : Grows P t t := ⟨[], by simp, by simp⟩

theorem of_eq (h : t₁ = t) : Grows P t t₁ := h ▸ refl

theorem one {a : α} (h : P a) : Grows P t (t ++ [a]) := ⟨[a], rfl, by simpa using h⟩

theorem trans (h : Grows P t t₁) (h' : Grows P t₁ t₂) : Grows P t t₂ := by
  obtain ⟨seg, rfl, hseg⟩ := h
  obtain ⟨seg', rfl, hseg'⟩ := h'
  refine ⟨seg ++ seg', List.append_assoc _ _ _, fun a ha => ?_⟩
  rcases List.mem_append.mp ha with ha | ha
  · exact hseg a ha
  · exact hseg' a ha

theorem mono (h : Grows P t t₁) (hPQ : ∀ a, P a → Q a) : Grows Q t t₁ := by
  obtain ⟨seg, hseg, hall⟩ := h
  exact ⟨seg, hseg, fun a ha => hPQ a (hall a ha)⟩

theorem isPrefix (h : Grows P t t₁) : t <+: t₁ := by
  obtain ⟨seg, rfl, -⟩ := h
  exact List.prefix_append _ _

/-- Nothing is forgotten. -/
theorem mem (h : Grows P t t₁) {a : α} (ha : a ∈ t) : a ∈ t₁ := h.isPrefix.subset ha

/-- An entry is an old one, or satisfies `P`. -/
theorem mem_or (h : Grows P t t₁) {a : α} (ha : a ∈ t₁) : a ∈ t ∨ P a := by
  obtain ⟨seg, rfl, hseg⟩ := h
  rcases List.mem_append.mp ha with ha | ha
  · exact .inl ha
  · exact .inr (hseg a ha)

/-- **What holds of every old entry and of every new one.** -/
theorem forall_mem (h : Grows P t t₁) (ht : ∀ a ∈ t, Q a) (hP : ∀ a, P a → Q a) :
    ∀ a ∈ t₁, Q a := fun a ha => (h.mem_or ha).elim (ht a) (hP a)

/-- **A filter that passes no new entry** reads the same. -/
theorem filterMap_eq (h : Grows P t t₁) {f : α → Option β} (hf : ∀ a, P a → f a = none) :
    t₁.filterMap f = t.filterMap f := by
  obtain ⟨seg, rfl, hseg⟩ := h
  rw [List.filterMap_append, List.filterMap_eq_nil_iff.mpr fun a ha => hf a (hseg a ha),
    List.append_nil]

/-- **A sum that no new entry adds to** is what it was. -/
theorem sum_map_eq (h : Grows P t t₁) {f : α → ℤ} (hf : ∀ a, P a → f a = 0) :
    (t₁.map f).sum = (t.map f).sum := by
  obtain ⟨seg, rfl, hseg⟩ := h
  have hzero : (seg.map f).sum = 0 := List.sum_eq_zero fun n hn => by
    obtain ⟨a, ha, rfl⟩ := List.mem_map.mp hn
    exact hf a (hseg a ha)
  rw [List.map_append, List.sum_append, hzero, Int.add_zero]

end Grows

/-! ## Reading a value off a record -/

section Reads

variable {γ : Type} {f : γ → α → γ} {a a₁ a₂ : γ}

/-- **The record has grown** by entries that satisfy `P`, and a value read
off it entry by entry has gone from `a` to `a₁`. -/
def Reads (f : γ → α → γ) (P : α → Prop) (t t₁ : List α) (a a₁ : γ) : Prop :=
  ∃ seg, t₁ = t ++ seg ∧ (∀ x ∈ seg, P x) ∧ seg.foldl f a = a₁

namespace Reads

theorem refl : Reads f P t t a a := ⟨[], by simp, by simp, rfl⟩

theorem one {x : α} (h : P x) : Reads f P t (t ++ [x]) a (f a x) := ⟨[x], rfl, by simpa, rfl⟩

theorem trans (h : Reads f P t t₁ a a₁) (h' : Reads f P t₁ t₂ a₁ a₂) : Reads f P t t₂ a a₂ := by
  obtain ⟨seg, rfl, hseg, rfl⟩ := h
  obtain ⟨seg', rfl, hseg', rfl⟩ := h'
  refine ⟨seg ++ seg', List.append_assoc _ _ _, fun x hx => ?_, List.foldl_append⟩
  rcases List.mem_append.mp hx with hx | hx
  · exact hseg x hx
  · exact hseg' x hx

theorem grows (h : Reads f P t t₁ a a₁) : Grows P t t₁ := by
  obtain ⟨seg, h, hseg, -⟩ := h
  exact ⟨seg, h, hseg⟩

/-- Entries that do not change the value leave it. -/
theorem of_grows (h : Grows Q t t₁) (hP : ∀ x, Q x → P x) (hf : ∀ x, Q x → ∀ c, f c x = c) :
    Reads f P t t₁ a a := by
  obtain ⟨seg, rfl, hseg⟩ := h
  refine ⟨seg, rfl, fun x hx => hP x (hseg x hx), ?_⟩
  induction seg with
  | nil => rfl
  | cons x seg ih =>
      rw [List.foldl_cons, hf x (hseg x List.mem_cons_self)]
      exact ih fun y hy => hseg y (List.mem_cons_of_mem _ hy)

/-- **A value that is read off the whole record** still is. -/
theorem foldl_eq (h : Reads f P t t₁ a a₁) {c : γ} (ht : t.foldl f c = a) :
    t₁.foldl f c = a₁ := by
  obtain ⟨seg, rfl, -, rfl⟩ := h
  rw [List.foldl_append, ht]

end Reads

end Reads

/-! ## What holds at each entry -/

/-- Every entry of a record satisfies `R` of what stands before it. -/
def AtEach (R : List α → α → Prop) (t : List α) : Prop :=
  ∀ pre a post, t = pre ++ a :: post → R pre a

namespace AtEach

variable {R : List α → α → Prop}

theorem nil : AtEach R [] := fun pre a post h => by simp at h

theorem append {seg : List α} (h : AtEach R t)
    (hseg : ∀ pre a post, seg = pre ++ a :: post → R (t ++ pre) a) : AtEach R (t ++ seg) := by
  intro pre a post hs
  rcases List.append_eq_append_iff.mp hs with ⟨as, rfl, h₁⟩ | ⟨bs, rfl, h₁⟩
  · exact hseg as a post h₁
  · cases bs with
    | nil => simpa using hseg [] a post h₁.symm
    | cons b bs =>
        obtain ⟨rfl, -⟩ := List.cons_eq_cons.mp h₁
        exact h pre _ bs rfl

theorem one {a : α} (h : AtEach R t) (ha : R t a) : AtEach R (t ++ [a]) := by
  refine h.append fun pre b post hs => ?_
  obtain ⟨rfl, rfl⟩ : pre = [] ∧ b = a := by cases pre <;> simp_all
  simpa using ha

/-- Entries that satisfy `R` wherever they stand. -/
theorem grows (h : AtEach R t) (hg : Grows Q t t₁) (hQ : ∀ pre a, Q a → R pre a) :
    AtEach R t₁ := by
  obtain ⟨seg, rfl, hseg⟩ := hg
  exact h.append fun pre a post hs => hQ _ a (hseg a (hs ▸ by simp))

end AtEach

/-! ## Transcripts -/

section Transcripts

variable {σ Query : Type} {Answer : Query → Type} {answer : (q : Query) → σ → Answer q × σ}

/-- **A transcript**: every question is answered as the world answers it
that the question before left behind. -/
def Transcript (answer : (q : Query) → σ → Answer q × σ) : σ → List (Sigma Answer) → σ → Prop
  | w, [], w' => w' = w
  | w, ⟨q, a⟩ :: rest, w' => a = (answer q w).1 ∧ Transcript answer (answer q w).2 rest w'

/-- One more question. -/
theorem Transcript.snoc {w w' : σ} {asked : List (Sigma Answer)}
    (h : Transcript answer w asked w') (q : Query) :
    Transcript answer w (asked ++ [⟨q, (answer q w').1⟩]) (answer q w').2 := by
  induction asked generalizing w with
  | nil =>
      cases h
      exact ⟨rfl, rfl⟩
  | cons x asked ih => exact ⟨h.1, ih h.2⟩

end Transcripts

end SgFtdi
