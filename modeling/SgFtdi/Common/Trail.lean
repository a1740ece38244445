import Mathlib.Data.List.Basic

/-!
# Trails

A `Trail` is a run of a step relation kept step by step: who made each
step, and the state it leads to. `Trail.along_iff` and `Trail.forall_iff`
turn what is known of one step into an account of whole runs: where a step
is good unless it is a bad one, as long as none before it was bad, every
step of a trail is good exactly where none of them is bad.
-/

namespace SgFtdi

variable {Label State : Type}

/-- **A run, step by step**: the label of each step and where it leads. -/
inductive Trail (Step : Label → State → State → Prop) : State → List (Label × State) → Prop
  | nil (s : State) : Trail Step s []
  | cons {a : Label} {s t : State} {rest : List (Label × State)} : Step a s t →
      Trail Step t rest → Trail Step s ((a, t) :: rest)

/-- Every step of a run is a good one. -/
def Along (Good : Label → State → State → Prop) : State → List (Label × State) → Prop
  | _, [] => True
  | s, (a, t) :: rest => Good a s t ∧ Along Good t rest

/-- No step of a run is a bad one. -/
def Spares (Bad : Label → State → State → Prop) (s : State) (run : List (Label × State)) : Prop :=
  Along (fun a s t => ¬ Bad a s t) s run

/-- A property holds in every state of a run. -/
def Throughout (I : State → Prop) (s : State) (run : List (Label × State)) : Prop :=
  ∀ t ∈ s :: run.map Prod.snd, I t

variable {Step Good Bad : Label → State → State → Prop} {I K : State → Prop} {s : State}
variable {run : List (Label × State)}

/-- What holds throughout holds at the start and after every step. -/
theorem throughout_iff : Throughout I s run ↔ I s ∧ Along (fun _ _ t => I t) s run := by
  induction run generalizing s with
  | nil =>
      constructor
      · intro hall
        exact ⟨hall s List.mem_cons_self, trivial⟩
      · rintro ⟨hs, -⟩ t ht
        rw [List.mem_singleton.mp ht]
        exact hs
  | cons x rest ih =>
      constructor
      · intro hall
        have hrest := ih.mp fun u hu => hall u (List.mem_cons_of_mem s hu)
        exact ⟨hall s List.mem_cons_self, hrest⟩
      · rintro ⟨hs, hrest⟩ u hu
        rcases List.mem_cons.mp hu with rfl | hu
        · exact hs
        · exact ih.mpr hrest u hu

/-- What every step keeps holds throughout. -/
theorem Trail.throughout (h : Trail Step s run) (hstep : ∀ a s t, Step a s t → I s → I t)
    (hs : I s) : Throughout I s run := by
  rw [throughout_iff]
  induction h with
  | nil s => exact ⟨hs, trivial⟩
  | @cons a s t rest hm _ ih => exact ⟨hs, ih (hstep a s t hm hs)⟩

/-- **Every step is good exactly where none is bad**, where that is so of
one step as long as none was bad before. -/
theorem Trail.along_iff (h : Trail Step s run)
    (hstep : ∀ a s t, Step a s t → I s → (Good a s t ↔ ¬ Bad a s t))
    (hkeep : ∀ a s t, Step a s t → I s → ¬ Bad a s t → I t) (hs : I s) :
    Along Good s run ↔ Spares Bad s run := by
  induction h with
  | nil s => exact Iff.rfl
  | @cons a s t rest hm _ ih =>
      have hone := hstep a s t hm hs
      constructor
      · rintro ⟨hgood, hrest⟩
        have hbad := hone.mp hgood
        exact ⟨hbad, (ih (hkeep a s t hm hs hbad)).mp hrest⟩
      · rintro ⟨hbad, hrest⟩
        exact ⟨hone.mpr hbad, (ih (hkeep a s t hm hs hbad)).mpr hrest⟩

/-- **A property holds throughout exactly where no step is bad**, where a
step from a state that has it leads to one that has it unless the step is
bad. `K` is what every step keeps. -/
theorem Trail.forall_iff (h : Trail Step s run) (hkeep : ∀ a s t, Step a s t → K s → K t)
    (hstep : ∀ a s t, Step a s t → K s → I s → (I t ↔ ¬ Bad a s t)) (hK : K s) (hI : I s) :
    Throughout I s run ↔ Spares Bad s run := by
  have halong : Along (fun _ _ t => I t) s run ↔ Spares Bad s run := by
    refine h.along_iff (I := fun s => K s ∧ I s) ?_ ?_ ⟨hK, hI⟩
    · rintro a s t hm ⟨hKs, hIs⟩
      exact hstep a s t hm hKs hIs
    · rintro a s t hm ⟨hKs, hIs⟩ hbad
      exact ⟨hkeep a s t hm hKs, (hstep a s t hm hKs hIs).mpr hbad⟩
  rw [throughout_iff, halong]
  constructor
  · exact fun h => h.2
  · exact fun h => ⟨hI, h⟩

end SgFtdi
