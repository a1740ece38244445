import SgFtdi.Stream.Moves.Life

/-!
# Stream — what is in flight is enabled

An entry is enabled before its transfer is submitted, and disabled when it
comes back or before it is submitted at all. So an entry that is disabled
is never in flight, over the whole life of an object: the test with which
`process_step` ends a session is a safe one, if not always an exact one.
-/

namespace SgFtdi

namespace Stream

open Prog Relation

variable {σ : Type} {env : Env σ} {m m' : Machine σ}

/-- Every transfer in flight is enabled. -/
def Machine.Held (m : Machine σ) : Prop :=
  ∀ i e, m.entryAt i = some e → e.transfer.inFlight = true → e.enabled = true

/-- Every entry is disabled. -/
def Machine.AllDisabled (m : Machine σ) : Prop := ∀ i e, m.entryAt i = some e → e.enabled = false

theorem Machine.Held.of_entries (h : m.Held) (he : ∀ j, m'.entryAt j = m.entryAt j) : m'.Held :=
  fun i e hi => h i e (he i ▸ hi)

theorem Machine.Held.of_none (h : m.streamstates = none) : m.Held := by
  intro i e he
  simp [FtdiStreamState.entryAt, FtdiStreamState.entries, h] at he

theorem Begun.held {m₀ b : Machine σ} (h : Begun env m₀ b) : b.Held := by
  intro i e he
  rw [h.entryAt] at he
  cases he

theorem AllLive.held (h : AllLive m m') (hs : m.Held) : m'.Held := by
  intro i e' he' hfl
  obtain ⟨e, he, hl⟩ := h.back he'
  cases hl.life with
  | kept h₁ h₂ _ => exact h₁.trans (hs i e he (h₂ ▸ hfl))
  | down _ _ h₃ _ => simp [h₃] at hfl
  | up _ _ h₃ _ _ _ => exact h₃
  | stranded _ h₂ _ _ => exact h₂

/-- Nothing is in flight where every entry is disabled. -/
theorem Machine.Held.flying (h : m.Held) (hd : m.AllDisabled) : m.flying = fun _ => false := by
  funext i
  unfold FtdiStreamState.flying
  cases he : m.entryAt i with
  | none => rfl
  | some e =>
      rw [Option.any_some, Bool.eq_false_iff]
      intro hfl
      exact Bool.false_ne_true ((hd i e he).symm.trans (h i e he hfl))

theorem Created.held {s t : ℕ} {stream : FtdiStreamEntry} {isReading : Bool}
    (h : Created env s t stream isReading m m') (hs : m.Held) : m'.Held := by
  obtain ⟨hothers, fd, e₀, e, -, -, he, -, hcase⟩ := h.entries
  intro j e' he' hfl
  by_cases hj : m.entries.length = j
  · subst hj
    rw [he, Option.some_inj] at he'
    subst he'
    rcases hcase with ⟨hidle, -⟩ | ⟨_, _, hen, _⟩
    · simp [hidle] at hfl
    · exact hen
  · have hrel := hothers j hj
    rw [he'] at hrel
    generalize ho : m.entryAt j = x at hrel
    cases hrel with
    | some ha => exact ha.enabled.trans (hs j _ ho (ha.inFlight ▸ hfl))

theorem Setup.held (h : Setup env m m') (hs : m.Held) : m'.Held := by
  cases h with
  | created hc => exact hc.held hs
  | opening ho =>
      cases ho with
      | move hm => exact hm.lives.held hs
      | watched _ hw => exact hs.of_entries hw.entryAt
      | _ => exact hs

/-- What an interrupted set-up leaves of the entries: the old ones, and one
more that is idle. -/
theorem SetupBroken.held (h : SetupBroken env m m') (hs : m.Held) : m'.Held := by
  cases h with
  | here => exact hs
  | @unallocated s t stream isReading fd w hm _ =>
      intro j e he hfl
      rw [entryAt_modifyEntry, withWorld_entryAt, entryAt_modifyEntry] at he
      by_cases hj : m.entries.length = j
      · rw [if_pos hj, if_pos hj, ← hj, emplaced_entryAt hm, Option.map_some, Option.map_some,
          Option.some_inj] at he
        subst he
        unfold FtdiStreamStaticState.fill at hfl
        split at hfl <;> cases hfl
      · rw [if_neg hj, if_neg hj, emplaced_entryAt_lt _ (by omega)] at he
        exact hs j e he hfl
  | created hm hr hw =>
      obtain ⟨e₀, -, he₀, hidle⟩ := hr.fresh hm
      intro j e he hfl
      obtain ⟨e₁, he₁, ha⟩ := hw.calm.entry_back he
      by_cases hj : m.entries.length = j
      · rw [← hj, he₀, Option.some_inj] at he₁
        simp [← he₁, ha.inFlight, hidle] at hfl
      · rw [hr.entryAt, if_neg hj, emplaced_entryAt_lt _ (by omega)] at he₁
        exact ha.enabled.trans (hs j e₁ he₁ (ha.inFlight ▸ hfl))

/-- **It lasts** over the life of an object. -/
theorem held_lasting : Lasting env (Machine.Held : Machine σ → Prop) where
  begun := fun _ _ _ _ _ i e he => by
    simp [FtdiStreamState.entryAt, FtdiStreamState.entries, Machine.begun] at he
  setup := fun _ _ _ hst hm => hst.held hm
  broken := fun _ _ _ _ _ hc _ => .of_none hc.streamstates
  processStep := processStep_preserves fun _ _ hst hm => hst.lives.held hm
  cleaned := fun _ _ hc _ => .of_none hc.streamstates
  aside := fun _ _ ha hm => hm.of_entries ha.entryAt

end Stream

end SgFtdi
