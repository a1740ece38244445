import SgFtdi.Stream.Refusing

/-!
# Stream — what a set-up is denied

A set-up breaks off where an entry is denied what it needs: the user gives
no descriptor for it, libusb has no transfer or `malloc` no room for its
buffer, or its first submission is refused. Entries that were created
before it are in flight by then. `initBody_throws` says that a set-up
breaks off with a transfer in flight there and nowhere else; what precedes
the first entry has nothing to put in flight.
-/

namespace SgFtdi

namespace Stream

open Prog Relation

variable {σ : Type} (env : Env σ) (F : (ℕ → Bool) → Prop)

/-! ## The answers that deny -/

/-- The user gives no descriptor for an entry. -/
def FdDenied (s : ℕ) (isReading : Bool) (m : Machine σ) : Prop :=
  ∃ cause, (env.callback isReading s (getFdType isReading) [] 0 m.world).1.result =
    .error cause ∧ F m.flying

/-- **The first submission of an entry is refused**: of one that starts
enabled, while `should_run` is up. -/
def SubmissionDenied (i : ℕ) (m : Machine σ) : Prop :=
  ∃ e, m.entryAt i = some e ∧ m.shouldRun = true ∧ e.enabled = true ∧
    Unsubmitted env i e m ∧ F m.flying

/-- `malloc` has no room for the buffer of an entry, or its submission is
refused, after its descriptor was watched. -/
def InitDenied (i : ℕ) (stream : FtdiStreamEntry) (m : Machine σ) : Prop :=
  ∃ e, m.entryAt i = some e ∧
    let e' := e.fill m.toFtdiStreamState stream
    let buffer := env.malloc e'.bufferSize m.world
    if buffer.1 = false then F m.flying
    else After (watch env e') (fun _ t => SubmissionDenied env F i t) (m.filled i stream buffer.2)

/-- **An entry is denied** something, in the order in which it is asked for:
its descriptor, its transfer, its buffer, its submission. -/
def EntryDenied (s : ℕ) (stream : FtdiStreamEntry) (isReading : Bool) (t : ℕ) (m : Machine σ) :
    Prop :=
  FdDenied env F s isReading m ∨
    After (userCall env (env.callback isReading s (getFdType isReading) [] 0)) (fun a m₁ =>
      let transfer := env.allocTransfer m₁.world
      if transfer.1 = false then F m₁.flying
      else InitDenied env F m₁.entries.length stream ((m₁.withWorld transfer.2).emplaced
        (newEntry s t isReading stream.readIncludeModemStatus a.1))) m

/-- One of the entries of a stream is: the reads first, and then the
writes. -/
def StreamDenied (s : ℕ) (m : Machine σ) : Prop :=
  ∃ stream, m.streams[s]? = some stream ∧
    (Meets (fun t => EntryDenied env F s stream true t) (createStreamstate env s stream true)
        (List.range stream.readTransfers) m ∨
      After (each (List.range stream.readTransfers) (createStreamstate env s stream true))
        (fun _ m₁ => Meets (fun t => EntryDenied env F s stream false t)
          (createStreamstate env s stream false)
          ((List.range stream.writeTransfers).map (stream.readTransfers + ·)) m₁) m)

/-- **A set-up is denied** something for one of its entries. -/
def SetUpDenied (m₀ : Machine σ) : Prop :=
  let begun := (m₀.withWorld (env.monotime m₀.world).2).begun (env.monotime m₀.world).1
  After (openDescriptors env) (fun _ m₁ => After (processResetStreamEntry env true) (fun _ m₂ =>
    Meets (StreamDenied env F) (createStream env) (List.range m₂.streams.length) m₂) m₁) begun

variable {env F} {m m' m₁ : Machine σ} {i s : ℕ} {stream : FtdiStreamEntry}

/-! ## Entries -/

theorem submit_throws {e : FtdiStreamStaticState} (he : m.entryAt i = some e)
    (hbuffer : e.transfer.buffer.isSome = true) :
    Throws (fun t => F t.flying) (submit env i) (SubmissionDenied env F i m) m := by
  have hiff : SubmissionDenied env F i m ↔
      (m.shouldRun = true ∧ e.enabled = true ∧ Unsubmitted env i e m) ∧ F m.flying := by
    constructor
    · rintro ⟨e', he', hr, hen, hun, hF⟩
      obtain rfl := Option.some_inj.mp (he.symm.trans he')
      exact ⟨⟨hr, hen, hun⟩, hF⟩
    · rintro ⟨⟨hr, hen, hun⟩, hF⟩
      exact ⟨e, he, hr, hen, hun, hF⟩
  refine Throws.congr ?_ hiff.symm
  refine ((submit_ends i m).and (submit_refused he hbuffer)).mono ?_ ?_
  · exact fun _ _ h hr => h.2 hr.1
  · rintro _ t ⟨hw, hun⟩
    show _ ↔ F t.flying
    rw [hw.calm.flying]
    exact ⟨fun h => h.2, fun h => ⟨hun, h⟩⟩

/-- **The initialisation of an entry** throws where it is denied its buffer
or its submission. -/
theorem initEntry_throws {e : FtdiStreamStaticState} (he : m.entryAt i = some e) :
    Throws (fun t => F t.flying) (initEntry env i stream) (InitDenied env F i stream m) m := by
  have he₁ : (m.modifyEntry i (.fill m.toFtdiStreamState stream)).entryAt i =
      some (e.fill m.toFtdiStreamState stream) := by
    rw [entryAt_modifyEntry_self, he]
    rfl
  -- neither the fields nor the buffer of an entry change what is in flight
  have hfly : ∀ (w : σ) found, (((m.modifyEntry i (.fill m.toFtdiStreamState stream)).withWorld
      w).modifyEntry i (.allocate found)).flying = m.flying := by
    intro w found
    have hfill : (m.modifyEntry i (.fill m.toFtdiStreamState stream)).flying = m.flying := by
      refine flying_modifyEntry m i fun e => ?_
      unfold FtdiStreamStaticState.fill
      split <;> rfl
    rw [flying_modifyEntry (f := .allocate found) _ i fun _ => rfl]
    exact hfill
  -- with its buffer the entry is watched and submitted
  have hready : ∀ w, WorldStep env m.world w → Throws (fun t => F t.flying) (do
      watch env (e.fill m.toFtdiStreamState stream)
      submit env i : Run σ Unit) (After (watch env (e.fill m.toFtdiStreamState stream))
        (fun _ t => SubmissionDenied env F i t) (m.filled i stream w)) (m.filled i stream w) := by
    refine fun w hw => Throws.after ((watchEntry_ends he hw).mono (fun _ t hr => ?_)
      fun _ _ hf => hf)
    have he' := hr.entryAt i
    rw [if_pos rfl, he, Option.map_some] at he'
    exact submit_throws he' rfl
  have hiff : InitDenied env F i stream m ↔
      if (env.malloc (e.fill m.toFtdiStreamState stream).bufferSize m.world).1 = false then
        F m.flying
      else After (watch env (e.fill m.toFtdiStreamState stream))
        (fun _ t => SubmissionDenied env F i t) (m.filled i stream
          (env.malloc (e.fill m.toFtdiStreamState stream).bufferSize m.world).2) := by
    unfold InitDenied
    simp only [he, Option.some_inj, exists_eq_left']
  refine Throws.congr ?_ hiff.symm
  unfold initEntry Throws
  simp only [ends_bind, ends_look, id_look, ends_alter, he₁, ends_askWorld, modifyEntry_world,
    ends_ite]
  refine ⟨fun hnone => ?_, fun hfound => ?_⟩
  · rw [if_pos hnone]
    show F m.flying ↔ F _
    rw [hfly]
  · have hfound : (env.malloc (e.fill m.toFtdiStreamState stream).bufferSize m.world).1 = true :=
      Bool.not_eq_false _ ▸ hfound
    rw [hfound, if_neg Bool.false_ne_true.symm, ← ends_bind]
    exact hready _ (.malloc _)

/-- **The creation of an entry** throws where it is denied something. -/
theorem createStreamstate_throws (hm : m.Made) (isReading : Bool) (t : ℕ) :
    Throws (fun t => F t.flying) (createStreamstate env s stream isReading t)
      (EntryDenied env F s stream isReading t m) m := by
  have hfd : Throws (fun t => F t.flying)
      (userCall env (env.callback isReading s (getFdType isReading) [] 0))
      (FdDenied env F s isReading m) m := by
    refine (userCall_ends _ m).mono ?_ ?_
    · rintro a t ⟨-, hok⟩ ⟨cause, herror, -⟩
      rw [herror] at hok
      cases hok
    · rintro cause t ⟨hq, herror⟩
      have hfly : t.flying = m.flying := hq.calm.flying
      show _ ↔ F t.flying
      rw [hfly]
      exact ⟨fun ⟨_, _, h⟩ => h, fun h => ⟨cause, herror, h⟩⟩
  refine Throws.bind hfd ((userCall_ends _ m).mono ?_ fun _ _ _ => trivial)
  rintro ⟨fd, b⟩ m₁ ⟨hq, -⟩
  have hmade : m₁.Made := (congrArg Option.isSome hq.frame.streamstates).trans hm
  unfold Throws
  simp only [ends_bind, ends_askWorld, ends_look, id_look, ends_alter, ends_ite]
  refine ⟨fun hnone => ?_, fun hfound => ?_⟩
  · rw [if_pos hnone]
    exact Iff.rfl
  · rw [if_neg hfound]
    exact initEntry_throws (emplaced_entryAt (m := m₁.withWorld (env.allocTransfer m₁.world).2)
      hmade (newEntry s t isReading stream.readIncludeModemStatus fd))

/-! ## Streams -/

/-- The entries of one direction of a stream. -/
theorem createAll_throws (hs : m.streams[s]? = some stream) (hm : m.Made) (isReading : Bool)
    (ts : List ℕ) :
    Throws (fun t => F t.flying) (each ts (createStreamstate env s stream isReading))
      (Meets (fun t => EntryDenied env F s stream isReading t)
        (createStreamstate env s stream isReading) ts m) m := by
  refine Throws.each (I := fun u : Machine σ => u.Made ∧ u.streams = m.streams) ⟨hm, rfl⟩
    fun t _ u ⟨hu, hst⟩ => ⟨?_, createStreamstate_throws hu isReading t⟩
  refine (createStreamstate_ends (hst ▸ hs) hu isReading t).mono ?_ fun _ _ _ => trivial
  rintro _ v ⟨m₂, hp, hc⟩
  exact ⟨hc.made, (hc.streams.trans (moves_kept hp).streams).trans hst⟩

theorem createStream_throws (s : ℕ) (hm : m.Made) :
    Throws (fun t => F t.flying) (createStream env s) (StreamDenied env F s m) m := by
  unfold createStream
  refine Throws.look_bind ?_
  rw [id_look]
  cases hs : m.streams[s]? with
  | none =>
      exact Throws.congr (Throws.never (Q := fun _ _ => True) trivial) (by simp [StreamDenied, hs])
  | some stream =>
      refine Throws.congr (Throws.bind (createAll_throws hs hm true _) ((createAll_ends hs hm).mono
        (fun _ t ht => createAll_throws (ht.2.1 ▸ hs) ht.2.2.1 false _) fun _ _ _ => trivial)) ?_
      simp only [StreamDenied, hs, Option.some_inj, exists_eq_left']
      exact Iff.rfl

/-! ## The set-up -/

/-- Nothing is in flight where nothing is laid out. -/
theorem flying_of_layout (h : m.layout = []) : m.flying = fun _ => false := by
  funext i
  have hnone : m.entryAt i = none := by
    unfold FtdiStreamState.entryAt
    rw [List.map_eq_nil_iff.mp h]
    rfl
  unfold FtdiStreamState.flying
  rw [hnone]
  rfl

/-- **A set-up breaks off with a transfer in flight** where an entry is
denied something, and nowhere else. -/
theorem initBody_throws (hF : ¬ F fun _ => false) (m : Machine σ) :
    Throws (fun t => F t.flying) (initBody env) (SetUpDenied env F m) m := by
  unfold initBody SetUpDenied
  generalize hm₀ : (m.withWorld (env.monotime m.world).2).begun (env.monotime m.world).1 = m₀
  have hmade₀ : m₀.Made := by rw [← hm₀]; rfl
  have hlay₀ : m₀.layout = [] := by rw [← hm₀]; rfl
  -- nothing is there before the first entry
  have hbare : ∀ {t : Machine σ}, ReflTransGen (Opening env) m₀ t → t.Made ∧ ¬ F t.flying := by
    intro t ht
    obtain ⟨-, hmade, hlay⟩ := openings_frame ht
    refine ⟨hmade.trans hmade₀, ?_⟩
    rwa [flying_of_layout (hlay.trans hlay₀)]
  have hcreate : ∀ {t : Machine σ}, ReflTransGen (Opening env) m₀ t →
      Throws (fun u => F u.flying) (do
        let m ← look id
        each (List.range m.streams.length) (createStream env) : Run σ Unit)
        (Meets (StreamDenied env F) (createStream env) (List.range t.streams.length) t) t := by
    refine fun ht => Throws.look_bind (Throws.each (I := Machine.Made) (hbare ht).1
      fun s _ u hu => ⟨?_, createStream_throws s hu⟩)
    exact (createStream_ends s hu).mono (fun _ _ h => h.2.2.1) fun _ _ _ => trivial
  have hreset : ∀ {t : Machine σ}, ReflTransGen (Opening env) m₀ t →
      Ends (processResetStreamEntry env true) (fun _ u => ReflTransGen (Opening env) m₀ u)
        (fun _ u => ReflTransGen (Opening env) m₀ u) t := by
    refine fun ht => Ends.mono (resetAll_follows _)
      (fun _ u hu => ht.trans (opening_of_moves hu)) ?_
    rintro _ u ⟨v, hv, rfl⟩
    exact ht.trans (opening_of_moves hv)
  have hopen : Throws (fun t => F t.flying) (openDescriptors env) False m₀ :=
    Throws.unless (Ends.mono (openDescriptors_follows m₀) (fun _ _ ht => ht) fun _ t ht => by
      obtain ⟨u, hu, rfl⟩ := ht
      exact (hbare hu).2)
  unfold Throws
  rw [ends_bind, ends_askWorld, ends_bind, ends_alter, hm₀]
  refine Throws.congr (Throws.bind hopen ?_) (or_iff_right id)
  refine Ends.mono (openDescriptors_follows m₀) (fun _ t ht => ?_) fun _ _ _ => trivial
  refine Throws.congr (Throws.bind (Throws.unless ((hreset ht).mono (fun _ _ hu => hu)
    fun _ u hu => (hbare hu).2)) ?_) (or_iff_right id)
  exact (hreset ht).mono (fun _ u hu => hcreate hu) fun _ _ _ => trivial

end Stream

end SgFtdi
