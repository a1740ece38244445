import SgFtdi.Common.Concurrency
import SgFtdi.Stream.Construct
import SgFtdi.Stream.Model.Steady
import SgFtdi.Stream.Moves.Held

/-!
# Stream — what the user writes

A stream's write transfer and its two callbacks are a `Sender`: what is on
the wire is the window, a copy of the front of the user's queue; the
device takes the front of the window, and the confirmation drops as much
from the queue. `Shows` says what the machine shows of that sender, and
every step of a running engine is a run of it. There is one window because
the constructor allows one write transfer for each stream.
-/

namespace SgFtdi

namespace Stream

open Prog Relation

variable {σ : Type} {env : Env σ} {m m' m₁ m₂ : Machine σ} {i s : ℕ}
variable {e : FtdiStreamStaticState}

/-! ## One write transfer for each stream -/

/-- The write transfer of a stream stands at one place of the layout. -/
theorem layoutOf_once {streams : List FtdiStreamEntry}
    {sizes : Packetsizes} (h : ∀ stream ∈ streams, Accepted sizes stream) (s : ℕ) :
    Multimap.Once (s, false) (layoutOf streams) := by
  refine Multimap.once_of_count ?_
  have hrow : ∀ t, (rowOf streams t).count (s, false) ≤ if t = s then 1 else 0 := by
    intro t
    unfold rowOf
    cases hs : streams[t]? with
    | none => simp
    | some stream =>
        have hw := (h stream (List.mem_of_getElem? hs)).oneWrite
        by_cases hts : t = s
        · subst hts
          simpa [List.count_append, List.count_replicate] using hw
        · simp [List.count_append, List.count_replicate, hts]
  have hrows : ∀ n, ((List.range n).flatMap (rowOf streams)).count (s, false) ≤
      if s < n then 1 else 0 := by
    intro n
    induction n with
    | zero => simp
    | succ n ih =>
        rw [List.range_succ, List.flatMap_append, List.count_append, List.flatMap_singleton]
        have hn := hrow n
        split_ifs at ih hn ⊢ <;> omega
  have hall := hrows streams.length
  unfold layoutOf
  split_ifs at hall <;> omega

/-! ## The user's queue -/

/-- Bytes are appended to the queue, and nothing else happens to it. -/
def Appends (queue appended : σ → List UInt8) (w w' : σ) : Prop :=
  ∃ extra, queue w' = queue w ++ extra ∧ appended w' = appended w ++ extra

/-- **The user keeps a queue for a stream.** The world appends to it, at
any time; a fill copies some bytes of its front, and a confirmation
removes as many as it names. -/
structure Queueing (env : Env σ) (s : ℕ) (queue appended : σ → List UInt8) : Prop where
  appends : ∀ w w', WorldMove env w w' → Appends queue appended w w'
  others : ∀ (t n : ℕ) (w : σ), t ≠ s →
    Appends queue appended w (env.callback false t .writeConfirmTransfer [] n w).2
  fills : ∀ (buffer : List UInt8) (len : ℤ) (w : σ) (n : ℤ) (bytes : List UInt8),
    (env.callback false s .writeFillBuffer buffer len w).1.result = .ok (n, bytes) →
      0 ≤ n ∧ n.toNat ≤ (queue w).length ∧ bytes = (queue w).take n.toNat
  confirms : ∀ (n : ℕ) (w : σ), ∃ extra,
    queue (env.callback false s .writeConfirmTransfer [] n w).2 = (queue w).drop n ++ extra ∧
      appended (env.callback false s .writeConfirmTransfer [] n w).2 = appended w ++ extra

/-- What the device took of a completed write transfer of a stream. -/
def sentOf (s : ℕ) (o : Seen) : Option (List UInt8) :=
  match o.what with
  | .completed _ t false _ bytes _ => if t = s then some bytes else none
  | _ => none

/-- **The bytes the device has received** for a stream, in order. -/
def sent (s : ℕ) (t : List Seen) : List UInt8 := (t.filterMap (sentOf s)).flatten

variable {queue appended : σ → List UInt8} {S : Sender UInt8}

theorem Appends.refl {w : σ} : Appends queue appended w w := ⟨[], by simp, by simp⟩

theorem Appends.trans {w w₁ w₂ : σ} (h : Appends queue appended w w₁)
    (h' : Appends queue appended w₁ w₂) : Appends queue appended w w₂ := by
  obtain ⟨xs, h₁, h₂⟩ := h
  obtain ⟨ys, h₃, h₄⟩ := h'
  refine ⟨xs ++ ys, ?_, ?_⟩
  · rw [h₃, h₁, List.append_assoc]
  · rw [h₄, h₂, List.append_assoc]

theorem Queueing.path (hq : Queueing env s queue appended) {w w' : σ}
    (h : ReflTransGen (WorldMove env) w w') : Appends queue appended w w' := by
  induction h with
  | refl => exact .refl
  | tail _ hs ih => exact ih.trans (hq.appends _ _ hs)

theorem Queueing.aside (hq : Queueing env s queue appended) {w w' : σ}
    (h : ReflTransGen (WorldStep env) w w') : Appends queue appended w w' :=
  hq.path (ReflTransGen.mono (fun _ _ => .aside) _ _ h)

theorem sent_of_routine {t t' : List Seen} {b : Bool} (h : Grows (·.what.routine b) t t') :
    sent s t' = sent s t := by
  unfold sent
  rw [h.filterMap_eq fun o ho => ?_]
  obtain ⟨run, o⟩ := o
  cases o <;> first | exact ho.elim | rfl

/-! ## What the machine shows of the sender -/

/-- A write transfer of a stream is in flight, with these bytes on the
wire. -/
def FtdiStreamState.Flies (m : FtdiStreamState) (s i : ℕ) (bytes : List UInt8) (n : ℤ) : Prop :=
  ∃ e, m.entryAt i = some e ∧ e.owner = (s, false) ∧ e.transfer.inFlight = true ∧
    e.transfer.onWire = bytes ∧ e.transfer.length = n

/-- No write transfer of a stream is in flight at this place. -/
def FtdiStreamState.Grounded (m : FtdiStreamState) (s i : ℕ) : Prop :=
  ∀ bytes n, ¬ m.Flies s i bytes n

variable (queue appended) in
/-- **What the machine shows of a sender**: the queue and what was
appended to it are the user's, the device has what was sent, and the
window is what is on the wire. -/
structure Shows (s : ℕ) (m : Machine σ) (S : Sender UInt8) : Prop where
  appended : S.appended = appended m.world
  queue : S.queue = queue m.world
  sent : S.sent = sent s m.trace
  flying : ∀ i bytes n, m.Flies s i bytes n → S.window = some bytes ∧ n = bytes.length
  idle : (∀ i, m.Grounded s i) → S.window = none

variable (queue appended) in
/-- Whatever sender the first machine shows, a run of it is shown by the
second. -/
def Simulates (s : ℕ) (m m' : Machine σ) : Prop :=
  ∀ S, Shows queue appended s m S →
    ∃ S', ReflTransGen Sender.Step S S' ∧ Shows queue appended s m' S'

theorem Simulates.trans (h : Simulates queue appended s m m₁)
    (h' : Simulates queue appended s m₁ m₂) : Simulates queue appended s m m₂ := by
  intro S hS
  obtain ⟨S₁, hp₁, hS₁⟩ := h S hS
  obtain ⟨S₂, hp₂, hS₂⟩ := h' S₁ hS₁
  exact ⟨S₂, hp₁.trans hp₂, hS₂⟩

/-- **The frame rule**: where the wire and the record of it are as they
were, the user has appended and no more. -/
theorem Simulates.frame (hf : ∀ i bytes n, m'.Flies s i bytes n ↔ m.Flies s i bytes n)
    (hw : Appends queue appended m.world m'.world) (ht : sent s m'.trace = sent s m.trace) :
    Simulates queue appended s m m' := by
  intro S hS
  obtain ⟨extra, h₁, h₂⟩ := hw
  refine ⟨_, .single (.append extra), ?_, ?_, ?_, ?_, ?_⟩
  · exact (congrArg (· ++ extra) hS.appended).trans h₂.symm
  · exact (congrArg (· ++ extra) hS.queue).trans h₁.symm
  · exact hS.sent.trans ht.symm
  · exact fun i bytes n h => hS.flying i bytes n ((hf i bytes n).mp h)
  · exact fun h => hS.idle fun i bytes n hfl => h i bytes n ((hf i bytes n).mpr hfl)

theorem flies_of_twin {j : ℕ} (h : Option.Rel Twin (m.entryAt j) (m'.entryAt j))
    (bytes : List UInt8) (n : ℤ) : m'.Flies s j bytes n ↔ m.Flies s j bytes n := by
  unfold FtdiStreamState.Flies FtdiStreamStaticState.owner
  generalize m.entryAt j = x at h ⊢
  generalize m'.entryAt j = y at h ⊢
  cases h with
  | none => simp
  | some ht => simp [ht.transfer, ht.streamId, ht.isReading]

/-- An idle entry, or one of another owner, is grounded. -/
theorem grounded_of_entry (he : m.entryAt i = some e)
    (h : e.owner = (s, false) → e.transfer.inFlight = false) : m.Grounded s i := by
  rintro bytes n ⟨e', he', ho, hfl, -⟩
  rw [he, Option.some_inj] at he'
  subst he'
  rw [h ho] at hfl
  cases hfl

/-- One entry is singled out, and is grounded before and after. -/
theorem Simulates.grounded (ho : Others i m m') (h : m.Grounded s i) (h' : m'.Grounded s i)
    (hw : Appends queue appended m.world m'.world) (ht : sent s m'.trace = sent s m.trace) :
    Simulates queue appended s m m' := by
  refine .frame (fun j bytes n => ?_) hw ht
  by_cases hij : i = j
  · subst hij
    exact ⟨fun hfl => absurd hfl (h' bytes n), fun hfl => absurd hfl (h bytes n)⟩
  · exact flies_of_twin (ho j hij) bytes n

/-! ## Offering and taking -/

/-- There is no other place for the stream's write transfer. -/
theorem once_entry {e' : FtdiStreamStaticState} {j : ℕ} (h : Multimap.Once (s, false) m.layout)
    (he : m.entryAt i = some e) (ho : e.owner = (s, false)) (he' : m.entryAt j = some e')
    (ho' : e'.owner = (s, false)) : i = j := by
  refine h i j ?_ ?_
  · rw [layout_getElem?, he, ← ho]
    rfl
  · rw [layout_getElem?, he', ← ho']
    rfl

/-- Where the stream's own write transfer is idle, none is in flight. -/
theorem grounded_of_once (h : Multimap.Once (s, false) m.layout) (he : m.entryAt i = some e)
    (ho : e.owner = (s, false)) (hidle : e.transfer.inFlight = false) (j : ℕ) :
    m.Grounded s j := by
  rintro bytes n ⟨e', he', ho', hfl, -⟩
  have hij := once_entry h he ho he' ho'
  subst hij
  rw [he, Option.some_inj] at he'
  subst he'
  rw [hidle] at hfl
  cases hfl

/-- The world, while a buffer is filled. -/
theorem Fill.world {n : ℤ} (h : Fill env i e m n m₁) :
    ReflTransGen (WorldStep env) m.world m₁.world := by
  cases h with
  | mk _ hq =>
      have hcall : WorldStep env m.world (env.callback false e.streamId .writeFillBuffer
          (e.transfer.buffer.getD []) e.bufferSize m.world).2 := .callback _ _ _ _ _ (by decide)
      exact (ReflTransGen.single hcall).trans hq.worlds

theorem Fill.sent {n : ℤ} (h : Fill env i e m n m₁) :
    Stream.sent s m₁.trace = Stream.sent s m.trace := by
  cases h with
  | mk _ hq =>
      have hnote : Grows (·.what.routine e.transfer.inFlight) m.trace
          (m.note (.filled i e.transfer.inFlight)).trace := .one rfl
      have hquiet := (Work.quiet (i := i) hq).calm
      have hasked : Grows (·.what.routine e.transfer.inFlight)
          (m.note (.filled i e.transfer.inFlight)).trace _ :=
        hq.frame.trace.mono fun o ho => (Obs.minor_of_isAsked (i := i) ho).routine
      exact sent_of_routine (hnote.trans hasked)

/-- What goes onto the wire is what the user has just written. -/
theorem onWire_filled {e₀ : FtdiStreamStaticState} {bytes : List UInt8} {n : ℤ}
    (hbuf : e₀.transfer.buffer.isSome = true) (hcopied : bytes.length = n.toNat) :
    ((e₀.store bytes).setLength n).takeOff.transfer.onWire = bytes := by
  obtain ⟨old, hold⟩ := Option.isSome_iff_exists.mp hbuf
  simp [FtdiStreamStaticState.takeOff, FtdiStreamStaticState.setLength,
    FtdiStreamStaticState.store, hold, ← hcopied]

/-- **The rule of an offer**: nothing was in flight, and now a front of the
queue is on the wire at one place. -/
theorem Simulates.offer {bytes : List UInt8} {k : ℕ} (hground : ∀ j, m.Grounded s j)
    (hothers : Others i m m')
    (hfly : ∀ bytes' n, m'.Flies s i bytes' n ↔ bytes' = bytes ∧ n = bytes.length)
    (hbytes : bytes = (queue m.world).take k) (hw : Appends queue appended m.world m'.world)
    (ht : sent s m'.trace = sent s m.trace) : Simulates queue appended s m m' := by
  intro S hS
  obtain ⟨extra, happ, hqueue⟩ := hw
  have hwindow : S.window = none := hS.idle hground
  refine ⟨_, (ReflTransGen.single (.offer k hwindow)).tail (.append extra), ?_, ?_, ?_, ?_, ?_⟩
  · exact (congrArg (· ++ extra) hS.appended).trans hqueue.symm
  · exact (congrArg (· ++ extra) hS.queue).trans happ.symm
  · exact hS.sent.trans ht.symm
  · intro j bytes' n hfl
    by_cases hij : i = j
    · subst hij
      obtain ⟨rfl, rfl⟩ := (hfly bytes' n).mp hfl
      refine ⟨?_, rfl⟩
      show some (S.queue.take k) = some bytes'
      rw [hS.queue, hbytes]
    · -- the other places were grounded, and are as they were
      exact absurd ((flies_of_twin (hothers j hij) bytes' n).mp hfl) (hground j bytes' n)
  · intro hnone
    exact absurd ((hfly bytes bytes.length).mpr ⟨rfl, rfl⟩) (hnone i _ _)

/-- **A filled buffer that libusb takes is an offer** of the front of the
queue. -/
theorem Fill.offers {e₀ e₂ : FtdiStreamStaticState} {n : ℤ}
    (hq : Queueing env s queue appended) (hground : ∀ j, m.Grounded s j)
    (he : m.entryAt i = some e₀) (ho : e₀.owner = (s, false))
    (hbuf : e₀.transfer.buffer.isSome = true) (hid : e.streamId = s) (hf : Fill env i e m n m₂)
    (hn : 0 < n)
    (he₂ : (m₂.modifyEntry i (.setLength n)).entryAt i = some e₂) :
    Simulates queue appended s m ((m₂.modifyEntry i (.setLength n)).launched env i e₂) := by
  have hworld : Appends queue appended m.world
      ((m₂.modifyEntry i (.setLength n)).launched env i e₂).world :=
    hq.aside (hf.world.tail (.submitTransfer i))
  have hsent : Stream.sent s ((m₂.modifyEntry i (.setLength n)).launched env i e₂).trace =
      Stream.sent s m.trace :=
    (sent_of_routine (launched_routine env (m₂.modifyEntry i (.setLength n)) i e₂)).trans hf.sent
  cases hf with
  | @mk bytes m₁ hres hquiet =>
      subst hid
      obtain ⟨-, hlen, hbytes⟩ := hq.fills _ _ _ _ _ hres
      have hcopied : bytes.length = n.toNat := by
        rw [hbytes, List.length_take, Nat.min_eq_left hlen]
      have he₁ : m₁.entryAt i = some e₀ := (hquiet.frame.entryAt i).trans he
      have he₃ : e₂ = (e₀.store bytes).setLength n := by
        rw [modifyEntry_modifyEntry, entryAt_modifyEntry_self, he₁, Option.map_some,
          Option.some_inj] at he₂
        exact he₂.symm
      have hlaunched : (((m₁.modifyEntry i (.store bytes)).modifyEntry i
          (.setLength n)).launched env i e₂).entryAt i = some e₂.takeOff := launched_entryAt he₂
      have hwire : e₂.takeOff.transfer.onWire = bytes := he₃ ▸ onWire_filled hbuf hcopied
      have howner : e₂.takeOff.owner = (e.streamId, false) := by
        rw [he₃]
        exact ho
      have hlength : e₂.takeOff.transfer.length = bytes.length := by
        rw [he₃]
        show n = _
        omega
      refine .offer hground ((((Others.of_quiet hquiet).andModify _).andModify _).andLaunched _)
        (fun bytes' n' => ⟨?_, ?_⟩) hbytes hworld hsent
      · rintro ⟨e', he', -, -, rfl, rfl⟩
        rw [hlaunched, Option.some_inj] at he'
        subst he'
        exact ⟨hwire, hlength⟩
      · rintro ⟨rfl, rfl⟩
        exact ⟨_, hlaunched, howner, rfl, hwire, hlength⟩

/-- The device has taken the front of the window. -/
theorem sent_landed {c : Completion} (ho : e.owner = (s, false)) :
    sent s (m.landed e c).trace = sent s m.trace ++ e.transfer.onWire.take c.sent := by
  have hid : e.streamId = s := congrArg Prod.fst ho
  have hdir : e.isReading = false := congrArg Prod.snd ho
  unfold sent
  simp [Machine.landed, sentOf, FtdiStreamStaticState.moved, hid, hdir]

/-- While a completion is confirmed nothing of the stream is in flight. -/
theorem Confirm.grounded {c : Completion} {b : Bool} (hone : Multimap.Once (s, false) m.layout)
    (he : m.entryAt c.transfer = some e) (ho : e.owner = (s, false))
    (hc : Confirm env c.transfer (e.back c) (m.landed e c) b m₁) (j : ℕ) : m₁.Grounded s j := by
  intro bytes n hj
  by_cases hij : c.transfer = j
  · subst hij
    obtain ⟨e₁, he₁, ha⟩ := hc.entry (landed_entryAt he)
    exact grounded_of_entry he₁ (fun _ => ha.inFlight) bytes n hj
  · have hothers := (landed_others m e c).trans hc.others
    obtain ⟨e', he', ho', -⟩ := (flies_of_twin (hothers j hij) bytes n).mp hj
    exact hij (once_entry hone he ho he' ho')

/-- **A completion that is confirmed is a taking** of the front of the
window. -/
theorem Confirm.takes {c : Completion} (hq : Queueing env s queue appended)
    (hone : Multimap.Once (s, false) m.layout) (he : m.entryAt c.transfer = some e)
    (ho : e.owner = (s, false)) (hfl : e.transfer.inFlight = true)
    (hc : Confirm env c.transfer (e.back c) (m.landed e c) true m₁) :
    Simulates queue appended s m m₁ := by
  intro S hS
  have hid : e.streamId = s := congrArg Prod.fst ho
  have hdir : e.isReading = false := congrArg Prod.snd ho
  obtain ⟨hwindow, hlength⟩ := hS.flying c.transfer _ _ ⟨e, he, ho, hfl, rfl, rfl⟩
  -- as much is confirmed as the device took
  have hactual : (e.back c).transfer.actualLength = (e.transfer.onWire.take c.sent).length := by
    show e.actual c = _
    rw [FtdiStreamStaticState.actual, hdir, if_neg Bool.false_ne_true, hlength, List.length_take,
      Int.toNat_natCast]
  have hground := hc.grounded hone he ho
  have hsent : Stream.sent s m₁.trace = Stream.sent s m.trace ++ e.transfer.onWire.take c.sent := by
    have hroutine := hc.routine (landed_entryAt he)
    rw [← sent_landed ho, sent_of_routine hroutine]
    split
    · rw [List.append_nil]
    · simp [Stream.sent, sentOf]
  obtain ⟨extra, hqueue, happ⟩ : ∃ extra,
      queue m₁.world = (queue m.world).drop (e.transfer.onWire.take c.sent).length ++ extra ∧
        appended m₁.world = appended m.world ++ extra := by
    rw [← hactual]
    cases hc with
    | none hzero => exact ⟨[], by simp [hzero, Machine.landed], by simp [Machine.landed]⟩
    | @taken b m₂ hpos _ hquiet =>
        have hworld : ((m.landed e c).confirming env c.transfer (e.back c)).world =
            (env.callback false s .writeConfirmTransfer [] (e.back c).transfer.actualLength
              m.world).2 := by
          rw [← hid]
          rfl
        obtain ⟨xs, h₁, h₂⟩ := hq.confirms (e.back c).transfer.actualLength m.world
        obtain ⟨ys, h₃, h₄⟩ := hq.path hquiet.calm.world
        rw [hworld] at h₃ h₄
        exact ⟨xs ++ ys, by simp [h₃, h₁], by simp [h₄, h₂]⟩
  refine ⟨_, (ReflTransGen.single (.taken c.sent hwindow)).tail (.append extra), ?_, ?_, ?_, ?_, ?_⟩
  · exact (congrArg (· ++ extra) hS.appended).trans happ.symm
  · rw [hqueue, ← hS.queue]
  · rw [hsent, ← hS.sent]
  · exact fun j bytes n h => absurd h (hground j bytes n)
  · exact fun _ => rfl

/-! ## Every step is shown -/

theorem Prepared.world {n : ℤ} (h : Prepared env i e m n m₁) :
    ReflTransGen (WorldStep env) m.world m₁.world := by
  cases h with
  | reading _ => exact .refl
  | writing _ hf => exact hf.world

theorem Submitted.world (h : Submitted env i m m') :
    ReflTransGen (WorldStep env) m.world m'.world := by
  cases h with
  | kept _ => exact .refl
  | idle _ _ _ hp => exact hp.world
  | launched _ _ _ hp _ _ => exact hp.world.tail (.submitTransfer i)

theorem ReadBack.world (h : ReadBack env i e m m') :
    ReflTransGen (WorldMove env) m.world m'.world := by
  cases h with
  | off _ => exact .refl
  | stopped _ _ => exact .refl
  | again _ _ _ hd _ =>
      exact ((m.touch_calm e).trans hd.work.calm).world.tail (.aside (.submitTransfer i))
  | @failed m₁ _ _ _ _ hw =>
      exact ((m.heard_calm e).trans hw.calm).world.tail
        (.aside (errored_world env (m₁.modifyEntry i _) _))

/-- What an entry keeps for good, its owner keeps. -/
theorem Same.owner {e' : FtdiStreamStaticState} (h : Same e e') : e'.owner = e.owner := by
  rw [FtdiStreamStaticState.owner, FtdiStreamStaticState.owner, h.streamId, h.isReading]

/-- **`submit` on an idle entry** offers what is filled, or nothing. -/
theorem Submitted.simulates (hq : Queueing env s queue appended)
    (hone : Multimap.Once (s, false) m.layout) (he : m.entryAt i = some e)
    (hidle : e.transfer.inFlight = false) (hbuf : e.transfer.buffer.isSome = true)
    (h : Submitted env i m m') : Simulates queue appended s m m' := by
  have hworld := hq.aside h.world
  have hsent : Stream.sent s m'.trace = Stream.sent s m.trace := sent_of_routine (h.routine he)
  have hground : m.Grounded s i := grounded_of_entry he fun _ => hidle
  obtain ⟨e', he', hsame, hcase⟩ := h.entry he
  by_cases ho : e.owner = (s, false)
  · have hothers := h.others
    cases h with
    | kept _ => exact .frame (fun _ _ _ => Iff.rfl) hworld hsent
    | @idle e₁ m₁ he₁ _ _ hp =>
        -- nothing was filled in: the entry is switched off, and nothing goes out
        have hafter := (hp.sized he₁).calm.entry he₁
        obtain ⟨e₂, he₂, ha⟩ := hafter
        rw [he, Option.some_inj] at he₁
        subst he₁
        refine .grounded hothers hground (grounded_of_entry (e := e₂.setEnabled false) ?_ ?_) hworld
          hsent
        · rw [entryAt_modifyEntry_self, he₂]
          rfl
        · exact fun _ => ha.inFlight.trans hidle
    | @launched e₁ e₂ n m₁ he₁ _ _ hp hn he₂ =>
        rw [he, Option.some_inj] at he₁
        subst he₁
        cases hp with
        | reading hread =>
            have hdir : e.isReading = false := congrArg Prod.snd ho
            rw [hdir] at hread
            cases hread
        | writing _ hf =>
            exact hf.offers hq (grounded_of_once hone he ho hidle) he ho hbuf
              (congrArg Prod.fst ho) hn he₂
  · -- it is another stream's transfer, or it reads
    exact .grounded h.others hground
      (grounded_of_entry he' fun ho' => absurd (hsame.owner.symm.trans ho') ho) hworld hsent

/-- The world, while another stream's completion is confirmed. -/
theorem Confirm.appends (hq : Queueing env s queue appended) (hother : e.streamId ≠ s)
    (h : Confirm env i e m true m₁) : Appends queue appended m.world m₁.world := by
  cases h with
  | none _ => exact .refl
  | taken _ _ hquiet =>
      exact (hq.others e.streamId e.transfer.actualLength m.world hother).trans
        (hq.path hquiet.calm.world)

/-- Another stream's write transfer that comes back to a running engine. -/
theorem WriteBack.appends (hq : Queueing env s queue appended) (hother : e.streamId ≠ s)
    (h : WriteBack env i e m m') (hr : m'.shouldRun = true) :
    Appends queue appended m.world m'.world := by
  cases h with
  | off _ => exact .refl
  | stopped _ _ => simp at hr
  | failed _ _ _ _ _ => simp at hr
  | idle _ _ _ hc hf => exact (hc.appends hq hother).trans (hq.aside hf.world)
  | again _ _ _ hc hf _ _ =>
      exact (hc.appends hq hother).trans (hq.aside (hf.world.tail (.submitTransfer i)))

/-- **The stream's own write transfer** is taken, and offered again or
switched off. -/
theorem WriteBack.simulates {c : Completion} (hq : Queueing env s queue appended)
    (hone : Multimap.Once (s, false) m.layout) (he : m.entryAt c.transfer = some e)
    (ho : e.owner = (s, false)) (hfl : e.transfer.inFlight = true) (hen : e.enabled = true)
    (hbuf : e.transfer.buffer.isSome = true)
    (h : WriteBack env c.transfer (e.back c) (m.landed e c) m') (hr : m'.shouldRun = true) :
    Simulates queue appended s m m' := by
  have hid : (e.back c).streamId = s := congrArg Prod.fst ho
  have hback : (e.back c).owner = (s, false) := ho
  have hbackBuf : (e.back c).transfer.buffer.isSome = true := (back_same e c).hasBuffer.trans hbuf
  cases h with
  | off hoff => exact absurd hen (Bool.eq_false_iff.mp hoff)
  | stopped _ _ => simp at hr
  | failed _ _ _ _ _ => simp at hr
  | @idle m₁ m₂ _ _ _ hc hf =>
      refine (hc.takes hq hone he ho hfl).trans ?_
      obtain ⟨e₁, he₁, ha⟩ := hc.entry (landed_entryAt he)
      have hwork := hf.work he₁ ha.inFlight.symm
      obtain ⟨e₂, he₂, ha₂⟩ := hwork.calm.entry he₁
      refine .grounded (((Others.of_work hwork).andModify _).andModify _)
        (grounded_of_entry he₁ fun _ => ha.inFlight)
        (grounded_of_entry (e := (e₂.setLength 0).setEnabled false) ?_ ?_)
        (hq.aside hf.world) hf.sent
      · rw [modifyEntry_modifyEntry, entryAt_modifyEntry_self, he₂]
        rfl
      · exact fun _ => ha₂.inFlight.trans ha.inFlight
  | @again n m₁ m₂ e₂ _ _ _ hc hf hn he₂ =>
      refine (hc.takes hq hone he ho hfl).trans ?_
      obtain ⟨e₁, he₁, ha⟩ := hc.entry (landed_entryAt he)
      exact hf.offers hq (hc.grounded hone he ho) he₁ (ha.same.owner.trans hback)
        (ha.hasBuffer.trans hbackBuf) hid hn he₂

/-- **A completion** in a running engine. -/
theorem Completed.simulates {c : Completion} (hq : Queueing env s queue appended)
    (hone : Multimap.Once (s, false) m.layout) (hheld : m.Held)
    (hbuf : ∀ i e, m.entryAt i = some e → e.transfer.buffer.isSome = true)
    (h : Completed env c m m') (hr : m'.shouldRun = true) :
    Simulates queue appended s m m' := by
  cases h with
  | @read e _ he hfl hread hb =>
      obtain ⟨e', he', hs, -⟩ := hb.entry (landed_entryAt he)
      -- a read is none of the stream's writes
      have hne : e.owner ≠ (s, false) := fun ho => by
        have hdir : e.isReading = false := congrArg Prod.snd ho
        rw [hdir] at hread
        cases hread
      refine .grounded ((landed_others m e c).trans hb.others)
        (grounded_of_entry he fun ho => absurd ho hne)
        (grounded_of_entry he' fun ho => absurd ((hs.owner.symm.trans ho : e.owner = _)) hne)
        (hq.path hb.world) ?_
      rw [sent_of_routine (hb.routine (landed_entryAt he))]
      simp [Machine.landed, Stream.sent, sentOf, hread]
  | @write e _ he hfl hwrite hb =>
      by_cases hs : e.streamId = s
      · have ho : e.owner = (s, false) := Prod.ext hs hwrite
        exact hb.simulates hq hone he ho hfl (hheld _ e he hfl) (hbuf _ e he) hr
      · have hother : (e.back c).streamId ≠ s := hs
        obtain ⟨e', he', hsame, -⟩ := hb.entry (landed_entryAt he) hwrite
        have happ : Appends queue appended (m.landed e c).world m'.world :=
          hb.appends hq hother hr
        have hne : e.owner ≠ (s, false) := fun ho => hs (congrArg Prod.fst ho)
        refine .grounded ((landed_others m e c).trans (hb.others (landed_entryAt he)))
          (grounded_of_entry he fun ho => absurd ho hne)
          (grounded_of_entry he' fun ho =>
            absurd ((hsame.owner.symm.trans ho : e.owner = _)) hne)
          happ ?_
        rw [sent_of_routine (hb.routine (landed_entryAt he))]
        have hland : Stream.sent s (m.landed e c).trace = Stream.sent s m.trace := by
          simp [Machine.landed, Stream.sent, sentOf, hwrite, hs]
        rw [← hland]
        split
        · simp [Stream.sent, sentOf]
        · rw [List.append_nil]

/-- The layout is what it was, where no owner has changed. -/
theorem Others.layout (h : Others i m m')
    (hi : (m'.entryAt i).map (·.owner) = (m.entryAt i).map (·.owner)) : m'.layout = m.layout := by
  refine List.ext_getElem? fun j => ?_
  rw [layout_getElem?, layout_getElem?]
  by_cases hij : i = j
  · exact hij ▸ hi
  · have hj := h j hij
    generalize m.entryAt j = x at hj ⊢
    generalize m'.entryAt j = y at hj ⊢
    cases hj with
    | none => rfl
    | some ht => rw [Option.map_some, Option.map_some, ht.toAlike.same.owner]

/-- **A move** of a running engine. -/
theorem Move.simulates (hq : Queueing env s queue appended)
    (hone : Multimap.Once (s, false) m.layout) (hheld : m.Held)
    (hbuf : ∀ i e, m.entryAt i = some e → e.transfer.buffer.isSome = true)
    (h : Move env m m') (hr : m'.shouldRun = true) : Simulates queue appended s m m' := by
  cases h with
  | chore hc =>
      exact .frame (fun j => flies_of_twin (hc.twins j)) (hq.path hc.calm.world)
        (sent_of_routine (hc.routine false))
  | errored message => simp at hr
  | pollfds fds => exact .frame (fun _ _ _ => Iff.rfl) .refl rfl
  | @completed c m₁ hc =>
      refine (hc.simulates hq hone hheld hbuf hr).trans (.frame (fun _ _ _ => Iff.rfl) .refl ?_)
      simp [Machine.boundary, Stream.sent, sentOf]
  | @armed i e _ he hen _ hsub =>
      have hidle : e.transfer.inFlight = false := by
        by_contra hfl
        have hon := hheld i e he (by simpa using hfl)
        rw [hen] at hon
        cases hon
      have he₁ : (m.modifyEntry i (.setEnabled true)).entryAt i = some (e.setEnabled true) := by
        rw [entryAt_modifyEntry_self, he]
        rfl
      -- switched on, which the sender does not see, and then submitted
      have hlayout := (Others.modify i m (.setEnabled true)).layout (by rw [he₁, he]; rfl)
      refine Simulates.trans (.grounded (Others.modify i m _) (grounded_of_entry he fun _ => hidle)
        (grounded_of_entry he₁ fun _ => hidle) .refl rfl) ?_
      exact hsub.simulates hq (hlayout ▸ hone) he₁ hidle (hbuf i e he)
  | @cancelled i e he _ _ =>
      refine .frame (fun j bytes n => ?_) .refl (sent_of_routine (b := false) (.one trivial))
      by_cases hij : i = j
      · subst hij
        unfold FtdiStreamState.Flies
        rw [entryAt_modifyEntry_self, note_entryAt, he]
        simp [FtdiStreamStaticState.askCancel, FtdiStreamStaticState.owner]
      · exact flies_of_twin (Others.modify i (m.note (.cancelled i)) _ j hij) bytes n

/-! ## Sessions -/

variable {ss : List FtdiStreamEntry} {p : UInt32} {S₀ : Sender UInt8}

/-- **Writing goes on**: the sender that a session began with has come to
one the machine shows. -/
structure Sending (env : Env σ) (queue appended : σ → List UInt8) (ss : List FtdiStreamEntry)
    (p : UInt32) (s : ℕ) (S₀ : Sender UInt8) (m : Machine σ) : Prop where
  held : m.Held
  configuration : Configuration env ss p m
  shown : m.shouldRun = true →
    ∃ S, ReflTransGen Sender.Step S₀ S ∧ Shows queue appended s m S

theorem Sending.follow (h : Sending env queue appended ss p s S₀ m) (hheld : m'.Held)
    (hconf : Configuration env ss p m') (hstays : m'.shouldRun = true → m.shouldRun = true)
    (hsim : m'.shouldRun = true → Simulates queue appended s m m') :
    Sending env queue appended ss p s S₀ m' := by
  refine ⟨hheld, hconf, fun hr => ?_⟩
  obtain ⟨S, hp, hS⟩ := h.shown (hstays hr)
  obtain ⟨S', hp', hS'⟩ := hsim hr S hS
  exact ⟨S', hp.trans hp', hS'⟩

/-- A step that is not about transfers. -/
theorem Simulates.aside (hs : m'.streamstates = m.streamstates) (hw : m'.world = m.world)
    (ht : sent s m'.trace = sent s m.trace) : Simulates queue appended s m m' := by
  have hentry : ∀ j, m'.entryAt j = m.entryAt j := fun j => by
    unfold FtdiStreamState.entryAt FtdiStreamState.entries
    rw [hs]
  refine .frame (fun j bytes n => ?_) (hw ▸ .refl) ht
  unfold FtdiStreamState.Flies
  rw [hentry]

theorem Step.sending (hst : Step env m m') (hq : Queueing env s queue appended)
    (hone : Multimap.Once (s, false) m.layout) (h : Sending env queue appended ss p s S₀ m) :
    Sending env queue appended ss p s S₀ m' := by
  refine h.follow (hst.lives.held h.held) (hst.configuration h.configuration) hst.stays
    fun hr => ?_
  have hbuf := fun i e he => (h.configuration.entries i e he).hasBuffer
  cases hst with
  | handling hh =>
      cases hh with
      | draining hd =>
          cases hd with
          | move hm => exact hm.simulates hq hone h.held hbuf hr
          | cleared _ hc => cases hc <;> exact .aside rfl rfl rfl
      | @accepted t q _ _ _ =>
          rw [accepted_eq]
          refine .aside rfl rfl ?_
          simp [sent, sentOf]
      | stopping =>
          refine .aside rfl rfl ?_
          simp [Machine.askedToStop, Machine.notified, sent, sentOf]
      | locked _ _ =>
          refine .aside rfl rfl ?_
          simp [Machine.locked, sent, sentOf]
      | _ => exact .aside rfl rfl rfl
  | waitFailed errno => simp at hr
  | crashed cause hb => cases hr
  | _ => exact .aside rfl rfl rfl

theorem Watched.world {sock : ℤ} (h : Watched env sock m m') :
    ReflTransGen (WorldStep env) m.world m'.world := by
  cases h with
  | added w hw => exact .single hw
  | failed w cause hw => exact (ReflTransGen.single hw).tail (errored_world env (m.withWorld w) _)

theorem Ready.world {stream : FtdiStreamEntry} (h : Ready env i stream m m₁) :
    ReflTransGen (WorldStep env) m.world m₁.world := by
  cases h with
  | reading _ _ hw => exact .single hw
  | writing _ _ hw hwatched => exact (ReflTransGen.single hw).trans hwatched.world

theorem Watched.simulates {sock : ℤ} (hq : Queueing env s queue appended)
    (h : Watched env sock m m') : Simulates queue appended s m m' := by
  refine .frame (fun j bytes n => ?_) (hq.aside h.world) (sent_of_routine (h.routine false))
  unfold FtdiStreamState.Flies
  rw [h.entryAt]

/-- **A new entry** joins the others, idle, and is submitted. -/
theorem Created.simulates {t u : ℕ} {stream : FtdiStreamEntry} {isReading : Bool}
    (hq : Queueing env s queue appended) (h : Created env t u stream isReading m m')
    (hone : Multimap.Once (s, false) m'.layout) : Simulates queue appended s m m' := by
  cases h with
  | @mk fd m₁ _ hs hmade hgiven hready hsub =>
      obtain ⟨e₀, hfresh, he₀, hidle⟩ := hready.fresh hmade
      have hbuf : e₀.transfer.buffer.isSome = true := by
        rw [hfresh]
        have hconf : Configured env m.streams m.readPacketsize _ := configured_fresh u hs hgiven
        exact hconf.hasBuffer
      have hbefore : Simulates queue appended s m m₁ := by
        refine .frame (fun j bytes n => ?_) ?_ (sent_of_routine (hready.routine false))
        · by_cases hj : m.entries.length = j
          · have hnew : m.entryAt j = none := by
              rw [← hj]
              exact List.getElem?_length _
            refine ⟨fun hfl => absurd hfl ?_, fun hfl => ?_⟩
            · exact grounded_of_entry (hj ▸ he₀) (fun _ => hidle) bytes n
            · obtain ⟨e, he, -⟩ := hfl
              rw [hnew] at he
              cases he
          · unfold FtdiStreamState.Flies
            rw [hready.entryAt, if_neg hj, emplaced_entryAt_lt _ (Ne.symm hj)]
        · exact hq.aside hready.world
      obtain ⟨e', he', hsame, -⟩ := hsub.entry he₀
      have hlayout : m'.layout = m₁.layout :=
        hsub.others.layout (by rw [he', he₀, Option.map_some, Option.map_some, hsame.owner])
      exact hbefore.trans (hsub.simulates hq (hlayout ▸ hone) he₀ hidle hbuf)

theorem Setup.sending (hst : Setup env m m') (hq : Queueing env s queue appended)
    (hone : Multimap.Once (s, false) m'.layout) (h : Sending env queue appended ss p s S₀ m) :
    Sending env queue appended ss p s S₀ m' := by
  have hbuf := fun i e he => (h.configuration.entries i e he).hasBuffer
  have hheld := hst.held h.held
  have hconf := hst.configuration h.configuration
  cases hst with
  | opening ho =>
      have hlayout : m'.layout = m.layout := ho.frame.2.2.2.2
      cases ho with
      | move hm =>
          exact h.follow hheld hconf hm.kept.stays fun hr =>
            hm.simulates hq (hlayout ▸ hone) h.held hbuf hr
      | watched _ hw => exact h.follow hheld hconf hw.stays fun _ => hw.simulates hq
      | noted fd =>
          refine h.follow hheld hconf id fun _ => .aside rfl rfl ?_
          simp [sent, sentOf]
      | _ => exact h.follow hheld hconf id fun _ => .aside rfl rfl rfl
  | created hc => exact h.follow hheld hconf hc.stays fun _ => hc.simulates hq hone

/-- The layout only grows while a session is set up. -/
theorem Setup.layout (h : Setup env m m') : m.layout <+: m'.layout := by
  cases h with
  | opening ho => exact ho.frame.2.2.2.2 ▸ List.prefix_rfl
  | created hc =>
      rw [hc.layout]
      exact List.prefix_append _ _

/-- **Wherever the engine is, the machine shows a run of the sender.** -/
theorem Reached.sending {m₀ : Machine σ} (h : Reached env m₀ m) (hidle : Idle m₀)
    (hq : Queueing env s queue appended) :
    Sending env queue appended m₀.streams m₀.readPacketsize s
      ⟨appended m₀.world, queue m₀.world, [], none⟩ m := by
  obtain ⟨m₁, ⟨⟨b, hb, hp⟩, hlayout, -⟩, hp'⟩ := h
  have hone : Multimap.Once (s, false) m₁.layout := by
    obtain ⟨timeouts, hc⟩ := hidle.constructed
    rw [hlayout]
    exact layoutOf_once (construct_accepts hc) s
  have hbegun : Sending env queue appended m₀.streams m₀.readPacketsize s
      ⟨appended m₀.world, queue m₀.world, [], none⟩ b := by
    refine ⟨hb.held, hb.configuration, fun _ => ?_⟩
    obtain ⟨t, htrace⟩ := hb.trace
    rw [hidle.trace] at htrace
    have hground : ∀ j, b.Grounded s j := by
      rintro j bytes n ⟨e, he, -⟩
      rw [hb.entryAt] at he
      cases he
    obtain ⟨w, now, hw, hbw⟩ := hb
    obtain ⟨extra, h₁, h₂⟩ := hq.appends _ _ (.aside hw)
    have hworld : b.world = w := by rw [hbw]; rfl
    refine ⟨_, .single (.append extra), ?_, ?_, ?_, ?_, fun _ => rfl⟩
    · rw [hworld, h₂]
    · rw [hworld, h₁]
    · rw [htrace]
      rfl
    · exact fun j bytes n hfl => absurd hfl (hground j bytes n)
  -- the layout at the end is the longest, and has one place for the stream
  have hset : Multimap.Once (s, false) m₁.layout → Sending env queue appended m₀.streams
      m₀.readPacketsize s ⟨appended m₀.world, queue m₀.world, [], none⟩ m₁ :=
    inv_of_path (I := fun t => Multimap.Once (s, false) t.layout → Sending env queue appended
        m₀.streams m₀.readPacketsize s ⟨appended m₀.world, queue m₀.world, [], none⟩ t)
      (fun t u hst ht ho => hst.sending hq ho (ht (ho.of_prefix hst.layout))) hp fun _ => hbegun
  have hrun : m.layout = m₁.layout ∧ Sending env queue appended m₀.streams m₀.readPacketsize s
      ⟨appended m₀.world, queue m₀.world, [], none⟩ m :=
    inv_of_path (I := fun t => t.layout = m₁.layout ∧ Sending env queue appended m₀.streams
        m₀.readPacketsize s ⟨appended m₀.world, queue m₀.world, [], none⟩ t)
      (fun t u hst ht => ⟨hst.lives.layout.trans ht.1, hst.sending hq (ht.1 ▸ hone) ht.2⟩) hp'
      ⟨rfl, hset hone⟩
  exact hrun.2

/-- What a running machine shows is exact. -/
theorem Sending.balance (h : Sending env queue appended ss p s S₀ m) (hS₀ : S₀.Exact)
    (hr : m.shouldRun = true) : sent s m.trace ++ queue m.world = appended m.world := by
  obtain ⟨S, hp, hS⟩ := h.shown hr
  have hbalance := (Sender.exact_of_steps hp hS₀).balance
  rw [hS.sent, hS.queue, hS.appended] at hbalance
  exact hbalance

/-- **Writing is exactly-once and in order.** In every session, and at
every state in between in which the engine runs, what the device has
received for a stream and then what is still queued for it is what the
user has appended. -/
theorem writing_exact (env : Env σ) (m₀ : Machine σ) (hidle : Idle m₀) (s : ℕ)
    (queue appended : σ → List UInt8) (hq : Queueing env s queue appended)
    (hbegin : appended m₀.world = queue m₀.world) :
    (∀ mode actions m, Session env m₀ mode actions m → m.shouldRun = true →
        sent s m.trace ++ queue m.world = appended m.world) ∧
      ∀ m, Reached env m₀ m → m.shouldRun = true →
        sent s m.trace ++ queue m.world = appended m.world := by
  have hexact : Sender.Exact ⟨appended m₀.world, queue m₀.world, [], none⟩ :=
    ⟨hbegin.symm, fun w hw => by cases hw⟩
  have hreached : ∀ m, Reached env m₀ m → m.shouldRun = true →
      sent s m.trace ++ queue m.world = appended m.world :=
    fun m hm hr => (hm.sending hidle hq).balance hexact hr
  exact ⟨fun mode actions m hm => hreached m hm.path, hreached⟩

/-- A user at work: the next descriptor, the bytes still queued, and all
that were appended. -/
structure Desk where
  fd : ℕ
  queue : List UInt8
  appended : List UInt8
deriving DecidableEq

/-- The user's two write callbacks, over a queue. -/
def deskCallback (type : CallbackType) (len : ℤ) (w : Desk) : Reply (ℤ × List UInt8) × Desk :=
  match type with
  | .writeFillBuffer =>
      (⟨.ok ((min len.toNat w.queue.length : ℕ), w.queue.take (min len.toNat w.queue.length)), []⟩,
        w)
  | .writeConfirmTransfer => (⟨.ok (0, []), []⟩, { w with queue := w.queue.drop len.toNat })
  | type => (⟨.ok (steadyFd type 0, []), []⟩, w)

/-- The world in which a user writes to stream `0`, byte by byte. -/
def writing : Env Desk :=
  { granting Desk.fd (fun w => { w with fd := w.fd + 1 }) with
    callback := fun isReading s type _ len w =>
      if isReading = false ∧ s = 0 then deskCallback type len w
      else (⟨.ok (steadyFd type s, []), []⟩, w)
    user := fun k w => { w with
      queue := w.queue ++ [UInt8.ofNat k]
      appended := w.appended ++ [UInt8.ofNat k] } }

theorem writing_queueing : Queueing writing 0 Desk.queue Desk.appended := by
  have hstill : ∀ w w' : Desk, w'.queue = w.queue → w'.appended = w.appended →
      Appends Desk.queue Desk.appended w w' := fun w w' h₁ h₂ => ⟨[], by simp [h₁], by simp [h₂]⟩
  refine ⟨fun w w' h => ?_, fun t n w ht => ?_, fun buffer len w n bytes h => ?_, fun n w => ?_⟩
  · cases h with
    | aside h =>
        cases h with
        | user k => exact ⟨[UInt8.ofNat k], rfl, rfl⟩
        | callback isReading t type buffer len htype =>
            by_cases hw : isReading = false ∧ t = 0
            · refine hstill _ _ ?_ ?_ <;> cases type <;> simp_all [writing, deskCallback]
            · refine hstill _ _ ?_ ?_ <;> simp [writing, hw]
        | _ => exact hstill _ _ rfl rfl
    | readBuffer t bytes =>
        exact hstill _ _ (by simp [writing, Telling.call]) (by simp [writing, Telling.call])
    | counters s isReading t callbacks bytes => exact hstill _ _ rfl rfl
  · exact hstill _ _ (by simp [writing, ht]) (by simp [writing, ht])
  · simp only [writing, deskCallback, and_self, if_true, Except.ok.injEq, Prod.mk.injEq] at h
    obtain ⟨rfl, rfl⟩ := h
    refine ⟨by omega, ?_, ?_⟩
    · rw [Int.toNat_natCast]
      exact Nat.min_le_right _ _
    · rw [Int.toNat_natCast]
  · exact ⟨[], by simp [writing, deskCallback], by simp [writing, deskCallback]⟩

theorem writing_exact_sample :
    ∃ m, Session writing (constructed [sampleStream 64 0 1] ⟨64, 4096⟩ ⟨4, [1, 2, 3], [1, 2, 3]⟩)
      .poll [.thread (.user 7), reports [⟨0, .completed, [], 2⟩]] m ∧ sent 0 m.trace = [1, 2] ∧
      sent 0 m.trace ++ m.world.queue = m.world.appended := by
  have hidle : Idle (constructed [sampleStream 64 0 1] ⟨64, 4096⟩
      (⟨4, [1, 2, 3], [1, 2, 3]⟩ : Desk)) := constructed_idle (by decide +kernel)
  obtain ⟨m, hm, hrun, hsent⟩ := exists_session (P := fun m => m.shouldRun = true ∧
      sent 0 m.trace = [1, 2]) writing .poll
    [.thread (.user 7), reports [⟨0, .completed, [], 2⟩]] hidle (by decide +kernel)
  exact ⟨m, hm, hsent, (writing_exact writing _ hidle 0 Desk.queue Desk.appended writing_queueing
    rfl).1 _ _ m hm hrun⟩

end Stream

end SgFtdi
