import Mathlib.Algebra.Ring.Nat
import Mathlib.Data.List.Flatten
import SgFtdi.Stream.Reading
import SgFtdi.Stream.Moves.Log
import SgFtdi.Stream.Moves.Reasons

/-!
# Stream — the two read modes

With modem status included the user is handed whole messages, without it
messages whose first two bytes are cut off. `read_callback` has a branch
for each, with thresholds of its own; `readCalls` says in one line each
what they come to, and a user who keeps a list of the calls that this is
what is called, also by a completion that ends inside one of them.
-/

namespace SgFtdi

namespace Stream

open Prog Relation

variable {σ : Type} {env : Env σ} {m m' m₁ m₂ : Machine σ} {i s : ℕ}
variable {e e' : FtdiStreamStaticState}

/-! ## What the two modes call -/

/-- **The `READ_BUFFER` calls** for a completed transfer: its messages with
the modem status, and behind it without. -/
def readCalls (isModemStatus : Bool) (p : ℕ) (data : List UInt8) : List (List UInt8) :=
  if isModemStatus then (chunks p data).filter (2 ≤ ·.length)
  else ((chunks p data).filter (2 < ·.length)).map (·.drop 2)

/-- The payload bytes of a completed transfer: what its messages hold
behind the modem status. -/
def payloadLength (p : ℕ) (data : List UInt8) : ℕ :=
  (((chunks p data).filter (2 ≤ ·.length)).map (·.length - 2)).sum

/-- **Without its two bytes a call of one mode is a call of the other**, where
anything is left of it. -/
theorem readCalls_strip (p : ℕ) (data : List UInt8) :
    ((readCalls true p data).map (·.drop 2)).filter (· ≠ []) = readCalls false p data := by
  unfold readCalls
  simp only [if_true, Bool.false_eq_true, if_false]
  induction chunks p data with
  | nil => rfl
  | cons c cs ih =>
      rcases Nat.lt_trichotomy c.length 2 with h | h | h
      · rw [List.filter_cons_of_neg (by simpa using h), List.filter_cons_of_neg (by simp; omega)]
        exact ih
      · rw [List.filter_cons_of_pos (by simp; omega), List.filter_cons_of_neg (by simp; omega),
          List.map_cons, List.filter_cons_of_neg (by simp; omega)]
        exact ih
      · rw [List.filter_cons_of_pos (by simp; omega), List.filter_cons_of_pos (by simpa using h),
          List.map_cons, List.map_cons, List.filter_cons_of_pos (by simp; omega), ih]

/-- **No byte is passed twice**, and none that the transfer did not bring:
the calls are a part of it, in order. -/
theorem readCalls_sublist {p : ℕ} (hp : 0 < p) (b : Bool) (data : List UInt8) :
    (readCalls b p data).flatten.Sublist data := by
  have hall : ((chunks p data).flatten).Sublist data := by rw [flatten_chunks hp]
  have hdrop : ∀ cs : List (List UInt8), (cs.map (·.drop 2)).flatten.Sublist cs.flatten := by
    intro cs
    induction cs with
    | nil => exact List.Sublist.refl _
    | cons c cs ih =>
        rw [List.map_cons, List.flatten_cons, List.flatten_cons]
        exact (List.drop_sublist 2 c).append ih
  unfold readCalls
  cases b with
  | true => exact (List.filter_sublist.flatten).trans hall
  | false => exact ((hdrop _).trans List.filter_sublist.flatten).trans hall

/-- What is delivered of some bytes are the calls, and their payload. -/
theorem deliveries_calls (b : Bool) (p : ℕ) (data : List UInt8) :
    (deliveries b p data).map Prod.snd = readCalls b p data ∧
      ((deliveries b p data).map Prod.fst).sum = payloadLength p data := by
  unfold deliveries readCalls payloadLength
  induction chunks p data with
  | nil => cases b <;> exact ⟨rfl, rfl⟩
  | cons c cs ih =>
      rw [List.filterMap_cons]
      cases b with
      | true =>
          simp only [if_true] at ih ⊢
          by_cases h : 2 ≤ c.length
          · have hm : messageBytes true c = some c := if_pos h
            simp [hm, h, ih]
          · have hm : messageBytes true c = none := if_neg h
            simp [hm, h, ih]
      | false =>
          simp only [Bool.false_eq_true, if_false] at ih ⊢
          by_cases h : 2 < c.length
          · have hm : messageBytes false c = some (c.drop 2) := if_pos h
            simp [hm, h, h.le, ih]
          · have hm : messageBytes false c = none := if_neg h
            rcases eq_or_lt_of_le (Nat.le_of_not_lt h) with h₂ | h₂
            · simp [hm, h₂, ih]
            · simp [hm, h, Nat.not_le.mpr h₂, ih]

/-- **What a transfer delivers are the calls**, and what it counts their
payload, where a message has room for the modem status. -/
theorem delivered_calls {p : ℕ} (hp : 2 ≤ p)
    (hlen : e.transfer.actualLength = e.brought.length) :
    (e.delivered p).map Prod.snd = readCalls e.isModemStatus p e.brought ∧
      ((e.delivered p).map Prod.fst).sum = payloadLength p e.brought := by
  have hcalls := deliveries_calls e.isModemStatus p e.brought
  unfold FtdiStreamStaticState.delivered
  rw [hlen]
  split
  · exact hcalls
  · next hshort =>
      -- so short a transfer is one message, or none
      have hone : chunks p e.brought = [e.brought] ∨ e.brought = [] := by
        by_cases hnil : e.brought = []
        · exact .inr hnil
        · exact .inl (chunks_of_le hnil (by omega))
      unfold readCalls payloadLength
      rcases hone with hone | hnil
      · rw [hone]
        by_cases h : e.brought.length = 2
        · cases e.isModemStatus <;> simp [h]
        · cases e.isModemStatus <;>
            simp [h, show ¬ 2 ≤ e.brought.length by omega, show ¬ 2 < e.brought.length by omega]
      · rw [hnil]
        cases e.isModemStatus <;> simp

/-! ## The calls -/

/-- A `READ_BUFFER` call. -/
def readCall (s : ℕ) (bytes : List UInt8) : UserCall :=
  .callback true s .readBuffer bytes bytes.length

section Calls

variable {m m' : Machine (σ × List UserCall)}

/-- **A delivery is its calls**, and its counts. -/
theorem Delivery.calls {xs : List (ℕ × List UInt8)} (h : Delivery env.logged i s xs m m') :
    told m'.world.2 = told m.world.2 ++ (xs.map Prod.snd).map (readCall s) := by
  induction h with
  | nil => simp
  | @cons n bytes rest m m₁ m₂ hq _ ih =>
      rw [ih, told_of_worlds hq.worlds, told_told]
      simp [readCall, Telling.userCall]

/-- **A delivery that is stuck** has made some of its calls, and the user
is stuck in the last of them. -/
theorem Stuck.calls {xs : List (ℕ × List UInt8)} (h : Stuck env.logged i s xs m m') :
    ∃ made bytes, made ++ [bytes] <+: xs.map Prod.snd ∧
      told m'.world.2 = told m.world.2 ++ (made ++ [bytes]).map (readCall s) ∧
      ∃ t, StuckIn env.logged (.readBuffer s bytes) t m' := by
  induction h with
  | @here n bytes rest m m' hstuck =>
      refine ⟨[], bytes, by simp, ?_, _, hstuck⟩
      rw [told_of_worlds hstuck.quiet.worlds, told_told]
      simp [readCall, Telling.userCall]
  | @later n first rest m m₁ m' hq _ ih =>
      obtain ⟨made, bytes, hmade, hcalls, hstuck⟩ := ih
      refine ⟨first :: made, bytes, by simpa using hmade, ?_, hstuck⟩
      rw [hcalls, told_of_worlds hq.worlds, told_told]
      simp [readCall, Telling.userCall]

end Calls

theorem Delivery.counterBytes {xs : List (ℕ × List UInt8)} (h : Delivery env i s xs m m')
    (he : m.entryAt i = some e) : ∃ e', m'.entryAt i = some e' ∧
      e'.counterBytes = e.counterBytes + UInt64.ofNat (xs.map Prod.fst).sum := by
  induction h generalizing e with
  | nil => exact ⟨e, he, by simp⟩
  | @cons n bytes rest m m₁ m₂ hq _ ih =>
      have he₁ : m₁.entryAt i = some (e.countBytes n) := by
        rw [hq.frame.entryAt, told_entryAt, entryAt_modifyEntry_self, he]
        rfl
      obtain ⟨e', he', hcount⟩ := ih he₁
      refine ⟨e', he', ?_⟩
      rw [hcount, List.map_cons, List.sum_cons, UInt64.ofNat_add, ← UInt64.add_assoc]
      rfl

/-! ## A completion -/

/-- **What was delivered stands**: from the end of a delivery on the user is
told nothing, and nothing is counted. -/
def Delivered (env : Env σ) (i : ℕ) (e : FtdiStreamStaticState) (m m' : Machine σ) : Prop :=
  ∃ m₁ e₁ e', Delivery env i e.streamId (e.delivered m.readPacketsize.toNat) (m.touch e) m₁ ∧
    ReflTransGen (WorldStep env) m₁.world m'.world ∧ m₁.entryAt i = some e₁ ∧
    m'.entryAt i = some e' ∧ e'.counterBytes = e₁.counterBytes

theorem readTransfer_runs (he : m.entryAt i = some e) (hstatus : e.transfer.status = .completed)
    (hp : 0 < m.readPacketsize.toNat) :
    Runs (readTransfer env i e) (fun _ m' => Delivered env i e m m')
      (fun cause m' => ReadThrows env e.streamId cause ∨ Delivered env i e m m')
      (fun m' => Stuck env i e.streamId (e.delivered m.readPacketsize.toNat) (m.touch e) m')
      m := by
  unfold readTransfer
  rw [if_pos hstatus, runs_bind]
  refine (deliver_runs i e hp).mono (fun _ m₁ hd => ?_) (fun _ _ hw => .inl hw.2) fun _ h => h
  obtain ⟨e₁, he₁, -⟩ := hd.work.calm.entry ((m.touch_entryAt e i).trans he)
  rw [runs_bind]
  refine (libusbSubmitTransfer_runs he₁).mono ?_ (fun _ _ hf => hf.elim) fun _ hf => hf.elim
  rintro rc m₂ (⟨hrc, rfl⟩ | ⟨hrc, rfl⟩)
  · rw [if_neg (by simpa using hrc)]
    exact ⟨m₁, e₁, e₁.takeOff, hd, .single (.submitTransfer i), he₁, launched_entryAt he₁, rfl⟩
  · rw [if_pos hrc]
    exact .inr ⟨m₁, e₁, e₁, hd, .single (.submitTransfer i), he₁, he₁, rfl⟩

theorem touch_world (m : Machine σ) (e : FtdiStreamStaticState) : (m.touch e).world = m.world := by
  rw [m.touch_eq e]

theorem touch_entryAt (m : Machine σ) (e : FtdiStreamStaticState) :
    (m.touch e).entryAt i = m.entryAt i := by
  unfold Machine.touch
  split <;> rfl

theorem Delivered.counterBytes (h : Delivered env i e m m') (he : m.entryAt i = some e) :
    ∃ e', m'.entryAt i = some e' ∧ e'.counterBytes = e.counterBytes +
      UInt64.ofNat ((e.delivered m.readPacketsize.toNat).map Prod.fst).sum := by
  obtain ⟨m₁, e₁, e', hd, -, he₁, he', hcount⟩ := h
  obtain ⟨e₂, he₂, hsame⟩ := hd.counterBytes ((touch_entryAt m e).trans he)
  rw [he₁, Option.some_inj] at he₂
  exact ⟨e', he', by rw [hcount, he₂, hsame]⟩

theorem Delivered.calls {m m' : Machine (σ × List UserCall)} (h : Delivered env.logged i e m m') :
    told m'.world.2 = told m.world.2 ++
      ((e.delivered m.readPacketsize.toNat).map Prod.snd).map (readCall e.streamId) := by
  obtain ⟨m₁, e₁, e', hd, hw, -⟩ := h
  have hcalls := hd.calls
  rw [touch_world] at hcalls
  rw [told_of_worlds hw, hcalls]

theorem Delivered.errored (h : Delivered env i e m m₁) (message : Message) :
    Delivered env i e m ((m₁.modifyEntry i (.setEnabled false)).errored env message) := by
  obtain ⟨m₂, e₂, e', hd, hw, he₂, he', hcount⟩ := h
  have hpushed := errored_world env (m₁.modifyEntry i (.setEnabled false)) message
  refine ⟨m₂, e₂, e'.setEnabled false, hd, hw.tail hpushed, he₂, ?_, hcount⟩
  rw [errored_entryAt, entryAt_modifyEntry_self, he']
  rfl

/-- **A completed read transfer** of a running engine is delivered, unless
the callback throws or does not come back. -/
theorem readCallback_runs (he : m.entryAt i = some e) (hen : e.enabled = true)
    (hrun : m.shouldRun = true) (hstatus : e.transfer.status = .completed)
    (hp : 0 < m.readPacketsize.toNat) (hcb : ∀ cause, ¬ ReadThrows env e.streamId cause) :
    Runs (readCallback env i)
      (fun _ m' => Delivered env i e.countCallback (m.modifyEntry i .countCallback) m')
      (fun _ _ => False)
      (fun m' => Stuck env i e.streamId (e.countCallback.delivered m.readPacketsize.toNat)
        ((m.modifyEntry i .countCallback).touch e.countCallback) m') m := by
  have he' : (m.modifyEntry i .countCallback).entryAt i = some e.countCallback := by
    rw [entryAt_modifyEntry_self, he]
    rfl
  have hgo : ¬ (e.countCallback.transfer.status = .cancelled ∨
      (m.modifyEntry i .countCallback).shouldRun = false) := by
    rintro (h | h)
    · rw [show e.countCallback.transfer.status = .completed from hstatus] at h
      cases h
    · rw [modifyEntry_shouldRun, hrun] at h
      cases h
  unfold readCallback
  simp only [runs_bind, runs_alter, runs_look, id_look, he']
  rw [if_neg (by simp [show e.countCallback.enabled = true from hen]), if_neg hgo, runs_rescue]
  refine (readTransfer_runs he' hstatus hp).mono (fun _ _ h => h) ?_ fun _ h => h
  rintro cause m₁ (hthrows | hd)
  · exact absurd hthrows (hcb cause)
  · simp only [runs_bind, runs_alter, runs_error]
    exact hd.errored _

theorem complete_runs {c : Completion} (he : m.entryAt c.transfer = some e)
    (hfl : e.transfer.inFlight = true) (hread : e.isReading = true) (hen : e.enabled = true)
    (hrun : m.shouldRun = true) (hstatus : c.status = .completed)
    (hp : 0 < m.readPacketsize.toNat) (hcb : ∀ cause, ¬ ReadThrows env e.streamId cause) :
    Runs (complete env c)
      (fun _ m' => Delivered env c.transfer (e.back c) (m.landed e c) m')
      (fun _ _ => False)
      (fun m' => Stuck env c.transfer e.streamId
        ((e.back c).delivered m.readPacketsize.toNat) ((m.landed e c).touch (e.back c)) m') m := by
  have he₁ : ((m.modifyEntry c.transfer (.land c)).note (.completed c.transfer e.streamId
      e.isReading c.status (e.moved c) (e.actual c))).entryAt c.transfer = some (e.land c) := by
    simp [he]
  unfold complete callback
  simp only [runs_bind, runs_look, id_look, he]
  rw [if_neg (by simp [hfl])]
  simp only [runs_bind, runs_alter, runs_observe, hread, if_true]
  rw [hread] at he₁
  refine (readCallback_runs he₁ hen hrun hstatus hp hcb).mono ?_ (fun _ _ hf => hf) ?_
  · rintro _ m' ⟨m₁, e₁, e', hd, hw, he₁, he', hcount⟩
    unfold Machine.landed
    rw [hread]
    exact ⟨m₁, e₁, e', hd, hw, he₁, he', hcount⟩
  · intro m' hs
    unfold Machine.landed
    rw [hread]
    exact hs

/-- **The two read modes agree.** A completed read transfer of a running
engine calls `READ_BUFFER` with its messages, or with what is behind the
modem status of each, and counts the same payload either way. Only a call
from which the user makes a request that hangs keeps it from the rest.
Stripped of its two bytes a call of the first mode is one of the second,
and no byte is passed twice or was not brought. -/
theorem read_modes_agree (env : Env σ) (m₀ m : Machine (σ × List UserCall))
    (hreached : Reached env.logged m₀ m) (hrun : m.shouldRun = true) (c : Completion)
    (e : FtdiStreamStaticState) (he : m.entryAt c.transfer = some e)
    (hfl : e.transfer.inFlight = true) (hread : e.isReading = true) (hen : e.enabled = true)
    (hstatus : c.status = .completed) (p : ℕ) (hps : m.readPacketsize.toNat = p) (hp : 2 ≤ p)
    (hcb : ∀ bytes len w, ∃ a,
      (env.callback true e.streamId .readBuffer bytes len w).1.result = .ok a) :
    (((complete env.logged c m).1 = .ret () ∧
        told (complete env.logged c m).2.world.2 = told m.world.2 ++
          (readCalls e.isModemStatus p (e.moved c)).map (readCall e.streamId) ∧
        ∃ e', (complete env.logged c m).2.entryAt c.transfer = some e' ∧
          e'.counterBytes = e.counterBytes + UInt64.ofNat (payloadLength p (e.moved c))) ∨
      ((complete env.logged c m).1 = .hang ∧ ∃ made bytes,
        made ++ [bytes] <+: readCalls e.isModemStatus p (e.moved c) ∧
        told (complete env.logged c m).2.world.2 = told m.world.2 ++
          (made ++ [bytes]).map (readCall e.streamId) ∧
        ∃ t, StuckIn env.logged (.readBuffer e.streamId bytes) t (complete env.logged c m).2)) ∧
    ((readCalls true p (e.moved c)).map (·.drop 2)).filter (· ≠ []) =
      readCalls false p (e.moved c) ∧
    ∀ b, (readCalls b p (e.moved c)).flatten.Sublist (e.moved c) := by
  refine ⟨?_, readCalls_strip _ _, fun b => readCalls_sublist (by omega) b _⟩
  have hbuf := (hreached.configuration.entries _ _ he).hasBuffer
  obtain ⟨hlen, hbrought⟩ := back_brought (c := c) hread hbuf
  obtain ⟨hcalls, hsum⟩ := delivered_calls (e := e.back c) hp (by rw [hlen, hbrought])
  rw [hbrought] at hcalls hsum
  have hps' : (m.landed e c).readPacketsize.toNat = p := hps
  -- the callback does not throw, so that is no way out
  have hthrows : ∀ cause, ¬ ReadThrows env.logged e.streamId cause := by
    rintro cause ⟨bytes, len, w, hr⟩
    obtain ⟨a, ha⟩ := hcb bytes len w.1
    cases ha.symm.trans hr
  have hruns := complete_runs he hfl hread hen hrun hstatus (by omega) hthrows
  unfold Runs at hruns
  generalize complete env.logged c m = r at hruns ⊢
  obtain ⟨⟨⟩ | cause | -, m'⟩ := r
  · obtain ⟨e', he', hcount⟩ := hruns.counterBytes (landed_entryAt he)
    have htold := hruns.calls
    rw [hps', hcalls] at htold
    rw [hps', hsum] at hcount
    exact .inl ⟨rfl, htold, e', he', hcount⟩
  · exact hruns.elim
  · obtain ⟨made, bytes, hmade, htold, hstuck⟩ := hruns.calls
    rw [touch_world] at htold
    rw [hps, hcalls] at hmade
    exact .inr ⟨rfl, made, bytes, hmade, htold, hstuck⟩

/-- A stream whose transfers hold two packets of four bytes. -/
def twoPackets : FtdiStreamEntry := { sampleStream 4 1 0 with readPacketsPerTransfer := 2 }

/-- One packet of two payload bytes, and one of the status alone. -/
theorem read_modes_agree_sample :
    ∃ m, Reached steady.logged (constructed [twoPackets] ⟨4, 4096⟩ (4, [])) m ∧
      told (complete steady.logged ⟨0, .completed, [1, 96, 7, 8, 1, 96], 0⟩ m).2.world.2 =
        told m.world.2 ++ [.callback true 0 .readBuffer [7, 8] 2] := by
  have hidle : Idle (constructed [twoPackets] ⟨4, 4096⟩ ((4, []) : ℕ × List UserCall)) :=
    constructed_idle (by decide +kernel)
  obtain ⟨m, hm, hrun, hps, hret, he⟩ := exists_session (P := fun m => m.shouldRun = true ∧
      m.readPacketsize.toNat = 4 ∧
      (complete steady.logged ⟨0, .completed, [1, 96, 7, 8, 1, 96], 0⟩ m).1 = .ret () ∧
      (m.entryAt 0).any (fun e => e.transfer.inFlight && e.isReading && e.enabled &&
        !e.isModemStatus && e.streamId == 0 && e.transfer.length == 8) = true)
    steady.logged .poll [] hidle (by decide +kernel)
  obtain ⟨e, he, hflags⟩ := (Option.any_eq_true _ _).mp he
  simp only [Bool.and_eq_true, Bool.not_eq_true', beq_iff_eq] at hflags
  obtain ⟨⟨⟨⟨⟨hfl, hread⟩, hen⟩, hmodem⟩, hid⟩, hlen⟩ := hflags
  refine ⟨m, hm.path, ?_⟩
  have hmoved : e.moved ⟨0, .completed, [1, 96, 7, 8, 1, 96], 0⟩ = [1, 96, 7, 8, 1, 96] := by
    rw [FtdiStreamStaticState.moved, if_pos hread, hlen]
    rfl
  obtain ⟨⟨-, hcalls, -⟩ | ⟨hhang, -⟩, -⟩ := read_modes_agree steady _ m hm.path hrun
    ⟨0, .completed, [1, 96, 7, 8, 1, 96], 0⟩ e he hfl hread hen rfl 4 hps (by decide)
    fun bytes len w => ⟨_, rfl⟩
  · rw [hcalls, hmoved, hmodem, hid]
    rfl
  · rw [hret] at hhang
    cases hhang

end Stream

end SgFtdi
