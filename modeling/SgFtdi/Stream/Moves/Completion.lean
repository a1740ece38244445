import SgFtdi.Stream.Moves.Work

/-!
# Stream — what completing a transfer can do

`ReadBack` and `WriteBack` have a case for every way `read_callback` and
`write_callback` can end: the engine was stopping, the transfer was
resubmitted, it had nothing to send, or something failed and the engine
stops with a message. What a completed read transfer hands to the user,
and what a completed write transfer confirms, is said exactly.
-/

namespace SgFtdi

namespace Stream

open Prog Relation

variable {σ : Type} (env : Env σ)

/-! ## Reading -/

/-- **Messages are handed to the user** one after the other, each counted
first. -/
inductive Delivery (i s : ℕ) : List (ℕ × List UInt8) → Machine σ → Machine σ → Prop
  | nil {m : Machine σ} : Delivery i s [] m m
  | cons {n : ℕ} {bytes : List UInt8} {rest : List (ℕ × List UInt8)} {m m₁ m₂ : Machine σ} :
      Quiet env ((m.modifyEntry i (.countBytes n)).told env (.readBuffer s bytes)) m₁ →
      Delivery i s rest m₁ m₂ → Delivery i s ((n, bytes) :: rest) m m₂

/-- **A delivery that does not come back**: user code that was handed one
of the messages makes a request that hangs. -/
inductive Stuck (i s : ℕ) : List (ℕ × List UInt8) → Machine σ → Machine σ → Prop
  | here {n : ℕ} {bytes : List UInt8} {rest : List (ℕ × List UInt8)} {m m' : Machine σ} :
      StuckIn env (.readBuffer s bytes) (m.modifyEntry i (.countBytes n)) m' →
      Stuck i s ((n, bytes) :: rest) m m'
  | later {n : ℕ} {bytes : List UInt8} {rest : List (ℕ × List UInt8)} {m m₁ m' : Machine σ} :
      Quiet env ((m.modifyEntry i (.countBytes n)).told env (.readBuffer s bytes)) m₁ →
      Stuck i s rest m₁ m' → Stuck i s ((n, bytes) :: rest) m m'

/-- A stream's callback throws when it is handed some bytes. -/
def ReadThrows (s : ℕ) (cause : Exn) : Prop :=
  ∃ bytes len w, (env.callback true s .readBuffer bytes len w).1.result = .error cause

/-- What is delivered of the bytes of a transfer: for every message the
payload bytes it counts for, and the bytes handed to the user. -/
def deliveries (isModemStatus : Bool) (p : ℕ) (data : List UInt8) : List (ℕ × List UInt8) :=
  (chunks p data).filterMap fun message =>
    (messageBytes isModemStatus message).map fun bytes => (message.length - 2, bytes)

/-- What is delivered of a completed read transfer. -/
def FtdiStreamStaticState.delivered (e : FtdiStreamStaticState) (p : ℕ) :
    List (ℕ × List UInt8) :=
  if 2 < e.transfer.actualLength then deliveries e.isModemStatus p e.brought
  else if e.isModemStatus ∧ e.transfer.actualLength = 2 then [(0, e.brought)]
  else []

/-- A transfer that moved more than the status bytes counts as activity. -/
def Machine.touch (m : Machine σ) (e : FtdiStreamStaticState) : Machine σ :=
  if 2 < e.transfer.actualLength then { m with tsActivity := m.tsNow } else m

/-- What `read_callback` notes of it before anything can fail. -/
def Machine.heard (m : Machine σ) (e : FtdiStreamStaticState) : Machine σ :=
  if e.transfer.status = .completed then m.touch e else m

/-- **How `read_callback` ends**, from the state after it has counted
itself. -/
inductive ReadBack (i : ℕ) (e : FtdiStreamStaticState) (m : Machine σ) : Machine σ → Prop
  | off : e.enabled = false → ReadBack i e m m
  | stopped : e.enabled = true → (e.transfer.status = .cancelled ∨ m.shouldRun = false) →
      ReadBack i e m (m.modifyEntry i (.setEnabled false)).stopped
  | again {m₁ : Machine σ} {e₁ : FtdiStreamStaticState} : e.enabled = true →
      m.shouldRun = true → e.transfer.status = .completed →
      Delivery env i e.streamId (e.delivered m.readPacketsize.toNat) (m.touch e) m₁ →
      m₁.entryAt i = some e₁ → ReadBack i e m (m₁.launched env i e₁)
  | failed {m₁ : Machine σ} {cause : Exn} : e.enabled = true → m.shouldRun = true →
      e.transfer.status ≠ .cancelled → Work env i (m.heard e) m₁ →
      ReadBack i e m ((m₁.modifyEntry i (.setEnabled false)).errored env
        (.readCallback e.streamId e.transferId cause))

variable {env} {m m' m₁ m₂ : Machine σ} {i s : ℕ} {e e₁ : FtdiStreamStaticState}

theorem Delivery.append {xs ys : List (ℕ × List UInt8)} (h : Delivery env i s xs m m₁)
    (h' : Delivery env i s ys m₁ m₂) : Delivery env i s (xs ++ ys) m m₂ := by
  induction h with
  | nil => exact h'
  | cons hq _ ih => exact .cons hq (ih h')

theorem Delivery.work {xs : List (ℕ × List UInt8)} (h : Delivery env i s xs m m') :
    Work env i m m' := by
  induction h with
  | nil => exact .refl
  | @cons n bytes _ m _ _ hq _ ih =>
      have hw : Work env i m (m.modifyEntry i (.countBytes n)) :=
        Work.wrote fun e => (e.twin_countBytes n).toAlike
      exact hw.trans ((Work.single (.handed s bytes)).trans ((Work.quiet hq).trans ih))

theorem Stuck.append {xs : List (ℕ × List UInt8)} (h : Stuck env i s xs m m')
    (ys : List (ℕ × List UInt8)) : Stuck env i s (xs ++ ys) m m' := by
  induction h with
  | here hg => exact .here hg
  | later hq _ ih => exact .later hq ih

theorem Delivery.stuck {xs ys : List (ℕ × List UInt8)} (h : Delivery env i s xs m m₁)
    (h' : Stuck env i s ys m₁ m') : Stuck env i s (xs ++ ys) m m' := by
  induction h with
  | nil => exact h'
  | cons hq _ ih => exact .later hq (ih h')

section Touch

variable (m : Machine σ) (e : FtdiStreamStaticState)

/-- Activity is written down in one place. -/
theorem Machine.touch_eq : m.touch e = { m with tsActivity := (m.touch e).tsActivity } := by
  unfold Machine.touch
  split <;> rfl

theorem Machine.heard_eq : m.heard e = { m with tsActivity := (m.heard e).tsActivity } := by
  unfold Machine.heard
  split
  · exact m.touch_eq e
  · rfl

theorem Machine.touch_streamstates : (m.touch e).streamstates = m.streamstates := by
  rw [m.touch_eq e]

theorem Machine.touch_entryAt (j : ℕ) : (m.touch e).entryAt j = m.entryAt j := by
  rw [m.touch_eq e]
  rfl

theorem Machine.touch_trace : (m.touch e).trace = m.trace := by rw [m.touch_eq e]

theorem Machine.touch_shouldRun : (m.touch e).shouldRun = m.shouldRun := by rw [m.touch_eq e]

theorem Machine.heard_streamstates : (m.heard e).streamstates = m.streamstates := by
  rw [m.heard_eq e]

theorem Machine.heard_entryAt (j : ℕ) : (m.heard e).entryAt j = m.entryAt j := by
  rw [m.heard_eq e]
  rfl

theorem Machine.heard_trace : (m.heard e).trace = m.trace := by rw [m.heard_eq e]

theorem Machine.touch_calm : Calm env m (m.touch e) := by
  rw [m.touch_eq e]
  exact ⟨rfl, Calm.of_entries rfl, .of_eq rfl rfl rfl, rfl, .refl⟩

theorem Machine.heard_calm : Calm env m (m.heard e) := by
  rw [m.heard_eq e]
  exact ⟨rfl, Calm.of_entries rfl, .of_eq rfl rfl rfl, rfl, .refl⟩

end Touch

theorem handOver_runs (s : ℕ) (bytes : List UInt8) (m : Machine σ) :
    Runs (handOver env s bytes)
      (fun _ m' => Quiet env (m.told env (.readBuffer s bytes)) m')
      (fun cause m' => Quiet env (m.told env (.readBuffer s bytes)) m' ∧ ReadThrows env s cause)
      (StuckIn env (.readBuffer s bytes) m) m := by
  unfold handOver
  rw [runs_bind]
  refine (tell_runs _ m).mono (fun _ m' hq => hq.1) ?_ fun _ h => h
  rintro cause m' ⟨hq, hr⟩
  exact ⟨hq, _, _, _, hr⟩

/-- What one message comes to. -/
def messageDelivery (isModemStatus : Bool) (message : List UInt8) : List (ℕ × List UInt8) :=
  ((messageBytes isModemStatus message).map fun bytes => (message.length - 2, bytes)).toList

theorem deliveries_eq_append {p : ℕ} (hp : 0 < p) (b : Bool) {data : List UInt8}
    (hd : data ≠ []) : deliveries b p data =
      messageDelivery b (data.take p) ++ deliveries b p (data.drop p) := by
  unfold deliveries messageDelivery
  rw [chunks_eq_cons hp hd, List.filterMap_cons]
  cases messageBytes b (data.take p) <;> rfl

theorem readMessage_runs (i : ℕ) (e : FtdiStreamStaticState) (message : List UInt8)
    (m : Machine σ) :
    Runs (readMessage env i e message)
      (fun _ m' => Delivery env i e.streamId (messageDelivery e.isModemStatus message) m m')
      (fun cause m' => Work env i m m' ∧ ReadThrows env e.streamId cause)
      (fun m' => Stuck env i e.streamId (messageDelivery e.isModemStatus message) m m') m := by
  unfold readMessage messageDelivery
  cases messageBytes e.isModemStatus message with
  | none => exact Delivery.nil
  | some bytes =>
      rw [runs_bind, runs_alter]
      refine (handOver_runs e.streamId bytes _).mono (fun _ _ hq => .cons hq .nil) ?_
        fun _ hg => .here hg
      rintro cause m' ⟨hq, hthrows⟩
      exact ⟨Delivery.work (.cons hq .nil), hthrows⟩

/-- With an empty packet size the loop goes on for ever. -/
theorem readLoop_hangs (i : ℕ) (e : FtdiStreamStaticState) {Q : Unit → Machine σ → Prop}
    {E : Exn → Machine σ → Prop} : ∀ (turns : ℕ) {data : List UInt8} {m : Machine σ},
      data ≠ [] → m.readPacketsize.toNat = 0 → Ends (readLoop env i e turns data) Q E m := by
  intro turns
  induction turns with
  | zero =>
      intro data m hd _
      obtain ⟨a, l, rfl⟩ := List.exists_cons_of_ne_nil hd
      exact ends_hang
  | succ turns ih =>
      intro data m hd hp
      obtain ⟨a, l, rfl⟩ := List.exists_cons_of_ne_nil hd
      simp only [readLoop, ends_bind, ends_look, id_look, hp, Nat.min_zero, List.take_zero,
        List.drop_zero]
      have hm : readMessage env i e [] = (pure () : Run σ Unit) := by
        unfold readMessage messageBytes
        cases e.isModemStatus <;> rfl
      rw [hm, ends_pure]
      exact ih hd hp

/-- **The packet loop** hands over what is delivered of its bytes, unless
the user throws or does not come back. -/
theorem readLoop_runs (i : ℕ) (e : FtdiStreamStaticState) {p : ℕ} (hp : 0 < p) :
    ∀ (turns : ℕ) {data : List UInt8} {m : Machine σ}, data.length ≤ turns →
      m.readPacketsize.toNat = p →
      Runs (readLoop env i e turns data)
        (fun _ m' => Delivery env i e.streamId (deliveries e.isModemStatus p data) m m')
        (fun cause m' => Work env i m m' ∧ ReadThrows env e.streamId cause)
        (fun m' => Stuck env i e.streamId (deliveries e.isModemStatus p data) m m') m := by
  intro turns
  induction turns with
  | zero =>
      intro data m hd _
      have : data = [] := List.eq_nil_of_length_eq_zero (by omega)
      subst this
      simp only [readLoop, deliveries, chunks_nil, List.filterMap_nil]
      exact Delivery.nil
  | succ turns ih =>
      intro data m hd hm
      cases data with
      | nil =>
          simp only [readLoop, deliveries, chunks_nil, List.filterMap_nil]
          exact Delivery.nil
      | cons a l =>
          -- one message is a full packet, or what is left of the last
          have htake : (a :: l).take (min (a :: l).length p) = (a :: l).take p := by
            rcases Nat.le_total (a :: l).length p with h | h
            · rw [Nat.min_eq_left h, List.take_of_length_le h, List.take_length]
            · rw [Nat.min_eq_right h]
          have hdrop : (a :: l).drop (min (a :: l).length p) = (a :: l).drop p := by
            rcases Nat.le_total (a :: l).length p with h | h
            · rw [Nat.min_eq_left h, List.drop_of_length_le h, List.drop_length]
            · rw [Nat.min_eq_right h]
          have hlen : ((a :: l).drop p).length ≤ turns := by
            simp only [List.length_drop, List.length_cons] at hd ⊢
            omega
          simp only [readLoop, runs_bind, runs_look, id_look, hm]
          rw [htake, hdrop, deliveries_eq_append hp _ (List.cons_ne_nil a l)]
          refine (readMessage_runs i e _ m).mono (fun _ m₁ h₁ => ?_) (fun _ _ h₁ => h₁)
            fun _ h₁ => h₁.append _
          have hps := h₁.work.calm.readPacketsize
          refine (ih hlen (hps ▸ hm)).mono (fun _ _ h₂ => h₁.append h₂) ?_ fun _ h₂ => h₁.stuck h₂
          rintro cause m' ⟨hw, hthrows⟩
          exact ⟨h₁.work.trans hw, hthrows⟩

/-- A transfer that brought the modem status at most is handed over as it
is, or not at all. -/
theorem deliver_short_runs (i : ℕ) {e : FtdiStreamStaticState} (h : ¬ 2 < e.transfer.actualLength)
    (m : Machine σ) :
    Runs (deliver env i e)
      (fun _ m' => Delivery env i e.streamId (e.delivered m.readPacketsize.toNat) (m.touch e) m')
      (fun cause m' => Work env i (m.touch e) m' ∧ ReadThrows env e.streamId cause)
      (fun m' => Stuck env i e.streamId (e.delivered m.readPacketsize.toNat) (m.touch e) m')
      m := by
  have ht : m.touch e = m := if_neg h
  unfold deliver FtdiStreamStaticState.delivered
  rw [if_neg h, if_neg h, ht, runs_ite]
  refine ⟨fun h₂ => ?_, fun h₂ => ?_⟩
  · rw [if_pos h₂]
    have hm : m = m.modifyEntry i (.countBytes 0) :=
      (modifyEntry_eq_self fun e _ => by simp [FtdiStreamStaticState.countBytes]).symm
    refine (handOver_runs e.streamId e.brought m).mono (fun _ _ hq => ?_) ?_ fun _ hg => ?_
    · exact .cons (by rw [← hm]; exact hq) .nil
    · rintro cause m' ⟨hq, hthrows⟩
      exact ⟨(Work.single (.handed _ _)).trans (Work.quiet hq), hthrows⟩
    · exact .here (by rw [← hm]; exact hg)
  · rw [if_neg h₂]
    exact Delivery.nil

/-- **What is delivered of a completed transfer**, cut to packets that are
not empty. -/
theorem deliver_runs (i : ℕ) (e : FtdiStreamStaticState) {m : Machine σ}
    (hp : 0 < m.readPacketsize.toNat) :
    Runs (deliver env i e)
      (fun _ m' => Delivery env i e.streamId (e.delivered m.readPacketsize.toNat) (m.touch e) m')
      (fun cause m' => Work env i (m.touch e) m' ∧ ReadThrows env e.streamId cause)
      (fun m' => Stuck env i e.streamId (e.delivered m.readPacketsize.toNat) (m.touch e) m')
      m := by
  by_cases h : 2 < e.transfer.actualLength
  · have ht : m.touch e = { m with tsActivity := m.tsNow } := if_pos h
    unfold deliver FtdiStreamStaticState.delivered
    rw [if_pos h, if_pos h, runs_bind, runs_alter, ← ht]
    exact readLoop_runs i e hp _ le_rfl (by rw [ht])
  · exact deliver_short_runs i h m

/-- So it is whatever the packet size is: the loop over packets that are
empty does not end. -/
theorem deliver_ends (i : ℕ) (e : FtdiStreamStaticState) (m : Machine σ) :
    Ends (deliver env i e)
      (fun _ m' => Delivery env i e.streamId (e.delivered m.readPacketsize.toNat) (m.touch e) m')
      (fun _ m' => Work env i (m.touch e) m') m := by
  rcases Nat.eq_zero_or_pos m.readPacketsize.toNat with hz | hp
  · by_cases h : 2 < e.transfer.actualLength
    · have ht : m.touch e = { m with tsActivity := m.tsNow } := if_pos h
      unfold deliver FtdiStreamStaticState.delivered
      rw [if_pos h, if_pos h, ends_bind, ends_alter, ← ht]
      by_cases hd : e.brought = []
      · simp only [hd, readLoop, deliveries, chunks_nil, List.filterMap_nil]
        exact Delivery.nil
      · exact readLoop_hangs i e _ hd (by rw [ht, hz])
    · exact (deliver_short_runs i h m).ends.mono (fun _ _ hd => hd) fun _ _ hw => hw.1
  · exact (deliver_runs i e hp).ends.mono (fun _ _ hd => hd) fun _ _ hw => hw.1

theorem readTransfer_ends (he : m.entryAt i = some e) :
    Ends (readTransfer env i e)
      (fun _ m' => ∃ m₁ e₁, e.transfer.status = .completed ∧
        Delivery env i e.streamId (e.delivered m.readPacketsize.toNat) (m.touch e) m₁ ∧
        m₁.entryAt i = some e₁ ∧ m' = m₁.launched env i e₁)
      (fun _ m' => Work env i (m.heard e) m') m := by
  unfold readTransfer
  rw [ends_ite]
  refine ⟨fun hc => ?_, fun hc => ?_⟩
  swap
  · rw [Machine.heard, if_neg hc]
    exact Work.refl
  have ht : m.heard e = m.touch e := if_pos hc
  rw [ends_bind, ht]
  refine (deliver_ends i e m).mono (fun _ m₁ hd => ?_) fun _ _ hw => hw
  have hw := hd.work
  obtain ⟨e₁, he₁, -⟩ := hw.calm.entry ((m.touch_entryAt e i).trans he)
  rw [ends_bind]
  refine (libusbSubmitTransfer_ends he₁).mono ?_ fun _ _ hf => hf.elim
  rintro rc m₂ (⟨hrc, rfl⟩ | ⟨hrc, rfl⟩)
  · rw [if_neg (by simpa using hrc)]
    exact ⟨m₁, e₁, hc, hd, he₁, rfl⟩
  · rw [if_pos hrc]
    exact hw.trans (Work.single (.refused he₁))

/-- **What `read_callback` does.** -/
theorem readCallback_ends (he : m.entryAt i = some e) :
    Ends (readCallback env i)
      (fun _ m' => ReadBack env i e.countCallback (m.modifyEntry i .countCallback) m')
      (fun _ _ => False) m := by
  have he' : (m.modifyEntry i .countCallback).entryAt i = some e.countCallback := by
    rw [entryAt_modifyEntry_self, he]
    rfl
  unfold readCallback
  simp only [ends_bind, ends_alter, ends_look, id_look, he', ends_ite]
  refine ⟨fun hd => .off hd, fun hd => ⟨fun hs => ?_, fun hs => ?_⟩⟩
  all_goals replace hd : e.countCallback.enabled = true := by simpa using hd
  · exact .stopped hd hs
  · push Not at hs
    have hrun : (m.modifyEntry i .countCallback).shouldRun = true := by simpa using hs.2
    rw [ends_rescue]
    refine (readTransfer_ends he').mono ?_ ?_
    · rintro _ _ ⟨m₁, e₁, hc, hdel, he₁, rfl⟩
      exact .again hd hrun hc hdel he₁
    · intro cause m₁ hw
      simp only [ends_bind, ends_alter, ends_error]
      exact .failed hd hrun hs.1 hw

/-! ## Writing -/

variable (env)

/-- The state when `WRITE_CONFIRM_TRANSFER` is called. -/
def Machine.confirming (m : Machine σ) (i : ℕ) (e : FtdiStreamStaticState) : Machine σ :=
  (m.modifyEntry i (.countBytes e.transfer.actualLength)).told env
    (.confirmTransfer e.streamId e.transfer.actualLength)

/-- **What a completion moved is confirmed** to the user, who takes it or
does not. -/
inductive Confirm (i : ℕ) (e : FtdiStreamStaticState) (m : Machine σ) : Bool → Machine σ → Prop
  | none : e.transfer.actualLength = 0 → Confirm i e m true m
  | taken {b : List UInt8} {m₁ : Machine σ} : 0 < e.transfer.actualLength →
      (env.callback false e.streamId .writeConfirmTransfer [] e.transfer.actualLength
        m.world).1.result = .ok (0, b) →
      Quiet env (m.confirming env i e) m₁ → Confirm i e m true (m₁.modifyEntry i (.setLength 0))
  | failed {m₁ : Machine σ} : 0 < e.transfer.actualLength → Work env i (m.confirming env i e) m₁ →
      Confirm i e m false m₁

/-- **How `write_callback` ends**, from the state after it has counted
itself. -/
inductive WriteBack (i : ℕ) (e : FtdiStreamStaticState) (m : Machine σ) : Machine σ → Prop
  | off : e.enabled = false → WriteBack i e m m
  | stopped : e.enabled = true → (e.transfer.status = .cancelled ∨ m.shouldRun = false) →
      WriteBack i e m
        ((m.modifyEntry i (.setEnabled false)).modifyEntry i (.setLength 0)).stopped
  | idle {m₁ m₂ : Machine σ} : e.enabled = true → m.shouldRun = true →
      e.transfer.status ≠ .cancelled → Confirm env i e m true m₁ → Fill env i e m₁ 0 m₂ →
      WriteBack i e m ((m₂.modifyEntry i (.setLength 0)).modifyEntry i (.setEnabled false))
  | again {n : ℤ} {m₁ m₂ : Machine σ} {e₂ : FtdiStreamStaticState} : e.enabled = true →
      m.shouldRun = true → e.transfer.status ≠ .cancelled → Confirm env i e m true m₁ →
      Fill env i e m₁ n m₂ → 0 < n → (m₂.modifyEntry i (.setLength n)).entryAt i = some e₂ →
      WriteBack i e m ((m₂.modifyEntry i (.setLength n)).launched env i e₂)
  | failed {b : Bool} {m₁ m₂ : Machine σ} {cause : Exn} : e.enabled = true →
      m.shouldRun = true → e.transfer.status ≠ .cancelled → Confirm env i e m b m₁ →
      Work env i m₁ m₂ →
      WriteBack i e m ((m₂.errored env (.writeCallback e.streamId e.transferId cause)).modifyEntry
        i (.setEnabled false))

variable {env}

/-- **The frame of a confirmation**: the entries stay alike. -/
theorem Confirm.entry {b : Bool} (h : Confirm env i e m b m₁) (he : m.entryAt i = some e) :
    ∃ e₁, m₁.entryAt i = some e₁ ∧ Alike e e₁ := by
  have hc : (m.confirming env i e).entryAt i = some (e.countBytes e.transfer.actualLength) := by
    simp [Machine.confirming, he]
  cases h with
  | none _ => exact ⟨e, he, .refl⟩
  | taken _ _ hq =>
      obtain ⟨e₁, he₁, ha⟩ := hq.calm.entry hc
      refine ⟨e₁.setLength 0, by rw [entryAt_modifyEntry_self, he₁]; rfl, ?_⟩
      exact ((e.twin_countBytes _).toAlike.trans ha).trans (e₁.alike_setLength 0)
  | failed _ hw =>
      obtain ⟨e₁, he₁, ha⟩ := hw.calm.entry hc
      exact ⟨e₁, he₁, (e.twin_countBytes _).toAlike.trans ha⟩

theorem confirmTransfer_ends (i : ℕ) (e : FtdiStreamStaticState) (m : Machine σ) :
    Ends (confirmTransfer env i e) (fun _ m' => Confirm env i e m true m')
      (fun _ m' => Confirm env i e m false m') m := by
  unfold confirmTransfer
  rw [ends_ite]
  refine ⟨fun hpos => ?_, fun hz => Confirm.none (by omega)⟩
  rw [ends_bind, ends_alter, ends_bind]
  refine (tell_ends _ _).mono ?_ fun _ _ hq => .failed hpos (Work.quiet hq.1)
  rintro ⟨result, b⟩ m₁ ⟨hq, hr⟩
  simp only [ends_bind, ends_alter, ends_ite]
  refine ⟨fun _ => .failed hpos ?_, fun hz => ?_⟩
  · exact (Work.quiet hq).trans (Work.wrote fun e => e.alike_setLength result)
  · have hz : result = 0 := by simpa using hz
    subst hz
    exact .taken hpos hr hq

theorem writeTransfer_ends (he : m.entryAt i = some e) :
    Ends (writeTransfer env i e)
      (fun _ m' => ∃ n m₁ m₂, Confirm env i e m true m₁ ∧ Fill env i e m₁ n m₂ ∧
        ((n = 0 ∧ m' = (m₂.modifyEntry i (.setLength 0)).modifyEntry i (.setEnabled false)) ∨
          (0 < n ∧ ∃ e₂, (m₂.modifyEntry i (.setLength n)).entryAt i = some e₂ ∧
            m' = (m₂.modifyEntry i (.setLength n)).launched env i e₂)))
      (fun _ m' => ∃ b m₁, Confirm env i e m b m₁ ∧ Work env i m₁ m') m := by
  unfold writeTransfer
  rw [ends_bind]
  refine (confirmTransfer_ends i e m).mono (fun _ m₁ hc => ?_) fun _ m₁ hc => ⟨_, m₁, hc, .refl⟩
  obtain ⟨e₁, he₁, ha⟩ := hc.entry he
  rw [ends_bind]
  refine (fillBuffer_ends he₁ ha.inFlight.symm).mono (fun n m₂ hf => ?_)
    fun _ m₂ hw => ⟨_, m₁, hc, hw⟩
  have hw : Work env i m₁ (m₂.modifyEntry i (.setLength n)) :=
    (hf.work he₁ ha.inFlight.symm).trans (Work.wrote fun e => e.alike_setLength n)
  obtain ⟨e₂, he₂, -⟩ := hw.calm.entry he₁
  simp only [ends_bind, ends_alter, ends_ite]
  refine ⟨fun _ => ⟨_, m₁, hc, hw⟩, fun hn => ⟨fun hz => ?_, fun hz => ?_⟩⟩
  · subst hz
    exact ⟨0, m₁, m₂, hc, hf, .inl ⟨rfl, rfl⟩⟩
  · refine (libusbSubmitTransfer_ends he₂).mono ?_ fun _ _ hf => hf.elim
    rintro rc m₃ (⟨hrc, rfl⟩ | ⟨hrc, rfl⟩)
    · exact ⟨fun h => absurd hrc h,
        fun _ => ⟨n, m₁, m₂, hc, hf, .inr ⟨by omega, e₂, he₂, rfl⟩⟩⟩
    · exact ⟨fun _ => ⟨_, m₁, hc, hw.trans (Work.single (.refused he₂))⟩, fun h => absurd hrc h⟩

/-- **What `write_callback` does.** -/
theorem writeCallback_ends (he : m.entryAt i = some e) :
    Ends (writeCallback env i)
      (fun _ m' => WriteBack env i e.countCallback (m.modifyEntry i .countCallback) m')
      (fun _ _ => False) m := by
  have he' : (m.modifyEntry i .countCallback).entryAt i = some e.countCallback := by
    rw [entryAt_modifyEntry_self, he]
    rfl
  unfold writeCallback
  simp only [ends_bind, ends_alter, ends_look, id_look, he', ends_ite]
  refine ⟨fun hd => .off hd, fun hd => ⟨fun hs => ?_, fun hs => ?_⟩⟩
  all_goals replace hd : e.countCallback.enabled = true := by simpa using hd
  · exact .stopped hd hs
  · push Not at hs
    have hrun : (m.modifyEntry i .countCallback).shouldRun = true := by simpa using hs.2
    rw [ends_rescue]
    refine (writeTransfer_ends he').mono ?_ ?_
    · rintro _ _ ⟨n, m₁, m₂, hc, hf, ⟨rfl, rfl⟩ | ⟨hn, e₂, he₂, rfl⟩⟩
      · exact .idle hd hrun hs.1 hc hf
      · exact .again hd hrun hs.1 hc hf hn he₂
    · rintro cause m₂ ⟨b, m₁, hc, hw⟩
      simp only [ends_bind, ends_error, ends_alter]
      exact .failed hd hrun hs.1 hc hw

/-! ## A completion -/

variable (env)

/-- The state in which a completion calls its callback, and the callback
has counted itself. -/
def Machine.landed (m : Machine σ) (e : FtdiStreamStaticState) (c : Completion) : Machine σ :=
  ((m.modifyEntry c.transfer (.land c)).note
    (.completed c.transfer e.streamId e.isReading c.status (e.moved c) (e.actual c))).modifyEntry
    c.transfer
    .countCallback

/-- The entry in that state. -/
def FtdiStreamStaticState.back (e : FtdiStreamStaticState) (c : Completion) :
    FtdiStreamStaticState := (e.land c).countCallback

/-- **What a completion can do**, up to the end of its callback. -/
inductive Completed (c : Completion) (m : Machine σ) : Machine σ → Prop
  | read {e : FtdiStreamStaticState} {m₁ : Machine σ} : m.entryAt c.transfer = some e →
      e.transfer.inFlight = true → e.isReading = true →
      ReadBack env c.transfer (e.back c) (m.landed e c) m₁ → Completed c m m₁
  | write {e : FtdiStreamStaticState} {m₁ : Machine σ} : m.entryAt c.transfer = some e →
      e.transfer.inFlight = true → e.isReading = false →
      WriteBack env c.transfer (e.back c) (m.landed e c) m₁ → Completed c m m₁

/-- Every transfer's flags, on the record. -/
def Machine.boundary (m : Machine σ) : Machine σ := m.note (.boundary m.flags)

variable {env}

theorem landed_entryAt {c : Completion} (he : m.entryAt c.transfer = some e) :
    (m.landed e c).entryAt c.transfer = some (e.back c) := by
  simp [Machine.landed, he, FtdiStreamStaticState.back]

/-- **A completion** does nothing, where its transfer is not in flight, or
what its callback does. -/
theorem complete_ends (c : Completion) (m : Machine σ) :
    Ends (complete env c)
      (fun _ m' => m' = m ∨ ∃ m₁, Completed env c m m₁ ∧ m' = m₁.boundary)
      (fun _ _ => False) m := by
  unfold complete
  rw [ends_bind, ends_look, id_look]
  cases he : m.entryAt c.transfer with
  | none => exact .inl rfl
  | some e =>
      simp only [ends_ite]
      refine ⟨fun _ => .inl rfl, fun hfl => ?_⟩
      replace hfl : e.transfer.inFlight = true := by simpa using hfl
      have he₁ : ((m.modifyEntry c.transfer (.land c)).note (.completed c.transfer e.streamId
          e.isReading c.status (e.moved c) (e.actual c))).entryAt c.transfer = some (e.land c) := by
        simp [he]
      simp only [ends_bind, ends_alter, ends_observe, callback, ends_ite]
      refine ⟨fun hr => ?_, fun hr => ?_⟩
      · exact (readCallback_ends he₁).mono (fun _ m₁ hb => .inr ⟨m₁, .read he hfl hr hb, rfl⟩)
          fun _ _ hf => hf
      · exact (writeCallback_ends he₁).mono
          (fun _ m₁ hb => .inr ⟨m₁, .write he hfl (by simpa using hr) hb, rfl⟩) fun _ _ hf => hf

end Stream

end SgFtdi
