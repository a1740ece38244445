import SgFtdi.Stream.Confirming
import SgFtdi.Stream.Refusing

/-!
# Stream — what a failed transfer does

`read_callback` looks at the status of a transfer before anything else and
stops the engine over one that failed. `write_callback` looks for
CANCELLED alone: a write transfer that failed is confirmed, filled and
submitted again like one that succeeded, and the engine stops only where
something else goes wrong on that way. `failed_iff` says what that is.
-/

namespace SgFtdi

namespace Stream

open Prog Relation

variable {σ : Type} {env : Env σ} {m m' m₁ : Machine σ} {i : ℕ} {c : Completion}
variable {e : FtdiStreamStaticState}

/-- A message about a transfer, which its text begins with. -/
def Message.Names (streamId transferId : ℕ) : Message → Prop
  | .readCallback s t _ => s = streamId ∧ t = transferId
  | .writeCallback s t _ => s = streamId ∧ t = transferId
  | _ => False

theorem text_readCallback (strerror : Errno → String) (s t : ℕ) (cause : Exn) :
    (Message.readCallback s t cause).text strerror =
      s!"@{s},{t}: " ++ ("read callback - " ++ cause.what.getD "unknown exception") := by
  have hcut : toString ": read callback - " = toString ": " ++ "read callback - " := rfl
  unfold Message.text
  simp only [hcut, String.append_assoc]

theorem text_writeCallback (strerror : Errno → String) (s t : ℕ) (cause : Exn) :
    (Message.writeCallback s t cause).text strerror =
      s!"@{s},{t}: " ++ ("write callback - " ++ cause.what.getD "unknown exception") := by
  have hcut : toString ": write callback - " = toString ": " ++ "write callback - " := rfl
  unfold Message.text
  simp only [hcut, String.append_assoc]

/-- What names a transfer begins with its numbers. -/
theorem Message.Names.text {streamId transferId : ℕ} {message : Message}
    (h : message.Names streamId transferId) (strerror : Errno → String) :
    ∃ rest, message.text strerror = s!"@{streamId},{transferId}: " ++ rest := by
  cases message with
  | readCallback s t cause =>
      obtain ⟨rfl, rfl⟩ := h
      exact ⟨_, text_readCallback strerror s t cause⟩
  | writeCallback s t cause =>
      obtain ⟨rfl, rfl⟩ := h
      exact ⟨_, text_writeCallback strerror s t cause⟩
  | _ => cases h

/-- **The engine has stopped over a failed transfer**: the entry is
disabled and its transfer not submitted again, `should_run` and
`should_cancel` are switched over, and a message that names the transfer
was handed to `error_spsc`, and is on the record where there was room. -/
structure FailsLoudly (env : Env σ) (i streamId transferId : ℕ) (m : Machine σ) : Prop where
  entry : ∃ e', m.entryAt i = some e' ∧ e'.enabled = false ∧ e'.transfer.inFlight = false
  shouldRun : m.shouldRun = false
  shouldCancel : m.shouldCancel = true
  said : ∃ message w, message.Names streamId transferId ∧ m.world = (env.pushError message w).2 ∧
    ((env.pushError message w).1 = true → ⟨false, .pushed message⟩ ∈ m.trace)

/-! ## What the user and libusb may refuse -/

/-- `WRITE_CONFIRM_TRANSFER` throws or returns something else than zero. -/
def ConfirmRefused (env : Env σ) (e : FtdiStreamStaticState) (m : Machine σ) : Prop :=
  0 < e.transfer.actualLength ∧ ∀ b, (env.callback false e.streamId .writeConfirmTransfer []
    e.transfer.actualLength m.world).1.result ≠ .ok (0, b)

/-- **Something is refused while a write transfer is made ready again**:
the confirmation, the filling or the submission, each asked in the state
the one before it has left. -/
inductive Refused (env : Env σ) (i : ℕ) (e : FtdiStreamStaticState) (m : Machine σ) : Prop
  | confirm : ConfirmRefused env e m → Refused env i e m
  | fill {m₁ : Machine σ} : confirmTransfer env i e m = (.ret (), m₁) → FillRefused env e m₁ →
      Refused env i e m
  | submit {n : ℤ} {m₁ m₂ : Machine σ} : confirmTransfer env i e m = (.ret (), m₁) →
      fillBuffer env i e m₁ = (.ret n, m₂) → 0 < n → SubmitRefused env i m₂ → Refused env i e m

theorem confirmTransfer_refused (i : ℕ) (e : FtdiStreamStaticState) (m : Machine σ) :
    Ends (confirmTransfer env i e) (fun _ _ => ¬ ConfirmRefused env e m)
      (fun _ _ => ConfirmRefused env e m) m := by
  unfold confirmTransfer
  rw [ends_ite]
  refine ⟨fun hpos => ?_, fun hz hrefused => hz hrefused.1⟩
  rw [ends_bind, ends_alter, ends_bind]
  refine (tell_ends _ _).mono ?_ ?_
  · rintro ⟨result, b⟩ t ⟨-, hr⟩
    have hr : (env.callback false e.streamId .writeConfirmTransfer [] e.transfer.actualLength
      m.world).1.result = .ok (result, b) := hr
    simp only [ends_bind, ends_alter, ends_ite]
    refine ⟨fun hne => ⟨hpos, fun b' hok => ?_⟩, fun hz hrefused => ?_⟩
    · rw [hr, Except.ok.injEq, Prod.mk.injEq] at hok
      exact hne hok.1
    · have hz : result = 0 := by simpa using hz
      exact hrefused.2 b (hz ▸ hr)
  · rintro cause t ⟨-, hr⟩
    have hr : (env.callback false e.streamId .writeConfirmTransfer [] e.transfer.actualLength
      m.world).1.result = .error cause := hr
    refine ⟨hpos, fun b hok => ?_⟩
    rw [hr] at hok
    cases hok

/-- **The body of `write_callback` throws** over what is refused, and over
nothing else. -/
theorem writeTransfer_refused (i : ℕ) (e : FtdiStreamStaticState) (m : Machine σ) :
    Ends (writeTransfer env i e) (fun _ _ => ¬ Refused env i e m) (fun _ _ => Refused env i e m)
      m := by
  unfold writeTransfer
  rw [ends_bind]
  refine ((confirmTransfer_refused i e m).and ends_self).mono ?_ fun _ _ h => .confirm h.1
  rintro ⟨⟩ m₁ ⟨hconfirm, heq₁⟩
  rw [ends_bind]
  refine ((fillBuffer_refused i e m₁).and ends_self).mono ?_ fun _ _ h => .fill heq₁ h.1
  rintro n m₂ ⟨hfill, heq₂⟩
  -- a refusal is one of these three calls, in these three states
  have hcases : Refused env i e m → n < 0 ∨ (0 < n ∧ SubmitRefused env i m₂) := by
    intro h
    cases h with
    | confirm h => exact absurd h hconfirm
    | fill heq h =>
        obtain rfl : m₁ = _ := congrArg Prod.snd (heq₁.symm.trans heq)
        exact .inl (hfill.mp h)
    | submit heq heq' hn h =>
        obtain rfl : m₁ = _ := congrArg Prod.snd (heq₁.symm.trans heq)
        have hpair := heq₂.symm.trans heq'
        rw [Prod.mk.injEq, Outcome.ret.injEq] at hpair
        obtain ⟨rfl, rfl⟩ := hpair
        exact .inr ⟨hn, h⟩
  simp only [ends_bind, ends_alter, ends_ite]
  refine ⟨fun hn => .fill heq₁ (hfill.mpr hn), fun hn => ⟨fun hz hr => ?_, fun hz => ?_⟩⟩
  · rcases hcases hr with h | ⟨h, -⟩ <;> omega
  · refine (libusbSubmitTransfer_refused i _).mono ?_ fun _ _ hf => hf.elim
    rintro rc t rfl
    refine ⟨fun hne => .submit heq₁ heq₂ (by omega) hne, fun hz hr => ?_⟩
    rcases hcases hr with h | ⟨-, h⟩
    · omega
    · exact hz h

/-! ## What the callbacks make of it -/

theorem errored_shouldCancel (m : Machine σ) (message : Message) :
    (m.errored env message).shouldCancel = true := by
  obtain ⟨_, _, h, -⟩ := errored_eq env m message
  rw [h]
  rfl

/-- A message that was handed over, and is on the record where there was
room. -/
theorem errored_said (m : Machine σ) (message : Message) :
    ∃ w, (m.errored env message).world = (env.pushError message w).2 ∧
      ((env.pushError message w).1 = true →
        ⟨false, .pushed message⟩ ∈ (m.errored env message).trace) := by
  obtain ⟨errors, seen, h, -, hmem⟩ := errored_eq env m message
  refine ⟨m.world, by rw [h], fun hroom => ?_⟩
  rw [h]
  exact List.mem_append_right _ (hmem hroom)

/-- **A read transfer that failed** stops the engine, whatever it brought. -/
theorem ReadBack.fails (h : ReadBack env i e m m') (he : m.entryAt i = some e)
    (hen : e.enabled = true) (hfl : e.transfer.inFlight = false) (hrun : m.shouldRun = true)
    (hcancelled : e.transfer.status ≠ .cancelled) (hcompleted : e.transfer.status ≠ .completed) :
    FailsLoudly env i e.streamId e.transferId m' := by
  cases h with
  | off hoff => exact absurd (hoff.symm.trans hen) Bool.false_ne_true
  | stopped _ hwhy =>
      rcases hwhy with hs | hstop
      · exact absurd hs hcancelled
      · exact absurd (hstop.symm.trans hrun) Bool.false_ne_true
  | again _ _ hs _ _ => exact absurd hs hcompleted
  | @failed m₁ cause _ _ _ hw =>
      obtain ⟨e₁, he₁, ha⟩ := hw.calm.entry ((m.heard_entryAt e i).trans he)
      obtain ⟨w, hworld, hsaid⟩ := errored_said (m₁.modifyEntry i (.setEnabled false))
        (.readCallback e.streamId e.transferId cause)
      refine ⟨⟨e₁.setEnabled false, ?_, rfl, ha.inFlight.trans hfl⟩, errored_shouldRun env _ _,
        errored_shouldCancel _ _, .readCallback e.streamId e.transferId cause, w, ⟨rfl, rfl⟩,
        hworld, hsaid⟩
      rw [errored_entryAt, entryAt_modifyEntry_self, he₁]
      rfl

/-- A write transfer that failed, whose callback has counted itself. -/
theorem writeTransfer_fails (he : m.entryAt i = some e) (hfl : e.transfer.inFlight = false)
    (hrun : m.shouldRun = true) :
    Ends (rescue (writeTransfer env i e) fun cause => do
        error env (.writeCallback e.streamId e.transferId cause)
        alter (·.modifyEntry i (.setEnabled false)))
      (fun _ t => FailsLoudly env i e.streamId e.transferId t ↔ Refused env i e m)
      (fun _ _ => False) m := by
  rw [ends_rescue]
  refine ((writeTransfer_ends he).and (writeTransfer_refused i e m)).mono ?_ ?_
  · -- the body came back: the engine runs on
    rintro - t ⟨⟨n, m₁, m₂, hc, hf, hleft⟩, hnot⟩
    obtain ⟨e₁, he₁, ha⟩ := hc.entry he
    have hrun₂ : m₂.shouldRun = true :=
      (hf.work he₁ ha.inFlight.symm).calm.shouldRun.trans (hc.shouldRun.trans hrun)
    refine ⟨fun hloud => ?_, fun hr => absurd hr hnot⟩
    have hstop := hloud.shouldRun
    have hrun₃ : t.shouldRun = true := by
      rcases hleft with ⟨-, rfl⟩ | ⟨-, e₂, -, rfl⟩
      · exact hrun₂
      · exact hrun₂
    exact absurd (hstop.symm.trans hrun₃) Bool.false_ne_true
  · rintro cause t ⟨⟨b, m₁, hc, hw⟩, hrefused⟩
    obtain ⟨e₁, he₁, ha₁⟩ := hc.entry he
    obtain ⟨e₂, he₂, ha₂⟩ := hw.calm.entry he₁
    simp only [ends_bind, ends_error, ends_alter]
    refine ⟨fun _ => hrefused, fun _ => ?_⟩
    obtain ⟨w, hworld, hsaid⟩ := errored_said t
      (.writeCallback e.streamId e.transferId cause)
    refine ⟨⟨e₂.setEnabled false, ?_, rfl, (ha₁.trans ha₂).inFlight.trans hfl⟩,
      errored_shouldRun env _ _, errored_shouldCancel _ _,
      .writeCallback e.streamId e.transferId cause, w, ⟨rfl, rfl⟩, hworld, hsaid⟩
    rw [entryAt_modifyEntry_self, errored_entryAt, he₂]
    rfl

theorem writeCallback_fails (he : m.entryAt i = some e) (hen : e.enabled = true)
    (hfl : e.transfer.inFlight = false) (hrun : m.shouldRun = true)
    (hcancelled : e.transfer.status ≠ .cancelled) :
    Ends (writeCallback env i)
      (fun _ t => FailsLoudly env i e.streamId e.transferId t ↔
        Refused env i e.countCallback (m.modifyEntry i .countCallback))
      (fun _ _ => False) m := by
  have he' : (m.modifyEntry i .countCallback).entryAt i = some e.countCallback := by
    rw [entryAt_modifyEntry_self, he]
    rfl
  unfold writeCallback
  simp only [ends_bind, ends_alter, ends_look, id_look, he', ends_ite]
  refine ⟨fun hd => absurd (hd.symm.trans hen) Bool.false_ne_true, fun _ =>
    ⟨fun hs => ?_, fun _ => ?_⟩⟩
  · rcases hs with hs | hs
    · exact absurd hs hcancelled
    · exact absurd (hs.symm.trans hrun) Bool.false_ne_true
  · exact writeTransfer_fails he' hfl hrun

theorem FailsLoudly.boundary_iff {streamId transferId : ℕ} :
    FailsLoudly env i streamId transferId m.boundary ↔ FailsLoudly env i streamId transferId m := by
  constructor
  · rintro ⟨he, hr, hc, message, w, hn, hw, hs⟩
    refine ⟨he, hr, hc, message, w, hn, hw, fun hroom => ?_⟩
    rcases List.mem_append.mp (hs hroom) with hmem | hmem
    · exact hmem
    · have hwhat := congrArg Seen.what (List.mem_singleton.mp hmem)
      cases hwhat
  · rintro ⟨he, hr, hc, message, w, hn, hw, hs⟩
    exact ⟨he, hr, hc, message, w, hn, hw, fun hroom => List.mem_append_left _ (hs hroom)⟩

/-- **A failed transfer stops the engine, and says so**, where it is a read
transfer, and where it is a write transfer exactly when the user or libusb
refuses what `write_callback` asks of them to make it ready again. -/
theorem failed_iff (env : Env σ) (m m' : Machine σ) (c : Completion) (e : FtdiStreamStaticState)
    (he : m.entryAt c.transfer = some e) (hfl : e.transfer.inFlight = true)
    (hen : e.enabled = true) (hrun : m.shouldRun = true) (hcompleted : c.status ≠ .completed)
    (hcancelled : c.status ≠ .cancelled) (h : complete env c m = (.ret (), m')) :
    FailsLoudly env c.transfer e.streamId e.transferId m' ↔
      e.isReading = true ∨ Refused env c.transfer (e.back c) (m.landed e c) := by
  have hends : Ends (complete env c) (fun _ t =>
      FailsLoudly env c.transfer e.streamId e.transferId t ↔
        e.isReading = true ∨ Refused env c.transfer (e.back c) (m.landed e c))
      (fun _ _ => False) m := by
    unfold complete
    rw [ends_bind, ends_look, id_look, he]
    simp only [ends_ite]
    refine ⟨fun hnot => absurd (hnot.symm.trans hfl) Bool.false_ne_true, fun _ => ?_⟩
    have he₁ : ((m.modifyEntry c.transfer (.land c)).note (.completed c.transfer e.streamId
        e.isReading c.status (e.moved c) (e.actual c))).entryAt c.transfer = some (e.land c) := by
      simp [he]
    simp only [ends_bind, ends_alter, ends_observe, callback, ends_ite]
    refine ⟨fun hr => ?_, fun hr => ?_⟩
    · refine (readCallback_ends he₁).mono (fun _ t hb => ?_) fun _ _ hf => hf
      have hloud := hb.fails (landed_entryAt he) hen rfl hrun hcancelled hcompleted
      exact ⟨fun _ => .inl hr, fun _ => FailsLoudly.boundary_iff.mpr hloud⟩
    · refine (writeCallback_fails he₁ hen rfl hrun hcancelled).mono (fun _ t hiff => ?_)
        fun _ _ hf => hf
      refine FailsLoudly.boundary_iff.trans (hiff.trans ?_)
      exact ⟨.inr, fun h => h.resolve_left hr⟩
  exact ends_ret_of (Q := fun _ t => FailsLoudly env c.transfer e.streamId e.transferId t ↔
    e.isReading = true ∨ Refused env c.transfer (e.back c) (m.landed e c)) hends h

/-- A stalled read transfer stops the engine. -/
theorem failed_iff_sample :
    ∃ m m' : Machine ℕ, Session steady (constructed [sampleStream 64 1 0] ⟨64, 4096⟩ 4) .poll [] m ∧
      complete steady ⟨0, .stall, [], 0⟩ m = (.ret (), m') ∧ FailsLoudly steady 0 0 0 m' := by
  have hidle : Idle (constructed [sampleStream 64 1 0] ⟨64, 4096⟩ 4) :=
    constructed_idle (by decide +kernel)
  obtain ⟨m, hm, he, hfl, hen, hrd, hs, ht, hrun, hret⟩ := exists_session (P := fun m =>
    (m.entryAt 0).isSome = true ∧ (m.entryAt 0).all (·.transfer.inFlight) = true ∧
      (m.entryAt 0).all (·.enabled) = true ∧ (m.entryAt 0).all (·.isReading) = true ∧
      (m.entryAt 0).all (·.streamId = 0) = true ∧ (m.entryAt 0).all (·.transferId = 0) = true ∧
      m.shouldRun = true ∧ (complete steady ⟨0, .stall, [], 0⟩ m).1 = .ret ()) steady .poll []
    hidle (by decide +kernel)
  obtain ⟨e, he⟩ := Option.isSome_iff_exists.mp he
  simp only [he, Option.all_some, decide_eq_true_eq] at hfl hen hrd hs ht
  refine ⟨m, _, hm, Prod.ext hret rfl, ?_⟩
  have hloud := (failed_iff steady m _ ⟨0, .stall, [], 0⟩ e he hfl hen hrun (by decide) (by decide)
    (Prod.ext hret rfl)).mpr (.inl hrd)
  rwa [hs, ht] at hloud

/-- **A stalled write transfer is submitted again**: nothing was moved, so
nothing is confirmed; the user fills it with the same bytes, libusb takes
it, and the engine runs on. -/
theorem failed_write_runs_on :
    ∃ m m' : Machine Desk, Session writing writer .poll [] m ∧ m.shouldRun = true ∧
      (m.entryAt 0).any (fun e => e.enabled && e.transfer.inFlight) = true ∧
      complete writing ⟨0, .stall, [], 0⟩ m = (.ret (), m') ∧
      (m'.entryAt 0).any (fun e => e.enabled && e.transfer.inFlight) = true ∧
      m'.shouldRun = true ∧ m'.errorSpsc = [] ∧
      ∀ streamId transferId, ¬ FailsLoudly writing 0 streamId transferId m' := by
  obtain ⟨m, hm, hrun, he, hret, he', hrun', herrors⟩ := exists_session (P := fun m =>
    m.shouldRun = true ∧ (m.entryAt 0).any (fun e => e.enabled && e.transfer.inFlight) = true ∧
      (complete writing ⟨0, .stall, [], 0⟩ m).1 = .ret () ∧
      ((complete writing ⟨0, .stall, [], 0⟩ m).2.entryAt 0).any
        (fun e => e.enabled && e.transfer.inFlight) = true ∧
      (complete writing ⟨0, .stall, [], 0⟩ m).2.shouldRun = true ∧
      (complete writing ⟨0, .stall, [], 0⟩ m).2.errorSpsc = []) writing .poll [] writer_idle
    (by decide +kernel)
  refine ⟨m, _, hm, hrun, he, Prod.ext hret rfl, he', hrun', herrors, fun _ _ hloud => ?_⟩
  exact Bool.false_ne_true (hloud.shouldRun.symm.trans hrun')

end Stream

end SgFtdi
