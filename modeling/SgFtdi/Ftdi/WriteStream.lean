import SgFtdi.Ftdi.Calls

/-!
# The bytes that are written

Any number of writes may be under way, each of which is sent in chunks of
its own, and the chunks of different writes come in any order. For every
one of them the device has taken a front of its block, once and in order,
and a write that says it is done has given the device what it says.

What was sent is marked with its control, or not at all if it was sent by
a call that waits for it, and `sentOf` is what has one mark.
-/

namespace SgFtdi

namespace Ftdi

open Prog

/-- What was sent with a mark. -/
def sentOf (mark : Option ℕ) (sent : List (Option ℕ × List UInt8)) : List UInt8 :=
  (sent.filter fun piece => piece.1 = mark).flatMap Prod.snd

variable {mark mark' : Option ℕ} {sent : List (Option ℕ × List UInt8)} {data : List UInt8}

theorem sentOf_append : sentOf mark (sent ++ [(mark, data)]) = sentOf mark sent ++ data := by
  rw [sentOf, List.filter_append, List.filter_cons_of_pos (by simp), List.filter_nil,
    List.flatMap_append, List.flatMap_singleton, sentOf]

theorem sentOf_append_of_ne (h : mark' ≠ mark) :
    sentOf mark (sent ++ [(mark', data)]) = sentOf mark sent := by
  rw [sentOf, List.filter_append, List.filter_cons_of_neg (by simp [h]), List.filter_nil,
    List.append_nil, sentOf]

variable {σ : Type} {env : Env σ} {s t u : Device σ}

/-- **A write that has sent `out`**: the front of its block up to its offset,
and if it is active, its transfer is the piece behind that. -/
structure TransferControl.Sends (tc : TransferControl) (out : List UInt8) : Prop where
  taken : out = tc.taken
  offset : tc.offset ≤ tc.size
  next : ∀ transfer, tc.transfer = some transfer → transfer.active = true →
    transfer.buffer = tc.offset ∧ tc.offset + transfer.length ≤ tc.size

/-- **Every write has sent a front of its block**, and nothing else carries
its mark. -/
structure Written (controls : List TransferControl) (sent : List (Option ℕ × List UInt8)) :
    Prop where
  sends : ∀ (id : ℕ) (tc : TransferControl), controls[id]? = some tc → tc.direction = .output →
    tc.Sends (sentOf (some id) sent)
  others : ∀ id : ℕ, (∀ tc, controls[id]? = some tc → tc.direction = .input) →
    sentOf (some id) sent = []

/-- **The ledger of the writes**, with what was sent without a control, the
controls `K` that nothing changes any more, the blocks `B` that were
submitted, and that there are `n` controls or more. -/
structure Ledger (n : ℕ) (sync : List UInt8) (K : ℕ → TransferControl → Prop)
    (B : ℕ → List UInt8 → Prop) (controls : List TransferControl)
    (sent : List (Option ℕ × List UInt8)) : Prop extends Written controls sent where
  sync : sentOf none sent = sync
  count : n ≤ controls.length
  settled : ∀ (id : ℕ) (tc : TransferControl), K id tc →
    tc.active = false ∧ tc.freed = true ∧ controls[id]? = some tc
  blocks : ∀ (id : ℕ) (buf : List UInt8), B id buf →
    ∃ tc : TransferControl, controls[id]? = some tc ∧ tc.direction = .output ∧ tc.buf = buf

namespace Ledger

variable {n : ℕ} {sync : List UInt8} {K : ℕ → TransferControl → Prop}
variable {B : ℕ → List UInt8 → Prop} {l l' : List TransferControl} {id : ℕ}
    {tc tc' : TransferControl}

/-- **A change of one control**, of which `data` more is sent. -/
theorem modify (h : Ledger n sync K B l sent) (hc : l[id]? = some tc)
    (hdir : tc'.direction = tc.direction) (hbuf : tc.direction = .output → tc'.buf = tc.buf)
    (hfree : ∀ x, ¬ K id x) {w : List (Option ℕ × List UInt8)}
    (hw : ∀ mark, mark ≠ some id → sentOf mark w = sentOf mark sent)
    (hin : tc.direction = .input → sentOf (some id) w = sentOf (some id) sent)
    (hout : tc.direction = .output → tc'.Sends (sentOf (some id) w)) :
    Ledger n sync K B (l.modify id fun _ => tc') w := by
  have hsame : (l.modify id fun _ => tc')[id]? = some tc' := getElem?_modify_of_some hc
  have hother : ∀ j, j ≠ id → (l.modify id fun _ => tc')[j]? = l[j]? := by
    intro j hj
    rw [List.getElem?_modify_ne _ _ (fun h => hj h.symm)]
  -- only what is recorded under the control itself has grown
  refine ⟨⟨?sends, ?others⟩, ?sync, ?count, ?settled, ?blocks⟩
  case sends =>
    intro j x hx hd
    by_cases hj : j = id
    · subst hj
      rw [hsame] at hx
      obtain rfl := Option.some.inj hx
      exact hout (hdir.symm.trans hd)
    · rw [hother j hj] at hx
      rw [hw (some j) (fun he => hj (Option.some.inj he))]
      exact h.sends j x hx hd
  case others =>
    intro j hj'
    by_cases hj : j = id
    · subst hj
      have hd : tc.direction = .input := hdir.symm.trans (hj' tc' hsame)
      rw [hin hd]
      refine h.others j fun x hx => ?_
      rw [hc] at hx
      rw [← Option.some.inj hx, hd]
    · rw [hw (some j) (fun he => hj (Option.some.inj he))]
      rw [hother j hj] at hj'
      exact h.others j hj'
  case sync => rw [hw none (by simp), h.sync]
  case count =>
    rw [List.length_modify]
    exact h.count
  case settled =>
    intro j x hx
    have hj : j ≠ id := by
      rintro rfl
      exact hfree x hx
    rw [hother j hj]
    exact h.settled j x hx
  case blocks =>
    intro j buf hb
    obtain ⟨x, hx, hd, hbufx⟩ := h.blocks j buf hb
    by_cases hj : j = id
    · subst hj
      rw [hc] at hx
      obtain rfl := Option.some.inj hx
      exact ⟨tc', hsame, hdir.trans hd, (hbuf hd).trans hbufx⟩
    · exact ⟨x, by rw [hother j hj]; exact hx, hd, hbufx⟩

/-- A control that is active is none of those that nothing changes. -/
theorem not_settled (h : Ledger n sync K B l sent) (hc : l[id]? = some tc) (ha : tc.active = true) :
    ∀ x, ¬ K id x := by
  intro x hx
  obtain ⟨hidle, -, hx'⟩ := h.settled id x hx
  rw [hc] at hx'
  rw [← Option.some.inj hx', ha] at hidle
  exact absurd hidle (by decide)

end Ledger

section Callbacks

variable {n : ℕ} {sync : List UInt8} {K : ℕ → TransferControl → Prop}
variable {B : ℕ → List UInt8 → Prop}

/-! ## The callback of a read

It changes its own control, which is not one of a write. -/

/-- The ledger, and a control of a read that may change. -/
def Reads (n : ℕ) (sync : List UInt8) (K : ℕ → TransferControl → Prop)
    (B : ℕ → List UInt8 → Prop) (id : ℕ) (s : Device σ) : Prop :=
  Ledger n sync K B s.controls s.sent ∧
    (∃ tc, s.controls[id]? = some tc ∧ tc.direction = .input) ∧ ∀ x, ¬ K id x

theorem modifyControl_reads {id : ℕ} {f : TransferControl → TransferControl}
    (hf : ∀ tc, (f tc).direction = tc.direction) :
    Preserves (Reads n sync K B id) (modifyControl id f : Run σ Unit) := by
  refine Preserves.alter ?_
  rintro s ⟨h, ⟨tc, hc, hd⟩, hfree⟩
  refine ⟨?_, ⟨f tc, getElem?_modify_of_some hc, (hf tc).trans hd⟩, hfree⟩
  show Ledger n sync K B (s.controls.modify id f) s.sent
  rw [modify_congr hc (g := fun _ => f tc) rfl]
  exact h.modify hc (hf tc) (fun ho => absurd (hd.symm.trans ho) (by decide)) hfree
    (fun _ _ => rfl) (fun _ => rfl) fun ho => absurd (hd.symm.trans ho) (by decide)

theorem resubmit_reads (id : ℕ) (transfer : Transfer) :
    Preserves (Reads n sync K B id) (resubmit env id transfer) :=
  Preserves.ite (modifyControl_reads fun _ => rfl)
    (Preserves.bind (Preserves.ask fun _ h => h) fun _ =>
      Preserves.ite (modifyControl_reads fun _ => rfl) (modifyControl_reads fun _ => rfl))

theorem ftdiReadDataCb_reads (id : ℕ) (tc : TransferControl) (transfer : Transfer) (count : ℕ) :
    Preserves (Reads n sync K B id) (ftdiReadDataCb env id tc transfer count) := by
  refine Preserves.ite (Preserves.bind (Preserves.ask fun _ h => h) fun _ => Preserves.ite
    (Preserves.ite ?_ ?_) (resubmit_reads id transfer)) (resubmit_reads id transfer)
  · refine Preserves.bind Preserves.look fun _ => Preserves.bind
      (modifyControl_reads fun _ => rfl) fun _ => Preserves.bind (Preserves.alter fun _ h => h)
        fun _ => Preserves.ite (modifyControl_reads fun _ => rfl) (resubmit_reads id transfer)
  · refine Preserves.bind Preserves.look fun _ => Preserves.bind
      (modifyControl_reads fun _ => rfl) fun _ => Preserves.bind (Preserves.alter fun _ h => h)
        fun _ => modifyControl_reads fun _ => rfl

/-! ## Completions -/

/-- **A write that has advanced** has sent a longer front of its block. -/
theorem Ledger.advance {id count : ℕ} {tc tc' : TransferControl} {transfer transfer' : Transfer}
    (h : Ledger n sync K B s.controls s.sent) (hc : s.controls[id]? = some tc)
    (hout : tc.direction = .output) (htr : tc.transfer = some transfer)
    (ha : transfer.active = true)
    (hu : u.controls = s.controls.modify id fun tc => { tc with transfer := some transfer' })
    (hf : Advanced u id ((slice tc.buf transfer.buffer transfer.length).take count).length tc tc' t)
    (hsent : t.sent =
      s.sent ++ [(some id, (slice tc.buf transfer.buffer transfer.length).take count)]) :
    Ledger n sync K B t.controls t.sent := by
  have hfree := h.not_settled hc (TransferControl.active_of_transfer htr ha)
  have hs := h.sends id tc hc hout
  obtain ⟨hbuffer, hfits⟩ := hs.next transfer htr ha
  have hlen : (slice tc.buf transfer.buffer transfer.length).length = transfer.length :=
    length_slice (by rw [hbuffer]; exact hfits)
  have hroom : tc.offset +
      ((slice tc.buf transfer.buffer transfer.length).take count).length ≤ tc.size := by
    rw [List.length_take, hlen]
    omega
  have hcontrols : t.controls = s.controls.modify id fun _ => tc' := by
    rw [hf.controls, hu]
    exact modify_modify_const hc
  rw [hcontrols, hsent]
  refine h.modify hc hf.direction (fun _ => hf.buf) hfree (fun mark hm => ?_)
    (fun hin => absurd (hout.symm.trans hin) (by decide)) fun _ => ?_
  · exact sentOf_append_of_ne fun he => hm he.symm
  · rw [sentOf_append]
    refine ⟨?_, ?_, fun transfer' htr' ha' => ?_⟩
    · rw [TransferControl.taken, hf.offset, hf.buf, hs.taken, List.take_add, TransferControl.taken]
      congr 1
      rw [List.length_take, hlen, hbuffer, slice, List.take_take]
    · rw [hf.offset, TransferControl.size, hf.buf]
      exact hroom
    · exact (hf.again (TransferControl.active_of_transfer htr' ha')).2 transfer' htr'

/-- **A read that comes back** is nothing to the writes. -/
theorem complete_came_ledger (id : ℕ) (status : TransferStatus) (data : List UInt8) :
    Preserves (fun s : Device σ => Ledger n sync K B s.controls s.sent)
      (complete env (.came id status data)) := by
  intro s h
  simp only [complete, ends_bind, ends_look]
  rcases hc : s.controls[id]? with _ | tc
  · exact h
  · rcases hin : tc.direction
    · rcases htr : tc.transfer with _ | transfer
      · simp only [hin, htr]
        exact h
      · simp only [hin, htr, ends_ite]
        refine ⟨fun ha => ?_, fun _ => h⟩
        have hfree := h.not_settled hc (TransferControl.active_of_transfer htr ha)
        have hrun : Preserves (Reads n sync K B id) (do
            alter fun s => { s with
              readbuffer := overwrite s.readbuffer transfer.buffer (data.take transfer.length)
              received := s.received ++ [data.take transfer.length] }
            modifyControl id fun tc =>
              { tc with transfer := some { transfer with status, active := false } }
            ftdiReadDataCb env id tc { transfer with status, active := false }
              (data.take transfer.length).length) :=
          Preserves.bind (Preserves.alter fun _ h => h) fun _ =>
            Preserves.bind (modifyControl_reads fun _ => rfl) fun _ =>
              ftdiReadDataCb_reads id tc _ _
        exact (hrun s ⟨h, ⟨tc, hc, hin⟩, hfree⟩).mono (fun _ _ h => h.1) fun _ _ h => h.1
    · simp only [hin]
      exact h

/-- **A write that comes back** has sent what the device took. -/
theorem complete_went_ledger (id : ℕ) (status : TransferStatus) (count : ℕ) :
    Preserves (fun s : Device σ => Ledger n sync K B s.controls s.sent)
      (complete env (.went id status count)) := by
  intro s h
  simp only [complete, ends_bind, ends_look]
  rcases hc : s.controls[id]? with _ | tc
  · exact h
  · rcases hout : tc.direction
    · simp only [hout]
      exact h
    · rcases htr : tc.transfer with _ | transfer
      · simp only [hout, htr]
        exact h
      · simp only [hout, htr, ends_ite]
        refine ⟨fun ha => ?_, fun _ => h⟩
        obtain ⟨hbuffer, hfits⟩ := (h.sends id tc hc hout).next transfer htr ha
        have hroom : tc.offset +
            ((slice tc.buf transfer.buffer transfer.length).take count).length ≤ tc.size := by
          rw [List.length_take, length_slice (by rw [hbuffer]; exact hfits)]
          omega
        simp only [modifyControl, ends_bind, ends_alter]
        refine (ftdiWriteDataCb_ends rfl (getElem?_modify_of_some hc) hroom).mono ?_ ?_
        · rintro _ t ⟨tc', hf, hsent⟩
          exact h.advance hc hout htr ha rfl hf hsent
        · rintro _ t ⟨-, tc', hf, hsent⟩
          exact h.advance hc hout htr ha rfl hf hsent

/-- **A completion** keeps the ledger. -/
theorem complete_ledger : ∀ c : Completion,
    Preserves (fun s : Device σ => Ledger n sync K B s.controls s.sent) (complete env c)
  | .came id status data => complete_came_ledger id status data
  | .went id status count => complete_went_ledger id status count

theorem each_ledger (cs : List Completion) :
    Preserves (fun s : Device σ => Ledger n sync K B s.controls s.sent) (each cs (complete env)) :=
  Preserves.each complete_ledger

theorem handleEvents_ledger :
    Preserves (fun s : Device σ => Ledger n sync K B s.controls s.sent) (handleEvents env) :=
  Preserves.bind (Preserves.ask fun _ h => h) fun _ => Preserves.bind (each_ledger _) fun _ =>
    Preserves.pure

/-! ## Reads -/

theorem bulkTransferIn_ledger :
    Preserves (fun s : Device σ => Ledger n sync K B s.controls s.sent) (bulkTransferIn env) :=
  Preserves.bind Preserves.look fun _ => Preserves.bind (Preserves.ask fun _ h => h) fun _ =>
    Preserves.bind (each_ledger _) fun _ => Preserves.bind (Preserves.alter fun _ h => h) fun _ =>
      Preserves.pure

theorem errorReturn_ledger {α : Type} (code : α) (text : String) :
    Preserves (fun s : Device σ => Ledger n sync K B s.controls s.sent) (errorReturn code text) :=
  Preserves.bind (Preserves.alter fun _ h => h) fun _ => Preserves.pure

theorem readTurns_ledger : ∀ (turns : ℕ) (buf : List UInt8) (offset : ℕ),
    Preserves (fun s : Device σ => Ledger n sync K B s.controls s.sent)
      (readTurns env turns buf offset) := by
  intro turns
  induction turns with
  | zero => exact fun _ _ => Preserves.hang
  | succ turns ih =>
      intro buf offset
      refine Preserves.bind (Preserves.alter fun _ h => h) fun _ =>
        Preserves.bind bulkTransferIn_ledger fun r => Preserves.ite (errorReturn_ledger _ _)
          (Preserves.ite (Preserves.bind (Preserves.ask fun _ h => h) fun count =>
            Preserves.ite (Preserves.ite ?_ ?_) Preserves.pure) Preserves.pure)
      · exact Preserves.bind Preserves.look fun _ => Preserves.ite Preserves.pure (ih _ _)
      · exact Preserves.bind Preserves.look fun _ => Preserves.bind
          (Preserves.alter fun _ h => h) fun _ => Preserves.pure

theorem ftdiReadData_ledger (buf : List UInt8) :
    Preserves (fun s : Device σ => Ledger n sync K B s.controls s.sent) (ftdiReadData env buf) := by
  refine Preserves.bind Preserves.look fun s => Preserves.ite (errorReturn_ledger _ _)
    (Preserves.ite (errorReturn_ledger _ _) (Preserves.ite ?_ (Preserves.ite ?_ ?_)))
  · exact Preserves.bind Preserves.look fun _ => Preserves.bind
      (Preserves.alter fun _ h => h) fun _ => Preserves.pure
  · exact Preserves.bind Preserves.look fun _ => readTurns_ledger _ _ _
  · exact readTurns_ledger _ _ _

theorem ftdiReadDataSetChunksize_ledger (chunksize : ℕ) :
    Preserves (fun s : Device σ => Ledger n sync K B s.controls s.sent)
      (ftdiReadDataSetChunksize env chunksize) := by
  refine Preserves.bind (Preserves.alter fun _ h => h) fun _ => Preserves.ite Preserves.raise
    (Preserves.bind (Preserves.ask fun _ h => h) fun fresh => ?_)
  rcases fresh with _ | cells
  · exact errorReturn_ledger _ _
  · exact Preserves.bind (Preserves.alter fun _ h => h) fun _ => Preserves.pure

/-! ## New controls -/

/-- A control that is handed out has sent nothing. -/
theorem Ledger.handOut {l : List TransferControl} {tc : TransferControl}
    (h : Ledger n sync K B l sent) (htc : tc.direction = .output → tc.Sends []) :
    Ledger n sync K B (l ++ [tc]) sent := by
  have hold : ∀ (id : ℕ) (x : TransferControl), l[id]? = some x → (l ++ [tc])[id]? = some x := by
    intro id x hx
    obtain ⟨hlt, -⟩ := List.getElem?_eq_some_iff.mp hx
    rw [List.getElem?_append_left hlt]
    exact hx
  refine ⟨⟨?sends, ?others⟩, ?sync, ?count, ?settled, ?blocks⟩
  case sends =>
    intro id x hx hd
    rcases Nat.lt_trichotomy id l.length with hlt | rfl | hgt
    · rw [List.getElem?_append_left hlt] at hx
      exact h.sends id x hx hd
    · rw [List.getElem?_concat_length] at hx
      obtain rfl := Option.some.inj hx
      rw [h.others l.length fun y hy => by simp at hy]
      exact htc hd
    · rw [List.getElem?_eq_none (by simp; omega)] at hx
      exact absurd hx (by simp)
  case others => exact fun id hid => h.others id fun x hx => hid x (hold id x hx)
  case sync => exact h.sync
  case count =>
    rw [List.length_append]
    exact Nat.le_add_right_of_le h.count
  case settled =>
    intro id x hx
    obtain ⟨h1, h2, h3⟩ := h.settled id x hx
    exact ⟨h1, h2, hold id x h3⟩
  case blocks =>
    intro id buf hb
    obtain ⟨x, hx, hd, hbuf⟩ := h.blocks id buf hb
    exact ⟨x, hold id x hx, hd, hbuf⟩

theorem submitNew_ledger {tc : TransferControl} {transfer : Transfer}
    (htc : tc.direction = .output →
      { tc with transfer := some { transfer with active := true } }.Sends []) :
    Preserves (fun s : Device σ => Ledger n sync K B s.controls s.sent)
      (submitNew env tc transfer) :=
  Preserves.bind Preserves.look fun _ => Preserves.bind (Preserves.ask fun _ h => h) fun _ =>
    Preserves.ite Preserves.pure (Preserves.ask fun _ h => h.handOut htc)

theorem ftdiReadDataSubmit_ledger (buf : List UInt8) :
    Preserves (fun s : Device σ => Ledger n sync K B s.controls s.sent)
      (ftdiReadDataSubmit env buf) := by
  have hinput : Direction.input ≠ .output := by decide
  refine Preserves.bind Preserves.look fun s => Preserves.ite Preserves.pure
    (Preserves.bind (Preserves.ask fun _ h => h) fun _ => Preserves.ite Preserves.pure
      (Preserves.ite ?_ ?_))
  · exact Preserves.bind Preserves.look fun _ => Preserves.bind (Preserves.alter fun _ h => h)
      fun _ => Preserves.ask fun _ h => h.handOut fun hd => absurd hd hinput
  · exact Preserves.bind Preserves.look fun _ => Preserves.bind (Preserves.ask fun _ h => h)
      fun _ => Preserves.ite Preserves.pure (Preserves.bind (Preserves.alter fun _ h => h)
        fun _ => submitNew_ledger fun hd => absurd hd hinput)

/-- `ftdi_write_data_submit`: the control that is handed out is for its
block. -/
theorem ftdiWriteDataSubmit_ledger (buf : List UInt8) (h : Ledger n sync K B s.controls s.sent) :
    Ends (ftdiWriteDataSubmit env buf) (fun r t => Ledger n sync K B t.controls t.sent ∧
      ∀ id, r = some id → ∃ tc, t.controls[id]? = some tc ∧ tc.direction = .output ∧ tc.buf = buf)
      (fun _ _ => True) s := by
  have hnone : ∀ id, (none : Option ℕ) = some id → ∃ tc : TransferControl,
      s.controls[id]? = some tc ∧ tc.direction = .output ∧ tc.buf = buf :=
    fun id hid => absurd hid (by simp)
  simp only [ftdiWriteDataSubmit, submitNew, Ftdi.handOut, world, ends_bind, ends_look, ends_ask,
    ends_ite, ends_pure, ends_pieceLength, id]
  refine ⟨fun _ => ⟨h, hnone⟩, fun _ => ⟨fun _ => ⟨h, hnone⟩, fun _ => ⟨fun _ => ⟨h, hnone⟩,
    fun _ => ⟨fun hinside => ⟨fun _ => ⟨h, hnone⟩, fun _ =>
      ⟨h.handOut fun _ => ⟨?_, Nat.zero_le _, ?_⟩, ?_⟩⟩, fun _ => trivial⟩⟩⟩⟩
  · rw [TransferControl.taken, List.take_zero]
  · rintro transfer htr -
    obtain rfl := Option.some.inj htr
    refine ⟨rfl, ?_⟩
    show 0 + Int.toNat _ ≤ buf.length
    omega
  · rintro id hid
    obtain rfl := Option.some.inj hid
    exact ⟨_, List.getElem?_concat_length, rfl, rfl⟩

/-! ## Synchronous writes -/

/-- One more piece was sent without a control. -/
theorem Ledger.append_sync {l : List TransferControl} (h : Ledger n sync K B l sent)
    (data : List UInt8) : Ledger n (sync ++ data) K B l (sent ++ [(none, data)]) := by
  have hsome : ∀ id : ℕ, sentOf (some id) (sent ++ [(none, data)]) = sentOf (some id) sent :=
    fun id => sentOf_append_of_ne (by simp)
  refine ⟨⟨?sends, ?others⟩, ?sync, ?count, ?settled, ?blocks⟩
  case sends =>
    intro id tc hc hd
    rw [hsome]
    exact h.sends id tc hc hd
  case others =>
    intro id hid
    rw [hsome]
    exact h.others id hid
  case sync => rw [sentOf_append, h.sync]
  case count => exact h.count
  case settled => exact h.settled
  case blocks => exact h.blocks

theorem bulkTransferOut_ledger (data : List UInt8) (h : Ledger n sync K B s.controls s.sent) :
    Ends (bulkTransferOut env data) (fun r t => ∃ k, r.2 = (data.take k).length ∧
      Ledger n (sync ++ data.take k) K B t.controls t.sent) (fun _ _ => True) s := by
  simp only [bulkTransferOut, world, ends_bind, ends_ask]
  generalize env.bulkOut data s.world = answer
  obtain ⟨⟨completions, ret, k⟩, w⟩ := answer
  refine (each_ledger completions { s with world := w } h).mono (fun _ t ht => ?_)
    fun _ _ _ => trivial
  exact ⟨k, rfl, ht.append_sync _⟩

/-- **The loop of a write** sends its block from `offset` on: all of it, or
a front of it if it fails. -/
theorem writeTurns_ledger (buf : List UInt8) : ∀ (turns : ℕ) {offset : ℕ} {sync : List UInt8}
    {s : Device σ}, offset ≤ buf.length → Ledger n sync K B s.controls s.sent →
      Ends (writeTurns env buf turns offset) (fun ret t => ∃ piece,
        Ledger n (sync ++ piece) K B t.controls t.sent ∧ piece <+: buf.drop offset ∧
          (0 ≤ ret → ret = buf.length ∧ piece = buf.drop offset)) (fun _ _ => True) s := by
  intro turns
  induction turns with
  | zero => exact fun _ _ => trivial
  | succ turns ih =>
      intro offset sync s hoff h
      rw [writeTurns, ends_ite]
      refine ⟨fun hlt => ?_, fun hge => ?_⟩
      · simp only [ends_bind, ends_look, ends_pieceLength]
        refine ⟨fun _ => (bulkTransferOut_ledger _ h).mono ?_ fun _ _ h => h, fun _ => trivial⟩
        rintro ⟨ret, count⟩ t ⟨k, rfl, ht⟩
        generalize hdata : (slice buf offset _).take k = data at ht ⊢
        have hfront : data <+: buf.drop offset := by
          rw [← hdata, slice]
          exact (List.take_prefix _ _).trans (List.take_prefix _ _)
        -- what was sent is a front of what is left, and the rest is for the next turn
        obtain ⟨rest, hrest⟩ := hfront
        have hdrop : buf.drop (offset + data.length) = rest := by
          rw [← List.drop_drop, ← hrest, List.drop_left]
        have hroom : offset + data.length ≤ buf.length := by
          have hlen := congrArg List.length hrest
          rw [List.length_append, List.length_drop] at hlen
          omega
        rw [ends_ite]
        refine ⟨fun hfail => ?_, fun _ => ?_⟩
        · exact ⟨data, ht, ⟨rest, hrest⟩, fun hret => absurd hret (by decide)⟩
        · refine (ih hroom ht).mono ?_ fun _ _ h => h
          rintro ret' u ⟨piece, hu, hpiece, hall⟩
          rw [hdrop] at hpiece hall
          refine ⟨data ++ piece, by rw [← List.append_assoc]; exact hu, ?_, fun hret => ?_⟩
          · rw [← hrest]
            exact (List.prefix_append_right_inj data).mpr hpiece
          · obtain ⟨h1, h2⟩ := hall hret
            exact ⟨h1, by rw [h2, hrest]⟩
      · -- the block has gone out
        have hend : offset = buf.length := by omega
        refine ⟨[], by rw [List.append_nil]; exact h, List.nil_prefix, fun _ => ⟨?_, ?_⟩⟩
        · rw [hend]
        · rw [hend, List.drop_length]

/-- `ftdi_write_data`. -/
theorem ftdiWriteData_ledger (turns : ℕ) (buf : List UInt8)
    (h : Ledger n sync K B s.controls s.sent) :
    Ends (ftdiWriteData env turns buf) (fun ret t => ∃ piece,
      Ledger n (sync ++ piece) K B t.controls t.sent ∧ piece <+: buf ∧
        (0 ≤ ret → ret = buf.length ∧ piece = buf)) (fun _ _ => True) s := by
  simp only [ftdiWriteData, ends_bind, ends_look, ends_ite]
  refine ⟨fun _ => ?_, fun _ => writeTurns_ledger buf turns (Nat.zero_le _) h⟩
  exact ⟨[], by rw [List.append_nil]; exact h, List.nil_prefix, fun hret => absurd hret (by decide)⟩

/-! ## Giving a control back -/

/-- What is left of a control that was given back: nothing changes it any
more, and a write that reports a length has sent that much. -/
structure Closed (n : ℕ) (sync : List UInt8) (K : ℕ → TransferControl → Prop)
    (B : ℕ → List UInt8 → Prop) (id : ℕ) (r : ℤ × List UInt8) (t : Device σ) : Prop where
  ledger : Ledger n sync K B t.controls t.sent
  control : ∃ tc, t.controls[id]? = some tc ∧ tc.active = false ∧ tc.freed = true ∧
    (0 ≤ r.1 → r.1 = tc.offset ∧ r.2 = tc.buf)

theorem freeControl_closed {id : ℕ} {tc : TransferControl} {r : ℤ × List UInt8}
    (h : Ledger n sync K B s.controls s.sent) (hc : s.controls[id]? = some tc)
    (hfree : ∀ x, ¬ K id x) (hr : 0 ≤ r.1 → r.1 = tc.offset ∧ r.2 = tc.buf) :
    Ends (freeControl id) (fun _ t => Closed n sync K B id r t) (fun _ _ => True) s := by
  simp only [freeControl, modifyControl, ends_bind, ends_look, hc, ends_ite]
  refine ⟨fun _ => trivial, fun hidle => ?_⟩
  refine ⟨?_, { tc with freed := true }, getElem?_modify_of_some hc, ?_, rfl, hr⟩
  · have hsame : s.controls.modify id (fun tc => { tc with freed := true }) =
        s.controls.modify id fun _ => { tc with freed := true } := modify_congr hc rfl
    show Ledger n sync K B (s.controls.modify id fun tc => { tc with freed := true }) s.sent
    have hdir : ({ tc with freed := true } : TransferControl).direction = tc.direction := rfl
    rw [hsame]
    refine h.modify hc hdir (fun _ => rfl) hfree (fun _ _ => rfl) (fun _ => rfl) fun hout => ?_
    obtain ⟨h1, h2, h3⟩ := h.sends id tc hc hout
    exact ⟨h1, h2, h3⟩
  · exact Bool.eq_false_iff.mpr hidle

theorem drain_ledger (id : ℕ) : ∀ turns : ℕ,
    Preserves (fun s : Device σ => Ledger n sync K B s.controls s.sent) (drain env id turns) := by
  intro turns
  induction turns with
  | zero => exact Preserves.hang
  | succ turns ih =>
      exact Preserves.bind Preserves.look fun _ => Preserves.ite Preserves.pure
        (Preserves.bind handleEvents_ledger fun _ => Preserves.ite Preserves.pure ih)

theorem cancelAndFree_closed {id turns : ℕ} {r : ℤ × List UInt8}
    (h : Ledger n sync K B s.controls s.sent) (hid : id < n) (hfree : ∀ x, ¬ K id x)
    (hr : r.1 < 0) :
    Ends (cancelAndFree env id turns) (fun _ t => Closed n sync K B id r t) (fun _ _ => True)
      s := by
  simp only [cancelAndFree, ends_bind, ends_alter]
  refine (drain_ledger id turns { s with world := env.cancelTransfer id s.world } h).mono
    (fun _ t ht => ?_) fun _ _ _ => trivial
  have hlt : id < t.controls.length := Nat.lt_of_lt_of_le hid ht.count
  exact freeControl_closed ht (List.getElem?_eq_getElem hlt) hfree
    fun h => absurd h (Int.not_le.mpr hr)

theorem doneTurns_closed {id drains : ℕ} (hid : id < n) (hfree : ∀ x, ¬ K id x) : ∀ (turns : ℕ)
    {s : Device σ}, Ledger n sync K B s.controls s.sent →
      Ends (doneTurns env id drains turns) (fun r t => Closed n sync K B id r t)
        (fun _ _ => True) s := by
  intro turns
  induction turns with
  | zero => exact fun _ => trivial
  | succ turns ih =>
      intro s h
      have hlt : id < s.controls.length := Nat.lt_of_lt_of_le hid h.count
      have hc := List.getElem?_eq_getElem hlt
      simp only [doneTurns, ends_bind, completed, ends_look, ends_ite, hc]
      refine ⟨fun _ => ?_, fun _ => ?_⟩
      · exact (freeControl_closed h hc hfree report_eq).mono (fun _ _ h => h) fun _ _ h => h
      · refine (handleEvents_ledger s h).mono (fun ret t ht => ?_) fun _ _ _ => trivial
        refine ⟨fun hneg => ⟨fun _ => ih ht, fun _ => ?_⟩, fun _ => ih ht⟩
        exact cancelAndFree_closed ht hid hfree hneg

end Callbacks

/-! ## Runs -/

/-- **What a call sends without a control**: a write that says how much it
has written has written its block. -/
structure Record.Wrote (r : Record σ) (piece : List UInt8) : Prop where
  write : ∀ turns buf, r.call = .writeData turns buf → piece <+: buf ∧
    ∀ ret, r.answer = .code ret → 0 ≤ ret → ret = buf.length ∧ piece = buf
  other : (∀ turns buf, r.call ≠ .writeData turns buf) → piece = []

theorem Record.Wrote.nothing {r : Record σ} (h : ∀ turns buf, r.call ≠ .writeData turns buf) :
    r.Wrote [] :=
  ⟨fun turns buf he => absurd he (h turns buf), fun _ => rfl⟩

/-- What the ledger has of a call for good. -/
structure Record.Booked (r : Record σ) (K : ℕ → TransferControl → Prop)
    (B : ℕ → List UInt8 → Prop) : Prop where
  submitted : ∀ buf id, r.call = .writeDataSubmit buf → r.answer = .pointer (some id) → B id buf
  done : ∀ id turns ret buf, r.call = .transferDataDone id turns → r.answer = .block ret buf →
    0 ≤ ret → ∃ tc, K id tc ∧ ret = tc.offset ∧ buf = tc.buf

theorem Record.Booked.mono {r : Record σ} {K K' : ℕ → TransferControl → Prop}
    {B B' : ℕ → List UInt8 → Prop} (h : r.Booked K B) (hK : ∀ id tc, K id tc → K' id tc)
    (hB : ∀ id buf, B id buf → B' id buf) : r.Booked K' B' := by
  refine ⟨fun buf id hc ha => hB id buf (h.submitted buf id hc ha), ?_⟩
  intro id turns ret buf hc ha hret
  obtain ⟨tc, hk, h1, h2⟩ := h.done id turns ret buf hc ha hret
  exact ⟨tc, hK id tc hk, h1, h2⟩

section Runs

variable {n : ℕ} {sync : List UInt8} {K : ℕ → TransferControl → Prop}
variable {B : ℕ → List UInt8 → Prop}

/-- **A call and the ledger**: it goes on, and has what the call did. -/
def Entered (sync : List UInt8) (K : ℕ → TransferControl → Prop) (B : ℕ → List UInt8 → Prop)
    (r : Record σ) (t : Device σ) : Prop :=
  ∃ piece n' K' B', Ledger n' (sync ++ piece) K' B' t.controls t.sent ∧ r.Wrote piece ∧
    r.Booked K' B' ∧ (∀ id tc, K id tc → K' id tc) ∧ ∀ id buf, B id buf → B' id buf

/-- A call that leaves nothing to book. -/
theorem Entered.of_ledger {r : Record σ} (h : Ledger n sync K B t.controls t.sent)
    (hw : ∀ turns buf, r.call ≠ .writeData turns buf) (hs : ∀ buf, r.call ≠ .writeDataSubmit buf)
    (hd : ∀ id turns, r.call ≠ .transferDataDone id turns) : Entered sync K B r t :=
  ⟨[], n, K, B, by rw [List.append_nil]; exact h, Record.Wrote.nothing hw,
    ⟨fun buf _ hc => absurd hc (hs buf), fun id turns _ _ hc => absurd hc (hd id turns)⟩,
    fun _ _ h => h, fun _ _ h => h⟩

/-- A synchronous write sends a piece of its block. -/
theorem Entered.of_piece {turns : ℕ} {buf piece : List UInt8} {ret : ℤ}
    (h : Ledger n (sync ++ piece) K B t.controls t.sent) (hfront : piece <+: buf)
    (hall : 0 ≤ ret → ret = buf.length ∧ piece = buf) :
    Entered sync K B ⟨s, .writeData turns buf, .code ret⟩ t := by
  refine ⟨piece, n, K, B, h, ⟨?_, fun hno => absurd rfl (hno turns buf)⟩, ⟨by simp, by simp⟩,
    fun _ _ h => h, fun _ _ h => h⟩
  rintro _ _ ⟨⟩
  refine ⟨hfront, ?_⟩
  rintro _ ⟨⟩
  exact hall

/-- A submitted write has its block booked under the new control. -/
theorem Entered.of_submitted {buf : List UInt8} {control : Option ℕ}
    (h : Ledger n sync K B t.controls t.sent)
    (hnew : ∀ id, control = some id →
      ∃ tc, t.controls[id]? = some tc ∧ tc.direction = .output ∧ tc.buf = buf) :
    Entered sync K B ⟨s, .writeDataSubmit buf, .pointer control⟩ t := by
  refine ⟨[], n, K, fun id out => B id out ∨ (control = some id ∧ out = buf), ?_,
    Record.Wrote.nothing (by simp), ⟨?_, by simp⟩, fun _ _ h => h, fun _ _ h => .inl h⟩
  · rw [List.append_nil]
    refine ⟨h.toWritten, h.sync, h.count, h.settled, ?_⟩
    rintro id out (hb | ⟨hid, rfl⟩)
    · exact h.blocks id out hb
    · exact hnew id hid
  · rintro _ id ⟨⟩ hans
    exact .inr ⟨Answer.pointer.inj hans, rfl⟩

/-- A control that was given back is booked. -/
theorem Closed.entered {id : ℕ} {x : ℤ × List UInt8} {r : Record σ}
    (h : Closed n sync K B id x t) (hw : ∀ turns buf, r.call ≠ .writeData turns buf)
    (hs : ∀ buf, r.call ≠ .writeDataSubmit buf)
    (hd : ∀ id' turns ret buf, r.call = .transferDataDone id' turns → r.answer = .block ret buf →
      id' = id ∧ x = (ret, buf)) : Entered sync K B r t := by
  obtain ⟨tc, hc, hidle, hfreed, hrep⟩ := h.control
  have hl := h.ledger
  refine ⟨[], n, fun j y => K j y ∨ (j = id ∧ y = tc), B, ?_, Record.Wrote.nothing hw, ⟨?_, ?_⟩,
    fun _ _ h => .inl h, fun _ _ h => h⟩
  · rw [List.append_nil]
    refine ⟨hl.toWritten, hl.sync, hl.count, ?_, hl.blocks⟩
    rintro j y (hk | ⟨rfl, rfl⟩)
    · exact hl.settled j y hk
    · exact ⟨hidle, hfreed, hc⟩
  · exact fun buf _ hcall => absurd hcall (hs buf)
  · intro id' turns ret buf hcall hans hret
    obtain ⟨rfl, rfl⟩ := hd id' turns ret buf hcall hans
    obtain ⟨h1, h2⟩ := hrep hret
    exact ⟨tc, .inr ⟨rfl, rfl⟩, h1, h2⟩

/-- The controls that are there now are the ones to count on. -/
theorem Ledger.recount (h : Ledger n sync K B s.controls s.sent) :
    Ledger s.controls.length sync K B s.controls s.sent :=
  ⟨h.toWritten, h.sync, Nat.le_refl _, h.settled, h.blocks⟩

/-- A control that is not given back may change. -/
theorem Ledger.not_freed {id : ℕ} {tc : TransferControl} {l : List TransferControl}
    {sent : List (Option ℕ × List UInt8)} (h : Ledger n sync K B l sent) (hc : l[id]? = some tc)
    (hfreed : tc.freed = false) : ∀ x, ¬ K id x := by
  intro x hx
  obtain ⟨-, hfreed', hx'⟩ := h.settled id x hx
  rw [hc] at hx'
  rw [← Option.some.inj hx', hfreed] at hfreed'
  exact absurd hfreed' (by decide)

/-- A cancelled control is closed. -/
theorem ftdiTransferDataCancel_closed {id turns : ℕ} {tc : TransferControl}
    (h : Ledger n sync K B s.controls s.sent) (hc : s.controls[id]? = some tc)
    (hfreed : tc.freed = false) :
    Ends (ftdiTransferDataCancel env id turns)
      (fun _ t => Closed s.controls.length sync K B id (-1, []) t) (fun _ _ => True) s := by
  obtain ⟨hlt, -⟩ := List.getElem?_eq_some_iff.mp hc
  have hfree := h.not_freed hc hfreed
  simp only [ftdiTransferDataCancel, ends_bind, completed, ends_look, ends_ite]
  exact ⟨fun _ => freeControl_closed h.recount hc hfree fun h => absurd h (by decide),
    fun _ => cancelAndFree_closed h.recount hlt hfree (by decide)⟩

/-- **One call**, with any answer. -/
theorem Call.run_entered {call : Call} (h : Ledger n sync K B s.controls s.sent)
    (hfits : call.Fits s) :
    Ends (call.run env) (fun answer t => Entered sync K B ⟨s, call, answer⟩ t) (fun _ _ => True)
      s := by
  have hkeep : ∀ {α : Type} {p : Run σ α} {f : α → Answer},
      Preserves (fun s : Device σ => Ledger n sync K B s.controls s.sent) p →
      (∀ turns buf, call ≠ .writeData turns buf) → (∀ buf, call ≠ .writeDataSubmit buf) →
      (∀ id turns, call ≠ .transferDataDone id turns) →
      Ends p (fun a t => Entered sync K B ⟨s, call, f a⟩ t) (fun _ _ => True) s :=
    fun hp hw hs hd => (hp s h).mono (fun _ _ ht => Entered.of_ledger ht hw hs hd)
      fun _ _ _ => trivial
  cases call with
  | readData buf =>
      simp only [Call.run, ends_bind, ends_pure]
      exact hkeep (ftdiReadData_ledger buf) (by simp) (by simp) (by simp)
  | readDataSetChunksize chunksize =>
      simp only [Call.run, ends_bind, ends_pure]
      exact hkeep (ftdiReadDataSetChunksize_ledger chunksize) (by simp) (by simp) (by simp)
  | writeData turns buf =>
      simp only [Call.run, ends_bind, ends_pure]
      refine (ftdiWriteData_ledger turns buf h).mono ?_ fun _ _ _ => trivial
      rintro ret t ⟨piece, ht, hfront, hall⟩
      exact .of_piece ht hfront hall
  | writeDataSetChunksize chunksize =>
      exact Entered.of_ledger h (by simp) (by simp) (by simp)
  | readDataSubmit buf =>
      simp only [Call.run, ends_bind, ends_pure]
      exact hkeep (ftdiReadDataSubmit_ledger buf) (by simp) (by simp) (by simp)
  | writeDataSubmit buf =>
      simp only [Call.run, ends_bind, ends_pure]
      refine (ftdiWriteDataSubmit_ledger buf h).mono ?_ fun _ _ _ => trivial
      rintro control t ⟨ht, hnew⟩
      exact .of_submitted ht hnew
  | transferDataDone id turns =>
      obtain ⟨tc, hc, hfreed⟩ := hfits
      obtain ⟨hlt, -⟩ := List.getElem?_eq_some_iff.mp hc
      simp only [Call.run, ends_bind, ends_pure]
      refine (doneTurns_closed hlt (h.not_freed hc hfreed) turns h.recount).mono ?_
        fun _ _ _ => trivial
      rintro ⟨ret, buf⟩ t ht
      refine ht.entered (by simp) (by simp) ?_
      rintro _ _ _ _ ⟨⟩ ⟨⟩
      exact ⟨rfl, rfl⟩
  | transferDataCancel id turns =>
      obtain ⟨tc, hc, hfreed⟩ := hfits
      simp only [Call.run, ends_bind, ends_pure]
      exact (ftdiTransferDataCancel_closed h hc hfreed).mono
        (fun _ t ht => ht.entered (by simp) (by simp) (by simp)) fun _ _ _ => trivial

/-- The ledger over a run. -/
theorem CallRun.ledger {l : List (Record σ)} (h : CallRun env s l t) : ∀ {n : ℕ} {sync : List UInt8}
    {K : ℕ → TransferControl → Prop} {B : ℕ → List UInt8 → Prop},
    Ledger n sync K B s.controls s.sent → ∃ pieces n' K' B',
      Ledger n' (sync ++ pieces.flatten) K' B' t.controls t.sent ∧
        List.Forall₂ Record.Wrote l pieces ∧ (∀ r ∈ l, r.Booked K' B') ∧
        (∀ id tc, K id tc → K' id tc) ∧ ∀ id buf, B id buf → B' id buf := by
  induction h with
  | nil s =>
      intro n sync K B h
      exact ⟨[], n, K, B, by simpa using h, .nil, nofun, fun _ _ h => h, fun _ _ h => h⟩
  | cons hfits hrun _ ih =>
      intro n sync K B h
      obtain ⟨piece, n₁, K₁, B₁, h₁, hw, hb, hK, hB⟩ := ends_ret_of (Call.run_entered h hfits) hrun
      obtain ⟨pieces, n₂, K₂, B₂, h₂, hws, hbs, hK', hB'⟩ := ih h₁
      refine ⟨piece :: pieces, n₂, K₂, B₂, ?_, .cons hw hws, ?_,
        fun id tc h => hK' id tc (hK id tc h), fun id buf h => hB' id buf (hB id buf h)⟩
      · rw [List.flatten_cons, ← List.append_assoc]
        exact h₂
      · intro r hr
        rcases List.mem_cons.mp hr with rfl | hr
        · exact hb.mono hK' hB'
        · exact hbs r hr

/-- **What holds of a call for good**: what the device took for a write is a
front of its block, and as much of it as the call that waited for it has
reported. -/
structure Record.Lasting (r : Record σ) (t : Device σ) : Prop where
  submitted : ∀ buf id, r.call = .writeDataSubmit buf → r.answer = .pointer (some id) →
    sentOf (some id) t.sent <+: buf
  done : ∀ id turns ret buf, r.call = .transferDataDone id turns → r.answer = .block ret buf →
    t.reads id = false → 0 ≤ ret → ∃ n : ℕ, ret = n ∧ n ≤ buf.length ∧
      sentOf (some id) t.sent = buf.take n

/-- **Every write goes out once and in order**, whatever else is written
meanwhile. The pieces are what the synchronous writes have sent. -/
theorem write_stream {l : List (Record σ)} (hs : Written s.controls s.sent)
    (h : CallRun env s l t) : Written t.controls t.sent ∧
      (∃ pieces : List (List UInt8), List.Forall₂ Record.Wrote l pieces ∧
        sentOf none t.sent = sentOf none s.sent ++ pieces.flatten) ∧ ∀ r ∈ l, r.Lasting t := by
  have hstart : Ledger 0 (sentOf none s.sent) (fun _ _ => False) (fun _ _ => False) s.controls
      s.sent := ⟨hs, rfl, Nat.zero_le _, nofun, nofun⟩
  obtain ⟨pieces, n, K, B, hend, hw, hb, -, -⟩ := h.ledger hstart
  refine ⟨hend.toWritten, ⟨pieces, hw, hend.sync⟩, fun r hr => ⟨?_, ?_⟩⟩
  · intro buf id hcall hans
    obtain ⟨tc, hc, hd, rfl⟩ := hend.blocks id buf ((hb r hr).submitted buf id hcall hans)
    rw [(hend.sends id tc hc hd).taken]
    exact List.take_prefix _ _
  · intro id turns ret buf hcall hans hout hret
    obtain ⟨tc, hk, h1, rfl⟩ := (hb r hr).done id turns ret buf hcall hans hret
    obtain ⟨-, -, hc⟩ := hend.settled id tc hk
    have hd : tc.direction = .output := by
      have hnot : decide (tc.direction = .input) = false := by
        rw [Device.reads, hc] at hout
        exact hout
      rcases hdir : tc.direction
      · rw [hdir] at hnot
        exact absurd hnot (by decide)
      · rfl
    have hsent := hend.sends id tc hc hd
    exact ⟨tc.offset, h1, hsent.offset, hsent.taken⟩

/-- A write of three bytes in chunks of two, under way while a read is waited
for, and a write that waits. -/
theorem write_stream_sample : ∃ t : Device (List (List UInt8)),
    sentOf (some 1) t.sent = [9, 8, 7] ∧ sentOf none t.sent = [6, 5, 4] := by
  have hrun : CallRun scripted (opened [[1, 2, 68, 69, 70], [1, 2, 3]])
      [⟨_, .readDataSubmit [0, 0, 0], .pointer (some 0)⟩,
        ⟨_, .writeDataSubmit [9, 8, 7], .pointer (some 1)⟩,
        ⟨_, .transferDataDone 0 5, .block 3 [68, 69, 70]⟩,
        ⟨_, .writeData 5 [6, 5, 4], .code 3⟩,
        ⟨_, .transferDataDone 1 5, .block 3 [9, 8, 7]⟩] _ :=
    .call rfl (by decide +kernel) (.call trivial (by decide +kernel)
      (.call ⟨_, rfl, rfl⟩ (by decide +kernel) (.call trivial (by decide +kernel)
        (.call ⟨_, rfl, rfl⟩ (by decide +kernel) (.nil _)))))
  have hstart : Written (opened [[1, 2, 68, 69, 70], [1, 2, 3]]).controls
      (opened [[1, 2, 68, 69, 70], [1, 2, 3]]).sent := ⟨nofun, fun _ _ => rfl⟩
  obtain ⟨-, ⟨pieces, hw, hsync⟩, hlast⟩ := write_stream hstart hrun
  obtain ⟨k, hk, -, hsent⟩ := (hlast _ (.tail _ (.tail _ (.tail _ (.tail _ (.head _)))))).done 1 5 3
    [9, 8, 7] rfl rfl (by decide +kernel) (by decide)
  obtain rfl : k = 3 := by omega
  have hpieces : pieces.flatten = [6, 5, 4] := by
    rcases hw with _ | ⟨h1, hw⟩
    rcases hw with _ | ⟨h2, hw⟩
    rcases hw with _ | ⟨h3, hw⟩
    rcases hw with _ | ⟨h4, hw⟩
    rcases hw with _ | ⟨h5, hw⟩
    rcases hw with _ | _
    rw [h1.other nofun, h2.other nofun, h3.other nofun, h5.other nofun,
      ((h4.write 5 [6, 5, 4] rfl).2 3 rfl (by decide)).2]
    rfl
  rw [hpieces] at hsync
  exact ⟨_, hsent, hsync⟩

end Runs

end Ftdi

end SgFtdi
