import SgFtdi.Stream.Moves.Upkeep
import SgFtdi.Stream.Sizes

/-!
# Stream — what is submitted

`transfer->length` is the length a transfer is submitted with, and the
place where both callbacks of a write transfer leave what the user
answered. Of a read transfer it is set once, to the size of the buffer,
and submitted again as it stands. `Ranged` is what is kept over a run:
every length on the record was in range, and what is in flight can be
submitted again.
-/

namespace SgFtdi

namespace Stream

open Prog Relation

variable {σ : Type} {env : Env σ} {m m' t : Machine σ} {i : ℕ}
variable {e e' : FtdiStreamStaticState} {n : ℤ}

/-- An answer of `WRITE_FILL_BUFFER` for an entry. -/
def Filled (env : Env σ) (e : FtdiStreamStaticState) (n : ℤ) : Prop :=
  ∃ buffer w b,
    (env.callback false e.streamId .writeFillBuffer buffer e.bufferSize w).1.result = .ok (n, b)

/-- **A length to submit**: the transfer has a buffer, and is offered the
whole of it for reading and what the user filled for writing. -/
structure Offer (env : Env σ) (e : FtdiStreamStaticState) (n : ℤ) : Prop where
  hasBuffer : e.transfer.buffer.isSome = true
  pos : 0 < n
  whole : e.isReading = true → n = e.bufferSize
  filled : e.isReading = false → Filled env e n

theorem Offer.same (h : Offer env e n) (hs : Same e e') : Offer env e' n where
  hasBuffer := hs.hasBuffer.trans h.hasBuffer
  pos := h.pos
  whole hr := (h.whole (hs.isReading.symm.trans hr)).trans hs.bufferSize.symm
  filled hw := by
    obtain ⟨buffer, w, b, hb⟩ := h.filled (hs.isReading.symm.trans hw)
    refine ⟨buffer, w, b, ?_⟩
    rw [hs.streamId, hs.bufferSize]
    exact hb

/-- **`malloc` of a negative size**, which is a huge one, finds no room. -/
def Env.Limited (env : Env σ) : Prop := ∀ bytes w, bytes < 0 → (env.malloc bytes w).1 = false

/-- The transfer and the length of a submission. -/
def Obs.offer : Obs → Option (ℕ × ℤ)
  | .submitted i _ n _ => some (i, n)
  | _ => none

theorem Obs.plain.offer {o : Obs} (h : o.plain) : o.offer = none := by
  cases o <;> first | rfl | exact h.elim

/-- **What is kept over a run**: every length submitted was in range, a
read transfer has the length of its buffer, and what is in flight has a
buffer, which is not empty for reading. -/
structure Ranged (env : Env σ) (m : Machine σ) : Prop where
  offers : ∀ o ∈ m.trace, ∀ i n, o.what.offer = some (i, n) →
    ∃ e, m.entryAt i = some e ∧ Offer env e n
  lengths : ∀ i e, m.entryAt i = some e → e.isReading = true → e.transfer.length = e.bufferSize
  flying : ∀ i e, m.entryAt i = some e → e.transfer.inFlight = true →
    e.transfer.buffer.isSome = true ∧ (e.isReading = true → 0 < e.bufferSize)
  sizes : env.Limited → ∀ i e, m.entryAt i = some e → e.transfer.buffer.isSome = true →
    0 ≤ e.bufferSize
  packets : ∀ i e, m.entryAt i = some e → e.isReading = true → m.readPacketsize = 0 →
    e.bufferSize = 0

namespace Ranged

theorem plain : Untouched env (Ranged env) := by
  intro m m' hp h
  refine ⟨fun o ho i n hon => ?_, fun i e he => ?_, fun i e he => ?_, fun hm i e he => ?_,
    fun i e he hr hz => ?_⟩
  · rw [hp.entryAt]
    rcases hp.trace.mem_or ho with ho | ho
    · exact h.offers o ho i n hon
    · rw [ho.offer] at hon
      cases hon
  · exact h.lengths i e ((hp.entryAt i).symm.trans he)
  · exact h.flying i e ((hp.entryAt i).symm.trans he)
  · exact h.sizes hm i e ((hp.entryAt i).symm.trans he)
  · exact h.packets i e ((hp.entryAt i).symm.trans he) hr (hp.readPacketsize.symm.trans hz)

theorem note {o : Obs} (h : Ranged env m) (ho : o.offer = none) : Ranged env (m.note o) where
  offers o' ho' i n hon := by
    rcases List.mem_append.mp ho' with ho' | ho'
    · exact h.offers o' ho' i n hon
    · rw [List.mem_singleton.mp ho', ho] at hon
      cases hon
  lengths := h.lengths
  flying := h.flying
  sizes := h.sizes
  packets := h.packets

theorem told (h : Ranged env m) (t : Telling) : Ranged env (m.told env t) := by
  have ht : t.obs.offer = none := by cases t <;> rfl
  have hn := h.note ht
  exact ⟨hn.offers, hn.lengths, hn.flying, hn.sizes, hn.packets⟩

/-- A write to an entry that leaves the length of a read transfer alone and
launches nothing. -/
theorem modify {f : FtdiStreamStaticState → FtdiStreamStaticState} (h : Ranged env m)
    (hf : ∀ e, m.entryAt i = some e → Same e (f e) ∧
      (e.isReading = true → (f e).transfer.length = e.transfer.length) ∧
      ((f e).transfer.inFlight = true → e.transfer.inFlight = true)) :
    Ranged env (m.modifyEntry i f) := by
  have hback : ∀ j e', (m.modifyEntry i f).entryAt j = some e' → ∃ e, m.entryAt j = some e ∧
      Same e e' ∧ (e.isReading = true → e'.transfer.length = e.transfer.length) ∧
      (e'.transfer.inFlight = true → e.transfer.inFlight = true) := by
    intro j e' he'
    rw [entryAt_modifyEntry] at he'
    by_cases hij : i = j
    · subst hij
      rw [if_pos rfl] at he'
      obtain ⟨e, he, rfl⟩ := Option.map_eq_some_iff.mp he'
      exact ⟨e, he, hf e he⟩
    · rw [if_neg hij] at he'
      exact ⟨e', he', .refl, fun _ => rfl, id⟩
  refine ⟨fun o ho j n hon => ?_, fun j e' he' hr => ?_, fun j e' he' hfl => ?_,
    fun hm j e' he' hbuf => ?_, fun j e' he' hr hz => ?_⟩
  · obtain ⟨e, he, hoff⟩ := h.offers o ho j n hon
    by_cases hij : i = j
    · subst hij
      exact ⟨f e, by rw [entryAt_modifyEntry_self, he]; rfl, hoff.same (hf e he).1⟩
    · exact ⟨e, by rw [entryAt_modifyEntry_ne m hij, he], hoff⟩
  · obtain ⟨e, he, hsame, hlen, -⟩ := hback j e' he'
    have hread := hsame.isReading.symm.trans hr
    exact (hlen hread).trans ((h.lengths j e he hread).trans hsame.bufferSize.symm)
  · obtain ⟨e, he, hsame, -, hfly⟩ := hback j e' he'
    obtain ⟨hbuf, hpos⟩ := h.flying j e he (hfly hfl)
    refine ⟨hsame.hasBuffer.trans hbuf, fun hr => ?_⟩
    rw [hsame.bufferSize]
    exact hpos (hsame.isReading.symm.trans hr)
  · obtain ⟨e, he, hsame, -, -⟩ := hback j e' he'
    rw [hsame.bufferSize]
    exact h.sizes hm j e he (hsame.hasBuffer.symm.trans hbuf)
  · obtain ⟨e, he, hsame, -, -⟩ := hback j e' he'
    rw [hsame.bufferSize]
    exact h.packets j e he (hsame.isReading.symm.trans hr) hz

end Ranged

/-! ## The three places that submit -/

/-- The entry a function works on is the one it read, as far as its
configuration goes. -/
def Holding (env : Env σ) (i : ℕ) (e : FtdiStreamStaticState) (m : Machine σ) : Prop :=
  Ranged env m ∧ ∃ e', m.entryAt i = some e' ∧ Same e e'

theorem holding_plain (e : FtdiStreamStaticState) : Untouched env (Holding env i e) := by
  rintro m m' hp ⟨h, e', he', hs⟩
  exact ⟨Ranged.plain m m' hp h, e', (hp.entryAt i).trans he', hs⟩

/-- A write to the entry that is worked on. -/
theorem Holding.modify {f : FtdiStreamStaticState → FtdiStreamStaticState}
    (h : Holding env i e m) (hf : ∀ e', m.entryAt i = some e' → Same e e' → Same e' (f e') ∧
      (e'.isReading = true → (f e').transfer.length = e'.transfer.length) ∧
      ((f e').transfer.inFlight = true → e'.transfer.inFlight = true)) :
    Holding env i e (m.modifyEntry i f) := by
  obtain ⟨hr, e', he', hs⟩ := h
  refine ⟨hr.modify fun e₁ he₁ => ?_, f e', by rw [entryAt_modifyEntry_self, he']; rfl,
    hs.trans (hf e' he' hs).1⟩
  obtain rfl := Option.some_inj.mp (he'.symm.trans he₁)
  exact hf e' he' hs

/-- A write that touches neither the length nor the flight. -/
theorem Holding.wrote {f : FtdiStreamStaticState → FtdiStreamStaticState}
    (h : Holding env i e m) (hf : ∀ e', Same e' (f e') ∧
      (f e').transfer.length = e'.transfer.length ∧
      (f e').transfer.inFlight = e'.transfer.inFlight) :
    Holding env i e (m.modifyEntry i f) :=
  h.modify fun e' _ _ => ⟨(hf e').1, fun _ => (hf e').2.1, fun hfl => (hf e').2.2.symm.trans hfl⟩

/-- **libusb is offered** a length in range. -/
theorem libusbSubmitTransfer_ranged (h : Ranged env m) (he : m.entryAt i = some e)
    (ho : Offer env e e.transfer.length) :
    Ends (libusbSubmitTransfer env i) (fun _ t => Ranged env t) (fun _ _ => False) m := by
  have hoffered : ∀ taken, Ranged env (m.offered env i e taken) := by
    intro taken
    refine ⟨fun o ho' j n hon => ?_, h.lengths, h.flying, h.sizes, h.packets⟩
    rcases List.mem_append.mp ho' with ho' | ho'
    · exact h.offers o ho' j n hon
    · rw [List.mem_singleton.mp ho'] at hon
      obtain ⟨rfl, rfl⟩ := Prod.mk.inj (Option.some_inj.mp hon)
      exact ⟨e, he, ho⟩
  refine (libusbSubmitTransfer_ends he).mono ?_ fun _ _ hf => hf
  rintro rc t (⟨-, rfl⟩ | ⟨-, rfl⟩)
  · -- taken off, what is in flight is what was offered
    have hmodify : ∀ j e', (m.launched env i e).entryAt j = some e' →
        (j = i ∧ e' = e.takeOff) ∨ m.entryAt j = some e' := by
      intro j e' he'
      rw [Machine.launched, entryAt_modifyEntry] at he'
      by_cases hij : i = j
      · rw [if_pos hij, ← hij] at he'
        have hsome : some e.takeOff = some e' :=
          (congrArg (Option.map FtdiStreamStaticState.takeOff) he).symm.trans he'
        exact .inl ⟨hij.symm, (Option.some_inj.mp hsome).symm⟩
      · rw [if_neg hij] at he'
        exact .inr he'
    refine ⟨fun o ho' j n hon => ?_, fun j e' he' hr => ?_, fun j e' he' hfl => ?_,
      fun hm j e' he' hbuf => ?_, fun j e' he' hr hz => ?_⟩
    · obtain ⟨e', he', hoff⟩ := (hoffered true).offers o ho' j n hon
      by_cases hij : i = j
      · subst hij
        refine ⟨e'.takeOff, ?_, hoff.same ⟨rfl, rfl, rfl, rfl, rfl, rfl⟩⟩
        rw [Machine.launched, entryAt_modifyEntry_self, he']
        rfl
      · exact ⟨e', by rw [Machine.launched, entryAt_modifyEntry_ne _ hij, he'], hoff⟩
    · rcases hmodify j e' he' with ⟨rfl, rfl⟩ | he'
      · exact h.lengths j e he hr
      · exact h.lengths j e' he' hr
    · rcases hmodify j e' he' with ⟨rfl, rfl⟩ | he'
      · refine ⟨ho.hasBuffer, fun hr => ?_⟩
        have hwhole := ho.whole hr
        have hpos := ho.pos
        show 0 < e.bufferSize
        omega
      · exact h.flying j e' he' hfl
    · rcases hmodify j e' he' with ⟨rfl, rfl⟩ | he'
      · exact h.sizes hm j e he hbuf
      · exact h.sizes hm j e' he' hbuf
    · rcases hmodify j e' he' with ⟨rfl, rfl⟩ | he'
      · exact h.packets j e he hr hz
      · exact h.packets j e' he' hr hz
  · exact hoffered false

/-- The user fills a buffer. -/
theorem fillBuffer_holding (h : Holding env i e m) :
    Ends (fillBuffer env i e) (fun n t => Holding env i e t ∧ Filled env e n)
      (fun _ t => Holding env i e t) m := by
  unfold fillBuffer
  rw [ends_bind, ends_observe, ends_bind]
  have hasked : Plain env m ((m.note (.filled i e.transfer.inFlight)).withWorld
      (env.callback false e.streamId .writeFillBuffer (e.transfer.buffer.getD []) e.bufferSize
        m.world).2) :=
    (Plain.note (o := .filled i _) trivial).trans (.withWorld (.callback _ _ _ _ _ (by decide)))
  refine (userCall_ends _ _).mono ?_ ?_
  · rintro ⟨n, bytes⟩ t ⟨hq, hr⟩
    have ht : Holding env i e t := holding_plain e m t (hasked.trans (.quiet hq)) h
    refine ⟨ht.wrote fun e' => ⟨(e'.alike_store bytes).same, rfl, rfl⟩, ?_⟩
    exact ⟨_, _, bytes, hr⟩
  · rintro cause t ⟨hq, -⟩
    exact holding_plain e m t (hasked.trans (.quiet hq)) h

/-- **The length is written**: to a read transfer, that of its buffer, which
it has. -/
theorem Holding.sized (h : Holding env i e m) (hn : e.isReading = true → n = e.bufferSize) :
    Holding env i e (m.modifyEntry i (.setLength n)) := by
  refine h.modify fun e' he' hs => ⟨(e'.alike_setLength n).same, fun hr => ?_, fun hfl => hfl⟩
  have hlen := h.1.lengths i e' he' hr
  exact (hn (hs.isReading.symm.trans hr)).trans (hs.bufferSize.symm.trans hlen.symm)

theorem sized_length (he : (m.modifyEntry i (.setLength n)).entryAt i = some e') :
    e'.transfer.length = n := by
  rw [entryAt_modifyEntry_self] at he
  obtain ⟨e₁, -, rfl⟩ := Option.map_eq_some_iff.mp he
  rfl

/-- An offer is made of the entry as it stands by then. -/
theorem Holding.submits (h : Holding env i e m) (hn : Offer env e n)
    (hlen : ∀ e', m.entryAt i = some e' → Same e e' → e'.transfer.length = n) :
    Ends (libusbSubmitTransfer env i) (fun _ t => Ranged env t) (fun _ t => Ranged env t) m := by
  obtain ⟨hr, e', he', hs⟩ := h
  have hoff : Offer env e' e'.transfer.length := by
    rw [hlen e' he' hs]
    exact hn.same hs
  exact (libusbSubmitTransfer_ranged hr he' hoff).mono (fun _ _ ht => ht) fun _ _ hf => hf.elim

/-- An entry is switched on or off. -/
theorem switch_ranged (i : ℕ) (b : Bool) :
    Preserves (Ranged env) (alter (·.modifyEntry i (.setEnabled b)) : Run σ Unit) :=
  Preserves.alter fun _ ht =>
    ht.modify fun _ _ => ⟨⟨rfl, rfl, rfl, rfl, rfl, rfl⟩, fun _ => rfl, id⟩

/-- **`submit`** submits what is in range. -/
theorem submit_ranged (i : ℕ) : Preserves (Ranged env) (submit env i) := by
  intro m h
  unfold submit
  rw [ends_bind, ends_look, id_look]
  cases he : m.entryAt i with
  | none => exact h
  | some e =>
      dsimp only
      rw [ends_ite]
      refine ⟨fun _ => h, fun hbuffer => ?_⟩
      rw [ends_ite, ends_ite]
      refine ⟨fun _ => h, fun _ => ⟨fun _ => h, fun _ => ?_⟩⟩
      have hsome : e.transfer.buffer.isSome = true := Option.isSome_iff_ne_none.mpr hbuffer
      have hhold : Holding env i e m := ⟨h, e, he, .refl⟩
      -- a read asks for its whole buffer, a write for what was filled in
      have hlength : Ends (submitLength env i e)
          (fun n t => Holding env i e t ∧ (e.isReading = true → n = e.bufferSize) ∧
            (e.isReading = false → Filled env e n)) (fun _ t => Holding env i e t) m := by
        unfold submitLength
        rw [ends_ite]
        refine ⟨fun hr => ⟨hhold, fun _ => rfl, fun hw => ?_⟩, fun hw => ?_⟩
        · rw [hr] at hw
          cases hw
        · exact (fillBuffer_holding hhold).mono
            (fun n t ht => ⟨ht.1, fun hr => absurd hr hw, fun _ => ht.2⟩) fun _ _ ht => ht
      rw [ends_bind]
      refine hlength.mono ?_ fun _ _ ht => ht.1
      rintro n t ⟨ht, hwhole, hfilled⟩
      rw [ends_bind, ends_alter]
      have hsized : Holding env i e (t.modifyEntry i (.setLength n)) := ht.sized hwhole
      rw [ends_ite]
      refine ⟨fun _ => hsized.1, fun hneg => ?_⟩
      rw [ends_ite]
      refine ⟨fun _ => ?_, fun hzero => ?_⟩
      · exact switch_ranged i false _ hsized.1
      · rw [ends_bind]
        have hoff : Offer env e n := ⟨hsome, by omega, hwhole, hfilled⟩
        refine (hsized.submits hoff fun e' he' _ => sized_length he').mono
          (fun rc t ht => ?_) fun _ _ ht => ht
        rw [ends_ite]
        exact ⟨fun _ => ht, fun _ => ht⟩

theorem arm_ranged (i : ℕ) : Preserves (Ranged env) (arm env i) := by
  refine Preserves.bind Preserves.look fun m => ?_
  split
  · exact Preserves.pure
  · exact Preserves.bind (switch_ranged i true) fun _ =>
      Preserves.ite (submit_ranged i) Preserves.pure

theorem tell_holding (t : Telling) : Preserves (Holding env i e) (tell env t) :=
  (holding_plain e).tell fun _ h => ⟨h.1.told t, h.2⟩

theorem handOver_holding (s : ℕ) (bytes : List UInt8) :
    Preserves (Holding env i e) (handOver env s bytes) :=
  Preserves.bind (tell_holding _) fun _ => Preserves.pure

theorem readLoop_holding : ∀ (turns : ℕ) (data : List UInt8),
    Preserves (Holding env i e) (readLoop env i e turns data)
  | 0, [] => Preserves.pure
  | _ + 1, [] => Preserves.pure
  | 0, _ :: _ => Preserves.hang
  | turns + 1, _ :: _ => by
      refine Preserves.bind Preserves.look fun m => Preserves.bind ?_ fun _ =>
        readLoop_holding turns _
      unfold readMessage
      split
      · exact Preserves.pure
      · refine Preserves.bind (Preserves.alter fun t ht => ht.wrote fun e' => ?_) fun _ =>
          handOver_holding _ _
        exact ⟨⟨rfl, rfl, rfl, rfl, rfl, rfl⟩, rfl, rfl⟩

theorem deliver_holding : Preserves (Holding env i e) (deliver env i e) := by
  refine Preserves.ite ?_ (Preserves.ite (handOver_holding _ _) Preserves.pure)
  exact Preserves.bind ((holding_plain e).alter fun _ => ⟨rfl, rfl, rfl, rfl, .refl, .refl⟩)
    fun _ => readLoop_holding _ _

/-- **A read transfer is submitted again** with the length it has, which is
that of its buffer. -/
theorem readTransfer_ranged (h : Holding env i e m) (hread : e.isReading = true)
    (hoff : Offer env e e.bufferSize) :
    Ends (readTransfer env i e) (fun _ t => Ranged env t) (fun _ t => Ranged env t) m := by
  unfold readTransfer
  rw [ends_ite]
  refine ⟨fun _ => ?_, fun _ => h.1⟩
  rw [ends_bind]
  refine (deliver_holding m h).mono (fun _ t ht => ?_) fun _ _ ht => ht.1
  rw [ends_bind]
  refine (ht.submits hoff fun e' he' hs => ?_).mono (fun rc u hu => ?_) fun _ _ hu => hu
  · exact (ht.1.lengths i e' he' (hs.isReading.trans hread)).trans hs.bufferSize
  · rw [ends_ite]
    exact ⟨fun _ => hu, fun _ => hu⟩

/-- **What the user says of a confirmation** is the length for a moment, and
never that of a submission. -/
theorem confirmTransfer_holding (hwrite : e.isReading = false) :
    Preserves (Holding env i e) (confirmTransfer env i e) := by
  refine Preserves.ite ?_ Preserves.pure
  refine Preserves.bind (Preserves.alter fun t ht => ht.wrote fun e' =>
    ⟨⟨rfl, rfl, rfl, rfl, rfl, rfl⟩, rfl, rfl⟩) fun _ => ?_
  refine Preserves.bind (tell_holding _) fun answer => ?_
  refine Preserves.bind (Preserves.alter fun t ht => ht.sized fun hr => ?_) fun _ =>
    Preserves.ite Preserves.raise Preserves.pure
  rw [hwrite] at hr
  cases hr

theorem writeTransfer_ranged (h : Holding env i e m) (hwrite : e.isReading = false)
    (hbuffer : e.transfer.buffer.isSome = true) :
    Ends (writeTransfer env i e) (fun _ t => Ranged env t) (fun _ t => Ranged env t) m := by
  have hnot : ∀ {n : ℤ}, e.isReading = true → n = e.bufferSize := fun hr => by
    rw [hwrite] at hr
    cases hr
  unfold writeTransfer
  rw [ends_bind]
  refine (confirmTransfer_holding hwrite m h).mono (fun _ t ht => ?_) fun _ _ ht => ht.1
  rw [ends_bind]
  refine (fillBuffer_holding ht).mono (fun n u hu => ?_) fun _ _ hu => hu.1
  have hsized := hu.1.sized (n := n) hnot
  rw [ends_bind, ends_alter, ends_ite]
  refine ⟨fun _ => hsized.1, fun hneg => ?_⟩
  rw [ends_ite]
  refine ⟨fun _ => ?_, fun hzero => ?_⟩
  · exact switch_ranged i false _ hsized.1
  · rw [ends_bind]
    have hoff : Offer env e n := ⟨hbuffer, by omega, hnot, fun _ => hu.2⟩
    refine (hsized.submits hoff fun e' he' _ => sized_length he').mono (fun rc t ht => ?_)
      fun _ _ ht => ht
    rw [ends_ite]
    exact ⟨fun _ => ht, fun _ => ht⟩

/-! ## The callbacks, and the run -/

theorem countCallback_ranged (i : ℕ) :
    Preserves (Ranged env) (alter (·.modifyEntry i .countCallback) : Run σ Unit) :=
  Preserves.alter fun _ ht =>
    ht.modify fun _ _ => ⟨⟨rfl, rfl, rfl, rfl, rfl, rfl⟩, fun _ => rfl, id⟩

theorem readCallback_ranged (h : Ranged env m) (he : m.entryAt i = some e)
    (hread : e.isReading = true) (hoff : Offer env e e.bufferSize) :
    Ends (readCallback env i) (fun _ t => Ranged env t) (fun _ t => Ranged env t) m := by
  unfold readCallback
  rw [ends_bind]
  refine (ends_self.and (countCallback_ranged i m h)).mono (fun _ t ht => ?_) fun _ _ ht => ht.2
  obtain ⟨hret, ht⟩ := ht
  have he₁ : t.entryAt i = some e.countCallback := by
    obtain rfl : m.modifyEntry i .countCallback = t := (Prod.mk.inj hret).2
    rw [entryAt_modifyEntry_self, he]
    rfl
  rw [ends_bind, ends_look, id_look, he₁]
  dsimp only
  rw [ends_ite]
  refine ⟨fun _ => ht, fun _ => ?_⟩
  rw [ends_ite]
  refine ⟨fun _ => ?_, fun _ => ?_⟩
  · exact Preserves.bind (switch_ranged i false) (fun _ => Ranged.plain.cancel) t ht
  · have hoff₁ : Offer env e.countCallback e.bufferSize :=
      hoff.same ⟨rfl, rfl, rfl, rfl, rfl, rfl⟩
    rw [ends_rescue]
    refine (readTransfer_ranged ⟨ht, _, he₁, .refl⟩ hread hoff₁).mono (fun _ _ hu => hu) ?_
    intro cause u hu
    exact Preserves.bind (switch_ranged i false) (fun _ => Ranged.plain.error _) u hu

theorem writeCallback_ranged (h : Ranged env m) (he : m.entryAt i = some e)
    (hwrite : e.isReading = false) (hbuffer : e.transfer.buffer.isSome = true) :
    Ends (writeCallback env i) (fun _ t => Ranged env t) (fun _ t => Ranged env t) m := by
  unfold writeCallback
  rw [ends_bind]
  refine (ends_self.and (countCallback_ranged i m h)).mono (fun _ t ht => ?_) fun _ _ ht => ht.2
  obtain ⟨hret, ht⟩ := ht
  have he₁ : t.entryAt i = some e.countCallback := by
    obtain rfl : m.modifyEntry i .countCallback = t := (Prod.mk.inj hret).2
    rw [entryAt_modifyEntry_self, he]
    rfl
  have hhold : Holding env i e.countCallback t := ⟨ht, _, he₁, .refl⟩
  rw [ends_bind, ends_look, id_look, he₁]
  dsimp only
  rw [ends_ite]
  refine ⟨fun _ => ht, fun _ => ?_⟩
  rw [ends_ite]
  refine ⟨fun _ => ?_, fun _ => ?_⟩
  · -- the zero of a cancellation is written to a transfer that is not offered
    have hoff : Holding env i e.countCallback (t.modifyEntry i (.setEnabled false)) :=
      hhold.wrote fun _ => ⟨⟨rfl, rfl, rfl, rfl, rfl, rfl⟩, rfl, rfl⟩
    have hzero : Holding env i e.countCallback
        ((t.modifyEntry i (.setEnabled false)).modifyEntry i (.setLength 0)) :=
      hoff.sized fun hr => absurd (hwrite.symm.trans hr) Bool.false_ne_true
    rw [ends_bind, ends_alter, ends_bind, ends_alter]
    exact Ranged.plain.cancel _ hzero.1
  · rw [ends_rescue]
    refine (writeTransfer_ranged hhold hwrite hbuffer).mono (fun _ _ hu => hu) ?_
    intro cause u hu
    exact Preserves.bind (Ranged.plain.error _) (fun _ => switch_ranged i false) u hu

theorem FtdiStreamStaticState.same_land (e : FtdiStreamStaticState) (c : Completion) :
    Same e (e.land c) := by
  refine ⟨rfl, rfl, rfl, rfl, rfl, ?_⟩
  unfold FtdiStreamStaticState.land
  split <;> simp

/-- **A completion** is followed by a submission in range, or by none. -/
theorem complete_ranged (c : Completion) : Preserves (Ranged env) (complete env c) := by
  intro m h
  unfold complete
  rw [ends_bind, ends_look, id_look]
  cases he : m.entryAt c.transfer with
  | none => exact h
  | some e =>
      dsimp only
      rw [ends_ite]
      refine ⟨fun _ => h, fun hfl => ?_⟩
      obtain ⟨hbuffer, hpos⟩ := h.flying _ e he (Bool.not_eq_false _ ▸ hfl)
      have hsame := e.same_land c
      have hland : Ranged env (m.modifyEntry c.transfer (.land c)) :=
        h.modify fun e' _ => ⟨e'.same_land c, fun _ => rfl, fun hf => absurd hf Bool.false_ne_true⟩
      have hnoted : Ranged env ((m.modifyEntry c.transfer (.land c)).note
          (.completed c.transfer e.streamId e.isReading c.status (e.moved c) (e.actual c))) :=
        hland.note rfl
      have he₁ : ((m.modifyEntry c.transfer (.land c)).note
          (.completed c.transfer e.streamId e.isReading c.status (e.moved c)
            (e.actual c))).entryAt c.transfer = some (e.land c) := by
        rw [note_entryAt, entryAt_modifyEntry_self, he]
        rfl
      rw [ends_bind, ends_alter, ends_bind, ends_observe, ends_bind]
      have hback : Ends (callback env c.transfer e) (fun _ t => Ranged env t)
          (fun _ t => Ranged env t) ((m.modifyEntry c.transfer (.land c)).note
            (.completed c.transfer e.streamId e.isReading c.status (e.moved c) (e.actual c))) := by
        unfold callback
        rw [ends_ite]
        refine ⟨fun hr => ?_, fun hw => ?_⟩
        · exact readCallback_ranged hnoted he₁ hr ⟨hsame.hasBuffer.trans hbuffer, hpos hr,
            fun _ => rfl, fun hw => absurd (hr.symm.trans hw) Bool.false_ne_true.symm⟩
        · exact writeCallback_ranged hnoted he₁ (Bool.not_eq_true _ ▸ hw)
            (hsame.hasBuffer.trans hbuffer)
      exact hback.mono (fun _ t ht => ht.note rfl) fun _ _ ht => ht

theorem reportCounters_ranged (i : ℕ) : Preserves (Ranged env) (reportCounters env i) := by
  refine Preserves.bind Preserves.look fun m => ?_
  split
  · exact Preserves.pure
  · split
    · exact Preserves.raise
    · refine Preserves.bind (Preserves.ite ?_ Preserves.pure) fun _ =>
        Preserves.alter fun t ht =>
          ht.modify fun _ _ => ⟨⟨rfl, rfl, rfl, rfl, rfl, rfl⟩, fun _ => rfl, id⟩
      exact Ranged.plain.tell fun _ ht => ht.told _

theorem upkeep_ranged : Upkeep env (Ranged env) where
  plain := Ranged.plain
  complete := complete_ranged
  reportCounters := reportCounters_ranged
  cancelEntry i := by
    refine Preserves.bind Preserves.look fun m => ?_
    split
    · exact Preserves.pure
    · refine Preserves.ite (Preserves.bind (Ranged.plain.observe trivial) fun _ => ?_)
        Preserves.pure
      exact Preserves.alter fun t ht =>
        ht.modify fun _ _ => ⟨⟨rfl, rfl, rfl, rfl, rfl, rfl⟩, fun _ => rfl, id⟩

/-! ## The entries of a set-up -/

/-- **A new entry** was never offered before. -/
theorem Ranged.fresh {e₀ : FtdiStreamStaticState} (h : Ranged env m)
    (hothers : ∀ j, j ≠ m.entries.length → t.entryAt j = m.entryAt j)
    (hnew : t.entryAt m.entries.length = some e₀) (htrace : t.trace = m.trace)
    (hidle : e₀.transfer.inFlight = false)
    (hlen : e₀.isReading = true → e₀.transfer.length = e₀.bufferSize)
    (hsize : env.Limited → e₀.transfer.buffer.isSome = true → 0 ≤ e₀.bufferSize)
    (hpacketsize : t.readPacketsize = m.readPacketsize)
    (hpackets : e₀.isReading = true → m.readPacketsize = 0 → e₀.bufferSize = 0) :
    Ranged env t := by
  have hnone : m.entryAt m.entries.length = none := by
    unfold FtdiStreamState.entryAt
    exact List.getElem?_eq_none le_rfl
  -- an entry is the new one, or was there before
  have hback : ∀ j e, t.entryAt j = some e → e = e₀ ∨ m.entryAt j = some e := by
    intro j e he
    by_cases hj : j = m.entries.length
    · subst hj
      exact .inl (Option.some_inj.mp (he.symm.trans hnew))
    · exact .inr ((hothers j hj).symm.trans he)
  refine ⟨fun o ho j n hon => ?_, fun j e he hr => ?_, fun j e he hfl => ?_,
    fun hm j e he hbuf => ?_, fun j e he hr hz => ?_⟩
  · obtain ⟨e, he, hoff⟩ := h.offers o (htrace ▸ ho) j n hon
    have hj : j ≠ m.entries.length := by
      rintro rfl
      rw [hnone] at he
      cases he
    exact ⟨e, (hothers j hj).trans he, hoff⟩
  · rcases hback j e he with rfl | he
    · exact hlen hr
    · exact h.lengths j e he hr
  · rcases hback j e he with rfl | he
    · rw [hidle] at hfl
      cases hfl
    · exact h.flying j e he hfl
  · rcases hback j e he with rfl | he
    · exact hsize hm hbuf
    · exact h.sizes hm j e he hbuf
  · rw [hpacketsize] at hz
    rcases hback j e he with rfl | he
    · exact hpackets hr hz
    · exact h.packets j e he hr hz

/-- `init` after `malloc` has answered. -/
theorem allocated_ranged {s j : ℕ} {stream : FtdiStreamEntry} {isReading : Bool} {fd : ℤ} {w : σ}
    (h : Ranged env m) (hm : m.Made) {found : Bool} (hfound : env.Limited → found = true →
      0 ≤ ((newEntry s j isReading stream.readIncludeModemStatus fd).fill
        m.toFtdiStreamState stream).bufferSize) :
    Ranged env ((((m.emplaced (newEntry s j isReading stream.readIncludeModemStatus
      fd)).modifyEntry m.entries.length (.fill m.toFtdiStreamState stream)).withWorld
      w).modifyEntry m.entries.length (.allocate found)) := by
  have hnew : ((((m.emplaced (newEntry s j isReading stream.readIncludeModemStatus
      fd)).modifyEntry m.entries.length (.fill m.toFtdiStreamState stream)).withWorld
      w).modifyEntry m.entries.length (.allocate found)).entryAt m.entries.length =
        some (((newEntry s j isReading stream.readIncludeModemStatus fd).fill
          m.toFtdiStreamState stream).allocate found) := by
    rw [entryAt_modifyEntry_self, withWorld_entryAt, entryAt_modifyEntry_self,
      emplaced_entryAt hm]
    rfl
  refine h.fresh (fun k hk => ?_) hnew rfl ?_ (fun hr => ?_) (fun hl hbuf => hfound hl ?_) rfl
    fun hr hz => ?_
  · rw [entryAt_modifyEntry_ne _ hk.symm, withWorld_entryAt, entryAt_modifyEntry_ne _ hk.symm,
      emplaced_entryAt_lt _ hk]
  · unfold FtdiStreamStaticState.fill
    split <;> rfl
  · unfold FtdiStreamStaticState.allocate
    exact if_pos hr
  · cases found
    · cases hbuf
    · rfl
  · have hread : isReading = true := (fill_isReading m.toFtdiStreamState stream _).symm.trans hr
    show (FtdiStreamStaticState.fill _ _ _).bufferSize = 0
    rw [fill_bufferSize, FtdiStreamState.packetsize]
    simp only [newEntry, hread, if_true]
    rw [hz, narrow_zero_mul]

/-- **`init`** submits what is in range, once there is a buffer. -/
theorem initEntry_ranged {stream : FtdiStreamEntry} (he : m.entryAt i = some e)
    (halloc : ∀ found w,
      (env.Limited → found = true → 0 ≤ (e.fill m.toFtdiStreamState stream).bufferSize) →
      Ranged env (((m.modifyEntry i (.fill m.toFtdiStreamState
      stream)).withWorld w).modifyEntry i (.allocate found))) :
    Ends (initEntry env i stream) (fun _ t => Ranged env t) (fun _ t => Ranged env t) m := by
  unfold initEntry
  rw [ends_bind, ends_look, id_look, ends_bind, ends_alter, ends_bind, ends_look, id_look,
    entryAt_modifyEntry_self, he]
  show Ends (_ >>= _) _ _ _
  rw [ends_bind, ends_askWorld, ends_bind, ends_alter, ends_ite]
  -- `malloc` finds nothing for a negative size
  have hranged := halloc (env.malloc (e.fill m.toFtdiStreamState stream).bufferSize m.world).1
    (env.malloc (e.fill m.toFtdiStreamState stream).bufferSize m.world).2 fun hl hfound => by
      refine not_lt.mp fun hneg => ?_
      rw [hl _ _ hneg] at hfound
      cases hfound
  refine ⟨fun _ => hranged, fun _ => ?_⟩
  have hwatch : Preserves (Ranged env) (watch env (e.fill m.toFtdiStreamState stream)) :=
    Preserves.ite Preserves.pure (Ranged.plain.addToEpoll _)
  exact Preserves.bind hwatch (fun _ => submit_ranged i) _ hranged

/-- **The creation of an entry** keeps what is submitted in range. -/
theorem createStreamstate_ranged (s : ℕ) (stream : FtdiStreamEntry) (isReading : Bool) (j : ℕ)
    (h : Ranged env m) (hm : m.Made) :
    Ends (createStreamstate env s stream isReading j) (fun _ t => Ranged env t)
      (fun _ t => Ranged env t) m := by
  have hmade : Untouched env fun t : Machine σ => Ranged env t ∧ t.Made := fun _ _ hp ht =>
    ⟨Ranged.plain _ _ hp ht.1, hp.made ht.2⟩
  unfold createStreamstate
  rw [ends_bind]
  refine (hmade.userCall (getFd_worldStep isReading s) m ⟨h, hm⟩).mono
    (fun answer t ht => ?_) fun _ _ ht => ht.1
  show Ends (_ >>= _) _ _ _
  rw [ends_bind]
  refine (hmade.askWorld (fun _ => .allocTransfer) t ht).mono
    (fun allocated u hu => ?_) fun _ _ hu => hu.1
  rw [ends_ite]
  refine ⟨fun _ => hu.1, fun _ => ?_⟩
  rw [ends_bind, ends_look, id_look, ends_bind, ends_alter]
  exact initEntry_ranged (emplaced_entryAt hu.2 _) fun found w hfound =>
    allocated_ranged hu.1 hu.2 hfound

/-- The record of an idle object is empty. -/
theorem begun_ranged {m₀ : Machine σ} (hidle : Idle m₀) (w : σ) (now : UInt64) :
    Ranged env ((Machine.withWorld { m₀ with mutex := true } w).begun now) where
  offers o ho j n hon := by
    have htrace : ((Machine.withWorld { m₀ with mutex := true } w).begun now).trace =
        [⟨true, .began now⟩] := by
      show m₀.trace ++ _ = _
      rw [hidle.trace]
      rfl
    rw [htrace, List.mem_singleton] at ho
    rw [ho] at hon
    cases hon
  lengths j e he := by cases he
  flying j e he := by cases he
  sizes _ j e he := by cases he
  packets j e he := by cases he

/-- **A set-up**, whether it returns or throws. -/
theorem initBody_ranged {m₀ : Machine σ} (hidle : Idle m₀) :
    Ends (initBody env) (fun _ t => Ranged env t) (fun _ t => Ranged env t)
      { m₀ with mutex := true } := by
  refine initBody_ends_of (fun w now u _ hu => ?_) fun w now u cause _ hu => ?_
  · have hur : Ranged env u := Ranged.plain _ _ hu (begun_ranged hidle w now)
    exact createStreams_keeps (fun s stream isReading j t ht hmade _ =>
      createStreamstate_ranged s stream isReading j ht hmade) hur (hu.made rfl) _
  · exact Ranged.plain _ _ hu (begun_ranged hidle w now)

theorem Course.ranged {m₀ : Machine σ} {mode : Mode} (h : Course env m₀ mode m) :
    Ranged env m :=
  h.inv (fun _ hret => ends_ret_of (initBody_ranged h.1) hret) upkeep_ranged arm_ranged

/-! ## Every submission -/

/-- The submissions on a record. -/
def offers (t : List Seen) : List (ℕ × ℤ) := t.filterMap (·.what.offer)

/-- **Every submission is in range**: the transfer has its buffer, the
length is positive and no longer than the buffer, it is the whole of the
buffer of a read transfer and, of a write transfer, an answer of
`WRITE_FILL_BUFFER`. -/
def Machine.InRange (env : Env σ) (m : Machine σ) : Prop :=
  ∀ i n, (i, n) ∈ offers m.trace → ∃ e, m.entryAt i = some e ∧
    e.transfer.buffer.isSome = true ∧ 0 < n ∧ n ≤ e.bufferSize ∧
    (e.isReading = true → n = e.bufferSize) ∧ (e.isReading = false → Filled env e n)

theorem Ranged.inRange (h : Ranged env m) (hmalloc : env.Limited)
    (hfill : ∀ s buffer len w n b, 0 ≤ len →
      (env.callback false s .writeFillBuffer buffer len w).1.result = .ok (n, b) → n ≤ len) :
    m.InRange env := by
  intro i n hin
  obtain ⟨o, ho, hon⟩ := List.mem_filterMap.mp hin
  obtain ⟨e, he, hoff⟩ := h.offers o ho i n hon
  have hsize := h.sizes hmalloc i e he hoff.hasBuffer
  refine ⟨e, he, hoff.hasBuffer, hoff.pos, ?_, hoff.whole, hoff.filled⟩
  cases hr : e.isReading with
  | true => exact (hoff.whole hr).le
  | false =>
      obtain ⟨buffer, w, b, hb⟩ := hoff.filled hr
      exact hfill _ buffer _ w n b hsize hb

/-- What a clean-up leaves on the record submits nothing. -/
theorem offers_of_ending {t t' : List Seen} (h : Grows (·.what.ending) t t') :
    offers t' = offers t :=
  h.filterMap_eq fun o ho => by
    obtain ⟨run, o⟩ := o
    cases o <;> first | rfl | exact ho.elim

/-- **Submissions are in range in every run.** Where `malloc` finds no room
for a negative size and `WRITE_FILL_BUFFER` returns no more than it was
given room for, every submission of a session is in range, and so is
every submission of a start that throws, in the state its clean-up
begins with. -/
theorem submissions_in_range (env : Env σ) (m₀ : Machine σ) (mode : Mode) (hidle : Idle m₀)
    (hmalloc : env.Limited)
    (hfill : ∀ s buffer len w n b, 0 ≤ len →
      (env.callback false s .writeFillBuffer buffer len w).1.result = .ok (n, b) → n ≤ len) :
    (∀ m, Course env m₀ mode m → m.InRange env) ∧
      ∀ cause m, start env mode m₀ = (.throw cause, m) →
        ∃ o t, initBody env { m₀ with mutex := true } = (o, t) ∧ t.InRange env ∧
          offers m.trace = offers t.trace := by
  refine ⟨fun m h => h.ranged.inRange hmalloc hfill, fun cause m h => ?_⟩
  have hended : SetUpEnded env m₀ m := ends_throw_of
    (E := fun _ m => SetUpEnded env m₀ m) (start_plain hidle mode) h
  obtain ⟨o, t, hret, hends, hgrows⟩ := hended
  have hranged : Ranged env t := ends_outcome (initBody_ranged hidle) hret hends
  exact ⟨o, t, hret, hranged.inRange hmalloc hfill, offers_of_ending hgrows⟩

/-- A user with three bytes to send, and a heap with room. -/
def sender : Env ℕ := { steady with
  callback := fun _ s type _ len w =>
    (⟨.ok (if type = .writeFillBuffer then (min 3 len, [7, 8, 9]) else (steadyFd type s, [])), []⟩,
      w)
  malloc := fun bytes w => (decide (0 ≤ bytes), w) }

/-- A transfer of each kind, submitted twice. -/
theorem submissions_in_range_sample :
    ∃ m, Session sender (constructed [sampleStream 64 1 1] ⟨64, 4096⟩ 4) .poll
      [reports [⟨0, .completed, [1, 96, 7], 0⟩, ⟨1, .completed, [], 3⟩]] m ∧
      offers m.trace = [(0, 64), (1, 3), (0, 64), (1, 3)] ∧ m.InRange sender := by
  have hidle : Idle (constructed [sampleStream 64 1 1] ⟨64, 4096⟩ 4) :=
    constructed_idle (by decide +kernel)
  obtain ⟨m, hm, hoffers⟩ := exists_session
    (P := fun m => offers m.trace = [(0, 64), (1, 3), (0, 64), (1, 3)]) sender .poll
    [reports [⟨0, .completed, [1, 96, 7], 0⟩, ⟨1, .completed, [], 3⟩]] hidle (by decide +kernel)
  refine ⟨m, hm, hoffers, (submissions_in_range sender _ .poll hidle ?_ ?_).1 m hm.course⟩
  · intro bytes w hneg
    exact decide_eq_false (not_le.mpr hneg)
  · intro s buffer len w n b _ h
    cases h
    exact min_le_right 3 len

end Stream

end SgFtdi
