import SgFtdi.Stream.Construct
import SgFtdi.Stream.Moves.Held
import SgFtdi.Stream.Model.Steady

/-!
# Stream — what the user reads

`read_callback` cuts a completed transfer into messages of
`read_packetsize` and hands over what is behind the first two bytes of
each. What it hands over is therefore a function of what has arrived, in
every run; whether it is the device's payload depends on where the device
puts its status bytes. They are where the engine looks for them when the
device's packets have the size the transfers are cut to, or when a
transfer is no longer than one message.
-/

namespace SgFtdi

namespace Stream

open Prog Relation

variable {σ : Type} {env : Env σ} {m m' m₁ m₂ : Machine σ} {i s : ℕ}
variable {e : FtdiStreamStaticState}

/-! ## What arrives and what is handed over -/

/-- Bytes handed to the user of a stream. -/
def handedOf (s : ℕ) (o : Seen) : Option (List UInt8) :=
  match o.what with
  | .readBuffer t bytes => if t = s then some bytes else none
  | _ => none

/-- What a COMPLETED read transfer of a stream has brought. -/
def arrivedOf (s : ℕ) (o : Seen) : Option (List UInt8) :=
  match o.what with
  | .completed _ t true .completed bytes _ => if t = s then some bytes else none
  | _ => none

/-- **The bytes handed to the user** of a stream as `READ_BUFFER`. -/
def handed (s : ℕ) (t : List Seen) : List UInt8 := (t.filterMap (handedOf s)).flatten

/-- **The contents of the COMPLETED read transfers** of a stream, in
order. -/
def arrived (s : ℕ) (t : List Seen) : List (List UInt8) := t.filterMap (arrivedOf s)

/-- What is handed over of the bytes of one transfer, cut to messages of
`p`. -/
def relayed (p : ℕ) (bytes : List UInt8) : List UInt8 :=
  (deliveries false p bytes).flatMap Prod.snd

/-- What is handed over is what is relayed of all that has arrived. -/
def Machine.Relays (m : Machine σ) (s p : ℕ) : Prop :=
  handed s m.trace = (arrived s m.trace).flatMap (relayed p)

/-- An observation of neither. -/
def Obs.mute : Obs → Prop
  | .readBuffer _ _ => False
  | .completed _ _ _ _ _ _ => False
  | _ => True

theorem Obs.mute.handedOf {o : Seen} (h : o.what.mute) : handedOf s o = none := by
  obtain ⟨run, o⟩ := o
  cases o <;> first | exact h.elim | rfl

theorem Obs.mute.arrivedOf {o : Seen} (h : o.what.mute) : arrivedOf s o = none := by
  obtain ⟨run, o⟩ := o
  cases o <;> first | exact h.elim | rfl

theorem handed_of_mute {t t' : List Seen} (h : Grows (·.what.mute) t t') :
    handed s t' = handed s t := by
  unfold handed
  rw [h.filterMap_eq fun _ ho => ho.handedOf]

theorem arrived_of_mute {t t' : List Seen} (h : Grows (·.what.mute) t t') :
    arrived s t' = arrived s t := h.filterMap_eq fun _ ho => ho.arrivedOf

theorem Machine.Relays.of_eq {p : ℕ} (h : m.Relays s p)
    (h₁ : handed s m'.trace = handed s m.trace) (h₂ : arrived s m'.trace = arrived s m.trace) :
    m'.Relays s p := by
  unfold Machine.Relays
  rw [h₁, h₂]
  exact h

theorem Machine.Relays.of_mute {p : ℕ} (h : m.Relays s p)
    (ht : Grows (·.what.mute) m.trace m'.trace) : m'.Relays s p :=
  h.of_eq (handed_of_mute ht) (arrived_of_mute ht)

/-! ## What is mute -/

theorem mute_of_isAsked {t t' : List Seen} (h : Grows (·.what.isAsked = true) t t') :
    Grows (·.what.mute) t t' := h.mono fun o ho => by
  obtain ⟨run, o⟩ := o
  cases o <;> trivial

theorem Quiet.mute (h : Quiet env m m') : Grows (·.what.mute) m.trace m'.trace :=
  mute_of_isAsked h.frame.trace

theorem Chore.mute (h : Chore env m m') : Grows (·.what.mute) m.trace m'.trace := by
  cases h with
  | user hu => exact (Quiet.single hu).mute
  | wrote _ => exact .refl
  | counted s isReading t callbacks bytes => exact .one trivial
  | ticked now => exact .one trivial

theorem errored_mute (m : Machine σ) (message : Message) :
    Grows (·.what.mute) m.trace (m.errored env message).trace :=
  (errored_trace env m message).mono fun o ho => by rw [ho]; trivial

theorem Fill.mute {n : ℤ} (h : Fill env i e m n m₁) : Grows (·.what.mute) m.trace m₁.trace := by
  cases h with
  | mk _ hq =>
      have hnote : Grows (·.what.mute) m.trace (m.note (.filled i e.transfer.inFlight)).trace :=
        .one trivial
      exact hnote.trans hq.mute

theorem Prepared.mute {n : ℤ} (h : Prepared env i e m n m₁) :
    Grows (·.what.mute) m.trace m₁.trace := by
  cases h with
  | reading _ => exact .refl
  | writing _ hf => exact hf.mute

theorem Submitted.mute (h : Submitted env i m m') : Grows (·.what.mute) m.trace m'.trace := by
  cases h with
  | kept _ => exact .refl
  | idle _ _ _ hp =>
      have hprep := hp.mute
      exact hprep
  | launched _ _ _ hp _ _ =>
      have hprep := hp.mute
      exact hprep.trans (.one trivial)

/-- A confirmation that was taken. -/
theorem Confirm.mute (h : Confirm env i e m true m₁) : Grows (·.what.mute) m.trace m₁.trace := by
  cases h with
  | none _ => exact .refl
  | taken _ _ hq =>
      have hnote : Grows (·.what.mute) m.trace (m.confirming env i e).trace := .one trivial
      exact hnote.trans hq.mute

/-- `write_callback` is mute where the engine goes on. -/
theorem WriteBack.mute (h : WriteBack env i e m m') (hr : m'.shouldRun = true) :
    Grows (·.what.mute) m.trace m'.trace := by
  cases h with
  | off _ => exact .refl
  | stopped _ _ => simp at hr
  | idle _ _ _ hc hf => exact hc.mute.trans hf.mute
  | again _ _ _ hc hf _ _ => exact (hc.mute.trans hf.mute).trans (.one trivial)
  | failed _ _ _ _ _ => simp at hr

/-! ## What one completion hands over -/

theorem Delivery.handed {t : ℕ} {xs : List (ℕ × List UInt8)} (h : Delivery env i t xs m m') :
    Stream.handed s m'.trace =
        Stream.handed s m.trace ++ (if t = s then xs.flatMap Prod.snd else []) ∧
      arrived s m'.trace = arrived s m.trace := by
  induction h with
  | nil => simp
  | @cons n bytes rest m m₁ m₂ hq _ ih =>
      have h₁ := handed_of_mute (s := s) hq.mute
      have h₂ := arrived_of_mute (s := s) hq.mute
      rw [ih.1, ih.2, h₁, h₂]
      refine ⟨?_, ?_⟩
      · by_cases hts : t = s <;> simp [Stream.handed, handedOf, hts]
      · simp [arrived, arrivedOf]

/-- Two bytes hold no payload. -/
theorem relayed_short {p : ℕ} {bytes : List UInt8} (h : bytes.length ≤ 2) :
    relayed p bytes = [] := by
  have hnil : deliveries false p bytes = [] := by
    unfold deliveries
    refine List.filterMap_eq_nil_iff.mpr fun message hmem => ?_
    have hlen := length_le_of_mem_chunks hmem
    unfold messageBytes
    rw [if_neg Bool.false_ne_true, if_neg (by omega)]
    rfl
  rw [relayed, hnil, List.flatMap_nil]

/-- A read transfer that has landed holds the bytes it moved. -/
theorem back_brought {c : Completion} (hread : e.isReading = true)
    (hbuf : e.transfer.buffer.isSome = true) :
    (e.back c).transfer.actualLength = (e.moved c).length ∧ (e.back c).brought = e.moved c := by
  obtain ⟨old, hold⟩ := Option.isSome_iff_exists.mp hbuf
  have hlen : (e.back c).transfer.actualLength = (e.moved c).length := by
    show e.actual c = _
    rw [FtdiStreamStaticState.actual, FtdiStreamStaticState.moved, if_pos hread, if_pos hread]
  refine ⟨hlen, ?_⟩
  unfold FtdiStreamStaticState.brought
  rw [hlen]
  show ((e.land c).transfer.buffer.getD []).take _ = _
  simp [FtdiStreamStaticState.land, hread, hold]

/-- **What is delivered of a landed transfer** without modem status is what
is relayed of the bytes it moved. -/
theorem delivered_back {p : ℕ} {c : Completion} (hread : e.isReading = true)
    (hmodem : e.isModemStatus = false) (hbuf : e.transfer.buffer.isSome = true) :
    ((e.back c).delivered p).flatMap Prod.snd = relayed p (e.moved c) := by
  obtain ⟨hlen, hbrought⟩ := back_brought (c := c) hread hbuf
  have hmod : (e.back c).isModemStatus = false := hmodem
  unfold FtdiStreamStaticState.delivered
  rw [hlen, hbrought, hmod]
  split
  · rfl
  · next hshort =>
      rw [if_neg (by simp), relayed_short (by omega)]
      rfl

/-- **A read transfer that comes back** to a running engine relays what it
brought. -/
theorem ReadBack.relays {p : ℕ} {c : Completion} (hb : ReadBack env c.transfer (e.back c)
      (m.landed e c) m₁) (hen : e.enabled = true) (hread : e.isReading = true)
    (hmodem : e.streamId = s → e.isModemStatus = false)
    (hbuf : e.transfer.buffer.isSome = true) (hp : m.readPacketsize.toNat = p)
    (hr : m₁.shouldRun = true) (h : m.Relays s p) : m₁.Relays s p := by
  cases hb with
  | off hoff => exact absurd hen (Bool.eq_false_iff.mp hoff)
  | stopped _ _ => simp at hr
  | failed _ _ _ _ => simp at hr
  | @again m₀ e₁ _ _ hstatus hd he₁ =>
      have hlast : Grows (·.what.mute) m₀.trace (m₀.launched env c.transfer e₁).trace :=
        .one trivial
      refine Machine.Relays.of_mute ?_ hlast
      have hstatus : c.status = .completed := hstatus
      have hps : (m.landed e c).readPacketsize.toNat = p := hp
      have htouch : ((m.landed e c).touch (e.back c)).trace = (m.landed e c).trace := by
        unfold Machine.touch
        split <;> rfl
      obtain ⟨hhanded, harrived⟩ := hd.handed (s := s)
      rw [hps, htouch] at hhanded
      rw [htouch] at harrived
      unfold Machine.Relays
      rw [hhanded, harrived]
      -- the completion is the one new arrival, if it is of this stream
      have hland : (m.landed e c).trace = m.trace ++
          [⟨m.shouldRun, .completed c.transfer e.streamId true .completed (e.moved c)
            (e.actual c)⟩] := by
        simp [Machine.landed, hread, hstatus]
      have hold : Stream.handed s (m.landed e c).trace = Stream.handed s m.trace := by
        rw [hland]
        simp [Stream.handed, handedOf]
      have hnew : arrived s (m.landed e c).trace =
          arrived s m.trace ++ (if e.streamId = s then [e.moved c] else []) := by
        rw [hland, arrived, List.filterMap_append]
        by_cases hs : e.streamId = s <;> simp [arrived, arrivedOf, hs]
      rw [hold, hnew, List.flatMap_append, h]
      by_cases hs : e.streamId = s
      · have hid : (e.back c).streamId = s := hs
        rw [if_pos hs, if_pos hid, delivered_back hread (hmodem hs) hbuf]
        simp
      · have hid : (e.back c).streamId ≠ s := hs
        rw [if_neg hs, if_neg hid]
        rfl

/-- A write transfer that comes back brings nothing. -/
theorem Machine.Relays.landed {p : ℕ} {c : Completion} (h : m.Relays s p)
    (hwrite : e.isReading = false) : (m.landed e c).Relays s p := by
  have hland : (m.landed e c).trace = m.trace ++
      [⟨m.shouldRun, .completed c.transfer e.streamId false c.status (e.moved c)
        (e.actual c)⟩] := by
    simp [Machine.landed, hwrite]
  refine h.of_eq ?_ ?_
  · rw [hland]
    simp [handed, handedOf]
  · rw [hland]
    simp [arrived, arrivedOf]

/-! ## Every step relays -/

variable {ss : List FtdiStreamEntry} {p : UInt32}

/-- **Everything that arrives is relayed**, as long as the engine runs. -/
structure Relaying (env : Env σ) (ss : List FtdiStreamEntry) (p : UInt32) (s : ℕ) (m : Machine σ) :
    Prop where
  held : m.Held
  configuration : Configuration env ss p m
  relays : m.shouldRun = true → m.Relays s p.toNat

theorem Move.relays (h : Move env m m') (hm : Relaying env ss p s m)
    (hmodem : ∀ stream, ss[s]? = some stream → stream.readIncludeModemStatus = false)
    (hr : m'.shouldRun = true) : m'.Relays s p.toNat := by
  have hrun := h.kept.stays hr
  have hrel := hm.relays hrun
  cases h with
  | chore hc => exact hrel.of_mute hc.mute
  | errored message => simp at hr
  | pollfds fds => exact hrel
  | armed _ _ _ hs => exact hrel.of_mute hs.mute
  | cancelled _ _ _ => exact hrel.of_mute (.one trivial)
  | @completed c m₁ hc =>
      have hbound : Grows (·.what.mute) m₁.trace m₁.boundary.trace := .one trivial
      refine Machine.Relays.of_mute ?_ hbound
      have hr₁ : m₁.shouldRun = true := hr
      cases hc with
      | @read e _ he hfl hread hb =>
          obtain ⟨⟨stream, hstream, hmod, -⟩, -, hbuf⟩ := hm.configuration.entries _ e he
          refine hb.relays (hm.held _ e he hfl) hread (fun hs => ?_) hbuf ?_ hr₁ hrel
          · rw [hmod, hmodem stream (hs ▸ hstream)]
          · rw [hm.configuration.readPacketsize]
      | write he _ hread hb => exact (hrel.landed hread).of_mute (hb.mute hr₁)

theorem Step.relaying (h : Step env m m')
    (hmodem : ∀ stream, ss[s]? = some stream → stream.readIncludeModemStatus = false)
    (hm : Relaying env ss p s m) : Relaying env ss p s m' := by
  refine ⟨h.lives.held hm.held, h.configuration hm.configuration, fun hr => ?_⟩
  have hrel := hm.relays (h.stays hr)
  cases h with
  | handling hh =>
      cases hh with
      | draining hd =>
          cases hd with
          | move hmv => exact hmv.relays hm hmodem hr
          | cleared _ hc => cases hc <;> exact hrel
      | @accepted t q _ _ _ => exact accepted_eq m t q ▸ hrel.of_mute (.one trivial)
      | stopping => exact hrel.of_mute (.one trivial)
      | locked _ _ => exact hrel.of_mute (.one trivial)
      | _ => exact hrel
  | waitFailed errno => simp at hr
  | crashed cause hb => cases hr
  | _ => exact hrel

theorem Setup.relaying (h : Setup env m m')
    (hmodem : ∀ stream, ss[s]? = some stream → stream.readIncludeModemStatus = false)
    (hm : Relaying env ss p s m) : Relaying env ss p s m' := by
  refine ⟨h.held hm.held, h.configuration hm.configuration, fun hr => ?_⟩
  cases h with
  | opening ho =>
      cases ho with
      | move hmv => exact hmv.relays hm hmodem hr
      | watched _ hw =>
          cases hw with
          | added w _ => exact hm.relays hr
          | failed w cause _ => simp at hr
      | noted fd => exact (hm.relays hr).of_mute (.one trivial)
      | _ => exact hm.relays hr
  | created hc =>
      have hrel := hm.relays (hc.stays hr)
      cases hc with
      | mk _ _ _ hready hsub =>
          refine Machine.Relays.of_mute (hrel.of_mute ?_) hsub.mute
          cases hready with
          | reading _ _ _ => exact .refl
          | writing _ _ _ hw =>
              cases hw with
              | added w _ => exact .refl
              | failed w cause _ => exact errored_mute (Machine.withWorld _ w) _

/-- **In every session** what the user is handed is what is relayed of what
has arrived. -/
theorem Session.relays {m₀ : Machine σ} {mode : Mode} {actions : List Action}
    (h : Session env m₀ mode actions m) (hr : m.shouldRun = true) {stream : FtdiStreamEntry}
    (hs : m₀.streams[s]? = some stream) (hmodem : stream.readIncludeModemStatus = false) :
    m.Relays s m₀.readPacketsize.toNat := by
  have hall : ∀ stream', m₀.streams[s]? = some stream' →
      stream'.readIncludeModemStatus = false := by
    intro stream' hs'
    rw [hs, Option.some_inj] at hs'
    exact hs' ▸ hmodem
  have hinv : Relaying env m₀.streams m₀.readPacketsize s m := by
    refine h.inv ?_ (fun _ _ hst => hst.relaying hall) fun _ _ hst => hst.relaying hall
    intro b hb
    refine ⟨hb.held, hb.configuration, fun _ => ?_⟩
    obtain ⟨now, htrace⟩ := hb.trace
    unfold Machine.Relays
    rw [htrace, h.1.trace]
    rfl
  exact hinv.relays hr

/-! ## The device's packets -/

/-- A packet as the device sends it: two status bytes, and a payload. -/
structure Packet where
  status : UInt8 × UInt8
  payload : List UInt8

/-- A packet on the wire. -/
def Packet.bytes (q : Packet) : List UInt8 := q.status.1 :: q.status.2 :: q.payload

/-- **Framed data is relayed exactly**, where it is cut to the size of the
packets. -/
theorem relayed_framed {p : ℕ} (hp : 0 < p) {qs : List Packet}
    (h : Framed p (qs.map Packet.bytes)) :
    relayed p (qs.map Packet.bytes).flatten = qs.flatMap Packet.payload := by
  unfold relayed deliveries
  rw [chunks_flatten hp h]
  clear h
  induction qs with
  | nil => rfl
  | cons q qs ih =>
      rw [List.map_cons, List.filterMap_cons, List.flatMap_cons]
      have hq : messageBytes false q.bytes =
          if q.payload = [] then none else some q.payload := by
        unfold messageBytes Packet.bytes
        cases q.payload <;> simp
      rw [hq]
      by_cases hnil : q.payload = []
      · simp [hnil, ← ih]
      · simp [hnil, ← ih]

/-! ## What is read -/

/-- **Reading delivers exactly the payload** where transfers are cut where
the device framed them. In every session, at every state in which the
engine runs: if the COMPLETED read transfers of a stream without modem
status hold whole packets of the device's size, and either that size is
what the engine cuts to or no transfer is longer than one cut, then the
bytes handed to the user are the payloads of these packets, in order. -/
theorem reading_exact (env : Env σ) (m₀ m : Machine σ) (mode : Mode) (actions : List Action)
    (h : Session env m₀ mode actions m) (hrun : m.shouldRun = true) (s : ℕ)
    (stream : FtdiStreamEntry) (hs : m₀.streams[s]? = some stream)
    (hmodem : stream.readIncludeModemStatus = false) (hsize : 2 < stream.ftdi.maxPacketSize.toNat)
    (packets : List (List Packet))
    (harrived : arrived s m.trace = packets.map fun qs => (qs.map Packet.bytes).flatten)
    (hframed : ∀ qs ∈ packets,
      Framed stream.ftdi.maxPacketSize.toNat (qs.map Packet.bytes))
    (hcut : m₀.readPacketsize = stream.ftdi.maxPacketSize ∨
      ∀ bytes ∈ arrived s m.trace, bytes.length ≤ m₀.readPacketsize.toNat) :
    handed s m.trace = packets.flatMap fun qs => qs.flatMap Packet.payload := by
  have hrelays := h.relays hrun hs hmodem
  have hle : m₀.readPacketsize ≤ stream.ftdi.maxPacketSize := by
    obtain ⟨timeouts, hc⟩ := h.1.constructed
    exact (construct_accepts hc stream (List.mem_of_getElem? hs)).read
  unfold Machine.Relays at hrelays
  rw [hrelays, harrived, List.flatMap_map]
  refine List.flatMap_congr fun qs hqs => ?_
  have hq := hframed qs hqs
  rcases hcut with heq | hshort
  · rw [heq]
    exact relayed_framed (by omega) hq
  · have hlen : (qs.map Packet.bytes).flatten.length ≤ m₀.readPacketsize.toNat :=
      hshort _ (harrived ▸ List.mem_map_of_mem hqs)
    have hcutq := hq.of_le (UInt32.le_iff_toNat_le.mp hle) hlen
    rcases Nat.eq_zero_or_pos m₀.readPacketsize.toNat with hz | hpos
    · -- nothing fits into messages of no byte, and a packet has two
      have hnil : qs = [] := by
        by_contra hne
        obtain ⟨q, qs, rfl⟩ := List.exists_cons_of_ne_nil hne
        have hfit := hcutq.fits q.bytes (by simp)
        rw [hz] at hfit
        exact absurd hfit (by simp [Packet.bytes])
      rw [hnil, hz]
      rfl
    · exact relayed_framed hpos hcutq

/-- A stream on a device whose packets are larger than another's, with
room for two cuts in a transfer. -/
def largeStream : FtdiStreamEntry := { sampleStream 512 1 0 with readPacketsPerTransfer := 2 }

/-- One packet of the larger device. -/
def largePacket : Packet := ⟨(1, 96), List.replicate 126 7⟩

/-- A stream on the smaller device is read exactly, whatever the other
device is. -/
theorem reading_exact_sample :
    ∃ m, Session steady (constructed [sampleStream 64 1 0, largeStream] ⟨64, 4096⟩ 4) .poll
      [reports [⟨0, .completed, [1, 96, 7, 8], 0⟩, ⟨0, .completed, [1, 96, 9], 0⟩]] m ∧
      handed 0 m.trace = [7, 8, 9] := by
  have hidle : Idle (constructed [sampleStream 64 1 0, largeStream] ⟨64, 4096⟩ 4) :=
    constructed_idle (by decide +kernel)
  obtain ⟨m, hm, hrun, harr⟩ := exists_session (P := fun m => m.shouldRun = true ∧
      arrived 0 m.trace = [[1, 96, 7, 8], [1, 96, 9]]) steady .poll
    [reports [⟨0, .completed, [1, 96, 7, 8], 0⟩, ⟨0, .completed, [1, 96, 9], 0⟩]] hidle
    (by decide +kernel)
  refine ⟨m, hm, reading_exact steady _ m .poll _ hm hrun 0 (sampleStream 64 1 0) rfl rfl
    (by decide) [[⟨(1, 96), [7, 8]⟩], [⟨(1, 96), [9]⟩]] harr (fun qs hqs => ?_) (.inl rfl)⟩
  simp only [List.mem_cons, List.not_mem_nil, or_false] at hqs
  rcases hqs with rfl | rfl <;> exact ⟨by decide, by decide, by decide⟩

/-- **Payload is lost** where two devices' packets differ in size: a packet
of the larger device is cut in two, and the two bytes behind the cut are
taken for its status. -/
theorem reading_loses :
    ∃ m, Session steady (constructed [sampleStream 64 1 0, largeStream] ⟨64, 4096⟩ 4) .poll
      [reports [⟨1, .completed, largePacket.bytes, 0⟩]] m ∧
      m.shouldRun = true ∧ arrived 1 m.trace = [largePacket.bytes] ∧
      Framed 512 [largePacket.bytes] ∧ handed 1 m.trace ≠ largePacket.payload := by
  have hidle : Idle (constructed [sampleStream 64 1 0, largeStream] ⟨64, 4096⟩ 4) :=
    constructed_idle (by decide +kernel)
  obtain ⟨m, hm, hrun, harr, hlost⟩ := exists_session (P := fun m => m.shouldRun = true ∧
      arrived 1 m.trace = [largePacket.bytes] ∧ handed 1 m.trace ≠ largePacket.payload)
    steady .poll [reports [⟨1, .completed, largePacket.bytes, 0⟩]] hidle (by decide +kernel)
  exact ⟨m, hm, hrun, harr, ⟨by decide, by decide, by decide +kernel⟩, hlost⟩

end Stream

end SgFtdi
