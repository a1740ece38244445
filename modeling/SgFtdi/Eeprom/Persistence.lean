import SgFtdi.Eeprom.Device
import SgFtdi.Eeprom.RoundTrip

/-!
# An EEPROM that is programmed

A device keeps words, and its addresses wrap around at the size of its
EEPROM. An erased device tells its size by that, so the image that is made
for it fits, and it is read back with the right size: the fields that an
EEPROM was programmed with are found by whoever reads the device.
-/

namespace SgFtdi

namespace Ftdi

open Prog

variable {σ : Type} {pipe : Pipe σ} {type : ChipType} {e : Eeprom} {n count : ℕ}
  {works : σ → Prop} {words : σ → ℕ → UInt16}

/-! ## Devices -/

/-- **A device with an EEPROM** of `count` words, while it `works`. -/
structure DeviceLaws (pipe : Pipe σ) (type : ChipType) (count : ℕ) (works : σ → Prop)
    (words : σ → ℕ → UInt16) : Prop where
  read : ∀ w i, works w → i < 0x100 →
    (pipe.controlIn sioReadEepromRequest 0 i 2 w).1 =
        ((2 : ℤ), [(words w (i % count)).toUInt8, (words w (i % count) >>> 8).toUInt8]) ∧
      works (pipe.controlIn sioReadEepromRequest 0 i 2 w).2 ∧
      words (pipe.controlIn sioReadEepromRequest 0 i 2 w).2 = words w
  write : ∀ w i (v : UInt16), works w → i < 0x100 → (type = .type230X → i < 0x40 ∨ 0x50 ≤ i) →
    (pipe.controlOut sioWriteEepromRequest v.toNat i w).1 = 0 ∧
      works (pipe.controlOut sioWriteEepromRequest v.toNat i w).2 ∧
      words (pipe.controlOut sioWriteEepromRequest v.toNat i w).2 =
        Function.update (words w) (i % count) v
  erase : ∀ w, works w → type ≠ .typeR → type ≠ .type230X →
    (pipe.controlOut sioEraseEepromRequest 0 0 w).1 = 0 ∧
      works (pipe.controlOut sioEraseEepromRequest 0 0 w).2 ∧
      words (pipe.controlOut sioEraseEepromRequest 0 0 w).2 = fun _ => 0xffff
  command : ∀ w request value index, works w →
    request = sioResetRequest ∨ request = sioSetLatencyTimerRequest →
    (pipe.controlOut request value index w).1 = 0 ∧
      works (pipe.controlOut request value index w).2 ∧
      words (pipe.controlOut request value index w).2 = words w
  poll : ∀ w index, works w →
    (pipe.controlIn sioPollModemStatusRequest 0 index 2 w).1.1 = 2 ∧
      works (pipe.controlIn sioPollModemStatusRequest 0 index 2 w).2 ∧
      words (pipe.controlIn sioPollModemStatusRequest 0 index 2 w).2 = words w

theorem after_controlOut_bind {α : Type} {request value index : ℕ} {k : ℤ → Job σ α}
    {R : α → Programmer σ → Prop} {s : Programmer σ} :
    After (controlOut pipe request value index >>= k) R s ↔
      After (k (pipe.controlOut request value index s.world).1) R
        { s with world := (pipe.controlOut request value index s.world).2 } := Iff.rfl

theorem after_controlIn_bind {α : Type} {request value index length : ℕ}
    {k : ℤ × List UInt8 → Job σ α} {R : α → Programmer σ → Prop} {s : Programmer σ} :
    After (controlIn pipe request value index length >>= k) R s ↔
      After (k (pipe.controlIn request value index length s.world).1) R
        { s with world := (pipe.controlIn request value index length s.world).2 } := Iff.rfl

/-- The image that a device shows. -/
def shown (words : ℕ → UInt16) (count : ℕ) : Image where
  cell a :=
    let v := words (a.val / 2 % count)
    if a.val % 2 = 0 then v.toUInt8 else (v >>> 8).toUInt8

section Shown

variable {f g : ℕ → UInt16}

theorem get_shown_low {i : ℕ} (hi : i < 0x80) :
    (shown f count).get (i * 2) = (f (i % count)).toUInt8 := by
  have hhalf : i * 2 / 2 = i := by omega
  unfold Cells.get shown
  simp only [dif_pos (show i * 2 < 256 by omega), if_pos (show i * 2 % 2 = 0 by omega), hhalf]

theorem get_shown_high {i : ℕ} (hi : i < 0x80) :
    (shown f count).get (i * 2 + 1) = (f (i % count) >>> 8).toUInt8 := by
  have hhalf : (i * 2 + 1) / 2 = i := by omega
  unfold Cells.get shown
  simp only [dif_pos (show i * 2 + 1 < 256 by omega), if_neg (show ¬(i * 2 + 1) % 2 = 0 by omega),
    hhalf]

/-- A word with two bytes of an image. -/
theorem toUInt8_wordAt (buf : Image) (i : ℕ) :
    (wordAt buf i).toUInt8 = buf.get (i * 2) ∧
      (wordAt buf i >>> 8).toUInt8 = buf.get (i * 2 + 1) := by
  have hlow := (buf.get (i * 2)).toNat_lt
  have hhigh := (buf.get (i * 2 + 1)).toNat_lt
  have hdown : (wordAt buf i >>> 8).toNat = (wordAt buf i).toNat / 0x100 := by
    rw [UInt16.toNat_shiftRight, Nat.shiftRight_eq_div_pow]
    rfl
  refine ⟨?_, ?_⟩
  · rw [← UInt8.toNat_inj, UInt16.toNat_toUInt8, wordAt, toNat_word]
    omega
  · rw [← UInt8.toNat_inj, UInt16.toNat_toUInt8, hdown, wordAt, toNat_word]
    omega

/-- What a device shows is what its words are. -/
theorem get_shown_of_word {a : ℕ} (ha : a < 0x100) {buf : Image}
    (h : f (a / 2 % count) = wordAt buf (a / 2)) : (shown f count).get a = buf.get a := by
  obtain ⟨hlow, hhigh⟩ := toUInt8_wordAt buf (a / 2)
  rcases Nat.mod_two_eq_zero_or_one a with heven | hodd
  · have haddr : a / 2 * 2 = a := by omega
    have hget : (shown f count).get (a / 2 * 2) = _ := get_shown_low (by omega)
    rw [haddr] at hget hlow
    rw [hget, h, hlow]
  · have haddr : a / 2 * 2 + 1 = a := by omega
    have hget : (shown f count).get (a / 2 * 2 + 1) = _ := get_shown_high (by omega)
    rw [haddr] at hget hhigh
    rw [hget, h, hhigh]

theorem get_shown_congr {a b : ℕ} (ha : a < 0x100) (hb : b < 0x100) (hparity : a % 2 = b % 2)
    (h : f (a / 2 % count) = g (b / 2 % count)) :
      (shown f count).get a = (shown g count).get b := by
  unfold Cells.get shown
  simp only [dif_pos ha, dif_pos hb, hparity, h]

end Shown

/-! ## Reading -/

/-- Reading from the word `i` on. -/
theorem readWords_after (hlaws : DeviceLaws pipe type count works words) :
    ∀ (turns i : ℕ) {s : Programmer σ}, works s.world → i + turns ≤ 0x80 →
      After (readWords pipe turns i) (fun _ t => ∃ w out, works w ∧ words w = words s.world ∧
        (∀ a, out.get a = if i * 2 ≤ a ∧ a < (i + turns) * 2 then
          (shown (words s.world) count).get a else s.eeprom.buf.get a) ∧
        t = { s with eeprom := { s.eeprom with buf := out }, world := w }) s
  | 0, i, s, hworks, _ =>
      ⟨(), s, rfl, s.world, s.eeprom.buf, hworks, rfl, fun a => (if_neg (by omega)).symm, rfl⟩
  | turns + 1, i, s, hworks, hturns => by
      obtain ⟨hdata, hworks', hwords⟩ := hlaws.read s.world i hworks (by omega)
      unfold readWords
      rw [after_controlIn_bind]
      simp only [hdata]
      rw [setBuf, after_setEeprom_bind, if_neg (by decide)]
      refine (readWords_after hlaws turns (i + 1) hworks' (by omega)).mono ?_
      rintro _ _ ⟨w, out, hw, hwords', hout, rfl⟩
      refine ⟨w, out, hw, hwords'.trans hwords, fun a => ?_, rfl⟩
      rw [hout, hwords]
      have htake : [(words s.world (i % count)).toUInt8,
          (words s.world (i % count) >>> 8).toUInt8].take 2 =
            [(shown (words s.world) count).get (i * 2),
              (shown (words s.world) count).get (i * 2 + 1)] := by
        rw [get_shown_low (by omega), get_shown_high (by omega)]
        rfl
      -- this turn writes two bytes, and the rest is for the turns to come
      rw [htake, Cells.get_write_pair (by omega)]
      by_cases hlow : a = i * 2
      · subst hlow
        rw [if_neg (by omega), if_pos rfl, if_pos (by omega)]
      · by_cases hhigh : a = i * 2 + 1
        · subst hhigh
          rw [if_neg (by omega), if_neg hlow, if_pos rfl, if_pos (by omega)]
        · rw [if_neg hlow, if_neg hhigh]
          by_cases hrest : (i + 1) * 2 ≤ a ∧ a < (i + 1 + turns) * 2
          · rw [if_pos hrest, if_pos (by omega)]
          · rw [if_neg hrest, if_neg (by omega)]

/-- **Reading a device**, before its size is guessed. -/
theorem readEeprom_after (hlaws : DeviceLaws pipe type count works words) {s : Programmer σ}
    (hdev : s.usbDev = true) (hworks : works s.world)
    (hend : s.type ≠ .typeR →
      0 ∈ imageString { s.eeprom with buf := shown (words s.world) count }) :
    After (ftdiReadEeprom pipe) (fun _ t => ∃ w, works w ∧ words w = words s.world ∧
      t = { s with
        world := w
        eeprom := { s.eeprom with
          buf := shown (words s.world) count
          size := if s.type = .typeR then 0x80
            else guessSize { s.eeprom with buf := shown (words s.world) count } } }) s := by
  unfold ftdiReadEeprom
  rw [after_look_bind]
  simp only []
  rw [if_neg (by rw [hdev]; decide)]
  refine (readWords_after hlaws (0x100 / 2) 0 hworks (by decide)).bind ?_
  rintro _ _ ⟨w, out, hw, hwords, hout, rfl⟩
  obtain rfl : out = shown (words s.world) count :=
    Cells.ext_get fun a ha => (hout a).trans (if_pos (by omega))
  rw [after_ite]
  refine ⟨fun hR => ⟨(), _, rfl, w, hw, hwords, by rw [if_pos hR]⟩, fun hR => ?_⟩
  rw [after_look_bind]
  simp only []
  rw [if_neg (not_not.mpr (hend hR))]
  exact ⟨(), _, rfl, w, hw, hwords, by rw [if_neg hR]⟩

/-! ## Writing -/

/-- The words that are written. -/
def Writable (type : ChipType) (bound k : ℕ) : Prop :=
  k < bound ∧ ¬(type = .type230X ∧ 0x40 ≤ k ∧ k < 0x50)

/-- Writing from the word `i` on. -/
theorem writeWords_after (hlaws : DeviceLaws pipe type count works words) {bound : ℕ}
    (hbound : bound ≤ 0x80) (hcount : bound ≤ count) (hlarge : type = .type230X → bound = 0x80) :
    ∀ (turns i : ℕ) {s : Programmer σ}, works s.world → bound ≤ i + turns →
      (type = .type230X → i ≤ 0x40 ∨ 0x50 < i) →
        After (writeWords pipe type bound turns i) (fun _ t => ∃ w, works w ∧
          t = { s with world := w } ∧
          (∀ k, i ≤ k → Writable type bound k → words w k = wordAt s.eeprom.buf k) ∧
          ∀ k, ¬(i ≤ k ∧ Writable type bound k) → words w k = words s.world k) s
  | 0, i, s, hworks, hturns, _ =>
      ⟨(), s, rfl, s.world, hworks, rfl, fun k hi hk => absurd hk.1 (by omega), fun _ _ => rfl⟩
  | turns + 1, i, s, hworks, hturns, hskip => by
      unfold writeWords
      rw [after_ite]
      refine ⟨fun hi => ?_, fun hi => ⟨(), s, rfl, s.world, hworks, rfl,
        fun k hik hk => absurd hk.1 (by omega), fun _ _ => rfl⟩⟩
      simp only []
      -- the word that is written: a 230X jumps over its reserved section
      obtain ⟨i', hi'⟩ : ∃ i', (if type = .type230X ∧ i = 0x40 then 0x50 else i) = i' := ⟨_, rfl⟩
      rw [hi']
      have hnext : i ≤ i' ∧ Writable type bound i' ∧
          ∀ k, i ≤ k → k < i' → ¬ Writable type bound k := by
        by_cases hat : type = .type230X ∧ i = 0x40
        · rw [if_pos hat] at hi'
          have hb := hlarge hat.1
          exact ⟨by omega, ⟨by omega, by omega⟩,
            fun k hk hk' hw => hw.2 ⟨hat.1, by omega, by omega⟩⟩
        · rw [if_neg hat] at hi'
          refine ⟨by omega, ⟨by omega, fun h => ?_⟩, fun k hk hk' => by omega⟩
          rcases hskip h.1 with hle | hgt
          · exact hat ⟨h.1, by omega⟩
          · omega
      obtain ⟨hle, hwritable, hpassed⟩ := hnext
      have hlt := hwritable.1
      obtain ⟨hret, hworks', hwords⟩ := hlaws.write s.world i' (wordAt s.eeprom.buf i') hworks
        (by omega) fun htype => by
          have hno : ¬(0x40 ≤ i' ∧ i' < 0x50) := fun h => hwritable.2 ⟨htype, h⟩
          omega
      rw [Nat.mod_eq_of_lt (by omega)] at hwords
      rw [after_look_bind, if_neg (by omega), after_controlOut_bind, hret, if_neg (by decide)]
      refine (writeWords_after hlaws hbound hcount hlarge turns (i' + 1) hworks' (by omega)
        fun htype => ?_).mono ?_
      · have hno : ¬(0x40 ≤ i' ∧ i' < 0x50) := fun h => hwritable.2 ⟨htype, h⟩
        have hb := hlarge htype
        omega
      rintro _ _ ⟨w, hw, rfl, hwritten, hkept⟩
      refine ⟨w, hw, rfl, fun k hik hk => ?_, fun k hk => ?_⟩
      · rcases Nat.lt_trichotomy k i' with hbefore | rfl | hafter
        · exact absurd hk (hpassed k hik hbefore)
        · rw [hkept k (by omega)]
          show words _ k = _
          rw [hwords, Function.update_self]
        · exact hwritten k hafter hk
      · have hne : k ≠ i' := fun h => hk ⟨by omega, h ▸ hwritable⟩
        rw [hkept k fun h => hk ⟨by omega, h.2⟩]
        show words _ k = _
        rw [hwords, Function.update_of_ne hne]

/-- A reset keeps what is on the device. -/
theorem reset_after (hlaws : DeviceLaws pipe type count works words) {s : Programmer σ}
    (hdev : s.usbDev = true) (hworks : works s.world) :
    After (ftdiUsbReset pipe) (fun _ t => ∃ w, works w ∧ words w = words s.world ∧
      t = { s with readbufferOffset := 0, readbufferRemaining := 0, world := w }) s := by
  obtain ⟨hret, hworks', hwords⟩ :=
    hlaws.command s.world sioResetRequest sioResetSio s.index hworks (.inl rfl)
  unfold ftdiUsbReset
  rw [after_look_bind]
  rw [if_neg (by rw [hdev]; decide), after_controlOut_bind, hret, if_neg (by decide)]
  exact ⟨(), _, rfl, _, hworks', hwords, rfl⟩

theorem pollModemStatus_after (hlaws : DeviceLaws pipe type count works words) {s : Programmer σ}
    (hdev : s.usbDev = true) (hworks : works s.world) :
    After (ftdiPollModemStatus pipe) (fun _ t => ∃ w, works w ∧ words w = words s.world ∧
      t = { s with world := w }) s := by
  obtain ⟨hret, hworks', hwords⟩ := hlaws.poll s.world s.index hworks
  unfold ftdiPollModemStatus
  rw [after_look_bind]
  simp only []
  rw [if_neg (by rw [hdev]; decide), after_controlIn_bind]
  simp only [hret]
  rw [if_neg (by decide)]
  exact ⟨_, _, rfl, _, hworks', hwords, rfl⟩

theorem setLatencyTimer_after (hlaws : DeviceLaws pipe type count works words) {s : Programmer σ}
    (hdev : s.usbDev = true) (hworks : works s.world) {latency : UInt8} (hlatency : ¬ latency < 1) :
    After (ftdiSetLatencyTimer pipe latency) (fun _ t => ∃ w, works w ∧ words w = words s.world ∧
      t = { s with world := w }) s := by
  obtain ⟨hret, hworks', hwords⟩ :=
    hlaws.command s.world sioSetLatencyTimerRequest latency.toNat s.index hworks (.inr rfl)
  unfold ftdiSetLatencyTimer
  rw [after_look_bind]
  rw [if_neg hlatency, if_neg (by rw [hdev]; decide), after_controlOut_bind, hret,
    if_neg (by decide)]
  exact ⟨_, _, rfl, _, hworks', hwords, rfl⟩

/-- **Writing an image** to a device, which then shows it. -/
theorem writeEeprom_after {s : Programmer σ} (hlaws : DeviceLaws pipe s.type count works words)
    (hfitting : Fitting s.type n) (hcount : n / 2 ≤ count) (hdev : s.usbDev = true)
    (hinit : s.eeprom.initializedForConnectedDevice ≠ 0) (hsize : s.eeprom.size = n)
    (hworks : works s.world) :
    After (ftdiWriteEeprom pipe) (fun _ t => works t.world ∧ t.usbDev = true ∧ t.type = s.type ∧
      ∀ a < n, (shown (words t.world) count).get a =
        (withFactory s.type (shown (words s.world) count) s.eeprom.buf).get a) s := by
  obtain ⟨-, -, -, hn, hn', heven⟩ := hfitting.bounds
  unfold ftdiWriteEeprom
  rw [after_look_bind]
  simp only []
  rw [if_neg (by rw [hdev]; decide), if_neg hinit]
  -- three commands go first, and none of them touches a word
  refine (reset_after hlaws hdev hworks).bind ?_
  rintro _ _ ⟨w₁, hw₁, hwords₁, rfl⟩
  refine (pollModemStatus_after hlaws (by exact hdev) hw₁).bind ?_
  rintro _ _ ⟨w₂, hw₂, hwords₂, rfl⟩
  refine (setLatencyTimer_after hlaws (by exact hdev) hw₂ (by decide)).bind ?_
  rintro _ _ ⟨w₃, hw₃, hwords₃, rfl⟩
  have hbound : (Int.tdiv s.eeprom.size 2).toNat = n / 2 := by
    rw [hsize]
    rfl
  rw [hbound]
  refine (writeWords_after hlaws (by omega) hcount (fun htype => by
    rw [hfitting.large htype]) (n / 2) 0 hw₃ (by omega) fun _ => .inl (by decide)).mono ?_
  rintro _ _ ⟨w, hw, rfl, hwritten, hkept⟩
  refine ⟨hw, hdev, rfl, fun a ha => ?_⟩
  have hwords : words w₃ = words s.world := hwords₃.trans (hwords₂.trans hwords₁)
  have hmod : a / 2 % count = a / 2 := Nat.mod_eq_of_lt (by omega)
  -- the reserved section is still as it was, the rest is as written
  by_cases hin : s.type = .type230X ∧ 0x80 ≤ a ∧ a < 0xa0
  · rw [get_withFactory hin.1 hin.2.1 hin.2.2]
    refine get_shown_congr (by omega) (by omega) rfl ?_
    rw [hmod, hkept _ fun h => h.2.2 ⟨hin.1, by omega, by omega⟩]
    exact congrFun hwords _
  · rw [get_withFactory_of_out fun htype => by
      by_contra hno
      exact hin ⟨htype, by omega⟩]
    refine get_shown_of_word (by omega) ?_
    rw [hmod]
    exact hwritten _ (Nat.zero_le _) ⟨by omega, fun h => hin ⟨h.1, by omega⟩⟩

/-! ## Erasing -/

/-- The type of EEPROM that is found. -/
def detected (type : ChipType) (count : ℕ) : ℤ :=
  if type = .typeR ∨ type = .type230X then 0
  else if count = 0x40 then 0x46
  else if count = 0x80 then 0x56
  else 0x66

/-- The sizes of an EEPROM that is not part of its chip. -/
def External (count : ℕ) : Prop := count = 0x40 ∨ count = 0x80 ∨ count = 0x100

theorem readLocation_after (hlaws : DeviceLaws pipe type count works words) {s : Programmer σ}
    (hdev : s.usbDev = true) (hworks : works s.world) {i : ℕ} (hi : i < 0x100) :
    After (ftdiReadEepromLocation pipe i) (fun v t => v = words s.world (i % count) ∧ ∃ w, works w ∧
      words w = words s.world ∧ t = { s with world := w }) s := by
  obtain ⟨hdata, hworks', hwords⟩ := hlaws.read s.world i hworks hi
  have hparts : word (words s.world (i % count)).toUInt8 (words s.world (i % count) >>> 8).toUInt8 =
      words s.world (i % count) := word_parts _
  unfold ftdiReadEepromLocation
  rw [after_look_bind, if_neg (by rw [hdev]; decide), after_ask_bind]
  simp only [hdata]
  rw [if_neg (by decide), after_pure]
  exact ⟨hparts, _, hworks', hwords, rfl⟩

/-- **The type is found**, as the magic word shows where the addresses have
wrapped around to. -/
theorem detectChip_after (hlaws : DeviceLaws pipe type count works words) {s : Programmer σ}
    (hcount : External count) (hdev : s.usbDev = true) (hworks : works s.world)
    (hwords : words s.world = Function.update (fun _ => 0xffff) (0xc0 % count) magic) :
    After (detectChip pipe) (fun v t =>
      v = (if count = 0x40 then 0x46 else if count = 0x80 then 0x56 else 0x66) ∧
        ∃ w, works w ∧ t = { s with world := w }) s := by
  have hother : ∀ k, k ≠ 0xc0 % count → words s.world k = 0xffff := fun k hk => by
    rw [hwords, Function.update_of_ne hk]
  have hmagic : words s.world (0xc0 % count) = magic := by
    rw [hwords, Function.update_self]
  unfold detectChip
  refine (readLocation_after hlaws hdev hworks (by decide)).rescue.bind ?_
  rintro _ _ ⟨rfl, w₁, hw₁, hwords₁, rfl⟩
  -- the magic word shows up at the first address that wraps around to it
  rcases hcount with rfl | rfl | rfl
  · rw [if_pos hmagic]
    exact ⟨_, _, rfl, rfl, w₁, hw₁, rfl⟩
  · rw [hother _ (by decide), if_neg (by decide)]
    refine (readLocation_after hlaws (by exact hdev) hw₁ (by decide)).rescue.bind ?_
    rintro _ _ ⟨rfl, w₂, hw₂, hwords₂, rfl⟩
    rw [hwords₁, if_pos hmagic]
    exact ⟨_, _, rfl, rfl, w₂, hw₂, rfl⟩
  · rw [hother _ (by decide), if_neg (by decide)]
    refine (readLocation_after hlaws (by exact hdev) hw₁ (by decide)).rescue.bind ?_
    rintro _ _ ⟨rfl, w₂, hw₂, hwords₂, rfl⟩
    rw [hwords₁, hother _ (by decide), if_neg (by decide)]
    refine (readLocation_after hlaws (by exact hdev) hw₂ (by decide)).rescue.bind ?_
    rintro _ _ ⟨rfl, w₃, hw₃, hwords₃, rfl⟩
    rw [hwords₂, hwords₁, if_pos hmagic]
    exact ⟨_, _, rfl, rfl, w₃, hw₃, rfl⟩

/-- **Erasing a device**, and finding out its type. -/
theorem eraseEeprom_after {s : Programmer σ} (hlaws : DeviceLaws pipe s.type count works words)
    (hcount : s.type ≠ .typeR → s.type ≠ .type230X → External count) (hdev : s.usbDev = true)
    (hworks : works s.world) :
    After (ftdiEraseEeprom pipe) (fun _ t => ∃ w, works w ∧
      t = { s with eeprom := { s.eeprom with chip := detected s.type count }, world := w }) s := by
  unfold ftdiEraseEeprom
  rw [after_look_bind]
  rw [if_neg (by rw [hdev]; decide), after_ite]
  -- a chip with its EEPROM inside has nothing to erase
  refine ⟨fun hinner => ⟨(), _, rfl, s.world, hworks, by rw [detected, if_pos hinner]⟩,
    fun houter => ?_⟩
  have hR : s.type ≠ .typeR := fun h => houter (.inl h)
  have hX : s.type ≠ .type230X := fun h => houter (.inr h)
  obtain ⟨hret, hworks₁, hwords₁⟩ := hlaws.erase s.world hworks hR hX
  obtain ⟨hret', hworks₂, hwords₂⟩ := hlaws.write _ 0xc0 magic hworks₁ (by decide)
    fun h => absurd h hX
  rw [after_controlOut_bind, hret, if_neg (by decide), after_controlOut_bind, hret',
    if_neg (by decide)]
  refine (detectChip_after hlaws (hcount hR hX) (by exact hdev) hworks₂
    (hwords₂.trans (by rw [hwords₁]))).bind ?_
  rintro _ _ ⟨rfl, w, hw, rfl⟩
  obtain ⟨hret₃, hworks₃, -⟩ := hlaws.erase w hw hR hX
  rw [after_setEeprom_bind, after_controlOut_bind]
  simp only [hret₃]
  rw [if_neg (by decide)]
  exact ⟨(), _, rfl, _, hworks₃, by rw [detected, if_neg houter]⟩

/-! ## The size that is guessed -/

/-- The user's data leaves the bytes alone by which the halves and quarters of
a large image differ. -/
def Guessable (type : ChipType) (n : ℕ) (e : Eeprom) : Prop :=
  n = 0x100 → ¬ UserByte e 0x48 ∧ ¬ UserByte e (if type = .type230X then 0x21 else 0x88)

theorem strrchr_lt {s : CString} {c : UInt8} {i : ℕ} (h : strrchr s c = some i) :
    i < s.bytes.length := by
  have hmem := List.mem_of_find?_eq_some h
  rwa [List.mem_reverse, List.mem_range] at hmem

/-- A string ends at a zero. -/
theorem length_cString_le {bytes : List UInt8} {z : ℕ} (h : bytes[z]? = some 0) :
    (cString bytes).bytes.length ≤ z := by
  by_contra hlt
  rw [not_le] at hlt
  have hprefix : (cString bytes).bytes <+: bytes := List.takeWhile_prefix _
  have hget : (cString bytes).bytes[z]? = some 0 := by
    rw [← h]
    exact (List.getElem?_eq_getElem hlt).trans (List.prefix_iff_getElem?.mp hprefix z hlt).symm
  exact (cString bytes).noZero (List.mem_of_getElem? hget)

theorem ImageOf.congr {out out' : Image} (h : ImageOf type e n out) (hfitting : Fitting type n)
    (huser : UserDataFits type n e) (hsame : ∀ a < n, out'.get a = out.get a) :
    ImageOf type e n out' := by
  obtain ⟨hfree, hbase, hend, hn, hn', heven⟩ := hfitting.bounds
  obtain ⟨hstart, hstart'⟩ := freeStart_range type
  have hword : ∀ k, k * 2 + 1 < n → wordAt out' k = wordAt out k := fun k hk => by
    rw [wordAt, wordAt, hsame _ (by omega), hsame _ hk]
  refine {
    fields := fun a ha => (hsame a (by omega)).trans (h.fields a ha)
    manufacturer := h.manufacturer.congr (hsame _ (by omega)) (hsame _ (by omega))
      fun a _ ha => hsame a (by omega)
    product := h.product.congr (hsame _ (by omega)) (hsame _ (by omega))
      fun a _ ha => hsame a (by omega)
    serial := h.serial.congr (hsame _ (by omega)) (hsame _ (by omega))
      fun a _ ha => hsame a (by omega)
    userData := fun userData hdata hpos => ?_
    free := fun a hlow hhigh hno => (hsame a (by omega)).trans (h.free a hlow hhigh hno)
    checksum := ?_ }
  · obtain ⟨haddr, hlast, -⟩ := huser userData hdata hpos
    rw [← h.userData userData hdata hpos]
    exact Cells.read_congr fun a _ ha => hsame a (by omega)
  · rw [hword _ (by omega), h.checksum]
    refine mixWords_congr _ fun k hk => (hword k ?_).symm
    rcases lt_of_mem_checksumWords hk with hlt | ⟨htype, rfl⟩
    · omega
    · rw [hfitting.large htype]
      decide

section Guess

variable (hfitting : Fitting type n) (hsize : e.size = n) (hfit : StringsFit type e)

include hfitting hsize hfit

/-- Each image has a zero near its start. -/
theorem generated_unused : (generated type e).get (unusedAt type) = 0 := by
  obtain ⟨hfree, hbase, -, -, -, -⟩ := hfitting.bounds
  obtain ⟨hstart, -⟩ := freeStart_range type
  have hat : 0 < unusedAt type ∧ unusedAt type < 0x14 + 4 ∧ unusedAt type ≠ 0x0A ∧
      (unusedAt type < 2 ∨ 0x0A < unusedAt type) ∧
        (unusedAt type < 0x0E ∨ 0x13 < unusedAt type) := by
    cases type <;> decide
  have hlow : unusedAt type < (stringsStart type).toNat % n := by
    rcases hfitting.sized with rfl | rfl <;> cases type <;> decide
  rw [generated_eq, get_putSpecific (.inr (.inr (.inr rfl))), get_putUseSerial_of_ne hat.2.2.1,
    get_common hfitting hsize hfit hat.1 hlow hat.2.2.2.2,
    (headed_putHeader type e (emptied type e.buf)).kept _ hat.2.2.2.1]
  unfold emptied
  split
  · rw [Cells.get_fill, Cells.get_fill, if_neg (by omega), if_pos (by omega)]
  · rw [Cells.get_fill, if_pos (by omega)]

/-- The power byte of an image is not zero. -/
theorem generated_power : (generated type e).get 0x08 ≠ 0 := by
  obtain ⟨hfree, hbase, -, -, -, -⟩ := hfitting.bounds
  obtain ⟨hstart, -⟩ := freeStart_range type
  have hbits : ∀ self wakeup : Bool, putBits (putBits 0x80 0x40 self) 0x20 wakeup ≠ 0 := by decide
  rw [get_generated (.inl ⟨by decide, by decide⟩),
    get_common hfitting hsize hfit (by decide) (by omega) (by decide),
    (headed_putHeader type e (emptied type e.buf)).power]
  exact hbits _ _

/-- The type byte of the first string on a 230X. -/
theorem ImageOf.stringType {out : Image} (h : ImageOf type e n out) (htype : type = .type230X) :
    out.get 0xa1 = 0x03 := by
  obtain ⟨hstart, -⟩ := freeStart_range type
  obtain ⟨p, hp, hbase, hend, hread⟩ := h.manufacturer.place
  rw [h.fields 0x0E (by omega), generated_first hfitting hsize hfit] at hp
  have hlarge := hfitting.large htype
  subst htype hlarge
  obtain rfl : 0xa0 = p := hp
  have hlen := length_encoded e.manufacturer
  have hmem : ∀ j, j < (encoded e.manufacturer).length →
      (encoded e.manufacturer)[j]? = some (out.get (0xa0 + j)) := by
    intro j hj
    rw [← hread, Cells.read, List.getElem?_map, List.getElem?_range hj]
    rfl
  exact (Option.some.inj (hmem 1 (by omega))).symm

/-- **The size of an image is guessed** from what a device shows. -/
theorem ImageOf.guess {out : Image} (h : ImageOf type e n out) (hR : type ≠ .typeR)
    (hguess : Guessable type n e) (hwrap : n = 0x80 → ∀ a < 0x80, out.get (0x80 + a) = out.get a)
    {d : Eeprom} (hd : d.buf = out) : 0 ∈ imageString d ∧ guessSize d = n := by
  obtain ⟨hfree, hbase, hend, hn, hn', heven⟩ := hfitting.bounds
  obtain ⟨hstart, hstart'⟩ := freeStart_range type
  have hunused : unusedAt type < freeStart type := by
    cases type <;> first | exact absurd rfl hR | decide
  have hzero : (imageString d)[unusedAt type]? = some 0 := by
    rw [imageString, List.getElem?_append_left (by rw [Cells.length_read]; omega), Cells.read,
      List.getElem?_map, List.getElem?_range (by omega), hd]
    show some (out.get (0 + unusedAt type)) = some 0
    rw [Nat.zero_add, h.fields _ hunused, generated_unused hfitting hsize hfit]
  refine ⟨List.mem_of_getElem? hzero, ?_⟩
  -- the string ends at that zero, so no `0xff` is found at its very end
  have hlast : strrchr (cString (imageString d)) 0xff ≠ some (0x100 - 1) := fun hfound => by
    have hlt := strrchr_lt hfound
    have hle := length_cString_le hzero
    omega
  unfold guessSize
  rw [if_neg hlast, hd]
  have hpower : out.get 0x08 ≠ 0 := by
    rw [h.fields _ (by omega)]
    exact generated_power hfitting hsize hfit
  rcases hfitting.sized with rfl | rfl
  · have hhalves : out.read 0 0x80 = out.read 0x80 0x80 :=
      List.map_congr_left fun a ha => by
        rw [Nat.zero_add]
        exact (hwrap rfl a (List.mem_range.mp ha)).symm
    rw [if_pos hhalves]
    rfl
  · obtain ⟨hquarter, hhalf⟩ := hguess rfl
    have hend' : 0x80 ≤ freeEnd type 0x100 := by cases type <;> decide
    -- a byte that is not zero stands against one that the user left free
    have hhalves : out.read 0 0x80 ≠ out.read 0x80 0x80 := by
      intro hsame
      by_cases htype : type = .type230X
      · rw [if_pos htype] at hhalf
        have heq : out.get 0x21 = out.get 0xa1 := Cells.read_inj hsame (show 0x21 < 0x80 by decide)
        rw [h.free _ hstart' (by omega) hhalf, h.stringType hfitting hsize hfit htype] at heq
        exact absurd heq (by decide)
      · rw [if_neg htype] at hhalf
        have heq : out.get 0x08 = out.get 0x88 := Cells.read_inj hsame (show 0x08 < 0x80 by decide)
        have hlarge : 0x94 ≤ freeEnd type 0x100 := by
          cases type <;> first | exact absurd rfl htype | decide
        rw [h.free _ (by omega) (by omega) hhalf] at heq
        exact hpower heq
    have hquarters : out.read 0 0x40 ≠ out.read 0x40 0x40 := by
      intro hsame
      have heq : out.get 0x08 = out.get 0x48 := Cells.read_inj hsame (show 0x08 < 0x40 by decide)
      rw [h.free _ (by omega) (by omega) hquarter] at heq
      exact hpower heq
    rw [if_neg hhalves, if_neg hquarters]
    rfl

end Guess

/-! ## A whole life -/

/-- An EEPROM of `count` words, and the size of an image for it. The size in
the fields is the one of `ftdi_eeprom_initdefaults`. -/
structure Suits (type : ChipType) (count n : ℕ) (e : Eeprom) : Prop where
  external : type ≠ .typeR → type ≠ .type230X →
    External count ∧ e.size = -1 ∧ n = if count = 0x40 then 0x80 else 0x100
  typeR : type = .typeR → 0x40 ≤ count ∧ e.size = 0x80 ∧ n = 0x80
  type230X : type = .type230X → 0x80 ≤ count ∧ e.size = 0x100 ∧ n = 0x100

section Suits

variable (h : Suits type count n e)

include h

theorem Suits.fitting : Fitting type n ∧ n / 2 ≤ count ∧
    (type ≠ .typeR → n = 0x80 → count = 0x40) := by
  by_cases hR : type = .typeR
  · obtain ⟨hcount, -, rfl⟩ := h.typeR hR
    exact ⟨⟨.inl rfl, fun hX => absurd (hR.symm.trans hX) (by decide)⟩, hcount,
      fun hno => absurd hR hno⟩
  · by_cases hX : type = .type230X
    · obtain ⟨hcount, -, rfl⟩ := h.type230X hX
      exact ⟨⟨.inr rfl, fun _ => rfl⟩, hcount, fun _ hno => absurd hno (by decide)⟩
    · obtain ⟨hcount, -, hn⟩ := h.external hR hX
      rcases hcount with rfl | rfl | rfl
      · obtain rfl : n = 0x80 := hn
        exact ⟨⟨.inl rfl, fun h => absurd h hX⟩, by decide, fun _ _ => rfl⟩
      · obtain rfl : n = 0x100 := hn
        exact ⟨⟨.inr rfl, fun _ => rfl⟩, by decide, fun _ hno => absurd hno (by decide)⟩
      · obtain rfl : n = 0x100 := hn
        exact ⟨⟨.inr rfl, fun _ => rfl⟩, by decide, fun _ hno => absurd hno (by decide)⟩

/-- The size of the image, as the type of the EEPROM gives it. -/
theorem Suits.sized : detected type count ≠ -1 ∧
    withSize { e with chip := detected type count } =
      { e with chip := detected type count, size := n } := by
  by_cases hR : type = .typeR
  · obtain ⟨-, hsize, rfl⟩ := h.typeR hR
    rw [detected, if_pos (.inl hR), withSize, if_neg (by rw [hsize]; decide), hsize]
    exact ⟨by decide, rfl⟩
  · by_cases hX : type = .type230X
    · obtain ⟨-, hsize, rfl⟩ := h.type230X hX
      rw [detected, if_pos (.inr hX), withSize, if_neg (by rw [hsize]; decide), hsize]
      exact ⟨by decide, rfl⟩
    · obtain ⟨hcount, hsize, rfl⟩ := h.external hR hX
      rw [detected, if_neg (by rintro (hno | hno) <;> contradiction), withSize, if_pos hsize]
      rcases hcount with rfl | rfl | rfl <;> exact ⟨by decide, rfl⟩

end Suits

/-- The section of the factory, as the device shows it. -/
theorem factoryIn_shown (hlaws : DeviceLaws pipe type count works words) (f : ℕ → UInt16) :
    FactoryIn pipe (fun w => works w ∧ words w = f) (shown f count) := by
  rintro w ⟨hworks, rfl⟩ i hlow hhigh
  obtain ⟨hdata, hworks', hwords⟩ := hlaws.read w i hworks (by omega)
  rw [get_shown_low (by omega), get_shown_high (by omega)]
  exact ⟨hdata, hworks', hwords⟩

/-- **What a device holds is found** by whoever reads it and takes apart what
it shows. -/
def Finds (pipe : Pipe σ) (type : ChipType) (e : Eeprom) (n : ℕ) (w : σ) : Prop :=
  ∀ u : Programmer σ, u.usbDev = true → u.type = type → u.world = w → After (do
    ftdiReadEeprom pipe
    ftdiEepromDecode) (fun _ v => v.eeprom.size = n ∧ Recovered type e v.eeprom ∧
      ∀ userData, e.userData = some userData → 0 ≤ e.userDataSize →
        v.eeprom.buf.read e.userDataAddr.toNat e.userDataSize.toNat =
          userData.take e.userDataSize.toNat) u

/-- **A device that shows an image** of some fields. -/
theorem ImageOf.finds {w : σ} (hlaws : DeviceLaws pipe type count works words)
    (hfitting : Fitting type n) (hsize : e.size = n) (hfit : StringsFit type e) (hsane : Sane e)
    (hguess : Guessable type n e) (hwrap : type ≠ .typeR → n = 0x80 → count = 0x40)
    (hR : type = .typeR → n = 0x80) (hworks : works w)
    (himage : ImageOf type e n (shown (words w) count)) : Finds pipe type e n w := by
  intro u hdev htype hworld
  subst hworld
  have hwrapped : type ≠ .typeR → n = 0x80 → ∀ a < 0x80,
      (shown (words u.world) count).get (0x80 + a) = (shown (words u.world) count).get a := by
    intro hno hn a ha
    obtain rfl := hwrap hno hn
    refine get_shown_congr (by omega) (by omega) (by omega) (congrArg _ ?_)
    omega
  have hfound : type ≠ .typeR →
      0 ∈ imageString { u.eeprom with buf := shown (words u.world) count } ∧
        guessSize { u.eeprom with buf := shown (words u.world) count } = n := fun hno =>
    himage.guess hfitting hsize hfit hno hguess (hwrapped hno) rfl
  subst htype
  refine (readEeprom_after hlaws hdev hworks fun hno => (hfound hno).1).bind ?_
  rintro _ _ ⟨w, hw, hwords, rfl⟩
  refine After.mono (decode_after hfitting hsize hfit himage hsane ?_ ?_ ?_)
    fun _ v ⟨hrecovered, hbuf, hvsize⟩ => ⟨hvsize, hrecovered, fun userData hdata hpos => ?_⟩
  · rfl
  · show (if u.type = .typeR then 0x80 else guessSize { u.eeprom with buf := _ }) = (n : ℤ)
    split
    · next htype =>
      rw [hR htype]
      rfl
    · next hno => exact (hfound hno).2
  · rfl
  · rw [hbuf]
    exact himage.userData userData hdata hpos

/-- **Making an image and writing it**: the device shows it. -/
theorem build_write_after {s : Programmer σ} (hlaws : DeviceLaws pipe s.type count works words)
    (hdev : s.usbDev = true) (hworks : works s.world) (hchip : s.eeprom.chip ≠ -1)
    (he : withSize s.eeprom = e) (hsize : e.size = n) (hfitting : Fitting s.type n)
    (hcount : n / 2 ≤ count) (hfit : StringsFit s.type e) (huser : UserDataFits s.type n e) :
    After (do
      let _ ← ftdiEepromBuild pipe
      ftdiWriteEeprom pipe) (fun _ t => works t.world ∧ t.usbDev = true ∧ t.type = s.type ∧
        ImageOf s.type e n (shown (words t.world) count)) s := by
  -- a 230X is asked for its reserved section, and nothing changes on it
  subst he
  have hasked : Asked pipe (fun w => works w ∧ words w = words s.world) s.type
      (shown (words s.world) count) s := fun _ => ⟨hdev, ⟨hworks, rfl⟩, factoryIn_shown hlaws _⟩
  refine (build_after hchip hfitting hsize hfit huser hasked).bind ?_
  rintro _ t ⟨himage, heeprom, w, hw, ht⟩
  obtain ⟨hworks', hwords⟩ := hw ⟨hworks, rfl⟩
  have htype : t.type = s.type := by rw [ht]
  have hdev' : t.usbDev = true := by rw [ht]; exact hdev
  have hworld : t.world = w := by rw [ht]
  have hinit : t.eeprom.initializedForConnectedDevice ≠ 0 := by
    rw [heeprom]
    exact one_ne_zero
  have hsize' : t.eeprom.size = n := by
    rw [heeprom]
    exact hsize
  refine (writeEeprom_after (htype ▸ hlaws) (htype ▸ hfitting) hcount hdev' hinit hsize'
    (hworld ▸ hworks')).mono ?_
  rintro _ u ⟨hu, hudev, hutype, hshown⟩
  rw [htype, hworld, hwords] at hshown
  exact ⟨hu, hudev, hutype.trans htype, himage.congr hfitting huser hshown⟩

/-- **Programming a device**: its EEPROM is erased, and an image is made for it
and written. -/
theorem programmed_after {s : Programmer σ}
    (hlaws : DeviceLaws pipe s.type count works words) (hdev : s.usbDev = true)
    (hworks : works s.world) (hsuits : Suits s.type count n s.eeprom)
    (hfit : StringsFit s.type s.eeprom) (huser : UserDataFits s.type n s.eeprom) :
    After (do
      ftdiEraseEeprom pipe
      let _ ← ftdiEepromBuild pipe
      ftdiWriteEeprom pipe) (fun _ t => works t.world ∧ t.usbDev = true ∧ t.type = s.type ∧
        ImageOf s.type { s.eeprom with chip := detected s.type count, size := n } n
          (shown (words t.world) count)) s := by
  obtain ⟨hfitting, hcount, -⟩ := hsuits.fitting
  obtain ⟨hchip, hsized⟩ := hsuits.sized
  refine (eraseEeprom_after hlaws (fun hR hX => (hsuits.external hR hX).1) hdev hworks).bind ?_
  rintro _ _ ⟨w, hw, rfl⟩
  exact build_write_after
    (s := { s with eeprom := { s.eeprom with chip := detected s.type count }, world := w })
    hlaws hdev hw hchip hsized rfl hfitting hcount hfit huser

/-- What a programmed device shows is found. -/
theorem Suits.finds {w : σ} (hsuits : Suits type count n e)
    (hlaws : DeviceLaws pipe type count works words) (hfit : StringsFit type e) (hsane : Sane e)
    (hguess : Guessable type n e) (hworks : works w)
    (himage : ImageOf type { e with chip := detected type count, size := n } n
      (shown (words w) count)) :
    Finds pipe type { e with chip := detected type count, size := n } n w := by
  obtain ⟨hfitting, -, hwrap⟩ := hsuits.fitting
  have hsane' : Sane { e with chip := detected type count, size := n } :=
    ⟨hsane.drive0, hsane.drive1, hsane.drive2, hsane.drive3, hsane.cbus⟩
  exact himage.finds hlaws hfitting rfl hfit hsane' hguess hwrap
    (fun hR => (hsuits.typeR hR).2.2) hworks

/-- **A programmed device is read back**: after its EEPROM is erased, and an
image is made for it and written, whoever reads and takes apart what it
shows finds the fields and the user's data, and the right size. -/
theorem programmed_persists {s : Programmer σ}
    (hlaws : DeviceLaws pipe s.type count works words) (hdev : s.usbDev = true)
    (hworks : works s.world) (hsuits : Suits s.type count n s.eeprom)
    (hfit : StringsFit s.type s.eeprom) (huser : UserDataFits s.type n s.eeprom)
    (hsane : Sane s.eeprom) (hguess : Guessable s.type n s.eeprom) :
    After (do
      ftdiEraseEeprom pipe
      let _ ← ftdiEepromBuild pipe
      ftdiWriteEeprom pipe) (fun _ t => works t.world ∧ ∀ u : Programmer σ, u.usbDev = true →
        u.type = s.type → u.world = t.world → After (do
          ftdiReadEeprom pipe
          ftdiEepromDecode) (fun _ v => v.eeprom.size = n ∧
            Recovered s.type { s.eeprom with chip := detected s.type count, size := n } v.eeprom ∧
            ∀ userData, s.eeprom.userData = some userData → 0 ≤ s.eeprom.userDataSize →
              v.eeprom.buf.read s.eeprom.userDataAddr.toNat s.eeprom.userDataSize.toNat =
                userData.take s.eeprom.userDataSize.toNat) u) s := by
  refine (programmed_after hlaws hdev hworks hsuits hfit huser).mono ?_
  rintro _ t ⟨ht, -, -, himage⟩
  exact ⟨ht, hsuits.finds hlaws hfit hsane hguess ht himage⟩

/-! ## A device -/

/-- A device that keeps its words. -/
def memoryPipe (count : ℕ) : Pipe (ℕ → UInt16) where
  controlOut request value index w :=
    if request = sioWriteEepromRequest then
      (0, Function.update w (index % count) (UInt16.ofNat value))
    else if request = sioEraseEepromRequest then (0, fun _ => 0xffff)
    else (0, w)
  controlIn request _ index _ w :=
    if request = sioReadEepromRequest then
      ((2, [(w (index % count)).toUInt8, (w (index % count) >>> 8).toUInt8]), w)
    else ((2, [0, 0]), w)

theorem memoryPipe_laws (type : ChipType) (count : ℕ) :
    DeviceLaws (memoryPipe count) type count (fun _ => True) id where
  read _ _ _ _ := ⟨rfl, trivial, rfl⟩
  write w i v _ _ _ := ⟨rfl, trivial, by
    show Function.update w (i % count) (UInt16.ofNat v.toNat) = _
    rw [UInt16.ofNat_toNat]
    rfl⟩
  erase _ _ _ _ := ⟨rfl, trivial, rfl⟩
  command w request _ _ _ h := by
    rcases h with rfl | rfl <;> exact ⟨rfl, trivial, rfl⟩
  poll _ _ _ := ⟨rfl, trivial, rfl⟩

theorem programmed_persists_sample :
    After (do
      ftdiEraseEeprom (memoryPipe 0x80)
      let _ ← ftdiEepromBuild (memoryPipe 0x80)
      ftdiWriteEeprom (memoryPipe 0x80)) (fun _ t => True ∧ ∀ u : Programmer (ℕ → UInt16),
        u.usbDev = true → u.type = .typeBM → u.world = t.world → After (do
          ftdiReadEeprom (memoryPipe 0x80)
          ftdiEepromDecode) (fun _ v => v.eeprom.size = (0x100 : ℕ) ∧
            Recovered .typeBM { adapter with chip := detected .typeBM 0x80, size := (0x100 : ℕ) }
              v.eeprom ∧
            ∀ userData, adapter.userData = some userData → 0 ≤ adapter.userDataSize →
              v.eeprom.buf.read adapter.userDataAddr.toNat adapter.userDataSize.toNat =
                userData.take adapter.userDataSize.toNat) u) (adapterContext fun _ => 0xffff) :=
  programmed_persists (n := 0x100) (memoryPipe_laws _ _) rfl trivial
    ⟨fun _ _ => ⟨.inr (.inl rfl), rfl, rfl⟩, nofun, nofun⟩ (by unfold StringsFit; decide)
    (fun userData hdata _ => by
      obtain rfl := Option.some.inj hdata
      decide)
    ⟨by decide, by decide, by decide, by decide, by decide⟩
    (fun _ => ⟨fun ⟨_, _, _, _, h⟩ => absurd h (by decide), fun ⟨_, _, _, _, h⟩ =>
      absurd h (by decide)⟩)

end Ftdi

end SgFtdi
