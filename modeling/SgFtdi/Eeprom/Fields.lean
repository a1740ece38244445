import Mathlib.Tactic.Ring
import SgFtdi.Common.Cells
import SgFtdi.Eeprom.Layout

/-!
# What an image keeps of the fields

`Recovered` says, chip by chip, which fields of a `ftdi_eeprom` are found
again in the image that is made from it. Flags are found as 0 or 1, and
numbers as far as they fit into their bytes. What a chip does not have
does not show.
-/

namespace SgFtdi

namespace Ftdi

/-! ## What is kept -/

/-- A flag as it is found again. -/
def truth (x : ℤ) : ℤ := if x ≠ 0 then 1 else 0

/-- A group of pins as it is found again. -/
def Group.kept (group : Group) : Group := ⟨min group.drive 3, truth group.schmitt, truth group.slew⟩

/-- A channel type as it is found again. -/
def channelKept (type : ChipType) (x : ℤ) : ℤ := (type2bit (byte x) type).toNat

/-- What a 2232C keeps. -/
structure Kept2232C (e d : Eeprom) : Prop where
  channelAType : d.channelAType = channelKept .type2232C e.channelAType
  channelBType : d.channelBType = channelKept .type2232C e.channelBType
  channelADriver : d.channelADriver = truth e.channelADriver
  channelBDriver : d.channelBDriver = truth e.channelBDriver
  highCurrentA : d.highCurrentA = truth e.highCurrentA
  highCurrentB : d.highCurrentB = truth e.highCurrentB
  suspendPullDowns : d.suspendPullDowns = truth e.suspendPullDowns
  useUsbVersion : d.useUsbVersion = truth e.useUsbVersion
  usbVersion : d.usbVersion = e.usbVersion % 0x10000
  chip : d.chip = e.chip % 0x100

/-- What a chip of type R keeps. -/
structure KeptR (e d : Eeprom) : Prop where
  channelADriver : d.channelADriver = truth e.channelADriver
  highCurrent : d.highCurrent = truth e.highCurrent
  externalOscillator : d.externalOscillator = truth e.externalOscillator
  suspendPullDowns : d.suspendPullDowns = truth e.suspendPullDowns
  invert : d.invert = e.invert % 0x100
  usbVersion : d.usbVersion = e.usbVersion % 0x10000
  cbus0 : d.cbusFunction.get 0 = cbusOr cbusBbRd cbusTxled (e.cbusFunction.get 0)
  cbus1 : d.cbusFunction.get 1 = cbusOr cbusBbRd cbusRxled (e.cbusFunction.get 1)
  cbus2 : d.cbusFunction.get 2 = cbusOr cbusBbRd cbusTxden (e.cbusFunction.get 2)
  cbus3 : d.cbusFunction.get 3 = cbusOr cbusBbRd cbusPwren (e.cbusFunction.get 3)
  cbus4 : d.cbusFunction.get 4 = cbusOr cbusClk6 cbusSleep (e.cbusFunction.get 4)

/-- What a 2232H and a 4232H keep. -/
structure KeptH (e d : Eeprom) : Prop where
  channelADriver : d.channelADriver = truth e.channelADriver
  channelBDriver : d.channelBDriver = truth e.channelBDriver
  suspendPullDowns : d.suspendPullDowns = truth e.suspendPullDowns
  group0 : d.group0 = e.group0.kept
  group1 : d.group1 = e.group1.kept
  group2 : d.group2 = e.group2.kept
  group3 : d.group3 = e.group3.kept
  chip : d.chip = e.chip % 0x100

/-- What a 2232H keeps. -/
structure Kept2232H (e d : Eeprom) : Prop extends KeptH e d where
  channelAType : d.channelAType = channelKept .type2232H e.channelAType
  channelBType : d.channelBType = channelKept .type2232H e.channelBType
  suspendDbus7 : d.suspendDbus7 = truth e.suspendDbus7

/-- What a 4232H keeps. -/
structure Kept4232H (e d : Eeprom) : Prop extends KeptH e d where
  channelCDriver : d.channelCDriver = truth e.channelCDriver
  channelDDriver : d.channelDDriver = truth e.channelDDriver
  channelARs485enable : d.channelARs485enable = truth e.channelARs485enable
  channelBRs485enable : d.channelBRs485enable = truth e.channelBRs485enable
  channelCRs485enable : d.channelCRs485enable = truth e.channelCRs485enable
  channelDRs485enable : d.channelDRs485enable = truth e.channelDRs485enable

/-- What a 232H keeps. -/
structure Kept232H (e d : Eeprom) : Prop where
  channelAType : d.channelAType = channelKept .type232H e.channelAType
  channelADriver : d.channelADriver = truth e.channelADriver
  powersave : d.powersave = truth e.powersave
  clockPolarity : d.clockPolarity = truth e.clockPolarity
  dataOrder : d.dataOrder = truth e.dataOrder
  flowControl : d.flowControl = truth e.flowControl
  suspendPullDowns : d.suspendPullDowns = truth e.suspendPullDowns
  group0 : d.group0 = e.group0.kept
  group1 : d.group1 = e.group1.kept
  cbus : ∀ i < 10, d.cbusFunction.get i = cbusOr cbushClk7_5 cbushTristate (e.cbusFunction.get i)
  chip : d.chip = e.chip % 0x100

/-- What a 230X keeps. -/
structure Kept230X (e d : Eeprom) : Prop where
  cbus : ∀ i < 4, d.cbusFunction.get i = e.cbusFunction.get i % 0x100
  invert : d.invert = e.invert % 0x100

/-- What the chips keep of the fields that are specific to some of them. -/
def KeptSpecific : ChipType → Eeprom → Eeprom → Prop
  | .typeAM, _, _ => True
  | .typeBM, e, d =>
      d.useUsbVersion = truth e.useUsbVersion ∧ d.usbVersion = e.usbVersion % 0x10000
  | .type2232C, e, d => Kept2232C e d
  | .typeR, e, d => KeptR e d
  | .type2232H, e, d => Kept2232H e d
  | .type4232H, e, d => Kept4232H e d
  | .type232H, e, d => Kept232H e d
  | .type230X, e, d => Kept230X e d

/-- **What is found again** in the image of a chip. -/
structure Recovered (type : ChipType) (e d : Eeprom) : Prop where
  vendorId : d.vendorId = e.vendorId % 0x10000
  productId : d.productId = e.productId % 0x10000
  releaseNumber : d.releaseNumber = e.releaseNumber % 0x10000
  selfPowered : d.selfPowered = truth e.selfPowered
  remoteWakeup : d.remoteWakeup = truth e.remoteWakeup
  maxPower : d.maxPower = 2 * (Int.tdiv e.maxPower 2 % 0x100)
  manufacturer : d.manufacturer = some (written e.manufacturer)
  product : d.product = some (written e.product)
  serial : d.serial = some (written e.serial)
  isochronous : type ≠ .typeAM → type ≠ .type230X →
    d.inIsIsochronous = truth e.inIsIsochronous ∧ d.outIsIsochronous = truth e.outIsIsochronous
  useSerial : type ≠ .typeAM → d.useSerial = truth e.useSerial
  specific : KeptSpecific type e d

/-- The numbers of a function or a strength are not negative. -/
structure Sane (e : Eeprom) : Prop where
  drive0 : 0 ≤ e.group0.drive
  drive1 : 0 ≤ e.group1.drive
  drive2 : 0 ≤ e.group2.drive
  drive3 : 0 ≤ e.group3.drive
  cbus : ∀ i < 10, 0 ≤ e.cbusFunction.get i

/-! ## Reading what was put -/

section Flags

variable {x mask other : UInt8} {on : ℤ} {m : Image} {a b : ℕ}

theorem flag_putBits_self (h : mask ≠ 0) : flag (putBits x mask (on ≠ 0)) mask = truth on := by
  rw [flag, putBits_and_self, truth]
  by_cases ho : on = 0 <;> simp [ho, h]

theorem flag_putBits_of_disjoint {on : Bool} (h : mask &&& other = 0) :
    flag (putBits x mask on) other = flag x other := by
  rw [flag, flag, putBits_and_of_disjoint h]

theorem putFlag_eq : putFlag a mask on m = m.set a (putBits (m.get a) mask (on ≠ 0)) := by
  unfold putFlag putBits orBits clearBits
  by_cases ho : on = 0 <;> simp [ho]

theorem orFlag_eq : orFlag a mask on m =
    m.set a (if on ≠ 0 then m.get a ||| mask else m.get a) := by
  unfold orFlag orBits
  split
  · rfl
  · exact Cells.set_get_self.symm

end Flags

theorem toNat_word (low high : UInt8) : (word low high).toNat = low.toNat + 0x100 * high.toNat := by
  have hlow := low.toNat_lt
  have hhigh := high.toNat_lt
  have hup : (high.toUInt16 <<< 8).toNat = 0x100 * high.toNat := by
    rw [UInt16.toNat_shiftLeft, UInt8.toNat_toUInt16, Nat.shiftLeft_eq]
    show high.toNat * 2 ^ 8 % 2 ^ 16 = _
    omega
  rw [word, UInt16.toNat_add, hup, UInt8.toNat_toUInt16]
  omega

/-- Two bytes of a number. -/
theorem word_byte (x : ℤ) : ((word (byte x) (byte (x >>> (8 : ℕ)))).toNat : ℤ) = x % 0x10000 := by
  have hlow := toNat_byte x
  have hhigh := toNat_byte (x >>> (8 : ℕ))
  have hshift : x >>> (8 : ℕ) = x / 0x100 := Int.shiftRight_eq_div_pow x 8
  rw [hshift] at hhigh ⊢
  rw [toNat_word]
  push_cast
  omega

/-! ## Groups of pins -/

/-- The four bits of a group. -/
def groupBits (group : Group) : UInt8 :=
  let bits := byte (if group.drive > drive16ma then drive16ma else group.drive)
  let bits := if group.schmitt ≠ 0 then bits ||| isSchmitt else bits
  if group.slew ≠ 0 then bits ||| slowSlew else bits

/-- The strength of a group, which is cut to the greatest. -/
theorem drive_cases {drive : ℤ} (h : 0 ≤ drive) :
    min drive 3 = (if drive > drive16ma then drive16ma else drive) ∧
      ((if drive > drive16ma then drive16ma else drive) = 0 ∨
        (if drive > drive16ma then drive16ma else drive) = 1 ∨
        (if drive > drive16ma then drive16ma else drive) = 2 ∨
        (if drive > drive16ma then drive16ma else drive) = 3) := by
  unfold drive16ma
  split <;> omega

/-- **The bits of a group** are those of its fields. -/
theorem groupBits_kept {group : Group} (h : 0 ≤ group.drive) :
    (groupBits group).toNat < 16 ∧ decodeGroup (groupBits group) = group.kept := by
  obtain ⟨hmin, hcases⟩ := drive_cases h
  unfold groupBits Group.kept truth
  rw [hmin]
  generalize (if group.drive > drive16ma then drive16ma else group.drive) = d at hcases
  by_cases hs : group.schmitt = 0 <;> by_cases hl : group.slew = 0 <;>
    rcases hcases with rfl | rfl | rfl | rfl <;>
    simp only [hs, hl, ne_eq, not_true_eq_false, not_false_eq_true, if_true, if_false] <;> decide

/-- Two groups in one byte. -/
theorem decodeGroup_nibbles : ∀ x < 16, ∀ y < 16,
    decodeGroup (UInt8.ofNat x ||| UInt8.ofNat y <<< 4) = decodeGroup (UInt8.ofNat x) ∧
      decodeGroup ((UInt8.ofNat x ||| UInt8.ofNat y <<< 4) >>> 4) =
        decodeGroup (UInt8.ofNat y) := by
  decide +kernel

theorem decodeGroup_pair {low high : Group} (hl : 0 ≤ low.drive) (hh : 0 ≤ high.drive) :
    decodeGroup (groupBits low ||| groupBits high <<< 4) = low.kept ∧
      decodeGroup ((groupBits low ||| groupBits high <<< 4) >>> 4) = high.kept := by
  obtain ⟨hl16, hlow⟩ := groupBits_kept hl
  obtain ⟨hh16, hhigh⟩ := groupBits_kept hh
  have hpair := decodeGroup_nibbles _ hl16 _ hh16
  rwa [UInt8.ofNat_toNat, UInt8.ofNat_toNat, hlow, hhigh] at hpair

/-- **A group is put** into the lower or the upper half of a byte. -/
theorem putGroup_eq {a : ℕ} (ha : a < 0x100) {group : Group} (h : 0 ≤ group.drive) (m : Image) :
    putGroup a 0 group m = m.set a (m.get a ||| groupBits group) ∧
      putGroup a 4 group m = m.set a (m.get a ||| groupBits group <<< 4) := by
  obtain ⟨-, hcases⟩ := drive_cases h
  have hdrive : ∀ shift : ℕ, (if group.drive > drive16ma then
      orBits a (byte (drive16ma <<< shift)) m else orBits a (byte (group.drive <<< shift)) m) =
        m.set a (m.get a ||| byte ((if group.drive > drive16ma then drive16ma else group.drive)
          <<< shift)) := by
    intro shift
    split <;> rfl
  unfold putGroup groupBits
  simp only [hdrive, orFlag_eq, Cells.set_set, Cells.get_set_self ha]
  generalize (if group.drive > drive16ma then drive16ma else group.drive) = d at hcases
  generalize m.get a = x
  by_cases hs : group.schmitt = 0 <;> by_cases hl : group.slew = 0 <;>
    rcases hcases with rfl | rfl | rfl | rfl <;>
    simp only [hs, hl, ne_eq, not_true_eq_false, not_false_eq_true, if_true, if_false,
      UInt8.or_assoc] <;>
    exact ⟨rfl, rfl⟩

/-! ## Functions of pins -/

/-- A function that is put is one that the pin has. -/
theorem cbusOr_range (last other : ℤ) {function : ℤ} (h : 0 ≤ function) (ho : 0 ≤ other)
    (hl : other ≤ last) : 0 ≤ cbusOr last other function ∧ cbusOr last other function ≤ last := by
  unfold cbusOr
  split <;> omega

theorem decodeCbus_nibbles : ∀ x < 16, ∀ y < 16,
    decodeCbus (byte (x : ℕ) ||| byte ((y : ℕ) <<< (4 : ℕ) : ℤ)) = [(x : ℤ), (y : ℤ)] := by
  decide +kernel

/-- **Two functions in one byte.** -/
theorem decodeCbus_pair {x y : ℤ} (hx : 0 ≤ x ∧ x ≤ 12) (hy : 0 ≤ y ∧ y ≤ 12) :
    decodeCbus (byte x ||| byte (y <<< (4 : ℕ))) = [x, y] := by
  obtain ⟨a, rfl⟩ := Int.eq_ofNat_of_zero_le hx.1
  obtain ⟨b, rfl⟩ := Int.eq_ofNat_of_zero_le hy.1
  exact decodeCbus_nibbles a (by omega) b (by omega)

/-! ## The fields that all chips have -/

/-- The bits of the isochronous endpoints. -/
def isoBits (e : Eeprom) : UInt8 :=
  putBits (putBits 0 1 (e.inIsIsochronous ≠ 0)) 2 (e.outIsIsochronous ≠ 0)

theorem flag_isoBits (e : Eeprom) : flag (isoBits e) 0x01 = truth e.inIsIsochronous ∧
    flag (isoBits e) 0x02 = truth e.outIsIsochronous := by
  unfold isoBits
  simp (disch := decide) only [flag_putBits_of_disjoint, flag_putBits_self, and_self]

/-- The bytes of the header. -/
structure Headed (type : ChipType) (e : Eeprom) (m out : Image) : Prop where
  vendorId : out.get 2 = byte e.vendorId ∧ out.get 3 = byte (e.vendorId >>> (8 : ℕ))
  productId : out.get 4 = byte e.productId ∧ out.get 5 = byte (e.productId >>> (8 : ℕ))
  releaseNumber : out.get 6 = byte e.releaseNumber ∧ out.get 7 = byte (e.releaseNumber >>> (8 : ℕ))
  power : out.get 8 = putBits (putBits 0x80 0x40 (e.selfPowered ≠ 0)) 0x20 (e.remoteWakeup ≠ 0)
  maxPower : out.get 9 = byte (Int.tdiv e.maxPower 2)
  config : out.get 0x0A = if type ≠ .typeAM ∧ type ≠ .type230X then isoBits e else m.get 0x0A
  kept : ∀ a, a < 2 ∨ 0x0A < a → out.get a = m.get a

theorem headed_putHeader (type : ChipType) (e : Eeprom) (m : Image) :
    Headed type e m (putHeader type e m) := by
  have hpower : (if e.remoteWakeup ≠ 0 then
      (if e.selfPowered ≠ 0 then (0x80 : UInt8) ||| 0x40 else 0x80) ||| 0x20
      else if e.selfPowered ≠ 0 then 0x80 ||| 0x40 else 0x80) =
        putBits (putBits 0x80 0x40 (e.selfPowered ≠ 0)) 0x20 (e.remoteWakeup ≠ 0) := by
    by_cases h : e.selfPowered = 0 <;> by_cases h' : e.remoteWakeup = 0 <;> simp [h, h'] <;> decide
  have hiso : (if e.outIsIsochronous ≠ 0 then
      (if e.inIsIsochronous ≠ 0 then (0 : UInt8) ||| 1 else 0) ||| 2
      else if e.inIsIsochronous ≠ 0 then 0 ||| 1 else 0) = isoBits e := by
    unfold isoBits
    by_cases h : e.inIsIsochronous = 0 <;> by_cases h' : e.outIsIsochronous = 0 <;>
      simp [h, h'] <;> decide
  unfold putHeader
  simp only [hpower, hiso]
  split
  · next h =>
    refine ⟨⟨?_, ?_⟩, ⟨?_, ?_⟩, ⟨?_, ?_⟩, ?_, ?_, ?_, fun a ha => ?_⟩ <;>
      simp (disch := omega) only [Cells.get_set_ne, Cells.get_set_self, if_pos h]
  · next h =>
    refine ⟨⟨?_, ?_⟩, ⟨?_, ?_⟩, ⟨?_, ?_⟩, ?_, ?_, ?_, fun a ha => ?_⟩ <;>
      simp (disch := omega) only [Cells.get_set_ne, Cells.get_set_self, if_neg h]

theorem putUseSerial_eq {type : ChipType} (h : type ≠ .typeAM) (e : Eeprom) (m : Image) :
    putUseSerial type e m = m.set 0x0A (putBits (m.get 0x0A) useSerialNum (e.useSerial ≠ 0)) := by
  have hnumber : type.number > ChipType.typeAM.number := by
    cases type <;> first | exact absurd rfl h | decide
  rw [putUseSerial, if_pos hnumber, putFlag_eq]

/-! ## The fields of each chip -/

/-- What is found in an image with the right checksum. -/
def decodedEeprom (type : ChipType) (out : Image) (m p s : Option CString) (d : Eeprom) : Eeprom :=
  decodeSpecific type out { decodeHeader out d with manufacturer := m, product := p, serial := s }

section Chips

variable {e d : Eeprom} {before out : Image} {m p s : Option CString}

/-- The types that a 2232C and a 2232H have. -/
theorem type2bit_2232 (t : UInt8) {type : ChipType} (h : type = .type2232C ∨ type = .type2232H) :
    type2bit t type = 0 ∨ type2bit t type = 1 ∨ type2bit t type = 2 ∨ type2bit t type = 4 := by
  rcases h with rfl | rfl <;> simp only [type2bit] <;> split <;> simp_all

/-- **A 2232C.** -/
theorem kept_2232C (hconfig : before.get 0x0A = isoBits e)
    (hout : ∀ a < 0x15, out.get a = (put2232C e (putUseSerial .type2232C e before)).get a) :
    Kept2232C e (decodedEeprom .type2232C out m p s d) ∧
      flag (out.get 0x0A) 0x01 = truth e.inIsIsochronous ∧
      flag (out.get 0x0A) 0x02 = truth e.outIsIsochronous ∧
      flag (out.get 0x0A) useSerialNum = truth e.useSerial := by
  rw [putUseSerial_eq (by decide)] at hout
  have h00 := hout 0x00 (by decide)
  have h01 := hout 0x01 (by decide)
  have h0A := hout 0x0A (by decide)
  have h0C := hout 0x0C (by decide)
  have h0D := hout 0x0D (by decide)
  have h14 := hout 0x14 (by decide)
  -- what each of the bytes was made of
  simp (disch := omega) only [put2232C, putFlag_eq, Cells.get_set_ne, Cells.get_set_self, hconfig]
    at h00 h01 h0A h0C h0D h14
  refine ⟨{
    channelAType := ?_
    channelBType := ?_
    channelADriver := ?_
    channelBDriver := ?_
    highCurrentA := ?_
    highCurrentB := ?_
    suspendPullDowns := ?_
    useUsbVersion := ?_
    usbVersion := ?_
    chip := ?_ }, ?_, ?_, ?_⟩
  · show bit2type (out.get 0x00 &&& 0x7) = _
    rw [h00, putBits_and_of_disjoint (by decide), putBits_and_of_disjoint (by decide), channelKept]
    rcases type2bit_2232 (byte e.channelAType) (.inl rfl) with h | h | h | h <;> rw [h] <;> rfl
  · show ((out.get 0x01 &&& 0x7).toNat : ℤ) = _
    rw [h01, putBits_and_of_disjoint (by decide), putBits_and_of_disjoint (by decide), channelKept]
    rcases type2bit_2232 (byte e.channelBType) (.inl rfl) with h | h | h | h <;> rw [h] <;> rfl
  · show flag (out.get 0x00) driverVcp = _
    simp (disch := decide) only [h00, flag_putBits_of_disjoint, flag_putBits_self]
  · show flag (out.get 0x01) driverVcp = _
    simp (disch := decide) only [h01, flag_putBits_of_disjoint, flag_putBits_self]
  · show flag (out.get 0x00) highCurrentDrive = _
    simp (disch := decide) only [h00, flag_putBits_self]
  · show flag (out.get 0x01) highCurrentDrive = _
    simp (disch := decide) only [h01, flag_putBits_self]
  · show flag (out.get 0x0A) 0x04 = _
    simp (disch := decide) only [h0A, flag_putBits_of_disjoint, flag_putBits_self]
  · show flag (out.get 0x0A) useUsbVersionBit = _
    simp (disch := decide) only [h0A, flag_putBits_self]
  · show ((word (out.get 0x0C) (out.get 0x0D)).toNat : ℤ) = _
    rw [h0C, h0D, word_byte]
  · show ((out.get 0x14).toNat : ℤ) = _
    rw [h14, toNat_byte]
  · simp (disch := decide) only [h0A, flag_putBits_of_disjoint, flag_putBits_self]
  · simp (disch := decide) only [h0A, flag_putBits_of_disjoint, flag_putBits_self]
  · simp (disch := decide) only [h0A, flag_putBits_of_disjoint, flag_putBits_self]

/-- **A BM chip.** -/
theorem kept_BM (hconfig : before.get 0x0A = isoBits e)
    (hout : ∀ a < 0x14, out.get a = (putSpecific .typeBM e (putUseSerial .typeBM e before)).get a) :
    KeptSpecific .typeBM e (decodedEeprom .typeBM out m p s d) ∧
      flag (out.get 0x0A) 0x01 = truth e.inIsIsochronous ∧
      flag (out.get 0x0A) 0x02 = truth e.outIsIsochronous ∧
      flag (out.get 0x0A) useSerialNum = truth e.useSerial := by
  rw [putUseSerial_eq (by decide)] at hout
  have h0A := hout 0x0A (by decide)
  have h0C := hout 0x0C (by decide)
  have h0D := hout 0x0D (by decide)
  simp (disch := omega) only [putSpecific, putFlag_eq, Cells.get_set_ne, Cells.get_set_self,
    hconfig] at h0A h0C h0D
  refine ⟨⟨?_, ?_⟩, ?_, ?_, ?_⟩
  · show flag (out.get 0x0A) useUsbVersionBit = _
    simp (disch := decide) only [h0A, flag_putBits_self]
  · show ((word (out.get 0x0C) (out.get 0x0D)).toNat : ℤ) = _
    rw [h0C, h0D, word_byte]
  · simp (disch := decide) only [h0A, flag_putBits_of_disjoint, flag_isoBits]
  · simp (disch := decide) only [h0A, flag_putBits_of_disjoint, flag_isoBits]
  · simp (disch := decide) only [h0A, flag_putBits_of_disjoint, flag_putBits_self]

/-- The type that a chip of type R has. -/
theorem type2bit_R (t : UInt8) : type2bit t .typeR = 0 ∨ type2bit t .typeR = 1 := by
  simp only [type2bit]
  split <;> simp_all

/-- The byte of a chip of type R whose bit for the driver is the other way
round. -/
theorem flags_R {t : UInt8} (ht : t = 0 ∨ t = 1) (high driver oscillator : Bool) :
    let b := if high then t ||| highCurrentDriveR else t
    let b := if driver then b &&& ~~~driverVcp else b ||| driverVcp
    let b := if oscillator then b ||| 0x02 else b
    (b &&& driverVcp ≠ 0 ↔ driver = false) ∧ (b &&& highCurrentDriveR ≠ 0 ↔ high = true) ∧
      (b &&& 0x02 ≠ 0 ↔ oscillator = true) := by
  rcases ht with rfl | rfl <;> cases high <;> cases driver <;> cases oscillator <;> decide

theorem flag_eq_truth {b bits : UInt8} {on : ℤ} (h : b &&& bits ≠ 0 ↔ decide (on ≠ 0) = true) :
    flag b bits = truth on := by
  rw [flag, truth]
  by_cases ho : on ≠ 0
  · rw [if_pos ho, if_pos (h.mpr (decide_eq_true ho))]
  · rw [if_neg ho, if_neg fun hb => ho (of_decide_eq_true (h.mp hb))]

/-- The bit for the driver of a chip of type R is written to its byte. -/
theorem putDriver_eq (x : Image) :
    (if e.channelADriver ≠ 0 then clearBits 0x00 driverVcp x else orBits 0x00 driverVcp x) =
      x.set 0x00 (if e.channelADriver ≠ 0 then x.get 0x00 &&& ~~~driverVcp
        else x.get 0x00 ||| driverVcp) := by
  split <;> rfl

/-- What is read back of the first byte of a chip of type R. -/
theorem driver_R (h : out.get 0x00 = (putR e (putUseSerial .typeR e before)).get 0x00) :
    (decodedEeprom .typeR out m p s d).channelADriver = truth e.channelADriver ∧
      (decodedEeprom .typeR out m p s d).highCurrent = truth e.highCurrent ∧
      (decodedEeprom .typeR out m p s d).externalOscillator = truth e.externalOscillator := by
  rw [putUseSerial_eq (by decide)] at h
  simp only [putR, putDriver_eq] at h
  simp (disch := omega) only [putFlag_eq, orFlag_eq, orBits, Cells.get_set_ne,
    Cells.get_set_self] at h
  have hflags := flags_R (type2bit_R (byte e.channelAType)) (decide (e.highCurrent ≠ 0))
    (decide (e.channelADriver ≠ 0)) (decide (e.externalOscillator ≠ 0))
  simp only [decide_eq_true_eq] at hflags
  rw [← h] at hflags
  obtain ⟨hvcp, hhigh, hosc⟩ := hflags
  refine ⟨?_, flag_eq_truth (by rw [decide_eq_true_iff]; exact hhigh),
    flag_eq_truth (by rw [decide_eq_true_iff]; exact hosc)⟩
  show (if out.get 0x00 &&& driverVcp ≠ 0 then (0 : ℤ) else 1) = truth e.channelADriver
  rw [decide_eq_false_iff_not] at hvcp
  rw [truth]
  by_cases ho : e.channelADriver ≠ 0
  · rw [if_pos ho, if_neg fun h => hvcp.mp h ho]
  · rw [if_neg ho, if_pos (hvcp.mpr ho)]

/-- What is read back of the functions of the CBUS pins of a chip of type
R. -/
theorem cbus_R (hsane : Sane e)
    (hout : ∀ a < 0x17, out.get a = (putR e (putUseSerial .typeR e before)).get a) :
    (decodedEeprom .typeR out m p s d).cbusFunction = d.cbusFunction.write 0
      [cbusOr cbusBbRd cbusTxled (e.cbusFunction.get 0),
        cbusOr cbusBbRd cbusRxled (e.cbusFunction.get 1),
        cbusOr cbusBbRd cbusTxden (e.cbusFunction.get 2),
        cbusOr cbusBbRd cbusPwren (e.cbusFunction.get 3),
        cbusOr cbusClk6 cbusSleep (e.cbusFunction.get 4)] := by
  have h14 := hout 0x14 (by decide)
  have h15 := hout 0x15 (by decide)
  have h16 := hout 0x16 (by decide)
  simp only [putR, putDriver_eq] at h14 h15 h16
  simp (disch := omega) only [orBits, Cells.get_set_ne, Cells.get_set_self] at h14 h15 h16
  have hc0 := cbusOr_range cbusBbRd cbusTxled (hsane.cbus 0 (by decide)) (by decide) (by decide)
  have hc1 := cbusOr_range cbusBbRd cbusRxled (hsane.cbus 1 (by decide)) (by decide) (by decide)
  have hc2 := cbusOr_range cbusBbRd cbusTxden (hsane.cbus 2 (by decide)) (by decide) (by decide)
  have hc3 := cbusOr_range cbusBbRd cbusPwren (hsane.cbus 3 (by decide)) (by decide) (by decide)
  have hc4 := cbusOr_range cbusClk6 cbusSleep (hsane.cbus 4 (by decide)) (by decide) (by decide)
  have hfifth : ((out.get 0x16 &&& 0x0f).toNat : ℤ) =
      cbusOr cbusClk6 cbusSleep (e.cbusFunction.get 4) := by
    have hlow := toNat_byte (cbusOr cbusClk6 cbusSleep (e.cbusFunction.get 4))
    rw [h16, UInt8.toNat_and]
    have hmask : (0x0f : UInt8).toNat = 2 ^ 4 - 1 := rfl
    rw [hmask, Nat.and_two_pow_sub_one_eq_mod]
    unfold cbusClk6 at *
    omega
  show d.cbusFunction.write 0 (decodeCbus (out.get 0x14) ++ decodeCbus (out.get 0x15) ++
    [((out.get 0x16 &&& 0x0f).toNat : ℤ)]) = _
  rw [h14, h15, hfifth, decodeCbus_pair hc0 hc1, decodeCbus_pair hc2 hc3]
  rfl

/-- **A chip of type R.** -/
theorem kept_R (hsane : Sane e) (hconfig : before.get 0x0A = isoBits e)
    (hout : ∀ a < 0x17, out.get a = (putR e (putUseSerial .typeR e before)).get a) :
    KeptR e (decodedEeprom .typeR out m p s d) ∧
      flag (out.get 0x0A) 0x01 = truth e.inIsIsochronous ∧
      flag (out.get 0x0A) 0x02 = truth e.outIsIsochronous ∧
      flag (out.get 0x0A) useSerialNum = truth e.useSerial := by
  have h0A := hout 0x0A (by decide)
  have h0B := hout 0x0B (by decide)
  have h0C := hout 0x0C (by decide)
  have h0D := hout 0x0D (by decide)
  rw [putUseSerial_eq (by decide)] at h0A h0B h0C h0D
  simp only [putR, putDriver_eq] at h0A h0B h0C h0D
  simp (disch := omega) only [putFlag_eq, orFlag_eq, orBits, Cells.get_set_ne,
    Cells.get_set_self, hconfig] at h0A h0B h0C h0D
  obtain ⟨hdriver, hhigh, hosc⟩ := driver_R (hout 0x00 (by decide))
  have hcbus := cbus_R (m := m) (p := p) (s := s) (d := d) hsane hout
  refine ⟨{
    channelADriver := hdriver
    highCurrent := hhigh
    externalOscillator := hosc
    suspendPullDowns := ?_
    invert := ?_
    usbVersion := ?_
    cbus0 := ?_
    cbus1 := ?_
    cbus2 := ?_
    cbus3 := ?_
    cbus4 := ?_ }, ?_, ?_, ?_⟩
  · show flag (out.get 0x0A) 0x04 = _
    simp (disch := decide) only [h0A, flag_putBits_self]
  · show ((out.get 0x0B).toNat : ℤ) = _
    rw [h0B, toNat_byte]
  · show ((word (out.get 0x0C) (out.get 0x0D)).toNat : ℤ) = _
    rw [h0C, h0D, word_byte]
  · rw [hcbus]
    exact Cells.get_write_zero (by decide) (by simp)
  · rw [hcbus]
    exact Cells.get_write_zero (by decide) (by simp)
  · rw [hcbus]
    exact Cells.get_write_zero (by decide) (by simp)
  · rw [hcbus]
    exact Cells.get_write_zero (by decide) (by simp)
  · rw [hcbus]
    exact Cells.get_write_zero (by decide) (by simp)
  · simp (disch := decide) only [h0A, flag_putBits_of_disjoint, flag_isoBits]
  · simp (disch := decide) only [h0A, flag_putBits_of_disjoint, flag_isoBits]
  · simp (disch := decide) only [h0A, flag_putBits_of_disjoint, flag_putBits_self]

/-- The four groups and the type of EEPROM, as a 2232H and a 4232H have them. -/
structure Grouped (e : Eeprom) (out : Image) : Prop where
  group0 : decodeGroup (out.get 0x0c) = e.group0.kept
  group1 : decodeGroup (out.get 0x0c >>> 4) = e.group1.kept
  group2 : decodeGroup (out.get 0x0d) = e.group2.kept
  group3 : decodeGroup (out.get 0x0d >>> 4) = e.group3.kept
  chip : ((out.get 0x18).toNat : ℤ) = e.chip % 0x100

/-- The groups are put one after the other, the two of a byte into its halves. -/
theorem putGroups_eq {x : Image} (hsane : Sane e) :
    putGroups e x = ((x.set 0x0c (x.get 0x0c ||| groupBits e.group0 |||
      groupBits e.group1 <<< 4)).set 0x0d (x.get 0x0d ||| groupBits e.group2 |||
        groupBits e.group3 <<< 4)).set 0x18 (byte e.chip) := by
  have hg0 := fun x => (putGroup_eq (a := 0x0c) (by decide) hsane.drive0 x).1
  have hg1 := fun x => (putGroup_eq (a := 0x0c) (by decide) hsane.drive1 x).2
  have hg2 := fun x => (putGroup_eq (a := 0x0d) (by decide) hsane.drive2 x).1
  have hg3 := fun x => (putGroup_eq (a := 0x0d) (by decide) hsane.drive3 x).2
  simp (disch := omega) only [putGroups, hg0, hg1, hg2, hg3, Cells.set_set, Cells.get_set_ne,
    Cells.get_set_self]

/-- The other bytes stay. -/
theorem get_putGroups {x : Image} (hsane : Sane e) (hlow : a ≠ 0x0c) (hhigh : a ≠ 0x0d)
    (hchip : a ≠ 0x18) : (putGroups e x).get a = x.get a := by
  rw [putGroups_eq hsane, Cells.get_set_ne hchip, Cells.get_set_ne hhigh, Cells.get_set_ne hlow]

/-- **The groups are kept.** -/
theorem putGroups_grouped {x : Image} (hsane : Sane e) (h0c : x.get 0x0c = 0)
    (h0d : x.get 0x0d = 0) (hout : ∀ a < 0x19, out.get a = (putGroups e x).get a) :
    Grouped e out := by
  have h0C := hout 0x0c (by decide)
  have h0D := hout 0x0d (by decide)
  have h18 := hout 0x18 (by decide)
  simp (disch := omega) only [putGroups_eq hsane, Cells.get_set_ne, Cells.get_set_self, h0c, h0d,
    UInt8.zero_or] at h0C h0D h18
  have hlow := decodeGroup_pair hsane.drive0 hsane.drive1
  have hhigh := decodeGroup_pair hsane.drive2 hsane.drive3
  rw [← h0C] at hlow
  rw [← h0D] at hhigh
  exact ⟨hlow.1, hlow.2, hhigh.1, hhigh.2, by rw [h18, toNat_byte]⟩

/-- **A 2232H.** -/
theorem kept_2232H (hsane : Sane e) (hconfig : before.get 0x0A = isoBits e)
    (h0c : before.get 0x0c = 0) (h0d : before.get 0x0d = 0)
    (hout : ∀ a < 0x19, out.get a = (put2232H e (putUseSerial .type2232H e before)).get a) :
    Kept2232H e (decodedEeprom .type2232H out m p s d) ∧
      flag (out.get 0x0A) 0x01 = truth e.inIsIsochronous ∧
      flag (out.get 0x0A) 0x02 = truth e.outIsIsochronous ∧
      flag (out.get 0x0A) useSerialNum = truth e.useSerial := by
  rw [putUseSerial_eq (by decide)] at hout
  have hgroups : Grouped e out := by
    refine putGroups_grouped hsane ?_ ?_ hout <;>
    · simp (disch := omega) only [putFlag_eq, Cells.get_set_ne]
      assumption
  have h00 := hout 0x00 (by decide)
  have h01 := hout 0x01 (by decide)
  have h0A := hout 0x0A (by decide)
  simp (disch := omega) only [put2232H, get_putGroups hsane, putFlag_eq, Cells.get_set_ne,
    Cells.get_set_self, hconfig] at h00 h01 h0A
  refine ⟨{
    channelADriver := ?_
    channelBDriver := ?_
    suspendPullDowns := ?_
    group0 := hgroups.group0
    group1 := hgroups.group1
    group2 := hgroups.group2
    group3 := hgroups.group3
    chip := hgroups.chip
    channelAType := ?_
    channelBType := ?_
    suspendDbus7 := ?_ }, ?_, ?_, ?_⟩
  · show flag (out.get 0x00) driverVcp = _
    simp (disch := decide) only [h00, flag_putBits_self]
  · show flag (out.get 0x01) driverVcp = _
    simp (disch := decide) only [h01, flag_putBits_of_disjoint, flag_putBits_self]
  · show flag (out.get 0x0A) 0x04 = _
    simp (disch := decide) only [h0A, flag_putBits_self]
  · show bit2type (out.get 0x00 &&& 0x7) = _
    rw [h00, putBits_and_of_disjoint (by decide), channelKept]
    rcases type2bit_2232 (byte e.channelAType) (.inr rfl) with h | h | h | h <;> rw [h] <;> rfl
  · show bit2type (out.get 0x01 &&& 0x7) = _
    rw [h01, putBits_and_of_disjoint (by decide), putBits_and_of_disjoint (by decide), channelKept]
    rcases type2bit_2232 (byte e.channelBType) (.inr rfl) with h | h | h | h <;> rw [h] <;> rfl
  · show flag (out.get 0x01) suspendDbus7Bit = _
    simp (disch := decide) only [h01, flag_putBits_self]
  · simp (disch := decide) only [h0A, flag_putBits_of_disjoint, flag_isoBits]
  · simp (disch := decide) only [h0A, flag_putBits_of_disjoint, flag_isoBits]
  · simp (disch := decide) only [h0A, flag_putBits_of_disjoint, flag_putBits_self]

/-- A flag of the upper half of a byte. -/
theorem flag_upper (b : UInt8) : flag (b >>> 4) driverVcp = flag b (driverVcp <<< 4) := by
  have hall : ∀ x < 0x100, flag (UInt8.ofNat x >>> 4) driverVcp =
      flag (UInt8.ofNat x) (driverVcp <<< 4) := by decide +kernel
  have hb := hall b.toNat b.toNat_lt
  rwa [UInt8.ofNat_toNat] at hb

/-- **The switches of the four channels**, one bit each. -/
theorem rs485_4232H {x : UInt8} (e : Eeprom) (h : out.get 0x0b =
      putBits (putBits (putBits (putBits x (channelIsRs485 <<< 0) (e.channelARs485enable ≠ 0))
        (channelIsRs485 <<< 1) (e.channelBRs485enable ≠ 0))
        (channelIsRs485 <<< 2) (e.channelCRs485enable ≠ 0))
        (channelIsRs485 <<< 3) (e.channelDRs485enable ≠ 0)) :
    flag (out.get 0x0b) (channelIsRs485 <<< 0) = truth e.channelARs485enable ∧
      flag (out.get 0x0b) (channelIsRs485 <<< 1) = truth e.channelBRs485enable ∧
      flag (out.get 0x0b) (channelIsRs485 <<< 2) = truth e.channelCRs485enable ∧
      flag (out.get 0x0b) (channelIsRs485 <<< 3) = truth e.channelDRs485enable := by
  refine ⟨?_, ?_, ?_, ?_⟩
  · simp (disch := decide) only [h, flag_putBits_of_disjoint, flag_putBits_self]
  · simp (disch := decide) only [h, flag_putBits_of_disjoint, flag_putBits_self]
  · simp (disch := decide) only [h, flag_putBits_of_disjoint, flag_putBits_self]
  · simp (disch := decide) only [h, flag_putBits_self]

/-- **A 4232H.** -/
theorem kept_4232H (hsane : Sane e) (hconfig : before.get 0x0A = isoBits e)
    (h0c : before.get 0x0c = 0) (h0d : before.get 0x0d = 0)
    (hout : ∀ a < 0x19, out.get a = (put4232H e (putUseSerial .type4232H e before)).get a) :
    Kept4232H e (decodedEeprom .type4232H out m p s d) ∧
      flag (out.get 0x0A) 0x01 = truth e.inIsIsochronous ∧
      flag (out.get 0x0A) 0x02 = truth e.outIsIsochronous ∧
      flag (out.get 0x0A) useSerialNum = truth e.useSerial := by
  rw [putUseSerial_eq (by decide)] at hout
  have hgroups : Grouped e out := by
    refine putGroups_grouped hsane ?_ ?_ hout <;>
    · simp (disch := omega) only [putFlag_eq, Cells.get_set_ne]
      assumption
  have h00 := hout 0x00 (by decide)
  have h01 := hout 0x01 (by decide)
  have h0A := hout 0x0A (by decide)
  have h0B := hout 0x0B (by decide)
  simp (disch := omega) only [put4232H, get_putGroups hsane, putFlag_eq, Cells.get_set_ne,
    Cells.get_set_self, hconfig] at h00 h01 h0A h0B
  obtain ⟨ha, hb, hc, hd⟩ := rs485_4232H e h0B
  refine ⟨{
    channelADriver := ?_
    channelBDriver := ?_
    suspendPullDowns := ?_
    group0 := hgroups.group0
    group1 := hgroups.group1
    group2 := hgroups.group2
    group3 := hgroups.group3
    chip := hgroups.chip
    channelCDriver := ?_
    channelDDriver := ?_
    channelARs485enable := ha
    channelBRs485enable := hb
    channelCRs485enable := hc
    channelDRs485enable := hd }, ?_, ?_, ?_⟩
  · show flag (out.get 0x00) driverVcp = _
    simp (disch := decide) only [h00, flag_putBits_of_disjoint, flag_putBits_self]
  · show flag (out.get 0x01) driverVcp = _
    simp (disch := decide) only [h01, flag_putBits_of_disjoint, flag_putBits_self]
  · show flag (out.get 0x0A) 0x04 = _
    simp (disch := decide) only [h0A, flag_putBits_self]
  · -- the channels C and D are in the upper halves
    show flag (out.get 0x00 >>> 4) driverVcp = _
    rw [flag_upper]
    simp (disch := decide) only [h00, flag_putBits_self]
  · show flag (out.get 0x01 >>> 4) driverVcp = _
    rw [flag_upper]
    simp (disch := decide) only [h01, flag_putBits_self]
  · simp (disch := decide) only [h0A, flag_putBits_of_disjoint, flag_isoBits]
  · simp (disch := decide) only [h0A, flag_putBits_of_disjoint, flag_isoBits]
  · simp (disch := decide) only [h0A, flag_putBits_of_disjoint, flag_putBits_self]

/-- The types that a 232H has. -/
theorem type2bit_232H (t : UInt8) : type2bit t .type232H = 0 ∨ type2bit t .type232H = 1 ∨
    type2bit t .type232H = 2 ∨ type2bit t .type232H = 4 ∨ type2bit t .type232H = 8 := by
  simp only [type2bit]
  split <;> simp_all

/-- The functions of a 232H, as they are put. -/
def cbusH (e : Eeprom) (i : ℕ) : ℤ := cbusOr cbushClk7_5 cbushTristate (e.cbusFunction.get i)

theorem get_setFt232hCbus (e : Eeprom) (x : Image) :
    (∀ i < 5, (setFt232hCbus e x).get (0x18 + i) =
      byte (cbusH e (2 * i)) ||| byte (cbusH e (2 * i + 1) <<< (4 : ℕ))) ∧
      ∀ a, a < 0x18 ∨ 0x1c < a → (setFt232hCbus e x).get a = x.get a := by
  unfold setFt232hCbus cbusH
  constructor
  · intro i hi
    rw [UInt8.or_comm]
    exact Cells.get_loop hi (by decide)
  · exact fun a ha => Cells.get_loop_of_out (by omega)

/-- What is read back of the functions of the CBUS pins of a 232H. -/
theorem cbus_232H (hsane : Sane e)
    (hout : ∀ a < 0x1f, out.get a = (put232H e (putUseSerial .type232H e before)).get a) :
    (decodedEeprom .type232H out m p s d).cbusFunction =
      d.cbusFunction.write 0 ((List.range 10).map (cbusH e)) := by
  have hpins : ∀ i < 5, decodeCbus (out.get (0x18 + i)) =
      [cbusH e (2 * i), cbusH e (2 * i + 1)] := by
    intro i hi
    rw [hout _ (by omega), put232H, Cells.get_set_ne (by omega), (get_setFt232hCbus e _).1 i hi]
    exact decodeCbus_pair
      (cbusOr_range cbushClk7_5 cbushTristate (hsane.cbus _ (by omega)) (by decide) (by decide))
      (cbusOr_range cbushClk7_5 cbushTristate (hsane.cbus _ (by omega)) (by decide) (by decide))
  have hall : (List.range 5).flatMap (fun i => decodeCbus (out.get (0x18 + i))) =
      (List.range 5).flatMap fun i => [cbusH e (2 * i), cbusH e (2 * i + 1)] :=
    List.flatMap_congr fun i hi => hpins i (List.mem_range.mp hi)
  show d.cbusFunction.write 0
    ((List.range 5).flatMap fun i => decodeCbus (out.get (0x18 + i))) = _
  rw [hall]
  rfl

/-- **A 232H.** -/
theorem kept_232H (hsane : Sane e) (hconfig : before.get 0x0A = isoBits e)
    (h0c : before.get 0x0c = 0) (h0d : before.get 0x0d = 0)
    (hout : ∀ a < 0x1f, out.get a = (put232H e (putUseSerial .type232H e before)).get a) :
    Kept232H e (decodedEeprom .type232H out m p s d) ∧
      flag (out.get 0x0A) 0x01 = truth e.inIsIsochronous ∧
      flag (out.get 0x0A) 0x02 = truth e.outIsIsochronous ∧
      flag (out.get 0x0A) useSerialNum = truth e.useSerial := by
  have hg0 := fun x => (putGroup_eq (a := 0x0c) (by decide) hsane.drive0 x).1
  have hg1 := fun x => (putGroup_eq (a := 0x0d) (by decide) hsane.drive1 x).1
  have hother := fun x => (get_setFt232hCbus e x).2
  have h00 := hout 0x00 (by decide)
  have h01 := hout 0x01 (by decide)
  have h0A := hout 0x0A (by decide)
  have h0C := hout 0x0c (by decide)
  have h0D := hout 0x0d (by decide)
  have h1e := hout 0x1e (by decide)
  rw [putUseSerial_eq (by decide)] at h00 h01 h0A h0C h0D h1e
  simp (disch := omega) only [put232H, putFlag_eq, hg0, hg1, hother, Cells.get_set_ne,
    Cells.get_set_self, hconfig, h0c, h0d, UInt8.zero_or] at h00 h01 h0A h0C h0D h1e
  -- the pins, and the two groups with a byte each
  have hcbus := cbus_232H (m := m) (p := p) (s := s) (d := d) hsane hout
  have hgroup0 := (groupBits_kept hsane.drive0).2
  have hgroup1 := (groupBits_kept hsane.drive1).2
  rw [← h0C] at hgroup0
  rw [← h0D] at hgroup1
  refine ⟨{
    channelAType := ?_
    channelADriver := ?_
    powersave := ?_
    clockPolarity := ?_
    dataOrder := ?_
    flowControl := ?_
    suspendPullDowns := ?_
    group0 := hgroup0
    group1 := hgroup1
    cbus := fun i hi => ?_
    chip := ?_ }, ?_, ?_, ?_⟩
  · show ((out.get 0x00 &&& 0xf).toNat : ℤ) = _
    rw [h00, putBits_and_of_disjoint (by decide), channelKept]
    rcases type2bit_232H (byte e.channelAType) with h | h | h | h | h <;> rw [h] <;> rfl
  · show flag (out.get 0x00) driverVcph = _
    simp (disch := decide) only [h00, flag_putBits_self]
  · show flag (out.get 0x01) powerSaveDisableH = _
    simp (disch := decide) only [h01, flag_putBits_of_disjoint, flag_putBits_self]
  · show flag (out.get 0x01) ft1284ClkIdleState = _
    simp (disch := decide) only [h01, flag_putBits_of_disjoint, flag_putBits_self]
  · show flag (out.get 0x01) ft1284DataLsb = _
    simp (disch := decide) only [h01, flag_putBits_of_disjoint, flag_putBits_self]
  · show flag (out.get 0x01) ft1284FlowControl = _
    simp (disch := decide) only [h01, flag_putBits_self]
  · show flag (out.get 0x0A) 0x04 = _
    simp (disch := decide) only [h0A, flag_putBits_self]
  · rw [hcbus, Cells.get_write_zero hi (by simpa using hi), List.getElem_map, List.getElem_range]
    rfl
  · show ((out.get 0x1e).toNat : ℤ) = _
    rw [h1e, toNat_byte]
  · simp (disch := decide) only [h0A, flag_putBits_of_disjoint, flag_isoBits]
  · simp (disch := decide) only [h0A, flag_putBits_of_disjoint, flag_isoBits]
  · simp (disch := decide) only [h0A, flag_putBits_of_disjoint, flag_putBits_self]

/-- **A 230X.** -/
theorem kept_230X
    (hout : ∀ a < 0x21, out.get a = (put230X e (putUseSerial .type230X e before)).get a) :
    Kept230X e (decodedEeprom .type230X out m p s d) ∧
      flag (out.get 0x0A) useSerialNum = truth e.useSerial := by
  rw [putUseSerial_eq (by decide)] at hout
  have h0A := hout 0x0A (by decide)
  have h0B := hout 0x0b (by decide)
  have hpins : ∀ i < 4, out.get (0x1a + i) = byte (e.cbusFunction.get i) := by
    intro i hi
    rw [hout _ (by omega), put230X, Cells.get_set_ne (by omega)]
    exact Cells.get_loop (by omega) (by decide)
  simp (disch := omega) only [put230X, Cells.get_loop_of_out, Cells.get_set_ne,
    Cells.get_set_self] at h0A h0B
  refine ⟨⟨fun i hi => ?_, ?_⟩, ?_⟩
  · show (d.cbusFunction.write 0 ((List.range 4).map fun i =>
      ((out.get (0x1a + i)).toNat : ℤ))).get i = _
    rw [Cells.get_write_zero (by omega) (by simpa using hi), List.getElem_map, List.getElem_range,
      hpins i hi, toNat_byte]
  · show ((out.get 0x0b).toNat : ℤ) = _
    rw [h0B, toNat_byte]
  · simp (disch := decide) only [h0A, flag_putBits_self]

end Chips

end Ftdi

end SgFtdi
