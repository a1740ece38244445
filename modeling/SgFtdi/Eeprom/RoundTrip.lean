import SgFtdi.Eeprom.Checksum
import SgFtdi.Eeprom.Fields

/-!
# An image is taken apart again

`ImageOf` is what there is to know of an image that is made of the fields
of a `ftdi_eeprom`: the bytes of its fields, its strings, the user's data
and the checksum. `ftdi_eeprom_build` makes such an image, and
`ftdi_eeprom_decode` finds the fields in any image that is one, whatever
the `ftdi_eeprom` it is told to put them into.
-/

namespace SgFtdi

namespace Ftdi

open Prog

variable {σ : Type} {pipe : Pipe σ} {type : ChipType} {e : Eeprom} {n : ℕ}

/-- `free_start`: the first address behind the fields of a chip. -/
def freeStart : ChipType → ℕ
  | .typeAM | .typeBM => 0x14
  | .type2232C => 0x15
  | .typeR => 0x17
  | .type2232H | .type4232H => 0x19
  | .type232H => 0x1f
  | .type230X => 0x21

/-- An address below the strings that no field of a chip is at. -/
def unusedAt : ChipType → ℕ
  | .typeAM | .typeBM => 0x01
  | .type2232C => 0x0B
  | .typeR => 0x17
  | .type2232H | .type4232H | .type232H | .type230X => 0x14

/-- Where the user's data has to end: before the strings, and on a 230X
before the reserved section. -/
def freeEnd (type : ChipType) (n : ℕ) : ℕ :=
  if type = .type230X then 0x80 else (stringsStart type).toNat % n

/-- A chip and the size of its EEPROM. -/
structure Fitting (type : ChipType) (n : ℕ) : Prop where
  sized : Sized n
  large : type = .type230X → n = 0x100

theorem Fitting.bounds (h : Fitting type n) : freeStart type ≤ freeEnd type n ∧
    freeEnd type n ≤ (stringsStart type).toNat % n ∧ (stringsStart type).toNat % n ≤ n - 2 ∧
    n ≤ 0x100 ∧ 0x80 ≤ n ∧ n % 2 = 0 := by
  have hlarge := h.large
  rcases h.sized with rfl | rfl
  · cases type <;> first | decide | exact absurd (hlarge rfl) (by decide)
  · cases type <;> decide

theorem freeStart_range (type : ChipType) : 0x14 ≤ freeStart type ∧ freeStart type ≤ 0x21 := by
  cases type <;> decide

/-- The user's data is put where nothing else is. -/
def UserDataFits (type : ChipType) (n : ℕ) (e : Eeprom) : Prop :=
  ∀ userData, e.userData = some userData → 0 ≤ e.userDataSize →
    (freeStart type : ℤ) ≤ e.userDataAddr ∧ e.userDataAddr + e.userDataSize ≤ freeEnd type n ∧
      e.userDataSize ≤ userData.length

/-- A byte of the user's data. -/
def UserByte (e : Eeprom) (a : ℕ) : Prop :=
  ∃ userData, e.userData = some userData ∧ 0 ≤ e.userDataSize ∧ e.userDataAddr ≤ a ∧
    (a : ℤ) < e.userDataAddr + e.userDataSize

theorem UserDataFits.range {a : ℕ} (h : UserDataFits type n e) (ha : UserByte e a) :
    freeStart type ≤ a ∧ a < freeEnd type n := by
  obtain ⟨userData, hdata, hpos, hlow, hhigh⟩ := ha
  obtain ⟨haddr, hlast, -⟩ := h userData hdata hpos
  omega

/-- **An image of some fields.** -/
structure ImageOf (type : ChipType) (e : Eeprom) (n : ℕ) (out : Image) : Prop where
  fields : ∀ a < freeStart type, out.get a = (generated type e).get a
  manufacturer : Holds out n ((stringsStart type).toNat % n) 0x0E 0x0F e.manufacturer
  product : Holds out n ((stringsStart type).toNat % n) 0x10 0x11 e.product
  serial : Holds out n ((stringsStart type).toNat % n) 0x12 0x13 e.serial
  userData : ∀ userData, e.userData = some userData → 0 ≤ e.userDataSize →
    out.read e.userDataAddr.toNat e.userDataSize.toNat = userData.take e.userDataSize.toNat
  free : ∀ a, freeStart type ≤ a → a < freeEnd type n → ¬ UserByte e a → out.get a = 0
  checksum : wordAt out (n / 2 - 1) =
    mixWords out (checksumWords type (n / 2 - 1) (n / 2 - 1) 0) 0xAAAA

theorem after_setEeprom_bind {α : Type} {f : Eeprom → Eeprom} {k : Unit → Job σ α}
    {R : α → Programmer σ → Prop} {s : Programmer σ} :
    After (setEeprom f >>= k) R s ↔ After (k ()) R { s with eeprom := f s.eeprom } := Iff.rfl

/-! ## What is generated -/

theorem get_orBits_of_ne {a b : ℕ} {bits : UInt8} {m : Image} (h : b ≠ a) :
    (orBits a bits m).get b = m.get b := Cells.get_set_ne h

theorem get_putGroup_of_ne {a b shift : ℕ} {group : Group} {m : Image} (h : b ≠ a) :
    (putGroup a shift group m).get b = m.get b := by
  unfold putGroup
  simp only [orFlag_eq, Cells.get_set_ne h]
  split <;> exact Cells.get_set_ne h

/-- **The fields of a chip** are at the start of the image and behind the
places of the strings. -/
theorem get_putSpecific {a : ℕ} {m : Image}
    (h : 2 ≤ a ∧ a ≤ 9 ∨ 0x0E ≤ a ∧ a ≤ 0x13 ∨ freeStart type ≤ a ∨ a = unusedAt type) :
    (putSpecific type e m).get a = m.get a := by
  cases type <;> simp only [freeStart, unusedAt] at h
  · rfl
  · simp (disch := omega) only [putSpecific, putFlag_eq, Cells.get_set_ne]
  · simp (disch := omega) only [putSpecific, put2232C, putFlag_eq, Cells.get_set_ne]
  · have hdriver : ∀ x : Image, (if e.channelADriver ≠ 0 then clearBits 0x00 driverVcp x
        else orBits 0x00 driverVcp x).get a = x.get a := by
      intro x
      split <;> exact Cells.get_set_ne (by omega)
    simp (disch := omega) only [putSpecific, putR, putFlag_eq, orFlag_eq, hdriver, get_orBits_of_ne,
      Cells.get_set_ne]
  · simp (disch := omega) only [putSpecific, put2232H, putGroups, putFlag_eq, get_putGroup_of_ne,
      Cells.get_set_ne]
  · simp (disch := omega) only [putSpecific, put4232H, putGroups, putFlag_eq, get_putGroup_of_ne,
      Cells.get_set_ne]
  · have hpins := fun x => (get_setFt232hCbus e x).2 a (by omega)
    simp (disch := omega) only [putSpecific, put232H, putFlag_eq, get_putGroup_of_ne, hpins,
      Cells.get_set_ne]
  · simp (disch := omega) only [putSpecific, put230X, Cells.get_loop_of_out, Cells.get_set_ne]

theorem get_putUseSerial_of_ne {a : ℕ} {m : Image} (h : a ≠ 0x0A) :
    (putUseSerial type e m).get a = m.get a := by
  unfold putUseSerial
  split
  · rw [putFlag_eq, Cells.get_set_ne h]
  · rfl

/-- The image before the fields that are specific to some types. -/
def common (type : ChipType) (e : Eeprom) : Image :=
  putStrings type e (putHeader type e (emptied type e.buf))

theorem generated_eq :
    generated type e = putSpecific type e (putUseSerial type e (common type e)) :=
  rfl

theorem get_generated {a : ℕ}
    (h : 2 ≤ a ∧ a ≤ 9 ∨ 0x0E ≤ a ∧ a ≤ 0x13 ∨ freeStart type ≤ a) :
    (generated type e).get a = (common type e).get a := by
  have hstart := freeStart_range type
  rw [generated_eq, get_putSpecific (by omega), get_putUseSerial_of_ne (by omega)]

/-- What is specific to some types leaves the rest alone. -/
theorem decodedEeprom_common (type : ChipType) (out : Image) (m p s : Option CString) (d : Eeprom) :
    let r := decodedEeprom type out m p s d
    r.vendorId = (word (out.get 0x02) (out.get 0x03)).toNat ∧
      r.productId = (word (out.get 0x04) (out.get 0x05)).toNat ∧
      r.releaseNumber = (word (out.get 0x06) (out.get 0x07)).toNat ∧
      r.selfPowered = flag (out.get 0x08) 0x40 ∧ r.remoteWakeup = flag (out.get 0x08) 0x20 ∧
      r.maxPower = 2 * (out.get 0x09).toNat ∧ r.inIsIsochronous = flag (out.get 0x0A) 0x01 ∧
      r.outIsIsochronous = flag (out.get 0x0A) 0x02 ∧
      r.useSerial = flag (out.get 0x0A) useSerialNum ∧
      r.manufacturer = m ∧ r.product = p ∧ r.serial = s := by
  cases type <;> exact ⟨rfl, rfl, rfl, rfl, rfl, rfl, rfl, rfl, rfl, rfl, rfl, rfl⟩

section Generated

variable (hfitting : Fitting type n) (hsize : e.size = n) (hfit : StringsFit type e)

include hfitting hsize hfit

/-- A byte of the header. -/
theorem get_common {a : ℕ} (h0 : 0 < a) (ha : a < (stringsStart type).toNat % n)
    (hout : a < 0x0E ∨ 0x13 < a) :
    (common type e).get a = (putHeader type e (emptied type e.buf)).get a :=
  (strung_putStrings hfitting.sized hsize hfit _).kept a h0 ha hout

/-- The strings of an image. -/
theorem generated_holds :
    Holds (generated type e) n ((stringsStart type).toNat % n) 0x0E 0x0F e.manufacturer ∧
      Holds (generated type e) n ((stringsStart type).toNat % n) 0x10 0x11 e.product ∧
      Holds (generated type e) n ((stringsStart type).toNat % n) 0x12 0x13 e.serial := by
  obtain ⟨hfree, hbase, -, -, -, -⟩ := hfitting.bounds
  -- nothing that is written after the strings reaches them or their places
  have hstrung := strung_putStrings hfitting.sized hsize hfit (putHeader type e
    (emptied type e.buf))
  have hlow : ∀ a, 0x0E ≤ a → a ≤ 0x13 → (generated type e).get a = (common type e).get a :=
    fun a h h' => get_generated (.inr (.inl ⟨h, h'⟩))
  have hin : ∀ a, (stringsStart type).toNat % n ≤ a → a < n - 2 →
      (generated type e).get a = (common type e).get a :=
    fun a h _ => get_generated (.inr (.inr (by omega)))
  exact ⟨hstrung.manufacturer.congr (hlow _ (by decide) (by decide))
      (hlow _ (by decide) (by decide)) hin,
    hstrung.product.congr (hlow _ (by decide) (by decide)) (hlow _ (by decide) (by decide)) hin,
    hstrung.serial.congr (hlow _ (by decide) (by decide)) (hlow _ (by decide) (by decide)) hin⟩

/-- Where the first string is. -/
theorem generated_first :
    ((generated type e).get 0x0E).toNat % n = (stringsStart type).toNat % n := by
  rw [get_generated (.inr (.inl ⟨by decide, by decide⟩))]
  exact (strung_putStrings hfitting.sized hsize hfit (putHeader type e (emptied type e.buf))).first

/-- The space for the user's data is empty. -/
theorem generated_free {a : ℕ} (hlow : freeStart type ≤ a) (hhigh : a < freeEnd type n) :
    (generated type e).get a = 0 := by
  obtain ⟨hfree, hbase, hend, hn, hn', -⟩ := hfitting.bounds
  obtain ⟨hstart, -⟩ := freeStart_range type
  rw [get_generated (.inr (.inr hlow)), get_common hfitting hsize hfit (by omega) (by omega)
    (by omega), (headed_putHeader type e (emptied type e.buf)).kept a (by omega)]
  unfold emptied
  split
  · next htype =>
    have hend : freeEnd type n = 0x80 := if_pos htype
    rw [Cells.get_fill, Cells.get_fill, if_neg (by omega), if_pos (by omega)]
  · rw [Cells.get_fill, if_pos (by omega)]

/-- The bytes that the specific fields start from. -/
theorem common_config :
    (common type e).get 0x0A =
      (if type ≠ .typeAM ∧ type ≠ .type230X then isoBits e else 0) ∧
    (common type e).get 0x0c = 0 ∧ (common type e).get 0x0d = 0 := by
  obtain ⟨hfree, hbase, -, -, -, -⟩ := hfitting.bounds
  obtain ⟨hstart, -⟩ := freeStart_range type
  have hempty : ∀ a < 0x80, (emptied type e.buf).get a = 0 := by
    intro a ha
    unfold emptied
    split
    · rw [Cells.get_fill, Cells.get_fill, if_neg (by omega), if_pos (by omega)]
    · rw [Cells.get_fill, if_pos (by omega)]
  have hheaded := headed_putHeader type e (emptied type e.buf)
  refine ⟨?_, ?_, ?_⟩
  · rw [get_common hfitting hsize hfit (by decide) (by omega) (by decide), hheaded.config,
      hempty _ (by decide)]
  · rw [get_common hfitting hsize hfit (by decide) (by omega) (by decide),
      hheaded.kept _ (by decide), hempty _ (by decide)]
  · rw [get_common hfitting hsize hfit (by decide) (by omega) (by decide),
      hheaded.kept _ (by decide), hempty _ (by decide)]

/-- **What a chip keeps of its own fields** is read back. -/
theorem ImageOf.specific {out : Image} (h : ImageOf type e n out) (hsane : Sane e)
    (m p s : Option CString) (d : Eeprom) :
    KeptSpecific type e (decodedEeprom type out m p s d) ∧
      (type ≠ .typeAM → type ≠ .type230X → flag (out.get 0x0A) 0x01 = truth e.inIsIsochronous ∧
        flag (out.get 0x0A) 0x02 = truth e.outIsIsochronous) ∧
      (type ≠ .typeAM → flag (out.get 0x0A) useSerialNum = truth e.useSerial) := by
  obtain ⟨hconfig, h0c, h0d⟩ := common_config hfitting hsize hfit
  have hfields := h.fields
  simp only [generated_eq] at hfields
  cases type with
  | typeAM => exact ⟨trivial, fun h => absurd rfl h, fun h => absurd rfl h⟩
  | typeBM =>
      obtain ⟨h1, h2, h3, h4⟩ := kept_BM (hconfig.trans (if_pos (by decide))) hfields
      exact ⟨h1, fun _ _ => ⟨h2, h3⟩, fun _ => h4⟩
  | type2232C =>
      obtain ⟨h1, h2, h3, h4⟩ := kept_2232C (hconfig.trans (if_pos (by decide))) hfields
      exact ⟨h1, fun _ _ => ⟨h2, h3⟩, fun _ => h4⟩
  | typeR =>
      obtain ⟨h1, h2, h3, h4⟩ := kept_R hsane (hconfig.trans (if_pos (by decide))) hfields
      exact ⟨h1, fun _ _ => ⟨h2, h3⟩, fun _ => h4⟩
  | type2232H =>
      obtain ⟨h1, h2, h3, h4⟩ :=
        kept_2232H hsane (hconfig.trans (if_pos (by decide))) h0c h0d hfields
      exact ⟨h1, fun _ _ => ⟨h2, h3⟩, fun _ => h4⟩
  | type4232H =>
      obtain ⟨h1, h2, h3, h4⟩ :=
        kept_4232H hsane (hconfig.trans (if_pos (by decide))) h0c h0d hfields
      exact ⟨h1, fun _ _ => ⟨h2, h3⟩, fun _ => h4⟩
  | type232H =>
      obtain ⟨h1, h2, h3, h4⟩ :=
        kept_232H hsane (hconfig.trans (if_pos (by decide))) h0c h0d hfields
      exact ⟨h1, fun _ _ => ⟨h2, h3⟩, fun _ => h4⟩
  | type230X =>
      obtain ⟨h1, h2⟩ := kept_230X hfields
      exact ⟨h1, fun _ h => absurd rfl h, fun _ => h2⟩

/-- **The fields are found** in an image that is made of them. -/
theorem ImageOf.recovered {out : Image} (h : ImageOf type e n out) (hsane : Sane e) (d : Eeprom) :
    Recovered type e (decodedEeprom type out (some (written e.manufacturer))
      (some (written e.product)) (some (written e.serial)) d) := by
  obtain ⟨hfree, hbase, -, -, -, -⟩ := hfitting.bounds
  obtain ⟨hstart, -⟩ := freeStart_range type
  have hheaded := headed_putHeader type e (emptied type e.buf)
  have hbyte : ∀ a, 2 ≤ a → a ≤ 9 → out.get a = (putHeader type e (emptied type e.buf)).get a :=
    fun a hlow hhigh => by
      rw [h.fields a (by omega), get_generated (.inl ⟨hlow, hhigh⟩),
        get_common hfitting hsize hfit (by omega) (by omega) (by omega)]
  obtain ⟨hspec, hiso, huse⟩ := h.specific hfitting hsize hfit hsane (some (written e.manufacturer))
    (some (written e.product)) (some (written e.serial)) d
  obtain ⟨h1, h2, h3, h4, h5, h6, h7, h8, h9, h10, h11, h12⟩ := decodedEeprom_common type out
    (some (written e.manufacturer)) (some (written e.product)) (some (written e.serial)) d
  refine {
    vendorId := ?_
    productId := ?_
    releaseNumber := ?_
    selfPowered := ?_
    remoteWakeup := ?_
    maxPower := ?_
    manufacturer := h10
    product := h11
    serial := h12
    isochronous := fun ham hx => by rw [h7, h8]; exact hiso ham hx
    useSerial := fun ham => by rw [h9]; exact huse ham
    specific := hspec }
  · rw [h1, hbyte 2 (by decide) (by decide), hbyte 3 (by decide) (by decide), hheaded.vendorId.1,
      hheaded.vendorId.2, word_byte]
  · rw [h2, hbyte 4 (by decide) (by decide), hbyte 5 (by decide) (by decide), hheaded.productId.1,
      hheaded.productId.2, word_byte]
  · rw [h3, hbyte 6 (by decide) (by decide), hbyte 7 (by decide) (by decide),
      hheaded.releaseNumber.1, hheaded.releaseNumber.2, word_byte]
  · rw [h4, hbyte 8 (by decide) (by decide), hheaded.power, flag_putBits_of_disjoint (by decide),
      flag_putBits_self (by decide)]
  · rw [h5, hbyte 8 (by decide) (by decide), hheaded.power, flag_putBits_self (by decide)]
  · rw [h6, hbyte 9 (by decide) (by decide), hheaded.maxPower, toNat_byte]

/-- **Taking an image apart**: the fields are found, and the checksum is
right. -/
theorem decode_after {out : Image} (h : ImageOf type e n out) (hsane : Sane e) {u : Programmer σ}
    (htype : u.type = type) (husize : u.eeprom.size = n) (hbuf : u.eeprom.buf = out) :
    After (ftdiEepromDecode : Job σ Unit) (fun _ v => Recovered type e v.eeprom ∧
      v.eeprom.buf = out ∧ v.eeprom.size = n) u := by
  have hsized := hfitting.sized
  obtain ⟨-, -, -, hn, hn', heven⟩ := hfitting.bounds
  have hword : word (out.get (n - 2)) (out.get (n - 1)) = wordAt out (n / 2 - 1) := by
    have hlow : (n / 2 - 1) * 2 = n - 2 := by omega
    have hhigh : (n / 2 - 1) * 2 + 1 = n - 1 := by omega
    rw [wordAt, hhigh, hlow]
  unfold ftdiEepromDecode
  rw [after_look_bind, after_setEeprom_bind]
  simp only [husize, hbuf, htype, Int.toNat_natCast]
  rw [after_bind_of_ret (h.manufacturer.decode hsized _), after_setEeprom_bind,
    after_bind_of_ret (h.product.decode hsized _), after_setEeprom_bind,
    after_bind_of_ret (h.serial.decode hsized _), after_setEeprom_bind, if_neg (by omega),
    decodeChecksum_eq, hword, if_neg (not_not.mpr h.checksum)]
  refine ⟨(), _, rfl, h.recovered hfitting hsize hfit hsane u.eeprom, ?_, ?_⟩
  · cases type <;> exact hbuf
  · cases type <;> exact husize

end Generated

/-! ## Making an image -/

/-- The fields of an image in which the user's data has been put. -/
structure WithUserData (e : Eeprom) (g out : Image) : Prop where
  kept : ∀ a, ¬ UserByte e a → out.get a = g.get a
  userData : ∀ userData, e.userData = some userData → 0 ≤ e.userDataSize →
    out.read e.userDataAddr.toNat e.userDataSize.toNat = userData.take e.userDataSize.toNat

/-- **The user's data** is put between the fields and the strings. -/
theorem putUserData_after {s : Programmer σ} (hfitting : Fitting type n)
    (hsize : s.eeprom.size = n) (huser : UserDataFits type n s.eeprom) :
    After (putUserData : Job σ Unit) (fun _ t => ∃ out, WithUserData s.eeprom s.eeprom.buf out ∧
      t = { s with eeprom := { s.eeprom with buf := out } }) s := by
  obtain ⟨hfree, hbase, hend, hn, -, -⟩ := hfitting.bounds
  unfold putUserData
  rw [after_look_bind]
  rcases hdata : s.eeprom.userData with _ | userData
  · exact ⟨(), s, rfl, s.eeprom.buf, ⟨fun _ _ => rfl, fun _ h => absurd (hdata.symm.trans h) nofun⟩,
      rfl⟩
  · by_cases hpos : 0 ≤ s.eeprom.userDataSize
    · obtain ⟨haddr, hlast, hlen⟩ := huser userData hdata hpos
      simp only [ge_iff_le, if_pos hpos]
      rw [if_neg (by omega), if_neg (by omega)]
      have htake : (userData.take s.eeprom.userDataSize.toNat).length =
          s.eeprom.userDataSize.toNat := by
        rw [List.length_take]
        omega
      refine ⟨(), _, rfl, _, ⟨fun a ha => Cells.get_write_of_out ?_, ?_⟩, rfl⟩
      -- a byte that is written is one of the user's
      · by_contra hin
        exact ha ⟨userData, hdata, hpos, by omega, by omega⟩
      intro other hother _
      obtain rfl : userData = other := Option.some.inj (hdata.symm.trans hother)
      have hread : (s.eeprom.buf.write s.eeprom.userDataAddr.toNat
          (userData.take s.eeprom.userDataSize.toNat)).read s.eeprom.userDataAddr.toNat
          (userData.take s.eeprom.userDataSize.toNat).length =
            userData.take s.eeprom.userDataSize.toNat := Cells.read_write (by omega)
      rwa [htake] at hread
    · simp only [ge_iff_le, if_neg hpos]
      exact ⟨(), s, rfl, s.eeprom.buf, ⟨fun _ _ => rfl, fun _ _ h => absurd h hpos⟩, rfl⟩

theorem word_parts (c : UInt16) : word c.toUInt8 (c >>> 8).toUInt8 = c := by
  have hc := c.toNat_lt
  have hdown : (c >>> 8).toNat = c.toNat / 0x100 := by
    rw [UInt16.toNat_shiftRight, Nat.shiftRight_eq_div_pow]
    rfl
  rw [← UInt16.toNat_inj, toNat_word, UInt16.toNat_toUInt8, UInt16.toNat_toUInt8, hdown]
  omega

/-- An image with its checksum, as the device has it. -/
def finished (type : ChipType) (n : ℕ) (factory out : Image) (c : UInt16) : Image :=
  withFactory type factory ((out.set (n - 2) c.toUInt8).set (n - 1) (c >>> 8).toUInt8)

section Finished

variable {out factory : Image} {c : UInt16}

/-- The reserved section of a 230X is between the user's data and the
strings. -/
theorem Fitting.places (hfitting : Fitting type n) (htype : type = .type230X) :
    n = 0x100 ∧ freeEnd type n = 0x80 ∧ (stringsStart type).toNat % n = 0xa0 := by
  have hlarge := hfitting.large htype
  subst htype hlarge
  exact ⟨rfl, rfl, rfl⟩

/-- The checksum and the device's own section leave the other bytes. -/
theorem get_finished {a : ℕ} (hfactory : type = .type230X → a < 0x80 ∨ 0xa0 ≤ a)
    (ha : a < n - 2) : (finished type n factory out c).get a = out.get a := by
  rw [finished, get_withFactory_of_out hfactory, Cells.get_set_ne (by omega),
    Cells.get_set_ne (by omega)]

/-- The bytes before the checksum are those that it was computed of. -/
theorem get_finished_covered {a : ℕ} (ha : a < n - 2) :
    (finished type n factory out c).get a = (withFactory type factory out).get a := by
  by_cases hin : type = .type230X ∧ 0x80 ≤ a ∧ a < 0xa0
  · rw [finished, get_withFactory hin.1 hin.2.1 hin.2.2, get_withFactory hin.1 hin.2.1 hin.2.2]
  · have hfactory : type = .type230X → a < 0x80 ∨ 0xa0 ≤ a := fun htype => by
      by_contra hno
      exact hin ⟨htype, by omega⟩
    rw [get_finished hfactory ha, get_withFactory_of_out hfactory]

/-- Below the user's data are the fields. -/
theorem finished_low (hfitting : Fitting type n) (h : WithUserData e (generated type e) out)
    (huser : UserDataFits type n e) {a : ℕ} (ha : a < freeStart type) :
    (finished type n factory out c).get a = (generated type e).get a := by
  obtain ⟨hfree, hbase, hend, -, hn, -⟩ := hfitting.bounds
  obtain ⟨-, hstart⟩ := freeStart_range type
  rw [get_finished (fun _ => by omega) (by omega),
    h.kept a fun hin => by have hrange := huser.range hin; omega]

/-- Above the user's data are the strings. -/
theorem finished_high (hfitting : Fitting type n) (h : WithUserData e (generated type e) out)
    (huser : UserDataFits type n e) {a : ℕ} (ha : (stringsStart type).toNat % n ≤ a)
    (hlast : a < n - 2) :
    (finished type n factory out c).get a = (generated type e).get a := by
  obtain ⟨-, hbase, -, -, -, -⟩ := hfitting.bounds
  rw [get_finished (fun htype => by have := (hfitting.places htype).2.2; omega) hlast,
    h.kept a fun hin => by have hrange := huser.range hin; omega]

/-- The last word is the checksum, which does not cover it. -/
theorem wordAt_finished (hfitting : Fitting type n)
    (hc : c = mixWords (withFactory type factory out)
      (checksumWords type (n / 2 - 1) (n / 2 - 1) 0) 0xAAAA) :
    wordAt (finished type n factory out c) (n / 2 - 1) =
      mixWords (finished type n factory out c) (checksumWords type (n / 2 - 1) (n / 2 - 1) 0)
        0xAAAA := by
  obtain ⟨-, -, -, hn, hn', heven⟩ := hfitting.bounds
  have hplace : (n / 2 - 1) * 2 = n - 2 := by omega
  have hplace' : n - 2 + 1 = n - 1 := by omega
  have hword : wordAt (finished type n factory out c) (n / 2 - 1) = c := by
    rw [wordAt, hplace, hplace', finished,
      get_withFactory_of_out (fun htype => by have := (hfitting.places htype).1; omega),
      get_withFactory_of_out (fun htype => by have := (hfitting.places htype).1; omega),
      Cells.get_set_self (by omega), Cells.get_set_ne (by omega), Cells.get_set_self (by omega),
      word_parts]
  refine hword.trans (hc.trans (mixWords_congr _ fun k hk => ?_))
  have hbound : k * 2 + 1 < n - 2 := by
    rcases lt_of_mem_checksumWords hk with hlt | ⟨htype, rfl⟩
    · omega
    · rw [hfitting.large htype]
      decide
  rw [wordAt, wordAt, get_finished_covered (by omega), get_finished_covered hbound]

/-- **The checksum** makes an image complete, as the device has it. -/
theorem imageOf_checksum (hfitting : Fitting type n) (hsize : e.size = n)
    (hfit : StringsFit type e) (h : WithUserData e (generated type e) out)
    (huser : UserDataFits type n e)
    (hc : c = mixWords (withFactory type factory out)
      (checksumWords type (n / 2 - 1) (n / 2 - 1) 0) 0xAAAA) :
    ImageOf type e n (finished type n factory out c) := by
  obtain ⟨-, hbase, hend, hn, -, -⟩ := hfitting.bounds
  obtain ⟨hstart, -⟩ := freeStart_range type
  obtain ⟨hm, hp, hs⟩ := generated_holds hfitting hsize hfit
  have hlow : ∀ a < freeStart type,
      (finished type n factory out c).get a = (generated type e).get a :=
    fun _ => finished_low hfitting h huser
  have hhigh : ∀ a, (stringsStart type).toNat % n ≤ a → a < n - 2 →
      (finished type n factory out c).get a = (generated type e).get a :=
    fun _ => finished_high hfitting h huser
  refine {
    fields := hlow
    manufacturer := hm.congr (hlow _ (by omega)) (hlow _ (by omega)) hhigh
    product := hp.congr (hlow _ (by omega)) (hlow _ (by omega)) hhigh
    serial := hs.congr (hlow _ (by omega)) (hlow _ (by omega)) hhigh
    userData := fun userData hdata hpos => ?_
    free := fun a hlow hhigh hno => ?_
    checksum := wordAt_finished hfitting hc }
  · obtain ⟨haddr, hlast, -⟩ := huser userData hdata hpos
    rw [← h.userData userData hdata hpos]
    exact Cells.read_congr fun a hlow hhigh =>
      get_finished (fun htype => by have := (hfitting.places htype).2.1; omega) (by omega)
  · rw [get_finished (fun htype => by have := (hfitting.places htype).2.1; omega) (by omega),
      h.kept a hno, generated_free hfitting hsize hfit hlow hhigh]

end Finished

/-- What `ftdi_eeprom_build` leaves, where the fields with their size are
`e`. -/
structure BuiltFrom (I : σ → Prop) (factory : Image) (s : Programmer σ) (e : Eeprom) (n : ℕ)
    (t : Programmer σ) : Prop where
  image : ImageOf s.type e n (withFactory s.type factory t.eeprom.buf)
  eeprom : t.eeprom = { e with buf := t.eeprom.buf, initializedForConnectedDevice := 1 }
  rest : ∃ w, (I s.world → I w) ∧ t = { s with eeprom := t.eeprom, world := w }

/-- **Making an image.** -/
theorem build_after {I : σ → Prop} {factory : Image} {s : Programmer σ}
    (hchip : s.eeprom.chip ≠ -1) (hfitting : Fitting s.type n)
    (hsize : (withSize s.eeprom).size = n) (hfit : StringsFit s.type (withSize s.eeprom))
    (huser : UserDataFits s.type n (withSize s.eeprom)) (hasked : Asked pipe I s.type factory s) :
    After (ftdiEepromBuild pipe) (fun _ t => BuiltFrom I factory s (withSize s.eeprom) n t) s := by
  obtain ⟨hfree, hbase, hend, hn, hn', -⟩ := hfitting.bounds
  unfold ftdiEepromBuild
  rw [after_look_bind]
  simp only []
  rw [if_neg hchip, after_setEeprom_bind, after_look_bind]
  simp only []
  -- from here on the size is known, and only the sized fields are used
  generalize withSize s.eeprom = e at *
  have hroom : ¬(userAreaSize s.type - ((stringSize e.manufacturer + stringSize e.product +
      stringSize e.serial : ℤ) * 2) < 0) := by
    unfold StringsFit at hfit
    omega
  rw [if_neg hroom, setBuf, after_setEeprom_bind]
  simp only []
  refine (putUserData_after hfitting hsize huser).bind ?_
  rintro _ t ⟨out, hout, rfl⟩
  have hrange : ¬(e.size < 2 ∨ e.size > 0x100) := by omega
  have hbound : e.size.toNat = n := by omega
  rw [if_neg hrange, hbound]
  have hasked' : Asked pipe I s.type factory { s with eeprom := { e with buf := out } } := hasked
  refine (buildChecksum_eq s.type (n / 2 - 1) (n / 2 - 1) 0 0xAAAA hasked').bind ?_
  rintro c _ ⟨hc, w, hw, rfl⟩
  rw [setBuf, after_setEeprom_bind, setBuf, after_setEeprom_bind, after_setEeprom_bind, after_pure]
  exact ⟨imageOf_checksum hfitting hsize hfit ⟨hout.kept, hout.userData⟩ huser hc, rfl, w, hw, rfl⟩

/-! ## The round trip -/

/-- **An image is taken apart into the fields that it was made from**, by
any context that has it as the device has it. -/
theorem build_decode {I : σ → Prop} {factory : Image} {s : Programmer σ}
    (hchip : s.eeprom.chip ≠ -1) (hfitting : Fitting s.type n)
    (hsize : (withSize s.eeprom).size = n) (hfit : StringsFit s.type (withSize s.eeprom))
    (huser : UserDataFits s.type n (withSize s.eeprom)) (hsane : Sane (withSize s.eeprom))
    (hasked : Asked pipe I s.type factory s) :
    After (ftdiEepromBuild pipe) (fun _ t => ∀ (τ : Type) (u : Programmer τ), u.type = s.type →
      u.eeprom.size = n → u.eeprom.buf = withFactory s.type factory t.eeprom.buf →
        After ftdiEepromDecode (fun _ v => Recovered s.type (withSize s.eeprom) v.eeprom ∧
          ∀ userData, s.eeprom.userData = some userData → 0 ≤ s.eeprom.userDataSize →
            v.eeprom.buf.read s.eeprom.userDataAddr.toNat s.eeprom.userDataSize.toNat =
              userData.take s.eeprom.userDataSize.toNat) u) s := by
  refine (build_after hchip hfitting hsize hfit huser hasked).mono ?_
  intro _ t hbuilt τ u htype husize hbuf
  refine (decode_after hfitting hsize hfit hbuilt.image hsane htype husize hbuf).mono ?_
  rintro _ v ⟨hrecovered, hvbuf, -⟩
  refine ⟨hrecovered, fun userData hdata hpos => ?_⟩
  rw [hvbuf]
  have hread := hbuilt.image.userData
  unfold withSize at hread
  split at hread <;> exact hread userData hdata hpos

/-- A device that answers nothing. -/
def silentPipe : Pipe Unit where
  controlOut _ _ _ w := (-1, w)
  controlIn _ _ _ _ w := ((-1, []), w)

/-- The fields of an adapter. -/
def adapter : Eeprom :=
  { Eeprom.zero with
    vendorId := 0x0403
    productId := 0x6001
    maxPower := 100
    manufacturer := some (cString [0x61, 0x62])
    serial := some (cString [0x37])
    useSerial := 1
    userDataAddr := 0x20
    userDataSize := 2
    userData := some [1, 2, 3]
    size := -1
    chip := 0x56 }

/-- A context with an adapter that is not yet programmed. -/
def adapterContext (world : σ) : Programmer σ := ⟨true, .typeBM, 0, 0, 0, adapter, "", world⟩

theorem build_decode_sample :
    After (ftdiEepromBuild silentPipe) (fun _ t => ∀ (τ : Type) (u : Programmer τ),
      u.type = .typeBM → u.eeprom.size = (0x100 : ℕ) →
        u.eeprom.buf = withFactory .typeBM Eeprom.zero.buf t.eeprom.buf →
          After ftdiEepromDecode (fun _ v => Recovered .typeBM (withSize adapter) v.eeprom ∧
            ∀ userData, adapter.userData = some userData → 0 ≤ adapter.userDataSize →
              v.eeprom.buf.read adapter.userDataAddr.toNat adapter.userDataSize.toNat =
                userData.take adapter.userDataSize.toNat) u) (adapterContext ()) :=
  build_decode (I := fun _ => True) (by decide) ⟨.inr rfl, nofun⟩ (by decide)
    (by unfold StringsFit; decide)
    (fun userData hdata _ => by
      obtain rfl := Option.some.inj hdata
      decide)
    ⟨by decide, by decide, by decide, by decide, by decide⟩ nofun

end Ftdi

end SgFtdi
