import SgFtdi.Eeprom.Persistence

/-!
# Defaults

The defaults of `ftdi_eeprom_initdefaults` meet all that the other calls
ask for: a device is programmed with them, and they are found as they
are.
-/

namespace SgFtdi

namespace Ftdi

open Prog

variable {σ : Type} {pipe : Pipe σ} {type : ChipType} {n count : ℕ} {works : σ → Prop}
  {words : σ → ℕ → UInt16} {m p r : Option CString}

/-- The sizes that the EEPROM of a chip has. -/
def Sizes (type : ChipType) (count : ℕ) : Prop :=
  match type with
  | .typeR => 0x40 ≤ count
  | .type230X => 0x80 ≤ count
  | .typeAM | .typeBM | .type2232C | .type2232H | .type4232H | .type232H => External count

/-- The size of an image for an EEPROM. -/
def imageSize (type : ChipType) (count : ℕ) : ℕ :=
  match type with
  | .typeR => 0x80
  | .type230X => 0x100
  | .typeAM | .typeBM | .type2232C | .type2232H | .type4232H | .type232H =>
      if count = 0x40 then 0x80 else 0x100

theorem suits_defaults (h : Sizes type count) :
    Suits type count (imageSize type count) (defaults type m p r) := by
  cases type with
  | typeR => exact ⟨fun hR => absurd rfl hR, fun _ => ⟨h, rfl, rfl⟩, nofun⟩
  | type230X => exact ⟨fun _ hX => absurd rfl hX, nofun, fun _ => ⟨h, rfl, rfl⟩⟩
  | typeAM | typeBM | type2232C | type2232H | type4232H | type232H =>
      exact ⟨fun _ _ => ⟨h, rfl, rfl⟩, nofun, nofun⟩

/-- The functions of the pins. -/
theorem cbus_defaults :
    (defaults type m p r).cbusFunction = (defaultSpecific type Eeprom.zero).cbusFunction := by
  cases type <;> rfl

theorem sane_defaults : Sane (defaults type m p r) := by
  refine ⟨?_, ?_, ?_, ?_, fun i hi => ?_⟩
  · cases type <;> exact le_rfl
  · cases type <;> exact le_rfl
  · cases type <;> exact le_rfl
  · cases type <;> exact le_rfl
  · have hall : ∀ i < 10, 0 ≤ (defaultSpecific type Eeprom.zero).cbusFunction.get i := by
      cases type <;> decide
    rw [cbus_defaults]
    exact hall i hi

/-- There is no user's data. -/
theorem userData_defaults : (defaults type m p r).userData = none := by
  cases type <;> rfl

/-- How many pins of a chip have functions that are kept. -/
def cbusPins : ChipType → ℕ
  | .typeR => 5
  | .type232H => 10
  | .type230X => 4
  | .typeAM | .typeBM | .type2232C | .type2232H | .type4232H => 0

/-- **The defaults**, as they are found. -/
structure DefaultsFound (type : ChipType) (m p r : Option CString) (v : Eeprom) : Prop where
  vendorId : v.vendorId = 0x0403
  productId : v.productId = defaultProductId type
  releaseNumber : v.releaseNumber = defaultRelease type
  maxPower : v.maxPower = (defaults type m p r).maxPower
  useSerial : type ≠ .typeAM → v.useSerial = 1
  manufacturer : v.manufacturer = some (written m)
  product : v.product = some (written (some (p.getD (defaultProduct type))))
  serial : v.serial = some (written r)
  cbus : ∀ i < cbusPins type, v.cbusFunction.get i = (defaults type m p r).cbusFunction.get i

theorem Recovered.defaults {chip size : ℤ} {v : Eeprom}
    (h : Recovered type { defaults type m p r with chip, size } v) :
      DefaultsFound type m p r v where
  vendorId := h.vendorId.trans (by cases type <;> rfl)
  productId := h.productId.trans (by cases type <;> rfl)
  releaseNumber := h.releaseNumber.trans (by cases type <;> rfl)
  maxPower := h.maxPower.trans (by cases type <;> rfl)
  useSerial ham := (h.useSerial ham).trans (by cases type <;> rfl)
  manufacturer := h.manufacturer.trans (by cases type <;> rfl)
  product := h.product.trans (by cases type <;> rfl)
  serial := h.serial.trans (by cases type <;> rfl)
  cbus i hi := by
    have hspecific := h.specific
    rw [cbus_defaults]
    cases type with
    | typeAM | typeBM | type2232C | type2232H | type4232H => exact absurd hi (Nat.not_lt_zero i)
    | typeR =>
        have hplaces : i = 0 ∨ i = 1 ∨ i = 2 ∨ i = 3 ∨ i = 4 := by
          simp only [cbusPins] at hi
          omega
        rcases hplaces with rfl | rfl | rfl | rfl | rfl
        · exact hspecific.cbus0
        · exact hspecific.cbus1
        · exact hspecific.cbus2
        · exact hspecific.cbus3
        · exact hspecific.cbus4
    | type232H =>
        -- a function that the chip does not have is found as another, and the
        -- defaults are none of those
        have hall : ∀ i < 10, cbusOr cbushClk7_5 cbushTristate
            ((defaultSpecific .type232H Eeprom.zero).cbusFunction.get i) =
              (defaultSpecific .type232H Eeprom.zero).cbusFunction.get i := by decide
        exact (hspecific.cbus i hi).trans (hall i hi)
    | type230X =>
        have hall : ∀ i < 4, (defaultSpecific .type230X Eeprom.zero).cbusFunction.get i % 0x100 =
            (defaultSpecific .type230X Eeprom.zero).cbusFunction.get i := by decide
        exact (hspecific.cbus i hi).trans (hall i hi)

theorem initdefaults_after {s : Programmer σ} (hdev : s.usbDev = true) :
    After (ftdiEepromInitdefaults m p r) (fun _ t =>
      t = { s with eeprom := defaults s.type m p r }) s := by
  unfold ftdiEepromInitdefaults
  rw [after_look_bind, after_setEeprom_bind, if_neg (by rw [hdev]; decide)]
  exact ⟨(), _, rfl, rfl⟩

/-- **The defaults can be programmed**, for every type and with any strings that
fit, whatever was in the fields before, and are found as they are. -/
theorem defaults_persist {s : Programmer σ} (hlaws : DeviceLaws pipe s.type count works words)
    (hdev : s.usbDev = true) (hworks : works s.world) (hcount : Sizes s.type count)
    (hfit : StringsFit s.type (defaults s.type m p r)) :
    After (do
      ftdiEepromInitdefaults m p r
      ftdiEraseEeprom pipe
      let _ ← ftdiEepromBuild pipe
      ftdiWriteEeprom pipe) (fun _ t => works t.world ∧ ∀ u : Programmer σ, u.usbDev = true →
        u.type = s.type → u.world = t.world → After (do
          ftdiReadEeprom pipe
          ftdiEepromDecode) (fun _ v => v.eeprom.size = imageSize s.type count ∧
            DefaultsFound s.type m p r v.eeprom) u) s := by
  -- with no data of the user the size is always guessed right
  have hnone : ∀ a, ¬ UserByte (defaults s.type m p r) a := fun a ⟨_, hdata, _⟩ =>
    absurd (userData_defaults.symm.trans hdata) nofun
  have hsuits : Suits s.type count (imageSize s.type count) (defaults s.type m p r) :=
    suits_defaults hcount
  refine (initdefaults_after hdev).bind ?_
  rintro _ _ rfl
  refine (programmed_after
    (s := { s with eeprom := defaults s.type m p r }) hlaws hdev hworks hsuits
    hfit fun _ hdata _ => absurd (userData_defaults.symm.trans hdata) nofun).mono ?_
  rintro _ t ⟨ht, -, -, himage⟩
  refine ⟨ht, fun u hudev hutype huworld => ?_⟩
  exact (hsuits.finds hlaws hfit sane_defaults
    (fun _ => ⟨hnone _, hnone _⟩) ht himage u hudev hutype
    huworld).mono fun _ _ ⟨hsize, hrecovered, _⟩ => ⟨hsize, hrecovered.defaults⟩

theorem defaults_persist_sample :
    After (do
      ftdiEepromInitdefaults (some (text "FTDI")) none none
      ftdiEraseEeprom (memoryPipe 0x40)
      let _ ← ftdiEepromBuild (memoryPipe 0x40)
      ftdiWriteEeprom (memoryPipe 0x40)) (fun _ t => True ∧ ∀ u : Programmer (ℕ → UInt16),
        u.usbDev = true → u.type = .typeBM → u.world = t.world → After (do
          ftdiReadEeprom (memoryPipe 0x40)
          ftdiEepromDecode) (fun _ v => v.eeprom.size = imageSize .typeBM 0x40 ∧
            DefaultsFound .typeBM (some (text "FTDI")) none none v.eeprom) u)
      (adapterContext fun _ => 0xffff) :=
  defaults_persist (memoryPipe_laws _ _) rfl trivial (.inl rfl)
    (by unfold StringsFit; decide +kernel)

end Ftdi

end SgFtdi
