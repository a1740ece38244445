import SgFtdi.Eeprom.Build

/-!
# Taking an image apart

`ftdi_eeprom_decode`, without what it prints. The fields that all chips
have and the strings are taken from any image, and the others only from
one with the right checksum.
-/

namespace SgFtdi

namespace Ftdi

open Prog

variable {σ : Type}

/-- `bit2type`. -/
def bit2type (bits : UInt8) : ℤ :=
  if bits = 1 then 1 else if bits = 2 then 2 else if bits = 4 then 4 else if bits = 8 then 8 else 0

/-- The fields that all chips have in one place. -/
def decodeHeader (buf : Image) (e : Eeprom) : Eeprom :=
  { e with
    vendorId := (word (buf.get 0x02) (buf.get 0x03)).toNat
    productId := (word (buf.get 0x04) (buf.get 0x05)).toNat
    releaseNumber := (word (buf.get 0x06) (buf.get 0x07)).toNat
    selfPowered := flag (buf.get 0x08) 0x40
    remoteWakeup := flag (buf.get 0x08) 0x20
    maxPower := 2 * (buf.get 0x09).toNat
    inIsIsochronous := flag (buf.get 0x0A) 0x01
    outIsIsochronous := flag (buf.get 0x0A) 0x02
    suspendPullDowns := flag (buf.get 0x0A) 0x04
    useSerial := flag (buf.get 0x0A) useSerialNum
    useUsbVersion := flag (buf.get 0x0A) useUsbVersionBit
    usbVersion := (word (buf.get 0x0C) (buf.get 0x0D)).toNat }

/-- The string with its offset and its length at some place of the image. It
may reach outside. -/
def decodeString (buf : Image) (size : ℤ) (offset length : ℕ) : Job σ (Option CString) :=
  let stringSize := (buf.get length).toNat / 2
  if stringSize > 0 then
    let i := (buf.get offset &&& sizeMask size).toNat
    if stringSize > 1 ∧ 2 * (stringSize - 2) + i + 2 ≥ 0x100 then raise .undefined
    else
      pure (some (cString ((List.range (stringSize - 1)).map fun j => buf.get (2 * j + i + 2))))
  else pure none

/-- The checksum of `ftdi_eeprom_decode`, from the word `i` on and below
`bound`. -/
def decodeChecksum (type : ChipType) (bound : ℕ) (buf : Image) : ℕ → ℕ → UInt16 → UInt16
  | 0, _, checksum => checksum
  | turns + 1, i, checksum =>
      if i < bound then
        let i := if type = .type230X ∧ i = 0x12 then 0x40 else i
        decodeChecksum type bound buf turns (i + 1) (mix checksum (wordAt buf i))
      else checksum

/-- One group of pins. -/
def decodeGroup (b : UInt8) : Group where
  drive := (b &&& 3).toNat
  schmitt := flag b isSchmitt
  slew := flag b slowSlew

/-- The fields of a 2232C. -/
def decode2232C (buf : Image) (e : Eeprom) : Eeprom :=
  { e with
    channelAType := bit2type (buf.get 0x00 &&& 0x7)
    channelADriver := flag (buf.get 0x00) driverVcp
    highCurrentA := flag (buf.get 0x00) highCurrentDrive
    channelBType := (buf.get 0x01 &&& 0x7).toNat
    channelBDriver := flag (buf.get 0x01) driverVcp
    highCurrentB := flag (buf.get 0x01) highCurrentDrive
    chip := (buf.get 0x14).toNat }

/-- The functions of two pins, the lower one first. -/
def decodeCbus (b : UInt8) : List ℤ := [(b &&& 0x0f).toNat, (b >>> 4 &&& 0x0f).toNat]

/-- The fields of a chip of type R. -/
def decodeR (buf : Image) (e : Eeprom) : Eeprom :=
  { e with
    channelADriver := if buf.get 0x00 &&& driverVcp ≠ 0 then 0 else 1
    highCurrent := flag (buf.get 0x00) highCurrentDriveR
    externalOscillator := flag (buf.get 0x00) 0x02
    chip := (buf.get 0x16).toNat
    invert := (buf.get 0x0B).toNat
    cbusFunction :=
      e.cbusFunction.write 0 (decodeCbus (buf.get 0x14) ++ decodeCbus (buf.get 0x15) ++
      [((buf.get 0x16 &&& 0x0f).toNat : ℤ)]) }

/-- The fields of a 2232H and a 4232H. -/
def decode2232H (type : ChipType) (buf : Image) (e : Eeprom) : Eeprom :=
  let e := { e with
    channelADriver := flag (buf.get 0x00) driverVcp
    channelBDriver := flag (buf.get 0x01) driverVcp }
  let e :=
    if type = .type2232H then
      { e with
        channelAType := bit2type (buf.get 0x00 &&& 0x7)
        channelBType := bit2type (buf.get 0x01 &&& 0x7)
        suspendDbus7 := flag (buf.get 0x01) suspendDbus7Bit }
    else
      { e with
        channelCDriver := flag (buf.get 0x00 >>> 4) driverVcp
        channelDDriver := flag (buf.get 0x01 >>> 4) driverVcp
        channelARs485enable := flag (buf.get 0x0b) (channelIsRs485 <<< 0)
        channelBRs485enable := flag (buf.get 0x0b) (channelIsRs485 <<< 1)
        channelCRs485enable := flag (buf.get 0x0b) (channelIsRs485 <<< 2)
        channelDRs485enable := flag (buf.get 0x0b) (channelIsRs485 <<< 3) }
  { e with
    chip := (buf.get 0x18).toNat
    group0 := decodeGroup (buf.get 0x0c)
    group1 := decodeGroup (buf.get 0x0c >>> 4)
    group2 := decodeGroup (buf.get 0x0d)
    group3 := decodeGroup (buf.get 0x0d >>> 4) }

/-- The fields of a 232H. -/
def decode232H (buf : Image) (e : Eeprom) : Eeprom :=
  { e with
    channelAType := (buf.get 0x00 &&& 0xf).toNat
    channelADriver := flag (buf.get 0x00) driverVcph
    clockPolarity := flag (buf.get 0x01) ft1284ClkIdleState
    dataOrder := flag (buf.get 0x01) ft1284DataLsb
    flowControl := flag (buf.get 0x01) ft1284FlowControl
    powersave := flag (buf.get 0x01) powerSaveDisableH
    group0 := decodeGroup (buf.get 0x0c)
    group1 := decodeGroup (buf.get 0x0d)
    cbusFunction :=
      e.cbusFunction.write 0 ((List.range 5).flatMap fun i => decodeCbus (buf.get (0x18 + i)))
    chip := (buf.get 0x1e).toNat }

/-- The fields of a 230X. -/
def decode230X (buf : Image) (e : Eeprom) : Eeprom :=
  { e with
    cbusFunction :=
      e.cbusFunction.write 0 ((List.range 4).map fun i => ((buf.get (0x1a + i)).toNat : ℤ))
    group0 := decodeGroup (buf.get 0x0c)
    group1 := decodeGroup (buf.get 0x0c >>> 4)
    invert := (buf.get 0xb).toNat }

/-- The fields that are specific to some types. -/
def decodeSpecific (type : ChipType) (buf : Image) (e : Eeprom) : Eeprom :=
  let e := { e with channelAType := 0 }
  match type with
  | .typeAM | .typeBM => { e with chip := -1 }
  | .type2232C => decode2232C buf e
  | .typeR => decodeR buf e
  | .type2232H | .type4232H => decode2232H type buf e
  | .type232H => decode232H buf e
  | .type230X => decode230X buf e

/-- `ftdi_eeprom_decode`. -/
def ftdiEepromDecode : Job σ Unit := do
  let s ← look fun s => s
  let buf := s.eeprom.buf
  let size := s.eeprom.size
  setEeprom (decodeHeader buf)
  let manufacturer ← decodeString buf size 0x0E 0x0F
  setEeprom fun e => { e with manufacturer }
  let product ← decodeString buf size 0x10 0x11
  setEeprom fun e => { e with product }
  let serial ← decodeString buf size 0x12 0x13
  setEeprom fun e => { e with serial }
  if size < 2 ∨ size > 0x100 then raise .undefined
  else do
    let bound := size.toNat / 2 - 1
    let checksum := decodeChecksum s.type bound buf bound 0 0xAAAA
    let eepromChecksum := word (buf.get (size.toNat - 2)) (buf.get (size.toNat - 1))
    if eepromChecksum ≠ checksum then errorJob (-1) "EEPROM checksum error"
    else setEeprom (decodeSpecific s.type buf)

end Ftdi

end SgFtdi
