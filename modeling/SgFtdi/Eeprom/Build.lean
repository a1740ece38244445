import SgFtdi.Eeprom.Model

/-!
# Making an image

`ftdi_eeprom_build`, step by step. The strings are written through a
counter of one byte that wraps around at the end of the EEPROM.
-/

namespace SgFtdi

namespace Ftdi

open Prog

variable {σ : Type} (pipe : Pipe σ)

/-! ## Bits of an image -/

/-- Set some bits of a byte. -/
def orBits (a : ℕ) (bits : UInt8) (output : Image) : Image := output.set a (output.get a ||| bits)

/-- Clear some bits of a byte. -/
def clearBits (a : ℕ) (bits : UInt8) (output : Image) : Image :=
  output.set a (output.get a &&& ~~~bits)

/-- Set some bits of a byte, or clear them. -/
def putFlag (a : ℕ) (bits : UInt8) (on : ℤ) (output : Image) : Image :=
  if on ≠ 0 then orBits a bits output else clearBits a bits output

/-- Set some bits of a byte, or leave them. -/
def orFlag (a : ℕ) (bits : UInt8) (on : ℤ) (output : Image) : Image :=
  if on ≠ 0 then orBits a bits output else output

/-- Set the four bits of a group of pins. -/
def putGroup (a shift : ℕ) (group : Group) (output : Image) : Image :=
  let output :=
    if group.drive > drive16ma then orBits a (byte (drive16ma <<< shift)) output
    else orBits a (byte (group.drive <<< shift)) output
  let output := orFlag a (isSchmitt <<< shift.toUInt8) group.schmitt output
  orFlag a (slowSlew <<< shift.toUInt8) group.slew output

/-- `type2bit`. -/
def type2bit (type : UInt8) : ChipType → UInt8
  | .type2232H | .type2232C => if type = 1 ∨ type = 2 ∨ type = 4 then type else 0
  | .type232H => if type = 1 ∨ type = 2 ∨ type = 4 ∨ type = 8 then type else 0
  | .typeR => if type = 1 then type else 0
  | _ => 0

/-! ## Strings -/

/-- The `strlen` of a string that may be absent, as an `unsigned char`. -/
def stringSize : Option CString → ℕ
  | none => 0
  | some s => s.bytes.length % 0x100

/-- The bytes of a string that are written. -/
def stringBytes : Option CString → List UInt8
  | none => []
  | some s => s.bytes.take (stringSize (some s))

/-- The counter through which strings are written. -/
structure Cursor where
  i : UInt8
  output : Image

/-- Write one byte, wrapping around at the end of the EEPROM. -/
def Cursor.put (mask v : UInt8) (c : Cursor) : Cursor :=
  ⟨c.i + 1, c.output.set (c.i &&& mask).toNat v⟩

/-- Write characters of two bytes each. -/
def Cursor.putChars (mask : UInt8) : List UInt8 → Cursor → Cursor
  | [], c => c
  | ch :: chars, c => putChars mask chars ((c.put mask ch).put mask 0)

/-- Write a string, with its length and its type before it. -/
def Cursor.putString (mask : UInt8) (s : Option CString) (c : Cursor) : Cursor :=
  ((c.put mask (byte (stringSize s * 2 + 2))).put mask 0x03).putChars mask (stringBytes s)

/-- Where the strings of a chip start. -/
def stringsStart : ChipType → UInt8
  | .typeAM | .typeBM => 0x94
  | .type2232C => 0x96
  | .typeR => 0x98
  | .type2232H | .type4232H => 0x9a
  | .type232H | .type230X => 0xa0

/-- `eeprom_size_mask`. -/
def sizeMask (size : ℤ) : UInt8 := byte (size - 1)

/-- The strings of an image, with where they are, and the fields behind them
on the newer chips. -/
def putStrings (type : ChipType) (e : Eeprom) (output : Image) : Image :=
  let mask := sizeMask e.size
  let c : Cursor := ⟨stringsStart type, output⟩
  let c := { c with output := c.output.set 0x0E c.i }
  let c := c.putString mask e.manufacturer
  let c := { c with output := c.output.set 0x0F (byte (stringSize e.manufacturer * 2 + 2)) }
  let c := { c with output := c.output.set 0x10 (c.i ||| 0x80) }
  let c := c.putString mask e.product
  let c := { c with output := c.output.set 0x11 (byte (stringSize e.product * 2 + 2)) }
  let c := { c with output := c.output.set 0x12 (c.i ||| 0x80) }
  let c := c.putString mask e.serial
  let c :=
    if type.number > ChipType.typeBM.number then
      ((c.put mask 0x02).put mask 0x03).put mask (byte e.isNotPnp)
    else c
  c.output.set 0x13 (byte (stringSize e.serial * 2 + 2))

/-! ## The fields -/

/-- An empty image: a 230X keeps a reserved section. -/
def emptied (type : ChipType) (output : Image) : Image :=
  if type = .type230X then (output.fill 0 0x80 0).fill 0xa0 0x100 0 else output.fill 0 0x100 0

/-- The fields that all chips have in one place. -/
def putHeader (type : ChipType) (e : Eeprom) (output : Image) : Image :=
  let output := output.set 0x02 (byte e.vendorId)
  let output := output.set 0x03 (byte (e.vendorId >>> (8 : ℕ)))
  let output := output.set 0x04 (byte e.productId)
  let output := output.set 0x05 (byte (e.productId >>> (8 : ℕ)))
  let output := output.set 0x06 (byte e.releaseNumber)
  let output := output.set 0x07 (byte (e.releaseNumber >>> (8 : ℕ)))
  let j : UInt8 := 0x80
  let j := if e.selfPowered ≠ 0 then j ||| 0x40 else j
  let j := if e.remoteWakeup ≠ 0 then j ||| 0x20 else j
  let output := output.set 0x08 j
  let output := output.set 0x09 (byte (Int.tdiv e.maxPower 2))
  if type ≠ .typeAM ∧ type ≠ .type230X then
    let j : UInt8 := 0
    let j := if e.inIsIsochronous ≠ 0 then j ||| 1 else j
    let j := if e.outIsIsochronous ≠ 0 then j ||| 2 else j
    output.set 0x0A j
  else output

/-- Whether the serial number is used. An AM chip does not say. -/
def putUseSerial (type : ChipType) (e : Eeprom) (output : Image) : Image :=
  if type.number > ChipType.typeAM.number then putFlag 0x0A useSerialNum e.useSerial output
  else output

/-- The function of a pin, or another where it has no such function. -/
def cbusOr (last other function : ℤ) : ℤ := if function > last then other else function

/-- `set_ft232h_cbus`. -/
def setFt232hCbus (e : Eeprom) (output : Image) : Image :=
  (List.range 5).foldl (fun output i =>
    let modeLow := cbusOr cbushClk7_5 cbushTristate (e.cbusFunction.get (2 * i))
    let modeHigh := cbusOr cbushClk7_5 cbushTristate (e.cbusFunction.get (2 * i + 1))
    output.set (0x18 + i) (byte (modeHigh <<< (4 : ℕ)) ||| byte modeLow)) output

/-- The fields of a 2232C. -/
def put2232C (e : Eeprom) (output : Image) : Image :=
  let output := output.set 0x00 (type2bit (byte e.channelAType) .type2232C)
  let output := putFlag 0x00 driverVcp e.channelADriver output
  let output := putFlag 0x00 highCurrentDrive e.highCurrentA output
  let output := output.set 0x01 (type2bit (byte e.channelBType) .type2232C)
  let output := putFlag 0x01 driverVcp e.channelBDriver output
  let output := putFlag 0x01 highCurrentDrive e.highCurrentB output
  let output := putFlag 0x0A 0x1 e.inIsIsochronous output
  let output := putFlag 0x0A 0x2 e.outIsIsochronous output
  let output := putFlag 0x0A 0x4 e.suspendPullDowns output
  let output := putFlag 0x0A useUsbVersionBit e.useUsbVersion output
  let output := output.set 0x0C (byte e.usbVersion)
  let output := output.set 0x0D (byte (e.usbVersion >>> (8 : ℕ)))
  output.set 0x14 (byte e.chip)

/-- The fields of a chip of type R, on which the bit of the driver is the
other way round. -/
def putR (e : Eeprom) (output : Image) : Image :=
  let output := output.set 0x00 (type2bit (byte e.channelAType) .typeR)
  let output := orFlag 0x00 highCurrentDriveR e.highCurrent output
  let output :=
    if e.channelADriver ≠ 0 then clearBits 0x00 driverVcp output else orBits 0x00 driverVcp output
  let output := orFlag 0x00 0x02 e.externalOscillator output
  let output := output.set 0x01 0x40
  let output := putFlag 0x0A 0x4 e.suspendPullDowns output
  let output := output.set 0x0B (byte e.invert)
  let output := output.set 0x0C (byte e.usbVersion)
  let output := output.set 0x0D (byte (e.usbVersion >>> (8 : ℕ)))
  let output := output.set 0x14 (byte (cbusOr cbusBbRd cbusTxled (e.cbusFunction.get 0)))
  let output :=
    orBits 0x14 (byte (cbusOr cbusBbRd cbusRxled (e.cbusFunction.get 1) <<< (4 : ℕ))) output
  let output := output.set 0x15 (byte (cbusOr cbusBbRd cbusTxden (e.cbusFunction.get 2)))
  let output :=
    orBits 0x15 (byte (cbusOr cbusBbRd cbusPwren (e.cbusFunction.get 3) <<< (4 : ℕ))) output
  output.set 0x16 (byte (cbusOr cbusClk6 cbusSleep (e.cbusFunction.get 4)))

/-- The four groups of a 2232H and a 4232H, and where the size of the EEPROM
is kept. -/
def putGroups (e : Eeprom) (output : Image) : Image :=
  let output := putGroup 0x0c 0 e.group0 output
  let output := putGroup 0x0c 4 e.group1 output
  let output := putGroup 0x0d 0 e.group2 output
  let output := putGroup 0x0d 4 e.group3 output
  output.set 0x18 (byte e.chip)

/-- The fields of a 2232H. -/
def put2232H (e : Eeprom) (output : Image) : Image :=
  let output := output.set 0x00 (type2bit (byte e.channelAType) .type2232H)
  let output := putFlag 0x00 driverVcp e.channelADriver output
  let output := output.set 0x01 (type2bit (byte e.channelBType) .type2232H)
  let output := putFlag 0x01 driverVcp e.channelBDriver output
  let output := putFlag 0x01 suspendDbus7Bit e.suspendDbus7 output
  let output := putFlag 0x0A 0x4 e.suspendPullDowns output
  putGroups e output

/-- The fields of a 4232H. -/
def put4232H (e : Eeprom) (output : Image) : Image :=
  let output := putFlag 0x00 driverVcp e.channelADriver output
  let output := putFlag 0x01 driverVcp e.channelBDriver output
  let output := putFlag 0x00 (driverVcp <<< 4) e.channelCDriver output
  let output := putFlag 0x01 (driverVcp <<< 4) e.channelDDriver output
  let output := putFlag 0x0a 0x4 e.suspendPullDowns output
  let output := putFlag 0x0b (channelIsRs485 <<< 0) e.channelARs485enable output
  let output := putFlag 0x0b (channelIsRs485 <<< 1) e.channelBRs485enable output
  let output := putFlag 0x0b (channelIsRs485 <<< 2) e.channelCRs485enable output
  let output := putFlag 0x0b (channelIsRs485 <<< 3) e.channelDRs485enable output
  putGroups e output

/-- The fields of a 232H. -/
def put232H (e : Eeprom) (output : Image) : Image :=
  let output := output.set 0x00 (type2bit (byte e.channelAType) .type232H)
  let output := putFlag 0x00 driverVcph e.channelADriver output
  let output := putFlag 0x01 powerSaveDisableH e.powersave output
  let output := putFlag 0x0a 0x4 e.suspendPullDowns output
  let output := putFlag 0x01 ft1284ClkIdleState e.clockPolarity output
  let output := putFlag 0x01 ft1284DataLsb e.dataOrder output
  let output := putFlag 0x01 ft1284FlowControl e.flowControl output
  let output := putGroup 0x0c 0 e.group0 output
  let output := putGroup 0x0d 0 e.group1 output
  let output := setFt232hCbus e output
  output.set 0x1e (byte e.chip)

/-- The fields of a 230X. -/
def put230X (e : Eeprom) (output : Image) : Image :=
  let output := output.set 0x00 0x80
  let output := output.set 0x0c 0
  let output := (List.range 7).foldl (fun output j =>
    output.set (0x1a + j) (byte (e.cbusFunction.get j))) output
  output.set 0x0b (byte e.invert)

/-- The fields that are specific to some types. -/
def putSpecific (type : ChipType) (e : Eeprom) (output : Image) : Image :=
  match type with
  | .typeAM => output
  | .typeBM =>
      let output := output.set 0x0C (byte e.usbVersion)
      let output := output.set 0x0D (byte (e.usbVersion >>> (8 : ℕ)))
      putFlag 0x0A useUsbVersionBit e.useUsbVersion output
  | .type2232C => put2232C e output
  | .typeR => putR e output
  | .type2232H => put2232H e output
  | .type4232H => put4232H e output
  | .type232H => put232H e output
  | .type230X => put230X e output

/-- All that is made from the fields, user data and checksum apart. -/
def generated (type : ChipType) (e : Eeprom) : Image :=
  putSpecific type e (putUseSerial type e (putStrings type e (putHeader type e
    (emptied type e.buf))))

/-! ## The checksum -/

/-- Take one word into a checksum. -/
def mix (checksum value : UInt16) : UInt16 :=
  let checksum := value ^^^ checksum
  checksum <<< 1 ||| checksum >>> 15

/-- A word of an image. -/
def wordAt (buf : Image) (i : ℕ) : UInt16 := word (buf.get (i * 2)) (buf.get (i * 2 + 1))

/-- `ftdi_read_eeprom_location`. -/
def ftdiReadEepromLocation (eepromAddr : ℕ) : Job σ UInt16 := do
  let usbDev ← look fun s => s.usbDev
  if usbDev = false then errorJob (-2) "USB device unavailable"
  else do
    let (ret, data) ← ask fun s =>
      let answer := pipe.controlIn sioReadEepromRequest 0 eepromAddr 2 s.world
      (answer.1, { s with world := answer.2 })
    if ret ≠ 2 then errorJob (-1) "reading eeprom failed"
    else pure (word (data.getD 0 0) (data.getD 1 0))

/-- **The checksum of `ftdi_eeprom_build`**, from the word `i` on and below
`bound`. A 230X has a section of the user's that is not part of it, and
one of the factory's that is asked of the device; if that fails, the rest
of the section is left out, with one word too many. -/
def buildChecksum (type : ChipType) (bound : ℕ) : ℕ → ℕ → UInt16 → Job σ UInt16
  | 0, _, checksum => pure checksum
  | turns + 1, i, checksum =>
      if i < bound then do
        let i := if type = .type230X ∧ i = 0x12 then 0x40 else i
        if type = .type230X ∧ 0x40 ≤ i ∧ i < 0x50 then do
          let data ← rescue (do
            let data ← ftdiReadEepromLocation pipe i
            pure (some data)) fun _ => pure none
          match data with
          | some value => buildChecksum type bound turns (i + 1) (mix checksum value)
          | none => buildChecksum type bound turns (0x50 + 1) (mix checksum 0)
        else do
          let buf ← look fun s => s.eeprom.buf
          buildChecksum type bound turns (i + 1) (mix checksum (wordAt buf i))
      else pure checksum

/-! ## Building -/

/-- The fields, with the size that the type of the EEPROM gives where it is
not known. -/
def withSize (e : Eeprom) : Eeprom :=
  if e.size = -1 then { e with size := if e.chip = 0x56 ∨ e.chip = 0x66 then 0x100 else 0x80 }
  else e

/-- The size of the area for strings and the user's data. -/
def userAreaSize : ChipType → ℤ
  | .typeAM | .typeBM | .typeR => 96
  | .type2232C => 90
  | .type230X => 88
  | .type2232H | .type4232H => 86
  | .type232H => 80

/-- Copy the user's data into the image. -/
def putUserData : Job σ Unit := do
  let e ← look fun s => s.eeprom
  match e.userData with
  | none => pure ()
  | some userData =>
      if e.userDataSize ≥ 0 then
        if e.userDataAddr + e.userDataSize > e.size then errorJob (-1) "eeprom size exceeded"
        else if e.userDataAddr < 0 ∨ e.userDataAddr + e.userDataSize > 0x100 ∨
            userData.length < e.userDataSize then
          raise .undefined
        else setBuf fun buf => buf.write e.userDataAddr.toNat (userData.take e.userDataSize.toNat)
      else pure ()

/-- `ftdi_eeprom_build`. -/
def ftdiEepromBuild : Job σ ℤ := do
  let s ← look fun s => s
  let type := s.type
  if s.eeprom.chip = -1 then errorJob (-6) "No connected EEPROM or EEPROM type unknown"
  else do
    setEeprom withSize
    let e ← look fun s => s.eeprom
    let left := userAreaSize type -
      (stringSize e.manufacturer + stringSize e.product + stringSize e.serial) * 2
    if left < 0 then errorJob (-1) "eeprom size exceeded (1)"
    else do
      setBuf fun _ => generated type e
      putUserData
      -- the last word is outside of the image where the size is not set
      if e.size < 2 ∨ e.size > 0x100 then raise .undefined
      else do
        let bound := e.size.toNat / 2 - 1
        let checksum ← buildChecksum pipe type bound bound 0 0xAAAA
        setBuf fun buf => buf.set (e.size.toNat - 2) checksum.toUInt8
        setBuf fun buf => buf.set (e.size.toNat - 1) (checksum >>> 8).toUInt8
        setEeprom fun e => { e with initializedForConnectedDevice := 1 }
        pure left

end Ftdi

end SgFtdi
