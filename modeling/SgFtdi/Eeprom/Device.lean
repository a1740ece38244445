import SgFtdi.Eeprom.Build

/-!
# The EEPROM of a device

How an image gets to a device and back, word by word, and how the library
finds out what EEPROM a device has: from where a word shows that was
written far behind. Defaults for an empty `ftdi_eeprom` are also here.
-/

namespace SgFtdi

namespace Ftdi

open Prog

variable {σ : Type} (pipe : Pipe σ)

/-! ## Requests -/

/-- A control transfer without data. -/
def controlOut (request value index : ℕ) : Job σ ℤ :=
  ask fun s =>
    let answer := pipe.controlOut request value index s.world
    (answer.1, { s with world := answer.2 })

/-- A control transfer that asks for data. -/
def controlIn (request value index length : ℕ) : Job σ (ℤ × List UInt8) :=
  ask fun s =>
    let answer := pipe.controlIn request value index length s.world
    (answer.1, { s with world := answer.2 })

/-- `SIO_RESET_SIO`. -/
def sioResetSio : ℕ := 0

/-- `ftdi_usb_reset`. -/
def ftdiUsbReset : Job σ Unit := do
  let s ← look fun s => s
  if s.usbDev = false then errorJob (-2) "USB device unavailable"
  else do
    let ret ← controlOut pipe sioResetRequest sioResetSio s.index
    if ret < 0 then errorJob (-1) "FTDI reset failed"
    else alter fun s => { s with readbufferOffset := 0, readbufferRemaining := 0 }

/-- `ftdi_poll_modem_status`. -/
def ftdiPollModemStatus : Job σ UInt16 := do
  let s ← look fun s => s
  if s.usbDev = false then errorJob (-2) "USB device unavailable"
  else do
    let (ret, usbVal) ← controlIn pipe sioPollModemStatusRequest 0 s.index 2
    if ret ≠ 2 then errorJob (-1) "getting modem status failed"
    else pure (word (usbVal.getD 0 0) (usbVal.getD 1 0))

/-- `ftdi_set_latency_timer`. -/
def ftdiSetLatencyTimer (latency : UInt8) : Job σ Unit := do
  let s ← look fun s => s
  if latency < 1 then errorJob (-1) "latency out of range. Only valid for 1-255"
  else if s.usbDev = false then errorJob (-3) "USB device unavailable"
  else do
    let ret ← controlOut pipe sioSetLatencyTimerRequest latency.toNat s.index
    if ret < 0 then errorJob (-2) "unable to set latency timer"
    else pure ()

/-! ## Reading -/

/-- Read the words of the image from the word `i` on. -/
def readWords : ℕ → ℕ → Job σ Unit
  | 0, _ => pure ()
  | turns + 1, i => do
      let (ret, data) ← controlIn pipe sioReadEepromRequest 0 i 2
      setBuf fun buf => buf.write (i * 2) (data.take 2)
      if ret ≠ 2 then errorJob (-1) "reading eeprom failed"
      else readWords turns (i + 1)

/-- `strrchr`. -/
def strrchr (s : CString) (c : UInt8) : Option ℕ :=
  (List.range s.bytes.length).reverse.find? fun i => s.bytes[i]? = some c

/-- The image as `strrchr` sees it, with what is behind it: the release
number. -/
def imageString (e : Eeprom) : List UInt8 :=
  e.buf.read 0 0x100 ++ (List.range 4).map fun i => byte (e.releaseNumber >>> (8 * i : ℕ))

/-- The size of an EEPROM, from what was read of it. -/
def guessSize (e : Eeprom) : ℤ :=
  if strrchr (cString (imageString e)) 0xff = some (0x100 - 1) then -1
  else if e.buf.read 0 0x80 = e.buf.read 0x80 0x80 then 0x80
  else if e.buf.read 0 0x40 = e.buf.read 0x40 0x40 then 0x40
  else 0x100

/-- `ftdi_read_eeprom`. -/
def ftdiReadEeprom : Job σ Unit := do
  let s ← look fun s => s
  if s.usbDev = false then errorJob (-2) "USB device unavailable"
  else do
    readWords pipe (0x100 / 2) 0
    if s.type = .typeR then setEeprom fun e => { e with size := 0x80 }
    else do
      let e ← look fun s => s.eeprom
      -- the search does not stop in what it may read
      if 0 ∉ imageString e then raise .undefined
      else setEeprom fun e => { e with size := guessSize e }

/-! ## Writing -/

/-- `chip_type_location`: where the type of the EEPROM is. -/
def chipTypeLocation : ChipType → Option ℕ
  | .typeBM | .type2232C => some 0x14
  | .type2232H | .type4232H => some 0x18
  | .type232H => some 0x1e
  | .typeAM | .typeR | .type230X => none

/-- `ftdi_write_eeprom_location`. -/
def ftdiWriteEepromLocation (eepromAddr : ℕ) (eepromVal : UInt16) : Job σ Unit := do
  let s ← look fun s => s
  if s.usbDev = false then errorJob (-2) "USB device unavailable"
  else if eepromAddr < 0x80 then
    errorJob (-2) "Invalid access to checksum protected area  below 0x80"
  else
    match chipTypeLocation s.type with
    | none => errorJob (-4) "Device can't access unprotected area"
    | some location => do
        let chipType ← rescue (ftdiReadEepromLocation pipe (location >>> 1))
          fun _ => errorJob (-5) "Reading failed"
        if chipType &&& 0xff ≠ 0x66 then errorJob (-6) "EEPROM is not of 93x66"
        else do
          let ret ← controlOut pipe sioWriteEepromRequest eepromVal.toNat eepromAddr
          if ret ≠ 0 then errorJob (-1) "unable to write eeprom"
          else pure ()

/-- Write the words of the image from the word `i` on and below `bound`. The
reserved section of a 230X is passed over. -/
def writeWords (type : ChipType) (bound : ℕ) : ℕ → ℕ → Job σ Unit
  | 0, _ => pure ()
  | turns + 1, i =>
      if i < bound then do
        let i := if type = .type230X ∧ i = 0x40 then 0x50 else i
        let buf ← look fun s => s.eeprom.buf
        if i * 2 + 1 ≥ 0x100 then raise .undefined
        else do
          let ret ← controlOut pipe sioWriteEepromRequest (wordAt buf i).toNat i
          if ret < 0 then errorJob (-1) "unable to write eeprom"
          else writeWords type bound turns (i + 1)
      else pure ()

/-- `ftdi_write_eeprom`. -/
def ftdiWriteEeprom : Job σ Unit := do
  let s ← look fun s => s
  if s.usbDev = false then errorJob (-2) "USB device unavailable"
  else if s.eeprom.initializedForConnectedDevice = 0 then
    errorJob (-3) "EEPROM not initialized for the connected device"
  else do
    ftdiUsbReset pipe
    let _ ← ftdiPollModemStatus pipe
    ftdiSetLatencyTimer pipe 0x77
    let bound := (Int.tdiv s.eeprom.size 2).toNat
    writeWords pipe s.type bound bound 0

/-- `MAGIC`. -/
def magic : UInt16 := 0x55aa

/-- `ftdi_read_eeprom_location`, as `ftdi_erase_eeprom` calls it. -/
def readBack (eepromAddr : ℕ) : Job σ UInt16 :=
  rescue (ftdiReadEepromLocation pipe eepromAddr) fun _ => errorJob (-4) "Reading failed"

/-- The type of the EEPROM, from where the magic word shows. -/
def detectChip : Job σ ℤ := do
  let eepromValue ← readBack pipe 0x00
  if eepromValue = magic then pure 0x46
  else do
    let eepromValue ← readBack pipe 0x40
    if eepromValue = magic then pure 0x56
    else do
      let eepromValue ← readBack pipe 0xc0
      pure (if eepromValue = magic then 0x66 else -1)

/-- `ftdi_erase_eeprom`. -/
def ftdiEraseEeprom : Job σ Unit := do
  let s ← look fun s => s
  if s.usbDev = false then errorJob (-2) "USB device unavailable"
  else if s.type = .typeR ∨ s.type = .type230X then setEeprom fun e => { e with chip := 0 }
  else do
    let ret ← controlOut pipe sioEraseEepromRequest 0 0
    if ret < 0 then errorJob (-1) "unable to erase eeprom"
    else do
      let ret ← controlOut pipe sioWriteEepromRequest magic.toNat 0xc0
      if ret ≠ 0 then errorJob (-3) "Writing magic failed"
      else do
        let chip ← detectChip pipe
        setEeprom fun e => { e with chip }
        let ret ← controlOut pipe sioEraseEepromRequest 0 0
        if ret < 0 then errorJob (-1) "unable to erase eeprom"
        else pure ()

/-! ## Defaults -/

/-- The bytes of a text. -/
def text (s : String) : CString := cString s.toUTF8.toList

/-- The name that a product has where none is given. -/
def defaultProduct : ChipType → CString
  | .typeAM => text "AM"
  | .typeBM => text "BM"
  | .type2232C => text "Dual RS232"
  | .typeR => text "FT232R USB UART"
  | .type2232H => text "Dual RS232-HS"
  | .type4232H => text "FT4232H"
  | .type232H => text "Single-RS232-HS"
  | .type230X => text "FT230X Basic UART"

/-- The product id that a product has at first. -/
def defaultProductId : ChipType → ℤ
  | .typeAM | .typeBM | .typeR => 0x6001
  | .type4232H => 0x6011
  | .type232H => 0x6014
  | .type230X => 0x6015
  | .type2232C | .type2232H => 0x6010

/-- The release number of a chip. -/
def defaultRelease : ChipType → ℤ
  | .typeAM => 0x0200
  | .typeBM => 0x0400
  | .type2232C => 0x0500
  | .typeR => 0x0600
  | .type2232H => 0x0700
  | .type4232H => 0x0800
  | .type232H => 0x0900
  | .type230X => 0x1000

/-- What is set for some types only. -/
def defaultSpecific (type : ChipType) (e : Eeprom) : Eeprom :=
  match type with
  | .typeR =>
      { e with
        maxPower := 90
        size := 0x80
        cbusFunction :=
          e.cbusFunction.write 0 [cbusTxled, cbusRxled, cbusTxden, cbusPwren, cbusSleep] }
  | .type230X =>
      { e with
        maxPower := 90
        size := 0x100
        cbusFunction := e.cbusFunction.write 0 [cbusxTxden, cbusxRxled, cbusxTxled, cbusxSleep] }
  | .type232H =>
      { e with
        cbusFunction := e.cbusFunction.write 0 (List.replicate 10 cbushTristate)
        size := -1 }
  | .typeAM | .typeBM | .type2232C | .type2232H | .type4232H => { e with size := -1 }

/-- What `ftdi_eeprom_initdefaults` puts into a `ftdi_eeprom`. -/
def defaults (type : ChipType) (manufacturer product serial : Option CString) : Eeprom :=
  let e := defaultSpecific type { Eeprom.zero with
    vendorId := 0x0403
    useSerial := 1
    productId := defaultProductId type
    usbVersion := if type = .typeAM then 0x0101 else 0x0200
    maxPower := 100
    manufacturer
    product := some (product.getD (defaultProduct type))
    serial }
  { e with releaseNumber := defaultRelease type }

/-- `ftdi_eeprom_initdefaults`. -/
def ftdiEepromInitdefaults (manufacturer product serial : Option CString) : Job σ Unit := do
  let s ← look fun s => s
  setEeprom fun _ => Eeprom.zero
  if s.usbDev = false then errorJob (-3) "No connected device or device not yet opened"
  else setEeprom fun _ => defaults s.type manufacturer product serial

end Ftdi

end SgFtdi
