import Mathlib.Data.List.TakeWhile
import SgFtdi.Common.Cells
import SgFtdi.Common.Prog
import SgFtdi.Ftdi.Baudrate

/-!
# The EEPROM of a chip

An EEPROM holds what a device says of itself: its numbers and strings, and
how the chip drives its pins. `ftdi_eeprom_build` makes an image of 256
bytes from the fields of a `ftdi_eeprom`, and `ftdi_eeprom_decode` takes
it apart. The layout depends on the chip.

An image is written to the device word by word, and read back so. The
library finds out how large an EEPROM is from what it reads, as a small
one shows its content more than once.

What the language leaves undefined, as reading outside of the image, is
an exception of its own, and the code that an error returns is one too.
Numbers that are printed are left out.
-/

namespace SgFtdi

namespace Ftdi

open Prog

/-! ## Data -/

/-- A string of the language: its bytes, up to the zero that ends it. -/
structure CString where
  bytes : List UInt8
  noZero : 0 ∉ bytes
deriving DecidableEq

/-- The string in a row of bytes. -/
def cString (bytes : List UInt8) : CString where
  bytes := bytes.takeWhile fun b => b != 0
  noZero h := by simpa using List.mem_takeWhile_imp h

/-- What one group of pins does. -/
structure Group where
  drive : ℤ
  schmitt : ℤ
  slew : ℤ
deriving DecidableEq, Repr

/-- An image. -/
abbrev Image : Type := Cells 256 UInt8

/-- `ftdi_eeprom`. -/
structure Eeprom where
  vendorId : ℤ
  productId : ℤ
  initializedForConnectedDevice : ℤ
  selfPowered : ℤ
  remoteWakeup : ℤ
  isNotPnp : ℤ
  suspendDbus7 : ℤ
  inIsIsochronous : ℤ
  outIsIsochronous : ℤ
  suspendPullDowns : ℤ
  useSerial : ℤ
  usbVersion : ℤ
  useUsbVersion : ℤ
  maxPower : ℤ
  manufacturer : Option CString
  product : Option CString
  serial : Option CString
  channelAType : ℤ
  channelBType : ℤ
  channelADriver : ℤ
  channelBDriver : ℤ
  channelCDriver : ℤ
  channelDDriver : ℤ
  channelARs485enable : ℤ
  channelBRs485enable : ℤ
  channelCRs485enable : ℤ
  channelDRs485enable : ℤ
  cbusFunction : Cells 10 ℤ
  highCurrent : ℤ
  highCurrentA : ℤ
  highCurrentB : ℤ
  invert : ℤ
  externalOscillator : ℤ
  group0 : Group
  group1 : Group
  group2 : Group
  group3 : Group
  powersave : ℤ
  clockPolarity : ℤ
  dataOrder : ℤ
  flowControl : ℤ
  userDataAddr : ℤ
  userDataSize : ℤ
  userData : Option (List UInt8)
  size : ℤ
  chip : ℤ
  buf : Image
  releaseNumber : ℤ

/-- What `memset` leaves of a `ftdi_eeprom`. -/
def Eeprom.zero : Eeprom where
  vendorId := 0
  productId := 0
  initializedForConnectedDevice := 0
  selfPowered := 0
  remoteWakeup := 0
  isNotPnp := 0
  suspendDbus7 := 0
  inIsIsochronous := 0
  outIsIsochronous := 0
  suspendPullDowns := 0
  useSerial := 0
  usbVersion := 0
  useUsbVersion := 0
  maxPower := 0
  manufacturer := none
  product := none
  serial := none
  channelAType := 0
  channelBType := 0
  channelADriver := 0
  channelBDriver := 0
  channelCDriver := 0
  channelDDriver := 0
  channelARs485enable := 0
  channelBRs485enable := 0
  channelCRs485enable := 0
  channelDRs485enable := 0
  cbusFunction := ⟨fun _ => 0⟩
  highCurrent := 0
  highCurrentA := 0
  highCurrentB := 0
  invert := 0
  externalOscillator := 0
  group0 := ⟨0, 0, 0⟩
  group1 := ⟨0, 0, 0⟩
  group2 := ⟨0, 0, 0⟩
  group3 := ⟨0, 0, 0⟩
  powersave := 0
  clockPolarity := 0
  dataOrder := 0
  flowControl := 0
  userDataAddr := 0
  userDataSize := 0
  userData := none
  size := 0
  chip := 0
  buf := ⟨fun _ => 0⟩
  releaseNumber := 0

/-- Why a call does not return a value: an error code, or what the language
leaves undefined. -/
inductive Failure where
  | code (ret : ℤ)
  | undefined
deriving DecidableEq, Repr

/-- **The control pipe of a device**: a request out, with a value and an
index, and one that asks for some bytes. -/
structure Pipe (σ : Type) where
  controlOut : (request value index : ℕ) → σ → ℤ × σ
  controlIn : (request value index length : ℕ) → σ → (ℤ × List UInt8) × σ

/-- The part of a `ftdi_context` that handles the EEPROM. -/
structure Programmer (σ : Type) where
  usbDev : Bool
  type : ChipType
  index : ℕ
  readbufferOffset : ℕ
  readbufferRemaining : ℕ
  eeprom : Eeprom
  errorStr : String
  world : σ

/-- A function of the library. -/
abbrev Job (σ α : Type) : Type := Prog (Programmer σ) Failure α

variable {σ : Type}

/-- `ftdi_error_return`. -/
def errorJob {α : Type} (code : ℤ) (text : String) : Job σ α := do
  alter fun s => { s with errorStr := text }
  raise (.code code)

/-- Change the fields. -/
def setEeprom (f : Eeprom → Eeprom) : Job σ Unit := alter fun s => { s with eeprom := f s.eeprom }

/-- Change the image. -/
def setBuf (f : Image → Image) : Job σ Unit := setEeprom fun e => { e with buf := f e.buf }

/-- An integer as an `unsigned char`. -/
def byte (x : ℤ) : UInt8 := UInt8.ofInt x

/-- Two bytes, the lower one first. -/
def word (low high : UInt8) : UInt16 := low.toUInt16 + (high.toUInt16 <<< 8)

/-- `!!` of some bits of a byte. -/
def flag (b bits : UInt8) : ℤ := if b &&& bits ≠ 0 then 1 else 0

/-- The numbers of the chip types. -/
def ChipType.number : ChipType → ℕ
  | .typeAM => 0
  | .typeBM => 1
  | .type2232C => 2
  | .typeR => 3
  | .type2232H => 4
  | .type4232H => 5
  | .type232H => 6
  | .type230X => 7

/-! ## Constants -/

/-- `SIO_RESET_REQUEST`. -/
def sioResetRequest : ℕ := 0

/-- `SIO_POLL_MODEM_STATUS_REQUEST`. -/
def sioPollModemStatusRequest : ℕ := 5

/-- `SIO_SET_LATENCY_TIMER_REQUEST`. -/
def sioSetLatencyTimerRequest : ℕ := 9

/-- `SIO_READ_EEPROM_REQUEST`. -/
def sioReadEepromRequest : ℕ := 0x90

/-- `SIO_WRITE_EEPROM_REQUEST`. -/
def sioWriteEepromRequest : ℕ := 0x91

/-- `SIO_ERASE_EEPROM_REQUEST`. -/
def sioEraseEepromRequest : ℕ := 0x92

/-- `DRIVER_VCP`. -/
def driverVcp : UInt8 := 0x08

/-- `DRIVER_VCPH`. -/
def driverVcph : UInt8 := 0x10

/-- `HIGH_CURRENT_DRIVE`. -/
def highCurrentDrive : UInt8 := 0x10

/-- `HIGH_CURRENT_DRIVE_R`. -/
def highCurrentDriveR : UInt8 := 0x04

/-- `USE_SERIAL_NUM`. -/
def useSerialNum : UInt8 := 0x08

/-- `USE_USB_VERSION_BIT`. -/
def useUsbVersionBit : UInt8 := 0x10

/-- `SUSPEND_DBUS7_BIT`. -/
def suspendDbus7Bit : UInt8 := 0x80

/-- `CHANNEL_IS_RS485`. -/
def channelIsRs485 : UInt8 := 0x10

/-- `DRIVE_16MA`. -/
def drive16ma : ℤ := 3

/-- `SLOW_SLEW`. -/
def slowSlew : UInt8 := 4

/-- `IS_SCHMITT`. -/
def isSchmitt : UInt8 := 8

/-- `POWER_SAVE_DISABLE_H`. -/
def powerSaveDisableH : UInt8 := 0x80

/-- `FT1284_CLK_IDLE_STATE`. -/
def ft1284ClkIdleState : UInt8 := 0x01

/-- `FT1284_DATA_LSB`. -/
def ft1284DataLsb : UInt8 := 0x02

/-- `FT1284_FLOW_CONTROL`. -/
def ft1284FlowControl : UInt8 := 0x04

/-- `CBUS_TXDEN`, `CBUS_PWREN`, `CBUS_RXLED`, `CBUS_TXLED` and `CBUS_SLEEP`. -/
def cbusTxden : ℤ := 0
def cbusPwren : ℤ := 1
def cbusRxled : ℤ := 2
def cbusTxled : ℤ := 3
def cbusSleep : ℤ := 5

/-- `CBUS_CLK6`, the last function of the fifth pin. -/
def cbusClk6 : ℤ := 9

/-- `CBUS_BB_RD`, the last function of the other pins. -/
def cbusBbRd : ℤ := 0xc

/-- `CBUSH_CLK7_5`, the last function on a 232H. -/
def cbushClk7_5 : ℤ := 12

/-- `CBUSX_TXLED`. -/
def cbusxTxled : ℤ := 1

/-- `CBUSX_RXLED`. -/
def cbusxRxled : ℤ := 2

/-- `CBUSX_SLEEP`. -/
def cbusxSleep : ℤ := 5

/-- `CBUSX_TXDEN`. -/
def cbusxTxden : ℤ := 9

/-- `CBUSH_TRISTATE`. -/
def cbushTristate : ℤ := 0

end Ftdi

end SgFtdi
