import SgFtdi.Context.Model

/-!
# Context — the configuration

`USBdev::parse` and `is_valid`, and `FtdiContext::populate_config` over
one section of an INI file. What libshaga reads out of a string or out of
the file is a parameter.
-/

namespace SgFtdi

namespace Context

open Prog

/-- What is used of libshaga's `STR`. What it throws is a text. -/
structure Str where
  split : String → (delimiter : String) → List String
  toInt32 : String → (base : ℕ) → Except String ℤ
  toUint8 : String → Except String UInt8
  icompare : String → String → Bool

/-- What is used of libshaga's `INI`, in one section. -/
structure Ini where
  getUint32 : (key : String) → (fallback : UInt32) → Except String UInt32
  getUint8 : (key : String) → (fallback : UInt8) → Except String UInt8
  getString : (key : String) → String
  getList : (key : String) → List String

/-- What is thrown over a configuration. -/
inductive ConfigError where
  | thrown (text : String)
  | badFormat (str : String)
  | outOfBounds (name : String) (id : ℤ)
  | notValid (dev : UsbDev)
  | undefinedParity (parity : String)
  | undefinedFlowControl (parity : String)
  | undefinedDatabits (databits : UInt32)
  | undefinedStopbits (databits : UInt32)
deriving DecidableEq, Repr

/-- What libshaga throws is passed on. -/
def rethrow {α : Type} : Except String α → Except ConfigError α
  | .ok a => .ok a
  | .error text => .error (.thrown text)

/-- `{:x}`. -/
def hex (n : ℤ) : String :=
  (if n < 0 then "-" else "") ++ String.ofList (Nat.toDigits 16 n.natAbs)

/-- `e.what ()`. The flow control that is not defined is reported as the
parity, and the stop bits as the data bits. -/
def ConfigError.what : ConfigError → String
  | .thrown text => text
  | .badFormat str => "Bad format of USB device string '" ++ str ++ "'"
  | .outOfBounds name id => "USB device " ++ name ++ " '" ++ hex id ++ "' out of bounds"
  | .notValid dev => "USB device '" ++ dev.describe ++ "' is not valid"
  | .undefinedParity parity =>
      "Undefined parity '" ++ parity ++ "'. Possible values are 'odd', 'even' and 'none'."
  | .undefinedFlowControl parity =>
      "Undefined flow control '" ++ parity ++
        "'. Possible values are 'rts_cts', 'dtr_dsr', 'xon_xoff' and 'off'."
  | .undefinedDatabits databits =>
      "Undefined databits value '" ++ toString databits ++ "'. Possible values are '7' and '8'."
  | .undefinedStopbits databits =>
      "Undefined stopbits value '" ++ toString databits ++ "'. Possible values are '1' and '2'."

/-! ## A device string -/

/-- `FtdiContext::USBdev::is_valid`. -/
def UsbDev.isValid (dev : UsbDev) : Bool :=
  if dev.vendor < 0 ∨ dev.vendor ≥ 0xffff then false
  else if dev.product < 0 ∨ dev.product ≥ 0xffff then false
  else true

/-- The front field of a device string as an id, zero where there is
none. -/
def popId (str : Str) (name : String) : List String → Except ConfigError (ℤ × List String)
  | [] => .ok (0, [])
  | field :: vec => do
      let id ← rethrow (str.toInt32 field 16)
      if id ≥ 0xffff then .error (.outOfBounds name id) else .ok (id, vec)

/-- The front field of a device string as a position, zero where there is
none. -/
def popDevice (str : Str) : List String → Except ConfigError UInt8
  | [] => .ok 0
  | field :: _ => rethrow (str.toUint8 field)

/-- **`FtdiContext::USBdev::parse`.** -/
def UsbDev.parse (str : Str) (s : String) (checkValid : Bool) : Except ConfigError UsbDev :=
  let vec := str.split s ":"
  if vec.length < 1 ∨ vec.length > 3 then .error (.badFormat s)
  else do
    let (vendor, vec) ← popId str "vendor" vec
    let (product, vec) ← popId str "product" vec
    let device ← popDevice str vec
    let dev : UsbDev := { vendor := vendor, product := product, device := device }
    if checkValid = true ∧ dev.isValid = false then .error (.notValid dev) else .ok dev

/-! ## The configuration -/

/-- A program on a configuration. -/
abbrev Populate (α : Type) : Type := Prog Config ConfigError α

/-- What is read, or what is thrown over it. -/
def fetch {α : Type} : Except ConfigError α → Populate α
  | .ok a => pure a
  | .error e => raise e

/-- `baudrate`. -/
def populateBaudrate (ini : Ini) : Populate Unit := do
  let baudrate ← fetch (rethrow (ini.getUint32 "baudrate" 0))
  if baudrate > 0 then alter fun c => { c with speed := baudrate.toInt32.toInt } else pure ()

/-- `parity`. -/
def populateParity (str : Str) (ini : Ini) : Populate Unit :=
  let parity := ini.getString "parity"
  if parity = "" then pure ()
  else if str.icompare parity "odd" then alter fun c => { c with parity := .odd }
  else if str.icompare parity "even" then alter fun c => { c with parity := .even }
  else if str.icompare parity "none" then alter fun c => { c with parity := .none }
  else raise (.undefinedParity parity)

/-- `flowctrl`. -/
def populateFlowctrl (str : Str) (ini : Ini) : Populate Unit :=
  let flowctrl := ini.getString "flowctrl"
  if flowctrl = "" then pure ()
  else if str.icompare flowctrl "rts_cts" then alter fun c => { c with flow := .rtsCts }
  else if str.icompare flowctrl "dtr_dsr" then alter fun c => { c with flow := .dtrDsr }
  else if str.icompare flowctrl "xon_xoff" then alter fun c => { c with flow := .xonXoff }
  else if str.icompare flowctrl "off" then alter fun c => { c with flow := .disableFlowCtrl }
  else raise (.undefinedFlowControl (ini.getString "parity"))

/-- `databits`, which are returned for the message over the stop bits. -/
def populateDatabits (ini : Ini) : Populate UInt32 := do
  let databits ← fetch (rethrow (ini.getUint32 "databits" 255))
  if databits = 255 then pure databits
  else
    match databits.toNat with
    | 7 => do
        alter fun c => { c with databits := .bits7 }
        pure databits
    | 8 => do
        alter fun c => { c with databits := .bits8 }
        pure databits
    | _ => raise (.undefinedDatabits databits)

/-- `stopbits`. -/
def populateStopbits (ini : Ini) (databits : UInt32) : Populate Unit := do
  let stopbits ← fetch (rethrow (ini.getUint32 "stopbits" 255))
  if stopbits = 255 then pure ()
  else
    match stopbits.toNat with
    | 1 => alter fun c => { c with stopbits := .stopBit1 }
    | 2 => alter fun c => { c with stopbits := .stopBit2 }
    | _ => raise (.undefinedStopbits databits)

/-- One of `usb_devices`. -/
def populateUsbDevice (str : Str) (s : String) : Populate Unit := do
  let usbDevice ← fetch (UsbDev.parse str s false)
  alter fun c => { c with usbDevices := c.usbDevices ++ [usbDevice] }

/-- `ftdi_port`. -/
def populatePort (ini : Ini) : Populate Unit := do
  let port ← fetch (rethrow (ini.getUint8 "ftdi_port" 255))
  if port ≠ 255 then alter fun c => { c with ftdiPort := port } else pure ()

/-- **`FtdiContext::populate_config`.** -/
def populateConfig (str : Str) (ini : Ini) : Populate Unit := do
  populateBaudrate ini
  populateParity str ini
  populateFlowctrl str ini
  let databits ← populateDatabits ini
  populateStopbits ini databits
  each (ini.getList "usb_devices") (populateUsbDevice str)
  populatePort ini

end Context

end SgFtdi
