import SgFtdi.Common.Prog
import Mathlib.Data.Int.Notation
import Mathlib.Data.Nat.Notation

/-!
# Context — opening a device

`FtdiContext` of `FtdiContext.cpp`: `init`, which takes the caller's libusb
context or creates one, makes an `ftdi_context` and opens the first
configured device that is there, and `clear`, which lets both go. Of
`ftdi_ex.h` the functions that make an `ftdi_context` and free it are
here, of `ftdi.c` the choice of an interface; what else libftdi and libusb
do is answered by an `Env`. A context or a device is a pointer, kept as a
number, and `nullptr` is `none`; a device list is the list of its devices.
What is asked of an `Env` is put on record with the answer where it is
asked, and what is created and let go in the order it happens.
-/

namespace SgFtdi

namespace Context

open Prog

/-- `FtdiContext::USBdev`. -/
structure UsbDev where
  vendor : ℤ := 0
  product : ℤ := 0
  device : UInt8 := 0
deriving DecidableEq, Repr

/-- `{:04x}`. -/
def hex4 (n : ℤ) : String :=
  let digits := String.ofList (Nat.toDigits 16 n.natAbs)
  let sign := if n < 0 then "-" else ""
  sign ++ String.ofList (List.replicate (4 - (sign.length + digits.length)) '0') ++ digits

/-- `FtdiContext::USBdev::describe`. -/
def UsbDev.describe (dev : UsbDev) : String :=
  if 0 < dev.device then hex4 dev.vendor ++ ":" ++ hex4 dev.product ++ ":" ++ toString dev.device
  else hex4 dev.vendor ++ ":" ++ hex4 dev.product

/-- `ftdi_bits_type`. -/
inductive Databits where
  | bits7
  | bits8
deriving DecidableEq, Repr

/-- `ftdi_stopbits_type`. -/
inductive Stopbits where
  | stopBit1
  | stopBit15
  | stopBit2
deriving DecidableEq, Repr

/-- `ftdi_parity_type`. -/
inductive Parity where
  | none
  | odd
  | even
  | mark
  | space
deriving DecidableEq, Repr

/-- `FtdiContext::Config::FlowControl`. -/
inductive FlowControl where
  | disableFlowCtrl
  | rtsCts
  | dtrDsr
  | xonXoff
deriving DecidableEq, Repr

/-- The value of a flow control. -/
def FlowControl.value : FlowControl → ℤ
  | .disableFlowCtrl => 0
  | .rtsCts => 256
  | .dtrDsr => 512
  | .xonXoff => 1024

/-- `FtdiContext::Config`. -/
structure Config where
  speed : ℤ := 115200
  usbDevices : List UsbDev := []
  usbDevice : UsbDev := {}
  ftdiPort : UInt8 := 0
  databits : Databits := .bits8
  stopbits : Stopbits := .stopBit1
  parity : Parity := .odd
  flow : FlowControl := .disableFlowCtrl
deriving DecidableEq, Repr

/-- `ftdi_interface`. -/
inductive Interface where
  | any
  | a
  | b
  | c
  | d
deriving DecidableEq, Repr

/-- The value of an interface. -/
def Interface.value : Interface → ℕ
  | .any => 0
  | .a => 1
  | .b => 2
  | .c => 3
  | .d => 4

/-- The letter of a port. -/
def Interface.letter : Interface → String
  | .any => "ANY"
  | .a => "A"
  | .b => "B"
  | .c => "C"
  | .d => "D"

/-- What is used of an `ftdi_context`: the libusb context it works on, the
open device and the index of the interface. -/
structure RawContext where
  usbCtx : Option ℕ
  usbDev : Option ℕ
  index : ℕ
deriving DecidableEq, Repr

/-- What `init` throws. -/
inductive Exn where
  | usbContextNotProvided
  | unableToInitUsb (code : ℤ)
  | unableToAllocateContext
  | unableToSetInterface (i : Interface)
  | badPort (port : UInt8)
  | findAllFailed (code : ℤ) (text : String)
  | unableToOpenDevice (dev : UsbDev) (text : String)
  | unableToGetDescriptor (dev : UsbDev)
  | unableToFindDevice
  | unableToReset
  | unableToSetBaudrate
  | unableToSetParameters
  | unableToSetFlowControl
deriving DecidableEq, Repr

/-- `e.what ()`, `libusb_error_name` given. -/
def Exn.what (libusbErrorName : ℤ → String) : Exn → String
  | .usbContextNotProvided => "USB context is not provided"
  | .unableToInitUsb code => "Unable to init USB: " ++ libusbErrorName code
  | .unableToAllocateContext => "Unable to allocate FTDI context"
  | .unableToSetInterface i => "Unable to set interface port " ++ i.letter
  | .badPort port => "Bad port number " ++ toString port
  | .findAllFailed code text =>
      "ftdi_usb_find_all failed: " ++ toString code ++ " (" ++ text ++ ")"
  | .unableToOpenDevice dev text => "Unable to open device " ++ dev.describe ++ ": " ++ text
  | .unableToGetDescriptor dev => "Unable to get device " ++ dev.describe ++ " descriptor"
  | .unableToFindDevice => "Unable to find usb device"
  | .unableToReset => "Unable to reset device"
  | .unableToSetBaudrate => "Unable to set baudrate"
  | .unableToSetParameters => "Unable to set parameters"
  | .unableToSetFlowControl => "Unable to set flow control"

/-- The strings of a device descriptor that are read. -/
structure Descriptor where
  iManufacturer : UInt8
  iProduct : UInt8
  iSerialNumber : UInt8
deriving DecidableEq, Repr

/-- What `set_ftdi_params` sets. -/
inductive Param where
  | reset
  | baudrate (speed : ℤ)
  | lineProperty (databits : Databits) (stopbits : Stopbits) (parity : Parity)
  | flowctrl (flow : ℤ)
deriving DecidableEq, Repr

/-- What libusb, libftdi and `malloc` are asked. A call on an
`ftdi_context` is asked with what it uses of it; `set` is one of
`ftdi_usb_reset`, `ftdi_set_baudrate`, `ftdi_set_line_property` and
`ftdi_setflowctrl`. -/
inductive Query where
  | libusbInit
  | malloc
  | ftdiUsbFindAll (usbCtx : Option ℕ) (vendor product : ℤ)
  | ftdiUsbOpenDev (dev index : ℕ)
  | libusbGetDeviceDescriptor (dev : ℕ)
  | libusbGetStringDescriptorAscii (usbDev : Option ℕ) (index : UInt8)
  | set (usbDev : Option ℕ) (param : Param)
deriving DecidableEq, Repr

/-- What they answer. A negative code of libftdi comes with the text it
gives of it. -/
abbrev Query.Answer : Query → Type
  | .libusbInit => Except ℤ ℕ
  | .malloc => Bool
  | .ftdiUsbFindAll _ _ _ => Except (ℤ × String) (List ℕ)
  | .ftdiUsbOpenDev _ _ => Except String ℕ
  | .libusbGetDeviceDescriptor _ => Option Descriptor
  | .libusbGetStringDescriptorAscii _ _ => Option String
  | .set _ _ => ℤ

/-- What is on record: what was asked, with the answer; a libusb context
created and let go by `libusb_init` and `libusb_exit`, an `ftdi_context` on
a libusb context by `ftdi_new_ex` and `ftdi_free_ex`, and a device list let
go by `ftdi_list_free`. -/
inductive Event where
  | asked (query : Query) (answer : query.Answer)
  | created (usbCtx : ℕ)
  | exited (usbCtx : ℕ)
  | allocated (usbCtx : Option ℕ)
  | freed (usbCtx : Option ℕ)
  | listFreed (devlist : List ℕ)

/-- **How the world answers.** A device that could not be opened is left
as it was. -/
structure Env (σ : Type) where
  answer : (query : Query) → σ → query.Answer × σ

/-- `FtdiContext`, with the world and the record. -/
structure FtdiContext (σ : Type) where
  ctx : Option RawContext
  usbCtx : Option ℕ
  createLibusbContext : Bool
  libusbContextCreated : Bool
  manufacturer : String
  description : String
  serial : String
  config : Config
  world : σ
  trace : List Event

/-- A program on an `FtdiContext`. -/
abbrev Run (σ α : Type) : Type := Prog (FtdiContext σ) Exn α

variable {σ : Type} (env : Env σ)

/-- `FtdiContext::FtdiContext`. -/
def construct (createLibusbContext : Bool) (config : Config) (world : σ) : FtdiContext σ where
  ctx := none
  usbCtx := none
  createLibusbContext := createLibusbContext
  libusbContextCreated := false
  manufacturer := ""
  description := ""
  serial := ""
  config := config
  world := world
  trace := []

/-- Ask the world, and put its answer on record. -/
def askWorld (query : Query) : Run σ query.Answer :=
  Prog.ask fun c =>
    let (answer, world) := env.answer query c.world
    (answer, { c with world := world, trace := c.trace ++ [.asked query answer] })

/-- Put something on record. -/
def observe (e : Event) : Run σ Unit := Prog.alter fun c => { c with trace := c.trace ++ [e] }

/-! ## The `ftdi_context` -/

/-- `ftdi_set_interface`. -/
def ftdiSetInterface (raw : RawContext) (i : Interface) : ℤ × RawContext :=
  let check := if i = .any then Interface.a else i
  if raw.usbDev.isSome ∧ raw.index ≠ check.value then (-3, raw)
  else (0, { raw with index := check.value })

/-- `ftdi_init_ex`, up to its return code. -/
def ftdiInitEx (raw : RawContext) (usbCtx : Option ℕ) : Run σ (ℤ × RawContext) := do
  let eeprom ← askWorld env .malloc
  let raw := (ftdiSetInterface { raw with usbCtx := usbCtx, usbDev := none } .any).2
  if eeprom = false then pure (-2, raw)
  else do
    let readbuffer ← askWorld env .malloc
    if readbuffer = false then pure (-1, raw) else pure (0, raw)

/-- `ftdi_new_ex`. -/
def ftdiNewEx (usbCtx : Option ℕ) : Run σ (Option RawContext) := do
  let found ← askWorld env .malloc
  if found = false then pure none
  else do
    let (rc, raw) ← ftdiInitEx env ⟨none, none, 0⟩ usbCtx
    if rc ≠ 0 then pure none
    else do
      observe (.allocated raw.usbCtx)
      pure (some raw)

/-- `ftdi_free_ex`, where there is an `ftdi_context`. -/
def freeContext : Run σ Unit := do
  let c ← look id
  match c.ctx with
  | none => pure ()
  | some raw => do
      observe (.freed raw.usbCtx)
      alter fun c => { c with ctx := none }

/-- `libusb_exit`, where a context was created and is there. -/
def exitContext : Run σ Unit := do
  let c ← look id
  if c.libusbContextCreated then
    match c.usbCtx with
    | none => pure ()
    | some usbCtx => do
        observe (.exited usbCtx)
        alter fun c => { c with usbCtx := none }
  else pure ()

/-- What `clear` and the handler of `init` both do. -/
def letGo : Run σ Unit := do
  freeContext
  exitContext

/-- `FtdiContext::clear`. -/
def clear : Run σ Unit := letGo

/-! ## Opening -/

/-- The part of `init` where no libusb context is given. -/
def createContext : Run σ Unit := do
  let c ← look id
  if c.createLibusbContext = false then raise .usbContextNotProvided
  else do
    let answer ← askWorld env .libusbInit
    match answer with
    | .error code => raise (.unableToInitUsb code)
    | .ok usbCtx => do
        observe (.created usbCtx)
        alter fun c => { c with usbCtx := some usbCtx, libusbContextCreated := true }

/-- Where a libusb context is given it is taken as it is. -/
def takeContext (usbCtx : Option ℕ) : Run σ Unit :=
  if usbCtx = none then createContext env else pure ()

/-- One case of the `switch` over `ftdi_port`. -/
def setInterface (i : Interface) : Run σ Unit := do
  let c ← look id
  match c.ctx with
  | none => pure ()
  | some raw => do
      alter fun c => { c with ctx := some (ftdiSetInterface raw i).2 }
      if (ftdiSetInterface raw i).1 ≠ 0 then raise (.unableToSetInterface i) else pure ()

/-- The `switch` over `ftdi_port`. -/
def setPort : Run σ Unit := do
  let c ← look id
  match c.config.ftdiPort.toNat with
  | 0 => setInterface .a
  | 1 => setInterface .b
  | 2 => setInterface .c
  | 3 => setInterface .d
  | _ => raise (.badPort c.config.ftdiPort)

/-- `FtdiContext::get_string_descriptor_ascii`: the string, empty where it
cannot be read. -/
def getStringDescriptorAscii (index : UInt8) : Run σ String := do
  let c ← look id
  let text ← askWorld env (.libusbGetStringDescriptorAscii (c.ctx.bind (·.usbDev)) index)
  pure (text.getD "")

/-- `init` on a device it has found. -/
def openDevice (dev : UsbDev) (usbdev : ℕ) : Run σ Unit := do
  let c ← look id
  let opened ← askWorld env (.ftdiUsbOpenDev usbdev ((c.ctx.map (·.index)).getD 0))
  match opened with
  | .error text => raise (.unableToOpenDevice dev text)
  | .ok handle => do
      alter fun c => { c with ctx := c.ctx.map fun raw => { raw with usbDev := some handle } }
      let desc ← askWorld env (.libusbGetDeviceDescriptor usbdev)
      match desc with
      | none => raise (.unableToGetDescriptor dev)
      | some desc => do
          let manufacturer ← getStringDescriptorAscii env desc.iManufacturer
          alter fun c => { c with manufacturer := manufacturer }
          let description ← getStringDescriptorAscii env desc.iProduct
          alter fun c => { c with description := description }
          let serial ← getStringDescriptorAscii env desc.iSerialNumber
          alter fun c => { c with serial := serial }
          alter fun c => { c with config := { c.config with usbDevice := dev } }

/-- The `try` of a turn of the loop over the configured devices, on the
list of its entry: whether the device was found. -/
def tryDevice (dev : UsbDev) (devlist : List ℕ) : Run σ Bool :=
  match devlist[dev.device.toNat]? with
  | none => do
      observe (.listFreed devlist)
      pure false
  | some usbdev => do
      openDevice env dev usbdev
      observe (.listFreed devlist)
      pure true

/-- `ftdi_list_free` where there is a list: an empty one is null. -/
def freeList (devlist : List ℕ) : Run σ Unit :=
  if devlist = [] then pure () else observe (.listFreed devlist)

/-- One turn of the loop over the configured devices: whether it was
found. What is thrown is thrown before the list is freed. -/
def findDevice (dev : UsbDev) : Run σ Bool := do
  let c ← look id
  let devlist ← askWorld env (.ftdiUsbFindAll (c.ctx.bind (·.usbCtx)) dev.vendor dev.product)
  match devlist with
  | .error (code, text) => raise (.findAllFailed code text)
  | .ok devlist =>
      rescue (tryDevice env dev devlist) fun cause => do
        freeList devlist
        raise cause

/-- The loop over the configured devices, which ends with the first that is
found. -/
def findDevices : List UsbDev → Run σ Bool
  | [] => pure false
  | dev :: devs => do
      let found ← findDevice env dev
      if found then pure true else findDevices devs

/-- One call of `set_ftdi_params`, and what is thrown where it fails. -/
def setParam (param : Param) (cause : Exn) : Run σ Unit := do
  let c ← look id
  let rc ← askWorld env (.set (c.ctx.bind (·.usbDev)) param)
  if rc ≠ 0 then raise cause else pure ()

/-- `FtdiContext::set_ftdi_params`. -/
def setFtdiParams : Run σ Unit := do
  let c ← look id
  setParam env .reset .unableToReset
  setParam env (.baudrate c.config.speed) .unableToSetBaudrate
  setParam env (.lineProperty c.config.databits c.config.stopbits c.config.parity)
    .unableToSetParameters
  setParam env (.flowctrl c.config.flow.value) .unableToSetFlowControl

/-- `init` once there is an `ftdi_context`. -/
def openConfigured : Run σ Unit := do
  setPort
  let c ← look id
  let found ← findDevices env c.config.usbDevices
  if found = false then raise .unableToFindDevice else setFtdiParams env

/-- The body of the `try` of `init`. -/
def initBody (usbCtx : Option ℕ) : Run σ (Option RawContext) := do
  clear
  takeContext env usbCtx
  let raw ← ftdiNewEx env usbCtx
  alter fun c => { c with ctx := raw }
  if raw = none then raise .unableToAllocateContext
  else do
    openConfigured env
    let c ← look id
    pure c.ctx

/-- **`FtdiContext::init`.** -/
def init (usbCtx : Option ℕ) : Run σ (Option RawContext) :=
  rescue (initBody env usbCtx) fun cause => do
    letGo
    raise cause

/-! ## Runs -/

/-- What is done to an `FtdiContext`: `init`, `clear`, which is also its
destructor, and a change of its configuration in between. -/
inductive Call where
  | init (usbCtx : Option ℕ)
  | clear
  | configure (config : Config)
deriving DecidableEq, Repr

/-- A call. -/
def call : Call → Run σ (Option RawContext)
  | .init usbCtx => init env usbCtx
  | .clear => do
      clear
      pure none
  | .configure config => do
      alter fun c => { c with config := config }
      pure none

/-- A call, how it comes back, and the state it leaves. -/
def CallStep (a : Call × Outcome Exn (Option RawContext)) (c c' : FtdiContext σ) : Prop :=
  call env a.1 c = (a.2, c')

end Context

end SgFtdi
