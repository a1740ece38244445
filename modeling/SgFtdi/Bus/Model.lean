import SgFtdi.Common.Prog
import SgFtdi.Ftdi.Baudrate

/-!
# Opening a device

How `ftdi.c` finds a device on the bus and opens it: by its numbers and
strings, by its place on the bus, or as it is given. The lists of devices
that libusb gives out, and the devices that are open, are in the record.

A handle is known by its device. What libusb answers to a call comes from
the world, and may change from call to call.
-/

namespace SgFtdi

namespace Bus

open Prog Ftdi

/-! ## Data -/

/-- `libusb_device_descriptor`, with the fields that are looked at. -/
structure DeviceDescriptor where
  idVendor : ℕ
  idProduct : ℕ
  bcdDevice : ℕ
  iProduct : ℕ
  iSerialNumber : ℕ
  bNumConfigurations : ℕ
deriving DecidableEq, Repr

/-- `libusb_config_descriptor`: its number, and the packet sizes of the
endpoints of each setting of each interface. -/
structure ConfigDescriptor where
  bConfigurationValue : ℕ
  interfaces : List (List (List ℕ))
deriving DecidableEq, Repr

/-- `ftdi_module_detach_mode`. -/
inductive DetachMode where
  | autoDetach
  | dontDetach
  | autoDetachReattach
deriving DecidableEq, Repr

/-- What is seen of the lists of devices and of the devices that are open. -/
inductive Event where
  | listed
  | freed
  | opened (dev : ℕ)
  | closed (dev : ℕ)
deriving DecidableEq, Repr

/-- What libusb answers: `none` or a number below zero is an error. -/
structure Env (σ : Type) where
  getDeviceList : σ → Option (List ℕ) × σ
  getDeviceDescriptor : (dev : ℕ) → σ → Option DeviceDescriptor × σ
  getConfigDescriptor : (dev : ℕ) → σ → Option ConfigDescriptor × σ
  busAddress : (dev : ℕ) → ℕ × ℕ
  libusbOpen : (dev : ℕ) → σ → Bool × σ
  getStringDescriptorAscii : (dev index : ℕ) → σ → Option String × σ
  detachKernelDriver : (dev interface : ℕ) → σ → Option ℕ × σ
  setAutoDetachKernelDriver : (dev : ℕ) → σ → Option ℕ × σ
  getConfiguration : (dev : ℕ) → σ → Option ℕ × σ
  setConfiguration : (dev configuration : ℕ) → σ → Bool × σ
  claimInterface : (dev interface : ℕ) → σ → Bool × σ
  releaseInterface : (dev interface : ℕ) → σ → Bool × σ
  controlTransfer : ℕ × ℕ × ℕ → σ → ℤ × σ

/-- The part of a `ftdi_context` that an open device is in. -/
structure Opener (σ : Type) where
  usbDev : Option ℕ
  type : ChipType
  interface : ℕ
  index : ℕ
  moduleDetachMode : DetachMode
  bitbangEnabled : Bool
  baudrate : ℤ
  maxPacketSize : ℕ
  readbufferOffset : ℕ
  readbufferRemaining : ℕ
  initializedForConnectedDevice : Bool
  errorStr : String
  trace : List Event
  world : σ

/-- A function of the library, which may return an error code. -/
abbrev Run (σ α : Type) : Type := Prog (Opener σ) ℤ α

variable {σ : Type} (env : Env σ)

/-- Ask the world. -/
def askWorld {α : Type} (f : σ → α × σ) : Run σ α :=
  ask fun c => ((f c.world).1, { c with world := (f c.world).2 })

/-- Write to the record. -/
def observe (e : Event) : Run σ Unit := alter fun c => { c with trace := c.trace ++ [e] }

/-- `ftdi_error_return`. -/
def errorReturn {α : Type} (code : ℤ) (text : String) : Run σ α := do
  alter fun c => { c with errorStr := text }
  raise code

/-- `ftdi_error_return_free_device_list`. -/
def errorReturnFreeDeviceList {α : Type} (code : ℤ) (text : String) : Run σ α := do
  observe .freed
  errorReturn code text

/-- `ftdi_usb_close_internal`. -/
def ftdiUsbCloseInternal : Run σ Unit := do
  let c ← look fun c => c
  match c.usbDev with
  | none => pure ()
  | some dev => do
      observe (.closed dev)
      alter fun c => { c with usbDev := none, initializedForConnectedDevice := false }

/-- `libusb_open` into the context. -/
def libusbOpen (dev : ℕ) : Run σ Bool := do
  let ok ← askWorld (env.libusbOpen dev)
  if ok then do
    observe (.opened dev)
    alter fun c => { c with usbDev := some dev }
    pure true
  else pure false

/-! ## A given device -/

/-- `EPERM`. -/
def eperm : ℕ := 1

/-- `SIO_RESET_REQUEST` with `SIO_RESET_SIO`. -/
def resetRequest (index : ℕ) : ℕ × ℕ × ℕ := (0, 0, index)

/-- `ftdi_usb_reset`. -/
def ftdiUsbReset : Run σ Unit := do
  let c ← look fun c => c
  if c.usbDev = none then errorReturn (-2) "USB device unavailable"
  else do
    let ret ← askWorld (env.controlTransfer (resetRequest c.index))
    if ret < 0 then errorReturn (-1) "FTDI reset failed"
    else alter fun c => { c with readbufferOffset := 0, readbufferRemaining := 0 }

/-- `_ftdi_determine_max_packet_size`. -/
def determineMaxPacketSize (dev : ℕ) : Run σ ℕ := do
  let c ← look fun c => c
  let packetSize := if c.type.highSpeed then 512 else 64
  let desc ← askWorld (env.getDeviceDescriptor dev)
  match desc with
  | none => pure packetSize
  | some desc => do
      let config0 ← askWorld (env.getConfigDescriptor dev)
      match config0 with
      | none => pure packetSize
      | some config0 =>
          if desc.bNumConfigurations > 0 then
            let interface := (config0.interfaces[c.interface]?).getD []
            let descriptor := (interface[0]?).getD []
            pure ((descriptor[0]?).getD packetSize)
          else pure packetSize

/-- `ftdi_set_baudrate`, on this part of the context. -/
def setBaudrate (baudrate : ℤ) : Run σ ℤ :=
  ask fun c =>
    let answer := ftdiSetBaudrate env.controlTransfer baudrate
      ⟨c.usbDev.isSome, c.type, c.index, c.bitbangEnabled, c.baudrate, c.errorStr, [], c.world⟩
    (answer.1, { c with
      baudrate := answer.2.baudrate
      errorStr := answer.2.errorStr
      world := answer.2.world })

/-- Ask the kernel to let go of the interface: the `errno` if it does not. -/
def detach (dev : ℕ) : Run σ (Option ℕ) := do
  let c ← look fun c => c
  match c.moduleDetachMode with
  | .autoDetach => askWorld (env.detachKernelDriver dev c.interface)
  | .autoDetachReattach => askWorld (env.setAutoDetachKernelDriver dev)
  | .dontDetach => pure none

/-- Close the device, as it cannot be used: maybe for want of permission. -/
def closeRefused {α : Type} (detachErrno : Option ℕ) (code : ℤ) (text : String) : Run σ α := do
  ftdiUsbCloseInternal
  if detachErrno = some eperm then errorReturn (-8) "inappropriate permissions on device!"
  else errorReturn code text

/-- What `ftdi_usb_open_dev` does once the chip is reset: guess what chip it
is, and set a first rate. -/
def identify (dev : ℕ) (desc : DeviceDescriptor) : Run σ Unit := do
  alter fun c => { c with
    type := (guessChipType desc.bcdDevice desc.iSerialNumber).getD c.type }
  let maxPacketSize ← determineMaxPacketSize env dev
  alter fun c => { c with maxPacketSize }
  let ret ← setBaudrate env 9600
  if ret ≠ 0 then do
    ftdiUsbCloseInternal
    errorReturn (-7) "set baudrate failed"
  else alter fun c => { c with errorStr := "all fine" }

/-- What `ftdi_usb_open_dev` does once it has the interface. -/
def setUp (dev : ℕ) (desc : DeviceDescriptor) : Run σ Unit := do
  let ok ← rescue (do
    ftdiUsbReset env
    pure true) fun _ => pure false
  if ok = false then do
    ftdiUsbCloseInternal
    errorReturn (-6) "ftdi_usb_reset failed"
  else identify env dev desc

/-- What `ftdi_usb_open_dev` does once the device is configured. -/
def claim (dev : ℕ) (desc : DeviceDescriptor) (detachErrno : Option ℕ) : Run σ Unit := do
  let c ← look fun c => c
  let ok ← askWorld (env.claimInterface dev c.interface)
  if ok = false then
    closeRefused detachErrno (-5)
      "unable to claim usb device. Make sure the default FTDI driver is not in use"
  else setUp env dev desc

/-- `ftdi_usb_open_dev`. -/
def ftdiUsbOpenDev (dev : ℕ) : Run σ Unit := do
  let ok ← libusbOpen env dev
  if ok = false then errorReturn (-4) "libusb_open() failed"
  else do
    -- the three queries that fail below leave the device open
    let desc ← askWorld (env.getDeviceDescriptor dev)
    match desc with
    | none => errorReturn (-9) "libusb_get_device_descriptor() failed"
    | some desc => do
        let config0 ← askWorld (env.getConfigDescriptor dev)
        match config0 with
        | none => errorReturn (-10) "libusb_get_config_descriptor() failed"
        | some config0 => do
            -- only looked at if the configuration or the claim fails
            let detachErrno ← detach env dev
            let cfg ← askWorld (env.getConfiguration dev)
            match cfg with
            | none => errorReturn (-12) "libusb_get_configuration () failed"
            | some cfg =>
                if desc.bNumConfigurations > 0 ∧ cfg ≠ config0.bConfigurationValue then do
                  let ok ← askWorld (env.setConfiguration dev config0.bConfigurationValue)
                  if ok = false then
                    closeRefused detachErrno (-3) ("unable to set usb configuration. " ++
                      "Make sure the default FTDI driver is not in use")
                  else claim env dev desc detachErrno
                else claim env dev desc detachErrno

/-! ## A device on the bus -/

/-- Open a device that was found, and give back the list. -/
def openFound (dev : ℕ) : Run σ Unit := do
  rescue (ftdiUsbOpenDev env dev) fun res => do
    observe .freed
    raise res
  observe .freed

/-- Compare a string of the open device to one that is asked for: if they
differ, the device is closed. -/
def sameString (dev index : ℕ) (code : ℤ) (text : String) : Option String → Run σ Bool
  | none => pure true
  | some asked => do
      let string ← askWorld (env.getStringDescriptorAscii dev index)
      match string with
      | none => do
          ftdiUsbCloseInternal
          errorReturnFreeDeviceList code text
      | some string =>
          if string ≠ asked then do
            ftdiUsbCloseInternal
            pure false
          else pure true

/-- What is asked for of a device. -/
structure Wanted where
  vendor : ℕ
  product : ℕ
  description : Option String
  serial : Option String

/-- Whether a device is one that is asked for. -/
def matching (wanted : Wanted) (dev : ℕ) : Run σ Bool := do
  let desc ← askWorld (env.getDeviceDescriptor dev)
  match desc with
  | none => errorReturnFreeDeviceList (-13) "libusb_get_device_descriptor() failed"
  | some desc =>
      if desc.idVendor = wanted.vendor ∧ desc.idProduct = wanted.product then do
        -- opened to read its strings, and closed again
        let ok ← libusbOpen env dev
        if ok = false then errorReturnFreeDeviceList (-4) "usb_open() failed"
        else do
          let same ← sameString env dev desc.iProduct (-8) "unable to fetch product description"
            wanted.description
          if same = false then pure false
          else do
            let same ← sameString env dev desc.iSerialNumber (-9) "unable to fetch serial number"
              wanted.serial
            if same = false then pure false
            else do
              ftdiUsbCloseInternal
              pure true
      else pure false

/-- The loop of `ftdi_usb_open_desc_index`. -/
def searchDevices (wanted : Wanted) : List ℕ → ℕ → Run σ Unit
  | [], _ => errorReturnFreeDeviceList (-3) "device not found"
  | dev :: devs, index => do
      let found ← matching env wanted dev
      if found = false then searchDevices wanted devs index
      else if index > 0 then searchDevices wanted devs (index - 1)
      else openFound env dev

/-- `ftdi_usb_open_desc_index`. -/
def ftdiUsbOpenDescIndex (wanted : Wanted) (index : ℕ) : Run σ Unit := do
  let devs ← askWorld env.getDeviceList
  match devs with
  | none => errorReturn (-12) "libusb_get_device_list() failed"
  | some devs => do
      observe .listed
      searchDevices env wanted devs index

/-- `ftdi_usb_open_bus_addr`. -/
def ftdiUsbOpenBusAddr (bus addr : ℕ) : Run σ Unit := do
  let devs ← askWorld env.getDeviceList
  match devs with
  | none => errorReturn (-12) "libusb_get_device_list() failed"
  | some devs => do
      observe .listed
      match devs.find? fun dev => env.busAddress dev = (bus, addr) with
      | some dev => openFound env dev
      | none => errorReturnFreeDeviceList (-3) "device not found"

/-- `ftdi_usb_close`. -/
def ftdiUsbClose : Run σ Unit := do
  let c ← look fun c => c
  match c.usbDev with
  | none => pure ()
  | some dev => do
      let ok ← askWorld (env.releaseInterface dev c.interface)
      -- closed also where the interface is not released
      ftdiUsbCloseInternal
      if ok then pure () else raise (-1)

/-- A call. -/
inductive Call where
  | openDev (dev : ℕ)
  | openDescIndex (wanted : Wanted) (index : ℕ)
  | openBusAddr (bus addr : ℕ)
  | close

/-- Whether a call opens a device. -/
def Call.opens : Call → Bool
  | .close => false
  | _ => true

/-- Make a call. -/
def Call.run : Call → Run σ Unit
  | .openDev dev => ftdiUsbOpenDev env dev
  | .openDescIndex wanted index => ftdiUsbOpenDescIndex env wanted index
  | .openBusAddr bus addr => ftdiUsbOpenBusAddr env bus addr
  | .close => ftdiUsbClose env

/-- A call on a context: a device is only opened where none is open. -/
def Called (s t : Opener σ) : Prop :=
  ∃ call : Call, (call.opens = true → s.usbDev = none) ∧ t = (call.run env s).2

end Bus

end SgFtdi
