import SgFtdi.Common.Trail
import SgFtdi.Context.Model

/-!
# Context — the strings of a device

`ftdi_usb_get_strings_ex` of `ftdi_ex.h` and `ftdi_usb_close_internal` of
`ftdi.c`, on what they use of an `ftdi_context`. A call opens the device
where none is open, and should leave the context as it was on each of its
exits and bring the strings of the device it is asked for. Two things go
wrong. Where the device descriptor cannot be read the handle stays, and the
next call reads from it; and where another device is open the strings are
read from that one. `strings_exact` says that nothing else goes wrong, over
any sequence of calls.
-/

namespace SgFtdi

namespace Context

namespace Strings

open Prog

/-- A handle: the device it is of, and which of its handles it is. -/
structure Handle where
  dev : ℕ
  number : ℕ
deriving DecidableEq, Repr

/-- What libusb is asked. -/
inductive Query where
  | libusbOpen (dev : ℕ)
  | libusbGetDeviceDescriptor (dev : ℕ)
  | libusbGetStringDescriptorAscii (usbDev : Option Handle) (index : UInt8) (length : ℤ)
deriving DecidableEq, Repr

/-- What it answers: the number of a handle, a descriptor, or the text it
writes to the buffer, and nothing where it fails. -/
abbrev Query.Answer : Query → Type
  | .libusbOpen _ => Option ℕ
  | .libusbGetDeviceDescriptor _ => Option Descriptor
  | .libusbGetStringDescriptorAscii _ _ _ => Option String

/-- What is on record: what libusb was asked, with its answer, and what was
closed. -/
inductive Event where
  | asked (query : Query) (answer : query.Answer)
  | closed (handle : Handle)

/-- What is used of an `ftdi_context`: the open device, the error text, and
where there is an eeprom whether it was initialized for the device. -/
structure Ftdi (σ : Type) where
  usbDev : Option Handle
  errorStr : String
  eeprom : Option Bool
  world : σ
  trace : List Event

/-- **How libusb answers.** -/
structure Env (σ : Type) where
  answer : (query : Query) → σ → query.Answer × σ

/-- A buffer of the caller: what it holds, up to the first null, and its
length. -/
structure Buffer where
  text : String
  length : ℤ
deriving DecidableEq, Repr

/-- The buffers of a call, `none` where one is not requested. -/
structure Buffers where
  manufacturer : Option Buffer
  description : Option Buffer
  serial : Option Buffer
deriving DecidableEq, Repr

/-- A program on an `ftdi_context`. Nothing is thrown in it. -/
abbrev Run (σ α : Type) : Type := Prog (Ftdi σ) Empty α

variable {σ : Type} (env : Env σ)

/-- Ask libusb, and put its answer on record. -/
def askLibusb (query : Query) : Run σ query.Answer :=
  Prog.ask fun c =>
    let (answer, world) := env.answer query c.world
    (answer, { c with world := world, trace := c.trace ++ [.asked query answer] })

/-- `ftdi_error_return`. -/
def ftdiErrorReturn (code : ℤ) (text : String) (b : Buffers) : Run σ (ℤ × Buffers) := do
  alter fun c => { c with errorStr := text }
  pure (code, b)

/-- `ftdi_usb_close_internal`. -/
def ftdiUsbCloseInternal : Run σ Unit := do
  let c ← look id
  match c.usbDev with
  | none => pure ()
  | some handle =>
      alter fun c => { c with
        usbDev := none
        eeprom := c.eeprom.map fun _ => false
        trace := c.trace ++ [.closed handle] }

/-- `libusb_open` into the context, where it is needed: whether there is an
open device. -/
def openNeeded (dev : ℕ) (needOpen : Bool) : Run σ Bool :=
  if needOpen = false then pure true
  else do
    let number ← askLibusb env (.libusbOpen dev)
    match number with
    | none => pure false
    | some number => do
        alter fun c => { c with usbDev := some ⟨dev, number⟩ }
        pure true

/-- One of the strings, where it is requested: empty where it cannot be
read. -/
def getString (index : UInt8) : Option Buffer → Run σ (Option Buffer)
  | none => pure none
  | some b => do
      let c ← look id
      let answer ← askLibusb env (.libusbGetStringDescriptorAscii c.usbDev index b.length)
      pure (some { b with text := answer.getD "" })

/-- The strings, once there is a descriptor. -/
def getStrings (desc : Descriptor) (needOpen : Bool) (b : Buffers) : Run σ (ℤ × Buffers) := do
  let manufacturer ← getString env desc.iManufacturer b.manufacturer
  let description ← getString env desc.iProduct b.description
  let serial ← getString env desc.iSerialNumber b.serial
  if needOpen then do
    ftdiUsbCloseInternal
    pure (0, ⟨manufacturer, description, serial⟩)
  else pure (0, ⟨manufacturer, description, serial⟩)

/-- The call once the device is open. -/
def readDevice (dev : ℕ) (needOpen : Bool) (b : Buffers) : Run σ (ℤ × Buffers) := do
  let desc ← askLibusb env (.libusbGetDeviceDescriptor dev)
  match desc with
  | none => ftdiErrorReturn (-11) "libusb_get_device_descriptor() failed" b
  | some desc => getStrings env desc needOpen b

/-- The call, where the device needs to be opened or not. -/
def openAndRead (dev : ℕ) (needOpen : Bool) (b : Buffers) : Run σ (ℤ × Buffers) := do
  let opened ← openNeeded env dev needOpen
  if opened = false then ftdiErrorReturn (-4) "libusb_open() failed" b
  else readDevice env dev needOpen b

/-- **`ftdi_usb_get_strings_ex`**, of an `ftdi_context` that is not null:
its return code and the buffers. -/
def ftdiUsbGetStringsEx (dev : Option ℕ) (b : Buffers) : Run σ (ℤ × Buffers) :=
  match dev with
  | none => pure (-1, b)
  | some dev => do
      let c ← look id
      openAndRead env dev c.usbDev.isNone b

/-! ## What a call should do -/

/-- A call: the device, the buffers, what it returned and what they hold
then. -/
structure Call where
  dev : Option ℕ
  before : Buffers
  code : ℤ
  after : Buffers
deriving DecidableEq, Repr

/-- A call is made, and leaves the context as it does. -/
def CallStep (a : Call) (c c' : Ftdi σ) : Prop :=
  ftdiUsbGetStringsEx env a.dev a.before c = (.ret (a.code, a.after), c')

/-- The handle an entry of the record opens. -/
def Event.opens : Event → Option Handle
  | .asked (.libusbOpen dev) (some number) => some ⟨dev, number⟩
  | _ => none

/-- The handle an entry of the record closes. -/
def Event.closes : Event → Option Handle
  | .closed handle => some handle
  | _ => none

/-- A requested buffer holds the empty string, or what libusb has read of
this index from a handle of the device. -/
def Holds (es : List Event) (dev : ℕ) (index : UInt8) (before after : Option Buffer) : Prop :=
  match before, after with
  | none, none => True
  | some b, some b' => b'.length = b.length ∧ (b'.text = "" ∨ ∃ handle, handle.dev = dev ∧
      .asked (.libusbGetStringDescriptorAscii (some handle) index b.length) (some b'.text) ∈ es)
  | _, _ => False

/-- The requested buffers hold the strings of a descriptor. -/
structure HoldAll (es : List Event) (dev : ℕ) (desc : Descriptor) (before after : Buffers) :
    Prop where
  manufacturer : Holds es dev desc.iManufacturer before.manufacturer after.manufacturer
  description : Holds es dev desc.iProduct before.description after.description
  serial : Holds es dev desc.iSerialNumber before.serial after.serial

/-- The requested buffers hold the strings of a device, as its descriptor
has them. -/
def Filled (es : List Event) (dev : ℕ) (before after : Buffers) : Prop :=
  ∃ desc, .asked (.libusbGetDeviceDescriptor dev) (some desc) ∈ es ∧
    HoldAll es dev desc before after

/-- **A call leaves the handle alone**: the context has the open device it
had, what the call opened it closed, once and nothing else, and where it
returns 0 the requested buffers are filled from the device it was asked
for. -/
structure Undisturbed (a : Call) (c t : Ftdi σ) : Prop where
  usbDev : t.usbDev = c.usbDev
  record : ∃ es, t.trace = c.trace ++ es ∧ es.filterMap Event.opens = es.filterMap Event.closes ∧
    (a.code = 0 → ∃ dev, a.dev = some dev ∧ Filled es dev a.before a.after)

/-- **A call leaks**: no device is open, libusb opens this one, and its
descriptor cannot be read. -/
def Leaks (a : Call) (c : Ftdi σ) : Prop :=
  c.usbDev = none ∧ ∃ dev number, a.dev = some dev ∧
    (env.answer (.libusbOpen dev) c.world).1 = some number ∧
      (env.answer (.libusbGetDeviceDescriptor dev) (env.answer (.libusbOpen dev) c.world).2).1 =
        none

/-- What libusb answers to the request for a string, empty where it is not
made or fails, and how that leaves it. -/
def textOf (handle : Handle) (index : UInt8) : Option Buffer → σ → String × σ
  | none, w => ("", w)
  | some b, w =>
      let (answer, w) :=
        env.answer (.libusbGetStringDescriptorAscii (some handle) index b.length) w
      (answer.getD "", w)

/-- What libusb answers to the three requests, one after the other. -/
def textsOf (handle : Handle) (desc : Descriptor) (b : Buffers) (w : σ) : List String :=
  let manufacturer := textOf env handle desc.iManufacturer b.manufacturer w
  let description := textOf env handle desc.iProduct b.description manufacturer.2
  let serial := textOf env handle desc.iSerialNumber b.serial description.2
  [manufacturer.1, description.1, serial.1]

/-- **A call misreads**: another device is open, the descriptor of this one
can be read, and for some string that is requested the handle of the other
one brings a text. -/
def Misreads (a : Call) (c : Ftdi σ) : Prop :=
  ∃ dev handle desc, a.dev = some dev ∧ c.usbDev = some handle ∧ handle.dev ≠ dev ∧
    (env.answer (.libusbGetDeviceDescriptor dev) c.world).1 = some desc ∧
      ∃ text ∈ textsOf env handle desc a.before
        (env.answer (.libusbGetDeviceDescriptor dev) c.world).2, text ≠ ""

/-! ## What a call does -/

variable {env} {c t : Ftdi σ} {b : Buffers} {dev : ℕ} {desc : Descriptor} {handle : Handle}

theorem ends_askLibusb {query : Query} {Q : query.Answer → Ftdi σ → Prop}
    {E : Empty → Ftdi σ → Prop} :
    Ends (askLibusb env query) Q E c ↔
      Q (env.answer query c.world).1
        { c with
          world := (env.answer query c.world).2
          trace := c.trace ++ [.asked query (env.answer query c.world).1] } := Iff.rfl

/-- A request for a string from this handle. -/
def Event.Reads (handle : Handle) (e : Event) : Prop :=
  ∃ index length answer,
    e = .asked (.libusbGetStringDescriptorAscii (some handle) index length) answer

/-- What is read of a string is read from this handle. -/
def Event.From (handle : Handle) : Event → Prop
  | .asked (.libusbGetStringDescriptorAscii usbDev _ _) _ => usbDev = some handle
  | _ => True

theorem Event.Reads.from {e : Event} (h : e.Reads handle) : e.From handle := by
  obtain ⟨index, length, answer, rfl⟩ := h
  rfl

/-- The record grows by requests for strings from the open device. -/
structure Reading (handle : Handle) (c t : Ftdi σ) (es : List Event) : Prop where
  usbDev : t.usbDev = c.usbDev
  trace : t.trace = c.trace ++ es
  reads : ∀ e ∈ es, e.Reads handle

theorem Reading.trans {u : Ftdi σ} {es es' : List Event} (h : Reading handle c t es)
    (h' : Reading handle t u es') : Reading handle c u (es ++ es') where
  usbDev := h'.usbDev.trans h.usbDev
  trace := by rw [h'.trace, h.trace, List.append_assoc]
  reads e he := (List.mem_append.mp he).elim (h.reads e) (h'.reads e)

/-- Such requests open nothing. -/
theorem opens_eq_nil {es : List Event} (h : ∀ e ∈ es, e.Reads handle) :
    es.filterMap Event.opens = [] := by
  refine List.filterMap_eq_nil_iff.mpr fun e he => ?_
  obtain ⟨index, length, answer, rfl⟩ := h e he
  rfl

/-- Such requests close nothing. -/
theorem closes_eq_nil {es : List Event} (h : ∀ e ∈ es, e.Reads handle) :
    es.filterMap Event.closes = [] := by
  refine List.filterMap_eq_nil_iff.mpr fun e he => ?_
  obtain ⟨index, length, answer, rfl⟩ := h e he
  rfl

theorem holdAll_iff {es : List Event} {before after : Buffers} :
    HoldAll es dev desc before after ↔
      Holds es dev desc.iManufacturer before.manufacturer after.manufacturer ∧
        Holds es dev desc.iProduct before.description after.description ∧
          Holds es dev desc.iSerialNumber before.serial after.serial :=
  ⟨fun h => ⟨h.1, h.2, h.3⟩, fun h => ⟨h.1, h.2.1, h.2.2⟩⟩

/-- What is on record stays there. -/
theorem Holds.mono {es es' : List Event} {index : UInt8} {before after : Option Buffer}
    (h : Holds es dev index before after) (hsub : ∀ e ∈ es, e ∈ es') :
    Holds es' dev index before after := by
  match before, after, h with
  | none, none, _ => exact trivial
  | some _, some _, ⟨hlength, .inl hempty⟩ => exact ⟨hlength, .inl hempty⟩
  | some _, some _, ⟨hlength, .inr ⟨handle, hdev, hmem⟩⟩ =>
      exact ⟨hlength, .inr ⟨handle, hdev, hsub _ hmem⟩⟩

theorem Filled.mono {es es' : List Event} {before after : Buffers}
    (h : Filled es dev before after) (hsub : ∀ e ∈ es, e ∈ es') :
    Filled es' dev before after := by
  obtain ⟨desc, hmem, hall⟩ := h
  exact ⟨desc, hsub _ hmem, hall.manufacturer.mono hsub, hall.description.mono hsub,
    hall.serial.mono hsub⟩

/-- **One string**: what libusb answers is in the buffer, and on record. -/
structure Fetched (env : Env σ) (handle : Handle) (index : UInt8) (before : Option Buffer)
    (c : Ftdi σ) (after : Option Buffer) (t : Ftdi σ) (es : List Event) : Prop where
  reading : Reading handle c t es
  world : t.world = (textOf env handle index before c.world).2
  after : after = before.map fun b => { b with text := (textOf env handle index before c.world).1 }
  record : ∀ b ∈ before, (textOf env handle index before c.world).1 ≠ "" →
    .asked (.libusbGetStringDescriptorAscii (some handle) index b.length)
      (some (textOf env handle index before c.world).1) ∈ es

theorem getString_ends (hopen : c.usbDev = some handle) (index : UInt8)
    (before : Option Buffer) :
    Ends (getString env index before)
      (fun after t => ∃ es, Fetched env handle index before c after t es)
      (fun _ _ => False) c := by
  cases before with
  | none => exact ⟨[], ⟨rfl, (List.append_nil _).symm, nofun⟩, rfl, rfl, nofun⟩
  | some b =>
      unfold getString
      rw [ends_bind, ends_look, ends_bind, ends_askLibusb, ends_pure]
      dsimp only [id]
      rw [hopen]
      refine ⟨_, ⟨hopen.symm, rfl, fun e he => ?_⟩, rfl, rfl, fun b' hb hne => ?_⟩
      · exact ⟨_, _, _, List.mem_singleton.mp he⟩
      · cases hb
        unfold textOf at hne ⊢
        dsimp only at hne ⊢
        revert hne
        generalize (env.answer (.libusbGetStringDescriptorAscii (some handle) index b.length)
          c.world).1 = answer
        intro hne
        cases answer with
        | none => exact absurd rfl hne
        | some text => exact List.mem_singleton_self _

/-- A buffer holds its string exactly where the handle is of the device, or
nothing was read. -/
theorem Fetched.holds_iff {index : UInt8} {before after : Option Buffer} {es es' : List Event}
    (h : Fetched env handle index before c after t es) (dev : ℕ)
    (hsub : ∀ e ∈ es, e ∈ es') (hfrom : ∀ e ∈ es', e.From handle) :
    Holds es' dev index before after ↔
      handle.dev = dev ∨ (textOf env handle index before c.world).1 = "" := by
  rw [h.after]
  cases before with
  | none => exact ⟨fun _ => .inr rfl, fun _ => trivial⟩
  | some b =>
      constructor
      · rintro ⟨-, hempty | ⟨handle', hdev, hmem⟩⟩
        · exact .inr hempty
        · have hsame : some handle' = some handle := hfrom _ hmem
          cases hsame
          exact .inl hdev
      · intro hcases
        refine ⟨rfl, ?_⟩
        by_cases hempty : (textOf env handle index (some b) c.world).1 = ""
        · exact .inl hempty
        · have hdev := hcases.resolve_right hempty
          exact .inr ⟨handle, hdev, hsub _ (h.record b rfl hempty)⟩

/-- The descriptor that was read is the one the strings are of. -/
theorem filled_iff {es : List Event} {before after : Buffers} (h : ∀ e ∈ es, e.Reads handle) :
    Filled (.asked (.libusbGetDeviceDescriptor dev) (some desc) :: es) dev before after ↔
      HoldAll (.asked (.libusbGetDeviceDescriptor dev) (some desc) :: es) dev desc before
        after := by
  constructor
  · rintro ⟨desc', hmem, hall⟩
    rcases List.mem_cons.mp hmem with heq | hmem
    · cases heq
      exact hall
    · obtain ⟨index, length, answer, heq⟩ := h _ hmem
      cases heq
  · exact fun hall => ⟨desc, List.mem_cons_self, hall⟩

/-- What closes the device, where the call opened it. -/
def Closes (needOpen : Bool) (c t : Ftdi σ) : Prop :=
  if needOpen then t.usbDev = none ∧ t.trace = c.trace ++ c.usbDev.toList.map .closed
  else t.usbDev = c.usbDev ∧ t.trace = c.trace

theorem ftdiUsbCloseInternal_ends (c : Ftdi σ) :
    Ends ftdiUsbCloseInternal (fun _ t => Closes true c t) (fun _ _ => False) c := by
  unfold ftdiUsbCloseInternal
  rw [ends_bind, ends_look]
  dsimp only [id]
  cases hdev : c.usbDev with
  | none =>
      refine ⟨hdev, ?_⟩
      rw [hdev]
      exact (List.append_nil _).symm
  | some handle =>
      rw [ends_alter]
      refine ⟨rfl, ?_⟩
      rw [hdev]
      rfl

/-- **The strings** are read with the open device, and then it is closed
where the call opened it. -/
theorem getStrings_ends (hopen : c.usbDev = some handle) (desc : Descriptor) (needOpen : Bool)
    (b : Buffers) :
    Ends (getStrings env desc needOpen b)
      (fun r t => r.1 = 0 ∧ ∃ u es, Reading handle c u es ∧ Closes needOpen u t ∧
        ∀ dev es', (∀ e ∈ es, e ∈ es') → (∀ e ∈ es', e.From handle) →
          (HoldAll es' dev desc b r.2 ↔
            handle.dev = dev ∨ ∀ text ∈ textsOf env handle desc b c.world, text = ""))
      (fun _ _ => False) c := by
  unfold getStrings
  rw [ends_bind]
  refine (getString_ends hopen _ _).mono ?_ fun _ _ hf => hf
  rintro manufacturer t ⟨es₁, ht⟩
  have hopen₁ := ht.reading.usbDev.trans hopen
  rw [ends_bind]
  refine (getString_ends hopen₁ _ _).mono ?_ fun _ _ hf => hf
  rintro description u ⟨es₂, hu⟩
  have hopen₂ := hu.reading.usbDev.trans hopen₁
  rw [ends_bind]
  refine (getString_ends hopen₂ _ _).mono ?_ fun _ _ hf => hf
  rintro serial v ⟨es₃, hv⟩
  have hreading := (ht.reading.trans hu.reading).trans hv.reading
  -- the three strings are asked for one after the other
  have hall : ∀ dev es', (∀ e ∈ es₁ ++ es₂ ++ es₃, e ∈ es') → (∀ e ∈ es', e.From handle) →
      (HoldAll es' dev desc b ⟨manufacturer, description, serial⟩ ↔
        handle.dev = dev ∨ ∀ text ∈ textsOf env handle desc b c.world, text = "") := by
    intro dev es' hsub hfrom
    have h₁ := ht.holds_iff dev (fun e he => hsub e (List.mem_append_left _
      (List.mem_append_left es₂ he))) hfrom
    have h₂ := hu.holds_iff dev (fun e he => hsub e (List.mem_append_left _
      (List.mem_append_right es₁ he))) hfrom
    have h₃ := hv.holds_iff dev (fun e he => hsub e (List.mem_append_right _ he)) hfrom
    rw [ht.world] at h₂
    rw [hu.world, ht.world] at h₃
    rw [holdAll_iff, h₁, h₂, h₃, ← or_and_left, ← or_and_left]
    simp [textsOf]
  rw [ends_ite]
  refine ⟨fun hneed => ?_, fun hneed => ?_⟩
  · rw [ends_bind, hneed]
    refine (ftdiUsbCloseInternal_ends v).mono (fun _ w hw => ?_) fun _ _ hf => hf
    exact ⟨rfl, v, _, hreading, hw, hall⟩
  · refine ⟨rfl, v, _, hreading, ?_, hall⟩
    unfold Closes
    rw [if_neg hneed]
    exact ⟨rfl, rfl⟩

/-- **A device that is open** is read, or its descriptor cannot be and the
context stays as it is. -/
theorem readDevice_ends (hopen : c.usbDev = some handle) (dev : ℕ) (needOpen : Bool)
    (b : Buffers) :
    Ends (readDevice env dev needOpen b)
      (fun r t => ((env.answer (.libusbGetDeviceDescriptor dev) c.world).1 = none ∧ r.1 = -11 ∧
          t.usbDev = c.usbDev ∧
            t.trace = c.trace ++ [.asked (.libusbGetDeviceDescriptor dev) none]) ∨
        ∃ desc, (env.answer (.libusbGetDeviceDescriptor dev) c.world).1 = some desc ∧ r.1 = 0 ∧
          ∃ u es, u.usbDev = c.usbDev ∧
            u.trace = c.trace ++ .asked (.libusbGetDeviceDescriptor dev) (some desc) :: es ∧
            (∀ e ∈ es, e.Reads handle) ∧ Closes needOpen u t ∧
            (Filled (.asked (.libusbGetDeviceDescriptor dev) (some desc) :: es) dev b r.2 ↔
              handle.dev = dev ∨ ∀ text ∈ textsOf env handle desc b
                (env.answer (.libusbGetDeviceDescriptor dev) c.world).2, text = ""))
      (fun _ _ => False) c := by
  unfold readDevice ftdiErrorReturn
  rw [ends_bind, ends_askLibusb]
  generalize env.answer (.libusbGetDeviceDescriptor dev) c.world = answer
  obtain ⟨desc, w⟩ := answer
  cases desc with
  | none => exact .inl ⟨rfl, rfl, rfl, rfl⟩
  | some desc =>
      refine (getStrings_ends (c := { c with world := w, trace := _ }) hopen desc needOpen
        b).mono ?_ fun _ _ hf => hf
      rintro r t ⟨hcode, u, es, hreading, hcloses, hall⟩
      refine .inr ⟨desc, rfl, hcode, u, es, hreading.usbDev, ?_, hreading.reads, hcloses, ?_⟩
      · rw [hreading.trace, List.append_assoc]
        rfl
      · rw [filled_iff hreading.reads]
        refine hall dev _ (fun e he => List.mem_cons_of_mem _ he) fun e he => ?_
        rcases List.mem_cons.mp he with rfl | he
        · trivial
        · exact (hreading.reads e he).from

/-- A call whose descriptor can be read misreads unless the open device is
the one it asks for or no string is read. -/
theorem misreads_iff {b' : Buffers} {code : ℤ} (hopen : c.usbDev = some handle)
    (hdesc : (env.answer (.libusbGetDeviceDescriptor dev) c.world).1 = some desc) :
    Misreads env ⟨some dev, b, code, b'⟩ c ↔ ¬ (handle.dev = dev ∨
      ∀ text ∈ textsOf env handle desc b
        (env.answer (.libusbGetDeviceDescriptor dev) c.world).2, text = "") := by
  rw [not_or]
  constructor
  · rintro ⟨dev', handle', desc', hdev, hopen', hne, hdesc', text, htext, hsome⟩
    cases hdev
    rw [hopen] at hopen'
    cases hopen'
    rw [hdesc] at hdesc'
    cases hdesc'
    exact ⟨hne, fun hall => hsome (hall text htext)⟩
  · rintro ⟨hne, hsome⟩
    obtain ⟨text, htext⟩ := not_forall.mp hsome
    obtain ⟨hmem, hnonempty⟩ := Classical.not_imp.mp htext
    exact ⟨dev, handle, desc, rfl, hopen, hne, hdesc, text, hmem, hnonempty⟩

/-- **A call on a context that has an open device** uses it, whichever it
is. -/
theorem call_open (hopen : c.usbDev = some handle) (dev : ℕ) (b : Buffers) :
    Ends (ftdiUsbGetStringsEx env (some dev) b)
      (fun r t => Undisturbed ⟨some dev, b, r.1, r.2⟩ c t ↔
        ¬ Misreads env ⟨some dev, b, r.1, r.2⟩ c) (fun _ _ => False) c := by
  have hneed : (id c).usbDev.isNone = false := by
    rw [id, hopen]
    rfl
  unfold ftdiUsbGetStringsEx
  rw [ends_bind, ends_look, hneed]
  refine (readDevice_ends hopen dev false b).mono ?_ fun _ _ hf => hf
  rintro r t (⟨hdesc, hcode, husb, htrace⟩ |
    ⟨desc, hdesc, hcode, u, es, husb, htrace, hreads, ⟨husb', htrace'⟩, hfilled⟩)
  · constructor
    · rintro - ⟨dev', _, desc, hdev, -, -, hdesc', -⟩
      cases hdev
      rw [hdesc] at hdesc'
      cases hdesc'
    · intro _
      refine ⟨husb, _, htrace, rfl, fun hzero => ?_⟩
      have hcode' : r.1 = 0 := hzero
      omega
  · have hrecord : t.trace =
        c.trace ++ .asked (.libusbGetDeviceDescriptor dev) (some desc) :: es := by
      rw [htrace', htrace]
    rw [misreads_iff hopen hdesc, not_not, ← hfilled]
    constructor
    · rintro ⟨-, es', hes', -, hzero⟩
      rw [hrecord] at hes'
      cases List.append_cancel_left hes'
      obtain ⟨dev', hdev, hfilled'⟩ := hzero hcode
      cases hdev
      exact hfilled'
    · intro hall
      refine ⟨husb'.trans husb, _, hrecord, ?_, fun _ => ⟨dev, rfl, hall⟩⟩
      exact (opens_eq_nil hreads).trans (closes_eq_nil hreads).symm

theorem openNeeded_ends (dev : ℕ) (c : Ftdi σ) :
    Ends (openNeeded env dev true)
      (fun opened t => t.world = (env.answer (.libusbOpen dev) c.world).2 ∧
        t.trace = c.trace ++
          [.asked (.libusbOpen dev) (env.answer (.libusbOpen dev) c.world).1] ∧
        ((env.answer (.libusbOpen dev) c.world).1 = none ∧ opened = false ∧ t.usbDev = c.usbDev ∨
          ∃ number, (env.answer (.libusbOpen dev) c.world).1 = some number ∧ opened = true ∧
            t.usbDev = some ⟨dev, number⟩))
      (fun _ _ => False) c := by
  unfold openNeeded
  rw [if_neg nofun, ends_bind, ends_askLibusb]
  cases (env.answer (.libusbOpen dev) c.world).1 with
  | none => exact ⟨rfl, rfl, .inl ⟨rfl, rfl, rfl⟩⟩
  | some number => exact ⟨rfl, rfl, .inr ⟨number, rfl, rfl, rfl⟩⟩

/-- A call on a context that has no device leaks where libusb opens it and
cannot read its descriptor. -/
theorem leaks_iff {b' : Buffers} {code : ℤ} (hnone : c.usbDev = none) :
    Leaks env ⟨some dev, b, code, b'⟩ c ↔
      (env.answer (.libusbOpen dev) c.world).1 ≠ none ∧
        (env.answer (.libusbGetDeviceDescriptor dev)
          (env.answer (.libusbOpen dev) c.world).2).1 = none := by
  constructor
  · rintro ⟨-, dev', number, hdev, hopen, hdesc⟩
    cases hdev
    exact ⟨by rw [hopen]; nofun, hdesc⟩
  · rintro ⟨hopen, hdesc⟩
    obtain ⟨number, hnumber⟩ := Option.ne_none_iff_exists'.mp hopen
    exact ⟨hnone, dev, number, rfl, hnumber, hdesc⟩

/-- The handle that was opened for the call is closed at its end, and the
strings are those of the device. -/
theorem undisturbed_of_closed {u : Ftdi σ} {es : List Event} {number : ℕ} {r : ℤ × Buffers}
    (hnone : c.usbDev = none)
    (htrace : u.trace = c.trace ++ [.asked (.libusbOpen dev) (some number)] ++
      .asked (.libusbGetDeviceDescriptor dev) (some desc) :: es)
    (husb : u.usbDev = some ⟨dev, number⟩) (hreads : ∀ e ∈ es, e.Reads ⟨dev, number⟩)
    (hcloses : Closes true u t)
    (hfilled : Filled (.asked (.libusbGetDeviceDescriptor dev) (some desc) :: es) dev b r.2) :
    Undisturbed ⟨some dev, b, r.1, r.2⟩ c t := by
  obtain ⟨husb', htrace'⟩ := hcloses
  have hsub : ∀ e ∈ .asked (.libusbGetDeviceDescriptor dev) (some desc) :: es,
      e ∈ .asked (.libusbOpen dev) (some number) ::
        (.asked (.libusbGetDeviceDescriptor dev) (some desc) :: es) ++
          [.closed ⟨dev, number⟩] :=
    fun e he => List.mem_append_left _ (List.mem_cons_of_mem _ he)
  refine ⟨by rw [husb', hnone], _, ?_, ?_, fun _ => ⟨dev, rfl, hfilled.mono hsub⟩⟩
  · rw [htrace', husb, htrace]
    simp
  · -- the requests for strings neither open nor close
    rw [List.filterMap_append, List.filterMap_append]
    show ⟨dev, number⟩ :: es.filterMap Event.opens ++ [] =
      es.filterMap Event.closes ++ [⟨dev, number⟩]
    rw [opens_eq_nil hreads, closes_eq_nil hreads]
    rfl

/-- **A call on a context that has none** opens the device and closes it,
unless it leaks. -/
theorem call_closed (hnone : c.usbDev = none) (dev : ℕ) (b : Buffers) :
    Ends (ftdiUsbGetStringsEx env (some dev) b)
      (fun r t => Undisturbed ⟨some dev, b, r.1, r.2⟩ c t ↔
        ¬ Leaks env ⟨some dev, b, r.1, r.2⟩ c) (fun _ _ => False) c := by
  have hneed : (id c).usbDev.isNone = true := by
    rw [id, hnone]
    rfl
  unfold ftdiUsbGetStringsEx
  rw [ends_bind, ends_look, hneed]
  unfold openAndRead
  rw [ends_bind]
  refine (openNeeded_ends dev c).mono ?_ fun _ _ hf => hf
  rintro opened u ⟨hworld, htrace, ⟨hopen, rfl, husb⟩ | ⟨number, hopen, rfl, husb⟩⟩
  · unfold ftdiErrorReturn
    rw [if_pos rfl, ends_bind, ends_alter, ends_pure, leaks_iff hnone]
    rw [hopen] at htrace
    refine iff_of_true ⟨husb, _, htrace, rfl, fun hzero => ?_⟩ fun hleaks => hleaks.1 hopen
    have hcode : (-4 : ℤ) = 0 := hzero
    omega
  · rw [if_neg nofun]
    rw [hopen] at htrace
    refine (readDevice_ends husb dev true b).mono ?_ fun _ _ hf => hf
    rintro r t (⟨hdesc, hcode, husb', -⟩ |
      ⟨desc, hdesc, hcode, v, es, husb', htrace', hreads, hcloses, hfilled⟩)
    · -- the handle stays
      rw [hworld] at hdesc
      rw [leaks_iff hnone]
      refine iff_of_false (fun hkept => ?_) fun hnot => hnot ⟨by rw [hopen]; nofun, hdesc⟩
      have hsame := hkept.usbDev
      rw [husb', husb, hnone] at hsame
      cases hsame
    · rw [hworld] at hdesc
      rw [leaks_iff hnone]
      refine iff_of_true ?_ fun hleaks => ?_
      · exact undisturbed_of_closed hnone (by rw [htrace', htrace]) (husb'.trans husb) hreads
          hcloses (hfilled.mpr (.inl rfl))
      · rw [hdesc] at hleaks
        cases hleaks.2

/-- **One call** leaves the handle alone exactly where it neither leaks nor
misreads. -/
theorem CallStep.undisturbed_iff {a : Call} (h : CallStep env a c t) :
    Undisturbed a c t ↔ ¬ (Leaks env a c ∨ Misreads env a c) := by
  obtain ⟨dev, before, code, after⟩ := a
  have hrun : ftdiUsbGetStringsEx env dev before c = (.ret (code, after), t) := h
  cases dev with
  | none =>
      cases hrun
      constructor
      · rintro - (⟨-, d, number, hdev, -⟩ | ⟨d, handle, desc, hdev, -⟩)
        · cases hdev
        · cases hdev
      · intro _
        refine ⟨rfl, [], (List.append_nil _).symm, rfl, fun hzero => ?_⟩
        have hcode : (-1 : ℤ) = 0 := hzero
        omega
  | some dev =>
      rw [not_or]
      cases hopen : c.usbDev with
      | none =>
          have hiff := ends_ret_of (call_closed hopen dev before) hrun
          refine hiff.trans ⟨fun hleaks => ⟨hleaks, ?_⟩, fun hboth => hboth.1⟩
          rintro ⟨d, handle, desc, -, hsome, -⟩
          rw [hopen] at hsome
          cases hsome
      | some handle =>
          have hiff := ends_ret_of (call_open hopen dev before) hrun
          refine hiff.trans ⟨fun hmis => ⟨?_, hmis⟩, fun hboth => hboth.2⟩
          rintro ⟨hnone, -⟩
          rw [hopen] at hnone
          cases hnone

/-- **Reading strings leaves the handle alone**, in every call of a run,
exactly where no call leaks and none misreads. -/
theorem strings_exact (env : Env σ) (c : Ftdi σ) (run : List (Call × Ftdi σ))
    (h : Trail (CallStep env) c run) :
    Along Undisturbed c run ↔
      Spares (fun a c _ => Leaks env a c ∨ Misreads env a c) c run :=
  h.along_iff (I := fun _ => True) (fun _ _ _ hstep _ => hstep.undisturbed_iff)
    (fun _ _ _ _ _ _ => trivial) trivial

/-- Calls one after another make a run. -/
def play (env : Env σ) : Ftdi σ → List (Option ℕ × Buffers) → List (Call × Ftdi σ)
  | _, [] => []
  | c, (dev, b) :: calls =>
      match ftdiUsbGetStringsEx env dev b c with
      | (.ret (code, after), t) => (⟨dev, b, code, after⟩, t) :: play env t calls
      | _ => []

theorem play_trail (env : Env σ) (c : Ftdi σ) (calls : List (Option ℕ × Buffers)) :
    Trail (CallStep env) c (play env c calls) := by
  induction calls generalizing c with
  | nil => exact .nil c
  | cons x calls ih =>
      obtain ⟨dev, b⟩ := x
      unfold play
      cases hrun : ftdiUsbGetStringsEx env dev b c with
      | mk outcome t =>
          cases outcome with
          | ret r => exact .cons hrun (ih t)
          | throw e => exact e.elim
          | hang => exact .nil c

/-- Every device opens, the descriptor of device 10 cannot be read, and
every string names the device of the handle. -/
def faulty : Env Unit where
  answer
    | .libusbOpen _, w => (some 0, w)
    | .libusbGetDeviceDescriptor dev, w => (if dev = 10 then none else some ⟨1, 2, 3⟩, w)
    | .libusbGetStringDescriptorAscii usbDev _ _, w => (usbDev.map fun h => toString h.dev, w)

/-- A context with no open device. -/
def fresh : Ftdi Unit := ⟨none, "", none, (), []⟩

/-- The serial number alone. -/
def onlySerial : Buffers := ⟨none, none, some ⟨"", 64⟩⟩

/-- Two devices with descriptors are read. -/
theorem strings_exact_sample :
    Along Undisturbed fresh (play faulty fresh [(some 20, onlySerial), (some 30, onlySerial)]) := by
  refine (strings_exact faulty fresh _ (play_trail faulty fresh _)).mpr ⟨?_, ?_, trivial⟩
  · rintro (⟨-, dev, number, hdev, -, hfail⟩ | ⟨dev, handle, desc, -, hopen, -⟩)
    · cases hdev
      cases hfail
    · cases hopen
  · rintro (⟨-, dev, number, hdev, -, hfail⟩ | ⟨dev, handle, desc, -, hopen, -⟩)
    · cases hdev
      cases hfail
    · cases hopen

/-- **The handle stays** after the first device, and the strings of the
second are read from it. -/
theorem handle_stays : ∃ run, Trail (CallStep faulty) fresh run ∧
    ¬ Along Undisturbed fresh run ∧
      run.map (fun x => (x.1.code, x.2.usbDev, x.1.after.serial.map (·.text))) =
        [(-11, some ⟨10, 0⟩, some ""), (0, some ⟨10, 0⟩, some "10")] := by
  refine ⟨play faulty fresh [(some 10, onlySerial), (some 20, onlySerial)],
    play_trail faulty fresh _, ?_, by decide⟩
  rintro ⟨hkept, -⟩
  cases hkept.usbDev

end Strings

end Context

end SgFtdi
