import SgFtdi.Common.Record
import SgFtdi.Context.Ownership

/-!
# Context — which device is opened

The loop of `init` over the configured devices is compared with a choice
made at once: the first entry whose device list is longer than its
position is the one that is opened, the entries before it open nothing and
those after it are not looked up. What was asked and answered is read off
the record, which is a transcript of what the world was asked and of its
answers, and so is that every list is freed once, after the device taken
from it was last used.
-/

namespace SgFtdi

namespace Context

open Prog

/-- A lookup: what is asked for, and the device list where there is one. -/
structure Lookup where
  usbCtx : Option ℕ
  vendor : ℤ
  product : ℤ
  devlist : Option (List ℕ)
deriving DecidableEq, Repr

/-- The lookup of an entry. -/
def UsbDev.lookup (dev : UsbDev) (usbCtx : Option ℕ) (devlist : Option (List ℕ)) : Lookup :=
  ⟨usbCtx, dev.vendor, dev.product, devlist⟩

/-- The lookup an entry of the record is. -/
def Event.lookup : Event → Option Lookup
  | .asked (.ftdiUsbFindAll usbCtx vendor product) devlist =>
      some ⟨usbCtx, vendor, product, devlist.toOption⟩
  | _ => none

/-- The device an entry of the record tries to open, and on which
interface. -/
def Event.tried : Event → Option (ℕ × ℕ)
  | .asked (.ftdiUsbOpenDev usbdev index) _ => some (usbdev, index)
  | _ => none

/-- What an entry of the record sets, and on which open device. -/
def Event.setting : Event → Option (Option ℕ × Param)
  | .asked (.set usbDev param) _ => some (usbDev, param)
  | _ => none

/-- A call on a device that failed. -/
def Event.Failed : Event → Prop
  | .asked (.ftdiUsbOpenDev _ _) (.error _) => True
  | .asked (.libusbGetDeviceDescriptor _) none => True
  | .asked (.set _ _) rc => rc ≠ 0
  | _ => False

/-- What was asked, and the answer. -/
def Event.exchange : Event → Option (Sigma Query.Answer)
  | .asked query answer => some ⟨query, answer⟩
  | _ => none

/-- The lookups on a record, in order. -/
def lookups (es : List Event) : List Lookup := es.filterMap Event.lookup

/-- The devices tried on a record, in order. -/
def attempts (es : List Event) : List (ℕ × ℕ) := es.filterMap Event.tried

/-- What is set on a record, in order. -/
def settings (es : List Event) : List (Option ℕ × Param) := es.filterMap Event.setting

/-- What was asked on a record, with the answers, in order. -/
def exchanges (es : List Event) : List (Sigma Query.Answer) := es.filterMap Event.exchange

/-- Some call on a device failed. -/
def HasFailed (es : List Event) : Prop := ∃ e ∈ es, e.Failed

theorem hasFailed_append {es es' : List Event} :
    HasFailed (es ++ es') ↔ HasFailed es ∨ HasFailed es' := by
  simp [HasFailed, or_and_right, exists_or]

/-! ## The choice -/

/-- What a search comes to. -/
inductive Choice where
  | device (dev : UsbDev) (usbdev : ℕ)
  | nothing
  | failure
deriving DecidableEq, Repr

/-- The devices that are tried. -/
def Choice.devices : Choice → List ℕ
  | .device _ usbdev => [usbdev]
  | _ => []

/-- Entries that are passed over: each has a device list that is not longer
than its position. -/
def PassedOver (before : List (UsbDev × List ℕ)) : Prop :=
  ∀ x ∈ before, x.2.length ≤ x.1.device.toNat

/-- The lookups of entries that have a device list. -/
def looked (usbCtx : Option ℕ) (before : List (UsbDev × List ℕ)) : List Lookup :=
  before.map fun x => x.1.lookup usbCtx (some x.2)

/-- **The choice** among the entries, given what the lookups brought: the
first entry whose list is longer than its position, and the device at that
position; nothing where every list is too short; and a failure where a
lookup fails before there is one. No entry behind is looked up. -/
def Chooses (usbCtx : Option ℕ) (entries : List UsbDev) (looks : List Lookup) : Choice → Prop
  | .device dev usbdev => ∃ before devlist after,
      entries = before.map Prod.fst ++ dev :: after ∧ PassedOver before ∧
        looks = looked usbCtx before ++ [dev.lookup usbCtx (some devlist)] ∧
          devlist[dev.device.toNat]? = some usbdev
  | .nothing => ∃ before,
      entries = before.map Prod.fst ∧ PassedOver before ∧ looks = looked usbCtx before
  | .failure => ∃ before dev after,
      entries = before.map Prod.fst ++ dev :: after ∧ PassedOver before ∧
        looks = looked usbCtx before ++ [dev.lookup usbCtx none]

/-- An entry that is passed over goes in front. -/
theorem Chooses.cons {usbCtx : Option ℕ} {entries : List UsbDev} {looks : List Lookup}
    {choice : Choice} (h : Chooses usbCtx entries looks choice) {dev : UsbDev} {devlist : List ℕ}
    (hshort : devlist.length ≤ dev.device.toNat) :
    Chooses usbCtx (dev :: entries) (dev.lookup usbCtx (some devlist) :: looks) choice := by
  have hpassed : ∀ before, PassedOver before → PassedOver ((dev, devlist) :: before) := by
    intro before hbefore x hx
    rcases List.mem_cons.mp hx with rfl | hx
    · exact hshort
    · exact hbefore x hx
  cases choice with
  | device d usbdev =>
      obtain ⟨before, list, after, rfl, hbefore, rfl, hat⟩ := h
      exact ⟨(dev, devlist) :: before, list, after, rfl, hpassed before hbefore, rfl, hat⟩
  | nothing =>
      obtain ⟨before, rfl, hbefore, rfl⟩ := h
      exact ⟨(dev, devlist) :: before, rfl, hpassed before hbefore, rfl⟩
  | failure =>
      obtain ⟨before, d, after, rfl, hbefore, rfl⟩ := h
      exact ⟨(dev, devlist) :: before, d, after, rfl, hpassed before hbefore, rfl⟩

/-! ## The device lists -/

/-- **One entry of the record**, given the device list that is held: a
lookup brings one where none is held, it is freed where it is held, and a
device is used only while a list with it is. -/
def hold : Option (List ℕ) → Event → Option (Option (List ℕ))
  | held, .asked (.ftdiUsbFindAll _ _ _) (.ok devlist) =>
      if held = none then some (some devlist) else none
  | held, .listFreed devlist => if held = some devlist then some none else none
  | held, .asked (.ftdiUsbOpenDev usbdev _) _ =>
      if ∃ l ∈ held, usbdev ∈ l then some held else none
  | held, .asked (.libusbGetDeviceDescriptor usbdev) _ =>
      if ∃ l ∈ held, usbdev ∈ l then some held else none
  | held, _ => some held

/-- **Every list is freed once**, and after the device taken from it was
last used: the record begins and ends with no list held. -/
def ListsFreed (es : List Event) : Prop := es.foldlM hold none = some none

theorem ListsFreed.append {es es' : List Event} (h : ListsFreed es) (h' : ListsFreed es') :
    ListsFreed (es ++ es') := by
  unfold ListsFreed at h h' ⊢
  rw [List.foldlM_append, h]
  exact h'

/-! ## The record of a search -/

/-- **What a search puts on record**, given what it comes to and the
`ftdi_context` it is made with. -/
structure Searched (raw : RawContext) (entries : List UsbDev) (choice : Choice)
    (es : List Event) : Prop where
  chooses : Chooses raw.usbCtx entries (lookups es) choice
  attempts : attempts es = choice.devices.map (·, raw.index)
  freed : ListsFreed es

/-- What a lookup puts on record that finds too few devices. -/
def passing (usbCtx : Option ℕ) (dev : UsbDev) (devlist : List ℕ) : List Event :=
  [.asked (.ftdiUsbFindAll usbCtx dev.vendor dev.product) (.ok devlist), .listFreed devlist]

/-- What a lookup puts on record that finds the device, given what comes of
opening it. -/
def trying (usbCtx : Option ℕ) (dev : UsbDev) (devlist : List ℕ) (uses : List Event) :
    List Event :=
  .asked (.ftdiUsbFindAll usbCtx dev.vendor dev.product) (.ok devlist) :: uses ++
    [.listFreed devlist]

/-- What opening a device puts on record, and the handle where it succeeds:
it fails, it is opened and its descriptor cannot be read, or the strings of
the descriptor are read from its handle. -/
inductive Opening (raw : RawContext) (usbdev : ℕ) : Option ℕ → List Event → Prop where
  | refused (text : String) :
      Opening raw usbdev none [.asked (.ftdiUsbOpenDev usbdev raw.index) (.error text)]
  | unread (handle : ℕ) :
      Opening raw usbdev none
        [.asked (.ftdiUsbOpenDev usbdev raw.index) (.ok handle),
          .asked (.libusbGetDeviceDescriptor usbdev) none]
  | done (handle : ℕ) (desc : Descriptor) (manufacturer description serial : Option String) :
      Opening raw usbdev (some handle)
        [.asked (.ftdiUsbOpenDev usbdev raw.index) (.ok handle),
          .asked (.libusbGetDeviceDescriptor usbdev) (some desc),
          .asked (.libusbGetStringDescriptorAscii (some handle) desc.iManufacturer) manufacturer,
          .asked (.libusbGetStringDescriptorAscii (some handle) desc.iProduct) description,
          .asked (.libusbGetStringDescriptorAscii (some handle) desc.iSerialNumber) serial]

variable {raw : RawContext}

/-- Where it fails something failed. -/
theorem Opening.hasFailed_iff {usbdev : ℕ} {handle : Option ℕ} {uses : List Event}
    (h : Opening raw usbdev handle uses) : HasFailed uses ↔ handle = none := by
  cases h <;> simp [HasFailed, Event.Failed]

/-- The handle is the one the device was opened with. -/
theorem Opening.opened {usbdev handle : ℕ} {uses : List Event}
    (h : Opening raw usbdev (some handle) uses) :
    .asked (.ftdiUsbOpenDev usbdev raw.index) (.ok handle) ∈ uses := by
  cases h
  exact List.mem_cons_self

theorem Opening.settings {usbdev : ℕ} {handle : Option ℕ} {uses : List Event}
    (h : Opening raw usbdev handle uses) : settings uses = [] := by
  cases h <;> rfl

theorem Searched.nil : Searched raw [] .nothing [] :=
  ⟨⟨[], rfl, nofun, rfl⟩, rfl, rfl⟩

theorem Searched.failure (dev : UsbDev) (entries : List UsbDev) (cause : ℤ × String) :
    Searched raw (dev :: entries) .failure
      [.asked (.ftdiUsbFindAll raw.usbCtx dev.vendor dev.product) (.error cause)] :=
  ⟨⟨[], dev, entries, rfl, nofun, rfl⟩, rfl, rfl⟩

theorem Searched.passing {entries : List UsbDev} {choice : Choice} {es : List Event}
    (h : Searched raw entries choice es) {dev : UsbDev} {devlist : List ℕ}
    (hshort : devlist.length ≤ dev.device.toNat) :
    Searched raw (dev :: entries) choice (passing raw.usbCtx dev devlist ++ es) := by
  have hfreed : ListsFreed (Context.passing raw.usbCtx dev devlist) := by
    simp [ListsFreed, Context.passing, hold]
  exact ⟨h.chooses.cons hshort, h.attempts, hfreed.append h.freed⟩

theorem Searched.device {dev : UsbDev} {devlist : List ℕ} {usbdev : ℕ}
    (hat : devlist[dev.device.toNat]? = some usbdev) (entries : List UsbDev)
    {handle : Option ℕ} {uses : List Event} (h : Opening raw usbdev handle uses) :
    Searched raw (dev :: entries) (.device dev usbdev) (trying raw.usbCtx dev devlist uses) := by
  have hmem : usbdev ∈ devlist := List.mem_of_getElem? hat
  refine ⟨⟨[], devlist, entries, rfl, nofun, ?_, hat⟩, ?_, ?_⟩
  · cases h <;> rfl
  · cases h <;> rfl
  · cases h <;> simp [ListsFreed, trying, hold, hmem]

/-! ## What the loop does -/

variable {σ : Type} {env : Env σ} {c c₀ t u : FtdiContext σ}

/-- One string of a device that is open: it is asked for by the handle. -/
theorem getStringDescriptorAscii_ends (index : UInt8) (c : FtdiContext σ) :
    Ends (getStringDescriptorAscii env index)
      (fun _ t => t.config = c.config ∧ t.ctx = c.ctx ∧ ∃ text, t.trace = c.trace ++
        [.asked (.libusbGetStringDescriptorAscii (c.ctx.bind (·.usbDev)) index) text])
      (fun _ _ => False) c := by
  unfold getStringDescriptorAscii
  rw [ends_bind, ends_look, ends_bind, ends_askWorld, ends_pure]
  exact ⟨rfl, rfl, _, rfl⟩

/-- The strings of a device that is open, and the configuration. -/
theorem readStrings_ends (dev : UsbDev) (desc : Descriptor) (handle : Option ℕ)
    (c : FtdiContext σ) (hhandle : c.ctx.bind (·.usbDev) = handle) :
    Ends (do
      let manufacturer ← getStringDescriptorAscii env desc.iManufacturer
      alter fun c => { c with manufacturer := manufacturer }
      let description ← getStringDescriptorAscii env desc.iProduct
      alter fun c => { c with description := description }
      let serial ← getStringDescriptorAscii env desc.iSerialNumber
      alter fun c => { c with serial := serial }
      alter fun c => { c with config := { c.config with usbDevice := dev } })
      (fun _ t => t.config = { c.config with usbDevice := dev } ∧ t.ctx = c.ctx ∧
        ∃ manufacturer description serial, t.trace = c.trace ++
          [.asked (.libusbGetStringDescriptorAscii handle desc.iManufacturer) manufacturer,
            .asked (.libusbGetStringDescriptorAscii handle desc.iProduct) description,
            .asked (.libusbGetStringDescriptorAscii handle desc.iSerialNumber) serial])
      (fun _ _ => False) c := by
  rw [ends_bind]
  refine (getStringDescriptorAscii_ends _ c).mono ?_ fun _ _ hf => hf
  rintro _ t ⟨hconfig, hctx, manufacturer, htrace⟩
  rw [ends_bind, ends_alter, ends_bind]
  refine (getStringDescriptorAscii_ends _ _).mono ?_ fun _ _ hf => hf
  rintro _ u ⟨hconfig', hctx', description, htrace'⟩
  rw [ends_bind, ends_alter, ends_bind]
  refine (getStringDescriptorAscii_ends _ _).mono ?_ fun _ _ hf => hf
  rintro _ v ⟨hconfig'', hctx'', serial, htrace''⟩
  rw [ends_bind, ends_alter, ends_alter]
  dsimp only at hconfig' hctx' htrace' hconfig'' hctx'' htrace'' ⊢
  rw [hctx', hctx, hhandle] at htrace''
  rw [hctx, hhandle] at htrace'
  rw [hhandle] at htrace
  refine ⟨by rw [hconfig'', hconfig', hconfig], by rw [hctx'', hctx', hctx],
    manufacturer, description, serial, ?_⟩
  rw [htrace'', htrace', htrace, List.append_assoc, List.append_assoc]
  rfl

/-- **What a device that was opened leaves**: the handle is in the
`ftdi_context`, and the entry in the configuration. -/
structure Opened (raw : RawContext) (dev : UsbDev) (handle : ℕ) (c t : FtdiContext σ) :
    Prop where
  config : t.config = { c.config with usbDevice := dev }
  ctx : t.ctx = some { raw with usbDev := some handle }

/-- **Opening a device.** -/
theorem openDevice_ends (dev : UsbDev) (usbdev : ℕ) (hctx : c.ctx = some raw) :
    Ends (openDevice env dev usbdev)
      (fun _ t => ∃ handle uses, Opening raw usbdev (some handle) uses ∧
        t.trace = c.trace ++ uses ∧ Opened raw dev handle c t)
      (fun _ t => ∃ uses, Opening raw usbdev none uses ∧ t.trace = c.trace ++ uses) c := by
  unfold openDevice
  rw [ends_bind, ends_look, ends_bind, ends_askWorld]
  dsimp only [id]
  rw [hctx]
  dsimp only [Option.map_some, Option.getD_some]
  generalize env.answer (.ftdiUsbOpenDev usbdev raw.index) c.world = answer
  obtain ⟨opened, w⟩ := answer
  cases opened with
  | error text => exact ⟨_, .refused text, rfl⟩
  | ok handle =>
      dsimp only
      rw [ends_bind, ends_alter, ends_bind, ends_askWorld]
      dsimp only
      generalize env.answer (.libusbGetDeviceDescriptor usbdev) w = answer
      obtain ⟨desc, w'⟩ := answer
      cases desc with
      | none => exact ⟨_, .unread handle, List.append_assoc _ _ _⟩
      | some desc =>
          refine (readStrings_ends dev desc (some handle) _ rfl).mono ?_
            fun _ _ hf => hf.elim
          rintro _ t ⟨hconfig, hctx', manufacturer, description, serial, htrace⟩
          refine ⟨handle, _, .done handle desc manufacturer description serial, ?_, hconfig, hctx'⟩
          rw [htrace, List.append_assoc, List.append_assoc]
          rfl

/-- **One turn of the loop.** -/
theorem findDevice_ends (dev : UsbDev) (hctx : c.ctx = some raw) :
    Ends (findDevice env dev)
      (fun found t => ∃ devlist,
        (found = false ∧ devlist.length ≤ dev.device.toNat ∧ t.config = c.config ∧
          t.ctx = c.ctx ∧ t.trace = c.trace ++ passing raw.usbCtx dev devlist) ∨
        found = true ∧ ∃ usbdev handle uses, devlist[dev.device.toNat]? = some usbdev ∧
          Opening raw usbdev (some handle) uses ∧ Opened raw dev handle c t ∧
          t.trace = c.trace ++ trying raw.usbCtx dev devlist uses)
      (fun _ t => (∃ cause, t.trace = c.trace ++
          [.asked (.ftdiUsbFindAll raw.usbCtx dev.vendor dev.product) (.error cause)]) ∨
        ∃ devlist usbdev uses, devlist[dev.device.toNat]? = some usbdev ∧
          Opening raw usbdev none uses ∧
          t.trace = c.trace ++ trying raw.usbCtx dev devlist uses) c := by
  unfold findDevice
  rw [ends_bind, ends_look, ends_bind, ends_askWorld]
  dsimp only [id]
  rw [hctx]
  dsimp only [Option.bind_some]
  generalize env.answer (.ftdiUsbFindAll raw.usbCtx dev.vendor dev.product) c.world = answer
  obtain ⟨devlist, w⟩ := answer
  cases devlist with
  -- the lookup fails, and nothing was opened
  | error cause => exact .inl ⟨cause, rfl⟩
  | ok devlist =>
      dsimp only
      unfold tryDevice observe
      cases hat : devlist[dev.device.toNat]? with
      | none =>
          refine ⟨devlist, .inl ⟨rfl, List.getElem?_eq_none_iff.mp hat, rfl, rfl, ?_⟩⟩
          exact List.append_assoc _ _ _
      | some usbdev =>
          -- the list is freed behind whatever was used of it
          have htrying : ∀ {t : FtdiContext σ} {uses : List Event},
              t.trace = c.trace ++
                [.asked (.ftdiUsbFindAll raw.usbCtx dev.vendor dev.product) (.ok devlist)] ++ uses →
              t.trace ++ [.listFreed devlist] =
                c.trace ++ trying raw.usbCtx dev devlist uses := by
            intro t uses htrace
            rw [htrace]
            simp [trying]
          rw [ends_rescue, ends_bind]
          refine (openDevice_ends dev usbdev
            (c := { c with ctx := some raw, trace := _, world := w }) rfl).mono ?_ ?_
          · rintro _ t ⟨handle, uses, huses, htrace, hopened⟩
            rw [ends_bind, ends_alter, ends_pure]
            exact ⟨devlist, .inr ⟨rfl, usbdev, handle, uses, hat, huses,
              ⟨hopened.config, hopened.ctx⟩, htrying htrace⟩⟩
          · rintro cause t ⟨uses, huses, htrace⟩
            -- thrown on, with the list freed first
            have hne : devlist ≠ [] := List.ne_nil_of_mem (List.mem_of_getElem? hat)
            unfold freeList observe
            rw [ends_bind, if_neg hne, ends_alter, ends_raise]
            exact .inr ⟨devlist, usbdev, uses, hat, huses, htrying htrace⟩

/-- What a search that returns leaves: the device of its choice is open
with the handle it was opened with, and the entry is in the configuration;
or there is none. -/
def Choice.Left (raw : RawContext) (choice : Choice) (found : Bool) (c t : FtdiContext σ)
    (es : List Event) : Prop :=
  match choice with
  | .device dev usbdev => found = true ∧ ∃ handle, Opened raw dev handle c t ∧
      .asked (.ftdiUsbOpenDev usbdev raw.index) (.ok handle) ∈ es
  | .nothing => found = false
  | .failure => False

/-- A turn before that passes an entry over changes none of it. -/
theorem Choice.Left.cons {choice : Choice} {found : Bool} {es es' : List Event}
    (h : choice.Left raw found t u es) (hconfig : t.config = c.config) :
    choice.Left raw found c u (es' ++ es) := by
  cases choice with
  | device dev usbdev =>
      obtain ⟨hfound, handle, hopened, hmem⟩ := h
      refine ⟨hfound, handle, ⟨?_, hopened.ctx⟩, List.mem_append_right _ hmem⟩
      rw [hopened.config, hconfig]
  | nothing => exact h
  | failure => exact h

theorem not_hasFailed_passing (usbCtx : Option ℕ) (dev : UsbDev) (devlist : List ℕ) :
    ¬ HasFailed (passing usbCtx dev devlist) := by
  simp [HasFailed, passing, Event.Failed]

theorem hasFailed_trying {usbCtx : Option ℕ} {dev : UsbDev} {devlist : List ℕ}
    {uses : List Event} : HasFailed (trying usbCtx dev devlist uses) ↔ HasFailed uses := by
  simp [HasFailed, trying, Event.Failed]

/-- **The loop over the configured devices**: where it returns nothing has
failed, and where it throws a lookup has or a call on the device. -/
theorem findDevices_ends (entries : List UsbDev) : ∀ c : FtdiContext σ, c.ctx = some raw →
    Ends (findDevices env entries)
      (fun found t => ∃ es choice, t.trace = c.trace ++ es ∧ Searched raw entries choice es ∧
        settings es = [] ∧ choice.Left raw found c t es ∧ ¬ HasFailed es)
      (fun _ t => ∃ es choice, t.trace = c.trace ++ es ∧ Searched raw entries choice es ∧
        choice ≠ .nothing ∧ (choice ≠ .failure → HasFailed es)) c := by
  induction entries with
  | nil => exact fun c _ => ⟨[], .nothing, (List.append_nil _).symm, .nil, rfl, rfl, nofun⟩
  | cons dev entries ih =>
      intro c hctx
      show Ends (findDevice env dev >>= fun found => if found then _ else _) _ _ c
      rw [ends_bind]
      refine (findDevice_ends dev hctx).mono ?_ ?_
      · rintro found t ⟨devlist, ⟨rfl, hshort, hconfig, hsame, htrace⟩ |
          ⟨rfl, usbdev, handle, uses, hat, huses, hopened, htrace⟩⟩
        · -- passed over: the search goes on with the other entries
          have hlonger : ∀ {u : FtdiContext σ} {es : List Event}, u.trace = t.trace ++ es →
              u.trace = c.trace ++ (passing raw.usbCtx dev devlist ++ es) := by
            intro u es hes
            rw [hes, htrace, List.append_assoc]
          rw [if_neg Bool.false_ne_true]
          refine (ih t (hsame.trans hctx)).mono ?_ ?_
          · rintro found u ⟨es, choice, hes, hsearched, hsettings, hleft, hnone⟩
            refine ⟨_, choice, hlonger hes, hsearched.passing hshort, hsettings,
              hleft.cons hconfig, fun hfailed => ?_⟩
            exact (hasFailed_append.mp hfailed).elim (not_hasFailed_passing _ dev devlist) hnone
          · rintro cause u ⟨es, choice, hes, hsearched, hne, hfailed⟩
            refine ⟨_, choice, hlonger hes, hsearched.passing hshort, hne, fun h => ?_⟩
            exact hasFailed_append.mpr (.inr (hfailed h))
        · refine ⟨_, .device dev usbdev, htrace, .device hat entries huses, ?_,
            ⟨rfl, handle, hopened, ?_⟩, ?_⟩
          · rw [settings, trying, List.filterMap_append, List.filterMap_cons_none rfl,
              ← settings, huses.settings]
            rfl
          · exact List.mem_append_left _ (List.mem_cons_of_mem _ huses.opened)
          · rw [hasFailed_trying, huses.hasFailed_iff]
            nofun
      · rintro cause t (⟨cause, htrace⟩ | ⟨devlist, usbdev, uses, hat, huses, htrace⟩)
        · exact ⟨_, .failure, htrace, .failure dev entries cause, nofun, fun h => absurd rfl h⟩
        · refine ⟨_, .device dev usbdev, htrace, .device hat entries huses, nofun, fun _ => ?_⟩
          rw [hasFailed_trying, huses.hasFailed_iff]

/-! ## The rest of `init` -/

/-- An entry of the record that is none of the search. -/
def Event.Beside (e : Event) : Prop :=
  e.lookup = none ∧ e.tried = none ∧ ∀ held, hold held e = some held

/-- What is put on record beside a search leaves it as it is. -/
theorem Searched.beside {entries : List UsbDev} {choice : Choice} {es : List Event}
    (h : Searched raw entries choice es) {e : Event} (he : e.Beside) :
    Searched raw entries choice (es ++ [e]) := by
  obtain ⟨hlookup, htried, hhold⟩ := he
  refine ⟨?_, ?_, h.freed.append ?_⟩
  · have hlookups : lookups (es ++ [e]) = lookups es := by
      simp [lookups, hlookup]
    rw [hlookups]
    exact h.chooses
  · have hattempts : Context.attempts (es ++ [e]) = Context.attempts es := by
      simp [Context.attempts, htried]
    rw [hattempts]
    exact h.attempts
  · unfold ListsFreed
    rw [List.foldlM_cons, hhold]
    rfl

theorem Searched.besides {entries : List UsbDev} {choice : Choice} {es seg : List Event}
    (h : Searched raw entries choice es) (hseg : ∀ e ∈ seg, e.Beside) :
    Searched raw entries choice (es ++ seg) := by
  induction seg generalizing es with
  | nil => rwa [List.append_nil]
  | cons e seg ih =>
      have hone := ih (h.beside (hseg e List.mem_cons_self)) fun x hx =>
        hseg x (List.mem_cons_of_mem _ hx)
      rwa [List.append_assoc] at hone

/-- **What is put on record beside a search**, and whether some of it
failed. -/
def Adds (failed : Prop) (c t : FtdiContext σ) : Prop :=
  ∃ seg, t.trace = c.trace ++ seg ∧ (∀ e ∈ seg, e.Beside) ∧ (HasFailed seg ↔ failed)

theorem Adds.nothing (h : t.trace = c.trace) : Adds False c t :=
  ⟨[], by rw [h, List.append_nil], nofun, by simp [HasFailed]⟩

theorem Adds.one {e : Event} (h : t.trace = c.trace ++ [e]) (he : e.Beside) :
    Adds e.Failed c t := by
  refine ⟨[e], h, fun x hx => ?_, by simp [HasFailed]⟩
  rw [List.mem_singleton.mp hx]
  exact he

theorem Adds.trans {p q : Prop} (h : Adds p c t) (h' : Adds q t u) : Adds (p ∨ q) c u := by
  obtain ⟨seg, htrace, hseg, hp⟩ := h
  obtain ⟨seg', htrace', hseg', hq⟩ := h'
  refine ⟨seg ++ seg', ?_, fun e he => ?_, ?_⟩
  · rw [htrace', htrace, List.append_assoc]
  · exact (List.mem_append.mp he).elim (hseg e) (hseg' e)
  · rw [hasFailed_append, hp, hq]

/-- After something that did not fail. -/
theorem Adds.after {p : Prop} (h : Adds p t u) (h' : Adds False c t) : Adds p c u := by
  simpa only [false_or] using h'.trans h

/-- What `set_ftdi_params` sets. -/
def Config.params (config : Config) : List Param :=
  [.reset, .baudrate config.speed,
    .lineProperty config.databits config.stopbits config.parity, .flowctrl config.flow.value]

/-- What a parameter puts on record that is set, or cannot be. -/
def setting (usbDev : Option ℕ) (param : Param) (rc : ℤ) : Event := .asked (.set usbDev param) rc

variable {usbDev : Option ℕ} {params : List Param}

theorem setting_beside {param : Param} {rc : ℤ} : (setting usbDev param rc).Beside :=
  ⟨rfl, rfl, fun _ => rfl⟩

theorem settings_beside : ∀ e ∈ params.map (setting usbDev · 0), e.Beside := by
  intro e he
  obtain ⟨param, -, rfl⟩ := List.mem_map.mp he
  exact setting_beside

theorem not_hasFailed_settings : ¬ HasFailed (params.map (setting usbDev · 0)) := by
  simp [HasFailed, setting, Event.Failed]

theorem settings_map : settings (params.map (setting usbDev · 0)) = params.map (usbDev, ·) := by
  induction params with
  | nil => rfl
  | cons param params ih => exact congrArg ((usbDev, param) :: ·) ih

theorem settings_append (es es' : List Event) :
    settings (es ++ es') = settings es ++ settings es' :=
  List.filterMap_append

theorem setParam_ends (param : Param) (cause : Exn) (c : FtdiContext σ)
    (hdev : c.ctx.bind (·.usbDev) = usbDev) :
    Ends (setParam env param cause)
      (fun _ t => t.config = c.config ∧ t.ctx = c.ctx ∧
        t.trace = c.trace ++ [setting usbDev param 0])
      (fun _ t => ∃ rc, rc ≠ 0 ∧ t.trace = c.trace ++ [setting usbDev param rc]) c := by
  subst hdev
  unfold setParam
  rw [ends_bind, ends_look, ends_bind, ends_askWorld]
  dsimp only [id]
  rw [ends_ite]
  refine ⟨fun hne => ⟨_, hne, rfl⟩, fun heq => ⟨rfl, rfl, ?_⟩⟩
  exact congrArg (fun rc => c.trace ++ [setting (c.ctx.bind (·.usbDev)) param rc])
    (not_not.mp heq)

/-- What is set before the first that cannot be is on record, and that. -/
def Stopped (usbDev : Option ℕ) (params : List Param) (c t : FtdiContext σ) : Prop :=
  ∃ done param rest rc, params = done ++ param :: rest ∧ rc ≠ 0 ∧
    t.trace = c.trace ++ (done.map (setting usbDev · 0) ++ [setting usbDev param rc])

/-- These have been set so far, and nothing else has happened. -/
structure Settled (usbDev : Option ℕ) (done : List Param) (c t : FtdiContext σ) : Prop where
  config : t.config = c.config
  ctx : t.ctx = c.ctx
  trace : t.trace = c.trace ++ done.map (setting usbDev · 0)

/-- **One more parameter** is set, or is the first that cannot be. -/
theorem Settled.step {done rest : List Param} {param : Param} {cause : Exn}
    (h : Settled usbDev done c t) (hdev : c.ctx.bind (·.usbDev) = usbDev)
    (hparams : params = done ++ param :: rest) :
    Ends (setParam env param cause) (fun _ u => Settled usbDev (done ++ [param]) c u)
      (fun _ u => Stopped usbDev params c u) t := by
  refine (setParam_ends param cause t (by rw [h.ctx, hdev])).mono ?_ ?_
  · rintro _ u ⟨hconfig, hctx, htrace⟩
    refine ⟨hconfig.trans h.config, hctx.trans h.ctx, ?_⟩
    rw [htrace, h.trace, List.map_append, List.append_assoc]
    rfl
  · rintro _ u ⟨rc, hrc, hu⟩
    exact ⟨done, param, rest, rc, hparams, hrc, by rw [hu, h.trace, List.append_assoc]⟩

/-- **The parameters of the device**: all are set, in order, or none behind
the first that cannot be. -/
theorem setFtdiParams_ends (c : FtdiContext σ)
    (hdev : c.ctx.bind (·.usbDev) = usbDev) :
    Ends (setFtdiParams env)
      (fun _ t => t.config = c.config ∧ t.ctx = c.ctx ∧
        t.trace = c.trace ++ c.config.params.map (setting usbDev · 0))
      (fun _ t => Stopped usbDev c.config.params c t) c := by
  have hstart : Settled usbDev [] c c := ⟨rfl, rfl, (List.append_nil _).symm⟩
  unfold setFtdiParams
  -- one step for each of the four calls
  rw [ends_bind, ends_look, ends_bind]
  refine (hstart.step hdev rfl).mono ?_ fun _ _ ht => ht
  intro _ t ht
  rw [ends_bind]
  refine (ht.step hdev rfl).mono ?_ fun _ _ hu => hu
  intro _ u hu
  rw [ends_bind]
  refine (hu.step hdev rfl).mono ?_ fun _ _ hv => hv
  intro _ v hv
  exact (hv.step hdev rfl).mono (fun _ w hw => ⟨hw.config, hw.ctx, hw.trace⟩) fun _ _ hw => hw

/-- An entry that is not of a failure. -/
theorem Adds.fine {e : Event} (h : Adds False c t) (hu : u.trace = t.trace ++ [e])
    (he : e.Beside) (hfine : ¬ e.Failed) : Adds False c u := by
  have hone := (Adds.one hu he).after h
  rwa [eq_false hfine] at hone

theorem freeContext_adds (c : FtdiContext σ) :
    Ends freeContext (fun _ t => Adds False c t ∧ t.ctx = none) (fun _ _ => False) c := by
  unfold freeContext observe
  rw [ends_bind, ends_look]
  dsimp only [id]
  cases hctx : c.ctx with
  | none => exact ⟨.nothing rfl, hctx⟩
  | some raw =>
      rw [ends_bind, ends_alter, ends_alter]
      exact ⟨Adds.fine (.nothing rfl) rfl ⟨rfl, rfl, fun _ => rfl⟩ id, rfl⟩

theorem exitContext_adds (h : Adds False c t) (hctx : t.ctx = none) :
    Ends exitContext (fun _ u => Adds False c u ∧ u.ctx = none) (fun _ _ => False) t := by
  unfold exitContext observe
  rw [ends_bind, ends_look, ends_ite]
  refine ⟨fun _ => ?_, fun _ => ⟨h, hctx⟩⟩
  dsimp only [id]
  cases t.usbCtx with
  | none => exact ⟨h, hctx⟩
  | some usbCtx =>
      rw [ends_bind, ends_alter, ends_alter]
      exact ⟨h.fine rfl ⟨rfl, rfl, fun _ => rfl⟩ id, hctx⟩

/-- **Letting go** leaves no `ftdi_context`. -/
theorem letGo_adds (c : FtdiContext σ) :
    Ends letGo (fun _ t => Adds False c t ∧ t.ctx = none) (fun _ _ => False) c := by
  unfold letGo
  rw [ends_bind]
  refine (freeContext_adds c).mono (fun _ t ht => ?_) fun _ _ hf => hf
  exact exitContext_adds ht.1 ht.2

/-! ## `init` -/

/-- `init` as far as its context and interface are set up. -/
def setUp (env : Env σ) (given : Option ℕ) : Run σ Unit := do
  clear
  takeContext env given
  let raw ← ftdiNewEx env given
  alter fun c => { c with ctx := raw }
  if raw = none then raise .unableToAllocateContext else setPort

/-- `init` from there on, up to what it returns. -/
def search (env : Env σ) : Run σ Unit := do
  let c ← look id
  let found ← findDevices env c.config.usbDevices
  if found = false then raise .unableToFindDevice else setFtdiParams env

/-- **The body of `init`** is the one and then the other. -/
theorem initBody_eq (env : Env σ) (given : Option ℕ) :
    initBody env given = (do
      setUp env given
      search env
      let c ← look id
      pure c.ctx) := by
  have hopen : openConfigured env = (do setPort; search env) := rfl
  unfold initBody setUp
  rw [hopen]
  simp only [bind_bind, ite_bind, raise_bind]

/-- **What a search leaves that succeeds**: the device of its choice is open
with the handle it was opened with, all its parameters are set, and its
entry is in the configuration. -/
structure Ready (raw : RawContext) (dev : UsbDev) (usbdev : ℕ) (es : List Event)
    (u t : FtdiContext σ) : Prop where
  config : t.config = { u.config with usbDevice := dev }
  opened : ∃ handle, .asked (.ftdiUsbOpenDev usbdev raw.index) (.ok handle) ∈ es ∧
    t.ctx = some { raw with usbDev := some handle } ∧
      settings es = u.config.params.map (some handle, ·)

/-- A search that returns `true` has opened the device of its choice. -/
theorem Choice.Left.device {choice : Choice} (h : choice.Left raw true u t es) :
    ∃ dev usbdev handle, choice = .device dev usbdev ∧ Opened raw dev handle u t ∧
      .asked (.ftdiUsbOpenDev usbdev raw.index) (.ok handle) ∈ es := by
  cases choice with
  | device dev usbdev =>
      obtain ⟨-, handle, hopened, hmem⟩ := h
      exact ⟨dev, usbdev, handle, rfl, hopened, hmem⟩
  | nothing => exact absurd h.symm Bool.false_ne_true
  | failure => exact h.elim

/-- **The device that was opened is set up**, and then everything is ready. -/
theorem ready_ends {dev : UsbDev} {usbdev : ℕ} {handle : ℕ} (hopened : Opened raw dev handle u t)
    (hmem : .asked (.ftdiUsbOpenDev usbdev raw.index) (.ok handle) ∈ es)
    (htrace : t.trace = u.trace ++ es) (hsettings : settings es = []) :
    Ends (setFtdiParams env)
      (fun _ v => v.trace = u.trace ++ (es ++ u.config.params.map (setting (some handle) · 0)) ∧
        Ready raw dev usbdev (es ++ u.config.params.map (setting (some handle) · 0)) u v)
      (fun _ v => ∃ seg, v.trace = u.trace ++ (es ++ seg) ∧ (∀ e ∈ seg, e.Beside) ∧
        HasFailed seg) t := by
  have hdev : t.ctx.bind (·.usbDev) = some handle := by
    rw [hopened.ctx]
    rfl
  have hparams : t.config.params = u.config.params := by
    rw [hopened.config]
    rfl
  refine (setFtdiParams_ends t hdev).mono ?_ ?_
  · rintro _ v ⟨hconfig, hsame, hv⟩
    rw [hparams] at hv
    refine ⟨by rw [hv, htrace, List.append_assoc], by rw [hconfig, hopened.config], handle,
      List.mem_append_left _ hmem, by rw [hsame, hopened.ctx], ?_⟩
    rw [settings_append, hsettings, settings_map, List.nil_append]
  · rintro _ v ⟨done, param, rest, rc, -, hrc, hv⟩
    refine ⟨_, by rw [hv, htrace, List.append_assoc], fun e he => ?_, ?_⟩
    · rcases List.mem_append.mp he with he | he
      · exact settings_beside e he
      · rw [List.mem_singleton.mp he]
        exact setting_beside
    · exact hasFailed_append.mpr (.inr ⟨_, List.mem_singleton_self _, hrc⟩)

/-- **The search**, with the `ftdi_context` there is. -/
theorem search_ends (hctx : u.ctx = some raw) :
    Ends (search env)
      (fun _ t => ∃ es dev usbdev, t.trace = u.trace ++ es ∧
        Searched raw u.config.usbDevices (.device dev usbdev) es ∧ ¬ HasFailed es ∧
          Ready raw dev usbdev es u t)
      (fun _ t => ∃ es choice, t.trace = u.trace ++ es ∧
        Searched raw u.config.usbDevices choice es ∧
          ((∃ dev usbdev, choice = .device dev usbdev) → HasFailed es)) u := by
  unfold search
  rw [ends_bind, ends_look, ends_bind]
  refine (findDevices_ends _ u hctx).mono ?_ ?_
  · rintro found t ⟨es, choice, htrace, hsearched, hsettings, hleft, hnone⟩
    cases found with
    | false =>
        -- no entry has its device
        refine ⟨es, choice, htrace, hsearched, ?_⟩
        rintro ⟨dev, usbdev, rfl⟩
        exact absurd hleft.1 Bool.false_ne_true
    | true =>
        obtain ⟨dev, usbdev, handle, rfl, hopened, hmem⟩ := hleft.device
        rw [if_neg (by decide)]
        refine (ready_ends hopened hmem htrace hsettings).mono ?_ ?_
        · rintro _ v ⟨hv, hready⟩
          refine ⟨_, dev, usbdev, hv, hsearched.besides settings_beside, ?_, hready⟩
          rw [hasFailed_append]
          exact fun h => h.elim hnone not_hasFailed_settings
        · rintro _ v ⟨seg, hv, hseg, hfailed⟩
          exact ⟨_, _, hv, hsearched.besides hseg, fun _ => hasFailed_append.mpr (.inr hfailed)⟩
  · rintro cause t ⟨es, choice, htrace, hsearched, -, hfailed⟩
    refine ⟨es, choice, htrace, hsearched, ?_⟩
    rintro ⟨dev, usbdev, rfl⟩
    exact hfailed nofun

/-- **What is done beside a search**: the configuration stays, and nothing
of the search is put on record. -/
structure Further (c t : FtdiContext σ) : Prop where
  config : t.config = c.config
  trace : Grows Event.Beside c.trace t.trace

theorem Further.refl : Further c c := ⟨rfl, .refl⟩

theorem askWorld_further {query : Query} (hquery : ∀ answer, Event.Beside (.asked query answer)) :
    Preserves (Further c₀) (askWorld env query) :=
  Preserves.ask fun _ h => ⟨h.config, h.trace.trans (.one (hquery _))⟩

theorem observe_further {e : Event} (he : e.Beside) :
    Preserves (Further c₀) (observe e : Run σ Unit) :=
  Preserves.alter fun _ h => ⟨h.config, h.trace.trans (.one he)⟩

theorem alter_further {f : FtdiContext σ → FtdiContext σ}
    (hf : ∀ t, (f t).config = t.config ∧ (f t).trace = t.trace) :
    Preserves (Further c₀) (alter f : Run σ Unit) := by
  intro t ht
  obtain ⟨hconfig, htrace⟩ := hf t
  refine ⟨hconfig.trans ht.config, ?_⟩
  rw [htrace]
  exact ht.trace

theorem letGo_further : Preserves (Further c₀) (letGo : Run σ Unit) := by
  have hfree : Preserves (Further c₀) (freeContext : Run σ Unit) := by
    refine Preserves.look.bind fun t => ?_
    cases t.ctx with
    | none => exact Preserves.pure
    | some raw =>
        refine Preserves.bind (observe_further ⟨rfl, rfl, fun _ => rfl⟩) fun _ => ?_
        exact alter_further fun _ => ⟨rfl, rfl⟩
  refine hfree.bind fun _ => Preserves.look.bind fun t => Preserves.ite ?_ Preserves.pure
  cases t.usbCtx with
  | none => exact Preserves.pure
  | some usbCtx =>
      refine Preserves.bind (observe_further ⟨rfl, rfl, fun _ => rfl⟩) fun _ => ?_
      exact alter_further fun _ => ⟨rfl, rfl⟩

theorem takeContext_further (given : Option ℕ) :
    Preserves (Further c₀) (takeContext env given) := by
  refine Preserves.ite (Preserves.look.bind fun t => ?_) Preserves.pure
  refine Preserves.ite Preserves.raise (Preserves.bind
    (askWorld_further fun _ => ⟨rfl, rfl, fun _ => rfl⟩) fun answer => ?_)
  cases answer with
  | error code => exact Preserves.raise
  | ok usbCtx =>
      refine Preserves.bind (observe_further ⟨rfl, rfl, fun _ => rfl⟩) fun _ => ?_
      exact alter_further fun _ => ⟨rfl, rfl⟩

theorem ftdiNewEx_further (given : Option ℕ) : Preserves (Further c₀) (ftdiNewEx env given) := by
  have hmalloc : Preserves (Further c₀) (askWorld env .malloc) :=
    askWorld_further fun _ => ⟨rfl, rfl, fun _ => rfl⟩
  refine hmalloc.bind fun _ => Preserves.ite Preserves.pure (Preserves.bind ?_ fun r => ?_)
  · refine hmalloc.bind fun _ => Preserves.ite Preserves.pure (hmalloc.bind fun _ => ?_)
    exact Preserves.ite Preserves.pure Preserves.pure
  · refine Preserves.ite Preserves.pure (Preserves.bind ?_ fun _ => Preserves.pure)
    exact observe_further ⟨rfl, rfl, fun _ => rfl⟩

theorem setPort_further : Preserves (Further c₀) (setPort : Run σ Unit) := by
  have hset : ∀ i, Preserves (Further c₀) (setInterface i : Run σ Unit) := by
    intro i
    refine Preserves.look.bind fun t => ?_
    cases t.ctx with
    | none => exact Preserves.pure
    | some raw =>
        refine Preserves.bind (alter_further fun _ => ⟨rfl, rfl⟩) fun _ => ?_
        exact Preserves.ite Preserves.raise Preserves.pure
  refine Preserves.look.bind fun t => ?_
  split
  · exact hset .a
  · exact hset .b
  · exact hset .c
  · exact hset .d
  · exact Preserves.raise

/-- **Nothing is looked up before** context and interface are set up. -/
theorem setUp_further (given : Option ℕ) : Preserves (Further c₀) (setUp env given) := by
  refine letGo_further.bind fun _ => (takeContext_further given).bind fun _ => ?_
  refine (ftdiNewEx_further given).bind fun raw => ?_
  refine Preserves.bind (alter_further fun _ => ⟨rfl, rfl⟩) fun _ => ?_
  exact Preserves.ite Preserves.raise setPort_further

/-- Once it is set up there is an `ftdi_context`. -/
theorem setUp_ctx (given : Option ℕ) (c : FtdiContext σ) :
    Ends (setUp env given) (fun _ u => u.ctx ≠ none) (fun _ _ => True) c := by
  unfold setUp
  rw [ends_bind]
  refine (ends_of_state (I := fun _ => True) trivial).mono (fun _ t _ => ?_) fun _ _ _ => trivial
  rw [ends_bind]
  refine (ends_of_state (I := fun _ => True) trivial).mono (fun _ v _ => ?_) fun _ _ _ => trivial
  rw [ends_bind]
  refine (ends_of_state (I := fun _ => True) trivial).mono (fun r w _ => ?_) fun _ _ _ => trivial
  rw [ends_bind, ends_alter, ends_ite]
  refine ⟨fun _ => trivial, fun hne => ?_⟩
  refine (setPort_same _ ⟨rfl, rfl, rfl, rfl⟩).mono (fun _ y hy hnone => ?_) fun _ _ _ => trivial
  have hmap : y.ctx.map (·.usbCtx) = r.map (·.usbCtx) := hy.ctx
  rw [hnone] at hmap
  exact hne (Option.map_eq_none_iff.mp hmap.symm)

/-- **What is on record since `c`** is a transcript of what the world was
asked and of its answers. -/
def Recorded (env : Env σ) (c t : FtdiContext σ) : Prop :=
  ∃ es, t.trace = c.trace ++ es ∧ Transcript env.answer c.world (exchanges es) t.world

theorem Recorded.refl : Recorded env c c := ⟨[], (List.append_nil _).symm, rfl⟩

/-- There is one record since `c`. -/
theorem Recorded.transcript {es : List Event} (h : Recorded env c t)
    (htrace : t.trace = c.trace ++ es) :
    Transcript env.answer c.world (exchanges es) t.world := by
  obtain ⟨es', htrace', htranscript⟩ := h
  cases List.append_cancel_left (htrace'.symm.trans htrace)
  exact htranscript

theorem askWorld_recorded (query : Query) :
    Preserves (Recorded env c₀) (askWorld env query) := by
  rintro c ⟨es, htrace, htranscript⟩
  refine ⟨es ++ [.asked query (env.answer query c.world).1], ?_, ?_⟩
  · show c.trace ++ _ = _
    rw [htrace, List.append_assoc]
  · rw [exchanges, List.filterMap_append]
    exact htranscript.snoc query

theorem observe_recorded {e : Event} (he : e.exchange = none) :
    Preserves (Recorded env c₀) (observe e : Run σ Unit) := by
  refine Preserves.alter ?_
  rintro c ⟨es, htrace, htranscript⟩
  refine ⟨es ++ [e], ?_, ?_⟩
  · show c.trace ++ _ = _
    rw [htrace, List.append_assoc]
  · rw [exchanges, List.filterMap_append, List.filterMap_cons_none he]
    exact (List.append_nil _).symm ▸ htranscript

theorem alter_recorded {f : FtdiContext σ → FtdiContext σ}
    (hf : ∀ t, (f t).world = t.world ∧ (f t).trace = t.trace) :
    Preserves (Recorded env c₀) (alter f : Run σ Unit) := by
  refine Preserves.alter ?_
  rintro t ⟨es, htrace, htranscript⟩
  obtain ⟨hworld, hsame⟩ := hf t
  exact ⟨es, hsame.trans htrace, hworld ▸ htranscript⟩

theorem getStringDescriptorAscii_recorded (index : UInt8) :
    Preserves (Recorded env c₀) (getStringDescriptorAscii env index) :=
  Preserves.look.bind fun _ => (askWorld_recorded _).bind fun _ => Preserves.pure

theorem openDevice_recorded (dev : UsbDev) (usbdev : ℕ) :
    Preserves (Recorded env c₀) (openDevice env dev usbdev) := by
  refine Preserves.look.bind fun c => (askWorld_recorded _).bind fun opened => ?_
  cases opened with
  | error text => exact Preserves.raise
  | ok handle =>
      refine Preserves.bind (alter_recorded fun _ => ⟨rfl, rfl⟩) fun _ => ?_
      refine (askWorld_recorded _).bind fun desc => ?_
      cases desc with
      | none => exact Preserves.raise
      | some desc =>
          refine (getStringDescriptorAscii_recorded _).bind fun _ => ?_
          refine Preserves.bind (alter_recorded fun _ => ⟨rfl, rfl⟩) fun _ => ?_
          refine (getStringDescriptorAscii_recorded _).bind fun _ => ?_
          refine Preserves.bind (alter_recorded fun _ => ⟨rfl, rfl⟩) fun _ => ?_
          refine (getStringDescriptorAscii_recorded _).bind fun _ => ?_
          refine Preserves.bind (alter_recorded fun _ => ⟨rfl, rfl⟩) fun _ => ?_
          exact alter_recorded fun _ => ⟨rfl, rfl⟩

theorem findDevice_recorded (dev : UsbDev) :
    Preserves (Recorded env c₀) (findDevice env dev) := by
  have hfree : ∀ devlist, Preserves (Recorded env c₀) (observe (.listFreed devlist) : Run σ Unit) :=
    fun _ => observe_recorded rfl
  refine Preserves.look.bind fun c => (askWorld_recorded _).bind fun devlist => ?_
  cases devlist with
  | error cause => exact Preserves.raise
  | ok devlist =>
      refine Preserves.rescue ?_ fun cause => Preserves.bind ?_ fun _ => Preserves.raise
      · unfold tryDevice
        cases devlist[dev.device.toNat]? with
        | none => exact (hfree devlist).bind fun _ => Preserves.pure
        | some usbdev =>
            refine (openDevice_recorded dev usbdev).bind fun _ => ?_
            exact (hfree devlist).bind fun _ => Preserves.pure
      · exact Preserves.ite Preserves.pure (hfree devlist)

theorem findDevices_recorded (devs : List UsbDev) :
    Preserves (Recorded env c₀) (findDevices env devs) := by
  induction devs with
  | nil => exact Preserves.pure
  | cons dev devs ih =>
      exact (findDevice_recorded dev).bind fun _ => Preserves.ite Preserves.pure ih

theorem setParam_recorded (param : Param) (cause : Exn) :
    Preserves (Recorded env c₀) (setParam env param cause) :=
  Preserves.look.bind fun _ => (askWorld_recorded _).bind fun _ =>
    Preserves.ite Preserves.raise Preserves.pure

/-- **The search asks what is on record**, and nothing else. -/
theorem search_recorded : Preserves (Recorded env c₀) (search env) := by
  refine Preserves.look.bind fun c => (findDevices_recorded _).bind fun _ => ?_
  refine Preserves.ite Preserves.raise (Preserves.look.bind fun c => ?_)
  refine (setParam_recorded _ _).bind fun _ => (setParam_recorded _ _).bind fun _ => ?_
  exact (setParam_recorded _ _).bind fun _ => setParam_recorded _ _

theorem letGo_recorded : Preserves (Recorded env c₀) (letGo : Run σ Unit) := by
  refine Preserves.bind (Preserves.look.bind fun c => ?_) fun _ => Preserves.look.bind fun c => ?_
  · cases c.ctx with
    | none => exact Preserves.pure
    | some raw =>
        exact Preserves.bind (observe_recorded rfl) fun _ => alter_recorded fun _ => ⟨rfl, rfl⟩
  · refine Preserves.ite ?_ Preserves.pure
    cases c.usbCtx with
    | none => exact Preserves.pure
    | some usbCtx =>
        exact Preserves.bind (observe_recorded rfl) fun _ => alter_recorded fun _ => ⟨rfl, rfl⟩

/-- **The device selection** among the entries, from the state `u` in which
context and interface are set up: what was asked is answered by the world
as it then was; some choice is made, the device of it is tried and no
other, and every device list is freed once. `init` returns where the choice
is a device and no call on it fails, with the handle it was opened with,
all its parameters set and its entry in the configuration, and throws
otherwise, with no `ftdi_context`. -/
structure Selection (env : Env σ) (entries : List UsbDev) (raw : RawContext)
    (u : FtdiContext σ) (choice : Choice) (es : List Event)
    (outcome : Outcome Exn (Option RawContext)) (t : FtdiContext σ) : Prop where
  trace : t.trace = u.trace ++ es
  transcript : Transcript env.answer u.world (exchanges es) t.world
  searched : Searched raw entries choice es
  returns : ∀ dev usbdev, choice = .device dev usbdev → ¬ HasFailed es →
    Ready raw dev usbdev es u t ∧ outcome = .ret t.ctx
  throws : (∀ dev usbdev, choice ≠ .device dev usbdev) ∨ HasFailed es →
    (∃ cause, outcome = .throw cause) ∧ t.ctx = none

/-- The body of `init`, from the state in which it is set up. -/
theorem initBody_ends_search {given : Option ℕ} (hset : setUp env given c = (.ret (), u))
    (hctx : u.ctx = some raw) :
    Ends (initBody env given)
      (fun r t => (∃ es dev usbdev, t.trace = u.trace ++ es ∧
        Searched raw c.config.usbDevices (.device dev usbdev) es ∧ ¬ HasFailed es ∧
          Ready raw dev usbdev es u t ∧ r = t.ctx) ∧ Recorded env u t)
      (fun _ t => (∃ es choice, t.trace = u.trace ++ es ∧
        Searched raw c.config.usbDevices choice es ∧
          ((∃ dev usbdev, choice = .device dev usbdev) → HasFailed es)) ∧ Recorded env u t) c := by
  have hconfig := (ends_ret_of (setUp_further given c .refl) hset).config
  rw [initBody_eq, ends_bind]
  refine ends_of_ret hset ?_
  rw [ends_bind, ← hconfig]
  refine ((search_ends hctx).and (search_recorded u .refl)).mono ?_ fun _ _ h => h
  rintro _ t ⟨⟨es, dev, usbdev, htrace, hsearched, hnone, hready⟩, hrecorded⟩
  exact ⟨⟨es, dev, usbdev, htrace, hsearched, hnone, hready, rfl⟩, hrecorded⟩

/-- What is looked up is configured. -/
theorem Chooses.configured {usbCtx : Option ℕ} {entries : List UsbDev} {looks : List Lookup}
    {choice : Choice} (h : Chooses usbCtx entries looks choice) :
    ∀ l ∈ looks, ∃ dev ∈ entries, ∃ devlist, l = dev.lookup usbCtx devlist := by
  have hbefore : ∀ (before : List (UsbDev × List ℕ)) (after : List UsbDev),
      ∀ l ∈ looked usbCtx before,
        ∃ dev ∈ before.map Prod.fst ++ after, ∃ devlist, l = dev.lookup usbCtx devlist := by
    intro before after l hl
    obtain ⟨x, hx, rfl⟩ := List.mem_map.mp hl
    exact ⟨x.1, List.mem_append_left _ (List.mem_map_of_mem hx), some x.2, rfl⟩
  have hlast : ∀ (before : List (UsbDev × List ℕ)) (dev : UsbDev) (after : List UsbDev) devlist,
      ∀ l ∈ looked usbCtx before ++ [dev.lookup usbCtx devlist],
        ∃ d ∈ before.map Prod.fst ++ dev :: after, ∃ devlist, l = d.lookup usbCtx devlist := by
    intro before dev after devlist l hl
    rcases List.mem_append.mp hl with hl | hl
    · exact hbefore before _ l hl
    · exact ⟨dev, List.mem_append_right _ List.mem_cons_self, devlist, List.mem_singleton.mp hl⟩
  intro l hl
  cases choice with
  | device dev usbdev =>
      obtain ⟨before, list, after, rfl, -, rfl, -⟩ := h
      exact hlast before dev after _ l hl
  | nothing =>
      obtain ⟨before, rfl, -, rfl⟩ := h
      obtain ⟨dev, hdev, hlook⟩ := hbefore before [] l hl
      rw [List.append_nil] at hdev
      exact ⟨dev, hdev, hlook⟩
  | failure =>
      obtain ⟨before, dev, after, rfl, -, rfl⟩ := h
      exact hlast before dev after _ l hl

theorem lookups_beside {seg : List Event} (h : ∀ e ∈ seg, e.Beside) : lookups seg = [] :=
  List.filterMap_eq_nil_iff.mpr fun e he => (h e he).1

/-- **What is put on record since** looks up configured devices only. -/
def LooksUp (c t : FtdiContext σ) : Prop :=
  ∃ es, t.trace = c.trace ++ es ∧ ∀ l ∈ lookups es,
    ∃ dev ∈ c.config.usbDevices, ∃ usbCtx devlist, l = dev.lookup usbCtx devlist

theorem LooksUp.refl (c : FtdiContext σ) : LooksUp c c := ⟨[], (List.append_nil _).symm, nofun⟩

/-- Two stretches of the record. -/
theorem LooksUp.trans {es : List Event} (h : LooksUp c t) (hu : u.trace = t.trace ++ es)
    (hes : ∀ l ∈ lookups es, ∃ dev ∈ c.config.usbDevices, ∃ usbCtx devlist,
      l = dev.lookup usbCtx devlist) : LooksUp c u := by
  obtain ⟨es₀, ht, hes₀⟩ := h
  refine ⟨es₀ ++ es, by rw [hu, ht, List.append_assoc], fun l hl => ?_⟩
  rw [lookups, List.filterMap_append] at hl
  exact (List.mem_append.mp hl).elim (hes₀ l) (hes l)

/-- What is done beside a search looks nothing up. -/
theorem LooksUp.further (h : LooksUp c t) (hu : Grows Event.Beside t.trace u.trace) :
    LooksUp c u := by
  obtain ⟨seg, hseg, hbeside⟩ := hu
  refine h.trans hseg fun l hl => ?_
  rw [lookups_beside hbeside] at hl
  cases hl

/-- The search of `init` looks up the entries it goes through. -/
theorem LooksUp.search (h : LooksUp c u) (hconfig : u.config = c.config) (hne : u.ctx ≠ none) :
    Ends (search env) (fun _ t => LooksUp c t) (fun _ t => LooksUp c t) u := by
  obtain ⟨raw, hctx⟩ := Option.ne_none_iff_exists'.mp hne
  have hsome : ∀ (t : FtdiContext σ) (es : List Event) (choice : Choice),
      t.trace = u.trace ++ es → Searched raw u.config.usbDevices choice es → LooksUp c t := by
    intro t es choice ht hsearched
    refine h.trans ht fun l hl => ?_
    rw [← hconfig]
    obtain ⟨dev, hdev, devlist, heq⟩ := hsearched.chooses.configured l hl
    exact ⟨dev, hdev, _, devlist, heq⟩
  refine (search_ends hctx).mono ?_ ?_
  · rintro _ t ⟨es, dev, usbdev, ht, hsearched, -⟩
    exact hsome t es _ ht hsearched
  · rintro _ t ⟨es, choice, ht, hsearched, -⟩
    exact hsome t es choice ht hsearched

/-- Letting go of everything looks nothing up. -/
theorem LooksUp.letGo (h : LooksUp c t) (cause : Exn) :
    Ends (do letGo; raise cause : Run σ (Option RawContext)) (fun _ t => LooksUp c t)
      (fun _ t => LooksUp c t) t := by
  rw [ends_bind]
  exact (letGo_further t .refl).mono (fun _ u hu => h.further hu.trace)
    fun _ u hu => h.further hu.trace

/-- **`init` looks up what is configured**, and nothing else. -/
theorem init_lookups (env : Env σ) (given : Option ℕ) (c : FtdiContext σ) :
    ∃ es, (init env given c).2.trace = c.trace ++ es ∧ ∀ l ∈ lookups es,
      ∃ dev ∈ c.config.usbDevices, ∃ usbCtx devlist, l = dev.lookup usbCtx devlist := by
  have hends : Ends (init env given) (fun _ t => LooksUp c t) (fun _ t => LooksUp c t) c := by
    unfold init
    rw [ends_rescue, initBody_eq, ends_bind]
    refine ((setUp_further given c .refl).and (setUp_ctx given c)).mono (fun _ u hu => ?_)
      fun cause u hu => ?_
    · -- set up, and the search begins
      obtain ⟨⟨hconfig, hu⟩, hne⟩ := hu
      rw [ends_bind]
      exact (((LooksUp.refl c).further hu).search hconfig hne).mono (fun _ t ht => ht)
        fun cause t ht => ht.letGo cause
    · exact ((LooksUp.refl c).further hu.1.trace).letGo cause
  exact (init_comesBack given).outcome (R := fun _ t => LooksUp c t) hends

/-- **`init` opens the first configured device that is there**, once its
context and interface are set up. -/
theorem device_selection (env : Env σ) (given : Option ℕ) {c u : FtdiContext σ}
    (hset : setUp env given c = (.ret (), u)) :
    ∃ raw choice es, u.ctx = some raw ∧ Selection env c.config.usbDevices raw u choice es
      (init env given c).1 (init env given c).2 := by
  have hne := ends_ret_of (setUp_ctx given c) hset
  obtain ⟨raw, hctx⟩ := Option.ne_none_iff_exists'.mp hne
  have hends : Ends (init env given)
      (fun r t => ∃ choice es, Selection env c.config.usbDevices raw u choice es (.ret r) t)
      (fun cause t => ∃ choice es,
        Selection env c.config.usbDevices raw u choice es (.throw cause) t) c := by
    unfold init
    rw [ends_rescue]
    refine (initBody_ends_search hset hctx).mono ?_ ?_
    · rintro r t ⟨⟨es, dev, usbdev, htrace, hsearched, hnone, hready, rfl⟩, hrecorded⟩
      refine ⟨_, es, htrace, hrecorded.transcript htrace, hsearched, ?_, ?_⟩
      · intro d x heq _
        cases heq
        exact ⟨hready, rfl⟩
      · rintro (hne | hfailed)
        · exact absurd rfl (hne dev usbdev)
        · exact absurd hfailed hnone
    · rintro cause t ⟨⟨es, choice, htrace, hsearched, hfailed⟩, hrecorded⟩
      rw [ends_bind]
      refine ((letGo_adds t).and (letGo_recorded t hrecorded)).mono ?_ fun _ _ hf => hf.1.elim
      rintro _ v ⟨⟨⟨seg, hv, hseg, -⟩, hnone⟩, hrecorded'⟩
      have hv' : v.trace = u.trace ++ (es ++ seg) := by
        rw [hv, htrace, List.append_assoc]
      refine ⟨choice, es ++ seg, hv', hrecorded'.transcript hv', hsearched.besides hseg, ?_,
        fun _ => ⟨⟨cause, rfl⟩, hnone⟩⟩
      intro dev usbdev heq hfine
      exact absurd (hasFailed_append.mpr (.inl (hfailed ⟨dev, usbdev, heq⟩))) hfine
  obtain ⟨choice, es, hselection⟩ := (init_comesBack given).outcome
    (R := fun outcome t => ∃ choice es,
      Selection env c.config.usbDevices raw u choice es outcome t) hends
  exact ⟨raw, choice, es, hctx, hselection⟩

/-- An object configured for the second device of a kind of which there is
one, and then for the first. -/
def particular : FtdiContext Unit :=
  construct false { usbDevices := [{ vendor := 1027, device := 1 }, { vendor := 1027 }] } ()

/-- The second entry is opened, and its parameters are set. -/
theorem device_selection_sample :
    (∃ raw choice es, (setUp granting (some 7) particular).2.ctx = some raw ∧
      Selection granting particular.config.usbDevices raw (setUp granting (some 7) particular).2
        choice es (init granting (some 7) particular).1 (init granting (some 7) particular).2) ∧
    lookups (init granting (some 7) particular).2.trace =
      [⟨some 7, 1027, 0, some [10]⟩, ⟨some 7, 1027, 0, some [10]⟩] ∧
    attempts (init granting (some 7) particular).2.trace = [(10, 1)] ∧
    (settings (init granting (some 7) particular).2.trace).map Prod.snd =
      [.reset, .baudrate 115200, .lineProperty .bits8 .stopBit1 .odd, .flowctrl 0] :=
  ⟨device_selection granting (some 7) rfl, rfl, rfl, rfl⟩

end Context

end SgFtdi
