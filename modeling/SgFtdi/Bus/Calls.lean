import SgFtdi.Bus.Search

/-!
# Runs of calls

Devices are opened and closed any number of times on one context, and the
world answers as it likes. No list of devices is lost, and the context has
the only device that is open.
-/

namespace SgFtdi

namespace Bus

open Prog Ftdi Relation

variable {σ : Type} {env : Env σ} {start c : Opener σ} {hold : Option ℕ} {k : ℕ}

theorem ftdiUsbClose_leads (h : Holds hold k c) :
    Runs (ftdiUsbClose env) (fun _ => Holds none k) (fun _ => Holds none k) (fun _ => False) c := by
  rw [ftdiUsbClose, runs_bind, runs_look]
  split
  next hnone =>
    rw [← h.usbDev, hnone] at h
    exact h
  next dev hsome =>
    rw [runs_bind, runs_askWorld, runs_bind]
    refine (close_leads h.setWorld).mono ?_ (fun _ _ hf => hf.elim) fun _ hf => hf
    intro _ t ht
    split
    · exact ht
    · exact ht

/-- **A call** leaves a device open if it returns from an opening, and
otherwise only where a query of `ftdi_usb_open_dev` fails. -/
theorem Call.run_leads (env : Env σ) (call : Call) (h : Holds hold k c)
    (hopens : call.opens = true → hold = none) :
    Runs (call.run env) (fun _ t => ∃ hold, Holds hold k t ∧ hold.isSome = call.opens)
      (fun code t => ∃ hold, Holds hold k t ∧
        (hold ≠ none → code = -9 ∨ code = -10 ∨ code = -12)) (fun _ => False) c := by
  have hleft : ∀ (dev : ℕ) (code : ℤ), leftOpen dev code ≠ none →
      code = -9 ∨ code = -10 ∨ code = -12 := by
    intro dev code hne
    by_contra hcode
    exact hne (if_neg hcode)
  have hseeks : ∀ {P : Prop} {sought : Option ℕ} {p : Run σ Unit}, Seeks env P sought k p c →
      Runs p (fun _ t => ∃ hold, Holds hold k t ∧ hold.isSome = true)
        (fun code t => ∃ hold, Holds hold k t ∧
          (hold ≠ none → code = -9 ∨ code = -10 ∨ code = -12)) (fun _ => False) c := by
    intro P sought p hp
    refine Runs.mono hp ?_ ?_ fun _ hf => hf
    · exact fun _ t ⟨dev, ht, _⟩ => ⟨some dev, ht, rfl⟩
    · rintro code t ⟨dev, ht | ht, -⟩
      · exact ⟨none, ht, fun hne => absurd rfl hne⟩
      · exact ⟨leftOpen dev code, ht, hleft dev code⟩
  -- the searches differ in what they look for, not in what they leave
  cases call with
  | openDev dev =>
      obtain rfl := hopens rfl
      refine Runs.mono (ftdiUsbOpenDev_leads h) ?_ ?_ fun _ hf => hf
      · exact fun _ t ht => ⟨some dev, ht, rfl⟩
      · exact fun code t ht => ⟨leftOpen dev code, ht, hleft dev code⟩
  | openDescIndex wanted index =>
      obtain rfl := hopens rfl
      exact hseeks (ftdiUsbOpenDescIndex_seeks [] (fun _ => ⟨0, 0, 0, 0, 0, 0⟩) (fun _ _ => "") h)
  | openBusAddr bus addr =>
      obtain rfl := hopens rfl
      exact hseeks (ftdiUsbOpenBusAddr_seeks [] h)
  | close =>
      refine Runs.mono (ftdiUsbClose_leads h) ?_ ?_ fun _ hf => hf
      · exact fun _ t ht => ⟨none, ht, rfl⟩
      · exact fun code t ht => ⟨none, ht, fun hne => absurd rfl hne⟩

theorem Holds.called {s t : Opener σ} (h : Holds s.usbDev k s) (hcalled : Called env s t) :
    Holds t.usbDev k t := by
  obtain ⟨call, hopens, rfl⟩ := hcalled
  have hleads := Call.run_leads env call h hopens
  unfold Runs at hleads
  generalize call.run env s = r at hleads ⊢
  rcases r with ⟨a | code | -, t⟩
  · obtain ⟨hold, ht, -⟩ := hleads
    rwa [ht.usbDev]
  · obtain ⟨hold, ht, -⟩ := hleads
    rwa [ht.usbDev]
  · exact hleads.elim

theorem holds_reached (hstart : start.usbDev = none) (htrace : start.trace = [])
    (h : ReflTransGen (Called env) start c) : Holds c.usbDev 0 c := by
  have hnew : Holds start.usbDev 0 start := by
    refine ⟨rfl, fun dev => ?_, ?_⟩
    · simp [hstart, htrace]
    · simp [htrace]
  -- every call keeps the account of the device that it leaves open
  exact inv_of_path (I := fun c => Holds c.usbDev 0 c) (fun _ _ hst hs => hs.called hst) h hnew

/-- **No device and no list is lost**: after any run of calls in which a
device is only opened where none is open, the device of the context is the
only one that is opened and not closed. Every list was given back. The next
call comes back; where it returns a device is open exactly if it opens one,
and where it fails a device is open only for an error of a query. -/
theorem openings_balanced (hstart : start.usbDev = none) (htrace : start.trace = [])
    (h : ReflTransGen (Called env) start c) :
    (∀ dev, c.trace.count (.opened dev) =
      c.trace.count (.closed dev) + if c.usbDev = some dev then 1 else 0) ∧
    c.trace.count .listed = c.trace.count .freed ∧
    ∀ call : Call, (call.opens = true → c.usbDev = none) →
      Runs (call.run env) (fun _ t => t.usbDev.isSome = call.opens)
        (fun code t => t.usbDev ≠ none → code = -9 ∨ code = -10 ∨ code = -12)
        (fun _ => False) c := by
  have hc := holds_reached hstart htrace h
  refine ⟨hc.balance, hc.lists, fun call hopens => ?_⟩
  refine (Call.run_leads env call hc hopens).mono ?_ ?_ fun _ hf => hf
  · rintro _ t ⟨hold, ht, hsome⟩
    rw [ht.usbDev]
    exact hsome
  · rintro code t ⟨hold, ht, hcode⟩
    rw [ht.usbDev]
    exact hcode

/-- What is known of each of two devices of one kind. -/
def numbers (_ : ℕ) : DeviceDescriptor := ⟨0x403, 0x6001, 0x600, 2, 3, 1⟩

/-- They differ in their strings. -/
def serials (dev _ : ℕ) : String := if dev = 3 then "A3" else "A4"

/-- Two devices that always answer. -/
def pair : Env Unit where
  getDeviceList _ := (some [3, 4], ())
  getDeviceDescriptor dev _ := (some (numbers dev), ())
  getConfigDescriptor _ _ := (some ⟨1, [[[64, 64]]]⟩, ())
  busAddress dev := (1, dev)
  libusbOpen _ _ := (true, ())
  getStringDescriptorAscii dev index _ := (some (serials dev index), ())
  detachKernelDriver _ _ _ := (none, ())
  setAutoDetachKernelDriver _ _ := (none, ())
  getConfiguration _ _ := (some 1, ())
  setConfiguration _ _ _ := (true, ())
  claimInterface _ _ _ := (true, ())
  releaseInterface _ _ _ := (true, ())
  controlTransfer _ _ := (0, ())

/-- A context that is new. -/
def fresh : Opener Unit where
  usbDev := none
  type := .typeBM
  interface := 0
  index := 1
  moduleDetachMode := .autoDetach
  bitbangEnabled := false
  baudrate := -1
  maxPacketSize := 0
  readbufferOffset := 0
  readbufferRemaining := 0
  initializedForConnectedDevice := false
  errorStr := ""
  trace := []
  world := ()

/-- The second of the two. -/
def second : Wanted := ⟨0x403, 0x6001, none, some "A4"⟩

theorem openings_balanced_sample :
    ((ftdiUsbOpenDescIndex pair second 0 fresh).2.usbDev = some 4 ∧
      (ftdiUsbOpenDescIndex pair second 0 fresh).2.trace =
        [.listed, .opened 3, .closed 3, .opened 4, .closed 4, .opened 4, .freed]) ∧
      ∀ dev, (ftdiUsbOpenDescIndex pair second 0 fresh).2.trace.count (.opened dev) =
        (ftdiUsbOpenDescIndex pair second 0 fresh).2.trace.count (.closed dev) +
          if (ftdiUsbOpenDescIndex pair second 0 fresh).2.usbDev = some dev then 1 else 0 :=
  ⟨by decide, (openings_balanced rfl rfl
    (ReflTransGen.single (a := fresh) ⟨.openDescIndex second 0, fun _ => rfl, rfl⟩)).1⟩

-- a second opening loses the first device, which is never closed
example : (ftdiUsbOpenDev pair 4 (ftdiUsbOpenDev pair 3 fresh).2).2.usbDev = some 4 ∧
    (ftdiUsbOpenDev pair 4 (ftdiUsbOpenDev pair 3 fresh).2).2.trace = [.opened 3, .opened 4] := by
  decide

/-- **The search opens what is asked for**: on a bus that stands still it
is the asked for one of the devices that match, in the order of the list.
It fails only if there is none, or as `ftdi_usb_open_dev` fails for that
device. -/
theorem search_opens {devs : List ℕ} {desc : ℕ → DeviceDescriptor} {string : ℕ → ℕ → String}
    (hsteady : Steady env devs desc string) (hstart : start.usbDev = none)
    (htrace : start.trace = []) (h : ReflTransGen (Called env) start c) (hnone : c.usbDev = none)
    (wanted : Wanted) (index : ℕ) :
    Runs (ftdiUsbOpenDescIndex env wanted index)
      (fun _ t => (devs.filter (wanted.has desc string))[index]? = t.usbDev ∧ t.usbDev ≠ none)
      (fun code _ => ((devs.filter (wanted.has desc string))[index]? = none ∧ code = -3) ∨
        ∃ dev, (devs.filter (wanted.has desc string))[index]? = some dev ∧ Refuses env dev code)
      (fun _ => False) c := by
  have hc := holds_reached hstart htrace h
  rw [hnone] at hc
  refine Runs.mono (ftdiUsbOpenDescIndex_seeks devs desc string hc) ?_ ?_ fun _ hf => hf
  · rintro _ t ⟨dev, ht, hsought⟩
    rw [hsought hsteady, ht.usbDev]
    exact ⟨rfl, nofun⟩
  · rintro code t ⟨dev, -, hsought⟩
    exact (hsought hsteady).imp_right fun hfound => ⟨dev, hfound⟩

theorem search_opens_sample :
    ([3, 4].filter (second.has numbers serials))[0]? = some 4 ∧
      Runs (ftdiUsbOpenDescIndex pair second 0)
        (fun _ t => ([3, 4].filter (second.has numbers serials))[0]? = t.usbDev ∧ t.usbDev ≠ none)
        (fun code _ => (([3, 4].filter (second.has numbers serials))[0]? = none ∧ code = -3) ∨
          ∃ dev, ([3, 4].filter (second.has numbers serials))[0]? = some dev ∧
            Refuses pair dev code)
        (fun _ => False) fresh :=
  ⟨by decide, search_opens ⟨fun _ => rfl, fun _ _ => rfl, fun _ _ => rfl, fun _ _ _ => rfl⟩ rfl rfl
    ReflTransGen.refl rfl second 0⟩

end Bus

end SgFtdi
