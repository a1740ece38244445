import Mathlib.Data.List.Count
import SgFtdi.Bus.Model

/-!
# What an opening leaves behind

The account of a context: the device it has open is the only one that was
opened and not closed, and so many lists of devices are still out. Every
function says what it does to the account, whichever way it comes back,
and what a run of calls leaves follows.
-/

namespace SgFtdi

namespace Bus

open Prog Ftdi

variable {σ α β : Type} {env : Env σ} {c : Opener σ} {hold : Option ℕ} {dev k : ℕ}

/-- **The account of a context.** -/
structure Holds (hold : Option ℕ) (k : ℕ) (c : Opener σ) : Prop where
  usbDev : c.usbDev = hold
  balance : ∀ dev, c.trace.count (.opened dev) =
    c.trace.count (.closed dev) + if hold = some dev then 1 else 0
  lists : c.trace.count .listed = c.trace.count .freed + k

/-- A program that returns, and leaves the account as it is. -/
def Keeps (p : Run σ α) : Prop :=
  ∀ hold k c, Holds hold k c → Runs p (fun _ => Holds hold k) (fun _ _ => False) (fun _ => False) c

namespace Keeps

theorem pure {a : α} : Keeps (pure a : Run σ α) := fun _ _ _ h => h

theorem look {f : Opener σ → α} : Keeps (look f : Run σ α) := fun _ _ _ h => h

theorem alter {f : Opener σ → Opener σ}
    (hf : ∀ c, (f c).usbDev = c.usbDev ∧ (f c).trace = c.trace) :
    Keeps (alter f : Run σ Unit) := by
  intro hold k c h
  obtain ⟨hdev, htrace⟩ := hf c
  refine ⟨hdev.trans h.usbDev, fun dev => ?_, ?_⟩
  · rw [htrace]
    exact h.balance dev
  · rw [htrace]
    exact h.lists

theorem bind {p : Run σ α} {f : α → Run σ β} (hp : Keeps p) (hf : ∀ a, Keeps (f a)) :
    Keeps (p >>= f) := by
  intro hold k c h
  rw [runs_bind]
  exact (hp hold k c h).mono (fun a t ht => hf a hold k t ht) (fun _ _ ht => ht) fun _ ht => ht

theorem askWorld {f : σ → α × σ} : Keeps (askWorld f) := fun _ _ _ h =>
  ⟨h.usbDev, h.balance, h.lists⟩

theorem detach : Keeps (detach env dev) := by
  refine bind look fun c => ?_
  cases c.moduleDetachMode with
  | autoDetach => exact askWorld
  | dontDetach => exact pure
  | autoDetachReattach => exact askWorld

theorem determineMaxPacketSize : Keeps (determineMaxPacketSize env dev) := by
  refine bind look fun c => bind askWorld ?_
  rintro (_ | desc)
  · exact pure
  · refine bind askWorld ?_
    rintro (_ | config0)
    · exact pure
    · dsimp only
      split
      · exact pure
      · exact pure

theorem setBaudrate {baudrate : ℤ} : Keeps (setBaudrate env baudrate) := fun _ _ _ h =>
  ⟨h.usbDev, h.balance, h.lists⟩

end Keeps

/-! ## The books -/

theorem runs_askWorld {f : σ → α × σ} {Q : α → Opener σ → Prop} {E : ℤ → Opener σ → Prop}
    {H : Opener σ → Prop} :
    Runs (askWorld f) Q E H c ↔ Q (f c.world).1 { c with world := (f c.world).2 } := Iff.rfl

theorem runs_errorReturn {code : ℤ} {text : String} {Q : α → Opener σ → Prop}
    {E : ℤ → Opener σ → Prop} {H : Opener σ → Prop} :
    Runs (errorReturn code text) Q E H c ↔ E code { c with errorStr := text } := Iff.rfl

theorem Holds.setWorld {w : σ} (h : Holds hold k c) : Holds hold k { c with world := w } :=
  ⟨h.usbDev, h.balance, h.lists⟩

theorem Holds.setErrorStr {text : String} (h : Holds hold k c) :
    Holds hold k { c with errorStr := text } := ⟨h.usbDev, h.balance, h.lists⟩

theorem Holds.listed (h : Holds hold k c) :
    Holds hold (k + 1) { c with trace := c.trace ++ [.listed] } where
  usbDev := h.usbDev
  balance d := by simpa using h.balance d
  lists := by
    have := h.lists
    simp only [List.count_append, List.count_singleton_self, List.count_singleton]
    simp
    omega

theorem Holds.freed (h : Holds hold (k + 1) c) :
    Holds hold k { c with trace := c.trace ++ [.freed] } where
  usbDev := h.usbDev
  balance d := by simpa using h.balance d
  lists := by
    have := h.lists
    simp only [List.count_append, List.count_singleton]
    simpa [add_assoc, add_comm 1 k] using this

theorem Holds.opened (h : Holds none k c) :
    Holds (some dev) k { c with trace := c.trace ++ [.opened dev], usbDev := some dev } where
  usbDev := rfl
  balance d := by
    have := h.balance d
    simp only [reduceCtorEq, if_false, add_zero] at this
    simp [List.count_singleton, this]
  lists := by simpa using h.lists

/-- A list of devices goes back, and the call fails. -/
theorem runs_errorReturnFree {code : ℤ} {text : String} {Q : α → Opener σ → Prop}
    {E : ℤ → Opener σ → Prop} (h : Holds hold (k + 1) c)
    (hE : ∀ t, Holds hold k t → E code t) :
    Runs (errorReturnFreeDeviceList code text) Q E (fun _ => False) c :=
  hE _ h.freed.setErrorStr

theorem close_leads (h : Holds hold k c) :
    Runs ftdiUsbCloseInternal (fun _ => Holds none k) (fun _ _ => False) (fun _ => False) c := by
  rw [ftdiUsbCloseInternal, runs_bind, runs_look, h.usbDev]
  cases hold with
  | none => exact h
  | some dev =>
      refine ⟨rfl, fun d => ?_, ?_⟩
      · have := h.balance d
        simp only [Option.some.injEq] at this
        simpa [List.count_singleton] using this
      · simpa using h.lists

theorem libusbOpen_leads (h : Holds none k c) :
    Runs (libusbOpen env dev)
      (fun ok t => ok = (env.libusbOpen dev c.world).1 ∧ Holds (if ok then some dev else none) k t)
      (fun _ _ => False) (fun _ => False) c := by
  rw [libusbOpen, runs_bind, runs_askWorld]
  cases hok : (env.libusbOpen dev c.world).1 with
  | true => exact ⟨rfl, h.setWorld.opened⟩
  | false => exact ⟨rfl, h.setWorld⟩

/-! ## A given device -/

/-- The device that `ftdi_usb_open_dev` leaves open where it fails: the
errors of its queries do not close it. -/
def leftOpen (dev : ℕ) (code : ℤ) : Option ℕ :=
  if code = -9 ∨ code = -10 ∨ code = -12 then some dev else none

/-- A run that opens a device, or fails and leaves what `leftOpen` says. -/
def OpensOrFails (p : Run σ Unit) (dev k : ℕ) (c : Opener σ) : Prop :=
  Runs p (fun _ => Holds (some dev) k) (fun code => Holds (leftOpen dev code) k)
    (fun _ => False) c

theorem closeRefused_leads {errno : Option ℕ} {code : ℤ} {text : String}
    (h : Holds (some dev) k c) (hcode : leftOpen dev code = none) :
    OpensOrFails (closeRefused errno code text) dev k c := by
  rw [OpensOrFails, closeRefused, runs_bind]
  refine (close_leads h).mono ?_ (fun _ _ hf => hf.elim) fun _ hf => hf
  intro _ t ht
  split
  · exact ht.setErrorStr
  · rw [runs_errorReturn, hcode]
    exact ht.setErrorStr

/-- Close the device, and fail. -/
theorem close_errorReturn_leads {code : ℤ} {text : String} (h : Holds (some dev) k c)
    (hcode : leftOpen dev code = none) :
    OpensOrFails (do ftdiUsbCloseInternal; errorReturn code text) dev k c := by
  rw [OpensOrFails, runs_bind]
  refine (close_leads h).mono ?_ (fun _ _ hf => hf.elim) fun _ hf => hf
  intro _ t ht
  rw [runs_errorReturn, hcode]
  exact ht.setErrorStr

/-- A program that keeps the account, and then a run. -/
theorem Keeps.opens {p : Run σ α} {f : α → Run σ Unit} (hp : Keeps p) (h : Holds hold k c)
    (hf : ∀ a t, Holds hold k t → OpensOrFails (f a) dev k t) : OpensOrFails (p >>= f) dev k c := by
  rw [OpensOrFails, runs_bind]
  exact (hp hold k c h).mono (fun a t ht => hf a t ht) (fun _ _ hf => hf.elim) fun _ hf => hf

theorem ftdiUsbReset_leads (h : Holds hold k c) :
    Runs (ftdiUsbReset env) (fun _ => Holds hold k) (fun _ => Holds hold k) (fun _ => False) c := by
  rw [ftdiUsbReset, runs_bind, runs_look]
  split
  · exact h.setErrorStr
  · rw [runs_bind, runs_askWorld]
    split
    · exact h.setWorld.setErrorStr
    · exact ⟨h.usbDev, h.balance, h.lists⟩

theorem identify_leads {desc : DeviceDescriptor} (h : Holds (some dev) k c) :
    OpensOrFails (identify env dev desc) dev k c := by
  refine (Keeps.alter (by simp)).opens h fun _ t ht => ?_
  refine Keeps.determineMaxPacketSize.opens ht fun size t ht => ?_
  refine (Keeps.alter (by simp)).opens ht fun _ t ht => ?_
  refine Keeps.setBaudrate.opens ht fun ret t ht => ?_
  split
  · exact close_errorReturn_leads ht rfl
  · exact ht.setErrorStr

theorem setUp_leads {desc : DeviceDescriptor} (h : Holds (some dev) k c) :
    OpensOrFails (setUp env dev desc) dev k c := by
  rw [OpensOrFails, setUp, runs_bind, runs_rescue, runs_bind]
  exact (ftdiUsbReset_leads h).mono (fun _ t ht => identify_leads ht)
    (fun _ t ht => close_errorReturn_leads ht rfl) fun _ hf => hf

theorem claim_leads {desc : DeviceDescriptor} {errno : Option ℕ} (h : Holds (some dev) k c) :
    OpensOrFails (claim env dev desc errno) dev k c := by
  refine Keeps.look.opens h fun c t ht => Keeps.askWorld.opens ht fun ok t ht => ?_
  split
  · exact closeRefused_leads ht rfl
  · exact setUp_leads ht

/-- **`ftdi_usb_open_dev`** opens the device, or leaves what `leftOpen` says. -/
theorem ftdiUsbOpenDev_leads (h : Holds none k c) :
    OpensOrFails (ftdiUsbOpenDev env dev) dev k c := by
  rw [OpensOrFails, ftdiUsbOpenDev, runs_bind]
  -- what follows keeps the device open, until it is closed for an error
  refine (libusbOpen_leads h).mono ?_ (fun _ _ hf => hf.elim) fun _ hf => hf
  rintro ok t ⟨-, ht⟩
  cases ok with
  | false => exact ht.setErrorStr
  | true =>
      refine Keeps.askWorld.opens ht ?_
      rintro (_ | desc) t ht
      · exact ht.setErrorStr
      refine Keeps.askWorld.opens ht ?_
      rintro (_ | config0) t ht
      · exact ht.setErrorStr
      refine Keeps.detach.opens ht fun errno t ht => Keeps.askWorld.opens ht ?_
      rintro (_ | cfg) t ht
      · exact ht.setErrorStr
      dsimp only
      split
      · refine Keeps.askWorld.opens ht fun ok t ht => ?_
        split
        · exact closeRefused_leads ht rfl
        · exact claim_leads ht
      · exact claim_leads ht

end Bus

end SgFtdi
