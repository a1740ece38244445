import SgFtdi.Bus.Opening

/-!
# Which device is opened

`ftdi_usb_open_desc_index` opens every device that has the numbers, to read
its strings, and closes it again before it goes on. While the answers of
the world stand still it opens the asked for one of those that match, in
the order of the list, and whatever the world answers no list and no
device is lost.
-/

namespace SgFtdi

namespace Bus

open Prog Ftdi

variable {σ : Type} {env : Env σ} {c : Opener σ} {dev k : ℕ} {wanted : Wanted}
variable {devs : List ℕ} {desc : ℕ → DeviceDescriptor} {string : ℕ → ℕ → String}

/-- **The bus stands still** while it is searched: the list, the descriptors
and the strings of the devices are what they are, and all can be opened. -/
structure Steady (env : Env σ) (devs : List ℕ) (desc : ℕ → DeviceDescriptor)
    (string : ℕ → ℕ → String) : Prop where
  list : ∀ w, (env.getDeviceList w).1 = some devs
  descriptor : ∀ dev w, (env.getDeviceDescriptor dev w).1 = some (desc dev)
  opens : ∀ dev w, (env.libusbOpen dev w).1 = true
  strings : ∀ dev index w, (env.getStringDescriptorAscii dev index w).1 = some (string dev index)

/-- Whether a device has the numbers and the strings that are asked for. -/
def Wanted.has (wanted : Wanted) (desc : ℕ → DeviceDescriptor) (string : ℕ → ℕ → String)
    (dev : ℕ) : Bool :=
  (desc dev).idVendor == wanted.vendor && (desc dev).idProduct == wanted.product &&
    wanted.description.all (string dev (desc dev).iProduct == ·) &&
    wanted.serial.all (string dev (desc dev).iSerialNumber == ·)

theorem sameString_leads {index : ℕ} {code : ℤ} {text : String} {asked : Option String}
    (h : Holds (some dev) (k + 1) c) :
    Runs (sameString env dev index code text asked)
      (fun same t => Holds (if same then some dev else none) (k + 1) t ∧
        (Steady env devs desc string → same = asked.all (string dev index == ·)))
      (fun _ t => Holds none k t ∧ ¬ Steady env devs desc string) (fun _ => False) c := by
  cases asked with
  | none => exact ⟨h, fun _ => rfl⟩
  | some asked =>
      rw [sameString, runs_bind, runs_askWorld]
      cases hanswer : (env.getStringDescriptorAscii dev index c.world).1 with
      | none =>
          rw [runs_bind]
          refine (close_leads h.setWorld).mono ?_ (fun _ _ hf => hf.elim) fun _ hf => hf
          intro _ t ht
          refine runs_errorReturnFree ht fun u hu => ⟨hu, fun hsteady => ?_⟩
          simpa [hanswer] using hsteady.strings dev index c.world
      | some answer =>
          have hstring : Steady env devs desc string → answer = string dev index := fun hsteady =>
            Option.some.inj (hanswer.symm.trans (hsteady.strings dev index c.world))
          dsimp only
          split
          next hne =>
            rw [runs_bind]
            refine (close_leads h.setWorld).mono ?_ (fun _ _ hf => hf.elim) fun _ hf => hf
            intro _ t ht
            refine ⟨ht, fun hsteady => ?_⟩
            simpa [hstring hsteady] using hne
          next heq =>
            refine ⟨h.setWorld, fun hsteady => ?_⟩
            simpa [hstring hsteady] using heq

/-- **One device of the list**: it is closed again, and `matching` says
whether it has what is asked for. -/
theorem matching_leads (devs : List ℕ) (desc : ℕ → DeviceDescriptor) (string : ℕ → ℕ → String)
    (h : Holds none (k + 1) c) :
    Runs (matching env wanted dev)
      (fun found t => Holds none (k + 1) t ∧
        (Steady env devs desc string → found = wanted.has desc string dev))
      (fun _ t => Holds none k t ∧ ¬ Steady env devs desc string) (fun _ => False) c := by
  rw [matching, runs_bind, runs_askWorld]
  cases hanswer : (env.getDeviceDescriptor dev c.world).1 with
  | none =>
      refine runs_errorReturnFree h.setWorld fun u hu => ⟨hu, fun hsteady => ?_⟩
      simpa [hanswer] using hsteady.descriptor dev c.world
  | some answer =>
      have hdesc : Steady env devs desc string → answer = desc dev := fun hsteady =>
        Option.some.inj (hanswer.symm.trans (hsteady.descriptor dev c.world))
      dsimp only
      split
      next hnumbers =>
        rw [runs_bind]
        refine (libusbOpen_leads h.setWorld).mono ?_ (fun _ _ hf => hf.elim) fun _ hf => hf
        rintro ok t ⟨hok, ht⟩
        cases ok with
        | false =>
            refine runs_errorReturnFree ht fun u hu => ⟨hu, fun hsteady => ?_⟩
            simpa [← hok] using hsteady.opens dev (env.getDeviceDescriptor dev c.world).2
        | true =>
            -- the description, and then the serial number if that is the same
            rw [if_neg (by decide), runs_bind]
            refine (sameString_leads ht).mono ?_ (fun _ _ he => he) fun _ hf => hf
            rintro same t ⟨ht, hsame⟩
            cases same with
            | false =>
                refine ⟨ht, fun hsteady => ?_⟩
                have hno := hsame hsteady
                rw [hdesc hsteady] at hno
                simp [Wanted.has, ← hno]
            | true =>
                rw [if_neg (by decide), runs_bind]
                refine (sameString_leads ht).mono ?_ (fun _ _ he => he) fun _ hf => hf
                rintro same' t ⟨ht, hsame'⟩
                have hhas : Steady env devs desc string →
                    same' = wanted.has desc string dev := by
                  intro hsteady
                  have hyes := hsame hsteady
                  have hlast := hsame' hsteady
                  rw [hdesc hsteady] at hyes hlast hnumbers
                  simp [Wanted.has, hnumbers, ← hyes, hlast]
                cases same' with
                | false => exact ⟨ht, hhas⟩
                | true =>
                    rw [if_neg (by decide), runs_bind]
                    refine (close_leads ht).mono ?_ (fun _ _ hf => hf.elim) fun _ hf => hf
                    exact fun _ t ht => ⟨ht, hhas⟩
      next hnumbers =>
        refine ⟨h.setWorld, fun hsteady => ?_⟩
        rw [hdesc hsteady, not_and_or] at hnumbers
        rcases hnumbers with hvendor | hproduct
        · simp [Wanted.has, hvendor]
        · simp [Wanted.has, hproduct]

/-- `ftdi_usb_open_dev` fails with the code for this device, in some state
of the world. -/
def Refuses (env : Env σ) (dev : ℕ) (code : ℤ) : Prop :=
  ∃ s t : Opener σ, s.usbDev = none ∧ ftdiUsbOpenDev env dev s = (.throw code, t)

/-- **What a run that looks for a device leaves**: a device is open if it
returns, and one may be if it fails. As far as `P` holds it is the one that
is sought, and nothing else goes wrong but that there is none, or that the
device cannot be opened. -/
def Seeks (env : Env σ) (P : Prop) (sought : Option ℕ) (k : ℕ) (p : Run σ Unit) (c : Opener σ) :
    Prop :=
  Runs p (fun _ t => ∃ dev, Holds (some dev) k t ∧ (P → sought = some dev))
    (fun code t => ∃ dev, (Holds none k t ∨ Holds (leftOpen dev code) k t) ∧
      (P → (sought = none ∧ code = -3) ∨ (sought = some dev ∧ Refuses env dev code)))
    (fun _ => False) c

theorem ftdiUsbOpenDev_refuses (h : Holds none k c) :
    Runs (ftdiUsbOpenDev env dev) (fun _ => Holds (some dev) k)
      (fun code t => Holds (leftOpen dev code) k t ∧ Refuses env dev code) (fun _ => False) c := by
  have hleads : OpensOrFails (ftdiUsbOpenDev env dev) dev k c := ftdiUsbOpenDev_leads h
  unfold OpensOrFails Runs at hleads
  unfold Runs
  rcases hrun : ftdiUsbOpenDev env dev c with ⟨a | code | -, t⟩
  · rwa [hrun] at hleads
  · rw [hrun] at hleads
    exact ⟨hleads, c, t, h.usbDev, hrun⟩
  · rwa [hrun] at hleads

theorem openFound_seeks {P : Prop} {sought : Option ℕ} (h : Holds none (k + 1) c)
    (hsought : P → sought = some dev) : Seeks env P sought k (openFound env dev) c := by
  rw [Seeks, openFound, runs_bind, runs_rescue]
  refine (ftdiUsbOpenDev_refuses h).mono ?_ ?_ fun _ hf => hf
  · exact fun _ t ht => ⟨dev, ht.freed, hsought⟩
  · exact fun code t ⟨ht, hrefuses⟩ =>
      ⟨dev, .inr ht.freed, fun hP => .inr ⟨hsought hP, hrefuses⟩⟩

theorem notFound_seeks {P : Prop} {sought : Option ℕ} (h : Holds none (k + 1) c)
    (hsought : P → sought = none) :
    Seeks env P sought k (errorReturnFreeDeviceList (-3) "device not found") c :=
  runs_errorReturnFree h fun _ ht => ⟨0, .inl ht, fun hP => .inl ⟨hsought hP, rfl⟩⟩

theorem Seeks.of_imp {P : Prop} {sought sought' : Option ℕ} {p : Run σ Unit}
    (h : Seeks env P sought k p c) (heq : P → sought' = sought) : Seeks env P sought' k p c := by
  refine Runs.mono h ?_ ?_ fun _ hf => hf
  · rintro _ t ⟨dev, ht, hsought⟩
    exact ⟨dev, ht, fun hP => (heq hP).trans (hsought hP)⟩
  · rintro code t ⟨dev, ht, hsought⟩
    exact ⟨dev, ht, fun hP => by rw [heq hP]; exact hsought hP⟩

/-- **The loop over the list** opens the asked for one of the devices that
have what is asked for. -/
theorem searchDevices_seeks : ∀ {rest : List ℕ} {index : ℕ} {c : Opener σ},
    Holds none (k + 1) c →
    Seeks env (Steady env devs desc string) ((rest.filter (wanted.has desc string))[index]?) k
      (searchDevices env wanted rest index) c
  | [], index, c, h => notFound_seeks h fun _ => rfl
  | dev :: rest, index, c, h => by
      rw [Seeks, searchDevices, runs_bind]
      refine (matching_leads devs desc string h).mono ?_ ?_ fun _ hf => hf
      · rintro found t ⟨ht, hfound⟩
        cases found with
        | false =>
            -- the filter drops it, and the index stays
            refine Seeks.of_imp (searchDevices_seeks ht) fun hsteady => ?_
            rw [List.filter_cons_of_neg (by simp [← hfound hsteady])]
        | true =>
            rw [if_neg (by decide)]
            -- a match counts down the index, and the one at zero is opened
            split
            next hindex =>
              obtain ⟨j, rfl⟩ := Nat.exists_eq_succ_of_ne_zero hindex.ne'
              refine Seeks.of_imp (searchDevices_seeks ht) fun hsteady => ?_
              rw [List.filter_cons_of_pos (hfound hsteady).symm]
              rfl
            next hindex =>
              obtain rfl : index = 0 := by omega
              refine openFound_seeks ht fun hsteady => ?_
              rw [List.filter_cons_of_pos (hfound hsteady).symm]
              rfl
      · rintro code t ⟨ht, hsteady⟩
        exact ⟨dev, .inl ht, fun h => absurd h hsteady⟩

theorem ftdiUsbOpenDescIndex_seeks (devs : List ℕ) (desc : ℕ → DeviceDescriptor)
    (string : ℕ → ℕ → String) {index : ℕ} (h : Holds none k c) :
    Seeks env (Steady env devs desc string) ((devs.filter (wanted.has desc string))[index]?) k
      (ftdiUsbOpenDescIndex env wanted index) c := by
  rw [Seeks, ftdiUsbOpenDescIndex, runs_bind, runs_askWorld]
  cases hanswer : (env.getDeviceList c.world).1 with
  | none =>
      refine ⟨0, .inl h.setWorld.setErrorStr, fun hsteady => ?_⟩
      simpa [hanswer] using hsteady.list c.world
  | some answer =>
      rw [runs_bind]
      refine Seeks.of_imp (searchDevices_seeks h.setWorld.listed) fun hsteady => ?_
      rw [Option.some.inj (hanswer.symm.trans (hsteady.list c.world))]

theorem ftdiUsbOpenBusAddr_seeks (devs : List ℕ) {bus addr : ℕ} (h : Holds none k c) :
    Seeks env (∀ w, (env.getDeviceList w).1 = some devs)
      (devs.find? fun dev => env.busAddress dev = (bus, addr)) k
      (ftdiUsbOpenBusAddr env bus addr) c := by
  rw [Seeks, ftdiUsbOpenBusAddr, runs_bind, runs_askWorld]
  cases hanswer : (env.getDeviceList c.world).1 with
  | none =>
      refine ⟨0, .inl h.setWorld.setErrorStr, fun hlist => ?_⟩
      simpa [hanswer] using hlist c.world
  | some answer =>
      have hdevs : (∀ w, (env.getDeviceList w).1 = some devs) → devs = answer := fun hlist =>
        (Option.some.inj (hanswer.symm.trans (hlist c.world))).symm
      rw [runs_bind]
      split
      next dev hfind =>
        exact openFound_seeks h.setWorld.listed fun hlist => by rw [hdevs hlist, hfind]
      next hfind =>
        exact notFound_seeks h.setWorld.listed fun hlist => by rw [hdevs hlist, hfind]

end Bus

end SgFtdi
