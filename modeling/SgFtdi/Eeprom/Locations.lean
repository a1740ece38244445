import SgFtdi.Eeprom.Persistence

/-!
# Words behind the image

A large EEPROM has words behind its image, which a program may use as it
likes. They are only written if the image says that the EEPROM is a large
one. An image says so if the device is one: so the image stays as it is,
whatever is written behind it.

On a BM chip the byte that is asked for the type of the EEPROM is not one
of the type, and nothing of this holds.
-/

namespace SgFtdi

namespace Ftdi

open Prog

variable {σ : Type} {pipe : Pipe σ} {type : ChipType} {e : Eeprom} {n count : ℕ}
  {works : σ → Prop} {words : σ → ℕ → UInt16} {out : Image}

/-! ## The type in an image -/

/-- **The type of the EEPROM** is in the image. -/
theorem ImageOf.chipByte (h : ImageOf type e n out) (hfitting : Fitting type n) (hsize : e.size = n)
    (hfit : StringsFit type e) (hsane : Sane e) (hBM : type ≠ .typeBM) {location : ℕ}
    (hlocation : chipTypeLocation type = some location) :
    ((out.get location).toNat : ℤ) = e.chip % 0x100 := by
  have hspecific := (h.recovered hfitting hsize hfit hsane Eeprom.zero).specific
  cases type with
  | typeAM => exact absurd hlocation nofun
  | typeBM => exact absurd rfl hBM
  | type2232C =>
      obtain rfl := Option.some.inj hlocation
      exact hspecific.chip
  | typeR => exact absurd hlocation nofun
  | type2232H =>
      obtain rfl := Option.some.inj hlocation
      exact hspecific.toKeptH.chip
  | type4232H =>
      obtain rfl := Option.some.inj hlocation
      exact hspecific.toKeptH.chip
  | type232H =>
      obtain rfl := Option.some.inj hlocation
      exact hspecific.chip
  | type230X => exact absurd hlocation nofun

theorem chipTypeLocation_range {location : ℕ} (h : chipTypeLocation type = some location) :
    location % 2 = 0 ∧ location < 0x100 ∧ type ≠ .typeR ∧ type ≠ .type230X := by
  cases type with
  | typeAM | typeR | type230X => exact absurd h nofun
  | typeBM | type2232C | type2232H | type4232H | type232H =>
      obtain rfl := Option.some.inj h
      decide

/-- A low byte that says that an EEPROM is large. -/
theorem toUInt8_of_and {v : UInt16} (h : v &&& 0xff = 0x66) : v.toUInt8 = 0x66 := by
  have hlow : (v &&& 0xff).toUInt8 = v.toUInt8 := by
    rw [UInt16.toUInt8_and]
    exact UInt8.and_neg_one
  rw [← hlow, h]
  rfl

/-! ## Writing -/

/-- **A device that shows an image.** -/
structure Showing (type : ChipType) (count : ℕ) (works : σ → Prop) (words : σ → ℕ → UInt16)
    (out : Image) (s : Programmer σ) : Prop where
  usbDev : s.usbDev = true
  chip : s.type = type
  works : works s.world
  shown : shown (words s.world) count = out

/-- What an image has to say of the device that it is on. -/
def Honest (type : ChipType) (count : ℕ) (out : Image) : Prop :=
  ∀ location, chipTypeLocation type = some location → out.get location = 0x66 → count = 0x100

theorem ImageOf.honest (h : ImageOf type e n out) (hfitting : Fitting type n) (hsize : e.size = n)
    (hfit : StringsFit type e) (hsane : Sane e) (hBM : type ≠ .typeBM)
    (hchip : e.chip = detected type count)
    (hcount : type ≠ .typeR → type ≠ .type230X → External count) : Honest type count out := by
  intro location hlocation hbyte
  obtain ⟨-, -, hR, hX⟩ := chipTypeLocation_range hlocation
  have hmark := h.chipByte hfitting hsize hfit hsane hBM hlocation
  rw [hbyte, hchip, detected, if_neg (by rintro (hno | hno) <;> contradiction)] at hmark
  rcases hcount hR hX with rfl | rfl | rfl
  · exact absurd hmark (by decide)
  · exact absurd hmark (by decide)
  · rfl

/-- A word behind the image is not shown. -/
theorem shown_update {f : ℕ → UInt16} {a : ℕ} {v : UInt16} (hlow : 0x80 ≤ a) (hhigh : a < 0x100) :
    shown (Function.update f (a % 0x100) v) 0x100 = shown f 0x100 := by
  refine Cells.ext_get fun b hb => get_shown_congr hb hb rfl ?_
  exact Function.update_of_ne (by omega) _ _

/-- **One word behind the image.** -/
theorem writeLocation_ends (hlaws : DeviceLaws pipe type count works words)
    (hhonest : Honest type count out) {s : Programmer σ} (h : Showing type count works words out s)
    {a : ℕ} (ha : a < 0x100) (v : UInt16) :
    Ends (ftdiWriteEepromLocation pipe a v) (fun _ t => Showing type count works words out t)
      (fun _ t => Showing type count works words out t) s := by
  obtain ⟨hdev, rfl, hworks, hshown⟩ := h
  have hnoted : ∀ (s' : Programmer σ) (text : String), Showing s.type count works words out s' →
      Showing s.type count works words out { s' with errorStr := text } :=
    fun _ _ hs => ⟨hs.usbDev, hs.chip, hs.works, hs.shown⟩
  have hself : Showing s.type count works words out s := ⟨hdev, rfl, hworks, hshown⟩
  unfold ftdiWriteEepromLocation
  simp only [ends_bind, ends_look]
  rw [if_neg (by rw [hdev]; decide), ends_ite]
  refine ⟨fun _ => hnoted s _ hself, fun hlow => ?_⟩
  rcases hlocation : chipTypeLocation s.type with _ | location
  · exact hnoted s _ hself
  · obtain ⟨heven, hrange, hR, hX⟩ := chipTypeLocation_range hlocation
    have hhalf : location >>> 1 = location / 2 := Nat.shiftRight_eq_div_pow location 1
    simp only [ends_bind, hhalf]
    refine (readLocation_after hlaws hdev hworks (by omega)).rescue.ends.mono ?_ fun _ _ hno => hno
    rintro _ _ ⟨rfl, w, hw, hwords, rfl⟩
    have hread : Showing s.type count works words out { s with world := w } :=
      ⟨hdev, rfl, hw, by rw [hwords]; exact hshown⟩
    rw [ends_ite]
    refine ⟨fun _ => hnoted _ _ hread, fun hlarge => ?_⟩
    -- the write is only made where the image says that the EEPROM is large,
    -- and there it is
    have hbyte : out.get location = 0x66 := by
      have haddr : location / 2 * 2 = location := by omega
      rw [← hshown, ← haddr, get_shown_low (by omega)]
      exact toUInt8_of_and (not_not.mp hlarge)
    -- so the word is one behind all that is shown
    obtain rfl := hhonest location hlocation hbyte
    obtain ⟨hret, hworks', hwords'⟩ := hlaws.write w a v hw ha fun hno => absurd hno hX
    have hwritten : Showing s.type 0x100 works words out
        { s with world := (pipe.controlOut sioWriteEepromRequest v.toNat a w).2 } :=
      ⟨hdev, rfl, hworks', by rw [hwords', shown_update (by omega) ha]; exact hread.shown⟩
    simp only [ends_bind, controlOut, ends_ask]
    rw [ends_ite]
    exact ⟨fun _ => hnoted _ _ hwritten, fun _ => hwritten⟩

theorem readLocation_comesBack (i : ℕ) : ComesBack (ftdiReadEepromLocation pipe i) := by
  unfold ftdiReadEepromLocation errorJob
  exact .bind .look fun _ => .ite (.bind .alter fun _ => .raise)
    (.bind .ask fun _ => .ite (.bind .alter fun _ => .raise) .pure)

theorem writeLocation_comesBack (a : ℕ) (v : UInt16) :
    ComesBack (ftdiWriteEepromLocation pipe a v) := by
  unfold ftdiWriteEepromLocation errorJob
  refine .bind .look fun s => .ite (.bind .alter fun _ => .raise)
    (.ite (.bind .alter fun _ => .raise) ?_)
  split
  · exact .bind .alter fun _ => .raise
  · refine .bind ((readLocation_comesBack _).rescue fun _ => .bind .alter fun _ => .raise)
      fun _ => ?_
    exact .ite (.bind .alter fun _ => .raise)
      (.bind .ask fun _ => .ite (.bind .alter fun _ => .raise) .pure)

/-- Write some words, whether the writes succeed or not. -/
def writeLocations (pipe : Pipe σ) (calls : List (ℕ × UInt16)) : Job σ Unit :=
  each calls fun c => rescue (ftdiWriteEepromLocation pipe c.1 c.2) fun _ => pure ()

/-- **Words behind the image.** -/
theorem writeLocations_after (hlaws : DeviceLaws pipe type count works words)
    (hhonest : Honest type count out) : ∀ (calls : List (ℕ × UInt16)) {s : Programmer σ},
      (∀ c ∈ calls, c.1 < 0x100) → Showing type count works words out s →
        After (writeLocations pipe calls) (fun _ t => Showing type count works words out t) s
  | [], s, _, h => ⟨(), s, rfl, h⟩
  | c :: calls, s, hcalls, h => by
      have hone : After (rescue (ftdiWriteEepromLocation pipe c.1 c.2) fun _ => pure ())
          (fun _ t => Showing type count works words out t) s := by
        refine Ends.after ?_ ((writeLocation_comesBack c.1 c.2).rescue fun _ => .pure)
        rw [ends_rescue]
        exact (writeLocation_ends hlaws hhonest h (hcalls c List.mem_cons_self) c.2).mono
          (fun _ _ ht => ht) fun _ _ ht => ht
      exact hone.bind fun _ _ ht => writeLocations_after hlaws hhonest calls
        (fun d hd => hcalls d (List.mem_cons_of_mem c hd)) ht

/-- **The image of a programmed device is safe** from all writes behind it: after
any of them, whoever reads the device still finds what it was programmed
with. -/
theorem locations_harmless {s : Programmer σ}
    (hlaws : DeviceLaws pipe s.type count works words) (hdev : s.usbDev = true)
    (hworks : works s.world) (hsuits : Suits s.type count n s.eeprom)
    (hfit : StringsFit s.type s.eeprom) (huser : UserDataFits s.type n s.eeprom)
    (hsane : Sane s.eeprom) (hguess : Guessable s.type n s.eeprom) (hBM : s.type ≠ .typeBM)
    {calls : List (ℕ × UInt16)} (hcalls : ∀ c ∈ calls, c.1 < 0x100) :
    After (do
      ftdiEraseEeprom pipe
      let _ ← ftdiEepromBuild pipe
      ftdiWriteEeprom pipe
      writeLocations pipe calls) (fun _ t => works t.world ∧
        Finds pipe s.type { s.eeprom with chip := detected s.type count, size := n } n
          t.world) s := by
  obtain ⟨hfitting, -, -⟩ := hsuits.fitting
  have hprogram := programmed_after hlaws hdev hworks hsuits hfit huser
  have hsane' : Sane { s.eeprom with chip := detected s.type count, size := n } :=
    ⟨hsane.drive0, hsane.drive1, hsane.drive2, hsane.drive3, hsane.cbus⟩
  have hall := hprogram.bind fun _ t ⟨ht, htdev, httype, himage⟩ =>
    (writeLocations_after hlaws (himage.honest hfitting rfl hfit hsane' hBM rfl
      fun hR hX => (hsuits.external hR hX).1) calls hcalls ⟨htdev, httype, ht, rfl⟩).mono
        (fun _ u (hu : Showing _ _ _ _ _ u) =>
          (⟨hu.works, hsuits.finds hlaws hfit hsane hguess hu.works (hu.shown.symm ▸ himage)⟩ :
            works u.world ∧ Finds pipe s.type
              { s.eeprom with chip := detected s.type count, size := n } n u.world))
  simpa only [bind_bind] using hall

theorem locations_harmless_sample :
    After (do
      ftdiEraseEeprom (memoryPipe 0x100)
      let _ ← ftdiEepromBuild (memoryPipe 0x100)
      ftdiWriteEeprom (memoryPipe 0x100)
      writeLocations (memoryPipe 0x100) [(0x90, 7), (3, 1)]) (fun _ t => True ∧
        Finds (memoryPipe 0x100) .type2232H
          { adapter with chip := detected .type2232H 0x100, size := (0x100 : ℕ) } 0x100 t.world)
      { adapterContext (fun _ : ℕ => (0xffff : UInt16)) with type := .type2232H } :=
  locations_harmless (n := 0x100)
    (s := { adapterContext (fun _ : ℕ => (0xffff : UInt16)) with type := .type2232H })
    (memoryPipe_laws _ _) rfl trivial
    ⟨fun _ _ => ⟨.inr (.inr rfl), rfl, rfl⟩, nofun, nofun⟩ (by unfold StringsFit; decide)
    (fun userData hdata _ => by
      obtain rfl := Option.some.inj hdata
      decide)
    ⟨by decide, by decide, by decide, by decide, by decide⟩
    (fun _ => ⟨fun ⟨_, _, _, _, h⟩ => absurd h (by decide), fun ⟨_, _, _, _, h⟩ =>
      absurd h (by decide)⟩)
    (by decide) (by decide)

end Ftdi

end SgFtdi
