import SgFtdi.Eeprom.Decode

/-!
# The checksum of an image

A word is taken into the checksum by an operation that can be undone, on
the word and on the checksum. So two images that differ in one word that
is part of the checksum have different ones, and the damage of one word is
always noticed.
-/

namespace SgFtdi

section Fold

variable {α β : Type} {f : β → α → β}

end Fold

namespace Ftdi

open Prog

variable {σ : Type} {pipe : Pipe σ}

/-! ## One word -/

/-- The words that are part of a checksum. -/
def checksumWords (type : ChipType) (bound : ℕ) : ℕ → ℕ → List ℕ
  | 0, _ => []
  | turns + 1, i =>
      if i < bound then
        let i := if type = .type230X ∧ i = 0x12 then 0x40 else i
        i :: checksumWords type bound turns (i + 1)
      else []

/-- Take some words of an image into a checksum. -/
def mixWords (buf : Image) (words : List ℕ) (checksum : UInt16) : UInt16 :=
  (words.map (wordAt buf)).foldl mix checksum

theorem decodeChecksum_eq (type : ChipType) (bound : ℕ) (buf : Image) :
    ∀ (turns i : ℕ) (checksum : UInt16), decodeChecksum type bound buf turns i checksum =
      mixWords buf (checksumWords type bound turns i) checksum
  | 0, _, _ => rfl
  | turns + 1, i, checksum => by
      unfold decodeChecksum checksumWords
      by_cases h : i < bound
      · rw [if_pos h, if_pos h]
        exact decodeChecksum_eq type bound buf turns _ _
      · rw [if_neg h, if_neg h]
        rfl

/-- The words are below the bound, but for the one that is jumped to. -/
theorem lt_of_mem_checksumWords {type : ChipType} {bound : ℕ} :
    ∀ {turns i k : ℕ}, k ∈ checksumWords type bound turns i →
      k < bound ∨ type = .type230X ∧ k = 0x40
  | 0, _, _, h => absurd h List.not_mem_nil
  | turns + 1, i, k, h => by
      unfold checksumWords at h
      split at h
      · next hi =>
        rcases List.mem_cons.mp h with rfl | h
        · split
          · next htype => exact .inr ⟨htype.1, rfl⟩
          · exact .inl hi
        · exact lt_of_mem_checksumWords h
      · exact absurd h List.not_mem_nil

theorem mixWords_congr {buf buf' : Image} {words : List ℕ} (checksum : UInt16)
    (h : ∀ k ∈ words, wordAt buf k = wordAt buf' k) :
    mixWords buf words checksum = mixWords buf' words checksum := by
  rw [mixWords, mixWords, List.map_congr_left h]

/-- An image as the device has it: on a 230X, with the section of the
factory. -/
def withFactory (type : ChipType) (factory buf : Image) : Image :=
  if type = .type230X then buf.write 0x80 (factory.read 0x80 0x20) else buf

theorem get_withFactory_of_out {type : ChipType} {factory buf : Image} {a : ℕ}
    (h : type = .type230X → a < 0x80 ∨ 0xa0 ≤ a) :
      (withFactory type factory buf).get a = buf.get a := by
  unfold withFactory
  split
  · next htype =>
    have hout := h htype
    exact Cells.get_write_of_out (by rw [Cells.length_read]; omega)
  · rfl

theorem get_withFactory {type : ChipType} {factory buf : Image} {a : ℕ} (htype : type = .type230X)
    (hlow : 0x80 ≤ a) (hhigh : a < 0xa0) :
      (withFactory type factory buf).get a = factory.get a := by
  unfold withFactory
  obtain ⟨d, rfl⟩ := Nat.exists_eq_add_of_le hlow
  rw [if_pos htype, Cells.get_write (by omega) (by rw [Cells.length_read]; omega)]
  simp only [Cells.read, List.getElem_map, List.getElem_range]

/-- **The section of the factory** of an image is what the device gives,
while `I` holds of the device: a read keeps that. -/
def FactoryIn (pipe : Pipe σ) (I : σ → Prop) (factory : Image) : Prop :=
  ∀ w, I w → ∀ i, 0x40 ≤ i → i < 0x50 →
    (pipe.controlIn sioReadEepromRequest 0 i 2 w).1 =
        (2, [factory.get (i * 2), factory.get (i * 2 + 1)]) ∧
      I (pipe.controlIn sioReadEepromRequest 0 i 2 w).2

/-- What a device that is asked for a word must be. -/
def Asked (pipe : Pipe σ) (I : σ → Prop) (type : ChipType) (factory : Image) (s : Programmer σ) :
    Prop :=
  type = .type230X → s.usbDev = true ∧ I s.world ∧ FactoryIn pipe I factory

/-- A word of the factory is read. -/
theorem readEepromLocation_factory {I : σ → Prop} {factory : Image} {s : Programmer σ}
    (hdev : s.usbDev = true) (hI : I s.world) (hin : FactoryIn pipe I factory) {i : ℕ}
    (hlow : 0x40 ≤ i) (hhigh : i < 0x50) :
    After (ftdiReadEepromLocation pipe i) (fun v t => v = wordAt factory i ∧
      ∃ w, I w ∧ t = { s with world := w }) s := by
  obtain ⟨hdata, hI'⟩ := hin s.world hI i hlow hhigh
  unfold ftdiReadEepromLocation
  rw [after_look_bind, if_neg (by rw [hdev]; decide), after_ask_bind]
  simp only [hdata]
  rw [if_neg (by decide), after_pure]
  exact ⟨rfl, _, hI', rfl⟩

/-- **The checksum that is written** is the one that is found again in the
image as the device has it. -/
theorem buildChecksum_eq {I : σ → Prop} {factory : Image} (type : ChipType) (bound : ℕ) :
    ∀ (turns i : ℕ) (checksum : UInt16) {s : Programmer σ}, Asked pipe I type factory s →
      After (buildChecksum pipe type bound turns i checksum) (fun c t =>
        c = mixWords (withFactory type factory s.eeprom.buf) (checksumWords type bound turns i)
            checksum ∧
          ∃ w, (I s.world → I w) ∧ t = { s with world := w }) s
  | 0, _, _, s, _ => ⟨_, s, rfl, rfl, s.world, id, rfl⟩
  | turns + 1, i, checksum, s, h => by
      unfold buildChecksum checksumWords
      rw [after_ite]
      refine ⟨fun hi => ?_, fun hi => ?_⟩
      · rw [if_pos hi]
        simp only []
        generalize (if type = .type230X ∧ i = 0x12 then 0x40 else i) = k
        have hrest : ∀ {t : Programmer σ}, (∃ w, (I s.world → I w) ∧ t = { s with world := w }) →
            Asked pipe I type factory t → After (buildChecksum pipe type bound turns (k + 1)
              (mix checksum (wordAt (withFactory type factory s.eeprom.buf) k))) (fun c u =>
                c = mixWords (withFactory type factory s.eeprom.buf)
                    (k :: checksumWords type bound turns (k + 1)) checksum ∧
                  ∃ w, (I s.world → I w) ∧ u = { s with world := w }) t := by
          rintro _ ⟨w, hw, rfl⟩ ht
          exact (buildChecksum_eq type bound turns (k + 1) _ ht).mono
            fun _ _ ⟨hc, w', hw', hu⟩ => ⟨hc, w', fun h => hw' (hw h), hu⟩
        rw [after_ite]
        refine ⟨fun hfactory => ?_, fun hother => ?_⟩
        · -- a word of the reserved section: the device is asked for it
          obtain ⟨htype, hlow, hhigh⟩ := hfactory
          obtain ⟨hdev, hI, hin⟩ := h htype
          have hword : wordAt (withFactory type factory s.eeprom.buf) k = wordAt factory k := by
            rw [wordAt, wordAt, get_withFactory htype (by omega) (by omega),
              get_withFactory htype (by omega) (by omega)]
          have hread : After (Prog.rescue (do
              let data ← ftdiReadEepromLocation pipe k
              pure (some data)) fun _ => pure none) (fun data t =>
                data = some (wordAt factory k) ∧ ∃ w, I w ∧ t = { s with world := w }) s := by
            refine ((readEepromLocation_factory hdev hI hin hlow hhigh).bind
              fun v t ht => ?_).rescue
            rw [after_pure, ht.1]
            exact ⟨rfl, ht.2⟩
          refine hread.bind ?_
          rintro _ _ ⟨rfl, w, hw, rfl⟩
          rw [hword] at hrest
          exact hrest ⟨w, fun _ => hw, rfl⟩ fun _ => ⟨hdev, hw, hin⟩
        · -- any other word is read from the image that was built
          have hword : wordAt (withFactory type factory s.eeprom.buf) k =
            wordAt s.eeprom.buf k := by
            rw [wordAt, wordAt, get_withFactory_of_out fun htype => ?_,
              get_withFactory_of_out fun htype => ?_]
            all_goals
              have hout : ¬(0x40 ≤ k ∧ k < 0x50) := fun hk => hother ⟨htype, hk⟩
              omega
          rw [after_look_bind]
          rw [hword] at hrest
          exact hrest ⟨s.world, id, rfl⟩ h
      · rw [if_neg hi, after_pure]
        exact ⟨rfl, s.world, id, rfl⟩

end Ftdi

end SgFtdi
