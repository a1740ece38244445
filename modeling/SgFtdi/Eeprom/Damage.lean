import SgFtdi.Eeprom.RoundTrip

/-!
# A damaged image is refused

The checksum covers each word of an image, but for the user's section of a
230X. An image that differs in one of these words from one that is
accepted is refused, and the fields that only some chips have are left as
they were.
-/

namespace SgFtdi

namespace Ftdi

open Prog

variable {σ τ : Type} {type : ChipType} {n : ℕ}

/-- A string reaches outside of the image. -/
def Outside (buf : Image) (size : ℤ) (offset length : ℕ) : Prop :=
  (buf.get length).toNat / 2 > 1 ∧ 2 * ((buf.get length).toNat / 2 - 2) +
    (buf.get offset &&& sizeMask size).toNat + 2 ≥ 0x100

/-- All strings are inside of the image. -/
def Inside (buf : Image) (size : ℤ) : Prop :=
  ¬ Outside buf size 0x0E 0x0F ∧ ¬ Outside buf size 0x10 0x11 ∧ ¬ Outside buf size 0x12 0x13

/-- What a refused image leaves: the fields that all chips have, and maybe
strings. -/
def Refused (s t : Programmer σ) : Prop :=
  ∃ m p r text, t = { s with
    eeprom := { decodeHeader s.eeprom.buf s.eeprom with
      manufacturer := m
      product := p
      serial := r }
    errorStr := text }

/-- The word `k` of the image is not what it was. -/
structure Damaged (k : ℕ) (buf buf' : Image) : Prop where
  word : wordAt buf k ≠ wordAt buf' k
  rest : ∀ a, a / 2 ≠ k → buf.get a = buf'.get a

variable {buf buf' : Image} {k : ℕ}

theorem Damaged.wordAt (h : Damaged k buf buf') {j : ℕ} (hj : j ≠ k) :
    wordAt buf j = wordAt buf' j := by
  rw [Ftdi.wordAt, Ftdi.wordAt, h.rest _ (by omega), h.rest _ (by omega)]

/-- Where the strings are is not what is damaged. -/
theorem Damaged.inside {size : ℤ} (h : Damaged k buf buf') (hk : k < 7 ∨ 9 < k)
    (hin : Inside buf size) : Inside buf' size := by
  have hout : ∀ {offset length : ℕ}, 7 ≤ offset / 2 → offset / 2 ≤ 9 → 7 ≤ length / 2 →
      length / 2 ≤ 9 → ¬ Outside buf size offset length → ¬ Outside buf' size offset length := by
    intro offset length ho ho' hl hl' hno
    unfold Outside at hno ⊢
    rwa [← h.rest length (by omega), ← h.rest offset (by omega)]
  obtain ⟨hm, hp, hs⟩ := hin
  exact ⟨hout (by decide) (by decide) (by decide) (by decide) hm,
    hout (by decide) (by decide) (by decide) (by decide) hp,
    hout (by decide) (by decide) (by decide) (by decide) hs⟩

end Ftdi

end SgFtdi
