import Mathlib.Algebra.Ring.Nat
import Mathlib.Algebra.Ring.Int.Defs
import Mathlib.Tactic.Ring

/-!
# Chips and baud rates

The kinds of chips, which the library guesses from the release number of a
device. A chip divides its clock by a number with three fractional bits,
and the library finds the divisor for a rate, encodes it into the two
values of a request, and sends it if the rate the chip will have is near
enough.

Divisors are counted in eighths. `chipDivisor` and `chipClock` are how a
chip reads the two values, as the comments of the code describe it.
-/

namespace SgFtdi

namespace Ftdi

/-- An `int` after an operation that may have left its range. -/
def wrapInt (x : ℤ) : ℤ := Int.bmod x (2 ^ 32)

/-! ## The chips -/

/-- `ftdi_chip_type`. -/
inductive ChipType where
  | typeAM
  | typeBM
  | type2232C
  | typeR
  | type2232H
  | type4232H
  | type232H
  | type230X
deriving DecidableEq, Repr

/-- The chips that have the faster clock and the longer packets. -/
def ChipType.highSpeed : ChipType → Bool
  | .type2232H | .type4232H | .type232H => true
  | _ => false

/-- The chip type that is guessed for a device, if there is a guess. The
release number of a BM chip without a serial number is that of an AM
chip. -/
def guessChipType (bcdDevice iSerialNumber : Nat) : Option ChipType :=
  if bcdDevice = 0x400 ∨ (bcdDevice = 0x200 ∧ iSerialNumber = 0) then some .typeBM
  else if bcdDevice = 0x200 then some .typeAM
  else if bcdDevice = 0x500 then some .type2232C
  else if bcdDevice = 0x600 then some .typeR
  else if bcdDevice = 0x700 then some .type2232H
  else if bcdDevice = 0x800 then some .type4232H
  else if bcdDevice = 0x900 then some .type232H
  else if bcdDevice = 0x1000 then some .type230X
  else none

/-! ## The code -/

/-- `frac_code`. -/
def fracCode (fraction : ℕ) : ℕ := [0, 3, 2, 4, 1, 5, 6, 7].getD fraction 0

/-- `am_adjust_up`. -/
def amAdjustUp (fraction : ℕ) : ℕ := [0, 0, 0, 1, 0, 3, 2, 1].getD fraction 0

/-- `am_adjust_dn`. -/
def amAdjustDn (fraction : ℕ) : ℕ := [0, 0, 0, 1, 0, 1, 2, 3].getD fraction 0

/-- The encoding of a divisor in eighths. -/
def encodeDivisor (divisor : ℕ) : ℕ := divisor >>> 3 ||| fracCode (divisor &&& 7) <<< 14

/-- A divisor that an AM chip has, at or above `divisor + i`. -/
def amTryDivisor (divisor i : ℕ) : ℕ :=
  let tryDivisor := divisor + i
  if tryDivisor ≤ 8 then 8
  else if divisor < 16 then 16
  else
    let tryDivisor := tryDivisor + amAdjustUp (tryDivisor &&& 7)
    if tryDivisor > 0x1FFF8 then 0x1FFF8 else tryDivisor

/-- The rate of a divisor, to the nearest integer. -/
def amEstimate (tryDivisor : ℕ) : ℕ := (24000000 + tryDivisor / 2) / tryDivisor

/-- How far one rate is from another. -/
def baudDiff (estimate baudrate : ℕ) : ℕ :=
  if estimate < baudrate then baudrate - estimate else estimate - baudrate

/-- The divisor that an AM chip is given, of the two that are tried. -/
def amBestDivisor (baudrate : ℕ) : ℕ :=
  let divisor := 24000000 / baudrate
  let divisor := divisor - amAdjustDn (divisor &&& 7)
  let first := amTryDivisor divisor 0
  let second := amTryDivisor divisor 1
  -- the first one is kept if it is spot on
  if baudDiff (amEstimate first) baudrate = 0 then first
  else if baudDiff (amEstimate second) baudrate < baudDiff (amEstimate first) baudrate then second
  else first

/-- `ftdi_to_clkbits_AM`: the rate and the encoded divisor. -/
def ftdiToClkbitsAM (baudrate : ℕ) : ℕ × ℕ :=
  let bestDivisor := amBestDivisor baudrate
  let encodedDivisor := encodeDivisor bestDivisor
  (amEstimate bestDivisor,
    if encodedDivisor = 1 then 0 else if encodedDivisor = 0x4001 then 1 else encodedDivisor)

/-- `ftdi_to_clkbits`: the rate and the encoded divisor. -/
def ftdiToClkbits (baudrate clk clkDiv : ℕ) : ℕ × ℕ :=
  if baudrate ≥ clk / clkDiv then (clk / clkDiv, 0)
  else if baudrate ≥ clk / (clkDiv + clkDiv / 2) then (clk / (clkDiv + clkDiv / 2), 1)
  else if baudrate ≥ clk / (2 * clkDiv) then (clk / (2 * clkDiv), 2)
  else
    let divisor := clk * 16 / clkDiv / baudrate
    let bestDivisor := if divisor % 2 = 1 then divisor / 2 + 1 else divisor / 2
    let bestDivisor := if bestDivisor > 0x20000 then 0x1ffff else bestDivisor
    let bestBaud := clk * 16 / clkDiv / bestDivisor
    (if bestBaud % 2 = 1 then bestBaud / 2 + 1 else bestBaud / 2, encodeDivisor bestDivisor)

/-- `H_CLK`. -/
def hClk : ℕ := 120000000

/-- `C_CLK`. -/
def cClk : ℕ := 48000000

/-- The rate and the encoded divisor of a chip. -/
def encodedBaudrate (type : ChipType) (baudrate : ℤ) : ℕ × ℕ :=
  if type.highSpeed then
    if wrapInt (baudrate * 10) > ((hClk / 0x3fff : ℕ) : ℤ) then
      let clkbits := ftdiToClkbits baudrate.toNat hClk 10
      (clkbits.1, clkbits.2 ||| 0x20000)
    else ftdiToClkbits baudrate.toNat cClk 16
  else if type = .typeAM then ftdiToClkbitsAM baudrate.toNat
  else ftdiToClkbits baudrate.toNat cClk 16

/-- `ftdi_convert_baudrate`: the rate, and the value and the index of the
request for it. -/
def ftdiConvertBaudrate (type : ChipType) (ftdiIndex : ℕ) (baudrate : ℤ) : Option (ℕ × ℕ × ℕ) :=
  if baudrate ≤ 0 then none
  else
    let encoded := encodedBaudrate type baudrate
    let value := encoded.2 &&& 0xFFFF
    let index :=
      if type.highSpeed then (encoded.2 >>> 8 &&& 0xFF00) ||| ftdiIndex else encoded.2 >>> 16
    some (encoded.1, value, index % 2 ^ 16)

/-- The part of a `ftdi_context` that sets the rate, with the requests that
were sent: the number, the value and the index of each. -/
structure Serial (σ : Type) where
  usbDev : Bool
  type : ChipType
  index : ℕ
  bitbangEnabled : Bool
  baudrate : ℤ
  errorStr : String
  requests : List (ℕ × ℕ × ℕ)
  world : σ
deriving DecidableEq, Repr

/-- `SIO_SET_BAUDRATE_REQUEST`. -/
def sioSetBaudrateRequest : ℕ := 3

variable {σ : Type}

/-- `ftdi_set_baudrate`, where the system answers a control transfer. -/
def ftdiSetBaudrate (controlTransfer : ℕ × ℕ × ℕ → σ → ℤ × σ) (baudrate : ℤ) (s : Serial σ) :
    ℤ × Serial σ :=
  if s.usbDev = false then (-3, { s with errorStr := "USB device unavailable" })
  else
    let baudrate := if s.bitbangEnabled then wrapInt (baudrate * 4) else baudrate
    match ftdiConvertBaudrate s.type s.index baudrate with
    | none => (-1, { s with errorStr := "Silly baudrate <= 0." })
    | some (actual, value, index) =>
        let actual : ℤ := actual
        if actual ≤ 0 then (-1, { s with errorStr := "Silly baudrate <= 0." })
        else if actual * 2 < baudrate ∨
            (if actual < baudrate then actual * 21 < baudrate * 20
              else baudrate * 21 < actual * 20) then
          (-1, { s with
            errorStr := "Unsupported baudrate. Note: bitbang baudrates are automatically " ++
              "multiplied by 4" })
        else
          let answer := controlTransfer (sioSetBaudrateRequest, value, index) s.world
          let s := { s with
            requests := s.requests ++ [(sioSetBaudrateRequest, value, index)]
            world := answer.2 }
          if answer.1 < 0 then (-2, { s with errorStr := "Setting new baudrate failed" })
          else (0, { s with baudrate })

/-! ## How a chip reads a request -/

/-- The eighths that a code stands for. -/
def codeFrac (code : ℕ) : ℕ := [0, 4, 2, 1, 3, 5, 6, 7].getD code 0

/-- **The divisor a chip reads**, in eighths: 14 bits and the code of a
fraction, where 0 stands for 1 and 1 for 1.5. -/
def chipDivisor (type : ChipType) (value index : ℕ) : ℕ :=
  let high := if type.highSpeed then index / 0x100 % 2 else index % 2
  let code := value / 0x4000 + 4 * high
  let whole := value % 0x4000
  if whole = 0 ∧ code = 0 then 8
  else if whole = 1 ∧ code = 0 then 12
  else 8 * whole + codeFrac code

/-- **The clock a chip divides**, for a divisor in eighths. -/
def chipClock (type : ChipType) (index : ℕ) : ℕ :=
  if type.highSpeed ∧ index / 0x200 % 2 = 1 then 96000000 else 24000000

/-- The divisors that a chip has. -/
def Supported (type : ChipType) (divisor : ℕ) : Prop :=
  if type = .typeAM then
    divisor = 8 ∨ (16 ≤ divisor ∧ divisor ≤ 0x1FFF8 ∧ divisor % 8 ∈ [0, 1, 2, 4])
  else divisor = 8 ∨ divisor = 12 ∨ (16 ≤ divisor ∧ divisor ≤ 0x1FFFF)

/-- A rate is a quotient to the nearest integer. -/
def Nearest (clock divisor rate : ℕ) : Prop :=
  2 * rate * divisor ≤ 2 * clock + divisor ∧ 2 * clock < (2 * rate + 1) * divisor

/-! ## The encoding of a divisor -/

/-- The code of a fraction. -/
theorem codeFrac_fracCode : ∀ fraction < 8, codeFrac (fracCode fraction) = fraction := by decide

theorem fracCode_lt : ∀ fraction < 8, fracCode fraction < 8 := by decide

theorem encodeDivisor_eq {divisor : ℕ} (h : divisor < 0x20000) :
    encodeDivisor divisor = divisor / 8 + 0x4000 * fracCode (divisor % 8) := by
  have hand : divisor &&& 7 = divisor % 8 := Nat.and_two_pow_sub_one_eq_mod divisor 3
  have hlt : divisor / 8 < 2 ^ 14 := by omega
  rw [encodeDivisor, hand, Nat.shiftRight_eq_div_pow, Nat.or_comm,
    ← Nat.shiftLeft_add_eq_or_of_lt hlt, Nat.shiftLeft_eq]
  omega

theorem and_high_byte : ∀ x < 0x400, x &&& 0xFF00 = 0x100 * (x / 0x100) := by decide +kernel

/-- A divisor is read off the code it was encoded to. -/
theorem chipDivisor_of {type : ChipType} {encoded value index : ℕ}
    (hcode : value / 0x4000 + 4 * (if type.highSpeed then index / 0x100 % 2 else index % 2) =
      encoded / 0x4000) (hwhole : value % 0x4000 = encoded % 0x4000) :
    chipDivisor type value index =
      if encoded = 0 then 8 else if encoded = 1 then 12
        else 8 * (encoded % 0x4000) + codeFrac (encoded / 0x4000) := by
  have h0 : (encoded % 0x4000 = 0 ∧ encoded / 0x4000 = 0) ↔ encoded = 0 := by omega
  have h1 : (encoded % 0x4000 = 1 ∧ encoded / 0x4000 = 0) ↔ encoded = 1 := by omega
  simp only [chipDivisor, hcode, hwhole, h0, h1]

/-- **What the two values are read as**: an encoded divisor, and for the
faster chips a bit for the clock. -/
theorem chip_reads {type : ChipType} {encoded fast idx value index : ℕ} (he : encoded < 0x20000)
    (hidx : idx < 0x100) (hfast : fast < 2) (hslow : type.highSpeed = false → fast = 0)
    (hvalue : value = (encoded + 0x20000 * fast) &&& 0xFFFF)
    (hindex : index = (if type.highSpeed then ((encoded + 0x20000 * fast) >>> 8 &&& 0xFF00) ||| idx
      else (encoded + 0x20000 * fast) >>> 16) % 2 ^ 16) :
    chipDivisor type value index =
        (if encoded = 0 then 8 else if encoded = 1 then 12
          else 8 * (encoded % 0x4000) + codeFrac (encoded / 0x4000)) ∧
      chipClock type index = (if fast = 1 then 96000000 else 24000000) ∧ value < 0x10000 ∧
      index < 0x10000 ∧ (type.highSpeed = true → index % 0x100 = idx) ∧
      (type.highSpeed = false → index = encoded / 0x10000) := by
  have hval : value = encoded % 0x10000 := by
    rw [hvalue, Nat.and_two_pow_sub_one_eq_mod _ 16]
    omega
  rcases htype : type.highSpeed
  · -- the index has the last bit of the divisor alone
    obtain rfl := hslow htype
    have hidx' : index = encoded / 0x10000 := by
      rw [hindex, htype, if_neg (by decide), Nat.shiftRight_eq_div_pow]
      omega
    refine ⟨chipDivisor_of ?_ (by omega), ?_, by omega, by omega, nofun, fun _ => hidx'⟩
    · rw [htype, if_neg (by decide)]
      omega
    · rw [chipClock, htype]
      rfl
  · -- the index has the high bits of the divisor above the port
    have hsmall : (encoded + 0x20000 * fast) / 2 ^ 8 < 0x400 := by omega
    have hidx' : index = 0x100 * ((encoded + 0x20000 * fast) / 0x10000) + idx := by
      have hor : 0x100 * ((encoded + 0x20000 * fast) / 0x10000) ||| idx =
          0x100 * ((encoded + 0x20000 * fast) / 0x10000) + idx := by
        have hadd := Nat.shiftLeft_add_eq_or_of_lt (show idx < 2 ^ 8 by omega)
          ((encoded + 0x20000 * fast) / 0x10000)
        rw [Nat.shiftLeft_eq, Nat.mul_comm] at hadd
        exact hadd.symm
      have hdiv : (encoded + 0x20000 * fast) / 2 ^ 8 / 0x100 =
          (encoded + 0x20000 * fast) / 0x10000 := by omega
      rw [hindex, htype, if_pos rfl, Nat.shiftRight_eq_div_pow, and_high_byte _ hsmall, hdiv, hor]
      omega
    have hbit : index / 0x100 % 2 = encoded / 0x10000 % 2 := by omega
    have hclock : index / 0x200 % 2 = fast := by omega
    refine ⟨chipDivisor_of ?_ (by omega), ?_, by omega, by omega, fun _ => by omega, nofun⟩
    · rw [htype, if_pos rfl, hbit]
      omega
    · rw [chipClock, htype, hclock]
      simp

/-- **An encoded divisor is read back.** -/
theorem decode_encodeDivisor {divisor : ℕ} (h : divisor < 0x20000) :
    8 * (encodeDivisor divisor % 0x4000) + codeFrac (encodeDivisor divisor / 0x4000) = divisor ∧
      encodeDivisor divisor < 0x20000 ∧ (16 ≤ divisor → 2 ≤ encodeDivisor divisor % 0x4000) := by
  have hfrac := fracCode_lt (divisor % 8) (Nat.mod_lt _ (by decide))
  have hwhole : (divisor / 8 + 0x4000 * fracCode (divisor % 8)) % 0x4000 = divisor / 8 := by omega
  have hcode : (divisor / 8 + 0x4000 * fracCode (divisor % 8)) / 0x4000 =
      fracCode (divisor % 8) := by omega
  rw [encodeDivisor_eq h, hwhole, hcode, codeFrac_fracCode _ (Nat.mod_lt _ (by decide))]
  omega

/-! ## The divisors of the newer chips -/

/-- What a code is read as, in eighths. -/
def decoded (encoded : ℕ) : ℕ :=
  if encoded = 0 then 8 else if encoded = 1 then 12
  else 8 * (encoded % 0x4000) + codeFrac (encoded / 0x4000)

theorem half_up (x : ℕ) : (if x % 2 = 1 then x / 2 + 1 else x / 2) = (x + 1) / 2 := by
  split <;> omega

/-- Half of a rounded down double quotient, rounded up, is the quotient to
the nearest integer. -/
theorem nearest_half_up {clock divisor : ℕ} (h : 0 < divisor) :
    Nearest clock divisor ((2 * clock / divisor + 1) / 2) := by
  have hlow := Nat.div_mul_le_self (2 * clock) divisor
  have hhigh := Nat.lt_mul_div_succ (2 * clock) h
  generalize 2 * clock / divisor = e at hlow hhigh ⊢
  rcases Nat.even_or_odd' e with ⟨k, rfl | rfl⟩
  · have hk : (2 * k + 1) / 2 = k := by omega
    rw [hk, Nearest, Nat.mul_comm (2 * k + 1)]
    exact ⟨by omega, hhigh⟩
  · have hk : (2 * k + 1 + 1) / 2 = k + 1 := by omega
    have hup : (2 * k + 1) * divisor + divisor = 2 * (k + 1) * divisor := by ring
    have hmore : (2 * (k + 1) + 1) * divisor = divisor * (2 * k + 1 + 1) + divisor := by ring
    rw [hk, Nearest]
    omega

/-- What `ftdi_to_clkbits` finds for a clock. -/
structure Clkbits (clock baudrate : ℕ) (res : ℕ × ℕ) : Prop where
  encoded : res.2 < 0x20000
  supported : decoded res.2 = 8 ∨ decoded res.2 = 12 ∨
    (16 ≤ decoded res.2 ∧ decoded res.2 ≤ 0x1FFFF)
  rate : Nearest clock (decoded res.2) res.1

/-- **The divisor that is found** is one that the chip has, and the rate is
that of the divisor. -/
theorem ftdiToClkbits_clkbits {clk clkDiv clock b : ℕ} (hb : 0 < b) (h8 : clk / clkDiv = clock / 8)
    (h12 : clk / (clkDiv + clkDiv / 2) = clock / 12) (h16 : clk / (2 * clkDiv) = clock / 16)
    (hall : clk * 16 / clkDiv = 2 * clock) (hdvd : clock % 48 = 0)
    (hcap : (2 * clock / b + 1) / 2 ≠ 0x20000) :
    Clkbits clock b (ftdiToClkbits b clk clkDiv) := by
  have htwo : decoded 2 = 16 := by decide
  unfold ftdiToClkbits
  rw [h8, h12, h16, hall]
  split
  · refine ⟨Nat.zero_lt_succ _, .inl rfl, ?_⟩
    show Nearest clock 8 (clock / 8)
    rw [Nearest]
    omega
  · split
    · refine ⟨by show 1 < 0x20000; decide, .inr (.inl rfl), ?_⟩
      show Nearest clock 12 (clock / 12)
      rw [Nearest]
      omega
    · split
      · refine ⟨by show 2 < 0x20000; decide, .inr (.inr ?_), ?_⟩
        · show 16 ≤ decoded 2 ∧ decoded 2 ≤ 0x1FFFF
          rw [htwo]
          decide
        · show Nearest clock (decoded 2) (clock / 16)
          rw [htwo, Nearest]
          omega
      · next hslow =>
        -- a rate below that of divisor 2 has a longer one
        have hlong : 32 ≤ 2 * clock / b := by
          rw [Nat.le_div_iff_mul_le hb]
          omega
        simp only [half_up]
        generalize hd : (if (2 * clock / b + 1) / 2 > 0x20000 then 0x1ffff
          else (2 * clock / b + 1) / 2) = d
        have hrange : 16 ≤ d ∧ d ≤ 0x1FFFF := by
          split at hd <;> omega
        obtain ⟨hdec, henc, htwo'⟩ := decode_encodeDivisor (show d < 0x20000 by omega)
        have hread : decoded (encodeDivisor d) = d := by
          have hwhole := htwo' hrange.1
          rw [decoded, if_neg (by omega), if_neg (by omega), hdec]
        refine ⟨henc, ?_, ?_⟩
        · show decoded (encodeDivisor d) = 8 ∨ _
          rw [hread]
          exact .inr (.inr hrange)
        · show Nearest clock (decoded (encodeDivisor d)) _
          rw [hread]
          exact nearest_half_up (by omega)

/-- No rate asks for the one divisor that is not cut to 17 bits. -/
theorem no_long_divisor {b : ℕ} (hb : 0 < b) :
    (2 * 24000000 / b + 1) / 2 ≠ 0x20000 ∧ (2 * 96000000 / b + 1) / 2 ≠ 0x20000 := by
  constructor
  · intro h
    have hlow := Nat.div_mul_le_self (2 * 24000000) b
    have hhigh := Nat.lt_div_mul_add hb (a := 2 * 24000000)
    have hcases : 2 * 24000000 / b = 262143 ∨ 2 * 24000000 / b = 262144 := by omega
    rcases hcases with hd | hd <;> rw [hd] at hlow hhigh <;> omega
  · intro h
    have hlow := Nat.div_mul_le_self (2 * 96000000) b
    have hhigh := Nat.lt_div_mul_add hb (a := 2 * 96000000)
    have hcases : 2 * 96000000 / b = 262143 ∨ 2 * 96000000 / b = 262144 := by omega
    rcases hcases with hd | hd <;> rw [hd] at hlow hhigh <;> omega

theorem clkbits_c {b : ℕ} (hb : 0 < b) : Clkbits 24000000 b (ftdiToClkbits b cClk 16) :=
  ftdiToClkbits_clkbits hb rfl rfl rfl rfl rfl (no_long_divisor hb).1

theorem clkbits_h {b : ℕ} (hb : 0 < b) : Clkbits 96000000 b (ftdiToClkbits b hClk 10) :=
  ftdiToClkbits_clkbits hb rfl rfl rfl rfl rfl (no_long_divisor hb).2

/-! ## The divisors of an AM chip -/

/-- The estimate is the quotient to the nearest integer. -/
theorem nearest_amEstimate {d : ℕ} (hd : 0 < d) : Nearest 24000000 d (amEstimate d) := by
  have hlow := Nat.div_mul_le_self (24000000 + d / 2) d
  have hhigh := Nat.lt_div_mul_add hd (a := 24000000 + d / 2)
  rw [Nearest, amEstimate]
  generalize (24000000 + d / 2) / d = r at hlow hhigh ⊢
  have htwice : 2 * r * d = 2 * (r * d) := Nat.mul_assoc 2 r d
  have hodd : (2 * r + 1) * d = 2 * (r * d) + d := by ring
  rw [hodd, htwice]
  omega

/-- The table takes a fraction up to one that an AM chip has. -/
theorem amAdjustUp_fraction : ∀ fraction < 8,
    (fraction + amAdjustUp fraction) % 8 ∈ [0, 1, 2, 4] := by decide

theorem and_seven (d : ℕ) : d &&& 7 = d % 8 := Nat.and_two_pow_sub_one_eq_mod d 3

theorem supported_amTryDivisor (d i : ℕ) : Supported .typeAM (amTryDivisor d i) := by
  rw [Supported, if_pos rfl]
  unfold amTryDivisor
  simp only [and_seven]
  have hup := amAdjustUp_fraction ((d + i) % 8) (Nat.mod_lt _ (by decide))
  have hsum : (d + i + amAdjustUp ((d + i) % 8)) % 8 =
      ((d + i) % 8 + amAdjustUp ((d + i) % 8)) % 8 := by omega
  rw [← hsum] at hup
  split
  · exact .inl rfl
  · split
    · exact .inr (by decide)
    · split
      · exact .inr (by decide)
      · exact .inr ⟨by omega, by omega, hup⟩

theorem supported_amBestDivisor (b : ℕ) : Supported .typeAM (amBestDivisor b) := by
  unfold amBestDivisor
  simp only []
  split
  · exact supported_amTryDivisor _ _
  · split <;> exact supported_amTryDivisor _ _

/-- **The AM chip's code** is read as the divisor it was given, and needs no
bit in the index. -/
theorem ftdiToClkbitsAM_reads (b : ℕ) :
    (ftdiToClkbitsAM b).2 < 0x10000 ∧ decoded (ftdiToClkbitsAM b).2 = amBestDivisor b := by
  have hs := supported_amBestDivisor b
  rw [Supported, if_pos rfl] at hs
  unfold ftdiToClkbitsAM
  generalize amBestDivisor b = d at hs ⊢
  rcases hs with rfl | ⟨hlow, hhigh, hfrac⟩
  · decide
  · obtain ⟨hdec, henc, htwo⟩ := decode_encodeDivisor (show d < 0x20000 by omega)
    have hwhole := htwo hlow
    have hcode : ∀ f ∈ [0, 1, 2, 4], fracCode f < 4 := by decide
    have hshort := hcode _ hfrac
    have heq := encodeDivisor_eq (show d < 0x20000 by omega)
    simp only
    rw [if_neg (by omega), if_neg (by omega), decoded, if_neg (by omega), if_neg (by omega), hdec]
    exact ⟨by omega, rfl⟩

/-! ## Converting a rate -/

theorem or_fast {encoded : ℕ} (h : encoded < 0x20000) :
    encoded ||| 0x20000 = encoded + 0x20000 * 1 := by
  have hadd := Nat.shiftLeft_add_eq_or_of_lt (show encoded < 2 ^ 17 by omega) 1
  rw [Nat.or_comm]
  exact (hadd.symm.trans (Nat.add_comm _ _))

/-- What is found for a rate: a divisor for the clock, with a bit for the
faster one. -/
theorem encodedBaudrate_reads (type : ChipType) {b : ℤ} (hb : 0 < b) :
    ∃ encoded fast, (encodedBaudrate type b).2 = encoded + 0x20000 * fast ∧ encoded < 0x20000 ∧
      fast < 2 ∧ (type.highSpeed = false → fast = 0) ∧ (type = .typeAM → encoded < 0x10000) ∧
      Supported type (decoded encoded) ∧
      Nearest (if fast = 1 then 96000000 else 24000000) (decoded encoded)
        (encodedBaudrate type b).1 := by
  have hpos : 0 < b.toNat := by omega
  have hc := clkbits_c hpos
  have hh := clkbits_h hpos
  unfold encodedBaudrate
  rcases htype : type.highSpeed
  · simp only [Bool.false_eq_true, if_false]
    by_cases ham : type = .typeAM
    · rw [if_pos ham]
      obtain ⟨hlt, hdec⟩ := ftdiToClkbitsAM_reads b.toNat
      refine ⟨(ftdiToClkbitsAM b.toNat).2, 0, rfl, by omega, by decide, fun _ => rfl, fun _ => hlt,
        ?_, ?_⟩
      · rw [hdec, ham]
        exact supported_amBestDivisor _
      · rw [hdec, if_neg (by decide)]
        have hs := supported_amBestDivisor b.toNat
        rw [Supported, if_pos rfl] at hs
        exact nearest_amEstimate (by omega)
    · rw [if_neg ham]
      refine ⟨_, 0, rfl, hc.encoded, by decide, fun _ => rfl, fun h => absurd h ham, ?_, hc.rate⟩
      rw [Supported, if_neg ham]
      exact hc.supported
  · have ham : type ≠ .typeAM := by
      rintro rfl
      exact absurd htype (by decide)
    simp only [if_true]
    split
    · refine ⟨_, 1, or_fast hh.encoded, hh.encoded, by decide, nofun, fun h => absurd h ham, ?_,
        hh.rate⟩
      rw [Supported, if_neg ham]
      exact hh.supported
    · refine ⟨_, 0, rfl, hc.encoded, by decide, nofun, fun h => absurd h ham, ?_, hc.rate⟩
      rw [Supported, if_neg ham]
      exact hc.supported

/-- **The request for a rate** asks for a divisor that the chip has, and the
rate that is reported is the one the chip will have, to the nearest
integer. The index keeps the port of a faster chip, and an AM chip needs
none. -/
theorem convert_baudrate_reads (type : ChipType) {idx : ℕ} (hidx : idx < 0x100) {b : ℤ}
    (hb : 0 < b) :
    ∃ best value index, ftdiConvertBaudrate type idx b = some (best, value, index) ∧
      Supported type (chipDivisor type value index) ∧
      Nearest (chipClock type index) (chipDivisor type value index) best ∧
      value < 0x10000 ∧ index < 0x10000 ∧ (type.highSpeed = true → index % 0x100 = idx) ∧
      (type.highSpeed = false → index ≤ 1) ∧ (type = .typeAM → index = 0) := by
  obtain ⟨encoded, fast, henc, hlt, hfast, hslow, ham, hsup, hrate⟩ := encodedBaudrate_reads type hb
  refine ⟨_, _, _, if_neg (by omega), ?_⟩
  rw [henc]
  obtain ⟨h1, h2, h3, h4, h5, h6⟩ := chip_reads hlt hidx hfast hslow rfl rfl
  have hdec : (if encoded = 0 then 8 else if encoded = 1 then 12
      else 8 * (encoded % 0x4000) + codeFrac (encoded / 0x4000)) = decoded encoded := rfl
  rw [h1, h2, hdec]
  refine ⟨hsup, hrate, h3, h4, h5, fun h => ?_, fun h => ?_⟩
  · rw [h6 h]
    omega
  · have hlow : type.highSpeed = false := by
      rw [h]
      rfl
    have hshort := ham h
    rw [h6 hlow]
    omega

/-- A rate of a faster chip on its third port. -/
theorem convert_baudrate_reads_sample :
    ∃ best value index, ftdiConvertBaudrate .type4232H 3 115200 = some (best, value, index) ∧
      Supported .type4232H (chipDivisor .type4232H value index) ∧
      Nearest (chipClock .type4232H index) (chipDivisor .type4232H value index) best ∧
      value < 0x10000 ∧ index < 0x10000 ∧
      (ChipType.highSpeed .type4232H = true → index % 0x100 = 3) ∧
      (ChipType.highSpeed .type4232H = false → index ≤ 1) ∧
      (ChipType.type4232H = .typeAM → index = 0) :=
  convert_baudrate_reads .type4232H (by decide) (by decide)

example : ftdiConvertBaudrate .type4232H 3 115200 = some (115246, 0xC068, 0x0203) := by decide

end Ftdi

end SgFtdi
