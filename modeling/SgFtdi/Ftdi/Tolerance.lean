import SgFtdi.Ftdi.Baudrate

/-!
# Which rates are set

A rate is set if the chip comes within about five percent of it. For the
chips that divide in eighths from 2 on, these are the rates from 175 up
to what the divisor 2 allows, and those a little above what 1.5 and 1
give: a rate is never rounded up to one of these.

An AM chip has fewer divisors, and of the two that are tried the better
one is the best of all it has.
-/

namespace SgFtdi

namespace Ftdi

/-! ## The best divisor of an AM chip -/

section Nearest

variable {clock d d' r r' b : ℕ}

/-- A longer divisor makes a lower rate. -/
theorem Nearest.antitone (h : Nearest clock d r) (h' : Nearest clock d' r') (hd : d ≤ d') :
    r' ≤ r := by
  by_contra hlt
  have hstep : (2 * r + 1) * d ≤ (2 * r' - 1) * d' :=
    Nat.mul_le_mul (by omega) hd
  have hsub : (2 * r' - 1) * d' = 2 * r' * d' - d' := by
    rw [Nat.sub_mul, Nat.one_mul]
  have hlow := h.2
  have hhigh := h'.1
  omega

theorem Nearest.le_rate (h : Nearest clock d r) (hb : d * b ≤ clock) : b ≤ r := by
  by_contra hlt
  have hstep : (2 * r + 1) * d ≤ (2 * b - 1) * d := Nat.mul_le_mul_right d (by omega)
  have hsub : (2 * b - 1) * d = 2 * (d * b) - d := by
    rw [Nat.sub_mul, Nat.one_mul, Nat.mul_assoc, Nat.mul_comm b d]
  have hlow := h.2
  omega

theorem Nearest.rate_le (h : Nearest clock d r) (hb : clock < d * b) : r ≤ b := by
  by_contra hlt
  have hstep : (2 * b + 1) * d ≤ (2 * r - 1) * d := Nat.mul_le_mul_right d (by omega)
  have hsub : (2 * r - 1) * d = 2 * r * d - d := by
    rw [Nat.sub_mul, Nat.one_mul]
  have hsum : (2 * b + 1) * d = 2 * (d * b) + d := by ring
  have hhigh := h.1
  omega

end Nearest

/-- Among the rates above one that is asked for, the lowest is nearest. -/
theorem baudDiff_le_of_ge {b r r' : ℕ} (h : b ≤ r) (h' : r ≤ r') :
    baudDiff r b ≤ baudDiff r' b := by
  rw [baudDiff, baudDiff, if_neg (by omega), if_neg (by omega)]
  omega

/-- Among the rates below one that is asked for, the highest is nearest. -/
theorem baudDiff_le_of_le {b r r' : ℕ} (h : r ≤ b) (h' : r' ≤ r) :
    baudDiff r b ≤ baudDiff r' b := by
  unfold baudDiff
  split <;> split <;> omega

/-- The divisor that is kept is as near as either of the two. -/
theorem amBestDivisor_le (b : ℕ) {first second : ℕ}
    (h1 : first = amTryDivisor (24000000 / b - amAdjustDn (24000000 / b &&& 7)) 0)
    (h2 : second = amTryDivisor (24000000 / b - amAdjustDn (24000000 / b &&& 7)) 1) :
    baudDiff (amEstimate (amBestDivisor b)) b ≤ baudDiff (amEstimate first) b ∧
      baudDiff (amEstimate (amBestDivisor b)) b ≤ baudDiff (amEstimate second) b := by
  unfold amBestDivisor
  simp only [← h1, ← h2]
  split
  · omega
  · split <;> omega

/-- The tables take a fraction down to one that an AM chip has, and one
more is taken up beyond the fraction. -/
theorem amAdjust_bracket : ∀ fraction < 8, amAdjustDn fraction ≤ fraction ∧
    (fraction - amAdjustDn fraction) ∈ [0, 1, 2, 4] ∧
    fraction < fraction - amAdjustDn fraction + 1 +
      amAdjustUp (fraction - amAdjustDn fraction + 1) := by decide

theorem amTryDivisor_at {k f i : ℕ} (hk : 2 ≤ k) (hf : f + i < 8) :
    amTryDivisor (8 * k + f) i = min (8 * k + (f + i) + amAdjustUp (f + i)) 0x1FFF8 := by
  have hmod : (8 * k + f + i) % 8 = f + i := by omega
  unfold amTryDivisor
  simp only [and_seven, hmod]
  rw [if_neg (by omega), if_neg (by omega)]
  split <;> omega

/-- The two divisors that are tried have none of the chip's between them:
one is the longest up to the quotient, and the other the shortest beyond
it. -/
theorem amTryDivisor_bracket {q d : ℕ} (hq : 16 ≤ q) (hd : Supported .typeAM d) :
    (d ≤ q → d ≤ amTryDivisor (q - amAdjustDn (q % 8)) 0 ∧
      amTryDivisor (q - amAdjustDn (q % 8)) 0 ≤ q) ∧
    (q < d → amTryDivisor (q - amAdjustDn (q % 8)) 1 ≤ d ∧
      q < amTryDivisor (q - amAdjustDn (q % 8)) 1) := by
  rw [Supported, if_pos rfl] at hd
  have hd : d = 8 ∨ 16 ≤ d ∧ d ≤ 0x1FFF8 ∧ (d % 8 = 0 ∨ d % 8 = 1 ∨ d % 8 = 2 ∨ d % 8 = 4) := by
    simpa using hd
  obtain ⟨hdn, hmem, hup⟩ := amAdjust_bracket (q % 8) (Nat.mod_lt _ (by decide))
  have hdown : q - amAdjustDn (q % 8) = 8 * (q / 8) + (q % 8 - amAdjustDn (q % 8)) := by omega
  have hg : q % 8 - amAdjustDn (q % 8) ≤ q % 8 := Nat.sub_le _ _
  rw [hdown]
  generalize q % 8 - amAdjustDn (q % 8) = g at hmem hup hg
  have htables : amAdjustUp 0 = 0 ∧ amAdjustUp 1 = 0 ∧ amAdjustUp 2 = 0 ∧ amAdjustUp 3 = 1 ∧
      amAdjustUp 4 = 0 ∧ amAdjustUp 5 = 3 := by decide
  have hmem : g = 0 ∨ g = 1 ∨ g = 2 ∨ g = 4 := by simpa using hmem
  rw [amTryDivisor_at (by omega) (by omega), amTryDivisor_at (by omega) (by omega)]
  have hlongest : 16 ≤ 0x1FFF8 := by decide
  generalize 0x1FFF8 = longest at hd hlongest ⊢
  rcases hmem with rfl | rfl | rfl | rfl <;> simp only [htables, Nat.zero_add] at hup ⊢ <;> omega

/-- **The divisor of an AM chip is its best**, for the rates it does not
have to make with divisors below 2. -/
theorem am_nearest {b : ℕ} (hb : 0 < b) (hlow : b ≤ 1500000) {d : ℕ} (hd : Supported .typeAM d) :
    baudDiff (amEstimate (amBestDivisor b)) b ≤ baudDiff (amEstimate d) b := by
  obtain ⟨hfirst, hsecond⟩ := amBestDivisor_le b rfl rfl
  have hbelow := Nat.div_mul_le_self 24000000 b
  have habove := Nat.lt_mul_div_succ 24000000 hb
  have hlong : 16 ≤ 24000000 / b := by
    rw [Nat.le_div_iff_mul_le hb]
    omega
  rw [and_seven] at hfirst hsecond
  have hbracket := amTryDivisor_bracket hlong hd
  have hpos : 0 < d := by
    rw [Supported, if_pos rfl] at hd
    omega
  have hrate := nearest_amEstimate hpos
  rcases Nat.lt_or_ge (24000000 / b) d with hlt | hge
  · -- a divisor beyond the quotient: the second one is no longer, and makes no higher a rate
    obtain ⟨hle, hbeyond⟩ := hbracket.2 hlt
    have hrate' := nearest_amEstimate (Nat.zero_lt_of_lt hbeyond)
    have hshort : 24000000 < amTryDivisor (24000000 / b - amAdjustDn (24000000 / b % 8)) 1 * b := by
      calc 24000000 < b * (24000000 / b + 1) := habove
        _ ≤ b * _ := Nat.mul_le_mul_left b hbeyond
        _ = _ * b := Nat.mul_comm _ _
    exact hsecond.trans (baudDiff_le_of_le (hrate'.rate_le hshort) (hrate'.antitone hrate hle))
  · obtain ⟨hle, hup⟩ := hbracket.1 hge
    have hrate' := nearest_amEstimate (Nat.lt_of_lt_of_le hpos hle)
    have hlong' : amTryDivisor (24000000 / b - amAdjustDn (24000000 / b % 8)) 0 * b ≤ 24000000 :=
      (Nat.mul_le_mul_right b hup).trans hbelow
    exact hfirst.trans (baudDiff_le_of_ge (hrate'.le_rate hlong') (hrate.antitone hrate' hle))

/-- The divisor of a rate that no divisor makes is as good as the next. -/
theorem am_nearest_sample :
    baudDiff (amEstimate (amBestDivisor 460000)) 460000 ≤ baudDiff (amEstimate 56) 460000 :=
  am_nearest (by decide) (by decide) (by rw [Supported]; decide)

/-! ## The rates of the newer chips -/

/-- One rate is within about five percent of another. -/
def Near (actual b : ℕ) : Prop := 20 * b ≤ 21 * actual ∧ 20 * actual ≤ 21 * b

/-- The fastest clock of a chip. -/
def ChipType.clock (type : ChipType) : ℕ := if type.highSpeed then 96000000 else 24000000

/-- **The rates of a clock**: up to that of the divisor 2, and from that of
1.5 and that of 1 to a little above. -/
def InReach (clock b : ℕ) : Prop :=
  175 ≤ b ∧ 20 * b ≤ 21 * (clock / 16) ∨ clock / 12 ≤ b ∧ 20 * b ≤ 21 * (clock / 12) ∨
    clock / 8 ≤ b ∧ 20 * b ≤ 21 * (clock / 8)

/-- A divisor of 2 or more that is half an eighth off at most is near enough. -/
theorem Nearest.near {clock d r b : ℕ} (h : Nearest clock d r) (hd : 16 ≤ d) (hb : 184 ≤ b)
    (hlow : 2 * (d * b) ≤ 2 * clock + b) (hhigh : 2 * clock < 2 * (d * b) + b) : Near r b := by
  have hdb : 16 * b ≤ d * b := Nat.mul_le_mul_right b hd
  have hdd : 184 * d ≤ d * b := by
    rw [Nat.mul_comm d]
    exact Nat.mul_le_mul_right d hb
  obtain ⟨hup, hdown⟩ := h
  have hr : 2 * r * d = 2 * (d * r) := by ring
  have hr' : (2 * r + 1) * d = 2 * (d * r) + d := by ring
  rw [hr] at hup
  rw [hr'] at hdown
  have hleft : d * (20 * b) = 20 * (d * b) := by ring
  have hleft' : d * (21 * r) = 21 * (d * r) := by ring
  have hright : d * (20 * r) = 20 * (d * r) := by ring
  have hright' : d * (21 * b) = 21 * (d * b) := by ring
  constructor
  · refine Nat.le_of_mul_le_mul_left ?_ (show 0 < d by omega)
    omega
  · refine Nat.le_of_mul_le_mul_left ?_ (show 0 < d by omega)
    omega

/-- Half of a quotient, rounded up, is half a divisor off at most. -/
theorem half_quotient {n q b : ℕ} (hlow : q * b ≤ n) (hhigh : n < q * b + b) :
    2 * ((q + 1) / 2 * b) ≤ n + b ∧ n < 2 * ((q + 1) / 2 * b) + b := by
  rcases Nat.even_or_odd' q with ⟨k, rfl | rfl⟩
  · have hk : (2 * k + 1) / 2 = k := by omega
    have heven : 2 * k * b = 2 * (k * b) := Nat.mul_assoc 2 k b
    rw [hk]
    omega
  · have hk : (2 * k + 1 + 1) / 2 = k + 1 := by omega
    have hodd : 2 * ((k + 1) * b) = (2 * k + 1) * b + b := by ring
    rw [hk]
    omega

/-- **What is near enough**, where the divisor need not be cut. -/
theorem ftdiToClkbits_near {clk clkDiv clock b : ℕ} (hb : 184 ≤ b) (h8 : clk / clkDiv = clock / 8)
    (h12 : clk / (clkDiv + clkDiv / 2) = clock / 12) (h16 : clk / (2 * clkDiv) = clock / 16)
    (hall : clk * 16 / clkDiv = 2 * clock) (hdvd : clock % 48 = 0)
    (hcap : (2 * clock / b + 1) / 2 ≤ 0x20000) :
    Near (ftdiToClkbits b clk clkDiv).1 b ↔ InReach clock b := by
  have hbelow := Nat.div_mul_le_self (2 * clock) b
  have habove := Nat.lt_div_mul_add (show 0 < b by omega) (a := 2 * clock)
  unfold ftdiToClkbits InReach
  rw [h8, h12, h16, hall]
  split
  · show Near (clock / 8) b ↔ _
    rw [Near]
    omega
  · split
    · show Near (clock / 12) b ↔ _
      rw [Near]
      omega
    · split
      · show Near (clock / 16) b ↔ _
        rw [Near]
        omega
      · have hlong : 32 ≤ 2 * clock / b := by
          rw [Nat.le_div_iff_mul_le (by omega)]
          omega
        simp only [half_up]
        rw [if_neg (by omega)]
        obtain ⟨hlow, hhigh⟩ := half_quotient hbelow habove
        exact iff_of_true (Nearest.near (nearest_half_up (by omega)) (by omega) hb hlow hhigh)
          (.inl ⟨by omega, by omega⟩)

/-- The rates that need a divisor of more than 17 bits get the longest. -/
theorem ftdiToClkbits_cut {b : ℕ} (hb : 0 < b) (hlow : b ≤ 183) :
    (ftdiToClkbits b cClk 16).1 = 183 := by
  have hlong : 262295 ≤ 48000000 / b := by
    rw [Nat.le_div_iff_mul_le hb]
    omega
  unfold ftdiToClkbits cClk
  rw [if_neg (by omega), if_neg (by omega), if_neg (by omega)]
  have hall : 48000000 * 16 / 16 / b = 48000000 / b := rfl
  simp only [half_up, hall]
  rw [if_pos (by omega)]

theorem near_c {b : ℕ} (hb : 0 < b) :
    Near (ftdiToClkbits b cClk 16).1 b ↔ InReach 24000000 b := by
  rcases Nat.lt_or_ge b 184 with hlow | hhigh
  · rw [ftdiToClkbits_cut hb (by omega), Near, InReach]
    omega
  · have hshort : 2 * 24000000 / b ≤ 260869 := by
      rw [← Nat.lt_succ_iff, Nat.div_lt_iff_lt_mul hb]
      omega
    exact ftdiToClkbits_near hhigh rfl rfl rfl rfl rfl (by omega)

theorem near_h {b : ℕ} (hb : 733 ≤ b) :
    Near (ftdiToClkbits b hClk 10).1 b ↔ InReach 96000000 b := by
  have hshort : 2 * 96000000 / b ≤ 261937 := by
    rw [← Nat.lt_succ_iff, Nat.div_lt_iff_lt_mul (by omega)]
    omega
  exact ftdiToClkbits_near (by omega) rfl rfl rfl rfl rfl (by omega)

/-- **The rate of a newer chip is near enough** for the rates of its fastest
clock: a slower one is only used where it makes no difference, or where a
product overflows and the rate is too high for either. -/
theorem encodedBaudrate_near {type : ChipType} (ham : type ≠ .typeAM) {b : ℤ} (hb : 0 < b) :
    Near (encodedBaudrate type b).1 b.toNat ↔ InReach type.clock b.toNat := by
  have hpos : 0 < b.toNat := by omega
  unfold encodedBaudrate ChipType.clock
  rcases htype : type.highSpeed
  · rw [if_neg Bool.false_ne_true, if_neg ham, if_neg Bool.false_ne_true]
    exact near_c hpos
  · rw [if_pos rfl, if_pos rfl]
    have hwrap : b * 10 < 2 ^ 31 → wrapInt (b * 10) = b * 10 := fun h =>
      Int.bmod_eq_of_le (by omega) (by omega)
    have hbound : ((hClk / 0x3fff : ℕ) : ℤ) = 7324 := rfl
    rw [hbound]
    split
    · exact near_h (by omega)
    · show Near (ftdiToClkbits b.toNat cClk 16).1 b.toNat ↔ _
      rw [near_c hpos, InReach, InReach]
      omega

/-- The rate that is asked of the chip: four times as fast if its pins are
driven one by one. -/
def Serial.asked {σ : Type} (s : Serial σ) (baudrate : ℤ) : ℤ :=
  if s.bitbangEnabled then wrapInt (baudrate * 4) else baudrate

/-- The test that a rate is near enough. -/
theorem unsupported_iff {actual b : ℤ} (ha : 0 ≤ actual) (hb : 0 < b) :
    (actual * 2 < b ∨ if actual < b then actual * 21 < b * 20 else b * 21 < actual * 20) ↔
      ¬Near actual.toNat b.toNat := by
  rw [Near]
  split <;> omega

section Asking

variable {σ : Type} {controlTransfer : ℕ × ℕ × ℕ → σ → ℤ × σ} {s : Serial σ} {baudrate : ℤ}
variable {rate value index : ℕ}

/-- A rate that is near enough is asked for, and taken over if the request succeeds. -/
theorem ftdiSetBaudrate_near (hdev : s.usbDev = true) (hpos : 0 < s.asked baudrate)
    (hconvert : ftdiConvertBaudrate s.type s.index (s.asked baudrate) = some (rate, value, index))
    (hnear : Near rate (s.asked baudrate).toNat) :
    (ftdiSetBaudrate controlTransfer baudrate s).2.requests =
        s.requests ++ [(sioSetBaudrateRequest, value, index)] ∧
      ((controlTransfer (sioSetBaudrateRequest, value, index) s.world).1 < 0 →
        (ftdiSetBaudrate controlTransfer baudrate s).1 = -2 ∧
        (ftdiSetBaudrate controlTransfer baudrate s).2.baudrate = s.baudrate) ∧
      (0 ≤ (controlTransfer (sioSetBaudrateRequest, value, index) s.world).1 →
        (ftdiSetBaudrate controlTransfer baudrate s).1 = 0 ∧
        (ftdiSetBaudrate controlTransfer baudrate s).2.baudrate = s.asked baudrate) := by
  have hfar := unsupported_iff (Int.natCast_nonneg rate) hpos
  rw [Int.toNat_natCast] at hfar
  have hhigh : ¬(rate : ℤ) ≤ 0 := by
    rw [Near] at hnear
    omega
  unfold ftdiSetBaudrate
  rw [if_neg (by simp [hdev])]
  simp only [← Serial.asked.eq_def, hconvert]
  rw [if_neg hhigh, if_neg fun hc => hfar.mp hc hnear]
  refine ⟨?_, ?_, ?_⟩
  · split <;> rfl
  · intro hfail
    rw [if_pos hfail]
    exact ⟨rfl, rfl⟩
  · intro hok
    rw [if_neg (Int.not_lt.mpr hok)]
    exact ⟨rfl, rfl⟩

/-- A rate that is not near enough is refused, and nothing is sent. -/
theorem ftdiSetBaudrate_far (hdev : s.usbDev = true) (hpos : 0 < s.asked baudrate)
    (hconvert : ftdiConvertBaudrate s.type s.index (s.asked baudrate) = some (rate, value, index))
    (hfar : ¬Near rate (s.asked baudrate).toNat) :
    (ftdiSetBaudrate controlTransfer baudrate s).1 = -1 ∧
      ∃ text, (ftdiSetBaudrate controlTransfer baudrate s).2 = { s with errorStr := text } := by
  have hfar' := unsupported_iff (Int.natCast_nonneg rate) hpos
  rw [Int.toNat_natCast] at hfar'
  unfold ftdiSetBaudrate
  rw [if_neg (by simp [hdev])]
  simp only [← Serial.asked.eq_def, hconvert]
  rw [if_pos (hfar'.mpr hfar)]
  split <;> exact ⟨rfl, _, rfl⟩

/-- No rate at all is refused. -/
theorem ftdiSetBaudrate_silly (hdev : s.usbDev = true) (hneg : s.asked baudrate ≤ 0) :
    (ftdiSetBaudrate controlTransfer baudrate s).1 = -1 ∧
      ∃ text, (ftdiSetBaudrate controlTransfer baudrate s).2 = { s with errorStr := text } := by
  unfold ftdiSetBaudrate
  rw [if_neg (by simp [hdev])]
  simp only [← Serial.asked.eq_def]
  rw [ftdiConvertBaudrate, if_pos hneg]
  exact ⟨rfl, _, rfl⟩

end Asking

/-- **The rates that are set**: for a newer chip, a request goes out just for
the rates in reach, and asks for a divisor the chip has and that makes a
rate near enough; the rate is taken over if the request succeeds. All
other rates change nothing. -/
theorem set_baudrate_reach {σ : Type} (controlTransfer : ℕ × ℕ × ℕ → σ → ℤ × σ) (baudrate : ℤ)
    {s : Serial σ} (hdev : s.usbDev = true) (ham : s.type ≠ .typeAM) (hidx : s.index < 0x100) :
    (InReach s.type.clock (s.asked baudrate).toNat →
      ∃ rate value index, Supported s.type (chipDivisor s.type value index) ∧
        Nearest (chipClock s.type index) (chipDivisor s.type value index) rate ∧
        Near rate (s.asked baudrate).toNat ∧
        (ftdiSetBaudrate controlTransfer baudrate s).2.requests =
          s.requests ++ [(sioSetBaudrateRequest, value, index)] ∧
        ((controlTransfer (sioSetBaudrateRequest, value, index) s.world).1 < 0 →
          (ftdiSetBaudrate controlTransfer baudrate s).1 = -2 ∧
          (ftdiSetBaudrate controlTransfer baudrate s).2.baudrate = s.baudrate) ∧
        (0 ≤ (controlTransfer (sioSetBaudrateRequest, value, index) s.world).1 →
          (ftdiSetBaudrate controlTransfer baudrate s).1 = 0 ∧
          (ftdiSetBaudrate controlTransfer baudrate s).2.baudrate = s.asked baudrate)) ∧
    (¬InReach s.type.clock (s.asked baudrate).toNat →
      (ftdiSetBaudrate controlTransfer baudrate s).1 = -1 ∧
      ∃ text, (ftdiSetBaudrate controlTransfer baudrate s).2 = { s with errorStr := text }) := by
  have hclock : s.type.clock = 24000000 ∨ s.type.clock = 96000000 := by
    unfold ChipType.clock
    split
    · exact .inr rfl
    · exact .inl rfl
  rcases Int.lt_or_le 0 (s.asked baudrate) with hpos | hneg
  · have hnear := encodedBaudrate_near ham hpos
    obtain ⟨rate, value, index, hconvert, hsup, hrate, -, -, -⟩ :=
      convert_baudrate_reads s.type hidx hpos
    have hbest : rate = (encodedBaudrate s.type (s.asked baudrate)).1 := by
      rw [ftdiConvertBaudrate, if_neg (by omega)] at hconvert
      exact (congrArg Prod.fst (Option.some.inj hconvert)).symm
    rw [← hbest] at hnear
    rw [← hnear]
    exact ⟨fun h => ⟨rate, value, index, hsup, hrate, h, ftdiSetBaudrate_near hdev hpos hconvert h⟩,
      fun h => ftdiSetBaudrate_far hdev hpos hconvert h⟩
  · -- a clock reaches some rate, and none is not one of them
    have hout : ¬InReach s.type.clock (s.asked baudrate).toNat := by
      rw [InReach]
      omega
    exact ⟨fun h => absurd h hout, fun _ => ftdiSetBaudrate_silly hdev hneg⟩

/-- Pins that are driven two million times a second. -/
theorem set_baudrate_reach_sample :
    ∃ s : Serial Unit, ∃ value index,
      (ftdiSetBaudrate (fun _ u => (0, u)) 2000000 s).2.requests = [(3, value, index)] ∧
      (ftdiSetBaudrate (fun _ u => (0, u)) 2000000 s).1 = 0 ∧
      (ftdiSetBaudrate (fun _ u => (0, u)) 2000000 s).2.baudrate = 8000000 := by
  refine ⟨⟨true, .type2232H, 1, true, 9600, "", [], ()⟩, ?_⟩
  have hreach : InReach (ChipType.clock .type2232H) 8000000 := by
    rw [InReach]
    decide
  obtain ⟨_, value, index, -, -, -, hsent, -, hset⟩ :=
    (set_baudrate_reach (fun _ u => (0, u)) 2000000
      (s := (⟨true, .type2232H, 1, true, 9600, "", [], ()⟩ : Serial Unit)) rfl (by decide)
      (by decide)).1 hreach
  obtain ⟨hres, hrate⟩ := hset (le_refl 0)
  exact ⟨value, index, hsent, hres, hrate⟩

end Ftdi

end SgFtdi
