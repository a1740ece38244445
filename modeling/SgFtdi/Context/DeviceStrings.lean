import SgFtdi.Common.Numeral
import SgFtdi.Context.Configuring
import SgFtdi.Context.Selection
import Mathlib.Algebra.Order.Ring.Int

/-!
# Context — device strings

What `describe` prints `parse` reads back, for a device that is valid.
Without the check for validity `parse` has bounds of its own, which are
from above only: an id with a minus sign gets past them into the
configuration, and `init` looks it up. `Gives` says of the fields of a
string which device they are, and both results are read off it.
-/

namespace SgFtdi

namespace Context

variable {str : Str} {dev dev' : UsbDev} {s : String}

/-! ## What a string gives -/

/-- A field that is read as an id. -/
def IsId (str : Str) (field : String) (id : ℤ) : Prop :=
  str.toInt32 field 16 = .ok id ∧ id < 0xffff

/-- **What the fields of a device string give.** -/
def Gives (str : Str) : List String → UsbDev → Prop
  | [vendor], dev => IsId str vendor dev.vendor ∧ dev.product = 0 ∧ dev.device = 0
  | [vendor, product], dev =>
      IsId str vendor dev.vendor ∧ IsId str product dev.product ∧ dev.device = 0
  | [vendor, product, device], dev =>
      IsId str vendor dev.vendor ∧ IsId str product dev.product ∧
        str.toUint8 device = .ok dev.device
  | _, _ => False

theorem bind_ok_iff {ε α β : Type} {x : Except ε α} {f : α → Except ε β} {b : β} :
    x >>= f = .ok b ↔ ∃ a, x = .ok a ∧ f a = .ok b := by
  cases x with
  | error e =>
      constructor
      · nofun
      · rintro ⟨a, ha, -⟩
        cases ha
  | ok a =>
      constructor
      · exact fun h => ⟨a, rfl, h⟩
      · rintro ⟨a', ha, h⟩
        cases ha
        exact h

theorem rethrow_ok_iff {α : Type} {x : Except String α} {a : α} :
    rethrow x = .ok a ↔ x = .ok a := by
  cases x with
  | error text => exact ⟨nofun, nofun⟩
  | ok b => exact ⟨fun h => congrArg _ (Except.ok.inj h), fun h => congrArg _ (Except.ok.inj h)⟩

theorem popId_cons {name field : String} {vec : List String} {x : ℤ × List String} :
    popId str name (field :: vec) = .ok x ↔ IsId str field x.1 ∧ x.2 = vec := by
  unfold popId IsId
  rw [bind_ok_iff]
  constructor
  · rintro ⟨id, hread, hid⟩
    by_cases hge : id ≥ 0xffff
    · rw [if_pos hge] at hid
      cases hid
    · rw [if_neg hge] at hid
      cases hid
      exact ⟨⟨rethrow_ok_iff.mp hread, by omega⟩, rfl⟩
  · rintro ⟨⟨hread, hlt⟩, hrest⟩
    refine ⟨x.1, rethrow_ok_iff.mpr hread, ?_⟩
    rw [if_neg (by omega), ← hrest]

theorem popId_nil {name : String} {x : ℤ × List String} :
    popId str name [] = .ok x ↔ x = (0, []) :=
  ⟨fun h => (Except.ok.inj h).symm, fun h => congrArg _ h.symm⟩

theorem popDevice_cons {field : String} {vec : List String} {n : UInt8} :
    popDevice str (field :: vec) = .ok n ↔ str.toUint8 field = .ok n := rethrow_ok_iff

theorem popDevice_nil {n : UInt8} : popDevice str [] = .ok n ↔ n = 0 :=
  ⟨fun h => (Except.ok.inj h).symm, fun h => congrArg _ h.symm⟩

/-- The fields are popped one after another. -/
def Pops (str : Str) (vec : List String) (dev : UsbDev) : Prop :=
  ∃ vec₁ vec₂, popId str "vendor" vec = .ok (dev.vendor, vec₁) ∧
    popId str "product" vec₁ = .ok (dev.product, vec₂) ∧ popDevice str vec₂ = .ok dev.device

theorem pops_one {vendor : String} : Pops str [vendor] dev ↔ Gives str [vendor] dev := by
  constructor
  · rintro ⟨vec₁, vec₂, hvendor, hproduct, hdevice⟩
    obtain ⟨hid, rfl⟩ := popId_cons.mp hvendor
    obtain ⟨hzero, rfl⟩ := Prod.mk.inj (popId_nil.mp hproduct)
    exact ⟨hid, hzero, popDevice_nil.mp hdevice⟩
  · rintro ⟨hid, hzero, hdevice⟩
    refine ⟨[], [], popId_cons.mpr ⟨hid, rfl⟩, popId_nil.mpr ?_, popDevice_nil.mpr hdevice⟩
    rw [hzero]

theorem pops_two {vendor product : String} :
    Pops str [vendor, product] dev ↔ Gives str [vendor, product] dev := by
  constructor
  · rintro ⟨vec₁, vec₂, hvendor, hproduct, hdevice⟩
    obtain ⟨hid, rfl⟩ := popId_cons.mp hvendor
    obtain ⟨hid', rfl⟩ := popId_cons.mp hproduct
    exact ⟨hid, hid', popDevice_nil.mp hdevice⟩
  · rintro ⟨hid, hid', hdevice⟩
    exact ⟨_, [], popId_cons.mpr ⟨hid, rfl⟩, popId_cons.mpr ⟨hid', rfl⟩,
      popDevice_nil.mpr hdevice⟩

theorem pops_three {vendor product device : String} :
    Pops str [vendor, product, device] dev ↔ Gives str [vendor, product, device] dev := by
  constructor
  · rintro ⟨vec₁, vec₂, hvendor, hproduct, hdevice⟩
    obtain ⟨hid, rfl⟩ := popId_cons.mp hvendor
    obtain ⟨hid', rfl⟩ := popId_cons.mp hproduct
    exact ⟨hid, hid', popDevice_cons.mp hdevice⟩
  · rintro ⟨hid, hid', hdevice⟩
    exact ⟨_, _, popId_cons.mpr ⟨hid, rfl⟩, popId_cons.mpr ⟨hid', rfl⟩,
      popDevice_cons.mpr hdevice⟩

/-- From one to three fields give what is popped off them. -/
theorem pops_iff {vec : List String} (hlen : ¬ (vec.length < 1 ∨ vec.length > 3)) :
    Pops str vec dev ↔ Gives str vec dev := by
  match vec with
  | [] => exact absurd (.inl Nat.one_pos) hlen
  | [vendor] => exact pops_one
  | [vendor, product] => exact pops_two
  | [vendor, product, device] => exact pops_three
  | _ :: _ :: _ :: _ :: vec => exact absurd (.inr (by simp)) hlen

theorem not_gives {vec : List String} (hlen : vec.length < 1 ∨ vec.length > 3) :
    ¬ Gives str vec dev := by
  match vec with
  | [] => exact id
  | [_] | [_, _] | [_, _, _] => simp at hlen
  | _ :: _ :: _ :: _ :: vec => exact id

/-- **`parse`** returns what the fields of the string give, where it is
valid or that is not asked. -/
theorem parse_ok_iff {checkValid : Bool} :
    UsbDev.parse str s checkValid = .ok dev ↔
      Gives str (str.split s ":") dev ∧ (checkValid = true → dev.isValid = true) := by
  unfold UsbDev.parse
  by_cases hlen : (str.split s ":").length < 1 ∨ (str.split s ":").length > 3
  · rw [if_pos hlen]
    exact ⟨nofun, fun h => absurd h.1 (not_gives hlen)⟩
  · rw [if_neg hlen, ← pops_iff hlen, bind_ok_iff]
    constructor
    · rintro ⟨⟨vendor, vec₁⟩, hvendor, hrest⟩
      obtain ⟨⟨product, vec₂⟩, hproduct, hrest⟩ := bind_ok_iff.mp hrest
      obtain ⟨device, hdevice, hrest⟩ := bind_ok_iff.mp hrest
      by_cases hcheck : checkValid = true ∧ UsbDev.isValid ⟨vendor, product, device⟩ = false
      · rw [if_pos hcheck] at hrest
        cases hrest
      · rw [if_neg hcheck] at hrest
        cases hrest
        refine ⟨⟨vec₁, vec₂, hvendor, hproduct, hdevice⟩, fun hasked => ?_⟩
        simpa [hasked] using hcheck
    · rintro ⟨⟨vec₁, vec₂, hvendor, hproduct, hdevice⟩, hvalid⟩
      refine ⟨_, hvendor, bind_ok_iff.mpr ⟨_, hproduct, bind_ok_iff.mpr ⟨_, hdevice, ?_⟩⟩⟩
      refine if_neg ?_
      rintro ⟨hasked, hnot⟩
      have hyes : dev.isValid = true := hvalid hasked
      exact Bool.false_ne_true (hnot.symm.trans hyes)

/-! ## Printing and parsing -/

/-- **What libshaga reads**, as far as a description needs it: `split` cuts
at every colon, and numerals within bounds are read, with leading
zeros. -/
structure Str.Reads (str : Str) : Prop where
  split : ∀ s, str.split s ":" = (s.toList.splitOn ':').map String.ofList
  toInt32 : ∀ s n, Numeral.read 16 s.toList = some n → n < 2 ^ 31 → str.toInt32 s 16 = .ok (n : ℤ)
  toUint8 : ∀ s n, Numeral.read 10 s.toList = some n → n < 2 ^ 8 →
    str.toUint8 s = .ok (UInt8.ofNat n)

theorem isValid_iff : dev.isValid = true ↔
    (0 ≤ dev.vendor ∧ dev.vendor < 0xffff) ∧ 0 ≤ dev.product ∧ dev.product < 0xffff := by
  unfold UsbDev.isValid
  split
  · simp
    omega
  · split
    · simp
      omega
    · simp
      omega

/-- An id is printed as a numeral with zeros before it. -/
theorem hex4_toList {n : ℤ} (h : 0 ≤ n) : ∃ k,
    (hex4 n).toList = List.replicate k '0' ++ Nat.toDigits 16 n.toNat := by
  have hneg : ¬ n < 0 := by omega
  have habs : n.natAbs = n.toNat := by omega
  refine ⟨4 - (("" : String).length + (String.ofList (Nat.toDigits 16 n.toNat)).length), ?_⟩
  unfold hex4
  simp only [if_neg hneg, habs, String.toList_append, String.toList_ofList]
  rfl

theorem isId_hex4 (hstr : str.Reads) {n : ℤ} (h : 0 ≤ n) (hlt : n < 0xffff) :
    IsId str (hex4 n) n := by
  obtain ⟨k, hk⟩ := hex4_toList h
  have hread : Numeral.read 16 (hex4 n).toList = some n.toNat := by
    rw [hk]
    exact Numeral.read_padded (by omega) (by omega) k _
  have hint := hstr.toInt32 _ _ hread (by omega)
  rw [Int.toNat_of_nonneg h] at hint
  exact ⟨hint, hlt⟩

theorem toUint8_toString (hstr : str.Reads) (n : UInt8) :
    str.toUint8 (toString n) = .ok n := by
  have hread : Numeral.read 10 (toString n).toList = some n.toNat := by
    show Numeral.read 10 (String.ofList (Nat.toDigits 10 n.toNat)).toList = _
    rw [String.toList_ofList]
    exact Numeral.read_toDigits (by omega) (by omega) _
  rw [hstr.toUint8 _ _ hread n.toNat_lt, UInt8.ofNat_toNat]

theorem colon_not_mem_hex4 {n : ℤ} (h : 0 ≤ n) : ':' ∉ (hex4 n).toList := by
  obtain ⟨k, hk⟩ := hex4_toList h
  rw [hk]
  intro hmem
  rcases List.mem_append.mp hmem with hmem | hmem
  · exact absurd (List.eq_of_mem_replicate hmem) (by decide)
  · exact Numeral.not_mem_toDigits (by omega) (by omega) _ rfl hmem

theorem colon_not_mem_toString (n : UInt8) : ':' ∉ (toString n).toList := by
  show ':' ∉ (String.ofList (Nat.toDigits 10 n.toNat)).toList
  rw [String.toList_ofList]
  exact Numeral.not_mem_toDigits (by omega) (by omega) _ rfl

/-- The cut at the first colon. -/
theorem splitOn_colon {a b : String} (ha : ':' ∉ a.toList) :
    ((a ++ ":" ++ b).toList.splitOn ':').map String.ofList =
      a :: (b.toList.splitOn ':').map String.ofList := by
  have hlist : (a ++ ":" ++ b).toList = a.toList ++ ':' :: b.toList := by simp
  rw [hlist, List.splitOn_append_cons_self_of_not_mem ha, List.map_cons, String.ofList_toList]

theorem splitOn_last {a : String} (ha : ':' ∉ a.toList) :
    (a.toList.splitOn ':').map String.ofList = [a] := by
  rw [List.splitOn_eq_singleton ha, List.map_singleton, String.ofList_toList]

/-- **The fields of a description** give the device. -/
theorem gives_describe (hstr : str.Reads) (hvalid : dev.isValid = true) :
    Gives str (str.split dev.describe ":") dev := by
  obtain ⟨⟨hvendor, hvlt⟩, hproduct, hplt⟩ := isValid_iff.mp hvalid
  have hv := colon_not_mem_hex4 hvendor
  have hp := colon_not_mem_hex4 hproduct
  rw [hstr.split]
  unfold UsbDev.describe
  by_cases hdevice : 0 < dev.device
  · have hgroup : hex4 dev.vendor ++ ":" ++ hex4 dev.product ++ ":" ++ toString dev.device =
        hex4 dev.vendor ++ ":" ++ (hex4 dev.product ++ ":" ++ toString dev.device) := by
      simp only [String.append_assoc]
    rw [if_pos hdevice, hgroup, splitOn_colon hv, splitOn_colon hp,
      splitOn_last (colon_not_mem_toString _)]
    exact ⟨isId_hex4 hstr hvendor hvlt, isId_hex4 hstr hproduct hplt, toUint8_toString hstr _⟩
  · rw [if_neg hdevice, splitOn_colon hv, splitOn_last hp]
    refine ⟨isId_hex4 hstr hvendor hvlt, isId_hex4 hstr hproduct hplt, ?_⟩
    have hzero : ¬ 0 < dev.device.toNat := fun h => hdevice (UInt8.lt_iff_toNat_lt.mpr h)
    refine UInt8.toNat_inj.mp ?_
    show dev.device.toNat = 0
    omega

theorem parse_describe (hstr : str.Reads) (hvalid : dev.isValid = true) :
    UsbDev.parse str dev.describe true = .ok dev :=
  parse_ok_iff.mpr ⟨gives_describe hstr hvalid, fun _ => hvalid⟩

/-- **Device strings go round**: what a valid device is described by gives
it back; so does the description of what any string gives; and two valid
devices with one description are one. -/
theorem device_strings_round_trip (hstr : str.Reads) :
    (∀ dev : UsbDev, dev.isValid = true → UsbDev.parse str dev.describe true = .ok dev) ∧
    (∀ s dev, UsbDev.parse str s true = .ok dev →
      UsbDev.parse str dev.describe true = .ok dev) ∧
    ∀ dev dev' : UsbDev, dev.isValid = true → dev'.isValid = true →
      dev.describe = dev'.describe → dev = dev' := by
  refine ⟨fun dev hvalid => parse_describe hstr hvalid, fun s dev hparse => ?_, ?_⟩
  · exact parse_describe hstr ((parse_ok_iff.mp hparse).2 rfl)
  · intro dev dev' hvalid hvalid' heq
    have hparse := parse_describe hstr hvalid
    rw [heq, parse_describe hstr hvalid'] at hparse
    exact (Except.ok.inj hparse).symm

/-- A `STR` that reads what it should, and no more. -/
def plainStr : Str where
  split s _ := (s.toList.splitOn ':').map String.ofList
  toInt32 s base :=
    match Numeral.readSigned base s.toList with
    | none => .error "no numeral"
    | some v => if -2 ^ 31 ≤ v ∧ v < 2 ^ 31 then .ok v else .error "out of bounds"
  toUint8 s :=
    match Numeral.read 10 s.toList with
    | none => .error "no numeral"
    | some n => if n < 2 ^ 8 then .ok (UInt8.ofNat n) else .error "out of bounds"
  icompare a b := a.toLower = b.toLower

theorem plainStr_reads : plainStr.Reads where
  split _ := rfl
  toInt32 s n hread hlt := by
    have hsigned := Numeral.readSigned_of_read hread
    show (match Numeral.readSigned 16 s.toList with
      | none => _ | some v => if -2 ^ 31 ≤ v ∧ v < 2 ^ 31 then _ else _ : Except String ℤ) = _
    rw [hsigned]
    exact if_pos ⟨by omega, by omega⟩
  toUint8 s n hread hlt := by
    show (match Numeral.read 10 s.toList with
      | none => _ | some v => if v < 2 ^ 8 then _ else _ : Except String UInt8) = _
    rw [hread]
    exact if_pos hlt

/-- A device that is not the first of its kind. -/
theorem device_strings_round_trip_sample :
    UsbDev.describe ⟨1027, 24577, 2⟩ = "0403:6001:2" ∧
      UsbDev.parse plainStr "0403:6001:2" true = .ok ⟨1027, 24577, 2⟩ :=
  ⟨by decide, (device_strings_round_trip plainStr_reads).1 ⟨1027, 24577, 2⟩ rfl⟩

/-! ## Two validity checks -/

/-- **What `STR::to_int32` returns**: the signed value of a numeral, in 32
bits. -/
def Str.Signed (str : Str) : Prop :=
  ∀ s v, str.toInt32 s 16 = .ok v →
    Numeral.readSigned 16 s.toList = some v ∧ -2 ^ 31 ≤ v ∧ v < 2 ^ 31

/-- Every field of a device string is read within the bounds of `parse`. -/
def Readable (str : Str) (s : String) : Prop :=
  ¬ ((str.split s ":").length < 1 ∨ (str.split s ":").length > 3) ∧
    (∀ field ∈ (str.split s ":").take 2, ∃ id, IsId str field id) ∧
      ∀ field ∈ (str.split s ":").drop 2, ∃ n, str.toUint8 field = .ok n

/-- A numeral that is less than zero: a minus sign and digits that are not
all zeros. -/
def BelowZero (field : String) : Prop :=
  ∃ ds n, field.toList = '-' :: ds ∧ Numeral.read 16 ds = some n ∧ 0 < n

/-- **A string that slips through**: it is readable, and its vendor or its
product is less than zero. -/
def Slips (str : Str) (s : String) : Prop :=
  Readable str s ∧ ∃ field ∈ (str.split s ":").take 2, BelowZero field

/-- A device with ids that can be looked up. -/
def UsbDev.InRange (dev : UsbDev) : Prop :=
  (0 ≤ dev.vendor ∧ dev.vendor ≤ 0xfffe) ∧ 0 ≤ dev.product ∧ dev.product ≤ 0xfffe

theorem inRange_iff : dev.InRange ↔ dev.isValid = true := by
  rw [isValid_iff]
  unfold UsbDev.InRange
  omega

theorem belowZero_iff (hstr : str.Signed) {field : String} {id : ℤ} (h : IsId str field id) :
    BelowZero field ↔ id < 0 := (Numeral.readSigned_neg_iff (hstr field id h.1).1).symm

/-- **What a string gives is valid** unless one of its ids is less than
zero. -/
theorem gives_valid_iff (hstr : str.Signed) {vec : List String} (h : Gives str vec dev) :
    dev.isValid = true ↔ ¬ ∃ field ∈ vec.take 2, BelowZero field := by
  rw [isValid_iff]
  match vec, h with
  | [vendor], ⟨hvendor, hproduct, _⟩ =>
      have hlt := hvendor.2
      simp [belowZero_iff hstr hvendor]
      omega
  | [vendor, product], ⟨hvendor, hproduct, _⟩ =>
      have hlt := hvendor.2
      have hlt' := hproduct.2
      simp [belowZero_iff hstr hvendor, belowZero_iff hstr hproduct]
      omega
  | [vendor, product, device], ⟨hvendor, hproduct, _⟩ =>
      have hlt := hvendor.2
      have hlt' := hproduct.2
      simp [belowZero_iff hstr hvendor, belowZero_iff hstr hproduct]
      omega

/-- **`parse` returns** exactly where a string is readable. -/
theorem readable_iff : Readable str s ↔ ∃ dev, UsbDev.parse str s false = .ok dev := by
  have hgives : (∃ dev, UsbDev.parse str s false = .ok dev) ↔
      ∃ dev, Gives str (str.split s ":") dev := by
    refine exists_congr fun dev => ?_
    rw [parse_ok_iff]
    exact and_iff_left nofun
  rw [hgives]
  unfold Readable
  generalize str.split s ":" = vec
  constructor
  · rintro ⟨hlen, hids, hdevice⟩
    match vec with
    | [] => exact absurd (.inl Nat.one_pos) hlen
    | [vendor] =>
        obtain ⟨v, hv⟩ := hids vendor (by simp)
        exact ⟨⟨v, 0, 0⟩, hv, rfl, rfl⟩
    | [vendor, product] =>
        obtain ⟨v, hv⟩ := hids vendor (by simp)
        obtain ⟨p, hp⟩ := hids product (by simp)
        exact ⟨⟨v, p, 0⟩, hv, hp, rfl⟩
    | [vendor, product, device] =>
        obtain ⟨v, hv⟩ := hids vendor (by simp)
        obtain ⟨p, hp⟩ := hids product (by simp)
        obtain ⟨d, hd⟩ := hdevice device (by simp)
        exact ⟨⟨v, p, d⟩, hv, hp, hd⟩
    | _ :: _ :: _ :: _ :: vec => exact absurd (.inr (by simp)) hlen
  · rintro ⟨dev, h⟩
    refine ⟨fun hlen => not_gives hlen h, ?_⟩
    match vec, h with
    | [vendor], ⟨hvendor, _, _⟩ =>
        simpa using ⟨dev.vendor, hvendor⟩
    | [vendor, product], ⟨hvendor, hproduct, _⟩ =>
        simpa using ⟨⟨dev.vendor, hvendor⟩, dev.product, hproduct⟩
    | [vendor, product, device], ⟨hvendor, hproduct, hdevice⟩ =>
        simpa using ⟨⟨⟨dev.vendor, hvendor⟩, dev.product, hproduct⟩, dev.device, hdevice⟩

/-- **The two checks agree** on the strings that do not slip through. -/
theorem checks_agree_on (hstr : str.Signed) :
    (∀ dev, UsbDev.parse str s false = .ok dev → dev.isValid = true) ↔ ¬ Slips str s := by
  constructor
  · rintro hvalid ⟨hreadable, hbelow⟩
    obtain ⟨dev, hparse⟩ := readable_iff.mp hreadable
    have hgives := (parse_ok_iff.mp hparse).1
    exact (gives_valid_iff hstr hgives).mp (hvalid dev hparse) hbelow
  · intro hnot dev hparse
    have hgives := (parse_ok_iff.mp hparse).1
    refine (gives_valid_iff hstr hgives).mpr fun hbelow => hnot ⟨?_, hbelow⟩
    exact readable_iff.mpr ⟨dev, hparse⟩

/-! ## Through the configuration -/

/-- The devices of `t` are those of `config` and then ones that strings of
the list give. -/
def Appends (str : Str) (strs : List String) (config t : Config) : Prop :=
  ∃ devs, t.usbDevices = config.usbDevices ++ devs ∧
    ∀ dev ∈ devs, ∃ s ∈ strs, UsbDev.parse str s false = .ok dev

section Populating

variable {strs : List String} {config : Config}

theorem Appends.refl : Appends str strs config config :=
  ⟨[], (List.append_nil _).symm, nofun⟩

theorem alter_appends {f : Config → Config} (hf : ∀ t, (f t).usbDevices = t.usbDevices) :
    Prog.Stays (Appends str strs config) (Prog.alter f : Populate Unit) := by
  rintro t ⟨devs, ht, hdevs⟩
  exact ⟨devs, (hf t).trans ht, hdevs⟩

theorem fetch_appends {α : Type} (x : Except ConfigError α) :
    Prog.Stays (Appends str strs config) (fetch x) := by
  cases x with
  | ok a => exact Prog.Stays.pure
  | error e => exact Prog.Stays.raise

theorem populateUsbDevice_appends (hs : s ∈ strs) :
    Prog.Stays (Appends str strs config) (populateUsbDevice str s) := by
  unfold populateUsbDevice
  cases hparse : UsbDev.parse str s false with
  | error e => exact Prog.Stays.raise
  | ok dev =>
      rintro t ⟨devs, ht, hdevs⟩
      refine ⟨devs ++ [dev], ?_, fun d hd => ?_⟩
      · show t.usbDevices ++ [dev] = _
        rw [ht, List.append_assoc]
      · rcases List.mem_append.mp hd with hd | hd
        · exact hdevs d hd
        · rw [List.mem_singleton.mp hd]
          exact ⟨s, hs, hparse⟩

/-- The loop over the device strings. -/
theorem populateUsbDevices_appends : ∀ {rest : List String}, (∀ s ∈ rest, s ∈ strs) →
    Prog.Stays (Appends str strs config) (Prog.each rest (populateUsbDevice str)) := by
  intro rest
  induction rest with
  | nil => exact fun _ => Prog.Stays.pure
  | cons s rest ih =>
      intro hrest
      refine Prog.Stays.bind (populateUsbDevice_appends (hrest s List.mem_cons_self)) fun _ => ?_
      exact ih fun x hx => hrest x (List.mem_cons_of_mem _ hx)

/-- **`populate_config`** appends what the device strings give, and nothing
else, also where it throws. -/
theorem populateConfig_appends (str : Str) (ini : Ini) (config : Config) :
    Appends str (ini.getList "usb_devices") config (populateConfig str ini config).2 := by
  suffices h : Prog.Stays (Appends str (ini.getList "usb_devices") config)
      (populateConfig str ini) from h config .refl
  have hkeep : ∀ {f : Config → Config}, (∀ t, (f t).usbDevices = t.usbDevices) →
      Prog.Stays (Appends str (ini.getList "usb_devices") config)
        (Prog.alter f : Populate Unit) := alter_appends
  refine Prog.Stays.bind ?_ fun _ => Prog.Stays.bind ?_ fun _ => Prog.Stays.bind ?_ fun _ =>
    Prog.Stays.bind ?_ fun databits => Prog.Stays.bind ?_ fun _ => Prog.Stays.bind ?_ fun _ => ?_
  · refine (fetch_appends _).bind fun _ => Prog.Stays.ite ?_ Prog.Stays.pure
    exact hkeep fun _ => rfl
  · refine Prog.Stays.ite Prog.Stays.pure (Prog.Stays.ite (hkeep fun _ => rfl) ?_)
    refine Prog.Stays.ite (hkeep fun _ => rfl) (Prog.Stays.ite (hkeep fun _ => rfl) ?_)
    exact Prog.Stays.raise
  · refine Prog.Stays.ite Prog.Stays.pure (Prog.Stays.ite (hkeep fun _ => rfl) ?_)
    refine Prog.Stays.ite (hkeep fun _ => rfl) (Prog.Stays.ite (hkeep fun _ => rfl) ?_)
    exact Prog.Stays.ite (hkeep fun _ => rfl) Prog.Stays.raise
  · refine (fetch_appends _).bind fun databits => Prog.Stays.ite Prog.Stays.pure ?_
    split
    · exact Prog.Stays.bind (hkeep fun _ => rfl) fun _ => Prog.Stays.pure
    · exact Prog.Stays.bind (hkeep fun _ => rfl) fun _ => Prog.Stays.pure
    · exact Prog.Stays.raise
  · refine (fetch_appends _).bind fun stopbits => Prog.Stays.ite Prog.Stays.pure ?_
    split
    · exact hkeep fun _ => rfl
    · exact hkeep fun _ => rfl
    · exact Prog.Stays.raise
  · exact populateUsbDevices_appends fun _ h => h
  · refine (fetch_appends _).bind fun _ => Prog.Stays.ite ?_ Prog.Stays.pure
    exact hkeep fun _ => rfl

end Populating

/-- **The validity checks agree** over a configuration that is populated:
the strings that `parse` returns from give valid devices, those that are
appended are in range, and, where all before them are, `init` looks up no
id outside it. -/
structure ChecksAgree (str : Str) (ini : Ini) (config : Config) : Prop where
  strings : ∀ s ∈ ini.getList "usb_devices", ∀ dev,
    UsbDev.parse str s false = .ok dev → dev.isValid = true
  appended : ∃ devs, (populateConfig str ini config).2.usbDevices = config.usbDevices ++ devs ∧
    ∀ dev ∈ devs, dev.InRange
  lookups : (∀ dev ∈ config.usbDevices, dev.InRange) →
    ∀ (σ : Type) (env : Env σ) (given : Option ℕ) (c : FtdiContext σ),
      c.config.usbDevices = (populateConfig str ini config).2.usbDevices →
        ∃ es, (init env given c).2.trace = c.trace ++ es ∧
          ∀ l ∈ Context.lookups es,
            (0 ≤ l.vendor ∧ l.vendor ≤ 0xfffe) ∧ 0 ≤ l.product ∧ l.product ≤ 0xfffe

/-- **Where no string slips through** the checks agree, and nowhere else:
of a string, and of a configuration. -/
theorem checks_agree_iff (hstr : str.Signed) :
    (∀ s, (∀ dev, UsbDev.parse str s false = .ok dev → dev.isValid = true) ↔ ¬ Slips str s) ∧
    ∀ ini config, ChecksAgree str ini config ↔
      ∀ s ∈ ini.getList "usb_devices", ¬ Slips str s := by
  refine ⟨fun s => checks_agree_on hstr, fun ini config => ⟨fun h s hs => ?_, fun h => ?_⟩⟩
  · exact (checks_agree_on hstr).mp (h.strings s hs)
  · have hstrings : ∀ s ∈ ini.getList "usb_devices", ∀ dev,
        UsbDev.parse str s false = .ok dev → dev.isValid = true :=
      fun s hs => (checks_agree_on hstr).mpr (h s hs)
    obtain ⟨devs, hdevs, hgiven⟩ := populateConfig_appends str ini config
    have hrange : ∀ dev ∈ devs, dev.InRange := by
      intro dev hdev
      obtain ⟨s, hs, hparse⟩ := hgiven dev hdev
      exact inRange_iff.mpr (hstrings s hs dev hparse)
    refine ⟨hstrings, ⟨devs, hdevs, hrange⟩, fun hbefore σ env given c hc => ?_⟩
    obtain ⟨es, htrace, hes⟩ := init_lookups env given c
    refine ⟨es, htrace, fun l hl => ?_⟩
    obtain ⟨dev, hdev, usbCtx, devlist, rfl⟩ := hes l hl
    rw [hc, hdevs] at hdev
    rcases List.mem_append.mp hdev with hdev | hdev
    · exact hbefore dev hdev
    · exact hrange dev hdev

theorem plainStr_signed : plainStr.Signed := by
  intro s v hread
  have hmatch : (match Numeral.readSigned 16 s.toList with
    | none => .error "no numeral"
    | some v => if -2 ^ 31 ≤ v ∧ v < 2 ^ 31 then .ok v else .error "out of bounds" :
      Except String ℤ) = .ok v := hread
  cases hsigned : Numeral.readSigned 16 s.toList with
  | none =>
      rw [hsigned] at hmatch
      cases hmatch
  | some n =>
      rw [hsigned] at hmatch
      dsimp only at hmatch
      by_cases hbounds : -2 ^ 31 ≤ n ∧ n < 2 ^ 31
      · rw [if_pos hbounds] at hmatch
        cases hmatch
        exact ⟨rfl, hbounds⟩
      · rw [if_neg hbounds] at hmatch
        cases hmatch

/-- A file with one device string and nothing else. -/
def naming (s : String) : Ini where
  getUint32 _ fallback := .ok fallback
  getUint8 _ fallback := .ok fallback
  getString _ := ""
  getList _ := [s]

/-- The configuration such a file makes. -/
theorem populateConfig_naming (str : Str) {s : String}
    (hparse : UsbDev.parse str s false = .ok dev) (config : Config) :
    populateConfig str (naming s) config =
      (.ret (), { config with usbDevices := config.usbDevices ++ [dev] }) := by
  have hdevice : populateUsbDevice str s config =
      (.ret (), { config with usbDevices := config.usbDevices ++ [dev] }) := by
    unfold populateUsbDevice
    rw [hparse]
    rfl
  have hbaudrate : populateBaudrate (naming s) config = (.ret (), config) := rfl
  have hparity : populateParity str (naming s) config = (.ret (), config) := rfl
  have hflowctrl : populateFlowctrl str (naming s) config = (.ret (), config) := rfl
  have hdatabits : populateDatabits (naming s) config = (.ret 255, config) := rfl
  have hstopbits : populateStopbits (naming s) 255 config = (.ret (), config) := rfl
  have hdevices : Prog.each ((naming s).getList "usb_devices") (populateUsbDevice str) config =
      (.ret (), { config with usbDevices := config.usbDevices ++ [dev] }) :=
    Prog.bind_ret hdevice
  unfold populateConfig
  rw [Prog.bind_ret hbaudrate, Prog.bind_ret hparity, Prog.bind_ret hflowctrl,
    Prog.bind_ret hdatabits, Prog.bind_ret hstopbits, Prog.bind_ret hdevices]
  rfl

theorem checks_agree_sample : ChecksAgree plainStr (naming "0403:6001") {} := by
  refine ((checks_agree_iff plainStr_signed).2 (naming "0403:6001") {}).mpr fun s hs => ?_
  cases List.mem_singleton.mp hs
  rintro ⟨-, field, hfield, ds, n, hbelow, -⟩
  have hfields : field = "0403" ∨ field = "6001" := by
    have hsplit : (plainStr.split "0403:6001" ":").take 2 = ["0403", "6001"] := rfl
    rw [hsplit] at hfield
    simpa using hfield
  rcases hfields with rfl | rfl
  · cases hbelow
  · cases hbelow

/-- **A vendor of minus one** gets into the configuration, and is looked
up. -/
theorem minus_sign_slips :
    (∃ str : Str, str.Signed ∧ ¬ ∀ s dev, UsbDev.parse str s false = .ok dev →
      dev.isValid = true) ∧
    plainStr.Signed ∧ ¬ ChecksAgree plainStr (naming "-1:6001") {} ∧
    lookups (init granting (some 7)
      (construct true (populateConfig plainStr (naming "-1:6001") {}).2 ())).2.trace =
        [⟨some 7, -1, 0x6001, some [10]⟩] := by
  have hparse : UsbDev.parse plainStr "-1:6001" false = .ok ⟨-1, 0x6001, 0⟩ := rfl
  have hconfig : (populateConfig plainStr (naming "-1:6001") {}).2 =
      { usbDevices := [⟨-1, 0x6001, 0⟩] } := by
    rw [populateConfig_naming plainStr hparse]
    rfl
  refine ⟨⟨plainStr, plainStr_signed, fun h => ?_⟩, plainStr_signed, fun h => ?_, ?_⟩
  · exact Bool.false_ne_true (h _ _ hparse)
  · exact Bool.false_ne_true (h.strings _ (List.mem_singleton_self _) _ hparse)
  · rw [hconfig]
    rfl

end Context

end SgFtdi
