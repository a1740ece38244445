import SgFtdi.Eeprom.Decode

/-!
# Where the strings are

The strings are written one after another, from a place above all fields
to the last word, which is for the checksum. They fill the rest of a small
EEPROM, where their counter starts in the second half and wraps around
into the first.
-/

namespace SgFtdi

namespace Ftdi

open Prog

/-- An integer in a byte. -/
theorem toNat_byte (x : ℤ) : ((byte x).toNat : ℤ) = x % 0x100 := by
  show ((UInt8.ofNat (x % 2 ^ 8).toNat).toNat : ℤ) = _
  rw [UInt8.toNat_ofNat']
  omega

/-- The sizes of an EEPROM that hold a whole image. -/
def Sized (n : ℕ) : Prop := n = 0x80 ∨ n = 0x100

/-- The mask takes a counter to a place of the EEPROM. -/
theorem and_sizeMask {n : ℕ} (hn : Sized n) (i : UInt8) :
    (i &&& sizeMask n).toNat = i.toNat % n := by
  rcases hn with rfl | rfl
  · have hmask : (sizeMask (0x80 : ℕ)).toNat = 2 ^ 7 - 1 := by decide
    rw [UInt8.toNat_and, hmask, Nat.and_two_pow_sub_one_eq_mod]
  · have hmask : (sizeMask (0x100 : ℕ)).toNat = 2 ^ 8 - 1 := by decide
    rw [UInt8.toNat_and, hmask, Nat.and_two_pow_sub_one_eq_mod]

/-! ## Writing through the counter -/

/-- Write some bytes. -/
def Cursor.puts (mask : UInt8) (bytes : List UInt8) (c : Cursor) : Cursor :=
  bytes.foldl (fun c v => c.put mask v) c

/-- Characters of two bytes. -/
def wide : List UInt8 → List UInt8
  | [] => []
  | ch :: chars => ch :: 0 :: wide chars

/-- A string as it is written. -/
def encoded (s : Option CString) : List UInt8 :=
  byte (stringSize s * 2 + 2) :: 0x03 :: wide (stringBytes s)

theorem length_wide : ∀ chars : List UInt8, (wide chars).length = 2 * chars.length
  | [] => rfl
  | _ :: chars => by
      rw [wide, List.length_cons, List.length_cons, List.length_cons, length_wide chars]
      omega

theorem length_stringBytes (s : Option CString) : (stringBytes s).length = stringSize s := by
  rcases s with _ | s
  · rfl
  · rw [stringBytes, List.length_take, stringSize]
    exact min_eq_left (Nat.mod_le _ _)

theorem length_encoded (s : Option CString) : (encoded s).length = 2 + 2 * stringSize s := by
  rw [encoded, List.length_cons, List.length_cons, length_wide, length_stringBytes]
  omega

theorem putChars_eq (mask : UInt8) : ∀ (chars : List UInt8) (c : Cursor),
    c.putChars mask chars = c.puts mask (wide chars)
  | [], _ => rfl
  | ch :: chars, c => putChars_eq mask chars ((c.put mask ch).put mask 0)

theorem putString_eq (mask : UInt8) (s : Option CString) (c : Cursor) :
    c.putString mask s = c.puts mask (encoded s) := putChars_eq mask _ _

/-- **What is written through the counter** stands in one row, as long as
the counter does not pass its last value. -/
theorem puts_eq {n : ℕ} (hn : Sized n) : ∀ (bytes : List UInt8) {p : ℕ} {output : Image},
    0x80 ≤ p → p + bytes.length ≤ 0x100 →
      (⟨UInt8.ofNat p, output⟩ : Cursor).puts (sizeMask n) bytes =
        ⟨UInt8.ofNat (p + bytes.length), output.write (p % n) bytes⟩
  | [], p, output, _, _ => by
      rw [Cells.write_nil]
      rfl
  | v :: bytes, p, output, hlow, hhigh => by
      rw [List.length_cons] at hhigh
      have hp : (UInt8.ofNat p).toNat = p := by
        rw [UInt8.toNat_ofNat']
        omega
      have hput : (⟨UInt8.ofNat p, output⟩ : Cursor).put (sizeMask n) v =
          ⟨UInt8.ofNat (p + 1), output.set (p % n) v⟩ := by
        rw [Cursor.put, and_sizeMask hn, hp, UInt8.ofNat_add]
        rfl
      show ((⟨UInt8.ofNat p, output⟩ : Cursor).put (sizeMask n) v).puts (sizeMask n) bytes = _
      rw [hput, puts_eq hn bytes (by omega) (by omega), Cells.write_cons]
      have hlen : p + 1 + bytes.length = p + (v :: bytes).length := by
        rw [List.length_cons]
        omega
      rcases bytes with _ | ⟨w, bytes⟩
      · rw [Cells.write_nil, Cells.write_nil, hlen]
      · rw [List.length_cons] at hhigh
        have hnext : (p + 1) % n = p % n + 1 := by
          rcases hn with rfl | rfl <;> omega
        rw [hlen, hnext]

/-! ## The places of the strings -/

/-- Where the strings end up. -/
def stringsEnd (type : ChipType) (e : Eeprom) : ℕ :=
  (stringsStart type).toNat + (encoded e.manufacturer).length + (encoded e.product).length +
    (encoded e.serial).length

/-- The strings of an EEPROM leave room for all else. -/
def StringsFit (type : ChipType) (e : Eeprom) : Prop :=
  (stringSize e.manufacturer + stringSize e.product + stringSize e.serial) * 2 ≤
    userAreaSize type

/-- **The last word is left to the checksum.** -/
theorem stringsEnd_le {type : ChipType} {e : Eeprom} (h : StringsFit type e) :
    stringsEnd type e ≤ 0xfe := by
  unfold stringsEnd
  rw [length_encoded, length_encoded, length_encoded]
  unfold StringsFit at h
  cases type <;> simp only [userAreaSize] at h <;> simp [stringsStart] <;> omega

/-- **A string is in an image**, with its offset and its length at some
places: it is behind the fields and before the last word. -/
structure Holds (out : Image) (n base offset length : ℕ) (s : Option CString) : Prop where
  length_eq : out.get length = byte (stringSize s * 2 + 2)
  place : ∃ p, (out.get offset).toNat % n = p ∧ base ≤ p ∧ p + (encoded s).length ≤ n - 2 ∧
    out.read p (encoded s).length = encoded s

/-- A string stays where nothing is changed. -/
theorem Holds.congr {out out' : Image} {n base offset length : ℕ} {s : Option CString}
    (h : Holds out n base offset length s) (ho : out'.get offset = out.get offset)
    (hl : out'.get length = out.get length)
    (hin : ∀ a, base ≤ a → a < n - 2 → out'.get a = out.get a) :
    Holds out' n base offset length s := by
  obtain ⟨p, hp, hbase, hend, hread⟩ := h.place
  refine ⟨hl.trans h.length_eq, p, by rw [ho]; exact hp, hbase, hend, ?_⟩
  exact (Cells.read_congr fun a hlow hhigh => hin a (by omega) (by omega)).trans hread

/-- What the strings leave alone, and where they are. -/
structure Strung (type : ChipType) (e : Eeprom) (n : ℕ) (before out : Image) : Prop where
  kept : ∀ a, 0 < a → a < (stringsStart type).toNat % n → (a < 0x0E ∨ 0x13 < a) →
    out.get a = before.get a
  kept_zero : stringsEnd type e + 3 ≤ 0x100 → out.get 0 = before.get 0
  first : (out.get 0x0E).toNat % n = (stringsStart type).toNat % n
  manufacturer : Holds out n ((stringsStart type).toNat % n) 0x0E 0x0F e.manufacturer
  product : Holds out n ((stringsStart type).toNat % n) 0x10 0x11 e.product
  serial : Holds out n ((stringsStart type).toNat % n) 0x12 0x13 e.serial

/-- One byte through the counter. -/
theorem get_put {n : ℕ} (hn : Sized n) {q a : ℕ} {output : Image} {v : UInt8}
    (ha : a ≠ q % 0x100 % n) :
    ((⟨UInt8.ofNat q, output⟩ : Cursor).put (sizeMask n) v).output.get a = output.get a := by
  have hq : (UInt8.ofNat q).toNat = q % 0x100 := UInt8.toNat_ofNat'
  show (output.set _ v).get a = _
  rw [and_sizeMask hn, hq, Cells.get_set_ne ha]

/-- **The fields behind the strings** are above all that is to be kept, but
for the last of them, which may be at the start of the image. -/
theorem get_behind {n : ℕ} (hn : Sized n) {q a : ℕ} {output : Image} {v w x : UInt8}
    (hq : 0x80 ≤ q) (hq' : q ≤ 0xfe) (ha : a < q % n) (hzero : 0 < a ∨ q + 3 ≤ 0x100) :
    ((((⟨UInt8.ofNat q, output⟩ : Cursor).put (sizeMask n) v).put (sizeMask n) w).put
      (sizeMask n) x).output.get a = output.get a := by
  have hnext : ∀ (r : ℕ) (o : Image) (b : UInt8),
      (⟨UInt8.ofNat r, o⟩ : Cursor).put (sizeMask n) b =
        ⟨UInt8.ofNat (r + 1), ((⟨UInt8.ofNat r, o⟩ : Cursor).put (sizeMask n) b).output⟩ := by
    intro r o b
    rw [UInt8.ofNat_add]
    rfl
  rw [hnext q, hnext (q + 1)]
  rw [get_put hn, get_put hn, get_put hn]
  all_goals rcases hn with rfl | rfl <;> omega

theorem or_high {p : ℕ} (hlow : 0x80 ≤ p) (hhigh : p < 0x100) :
    (UInt8.ofNat p ||| 0x80).toNat = p := by
  have hall : ∀ p < 0x100, 0x80 ≤ p → (UInt8.ofNat p ||| 0x80).toNat = p := by decide +kernel
  exact hall p hhigh hlow

/-! ## Writing the strings -/

/-- **The strings in a row**, each with its offset and its length: the first
stands at `b`, and its offset is `p`. -/
def inRow (e : Eeprom) (p b : ℕ) (before : Image) : Image :=
  let m := (encoded e.manufacturer).length
  let q := m + (encoded e.product).length
  (((((((before.set 0x0E (UInt8.ofNat p)).write b (encoded e.manufacturer)).set 0x0F
    (byte (stringSize e.manufacturer * 2 + 2))).set 0x10 (UInt8.ofNat (p + m) ||| 0x80)).write
    (b + m) (encoded e.product)).set 0x11 (byte (stringSize e.product * 2 + 2))).set 0x12
    (UInt8.ofNat (p + q) ||| 0x80)).write (b + q) (encoded e.serial)

/-- How long the row is. -/
def rowLength (e : Eeprom) : ℕ :=
  (encoded e.manufacturer).length + (encoded e.product).length + (encoded e.serial).length

section InRow

variable (e : Eeprom) (p : ℕ) (before : Image) {b : ℕ}

theorem inRow_kept {a : ℕ} (ha : a < b) (hnot : a < 0x0E ∨ 0x13 < a) :
    (inRow e p b before).get a = before.get a := by
  unfold inRow
  simp (disch := omega) only [Cells.get_set_ne, Cells.get_write_of_out]

/-- The offsets and the lengths ahead of the row. -/
theorem inRow_heads (hb : 0x14 ≤ b) :
    (inRow e p b before).get 0x0E = UInt8.ofNat p ∧
      (inRow e p b before).get 0x0F = byte (stringSize e.manufacturer * 2 + 2) ∧
      (inRow e p b before).get 0x10 =
        UInt8.ofNat (p + (encoded e.manufacturer).length) ||| 0x80 ∧
      (inRow e p b before).get 0x11 = byte (stringSize e.product * 2 + 2) ∧
      (inRow e p b before).get 0x12 =
        UInt8.ofNat (p + ((encoded e.manufacturer).length + (encoded e.product).length)) |||
          0x80 := by
  unfold inRow
  refine ⟨?_, ?_, ?_, ?_, ?_⟩ <;> simp (disch := omega) only [Cells.get_set_ne,
    Cells.get_write_of_out, Cells.get_set_self]

/-- The strings of the row. -/
theorem inRow_reads (hb : 0x14 ≤ b) (hend : b + rowLength e ≤ 0xfe) :
    (inRow e p b before).read b (encoded e.manufacturer).length = encoded e.manufacturer ∧
      (inRow e p b before).read (b + (encoded e.manufacturer).length)
        (encoded e.product).length = encoded e.product ∧
      (inRow e p b before).read
        (b + ((encoded e.manufacturer).length + (encoded e.product).length))
        (encoded e.serial).length = encoded e.serial := by
  unfold inRow
  unfold rowLength at hend
  refine ⟨?_, ?_, ?_⟩ <;> simp (disch := omega) only [Cells.read_set_of_out,
    Cells.read_write_of_out, Cells.read_write]

end InRow

/-- Where a row of strings stands in an image: in a small one the counter is
beyond its end, but all the strings are on the same side of it. -/
theorem row_range {type : ChipType} {e : Eeprom} {n : ℕ} (hn : Sized n) (hfit : StringsFit type e) :
    0x80 ≤ (stringsStart type).toNat ∧ (stringsStart type).toNat + rowLength e ≤ 0xfe ∧
      0x14 ≤ (stringsStart type).toNat % n ∧ n ≤ 0x100 ∧
      (stringsStart type).toNat % n + rowLength e ≤ n - 2 ∧
      ∀ k ≤ rowLength e, ((stringsStart type).toNat + k) % n =
        (stringsStart type).toNat % n + k := by
  have hend := stringsEnd_le hfit
  have hstart : 0x94 ≤ (stringsStart type).toNat ∧ (stringsStart type).toNat ≤ 0xa0 := by
    cases type <;> decide
  unfold stringsEnd at hend
  unfold rowLength
  refine ⟨by omega, by omega, ?_, ?_, ?_, fun k hk => ?_⟩ <;> rcases hn with rfl | rfl <;> omega

/-- **Writing the strings** puts them in a row. What comes behind them is
above the row, but for one byte that may wrap around to the start. -/
theorem putStrings_row {type : ChipType} {e : Eeprom} {n : ℕ} (hn : Sized n) (hsize : e.size = n)
    (hfit : StringsFit type e) (before : Image) :
    (putStrings type e before).get 0x13 = byte (stringSize e.serial * 2 + 2) ∧
      ∀ a, a ≠ 0x13 → a < (stringsStart type).toNat % n + rowLength e →
        (0 < a ∨ stringsEnd type e + 3 ≤ 0x100) →
        (putStrings type e before).get a = (inRow e (stringsStart type).toNat
          ((stringsStart type).toNat % n) before).get a := by
  obtain ⟨hlow, hhigh, hbase, -, htop, hmod⟩ := row_range hn hfit
  have hstringsEnd : stringsEnd type e = (stringsStart type).toNat + rowLength e := by
    unfold stringsEnd rowLength
    omega
  rw [hstringsEnd]
  have hrow : rowLength e = (encoded e.manufacturer).length + (encoded e.product).length +
    (encoded e.serial).length := rfl
  unfold putStrings inRow
  simp only [putString_eq, hsize]
  generalize hp : (stringsStart type).toNat = p at *
  have hi : stringsStart type = UInt8.ofNat p := by
    rw [← hp, UInt8.ofNat_toNat]
  rw [hi, puts_eq hn _ (by omega) (by omega)]
  dsimp only
  rw [puts_eq hn _ (by omega) (by omega)]
  dsimp only
  rw [puts_eq hn _ (by omega) (by omega), hmod _ (by omega)]
  rw [Nat.add_assoc p, hmod _ (by omega)]
  refine ⟨Cells.get_set_self (by omega), fun a h19 ha hzero => ?_⟩
  have hbehind := hmod (rowLength e) le_rfl
  rw [hrow, ← Nat.add_assoc p] at hbehind
  rw [Cells.get_set_ne h19]
  split
  · exact get_behind hn (by omega) (by omega) (by omega) (by omega)
  · rfl

/-- **The strings are in the image**, which keeps what is ahead of them. -/
theorem strung_putStrings {type : ChipType} {e : Eeprom} {n : ℕ} (hn : Sized n)
    (hsize : e.size = n) (hfit : StringsFit type e) (before : Image) :
    Strung type e n before (putStrings type e before) := by
  obtain ⟨hlow, hhigh, hbase, hn', htop, hmod⟩ := row_range hn hfit
  obtain ⟨hlength, hget⟩ := putStrings_row hn hsize hfit before
  obtain ⟨hE, hF, h10, h11, h12⟩ := inRow_heads e (stringsStart type).toNat before hbase
  obtain ⟨hm, hq, hs⟩ := inRow_reads e (stringsStart type).toNat before hbase (by omega)
  have hrow : rowLength e = (encoded e.manufacturer).length + (encoded e.product).length +
    (encoded e.serial).length := rfl
  have hhead : ∀ a, 0 < a → a < 0x13 → (putStrings type e before).get a =
      (inRow e (stringsStart type).toNat ((stringsStart type).toNat % n) before).get a :=
    fun a h0 ha => hget a (by omega) (by omega) (.inl h0)
  have hread : ∀ q k, (stringsStart type).toNat % n ≤ q →
      q + k ≤ (stringsStart type).toNat % n + rowLength e → (putStrings type e before).read q k =
        (inRow e (stringsStart type).toNat ((stringsStart type).toNat % n) before).read q k :=
    fun q k hq hk => Cells.read_congr fun a _ _ => hget a (by omega) (by omega) (.inl (by omega))
  have hfirst : ((putStrings type e before).get 0x0E).toNat % n =
      (stringsStart type).toNat % n := by
    rw [hhead _ (by omega) (by omega), hE, UInt8.ofNat_toNat]
  refine ⟨fun a h0 ha hnot => ?_, fun hzero => ?_, hfirst, ⟨?_, _, hfirst, le_rfl, by omega, ?_⟩,
    ⟨?_, (stringsStart type).toNat % n + (encoded e.manufacturer).length, ?_,
      Nat.le_add_right _ _, by omega, ?_⟩, ⟨hlength, (stringsStart type).toNat % n +
      ((encoded e.manufacturer).length + (encoded e.product).length), ?_, Nat.le_add_right _ _,
      by omega, ?_⟩⟩
  · exact (hget a (by omega) (by omega) (.inl h0)).trans (inRow_kept _ _ _ ha hnot)
  · exact (hget 0 (by omega) (by omega) (.inr hzero)).trans (inRow_kept _ _ _ (by omega) (by omega))
  · exact (hhead _ (by omega) (by omega)).trans hF
  · exact (hread _ _ le_rfl (by omega)).trans hm
  · exact (hhead _ (by omega) (by omega)).trans h11
  · rw [hhead _ (by omega) (by omega), h10, or_high (by omega) (by omega), hmod _ (by omega)]
  · exact (hread _ _ (by omega) (by omega)).trans hq
  · rw [hhead _ (by omega) (by omega), h12, or_high (by omega) (by omega), hmod _ (by omega)]
  · exact (hread _ _ (by omega) (by omega)).trans hs

/-! ## Reading a string -/

/-- The string that is read back: an absent one is an empty one, and what is
longer than the counter of its length is cut. -/
def written (s : Option CString) : CString where
  bytes := stringBytes s
  noZero := by
    rcases s with _ | s
    · exact List.not_mem_nil
    · exact fun h => s.noZero (List.mem_of_mem_take h)

theorem getElem?_wide : ∀ (chars : List UInt8) (j : ℕ), (wide chars)[2 * j]? = chars[j]?
  | [], _ => rfl
  | _ :: _, 0 => rfl
  | _ :: chars, j + 1 => getElem?_wide chars j

theorem cString_eq (s : CString) : cString s.bytes = s := by
  have hall : s.bytes.takeWhile (fun b => b != 0) = s.bytes := by
    rw [List.takeWhile_eq_self_iff]
    intro b hb
    have hne : b ≠ 0 := fun h => s.noZero (h ▸ hb)
    simpa using hne
  unfold cString
  congr

/-- **A string in an image is read.** -/
theorem Holds.decode {σ : Type} {out : Image} {n base offset length : ℕ} {s : Option CString}
    (hn : Sized n) (h : Holds out n base offset length s) (u : Programmer σ) :
    decodeString out n offset length u = (.ret (some (written s)), u) := by
  obtain ⟨p, hp, -, hend, hread⟩ := h.place
  have hlen := length_encoded s
  have hn' : n ≤ 0x100 := by
    rcases hn with rfl | rfl <;> decide
  have hsize : (out.get length).toNat / 2 = stringSize s + 1 := by
    have hbyte : (byte (stringSize s * 2 + 2)).toNat = stringSize s * 2 + 2 := by
      have hint := toNat_byte (stringSize s * 2 + 2)
      omega
    rw [h.length_eq, hbyte]
    omega
  have hchars : (List.range (stringSize s)).map (fun j => out.get (2 * j + p + 2)) =
      stringBytes s := by
    refine List.ext_getElem (by simp [length_stringBytes]) fun j hj hj' => ?_
    -- the characters are every second byte behind the header
    have hcell : (out.read p (encoded s).length)[2 * j + 2]? = (stringBytes s)[j]? := by
      rw [hread]
      exact getElem?_wide (stringBytes s) j
    rw [length_stringBytes] at hj'
    rw [Cells.read, List.getElem?_map, List.getElem?_range (by omega), Option.map_some,
      List.getElem?_eq_getElem (by rwa [length_stringBytes])] at hcell
    have hplace : 2 * j + p + 2 = p + (2 * j + 2) := by omega
    rw [List.getElem_map, List.getElem_range, hplace]
    exact Option.some.inj hcell
  unfold decodeString
  rw [hsize, if_pos (Nat.succ_pos _), and_sizeMask hn, hp, if_neg (by omega),
    Nat.add_sub_cancel, hchars]
  exact congrArg (fun x => (Outcome.ret (some x), u)) (cString_eq (written s))

end Ftdi

end SgFtdi
