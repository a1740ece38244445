import Mathlib.Data.Int.Notation
import Mathlib.Data.Nat.Notation
import Mathlib.Order.Basic

/-!
# Numerals

A numeral is a list of digits, read in a base of at most sixteen with its
leading zeros and in either case of the letters. What `Nat.toDigits`
prints is read back, also with zeros before it, and no digit is a
separator.
-/

namespace SgFtdi

namespace Numeral

/-- The value of a digit. -/
def digitValue (c : Char) : Option ℕ :=
  if '0' ≤ c ∧ c ≤ '9' then some (c.toNat - '0'.toNat)
  else if 'a' ≤ c ∧ c ≤ 'f' then some (c.toNat - 'a'.toNat + 10)
  else if 'A' ≤ c ∧ c ≤ 'F' then some (c.toNat - 'A'.toNat + 10)
  else none

/-- Read digits behind those that are read. -/
def readDigits (b : ℕ) (acc : ℕ) : List Char → Option ℕ
  | [] => some acc
  | c :: cs => do
      let d ← digitValue c
      if d < b then readDigits b (acc * b + d) cs else none

/-- **A numeral**: digits, and at least one of them. -/
def read (b : ℕ) (cs : List Char) : Option ℕ := if cs = [] then none else readDigits b 0 cs

/-- A numeral with a minus sign or without. -/
def readSigned (b : ℕ) : List Char → Option ℤ
  | [] => none
  | c :: cs => if c = '-' then (read b cs).map (fun n : ℕ => -(n : ℤ))
      else (read b (c :: cs)).map Int.ofNat

variable {b n acc k : ℕ} {cs ds : List Char} {c : Char}

theorem digitValue_digitChar : ∀ d < 16, digitValue (Nat.digitChar d) = some d := by decide

theorem readDigits_cons (b acc : ℕ) (c : Char) (cs : List Char) :
    readDigits b acc (c :: cs) = (digitValue c).bind fun d =>
      if d < b then readDigits b (acc * b + d) cs else none := rfl

theorem readDigits_append (b acc : ℕ) (cs ds : List Char) :
    readDigits b acc (cs ++ ds) = (readDigits b acc cs).bind fun n => readDigits b n ds := by
  induction cs generalizing acc with
  | nil => rfl
  | cons c cs ih =>
      rw [List.cons_append, readDigits_cons, readDigits_cons]
      cases digitValue c with
      | none => rfl
      | some d =>
          rw [Option.bind_some, Option.bind_some]
          by_cases hd : d < b
          · rw [if_pos hd, if_pos hd]
            exact ih (acc * b + d)
          · rw [if_neg hd, if_neg hd]
            rfl

theorem readDigits_digitChar {d : ℕ} (hd : d < b) (hb : b ≤ 16) (acc : ℕ) :
    readDigits b acc [Nat.digitChar d] = some (acc * b + d) := by
  have hvalue := digitValue_digitChar d (by omega)
  rw [readDigits_cons, hvalue, Option.bind_some, if_pos hd]
  rfl

/-- **What is printed is read back.** -/
theorem readDigits_toDigits (hb : 1 < b) (hb16 : b ≤ 16) (n : ℕ) :
    readDigits b 0 (Nat.toDigits b n) = some n := by
  induction n using Nat.strongRecOn with
  | ind n ih =>
      rcases Nat.lt_or_ge n b with hlt | hge
      · rw [Nat.toDigits_of_lt_base hlt, readDigits_digitChar hlt hb16, Nat.zero_mul, Nat.zero_add]
      · have hdiv : n / b < n := Nat.div_lt_self (by omega) hb
        have hmod : n % b < b := Nat.mod_lt n (by omega)
        rw [Nat.toDigits_of_base_le hb hge, readDigits_append, ih _ hdiv, Option.bind_some,
          readDigits_digitChar hmod hb16, Nat.div_add_mod']

/-- Zeros in front are nothing. -/
theorem readDigits_zeros (hb : 0 < b) (k : ℕ) (cs : List Char) :
    readDigits b 0 (List.replicate k '0' ++ cs) = readDigits b 0 cs := by
  induction k with
  | zero => rfl
  | succ k ih =>
      have hzero : digitValue '0' = some 0 := rfl
      rw [List.replicate_succ, List.cons_append, readDigits_cons, hzero, Option.bind_some,
        if_pos hb, Nat.zero_mul]
      exact ih

/-- **A padded numeral is read back.** -/
theorem read_padded (hb : 1 < b) (hb16 : b ≤ 16) (k n : ℕ) :
    read b (List.replicate k '0' ++ Nat.toDigits b n) = some n := by
  have hne : List.replicate k '0' ++ Nat.toDigits b n ≠ [] := fun h =>
    Nat.toDigits_ne_nil (List.append_eq_nil_iff.mp h).2
  unfold read
  rw [if_neg hne, readDigits_zeros (by omega), readDigits_toDigits hb hb16]

theorem read_toDigits (hb : 1 < b) (hb16 : b ≤ 16) (n : ℕ) :
    read b (Nat.toDigits b n) = some n := read_padded hb hb16 0 n

/-- **Every character of what is read is a digit.** -/
theorem digitValue_of_mem (h : readDigits b acc cs = some n) (hc : c ∈ cs) :
    digitValue c ≠ none := by
  induction cs generalizing acc with
  | nil => cases hc
  | cons a cs ih =>
      rw [readDigits_cons] at h
      obtain ⟨d, hd, hrest⟩ := Option.bind_eq_some_iff.mp h
      rcases List.mem_cons.mp hc with rfl | hc
      · rw [hd]
        nofun
      · have hlt : d < b := by
          by_contra hge
          rw [if_neg hge] at hrest
          cases hrest
        rw [if_pos hlt] at hrest
        exact ih hrest hc

/-- What is no digit is not printed. -/
theorem not_mem_toDigits (hb : 1 < b) (hb16 : b ≤ 16) (n : ℕ) (hc : digitValue c = none) :
    c ∉ Nat.toDigits b n := fun hmem =>
  digitValue_of_mem (readDigits_toDigits hb hb16 n) hmem hc

theorem readSigned_cons (b : ℕ) (c : Char) (cs : List Char) :
    readSigned b (c :: cs) = if c = '-' then (read b cs).map (fun n : ℕ => -(n : ℤ))
      else (read b (c :: cs)).map Int.ofNat := rfl

/-- Without a sign a numeral is read as it is. -/
theorem readSigned_of_read (h : read b cs = some n) : readSigned b cs = some (n : ℤ) := by
  cases cs with
  | nil => cases h
  | cons c cs =>
      have hdigits : readDigits b 0 (c :: cs) = some n := h
      have hc : c ≠ '-' := by
        rintro rfl
        exact digitValue_of_mem hdigits List.mem_cons_self rfl
      rw [readSigned_cons, if_neg hc, h]
      rfl

/-- **The sign of what is read** is the minus sign of a numeral that is
not zero. -/
theorem readSigned_neg_iff {v : ℤ} (h : readSigned b cs = some v) :
    v < 0 ↔ ∃ ds n, cs = '-' :: ds ∧ read b ds = some n ∧ 0 < n := by
  cases cs with
  | nil => cases h
  | cons c cs =>
      rw [readSigned_cons] at h
      by_cases hc : c = '-'
      · rw [if_pos hc] at h
        obtain ⟨n, hn, rfl⟩ := Option.map_eq_some_iff.mp h
        constructor
        · intro hneg
          exact ⟨cs, n, by rw [hc], hn, by omega⟩
        · rintro ⟨ds, m, heq, hm, hpos⟩
          cases heq
          rw [hn] at hm
          cases hm
          omega
      · rw [if_neg hc] at h
        obtain ⟨n, -, rfl⟩ := Option.map_eq_some_iff.mp h
        constructor
        · intro hneg
          exact absurd hneg (by simp)
        · rintro ⟨ds, m, heq, -⟩
          cases heq
          exact absurd rfl hc

end Numeral

end SgFtdi
