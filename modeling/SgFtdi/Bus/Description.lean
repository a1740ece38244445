import SgFtdi.Bus.Calls
import SgFtdi.Common.Numeral

/-!
# Opening by a description

A text says which device `ftdi_usb_open_string` opens. The numbers in it
are read by `strtoul`, which takes the base from the front of each.
-/

namespace SgFtdi

namespace Bus

open Prog Ftdi

/-! ## Numbers -/

/-- `isspace`. -/
def isSpace (c : Char) : Bool := c ∈ [' ', '\t', '\n', '\u000B', '\u000C', '\r']

/-- Whether a character is a digit in a base. -/
def isDigit (b : ℕ) (c : Char) : Bool := (Numeral.digitValue c).any (· < b)

/-- The base that a number is in, and where its digits start. -/
def baseOf : List Char → ℕ × List Char
  | '0' :: x :: d :: rest =>
      if (x = 'x' ∨ x = 'X') ∧ isDigit 16 d = true then (16, d :: rest)
      else (8, '0' :: x :: d :: rest)
  | '0' :: rest => (8, '0' :: rest)
  | cs => (10, cs)

/-- What `strtoul` returns: the number, what is behind it, and whether it is
out of range. -/
structure Parsed where
  value : ℕ
  rest : List Char
  erange : Bool
deriving DecidableEq, Repr

/-- `strtoul` with the base left open, where an `unsigned long` has 64 bits. -/
def strtoul (cs : List Char) : Parsed :=
  let body := cs.dropWhile isSpace
  let digits := baseOf (if body.head? = some '-' ∨ body.head? = some '+' then body.tail else body)
  let run := digits.2.takeWhile (isDigit digits.1)
  match Numeral.read digits.1 run with
  -- no digits: the end is put where the text starts
  | none => ⟨0, cs, false⟩
  | some v =>
      if v ≥ 2 ^ 64 then ⟨2 ^ 64 - 1, digits.2.drop run.length, true⟩
      else ⟨if body.head? = some '-' then (2 ^ 64 - v) % 2 ^ 64 else v,
        digits.2.drop run.length, false⟩

/-! ## Descriptions -/

variable {σ : Type} (env : Env σ)

/-- A description that cannot be read. -/
def illegal : Run σ Unit := errorReturn (-11) "illegal description format"

/-- A device by its place, where `sscanf` reads the bus and the address. -/
def openPath (sscanf : List Char → Option (ℕ × ℕ)) (text : List Char) : Run σ Unit := do
  let devs ← askWorld env.getDeviceList
  match devs with
  | none => errorReturn (-2) "libusb_get_device_list() failed"
  | some devs => do
      observe .listed
      match sscanf text with
      | none => errorReturnFreeDeviceList (-11) "illegal description format"
      | some place =>
          match devs.find? fun dev => env.busAddress dev = place with
          | some dev => openFound env dev
          | none => errorReturnFreeDeviceList (-3) "device not found"

/-- A device by its numbers, and by its index or its serial number. -/
def openIds (kind : Char) (text : List Char) : Run σ Unit :=
  let vendor := strtoul text
  if vendor.rest.head? ≠ some ':' ∨ vendor.rest = text ∨ vendor.erange = true then illegal
  else
    let text := vendor.rest.tail
    let product := strtoul text
    if product.rest = text ∨ product.erange = true then illegal
    else
      -- an `unsigned int` has half of the bits
      let found serial : Wanted := ⟨vendor.value % 2 ^ 32, product.value % 2 ^ 32, none, serial⟩
      if kind = 'i' ∧ product.rest ≠ [] then
        if product.rest.head? ≠ some ':' then illegal
        else
          let text := product.rest.tail
          let index := strtoul text
          if index.rest ≠ [] ∨ index.rest = text ∨ index.erange = true then illegal
          else ftdiUsbOpenDescIndex env (found none) (index.value % 2 ^ 32)
      else if kind = 's' then
        if product.rest.head? ≠ some ':' then illegal
        else ftdiUsbOpenDescIndex env (found (some (String.ofList product.rest.tail))) 0
      else ftdiUsbOpenDescIndex env (found none) 0

/-- `ftdi_usb_open_string`. -/
def ftdiUsbOpenString (sscanf : List Char → Option (ℕ × ℕ)) : List Char → Run σ Unit
  | kind :: ':' :: text =>
      if kind = 'd' then openPath env sscanf text
      else if kind = 'i' ∨ kind = 's' then openIds env kind text
      else illegal
  | _ => illegal

/-! ## Numbers that are read -/

/-- **A number as it may be written**: in decimal, in octal with a zero in
front of it, or in hexadecimal with `0x`. -/
inductive Writes : List Char → ℕ → Prop where
  | decimal {c : Char} {cs : List Char} {n : ℕ} (hc : c ≠ '0')
      (h : Numeral.read 10 (c :: cs) = some n) : Writes (c :: cs) n
  | octal {cs : List Char} {n : ℕ} (h : Numeral.read 8 ('0' :: cs) = some n) :
      Writes ('0' :: cs) n
  | hex {x : Char} {cs : List Char} {n : ℕ} (hx : x = 'x' ∨ x = 'X')
      (h : Numeral.read 16 cs = some n) : Writes ('0' :: x :: cs) n

variable {b n : ℕ} {cs rest : List Char} {c : Char}

theorem isDigit_of_mem {acc : ℕ} (h : Numeral.readDigits b acc cs = some n) (hc : c ∈ cs) :
    isDigit b c = true := by
  induction cs generalizing acc with
  | nil => cases hc
  | cons a cs ih =>
      rw [Numeral.readDigits_cons] at h
      obtain ⟨d, hd, hrest⟩ := Option.bind_eq_some_iff.mp h
      have hlt : d < b := by
        by_contra hge
        rw [if_neg hge] at hrest
        cases hrest
      rcases List.mem_cons.mp hc with rfl | hc
      · simp [isDigit, hd, hlt]
      · rw [if_pos hlt] at hrest
        exact ih hrest hc

theorem isDigit_of_read (h : Numeral.read b cs = some n) :
    cs ≠ [] ∧ ∀ c ∈ cs, isDigit b c = true := by
  unfold Numeral.read at h
  split at h
  · cases h
  · next hne => exact ⟨hne, fun c hc => isDigit_of_mem h hc⟩

/-- A digit is no space and no sign. -/
theorem not_space_of_isDigit (h : isDigit b c = true) :
    isSpace c = false ∧ c ≠ '-' ∧ c ≠ '+' ∧ c ≠ ':' := by
  have hne : ∀ c', Numeral.digitValue c' = none → c ≠ c' := by
    rintro c' hc' rfl
    simp [isDigit, hc'] at h
  refine ⟨?_, hne _ (by decide), hne _ (by decide), hne _ (by decide)⟩
  simp only [isSpace, List.mem_cons, List.not_mem_nil, or_false, decide_eq_false_iff_not, not_or]
  exact ⟨hne _ (by decide), hne _ (by decide), hne _ (by decide), hne _ (by decide),
    hne _ (by decide), hne _ (by decide)⟩

/-- What may stand behind a number. -/
def Stops (rest : List Char) : Prop := rest = [] ∨ rest.head? = some ':'

theorem takeWhile_digits (h : ∀ c ∈ cs, isDigit b c = true) (hrest : Stops rest) :
    (cs ++ rest).takeWhile (isDigit b) = cs := by
  have hstop : rest.takeWhile (isDigit b) = [] := by
    rcases hrest with rfl | hcolon
    · rfl
    · cases rest with
      | nil => rfl
      | cons c rest =>
          obtain rfl := Option.some.inj hcolon
          rfl
  rw [List.takeWhile_append_of_pos h, hstop, List.append_nil]

/-- **The digits behind their base** are read, up to what stops them. -/
theorem strtoul_eq {text ds : List Char} {a : Char} (ha : isDigit 10 a = true)
    (htext : text.head? = some a) (hbase : baseOf text = (b, ds ++ rest))
    (hread : Numeral.read b ds = some n) (hn : n < 2 ^ 64) (hrest : Stops rest) :
    strtoul text = ⟨n, rest, false⟩ := by
  obtain ⟨hspace, hminus, hplus, -⟩ := not_space_of_isDigit ha
  have hbody : text.dropWhile isSpace = text := by
    cases text with
    | nil => rfl
    | cons a' text =>
        obtain rfl := Option.some.inj htext
        exact List.dropWhile_cons_of_neg (by simp [hspace])
  have hrun := takeWhile_digits (isDigit_of_read hread).2 hrest
  unfold strtoul
  simp only [hbody, htext, Option.some.injEq, hminus, hplus, or_self, if_false, hbase, hrun, hread]
  rw [if_neg (by omega), List.drop_left]

/-- **`strtoul` reads what is written.** -/
theorem strtoul_writes (h : Writes cs n) (hn : n < 2 ^ 64) (hrest : Stops rest) :
    strtoul (cs ++ rest) = ⟨n, rest, false⟩ := by
  cases h with
  | @decimal c cs _ hc h =>
      have hdigit := (isDigit_of_read h).2 c List.mem_cons_self
      refine strtoul_eq hdigit rfl ?_ h hn hrest
      rw [List.cons_append, baseOf]
      · exact fun x d rest' hcons => hc (List.cons.inj hcons).1
      · exact fun rest' hcons => hc (List.cons.inj hcons).1
  | @octal cs _ h =>
      refine strtoul_eq (by decide) rfl ?_ h hn hrest
      have hdigits := (isDigit_of_read h).2
      rw [List.cons_append]
      unfold baseOf
      split
      next x d rest' heq =>
        -- an `x` would be among the digits, or be what stops them
        have hx : ¬((x = 'x' ∨ x = 'X') ∧ isDigit 16 d = true) := by
          rintro ⟨hx, -⟩
          cases cs with
          | nil =>
              obtain rfl : rest = x :: d :: rest' := (List.cons.inj heq).2
              rcases hrest with hnil | hcolon
              · cases hnil
              · obtain rfl := Option.some.inj hcolon
                exact absurd hx (by decide)
          | cons c cs =>
              obtain rfl : c = x := (List.cons.inj (List.cons.inj heq).2).1
              have hdigit := hdigits c (List.mem_cons_of_mem _ List.mem_cons_self)
              rcases hx with rfl | rfl
              · exact absurd hdigit (by decide)
              · exact absurd hdigit (by decide)
        rw [if_neg hx, ← heq]
      next rest' hno heq => rw [← heq]
      next hno hno' => exact absurd rfl (hno' _)
  | @hex x cs _ hx h =>
      obtain ⟨hne, hdigits⟩ := isDigit_of_read h
      refine strtoul_eq (by decide) rfl ?_ h hn hrest
      obtain ⟨d, ds, rfl⟩ := List.exists_cons_of_ne_nil hne
      exact if_pos ⟨hx, hdigits d List.mem_cons_self⟩

theorem Writes.ne_nil (h : Writes cs n) : cs ≠ [] := by
  cases h <;> exact List.cons_ne_nil _ _

/-- A number that is read takes something from the text. -/
theorem rest_ne (h : Writes cs n) : rest ≠ cs ++ rest := fun heq =>
  h.ne_nil (List.append_left_eq_self.mp heq.symm)

/-- **A description opens the device that it names**: by its numbers, in
whatever base they are written, with an index or a serial number, which may
be any text. -/
theorem description_opens (sscanf : List Char → Option (ℕ × ℕ)) {v p i : List Char}
    {vendor product index : ℕ} (hv : Writes v vendor) (hp : Writes p product)
    (hi : Writes i index) (hvendor : vendor < 2 ^ 32) (hproduct : product < 2 ^ 32)
    (hindex : index < 2 ^ 32) (serial : String) :
    ftdiUsbOpenString env sscanf ('i' :: ':' :: (v ++ ':' :: p)) =
        ftdiUsbOpenDescIndex env ⟨vendor, product, none, none⟩ 0 ∧
      ftdiUsbOpenString env sscanf ('i' :: ':' :: (v ++ ':' :: (p ++ ':' :: i))) =
        ftdiUsbOpenDescIndex env ⟨vendor, product, none, none⟩ index ∧
      ftdiUsbOpenString env sscanf ('s' :: ':' :: (v ++ ':' :: (p ++ ':' :: serial.toList))) =
        ftdiUsbOpenDescIndex env ⟨vendor, product, none, some serial⟩ 0 := by
  have hvread : ∀ rest, strtoul (v ++ ':' :: rest) = ⟨vendor, ':' :: rest, false⟩ := fun _ =>
    strtoul_writes hv (by omega) (.inr rfl)
  have hpread : ∀ rest, strtoul (p ++ ':' :: rest) = ⟨product, ':' :: rest, false⟩ := fun _ =>
    strtoul_writes hp (by omega) (.inr rfl)
  have hiread : strtoul i = ⟨index, [], false⟩ := by
    rw [← List.append_nil i]
    exact strtoul_writes hi (by omega) (.inl rfl)
  have hpend : strtoul p = ⟨product, [], false⟩ := by
    rw [← List.append_nil p]
    exact strtoul_writes hp (by omega) (.inl rfl)
  have hvendor' : vendor % 4294967296 = vendor := Nat.mod_eq_of_lt hvendor
  have hproduct' : product % 4294967296 = product := Nat.mod_eq_of_lt hproduct
  have hindex' : index % 4294967296 = index := Nat.mod_eq_of_lt hindex
  refine ⟨?_, ?_, ?_⟩
  · simp [ftdiUsbOpenString, openIds, hvread, hpend, rest_ne hv, hp.ne_nil.symm, hvendor',
      hproduct']
  · simp [ftdiUsbOpenString, openIds, hvread, hpread, hiread, rest_ne hv, rest_ne hp,
      hi.ne_nil.symm, hvendor', hproduct', hindex']
  · simp [ftdiUsbOpenString, openIds, hvread, hpread, rest_ne hv, rest_ne hp,
      hvendor', hproduct']

theorem description_opens_sample :
    ftdiUsbOpenString pair (fun _ => none)
        ('s' :: ':' :: (['0', 'x', '4', '0', '3'] ++ ':' :: (['2', '4', '5', '7', '7'] ++
          ':' :: "A4".toList))) =
      ftdiUsbOpenDescIndex pair second 0 :=
  (description_opens pair (fun _ => none) (.hex (.inl rfl) (by decide)) (.decimal (by decide)
    (by decide)) (i := ['0']) (.octal (n := 0) (by decide)) (by decide) (by decide)
    (by decide) "A4").2.2

end Bus

end SgFtdi
