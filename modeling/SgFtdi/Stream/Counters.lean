import SgFtdi.Stream.Submissions
import SgFtdi.Stream.Moves.Log

/-!
# Stream — what the counters count

Two callbacks add to the counters of an entry, and the timer reports and
clears them. An `Account` replays the record for one entry: how often its
callback was called and how many bytes it dealt with, and what the counter
callback was told of both. What was told and what is still on the entry
make up what happened, whatever order things happen in. The steps that
leave the counters alone are `Unbooked`; the few that do not are taken one
by one. What the counter callback was called with is read off the list of
a user who keeps one.
-/

namespace SgFtdi

namespace Stream

open Prog Relation

variable {σ : Type} {env : Env σ} {m m' t u : Machine σ} {i j : ℕ}

/-! ## The account of an entry -/

/-- What tells the entries apart, and what the bytes of one are. -/
structure Name where
  streamId : ℕ
  transferId : ℕ
  isReading : Bool
  isModemStatus : Bool
deriving DecidableEq, Repr

/-- The payload of a packet that was handed to the user: all of it but the
modem status, which is still in front where it was asked for. -/
def Name.payload (d : Name) (bytes : List UInt8) : ℕ :=
  if d.isModemStatus then bytes.length - 2 else bytes.length

/-- **The account of an entry**: the transfer whose callback is under way,
with whether it came back completed to a running engine; the callbacks and
the bytes of the entry; and what was reported of both. -/
structure Account where
  current : Option (ℕ × Bool)
  callbacks : ℕ
  bytes : ℕ
  reportedCallbacks : UInt64
  reportedBytes : UInt64
deriving DecidableEq, Repr

/-- Nothing has happened. -/
def Account.empty : Account := ⟨none, 0, 0, 0, 0⟩

/-- Bytes that the callback under way deals with, where it is the one of
the entry. -/
def Account.add (i n : ℕ) (a : Account) : Account :=
  if a.current.map Prod.fst = some i then { a with bytes := a.bytes + n } else a

/-- **One entry of the record.** The bytes of a reading entry are the
payload of the packets handed over while its callback runs, for a transfer
that came back completed to a running engine; those of a writing entry
are what it tries to confirm. -/
def Account.post (i : ℕ) (d : Name) (a : Account) (o : Seen) : Account :=
  match o.what with
  | .completed j _ _ status _ _ =>
      { a with
        current := some (j, o.running && decide (status = .completed))
        callbacks := if j = i then a.callbacks + 1 else a.callbacks }
  | .boundary _ => { a with current := none }
  | .readBuffer _ bytes =>
      if d.isReading = true ∧ a.current.map Prod.snd = some true then a.add i (d.payload bytes)
      else a
  | .confirmed _ len => if d.isReading = false then a.add i len.toNat else a
  | .counted s isReading t callbacks bytes =>
      if s = d.streamId ∧ isReading = d.isReading ∧ t = d.transferId then
        { a with
          reportedCallbacks := a.reportedCallbacks + callbacks
          reportedBytes := a.reportedBytes + bytes }
      else a
  | _ => a

/-- The account of the entry at a place, by a record. -/
def account (i : ℕ) (d : Name) (trace : List Seen) : Account :=
  trace.foldl (Account.post i d) .empty

theorem account_append (i : ℕ) (d : Name) (trace seg : List Seen) :
    account i d (trace ++ seg) = seg.foldl (Account.post i d) (account i d trace) :=
  List.foldl_append

theorem account_note (i : ℕ) (d : Name) (m : Machine σ) (o : Obs) :
    account i d (m.note o).trace = (account i d m.trace).post i d ⟨m.shouldRun, o⟩ :=
  account_append i d m.trace [⟨m.shouldRun, o⟩]

/-- What no account is about. -/
def Obs.unaccounted : Obs → Prop
  | .confirmed _ _ => False
  | .readBuffer _ _ => False
  | .completed _ _ _ _ _ _ => False
  | .boundary _ => False
  | .counted _ _ _ _ _ => False
  | _ => True

theorem account_grows {trace trace' : List Seen} (h : Grows (·.what.unaccounted) trace trace')
    (i : ℕ) (d : Name) : account i d trace' = account i d trace := by
  obtain ⟨seg, rfl, hseg⟩ := h
  rw [account_append]
  induction seg generalizing trace with
  | nil => rfl
  | cons o seg ih =>
      have hpost : (account i d trace).post i d o = account i d trace := by
        have ho := hseg o List.mem_cons_self
        obtain ⟨running, what⟩ := o
        cases what <;> first | rfl | exact ho.elim
      rw [List.foldl_cons, hpost]
      exact ih fun o ho => hseg o (List.mem_cons_of_mem _ ho)

/-! ## What is on the entries -/

/-- What an entry keeps of its account. -/
structure Book where
  name : Name
  callbacks : UInt64
  bytes : UInt64
deriving DecidableEq, Repr

/-- Who an entry is. -/
def FtdiStreamStaticState.name (e : FtdiStreamStaticState) : Name :=
  ⟨e.streamId, e.transferId, e.isReading, e.isModemStatus⟩

/-- What is on an entry. -/
def FtdiStreamStaticState.book (e : FtdiStreamStaticState) : Book :=
  ⟨e.name, e.counterCallbacks, e.counterBytes⟩

/-- What is on the entries. -/
def FtdiStreamState.books (m : FtdiStreamState) : Option (List Book) :=
  m.streamstates.map (·.map FtdiStreamStaticState.book)

/-- What is on the entry at a place. -/
def FtdiStreamState.bookAt (m : FtdiStreamState) (i : ℕ) : Option Book :=
  (m.entryAt i).map FtdiStreamStaticState.book

/-- The book of an entry. -/
theorem bookAt_of_entry {e : FtdiStreamStaticState} (he : m.entryAt i = some e) :
    m.bookAt i = some e.book := by
  unfold FtdiStreamState.bookAt
  rw [he]
  rfl

theorem bookAt_eq (m : FtdiStreamState) (i : ℕ) : m.bookAt i = (m.books.getD [])[i]? := by
  unfold FtdiStreamState.bookAt FtdiStreamState.books FtdiStreamState.entryAt
    FtdiStreamState.entries
  cases m.streamstates with
  | none => rfl
  | some es => simp

/-- **Nothing is written to a book**, and what is put on record is in no
account. -/
structure Unbooked (m m' : Machine σ) : Prop where
  books : m'.books = m.books
  streams : m'.streams = m.streams
  trace : Grows (·.what.unaccounted) m.trace m'.trace

namespace Unbooked

theorem of_plain (h : Plain env m m') : Unbooked m m' := by
  refine ⟨?_, h.streams, h.trace.mono fun o ho => ?_⟩
  · unfold FtdiStreamState.books
    rw [h.streamstates]
  · obtain ⟨running, what⟩ := o
    cases what <;> first | exact trivial | exact ho.elim

theorem note {o : Obs} (h : o.unaccounted) : Unbooked m (m.note o) := ⟨rfl, rfl, .one h⟩

/-- The user is told something, and comes back. -/
theorem of_told {t : Telling} (h : Quiet env (m.told env t) m') : Unbooked (m.note t.obs) m' :=
  let hq := of_plain (Plain.quiet h)
  ⟨hq.books, hq.streams, hq.trace⟩

/-- An entry is written to, but not its book. -/
theorem modify {f : FtdiStreamStaticState → FtdiStreamStaticState}
    (hf : ∀ e, (f e).book = e.book) : Unbooked m (m.modifyEntry i f) := by
  refine ⟨?_, rfl, .refl⟩
  unfold FtdiStreamState.books Machine.modifyEntry
  cases m.streamstates with
  | none => rfl
  | some es =>
      show some ((es.modify i f).map _) = some (es.map _)
      congr 1
      refine List.ext_getElem? fun j => ?_
      rw [List.getElem?_map, List.getElem?_map, List.getElem?_modify]
      cases es[j]? with
      | none => rfl
      | some e =>
          show some (FtdiStreamStaticState.book (if i = j then f e else e)) = some e.book
          split
          · rw [hf]
          · rfl

theorem bookAt (h : Unbooked m m') (i : ℕ) : m'.bookAt i = m.bookAt i := by
  rw [bookAt_eq, bookAt_eq, h.books]

end Unbooked

theorem bookAt_modifyEntry (m : Machine σ) (i j : ℕ)
    (f : FtdiStreamStaticState → FtdiStreamStaticState) :
    (m.modifyEntry i f).bookAt j =
      if i = j then (m.entryAt j).map fun e => (f e).book else m.bookAt j := by
  unfold FtdiStreamState.bookAt
  rw [entryAt_modifyEntry]
  split
  · rw [Option.map_map]
    rfl
  · rfl

/-! ## What leaves the counters alone -/

/-- **Kept where no book is written to.** -/
def Unaffected (I : Machine σ → Prop) : Prop := ∀ m m', Unbooked m m' → I m → I m'

section Unaffected

variable {I : Machine σ → Prop} (h : Unaffected I)
include h

theorem Unaffected.plain (env : Env σ) : Untouched env I :=
  fun m m' hp hm => h m m' (.of_plain hp) hm

theorem Unaffected.observe {o : Obs} (ho : o.unaccounted) :
    Preserves I (observe o : Run σ Unit) := Preserves.alter fun m hm => h m _ (.note ho) hm

theorem Unaffected.modify (i : ℕ) {f : FtdiStreamStaticState → FtdiStreamStaticState}
    (hf : ∀ e, (f e).book = e.book) : Preserves I (alter (·.modifyEntry i f) : Run σ Unit) :=
  Preserves.alter fun m hm => h m _ (.modify hf) hm

theorem Unaffected.libusbSubmitTransfer (i : ℕ) :
    Preserves I (libusbSubmitTransfer env i) := by
  refine Preserves.bind Preserves.look fun m => Preserves.bind
    ((h.plain env).askWorld fun _ => .submitTransfer i) fun rc => ?_
  cases m.entryAt i with
  | none => exact Preserves.pure
  | some e =>
      refine Preserves.bind (h.observe trivial) fun _ => ?_
      refine Preserves.ite (Preserves.bind (h.modify i fun _ => rfl) fun _ => ?_) Preserves.pure
      exact Preserves.pure

theorem Unaffected.fillBuffer (i : ℕ) (e : FtdiStreamStaticState) :
    Preserves I (fillBuffer env i e) := by
  refine Preserves.bind (h.observe trivial) fun _ => ?_
  refine Preserves.bind ((h.plain env).userCall fun _ => .callback _ _ _ _ _ (by decide))
    fun answer => ?_
  exact Preserves.bind (h.modify i fun _ => rfl) fun _ => Preserves.pure

theorem Unaffected.submit (i : ℕ) : Preserves I (submit env i) := by
  refine Preserves.bind Preserves.look fun m => ?_
  cases m.entryAt i with
  | none => exact Preserves.pure
  | some e =>
      refine Preserves.ite Preserves.raise (Preserves.ite Preserves.pure ?_)
      refine Preserves.ite Preserves.pure (Preserves.bind ?_ fun length => ?_)
      · exact Preserves.ite Preserves.pure (h.fillBuffer i e)
      · refine Preserves.bind (h.modify i fun _ => rfl) fun _ => Preserves.ite Preserves.raise ?_
        refine Preserves.ite (h.modify i fun _ => rfl) ?_
        refine Preserves.bind (h.libusbSubmitTransfer i) fun rc => ?_
        exact Preserves.ite Preserves.raise Preserves.pure

theorem Unaffected.arm (i : ℕ) : Preserves I (arm env i) := by
  refine Preserves.bind Preserves.look fun m => ?_
  cases m.entryAt i with
  | none => exact Preserves.pure
  | some e =>
      refine Preserves.bind (h.modify i fun _ => rfl) fun _ => ?_
      exact Preserves.ite (h.submit i) Preserves.pure

theorem Unaffected.cancelEntry (i : ℕ) : Preserves I (cancelEntry i : Run σ Unit) := by
  refine Preserves.bind Preserves.look fun m => ?_
  cases m.entryAt i with
  | none => exact Preserves.pure
  | some e =>
      refine Preserves.ite (Preserves.bind (h.observe trivial) fun _ => ?_) Preserves.pure
      exact h.modify i fun _ => rfl

end Unaffected

/-! ## The books -/

variable (env) in
/-- **A counter callback that is heard**: the stream has one, and it never
throws. -/
def Heard (streams : List FtdiStreamEntry) (s : ℕ) : Prop :=
  (∃ stream, streams[s]? = some stream ∧ stream.hasCounterCallback = true) ∧
    ∀ isReading t callbacks bytes w,
      (env.counterCallback s isReading t callbacks bytes w).1.result = .ok ()

/-- **An entry is balanced**: what was reported and what is still on it are
what happened, modulo the width of the counters. -/
structure Balanced (a : Account) (b : Book) : Prop where
  callbacks : a.reportedCallbacks + b.callbacks = UInt64.ofNat a.callbacks
  bytes : a.reportedBytes + b.bytes = UInt64.ofNat a.bytes

variable (env) in
/-- **The books are in order**, while the callback of `cur` is under way:
no two entries are reported under one name, and those whose reports are
heard are balanced. -/
structure Books (cur : Option (ℕ × Bool)) (m : Machine σ) : Prop where
  current : ∀ i d, (account i d m.trace).current = cur
  names : ∀ i j b b', m.bookAt i = some b → m.bookAt j = some b' →
    b.name.streamId = b'.name.streamId → b.name.transferId = b'.name.transferId → i = j
  balanced : ∀ i b, m.bookAt i = some b → Heard env m.streams b.name.streamId →
    Balanced (account i b.name m.trace) b

variable {cur : Option (ℕ × Bool)}

theorem books_unaffected : Unaffected (Books env cur : Machine σ → Prop) := by
  intro m m' hu h
  have haccount := account_grows hu.trace
  refine ⟨fun i d => ?_, fun i j b b' hb hb' => ?_, fun i b hb hheard => ?_⟩
  · rw [haccount]
    exact h.current i d
  · rw [hu.bookAt] at hb hb'
    exact h.names i j b b' hb hb'
  · rw [hu.bookAt] at hb
    rw [hu.streams] at hheard
    rw [haccount]
    exact h.balanced i b hb hheard

/-- Bytes are added to the account of the entry whose callback is under
way, and to no other. -/
theorem Account.add_self {a : Account} (h : a.current.map Prod.fst = some i) (n : ℕ) :
    a.add i n = { a with bytes := a.bytes + n } := if_pos h

theorem Account.add_other {a : Account} (h : a.current.map Prod.fst = some i) (hne : i ≠ j)
    (n : ℕ) : a.add j n = a := if_neg fun h' => hne (Option.some_inj.mp (h.symm.trans h'))

/-- More bytes happened, and are on the entry. -/
theorem Balanced.add {a : Account} {b : Book} (h : Balanced a b) (n : ℕ) :
    Balanced { a with bytes := a.bytes + n } { b with bytes := b.bytes + UInt64.ofNat n } where
  callbacks := h.callbacks
  bytes := by
    show a.reportedBytes + (b.bytes + UInt64.ofNat n) = UInt64.ofNat (a.bytes + n)
    rw [UInt64.ofNat_add, ← h.bytes, UInt64.add_assoc]

/-- **The books stay in order** where every entry keeps its name and every
balanced entry stays balanced. -/
theorem Books.of_change {cur' : Option (ℕ × Bool)} (h : Books env cur m)
    (hstreams : m'.streams = m.streams)
    (hcurrent : ∀ i d, (account i d m'.trace).current = cur')
    (hbook : ∀ i b, m'.bookAt i = some b → ∃ b', m.bookAt i = some b' ∧ b'.name = b.name ∧
      (Heard env m.streams b'.name.streamId → Balanced (account i b'.name m.trace) b' →
        Balanced (account i b'.name m'.trace) b)) :
    Books env cur' m' := by
  refine ⟨hcurrent, fun i j b₁ b₂ hb₁ hb₂ hs ht => ?_, fun i b hb hheard => ?_⟩
  · obtain ⟨b₁', hb₁', hn₁, -⟩ := hbook i b₁ hb₁
    obtain ⟨b₂', hb₂', hn₂, -⟩ := hbook j b₂ hb₂
    rw [← hn₁, ← hn₂] at hs ht
    exact h.names i j b₁' b₂' hb₁' hb₂' hs ht
  · obtain ⟨b', hb', hn, hkeep⟩ := hbook i b hb
    rw [hstreams, ← hn] at hheard
    rw [← hn]
    exact hkeep hheard (h.balanced i b' hb' hheard)

/-- What is on an entry after a write that keeps its name. -/
theorem bookAt_written {f : FtdiStreamStaticState → FtdiStreamStaticState}
    {g : Book → Book} (hf : ∀ e, (f e).book = g e.book) {b : Book}
    (hb : (m.modifyEntry i f).bookAt j = some b) :
    ∃ b', m.bookAt j = some b' ∧ b = if i = j then g b' else b' := by
  rw [bookAt_modifyEntry] at hb
  by_cases hij : i = j
  · rw [if_pos hij] at hb
    obtain ⟨e, he, rfl⟩ := Option.map_eq_some_iff.mp hb
    exact ⟨e.book, bookAt_of_entry he, by rw [if_pos hij, hf]⟩
  · rw [if_neg hij] at hb
    exact ⟨b, hb, (if_neg hij).symm⟩

/-- **Bytes are counted** for the entry whose callback is under way, and
put on record. -/
theorem Books.moved (h : Books env cur m) (hcur : cur.map Prod.fst = some i) {d : Name}
    {o : Obs} {n : ℕ} (hd : ∀ b, m.bookAt i = some b → b.name = d)
    (hpost : ∀ j d' a, a.current = cur → (j = i → d' = d) →
      Account.post j d' a ⟨m.shouldRun, o⟩ = a.add j n)
    (hcurrent : ∀ j d' a, (Account.post j d' a ⟨m.shouldRun, o⟩).current = a.current) :
    Books env cur ((m.modifyEntry i (.countBytes n)).note o) := by
  have haccount : ∀ j d', account j d' ((m.modifyEntry i (.countBytes n)).note o).trace =
      (account j d' m.trace).post j d' ⟨m.shouldRun, o⟩ := fun j d' => account_note j d' _ o
  refine h.of_change rfl (fun j d' => ?_) fun j b hb => ?_
  · rw [haccount]
    exact (hcurrent j d' _).trans (h.current j d')
  · obtain ⟨b', hb', hb⟩ := bookAt_written
      (g := fun b => { b with bytes := b.bytes + UInt64.ofNat n }) (fun _ => rfl) hb
    have hcur' : (account j b'.name m.trace).current.map Prod.fst = some i := by
      rw [h.current j b'.name]
      exact hcur
    refine ⟨b', hb', by rw [hb]; split <;> rfl, fun _ hold => ?_⟩
    rw [haccount, hpost j b'.name _ (h.current j b'.name) fun hji => hd b' (hji ▸ hb'), hb]
    by_cases hij : i = j
    · subst hij
      rw [if_pos rfl, Account.add_self hcur']
      exact hold.add n
    · rw [if_neg hij, Account.add_other hcur' hij]
      exact hold

/-! ## The callbacks -/

variable (env) in
/-- **A callback at work** on an entry of that name. -/
structure Working (i : ℕ) (b : Bool) (d : Name) (m : Machine σ) : Prop where
  books : Books env (some (i, b)) m
  name : ∀ book, m.bookAt i = some book → book.name = d

variable {b : Bool} {e : FtdiStreamStaticState} {d : Name}

theorem working_unaffected : Unaffected (Working env i b d : Machine σ → Prop) :=
  fun m m' hu h => ⟨books_unaffected m m' hu h.books, fun book hbook =>
    h.name book ((hu.bookAt i).symm.trans hbook)⟩

theorem Working.counts {o : Obs} {n : ℕ} (h : Working env i b d m)
    (hbooks : Books env (some (i, b)) ((m.modifyEntry i (.countBytes n)).note o)) :
    Working env i b d ((m.modifyEntry i (.countBytes n)).note o) := by
  refine ⟨hbooks, fun book hbook => ?_⟩
  obtain ⟨b', hb', hb⟩ := bookAt_written
    (g := fun b => { b with bytes := b.bytes + UInt64.ofNat n }) (fun _ => rfl) hbook
  rw [if_pos rfl] at hb
  rw [hb]
  exact h.name b' hb'

/-- A packet is handed to the user of a reading entry. -/
theorem Working.handed (h : Working env i true d m) (hread : d.isReading = true) (s : ℕ)
    (bytes : List UInt8) :
    Working env i true d
      ((m.modifyEntry i (.countBytes (d.payload bytes))).note (.readBuffer s bytes)) := by
  refine h.counts (h.books.moved rfl h.name (fun j d' a ha hd => ?_) fun j d' a => ?_)
  · show (if d'.isReading = true ∧ a.current.map Prod.snd = some true then
      a.add j (d'.payload bytes) else a) = a.add j (d.payload bytes)
    by_cases hji : j = i
    · rw [hd hji, if_pos ⟨hread, by rw [ha]; rfl⟩]
    · have hcur : a.current.map Prod.fst = some i := by rw [ha]; rfl
      rw [Account.add_other hcur (Ne.symm hji), Account.add_other hcur (Ne.symm hji), ite_self]
  · show (if d'.isReading = true ∧ a.current.map Prod.snd = some true then
      a.add j (d'.payload bytes) else a).current = _
    unfold Account.add
    split
    · split <;> rfl
    · rfl

/-- A writing entry tries to confirm what was moved. -/
theorem Working.confirms (h : Working env i b d m) (hwrite : d.isReading = false) (s n : ℕ) :
    Working env i b d ((m.modifyEntry i (.countBytes n)).note (.confirmed s n)) := by
  refine h.counts (h.books.moved rfl h.name (fun j d' a ha hd => ?_) fun j d' a => ?_)
  · show (if d'.isReading = false then a.add j (n : ℤ).toNat else a) = a.add j n
    rw [Int.toNat_natCast]
    by_cases hji : j = i
    · rw [hd hji, if_pos hwrite]
    · have hcur : a.current.map Prod.fst = some i := by rw [ha]; rfl
      rw [Account.add_other hcur (Ne.symm hji), ite_self]
  · show (if d'.isReading = false then a.add j (n : ℤ).toNat else a).current = _
    unfold Account.add
    split
    · split <;> rfl
    · rfl

/-- **A packet without payload** is handed over and not counted. -/
theorem Working.handedEmpty (h : Working env i true d m) (hread : d.isReading = true) (s : ℕ)
    {bytes : List UInt8} (hempty : d.payload bytes = 0) :
    Working env i true d (m.note (.readBuffer s bytes)) := by
  have hcounted := h.handed hread s bytes
  rw [hempty] at hcounted
  have hnothing : Unbooked m (m.modifyEntry i (.countBytes 0)) := by
    refine .modify fun e => ?_
    show Book.mk e.name e.counterCallbacks (e.counterBytes + 0) = _
    rw [UInt64.add_zero]
    rfl
  have hback : Unbooked ((m.modifyEntry i (.countBytes 0)).note (.readBuffer s bytes))
      (m.note (.readBuffer s bytes)) := ⟨hnothing.books.symm, rfl, .of_eq rfl⟩
  exact working_unaffected _ _ hback hcounted

/-- What is passed on of a message has all of its payload. -/
theorem messageBytes_payload {message bytes : List UInt8}
    (h : messageBytes d.isModemStatus message = some bytes) :
    d.payload bytes = message.length - 2 := by
  unfold messageBytes at h
  unfold Name.payload
  by_cases hmodem : d.isModemStatus = true
  · rw [if_pos hmodem] at h ⊢
    split at h
    · rw [Option.some_inj.mp h]
    · cases h
  · rw [if_neg hmodem] at h ⊢
    split at h
    · rw [← Option.some_inj.mp h, List.length_drop]
    · cases h

/-- The user is told what is on record. -/
theorem tell_working {t : Telling} (h : Working env i b d (m.note t.obs)) :
    Ends (tell env t) (fun _ u => Working env i b d u) (fun _ u => Working env i b d u) m :=
  (tell_ends t m).mono (fun _ _ hu => working_unaffected _ _ (.of_told hu.1) h)
    fun _ _ hu => working_unaffected _ _ (.of_told hu.1) h

theorem readMessage_working (hname : e.name = d) (hread : e.isReading = true)
    (message : List UInt8) :
    Preserves (Working env i true d) (readMessage env i e message) := by
  subst hname
  unfold readMessage
  cases hbytes : messageBytes e.isModemStatus message with
  | none => exact Preserves.pure
  | some bytes =>
      intro m h
      dsimp only
      rw [← messageBytes_payload (d := e.name) hbytes, ends_bind, ends_alter]
      unfold handOver
      rw [ends_bind]
      exact tell_working (t := .readBuffer e.streamId bytes) (h.handed hread e.streamId bytes)

theorem readLoop_working (hname : e.name = d) (hread : e.isReading = true) :
    ∀ (turns : ℕ) (data : List UInt8),
      Preserves (Working env i true d) (readLoop env i e turns data)
  | 0, [] => Preserves.pure
  | _ + 1, [] => Preserves.pure
  | 0, _ :: _ => Preserves.hang
  | turns + 1, _ :: _ =>
      Preserves.bind Preserves.look fun _ =>
        Preserves.bind (readMessage_working hname hread _) fun _ =>
          readLoop_working hname hread turns _

/-- **`read_callback` counts what it hands over.** -/
theorem deliver_working (hname : e.name = d) (hread : e.isReading = true) :
    Preserves (Working env i true d) (deliver env i e) := by
  unfold deliver
  refine Preserves.ite ?_ ?_
  · refine Preserves.bind
      ((working_unaffected.plain env).alter fun _ => ⟨rfl, rfl, rfl, rfl, .refl, .refl⟩)
      fun _ => ?_
    exact readLoop_working hname hread _ _
  · intro m h
    rw [ends_ite]
    refine ⟨fun hstatus => ?_, fun _ => h⟩
    -- the modem status alone is no payload
    have hempty : d.payload e.brought = 0 := by
      have hlength : e.brought.length ≤ e.transfer.actualLength := List.length_take_le _ _
      have hmodem : d.isModemStatus = true := by
        rw [← hname]
        exact hstatus.1
      unfold Name.payload
      rw [if_pos hmodem]
      omega
    unfold handOver
    rw [ends_bind]
    exact tell_working (t := .readBuffer e.streamId e.brought)
      (h.handedEmpty (by rw [← hname]; exact hread) e.streamId hempty)

theorem readTransfer_working (hname : e.name = d) (hread : e.isReading = true)
    (hb : e.transfer.status = .completed → b = true) :
    Preserves (Working env i b d) (readTransfer env i e) := by
  intro m h
  unfold readTransfer
  rw [ends_ite]
  refine ⟨fun hstatus => ?_, fun _ => h⟩
  obtain rfl := hb hstatus
  refine Preserves.bind (deliver_working hname hread) (fun _ => ?_) m h
  refine Preserves.bind (working_unaffected.libusbSubmitTransfer i) fun rc => ?_
  exact Preserves.ite Preserves.raise Preserves.pure

/-- **`write_callback` counts what it tries to confirm.** -/
theorem confirmTransfer_working (hname : e.name = d) (hwrite : e.isReading = false) :
    Preserves (Working env i b d) (confirmTransfer env i e) := by
  intro m h
  unfold confirmTransfer
  rw [ends_ite]
  refine ⟨fun _ => ?_, fun _ => h⟩
  rw [ends_bind, ends_alter, ends_bind]
  have hconfirms := h.confirms (hname ▸ hwrite) e.streamId e.transfer.actualLength
  refine (tell_working (t := .confirmTransfer e.streamId e.transfer.actualLength) hconfirms).mono
    (fun answer u hu => ?_) fun _ _ hu => hu
  have hlength : Unbooked u (u.modifyEntry i (.setLength answer.1)) := .modify fun _ => rfl
  rw [ends_bind, ends_alter, ends_ite]
  exact ⟨fun _ => working_unaffected _ _ hlength hu, fun _ => working_unaffected _ _ hlength hu⟩

theorem writeTransfer_working (hname : e.name = d) (hwrite : e.isReading = false) :
    Preserves (Working env i b d) (writeTransfer env i e) := by
  refine Preserves.bind (confirmTransfer_working hname hwrite) fun _ => ?_
  refine Preserves.bind (working_unaffected.fillBuffer i e) fun length => ?_
  refine Preserves.bind (working_unaffected.modify i fun _ => rfl) fun _ => ?_
  refine Preserves.ite Preserves.raise (Preserves.ite (working_unaffected.modify i fun _ => rfl) ?_)
  refine Preserves.bind (working_unaffected.libusbSubmitTransfer i) fun rc => ?_
  exact Preserves.ite Preserves.raise Preserves.pure

/-- An entry is switched off. -/
theorem switch_working :
    Preserves (Working env i b d) (alter (·.modifyEntry i (.setEnabled false)) : Run σ Unit) :=
  working_unaffected.modify i fun _ => rfl

/-- **`read_callback`** after it is counted. -/
theorem readCallback_working (he : m.entryAt i = some e) (hname : e.name = d)
    (hread : e.isReading = true)
    (hb : e.transfer.status = .completed → m.shouldRun = true → b = true)
    (h : Working env i b d (m.modifyEntry i .countCallback)) :
    Ends (readCallback env i) (fun _ t => Working env i b d t)
      (fun _ t => Working env i b d t) m := by
  unfold readCallback
  rw [ends_bind, ends_alter, ends_bind, ends_look, id_look, entryAt_modifyEntry_self, he]
  show Ends (if _ then _ else _) _ _ _
  rw [ends_ite]
  refine ⟨fun _ => h, fun _ => ?_⟩
  rw [ends_ite]
  refine ⟨fun _ => ?_, fun hrun => ?_⟩
  · exact Preserves.bind switch_working (fun _ => (working_unaffected.plain env).cancel) _ h
  · have hrun' : m.shouldRun = true := Bool.not_eq_false _ ▸ fun hf => hrun (.inr hf)
    refine Preserves.rescue (readTransfer_working (e := e.countCallback) hname hread
      fun hs => hb hs hrun')
      (fun cause => Preserves.bind switch_working fun _ =>
        (working_unaffected.plain env).error _) _ h

/-- **`write_callback`** after it is counted. -/
theorem writeCallback_working (he : m.entryAt i = some e) (hname : e.name = d)
    (hwrite : e.isReading = false)
    (h : Working env i b d (m.modifyEntry i .countCallback)) :
    Ends (writeCallback env i) (fun _ t => Working env i b d t)
      (fun _ t => Working env i b d t) m := by
  unfold writeCallback
  rw [ends_bind, ends_alter, ends_bind, ends_look, id_look, entryAt_modifyEntry_self, he]
  show Ends (if _ then _ else _) _ _ _
  rw [ends_ite]
  refine ⟨fun _ => h, fun _ => ?_⟩
  rw [ends_ite]
  refine ⟨fun _ => ?_, fun _ => ?_⟩
  · refine Preserves.bind switch_working (fun _ => ?_) _ h
    exact Preserves.bind (working_unaffected.modify i fun _ => rfl) fun _ =>
      (working_unaffected.plain env).cancel
  · refine Preserves.rescue (writeTransfer_working (e := e.countCallback) hname hwrite)
      (fun cause => ?_) _ h
    exact Preserves.bind ((working_unaffected.plain env).error _) fun _ => switch_working

/-! ## A completion -/

/-- **A callback begins**: it is counted for its entry, on record and on the
entry. -/
theorem Books.begun {c : Completion} (h : Books env none m)
    (he : m.entryAt c.transfer = some e) :
    Working env c.transfer (m.shouldRun && decide (c.status = .completed)) e.name
      (m.landed e c) := by
  have hbook : ∀ j b, (m.landed e c).bookAt j = some b → ∃ b', m.bookAt j = some b' ∧
      b = if c.transfer = j then { b' with callbacks := b'.callbacks + 1 } else b' := by
    intro j b hb
    obtain ⟨b₁, hb₁, hb⟩ := bookAt_written
      (g := fun b => { b with callbacks := b.callbacks + 1 }) (fun _ => rfl) hb
    obtain ⟨b₂, hb₂, hb₁⟩ := bookAt_written (m := m) (i := c.transfer) (f := .land c) (g := id)
      (fun _ => rfl) hb₁
    rw [id, ite_self] at hb₁
    exact ⟨b₂, hb₂, hb₁ ▸ hb⟩
  have haccount : ∀ j d, account j d (m.landed e c).trace = { account j d m.trace with
      current := some (c.transfer, m.shouldRun && decide (c.status = .completed))
      callbacks := if c.transfer = j then (account j d m.trace).callbacks + 1
        else (account j d m.trace).callbacks } :=
    fun j d => account_note j d (m.modifyEntry c.transfer (.land c)) _
  refine ⟨h.of_change rfl (fun j d => ?_) fun j b hb => ?_, fun b hb => ?_⟩
  · rw [haccount]
  · obtain ⟨b', hb', hb⟩ := hbook j b hb
    refine ⟨b', hb', by rw [hb]; split <;> rfl, fun _ hold => ?_⟩
    rw [haccount, hb]
    split
    · refine ⟨?_, hold.bytes⟩
      show (account j b'.name m.trace).reportedCallbacks + (b'.callbacks + 1) =
        UInt64.ofNat ((account j b'.name m.trace).callbacks + 1)
      rw [UInt64.ofNat_add, ← hold.callbacks, UInt64.add_assoc]
      rfl
    · exact ⟨hold.callbacks, hold.bytes⟩
  · obtain ⟨b', hb', hb⟩ := hbook c.transfer b hb
    have hbe : b' = e.book := Option.some_inj.mp (hb'.symm.trans (bookAt_of_entry he))
    rw [hb, if_pos rfl, hbe]
    rfl

/-- The callback has come back. -/
theorem Books.ended (h : Books env cur m) (flags : List (Bool × Bool)) :
    Books env none (m.note (.boundary flags)) := by
  have haccount : ∀ i d, account i d (m.note (.boundary flags)).trace =
      { account i d m.trace with current := none } := fun i d => account_note i d m _
  refine h.of_change rfl (fun i d => by rw [haccount]) fun i b hb => ⟨b, hb, rfl, fun _ hold => ?_⟩
  rw [haccount]
  exact ⟨hold.callbacks, hold.bytes⟩

/-- **A completion** keeps the books. -/
theorem complete_books (c : Completion) : Preserves (Books env none) (complete env c) := by
  intro m h
  have hbooks : Ends (complete env c) (fun _ t => Books env none t) (fun _ _ => True) m := by
    unfold complete
    rw [ends_bind, ends_look, id_look]
    cases he : m.entryAt c.transfer with
    | none => exact h
    | some e =>
        dsimp only
        rw [ends_ite]
        refine ⟨fun _ => h, fun _ => ?_⟩
        have he₁ : ((m.modifyEntry c.transfer (.land c)).note
            (.completed c.transfer e.streamId e.isReading c.status (e.moved c)
              (e.actual c))).entryAt c.transfer = some (e.land c) := by
          rw [note_entryAt, entryAt_modifyEntry_self, he]
          rfl
        have hbegun := h.begun (c := c) he
        rw [ends_bind, ends_alter, ends_bind, ends_observe, ends_bind]
        unfold callback
        rw [ends_ite]
        refine ⟨fun hread => ?_, fun hwrite => ?_⟩
        · refine (readCallback_working he₁ rfl hread (fun hstatus hrun => ?_)
            hbegun).mono (fun _ t ht => ht.books.ended t.flags) fun _ _ _ => trivial
          have hcompleted : c.status = .completed := hstatus
          have hrunning : m.shouldRun = true := hrun
          rw [hcompleted, hrunning]
          rfl
        · exact (writeCallback_working he₁ rfl (Bool.not_eq_true _ ▸ hwrite)
            hbegun).mono (fun _ t ht => ht.books.ended t.flags) fun _ _ _ => trivial
  exact (hbooks.and (complete_ends c m)).mono (fun _ _ ht => ht.1) fun _ _ ht => ht.2.elim

/-! ## The timer -/

/-- **An entry is reported**: what it was is on record, and it starts again
from zero. -/
theorem Balanced.reported {a : Account} {b : Book} (h : Balanced a b) :
    Balanced { a with
        reportedCallbacks := a.reportedCallbacks + b.callbacks
        reportedBytes := a.reportedBytes + b.bytes } { b with callbacks := 0, bytes := 0 } where
  callbacks := by
    show a.reportedCallbacks + b.callbacks + 0 = _
    rw [UInt64.add_zero, h.callbacks]
  bytes := by
    show a.reportedBytes + b.bytes + 0 = _
    rw [UInt64.add_zero, h.bytes]

/-- What the user is told of the counters of an entry. -/
def FtdiStreamStaticState.counters (e : FtdiStreamStaticState) : Telling :=
  .counters e.streamId e.isReading e.transferId e.counterCallbacks e.counterBytes

/-- What was told of an entry is in its own account only. -/
theorem Books.told (h : Books env cur m) (he : m.entryAt i = some e)
    (ht : Unbooked (m.note e.counters.obs) t) :
      ∀ j b, m.bookAt j = some b → account j b.name t.trace = if i = j then
        { account j b.name m.trace with
          reportedCallbacks := (account j b.name m.trace).reportedCallbacks + e.counterCallbacks
          reportedBytes := (account j b.name m.trace).reportedBytes + e.counterBytes }
      else account j b.name m.trace := by
  intro j b hb
  have hbook : m.bookAt i = some e.book := bookAt_of_entry he
  rw [account_grows ht.trace, account_note]
  show (if e.streamId = b.name.streamId ∧ e.isReading = b.name.isReading ∧
    e.transferId = b.name.transferId then _ else _) = _
  by_cases hij : i = j
  · subst hij
    obtain rfl := Option.some_inj.mp (hbook.symm.trans hb)
    rw [if_pos ⟨rfl, rfl, rfl⟩, if_pos rfl]
  · rw [if_neg hij, if_neg]
    rintro ⟨hs, -, ht⟩
    exact hij (h.names i j e.book b hbook hb hs ht)

theorem Books.told_current (h : Books env cur m)
    (ht : Unbooked (m.note e.counters.obs) t) (j : ℕ) (d : Name) :
      (account j d t.trace).current = cur := by
  rw [account_grows ht.trace, account_note]
  show (if e.streamId = d.streamId ∧ e.isReading = d.isReading ∧
    e.transferId = d.transferId then _ else _ : Account).current = _
  split
  · exact h.current j d
  · exact h.current j d

/-- The books of a state whose counters were cleared for an entry. -/
theorem bookAt_cleared {j : ℕ} {b : Book} (hbooks : t.books = m.books)
    (hb : (t.modifyEntry i .clearCounters).bookAt j = some b) : ∃ b', m.bookAt j = some b' ∧
      b = if i = j then { b' with callbacks := 0, bytes := 0 } else b' := by
  obtain ⟨b', hb', hb⟩ := bookAt_written
    (g := fun b => { b with callbacks := 0, bytes := 0 }) (fun _ => rfl) hb
  rw [bookAt_eq, hbooks, ← bookAt_eq] at hb'
  exact ⟨b', hb', hb⟩

/-- **An entry that was told is cleared.** -/
theorem Books.told_cleared (h : Books env cur m) (he : m.entryAt i = some e)
    (hu : Unbooked (m.note e.counters.obs) t) : Books env cur (t.modifyEntry i .clearCounters) := by
  have hbook : m.bookAt i = some e.book := bookAt_of_entry he
  have hcurrent := h.told_current hu
  refine h.of_change hu.streams hcurrent fun j b hb => ?_
  obtain ⟨b', hb', hb⟩ := bookAt_cleared hu.books hb
  refine ⟨b', hb', by rw [hb]; split <;> rfl, fun _ hold => ?_⟩
  show Balanced (account j b'.name t.trace) b
  rw [h.told he hu j b' hb', hb]
  by_cases hij : i = j
  · subst hij
    obtain rfl := Option.some_inj.mp (hbook.symm.trans hb')
    rw [if_pos rfl, if_pos rfl]
    exact hold.reported
  · rw [if_neg hij, if_neg hij]
    exact hold

/-- **A callback that throws** is not heard. -/
theorem Books.told_thrown {cause : Exn} (h : Books env cur m) (he : m.entryAt i = some e)
    (hu : Unbooked (m.note e.counters.obs) t)
    (hthrown : (env.counterCallback e.streamId e.isReading e.transferId e.counterCallbacks
      e.counterBytes m.world).1.result = .error cause) : Books env cur t := by
  have hbook : m.bookAt i = some e.book := bookAt_of_entry he
  refine h.of_change hu.streams (h.told_current hu) fun j b hb => ?_
  have hb' : m.bookAt j = some b := (hu.bookAt j).symm.trans hb
  refine ⟨b, hb', rfl, fun hheard hold => ?_⟩
  rw [h.told he hu j b hb']
  by_cases hij : i = j
  · subst hij
    obtain rfl := Option.some_inj.mp (hbook.symm.trans hb')
    cases (hheard.2 _ _ _ _ _).symm.trans hthrown
  · rw [if_neg hij]
    exact hold

/-- **A stream without a callback** is not heard. -/
theorem Books.untold_cleared {stream : FtdiStreamEntry} (h : Books env cur m)
    (he : m.entryAt i = some e) (hs : m.streams[e.streamId]? = some stream)
    (hcounter : ¬ stream.hasCounterCallback = true) :
    Books env cur (m.modifyEntry i .clearCounters) := by
  have hbook : m.bookAt i = some e.book := bookAt_of_entry he
  refine h.of_change rfl h.current fun j b hb => ?_
  obtain ⟨b', hb', hb⟩ := bookAt_cleared rfl hb
  refine ⟨b', hb', by rw [hb]; split <;> rfl, fun hheard hold => ?_⟩
  by_cases hij : i = j
  · subst hij
    obtain rfl := Option.some_inj.mp (hbook.symm.trans hb')
    obtain ⟨stream', hs', hcounter'⟩ := hheard.1
    obtain rfl := Option.some_inj.mp (hs.symm.trans hs')
    exact absurd hcounter' hcounter
  · rw [if_neg hij] at hb
    rw [hb]
    exact hold

/-- **The counters of an entry are told and cleared.** -/
theorem reportCounters_books (i : ℕ) : Preserves (Books env cur) (reportCounters env i) := by
  intro m h
  unfold reportCounters
  rw [ends_bind, ends_look, id_look]
  cases he : m.entryAt i with
  | none => exact h
  | some e =>
      dsimp only
      cases hs : m.streams[e.streamId]? with
      | none => exact h
      | some stream =>
          dsimp only
          rw [ends_bind]
          unfold callCounter
          rw [ends_ite]
          refine ⟨fun hcounter => ?_, fun hcounter => h.untold_cleared he hs hcounter⟩
          refine (tell_ends _ _).mono ?_ ?_
          · rintro _ t ⟨hq, -⟩
            exact h.told_cleared he (.of_told hq)
          · rintro cause t ⟨hq, hthrown⟩
            exact h.told_thrown he (.of_told hq) hthrown

theorem upkeep_books : Upkeep env (Books env none) where
  plain := books_unaffected.plain env
  complete := complete_books
  reportCounters := reportCounters_books
  cancelEntry := books_unaffected.cancelEntry

/-! ## New books -/

/-- What an entry is reported under. -/
def Book.key (b : Book) : ℕ × ℕ := (b.name.streamId, b.name.transferId)

/-- **New books**: the entries so far, under their keys, with nothing
counted and nothing on record. -/
structure Blank (streams : List FtdiStreamEntry) (keys : List (ℕ × ℕ)) (m : Machine σ) : Prop where
  made : m.Made
  streams : m.streams = streams
  accounts : ∀ i d, account i d m.trace = .empty
  keys : (m.books.getD []).map Book.key = keys
  zero : ∀ b ∈ m.books.getD [], b.callbacks = 0 ∧ b.bytes = 0

variable {streams : List FtdiStreamEntry} {keys : List (ℕ × ℕ)}

theorem made_iff_books (m : Machine σ) : m.Made ↔ m.books.isSome = true := by
  unfold Machine.Made FtdiStreamState.books
  rw [Option.isSome_map]

theorem blank_unaffected : Unaffected (Blank streams keys : Machine σ → Prop) := by
  intro m m' hu h
  refine ⟨?_, hu.streams.trans h.streams, fun i d => ?_, ?_, ?_⟩
  · rw [made_iff_books, hu.books, ← made_iff_books]
    exact h.made
  · exact (account_grows hu.trace i d).trans (h.accounts i d)
  · rw [hu.books]
    exact h.keys
  · rw [hu.books]
    exact h.zero

/-- An entry is added, with its counters at zero. -/
theorem Blank.emplaced (h : Blank streams keys m) (s j : ℕ) (isReading isModemStatus : Bool)
    (fd : ℤ) :
    Blank streams (keys ++ [(s, j)])
      (m.emplaced (newEntry s j isReading isModemStatus fd)) := by
  let e := newEntry s j isReading isModemStatus fd
  have hbooks : (m.emplaced e).books.getD [] = m.books.getD [] ++ [e.book] := by
    obtain ⟨es, hes⟩ := Option.isSome_iff_exists.mp h.made
    unfold Machine.emplaced FtdiStreamState.books
    simp [hes]
  refine ⟨?_, h.streams, h.accounts, ?_, ?_⟩
  · unfold Machine.Made Machine.emplaced
    rw [Option.isSome_map]
    exact h.made
  · rw [hbooks, List.map_append, h.keys]
    rfl
  · rw [hbooks]
    intro b hb
    rcases List.mem_append.mp hb with hb | hb
    · exact h.zero b hb
    · rw [List.mem_singleton.mp hb]
      exact ⟨rfl, rfl⟩

/-- **`init`** writes to no book. -/
theorem Unaffected.initEntry {I : Machine σ → Prop} (h : Unaffected I) (i : ℕ)
    (stream : FtdiStreamEntry) : Preserves I (initEntry env i stream) := by
  refine Preserves.bind Preserves.look fun m => ?_
  refine Preserves.bind (h.modify i fun e => ?_) fun _ => ?_
  · unfold FtdiStreamStaticState.fill
    split <;> rfl
  · refine Preserves.bind Preserves.look fun m => ?_
    cases m.entryAt i with
    | none => exact Preserves.pure
    | some e =>
        refine Preserves.bind ((h.plain env).askWorld fun _ => .malloc _) fun found => ?_
        refine Preserves.bind (h.modify i fun _ => rfl) fun _ => Preserves.ite Preserves.raise ?_
        exact Preserves.bind (Preserves.ite Preserves.pure ((h.plain env).addToEpoll _)) fun _ =>
          h.submit i

theorem createStreamstate_blank (s : ℕ) (stream : FtdiStreamEntry) (isReading : Bool) (j : ℕ)
    (h : Blank streams keys m) :
    Ends (createStreamstate env s stream isReading j)
      (fun _ t => Blank streams (keys ++ [(s, j)]) t) (fun _ _ => True) m := by
  unfold createStreamstate
  rw [ends_bind]
  refine ((blank_unaffected.plain env).userCall (getFd_worldStep isReading s) m h).mono
    (fun answer t ht => ?_) fun _ _ _ => trivial
  show Ends (_ >>= _) _ _ _
  rw [ends_bind]
  refine ((blank_unaffected.plain env).askWorld (fun _ => .allocTransfer) t ht).mono
    (fun allocated u hu => ?_)
    fun _ _ _ => trivial
  rw [ends_ite]
  refine ⟨fun _ => trivial, fun _ => ?_⟩
  rw [ends_bind, ends_look, id_look, ends_bind, ends_alter]
  exact (blank_unaffected.initEntry _ _ _ (hu.emplaced s j isReading _ _)).mono
    (fun _ _ hv => hv) fun _ _ _ => trivial

/-- The entries of one direction are created. -/
theorem createStreamstates_blank (s : ℕ) (stream : FtdiStreamEntry) (isReading : Bool)
    (js : List ℕ) (h : Blank streams keys m) :
    Ends (each js (createStreamstate env s stream isReading))
      (fun _ t => Blank streams (keys ++ js.map (s, ·)) t) (fun _ _ => True) m := by
  induction js generalizing keys m with
  | nil =>
      rw [List.map_nil, List.append_nil]
      exact h
  | cons j js ih =>
      unfold each
      rw [ends_andThen]
      refine (createStreamstate_blank s stream isReading j h).mono (fun _ t ht => ?_)
        fun _ _ _ => trivial
      have hrest := ih ht
      rwa [List.append_assoc, List.singleton_append, ← List.map_cons] at hrest

/-- The keys of a stream's entries. -/
def keysOf (streams : List FtdiStreamEntry) (s : ℕ) : List (ℕ × ℕ) :=
  match streams[s]? with
  | none => []
  | some stream => (List.range (stream.readTransfers + stream.writeTransfers)).map (s, ·)

theorem createStream_blank (s : ℕ) (h : Blank streams keys m) :
    Ends (createStream env s) (fun _ t => Blank streams (keys ++ keysOf streams s) t)
      (fun _ _ => True) m := by
  unfold createStream keysOf
  rw [ends_bind, ends_look, id_look, h.streams]
  cases streams[s]? with
  | none =>
      rw [List.append_nil]
      exact h
  | some stream =>
      rw [ends_bind]
      refine (createStreamstates_blank s stream true _ h).mono (fun _ t ht => ?_)
        fun _ _ _ => trivial
      refine (createStreamstates_blank s stream false _ ht).mono (fun _ u hu => ?_)
        fun _ _ _ => trivial
      rwa [List.append_assoc, ← List.map_append, ← List.range_add] at hu

theorem createStreams_blank (ss : List ℕ) (h : Blank streams keys m) :
    Ends (each ss (createStream env))
      (fun _ t => Blank streams (keys ++ ss.flatMap (keysOf streams)) t)
      (fun _ _ => True) m := by
  induction ss generalizing keys m with
  | nil =>
      rw [List.flatMap_nil, List.append_nil]
      exact h
  | cons s ss ih =>
      unfold each
      rw [ends_andThen]
      refine (createStream_blank s h).mono (fun _ t ht => ?_) fun _ _ _ => trivial
      have hrest := ih ht
      rwa [List.append_assoc, ← List.flatMap_cons] at hrest

/-- **No two entries have one key.** -/
theorem keysOf_nodup (streams : List FtdiStreamEntry) (n : ℕ) :
    ((List.range n).flatMap (keysOf streams)).Nodup := by
  have hkey : ∀ s k, k ∈ keysOf streams s → k.1 = s := by
    intro s k hk
    unfold keysOf at hk
    split at hk
    · cases hk
    · obtain ⟨j, -, rfl⟩ := List.mem_map.mp hk
      rfl
  refine List.nodup_flatMap.mpr ⟨fun s _ => ?_, ?_⟩
  · unfold keysOf
    split
    · exact List.nodup_nil
    · exact List.nodup_range.map fun j j' h => (Prod.mk.inj h).2
  · refine List.nodup_range.imp fun hne k hk hk' => hne ?_
    exact (hkey _ k hk).symm.trans (hkey _ k hk')

/-- **New books are in order.** -/
theorem Blank.books (h : Blank streams keys m) (hkeys : keys.Nodup) : Books env none m := by
  refine ⟨fun i d => by rw [h.accounts]; rfl, fun i j b b' hb hb' hs ht => ?_, fun i b hb _ => ?_⟩
  · rw [bookAt_eq] at hb hb'
    have hi : keys[i]? = some b.key := by rw [← h.keys, List.getElem?_map, hb]; rfl
    have hj : keys[j]? = some b'.key := by rw [← h.keys, List.getElem?_map, hb']; rfl
    have hkey : b.key = b'.key := Prod.ext hs ht
    obtain ⟨hlt, -⟩ := List.getElem?_eq_some_iff.mp hi
    exact (List.getElem?_inj hlt hkeys).mp (hi.trans (hkey ▸ hj.symm))
  · rw [bookAt_eq] at hb
    obtain ⟨hcallbacks, hbytes⟩ := h.zero b (List.mem_of_getElem? hb)
    rw [h.accounts]
    exact ⟨by rw [hcallbacks]; rfl, by rw [hbytes]; rfl⟩

/-- The books of an object that begins its set-up. -/
theorem begun_blank {m₀ : Machine σ} (hidle : Idle m₀) (w : σ) (now : UInt64) :
    Blank m₀.streams [] ((Machine.withWorld { m₀ with mutex := true } w).begun now) where
  made := rfl
  streams := rfl
  accounts i d := by
    have htrace : ((Machine.withWorld { m₀ with mutex := true } w).begun now).trace =
        [⟨true, .began now⟩] := by
      show m₀.trace ++ _ = _
      rw [hidle.trace]
      rfl
    rw [htrace]
    rfl
  keys := rfl
  zero b hb := by cases hb

/-- **A set-up leaves the books in order.** -/
theorem initBody_books {m₀ : Machine σ} (hidle : Idle m₀) :
    Ends (initBody env) (fun _ t => Books env none t) (fun _ _ => True)
      { m₀ with mutex := true } := by
  refine initBody_ends_of (fun w now u _ hu => ?_) fun _ _ _ _ _ _ => trivial
  have hblank : Blank m₀.streams [] u :=
    blank_unaffected.plain env _ _ hu (begun_blank hidle w now)
  refine (createStreams_blank _ hblank).mono (fun _ t ht => ?_) fun _ _ _ => trivial
  exact ht.books (keysOf_nodup _ _)

theorem Course.books {m₀ : Machine σ} {mode : Mode} (h : Course env m₀ mode m) :
    Books env none m := by
  have hset : ∀ t, initBody env { m₀ with mutex := true } = (.ret (), t) → Books env none t :=
    fun t hret => ends_ret_of (Q := fun _ t => Books env none t) (initBody_books h.1) hret
  exact h.inv hset upkeep_books books_unaffected.arm

/-! ## What the counter callback is called with -/

/-- What one call adds to what is reported of an entry: callbacks and
bytes. -/
def UserCall.reports (d : Name) (a : UInt64 × UInt64) : UserCall → UInt64 × UInt64
  | .counterCallback s isReading t callbacks bytes =>
      if s = d.streamId ∧ isReading = d.isReading ∧ t = d.transferId then
        (a.1 + callbacks, a.2 + bytes)
      else a
  | .callback _ _ _ _ _ => a

/-- **What the counter callback was called with** for an entry, in all:
the callbacks and the bytes. -/
def reported (d : Name) (calls : List UserCall) : UInt64 × UInt64 :=
  calls.foldl (fun a call => call.reports d a) (0, 0)

/-- Only what tells the user something is a report. -/
theorem reported_told (d : Name) (calls : List UserCall) :
    reported d (told calls) = reported d calls := by
  have hstep : (fun (a : UInt64 × UInt64) (call : UserCall) =>
      if call.tells = true then call.reports d a else a) = fun a call => call.reports d a := by
    funext a call
    cases call with
    | callback isReading s type buffer len => exact ite_self _
    | counterCallback s isReading t callbacks bytes => exact if_pos rfl
  unfold reported told
  rw [List.foldl_filter, hstep]

/-- What an account has of the reports. -/
def Account.reported (a : Account) : UInt64 × UInt64 := (a.reportedCallbacks, a.reportedBytes)

theorem add_reported (i n : ℕ) (a : Account) : (a.add i n).reported = a.reported := by
  unfold Account.add
  split_ifs <;> rfl

/-- One entry of the record adds to the reports what its call adds. -/
theorem post_reported (i : ℕ) (d : Name) (a : Account) (o : Seen) :
    (a.post i d o).reported =
      (o.what.telling.map Telling.userCall).elim a.reported fun call =>
        call.reports d a.reported := by
  obtain ⟨running, what⟩ := o
  cases what with
  | readBuffer s bytes =>
      show (if _ then _ else _ : Account).reported = a.reported
      split_ifs
      · exact add_reported i _ a
      · rfl
  | confirmed s len =>
      show (if _ then _ else _ : Account).reported = a.reported
      split_ifs
      · exact add_reported i _ a
      · rfl
  | counted s isReading t callbacks bytes =>
      show (if _ then _ else _ : Account).reported = if _ then _ else _
      split_ifs <;> rfl
  | _ => rfl

/-- **The account has what was reported**, where the record says what the
calls were. -/
theorem account_reported (i : ℕ) (d : Name) (trace : List Seen) :
    Stream.reported d ((tellings trace).map Telling.userCall) = (account i d trace).reported := by
  have hfrom : ∀ (seg : List Seen) (a : Account),
      ((tellings seg).map Telling.userCall).foldl (fun r call => call.reports d r) a.reported =
        (seg.foldl (Account.post i d) a).reported := by
    intro seg
    induction seg with
    | nil => exact fun _ => rfl
    | cons o seg ih =>
        intro a
        rw [List.foldl_cons, ← ih, post_reported]
        unfold tellings
        rw [List.filterMap_cons]
        cases o.what.telling <;> rfl
  exact hfrom trace .empty

/-! ## Conservation -/

/-- **Counters conserve traffic.** In a session, after any sequence of
completions and of reports, in any order, what the counter callback was
called with for an entry and what is still on it are, modulo the width of
the counters, the bytes and the callbacks that its account has, where its
stream has a counter callback that does not throw. The account is by the
record, which says of the `READ_BUFFER`, `WRITE_CONFIRM_TRANSFER` and
counter calls what they were. -/
theorem counters_conserve (env : Env σ) (m₀ m : Machine (σ × List UserCall)) (mode : Mode)
    (h : Course env.logged m₀ mode m) (hbegin : m₀.world.2 = []) (i : ℕ)
    (e : FtdiStreamStaticState) (he : m.entryAt i = some e)
    (hheard : Heard env m.streams e.streamId) :
    (reported e.name m.world.2).2 + e.counterBytes =
        UInt64.ofNat (account i e.name m.trace).bytes ∧
      (reported e.name m.world.2).1 + e.counterCallbacks =
        UInt64.ofNat (account i e.name m.trace).callbacks ∧
      told m.world.2 = (tellings m.trace).map Telling.userCall := by
  have hbook : m.bookAt i = some e.book := bookAt_of_entry he
  have hheard' : Heard env.logged m.streams e.streamId :=
    ⟨hheard.1, fun isReading t callbacks bytes w => hheard.2 isReading t callbacks bytes w.1⟩
  have hbalanced := h.books.balanced i e.book hbook hheard'
  obtain ⟨ts, hlist, hrecord⟩ := h.echoing
  have htold : told m.world.2 = (tellings m.trace).map Telling.userCall := by
    rw [hlist, hbegin, hrecord, h.1.trace]
    rfl
  have hreported : reported e.name m.world.2 = (account i e.name m.trace).reported := by
    rw [← reported_told, htold, account_reported]
  rw [hreported]
  exact ⟨hbalanced.bytes, hbalanced.callbacks, htold⟩

/-- A stream of a transfer each way, with a counter callback. -/
def countedStream : FtdiStreamEntry := { sampleStream 64 1 1 with hasCounterCallback := true }

/-- A payload of one byte is reported, and one of three is not yet: the
timer of a session that begins with descriptor `4` is `6`. -/
theorem counters_conserve_sample :
    ∃ m e, Session sender.logged (constructed [countedStream] ⟨64, 4096⟩ (4, [])) .poll
        [reports [⟨0, .completed, [1, 96, 7], 0⟩, ⟨1, .completed, [], 3⟩], readies 6,
          reports [⟨0, .completed, [1, 96, 7, 8, 9], 0⟩]] m ∧
      m.entryAt 0 = some e ∧ account 0 e.name m.trace = ⟨none, 2, 4, 1, 1⟩ ∧
      reported e.name m.world.2 = (1, 1) ∧ e.counterBytes = 3 ∧
      (reported e.name m.world.2).2 + e.counterBytes =
        UInt64.ofNat (account 0 e.name m.trace).bytes ∧
      (reported e.name m.world.2).1 + e.counterCallbacks =
        UInt64.ofNat (account 0 e.name m.trace).callbacks ∧
      told m.world.2 = (tellings m.trace).map Telling.userCall := by
  have hidle : Idle (constructed [countedStream] ⟨64, 4096⟩ ((4, []) : ℕ × List UserCall)) :=
    constructed_idle (by decide +kernel)
  obtain ⟨m, hm, hstreams, hbook, haccount, hreported⟩ := exists_session
    (P := fun m => m.streams = [countedStream] ∧
      m.bookAt 0 = some ⟨⟨0, 0, true, false⟩, 1, 3⟩ ∧
      account 0 ⟨0, 0, true, false⟩ m.trace = ⟨none, 2, 4, 1, 1⟩ ∧
      reported ⟨0, 0, true, false⟩ m.world.2 = (1, 1)) sender.logged .poll
    [reports [⟨0, .completed, [1, 96, 7], 0⟩, ⟨1, .completed, [], 3⟩], readies 6,
      reports [⟨0, .completed, [1, 96, 7, 8, 9], 0⟩]] hidle (by decide +kernel)
  obtain ⟨e, he, hb⟩ := Option.map_eq_some_iff.mp hbook
  have hname : e.name = ⟨0, 0, true, false⟩ := congrArg Book.name hb
  have hheard : Heard sender m.streams e.streamId := by
    have hs : e.streamId = 0 := congrArg Name.streamId hname
    rw [hs, hstreams]
    exact ⟨⟨countedStream, rfl, rfl⟩, fun _ _ _ _ _ => rfl⟩
  exact ⟨m, e, hm, he, hname ▸ haccount, hname ▸ hreported, congrArg Book.bytes hb,
    counters_conserve sender _ m .poll hm.course rfl 0 e he hheard⟩

end Stream

end SgFtdi
