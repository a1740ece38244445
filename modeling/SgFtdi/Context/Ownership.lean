import SgFtdi.Common.Trail
import SgFtdi.Context.Model

/-!
# Context — who owns the libusb context

A `Ledger` replays the record: which created libusb contexts are not yet
exited and which `ftdi_context`s are not yet freed. Whatever fails, the
object holds what the ledger has open and lets it go in the right order,
and what its caller gave it is left alone. Two things go wrong where it
creates a context itself: the `ftdi_context` is made on the parameter of
`init`, which is null then, and the flag that a context was created is
never cleared. `ownership_exact` says that nothing else does.
-/

namespace SgFtdi

namespace Context

open Prog

/-- The libusb contexts created and not exited, and the libusb contexts of
the `ftdi_context`s not freed. -/
structure Ledger where
  contexts : List ℕ
  handles : List (Option ℕ)
deriving DecidableEq

/-- **One entry of the ledger.** Only a context that was created and not
exited can be exited, and only when no `ftdi_context` is on it. -/
def Ledger.post (l : Ledger) : Event → Option Ledger
  | .created usbCtx => some { l with contexts := usbCtx :: l.contexts }
  | .exited usbCtx =>
      if usbCtx ∈ l.contexts ∧ some usbCtx ∉ l.handles then
        some { l with contexts := l.contexts.erase usbCtx }
      else none
  | .allocated usbCtx => some { l with handles := usbCtx :: l.handles }
  | .freed usbCtx =>
      if usbCtx ∈ l.handles then some { l with handles := l.handles.erase usbCtx } else none
  | _ => some l

/-- The ledger of a record, where every entry is in order. -/
def ledger (trace : List Event) : Option Ledger := trace.foldlM Ledger.post ⟨[], []⟩

variable {σ : Type} {env : Env σ} {c c₀ t : FtdiContext σ} {given : Option ℕ}
variable {a : Call × Outcome Exn (Option RawContext)}

/-- The object created a libusb context that is not exited. -/
def FtdiContext.Owns (c : FtdiContext σ) (usbCtx : ℕ) : Prop :=
  ∃ l, ledger c.trace = some l ∧ usbCtx ∈ l.contexts

/-- The libusb contexts of the `ftdi_context` held. -/
def FtdiContext.handles (c : FtdiContext σ) : List (Option ℕ) :=
  (c.ctx.map (·.usbCtx)).toList

/-- **The ownership of the USB contexts**, after a call: a successful
`init` returns an `ftdi_context` on the caller's libusb context, or on the
one the object created where none was given; the flag says whether the
object owns one; the record is in order, and what it has open is what the
object holds; and after a failure or a `clear` that is nothing. -/
structure Owned (a : Call × Outcome Exn (Option RawContext)) (t : FtdiContext σ) : Prop where
  returned : ∀ given r, a = (.init given, .ret r) → ∃ raw, r = some raw ∧
    match given with
    | some usbCtx => raw.usbCtx = some usbCtx
    | none => ∃ usbCtx, raw.usbCtx = some usbCtx ∧ t.Owns usbCtx
  flag : t.libusbContextCreated = true ↔ ∃ usbCtx, t.Owns usbCtx
  inOrder : ledger t.trace = some ⟨t.usbCtx.toList, t.handles⟩
  released : a.1 = .clear ∨ (∃ cause, a.2 = .throw cause) → t.ctx = none ∧ t.usbCtx = none

/-- **A libusb context is created**: none is given, the object may create
one, and `libusb_init` succeeds. -/
def FtdiContext.Creates (env : Env σ) (given : Option ℕ) (c : FtdiContext σ) : Prop :=
  given = none ∧ c.createLibusbContext = true ∧ ∃ usbCtx,
    (env.answer .libusbInit c.world).1 = .ok usbCtx

/-- A call creates a libusb context. -/
def Creates (env : Env σ) (a : Call × Outcome Exn (Option RawContext)) (c : FtdiContext σ) :
    Prop :=
  ∃ given, a.1 = .init given ∧ c.Creates env given

/-! ## What the object holds -/

/-- **The object holds what the ledger has open.** -/
structure FtdiContext.Kept (c : FtdiContext σ) : Prop where
  ledger : ledger c.trace = some ⟨c.usbCtx.toList, c.handles⟩
  created : c.usbCtx ≠ none → c.libusbContextCreated = true

theorem ledger_snoc (trace : List Event) (e : Event) {l : Ledger} (h : ledger trace = some l) :
    ledger (trace ++ [e]) = l.post e := by
  unfold ledger at h ⊢
  rw [List.foldlM_append, h]
  show (some l).bind (fun l => List.foldlM Ledger.post l [e]) = l.post e
  rw [Option.bind_some, List.foldlM_cons]
  cases l.post e <;> rfl

/-- An entry of the record that is none of the ledger. -/
def Event.Neutral (e : Event) : Prop := ∀ l : Ledger, l.post e = some l

theorem ledger_neutral (trace : List Event) {e : Event} (he : e.Neutral) :
    ledger (trace ++ [e]) = ledger trace := by
  cases hl : ledger trace with
  | none =>
      unfold ledger at hl ⊢
      rw [List.foldlM_append, hl]
      rfl
  | some l => exact (ledger_snoc trace e hl).trans (he l)

/-- What is asked is none of the ledger. -/
theorem ledger_asked (trace : List Event) (query : Query) (answer : query.Answer) :
    ledger (trace ++ [.asked query answer]) = ledger trace :=
  ledger_neutral trace fun _ => rfl

theorem ledger_asks (trace : List Event) {es : List Event}
    (h : ∀ e ∈ es, ∃ query answer, e = .asked query answer) :
    ledger (trace ++ es) = ledger trace := by
  induction es generalizing trace with
  | nil => rw [List.append_nil]
  | cons e es ih =>
      obtain ⟨query, answer, rfl⟩ := h e List.mem_cons_self
      rw [← List.singleton_append, ← List.append_assoc,
        ih _ fun e he => h e (List.mem_cons_of_mem _ he), ledger_asked]

/-- Nothing is held. -/
structure FtdiContext.Empty (c : FtdiContext σ) : Prop where
  ctx : c.ctx = none
  usbCtx : c.usbCtx = none

/-- What letting go leaves alone. -/
structure Beside (c t : FtdiContext σ) : Prop where
  createLibusbContext : t.createLibusbContext = c.createLibusbContext
  libusbContextCreated : t.libusbContextCreated = c.libusbContextCreated
  world : t.world = c.world

theorem freeContext_ends (hc : c.Kept) :
    Ends freeContext (fun _ t => t.Kept ∧ t.ctx = none ∧ t.usbCtx = c.usbCtx ∧ Beside c t)
      (fun _ _ => False) c := by
  unfold freeContext
  rw [ends_bind, ends_look, id_eq]
  cases hctx : c.ctx with
  | none => exact ⟨hc, hctx, rfl, rfl, rfl, rfl⟩
  | some raw =>
      refine ⟨⟨?_, hc.created⟩, rfl, rfl, rfl, rfl, rfl⟩
      have hhandles : c.handles = [raw.usbCtx] := by
        unfold FtdiContext.handles
        rw [hctx]
        rfl
      refine (ledger_snoc c.trace (.freed raw.usbCtx) hc.ledger).trans ?_
      rw [hhandles]
      simp [Ledger.post, FtdiContext.handles]

theorem exitContext_ends (hc : c.Kept) (hctx : c.ctx = none) :
    Ends exitContext (fun _ t => t.Kept ∧ t.Empty ∧ Beside c t) (fun _ _ => False) c := by
  have hhandles : c.handles = [] := by
    unfold FtdiContext.handles
    rw [hctx]
    rfl
  unfold exitContext
  rw [ends_bind, ends_look, ends_ite]
  refine ⟨fun _ => ?_, fun hflag => ?_⟩
  · rw [id_eq]
    cases husb : c.usbCtx with
    | none => exact ⟨hc, ⟨hctx, husb⟩, rfl, rfl, rfl⟩
    | some usbCtx =>
        refine ⟨⟨?_, fun hne => absurd rfl hne⟩, ⟨hctx, rfl⟩, rfl, rfl, rfl⟩
        refine (ledger_snoc c.trace (.exited usbCtx) hc.ledger).trans ?_
        rw [husb, hhandles]
        simp [Ledger.post, FtdiContext.handles, hctx]
  · have husb : c.usbCtx = none := by
      by_contra hne
      exact hflag (hc.created hne)
    exact ⟨hc, ⟨hctx, husb⟩, rfl, rfl, rfl⟩

/-- **Letting go**, in `clear` and in the handler of `init`. -/
theorem letGo_ends (hc : c.Kept) :
    Ends letGo (fun _ t => t.Kept ∧ t.Empty ∧ Beside c t) (fun _ _ => False) c := by
  unfold letGo
  rw [ends_bind]
  refine (freeContext_ends hc).mono ?_ fun _ _ hf => hf
  rintro _ t ⟨hkept, hctx, -, hbeside⟩
  refine (exitContext_ends hkept hctx).mono ?_ fun _ _ hf => hf
  rintro _ u ⟨hkept, hempty, h₁, h₂, h₃⟩
  obtain ⟨k₁, k₂, k₃⟩ := hbeside
  exact ⟨hkept, hempty, h₁.trans k₁, h₂.trans k₂, h₃.trans k₃⟩

/-! ## What `init` takes -/

/-- What is known of the libusb context after `init` has taken one, given
the state it started from. -/
structure Took (env : Env σ) (given : Option ℕ) (c t : FtdiContext σ) : Prop where
  usbCtx : t.usbCtx ≠ none ↔ c.Creates env given
  flag : t.libusbContextCreated = true ↔ c.libusbContextCreated = true ∨ t.usbCtx ≠ none

/-- The flag and the context of an object that has taken none. -/
theorem Took.of_empty (hempty : t.usbCtx = none)
    (hflag : t.libusbContextCreated = c.libusbContextCreated)
    (hnone : ¬ c.Creates env given) : Took env given c t := by
  refine ⟨⟨fun hne => absurd hempty hne, fun h => absurd h hnone⟩, ?_⟩
  rw [hflag]
  exact ⟨.inl, fun h => h.resolve_right fun hne => hne hempty⟩

/-- **The creation of a libusb context.** -/
theorem createContext_ends (hkept : t.Kept) (hempty : t.Empty) (hbeside : Beside c t) :
    Ends (createContext env)
      (fun _ u => u.Kept ∧ u.ctx = none ∧ u.usbCtx ≠ none ∧ Took env none c u)
      (fun _ u => u.Kept ∧ u.Empty ∧ Took env none c u) t := by
  unfold createContext
  rw [ends_bind, ends_look, ends_ite]
  refine ⟨fun hcreate => ?_, fun hcreate => ?_⟩
  · refine ⟨hkept, hempty, Took.of_empty hempty.usbCtx hbeside.libusbContextCreated ?_⟩
    rintro ⟨-, hc, -⟩
    rw [← hbeside.createLibusbContext] at hc
    exact Bool.false_ne_true (hcreate.symm.trans hc)
  · rw [ends_bind]
    refine ends_ask.mpr ?_
    rw [hbeside.world]
    cases hinit : (env.answer .libusbInit c.world).1 with
    | error code =>
        refine ⟨⟨(ledger_asked _ _ _).trans hkept.ledger, hkept.created⟩,
          ⟨hempty.ctx, hempty.usbCtx⟩,
          Took.of_empty hempty.usbCtx hbeside.libusbContextCreated ?_⟩
        rintro ⟨-, -, usbCtx, hok⟩
        rw [hinit] at hok
        cases hok
    | ok usbCtx =>
        have hcreate : c.createLibusbContext = true := by
          rw [← hbeside.createLibusbContext]
          simpa using hcreate
        refine ⟨⟨?_, fun _ => rfl⟩, hempty.ctx, nofun, ?_⟩
        · refine (ledger_snoc _ (.created usbCtx)
            ((ledger_asked _ _ _).trans hkept.ledger)).trans ?_
          simp [Ledger.post, FtdiContext.handles, hempty.usbCtx]
        · refine ⟨⟨fun _ => ⟨rfl, hcreate, usbCtx, hinit⟩, fun _ => nofun⟩, ?_⟩
          exact ⟨fun _ => .inr nofun, fun _ => rfl⟩

/-- What does not touch who owns what. -/
structure Same (c t : FtdiContext σ) : Prop where
  usbCtx : t.usbCtx = c.usbCtx
  libusbContextCreated : t.libusbContextCreated = c.libusbContextCreated
  ledger : ledger t.trace = ledger c.trace
  ctx : t.ctx.map (·.usbCtx) = c.ctx.map (·.usbCtx)

theorem Same.kept (h : Same c t) (hc : c.Kept) : t.Kept := by
  refine ⟨?_, ?_⟩
  · unfold FtdiContext.handles
    rw [h.ledger, h.usbCtx, h.ctx]
    exact hc.ledger
  · rw [h.usbCtx, h.libusbContextCreated]
    exact hc.created

theorem Same.took {u : FtdiContext σ} (h : Same t u) (ht : Took env given c t) :
    Took env given c u := by
  refine ⟨?_, ?_⟩
  · rw [h.usbCtx]
    exact ht.usbCtx
  · rw [h.usbCtx, h.libusbContextCreated]
    exact ht.flag

@[simp] theorem ftdiSetInterface_usbCtx (raw : RawContext) (i : Interface) :
    (ftdiSetInterface raw i).2.usbCtx = raw.usbCtx := by
  unfold ftdiSetInterface
  dsimp only
  split <;> split <;> rfl

theorem ends_askWorld {query : Query} {Q : query.Answer → FtdiContext σ → Prop}
    {E : Exn → FtdiContext σ → Prop} :
    Ends (askWorld env query) Q E c ↔
      Q (env.answer query c.world).1
        { c with
          world := (env.answer query c.world).2
          trace := c.trace ++ [.asked query (env.answer query c.world).1] } := Iff.rfl

/-- Something is asked, and the answers are on record. -/
def Asks (c t : FtdiContext σ) : Prop :=
  ∃ w es, (∀ e ∈ es, ∃ query answer, e = .asked query answer) ∧
    t = { c with world := w, trace := c.trace ++ es }

theorem Asks.ledger (h : Asks c t) : Context.ledger t.trace = Context.ledger c.trace := by
  obtain ⟨w, es, hes, rfl⟩ := h
  exact ledger_asks c.trace hes

/-- `ftdi_init_ex` touches nothing but the new `ftdi_context`. -/
theorem ftdiInitEx_ends (raw : RawContext) (given : Option ℕ) (c : FtdiContext σ) :
    Ends (ftdiInitEx env raw given)
      (fun r t => r.2.usbCtx = given ∧ Asks c t) (fun _ _ => False) c := by
  unfold ftdiInitEx
  rw [ends_bind, ends_askWorld, ends_ite]
  refine ⟨fun _ => ⟨ftdiSetInterface_usbCtx _ _, _, _, ?_, rfl⟩, fun _ => ?_⟩
  · exact List.forall_mem_singleton.mpr ⟨_, _, rfl⟩
  · rw [ends_bind, ends_askWorld, ends_ite]
    have hasks : Asks c { c with
        world := (env.answer .malloc (env.answer .malloc c.world).2).2
        trace := c.trace ++ [.asked .malloc (env.answer .malloc c.world).1] ++
          [.asked .malloc (env.answer .malloc (env.answer .malloc c.world).2).1] } := by
      refine ⟨_, _, ?_, by rw [List.append_assoc]⟩
      exact List.forall_mem_cons.mpr ⟨⟨_, _, rfl⟩, List.forall_mem_singleton.mpr ⟨_, _, rfl⟩⟩
    exact ⟨fun _ => ⟨ftdiSetInterface_usbCtx _ _, hasks⟩,
      fun _ => ⟨ftdiSetInterface_usbCtx _ _, hasks⟩⟩

theorem Asks.trans {u : FtdiContext σ} (h : Asks c t) (h' : Asks t u) : Asks c u := by
  obtain ⟨w, es, hes, rfl⟩ := h
  obtain ⟨w', es', hes', rfl⟩ := h'
  refine ⟨w', es ++ es', fun e he => ?_, by rw [List.append_assoc]⟩
  exact (List.mem_append.mp he).elim (hes e) (hes' e)

/-- **`ftdi_new_ex`** makes an `ftdi_context` on the libusb context it is
passed, or nothing. -/
theorem ftdiNewEx_ends (given : Option ℕ) (c : FtdiContext σ) :
    Ends (ftdiNewEx env given)
      (fun r t => (r = none ∧ Asks c t) ∨
        ∃ raw u, r = some raw ∧ raw.usbCtx = given ∧ Asks c u ∧
          t = { u with trace := u.trace ++ [.allocated given] })
      (fun _ _ => False) c := by
  unfold ftdiNewEx
  rw [ends_bind, ends_askWorld, ends_ite]
  have hasks : Asks c { c with
      world := (env.answer .malloc c.world).2
      trace := c.trace ++ [.asked .malloc (env.answer .malloc c.world).1] } :=
    ⟨_, _, List.forall_mem_singleton.mpr ⟨_, _, rfl⟩, rfl⟩
  refine ⟨fun _ => .inl ⟨rfl, hasks⟩, fun _ => ?_⟩
  rw [ends_bind]
  refine (ftdiInitEx_ends _ given _).mono ?_ fun _ _ hf => hf
  rintro ⟨rc, raw⟩ t ⟨hraw, ht⟩
  have hraw : raw.usbCtx = given := hraw
  show Ends (if rc ≠ 0 then _ else _) _ _ _
  rw [ends_ite]
  refine ⟨fun _ => .inl ⟨rfl, hasks.trans ht⟩,
    fun _ => .inr ⟨raw, t, rfl, hraw, hasks.trans ht, ?_⟩⟩
  rw [hraw]

section Opening

variable {α : Type}

theorem askWorld_same {query : Query} : Preserves (Same c₀) (askWorld env query) :=
  Preserves.ask fun _ h =>
    ⟨h.usbCtx, h.libusbContextCreated, (ledger_asked _ _ _).trans h.ledger, h.ctx⟩

/-- A look at the state fixes what the rest may assume of it. -/
theorem preserves_look {g : FtdiContext σ → Run σ α}
    (h : ∀ c, Same c₀ c → Ends (g c) (fun _ t => Same c₀ t) (fun _ t => Same c₀ t) c) :
    Preserves (Same c₀) (do let c ← look id; g c) := by
  intro c hc
  rw [ends_bind, ends_look]
  exact h c hc

theorem setInterface_same (i : Interface) :
    Preserves (Same c₀) (setInterface i : Run σ Unit) := by
  refine preserves_look fun c hc => ?_
  cases hctx : c.ctx with
  | none => exact hc
  | some raw =>
      have hset : Same c₀ { c with ctx := some (ftdiSetInterface raw i).2 } := by
        refine ⟨hc.usbCtx, hc.libusbContextCreated, hc.ledger, ?_⟩
        rw [← hc.ctx, hctx]
        simp
      rw [ends_bind, ends_alter, ends_ite]
      exact ⟨fun _ => hset, fun _ => hset⟩

theorem setPort_same : Preserves (Same c₀) (setPort : Run σ Unit) := by
  refine preserves_look fun c hc => ?_
  split
  · exact setInterface_same .a c hc
  · exact setInterface_same .b c hc
  · exact setInterface_same .c c hc
  · exact setInterface_same .d c hc
  · exact hc

theorem getStringDescriptorAscii_same (index : UInt8) :
    Preserves (Same c₀) (getStringDescriptorAscii env index) :=
  preserves_look fun c hc =>
    Preserves.bind askWorld_same (fun _ => Preserves.pure) c hc

/-- What is written that nobody owns. -/
theorem alter_same {f : FtdiContext σ → FtdiContext σ} (hf : ∀ c, Same c (f c)) :
    Preserves (Same c₀) (alter f : Run σ Unit) := by
  intro c hc
  have h := hf c
  exact ⟨h.usbCtx.trans hc.usbCtx, h.libusbContextCreated.trans hc.libusbContextCreated,
    h.ledger.trans hc.ledger, h.ctx.trans hc.ctx⟩

theorem observe_same {e : Event} (he : e.Neutral) :
    Preserves (Same c₀) (observe e : Run σ Unit) :=
  alter_same fun c => ⟨rfl, rfl, ledger_neutral c.trace he, rfl⟩

theorem openDevice_same (dev : UsbDev) (usbdev : ℕ) :
    Preserves (Same c₀) (openDevice env dev usbdev) := by
  refine preserves_look fun c hc => Preserves.bind askWorld_same (fun opened => ?_) c hc
  cases opened with
  | error text => exact Preserves.raise
  | ok handle =>
      refine Preserves.bind (alter_same fun c => ⟨rfl, rfl, rfl, ?_⟩) fun _ =>
        Preserves.bind askWorld_same fun desc => ?_
      · cases c.ctx <;> rfl
      cases desc with
      | none => exact Preserves.raise
      | some desc =>
          refine Preserves.bind (getStringDescriptorAscii_same _) fun _ =>
            Preserves.bind (alter_same fun _ => ⟨rfl, rfl, rfl, rfl⟩) fun _ => ?_
          refine Preserves.bind (getStringDescriptorAscii_same _) fun _ =>
            Preserves.bind (alter_same fun _ => ⟨rfl, rfl, rfl, rfl⟩) fun _ => ?_
          refine Preserves.bind (getStringDescriptorAscii_same _) fun _ =>
            Preserves.bind (alter_same fun _ => ⟨rfl, rfl, rfl, rfl⟩) fun _ => ?_
          exact alter_same fun _ => ⟨rfl, rfl, rfl, rfl⟩

theorem tryDevice_same (dev : UsbDev) (devlist : List ℕ) :
    Preserves (Same c₀) (tryDevice env dev devlist) := by
  unfold tryDevice
  have hfree : ∀ found : Bool, Preserves (Same c₀) (do
      observe (.listFreed devlist)
      pure found : Run σ Bool) :=
    fun _ => Preserves.bind (observe_same fun _ => rfl) fun _ => Preserves.pure
  cases devlist[dev.device.toNat]? with
  | none => exact hfree false
  | some usbdev => exact Preserves.bind (openDevice_same dev usbdev) fun _ => hfree true

theorem findDevice_same (dev : UsbDev) : Preserves (Same c₀) (findDevice env dev) := by
  refine preserves_look fun c hc => Preserves.bind askWorld_same (fun devlist => ?_) c hc
  cases devlist with
  | error cause => exact Preserves.raise
  | ok devlist =>
      refine Preserves.rescue (tryDevice_same dev devlist) fun cause => ?_
      refine Preserves.bind ?_ fun _ => Preserves.raise
      exact Preserves.ite Preserves.pure (observe_same fun _ => rfl)

theorem findDevices_same (devs : List UsbDev) : Preserves (Same c₀) (findDevices env devs) := by
  induction devs with
  | nil => exact Preserves.pure
  | cons dev devs ih =>
      refine Preserves.bind (findDevice_same dev) fun found => ?_
      exact Preserves.ite Preserves.pure ih

theorem setParam_same (param : Param) (cause : Exn) :
    Preserves (Same c₀) (setParam env param cause) :=
  preserves_look fun c hc => Preserves.bind askWorld_same
    (fun _ => Preserves.ite Preserves.raise Preserves.pure) c hc

theorem setFtdiParams_same : Preserves (Same c₀) (setFtdiParams env) := by
  refine preserves_look fun c hc => Preserves.bind (setParam_same _ _) (fun _ => ?_) c hc
  refine Preserves.bind (setParam_same _ _) fun _ => ?_
  exact Preserves.bind (setParam_same _ _) fun _ => setParam_same _ _

/-- **Opening a device** leaves alone who owns what, also where it
fails. -/
theorem openConfigured_same : Preserves (Same c₀) (openConfigured env) := by
  refine Preserves.bind setPort_same fun _ => preserves_look fun c hc => ?_
  refine Preserves.bind (findDevices_same _) (fun _ => ?_) c hc
  exact Preserves.ite Preserves.raise setFtdiParams_same

end Opening

/-! ## One call -/

/-- The libusb context of an `init`, after `clear`. -/
theorem takeContext_ends (hkept : t.Kept) (hempty : t.Empty) (hbeside : Beside c t) :
    Ends (takeContext env given)
      (fun _ u => u.Kept ∧ u.ctx = none ∧ (given = none → u.usbCtx ≠ none) ∧ Took env given c u)
      (fun _ u => u.Kept ∧ Took env given c u) t := by
  unfold takeContext
  rw [ends_ite]
  refine ⟨fun hnone => ?_, fun hsome => ?_⟩
  · subst hnone
    refine (createContext_ends hkept hempty hbeside).mono ?_ ?_
    · rintro _ u ⟨hu, hctx, hne, htook⟩
      exact ⟨hu, hctx, fun _ => hne, htook⟩
    · rintro _ u ⟨hu, -, htook⟩
      exact ⟨hu, htook⟩
  · refine ⟨hkept, hempty.ctx, fun hnone => absurd hnone hsome, ?_⟩
    exact Took.of_empty hempty.usbCtx hbeside.libusbContextCreated fun h => hsome h.1

theorem initBody_ends (hc : c.Kept) (given : Option ℕ) :
    Ends (initBody env given)
      (fun r t => t.Kept ∧ Took env given c t ∧ (given = none → t.usbCtx ≠ none) ∧
        ∃ raw, r = some raw ∧ raw.usbCtx = given)
      (fun _ t => t.Kept ∧ Took env given c t) c := by
  unfold initBody clear
  rw [ends_bind]
  refine (letGo_ends hc).mono ?_ fun _ _ hf => hf.elim
  rintro _ c₁ ⟨hkept₁, hempty, hbeside⟩
  rw [ends_bind]
  refine (takeContext_ends hkept₁ hempty hbeside).mono ?_ fun _ _ h => h
  rintro _ c₂ ⟨hkept₂, hctx₂, hgiven, htook₂⟩
  rw [ends_bind]
  refine (ftdiNewEx_ends given c₂).mono ?_ fun _ _ hf => hf.elim
  rintro r c₃ (⟨rfl, hasks⟩ | ⟨raw, u, rfl, hraw, hasks, rfl⟩)
  · -- no room for an `ftdi_context`
    have hsame : Same c₂ { c₃ with ctx := none } := by
      have hledger := hasks.ledger
      obtain ⟨w, es, -, rfl⟩ := hasks
      exact ⟨rfl, rfl, hledger, by rw [hctx₂]⟩
    rw [ends_bind, ends_alter, if_pos rfl, ends_raise]
    exact ⟨hsame.kept hkept₂, hsame.took htook₂⟩
  · -- it is there, and on the context that was given
    rw [ends_bind, ends_alter, if_neg nofun, ends_bind]
    have hledger := hasks.ledger
    obtain ⟨w, es, -, rfl⟩ := hasks
    generalize hc₄ : ({ c₂ with
      ctx := some raw, world := w, trace := c₂.trace ++ es ++ [.allocated given] } :
        FtdiContext σ) = c₄
    have hkept₄ : c₄.Kept := by
      subst hc₄
      refine ⟨?_, hkept₂.created⟩
      refine (ledger_snoc _ (.allocated given) (hledger.trans hkept₂.ledger)).trans ?_
      simp [Ledger.post, FtdiContext.handles, hctx₂, hraw]
    have htook₄ : Took env given c c₄ := by
      subst hc₄
      exact ⟨htook₂.usbCtx, htook₂.flag⟩
    have hctx₄ : c₄.ctx.map (·.usbCtx) = some given := by
      subst hc₄
      exact congrArg some hraw
    have husb₄ : given = none → c₄.usbCtx ≠ none := by
      subst hc₄
      exact hgiven
    refine (openConfigured_same c₄ ⟨rfl, rfl, rfl, rfl⟩).mono (fun _ t ht => ?_) fun _ t ht => ?_
    · rw [ends_bind, ends_look, ends_pure]
      refine ⟨ht.kept hkept₄, ht.took htook₄, ?_, ?_⟩
      · rw [ht.usbCtx]
        exact husb₄
      · obtain ⟨raw', hraw', hon⟩ := Option.map_eq_some_iff.mp (ht.ctx.trans hctx₄)
        exact ⟨raw', hraw', hon⟩
    · exact ⟨ht.kept hkept₄, ht.took htook₄⟩

/-- **`init`**: it succeeds with an `ftdi_context` on the libusb context it
was given as its parameter, and where it fails nothing is held. -/
theorem init_ends (hc : c.Kept) (given : Option ℕ) :
    Ends (init env given)
      (fun r t => t.Kept ∧ Took env given c t ∧ (given = none → t.usbCtx ≠ none) ∧
        ∃ raw, r = some raw ∧ raw.usbCtx = given)
      (fun _ t => t.Kept ∧ t.Empty ∧
        (t.libusbContextCreated = true ↔ c.libusbContextCreated = true ∨ c.Creates env given))
      c := by
  unfold init
  rw [ends_rescue]
  refine (initBody_ends hc given).mono (fun _ _ h => h) ?_
  rintro cause t ⟨hkept, htook⟩
  rw [ends_bind]
  refine (letGo_ends hkept).mono ?_ fun _ _ hf => hf.elim
  rintro _ u ⟨hu, hempty, hbeside⟩
  refine ⟨hu, hempty, ?_⟩
  rw [hbeside.libusbContextCreated, htook.flag, htook.usbCtx]

/-! ## Every call comes back -/

theorem freeContext_comesBack : ComesBack (freeContext : Run σ Unit) := by
  refine ComesBack.look.bind fun c => ?_
  cases c.ctx with
  | none => exact ComesBack.pure
  | some raw => exact ComesBack.alter.bind fun _ => ComesBack.alter

theorem exitContext_comesBack : ComesBack (exitContext : Run σ Unit) := by
  refine ComesBack.look.bind fun c => ComesBack.ite ?_ ComesBack.pure
  cases c.usbCtx with
  | none => exact ComesBack.pure
  | some usbCtx => exact ComesBack.alter.bind fun _ => ComesBack.alter

theorem letGo_comesBack : ComesBack (letGo : Run σ Unit) :=
  freeContext_comesBack.bind fun _ => exitContext_comesBack

theorem takeContext_comesBack (given : Option ℕ) : ComesBack (takeContext env given) := by
  refine ComesBack.ite (ComesBack.look.bind fun c => ?_) ComesBack.pure
  refine ComesBack.ite ComesBack.raise (ComesBack.ask.bind fun answer => ?_)
  cases answer with
  | error code => exact ComesBack.raise
  | ok usbCtx => exact ComesBack.alter.bind fun _ => ComesBack.alter

theorem ftdiInitEx_comesBack (raw : RawContext) (given : Option ℕ) :
    ComesBack (ftdiInitEx env raw given) := by
  refine ComesBack.ask.bind fun _ => ComesBack.ite ComesBack.pure (ComesBack.ask.bind fun _ => ?_)
  exact ComesBack.ite ComesBack.pure ComesBack.pure

theorem ftdiNewEx_comesBack (given : Option ℕ) : ComesBack (ftdiNewEx env given) := by
  refine ComesBack.ask.bind fun _ => ComesBack.ite ComesBack.pure ?_
  refine (ftdiInitEx_comesBack _ given).bind fun _ => ComesBack.ite ComesBack.pure ?_
  exact ComesBack.alter.bind fun _ => ComesBack.pure

theorem setInterface_comesBack (i : Interface) : ComesBack (setInterface i : Run σ Unit) := by
  refine ComesBack.look.bind fun c => ?_
  cases c.ctx with
  | none => exact ComesBack.pure
  | some raw => exact ComesBack.alter.bind fun _ => ComesBack.ite ComesBack.raise ComesBack.pure

theorem setPort_comesBack : ComesBack (setPort : Run σ Unit) := by
  refine ComesBack.look.bind fun c => ?_
  split
  · exact setInterface_comesBack .a
  · exact setInterface_comesBack .b
  · exact setInterface_comesBack .c
  · exact setInterface_comesBack .d
  · exact ComesBack.raise

theorem getStringDescriptorAscii_comesBack (index : UInt8) :
    ComesBack (getStringDescriptorAscii env index) :=
  ComesBack.look.bind fun _ => ComesBack.ask.bind fun _ => ComesBack.pure

theorem openDevice_comesBack (dev : UsbDev) (usbdev : ℕ) :
    ComesBack (openDevice env dev usbdev) := by
  refine ComesBack.look.bind fun c => ComesBack.ask.bind fun opened => ?_
  cases opened with
  | error text => exact ComesBack.raise
  | ok handle =>
      refine ComesBack.alter.bind fun _ => ComesBack.ask.bind fun desc => ?_
      cases desc with
      | none => exact ComesBack.raise
      | some desc =>
          refine (getStringDescriptorAscii_comesBack _).bind fun _ =>
            ComesBack.alter.bind fun _ => ?_
          refine (getStringDescriptorAscii_comesBack _).bind fun _ =>
            ComesBack.alter.bind fun _ => ?_
          refine (getStringDescriptorAscii_comesBack _).bind fun _ =>
            ComesBack.alter.bind fun _ => ?_
          exact ComesBack.alter

theorem tryDevice_comesBack (dev : UsbDev) (devlist : List ℕ) :
    ComesBack (tryDevice env dev devlist) := by
  unfold tryDevice
  cases devlist[dev.device.toNat]? with
  | none => exact ComesBack.alter.bind fun _ => ComesBack.pure
  | some usbdev =>
      refine (openDevice_comesBack dev usbdev).bind fun _ => ?_
      exact ComesBack.alter.bind fun _ => ComesBack.pure

theorem findDevice_comesBack (dev : UsbDev) : ComesBack (findDevice env dev) := by
  refine ComesBack.look.bind fun c => ComesBack.ask.bind fun devlist => ?_
  cases devlist with
  | error cause => exact ComesBack.raise
  | ok devlist =>
      refine (tryDevice_comesBack dev devlist).rescue fun cause => ?_
      have hfree : ComesBack (freeList devlist : Run σ Unit) :=
        ComesBack.ite ComesBack.pure ComesBack.alter
      exact hfree.bind fun _ => ComesBack.raise

theorem findDevices_comesBack (devs : List UsbDev) : ComesBack (findDevices env devs) := by
  induction devs with
  | nil => exact ComesBack.pure
  | cons dev devs ih =>
      exact (findDevice_comesBack dev).bind fun _ => ComesBack.ite ComesBack.pure ih

theorem setParam_comesBack (param : Param) (cause : Exn) :
    ComesBack (setParam env param cause) :=
  ComesBack.look.bind fun _ => ComesBack.ask.bind fun _ =>
    ComesBack.ite ComesBack.raise ComesBack.pure

theorem setFtdiParams_comesBack : ComesBack (setFtdiParams env) := by
  refine ComesBack.look.bind fun c => (setParam_comesBack _ _).bind fun _ => ?_
  refine (setParam_comesBack _ _).bind fun _ => (setParam_comesBack _ _).bind fun _ => ?_
  exact setParam_comesBack _ _

theorem openConfigured_comesBack : ComesBack (openConfigured env) := by
  refine setPort_comesBack.bind fun _ => ComesBack.look.bind fun c => ?_
  refine (findDevices_comesBack _).bind fun _ => ?_
  exact ComesBack.ite ComesBack.raise setFtdiParams_comesBack

theorem init_comesBack (given : Option ℕ) : ComesBack (init env given) := by
  refine ComesBack.rescue ?_ fun _ => letGo_comesBack.bind fun _ => ComesBack.raise
  refine letGo_comesBack.bind fun _ => (takeContext_comesBack given).bind fun _ => ?_
  refine (ftdiNewEx_comesBack given).bind fun _ => ComesBack.alter.bind fun _ => ?_
  refine ComesBack.ite ComesBack.raise (openConfigured_comesBack.bind fun _ => ?_)
  exact ComesBack.look.bind fun _ => ComesBack.pure

/-! ## Runs -/

/-- What the object owns is what it holds. -/
theorem FtdiContext.Kept.owns_iff {usbCtx : ℕ} (h : c.Kept) :
    c.Owns usbCtx ↔ c.usbCtx = some usbCtx := by
  constructor
  · rintro ⟨l, hl, hmem⟩
    rw [h.ledger] at hl
    cases hl
    exact Option.mem_toList.mp hmem
  · intro husb
    exact ⟨_, h.ledger, Option.mem_toList.mpr husb⟩

/-- Nothing is owned where nothing is held. -/
theorem FtdiContext.Kept.owns_nothing (h : c.Kept) (husb : c.usbCtx = none) :
    ¬ ∃ usbCtx, c.Owns usbCtx := by
  rintro ⟨usbCtx, howns⟩
  rw [h.owns_iff, husb] at howns
  cases howns

/-- **How an `init` comes back**, and what it leaves. -/
theorem CallStep.init_cases {outcome : Outcome Exn (Option RawContext)}
    (h : CallStep env (.init given, outcome) c t) (hc : c.Kept) :
    (∃ raw, outcome = .ret (some raw) ∧ raw.usbCtx = given ∧ t.Kept ∧ Took env given c t ∧
        (given = none → t.usbCtx ≠ none)) ∨
      ∃ cause, outcome = .throw cause ∧ t.Kept ∧ t.Empty ∧
        (t.libusbContextCreated = true ↔ c.libusbContextCreated = true ∨ c.Creates env given) := by
  have hrun : init env given c = (outcome, t) := h
  have hends : Ends (init env given)
      (fun r u => u.Kept ∧ Took env given c u ∧ (given = none → u.usbCtx ≠ none) ∧
        ∃ raw, r = some raw ∧ raw.usbCtx = given)
      (fun _ u => u.Kept ∧ u.Empty ∧
        (u.libusbContextCreated = true ↔ c.libusbContextCreated = true ∨ c.Creates env given)) c :=
    init_ends hc given
  cases outcome with
  | ret r =>
      obtain ⟨hkept, htook, hne, raw, rfl, hraw⟩ := ends_ret_of hends hrun
      exact .inl ⟨raw, rfl, hraw, hkept, htook, hne⟩
  | throw cause =>
      obtain ⟨hkept, hempty, hflag⟩ := ends_throw_of hends hrun
      exact .inr ⟨cause, rfl, hkept, hempty, hflag⟩
  | hang =>
      have hback : ComesBack (init env given) := init_comesBack given
      have hback := hback c
      rw [hrun] at hback
      exact absurd rfl hback

/-- **How a `clear` comes back**, and what it leaves. -/
theorem CallStep.clear_cases {outcome : Outcome Exn (Option RawContext)}
    (h : CallStep env (.clear, outcome) c t) (hc : c.Kept) :
    outcome = .ret none ∧ t.Kept ∧ t.Empty ∧
      t.libusbContextCreated = c.libusbContextCreated := by
  have hrun : (do clear; pure none : Run σ (Option RawContext)) c = (outcome, t) := h
  have hends : Ends (do clear; pure none : Run σ (Option RawContext))
      (fun r u => r = none ∧ u.Kept ∧ u.Empty ∧ Beside c u) (fun _ _ => False) c := by
    rw [ends_bind]
    exact (letGo_ends hc).mono (fun _ u hu => ⟨rfl, hu⟩) fun _ _ hf => hf
  cases outcome with
  | ret r =>
      obtain ⟨rfl, hkept, hempty, hbeside⟩ := ends_ret_of hends hrun
      exact ⟨rfl, hkept, hempty, hbeside.libusbContextCreated⟩
  | throw cause => exact (ends_throw_of hends hrun).elim
  | hang =>
      have hback : ComesBack (do clear; pure none : Run σ (Option RawContext)) :=
        letGo_comesBack.bind fun _ => ComesBack.pure
      have hback := hback c
      rw [hrun] at hback
      exact absurd rfl hback

/-- Where the flag says so nothing is held. -/
theorem FtdiContext.Kept.usbCtx_none (h : c.Kept) (hflag : c.libusbContextCreated = false) :
    c.usbCtx = none := by
  by_contra hne
  exact Bool.false_ne_true (hflag.symm.trans (h.created hne))

theorem creates_init {outcome : Outcome Exn (Option RawContext)} :
    Creates env (.init given, outcome) c ↔ c.Creates env given := by
  constructor
  · rintro ⟨given', heq, hcreates⟩
    cases heq
    exact hcreates
  · exact fun hcreates => ⟨given, rfl, hcreates⟩

/-- **Every call keeps what is held in order.** -/
theorem CallStep.kept (h : CallStep env a c t) (hc : c.Kept) : t.Kept := by
  obtain ⟨call, outcome⟩ := a
  cases call with
  | init given =>
      rcases h.init_cases hc with ⟨raw, -, -, hkept, -⟩ | ⟨cause, -, hkept, -⟩
      · exact hkept
      · exact hkept
  | clear => exact (h.clear_cases hc).2.1
  | configure config =>
      have hrun : (Outcome.ret none, { c with config := config }) = (outcome, t) := h
      cases hrun
      exact ⟨hc.ledger, hc.created⟩

/-- The flag stays down while no call creates a libusb context. -/
theorem CallStep.flag (h : CallStep env a c t) (hc : c.Kept)
    (hflag : c.libusbContextCreated = false) (hnone : ¬ Creates env a c) :
    t.libusbContextCreated = false := by
  obtain ⟨call, outcome⟩ := a
  cases call with
  | init given =>
      rw [creates_init] at hnone
      rcases h.init_cases hc with ⟨raw, -, -, -, htook, -⟩ | ⟨cause, -, -, -, hiff⟩
      · have hiff := htook.flag
        rw [htook.usbCtx, hflag] at hiff
        simpa [hnone] using hiff
      · rw [hflag] at hiff
        simpa [hnone] using hiff
  | clear => exact (h.clear_cases hc).2.2.2.trans hflag
  | configure config =>
      have hrun : (Outcome.ret none, { c with config := config }) = (outcome, t) := h
      cases hrun
      exact hflag

/-- Nothing is owned, and the flag says so. -/
theorem FtdiContext.Kept.flag_iff (h : c.Kept) (hflag : c.libusbContextCreated = false) :
    c.libusbContextCreated = true ↔ ∃ usbCtx, c.Owns usbCtx := by
  rw [hflag]
  exact ⟨nofun, fun howns => absurd howns (h.owns_nothing (h.usbCtx_none hflag))⟩

/-- **One call**, on an object that has created nothing so far. -/
theorem CallStep.owned_iff (h : CallStep env a c t) (hc : c.Kept)
    (hflag : c.libusbContextCreated = false) : Owned a t ↔ ¬ Creates env a c := by
  have hkept := h.kept hc
  constructor
  · intro howned hcreates
    obtain ⟨given, hinit, hcreates⟩ := hcreates
    obtain ⟨call, outcome⟩ := a
    cases hinit
    rcases h.init_cases hc with ⟨raw, rfl, hraw, -⟩ | ⟨cause, rfl, -, hempty, hiff⟩
    · -- the `ftdi_context` is on the parameter, which is null
      obtain ⟨raw', hret, hon⟩ := howned.returned given (some raw) rfl
      cases hret
      rw [hcreates.1] at hon hraw
      obtain ⟨usbCtx, hsome, -⟩ := hon
      rw [hraw] at hsome
      cases hsome
    · -- the flag stays up
      exact hkept.owns_nothing hempty.usbCtx (howned.flag.mp (hiff.mpr (.inr hcreates)))
  · intro hnone
    have hdown := h.flag hc hflag hnone
    refine ⟨fun given r heq => ?_, hkept.flag_iff hdown, hkept.ledger, fun hreleased => ?_⟩
    · subst heq
      rw [creates_init] at hnone
      rcases h.init_cases hc with ⟨raw, hret, hraw, -, htook, hne⟩ | ⟨cause, hthrow, -⟩
      · cases hret
        refine ⟨raw, rfl, ?_⟩
        cases given with
        | none => exact absurd (htook.usbCtx.mp (hne rfl)) hnone
        | some usbCtx => exact hraw
      · cases hthrow
    · obtain ⟨call, outcome⟩ := a
      rcases hreleased with hclear | ⟨cause, hthrow⟩
      · cases hclear
        have hempty := (h.clear_cases hc).2.2.1
        exact ⟨hempty.ctx, hempty.usbCtx⟩
      · cases hthrow
        cases call with
        | init given =>
            rcases h.init_cases hc with ⟨raw, hret, -⟩ | ⟨cause', -, -, hempty, -⟩
            · cases hret
            · exact ⟨hempty.ctx, hempty.usbCtx⟩
        | clear => cases (h.clear_cases hc).1
        | configure config =>
            have hrun : (Outcome.ret none, { c with config := config }) =
              (Outcome.throw cause, t) := h
            cases hrun

theorem construct_kept (create : Bool) (config : Config) (world : σ) :
    (construct create config world).Kept := ⟨rfl, fun hne => absurd rfl hne⟩

/-- **Whatever is called and whatever fails**, the record stays in order
and the object holds what it has open: no libusb context is exited that
the object did not create, none twice, and none while an `ftdi_context` is
on it. -/
theorem run_kept {create : Bool} {config : Config} {world : σ}
    {run : List ((Call × Outcome Exn (Option RawContext)) × FtdiContext σ)}
    (h : Trail (CallStep env) (construct create config world) run) :
    Throughout FtdiContext.Kept (construct create config world) run :=
  h.throughout (fun _ _ _ hstep hc => hstep.kept hc) (construct_kept create config world)

/-- **Ownership of the USB contexts.** Every call of a run leaves them
owned as they should be, if and only if no call creates a libusb
context. -/
theorem ownership_exact (env : Env σ) (create : Bool) (config : Config) (world : σ)
    (run : List ((Call × Outcome Exn (Option RawContext)) × FtdiContext σ))
    (h : Trail (CallStep env) (construct create config world) run) :
    Along (fun a _ t => Owned a t) (construct create config world) run ↔
      Spares (fun a c _ => Creates env a c) (construct create config world) run := by
  refine h.along_iff (I := fun c => c.Kept ∧ c.libusbContextCreated = false) ?_ ?_
    ⟨construct_kept create config world, rfl⟩
  · rintro a c t hstep ⟨hc, hflag⟩
    exact hstep.owned_iff hc hflag
  · rintro a c t hstep ⟨hc, hflag⟩ hnone
    exact ⟨hstep.kept hc, hstep.flag hc hflag hnone⟩

/-- Calls one after another make a run. -/
def play (env : Env σ) : FtdiContext σ → List Call →
    List ((Call × Outcome Exn (Option RawContext)) × FtdiContext σ)
  | _, [] => []
  | c, x :: xs => ((x, (call env x c).1), (call env x c).2) :: play env (call env x c).2 xs

theorem play_trail (env : Env σ) (c : FtdiContext σ) (calls : List Call) :
    Trail (CallStep env) c (play env c calls) := by
  induction calls generalizing c with
  | nil => exact .nil c
  | cons x xs ih => exact .cons rfl (ih _)

/-- A world in which every call succeeds and one device is there. -/
def granting : Env Unit where
  answer
    | .libusbInit, w => (.ok 1, w)
    | .malloc, w => (true, w)
    | .ftdiUsbFindAll _ _ _, w => (.ok [10], w)
    | .ftdiUsbOpenDev _ _, w => (.ok 20, w)
    | .libusbGetDeviceDescriptor _, w => (some ⟨1, 2, 3⟩, w)
    | .libusbGetStringDescriptorAscii _ _, w => (some "", w)
    | .set _ _, w => (0, w)

/-- An object that may create a libusb context, configured for one
device. -/
def sample : FtdiContext Unit := construct true { usbDevices := [{ vendor := 1027 }] } ()

/-- The caller's context is used, and left alone. -/
theorem ownership_exact_sample :
    Along (fun a _ t => Owned a t) sample (play granting sample [.init (some 7), .clear]) ∧
      (call granting (.init (some 7)) sample).1 = .ret (some ⟨some 7, some 20, 1⟩) := by
  refine ⟨(ownership_exact granting true _ () _ (play_trail granting sample _)).mpr ?_, rfl⟩
  refine ⟨?_, ?_, trivial⟩
  · rintro ⟨given, hinit, hnone, -⟩
    cases hinit
    cases hnone
  · rintro ⟨given, hinit, -⟩
    cases hinit

/-- The object creates a libusb context, and its `ftdi_context` is on
none. -/
theorem created_unused : ∃ run, Trail (CallStep granting) sample run ∧
    ¬ Along (fun a _ t => Owned a t) sample run := by
  refine ⟨play granting sample [.init none], play_trail granting sample _, ?_⟩
  rintro ⟨howned, -⟩
  have hret : (call granting (.init none) sample).1 = .ret (some ⟨none, some 20, 1⟩) := rfl
  obtain ⟨raw, hraw, usbCtx, hon, -⟩ :=
    howned.returned none (some ⟨none, some 20, 1⟩) (by rw [hret])
  cases hraw
  cases hon

end Context

end SgFtdi
