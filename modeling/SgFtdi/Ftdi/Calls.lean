import SgFtdi.Ftdi.Reading

/-!
# Runs of calls

A program that uses the library makes one call after another. It reads
with one call at a time, for which it has a control if the call is
asynchronous, and gives a control back once; writes may overlap.
-/

namespace SgFtdi

namespace Ftdi

open Prog

variable {σ : Type}

/-- **A call of the library.** A call that waits says for how many rounds of
its loop it is looked at. -/
inductive Call where
  | readData (buf : List UInt8)
  | readDataSetChunksize (chunksize : ℕ)
  | writeData (turns : ℕ) (buf : List UInt8)
  | writeDataSetChunksize (chunksize : BitVec 32)
  | readDataSubmit (buf : List UInt8)
  | writeDataSubmit (buf : List UInt8)
  | transferDataDone (control turns : ℕ)
  | transferDataCancel (control turns : ℕ)
deriving DecidableEq, Repr

/-- What a call returns, with the block it filled. -/
inductive Answer where
  | code (ret : ℤ)
  | block (ret : ℤ) (buf : List UInt8)
  | pointer (control : Option ℕ)
  | nothing
deriving DecidableEq, Repr

/-- Make a call. -/
def Call.run (env : Env σ) : Call → Run σ Answer
  | .readData buf => do
      let (ret, buf) ← ftdiReadData env buf
      pure (.block ret buf)
  | .readDataSetChunksize chunksize => do
      let ret ← ftdiReadDataSetChunksize env chunksize
      pure (.code ret)
  | .writeData turns buf => do
      let ret ← ftdiWriteData env turns buf
      pure (.code ret)
  | .writeDataSetChunksize chunksize => do
      let ret ← ftdiWriteDataSetChunksize chunksize
      pure (.code ret)
  | .readDataSubmit buf => do
      let control ← ftdiReadDataSubmit env buf
      pure (.pointer control)
  | .writeDataSubmit buf => do
      let control ← ftdiWriteDataSubmit env buf
      pure (.pointer control)
  | .transferDataDone id turns => do
      let (ret, buf) ← ftdiTransferDataDone env id turns
      pure (.block ret buf)
  | .transferDataCancel id turns => do
      ftdiTransferDataCancel env id turns
      pure .nothing

/-- What the caller has to see to: no two reads at a time, and a control
that it has. -/
def Call.Fits (s : Device σ) : Call → Prop
  | .readData _ | .readDataSetChunksize _ | .readDataSubmit _ => s.readers = []
  | .transferDataDone id _ | .transferDataCancel id _ =>
      ∃ tc, s.controls[id]? = some tc ∧ tc.freed = false
  | .writeData _ _ | .writeDataSetChunksize _ | .writeDataSubmit _ => True

/-- A call that returned. -/
structure Record (σ : Type) where
  before : Device σ
  call : Call
  answer : Answer

/-- **A run of calls.** -/
inductive CallRun (env : Env σ) : Device σ → List (Record σ) → Device σ → Prop where
  | nil (s : Device σ) : CallRun env s [] s
  | cons {s t u : Device σ} {call : Call} {answer : Answer} {rest : List (Record σ)}
      (fits : call.Fits s) (run : call.run env s = (.ret answer, t)) (next : CallRun env t rest u) :
      CallRun env s (⟨s, call, answer⟩ :: rest) u

/-- A call that returned, from what it left. -/
theorem CallRun.call {env : Env σ} {s u : Device σ} {call : Call} {answer : Answer}
    {rest : List (Record σ)} (fits : call.Fits s) (run : (call.run env s).1 = .ret answer)
    (next : CallRun env (call.run env s).2 rest u) : CallRun env s (⟨s, call, answer⟩ :: rest) u :=
  .cons fits (Prod.ext run rfl) next

/-- What is reported of a control is its block up to its offset, unless its
transfer failed. -/
theorem report_eq {tc : TransferControl} (hret : 0 ≤ (report tc).1) :
    (report tc).1 = tc.offset ∧ (report tc).2 = tc.buf := by
  unfold report at hret ⊢
  rcases htr : tc.transfer with _ | transfer
  · exact ⟨rfl, rfl⟩
  · by_cases hstatus : transfer.status = .completed
    · exact ⟨if_pos hstatus, rfl⟩
    · simp only [htr, if_neg hstatus] at hret
      exact absurd hret (by decide)

/-- Whether a control is one for reading. -/
def Device.reads (s : Device σ) (id : ℕ) : Bool :=
  match s.controls[id]? with
  | some tc => decide (tc.direction = .input)
  | none => false

end Ftdi

end SgFtdi
