import StoSys.M3.FullDevice
import StoSys.Lib.Refinement

/-!
# `m3_persistency_check.cpp`: closing and opening in between

The test of `m3.cpp` with two flags: one run only writes, and another, after the device has been
closed and opened again, only reads.  Each run makes the side file for itself and removes it at the
end, and a file that is made has zeroes in it.

What `main` does with the options, and what it prints, is left out.
-/

namespace StoSys.M3.Persistency

open Effect CInt

/-! ## What it asks for -/

/-- What the operations of the test do not cover: here it matters what becomes of the file. -/
inductive CheckOp where
  | test (o : TestOp)
  | remove
  | deinit
  | init

abbrev CheckOp.Res : CheckOp → Type
  | .test o => TestOp.Res o
  | .remove => ℤ
  | .deinit => ℤ
  | .init => ℤ

abbrev CheckProg (α : Type) : Type := Program CheckOp CheckOp.Res α

variable {α : Type}

def test (p : Prog α) : CheckProg α := p.inject CheckOp.test fun _ x => x

def remove : CheckProg ℤ := Program.perform CheckOp.remove

def deinit : CheckProg ℤ := Program.perform CheckOp.deinit

def init : CheckProg ℤ := Program.perform CheckOp.init

/-! ## The program -/

variable (dev : UserDevice) (fuel : ℕ)

/-- Everything between opening the file and the label `done`. -/
def passes (addrList : List ℕ) (maxHammerIo : ℕ) (isRead isWrite : Bool) : Prog Exit := do
  let pattern := writePatternWithStart (fun _ => 0) dev.lbaSizeBytes 0
  match ← (if isWrite then writeLoop dev fuel addrList pattern else pure (.ok pattern)) with
  | .error e => pure e
  | .ok b1 =>
      match ← (if 0 < maxHammerIo then hammerLoop dev fuel addrList maxHammerIo b1
        else pure (.ok b1)) with
      | .error e => pure e
      | .ok b1 =>
          if isRead then
            verifyLoop dev fuel addrList (writePatternWithStart b1 dev.lbaSizeBytes 0) pattern
          else pure (.done 0)

/-- `wr_full_device_verify` -/
def wrFullDeviceVerify (addrList : List ℕ) (maxHammerIo : ℕ) (isRead isWrite : Bool) :
    CheckProg (Option ℤ) := do
  let fd ← test openFile
  if fd < 0 then pure (some (-1))
  else do
    let ret ← test (fallocate dev.capacityBytes)
    if ret ≠ 0 then pure (some (-1))
    else do
      match ← test (passes dev fuel addrList maxHammerIo isRead isWrite) with
      | .aborted => pure none
      | .done _ => do
          let ret ← remove
          pure (some ret)

/-- Write, close and open. -/
def writeAndReopen (addrList : List ℕ) : CheckProg (Option ℤ) := do
  match ← wrFullDeviceVerify dev fuel addrList 0 false true with
  | none => pure none
  | some t => do
      let _ ← deinit
      let _ ← init
      pure (some t)

/-- `main`, from the moment the device is open: the exit status, unless the process has ended
before.  `t4` is not looked at. -/
def checkMain (shuffle : List ℕ → List ℕ) : CheckProg (Option ℤ) := do
  let maxLbaEntries := toU32 (dev.capacityBytes / dev.lbaSizeBytes : ℕ)
  let seqAddresses := getSequenceAsArray maxLbaEntries false shuffle
  let randomAddresses := getSequenceAsArray maxLbaEntries true shuffle
  match ← writeAndReopen dev fuel seqAddresses with
  | none => pure none
  | some t1 =>
      match ← wrFullDeviceVerify dev fuel seqAddresses 0 true false with
      | none => pure none
      | some t2 =>
          match ← writeAndReopen dev fuel randomAddresses with
          | none => pure none
          | some t3 =>
              match ← wrFullDeviceVerify dev fuel seqAddresses 0 true false with
              | none => pure none
              | some _t4 => do
                  let ret ← deinit
                  pure (some (if t1 ≠ 0 ∨ t2 ≠ 0 ∨ t3 ≠ 0 then -1 else ret))

/-! ## The environment -/

variable {δ : Type}

/-- How a device is closed and opened. -/
structure Lifecycle (δ : Type) where
  deinit : δ → ℤ × δ
  init : δ → ℤ × δ

/-- A file that has been removed is empty when it is made again. -/
def checkEnv (host : Host) (device : Device δ) (life : Lifecycle δ) :
    Handler CheckOp CheckOp.Res (TestState δ)
  | .test o, s => testEnv host device o s
  | .remove, s =>
      (host.removeRet, if host.removeRet = 0 then { s with file := fun _ => 0 } else s)
  | .deinit, s => ((life.deinit s.device).1, { s with device := (life.deinit s.device).2 })
  | .init, s => ((life.init s.device).1, { s with device := (life.init s.device).2 })

@[simp] lemma run_test (host : Host) (device : Device δ) (life : Lifecycle δ) (p : Prog α)
    (s : TestState δ) :
    (test p).run (checkEnv host device life) s = p.run (testEnv host device) s :=
  Program.run_inject _ _ _ p s

end StoSys.M3.Persistency
