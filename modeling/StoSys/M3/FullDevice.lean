import StoSys.Common.Patterns
import StoSys.Lib.CInt
import StoSys.Lib.Program

/-!
# `m3.cpp`: writing a device and checking it against a file

`wr_full_device_verify` writes every block of a list, then some of them again, always to the device
and to a file on the side; then it reads all of them back from both and compares.  The blocks are
buffers of bytes here, since the test changes single bytes of them.

The device under test may do anything: it is a `Device`, over states of its own.  The machine around
it (`Host`) may fail to open, size or delete the file, and may move fewer bytes than it is asked to,
or none; but what it has accepted, the file holds.

An assertion is active in the build that the repository asks for.  Where one fails the process ends,
and so it does at a remainder by zero.
-/

namespace StoSys.M3

open Effect CInt

abbrev Bytes : Type := ℕ → UInt8

/-- What the test asks of its environment. -/
inductive TestOp where
  | openFile
  | fallocate (len : ℕ)
  | rand
  | udeviceWrite (address : ℕ) (buf : Bytes) (size : ℕ)
  | udeviceRead (address : ℕ) (buf : Bytes) (size : ℕ)
  | pwrite (buf : Bytes) (count offset : ℕ)
  | pread (count offset : ℕ)
  | removeFile

/-- Return codes; a read also tells what is in the buffer afterwards. -/
abbrev TestOp.Res : TestOp → Type
  | .openFile => ℤ
  | .fallocate _ => ℤ
  | .rand => ℕ
  | .udeviceWrite _ _ _ => ℤ
  | .udeviceRead _ _ _ => ℤ × Bytes
  | .pwrite _ _ _ => ℤ
  | .pread _ _ => ℤ × Bytes
  | .removeFile => ℤ

abbrev Prog (α : Type) : Type := Program TestOp TestOp.Res α

def openFile : Prog ℤ := Program.perform TestOp.openFile

def fallocate (len : ℕ) : Prog ℤ := Program.perform (TestOp.fallocate len)

def rand : Prog ℕ := Program.perform TestOp.rand

def udeviceWrite (address : ℕ) (buf : Bytes) (size : ℕ) : Prog ℤ :=
  Program.perform (TestOp.udeviceWrite address buf size)

def udeviceRead (address : ℕ) (buf : Bytes) (size : ℕ) : Prog (ℤ × Bytes) :=
  Program.perform (TestOp.udeviceRead address buf size)

def pwrite (buf : Bytes) (count offset : ℕ) : Prog ℤ := Program.perform (TestOp.pwrite buf count offset)

def pread (count offset : ℕ) : Prog (ℤ × Bytes) := Program.perform (TestOp.pread count offset)

def removeFile : Prog ℤ := Program.perform TestOp.removeFile

/-- The part of `user_zns_device` that the test uses; `main` asserts that the size is not zero. -/
structure UserDevice where
  lbaSizeBytes : ℕ
  capacityBytes : ℕ
  lba_pos : 0 < lbaSizeBytes
  lba_lt : lbaSizeBytes < 4294967296

/-! ## The side file -/

/-- The first `n` bytes of `data`, stored from `start` on. -/
def Bytes.put (buf : Bytes) (start n : ℕ) (data : Bytes) : Bytes :=
  fun i => if start ≤ i ∧ i < start + n then data (i - start) else buf i

/-- The loop of `_complete_file_io`, with a bound on its calls: the return code and the buffer, or
`none` when the bound is reached. -/
def fileIoLoop (offset : ℕ) (sz : ℤ) (isRead : Bool) :
    (fuel writtenSoFar : ℕ) → Bytes → Prog (Option (ℤ × Bytes))
  | 0, _, _ => pure none
  | fuel + 1, writtenSoFar, buf =>
      if writtenSoFar < sz then
        if isRead then do
          let r ← pread (toU64 (sz - writtenSoFar)) (toU64 (offset + writtenSoFar : ℕ))
          if r.1 < 0 then pure (some (r.1, buf))
          else
            fileIoLoop offset sz isRead fuel (writtenSoFar + r.1.toNat)
              (buf.put writtenSoFar r.1.toNat r.2)
        else do
          let ret ← pwrite (fun j => buf (writtenSoFar + j)) (toU64 (sz - writtenSoFar))
            (toU64 (offset + writtenSoFar : ℕ))
          if ret < 0 then pure (some (ret, buf))
          else fileIoLoop offset sz isRead fuel (writtenSoFar + ret.toNat) buf
      else pure (some (0, buf))

/-- `_complete_file_io`; the size is passed as an `int`. -/
def completeFileIo (fuel offset : ℕ) (buf : Bytes) (size : ℕ) (isRead : Bool) :
    Prog (Option (ℤ × Bytes)) :=
  fileIoLoop offset (toI32 size) isRead fuel 0 buf

/-! ## The passes -/

/-- How the test gets to its end. -/
inductive Exit where
  /-- the label `done` is reached, with this in `ret` -/
  | done (ret : ℤ)
  /-- an assertion fails, or the process traps or hangs -/
  | aborted

/-- `EINVAL` -/
def einval : ℤ := 22

variable (dev : UserDevice) (fuel : ℕ)

/-- The body of both writing loops: change a byte of the buffer, write it to both.  The source calls
`rand` on both sides of one assignment, in an order that is the compiler's before C++17 and has the
byte first since; here the position is first, and the numbers may be any. -/
def writeBoth (woffset : ℕ) (b1 : Bytes) : Prog (Except Exit Bytes) := do
  let position ← rand
  let byte ← rand
  let b1 := Function.update b1 ((position : ℤ).tmod (toI32 dev.lbaSizeBytes)).toNat
    (UInt8.ofNat byte)
  let ret ← udeviceWrite woffset b1 dev.lbaSizeBytes
  if ret ≠ 0 then pure (.error (.done ret))
  else do
    match ← completeFileIo fuel woffset b1 dev.lbaSizeBytes false with
    | none => pure (.error .aborted)
    | some (ret, _) => if ret ≠ 0 then pure (.error (.done ret)) else pure (.ok b1)

/-- The first pass, over the list of blocks. -/
def writeLoop : List ℕ → Bytes → Prog (Except Exit Bytes)
  | [], b1 => pure (.ok b1)
  | a :: rest, b1 => do
      match ← writeBoth dev fuel (toU64 (a * dev.lbaSizeBytes : ℕ)) b1 with
      | .error e => pure (.error e)
      | .ok b1 => writeLoop rest b1

/-- The second pass, over random blocks of the list. -/
def hammerLoop (addrList : List ℕ) : ℕ → Bytes → Prog (Except Exit Bytes)
  | 0, b1 => pure (.ok b1)
  | n + 1, b1 => do
      let r ← rand
      if addrList.length = 0 then pure (.error .aborted)
      else do
        let a := addrList.getD (r % addrList.length) 0
        match ← writeBoth dev fuel (toU64 (a * dev.lbaSizeBytes : ℕ)) b1 with
        | .error e => pure (.error e)
        | .ok b1 => hammerLoop addrList n b1

/-- The final pass: read back and compare. -/
def verifyLoop : List ℕ → (b1 b2 : Bytes) → Prog Exit
  | [], _, _ => pure (.done 0)
  | a :: rest, b1, b2 => do
      let roffset := toU64 (a * dev.lbaSizeBytes : ℕ)
      let r ← udeviceRead roffset b1 dev.lbaSizeBytes
      if r.1 ≠ 0 then pure .aborted
      else do
        match ← completeFileIo fuel roffset b2 dev.lbaSizeBytes true with
        | none => pure .aborted
        | some (ret, b2) =>
            if ret ≠ 0 then pure .aborted
            else if ∀ j < dev.lbaSizeBytes, r.2 j = b2 j then verifyLoop rest r.2 b2
            else pure (.done (-einval))

/-- Everything between opening the file and the label `done`. -/
def passes (addrList : List ℕ) (maxHammerIo : ℕ) : Prog Exit := do
  let pattern := writePatternWithStart (fun _ => 0) dev.lbaSizeBytes 0
  match ← writeLoop dev fuel addrList pattern with
  | .error e => pure e
  | .ok b1 =>
      match ← (if 0 < maxHammerIo then hammerLoop dev fuel addrList maxHammerIo b1
        else pure (.ok b1)) with
      | .error e => pure e
      | .ok b1 =>
          verifyLoop dev fuel addrList (writePatternWithStart b1 dev.lbaSizeBytes 0) pattern

/-- `wr_full_device_verify`: what it returns, unless the process has ended.  At the label `done` the
file is deleted, and `ret` is assigned what that returns. -/
def wrFullDeviceVerify (addrList : List ℕ) (maxHammerIo : ℕ) : Prog (Option ℤ) := do
  let fd ← openFile
  if fd < 0 then pure (some (-1))
  else do
    let ret ← fallocate dev.capacityBytes
    if ret ≠ 0 then pure (some (-1))
    else do
      match ← passes dev fuel addrList maxHammerIo with
      | .aborted => pure none
      | .done _ => do
          let ret ← removeFile
          pure (some ret)

/-- `get_sequence_as_array`; `shuffle` is what `std::shuffle` makes of a vector. -/
def getSequenceAsArray (capacity : ℕ) (isShuffled : Bool) (shuffle : List ℕ → List ℕ) : List ℕ :=
  if isShuffled then shuffle (List.range capacity) else List.range capacity

/-- `main`, between opening and closing the device: the exit status, unless the process has ended
before.  `deinitRet` is what `deinit_ss_zns_device` returns. -/
def m3Main (shuffle : List ℕ → List ℕ) (toHammerLba : ℕ) (deinitRet : ℤ) : Prog (Option ℤ) := do
  let maxLbaEntries := toU32 (dev.capacityBytes / dev.lbaSizeBytes : ℕ)
  let seqAddresses := getSequenceAsArray maxLbaEntries false shuffle
  let randomAddresses := getSequenceAsArray maxLbaEntries true shuffle
  match ← wrFullDeviceVerify dev fuel seqAddresses 0 with
  | none => pure none
  | some t1 =>
      match ← wrFullDeviceVerify dev fuel randomAddresses 0 with
      | none => pure none
      | some t2 =>
          match ← wrFullDeviceVerify dev fuel randomAddresses toHammerLba with
          | none => pure none
          | some t3 =>
              pure (some (if t1 ≠ 0 ∨ t2 ≠ 0 ∨ t3 ≠ 0 then -1 else deinitRet))

/-! ## The environment -/

/-- A device under test: any return codes, any bytes. -/
structure Device (δ : Type) where
  write : (address : ℕ) → (buf : Bytes) → (size : ℕ) → δ → ℤ × δ
  read : (address : ℕ) → (buf : Bytes) → (size : ℕ) → δ → (ℤ × Bytes) × δ

/-- The machine around the device: the answers to the calls for the file, the random numbers, and
how much each transfer moves at most, or its error. -/
structure Host where
  openRet : ℤ
  fallocateRet : ℤ
  removeRet : ℤ
  rand : ℕ → ℕ
  transfer : ℕ → ℤ

/-- The file, how many random numbers and transfers there have been, and the device; and on record
what it has answered to writes, and which bytes it has given back from where. -/
structure TestState (δ : Type) where
  file : Bytes
  rands : ℕ := 0
  transfers : ℕ := 0
  device : δ
  written : List ℤ := []
  readBack : List (ℕ × Bytes) := []

variable {δ : Type}

/-- The file stores what is written to it. -/
def testEnv (host : Host) (device : Device δ) : Handler TestOp TestOp.Res (TestState δ)
  | .openFile, s => (host.openRet, s)
  | .fallocate _, s => (host.fallocateRet, s)
  | .rand, s => (host.rand s.rands, { s with rands := s.rands + 1 })
  | .udeviceWrite address buf size, s =>
      let r := device.write address buf size s.device
      (r.1, { s with device := r.2, written := s.written ++ [r.1] })
  | .udeviceRead address buf size, s =>
      let r := device.read address buf size s.device
      (r.1, { s with device := r.2, readBack := s.readBack ++ [(address, r.1.2)] })
  | .pwrite buf count offset, s =>
      let c := host.transfer s.transfers
      let n := min c.toNat count
      if c < 0 then (c, { s with transfers := s.transfers + 1 })
      else
        ((n : ℤ), { s with transfers := s.transfers + 1, file := s.file.put offset n buf })
  | .pread count offset, s =>
      let c := host.transfer s.transfers
      let n := min c.toNat count
      if c < 0 then ((c, fun _ => 0), { s with transfers := s.transfers + 1 })
      else
        (((n : ℤ), fun j => s.file (offset + j)), { s with transfers := s.transfers + 1 })
  | .removeFile, s => (host.removeRet, s)

end StoSys.M3
