import StoSys.M3.FullDevice

/-!
# `m2.cpp`: reading back what has been written

Three tests of the interface, by one buffer each that is filled with the pattern, written, zeroed and
read back: at address zero, at a run of blocks from a random one on, and with a large buffer at
address zero again.  The pattern of a block starts from its number.

They run in the environment of `m3.cpp`, of which they use the device and the random numbers.  An
assertion of the pattern matcher that fails ends the process, and so does a remainder by zero.
-/

namespace StoSys.M2

open Effect CInt M3

variable (dev : UserDevice)

/-- `bzero` -/
def bzero (buf : Bytes) (n : ℕ) : Bytes := buf.put 0 n fun _ => 0

/-- `test_write_read_LBA0`: what it returns and leaves in the buffer, unless the process has ended. -/
def testWriteReadLba0 (buf : Bytes) (bufSize : ℕ) : M3.Prog (Option (ℤ × Bytes)) := do
  let buf := writePatternWithStart buf bufSize 0
  let ret ← udeviceWrite 0 buf bufSize
  if ret ≠ 0 then pure (some (ret, buf))
  else do
    let r ← udeviceRead 0 (bzero buf bufSize) bufSize
    if r.1 ≠ 0 then pure (some r)
    else if matchPatternWithStart r.2 bufSize 0 then pure (some r) else pure none

/-- `test_large_write_read` -/
def testLargeWriteRead (buf : Bytes) (bufSize : ℕ) : M3.Prog (Option (ℤ × Bytes)) :=
  testWriteReadLba0 buf bufSize

/-- The writing loop of `test_write_read_random_LBAs`: `n` blocks from `i` on, up to the first error;
`ret` is what the last call has returned. -/
def writeLbas (bufSize : ℕ) : (n i : ℕ) → (ret : ℤ) → Bytes → M3.Prog (Except ℤ (ℤ × Bytes))
  | 0, _, ret, buf => pure (.ok (ret, buf))
  | n + 1, i, _, buf => do
      let buf := writePatternWithStart buf bufSize i
      let ret ← udeviceWrite (toU64 (i * dev.lbaSizeBytes : ℕ)) buf bufSize
      if ret ≠ 0 then pure (.error ret) else writeLbas bufSize n (i + 1) ret buf

/-- The reading loop. -/
def readLbas (bufSize : ℕ) : (n i : ℕ) → (ret : ℤ) → Bytes → M3.Prog (Option ℤ)
  | 0, _, ret, _ => pure (some ret)
  | n + 1, i, _, buf => do
      let r ← udeviceRead (toU64 (i * dev.lbaSizeBytes : ℕ)) (bzero buf bufSize) bufSize
      if r.1 ≠ 0 then pure (some r.1)
      else if matchPatternWithStart r.2 bufSize i then readLbas bufSize n (i + 1) r.1 r.2
      else pure none

/-- `test_write_read_random_LBAs` -/
def testWriteReadRandomLbas (buf : Bytes) (bufSize maxLbasToTest : ℕ) : M3.Prog (Option ℤ) :=
  let maxLbaEntries := toU32 (dev.capacityBytes / dev.lbaSizeBytes : ℕ)
  if maxLbaEntries < maxLbasToTest then pure (some (-1))
  else do
    let maxLbaToGenerate := maxLbaEntries - maxLbasToTest
    let r ← rand
    if maxLbaToGenerate = 0 then pure none
    else do
      let startLba := r % maxLbaToGenerate
      match ← writeLbas dev bufSize maxLbasToTest startLba (-1) buf with
      | .error ret => pure (some ret)
      | .ok (ret, buf) => readLbas dev bufSize maxLbasToTest startLba ret buf

/-- `main`, between opening and closing the device: the exit status, unless the process has ended
before.  `deinitRet` is what `deinit_ss_zns_device` returns. -/
def m2Main (logZones zoneCapacity lbaSize bufferSize : ℕ) (deinitRet : ℤ) : M3.Prog (Option ℤ) := do
  let maxNumLbaToTest := toU32 (((logZones : ℤ) - 1) * (zoneCapacity / lbaSize : ℕ))
  match ← testWriteReadLba0 (fun _ => 0) dev.lbaSizeBytes with
  | none => pure none
  | some (t1, testBuf) =>
      match ← testWriteReadRandomLbas dev testBuf dev.lbaSizeBytes
          (toU64 ((maxNumLbaToTest : ℤ) - 1)) with
      | none => pure none
      | some t2 =>
          match ← testLargeWriteRead (fun _ => 0) bufferSize with
          | none => pure none
          | some (t3, _) => pure (some (if t1 ≠ 0 ∨ t2 ≠ 0 ∨ t3 ≠ 0 then -1 else deinitRet))

end StoSys.M2
