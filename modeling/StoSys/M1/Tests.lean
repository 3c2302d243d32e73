import StoSys.Ftl.ByteDevice
import StoSys.M1.IoWithMdts

/-!
# `m1.cpp`: the three tests

The first two tests run one after the other, each on a zone that is chosen at random; the third one
starts a thread on each of the first zones, and stops them by a flag.  `main` has the call of the
third test commented out.

The tests talk to the drive by the commands of libnvme, and the threads to each other by the flag and
a counter of errors; the counter is atomic, and a read of the flag one step.  An assertion that fails
ends the process: `none`.
-/

namespace StoSys.M1

open Effect Zoned CInt M3

variable {ds : ℕ}

/-- What the tests ask of their environment. -/
inductive TestOp (ds : ℕ) where
  | nvme (o : Op (Block ds))
  | loadStop
  | setStop
  | loadErrors
  | fetchAdd

abbrev TestOp.Res : TestOp ds → Type
  | .nvme o => o.Res
  | .loadStop => Bool
  | .setStop => Unit
  | .loadErrors => ℤ
  | .fetchAdd => Unit

abbrev Prog (ds : ℕ) (α : Type) : Type := Program (TestOp ds) TestOp.Res α

/-- The drive, `stop_t` and `multithreaded_error_counter`. -/
structure Machine (d : Drive (Block ds)) where
  world : World d
  stop : Bool
  errors : ℤ

/-- A drive that works. -/
def testExec {d : Drive (Block ds)} : Handler (TestOp ds) TestOp.Res (Machine d)
  | .nvme o, s => ((exec o s.world).1, { s with world := (exec o s.world).2 })
  | .loadStop, s => (s.stop, s)
  | .setStop, s => ((), { s with stop := true })
  | .loadErrors, s => (s.errors, s)
  | .fetchAdd, s => ((), { s with errors := s.errors + 1 })

/-! ## Commands -/

/-- `nvme_read`, into a buffer. -/
def nvmeRead (slba : ℕ) (nlb dataLen : ℤ) (buf : Bytes) : Prog ds (ℤ × Bytes) := do
  let r : ℤ × List (Block ds) ←
    Program.perform (.nvme (.nvmeRead slba (toU16 nlb) (toU32 dataLen) 0) : TestOp ds)
  pure (r.1, toBytes ds ((toBlocks ds buf).store 0 r.2))

/-- `nvme_write`: the drive takes as many blocks out of the buffer as the command says. -/
def nvmeWrite (slba : ℕ) (nlb dataLen : ℤ) (buf : Bytes) : Prog ds ℤ :=
  Program.perform (.nvme (.nvmeWrite slba (toU16 nlb) (toU32 dataLen) 0
    ((toBlocks ds buf).slice 0 (toU16 nlb + 1))) : TestOp ds)

/-- `nvme_zns_append` -/
def nvmeZnsAppend (zslba : ℕ) (nlb dataLen : ℤ) (buf : Bytes) : Prog ds (ℤ × ℕ) :=
  Program.perform (.nvme (.nvmeZnsAppend zslba (toU16 nlb) (toU32 dataLen)
    ((toBlocks ds buf).slice 0 (toU16 nlb + 1))) : TestOp ds)

/-- `ss_zns_device_zone_reset` -/
def ssZnsDeviceZoneReset (slba : ℕ) : Prog ds ℤ :=
  Program.perform (.nvme (.nvmeZnsReset slba false) : TestOp ds)

def loadStop : Prog ds Bool := Program.perform (.loadStop : TestOp ds)

def setStop : Prog ds Unit := Program.perform (.setStop : TestOp ds)

/-- `multithreaded_error_counter.load` -/
def loadErrors : Prog ds ℤ := Program.perform (.loadErrors : TestOp ds)

/-- `multithreaded_error_counter.fetch_add(1)` -/
def fetchAdd : Prog ds Unit := Program.perform (.fetchAdd : TestOp ds)

/-! ## The third test -/

/-- The writing loop: `n` blocks from `wptr` on, by turns with a write and with an append.  `ret` is
what the last command has returned; an error ends the thread. -/
def writeZone (lbaSize zslba : ℕ) (x : ℤ) :
    (n wptr : ℕ) → (ret : ℤ) → Bytes → Prog ds (Except (Option ℤ) (ℤ × Bytes))
  | 0, _, ret, wdata => pure (.ok (ret, wdata))
  | n + 1, wptr, _, wdata =>
      let wdata := writePatternWithStart wdata lbaSize (toU64 (x + wptr))
      if wptr % 2 = 0 then do
        let ret ← nvmeWrite (toU64 (zslba + wptr : ℕ)) 0 lbaSize wdata
        if ret ≠ 0 then do fetchAdd; pure (.error (some ret))
        else writeZone lbaSize zslba x n (wptr + 1) ret wdata
      else do
        let r ← nvmeZnsAppend zslba 0 lbaSize wdata
        if r.2 ≠ toU64 (zslba + wptr : ℕ) then do fetchAdd; pure (.error (some r.1))
        else if r.1 ≠ 0 then do fetchAdd; pure (.error (some r.1))
        else writeZone lbaSize zslba x n (wptr + 1) r.1 wdata

/-- The reading loop. -/
def readZone (lbaSize zslba : ℕ) (x : ℤ) :
    (n wptr : ℕ) → (ret : ℤ) → Bytes → Prog ds (Except (Option ℤ) (ℤ × Bytes))
  | 0, _, ret, rdata => pure (.ok (ret, rdata))
  | n + 1, wptr, _, rdata => do
      let r ← nvmeRead (toU64 (zslba + wptr : ℕ)) 0 lbaSize rdata
      if r.1 ≠ 0 then do fetchAdd; pure (.error (some r.1))
      else if matchPatternWithStart r.2 lbaSize (toU64 (x + wptr)) then
        readZone lbaSize zslba x n (wptr + 1) r.1 r.2
      else pure (.error none)

/-- `goto done`, if there has been an error. -/
def orDone (p : Prog ds (Except (Option ℤ) (ℤ × Bytes))) (next : ℤ → Bytes → Prog ds (Option ℤ)) :
    Prog ds (Option ℤ) := do
  match ← p with
  | .error e => pure e
  | .ok (ret, data) => next ret data

/-- The `while` loop of a thread; it finds the flag down `rounds` times at most. -/
def zoneRounds (zcap lbaSize zslba : ℕ) (x : ℤ) :
    (rounds : ℕ) → (ret : ℤ) → (wdata rdata : Bytes) → Prog ds (Option ℤ)
  | 0, ret, _, _ => pure (some ret)
  | rounds + 1, ret, wdata, rdata => do
      if ← loadStop then pure (some ret)
      else do
        let ret ← ssZnsDeviceZoneReset zslba
        if ret ≠ 0 then do fetchAdd; pure (some ret)
        else
          orDone (writeZone lbaSize zslba x zcap 0 ret wdata) fun ret wdata =>
            orDone (readZone lbaSize zslba x zcap 0 ret rdata) fun ret rdata =>
              zoneRounds zcap lbaSize zslba x rounds ret wdata rdata

/-- `test3_zoneX_full_io_test`, by the thread with the number `x`.  `allocated` says whether it gets
its two buffers. -/
def test3ZoneXFullIoTest (zcap lbaSize zslba : ℕ) (x : ℤ) (allocated : Bool) (rounds : ℕ) :
    Prog ds (Option ℤ) :=
  if allocated then zoneRounds zcap lbaSize zslba x rounds (-1) (fun _ => 0) fun _ => 0
  else do fetchAdd; pure (some (-1))

/-- The loop of the thread that has started the others: a look at the counter every second. -/
def waitForErrors : ℕ → Prog ds Unit
  | 0 => pure ()
  | n + 1 => do
      if (← loadErrors) = 0 then waitForErrors n else pure ()

/-- `test3_threaded_parallel`, when the threads are running.  It joins them before it looks at the
counter for the last time, which only makes for fewer interleavings. -/
def test3ThreadedParallel (timeOut : ℤ) : Prog ds (Option ℤ) := do
  waitForErrors timeOut.toNat
  setStop
  some <$> loadErrors

/-- The threads of the third test, in their order; `none` is the one that has started them. -/
def threads {n : ℕ} (zcap lbaSize : ℕ) (zslba : Fin n → ℕ) (tid : Fin n → ℤ)
    (allocated : Fin n → Bool) (rounds : Fin n → ℕ) (timeOut : ℤ) :
    Option (Fin n) → Prog ds (Option ℤ)
  | none => test3ThreadedParallel timeOut
  | some i => test3ZoneXFullIoTest zcap lbaSize (zslba i) (tid i) (allocated i) (rounds i)

/-! ## The first two tests -/

/-- The fields of `nvme_zns_desc` that the tests look at. -/
structure ZoneDesc where
  zcap : ℕ
  zslba : ℕ

/-- `struct zone_to_test` -/
structure ZoneToTest where
  desc : ZoneDesc
  lbaSizeInUse : ℕ

/-- `ss_nvme_device_read`, into a buffer. -/
def deviceRead (slba : ℕ) (numbers : ℤ) (buf : Bytes) (bufSize : ℕ) : Prog ds (ℤ × Bytes) :=
  nvmeRead slba ((toU16 numbers : ℤ) - 1) bufSize buf

/-- `ss_nvme_device_write`, from a buffer. -/
def deviceWrite (slba : ℕ) (numbers : ℤ) (buf : Bytes) (bufSize : ℕ) : Prog ds ℤ :=
  nvmeWrite slba ((toU16 numbers : ℤ) - 1) bufSize buf

/-- `ss_zns_device_zone_append` -/
def ssZnsDeviceZoneAppend (zslba : ℕ) (numbers : ℤ) (buf : Bytes) (bufSize : ℕ) :
    Prog ds (ℤ × ℕ) :=
  nvmeZnsAppend zslba ((toU16 numbers : ℤ) - 1) bufSize buf

/-- `update_lba` -/
def updateLba (writeLba : ℕ) (count : ℤ) : ℕ := toU64 (writeLba + count)

/-- A pointer into a buffer. -/
def advance (buf : Bytes) (off : ℕ) : Bytes := fun j => buf (off + j)

/-- `assert` -/
def assert {α : Type} (c : Prop) [Decidable c] (p : Prog ds (Option α)) : Prog ds (Option α) :=
  if c then p else pure none

/-- The loop that matches `n` blocks. -/
def matchBlocks (lbaSize : ℕ) (buf : Bytes) (n : ℕ) : Prop :=
  ∀ i < n, matchPatternWithStart (advance buf (i * lbaSize)) lbaSize 0 = true

instance (lbaSize : ℕ) (buf : Bytes) (n : ℕ) : Decidable (matchBlocks lbaSize buf n) :=
  Nat.decidableBallLT n fun _ _ => _

/-- The second half of `test1_lba_io_test`: two blocks are written, two appended, one is written, and
all five read back. -/
def test1Mixed (zoneSlba lbaSize : ℕ) (wPattern : Bytes) : Prog ds (Option ℤ) := do
  let ret ← ssZnsDeviceZoneReset zoneSlba
  assert (ret = 0) do
  let first : Bytes := writePatternWithStart (fun _ => 0) lbaSize 0
  let wPattern2 := first.put lbaSize lbaSize
    (writePatternWithStart (advance first lbaSize) lbaSize 0)
  let ret ← deviceWrite zoneSlba 2 wPattern2 (2 * lbaSize)
  assert (ret = 0) do
  let writeLba := updateLba zoneSlba 2
  let r ← ssZnsDeviceZoneAppend zoneSlba 2 wPattern2 (2 * lbaSize)
  assert (r.1 = 0) do
  assert (r.2 = writeLba) do
  let ret ← deviceWrite (updateLba r.2 2) 1 wPattern lbaSize
  assert (ret = 0) do
  let r ← deviceRead zoneSlba 5 (fun _ => 0) (5 * lbaSize)
  assert (r.1 = 0) do
  assert (matchBlocks lbaSize r.2 5) do
  pure (some r.1)

/-- `test1_lba_io_test`.  It asks to identify the namespace without a buffer for the answer;
`identified` is what that returns. -/
def test1LbaIoTest (identified : ℤ) (ztest : ZoneToTest) : Prog ds (Option ℤ) :=
  if identified ≠ 0 then pure (some identified)
  else do
    let ret ← ssZnsDeviceZoneReset ztest.desc.zslba
    if ret ≠ 0 then pure (some ret)
    else do
      let wPattern := writePatternWithStart (fun _ => 0) ztest.lbaSizeInUse 0
      let ret ← deviceWrite ztest.desc.zslba 1 wPattern ztest.lbaSizeInUse
      if ret ≠ 0 then pure (some ret)
      else do
        let r ← deviceRead ztest.desc.zslba 1 (fun _ => 0) ztest.lbaSizeInUse
        if r.1 ≠ 0 then pure (some r.1)
        else do
          assert (matchPatternWithStart r.2 ztest.lbaSizeInUse 0 = true) do
          test1Mixed ztest.desc.zslba ztest.lbaSizeInUse wPattern

/-- The commands of a transfer, with the buffer that they move. -/
def onBuffer {α : Type} : Program Command Command.Res α → Bytes → Prog ds (α × Bytes)
  | .pure a, data => pure (a, data)
  | .op (.nvmeRead slba nlb dataLen off) next, data => do
      let r ← nvmeRead slba nlb dataLen (advance data off)
      onBuffer (next r.1) (data.put off dataLen r.2)
  | .op (.nvmeWrite slba nlb dataLen off) next, data => do
      let r ← nvmeWrite slba nlb dataLen (advance data off)
      onBuffer (next r) data

/-- What `get_mdts_size` finds behind a file descriptor: the `mdts` byte of the controller, zero when
it cannot be identified, and the `mpsmax_mpsmin` byte of the registers, if `mmap_registers` finds
them. -/
structure Descriptor where
  mdts : ℕ
  registers : Option ℕ

/-- `get_mdts_size`.  The pointer to the registers is not tested: when it is null the process ends. -/
def Descriptor.getMdtsSize (fd : Descriptor) : Option ℕ :=
  fd.registers.map (M1.getMdtsSize fd.mdts)

/-- `test2_zone_full_io_test`.  It asks for the limit of descriptor `0`, which is the standard input
and not the device under test. -/
def test2ZoneFullIoTest (stdin : Descriptor) (ztest : ZoneToTest) : Prog ds (Option ℤ) := do
  let zslba := ztest.desc.zslba
  let lbaSize := ztest.lbaSizeInUse
  let zoneSize := toU64 (lbaSize * ztest.desc.zcap : ℕ)
  match stdin.getMdtsSize with
  | none => pure none
  | some mdtsSize => do
    let data : Bytes := writePatternWithStart (fun _ => 0) zoneSize 0
    let ret ← ssZnsDeviceZoneReset zslba
    if ret ≠ 0 then pure (some ret)
    else do
      let w ← onBuffer (ssNvmeDeviceIoWithMdts zslba zoneSize lbaSize mdtsSize false) data
      if w.1 ≠ 0 then pure (some w.1)
      else do
        let r ← onBuffer (ssNvmeDeviceIoWithMdts zslba zoneSize lbaSize mdtsSize true)
          (data.put 0 zoneSize fun _ => 0)
        if r.1 ≠ 0 then pure (some r.1)
        else do
          assert (matchPatternWithStart r.2 zoneSize 0 = true) do
          pure (some r.1)

/-- `zone_reports_ptr[k]`, taken for a zone descriptor: the report is a header as long as a
descriptor, with reserved bytes where a descriptor has the capacity and the address, and the
descriptors behind it. -/
def reportElement (entries : ℕ → ZoneDesc) : ℕ → ZoneDesc
  | 0 => ⟨0, 0⟩
  | k + 1 => entries k

/-- `main`, from the zone report on: the exit status.  `rand₁` and `rand₂` are the random numbers, and
`stdin` is what descriptor `0` stands for. -/
def m1Main (numZones lbaSize : ℕ) (stdin : Descriptor) (rand₁ rand₂ : ℕ) (identified : ℤ)
    (entries : ℕ → ZoneDesc) : Prog ds (Option ℤ) := do
  match ← test1LbaIoTest identified ⟨entries (rand₁ % numZones), lbaSize⟩ with
  | none => pure none
  | some t1 =>
      match ← test2ZoneFullIoTest stdin
          ⟨reportElement entries (rand₂ % numZones), lbaSize⟩ with
      | none => pure none
      | some t2 => pure (some (if t1 ≠ 0 ∨ t2 ≠ 0 then -1 else 0))

end StoSys.M1
