import StoSys.Ftl.State

/-!
# `zns_device.cpp`

The translation layer, function by function, in the order of the source.

A C function that returns an error code and fills a buffer is a program returning both.  `return`
in the middle of a body is an `if` whose other branch is the rest of the body.  A loop runs on a
counter that bounds its iterations: the `while` of `ioWithMdts` on the number of commands the
request splits into, the `for` of `znsUdeviceRead` on the number of blocks, the watermark loop of
`znsUdeviceWrite` on the list of garbage collections it is granted (each with its own iteration
orders); a write that needs more of them than it is granted has not returned.

The garbage collection thread is modelled by its passes: `triggerGc` is one trip around its outer
loop.  In a sequential run a pass happens exactly where a writer waits for it.
-/

namespace StoSys

open Effect HashMap CInt

variable {B : Type} [Zero B]

/-! ## Splitting a transfer -/

/-- The `while` loop of `io_with_mdts`; `base` is where the caller's `buffer` argument points. -/
def ioLoop (c : Config) (base : ℤ) (read : Bool) :
    (fuel sizeToIo bufPtr writePointer : ℕ) → Buffer B → Prog B (ℤ × Buffer B)
  | 0, _, _, _, buf => pure (0, buf)
  | fuel + 1, sizeToIo, bufPtr, writePointer, buf =>
      if 0 < sizeToIo then
        let singleIoSize := if mdts < sizeToIo then mdts else sizeToIo
        let newBuf : ℤ := base + bufPtr
        let lbaNum := toU64 ((singleIoSize / c.lbaSizeBytes : ℕ)
          - (if singleIoSize % c.lbaSizeBytes = 0 then 1 else 0))
        if read then do
          let r ← nvmeRead writePointer lbaNum singleIoSize newBuf
          let buf := buf.store (newBuf / c.lbaSizeBytes) r.2
          if r.1 ≠ 0 then pure (r.1, buf)
          else
            ioLoop c base read fuel (sizeToIo - singleIoSize) (bufPtr + singleIoSize)
              (toU64 (writePointer + lbaNum + 1)) buf
        else do
          let ret ← nvmeWrite writePointer lbaNum singleIoSize newBuf
            (buf.slice (newBuf / c.lbaSizeBytes) (singleIoSize / c.lbaSizeBytes))
          if ret ≠ 0 then pure (ret, buf)
          else
            ioLoop c base read fuel (sizeToIo - singleIoSize) (bufPtr + singleIoSize)
              (toU64 (writePointer + lbaNum + 1)) buf
      else pure (0, buf)

/-- `io_with_mdts` -/
def ioWithMdts (c : Config) (slba : ℕ) (base : ℤ) (bufSize : ℕ) (read : Bool) (buf : Buffer B) :
    Prog B (ℤ × Buffer B) :=
  ioLoop c base read (bufSize / mdts + 1) bufSize 0 slba buf

/-- `free_zone_number`.  In C the division traps when `n_blocks_per_zone` is zero. -/
def freeZoneNumber (c : Config) (m : Ftl) (offset : ℤ) : ℕ :=
  toU32 (c.logZoneNumConfig
    - (toU32 ((m.logZoneEnd : ℤ) - m.logZoneStart + offset) / c.nBlocksPerZone : ℕ))

/-- `next_empty_zone` -/
def nextEmptyZone (c : Config) (m : Ftl) : ℤ :=
  match (List.range' (toU64 c.logZoneNumConfig)
      (c.znsNumZones - toU64 c.logZoneNumConfig)).find?
        (fun i => m.zoneStates i = emptyZone) with
  | some i => toI32 (toU64 (i * c.nBlocksPerZone : ℕ))
  | none => -1

/-! ## Merging -/

/-- `zone_states[i] = s` -/
def Ftl.setZoneState (m : Ftl) (i : ℤ) (s : ℕ) : Ftl :=
  { m with zoneStates := Function.update m.zoneStates i.toNat s }

/-- The step of `zone_merge` that reads the data zone of `v`, if it has one, and marks it free.
Returns the code, `prev_zone` and the buffer. -/
def readOldZone (c : Config) (v : ℤ) (buf : Buffer B) : Prog B (ℤ × ℤ × Buffer B) := do
  let m ← getFtl
  match m.dataZoneMapping.lookup v with
  | none => pure (0, -1, buf)
  | some zone => do
      let r ← ioWithMdts c (toU64 zone) 0 (c.nBlocksPerZone * c.lbaSizeBytes) true buf
      if r.1 ≠ 0 then pure (r.1, -1, r.2)
      else do
        modifyFtl fun m => m.setZoneState (zone.tdiv c.nBlocksPerZone) emptyZone
        pure (0, zone, r.2)

/-- The step of `zone_merge` that reads the log blocks of one zone over the buffer.  The buffer here
has every index; the array of the source has `n_blocks_per_zone` blocks, and an offset outside it
is undefined behaviour. -/
def readLogBlocks (c : Config) :
    List (Sigma fun _ : ℤ => ℤ) → Buffer B → Prog B (ℤ × Buffer B)
  | [], buf => pure (0, buf)
  | ⟨offset, lba⟩ :: rest, buf => do
      let r ← nvmeRead (toU64 lba) 0 c.lbaSizeBytes (c.lbaSizeBytes * offset)
      let buf := buf.store offset r.2
      if r.1 ≠ 0 then pure (r.1, buf) else readLogBlocks c rest buf

/-- The `used_log` branch of `zone_merge`. -/
def mergeInPlace (c : Config) (zoneNumber prevZone : ℤ) (buf : Buffer B) :
    Prog B (ℤ × Buffer B) := do
  let _ ← nvmeZnsReset prevZone false
  let w ← ioWithMdts c (toU64 prevZone) 0 (c.nBlocksPerZone * c.lbaSizeBytes) false buf
  if w.1 ≠ 0 then pure (w.1, buf)
  else do
    modifyFtl fun m => m.setZoneState (prevZone.tdiv c.nBlocksPerZone) fullZone
    let _ ← nvmeZnsReset zoneNumber false
    pure (0, buf)

/-- The other branch of `zone_merge`. -/
def mergeInto (c : Config) (v zoneNumber prevZone : ℤ) (buf : Buffer B) :
    Prog B (ℤ × Buffer B) := do
  let w ← ioWithMdts c (toU64 zoneNumber) 0 (c.nBlocksPerZone * c.lbaSizeBytes) false buf
  if w.1 ≠ 0 then pure (w.1, buf)
  else do
    modifyFtl fun m => { m with dataZoneMapping := m.dataZoneMapping.insert v zoneNumber }
    modifyFtl fun m => m.setZoneState (zoneNumber.tdiv c.nBlocksPerZone) fullZone
    if prevZone ≠ -1 then do
      let _ ← nvmeZnsReset prevZone false
      pure (0, buf)
    else pure (0, buf)

/-- One iteration of the loop of `zone_merge`: merge virtual zone `v`, whose log blocks are
`blocks`. -/
def mergeZone (c : Config) (v : ℤ) (blocks : List (Sigma fun _ : ℤ => ℤ)) (buf : Buffer B) :
    Prog B (ℤ × Buffer B) := do
  let m ← getFtl
  let found := nextEmptyZone c m
  let old ← readOldZone c v buf
  if old.1 ≠ 0 then pure (old.1, old.2.2)
  else do
    let r ← readLogBlocks c blocks old.2.2
    if r.1 ≠ 0 then pure r
    else if found = -1 then
      -- use the last zone of log zones
      mergeInPlace c (toU32 ((c.logZoneNumConfig - 1) * c.nBlocksPerZone)) old.2.1 r.2
    else mergeInto c v found old.2.1 r.2

/-- The iteration orders one garbage collection meets: of the log map, of the zone sets, and of the
block map of each zone. -/
structure HashOrder where
  log : Traversal ℤ
  zones : Traversal (UMap ℤ)
  blocks : ℤ → Traversal ℤ

/-- The orders in which the maps are kept. -/
def HashOrder.stored : HashOrder where
  log := Traversal.stored
  zones := Traversal.stored
  blocks _ := Traversal.stored

/-- The loop of `zone_merge`.  One buffer serves all zones. -/
def mergeLoop (c : Config) (ord : HashOrder) :
    List (Sigma fun _ : ℤ => UMap ℤ) → Buffer B → Prog B (ℤ × Buffer B)
  | [], buf => pure (0, buf)
  | ⟨v, set⟩ :: rest, buf => do
      let r ← mergeZone c v ((ord.blocks v).order set) buf
      if r.1 ≠ 0 then pure r else mergeLoop c ord rest r.2

/-- `zone_merge`, with its buffer zeroed once.  It stands for the source as long as every offset of
`zoneSets` lies in the buffer, `0 ≤ offset < n_blocks_per_zone`. -/
def zoneMerge (c : Config) (ord : HashOrder) (zoneSets : UMap (UMap ℤ)) : Prog B ℤ := do
  let r ← mergeLoop c ord (ord.zones.order zoneSets) fun _ => 0
  pure r.1

/-! ## Garbage collection -/

/-- Bytes in a zone, as the 32-bit product the code divides by: when it is zero, the division traps in
C, and what is defined with it below says nothing about the source. -/
def Config.zoneBytes (c : Config) : ℕ := toU32 (c.nBlocksPerZone * c.lbaSizeBytes : ℕ)

/-- `((iteration->first) / (n_blocks_per_zone * lba_size_bytes)) + log_zone_num_config`, for a
product that is not zero -/
def Config.virtualZone (c : Config) (address : ℤ) : ℤ :=
  address.tdiv c.zoneBytes + c.logZoneNumConfig

/-- `(iteration->first) % (n_blocks_per_zone * lba_size_bytes) / lba_size_bytes`, for divisors that
are not zero -/
def Config.blockOffset (c : Config) (address : ℤ) : ℤ :=
  (address.tmod c.zoneBytes).tdiv c.lbaSizeBytes

/-- `iteration->second & (1L << 63)` -/
def invalidate (v : ℤ) : ℤ := toI64 (toU64 v &&& 2 ^ 63 : ℕ)

/-- Put one log entry into the zone sets: find or create the set of its zone, insert if absent. -/
def groupEntry (c : Config) (sets : UMap (UMap ℤ)) (address lba : ℤ) : UMap (UMap ℤ) :=
  let zoneNumber := c.virtualZone address
  let map := (sets.lookup zoneNumber).getD ∅
  sets.insert zoneNumber (insertNew map (c.blockOffset address) lba)

/-- The grouping loop of `trigger_gc`, over the keys the iterator has still to visit.  Each entry
is read from the map where the iterator stands, then overwritten there. -/
def groupLog (c : Config) : List ℤ → UMap (UMap ℤ) → Prog B (UMap (UMap ℤ))
  | [], sets => pure sets
  | address :: rest, sets => do
      let m ← getFtl
      let second := (m.logZoneMapping.lookup address).getD 0
      let sets := groupEntry c sets address second
      modifyFtl fun m => { m with
        logZoneMapping := m.logZoneMapping.insert address (invalidate second) }
      groupLog c rest sets

/-- Reset log zones `i`, `i + 1`, … (`k` of them). -/
def resetLogZones (c : Config) (i : ℕ) : ℕ → Prog B Unit
  | 0 => pure ()
  | k + 1 => do
      let _ ← nvmeZnsReset (toU32 (i * c.nBlocksPerZone : ℕ)) false
      resetLogZones c (i + 1) k

/-- One pass of `trigger_gc`, from the moment the thread holds the mutex and has seen
`trigger_my_gc` to the moment it signals `stop_gc`. -/
def triggerGc (c : Config) (ord : HashOrder) : Prog B Unit := do
  let m ← getFtl
  let zoneSets ← groupLog c ((ord.log.order m.logZoneMapping).map Sigma.fst) ∅
  -- a failed merge is reported on the console and otherwise ignored
  let _ret ← zoneMerge c ord zoneSets
  resetLogZones c 0 c.logZoneNumConfig.toNat
  modifyFtl fun m => { m with logZoneEnd := m.logZoneStart }
  modifyFtl fun m => { m with logZoneMapping := ∅ }
  modifyFtl fun m => { m with triggerMyGc := false }

/-! ## Opening and closing -/

/-- `deinit_ss_zns_device` -/
def deinitSsZnsDevice : Prog B ℤ := do
  modifyFtl fun m => { m with gcThreadStop := true }
  let _ ← sysCall .pthreadJoin
  sysCall .close

/-- What `init_ss_zns_device` derives from its parameters, the LBA format and the zone report. -/
def mkConfig (p : InitParams) (ds : ℕ) (report : ZoneReport) : Config :=
  let lbaSize := toU32 (2 ^ ds : ℕ)
  let zoneCapacity := toU32 (report.zcap 0 * lbaSize : ℕ)
  { lbaSizeBytes := lbaSize
    capacityBytes := toU64 ((report.nrZones - p.logZones) * zoneCapacity)
    znsLbaSize := lbaSize
    znsZoneCapacity := zoneCapacity
    znsNumZones := toU32 report.nrZones
    mdts := mdts
    gcWatermark := toU32 p.gcWmark
    nBlocksPerZone := toU32 (report.zcap 0)
    logZoneNumConfig := p.logZones }

/-- The loop that fills `zone_states`, for the data zones only. -/
def reportedStates (p : InitParams) (nrZones : ℕ) (report : ZoneReport) (i : ℕ) : ℕ :=
  if toU64 p.logZones ≤ i ∧ i < nrZones then report.zs i / 16 else 0

/-- `init_ss_zns_device`.  The fields of the new metadata become visible where the source sets the
global pointer `zns_metadata`; the two global maps are left as they are. -/
def initSsZnsDevice (p : InitParams) : Prog B (ℤ × Option Config) := do
  let fd ← sysCall .nvmeOpen
  if fd < 0 then pure (-38, none)
  else do
    let ret ← sysCall .nvmeGetNsid
    if ret ≠ 0 then pure (ret, none)
    else do
      let ns ← nvmeIdentifyNs
      if ns.1 ≠ 0 then pure (ns.1, none)
      else do
        let single ← nvmeZnsReport
        if single.1 ≠ 0 then pure (single.1, none)
        else do
          let ret ← if p.forceReset then nvmeZnsReset 0 true else pure 0
          if ret ≠ 0 then pure (ret, none)
          else do
            let all ← nvmeZnsReport
            if all.1 ≠ 0 then pure (all.1, none)
            else do
              let ret ← sysCall .pthreadCreate
              if ret ≠ 0 then pure (ret, none)
              else do
                modifyFtl fun m => { m with
                  logZoneStart := 0
                  logZoneEnd := 0
                  zoneStates := reportedStates p single.2.nrZones all.2
                  gcMutex := false
                  triggerMyGc := false
                  gcThreadStop := false }
                let ret ← if p.forceReset then nvmeZnsReset 0 true else pure 0
                pure (ret, some (mkConfig p ns.2 { all.2 with nrZones := single.2.nrZones }))

/-! ## Reading -/

/-- The second half of the address translation: through the data map.  Defined in C when the
divisors, the zone bytes and the block size, are not zero. -/
def dataEntry (c : Config) (m : Ftl) (i : ℕ) : Option ℕ :=
  (m.dataZoneMapping.lookup (toI64 (toU64 ((i / c.zoneBytes : ℕ) + c.logZoneNumConfig)))).map
    fun zone => toU64 (zone + (i % c.zoneBytes / c.lbaSizeBytes : ℕ))

/-- Where the read loop finds block address `i`; `none` when the data map has no zone for it. -/
def translate (c : Config) (m : Ftl) (i : ℕ) : Option ℕ :=
  match m.logZoneMapping.lookup (toI64 i) with
  | some entry => if (toU64 entry).testBit 63 then dataEntry c m i else some (toU64 entry)
  | none => dataEntry c m i

/-- The `for` loop of `zns_udevice_read`. -/
def readLoop (c : Config) (size bound : ℕ) :
    (fuel i numRead : ℕ) → Buffer B → Prog B (ℤ × Buffer B)
  | 0, _, _, buf => pure (0, buf)
  | fuel + 1, i, numRead, buf =>
      if i < bound then do
        let m ← getFtl
        match translate c m i with
        | none => pure (0, fun j => if 0 ≤ j ∧ j < (size / c.lbaSizeBytes : ℕ) then 0 else buf j)
        | some entry =>
            if size < c.mdts then do
              let r ← nvmeRead (entry % 2 ^ 63) 0 (toI32 c.lbaSizeBytes) numRead
              let buf := buf.store ((numRead / c.lbaSizeBytes : ℕ)) r.2
              if r.1 ≠ 0 then pure (r.1, buf)
              else
                readLoop c size bound fuel (toU64 (i + toI32 c.lbaSizeBytes))
                  (toU32 (numRead + toI32 c.lbaSizeBytes)) buf
            else do
              let r ← ioWithMdts c (entry % 2 ^ 63) numRead size true buf
              if r.1 ≠ 0 then pure r
              else
                readLoop c size bound fuel (toU64 (i + toI32 c.lbaSizeBytes))
                  (toU32 (numRead + toI32 c.lbaSizeBytes)) r.2
      else pure (0, buf)

/-- `zns_udevice_read` -/
def znsUdeviceRead (c : Config) (address size : ℕ) (buf : Buffer B) : Prog B (ℤ × Buffer B) :=
  if size % c.lbaSizeBytes ≠ 0 then pure (-1, buf)
  else
    let blocks := size / c.lbaSizeBytes
    readLoop c size (toU64 (address + toU32 (blocks * toI32 c.lbaSizeBytes))) blocks address 0 buf

/-! ## Writing -/

/-- `while (free_zone_number(blocks) <= gc_watermark)`: ask for a pass and wait for it.  The answer
is whether the loop was left. -/
def watermarkLoop (c : Config) (blocks : ℕ) : List HashOrder → Prog B Bool
  | [] => do
      let m ← getFtl
      pure (decide (c.gcWatermark < freeZoneNumber c m (toI32 blocks)))
  | ord :: passes => do
      let m ← getFtl
      if freeZoneNumber c m (toI32 blocks) ≤ c.gcWatermark then do
        modifyFtl fun m => { m with triggerMyGc := true }
        triggerGc c ord
        watermarkLoop c blocks passes
      else pure true

/-- `for (i = 0; i < blocks; i++) log_zone_mapping[address + i * lba] = prev_log_zone_end + i` -/
def mapBlocks (c : Config) (address : ℕ) (prevLogZoneEnd : ℤ) (blocks : ℕ) (log : UMap ℤ) :
    UMap ℤ :=
  (List.range blocks).foldl (fun log i =>
    log.insert (toI64 (address + toU32 (i * c.lbaSizeBytes : ℕ))) (toU32 (prevLogZoneEnd + i))) log

/-- `zns_udevice_write` between the watermark loop and the end. -/
def writeBody (c : Config) (address size : ℕ) (buf : Buffer B) : Prog B ℤ := do
  let blocks := size / c.lbaSizeBytes
  let m ← getFtl
  let prevLogZoneEnd := toI32 m.logZoneEnd
  let zoneNo := toI32 (m.logZoneEnd / c.nBlocksPerZone : ℕ)
  let slba := toU32 (zoneNo * c.nBlocksPerZone)
  let finish : Prog B ℤ := do
    modifyFtl fun m => { m with
      logZoneMapping := mapBlocks c address prevLogZoneEnd blocks m.logZoneMapping }
    modifyFtl fun m => { m with gcMutex := false }
    pure 0
  if size < c.mdts then do
    let r ← nvmeZnsAppend slba (toU32 ((blocks : ℤ) - 1)) size (buf.slice 0 blocks)
    if r.1 ≠ 0 then pure r.1
    else do
      modifyFtl fun m => { m with logZoneEnd := toU32 (r.2 + 1 : ℕ) }
      finish
  else do
    let r ← ioWithMdts c slba 0 size false buf
    if r.1 ≠ 0 then pure r.1 else finish

/-- `zns_udevice_write`; `none` when the call does not return: it blocks on a mutex nobody releases,
or it is not done after the passes it was granted. -/
def znsUdeviceWrite (c : Config) (passes : List HashOrder) (address size : ℕ) (buf : Buffer B) :
    Prog B (Option ℤ) :=
  if size % c.lbaSizeBytes ≠ 0 then pure (some (-1))
  else do
    let m ← getFtl
    if m.gcMutex then pure none
    else do
      modifyFtl fun m => { m with gcMutex := true }
      let left ← watermarkLoop c (size / c.lbaSizeBytes) passes
      if left then some <$> writeBody c address size buf else pure none

end StoSys
