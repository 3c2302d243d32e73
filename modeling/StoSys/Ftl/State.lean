import StoSys.Lib.Program
import StoSys.Lib.CInt
import StoSys.Lib.HashMap
import StoSys.Lib.Zoned

/-!
# The translation layer's state and the calls it makes

`zns_device.cpp` keeps two kinds of data.  What `init_ss_zns_device` computes once and nothing
changes afterwards is `Config`; what reads, writes and garbage collections change is `Ftl`.  The two
hash maps are process globals: they outlive a device handle, so they are part of `Ftl` and `init`
does not touch them.

Everything the code asks of its environment is an `Op`: the libnvme commands, the few system calls
whose result is checked, and reading or changing the shared memory.  Making memory accesses
operations too is what gives every map update its own step, so that a concurrent reader can be
placed between any two of them.

Data moves in whole logical blocks and the layer never looks inside one, so a block is an element
of a type `B`, with `0` for a block of zero bytes; sizes and offsets stay in bytes.
-/

namespace StoSys

open Effect HashMap Zoned CInt

/-- `MDTS` -/
def mdts : ℕ := 64 * 4096

/-- `EMPTY_ZONE` -/
def emptyZone : ℕ := 1

/-- `FULL_ZONE` -/
def fullZone : ℕ := 14

/-- `struct zdev_init_params`, without the device name. -/
structure InitParams where
  logZones : ℤ
  gcWmark : ℤ
  forceReset : Bool

/-- The part of `user_zns_device` and `zns_device_metadata` that `init_ss_zns_device` fixes. -/
structure Config where
  lbaSizeBytes : ℕ
  capacityBytes : ℕ
  znsLbaSize : ℕ
  znsZoneCapacity : ℕ
  znsNumZones : ℕ
  mdts : ℕ
  gcWatermark : ℕ
  nBlocksPerZone : ℕ
  logZoneNumConfig : ℤ

/-- The part of `zns_device_metadata` that changes, and the two global maps. -/
structure Ftl where
  logZoneMapping : UMap ℤ
  dataZoneMapping : UMap ℤ
  logZoneStart : ℕ
  logZoneEnd : ℕ
  zoneStates : ℕ → ℕ
  /-- whether `gc_mutex` is held -/
  gcMutex : Bool
  triggerMyGc : Bool
  gcThreadStop : Bool

/-- The memory of a process that has not opened a device yet. -/
def Ftl.fresh : Ftl where
  logZoneMapping := ∅
  dataZoneMapping := ∅
  logZoneStart := 0
  logZoneEnd := 0
  zoneStates _ := 0
  gcMutex := false
  triggerMyGc := false
  gcThreadStop := false

/-- `nvme_zone_report`: the number of zones, and capacity and state byte of each. -/
structure ZoneReport where
  nrZones : ℕ
  zcap : ℕ → ℕ
  zs : ℕ → ℕ

/-- System and library calls of which only the return code matters. -/
inductive SysCall where
  | nvmeOpen
  | nvmeGetNsid
  | pthreadCreate
  | pthreadJoin
  | close
  deriving DecidableEq

/-- What the code asks of its environment.  `off` is the byte offset of the data pointer into the
caller's buffer, `payload` the blocks found there. -/
inductive Op (B : Type) : Type where
  | get
  | modify (f : Ftl → Ftl)
  | sysCall (c : SysCall)
  | nvmeIdentifyNs
  | nvmeZnsReport
  | nvmeRead (slba nlb dataLen : ℕ) (off : ℤ)
  | nvmeWrite (slba nlb dataLen : ℕ) (off : ℤ) (payload : List B)
  | nvmeZnsAppend (zslba nlb dataLen : ℕ) (payload : List B)
  | nvmeZnsReset (slba : ℕ) (selectAll : Bool)

/-- The answer to an operation: a return code, and what the command hands back. -/
abbrev Op.Res {B : Type} : Op B → Type
  | .get => Ftl
  | .modify _ => Unit
  | .sysCall _ => ℤ
  | .nvmeIdentifyNs => ℤ × ℕ
  | .nvmeZnsReport => ℤ × ZoneReport
  | .nvmeRead _ _ _ _ => ℤ × List B
  | .nvmeWrite _ _ _ _ _ => ℤ
  | .nvmeZnsAppend _ _ _ _ => ℤ × ℕ
  | .nvmeZnsReset _ _ => ℤ

/-- Code of the translation layer. -/
abbrev Prog (B α : Type) : Type := Program (Op B) Op.Res α

variable {B : Type}

/-! ## The calls, as programs -/

def getFtl : Prog B Ftl := Program.perform (Op.get : Op B)

def modifyFtl (f : Ftl → Ftl) : Prog B Unit := Program.perform (Op.modify f : Op B)

def sysCall (c : SysCall) : Prog B ℤ := Program.perform (Op.sysCall c : Op B)

def nvmeIdentifyNs : Prog B (ℤ × ℕ) := Program.perform (Op.nvmeIdentifyNs : Op B)

def nvmeZnsReport : Prog B (ℤ × ZoneReport) := Program.perform (Op.nvmeZnsReport : Op B)

/-- `nvme_read`: the block count is a 16-bit and the length a 32-bit parameter. -/
def nvmeRead (slba : ℕ) (nlb dataLen : ℤ) (off : ℤ) : Prog B (ℤ × List B) :=
  Program.perform (Op.nvmeRead slba (toU16 nlb) (toU32 dataLen) off : Op B)

/-- `nvme_write` -/
def nvmeWrite (slba : ℕ) (nlb dataLen : ℤ) (off : ℤ) (payload : List B) : Prog B ℤ :=
  Program.perform (Op.nvmeWrite slba (toU16 nlb) (toU32 dataLen) off payload : Op B)

/-- `nvme_zns_append` -/
def nvmeZnsAppend (zslba : ℕ) (nlb dataLen : ℤ) (payload : List B) : Prog B (ℤ × ℕ) :=
  Program.perform (Op.nvmeZnsAppend zslba (toU16 nlb) (toU32 dataLen) payload : Op B)

/-- `nvme_zns_mgmt_send(.., NVME_ZNS_ZSA_RESET, ..)` -/
def nvmeZnsReset (slba : ℤ) (selectAll : Bool) : Prog B ℤ :=
  Program.perform (Op.nvmeZnsReset (toU64 slba) selectAll : Op B)

/-! ## Buffers -/

/-- Memory around a data pointer, one element a block; index `0` is where the pointer points. -/
abbrev Buffer (B : Type) : Type := ℤ → B

/-- The blocks a command transfers land at block index `i`. -/
def Buffer.store (buf : Buffer B) (i : ℤ) (bs : List B) : Buffer B :=
  fun j => if i ≤ j then (bs[(j - i).toNat]?).getD (buf j) else buf j

/-- `cnt` blocks from block index `i` on. -/
def Buffer.slice (buf : Buffer B) (i : ℤ) (cnt : ℕ) : List B :=
  (List.range cnt).map fun j : ℕ => buf (i + j)

@[simp] lemma Buffer.length_slice (buf : Buffer B) (i : ℤ) (cnt : ℕ) :
    (buf.slice i cnt).length = cnt := by simp [Buffer.slice]

/-! ## A drive that works -/

/-- Process memory and medium. -/
structure World (d : Drive B) where
  ftl : Ftl
  media : Media d

variable {d : Drive B}

/-- The status of a refused command.  The code only ever tests it against zero. -/
def commandError : ℤ := 2

/-- What a zone report says of a medium; the state is in the high half of its byte. -/
def zoneReport (m : Media d) : ZoneReport where
  nrZones := d.nrZones
  zcap _ := d.zoneCap
  zs i := m.zoneState i * 16

/-- **The fault-free environment.**  System calls succeed, and a command is refused only when the
drive cannot do what it says: the transfer length must be that of the (zero-based) block count, and
the medium must accept the command. -/
def exec : Handler (Op B) Op.Res (World d)
  | .get, w => (w.ftl, w)
  | .modify f, w => ((), { w with ftl := f w.ftl })
  | .sysCall _, w => ((0 : ℤ), w)
  | .nvmeIdentifyNs, w => (((0 : ℤ), d.ds), w)
  | .nvmeZnsReport, w => (((0 : ℤ), zoneReport w.media), w)
  | .nvmeRead slba nlb dataLen _, w =>
      if dataLen = (nlb + 1) * d.lbaSize then
        match w.media.read slba (nlb + 1) with
        | some bs => (((0 : ℤ), bs), w)
        | none => ((commandError, []), w)
      else ((commandError, []), w)
  | .nvmeWrite slba nlb dataLen _ payload, w =>
      if dataLen = (nlb + 1) * d.lbaSize ∧ payload.length = nlb + 1 then
        match w.media.write slba payload with
        | some m => ((0 : ℤ), { w with media := m })
        | none => (commandError, w)
      else (commandError, w)
  | .nvmeZnsAppend zslba nlb dataLen payload, w =>
      if dataLen = (nlb + 1) * d.lbaSize ∧ payload.length = nlb + 1 then
        match w.media.append zslba payload with
        | some (lba, m) => (((0 : ℤ), lba), { w with media := m })
        | none => ((commandError, 0), w)
      else ((commandError, 0), w)
  | .nvmeZnsReset slba selectAll, w =>
      if selectAll then ((0 : ℤ), { w with media := Media.empty d })
      else
        match w.media.reset slba with
        | some m => ((0 : ℤ), { w with media := m })
        | none => (commandError, w)

end StoSys
