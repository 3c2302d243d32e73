import StoSys.Ftl.ZnsDevice
import Mathlib.Tactic.Ring
import Mathlib.Tactic.Linarith

/-!
# Geometry

`Setup` is a drive and a pair of parameters the layer is meant for: the zone size is the zone
capacity, nothing the code computes on 32 bits overflows, and the watermark and the log leave room
for each other and for data.  `Setup.config` is what `init_ss_zns_device` makes of it.

The drive reports LBA sizes as powers of two, and a block count travels in a 16-bit zero-based
field; `ds_ge` says that the blocks of one `MDTS`-sized command fit that field, which holds for
every LBA size from 4 bytes up.

A user address is written `q * lba`, with `q < g.capacity` the block number; block `q` belongs to
virtual zone `g.vzone q` and sits at offset `q % g.nBlocks` in it.
-/

namespace StoSys

open Effect HashMap Zoned CInt

/-- A drive with zone size equal to zone capacity, and log parameters that fit it. -/
structure Setup (B : Type) where
  ds : ℕ
  nBlocks : ℕ
  nrZones : ℕ
  logZones : ℕ
  gcWmark : ℕ
  readAcross : Bool
  fill : B
  ds_ge : 2 ≤ ds
  nBlocks_pos : 0 < nBlocks
  zoneBytes_lt : nBlocks * 2 ^ ds < 4294967296
  total_lt : nrZones * nBlocks < 2147483648
  wmark_pos : 1 ≤ gcWmark
  wmark_lt : gcWmark < logZones
  logZones_lt : logZones < nrZones

namespace Setup

variable {B : Type} (g : Setup B)

/-- Bytes in a block. -/
def lba : ℕ := 2 ^ g.ds

def drive : Drive B where
  ds := g.ds
  nrZones := g.nrZones
  zoneSize := g.nBlocks
  zoneCap := g.nBlocks
  readAcross := g.readAcross
  fill := g.fill
  cap_pos := g.nBlocks_pos
  cap_le := Nat.le_refl _

def params (forceReset : Bool) : InitParams where
  logZones := g.logZones
  gcWmark := g.gcWmark
  forceReset := forceReset

/-- Number of user blocks. -/
def capacity : ℕ := (g.nrZones - g.logZones) * g.nBlocks

/-- The virtual zone of block `q`. -/
def vzone (q : ℕ) : ℕ := g.logZones + q / g.nBlocks

def config : Config where
  lbaSizeBytes := g.lba
  capacityBytes := g.capacity * g.lba
  znsLbaSize := g.lba
  znsZoneCapacity := g.nBlocks * g.lba
  znsNumZones := g.nrZones
  mdts := mdts
  gcWatermark := g.gcWmark
  nBlocksPerZone := g.nBlocks
  logZoneNumConfig := g.logZones

/-! ## Reading the fields -/

@[simp] lemma drive_nrZones : g.drive.nrZones = g.nrZones := rfl
@[simp] lemma drive_zoneSize : g.drive.zoneSize = g.nBlocks := rfl
@[simp] lemma drive_zoneCap : g.drive.zoneCap = g.nBlocks := rfl
@[simp] lemma drive_lbaSize : g.drive.lbaSize = g.lba := rfl
@[simp] lemma config_lbaSizeBytes : g.config.lbaSizeBytes = g.lba := rfl
@[simp] lemma config_znsNumZones : g.config.znsNumZones = g.nrZones := rfl
@[simp] lemma config_mdts : g.config.mdts = mdts := rfl
@[simp] lemma config_nBlocksPerZone : g.config.nBlocksPerZone = g.nBlocks := rfl
@[simp] lemma config_logZoneNumConfig : g.config.logZoneNumConfig = g.logZones := rfl

/-! ## Ranges -/

lemma lba_pos : 0 < g.lba := Nat.two_pow_pos _

lemma lba_ge : 4 ≤ g.lba :=
  Nat.pow_le_pow_right (show 0 < 2 by decide) g.ds_ge

lemma zone_lba_lt : g.nBlocks * g.lba < 4294967296 := g.zoneBytes_lt

lemma lba_lt : g.lba < 4294967296 :=
  Nat.lt_of_le_of_lt (Nat.le_mul_of_pos_left _ g.nBlocks_pos) g.zone_lba_lt

lemma nBlocks_lt : g.nBlocks < 1073741824 := by
  have h := Nat.mul_le_mul_left g.nBlocks g.lba_ge
  have := g.zone_lba_lt
  omega

/-- Every block address on the medium is below `2 ^ 31`. -/
lemma addr_lt {i o : ℕ} (hi : i < g.nrZones) (ho : o ≤ g.nBlocks) :
    i * g.nBlocks + o < 2147483648 := by
  have h := Media.addr_lt (d := g.drive) hi ho
  have := g.total_lt
  simp only [drive_zoneSize, drive_nrZones] at h
  omega

lemma nrZones_lt : g.nrZones < 2147483648 :=
  Nat.lt_of_le_of_lt (Nat.le_mul_of_pos_right _ g.nBlocks_pos) g.total_lt

lemma start_lt {i : ℕ} (hi : i ≤ g.nrZones) : i * g.nBlocks < 2147483648 :=
  Nat.lt_of_le_of_lt (Nat.mul_le_mul_right _ hi) g.total_lt

/-- The start of a zone is a 64-bit address. -/
lemma toU64_start {i : ℕ} (hi : i < g.nrZones) :
    toU64 ((i * g.nBlocks : ℕ) : ℤ) = i * g.nBlocks :=
  toU64_of_lt (by have := g.start_lt (Nat.le_of_lt hi); omega)

lemma toU32_start {i : ℕ} (hi : i < g.nrZones) :
    toU32 ((i * g.nBlocks : ℕ) : ℤ) = i * g.nBlocks :=
  toU32_of_lt (by have := g.start_lt (Nat.le_of_lt hi); omega)

lemma logZones_pos : 0 < g.logZones := Nat.lt_of_le_of_lt (Nat.zero_le _) g.wmark_lt

/-- Blocks of the log that writes may fill. -/
def logRoom : ℕ := (g.logZones - g.gcWmark) * g.nBlocks

lemma logRoom_add_le : g.logRoom + g.nBlocks ≤ g.logZones * g.nBlocks := by
  have h : g.logZones - g.gcWmark + 1 ≤ g.logZones := by
    have := g.wmark_pos; have := g.wmark_lt; omega
  calc g.logRoom + g.nBlocks = (g.logZones - g.gcWmark + 1) * g.nBlocks := by
        rw [logRoom, Nat.succ_mul]
    _ ≤ g.logZones * g.nBlocks := Nat.mul_le_mul_right _ h

lemma logRoom_lt : g.logRoom < 2147483648 := by
  have := g.logRoom_add_le
  have := g.start_lt (Nat.le_of_lt g.logZones_lt)
  omega

/-- A cursor that writes may leave behind is in a log zone. -/
lemma cursor_zone_lt {e : ℕ} (he : e ≤ g.logRoom) : e / g.nBlocks < g.logZones := by
  refine (Nat.div_lt_iff_lt_mul g.nBlocks_pos).mpr ?_
  have := g.logRoom_add_le
  have := g.nBlocks_pos
  omega

lemma capacityBytes_lt : g.config.capacityBytes < 9223372036854775808 := by
  change (g.nrZones - g.logZones) * g.nBlocks * g.lba < _
  rw [Nat.mul_assoc]
  calc (g.nrZones - g.logZones) * (g.nBlocks * g.lba)
      ≤ 2147483648 * (g.nBlocks * g.lba) :=
        Nat.mul_le_mul_right _ (Nat.le_of_lt (Nat.lt_of_le_of_lt (Nat.sub_le _ _) g.nrZones_lt))
    _ < 2147483648 * 4294967296 := Nat.mul_lt_mul_of_pos_left g.zone_lba_lt (by decide)

lemma blockAt_addr {g : Setup B} (m : Media g.drive) {i o : ℕ} (ho : o < g.nBlocks) :
    m.blockAt (i * g.nBlocks + o) = ((m.zone i)[o]?).getD g.fill :=
  Media.blockAt_addr m ho

lemma written_addr {g : Setup B} (m : Media g.drive) {i o : ℕ} (ho : o < g.nBlocks) :
    m.Written (i * g.nBlocks + o) ↔ o < (m.zone i).length :=
  Media.written_addr m ho

/-! ## Address translation -/

lemma vzone_ge (q : ℕ) : g.logZones ≤ g.vzone q := Nat.le_add_right _ _

lemma vzone_lt {q : ℕ} (hq : q < g.capacity) : g.vzone q < g.nrZones := by
  have h : q / g.nBlocks < g.nrZones - g.logZones := (Nat.div_lt_iff_lt_mul g.nBlocks_pos).mpr hq
  have := g.logZones_lt
  unfold vzone
  omega

lemma offset_lt (q : ℕ) : q % g.nBlocks < g.nBlocks := Nat.mod_lt _ g.nBlocks_pos

/-- A block is determined by its virtual zone and its offset. -/
lemma vzone_offset_inj {q q' : ℕ} (hz : g.vzone q = g.vzone q')
    (ho : q % g.nBlocks = q' % g.nBlocks) : q = q' := by
  have hdiv : q / g.nBlocks = q' / g.nBlocks := by unfold vzone at hz; omega
  rw [← Nat.div_add_mod q g.nBlocks, ← Nat.div_add_mod q' g.nBlocks, hdiv, ho]

/-- Every offset of every virtual zone is a block. -/
lemma exists_block {u o : ℕ} (hle : g.logZones ≤ u) (hlt : u < g.nrZones) (ho : o < g.nBlocks) :
    ∃ q < g.capacity, g.vzone q = u ∧ q % g.nBlocks = o := by
  refine ⟨(u - g.logZones) * g.nBlocks + o, ?_, ?_, ?_⟩
  · calc (u - g.logZones) * g.nBlocks + o
        < (u - g.logZones + 1) * g.nBlocks := by
          rw [Nat.succ_mul]
          exact Nat.add_lt_add_left ho _
      _ ≤ g.capacity := Nat.mul_le_mul_right _ (by omega)
  · rw [vzone, Nat.add_comm _ o, Nat.add_mul_div_right _ _ g.nBlocks_pos, Nat.div_eq_of_lt ho]
    omega
  · rw [Nat.add_comm, Nat.add_mul_mod_self_right, Nat.mod_eq_of_lt ho]

@[simp] lemma config_zoneBytes : g.config.zoneBytes = g.nBlocks * g.lba :=
  toU32_of_lt g.zone_lba_lt

lemma div_zoneBytes (q : ℕ) : q * g.lba / (g.nBlocks * g.lba) = q / g.nBlocks :=
  Nat.mul_div_mul_right _ _ g.lba_pos

lemma mod_zoneBytes (q : ℕ) : q * g.lba % (g.nBlocks * g.lba) / g.lba = q % g.nBlocks := by
  rw [Nat.mul_mod_mul_right, Nat.mul_div_cancel _ g.lba_pos]

/-- The grouping loop of the collector finds the virtual zone of a block … -/
lemma virtualZone_addr (q : ℕ) : g.config.virtualZone ((q * g.lba : ℕ) : ℤ) = (g.vzone q : ℕ) := by
  rw [Config.virtualZone, config_zoneBytes, config_logZoneNumConfig, ← Int.ofNat_tdiv,
    div_zoneBytes, vzone]
  push_cast
  ring

/-- … and its offset. -/
lemma blockOffset_addr (q : ℕ) :
    g.config.blockOffset ((q * g.lba : ℕ) : ℤ) = (q % g.nBlocks : ℕ) := by
  rw [Config.blockOffset, config_zoneBytes, config_lbaSizeBytes, ← Int.ofNat_tmod,
    ← Int.ofNat_tdiv, mod_zoneBytes]

end Setup

end StoSys
