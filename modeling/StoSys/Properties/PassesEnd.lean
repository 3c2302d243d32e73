import StoSys.Ftl.Runs
import StoSys.Properties.ReadYourWrites

/-!
# Passes without end

A write waits until `free_zone_number(blocks)` exceeds the watermark, and asks for a pass each time
it does not.  All a pass can do for it is to put the cursor back to the start of the log.  So the
test is decided by two values of the cursor, where it is and zero, and a request that fails it for
both asks for passes for ever: nothing compares a request with what an empty log has to offer.

The test divides by the blocks of a zone and a pass by the bytes of a zone, both 32-bit numbers, and
a pass copies every logged block into an array of the size of a zone.  A division by zero and a copy
beside the array are not the end of a loop, so `LoopEnds` leaves them out.
-/

namespace StoSys

open Effect HashMap Zoned CInt

variable {B : Type} {d : Drive B} {p : InitParams} {c : Config} {w : World d}

/-- The watermark test, for a request that ends `x` blocks into the log: the zones up to there and
those above the watermark are fewer than the log has.  Or the difference wraps, and still exceeds
the watermark. -/
def Fits (c : Config) (x : ℕ) : Prop :=
  let used : ℤ := (x % 4294967296 / c.nBlocksPerZone : ℕ)
  used + c.gcWatermark < c.logZoneNumConfig ∨
    c.logZoneNumConfig < used ∧ used + c.gcWatermark < c.logZoneNumConfig + 4294967296

instance (c : Config) (x : ℕ) : Decidable (Fits c x) :=
  inferInstanceAs (Decidable (_ ∨ _))

/-- `free_zone_number(blocks) > gc_watermark` in exact integers. -/
lemma lt_freeZoneNumber_iff {m : Ftl} {k : ℕ} (hL : 0 ≤ c.logZoneNumConfig)
    (hL' : c.logZoneNumConfig < 2147483648) (hwm : c.gcWatermark < 4294967296)
    (hstart : m.logZoneStart = 0) :
    c.gcWatermark < freeZoneNumber c m (toI32 k) ↔ Fits c (m.logZoneEnd + k) := by
  have hused : toU32 ((m.logZoneEnd : ℤ) - m.logZoneStart + toI32 k)
      = (m.logZoneEnd + k) % 4294967296 := by
    rw [toU32_toI32_add, hstart]
    unfold toU32
    omega
  have hle : (m.logZoneEnd + k) % 4294967296 / c.nBlocksPerZone < 4294967296 :=
    Nat.lt_of_le_of_lt (Nat.div_le_self _ _) (Nat.mod_lt _ (by decide))
  rw [freeZoneNumber, hused, Fits]
  generalize (m.logZoneEnd + k) % 4294967296 / c.nBlocksPerZone = used at hle
  unfold toU32
  omega

variable [Zero B]

/-- A pass neither divides by zero nor copies a block beside its buffer. -/
def PassDefined (c : Config) (m : Ftl) : Prop :=
  ∀ key ∈ m.logZoneMapping.keys,
    c.zoneBytes ≠ 0 ∧ 0 ≤ c.blockOffset key ∧ c.blockOffset key < c.nBlocksPerZone

instance (c : Config) (m : Ftl) : Decidable (PassDefined c m) :=
  inferInstanceAs (Decidable (∀ key ∈ m.logZoneMapping.keys, _))

/-- A request of `k` blocks gets the mutex, and its loop is left at once or after one pass. -/
def LoopEnds (c : Config) (w : World d) (k : ℕ) : Prop :=
  w.ftl.gcMutex = false ∧ 0 < c.nBlocksPerZone * c.lbaSizeBytes ∧
    (c.gcWatermark < freeZoneNumber c w.ftl (toI32 k) ∨ PassDefined c w.ftl ∧
      ∀ ord : HashOrder, ((watermarkLoop c k [ord] : Prog B Bool).run exec (locked w)).1 = true)

section Loop

variable {k : ℕ} (hL : 0 ≤ c.logZoneNumConfig) (hL' : c.logZoneNumConfig < 2147483648)
  (hwm : c.gcWatermark < 4294967296)
include hL hL' hwm

/-- A request that fits neither now nor in an empty log is never let through. -/
lemma watermarkLoop_never (hk : ¬ Fits c k) : ∀ (passes : List HashOrder) (w : World d),
    w.ftl.logZoneStart = 0 → ¬ Fits c (w.ftl.logZoneEnd + k) →
    ((watermarkLoop c k passes : Prog B Bool).run exec w).1 = false
  | [], w, hstart, hnow => by
      have htest := mt (lt_freeZoneNumber_iff hL hL' hwm hstart).mp hnow
      rw [watermarkLoop_nil (Nat.not_lt.mp htest)]
  | ord :: passes, w, hstart, hnow => by
      have htest := mt (lt_freeZoneNumber_iff hL hL' hwm hstart).mp hnow
      obtain ⟨hstart', hend, -⟩ := triggerGc_clears (c := c) (w := asked w) hstart ord
      rw [watermarkLoop_pass (Nat.not_lt.mp htest)]
      refine watermarkLoop_never hk passes _ hstart' ?_
      rw [hend, Nat.zero_add]
      exact hk

/-- **The loop of one request.** -/
lemma loopEnds_iff_fits (hstart : w.ftl.logZoneStart = 0) :
    LoopEnds c w k ↔ w.ftl.gcMutex = false ∧ 0 < c.nBlocksPerZone * c.lbaSizeBytes ∧
      (Fits c (w.ftl.logZoneEnd + k) ∨ Fits c k ∧ PassDefined c w.ftl) := by
  have hnow := lt_freeZoneNumber_iff (m := w.ftl) (k := k) hL hL' hwm hstart
  refine and_congr_right fun _ => and_congr_right fun _ => ?_
  rw [hnow]
  by_cases htest : Fits c (w.ftl.logZoneEnd + k)
  · exact iff_of_true (Or.inl htest) (Or.inl htest)
  rw [or_iff_right htest, or_iff_right htest, and_comm]
  refine and_congr_left fun _ => ⟨fun h => ?_, fun hk ord => ?_⟩
  · by_contra hk
    have hleft := h HashOrder.stored
    rw [watermarkLoop_never hL hL' hwm hk [_] (locked w) hstart htest] at hleft
    cases hleft
  · obtain ⟨hstart', hend, -⟩ := triggerGc_clears (c := c) (w := asked (locked w)) hstart ord
    rw [← Nat.zero_add k, ← hend] at hk
    rw [watermarkLoop_pass (w := locked w) (Nat.not_lt.mp (mt hnow.mp htest)),
      watermarkLoop_left ((lt_freeZoneNumber_iff hL hL' hwm hstart').mpr hk)]

end Loop

/-- **When the watermark loop ends.**  In every reachable state and for every request whose size is
a multiple of the block size: the call gets through the loop, after at most one pass, exactly when
the mutex is free, a zone has bytes, and the request fits the log from the cursor on, or an empty
log if the pass that empties it is defined.  If the mutex is held or the request fits neither, no
number of passes is enough, and the call does not return. -/
theorem loopEnds_iff {d : Drive B} {p : InitParams} (hL : 0 ≤ p.logZones)
    (hL' : p.logZones < 2147483648) {c : Config} {w : World d} (h : Reachable d p c w) {size : ℕ}
    (halign : size % c.lbaSizeBytes = 0) :
    let k := size / c.lbaSizeBytes
    (LoopEnds c w k ↔ w.ftl.gcMutex = false ∧ 0 < c.nBlocksPerZone * c.lbaSizeBytes ∧
        (Fits c (w.ftl.logZoneEnd + k) ∨ Fits c k ∧ PassDefined c w.ftl)) ∧
      (w.ftl.gcMutex = true ∨ ¬ Fits c (w.ftl.logZoneEnd + k) ∧ ¬ Fits c k →
        ∀ (passes : List HashOrder) (address : ℕ) (buf : Buffer B),
          ((znsUdeviceWrite c passes address size buf).run exec w).1 = none) := by
  intro k
  obtain rfl := h.config_eq
  have hstart := h.logZoneStart_eq
  have hwm : (configOf d p).gcWatermark < 4294967296 := toU32_lt _
  refine ⟨loopEnds_iff_fits hL hL' hwm hstart, fun hno passes address buf => ?_⟩
  cases hm : w.ftl.gcMutex with
  | true => rw [znsUdeviceWrite_blocked halign hm]
  | false =>
      rw [hm] at hno
      obtain ⟨hnow, hk⟩ := hno.resolve_left Bool.false_ne_true
      have hnever := watermarkLoop_never hL hL' hwm hk passes (locked w) hstart hnow
      rw [znsUdeviceWrite_locked halign hm, hnever]
      rfl

/-- On the small drive two blocks fit the log after opening and three do not.  After two writes one
block has to wait for a pass. -/
theorem loopEnds_iff_small :
    let write (b : UInt8) (w : World smallDrive.drive) :=
      ((znsUdeviceWrite smallDrive.config [] (4 * 4096) 4096 fun _ => b).run exec w).2
    let w := write 9 (write 7 (fresh smallDrive))
    LoopEnds smallDrive.config (fresh smallDrive) 2 ∧
      ¬ LoopEnds smallDrive.config (fresh smallDrive) 3 ∧
      ¬ Fits smallDrive.config (w.ftl.logZoneEnd + 1) ∧ LoopEnds smallDrive.config w 1 := by
  intro write w
  have h₀ : Reachable smallDrive.drive (smallDrive.params true) smallDrive.config
      (fresh smallDrive) := .init _ (run_init_fresh (Media.empty _))
  have hw : Reachable smallDrive.drive (smallDrive.params true) smallDrive.config w :=
    (h₀.write [] (4 * 4096) 4096 fun _ => 7).write [] (4 * 4096) 4096 fun _ => 9
  have htwo := loopEnds_iff (by decide) (by decide) h₀ (show 2 * 4096 % _ = 0 by decide)
  have hthree := loopEnds_iff (by decide) (by decide) h₀ (show 3 * 4096 % _ = 0 by decide)
  have hone := loopEnds_iff (by decide) (by decide) hw (show 1 * 4096 % _ = 0 by decide)
  exact ⟨htwo.1.mpr (by decide), fun hends => absurd (hthree.1.mp hends) (by decide),
    by decide +kernel, hone.1.mpr (by decide +kernel)⟩

/-- Three blocks are a whole zone, and the watermark leaves only one of the two log zones to write
to: the first write to an empty log asks for passes for ever. -/
theorem three_blocks_wait_forever :
    smallDrive.gcWmark < smallDrive.logZones ∧
      Reachable smallDrive.drive (smallDrive.params true) smallDrive.config (fresh smallDrive) ∧
      ∀ passes : List HashOrder,
        ((znsUdeviceWrite smallDrive.config passes 0 (3 * 4096) fun _ => 7).run exec
          (fresh smallDrive)).1 = none := by
  refine ⟨by decide, .init _ (run_init_fresh (Media.empty _)), fun passes => ?_⟩
  have hnever := watermarkLoop_never (B := UInt8) (c := smallDrive.config) (k := 3) (by decide)
    (by decide) (by decide) (by decide) passes (locked (fresh smallDrive)) rfl (by decide)
  have hrun := run_write (w := fresh smallDrive) (a := 0) (k := 3) passes rfl fun _ => 7
  dsimp only at hrun
  rw [hnever] at hrun
  exact congrArg Prod.fst hrun

end StoSys
