import StoSys.Properties.CopyBeforeErase

/-!
# Reads during a collection

`zns_udevice_read` takes no lock, so it can run between any two steps of a pass.  What it finds
there depends on the mark that `trigger_gc` puts on a log entry.  The code writes
`entry & (1 << 63)` where a marked entry would be `entry | (1 << 63)`: the entry becomes zero, which
is a valid entry for block `0` of the device.  So from the moment its entry is visited until the log
map is cleared, a logged block reads as block `0`, and after the first reset as an erased block.

A block that is not in the log is read through the data map.  It is found where it was or where it
has been moved, except while its zone is rewritten in place.
-/

namespace StoSys

open Effect HashMap Zoned CInt

variable {B : Type} {g : Setup B} {w t : World g.drive} {ord : HashOrder} {q : ℕ} {b : B}

/-! ## What the maps lead to -/

/-- The data map leads to a block with data `b`. -/
def InData (t : World g.drive) (q : ℕ) (b : B) : Prop :=
  ∃ e : ℕ, t.ftl.dataZoneMapping.lookup ((g.vzone q : ℕ) : ℤ) = some ((e * g.nBlocks : ℕ) : ℤ) ∧
    e < g.nrZones ∧ t.media.blockAt (e * g.nBlocks + q % g.nBlocks) = b

lemma Holds.inData (hz : ZoneInv g w) (h : Holds w q b)
    (hnone : w.ftl.logZoneMapping.lookup ((q * g.lba : ℕ) : ℤ) = none) : InData w q b := by
  rcases h with ⟨y, hy, -⟩ | ⟨-, hb⟩
  · rw [hnone] at hy
    cases hy
  · unfold InData
    cases hv : w.ftl.dataZoneMapping.lookup ((g.vzone q : ℕ) : ℤ) with
    | none => rw [dataAt, hv] at hb; cases hb
    | some zone =>
        obtain ⟨e, rfl, -, he, -⟩ := hz.val hv
        rw [ZoneInv.dataAt_eq hv] at hb
        exact ⟨e, rfl, he, Option.some.inj hb⟩

lemma Kept.inData (h : Kept ((g.vzone q : ℕ) : ℤ) w t) (hw : InData w q b) : InData t q b := by
  obtain ⟨e, hv, he, hb⟩ := hw
  have ho := g.offset_lt q
  refine ⟨e, h.lookup.trans hv, he, ?_⟩
  rw [Setup.blockAt_addr _ ho] at hb ⊢
  rw [h.zone hv, hb]

lemma Moved.inData {buf : Buffer B}
    (h : Moved ((g.vzone q : ℕ) : ℤ) (buf.slice 0 g.nBlocks) t) :
    InData t q (buf (q % g.nBlocks : ℕ)) := by
  have ho := g.offset_lt q
  obtain ⟨e, -, he, hv, hzone⟩ := h
  refine ⟨e, hv, he, ?_⟩
  rw [Setup.blockAt_addr _ ho, hzone]
  simp [Buffer.slice, ho]

/-- A zone that is being rewritten has the blocks written so far. -/
lemma Refilled.inData {buf : Buffer B} {k : ℕ}
    (h : Refilled ((g.vzone q : ℕ) : ℤ) (buf.slice 0 g.nBlocks) k w t) :
    InData t q (if q % g.nBlocks < k then buf (q % g.nBlocks : ℕ) else g.fill) := by
  have ho := g.offset_lt q
  obtain ⟨e, -, he, -, hv, hzone⟩ := h
  refine ⟨e, hv, he, ?_⟩
  rw [Setup.blockAt_addr _ ho, hzone, List.getElem?_take]
  split
  · simp [Buffer.slice, ho]
  · rfl

/-! ## The marks -/

variable [Zero B]

/-- A read of block `q` returns `b`. -/
def Reads (g : Setup B) (t : World g.drive) (q : ℕ) (b : B) : Prop :=
  ∀ buf : Buffer B,
    (znsUdeviceRead g.config (q * g.lba) g.lba buf).run exec t = ((0, buf.store 0 [b]), t)

lemma Reads.unique {b' : B} (h : Reads g t q b) (h' : Reads g t q b') : b = b' := by
  have heq := (h fun _ => 0).symm.trans (h' fun _ => 0)
  have h0 := congrFun (congrArg (fun r => r.1.2) heq) 0
  dsimp only at h0
  rw [Buffer.store_single, Buffer.store_single, if_pos rfl, if_pos rfl] at h0
  exact h0

section Reads

variable (hds : g.ds ≤ 18) (hq : q < g.capacity)
include hds hq

lemma reads_entry {y : ℕ} (hy : y < g.nrZones * g.nBlocks)
    (h : t.ftl.logZoneMapping.lookup ((q * g.lba : ℕ) : ℤ) = some (y : ℤ)) :
    Reads g t q (t.media.blockAt y) := by
  have htotal := g.total_lt
  exact fun buf => run_read_some hds hq buf (translate_log hq (by omega) h) hy

lemma InData.reads (h : InData t q b)
    (hnone : t.ftl.logZoneMapping.lookup ((q * g.lba : ℕ) : ℤ) = none) : Reads g t q b := by
  obtain ⟨e, hv, he, rfl⟩ := h
  have htotal := g.total_lt
  have hlt := Nat.mul_le_mul_right g.nBlocks (Nat.succ_le_of_lt he)
  rw [Nat.succ_mul] at hlt
  have ho := g.offset_lt q
  refine fun buf => run_read_some hds hq buf ?_ (by omega)
  rw [translate_data hq hnone, hv, Option.map_some, ← Nat.cast_add, toU64_of_lt (by omega)]

end Reads

/-! ## The moments of a pass -/

section Pass

variable (hI : Inv g w) (hds : g.ds ≤ 18) (hq : q < g.capacity) (hh : Holds w q b)
include hI hds hq hh

end Pass

end StoSys
