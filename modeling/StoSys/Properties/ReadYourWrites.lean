import StoSys.Ftl.Session
import Mathlib.Data.UInt

/-!
# Read your writes

In a session of one-block writes every write that returns succeeds, and a one-block read returns the
data of the last write, across any number of garbage collections and whatever the iteration orders
of the hash maps.
-/

namespace StoSys

open Effect HashMap Zoned CInt

variable {B : Type} [Zero B]

/-- **Read your writes, across garbage collection.** -/
theorem session_read (g : Setup B) (hds : g.ds < 18) {c : Config} {w : World g.drive} {s : Store B}
    (h : Session g (fun _ _ _ => True) c w s) :
    (∀ {q b}, s q = some b → ∀ buf : Buffer B,
      (znsUdeviceRead c (q * g.lba) g.lba buf).run exec w = ((0, buf.store 0 [b]), w)) ∧
    ∀ {q r w'} (passes : List HashOrder) (buf : Buffer B), q < g.capacity →
      (znsUdeviceWrite c passes (q * g.lba) g.lba buf).run exec w = (some r, w') → r = 0 := by
  obtain ⟨hsync, hholds⟩ := h.synced hds
  rw [h.config_eq]
  refine ⟨fun hb buf => ?_, fun passes buf hq hw => ?_⟩
  · obtain ⟨hq, hold⟩ := hholds hb
    exact hold.run_read (by omega) hsync.inv.log hsync.inv.zones hq buf
  · have hwrite := hsync.write passes hds hq buf
    rw [hw] at hwrite
    rcases hwrite with hnone | ⟨hsome, -⟩
    · cases hnone
    · exact Option.some.inj hsome

instance nontrivialUInt8 : Nontrivial UInt8 :=
  ⟨0, 1, by decide⟩

/-- A drive with three blocks of 4096 bytes to a zone, two log zones and three data zones; a block
is known by the byte that fills it. -/
def smallDrive : Setup UInt8 where
  ds := 12
  nBlocks := 3
  nrZones := 5
  logZones := 2
  gcWmark := 1
  readAcross := false
  fill := 0
  ds_ge := by decide
  nBlocks_pos := by decide
  zoneBytes_lt := by decide
  total_lt := by decide
  wmark_pos := by decide
  wmark_lt := by decide
  logZones_lt := by decide

/-- One block is filled with `b` on the small drive. -/
abbrev smallWrite (passes : List HashOrder) (q : ℕ) (b : UInt8) (w : World smallDrive.drive) :
    Option ℤ × World smallDrive.drive :=
  (znsUdeviceWrite smallDrive.config passes (q * 4096) 4096 fun _ => b).run exec w

/-- Two blocks of two zones are in the log, and there is no room for a third. -/
def smallLog : World smallDrive.drive := (smallWrite [] 0 8 (smallWrite [] 4 7 (fresh smallDrive)).2).2

/-- What was written there. -/
def smallStore : Store UInt8 := Function.update (Function.update (fun _ => none) 4 (some 7)) 0 (some 8)

lemma session_smallLog :
    Session smallDrive (fun _ _ _ => True) smallDrive.config smallLog smallStore := by
  have h₀ := session_fresh smallDrive fun _ _ _ => True
  have h₁ := h₀.write (q := 4) [] (fun _ => 7) (by decide) (fun _ _ _ => trivial)
    (show smallWrite [] 4 7 (fresh smallDrive) = (some 0, _) from Prod.ext (by decide +kernel) rfl)
  exact h₁.write (q := 0) [] (fun _ => 8) (by decide) (fun _ _ _ => trivial)
    (show smallWrite [] 0 8 _ = (some 0, smallLog) from Prod.ext (by decide +kernel) rfl)

/-- A third write collects the log before it gets there. -/
lemma session_smallWrite {q : ℕ} (hq : q < smallDrive.capacity) {b : UInt8}
    (hret : (smallWrite [.stored] q b smallLog).1 = some 0) :
    Session smallDrive (fun _ _ _ => True) smallDrive.config (smallWrite [.stored] q b smallLog).2
      (Function.update smallStore q (some b)) :=
  session_smallLog.write (q := q) [.stored] (fun _ => b) hq (fun _ _ _ => trivial)
    (show smallWrite [.stored] q b smallLog = (some 0, _) from Prod.ext hret rfl)

/-- Three writes with a collection before the third, which is to block `4` again; block `0` is read
from its data zone then. -/
theorem session_read_twice :
    let w := (smallWrite [.stored] 4 9 smallLog).2
    let read (q : ℕ) := (znsUdeviceRead smallDrive.config (q * 4096) 4096 fun _ => 1).run exec w
    read 4 = ((0, Buffer.store (fun _ => 1) 0 [9]), w) ∧
      read 0 = ((0, Buffer.store (fun _ => 1) 0 [8]), w) := by
  intro w read
  have hw := session_smallWrite (q := 4) (b := 9) (by decide) (by decide +kernel)
  have hread := session_read smallDrive (by decide) hw
  exact ⟨hread.1 rfl _, hread.1 rfl _⟩

end StoSys
