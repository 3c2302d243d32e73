import StoSys.Ftl.Recorded
import StoSys.Properties.ReadYourWrites

/-!
# Copy before erase

While a pass runs, the last data of a block is on the device at every moment: in the log until the
log is reset, and by then in a data zone.  The exception is a zone merged in place.  When no data
zone is free, `zone_merge` resets the zone of `v` first and writes it afterwards, so in between the
blocks of `v` that are not in the log are in the memory buffer only.

That a pass finds the last data of every block is a matter of the writes before it: `Landing`.
-/

namespace StoSys

open Effect HashMap Zoned CInt

variable {B : Type} {g : Setup B} {w : World g.drive}

/-- A pass merges `v` in place: `v` has a data zone, and the sets before it have taken the last free
one. -/
def InPlace (g : Setup B) (ord : HashOrder) (m : Ftl) (v : ℤ) : Prop :=
  ∃ (done : ZoneSets) (set : UMap ℤ) (rest : ZoneSets),
    passSets g ord m = done ++ ⟨v, set⟩ :: rest ∧ v ∈ m.dataZoneMapping ∧
      (freeZones g m).card = newZones m done

lemma Logged.mem {q y : ℕ} {b : B} (h : Logged w q y b) : b ∈ w.media.zone (y / g.nBlocks) := by
  obtain ⟨-, hwritten, hb⟩ := h
  have hlt : y % g.nBlocks < (w.media.zone (y / g.nBlocks)).length := hwritten
  have hblock : ((w.media.zone (y / g.nBlocks))[y % g.nBlocks]?).getD g.fill = b := hb
  rw [List.getElem?_eq_getElem hlt, Option.getD_some] at hblock
  rw [← hblock]
  exact List.getElem_mem hlt

variable [Zero B] {ord : HashOrder}

/-- Three zones of three blocks, one of them a data zone. -/
def tinyDrive : Setup UInt8 where
  ds := 12
  nBlocks := 3
  nrZones := 3
  logZones := 2
  gcWmark := 1
  readAcross := false
  fill := 0
  ds_ge := smallDrive.ds_ge
  nBlocks_pos := smallDrive.nBlocks_pos
  zoneBytes_lt := smallDrive.zoneBytes_lt
  total_lt := by decide
  wmark_pos := smallDrive.wmark_pos
  wmark_lt := smallDrive.wmark_lt
  logZones_lt := by decide

end StoSys
