import Mathlib.Algebra.Group.Nat.Defs
import Mathlib.Data.List.Basic
import Mathlib.Logic.Function.Basic
import Mathlib.Tactic.Common

/-!
# Zoned block devices

A zoned namespace is an array of zones; inside a zone blocks are written strictly in order.  All
there is to know about a zone is therefore the list of blocks written since its last reset: its
length is the write pointer.  `Media` is one such list for every zone, together with the proof that
no zone is filled beyond its capacity.

The commands are `read`, `write` (at the write pointer only), `append` (wherever the write pointer
is; the address comes back) and `reset`.  A command the drive refuses is `none` and changes nothing.
A block that was never written, or whose zone was reset since, reads as `fill`.
-/

namespace Zoned

/-- The fixed properties of a zoned namespace with blocks of type `B`. -/
structure Drive (B : Type) where
  /-- log₂ of the LBA data size -/
  ds : ℕ
  nrZones : ℕ
  /-- distance between two zone starts, in blocks -/
  zoneSize : ℕ
  /-- blocks of a zone that can be written -/
  zoneCap : ℕ
  /-- whether one read may span two zones -/
  readAcross : Bool
  /-- what an unwritten block reads as -/
  fill : B
  cap_pos : 0 < zoneCap
  cap_le : zoneCap ≤ zoneSize

variable {B : Type}

/-- Bytes in a logical block. -/
def Drive.lbaSize (d : Drive B) : ℕ := 2 ^ d.ds

lemma Drive.lbaSize_pos (d : Drive B) : 0 < d.lbaSize := Nat.two_pow_pos _

lemma Drive.zoneSize_pos (d : Drive B) : 0 < d.zoneSize := Nat.lt_of_lt_of_le d.cap_pos d.cap_le

/-- The written part of every zone. -/
@[ext]
structure Media (d : Drive B) where
  zone : ℕ → List B
  len_le : ∀ i, (zone i).length ≤ d.zoneCap

variable {d : Drive B}

namespace Media

/-- Replace the contents of one zone. -/
def setZone (m : Media d) (i : ℕ) (bs : List B) (h : bs.length ≤ d.zoneCap) : Media d where
  zone := Function.update m.zone i bs
  len_le j := by
    by_cases hj : j = i
    · subst hj; simpa using h
    · simpa [Function.update_of_ne hj] using m.len_le j

/-- Every zone empty. -/
def empty (d : Drive B) : Media d where
  zone _ := []
  len_le _ := Nat.zero_le _

/-- The contents of one block. -/
def blockAt (m : Media d) (lba : ℕ) : B :=
  ((m.zone (lba / d.zoneSize))[lba % d.zoneSize]?).getD d.fill

/-- A block is *written* when it lies below its zone's write pointer. -/
def Written (m : Media d) (lba : ℕ) : Prop :=
  lba % d.zoneSize < (m.zone (lba / d.zoneSize)).length

instance (m : Media d) (lba : ℕ) : Decidable (m.Written lba) :=
  inferInstanceAs (Decidable (_ < _))

/-- The contents of `cnt` blocks from `slba` on. -/
def blocks (m : Media d) (slba cnt : ℕ) : List B :=
  (List.range cnt).map fun i => m.blockAt (slba + i)

/-- Zone state as in a zone report: empty (1), full (14) or implicitly opened (2). -/
def zoneState (m : Media d) (i : ℕ) : ℕ :=
  if (m.zone i).length = 0 then 1 else if (m.zone i).length = d.zoneCap then 14 else 2

/-! ## Commands -/

/-- Read `cnt` blocks from `slba` on. -/
def read (m : Media d) (slba cnt : ℕ) : Option (List B) :=
  if slba + cnt ≤ d.nrZones * d.zoneSize ∧
      (d.readAcross = true ∨ slba / d.zoneSize = (slba + cnt - 1) / d.zoneSize) then
    some (m.blocks slba cnt)
  else none

/-- Write `bs` at `slba`, which must be the write pointer of its zone. -/
def write (m : Media d) (slba : ℕ) (bs : List B) : Option (Media d) :=
  if h : slba / d.zoneSize < d.nrZones ∧
      slba % d.zoneSize = (m.zone (slba / d.zoneSize)).length ∧
      (m.zone (slba / d.zoneSize)).length + bs.length ≤ d.zoneCap then
    some (m.setZone (slba / d.zoneSize) (m.zone (slba / d.zoneSize) ++ bs)
      (by rw [List.length_append]; exact h.2.2))
  else none

/-- Append `bs` to the zone that starts at `zslba`; the address it landed on comes back. -/
def append (m : Media d) (zslba : ℕ) (bs : List B) : Option (ℕ × Media d) :=
  if h : zslba / d.zoneSize < d.nrZones ∧ zslba % d.zoneSize = 0 ∧
      (m.zone (zslba / d.zoneSize)).length + bs.length ≤ d.zoneCap then
    some (zslba + (m.zone (zslba / d.zoneSize)).length,
      m.setZone (zslba / d.zoneSize) (m.zone (zslba / d.zoneSize) ++ bs)
        (by rw [List.length_append]; exact h.2.2))
  else none

/-- Reset the zone that starts at `slba`. -/
def reset (m : Media d) (slba : ℕ) : Option (Media d) :=
  if slba / d.zoneSize < d.nrZones ∧ slba % d.zoneSize = 0 then
    some (m.setZone (slba / d.zoneSize) [] (Nat.zero_le _))
  else none

/-! ## What the commands do to a zone -/

@[simp] lemma setZone_zone_self (m : Media d) (i : ℕ) (bs : List B) (h) :
    (m.setZone i bs h).zone i = bs := by simp [setZone]

lemma setZone_zone_ne (m : Media d) {i j : ℕ} (bs : List B) (h) (hij : j ≠ i) :
    (m.setZone i bs h).zone j = m.zone j := by simp [setZone, Function.update_of_ne hij]

lemma setZone_zone (m : Media d) (i j : ℕ) (bs : List B) (h) :
    (m.setZone i bs h).zone j = if j = i then bs else m.zone j := by
  split_ifs with hj
  · subst hj; exact setZone_zone_self m j bs h
  · exact setZone_zone_ne m bs h hj

@[simp] lemma empty_zone (i : ℕ) : (empty d).zone i = [] := rfl

/-- Address arithmetic inside zone `i`. -/
lemma addr_div {i o : ℕ} (ho : o < d.zoneSize) : (i * d.zoneSize + o) / d.zoneSize = i := by
  rw [Nat.add_comm, Nat.add_mul_div_right _ _ d.zoneSize_pos, Nat.div_eq_of_lt ho, Nat.zero_add]

lemma addr_mod {i o : ℕ} (ho : o < d.zoneSize) : (i * d.zoneSize + o) % d.zoneSize = o := by
  rw [Nat.add_comm, Nat.add_mul_mod_self_right, Nat.mod_eq_of_lt ho]

lemma start_div (i : ℕ) : i * d.zoneSize / d.zoneSize = i :=
  Nat.mul_div_cancel _ d.zoneSize_pos

lemma addr_lt {i o : ℕ} (hi : i < d.nrZones) (ho : o ≤ d.zoneSize) :
    i * d.zoneSize + o ≤ d.nrZones * d.zoneSize := by
  have h := Nat.mul_le_mul_right d.zoneSize (Nat.succ_le_of_lt hi)
  rw [Nat.succ_mul] at h
  omega

lemma blockAt_addr (m : Media d) {i o : ℕ} (ho : o < d.zoneSize) :
    m.blockAt (i * d.zoneSize + o) = ((m.zone i)[o]?).getD d.fill := by
  rw [blockAt, addr_div ho, addr_mod ho]

lemma written_addr (m : Media d) {i o : ℕ} (ho : o < d.zoneSize) :
    m.Written (i * d.zoneSize + o) ↔ o < (m.zone i).length := by
  rw [Written, addr_div ho, addr_mod ho]

/-- A zone that is not touched keeps its blocks. -/
lemma blockAt_congr {m m' : Media d} {lba : ℕ}
    (h : m'.zone (lba / d.zoneSize) = m.zone (lba / d.zoneSize)) :
    m'.blockAt lba = m.blockAt lba := by
  rw [blockAt, blockAt, h]

@[simp] lemma length_blocks (m : Media d) (slba cnt : ℕ) : (m.blocks slba cnt).length = cnt := by
  simp [blocks]

lemma zoneState_eq_one_iff (m : Media d) (i : ℕ) : m.zoneState i = 1 ↔ m.zone i = [] := by
  rw [zoneState, ← List.length_eq_zero_iff]
  split_ifs with hempty hfull
  · exact iff_of_true rfl hempty
  · exact iff_of_false (by decide) hempty
  · exact iff_of_false (by decide) hempty

lemma zoneState_of_full {m : Media d} {i : ℕ} (h : (m.zone i).length = d.zoneCap) :
    m.zoneState i = 14 := by
  have hpos := d.cap_pos
  rw [zoneState, if_neg (by omega), if_pos h]

lemma blocks_add (m : Media d) (slba k r : ℕ) :
    m.blocks slba (k + r) = m.blocks slba k ++ m.blocks (slba + k) r := by
  simp [blocks, List.range_add, Function.comp_def, Nat.add_assoc]

lemma getElem?_blocks (m : Media d) (slba cnt i : ℕ) :
    (m.blocks slba cnt)[i]? = if i < cnt then some (m.blockAt (slba + i)) else none := by
  by_cases hi : i < cnt <;> simp [blocks, hi]

/-- A read inside one zone succeeds. -/
lemma read_addr (m : Media d) {i o cnt : ℕ} (hi : i < d.nrZones) (hc : 0 < cnt)
    (ho : o + cnt ≤ d.zoneSize) :
    m.read (i * d.zoneSize + o) cnt = some (m.blocks (i * d.zoneSize + o) cnt) := by
  have hle := addr_lt (d := d) hi ho
  have hzone : (i * d.zoneSize + o) / d.zoneSize = (i * d.zoneSize + o + cnt - 1) / d.zoneSize := by
    have : i * d.zoneSize + o + cnt - 1 = i * d.zoneSize + (o + cnt - 1) := by omega
    rw [this, addr_div (by omega), addr_div (by omega)]
  rw [read, if_pos ⟨by omega, Or.inr hzone⟩]

/-- A write at the write pointer succeeds while the zone has room. -/
lemma write_addr (m : Media d) {i : ℕ} {bs : List B} (hi : i < d.nrZones) (hbs : bs ≠ [])
    (hroom : (m.zone i).length + bs.length ≤ d.zoneCap) :
    m.write (i * d.zoneSize + (m.zone i).length) bs
      = some (m.setZone i (m.zone i ++ bs) (by simpa using hroom)) := by
  have hpos := List.length_pos_of_ne_nil hbs
  have ho : (m.zone i).length < d.zoneSize := Nat.lt_of_lt_of_le (by omega) d.cap_le
  have hdiv := addr_div (d := d) (i := i) ho
  have hmod := addr_mod (d := d) (i := i) ho
  unfold write
  simp only [hdiv, hmod]
  rw [dif_pos ⟨hi, trivial, hroom⟩]

/-- An append returns the address of the write pointer. -/
lemma append_start (m : Media d) {i : ℕ} {bs : List B} (hi : i < d.nrZones)
    (hroom : (m.zone i).length + bs.length ≤ d.zoneCap) :
    m.append (i * d.zoneSize) bs
      = some (i * d.zoneSize + (m.zone i).length,
          m.setZone i (m.zone i ++ bs) (by simpa using hroom)) := by
  unfold append
  simp only [start_div, Nat.mul_mod_left]
  rw [dif_pos ⟨hi, trivial, hroom⟩]

/-- An append that does not fit is refused. -/
lemma append_start_full (m : Media d) {i : ℕ} (bs : List B)
    (hroom : d.zoneCap < (m.zone i).length + bs.length) :
    m.append (i * d.zoneSize) bs = none := by
  unfold append
  simp only [start_div, Nat.mul_mod_left]
  rw [dif_neg]
  rintro ⟨-, -, h⟩
  omega

lemma reset_start (m : Media d) {i : ℕ} (hi : i < d.nrZones) :
    m.reset (i * d.zoneSize) = some (m.setZone i [] (Nat.zero_le _)) := by
  unfold reset
  simp only [start_div, Nat.mul_mod_left]
  rw [if_pos ⟨hi, trivial⟩]

/-- A write touches no zone but the one it is addressed to, and starts at its write pointer. -/
lemma write_eq_some {m m' : Media d} {slba : ℕ} {bs : List B} (h : m.write slba bs = some m') :
    slba / d.zoneSize < d.nrZones ∧
      slba % d.zoneSize = (m.zone (slba / d.zoneSize)).length ∧
      m'.zone = Function.update m.zone (slba / d.zoneSize)
        (m.zone (slba / d.zoneSize) ++ bs) := by
  unfold write at h
  split at h
  · rename_i hc
    cases h
    exact ⟨hc.1, hc.2.1, rfl⟩
  · cases h

lemma append_eq_some {m m' : Media d} {zslba lba : ℕ} {bs : List B}
    (h : m.append zslba bs = some (lba, m')) :
    zslba / d.zoneSize < d.nrZones ∧ zslba % d.zoneSize = 0 ∧
      (m.zone (zslba / d.zoneSize)).length + bs.length ≤ d.zoneCap ∧
      lba = zslba + (m.zone (zslba / d.zoneSize)).length ∧
      m'.zone = Function.update m.zone (zslba / d.zoneSize)
        (m.zone (zslba / d.zoneSize) ++ bs) := by
  unfold append at h
  split at h
  · rename_i hc
    cases h
    exact ⟨hc.1, hc.2.1, hc.2.2, rfl, rfl⟩
  · cases h

lemma reset_eq_some {m m' : Media d} {slba : ℕ} (h : m.reset slba = some m') :
    m'.zone = Function.update m.zone (slba / d.zoneSize) [] := by
  unfold reset at h
  split at h
  · cases h; rfl
  · cases h

end Media

end Zoned
