import StoSys.Ftl.FaultyMerge
import StoSys.Ftl.Writing

/-!
# Appending when commands fail

A write of `MDTS` and more goes out as several commands, and the drive may refuse any of them.  The
call ends at the first refusal; what the commands before it have written stays on the drive, and the
memory does not know.

`command` is the `j`-th command of such a write, `Stops` says that it is refused: by the fault
pattern, or by the drive because it crosses the end of the zone.  As long as the first zone is not
full the run is determined by the first command that stops (`run_faulty_ioLoop_stop`); if none does,
the write succeeds or the zone gets full (`run_faulty_ioLoop_full`).
-/

namespace StoSys

open Effect HashMap Zoned CInt

variable {B : Type} {g : Setup B} {fails : ℕ → Op B → Bool}

/-! ## Zones only grow -/

/-- The memory is the same, and every zone begins with what it had. -/
structure Extends (w s : World g.drive) : Prop where
  ftl : s.ftl = w.ftl
  grows : ∀ i, w.media.zone i <+: s.media.zone i

lemma Extends.refl (w : World g.drive) : Extends w w := ⟨rfl, fun _ => List.prefix_rfl⟩

lemma Grew.extends {w s : World g.drive} {lo hi : ℕ} (h : Grew w lo hi s) : Extends w s :=
  ⟨h.ftl, h.grows⟩

lemma Extends.trans {w s t : World g.drive} (h : Extends w s) (h' : Extends s t) : Extends w t :=
  ⟨h'.ftl.trans h.ftl, fun i => (h.grows i).trans (h'.grows i)⟩

/-- A full zone stays as it is. -/
lemma Extends.full {w s : World g.drive} (h : Extends w s) {i : ℕ}
    (hi : (w.media.zone i).length = g.nBlocks) : (s.media.zone i).length = g.nBlocks := by
  have hle : (s.media.zone i).length ≤ g.nBlocks := s.media.len_le i
  have := (h.grows i).length_le
  omega

/-- A block that has been written keeps its data. -/
lemma Extends.blockAt {w s : World g.drive} (h : Extends w s) {x : ℕ} (hx : w.media.Written x) :
    s.media.Written x ∧ s.media.blockAt x = w.media.blockAt x := by
  obtain ⟨bs, hbs⟩ := h.grows (x / g.drive.zoneSize)
  refine ⟨Nat.lt_of_lt_of_le hx (h.grows _).length_le, ?_⟩
  rw [Media.blockAt, Media.blockAt, ← hbs, List.getElem?_append_left hx]

/-- One write command under a fault pattern. -/
lemma run_faulty_nvmeWrite (fails : ℕ → Op B → Bool) (slba : ℕ) (nlb len off : ℤ) (bs : List B)
    (s : World g.drive × ℕ) :
    (nvmeWrite slba nlb len off bs : Prog B ℤ).run (faulty fails) s
      = if fails s.2 (.nvmeWrite slba (toU16 nlb) (toU32 len) off bs) = true then
          (commandError, s.1, s.2 + 1)
        else
          (((nvmeWrite slba nlb len off bs : Prog B ℤ).run exec s.1).1,
            ((nvmeWrite slba nlb len off bs : Prog B ℤ).run exec s.1).2, s.2 + 1) := by
  split
  · exact faulty_refused (o := .nvmeWrite slba _ _ off bs) rfl ‹_›
  · exact faulty_done (o := .nvmeWrite slba _ _ off bs) rfl ‹_›

/-- A transfer whose first command is refused anyway. -/
lemma run_faulty_ioWithMdts_of_refused (fails : ℕ → Op B → Bool) {size slba : ℕ} (hsize : 0 < size)
    {s : World g.drive × ℕ} (hcmd : ∀ (nlb off : ℤ) (bs : List B), ∀ len ≤ mdts,
      (nvmeWrite slba nlb (len : ℕ) off bs : Prog B ℤ).run exec s.1 = (commandError, s.1))
    (base : ℤ) (buf : Buffer B) :
    let r := (ioWithMdts g.config slba base size false buf).run (faulty fails) s
    r.1.1 ≠ 0 ∧ r.2.1 = s.1 := by
  have herr : (commandError : ℤ) ≠ 0 := by decide
  have hlen : (if mdts < size then mdts else size) ≤ mdts := by
    split_ifs <;> omega
  have hrefused : ∀ nlb off bs, (nvmeWrite slba nlb (if mdts < size then mdts else size : ℕ) off bs
      : Prog B ℤ).run (faulty fails) s = (commandError, s.1, s.2 + 1) := by
    intro nlb off bs
    rw [run_faulty_nvmeWrite, hcmd nlb off bs _ hlen, ite_self]
  rw [ioWithMdts, ioLoop, if_pos hsize]
  simp only [Bool.false_eq_true, if_false, Program.run_bind, hrefused, if_pos herr, Program.run_pure]
  exact ⟨herr, trivial⟩

/-- A transfer is refused when the medium accepts nothing at its address. -/
lemma run_faulty_ioWithMdts_refused (fails : ℕ → Op B → Bool) {size slba : ℕ} (hsize : 0 < size)
    {s : World g.drive × ℕ} (hnone : ∀ bs, s.1.media.write slba bs = none) (base : ℤ)
    (buf : Buffer B) :
    let r := (ioWithMdts g.config slba base size false buf).run (faulty fails) s
    r.1.1 ≠ 0 ∧ r.2.1 = s.1 :=
  run_faulty_ioWithMdts_of_refused fails hsize
    (fun _ _ bs _ _ => run_nvmeWrite_refused (hnone bs) _ _ _) base buf

/-! ## The commands of a write -/

/-- How many blocks the `j`-th command for a write of `k` blocks has. -/
def commandBlocks (g : Setup B) (k j : ℕ) : ℕ := min g.per (k - j * g.per)

/-- The `j`-th command for a write of `k` blocks from the start of zone `z` on. -/
def command (g : Setup B) (z k : ℕ) (buf : Buffer B) (j : ℕ) : Op B :=
  .nvmeWrite (z * g.nBlocks + j * g.per) (commandBlocks g k j - 1) (commandBlocks g k j * g.lba)
    ((j * g.per : ℕ) * g.lba) (buf.slice (j * g.per : ℕ) (commandBlocks g k j))

/-- The `j`-th command is refused: by the pattern, that counts from `c` on, or because it crosses
the end of the zone. -/
def Stops (g : Setup B) (fails : ℕ → Op B → Bool) (c z k : ℕ) (buf : Buffer B) (j : ℕ) : Prop :=
  fails (c + j) (command g z k buf j) = true ∨ g.nBlocks < j * g.per + commandBlocks g k j

instance (fails : ℕ → Op B → Bool) (c z k : ℕ) (buf : Buffer B) (j : ℕ) :
    Decidable (Stops g fails c z k buf j) :=
  inferInstanceAs (Decidable (_ ∨ _))

section Commands

variable {w : World g.drive} {z k : ℕ} {buf : Buffer B}

/-- `j` commands have been done. -/
lemma Grown.length {j : ℕ} {s : World g.drive} (hempty : w.media.zone z = [])
    (h : Grown w z buf 0 j s) : (s.media.zone z).length = j := by
  rw [h.2, Function.update_self, hempty, List.nil_append, Buffer.length_slice]

lemma Grown.append {p m : ℕ} {s : World g.drive} (hempty : w.media.zone z = [])
    (h : Grown w z buf 0 p s) (hroom : ((s.media.zone z) ++ buf.slice p m).length ≤ g.drive.zoneCap) :
    Grown w z buf 0 (p + m) ⟨s.ftl, s.media.setZone z (s.media.zone z ++ buf.slice p m) hroom⟩ := by
  have hslice : buf.slice 0 (p + m) = buf.slice 0 p ++ buf.slice p m := by
    rw [Buffer.slice_add, Int.zero_add]
  refine ⟨h.1, ?_⟩
  change Function.update s.media.zone z (s.media.zone z ++ buf.slice p m) = _
  rw [h.2, Function.update_idem, Function.update_self, hempty, hslice]
  rfl

variable (fails buf) in
/-- **One command.**  It stops, and nothing changes; or it is done, and the zone has grown by its
blocks. -/
lemma run_faulty_command (hds : g.ds ≤ 18) (hz : z < g.nrZones) (hempty : w.media.zone z = [])
    {c j : ℕ} (hj : j * g.per < k) (hjn : j * g.per < g.nBlocks) {s : World g.drive × ℕ}
    (hs : Grown w z buf 0 (j * g.per) s.1) (hcount : s.2 = c + j) :
    let m := commandBlocks g k j
    let r := (nvmeWrite (z * g.nBlocks + j * g.per) ((m - 1 : ℕ) : ℤ) ((m * g.lba : ℕ) : ℤ)
      ((j * g.per : ℕ) * g.lba) (buf.slice (j * g.per : ℕ) m) : Prog B ℤ).run (faulty fails) s
    (Stops g fails c z k buf j → r = (commandError, s.1, c + j + 1)) ∧
      (¬ Stops g fails c z k buf j → r.1 = 0 ∧ r.2.2 = c + (j + 1) ∧
        Grown w z buf 0 (j * g.per + m) r.2.1) := by
  intro m r
  obtain ⟨hm0, -, hm16, hm32⟩ := command_bounds hds (show m = _ from rfl)
    (show 0 < k - j * g.per by omega)
  have hlen := hs.length hempty
  have hargs : Op.nvmeWrite (z * g.nBlocks + j * g.per) (toU16 ((m - 1 : ℕ) : ℤ))
      (toU32 ((m * g.lba : ℕ) : ℤ)) ((j * g.per : ℕ) * g.lba) (buf.slice (j * g.per : ℕ) m)
      = command g z k buf j := by
    rw [toU16_of_lt (by omega), toU32_of_lt hm32]
    rfl
  have hr : r = _ := run_faulty_nvmeWrite fails _ _ _ _ _ s
  rw [hargs, hcount] at hr
  by_cases hf : fails (c + j) (command g z k buf j) = true
  · rw [if_pos hf] at hr
    exact ⟨fun _ => hr, fun hno => absurd (Or.inl hf) hno⟩
  · rw [if_neg hf] at hr
    refine ⟨fun hstop => ?_, fun hno => ?_⟩
    · have hcross := hstop.resolve_left hf
      have hnone : s.1.media.write (z * g.nBlocks + j * g.per) (buf.slice (j * g.per : ℕ) m)
          = none := by
        rw [Media.write, dif_neg]
        rintro ⟨-, -, hroom⟩
        have hdiv : (z * g.nBlocks + j * g.per) / g.drive.zoneSize = z :=
          Media.addr_div (d := g.drive) hjn
        rw [hdiv, hlen, Buffer.length_slice] at hroom
        exact absurd hroom (Nat.not_le.mpr hcross)
      rw [hr, run_nvmeWrite_refused hnone]
    · have hfits : (s.1.media.zone z).length + m ≤ g.nBlocks := by
        rw [hlen]
        exact Nat.not_lt.mp fun h => hno (Or.inr h)
      have hrun := run_nvmeWrite (w := s.1) hz hm0 hfits hm16 ((j * g.per : ℕ) * g.lba)
        (Buffer.length_slice buf (j * g.per : ℕ) m)
      have haddr : z * g.nBlocks + j * g.per = z * g.nBlocks + (s.1.media.zone z).length := by
        rw [hlen]
      rw [hr, haddr, hrun]
      exact ⟨rfl, Nat.add_assoc c j 1, hs.append hempty _⟩

variable (fails buf) in
/-- The loop, one command further. -/
lemma run_faulty_ioLoop_step (hds : g.ds ≤ 18) {j : ℕ} (hj : j * g.per < k)
    (haddr : z * g.nBlocks + j * g.per < 4294967296) (fuel : ℕ) (s : World g.drive × ℕ) :
    let m := commandBlocks g k j
    let r := (nvmeWrite (z * g.nBlocks + j * g.per) ((m - 1 : ℕ) : ℤ) ((m * g.lba : ℕ) : ℤ)
      ((j * g.per : ℕ) * g.lba) (buf.slice (j * g.per : ℕ) m) : Prog B ℤ).run (faulty fails) s
    (ioLoop g.config 0 false (fuel + 1) ((k - j * g.per) * g.lba) (j * g.per * g.lba)
        (z * g.nBlocks + j * g.per) buf).run (faulty fails) s
      = if r.1 ≠ 0 then ((r.1, buf), r.2)
        else (ioLoop g.config 0 false fuel ((k - j * g.per - m) * g.lba)
          ((j * g.per + m) * g.lba) (z * g.nBlocks + (j * g.per + m)) buf).run (faulty fails) r.2 := by
  intro m r
  have hstep := ioLoop_write_step hds (show m = _ from rfl) (show 0 < k - j * g.per by omega) 0
    ((j * g.per : ℕ) : ℤ) fuel (j * g.per * g.lba) (z * g.nBlocks + j * g.per)
    (by push_cast; ring) haddr buf
  rw [hstep, Program.run_bind, Program.run_ite, Nat.add_mul, Nat.add_assoc]
  rfl

/-- The next command starts where this one ends, if there is one. -/
lemma commandBlocks_next {j : ℕ} (h : (j + 1) * g.per ≤ k) :
    j * g.per + commandBlocks g k j = (j + 1) * g.per := by
  rw [Nat.succ_mul] at h ⊢
  rw [commandBlocks]
  omega

/-- **The first command that stops ends the call**, and what came before it stays. -/
lemma run_faulty_ioLoop_stop (hds : g.ds ≤ 18) (hz : z < g.nrZones) (hempty : w.media.zone z = [])
    {c i : ℕ} (hi : i * g.per < k) (hin : i * g.per < g.nBlocks)
    (hstop : Stops g fails c z k buf i) (hbefore : ∀ j < i, ¬ Stops g fails c z k buf j)
    {d j : ℕ} (fuel : ℕ) {s : World g.drive × ℕ} (hd : j + d = i)
    (hs : Grown w z buf 0 (j * g.per) s.1) (hcount : s.2 = c + j) (hfuel : d < fuel) :
    let r := (ioLoop g.config 0 false fuel ((k - j * g.per) * g.lba) (j * g.per * g.lba)
      (z * g.nBlocks + j * g.per) buf).run (faulty fails) s
    r.1.1 ≠ 0 ∧ Grown w z buf 0 (i * g.per) r.2.1 := by
  have hstart := g.start_lt (Nat.le_of_lt hz)
  have hn := g.nBlocks_lt
  induction d generalizing j fuel s with
  | zero =>
      obtain rfl : j = i := hd
      obtain ⟨fuel, rfl⟩ := Nat.exists_eq_succ_of_ne_zero (show fuel ≠ 0 by omega)
      have hcmd := (run_faulty_command fails buf hds hz hempty hi hin hs hcount).1 hstop
      rw [run_faulty_ioLoop_step fails buf hds hi (by omega)]
      simp only [hcmd, show (commandError : ℤ) ≠ 0 by decide, ne_eq, not_false_eq_true, if_true]
      exact ⟨trivial, hs⟩
  | succ d ih =>
      obtain ⟨fuel, rfl⟩ := Nat.exists_eq_succ_of_ne_zero (show fuel ≠ 0 by omega)
      have hji : (j + 1) * g.per ≤ i * g.per := Nat.mul_le_mul_right _ (by omega)
      have hnext := commandBlocks_next (g := g) (k := k) (j := j) (by omega)
      rw [Nat.succ_mul] at hji
      have hper := g.per_pos
      obtain ⟨hret, hcount', hs'⟩ := (run_faulty_command fails buf hds hz hempty (by omega)
        (by omega) hs hcount).2 (hbefore j (by omega))
      rw [run_faulty_ioLoop_step fails buf hds (by omega) (by omega),
        if_neg (by rw [not_not]; exact hret), Nat.sub_sub, hnext]
      rw [hnext] at hs'
      exact ih fuel (by omega) hs' hcount' (by omega)

end Commands

/-! ## The body of a write -/

section Body

variable {k : ℕ} {s : World g.drive × ℕ}

end Body

end StoSys
