import StoSys.Lib.Parallel
import StoSys.M1.Tests

/-!
# The tests of `m1`, zone by zone

Every command of the tests is for one zone.  Here are the local proofs of the commands: what they
answer, and what becomes of the zone, is said in terms of that zone alone.  So they are good for a test
that runs alone, and for threads side by side.
-/

namespace StoSys.M1

open Effect Zoned CInt M3 Program

variable {ds : ℕ} {d : Drive (Block ds)} {n : ℕ}

/-! ## What belongs to whom -/

/-- The zone of a thread; `none` is the thread that has started them. -/
def ownZone : Option (Fin n) → Machine d → List (Block ds)
  | none, _ => []
  | some i, s => s.world.media.zone i

/-- The operations of a thread. -/
def Own (d : Drive (Block ds)) : Option (Fin n) → TestOp ds → Prop
  | none, .setStop | none, .loadErrors => True
  | some _, .loadStop => True
  | some _, .nvme (.nvmeRead ..) => True
  | some i, .nvme (.nvmeWrite slba ..) => slba / d.zoneSize = i
  | some i, .nvme (.nvmeZnsAppend zslba ..) => zslba / d.zoneSize = i
  | some i, .nvme (.nvmeZnsReset slba false) => slba / d.zoneSize = i
  | _, _ => False

/-- No error has been counted. -/
def NoErrors (s : Machine d) : Prop := s.errors = 0

/-- A zone that another zone is written for. -/
lemma update_zone_ne {f : ℕ → List (Block ds)} {i j : Fin n} (hne : i ≠ j) {z : ℕ} (hz : z = j)
    (l : List (Block ds)) : Function.update f z l i = f i :=
  Function.update_of_ne (fun h => hne (Fin.ext (h.trans hz))) _ _

/-- No thread touches what belongs to another one. -/
lemma ownZone_other (i j : Option (Fin n)) (o : TestOp ds) (s : Machine d) (_ : NoErrors s)
    (hne : i ≠ j) (ho : Own d j o) : ownZone i (testExec o s).2 = ownZone i s := by
  cases i with
  | none => rfl
  | some i =>
      cases o with
      | loadStop | setStop | loadErrors | fetchAdd => rfl
      | nvme o =>
          cases j with
          | none => cases o <;> cases ho
          | some j =>
              have hij : i ≠ j := fun h => hne (congrArg some h)
              change (exec o s.world).2.media.zone i = s.world.media.zone i
              cases o with
              | get | modify | sysCall | nvmeIdentifyNs | nvmeZnsReport => cases ho
              | nvmeRead slba nlb dataLen off =>
                  dsimp only [exec]
                  split
                  · split <;> rfl
                  · rfl
              | nvmeWrite slba nlb dataLen off payload =>
                  dsimp only [exec]
                  split
                  · split
                    · rename_i m hm
                      rw [(Media.write_eq_some hm).2.2, update_zone_ne hij ho]
                    · rfl
                  · rfl
              | nvmeZnsAppend zslba nlb dataLen payload =>
                  dsimp only [exec]
                  split
                  · split
                    · rename_i lba m hm
                      rw [(Media.append_eq_some hm).2.2.2.2, update_zone_ne hij ho]
                    · rfl
                  · rfl
              | nvmeZnsReset slba selectAll =>
                  cases selectAll with
                  | true => cases ho
                  | false =>
                      dsimp only [exec]
                      rw [if_neg Bool.false_ne_true]
                      split
                      · rename_i m hm
                        rw [Media.reset_eq_some hm, update_zone_ne hij ho]
                      · rfl

/-! ## The commands, locally -/

/-- A local proof of the program of one thread. -/
abbrev Local {α : Type} (i : Option (Fin n)) (Q : α → List (Block ds) → Prop) :
    Prog ds α → List (Block ds) → Prop :=
  Outline (testExec (d := d)) (ownZone i) NoErrors (Own d i) Q

/-- The first block of a buffer. -/
def front (ds : ℕ) (buf : Bytes) : Block ds := fun k => buf k

lemma slice_front (buf : Bytes) : (toBlocks ds buf).slice 0 1 = [front ds buf] := by
  change [fun k : Fin (2 ^ ds) => buf (0 * 2 ^ ds + k)] = _
  simp only [Nat.zero_mul, Nat.zero_add]
  rfl

/-- The bytes of the blocks that are stored at the front of a buffer. -/
lemma toBytes_store_block (buf : Bytes) (bs : List (Block ds)) {b : ℕ} (hb : b < bs.length)
    (k : Fin (2 ^ ds)) :
    toBytes ds ((toBlocks ds buf).store 0 bs) (b * 2 ^ ds + k) = bs[b] k := by
  have hdiv : (b * 2 ^ ds + k) / 2 ^ ds = b := by
    rw [Nat.add_comm, Nat.add_mul_div_right _ _ (Nat.two_pow_pos ds), Nat.div_eq_of_lt k.isLt,
      Nat.zero_add]
  have hmod : (b * 2 ^ ds + k) % 2 ^ ds = k := by
    rw [Nat.add_comm, Nat.add_mul_mod_self_right, Nat.mod_eq_of_lt k.isLt]
  have hget : bs[((b : ℤ) - 0).toNat]? = some bs[b] := by
    rw [Int.sub_zero, Int.toNat_natCast, List.getElem?_eq_getElem hb]
  simp only [toBytes, Buffer.store, hdiv, hmod, hget, Option.getD_some]
  rw [if_pos (Int.natCast_nonneg b)]

section Commands

variable (hfit : d.nrZones * d.zoneSize < 18446744073709551616) {i : Fin n}
  (hi : (i : ℕ) < d.nrZones) {l : List (Block ds)} (buf : Bytes) {k : ℕ} {nlb dataLen : ℤ}
  (hnlb : toU16 nlb + 1 = k) (hlen : toU32 dataLen = k * d.lbaSize)

include hfit hi in
lemma toU64_addr {o : ℕ} (ho : o ≤ d.zoneSize) :
    toU64 ((i * d.zoneSize + o : ℕ) : ℤ) = i * d.zoneSize + o :=
  toU64_of_lt ((Media.addr_lt hi ho).trans_lt hfit)

include hi

lemma local_reset :
    Local (d := d) (some i) (fun ret l' => ret = 0 ∧ l' = [])
      (ssZnsDeviceZoneReset (i * d.zoneSize)) l := by
  refine .perform (Media.start_div (d := d) i) fun s hs _ => ?_
  simp only [testExec, exec, Bool.false_eq_true, if_false, Media.reset_start s.world.media hi]
  exact ⟨hs, trivial, by simp [ownZone]⟩

include hnlb hlen

/-- A write at the write pointer, while there is room. -/
lemma local_nvmeWrite (hroom : l.length + k ≤ d.zoneCap) :
    Local (d := d) (some i) (fun ret l' => ret = 0 ∧ l' = l ++ (toBlocks ds buf).slice 0 k)
      (nvmeWrite (i * d.zoneSize + l.length) nlb dataLen buf) l := by
  have hsize : l.length < d.zoneSize := by
    have := d.cap_le
    omega
  rw [nvmeWrite, hnlb]
  refine .perform (Media.addr_div hsize) fun s hs hv => ?_
  change s.world.media.zone i = l at hv
  subst hv
  have hslice : (toBlocks ds buf).slice 0 k ≠ [] := by
    intro h
    have := congrArg List.length h
    rw [Buffer.length_slice, List.length_nil] at this
    omega
  have hfits : (s.world.media.zone i).length + ((toBlocks ds buf).slice 0 k).length ≤ d.zoneCap := by
    rwa [Buffer.length_slice]
  have hwrite := Media.write_addr s.world.media hi hslice hfits
  simp only [testExec, exec, hlen, hnlb, hwrite, Buffer.length_slice]
  rw [if_pos ⟨trivial, trivial⟩]
  exact ⟨hs, rfl, by simp [ownZone]⟩

lemma local_nvmeZnsAppend (hroom : l.length + k ≤ d.zoneCap) :
    Local (d := d) (some i)
      (fun r l' => r = (0, i * d.zoneSize + l.length) ∧ l' = l ++ (toBlocks ds buf).slice 0 k)
      (nvmeZnsAppend (i * d.zoneSize) nlb dataLen buf) l := by
  rw [nvmeZnsAppend, hnlb]
  refine .perform (Media.start_div (d := d) i) fun s hs hv => ?_
  change s.world.media.zone i = l at hv
  subst hv
  have hfits : (s.world.media.zone i).length + ((toBlocks ds buf).slice 0 k).length ≤ d.zoneCap := by
    rwa [Buffer.length_slice]
  have happend := Media.append_start s.world.media hi hfits
  simp only [testExec, exec, hlen, hnlb, happend, Buffer.length_slice]
  rw [if_pos ⟨trivial, trivial⟩]
  exact ⟨hs, rfl, by simp [ownZone]⟩

/-- A read of blocks that are there. -/
lemma local_nvmeRead {o : ℕ} (ho : o + k ≤ l.length) (hl : l.length ≤ d.zoneCap) :
    Local (d := d) (some i)
      (fun r l' => l' = l ∧ r.1 = 0 ∧ ∀ (b : ℕ) (hb : b < k) (j : Fin (2 ^ ds)),
        r.2 (b * 2 ^ ds + j) = l[o + b] j)
      (nvmeRead (i * d.zoneSize + o) nlb dataLen buf) l := by
  have hsize : o + k ≤ d.zoneSize := by
    have := d.cap_le
    omega
  have hk : 0 < k := by omega
  refine .bind (R := fun r l' => l' = l ∧ r = (0, (l.drop o).take k)) ?_ ?_
  · refine .perform trivial fun s hs hv => ?_
    change s.world.media.zone i = l at hv
    subst hv
    have hread := Media.read_addr s.world.media hi hk hsize
    have hblocks : s.world.media.blocks (i * d.zoneSize + o) k
        = ((s.world.media.zone i).drop o).take k := by
      refine List.ext_getElem? fun b => ?_
      rw [Media.getElem?_blocks, List.getElem?_take, List.getElem?_drop]
      by_cases hb : b < k
      · rw [if_pos hb, if_pos hb, Nat.add_assoc, Media.blockAt_addr _ (by omega),
          List.getElem?_eq_getElem (by omega), Option.getD_some]
      · rw [if_neg hb, if_neg hb]
    simp only [testExec, exec, hlen, hnlb, hread, hblocks]
    rw [if_pos trivial]
    exact ⟨hs, rfl, rfl⟩
  · rintro ⟨ret, bs⟩ l' ⟨rfl, hr⟩
    cases hr
    refine .pure ⟨rfl, rfl, fun b hb j => ?_⟩
    have hlength : b < ((l'.drop o).take k).length := by
      rw [List.length_take, List.length_drop]
      omega
    dsimp only
    rw [toBytes_store_block buf _ hlength j, List.getElem_take, List.getElem_drop]

end Commands

end StoSys.M1
