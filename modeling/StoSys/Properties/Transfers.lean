import StoSys.Lib.Batch
import StoSys.Properties.ReadYourWrites

/-!
# Cutting a transfer

`io_with_mdts` keeps three counters in three units: bytes left, the byte offset in the buffer, and
the address of the next block.  The zero-based block count of a command is the quotient of two
sizes, less one if the division is exact.

For whole blocks, of at most `MDTS` bytes, the counters go together (`ioWithMdts_sent`): the
commands tile the request, block for block and byte for byte, whatever the device answers.
-/

namespace StoSys

open Effect CInt

variable {B σ : Type}

/-- The return code of an operation; the memory does not have one. -/
def Op.code : (o : Op B) → Op.Res o → ℤ
  | .get, _ => 0
  | .modify _, _ => 0
  | .sysCall _, r => r
  | .nvmeIdentifyNs, r => r.1
  | .nvmeZnsReport, r => r.1
  | .nvmeRead _ _ _ _, r => r.1
  | .nvmeWrite _ _ _ _ _, r => r
  | .nvmeZnsAppend _ _ _ _, r => r.1
  | .nvmeZnsReset _ _, r => r

/-- The command for the blocks `x.1`, …, `x.1 + x.2 - 1` of a request that starts at `slba`, of
`lba` bytes each. -/
def transferCommand (lba slba : ℕ) (base : ℤ) (read : Bool) (buf : Buffer B) (x : ℕ × ℕ) : Op B :=
  let off : ℤ := base + (x.1 * lba : ℕ)
  if read then .nvmeRead (toU64 (slba + x.1 : ℕ)) (x.2 - 1) (x.2 * lba) off
  else .nvmeWrite (toU64 (slba + x.1 : ℕ)) (x.2 - 1) (x.2 * lba) off (buf.slice (off / lba) x.2)

lemma toU64_toU64_add (a b : ℕ) : toU64 (toU64 (a : ℕ) + b : ℕ) = toU64 (a + b : ℕ) := by
  unfold toU64
  omega

/-- A count of 16 bits and a length of 32 bits go to the device as they are. -/
lemma nvmeRead_eq {nlb len : ℕ} (hn : nlb < 65536) (hl : len < 4294967296) (slba : ℕ) (off : ℤ) :
    (nvmeRead slba nlb len off : Prog B _) = Program.perform (Op.nvmeRead slba nlb len off) := by
  change (fun x y => (Program.perform (Op.nvmeRead slba x y off) : Prog B (ℤ × List B)))
    (toU16 nlb) (toU32 len) = _
  rw [toU16_of_lt hn, toU32_of_lt hl]

lemma nvmeWrite_eq {nlb len : ℕ} (hn : nlb < 65536) (hl : len < 4294967296) (slba : ℕ) (off : ℤ)
    (bs : List B) : (nvmeWrite slba nlb len off bs : Prog B _)
      = Program.perform (Op.nvmeWrite slba nlb len off bs) := by
  change (fun x y => (Program.perform (Op.nvmeWrite slba x y off bs) : Prog B ℤ))
    (toU16 nlb) (toU32 len) = _
  rw [toU16_of_lt hn, toU32_of_lt hl]

section Loop

variable {c : Config} {per lba : ℕ} (hlba : c.lbaSizeBytes = lba) (hpos : 0 < lba)
  (hmdts : mdts = per * lba) (hper : 0 < per) (hper' : per ≤ 65536)
include hlba hpos hmdts hper hper'

/-- **The loop issues the commands of the cut.**  A read may have filled part of the buffer. -/
lemma batch_ioLoop (h : Handler (Op B) Op.Res σ) (slba : ℕ) (base : ℤ) (read : Bool)
    (buf : Buffer B) (fuel start cnt : ℕ) (buf' : Buffer B) (hbuf : read = false → buf' = buf)
    (hfuel : cnt ≤ fuel * per) (s : σ) :
    Program.Batch h Op.code Prod.fst
      ((cut per fuel start cnt).map (transferCommand lba slba base read buf))
      (ioLoop c base read fuel (cnt * lba) (start * lba) (toU64 (slba + start : ℕ)) buf') s := by
  induction fuel generalizing start cnt buf' s with
  | zero => exact Program.Batch.nil rfl
  | succ fuel ih =>
      rcases Nat.eq_zero_or_pos cnt with rfl | hcnt
      · rw [cut, if_pos rfl, ioLoop, Nat.zero_mul, if_neg (Nat.lt_irrefl 0)]
        exact Program.Batch.nil rfl
      · obtain ⟨k, hk⟩ : ∃ k, k = min per cnt := ⟨_, rfl⟩
        have hk_le : k ≤ per := hk ▸ Nat.min_le_left _ _
        have hbytes : k * lba ≤ mdts := hmdts ▸ Nat.mul_le_mul_right _ hk_le
        have hmdts' : mdts = 262144 := rfl
        rw [Nat.succ_mul] at hfuel
        have hrest : cnt - k ≤ fuel * per := by omega
        rw [cut, if_neg (by omega), ioLoop_succ hlba hpos hmdts hper hper' hk hcnt, ← hk,
          List.map_cons, toU64_toU64_add, ← Nat.add_mul, Nat.add_assoc]
        cases read with
        | true =>
            rw [if_pos rfl, nvmeRead_eq (by omega) (by omega)]
            refine Program.Batch.cons (h := h) (o := Op.nvmeRead _ _ _ _)
              (fun r : ℤ × List B => (r.1, buf'.store ((base + (start * lba : ℕ)) / lba) r.2)) ?_
              fun _ => ?_
            · exact fun _ => rfl
            · exact ih (start + k) (cnt - k) _ (fun h => by cases h) hrest _
        | false =>
            obtain rfl := hbuf rfl
            rw [if_neg Bool.false_ne_true, nvmeWrite_eq (by omega) (by omega)]
            refine Program.Batch.cons (h := h) (o := Op.nvmeWrite _ _ _ _ _)
              (fun r : ℤ => (r, buf')) ?_ fun _ => ?_
            · exact fun _ => rfl
            · exact ih (start + k) (cnt - k) _ (fun _ => rfl) hrest _

end Loop

/-- The loop's bound is never the reason it stops. -/
lemma ioLoop_fuel (c : Config) (base : ℤ) (read : Bool) {fuel fuel' size : ℕ}
    (h : size ≤ fuel * mdts) (h' : size ≤ fuel' * mdts) (ptr wp : ℕ) (buf : Buffer B) :
    ioLoop c base read fuel size ptr wp buf = ioLoop c base read fuel' size ptr wp buf := by
  have hmdts : mdts = 262144 := rfl
  have hdone : ∀ (n ptr wp : ℕ) (buf : Buffer B),
      ioLoop c base read n 0 ptr wp buf = (pure (0, buf) : Prog B _) := by
    intro n ptr wp buf
    cases n <;> rfl
  induction fuel generalizing fuel' size ptr wp buf with
  | zero =>
      obtain rfl : size = 0 := by omega
      rw [hdone, hdone]
  | succ fuel ih =>
      cases fuel' with
      | zero =>
          obtain rfl : size = 0 := by omega
          rw [hdone, hdone]
      | succ fuel' =>
          rw [Nat.succ_mul] at h h'
          obtain ⟨single, hsingle⟩ : ∃ n, n = if mdts < size then mdts else size := ⟨_, rfl⟩
          have hrest : ∀ {n}, size ≤ n * mdts + mdts → size - single ≤ n * mdts := by
            intro n hn
            split at hsingle <;> omega
          have hih := fun ptr wp buf => ih (hrest h) (hrest h') ptr wp buf
          simp only [ioLoop, ← hsingle, hih]

/-- **A transfer of whole blocks is cut exactly**, for every block size from 512 bytes to `MDTS`,
every start, both directions, and whatever the device answers: the commands cover the request piece
by piece, in blocks and in bytes, up to the first that fails, and its code comes back.  The loop
ends by itself. -/
theorem ioWithMdts_sent {c : Config} {ds : ℕ} (hge : 9 ≤ ds) (hle : 2 ^ ds ≤ mdts)
    (hlba : c.lbaSizeBytes = 2 ^ ds) {slba : ℕ} (hslba : slba < 18446744073709551616) (cnt : ℕ)
    (base : ℤ) (read : Bool) (buf : Buffer B) (h : Handler (Op B) Op.Res σ) (s : σ) :
    let lba := c.lbaSizeBytes
    let p := ioWithMdts c slba base (cnt * lba) read buf
    ∃ pieces : List (ℕ × ℕ),
      Program.Sent h Op.code Prod.fst (transferCommand lba slba base read buf) cnt pieces p s ∧
      Tiles 0 (pieces.map fun x => (x.1 * lba, x.2 * lba)) (cnt * lba) ∧
      (slba + cnt ≤ 18446744073709551616 →
        Tiles slba (pieces.map fun x => (toU64 (slba + x.1 : ℕ), x.2)) (slba + cnt)) ∧
      (∀ x ∈ pieces, x.2 * lba ≤ mdts ∧ x.2 - 1 < 65536) ∧
      ∀ fuel, cnt * lba / mdts < fuel → ioLoop c base read fuel (cnt * lba) 0 slba buf = p := by
  intro lba p
  have hmdts : mdts = 2 ^ 18 := rfl
  have hds : ds ≤ 18 := (Nat.pow_le_pow_iff_right (by decide)).mp (hmdts ▸ hle)
  obtain ⟨per, hper⟩ : ∃ per, per = 2 ^ (18 - ds) := ⟨_, rfl⟩
  have hlba' : lba = 2 ^ ds := hlba
  have hpos : 0 < lba := hlba' ▸ Nat.two_pow_pos ds
  have hcut : mdts = per * lba := by
    rw [hper, hlba', ← Nat.pow_add, Nat.sub_add_cancel hds]
    rfl
  have hper0 : 0 < per := hper ▸ Nat.two_pow_pos _
  have hper16 : per ≤ 512 := by
    rw [hper]
    exact (Nat.pow_le_pow_right (by decide) (show 18 - ds ≤ 9 by omega)).trans (by decide)
  have hfuel : cnt ≤ (cnt * lba / mdts + 1) * per := by
    rw [hcut, Nat.mul_div_mul_right _ _ hpos, Nat.mul_comm]
    exact Nat.le_of_lt (Nat.lt_mul_div_succ cnt hper0)
  have htiles : Tiles 0 (cut per (cnt * lba / mdts + 1) 0 cnt) (0 + cnt) := tiles_cut hper0 hfuel
  rw [Nat.zero_add] at htiles
  have hbatch := batch_ioLoop (c := c) rfl hpos hcut hper0 (by omega) h slba base read buf _ 0 cnt
    buf (fun _ => rfl) hfuel s
  rw [Nat.add_zero slba, toU64_of_lt hslba, Nat.zero_mul] at hbatch
  refine ⟨_, hbatch.sent htiles, ?_, fun hend => ?_, fun x hx => ?_, fun fuel hlt => ?_⟩
  · have hscaled := htiles.scale hpos
    rwa [Nat.zero_mul] at hscaled
  · have hshifted := htiles.shift slba
    rw [Nat.add_zero slba] at hshifted
    refine cast (congrArg (fun l => Tiles slba l _) (List.map_congr_left fun x hx => ?_)) hshifted
    obtain ⟨-, hx0, hxle⟩ := htiles.mem_le hx
    rw [toU64_of_lt (by omega)]
  · have hxle := le_of_mem_cut hx
    exact ⟨hcut ▸ Nat.mul_le_mul_right _ hxle, by omega⟩
  · have hbound : cnt * lba ≤ (cnt * lba / mdts + 1) * mdts := by
      rw [Nat.mul_comm _ mdts]
      exact Nat.le_of_lt (Nat.lt_mul_div_succ _ (by decide))
    exact ioLoop_fuel c base read (hbound.trans (Nat.mul_le_mul_right _ hlt)) hbound 0 slba buf

/-- A drive whose zones are longer than a command may be. -/
def longDrive : Zoned.Drive UInt8 where
  ds := 12
  nrZones := 2
  zoneSize := 256
  zoneCap := 256
  readAcross := false
  fill := 0
  cap_pos := by decide
  cap_le := Nat.le_refl _

/-- The same for 130 blocks of 4096 bytes, written to its second zone: three commands, the last of two
blocks. -/
theorem ioWithMdts_sent_three :
    let p := ioWithMdts smallDrive.config 256 0 (130 * 4096) false fun _ => 7
    let w : World longDrive := ⟨Ftl.fresh, .empty longDrive⟩
    ∃ pieces, Program.Sent exec Op.code Prod.fst (transferCommand 4096 256 0 false fun _ => 7) 130
      pieces p w ∧ (p.run exec w).1.1 = 0 ∧ pieces.length = 3 := by
  intro p w
  obtain ⟨pieces, hsent, -⟩ := ioWithMdts_sent (show 9 ≤ 12 by decide) (by decide)
    (show smallDrive.config.lbaSizeBytes = 2 ^ 12 from rfl)
    (show 256 < 18446744073709551616 by decide) 130 0 false (fun _ => 7) exec w
  have hret : (p.run exec w).1.1 = 0 := by decide +kernel
  have hthree : (p.issued exec w).length = 3 := by decide +kernel
  have hall : p.issued exec w = pieces.map _ := hsent.complete hret
  rw [hall, List.length_map] at hthree
  exact ⟨pieces, hsent, hret, hthree⟩

end StoSys
