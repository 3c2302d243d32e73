import StoSys.M1.IoWithMdts
import Mathlib.Algebra.Order.Ring.Int

/-!
# Cutting a transfer by the controller's limit

The loop of the first assignment is right as long as one command of it is: as many blocks as fit 16
bits, as many bytes as fit 32, and at least one block (`cutExactly_iff`).  The limit is not compared
with any of the three.  A controller without a limit (`mdts = 0`) reports half a page here, which
may be less than a block, and one with a large limit more than 65536 blocks.
-/

namespace StoSys.M1

open Effect CInt

variable {lba mdtsSize per slba : ℕ} {read : Bool}

/-- The command for the blocks `x.1`, …, `x.1 + x.2 - 1` of a request that starts at `slba`. -/
def transferCommand (lba slba : ℕ) (read : Bool) (x : ℕ × ℕ) : Command :=
  if read then .nvmeRead (toU64 (slba + x.1 : ℕ)) (x.2 - 1) (x.2 * lba) (x.1 * lba)
  else .nvmeWrite (toU64 (slba + x.1 : ℕ)) (x.2 - 1) (x.2 * lba) (x.1 * lba)

/-- **An exact cut**: the commands tile the request, up to the first that fails; its code comes
back. -/
def CutExactly {σ : Type} (slba lba mdtsSize cnt : ℕ) (read : Bool)
    (h : Handler Command Command.Res σ) (s : σ) : Prop :=
  ∃ pieces : List (ℕ × ℕ), Program.Sent h (fun _ r => r) id (transferCommand lba slba read) cnt
    pieces (ssNvmeDeviceIoWithMdts slba (cnt * lba) lba mdtsSize read) s

/-- What the next command carries. -/
def nextCommand (lba single bufPtr wp : ℕ) (read : Bool) : Command :=
  if read then .nvmeRead wp (toU16 ((toU16 (single / lba : ℕ) : ℤ) - 1)) (toU32 single) bufPtr
  else .nvmeWrite wp (toU16 ((toU16 (single / lba : ℕ) : ℤ) - 1)) (toU32 single) bufPtr

/-- One turn of the loop. -/
lemma ioLoop_succ {size : ℕ} (hsize : 0 < size) (fuel bufPtr wp : ℕ) (ret : ℤ) :
    ioLoop lba mdtsSize read (fuel + 1) size bufPtr wp ret =
      Program.perform (nextCommand lba (min mdtsSize size) bufPtr wp read) >>= fun ret : ℤ =>
        if ret ≠ 0 then pure ret
        else ioLoop lba mdtsSize read fuel (size - min mdtsSize size)
          (bufPtr + min mdtsSize size) (toU64 (wp + min mdtsSize size / lba : ℕ)) ret := by
  have hmin : (if mdtsSize < size then mdtsSize else size) = min mdtsSize size := by
    split <;> omega
  rw [ioLoop, if_pos hsize, ← hmin]
  cases read <;> rfl

/-- **The loop issues the commands of the cut**, when every command is right. -/
lemma batch_ioLoop {σ : Type} (hlba : 0 < lba) (hper : 0 < per) (hper16 : per ≤ 65536)
    (hper32 : per * lba < 4294967296) {total : ℕ}
    (hsingle : ∀ r ≤ total, min mdtsSize (r * lba) = min per r * lba)
    (h : Handler Command Command.Res σ) {fuel start cnt : ℕ} (hcnt : cnt ≤ total)
    (hfuel : cnt ≤ fuel * per) (ret : ℤ) (hret : cnt = 0 → ret = 0) (s : σ) :
    Program.Batch h (fun _ r => r) id ((cut per fuel start cnt).map (transferCommand lba slba read))
      (ioLoop lba mdtsSize read fuel (cnt * lba) (start * lba) (toU64 (slba + start : ℕ)) ret) s := by
  induction fuel generalizing start cnt ret s with
  | zero =>
      have hzero : cnt = 0 := by omega
      exact Program.Batch.nil (hret hzero)
  | succ fuel ih =>
      rcases Nat.eq_zero_or_pos cnt with rfl | hpos
      · rw [cut, if_pos rfl, ioLoop, Nat.zero_mul, if_neg (Nat.lt_irrefl 0)]
        exact Program.Batch.nil (hret rfl)
      · obtain ⟨k, hk⟩ : ∃ k, k = min per cnt := ⟨_, rfl⟩
        have hk0 : 0 < k := by omega
        have hk_le : k ≤ per := hk ▸ Nat.min_le_left _ _
        have hbytes : k * lba ≤ per * lba := Nat.mul_le_mul_right _ hk_le
        have hnlb : toU16 ((toU16 (k * lba / lba : ℕ) : ℤ) - 1) = k - 1 := by
          rw [Nat.mul_div_cancel _ hlba]
          unfold toU16
          omega
        have hcommand : nextCommand lba (k * lba) (start * lba) (toU64 (slba + start : ℕ)) read
            = transferCommand lba slba read (start, k) := by
          rw [nextCommand, transferCommand, hnlb, toU32_of_lt (Nat.lt_of_le_of_lt hbytes hper32)]
        have haddr : toU64 (toU64 (slba + start : ℕ) + k : ℕ) = toU64 (slba + (start + k) : ℕ) := by
          unfold toU64
          omega
        rw [Nat.succ_mul] at hfuel
        rw [cut, if_neg (by omega), ioLoop_succ (Nat.mul_pos hpos hlba), hsingle cnt hcnt, ← hk,
          List.map_cons, hcommand, Nat.mul_div_cancel _ hlba, ← Nat.sub_mul, ← Nat.add_mul, haddr]
        refine Program.Batch.cons (h := h) (o := transferCommand lba slba read (start, k))
          (fun r : ℤ => r) (fun _ => rfl) fun hok => ?_
        exact ih (by omega) (by omega) _ (fun _ => hok) _

/-- **Enough**: the limit, or the request below it, is a number of blocks that a command can
carry. -/
lemma cutExactly_of_fits {σ : Type} {cnt : ℕ} (hslba : slba < 18446744073709551616)
    (hcnt : 0 < cnt) (hlba : 0 < lba) (hdvd : lba ∣ min mdtsSize (cnt * lba))
    (hge : lba ≤ min mdtsSize (cnt * lba)) (h16 : min mdtsSize (cnt * lba) ≤ 65536 * lba)
    (h32 : min mdtsSize (cnt * lba) < 4294967296) (h : Handler Command Command.Res σ) (s : σ) :
    CutExactly slba lba mdtsSize cnt read h s := by
  obtain ⟨per, hper⟩ := hdvd
  rw [Nat.mul_comm lba per] at hper
  rw [hper] at hge h16 h32
  have hper0 : 0 < per := Nat.pos_of_mul_pos_right (Nat.lt_of_lt_of_le hlba hge)
  have hsingle : ∀ r ≤ cnt, min mdtsSize (r * lba) = min per r * lba := by
    intro r hr
    have hle : r * lba ≤ cnt * lba := Nat.mul_le_mul_right _ hr
    rw [← Nat.mul_min_mul_right, ← hper]
    omega
  have hfuel : cnt ≤ (cnt * lba / mdtsSize + 1) * per := by
    rcases Nat.le_total mdtsSize (cnt * lba) with hle | hle
    · rw [Nat.min_eq_left hle] at hper
      rw [hper, Nat.mul_div_mul_right _ _ hlba, Nat.mul_comm]
      exact Nat.le_of_lt (Nat.lt_mul_div_succ cnt hper0)
    · rw [Nat.min_eq_right hle] at hper
      rw [Nat.eq_of_mul_eq_mul_right hlba hper]
      exact Nat.le_mul_of_pos_left _ (Nat.succ_pos _)
  have htiles : Tiles 0 (cut per (cnt * lba / mdtsSize + 1) 0 cnt) (0 + cnt) :=
    tiles_cut hper0 hfuel
  have hbatch : Program.Batch h (fun _ r => r) id _
      (ioLoop lba mdtsSize read _ (cnt * lba) (0 * lba) (toU64 (slba + 0 : ℕ)) (-enosys)) s :=
    batch_ioLoop hlba hper0 (Nat.le_of_mul_le_mul_right h16 hlba) h32 hsingle h (Nat.le_refl cnt)
      hfuel (-enosys) (fun hzero => by omega) s
  rw [Nat.zero_add] at htiles
  rw [Nat.zero_mul, Nat.add_zero slba, toU64_of_lt hslba] at hbatch
  exact ⟨_, hbatch.sent htiles⟩

/-- The drive that does everything it is told. -/
def accepting : Handler Command Command.Res Unit := fun _ s => ((0 : ℤ), s)

lemma codes_accepting {α : Type} (p : Program Command Command.Res α) :
    ∀ r ∈ p.codes accepting (fun _ r => r) (), r = 0 := by
  induction p with
  | pure a => exact List.forall_mem_nil _
  | op o next ih => exact List.forall_mem_cons.mpr ⟨rfl, ih 0⟩

/-- The loop issues a command as long as there is something left. -/
lemma issued_ioLoop {size : ℕ} (hsize : 0 < size) (fuel bufPtr wp : ℕ) (ret : ℤ) :
    (ioLoop lba mdtsSize read (fuel + 1) size bufPtr wp ret).issued accepting () =
      nextCommand lba (min mdtsSize size) bufPtr wp read ::
        (ioLoop lba mdtsSize read fuel (size - min mdtsSize size) (bufPtr + min mdtsSize size)
          (toU64 (wp + min mdtsSize size / lba : ℕ)) 0).issued accepting () := by
  rw [ioLoop_succ hsize, Program.issued_bind]
  rfl

lemma eq_of_issued {fuel size bufPtr wp : ℕ} {ret : ℤ} {o : Command} {l : List Command}
    (h : (ioLoop lba mdtsSize read fuel size bufPtr wp ret).issued accepting () = o :: l) :
    o = nextCommand lba (min mdtsSize size) bufPtr wp read := by
  cases fuel with
  | zero => cases h
  | succ fuel =>
      rcases Nat.eq_zero_or_pos size with rfl | hsize
      · rw [ioLoop, if_neg (Nat.lt_irrefl 0)] at h
        cases h
      · rw [issued_ioLoop hsize] at h
        exact (List.cons.inj h).1.symm

/-- **No more**: on that drive the first command is of whole blocks, and carries their number and
their length. -/
lemma CutExactly.fits {cnt : ℕ} (hcnt : 0 < cnt) (hlba : 0 < lba)
    (h : CutExactly slba lba mdtsSize cnt read accepting ()) :
    lba ≤ min mdtsSize (cnt * lba) ∧ min mdtsSize (cnt * lba) ≤ 65536 * lba ∧
      min mdtsSize (cnt * lba) < 4294967296 := by
  obtain ⟨pieces, hsent⟩ := h
  have hall := hsent.complete (hsent.ok_iff.mpr (codes_accepting _))
  obtain ⟨t, ht⟩ : ∃ t, t = min mdtsSize (cnt * lba) := ⟨_, rfl⟩
  rw [ssNvmeDeviceIoWithMdts, issued_ioLoop (Nat.mul_pos hcnt hlba), ← ht] at hall
  have htiles := hsent.tiles
  cases pieces with
  | nil => cases hall
  | cons x pieces =>
      obtain ⟨hx, hx0, hrest⟩ := htiles
      obtain ⟨hhead, htail⟩ := List.cons.inj hall
      have hcarried : toU16 ((toU16 (t / lba : ℕ) : ℤ) - 1) = x.2 - 1 ∧ toU32 t = x.2 * lba := by
        cases read <;>
          simp only [nextCommand, transferCommand, if_true, Bool.false_eq_true, if_false,
            Command.nvmeRead.injEq, Command.nvmeWrite.injEq] at hhead <;>
          exact ⟨hhead.2.1, hhead.2.2.1⟩
      obtain ⟨hnlb, hlen⟩ := hcarried
      have hx16 : x.2 ≤ 65536 := by
        unfold toU16 at hnlb
        omega
      have hxpos : 0 < x.2 * lba := Nat.mul_pos hx0 hlba
      have hblocks : t = x.2 * lba := by
        cases pieces with
        | nil =>
            rcases Nat.lt_or_ge mdtsSize (cnt * lba) with hlt | hge
            · -- there is more to send, and nothing has been sent
              rw [Nat.min_eq_left (Nat.le_of_lt hlt)] at ht
              have ht0 : 0 < mdtsSize := by
                by_contra hzero
                obtain rfl : t = 0 := by omega
                rw [← hlen] at hxpos
                exact absurd hxpos (by decide)
              obtain ⟨fuel, hfuel⟩ := Nat.exists_eq_succ_of_ne_zero
                (Nat.ne_of_gt (Nat.div_pos (Nat.le_of_lt hlt) ht0))
              rw [hfuel, issued_ioLoop (by omega)] at htail
              cases htail
            · rw [Nat.min_eq_right hge] at ht
              have hcnt' : x.2 = cnt := (Nat.zero_add _).symm.trans hrest
              rw [ht, hcnt']
        | cons y pieces =>
            obtain ⟨hy, -, -⟩ := hrest
            have hnext := eq_of_issued htail
            rw [Nat.zero_add] at hy
            have hoff : y.1 * lba = 0 + t := by
              cases read <;>
                simp only [nextCommand, transferCommand, if_true, Bool.false_eq_true, if_false,
                  Command.nvmeRead.injEq, Command.nvmeWrite.injEq] at hnext <;>
                exact hnext.2.2.2
            rw [← hy, hoff, Nat.zero_add]
      rw [← ht, hblocks]
      rw [hblocks] at hlen
      have h32 := toU32_lt ((x.2 * lba : ℕ) : ℤ)
      exact ⟨Nat.le_mul_of_pos_left _ hx0, Nat.mul_le_mul_right _ hx16, hlen ▸ h32⟩

/-- **When the first assignment cuts a transfer exactly**, for every limit a controller may report,
every block size and every request, in both directions: one command, which carries the limit or the
whole request if that is smaller, is at least a block, at most 65536 blocks, and shorter than
`2 ^ 32` bytes. -/
theorem cutExactly_iff {slba cnt : ℕ} (hslba : slba < 18446744073709551616) (hcnt : 0 < cnt)
    (l mdts mpsmaxMpsmin : ℕ) (read : Bool) :
    (∀ {σ : Type} (h : Handler Command Command.Res σ) (s : σ),
      CutExactly slba (2 ^ l) (getMdtsSize mdts mpsmaxMpsmin) cnt read h s) ↔
      let t := min (getMdtsSize mdts mpsmaxMpsmin) (cnt * 2 ^ l)
      2 ^ l ≤ t ∧ t ≤ 65536 * 2 ^ l ∧ t < 4294967296 := by
  have hlba : 0 < 2 ^ l := Nat.two_pow_pos l
  refine ⟨fun h => (h accepting ()).fits hcnt hlba, fun ⟨hge, h16, h32⟩ σ h s => ?_⟩
  have hlimit : 2 ^ l ∣ getMdtsSize mdts mpsmaxMpsmin := by
    rw [getMdtsSize_eq]
    have hle := Nat.le_trans hge (Nat.min_le_left _ _)
    rw [getMdtsSize_eq] at hle
    exact Nat.pow_dvd_pow 2 ((Nat.pow_le_pow_iff_right (by decide)).mp hle)
  have hdvd : 2 ^ l ∣ min (getMdtsSize mdts mpsmaxMpsmin) (cnt * 2 ^ l) := by
    rcases Nat.le_total (getMdtsSize mdts mpsmaxMpsmin) (cnt * 2 ^ l) with hle | hle
    · rwa [Nat.min_eq_left hle]
    · rw [Nat.min_eq_right hle]
      exact Nat.dvd_mul_left _ _
  exact cutExactly_of_fits hslba hcnt hlba hdvd hge h16 h32 h s

/-- The same for three blocks of 4096 bytes and a limit of two pages. -/
theorem cutExactly_iff_two_pages :
    CutExactly 0 (2 ^ 12) (getMdtsSize 2 0) 3 false accepting () :=
  (cutExactly_iff (by decide) (by decide) 12 2 0 false).mpr (by decide) accepting ()

/-- A controller with pages of 4096 bytes and no limit: half a page is no block, and the first
command is for 65536. -/
theorem half_a_page :
    getMdtsSize 0 0 = 2048 ∧
      (ssNvmeDeviceIoWithMdts 0 (1 * 2 ^ 12) (2 ^ 12) (getMdtsSize 0 0) true).issued accepting ()
        = [.nvmeRead 0 65535 2048 0, .nvmeRead 0 65535 2048 2048] ∧
      ¬ CutExactly 0 (2 ^ 12) (getMdtsSize 0 0) 1 true accepting () := by
  refine ⟨by decide, by decide +kernel, fun h => ?_⟩
  have hfits := (h.fits (by decide) (by decide)).1
  exact absurd hfits (by decide)

end StoSys.M1
