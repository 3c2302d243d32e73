import StoSys.Ftl.ReadPaths
import StoSys.Properties.ReadYourWrites

/-!
# Reads of several blocks

Below `MDTS` a read takes its blocks one at a time, and each of them alone would be read in the same
way, up to the first block that no data zone and no log entry knows.  A one-block read of that block
zeroes its buffer and returns.  So does the longer one: it zeroes the buffer of the whole request,
including what it has read already and what it has still to read.
-/

namespace StoSys

open Effect HashMap Zoned CInt

variable {B : Type} [Zero B] {d : Drive B} {p : InitParams} {c : Config} {w : World d} {a k : ℕ}

/-- A read of `k` blocks from block `a` on succeeds, and its buffer is put together from the
one-block reads. -/
def ReadsAsPieces (c : Config) (w : World d) (a k : ℕ) : Prop :=
  ∀ buf : Buffer B, ∃ buf' : Buffer B,
    (znsUdeviceRead c (a * d.lbaSize) (k * d.lbaSize) buf).run exec w = ((0, buf'), w) ∧
      ∀ j < k, ReadsOne c w (a + j) (buf' j)

section Range

variable (hlba : c.lbaSizeBytes = d.lbaSize) (hmdts : c.mdts = mdts)
  (hend : (a + k) * d.lbaSize < 18446744073709551616) (hsmall : k * d.lbaSize < mdts)
include hlba hmdts hend hsmall

/-- Below `MDTS` a block alone is readable exactly if it has no place, or one on the drive. -/
lemma readsOne_iff_small {j : ℕ} (hj : j < k) {b : B} :
    ReadsOne c w (a + j) b ↔ located c w (a + j) = none ∧ b = 0 ∨
      ∃ x, located c w (a + j) = some x ∧ OnDrive d x ∧ w.media.blockAt x = b := by
  have hblock : d.lbaSize < mdts :=
    Nat.lt_of_le_of_lt (Nat.le_mul_of_pos_left _ (Nat.zero_lt_of_lt hj)) hsmall
  have hlast : (a + j + 1) * d.lbaSize ≤ (a + k) * d.lbaSize :=
    Nat.mul_le_mul_right _ (by omega)
  rw [readsOne_iff hlba hmdts (Nat.lt_of_le_of_lt hlast hend) (Nat.lt_trans hblock (by decide))]
  simp only [Nat.le_of_lt hblock, true_and]

/-- All blocks have a place. -/
lemma readsAsPieces_mapped (hon : ∀ j < k, ∃ x, located c w (a + j) = some x ∧ OnDrive d x) :
    ReadsAsPieces c w a k := by
  intro buf
  obtain ⟨buf', hbuf', hrun⟩ := readLoop_prefix hlba hmdts hend hsmall buf k (Nat.le_refl k) hon
  refine ⟨buf', ?_, fun j hj => ?_⟩
  · rw [znsUdeviceRead_eq hlba hend (Nat.lt_trans hsmall (by decide)), hrun, Nat.sub_self]
    rfl
  · obtain ⟨x, hx, hxon⟩ := hon j hj
    exact (readsOne_iff_small hlba hmdts hend hsmall hj).mpr
      (Or.inr ⟨x, hx, hxon, (hbuf' j hj x hx).symm⟩)

/-- Some block has none: the buffer is zeroed. -/
lemma run_read_zeroed (hon : ∀ j < k, ∀ x, located c w (a + j) = some x → OnDrive d x)
    (hnone : ∃ j < k, located c w (a + j) = none) (buf : Buffer B) :
    ∃ buf' : Buffer B, (∀ j < k, buf' (j : ℕ) = 0) ∧
      (znsUdeviceRead c (a * d.lbaSize) (k * d.lbaSize) buf).run exec w = ((0, buf'), w) := by
  classical
  obtain ⟨hlt, hfirst⟩ := Nat.find_spec hnone
  have hbefore : ∀ i < Nat.find hnone, ∃ x, located c w (a + i) = some x ∧ OnDrive d x := by
    intro i hi
    have hsome : located c w (a + i) ≠ none := fun h =>
      Nat.find_min hnone hi ⟨by omega, h⟩
    obtain ⟨x, hx⟩ := Option.ne_none_iff_exists'.mp hsome
    exact ⟨x, hx, hon i (by omega) x hx⟩
  obtain ⟨buf', -, hrun⟩ := readLoop_prefix hlba hmdts hend hsmall buf _ (Nat.le_of_lt hlt) hbefore
  refine ⟨buf'.zeroed k, fun j hj => ?_, ?_⟩
  · rw [Buffer.zeroed, if_pos (by omega)]
  · rw [znsUdeviceRead_eq hlba hend (Nat.lt_trans hsmall (by decide)), hrun]
    exact readLoop_unmapped hlba hlt hfirst _ buf'

/-- **The blocks of one request.** -/
lemma readsAsPieces_iff_located :
    ReadsAsPieces c w a k ↔
      (∀ j < k, ∀ x, located c w (a + j) = some x → OnDrive d x) ∧
        ((∀ j < k, located c w (a + j) ≠ none) ∨
          ∀ j < k, ∀ x, located c w (a + j) = some x → w.media.blockAt x = 0) := by
  constructor
  · intro h
    obtain ⟨buf', hrun, hone⟩ := h fun _ => 0
    have hread : ∀ j < k, ∀ x, located c w (a + j) = some x →
        OnDrive d x ∧ w.media.blockAt x = buf' j := by
      intro j hj x hx
      rcases (readsOne_iff_small hlba hmdts hend hsmall hj).mp (hone j hj) with ⟨hno, -⟩ | hy
      · rw [hx] at hno
        cases hno
      · obtain ⟨y, hy, hon, hb⟩ := hy
        obtain rfl := Option.some.inj (hx.symm.trans hy)
        exact ⟨hon, hb⟩
    refine ⟨fun j hj x hx => (hread j hj x hx).1, ?_⟩
    by_cases hall : ∀ j < k, located c w (a + j) ≠ none
    · exact Or.inl hall
    · simp only [not_forall, ne_eq, not_not] at hall
      obtain ⟨j, hj, hnone⟩ := hall
      obtain ⟨buf₀, hzero, hrun₀⟩ := run_read_zeroed hlba hmdts hend hsmall
        (fun j hj x hx => (hread j hj x hx).1) ⟨j, hj, hnone⟩ fun _ => 0
      rw [hrun₀] at hrun
      have hbuf : buf₀ = buf' := (Prod.mk.inj (Prod.mk.inj hrun).1).2
      refine Or.inr fun j hj x hx => ?_
      rw [(hread j hj x hx).2, ← hbuf]
      exact hzero j hj
  · rintro ⟨hon, hmapped | hzero⟩
    · refine readsAsPieces_mapped hlba hmdts hend hsmall fun j hj => ?_
      obtain ⟨x, hx⟩ := Option.ne_none_iff_exists'.mp (hmapped j hj)
      exact ⟨x, hx, hon j hj x hx⟩
    · by_cases hall : ∀ j < k, located c w (a + j) ≠ none
      · refine readsAsPieces_mapped hlba hmdts hend hsmall fun j hj => ?_
        obtain ⟨x, hx⟩ := Option.ne_none_iff_exists'.mp (hall j hj)
        exact ⟨x, hx, hon j hj x hx⟩
      · simp only [not_forall, ne_eq, not_not] at hall
        obtain ⟨j, hj, hnone⟩ := hall
        intro buf
        obtain ⟨buf', hzero', hrun⟩ := run_read_zeroed hlba hmdts hend hsmall hon ⟨j, hj, hnone⟩ buf
        refine ⟨buf', hrun, fun j hj => (readsOne_iff_small hlba hmdts hend hsmall hj).mpr ?_⟩
        rw [hzero' j hj]
        cases hloc : located c w (a + j) with
        | none => exact Or.inl ⟨rfl, rfl⟩
        | some x => exact Or.inr ⟨x, rfl, hon j hj x hloc, hzero j hj x hloc⟩

end Range

/-- **When a read is the concatenation of its one-block reads.**  In every reachable state, for
every aligned range inside the capacity and below `MDTS`: all its blocks have a place, or those that
have one hold zeros (and places are blocks of the drive). -/
theorem readsAsPieces_iff {d : Drive B} {p : InitParams} {c : Config} {w : World d}
    (h : Reachable d p c w) {a k : ℕ} (hsmall : k * d.lbaSize < mdts)
    (hcap : (a + k) * d.lbaSize ≤ c.capacityBytes) :
    ReadsAsPieces c w a k ↔
      (∀ j < k, ∀ x, located c w (a + j) = some x → OnDrive d x) ∧
        ((∀ j < k, located c w (a + j) ≠ none) ∨
          ∀ j < k, ∀ x, located c w (a + j) = some x → w.media.blockAt x = 0) := by
  rcases Nat.eq_zero_or_pos k with rfl | hk
  · refine iff_of_true (fun buf => ⟨buf, ?_, fun j hj => absurd hj (Nat.not_lt_zero j)⟩)
      ⟨fun j hj => absurd hj (Nat.not_lt_zero j), Or.inl fun j hj => absurd hj (Nat.not_lt_zero j)⟩
    rw [znsUdeviceRead, Nat.zero_mul, Nat.zero_mod, if_neg (by simp), Nat.zero_div]
    rfl
  · exact readsAsPieces_iff_located (h.lbaSizeBytes_eq hk (Nat.lt_trans hsmall (by decide)))
      h.mdts_eq (Nat.lt_of_le_of_lt hcap h.capacityBytes_lt) hsmall

/-- Block `4` of the small drive has been written: it can be read with nothing else. -/
theorem readsAsPieces_iff_written :
    let w := ((znsUdeviceWrite smallDrive.config [] (4 * 4096) 4096 fun _ => 7).run exec
      (fresh smallDrive)).2
    ReadsAsPieces smallDrive.config w 4 1 ∧ ¬ ReadsAsPieces smallDrive.config w 4 2 := by
  intro w
  have h₀ : Reachable smallDrive.drive (smallDrive.params true) smallDrive.config
      (fresh smallDrive) := .init _ (run_init_fresh (Media.empty _))
  have h := h₀.write [] (4 * 4096) 4096 fun _ => 7
  have hplace : located smallDrive.config w (4 + 0) = some 0 := by decide +kernel
  have hnone : located smallDrive.config w (4 + 1) = none := by decide +kernel
  constructor
  · refine (readsAsPieces_iff h (by decide) (by decide)).mpr ⟨fun j hj x hx => ?_, Or.inl ?_⟩
    · obtain rfl := Nat.lt_one_iff.mp hj
      rw [← Option.some.inj (hplace.symm.trans hx)]
      decide
    · intro j hj
      obtain rfl := Nat.lt_one_iff.mp hj
      rw [show located smallDrive.config _ (4 + 0) = _ from hplace]
      exact Option.some_ne_none 0
  · intro hpieces
    rcases ((readsAsPieces_iff h (by decide) (by decide)).mp hpieces).2 with hall | hzero
    · exact hall 1 (by decide) hnone
    · exact absurd (hzero 0 (by decide) 0 hplace) (by decide +kernel)

/-- **The failing read**: of blocks `4` and `5` only the first has been written.  Both read as zeros
together; alone block `4` reads as written. -/
theorem written_block_reads_zero :
    let w := ((znsUdeviceWrite smallDrive.config [] (4 * 4096) 4096 fun _ => 7).run exec
      (fresh smallDrive)).2
    let both := (znsUdeviceRead smallDrive.config (4 * 4096) (2 * 4096) fun _ => 1).run exec w
    let alone := (znsUdeviceRead smallDrive.config (4 * 4096) 4096 fun _ => 1).run exec w
    (both.1.1 = 0 ∧ both.1.2 0 = 0 ∧ alone.1.1 = 0 ∧ alone.1.2 0 = 7) ∧
      Reachable smallDrive.drive (smallDrive.params true) smallDrive.config w ∧
      ¬ ReadsAsPieces smallDrive.config w 4 2 := by
  intro w both alone
  have h₀ : Reachable smallDrive.drive (smallDrive.params true) smallDrive.config
      (fresh smallDrive) := .init _ (run_init_fresh (Media.empty _))
  have hseen : both.1.2 0 = 0 ∧ alone.1.2 0 = 7 := by decide +kernel
  refine ⟨by decide +kernel, h₀.write [] (4 * 4096) 4096 fun _ => 7, fun hpieces => ?_⟩
  obtain ⟨buf', hrun, hone⟩ := hpieces fun _ => 1
  have hboth : both = ((0, buf'), w) := hrun
  have halone : alone = ((0, _), w) := hone 0 (by decide) fun _ => 1
  rw [hboth, halone] at hseen
  dsimp only at hseen
  rw [Buffer.store_single, if_pos rfl] at hseen
  exact absurd (hseen.1.symm.trans hseen.2) (by decide)

end StoSys
