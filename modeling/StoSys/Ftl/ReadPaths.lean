import StoSys.Ftl.Merge
import StoSys.Ftl.Runs

/-!
# Reading a range

`zns_udevice_read` takes its blocks one after the other.  `located` is the device block it looks for
a block in.  When a block has none, the whole buffer is zeroed and the call is over, whatever the
other blocks are.  Otherwise a request below `MDTS` issues one command for the block, and a larger
one a whole `io_with_mdts` of the length of the request.

All of this is about one call in one state: any drive, any maps.
-/

namespace StoSys

open Effect HashMap Zoned CInt

variable {B : Type} {d : Drive B} {c : Config} {w : World d}

/-- The device block the read loop asks for when it reads block `q`. -/
def located (c : Config) (w : World d) (q : ℕ) : Option ℕ :=
  (translate c w.ftl (q * d.lbaSize)).map (· % 2 ^ 63)

/-- A block of the drive. -/
def OnDrive (d : Drive B) (x : ℕ) : Prop := x < d.nrZones * d.zoneSize

instance (d : Drive B) (x : ℕ) : Decidable (OnDrive d x) := inferInstanceAs (Decidable (_ < _))

/-- `memset(buffer, 0, size)`, for `k` blocks. -/
def Buffer.zeroed [Zero B] (buf : Buffer B) (k : ℕ) : Buffer B :=
  fun j => if 0 ≤ j ∧ j < k then 0 else buf j

lemma Buffer.zeroed_one [Zero B] (buf : Buffer B) : buf.zeroed 1 = buf.store 0 [0] := by
  funext j
  rw [Buffer.store_single, Buffer.zeroed]
  by_cases hj : j = 0
  · rw [if_pos hj, if_pos (by omega)]
  · rw [if_neg hj, if_neg (by omega)]

/-- A command for one block. -/
lemma run_nvmeRead_block (hlba : d.lbaSize < 4294967296) (x : ℕ) (off : ℤ) :
    (nvmeRead x 0 d.lbaSize off : Prog B _).run exec w
      = if OnDrive d x then ((0, [w.media.blockAt x]), w) else ((commandError, []), w) := by
  have hread : w.media.read x 1 = if OnDrive d x then some [w.media.blockAt x] else none := by
    have hsame : x / d.zoneSize = (x + 1 - 1) / d.zoneSize := by rw [Nat.add_sub_cancel]
    rw [Media.read]
    by_cases hx : OnDrive d x
    · rw [if_pos ⟨hx, Or.inr hsame⟩, if_pos hx]
      rfl
    · rw [if_neg fun h => hx h.1, if_neg hx]
  have h16 : toU16 0 = 0 := rfl
  rw [nvmeRead, Program.run_perform, toU32_of_lt hlba, h16]
  simp only [exec, Nat.zero_add, Nat.one_mul, if_true, hread]
  by_cases hx : OnDrive d x
  · simp only [if_pos hx]
  · simp only [if_neg hx]

section Paths

variable [Zero B] {a k : ℕ} (hlba : c.lbaSizeBytes = d.lbaSize) (hmdts : c.mdts = mdts)
  (hend : (a + k) * d.lbaSize < 18446744073709551616) (hsize : k * d.lbaSize < 4294967296)

include hlba hend hsize in
/-- The call runs the loop over its blocks. -/
lemma znsUdeviceRead_eq (buf : Buffer B) :
    znsUdeviceRead c (a * d.lbaSize) (k * d.lbaSize) buf
      = readLoop c (k * d.lbaSize) ((a + k) * d.lbaSize) k (a * d.lbaSize) 0 buf := by
  have h32 : toU32 ((k : ℤ) * toI32 (d.lbaSize : ℤ)) = k * d.lbaSize := by
    have hmod : toI32 (d.lbaSize : ℤ) % 4294967296 = (d.lbaSize : ℤ) % 4294967296 := by
      unfold toI32
      split <;> omega
    have hmul := Int.mul_emod (k : ℤ) (toI32 (d.lbaSize : ℤ)) 4294967296
    rw [hmod, ← Int.mul_emod] at hmul
    rw [toU32, hmul]
    exact_mod_cast toU32_of_lt hsize
  have hbound : toU64 (((a * d.lbaSize : ℕ) : ℤ) + ((k * d.lbaSize : ℕ) : ℤ))
      = (a + k) * d.lbaSize := by
    rw [← Nat.cast_add, ← Nat.add_mul]
    exact toU64_of_lt hend
  rw [znsUdeviceRead, hlba, Nat.mul_mod_left, if_neg (by simp),
    Nat.mul_div_cancel _ d.lbaSize_pos]
  dsimp only
  rw [h32, hbound]

omit [Zero B] in
/-- The loop is not over before block `k`. -/
lemma next_lt (d : Drive B) {j : ℕ} (hj : j < k) : (a + j) * d.lbaSize < (a + k) * d.lbaSize :=
  Nat.mul_lt_mul_of_pos_right (by omega) d.lbaSize_pos

omit [Zero B] in
include hend hsize in
/-- `i += lba_size_bytes` and `n_bytes_read += lba_size_bytes` go on to the next block. -/
lemma next_block {j : ℕ} (hj : j < k) :
    toU64 (((a + j) * d.lbaSize : ℕ) + (d.lbaSize : ℤ)) = (a + (j + 1)) * d.lbaSize ∧
      toU32 ((j * d.lbaSize : ℕ) + (d.lbaSize : ℤ)) = (j + 1) * d.lbaSize := by
  have hnext : (a + (j + 1)) * d.lbaSize ≤ (a + k) * d.lbaSize :=
    Nat.mul_le_mul_right _ (by omega)
  have hread : (j + 1) * d.lbaSize ≤ k * d.lbaSize := Nat.mul_le_mul_right _ hj
  constructor
  · rw [← Nat.cast_add, ← Nat.succ_mul]
    exact toU64_of_lt (Nat.lt_of_le_of_lt hnext hend)
  · rw [← Nat.cast_add, ← Nat.succ_mul]
    exact toU32_of_lt (Nat.lt_of_le_of_lt hread hsize)

include hlba in
/-- A block that has no place ends the call. -/
lemma readLoop_unmapped {j : ℕ} (hj : j < k) (h : located c w (a + j) = none) (n : ℕ)
    (buf : Buffer B) :
    (readLoop c (k * d.lbaSize) ((a + k) * d.lbaSize) (k - j) ((a + j) * d.lbaSize) n buf).run exec w
      = ((0, buf.zeroed k), w) := by
  obtain ⟨fuel, hfuel⟩ : ∃ fuel, k - j = fuel + 1 := ⟨k - j - 1, by omega⟩
  have hlt := next_lt (a := a) d hj
  have hnone : translate c w.ftl ((a + j) * d.lbaSize) = none := Option.map_eq_none_iff.mp h
  rw [hfuel, readLoop, if_pos hlt]
  simp only [Program.run_bind, run_getFtl, hnone, Program.run_pure, hlba,
    Nat.mul_div_cancel _ d.lbaSize_pos]
  rfl

/-! ## Below `MDTS` -/

include hlba hmdts hend in
/-- Below `MDTS` the next block is one command. -/
lemma readLoop_small (hsmall : k * d.lbaSize < mdts) {j x : ℕ} (hj : j < k)
    (h : located c w (a + j) = some x) (buf : Buffer B) :
    (readLoop c (k * d.lbaSize) ((a + k) * d.lbaSize) (k - j) ((a + j) * d.lbaSize)
        (j * d.lbaSize) buf).run exec w
      = if OnDrive d x then
          (readLoop c (k * d.lbaSize) ((a + k) * d.lbaSize) (k - (j + 1))
            ((a + (j + 1)) * d.lbaSize) ((j + 1) * d.lbaSize)
            (buf.store j [w.media.blockAt x])).run exec w
        else ((commandError, buf), w) := by
  have hpos := d.lbaSize_pos
  obtain ⟨fuel, hfuel⟩ : ∃ fuel, k - j = fuel + 1 := ⟨k - j - 1, by omega⟩
  have hrest : k - (j + 1) = fuel := by omega
  have hlt := next_lt (a := a) d hj
  obtain ⟨hi, hn⟩ := next_block hend (Nat.lt_trans hsmall (by decide)) hj
  have hblock : d.lbaSize < mdts :=
    Nat.lt_of_le_of_lt (Nat.le_mul_of_pos_left _ (Nat.zero_lt_of_lt hj)) hsmall
  have h32 : toI32 (d.lbaSize : ℤ) = (d.lbaSize : ℕ) :=
    toI32_of_lt (Nat.lt_trans hblock (by decide))
  obtain ⟨entry, hentry, rfl⟩ := Option.map_eq_some_iff.mp h
  rw [hfuel, hrest, readLoop, if_pos hlt]
  simp only [Program.run_bind, run_getFtl, hentry, hmdts, if_pos hsmall, hlba, h32,
    run_nvmeRead_block (d := d) (Nat.lt_trans hblock (by decide)), hi, hn, Nat.mul_div_cancel _ hpos]
  by_cases hx : OnDrive d (entry % 2 ^ 63)
  · simp only [if_pos hx, ne_eq, not_true_eq_false, if_false]
  · simp only [if_neg hx, Buffer.store_nil]
    rfl

include hlba hmdts hend in
/-- Blocks that are on the drive are read one after the other. -/
lemma readLoop_prefix (hsmall : k * d.lbaSize < mdts) (buf : Buffer B) : ∀ j : ℕ, j ≤ k →
    (∀ i < j, ∃ x, located c w (a + i) = some x ∧ OnDrive d x) →
    ∃ buf' : Buffer B, (∀ i < j, ∀ x, located c w (a + i) = some x → buf' i = w.media.blockAt x) ∧
      (readLoop c (k * d.lbaSize) ((a + k) * d.lbaSize) k (a * d.lbaSize) 0 buf).run exec w
        = (readLoop c (k * d.lbaSize) ((a + k) * d.lbaSize) (k - j) ((a + j) * d.lbaSize)
            (j * d.lbaSize) buf').run exec w
  | 0, _, _ => by
      refine ⟨buf, fun i hi => absurd hi (Nat.not_lt_zero i), ?_⟩
      rw [Nat.zero_mul]
      rfl
  | j + 1, hj, h => by
      obtain ⟨x, hx, hon⟩ := h j (Nat.lt_succ_self j)
      obtain ⟨buf', hbuf', hrun⟩ := readLoop_prefix hsmall buf j (by omega) fun i hi => h i (by omega)
      refine ⟨buf'.store j [w.media.blockAt x], fun i hi y hy => ?_, ?_⟩
      · rw [Buffer.store_single]
        by_cases hij : i = j
        · subst hij
          rw [if_pos rfl, Option.some.inj (hx.symm.trans hy)]
        · rw [if_neg (by omega)]
          exact hbuf' i (by omega) y hy
      · rw [hrun, readLoop_small hlba hmdts hend hsmall hj hx, if_pos hon]

/-! ## From `MDTS` on -/

omit [Zero B] in
include hlba in
/-- A block of `MDTS` bytes is one command; a larger one cannot be read at all, as the command asks
for less than a block. -/
lemma run_ioWithMdts_one (hlarge : mdts ≤ d.lbaSize) (hlt : d.lbaSize < 4294967296) (x : ℕ)
    (buf : Buffer B) :
    (ioWithMdts c x 0 d.lbaSize true buf).run exec w
      = if d.lbaSize = mdts ∧ OnDrive d x then ((0, buf.store 0 [w.media.blockAt x]), w)
        else ((commandError, buf), w) := by
  have hmd : mdts = 262144 := rfl
  have hpos := d.lbaSize_pos
  rw [ioWithMdts, ioLoop, if_pos hpos]
  by_cases heq : d.lbaSize = mdts
  · have h64 : toU64 (((1 : ℕ) : ℤ) - 1) = 0 := rfl
    have hfuel : mdts / mdts = 1 := by decide
    have hnone : ¬ mdts < mdts := Nat.lt_irrefl _
    have hrun := run_nvmeRead_block (w := w) hlt x 0
    rw [heq] at hrun
    simp only [heq, hlba, if_neg hnone, hfuel, Nat.mod_self, if_true, h64, Nat.cast_zero,
      Int.add_zero, Int.zero_ediv, Program.run_bind, hrun, true_and]
    by_cases hx : OnDrive d x
    · simp only [if_pos hx, ne_eq, not_true_eq_false, if_false, ioLoop, Nat.sub_self,
        Nat.lt_irrefl, Program.run_pure]
    · simp only [if_neg hx, Buffer.store_nil]
      rfl
  · have hmore : mdts < d.lbaSize := by omega
    have h64 : toU64 (0 - 0) = 0 := rfl
    have h32 : toU32 (mdts : ℤ) = mdts := by decide
    have h16 : toU16 0 = 0 := rfl
    have hrun : (nvmeRead x 0 mdts 0 : Prog B _).run exec w = ((commandError, []), w) := by
      rw [nvmeRead, Program.run_perform, h32, h16]
      simp only [exec, Nat.zero_add, Nat.one_mul, if_neg (Ne.symm heq)]
    simp only [hlba, if_pos hmore, Nat.div_eq_of_lt hmore, Nat.mod_eq_of_lt hmore,
      show mdts ≠ 0 by decide, if_false, if_true, h64, Nat.cast_zero, Int.add_zero, Int.zero_ediv,
      Program.run_bind, hrun, if_neg fun h : d.lbaSize = mdts ∧ OnDrive d x => heq h.1,
      Buffer.store_nil]
    rfl

end Paths

/-! ## One block -/

section One

variable [Zero B] {q : ℕ}

/-- A read of block `q` alone succeeds, and gives `b`. -/
def ReadsOne (c : Config) (w : World d) (q : ℕ) (b : B) : Prop :=
  ∀ buf : Buffer B, (znsUdeviceRead c (q * d.lbaSize) d.lbaSize buf).run exec w
    = ((0, buf.store 0 [b]), w)

variable (hlba : c.lbaSizeBytes = d.lbaSize) (hmdts : c.mdts = mdts)
  (hend : (q + 1) * d.lbaSize < 18446744073709551616) (hlt : d.lbaSize < 4294967296)
include hlba hmdts hend hlt

/-- **A one-block read.** -/
lemma run_read_one (buf : Buffer B) :
    (znsUdeviceRead c (q * d.lbaSize) d.lbaSize buf).run exec w
      = match located c w q with
        | none => ((0, buf.store 0 [0]), w)
        | some x =>
            if d.lbaSize ≤ mdts ∧ OnDrive d x then ((0, buf.store 0 [w.media.blockAt x]), w)
            else ((commandError, buf), w) := by
  have hone := Nat.one_mul d.lbaSize
  have hcall := znsUdeviceRead_eq (a := q) (k := 1) hlba hend (by rwa [hone]) buf
  rw [hone] at hcall
  rw [hcall]
  cases hloc : located c w q with
  | none =>
      have hrun := readLoop_unmapped (k := 1) (j := 0) hlba Nat.one_pos hloc 0 buf
      rw [hone, Buffer.zeroed_one] at hrun
      exact hrun
  | some x =>
      rcases Nat.lt_or_ge d.lbaSize mdts with hsmall | hlarge
      · have hrun := readLoop_small (k := 1) (j := 0) hlba hmdts hend (by rwa [hone]) Nat.one_pos
          hloc buf
        rw [hone, Nat.zero_mul] at hrun
        refine hrun.trans ?_
        dsimp only
        by_cases hx : OnDrive d x
        · rw [if_pos hx, if_pos ⟨Nat.le_of_lt hsmall, hx⟩]
          rfl
        · rw [if_neg hx, if_neg fun h => hx h.2]
      · have hbelow : q * d.lbaSize < (q + 1) * d.lbaSize :=
          Nat.mul_lt_mul_of_pos_right (Nat.lt_succ_self q) d.lbaSize_pos
        obtain ⟨entry, hentry, rfl⟩ := Option.map_eq_some_iff.mp hloc
        have hiff : d.lbaSize = mdts ∧ OnDrive d (entry % 2 ^ 63) ↔
            d.lbaSize ≤ mdts ∧ OnDrive d (entry % 2 ^ 63) :=
          and_congr_left fun _ => ⟨Nat.le_of_eq, fun hle => Nat.le_antisymm hle hlarge⟩
        rw [readLoop, if_pos hbelow]
        simp only [Program.run_bind, run_getFtl, hentry, hmdts, if_neg (Nat.not_lt.mpr hlarge),
          Nat.cast_zero, run_ioWithMdts_one hlba hlarge hlt, hiff]
        by_cases hx : d.lbaSize ≤ mdts ∧ OnDrive d (entry % 2 ^ 63)
        · simp only [if_pos hx, ne_eq, not_true_eq_false, if_false, readLoop, Program.run_pure]
        · simp only [if_neg hx]
          rfl

/-- What it takes: the block has no place and `b` is zero, or it has one that can be read. -/
lemma readsOne_iff {b : B} :
    ReadsOne c w q b ↔ located c w q = none ∧ b = 0 ∨
      ∃ x, located c w q = some x ∧ d.lbaSize ≤ mdts ∧ OnDrive d x ∧ w.media.blockAt x = b := by
  have hstore : ∀ {buf : Buffer B} {b b' : B}, buf.store 0 [b] = buf.store 0 [b'] → b = b' := by
    intro buf b b' h
    have h0 := congrFun h 0
    rwa [Buffer.store_single, Buffer.store_single, if_pos rfl, if_pos rfl] at h0
  unfold ReadsOne
  simp only [run_read_one hlba hmdts hend hlt]
  cases located c w q with
  | none =>
      constructor
      · intro h
        exact Or.inl ⟨rfl, (hstore (Prod.mk.inj (Prod.mk.inj (h fun _ => 0)).1).2).symm⟩
      · rintro (⟨-, rfl⟩ | ⟨x, hx, -⟩) buf
        · rfl
        · cases hx
  | some x =>
      dsimp only
      constructor
      · intro h
        have hrun := h fun _ => 0
        by_cases hx : d.lbaSize ≤ mdts ∧ OnDrive d x
        · rw [if_pos hx] at hrun
          exact Or.inr ⟨x, rfl, hx.1, hx.2, hstore (Prod.mk.inj (Prod.mk.inj hrun).1).2⟩
        · rw [if_neg hx] at hrun
          exact absurd (Prod.mk.inj (Prod.mk.inj hrun).1).1 (by decide)
      · rintro (⟨hno, -⟩ | ⟨y, hy, hle, hon, rfl⟩) buf
        · cases hno
        · obtain rfl := Option.some.inj hy
          rw [if_pos ⟨hle, hon⟩]

end One

end StoSys
