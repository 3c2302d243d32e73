import StoSys.Ftl.ReadPaths
import StoSys.Properties.Watermark

/-!
# Reads of `MDTS` bytes and more

The loop of a large read still goes from block to block, but for each block it transfers as many
bytes as the whole request has.  Already the transfer for the first block reads on past its place,
through device blocks that need not belong to the request, and each later one ends one block further
behind the end of the buffer.

So with two blocks or more such a read can only be right when it never gets to a transfer.
-/

namespace StoSys

open Effect HashMap Zoned CInt

variable {B : Type} {d : Drive B} {p : InitParams} {c : Config} {w : World d} {a k : ℕ}

/-- An operation that a read of `k` blocks from block `a` on has reason to perform: a look at the
maps, or a read of device blocks of the request to a place inside the buffer. -/
def InRequest (c : Config) (w : World d) (a k : ℕ) : Op B → Prop
  | .get => True
  | .nvmeRead slba nlb dataLen off =>
      0 ≤ off ∧ off + dataLen ≤ (k * d.lbaSize : ℕ) ∧
        ∀ y, slba ≤ y → y ≤ slba + nlb → ∃ j < k, located c w (a + j) = some y
  | _ => False

/-- The read succeeds, agrees with the one-block reads, stays inside its buffer, and reads nothing
but blocks of the request. -/
def LargeReadAgrees [Zero B] (c : Config) (w : World d) (a k : ℕ) : Prop :=
  ∀ buf : Buffer B,
    let p := znsUdeviceRead c (a * d.lbaSize) (k * d.lbaSize) buf
    ∃ buf' : Buffer B, p.run exec w = ((0, buf'), w) ∧
      (∀ j < k, ReadsOne c w (a + j) (buf' j)) ∧
      (∀ i : ℤ, i < 0 ∨ k ≤ i → buf' i = buf i) ∧
      ∀ o ∈ p.issued exec w, InRequest c w a k o

/-! ## What a transfer covers -/

/-- A read command succeeds only if its length is that of its block count. -/
lemma nvmeRead_length {slba : ℕ} {nlb len off : ℤ}
    (h : ((nvmeRead slba nlb len off : Prog B _).run exec w).1.1 = 0) :
    toU32 len = (toU16 nlb + 1) * d.lbaSize := by
  by_contra hne
  rw [nvmeRead, Program.run_perform] at h
  simp only [exec, if_neg hne] at h
  exact absurd h (by decide)

/-- Some command of the list reads device block `x`. -/
def Covers (ops : List (Op B)) (x : ℕ) : Prop :=
  ∃ slba nlb len off, Op.nvmeRead slba nlb len off ∈ ops ∧ slba ≤ x ∧ x ≤ slba + nlb

/-- Some command of the list stores up to byte `e` of the buffer. -/
def EndsAt (ops : List (Op B)) (e : ℤ) : Prop :=
  ∃ slba nlb len off, Op.nvmeRead slba nlb len off ∈ ops ∧ off + len = e

/-- **A command that succeeds** has the length of its block count, which is not cut off. -/
lemma nvmeRead_chunk (hlba : c.lbaSizeBytes = d.lbaSize) {s n wp : ℕ} {off : ℤ} (hs : s ≤ mdts)
    (hn : toU64 ((s / c.lbaSizeBytes : ℕ) - (if s % c.lbaSizeBytes = 0 then 1 else 0)) = n)
    (hcode : ((nvmeRead wp n s off : Prog B _).run exec w).1.1 = 0) :
    s = (n + 1) * d.lbaSize ∧ toU16 (n : ℤ) = n := by
  have hpos := d.lbaSize_pos
  have hmd : mdts = 262144 := rfl
  have hlen := nvmeRead_length hcode
  rw [toU32_of_lt (by omega)] at hlen
  obtain ⟨m, hm⟩ : ∃ m, toU16 (n : ℤ) = m := ⟨_, rfl⟩
  rw [hm] at hlen
  have hdiv : s / d.lbaSize = m + 1 := by rw [hlen, Nat.mul_div_cancel _ hpos]
  have hms : m + 1 ≤ s := by
    rw [hlen]
    exact Nat.le_mul_of_pos_right _ hpos
  have hnm : n = m := by
    rw [← hn, hlba, hdiv, hlen, Nat.mul_mod_left, if_pos rfl]
    unfold toU64
    omega
  exact ⟨hnm ▸ hlen, hm.trans hnm.symm⟩

/-- **A transfer that succeeds covers its length**, on the device and in the buffer. -/
lemma ioLoop_read_covers (hlba : c.lbaSizeBytes = d.lbaSize) (base : ℤ) :
    ∀ (fuel size ptr wp : ℕ) (buf : Buffer B), size ≤ fuel * mdts → 0 < size →
      wp + size < 18446744073709551616 →
      ((ioLoop c base true fuel size ptr wp buf).run exec w).1.1 = 0 →
      let ops := (ioLoop c base true fuel size ptr wp buf).issued exec w
      (∀ x, wp ≤ x → x < wp + size / d.lbaSize → Covers ops x) ∧ EndsAt ops (base + ptr + size)
  | 0, size, ptr, wp, buf, hfuel, hsize, _, _ => by omega
  | fuel + 1, size, ptr, wp, buf, hfuel, hsize, hwp, hrun => by
      have hpos := d.lbaSize_pos
      have hmd : mdts = 262144 := rfl
      obtain ⟨s, hs⟩ : ∃ s, (if mdts < size then mdts else size) = s := ⟨_, rfl⟩
      have hs0 : 0 < s ∧ s ≤ mdts ∧ s ≤ size ∧ (s < size → s = mdts) := by
        rw [← hs]
        split_ifs <;> omega
      obtain ⟨hs0, hsm, hsle, hfull⟩ := hs0
      intro ops
      obtain ⟨n, hn⟩ : ∃ n, toU64 ((s / c.lbaSizeBytes : ℕ)
        - (if s % c.lbaSizeBytes = 0 then 1 else 0)) = n := ⟨_, rfl⟩
      have hops : ops = (ioLoop c base true (fuel + 1) size ptr wp buf).issued exec w := rfl
      rw [ioLoop, if_pos hsize] at hrun hops
      simp only [hs, hn, if_true, Program.run_bind, run_nvmeRead_snd, Program.issued_bind,
        Program.run_ite] at hrun hops
      by_cases hcode : ((nvmeRead wp n s (base + ptr) : Prog B _).run exec w).1.1 = 0
      · obtain ⟨hlen, hm⟩ := nvmeRead_chunk hlba hsm hn hcode
        have hdiv : s / d.lbaSize = n + 1 := by rw [hlen, Nat.mul_div_cancel _ hpos]
        have hns : n + 1 ≤ s := by
          rw [← hdiv]
          exact Nat.div_le_self _ _
        have hwp' : toU64 ((wp : ℤ) + n + 1) = wp + (n + 1) := by
          unfold toU64
          omega
        simp only [hcode, ne_eq, not_true_eq_false, if_false, hwp'] at hrun hops
        have hfirst : Op.nvmeRead wp n s (base + ptr) ∈ ops := by
          rw [hops]
          refine List.mem_append_left _ (List.mem_singleton.mpr ?_)
          rw [hm, toU32_of_lt (by omega)]
        rcases Nat.eq_or_lt_of_le hsle with hlast | hmore
        · subst hlast
          refine ⟨fun x hx hlt => ?_, wp, n, s, base + ptr, hfirst, rfl⟩
          rw [hdiv] at hlt
          exact ⟨wp, n, s, base + ptr, hfirst, hx, by omega⟩
        · have hrest : size - s ≤ fuel * mdts := by
            rw [Nat.succ_mul] at hfuel
            have := hfull hmore
            omega
          obtain ⟨hcover, hend⟩ := ioLoop_read_covers hlba base fuel (size - s) (ptr + s)
            (wp + (n + 1)) _ hrest (by omega) (by omega) hrun
          have hmem : ∀ {o}, o ∈ (ioLoop c base true fuel (size - s) (ptr + s) (wp + (n + 1))
              (buf.store ((base + ptr) / c.lbaSizeBytes)
                ((nvmeRead wp n s (base + ptr) : Prog B _).run exec w).1.2)).issued exec w →
              o ∈ ops := fun ho => by
            rw [hops]
            exact List.mem_append_right _ ho
          have hsize' : size / d.lbaSize = n + 1 + (size - s) / d.lbaSize := by
            have hsplit : size = (size - s) + (n + 1) * d.lbaSize := by omega
            rw [hsplit, Nat.add_mul_div_right _ _ hpos, ← hsplit, Nat.add_comm]
          constructor
          · intro x hx hlt
            rcases Nat.lt_or_ge x (wp + (n + 1)) with hnear | hfar
            · exact ⟨wp, n, s, base + ptr, hfirst, hx, by omega⟩
            · obtain ⟨slba, nlb, len, off, ho, hle, hge⟩ := hcover x hfar (by omega)
              exact ⟨slba, nlb, len, off, hmem ho, hle, hge⟩
          · obtain ⟨slba, nlb, len, off, ho, heq⟩ := hend
            refine ⟨slba, nlb, len, off, hmem ho, heq.trans ?_⟩
            push_cast
            omega
      · rw [if_pos hcode] at hrun
        exact absurd hrun hcode

/-! ## The loop -/

section Loop

variable [Zero B] (hlba : c.lbaSizeBytes = d.lbaSize) (hmdts : c.mdts = mdts)
  (hend : (a + k) * d.lbaSize < 18446744073709551616) (hlarge : mdts ≤ k * d.lbaSize)
  (hsize : k * d.lbaSize < 4294967296)
include hlba hmdts hend hlarge hsize

/-- **One block of a large read**, of several: a transfer of the length of the whole request to the
place of the block in the buffer, then the rest of the loop. -/
lemma readLoop_large (hk : 2 ≤ k) {j x : ℕ} (hj : j < k) (h : located c w (a + j) = some x)
    (buf : Buffer B)
    (hrun : ((readLoop c (k * d.lbaSize) ((a + k) * d.lbaSize) (k - j) ((a + j) * d.lbaSize)
      (j * d.lbaSize) buf).run exec w).1.1 = 0) :
    let ops := (readLoop c (k * d.lbaSize) ((a + k) * d.lbaSize) (k - j) ((a + j) * d.lbaSize)
      (j * d.lbaSize) buf).issued exec w
    (∀ y, x ≤ y → y < x + k → Covers ops y) ∧ EndsAt ops ((j + k) * d.lbaSize : ℕ) ∧
      ∃ buf' : Buffer B,
        let rest := readLoop c (k * d.lbaSize) ((a + k) * d.lbaSize) (k - (j + 1))
          ((a + (j + 1)) * d.lbaSize) ((j + 1) * d.lbaSize) buf'
        (rest.run exec w).1.1 = 0 ∧ ∀ o ∈ rest.issued exec w, o ∈ ops := by
  have hpos := d.lbaSize_pos
  have htwo : 2 * d.lbaSize ≤ k * d.lbaSize := Nat.mul_le_mul_right _ hk
  obtain ⟨fuel, hfuel⟩ : ∃ fuel, k - j = fuel + 1 := ⟨k - j - 1, by omega⟩
  have hrest : k - (j + 1) = fuel := by omega
  have hlt := next_lt (a := a) d hj
  obtain ⟨hi, hn⟩ := next_block hend hsize hj
  have h32 : toI32 (d.lbaSize : ℤ) = (d.lbaSize : ℕ) := toI32_of_lt (by omega)
  obtain ⟨entry, hentry, rfl⟩ := Option.map_eq_some_iff.mp h
  have hentry63 : entry % 2 ^ 63 < 2 ^ 63 := Nat.mod_lt _ (by decide)
  intro ops
  have hops : ops = (readLoop c (k * d.lbaSize) ((a + k) * d.lbaSize) (k - j)
    ((a + j) * d.lbaSize) (j * d.lbaSize) buf).issued exec w := rfl
  rw [hfuel, readLoop, if_pos hlt] at hrun hops
  simp only [Program.run_bind, run_getFtl, hentry, hmdts, if_neg (Nat.not_lt.mpr hlarge), hlba,
    h32, hi, hn, Program.issued_bind, Program.run_ite] at hrun hops
  have hsnd : ((ioWithMdts c (entry % 2 ^ 63) ((j * d.lbaSize : ℕ) : ℤ) (k * d.lbaSize) true
      buf).run exec w).2 = w := run_ioLoop_read_snd _ _ _ _ _ _ _ _
  rw [hsnd] at hrun hops
  by_cases hcode : ((ioWithMdts c (entry % 2 ^ 63) ((j * d.lbaSize : ℕ) : ℤ) (k * d.lbaSize) true
      buf).run exec w).1.1 = 0
  · have henough : k * d.lbaSize ≤ (k * d.lbaSize / mdts + 1) * mdts := by
      rw [Nat.succ_mul]
      exact Nat.le_of_lt (Nat.lt_div_mul_add (show 0 < mdts by decide))
    obtain ⟨hcover, hends⟩ := ioLoop_read_covers hlba _ _ _ _ _ buf henough
      (Nat.lt_of_lt_of_le (by decide) hlarge) (by omega) hcode
    simp only [hcode, ne_eq, not_true_eq_false, if_false] at hrun hops
    have hmem : ∀ {o}, o ∈ (ioWithMdts c (entry % 2 ^ 63) ((j * d.lbaSize : ℕ) : ℤ) (k * d.lbaSize)
        true buf).issued exec w → o ∈ ops := fun ho => by
      rw [hops]
      exact List.mem_append_right _ (List.mem_append_left _ ho)
    refine ⟨fun y hy hlt => ?_, ?_, _, by rw [hrest]; exact hrun, fun o ho => ?_⟩
    · obtain ⟨slba, nlb, len, off, ho, hle, hge⟩ := hcover y hy
        (by rw [Nat.mul_div_cancel _ hpos]; exact hlt)
      exact ⟨slba, nlb, len, off, hmem ho, hle, hge⟩
    · obtain ⟨slba, nlb, len, off, ho, heq⟩ := hends
      refine ⟨slba, nlb, len, off, hmem ho, heq.trans ?_⟩
      push_cast
      ring
    · rw [hrest] at ho
      rw [hops]
      exact List.mem_append_right _ (List.mem_append_right _ ho)
  · rw [if_pos hcode] at hrun
    exact absurd hrun hcode

/-- With two blocks or more, the first of which has a place, a large read goes wrong. -/
lemma not_largeReadAgrees (hk : 2 ≤ k) {x : ℕ} (hx : located c w a = some x) :
    ¬ LargeReadAgrees c w a k := by
  intro h
  obtain ⟨buf', hrun, -, -, hops⟩ := h fun _ => 0
  rw [znsUdeviceRead_eq hlba hend hsize] at hrun hops
  have hcode := congrArg (fun r => r.1.1) hrun
  obtain ⟨hcover, -, buf₁, hcode₁, hops₁⟩ := readLoop_large (a := a) (k := k) (j := 0) hlba hmdts
    hend hlarge hsize hk (by omega) hx _ (by rw [Nat.zero_mul]; exact hcode)
  rw [Nat.zero_mul] at hcover hops₁
  -- every device block of the first transfer is the place of a block of the request
  have hplace : ∀ i : ℕ, ∃ j, i < k → j < k ∧ located c w (a + j) = some (x + i) := by
    intro i
    by_cases hi : i < k
    · obtain ⟨slba, nlb, len, off, ho, hle, hge⟩ := hcover (x + i) (by omega) (by omega)
      obtain ⟨j, hj, hloc⟩ := (hops _ ho).2.2 (x + i) hle hge
      exact ⟨j, fun _ => ⟨hj, hloc⟩⟩
    · exact ⟨0, fun hi' => absurd hi' hi⟩
  choose f hf using hplace
  -- these are as many as the request has blocks, so the second block has a place, too
  have hsecond : ∃ i < k, f i = 1 := by
    by_contra hno
    have hmaps : ∀ i ∈ Finset.range k, f i ∈ (Finset.range k).erase 1 := by
      intro i hi
      have hi := Finset.mem_range.mp hi
      exact Finset.mem_erase.mpr ⟨fun h1 => hno ⟨i, hi, h1⟩, Finset.mem_range.mpr (hf i hi).1⟩
    have hcard : ((Finset.range k).erase 1).card < (Finset.range k).card :=
      Finset.card_erase_lt_of_mem (Finset.mem_range.mpr hk)
    obtain ⟨i, hi, i', hi', hne, heq⟩ := Finset.exists_ne_map_eq_of_card_lt_of_maps_to hcard hmaps
    have h₁ := (hf i (Finset.mem_range.mp hi)).2
    have h₂ := (hf i' (Finset.mem_range.mp hi')).2
    rw [heq, h₂] at h₁
    have := Option.some.inj h₁
    omega
  obtain ⟨i, hi, hfi⟩ := hsecond
  have hloc := (hf i hi).2
  rw [hfi] at hloc
  -- its transfer ends behind the buffer
  obtain ⟨-, ⟨slba, nlb, len, off, ho, heq⟩, -⟩ := readLoop_large (a := a) (k := k) (j := 1) hlba
    hmdts hend hlarge hsize hk (by omega) hloc buf₁ hcode₁
  have hinside := (hops _ (hops₁ _ ho)).2.1
  have hpos := d.lbaSize_pos
  rw [heq, Nat.add_mul, Nat.one_mul] at hinside
  omega

omit hmdts in
/-- Before any transfer the buffer is zeroed. -/
lemma largeReadAgrees_unmapped (hk : 0 < k) (hnone : located c w a = none) :
    LargeReadAgrees c w a k ↔ ∀ j < k, ReadsOne c w (a + j) 0 := by
  have hrun : ∀ buf : Buffer B, (znsUdeviceRead c (a * d.lbaSize) (k * d.lbaSize) buf).run exec w
      = ((0, buf.zeroed k), w) := fun buf => by
    rw [znsUdeviceRead_eq hlba hend hsize]
    exact readLoop_unmapped (j := 0) hlba hk hnone 0 buf
  have hzero : ∀ (buf : Buffer B) {j : ℕ}, j < k → buf.zeroed k j = 0 := fun buf j hj => by
    rw [Buffer.zeroed, if_pos (by omega)]
  constructor
  · intro h j hj
    obtain ⟨buf', hrun', hone, -⟩ := h fun _ => 0
    have hbuf := (Prod.mk.inj (Prod.mk.inj ((hrun _).symm.trans hrun')).1).2
    rw [← hzero (fun _ => 0) hj, hbuf]
    exact hone j hj
  · intro h buf
    refine ⟨buf.zeroed k, hrun buf, fun j hj => ?_, fun i hi => ?_, fun o ho => ?_⟩
    · rw [hzero buf hj]
      exact h j hj
    · rw [Buffer.zeroed, if_neg (by omega)]
    · have hlt : a * d.lbaSize < (a + k) * d.lbaSize :=
        Nat.mul_lt_mul_of_pos_right (by omega) d.lbaSize_pos
      obtain ⟨fuel, rfl⟩ := Nat.exists_eq_succ_of_ne_zero (Nat.ne_of_gt hk)
      have hentry : translate c w.ftl (a * d.lbaSize) = none := Option.map_eq_none_iff.mp hnone
      rw [znsUdeviceRead_eq hlba hend hsize, readLoop, if_pos hlt] at ho
      simp only [Program.issued_bind, run_getFtl, hentry, Program.issued_pure,
        List.append_nil] at ho
      obtain rfl := List.mem_singleton.mp ho
      exact trivial

/-- One block is one command of a large read, if `MDTS` bytes are just one block. -/
lemma largeReadAgrees_one (hk : k = 1) {x : ℕ} (hx : located c w a = some x) :
    LargeReadAgrees c w a k ↔ d.lbaSize = mdts ∧ OnDrive d x := by
  subst hk
  have hone := Nat.one_mul d.lbaSize
  rw [hone] at hlarge hsize
  have hread := fun b => readsOne_iff (w := w) (q := a) (b := b) hlba hmdts hend hsize
  constructor
  · intro h
    obtain ⟨buf', -, halone, -⟩ := h fun _ => 0
    rcases (hread _).mp (halone 0 Nat.one_pos) with ⟨hno, -⟩ | ⟨y, hy, hle, hon, -⟩
    · rw [hx] at hno
      cases hno
    · obtain rfl := Option.some.inj (hx.symm.trans hy)
      exact ⟨Nat.le_antisymm hle hlarge, hon⟩
  · rintro ⟨heq, hon⟩ buf
    have hle := Nat.le_of_eq heq
    have hrun := run_read_one (w := w) (q := a) hlba hmdts hend hsize buf
    rw [hx] at hrun
    dsimp only at hrun
    rw [if_pos ⟨hle, hon⟩] at hrun
    refine ⟨buf.store 0 [w.media.blockAt x], by rw [hone]; exact hrun, fun j hj => ?_,
      fun i hi => ?_, fun o ho => ?_⟩
    · obtain rfl := Nat.lt_one_iff.mp hj
      rw [Nat.cast_zero, Buffer.store_single, if_pos rfl]
      exact (hread _).mpr (Or.inr ⟨x, hx, hle, hon, rfl⟩)
    · rw [Buffer.store_single, if_neg (by omega)]
    · have hlt : a * d.lbaSize < (a + 1) * d.lbaSize :=
        Nat.mul_lt_mul_of_pos_right (Nat.lt_succ_self a) d.lbaSize_pos
      have hcall := znsUdeviceRead_eq (a := a) (k := 1) hlba hend (by rwa [hone]) buf
      obtain ⟨entry, hentry, rfl⟩ := Option.map_eq_some_iff.mp hx
      have h64 : toU64 (((1 : ℕ) : ℤ) - 1) = 0 := rfl
      have hmd : 0 < mdts := by decide
      have h32 : toU32 (mdts : ℤ) = mdts := by decide
      have hcode : ((nvmeRead (entry % 2 ^ 63) 0 mdts 0 : Prog B _).run exec w).1.1 = 0 := by
        have hblock := run_nvmeRead_block (w := w) hsize (entry % 2 ^ 63) 0
        rw [heq, if_pos hon] at hblock
        rw [hblock]
      rw [hcall, hone, readLoop, if_pos hlt] at ho
      rw [heq] at hentry
      simp only [Program.issued_bind, run_getFtl, hentry, hmdts, heq, hlba, Nat.lt_irrefl,
        if_false, ioWithMdts, ioLoop, readLoop, hmd, if_true, Nat.mod_self, Nat.div_self hmd, h64,
        Nat.cast_zero, Int.add_zero, hcode, ne_eq, not_true_eq_false, Nat.sub_self,
        Program.issued_pure, Program.run_bind, Program.run_pure, List.append_nil,
        List.mem_append] at ho
      rcases ho with ho | ho
      · obtain rfl := List.mem_singleton.mp ho
        exact trivial
      · obtain rfl := List.mem_singleton.mp ho
        refine ⟨Int.le_refl 0, ?_, fun y hy hy' => ⟨0, Nat.one_pos, ?_⟩⟩
        · rw [h32, hone, heq, Int.zero_add]
        · have hzero : toU16 0 = 0 := rfl
          rw [hzero] at hy'
          obtain rfl : y = entry % 2 ^ 63 := by omega
          exact hx

end Loop

/-- **When a large read agrees with the one-block reads.**  In every reachable state, for every
aligned range of `MDTS` bytes or more inside the capacity: its first block has no place, and no
block of it holds anything but zeros; or it is a single block of `MDTS` bytes on the drive. -/
theorem largeReadAgrees_iff [Zero B] {d : Drive B} {p : InitParams} {c : Config} {w : World d}
    (h : Reachable d p c w) {a k : ℕ} (hlarge : mdts ≤ k * d.lbaSize)
    (hsize : k * d.lbaSize < 4294967296) (hcap : (a + k) * d.lbaSize ≤ c.capacityBytes) :
    LargeReadAgrees c w a k ↔
      (located c w a = none ∧ ∀ j < k, ∀ x, located c w (a + j) = some x →
        d.lbaSize ≤ mdts ∧ OnDrive d x ∧ w.media.blockAt x = 0) ∨
      (k = 1 ∧ ∃ x, located c w a = some x ∧ d.lbaSize = mdts ∧ OnDrive d x) := by
  have hk : 0 < k := by
    refine Nat.pos_of_ne_zero fun h0 => ?_
    rw [h0, Nat.zero_mul] at hlarge
    exact absurd hlarge (by decide)
  have hlba := h.lbaSizeBytes_eq hk hsize
  have hend := Nat.lt_of_le_of_lt hcap h.capacityBytes_lt
  have hblock : d.lbaSize < 4294967296 :=
    Nat.lt_of_le_of_lt (Nat.le_mul_of_pos_left _ hk) hsize
  cases hloc : located c w a with
  | none =>
      have hone : ∀ j < k, (ReadsOne c w (a + j) 0 ↔ ∀ x, located c w (a + j) = some x →
          d.lbaSize ≤ mdts ∧ OnDrive d x ∧ w.media.blockAt x = 0) := by
        intro j hj
        have hlast : (a + j + 1) * d.lbaSize ≤ (a + k) * d.lbaSize :=
          Nat.mul_le_mul_right _ (by omega)
        rw [readsOne_iff hlba h.mdts_eq (Nat.lt_of_le_of_lt hlast hend) hblock]
        cases hj' : located c w (a + j) with
        | none => exact iff_of_true (Or.inl ⟨rfl, rfl⟩) fun x hx => by cases hx
        | some y =>
            constructor
            · rintro (⟨hno, -⟩ | ⟨x, hx, hread⟩) x' hx'
              · cases hno
              · rwa [← Option.some.inj (hx.symm.trans hx')]
            · intro hall
              exact Or.inr ⟨y, rfl, hall y rfl⟩
      rw [largeReadAgrees_unmapped hlba hend hlarge hsize hk hloc]
      constructor
      · intro hall
        exact Or.inl ⟨rfl, fun j hj => (hone j hj).mp (hall j hj)⟩
      · rintro (⟨-, hall⟩ | ⟨-, x, hx, -⟩) j hj
        · exact (hone j hj).mpr (hall j hj)
        · cases hx
  | some x =>
      rcases Nat.eq_or_lt_of_le (Nat.succ_le_of_lt hk) with h1 | h2
      · rw [largeReadAgrees_one hlba h.mdts_eq hend hlarge hsize h1.symm hloc]
        constructor
        · intro hon
          exact Or.inr ⟨h1.symm, x, rfl, hon⟩
        · rintro (⟨hno, -⟩ | ⟨-, y, hy, hon⟩)
          · cases hno
          · rwa [Option.some.inj hy]
      · refine iff_of_false (not_largeReadAgrees hlba h.mdts_eq hend hlarge hsize h2 hloc) ?_
        rintro (⟨hno, -⟩ | ⟨h1, -⟩)
        · cases hno
        · omega

/-- The wide drive, with reads that may span zones. -/
def acrossDrive : Setup UInt8 := { wideDrive with readAcross := true }

/-- Four blocks are `MDTS` bytes.  They can be read in one request until the first of them is
written. -/
theorem largeReadAgrees_iff_fresh :
    let w := ((znsUdeviceWrite acrossDrive.config [] 0 65536 fun _ => 0).run exec
      (fresh acrossDrive)).2
    LargeReadAgrees acrossDrive.config (fresh acrossDrive) 0 4 ∧
      ¬ LargeReadAgrees acrossDrive.config w 0 4 := by
  intro w
  have h₀ : Reachable acrossDrive.drive (acrossDrive.params true) acrossDrive.config
      (fresh acrossDrive) := .init _ (run_init_fresh (Media.empty _))
  have h := h₀.write [] 0 65536 fun _ => 0
  have hnone : ∀ j < 4, located acrossDrive.config (fresh acrossDrive) (0 + j) = none := by
    decide +kernel
  have hplace : located acrossDrive.config w 0 = some 0 := by decide +kernel
  constructor
  · refine (largeReadAgrees_iff h₀ (by decide) (by decide) (by decide)).mpr (Or.inl ⟨?_, ?_⟩)
    · exact hnone 0 (by decide)
    · intro j hj x hx
      rw [hnone j hj] at hx
      cases hx
  · intro hagrees
    rcases (largeReadAgrees_iff h (by decide) (by decide) (by decide)).mp hagrees with hor | hor
    · exact absurd (hplace.symm.trans hor.1) (by decide)
    · exact absurd hor.1 (by decide)

/-- **The failing read**: four blocks are written in one request and read in one request.  The read
returns `0`, and has overwritten three blocks of memory behind its buffer. -/
theorem four_blocks_overflow :
    let r := (znsUdeviceWrite acrossDrive.config [] 0 (4 * 65536) fun _ => 7).run exec
      (fresh acrossDrive)
    let read := (znsUdeviceRead acrossDrive.config 0 (4 * 65536) fun _ => 1).run exec r.2
    (r.1 = some 0 ∧ read.1.1 = 0 ∧ read.1.2 4 = 0 ∧ read.1.2 5 = 0 ∧ read.1.2 6 = 0) ∧
      Reachable acrossDrive.drive (acrossDrive.params true) acrossDrive.config r.2 ∧
      ¬ LargeReadAgrees acrossDrive.config r.2 0 4 := by
  intro r read
  have h₀ : Reachable acrossDrive.drive (acrossDrive.params true) acrossDrive.config
      (fresh acrossDrive) := .init _ (run_init_fresh (Media.empty _))
  have hplace : located acrossDrive.config r.2 0 = some 0 := by decide +kernel
  refine ⟨by decide +kernel, h₀.write [] 0 (4 * 65536) fun _ => 7, ?_⟩
  exact not_largeReadAgrees rfl rfl (by decide) (by decide) (by decide) (by decide) hplace

end StoSys
