import StoSys.M2.Tests
import StoSys.M3.Runs

/-!
# The tests of `m2.cpp` on a device that stores

The first two tests ask for one block at a time.  While the second one writes, the blocks behind it
hold their patterns (`Filled`); reading finds them there.  Only so much of a block is looked at as the
pattern covers, and the pattern of block `a` is `a` bytes short.
-/

namespace StoSys.M2

open Effect CInt M3

variable {dev : UserDevice} {host : Host}

/-- Blocks `lo` up to `hi` hold their patterns, and there have been `n` writes. -/
structure Filled (dev : UserDevice) (lo hi n : ℕ) (s : TestState Stored) : Prop where
  has : ∀ a, lo ≤ a → a < hi → s.device.Has (a * dev.lbaSizeBytes) dev.lbaSizeBytes
  pattern : ∀ a, lo ≤ a → a < hi → ∀ j < dev.lbaSizeBytes - a,
    s.device (a * dev.lbaSizeBytes + j) = some (patternByte (a + j))
  count : s.written.length = n

/-- `test_write_read_LBA0`, with one block. -/
lemma testWriteReadLba0_delivers (hcap : dev.lbaSizeBytes ≤ dev.capacityBytes) (buf : Bytes) (n : ℕ) :
    Program.Delivers (testEnv host (ideal dev)) Accepted (fun s => s.written.length = n)
      (testWriteReadLba0 buf dev.lbaSizeBytes)
      fun r s => (∃ b, r = some (0, b)) ∧ s.written.length = n + 1 := by
  have hone : OneBlock dev 0 dev.lbaSizeBytes := ⟨Nat.dvd_zero _, rfl, by omega⟩
  set pattern := writePatternWithStart buf dev.lbaSizeBytes 0 with hpattern
  refine .bind (R := fun ret s => ret = 0 ∧ s.written.length = n + 1 ∧
    ∃ st : Stored, s.device = st.put 0 dev.lbaSizeBytes pattern) ?_ fun ret => ?_
  · refine udeviceWrite_delivers hone _ fun s hs => ⟨rfl, ?_, s.device, rfl⟩
    simp [hs]
  refine .given (fun s hs => hs.1) ?_
  rintro rfl
  rw [if_neg (not_not.mpr rfl)]
  refine .bind (R := fun r s => s.written.length = n + 1 ∧ r.1 = 0 ∧
    ∀ j < dev.lbaSizeBytes, r.2 j = pattern j) ?_ fun r => ?_
  · refine udeviceRead_delivers hone _ ?_ ?_
    · rintro s ⟨-, -, st, hst⟩
      rw [hst]
      exact Stored.has_put st 0 _ _
    · rintro s b ⟨-, hcount, st, hst⟩ rfl
      refine ⟨hcount, rfl, fun j hj => ?_⟩
      have hself := Stored.put_self st 0 dev.lbaSizeBytes pattern hj
      simp only [Bytes.put, Nat.zero_le, Nat.zero_add, true_and, if_pos hj, Nat.sub_zero,
        Stored.bytes, hst]
      rw [Nat.zero_add] at hself
      rw [hself, Option.getD_some]
  refine .given (fun s hs => hs.2) ?_
  rintro ⟨hret, hbytes⟩
  rw [if_neg (not_not.mpr hret), if_pos]
  · exact .pure fun s hs => ⟨⟨r.2, congrArg some (Prod.ext hret rfl)⟩, hs.1⟩
  · rw [matchPatternWithStart_iff]
    intro j hj
    rw [hbytes j (by omega), hpattern, writePatternWithStart_apply, if_pos hj]

/-- The writing loop. -/
lemma writeLbas_delivers (hcapacity : dev.capacityBytes < 18446744073709551616) (lo n : ℕ) :
    ∀ (i count : ℕ) (ret : ℤ) (buf : Bytes), (i + n) * dev.lbaSizeBytes ≤ dev.capacityBytes →
    Program.Delivers (testEnv host (ideal dev)) Accepted (Filled dev lo i count)
      (writeLbas dev dev.lbaSizeBytes n i ret buf)
      fun r s => (∃ b, r = .ok (if n = 0 then ret else 0, b)) ∧
        Filled dev lo (i + n) (count + n) s := by
  induction n with
  | zero => exact fun i count ret buf _ => .pure fun s hs => ⟨⟨buf, rfl⟩, hs⟩
  | succ n ih =>
      intro i count ret buf hcap
      have hi : i * dev.lbaSizeBytes + dev.lbaSizeBytes ≤ dev.capacityBytes := by
        have := Nat.mul_le_mul_right dev.lbaSizeBytes (show i + 1 ≤ i + (n + 1) by omega)
        rw [Nat.succ_mul] at this
        omega
      have haddr : toU64 ((i * dev.lbaSizeBytes : ℕ) : ℤ) = i * dev.lbaSizeBytes :=
        toU64_of_lt (by omega)
      rw [writeLbas, haddr]
      set pattern := writePatternWithStart buf dev.lbaSizeBytes i with hpattern
      refine .bind (R := fun ret s => ret = 0 ∧ Filled dev lo (i + 1) (count + 1) s) ?_ fun ret => ?_
      · refine udeviceWrite_delivers ⟨Nat.dvd_mul_left _ _, rfl, hi⟩ _ fun s hs => ⟨rfl, ?_, ?_, ?_⟩
        · intro a hlo ha
          rcases Nat.lt_succ_iff_lt_or_eq.mp ha with hlt | rfl
          · intro j hj
            dsimp only
            rw [Stored.put_other _ _ (Nat.ne_of_lt hlt) hj]
            exact hs.has a hlo hlt j hj
          · exact Stored.has_put _ _ _ _
        · intro a hlo ha j hj
          dsimp only
          rcases Nat.lt_succ_iff_lt_or_eq.mp ha with hlt | rfl
          · rw [Stored.put_other _ _ (Nat.ne_of_lt hlt) (by omega)]
            exact hs.pattern a hlo hlt j hj
          · rw [Stored.put_self _ _ _ _ (by omega), hpattern, writePatternWithStart_apply, if_pos hj]
        · simp [hs.count]
      refine .given (fun s hs => hs.1) ?_
      rintro rfl
      rw [if_neg (not_not.mpr rfl)]
      have hrest := ih (i + 1) (count + 1) 0 pattern (by rwa [Nat.add_right_comm i 1 n])
      refine (hrest.pre fun s hs => hs.2).post fun r s hr => ?_
      rw [if_neg (Nat.succ_ne_zero n), ← Nat.add_assoc, ← Nat.add_assoc, Nat.add_right_comm i,
        Nat.add_right_comm count]
      rw [ite_self] at hr
      exact hr

/-- The reading loop. -/
lemma readLbas_delivers (hcapacity : dev.capacityBytes < 18446744073709551616) {lo hi : ℕ} (count : ℕ)
    (hcap : hi * dev.lbaSizeBytes ≤ dev.capacityBytes) (n : ℕ) :
    ∀ (i : ℕ) (ret : ℤ) (buf : Bytes), lo ≤ i → i + n ≤ hi →
    Program.Delivers (testEnv host (ideal dev)) Accepted (Filled dev lo hi count)
      (readLbas dev dev.lbaSizeBytes n i ret buf)
      fun r s => r = some (if n = 0 then ret else 0) ∧ Filled dev lo hi count s := by
  induction n with
  | zero => exact fun i ret buf _ _ => .pure fun s hs => ⟨rfl, hs⟩
  | succ n ih =>
      intro i ret buf hlo hhi
      have hi' : i * dev.lbaSizeBytes + dev.lbaSizeBytes ≤ dev.capacityBytes := by
        have := Nat.mul_le_mul_right dev.lbaSizeBytes (show i + 1 ≤ hi by omega)
        rw [Nat.succ_mul] at this
        omega
      have haddr : toU64 ((i * dev.lbaSizeBytes : ℕ) : ℤ) = i * dev.lbaSizeBytes :=
        toU64_of_lt (by omega)
      rw [readLbas, haddr]
      refine .bind (R := fun r s => Filled dev lo hi count s ∧ r.1 = 0 ∧
        ∀ j < dev.lbaSizeBytes - i, r.2 j = patternByte (i + j)) ?_ fun r => ?_
      · refine udeviceRead_delivers ⟨Nat.dvd_mul_left _ _, rfl, hi'⟩ _
          (fun s hs => hs.has i hlo (by omega)) ?_
        rintro s b hs rfl
        refine ⟨⟨hs.has, hs.pattern, hs.count⟩, rfl, fun j hj => ?_⟩
        have hblock := hs.pattern i hlo (by omega) j hj
        simp only [Bytes.put, Nat.zero_le, Nat.zero_add, true_and,
          if_pos (show j < dev.lbaSizeBytes by omega), Nat.sub_zero, Stored.bytes, hblock,
          Option.getD_some]
      refine .given (fun s hs => hs.2) ?_
      rintro ⟨hret, hbytes⟩
      rw [if_neg (not_not.mpr hret), if_pos ((matchPatternWithStart_iff _ _ _).mpr hbytes), hret]
      have hrest := ih (i + 1) 0 r.2 (by omega) (by omega)
      refine (hrest.pre fun s hs => hs.1).post fun r s hr => ?_
      rw [if_neg (Nat.succ_ne_zero n)]
      rw [ite_self] at hr
      exact hr

/-- **`test_write_read_random_LBAs`** passes, wherever it starts, when there are blocks to choose
from. -/
lemma testWriteReadRandomLbas_delivers (hcapacity : dev.capacityBytes < 18446744073709551616)
    {max : ℕ} (hpos : 0 < max) (hmax : max < toU32 (dev.capacityBytes / dev.lbaSizeBytes : ℕ))
    (buf : Bytes) (n : ℕ) :
    Program.Delivers (testEnv host (ideal dev)) Accepted (fun s => s.written.length = n)
      (testWriteReadRandomLbas dev buf dev.lbaSizeBytes max)
      fun r s => r = some 0 ∧ s.written.length = n + max := by
  set entries := toU32 (dev.capacityBytes / dev.lbaSizeBytes : ℕ) with hentries
  have hle : entries * dev.lbaSizeBytes ≤ dev.capacityBytes := by
    refine Nat.le_trans (Nat.mul_le_mul_right _ ?_) (Nat.div_mul_le_self _ dev.lbaSizeBytes)
    rw [hentries, toU32_natCast]
    exact Nat.mod_le _ _
  rw [testWriteReadRandomLbas, ← hentries]
  dsimp only
  rw [if_neg (by omega)]
  refine .bind (R := fun _ s => s.written.length = n) (.perform fun s hs => ⟨trivial, hs⟩) fun r => ?_
  rw [if_neg (by omega)]
  have hstart : r % (entries - max) < entries - max := Nat.mod_lt _ (by omega)
  have hcap : (r % (entries - max) + max) * dev.lbaSizeBytes ≤ dev.capacityBytes :=
    Nat.le_trans (Nat.mul_le_mul_right _ (by omega)) hle
  refine .bind ((writeLbas_delivers hcapacity (r % (entries - max)) max _ n (-1) buf hcap).pre
    fun s hs => ⟨fun a hlo hlt => by omega, fun a hlo hlt => by omega, hs⟩) fun x => ?_
  refine .given (fun s hs => hs.1) ?_
  rintro ⟨b, rfl⟩
  rw [if_neg (by omega)]
  dsimp only
  refine ((readLbas_delivers hcapacity (n + max) hcap max _ 0 b
    (Nat.le_refl (r % (entries - max))) (Nat.le_refl _)).pre fun s hs => hs.2).post fun r s hr => ?_
  rw [ite_self] at hr
  exact ⟨hr.1, hr.2.count⟩

end StoSys.M2
