import Mathlib.Data.List.Basic
import Mathlib.Logic.Function.Basic
import Mathlib.Tactic.Common

/-!
# `utils.cpp`: the test pattern

The tests fill a buffer with a pattern that depends on a start value, and check it later.  Both
loops run one index from the start value, for the pattern, and one from zero, for the buffer, and
stop when the first reaches the length.  So they handle `len - s` bytes
(`writePatternWithStart_apply`, `matchPatternWithStart_iff`): all of them when the start is zero,
and none from a start as large as the buffer on.
-/

namespace StoSys

/-- `(char) (33 + (i % 93))`, a printable character -/
def patternByte (i : ℕ) : UInt8 := UInt8.ofNat (33 + i % 93)

/-- The loop of `write_pattern_with_start`. -/
def writeLoop (len : ℕ) : (fuel i j : ℕ) → (ℕ → UInt8) → ℕ → UInt8
  | 0, _, _, data => data
  | fuel + 1, i, j, data =>
      if i < len then writeLoop len fuel (i + 1) (j + 1) (Function.update data j (patternByte i))
      else data

/-- `write_pattern_with_start` -/
def writePatternWithStart (data : ℕ → UInt8) (len s : ℕ) : ℕ → UInt8 :=
  writeLoop len len s 0 data

/-- The loop of `match_pattern_with_start`; the answer is whether its assertions pass. -/
def matchLoop (len : ℕ) (data : ℕ → UInt8) : (fuel i j : ℕ) → Bool
  | 0, _, _ => true
  | fuel + 1, i, j =>
      if i < len then
        if data j = patternByte i then matchLoop len data fuel (i + 1) (j + 1) else false
      else true

/-- `match_pattern_with_start` -/
def matchPatternWithStart (data : ℕ → UInt8) (len s : ℕ) : Bool :=
  matchLoop len data len s 0

/-- What the pattern is for: the writer fills the buffer, the matcher looks at all of it, and so
every changed byte is found. -/
structure PatternLaw (len s : ℕ) : Prop where
  written : ∀ (data : ℕ → UInt8), ∀ j < len,
    writePatternWithStart data len s j = patternByte (s + j)
  matched : ∀ (data : ℕ → UInt8), matchPatternWithStart data len s = true ↔
    ∀ j < len, data j = patternByte (s + j)
  found : ∀ (data : ℕ → UInt8), ∀ j < len, ∀ b ≠ writePatternWithStart data len s j,
    matchPatternWithStart (Function.update (writePatternWithStart data len s) j b) len s = false

/-! ## What the loops do -/

lemma writeLoop_apply (len : ℕ) (fuel i j : ℕ) (data : ℕ → UInt8) (hfuel : len - i ≤ fuel) (k : ℕ) :
    writeLoop len fuel i j data k
      = if j ≤ k ∧ k - j < len - i then patternByte (i + (k - j)) else data k := by
  induction fuel generalizing i j data with
  | zero =>
      rw [if_neg (by omega)]
      rfl
  | succ fuel ih =>
      rw [writeLoop]
      by_cases hi : i < len
      · rw [if_pos hi, ih (i + 1) (j + 1) _ (by omega)]
        rcases Nat.lt_trichotomy k j with hlt | rfl | hgt
        · rw [if_neg (by omega), if_neg (by omega), Function.update_of_ne (by omega)]
        · rw [if_neg (by omega), if_pos (by omega), Function.update_self, Nat.sub_self]
          rfl
        · have hsplit : i + 1 + (k - (j + 1)) = i + (k - j) := by omega
          rw [hsplit, Function.update_of_ne (by omega)]
          exact if_congr (by omega) rfl rfl
      · rw [if_neg hi, if_neg (by omega)]

/-- The writer fills the first `len - s` bytes. -/
lemma writePatternWithStart_apply (data : ℕ → UInt8) (len s j : ℕ) :
    writePatternWithStart data len s j = if j < len - s then patternByte (s + j) else data j := by
  rw [writePatternWithStart, writeLoop_apply len len s 0 data (Nat.sub_le _ _)]
  exact if_congr (by omega) rfl rfl

lemma matchLoop_iff (len : ℕ) (data : ℕ → UInt8) (fuel i j : ℕ) (hfuel : len - i ≤ fuel) :
    matchLoop len data fuel i j = true ↔ ∀ k < len - i, data (j + k) = patternByte (i + k) := by
  induction fuel generalizing i j with
  | zero => exact iff_of_true rfl fun k hk => by omega
  | succ fuel ih =>
      rw [matchLoop]
      by_cases hi : i < len
      · rw [if_pos hi]
        by_cases hhead : data j = patternByte i
        · rw [if_pos hhead, ih (i + 1) (j + 1) (by omega)]
          constructor
          · intro h k hk
            cases k with
            | zero => exact hhead
            | succ k =>
                have hk' := h k (by omega)
                rwa [show j + 1 + k = j + (k + 1) by omega,
                  show i + 1 + k = i + (k + 1) by omega] at hk'
          · intro h k hk
            have hk' := h (k + 1) (by omega)
            rwa [show j + (k + 1) = j + 1 + k by omega,
              show i + (k + 1) = i + 1 + k by omega] at hk'
        · rw [if_neg hhead]
          refine iff_of_false Bool.false_ne_true fun h => hhead (h 0 (by omega))
      · rw [if_neg hi]
        exact iff_of_true rfl fun k hk => by omega

/-- The matcher looks at the first `len - s` bytes. -/
lemma matchPatternWithStart_iff (data : ℕ → UInt8) (len s : ℕ) :
    matchPatternWithStart data len s = true ↔ ∀ j < len - s, data j = patternByte (s + j) := by
  rw [matchPatternWithStart, matchLoop_iff len data len s 0 (Nat.sub_le _ _)]
  simp only [Nat.zero_add]

/-! ## What they should do -/

/-- A byte that no pattern has. -/
lemma zero_ne_patternByte (i : ℕ) : (0 : UInt8) ≠ patternByte i := by
  intro h
  have hval := congrArg UInt8.toNat h
  rw [patternByte, UInt8.toNat_ofNat'] at hval
  change 0 = _ at hval
  omega

/-- **The writer and the matcher handle the whole buffer** exactly when the start is zero, or there
is no buffer. -/
theorem patternLaw_iff (len s : ℕ) : PatternLaw len s ↔ s = 0 ∨ len = 0 := by
  constructor
  · intro h
    by_contra hno
    have hlast := h.written (fun _ => 0) (len - 1) (by omega)
    rw [writePatternWithStart_apply, if_neg (by omega)] at hlast
    exact zero_ne_patternByte _ hlast
  · intro h
    have hall : len - s = len := by omega
    have hwritten : ∀ (data : ℕ → UInt8), ∀ j < len,
        writePatternWithStart data len s j = patternByte (s + j) := by
      intro data j hj
      rw [writePatternWithStart_apply, hall, if_pos hj]
    refine ⟨hwritten, fun data => ?_, fun data j hj b hb => ?_⟩
    · rw [matchPatternWithStart_iff, hall]
    · rw [← Bool.not_eq_true, matchPatternWithStart_iff, hall]
      intro hmatch
      have hj' := hmatch j hj
      rw [Function.update_self, ← hwritten data j hj] at hj'
      exact hb hj'

/-- From a start as large as the buffer on, as in the test of random blocks, nothing is written and
every buffer matches. -/
theorem nothing_checked {len s : ℕ} (h : len ≤ s) (data : ℕ → UInt8) :
    writePatternWithStart data len s = data ∧ matchPatternWithStart data len s = true := by
  have hnone : len - s = 0 := Nat.sub_eq_zero_of_le h
  refine ⟨funext fun j => ?_, (matchPatternWithStart_iff data len s).mpr fun j hj => ?_⟩
  · rw [writePatternWithStart_apply, hnone, if_neg (Nat.not_lt_zero j)]
  · rw [hnone] at hj
    exact absurd hj (Nat.not_lt_zero j)

/-- A buffer of two bytes and start 1: the second byte is neither written nor checked. -/
theorem second_byte_ignored :
    writePatternWithStart (fun _ => 0) 2 1 1 = 0 ∧ patternByte 2 = 35 ∧
      matchPatternWithStart (writePatternWithStart (fun _ => 0) 2 1) 2 1 = true ∧
      ¬ PatternLaw 2 1 := by
  refine ⟨by decide, by decide, by decide, fun h => ?_⟩
  have hlast := h.written (fun _ => 0) 1 (by decide)
  exact absurd hlast (by decide)

end StoSys
