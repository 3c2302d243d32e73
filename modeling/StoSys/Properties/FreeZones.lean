import StoSys.Properties.ReadYourWrites

/-!
# Finding a free zone

`next_empty_zone` multiplies a 64-bit index by the number of blocks in a zone and returns the
product as an `int`; `zone_merge` stores it in the data map and divides it by the number of blocks
again.  The search is exact when the start of the zone it should find is an `int`
(`searchExact_iff`).  The start is not compared with anything, so on a larger drive a free zone
comes back as another one, or as `-1`.
-/

namespace StoSys

open CInt Zoned

variable {B : Type} {d : Drive B} {p : InitParams} {m : Ftl}

/-- Zone `i` is the first data zone that is marked empty. -/
def FirstEmpty (d : Drive B) (p : InitParams) (m : Ftl) (i : ℕ) : Prop :=
  (p.logZones ≤ i ∧ i < d.nrZones ∧ m.zoneStates i = emptyZone) ∧
    ∀ j : ℕ, p.logZones ≤ j → j < i → m.zoneStates j ≠ emptyZone

/-- **The search is exact**: it finds the first zone that is marked empty, by its start, from which
the index can be had back, and it fails when there is none. -/
structure SearchExact (d : Drive B) (p : InitParams) (m : Ftl) : Prop where
  found : ∀ {i}, FirstEmpty d p m i → let c := configOf d p
    nextEmptyZone c m = i * c.nBlocksPerZone ∧ c.nBlocksPerZone ≠ 0 ∧
      (nextEmptyZone c m).tdiv c.nBlocksPerZone = i
  none_iff : nextEmptyZone (configOf d p) m = -1 ↔
    ∀ i : ℕ, p.logZones ≤ i → i < d.nrZones → m.zoneStates i ≠ emptyZone

/-- The start of zone `i` is an `int`, and the code looks at the zone. -/
def Findable (d : Drive B) (p : InitParams) (i : ℕ) : Prop :=
  0 ≤ p.logZones ∧ i < d.nrZones % 4294967296 ∧ 0 < d.zoneCap % 4294967296 ∧
    i * (d.zoneCap % 4294967296) < 2147483648

/-- The zones the code looks at: none if the number of log zones is negative, and no more than 32
bits can count. -/
lemma nextEmptyZone_cases_init (hL : -2147483648 ≤ p.logZones) (hL' : p.logZones < 2147483648) :
    (∃ k : ℕ, (0 ≤ p.logZones ∧ p.logZones ≤ k ∧ k < d.nrZones % 4294967296 ∧
        m.zoneStates k = emptyZone ∧ ∀ j : ℕ, p.logZones ≤ j → j < k → m.zoneStates j ≠ emptyZone) ∧
      nextEmptyZone (configOf d p) m = toI32 (toU64 (k * (d.zoneCap % 4294967296) : ℕ))) ∨
    nextEmptyZone (configOf d p) m = -1 ∧
      (0 ≤ p.logZones → ∀ k : ℕ, p.logZones ≤ k → k < d.nrZones % 4294967296 →
        m.zoneStates k ≠ emptyZone) := by
  have hzones : (configOf d p).znsNumZones = d.nrZones % 4294967296 := toU32_natCast _
  have hblocks : (configOf d p).nBlocksPerZone = d.zoneCap % 4294967296 := toU32_natCast _
  have hlog : (configOf d p).logZoneNumConfig = p.logZones := rfl
  unfold nextEmptyZone
  rw [hzones, hblocks, hlog]
  rcases Int.lt_or_le p.logZones 0 with hneg | hpos
  · have hnone : d.nrZones % 4294967296 - toU64 p.logZones = 0 := by
      unfold toU64
      omega
    rw [hnone]
    exact Or.inr ⟨rfl, fun h => by omega⟩
  · have h64 : (toU64 p.logZones : ℤ) = p.logZones := by
      unfold toU64
      omega
    split
    · rename_i k hk
      obtain ⟨hstate, hmem, hfirst⟩ := List.find?_range'_eq_some.mp hk
      rw [List.mem_range'_1] at hmem
      refine Or.inl ⟨k, ⟨hpos, by omega, by omega, by simpa using hstate, fun j hj hjk => ?_⟩, rfl⟩
      simpa using hfirst j (by omega) hjk
    · rename_i hnone
      refine Or.inr ⟨rfl, fun _ k hk hlt => ?_⟩
      simpa using List.find?_eq_none.mp hnone k (List.mem_range'_1.mpr (by omega))

/-- A start that fits is found as it is. -/
lemma toI32_toU64_of_lt {k : ℕ} (h : k < 2147483648) : toI32 (toU64 (k : ℕ)) = k := by
  rw [toU64_of_lt (by omega), toI32_of_lt h]

/-- **When the search for a free zone is exact**, for every geometry, every number of log zones and
every state of the zones: if there is a free zone, the start of the first is below `2 ^ 31`. -/
theorem searchExact_iff (hL : -2147483648 ≤ p.logZones) (hL' : p.logZones < 2147483648) :
    SearchExact d p m ↔ ∀ i, FirstEmpty d p m i → Findable d p i := by
  have hblocks : (configOf d p).nBlocksPerZone = d.zoneCap % 4294967296 := toU32_natCast _
  have hcases := nextEmptyZone_cases_init (d := d) (m := m) hL hL'
  constructor
  · intro h i hi
    obtain ⟨⟨hLi, hnr, hstate⟩, hfirst⟩ := hi
    obtain ⟨hfound, hne, -⟩ := h.found ⟨⟨hLi, hnr, hstate⟩, hfirst⟩
    rw [hblocks] at hfound hne
    rcases hcases with ⟨k, ⟨hpos, hLk, hk, hempty, -⟩, hval⟩ | ⟨hnone, -⟩
    · have hik : i ≤ k := Nat.not_lt.mp fun hki => hfirst k hLk hki hempty
      refine ⟨hpos, by omega, Nat.pos_of_ne_zero hne, ?_⟩
      rw [hval] at hfound
      have hlt : toI32 (toU64 (k * (d.zoneCap % 4294967296) : ℕ)) < 2147483648 := by
        unfold toI32
        split <;> omega
      rw [hfound, ← Nat.cast_mul] at hlt
      exact_mod_cast hlt
    · exact absurd hstate (h.none_iff.mp hnone i hLi hnr)
  · intro h
    have hfind : ∀ {i}, FirstEmpty d p m i → nextEmptyZone (configOf d p) m
        = (i * (d.zoneCap % 4294967296) : ℕ) := by
      intro i hi
      obtain ⟨hpos, hlt, -, hstart⟩ := h i hi
      obtain ⟨⟨hLi, -, hstate⟩, hfirst⟩ := hi
      rcases hcases with ⟨k, ⟨-, hLk, hk, hempty, hfirst'⟩, hval⟩ | ⟨-, hnone⟩
      · have hki : k = i := by
          rcases Nat.lt_trichotomy k i with hlt' | heq | hgt
          · exact absurd hempty (hfirst k hLk hlt')
          · exact heq
          · exact absurd hstate (hfirst' i hLi hgt)
        rw [hval, hki, toI32_toU64_of_lt hstart]
      · exact absurd hstate (hnone hpos i hLi hlt)
    refine ⟨fun {i} hi => ?_, fun hnone => ?_, fun hno => ?_⟩
    · obtain ⟨-, -, hne, -⟩ := h i hi
      dsimp only
      rw [hblocks, hfind hi, Nat.cast_mul]
      refine ⟨rfl, Nat.ne_of_gt hne, ?_⟩
      exact Int.mul_tdiv_cancel _ (Nat.cast_ne_zero.mpr (Nat.ne_of_gt hne))
    · by_contra hex
      push Not at hex
      have hfirst : FirstEmpty d p m (Nat.find hex) := by
        obtain ⟨hLi, hnr, hstate⟩ := Nat.find_spec hex
        refine ⟨⟨hLi, hnr, hstate⟩, fun j hLj hj hempty => ?_⟩
        exact Nat.find_min hex hj ⟨hLj, by omega, hempty⟩
      rw [hfind hfirst] at hnone
      omega
    · rcases hcases with ⟨k, ⟨-, hLk, hk, hempty, -⟩, -⟩ | ⟨hnone, -⟩
      · have hmod := Nat.mod_le d.nrZones 4294967296
        exact absurd hempty (hno k hLk (by omega))
      · exact hnone

/-- A drive with 5000 zones of two gibibytes. -/
def hugeZones : Drive UInt8 where
  ds := 12
  nrZones := 5000
  zoneSize := 524288
  zoneCap := 524288
  readAcross := false
  fill := 0
  cap_pos := by decide
  cap_le := by decide

/-- The search on the small drive, just opened. -/
theorem searchExact_iff_fresh :
    SearchExact smallDrive.drive (smallDrive.params true) (fresh smallDrive).ftl := by
  refine (searchExact_iff (by decide) (by decide)).mpr fun i hi => ?_
  have hlt : i < 5 := hi.1.2.1
  refine ⟨by decide, hlt, by decide, ?_⟩
  change i * 3 < _
  omega

/-- With 4096 log zones its first data zone starts at block `2 ^ 31`, and is found at `-2 ^ 31`. -/
theorem free_zone_negative :
    let p : InitParams := { logZones := 4096, gcWmark := 1, forceReset := true }
    let m := started p Ftl.fresh (Media.empty hugeZones)
    m.zoneStates 4096 = emptyZone ∧ nextEmptyZone (configOf hugeZones p) m = -2147483648 ∧
      ¬ SearchExact hugeZones p m := by
  intro p m
  have hval : nextEmptyZone (configOf hugeZones p) m = -2147483648 := by decide +kernel
  refine ⟨by decide, hval, fun h => ?_⟩
  have hfirst : FirstEmpty hugeZones p m 4096 := by
    refine ⟨⟨by decide, by decide, by decide⟩, fun j hj hlt => ?_⟩
    change (4096 : ℤ) ≤ j at hj
    omega
  have hfound := (h.found hfirst).1
  rw [hval] at hfound
  exact absurd hfound (by decide)

end StoSys
