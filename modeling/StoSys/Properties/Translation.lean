import StoSys.Properties.ReadYourWrites

/-!
# Translating an address

An address is translated in two places, on different integers: the read path divides an unsigned
address, and the collector the signed key of the log map.  Both divide by `n_blocks_per_zone *
lba_size_bytes`, a product of two 32-bit fields, which is the number of bytes in a zone as long as
that fits 32 bits.  Nothing bounds it; for a zone of four gibibytes the divisor is zero.

Translation is exact when the size of a zone and the zone numbers fit and no address is negative as
a key (`translationExact_iff`).  A product that has lost its upper half does no harm only on a
device that is not larger than what is left of it.
-/

namespace StoSys

open CInt Zoned

variable {B : Type} {d : Drive B} {p : InitParams} {c : Config}

/-- The virtual zone that `zns_udevice_read` looks for in the data map. -/
def readZone (c : Config) (a : ℕ) : ℤ :=
  toI64 (toU64 ((a / c.zoneBytes : ℕ) + c.logZoneNumConfig))

/-- The offset that it adds to the start of the zone. -/
def readOffset (c : Config) (a : ℕ) : ℕ := a % c.zoneBytes / c.lbaSizeBytes

lemma dataEntry_eq (m : Ftl) (a : ℕ) : dataEntry c m a =
    (m.dataZoneMapping.lookup (readZone c a)).map fun zone => toU64 (zone + readOffset c a) :=
  rfl

/-- Bytes in a zone, exactly. -/
def exactZoneBytes (d : Drive B) : ℕ := d.zoneCap * d.lbaSize

/-- **Translation is exact**, in the read path and in the collector, which sees an address as a key
of the log map; and different blocks go to different places. -/
structure TranslationExact (d : Drive B) (p : InitParams) (c : Config) : Prop where
  divisor : c.zoneBytes ≠ 0
  read : ∀ a < c.capacityBytes, readZone c a = p.logZones + (a / exactZoneBytes d : ℕ) ∧
    readOffset c a = a % exactZoneBytes d / d.lbaSize
  collect : ∀ a < c.capacityBytes,
    c.virtualZone (toI64 a) = p.logZones + (a / exactZoneBytes d : ℕ) ∧
      c.blockOffset (toI64 a) = (a % exactZoneBytes d / d.lbaSize : ℕ)
  distinct : ∀ a < c.capacityBytes, ∀ b < c.capacityBytes, readZone c a = readZone c b →
    readOffset c a = readOffset c b → a / d.lbaSize = b / d.lbaSize

/-- What 32 bits keep of it. -/
def keptZoneBytes (d : Drive B) : ℕ := exactZoneBytes d % 4294967296

/-- **The condition**: something is left of the size of a zone, and the device is not larger than
that; or all of it is left, every address is an `int64_t`, and so is the number of the last zone. -/
def Translatable (d : Drive B) (p : InitParams) : Prop :=
  let capacity := toU64 ((d.nrZones - p.logZones) * keptZoneBytes d)
  keptZoneBytes d ≠ 0 ∧ (capacity ≤ keptZoneBytes d ∨
    exactZoneBytes d < 4294967296 ∧ capacity ≤ 9223372036854775808 ∧
      p.logZones + ((capacity - 1) / exactZoneBytes d : ℕ) < 9223372036854775808)

instance (d : Drive B) (p : InitParams) : Decidable (Translatable d p) :=
  inferInstanceAs (Decidable (_ ∧ (_ ∨ _ ∧ _ ∧ _)))

/-! ## What the code divides by -/

lemma zoneBytes_eq (d : Drive B) (p : InitParams) : (configOf d p).zoneBytes = keptZoneBytes d := by
  change toU32 (toU32 d.zoneCap * toU32 (2 ^ d.ds : ℕ) : ℕ) = _
  rw [toU32_natCast, toU32_natCast, toU32_natCast, ← Nat.mul_mod]
  rfl

lemma capacityBytes_eq (d : Drive B) (p : InitParams) : (configOf d p).capacityBytes
    = toU64 ((d.nrZones - p.logZones) * keptZoneBytes d) := by
  change toU64 ((d.nrZones - p.logZones) * (toU32 (d.zoneCap * toU32 (2 ^ d.ds : ℕ) : ℕ) : ℕ)) = _
  rw [toU32_natCast, toU32_natCast, Nat.mul_mod_mod]
  rfl

/-- If something is left, the block size is exact. -/
lemma lbaSizeBytes_of_kept (p : InitParams) (h : keptZoneBytes d ≠ 0) :
    (configOf d p).lbaSizeBytes = d.lbaSize := by
  have hds : d.ds < 32 := by
    by_contra hds
    refine h (Nat.mod_eq_zero_of_dvd (Nat.dvd_mul_left_of_dvd ?_ _))
    exact Nat.pow_dvd_pow 2 (Nat.not_lt.mp hds)
  exact toU32_of_lt (Nat.lt_of_lt_of_eq (Nat.pow_lt_pow_right (by decide) hds) (by decide))

/-- The number of a block, from its zone and offset. -/
lemma block_eq (d : Drive B) (a : ℕ) : a / d.lbaSize
    = d.zoneCap * (a / exactZoneBytes d) + a % exactZoneBytes d / d.lbaSize := by
  have hsplit := Nat.div_add_mod a (exactZoneBytes d)
  conv_lhs => rw [← hsplit, exactZoneBytes, Nat.mul_assoc, Nat.mul_left_comm]
  rw [Nat.mul_add_div d.lbaSize_pos]
  rfl

/-! ## The two translations -/

/-- The read path computes the zone number on 64 bits, and looks it up as a signed one. -/
lemma readZone_eq_iff (a : ℕ) (hL : -2147483648 ≤ p.logZones) :
    readZone (configOf d p) a = p.logZones + (a / keptZoneBytes d : ℕ) ↔
      p.logZones + (a / keptZoneBytes d : ℕ) < 9223372036854775808 := by
  rw [readZone, zoneBytes_eq]
  change toI64 (toU64 (_ + p.logZones)) = _ ↔ _
  generalize a / keptZoneBytes d = q
  unfold toI64 toU64
  split <;> omega

lemma readOffset_eq (h : keptZoneBytes d ≠ 0) (p : InitParams) (a : ℕ) :
    readOffset (configOf d p) a = a % keptZoneBytes d / d.lbaSize := by
  rw [readOffset, zoneBytes_eq, lbaSizeBytes_of_kept p h]

/-- The collector computes on signed numbers. -/
lemma virtualZone_eq (p : InitParams) {a : ℕ} (ha : a < 9223372036854775808) :
    (configOf d p).virtualZone (toI64 a) = p.logZones + (a / keptZoneBytes d : ℕ) := by
  rw [Config.virtualZone, zoneBytes_eq, toI64_of_lt ha, ← Int.ofNat_tdiv, add_comm]
  rfl

lemma blockOffset_eq (h : keptZoneBytes d ≠ 0) (p : InitParams) {a : ℕ}
    (ha : a < 9223372036854775808) :
    (configOf d p).blockOffset (toI64 a) = (a % keptZoneBytes d / d.lbaSize : ℕ) := by
  rw [Config.blockOffset, zoneBytes_eq, lbaSizeBytes_of_kept p h, toI64_of_lt ha, ← Int.ofNat_tmod,
    ← Int.ofNat_tdiv]

/-- Translating with what is left of the size of a zone, where that makes no difference. -/
lemma TranslationExact.of_kept (hL : -2147483648 ≤ p.logZones) (h : keptZoneBytes d ≠ 0)
    (hsame : ∀ a < (configOf d p).capacityBytes, a / keptZoneBytes d = a / exactZoneBytes d ∧
      a % keptZoneBytes d = a % exactZoneBytes d)
    (hkey : ∀ a < (configOf d p).capacityBytes, a < 9223372036854775808)
    (hzone : ∀ a < (configOf d p).capacityBytes,
      p.logZones + (a / keptZoneBytes d : ℕ) < 9223372036854775808) :
    TranslationExact d p (configOf d p) := by
  have hread : ∀ a < (configOf d p).capacityBytes,
      readZone (configOf d p) a = p.logZones + (a / exactZoneBytes d : ℕ) ∧
        readOffset (configOf d p) a = a % exactZoneBytes d / d.lbaSize := by
    intro a ha
    rw [readOffset_eq h, (readZone_eq_iff a hL).mpr (hzone a ha), (hsame a ha).1, (hsame a ha).2]
    exact ⟨rfl, rfl⟩
  refine ⟨by rwa [zoneBytes_eq], hread, fun a ha => ?_, fun a ha b hb hz ho => ?_⟩
  · rw [virtualZone_eq p (hkey a ha), blockOffset_eq h p (hkey a ha), (hsame a ha).1,
      (hsame a ha).2]
    exact ⟨rfl, rfl⟩
  · rw [(hread a ha).1, (hread b hb).1] at hz
    rw [(hread a ha).2, (hread b hb).2] at ho
    have hdiv : a / exactZoneBytes d = b / exactZoneBytes d := by omega
    rw [block_eq d a, block_eq d b, hdiv, ho]

/-- A device that is not larger than what is left has one zone. -/
lemma TranslationExact.of_small (hL : -2147483648 ≤ p.logZones) (hL' : p.logZones < 2147483648)
    (h : keptZoneBytes d ≠ 0) (hsmall : (configOf d p).capacityBytes ≤ keptZoneBytes d) :
    TranslationExact d p (configOf d p) := by
  have hmod_le : keptZoneBytes d ≤ exactZoneBytes d := Nat.mod_le _ _
  have hkept_lt : keptZoneBytes d < 4294967296 := Nat.mod_lt _ (by decide)
  have hlt : ∀ a < (configOf d p).capacityBytes, a < keptZoneBytes d := fun a ha => by omega
  refine .of_kept hL h (fun a ha => ?_) (fun a ha => ?_) fun a ha => ?_
  · have ha' := hlt a ha
    rw [Nat.div_eq_of_lt ha', Nat.mod_eq_of_lt ha', Nat.div_eq_of_lt (by omega),
      Nat.mod_eq_of_lt (by omega)]
    exact ⟨rfl, rfl⟩
  · have := hlt a ha
    omega
  · rw [Nat.div_eq_of_lt (hlt a ha)]
    omega

namespace TranslationExact

variable (h : TranslationExact d p (configOf d p))
include h

lemma kept_ne_zero : keptZoneBytes d ≠ 0 := by
  rw [← zoneBytes_eq d p]
  exact h.divisor

/-- The first address of the second zone tells whether anything is lost. -/
lemma exactZoneBytes_lt (hL : -2147483648 ≤ p.logZones) (hL' : p.logZones < 2147483648)
    (hlt : keptZoneBytes d < (configOf d p).capacityBytes) : exactZoneBytes d < 4294967296 := by
  have hpos := Nat.pos_of_ne_zero h.kept_ne_zero
  by_contra hbig
  have hsmall : keptZoneBytes d < exactZoneBytes d := by
    have := Nat.mod_lt (exactZoneBytes d) (show 0 < 4294967296 by decide)
    unfold keptZoneBytes
    omega
  have hzone := (h.read (keptZoneBytes d) hlt).1
  rw [Nat.div_eq_of_lt hsmall] at hzone
  have hone : p.logZones + (keptZoneBytes d / keptZoneBytes d : ℕ) < 9223372036854775808 := by
    rw [Nat.div_self hpos]
    omega
  rw [(readZone_eq_iff _ hL).mpr hone, Nat.div_self hpos] at hzone
  omega

/-- The first address that is negative as a key tells whether there is one. -/
lemma capacityBytes_le (hexact : exactZoneBytes d < 4294967296) :
    (configOf d p).capacityBytes ≤ 9223372036854775808 := by
  have hsame : keptZoneBytes d = exactZoneBytes d := Nat.mod_eq_of_lt hexact
  have hpos := Nat.pos_of_ne_zero h.kept_ne_zero
  by_contra hbig
  have hzone := (h.collect 9223372036854775808 (by omega)).1
  have hdiv : 0 < 9223372036854775808 / exactZoneBytes d := Nat.div_pos (by omega) (by omega)
  have hkey : toI64 ((9223372036854775808 : ℕ) : ℤ) = -((9223372036854775808 : ℕ) : ℤ) := by decide
  rw [Config.virtualZone, zoneBytes_eq, hsame, hkey, Int.neg_tdiv, ← Int.ofNat_tdiv] at hzone
  change _ + p.logZones = _ at hzone
  generalize 9223372036854775808 / exactZoneBytes d = q at hdiv hzone
  omega

lemma lastZone_lt (hpos : 0 < (configOf d p).capacityBytes) : p.logZones +
    (((configOf d p).capacityBytes - 1) / exactZoneBytes d : ℕ) < 9223372036854775808 := by
  have hzone := (h.read ((configOf d p).capacityBytes - 1) (by omega)).1
  have hrange : readZone (configOf d p) ((configOf d p).capacityBytes - 1) < 9223372036854775808 := by
    unfold readZone toI64
    split <;> omega
  rwa [hzone] at hrange

end TranslationExact

/-- **When translation is exact**, for every geometry and every number of log zones. -/
theorem translationExact_iff (hL : -2147483648 ≤ p.logZones) (hL' : p.logZones < 2147483648) :
    TranslationExact d p (configOf d p) ↔ Translatable d p := by
  rw [Translatable, ← capacityBytes_eq d p]
  constructor
  · intro h
    refine ⟨h.kept_ne_zero, ?_⟩
    rcases Nat.lt_or_ge (keptZoneBytes d) (configOf d p).capacityBytes with hlt | hge
    · have hexact := h.exactZoneBytes_lt hL hL' hlt
      exact Or.inr ⟨hexact, h.capacityBytes_le hexact, h.lastZone_lt (Nat.zero_lt_of_lt hlt)⟩
    · exact Or.inl hge
  · rintro ⟨hkept, hsmall | ⟨hexact, hkey, hzone⟩⟩
    · exact .of_small hL hL' hkept hsmall
    · have hsame : keptZoneBytes d = exactZoneBytes d := Nat.mod_eq_of_lt hexact
      refine .of_kept hL hkept (fun a _ => by rw [hsame]; exact ⟨rfl, rfl⟩) (fun a ha => by omega)
        fun a ha => ?_
      have hle : a / exactZoneBytes d ≤ ((configOf d p).capacityBytes - 1) / exactZoneBytes d :=
        Nat.div_le_div_right (by omega)
      rw [hsame]
      omega

/-- The same for the small drive. -/
theorem translationExact_iff_small : TranslationExact smallDrive.drive (smallDrive.params true)
    (configOf smallDrive.drive (smallDrive.params true)) :=
  (translationExact_iff (by decide) (by decide)).mpr (by decide)

/-- A drive with four zones of six gibibytes. -/
def wideZones : Drive UInt8 where
  ds := 12
  nrZones := 4
  zoneSize := 2097152
  zoneCap := 1572864
  readAcross := false
  fill := 0
  cap_pos := by decide
  cap_le := by decide

/-- The code divides by two gibibytes, and looks for the address where they end in the second data
zone; it is in the first. -/
theorem upper_half_lost :
    let p : InitParams := { logZones := 2, gcWmark := 1, forceReset := true }
    let c := configOf wideZones p
    c.zoneBytes = 2147483648 ∧ exactZoneBytes wideZones = 6442450944 ∧
      2147483648 < c.capacityBytes ∧ readZone c 2147483648 = 3 ∧
      ¬ TranslationExact wideZones p c := by
  intro p c
  have hlt : 2147483648 < c.capacityBytes := by decide
  have hzone : readZone c 2147483648 = 3 := by decide
  refine ⟨by decide, by decide, hlt, hzone, fun h => ?_⟩
  have hexact := (h.read _ hlt).1
  rw [hzone] at hexact
  exact absurd hexact (by decide)

end StoSys
