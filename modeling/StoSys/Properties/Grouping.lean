import StoSys.Ftl.Collect
import StoSys.Ftl.Frame
import StoSys.Properties.Translation

/-!
# Grouping the log

The loop at the start of a collection copies the log map into one map a zone.  It overwrites every
entry that it has copied, walks the map in whatever order the hash table gives, and inserts only
where nothing is yet.  None of this is a danger: an entry is read before it is overwritten
(`run_groupLog_fst`), and no two addresses have the same place (`addressOf_inj`).  So the groups
are the log under other names, and the names are those the read path uses.

That is for addresses below `2 ^ 63`.  The keys are signed and the addresses of the read path are
not, so a key that has become negative is divided one way here and another way there
(`readZone_negative`), and a log with such a key is not grouped faithfully (`reindexed_iff`).
-/

namespace StoSys

open Effect HashMap Zoned CInt

variable {B σ : Type} {h : Handler (Op B) Op.Res σ} {mem : σ → Ftl} {c : Config} {m : UMap ℤ}

/-- Every key is the address of a block.  It is stored as an `int64_t`. -/
def BlockKeys (c : Config) (m : UMap ℤ) : Prop :=
  ∀ k ∈ m, -9223372036854775808 ≤ k ∧ k < 9223372036854775808 ∧ c.lbaSizeBytes ∣ toU64 k

/-- No address of `2 ^ 63` or more is in the log. -/
def NoNegative (m : UMap ℤ) : Prop := ∀ k ∈ m, 0 ≤ k

/-- Bytes in a zone of this device, exactly. -/
def Config.exactBytes (c : Config) : ℕ := c.nBlocksPerZone * c.lbaSizeBytes

/-- The address of the block at an offset of a virtual zone. -/
def Config.addressOf (c : Config) (v o : ℤ) : ℤ :=
  (v - c.logZoneNumConfig) * c.exactBytes + o * c.lbaSizeBytes

/-- **The log under other names**: the zone sets hold what the log held, every entry once, in the
place where the read path looks for its block. -/
structure Reindexed (c : Config) (m : UMap ℤ) (sets : UMap (UMap ℤ)) : Prop where
  find_iff : ∀ {v o lba : ℤ}, find sets v o = some lba ↔
    0 ≤ o ∧ o < c.nBlocksPerZone ∧ m.lookup (c.addressOf v o) = some lba
  once : ∀ {k lba : ℤ}, m.lookup k = some lba →
    ∃! place : ℤ × ℤ, find sets place.1 place.2 = some lba ∧ c.addressOf place.1 place.2 = k
  read : ∀ {v o lba : ℤ}, find sets v o = some lba →
    readZone c (toU64 (c.addressOf v o)) = v ∧ (readOffset c (toU64 (c.addressOf v o)) : ℤ) = o

/-! ## The loop, in any environment -/

/-- An entry is read where the iterator stands, and the iterator does not come back to it. -/
lemma run_groupLog_fst (hh : Faithful h mem) (c : Config) : ∀ (ks : List ℤ) (s : σ)
    (sets : UMap (UMap ℤ)), ks.Nodup →
    ((groupLog c ks sets).run h s).1 = groupKeys c (mem s).logZoneMapping ks sets
  | [], _, _, _ => rfl
  | k :: ks, s, sets, hnd => by
      obtain ⟨hk, hnd'⟩ := List.nodup_cons.mp hnd
      rw [groupLog, Program.run_bind, run_getFtl_fst hh]
      simp only [Program.run_bind]
      rw [run_groupLog_fst hh c ks _ _ hnd', mem_modifyFtl hh, mem_getFtl hh]
      refine groupKeys_congr c ks _ fun k' hk' => ?_
      have hne : k' ≠ k := by
        rintro rfl
        exact hk hk'
      exact AList.lookup_insert_ne hne

/-! ## Addresses and places -/

/-- **A key in its place**: the collector and the read path put its block where exact integers put
it. -/
structure WellPlaced (c : Config) (k : ℤ) : Prop where
  nonneg : 0 ≤ c.blockOffset k
  lt : c.blockOffset k < c.nBlocksPerZone
  address : c.addressOf (c.virtualZone k) (c.blockOffset k) = k
  zone : readZone c (toU64 k) = c.virtualZone k
  offset : (readOffset c (toU64 k) : ℤ) = c.blockOffset k

/-- **The condition on a log**: no key is negative.  Where a zone is one byte, dividing by it is the
same with and without a sign, and the zone numbers have to fit an `int64_t`. -/
def Groupable (c : Config) (m : UMap ℤ) : Prop :=
  if c.exactBytes = 1 then ∀ k ∈ m, -9223372036854775808 ≤ k + c.logZoneNumConfig ∧
    k + c.logZoneNumConfig < 9223372036854775808
  else NoNegative m

section Places

variable (hpos : 0 < c.exactBytes) (hfit : c.exactBytes < 4294967296)
include hpos

lemma nBlocksPerZone_pos : 0 < c.nBlocksPerZone := Nat.pos_of_mul_pos_right hpos

lemma lbaSizeBytes_pos : 0 < c.lbaSizeBytes := Nat.pos_of_mul_pos_left hpos

/-- **No collision.** -/
lemma addressOf_inj {v v' o o' : ℤ} (ho : 0 ≤ o ∧ o < c.nBlocksPerZone)
    (ho' : 0 ≤ o' ∧ o' < c.nBlocksPerZone) (heq : c.addressOf v o = c.addressOf v' o') :
    v = v' ∧ o = o' := by
  have hlba : (c.lbaSizeBytes : ℤ) ≠ 0 := by
    have := lbaSizeBytes_pos hpos
    omega
  have hn := nBlocksPerZone_pos hpos
  have hbytes : ∀ v o : ℤ, c.addressOf v o
      = (o + c.nBlocksPerZone * (v - c.logZoneNumConfig)) * (c.lbaSizeBytes : ℤ) := by
    intro v o
    rw [Config.addressOf, Config.exactBytes]
    push_cast
    ring
  rw [hbytes, hbytes, Int.mul_eq_mul_right_iff hlba] at heq
  obtain ⟨hdiv, hmod⟩ := (Int.ediv_emod_unique (by omega)).mpr ⟨heq, ho⟩
  obtain ⟨hdiv', hmod'⟩ := (Int.ediv_emod_unique (by omega)).mpr
    (⟨rfl, ho'⟩ : o' + c.nBlocksPerZone * (v' - c.logZoneNumConfig) = _ ∧ _)
  exact ⟨by omega, by omega⟩

omit hpos in
lemma zoneBytes_of_fits (hfit : c.exactBytes < 4294967296) : c.zoneBytes = c.exactBytes :=
  toU32_of_lt hfit

include hfit

/-- **A block below `2 ^ 63`**: the quotient is at most half of it. -/
lemma placed_block (hbytes : c.exactBytes ≠ 1) (hL : -2147483648 ≤ c.logZoneNumConfig)
    (hL' : c.logZoneNumConfig < 2147483648) {q : ℕ}
    (hq : q * c.lbaSizeBytes < 9223372036854775808) : WellPlaced c (q * c.lbaSizeBytes : ℕ) := by
  have hlba := lbaSizeBytes_pos hpos
  have hmod := Nat.mod_lt q (nBlocksPerZone_pos hpos)
  have hzone : c.virtualZone ((q * c.lbaSizeBytes : ℕ) : ℤ)
      = (q / c.nBlocksPerZone : ℕ) + c.logZoneNumConfig := by
    rw [Config.virtualZone, zoneBytes_of_fits hfit, Config.exactBytes, ← Int.ofNat_tdiv,
      Nat.mul_div_mul_right _ _ hlba]
  have hoffset : c.blockOffset ((q * c.lbaSizeBytes : ℕ) : ℤ) = (q % c.nBlocksPerZone : ℕ) := by
    rw [Config.blockOffset, zoneBytes_of_fits hfit, Config.exactBytes, ← Int.ofNat_tmod,
      ← Int.ofNat_tdiv, Nat.mul_mod_mul_right, Nat.mul_div_cancel _ hlba]
  have hdiv : q * c.lbaSizeBytes / c.exactBytes = q / c.nBlocksPerZone :=
    Nat.mul_div_mul_right _ _ hlba
  have hhalf : q / c.nBlocksPerZone ≤ q * c.lbaSizeBytes / 2 := by
    rw [← hdiv]
    exact Nat.div_le_div_left (by omega) (by decide)
  have hsplit := Nat.div_add_mod q c.nBlocksPerZone
  refine ⟨by omega, by omega, ?_, ?_, ?_⟩
  · rw [hzone, hoffset, Config.addressOf, Config.exactBytes, Int.add_sub_cancel]
    conv_rhs => rw [← hsplit]
    push_cast
    ring
  · rw [hzone, toU64_of_lt (by omega), readZone, zoneBytes_of_fits hfit, hdiv]
    generalize q / c.nBlocksPerZone = z at hhalf
    unfold toI64 toU64
    split <;> omega
  · rw [hoffset, toU64_of_lt (by omega), readOffset, zoneBytes_of_fits hfit, Config.exactBytes,
      Nat.mul_mod_mul_right, Nat.mul_div_cancel _ hlba]

omit hpos in
/-- **A zone of one byte**: every key is the number of its zone. -/
lemma placed_byte (hbytes : c.exactBytes = 1) {k : ℤ}
    (hlow : -9223372036854775808 ≤ k + c.logZoneNumConfig)
    (hhigh : k + c.logZoneNumConfig < 9223372036854775808) : WellPlaced c k := by
  have hn : c.nBlocksPerZone = 1 := Nat.eq_one_of_mul_eq_one_right hbytes
  have hzone : c.virtualZone k = k + c.logZoneNumConfig := by
    rw [Config.virtualZone, zoneBytes_of_fits hfit, hbytes, Nat.cast_one, Int.tdiv_one]
  have hoffset : c.blockOffset k = 0 := by
    rw [Config.blockOffset, zoneBytes_of_fits hfit, hbytes, Nat.cast_one, Int.tmod_one,
      Int.zero_tdiv]
  refine ⟨by omega, by omega, ?_, ?_, ?_⟩
  · rw [hzone, hoffset, Config.addressOf, hbytes]
    omega
  · rw [hzone, readZone, zoneBytes_of_fits hfit, hbytes, Nat.div_one]
    unfold toI64 toU64
    split <;> omega
  · rw [hoffset, readOffset, zoneBytes_of_fits hfit, hbytes, Nat.mod_one, Nat.zero_div]
    rfl

lemma Groupable.placed (hL : -2147483648 ≤ c.logZoneNumConfig)
    (hL' : c.logZoneNumConfig < 2147483648) (hkeys : BlockKeys c m) (hm : Groupable c m) :
    ∀ k ∈ m, WellPlaced c k := by
  intro k hk
  rw [Groupable] at hm
  split at hm
  · obtain ⟨hlow, hhigh⟩ := hm k hk
    exact placed_byte hfit ‹_› hlow hhigh
  · obtain ⟨-, hklt, q, hq⟩ := hkeys k hk
    lift k to ℕ using hm k hk
    rw [toU64_of_lt (by omega), Nat.mul_comm] at hq
    rw [hq]
    exact placed_block hpos hfit ‹_› hL hL' (by omega)

/-- **A negative key**: the unsigned division of the read path has a large quotient, and the zone of
the address in exact integers lies below the log zones. -/
lemma readZone_negative (hbytes : c.exactBytes ≠ 1) (hL : -2147483648 ≤ c.logZoneNumConfig)
    (hL' : c.logZoneNumConfig < 2147483648) {v o : ℤ} (ho : 0 ≤ o) (ho' : o < c.nBlocksPerZone)
    (hlow : -9223372036854775808 ≤ c.addressOf v o) (hneg : c.addressOf v o < 0) :
    readZone c (toU64 (c.addressOf v o)) ≠ v := by
  have hlba := lbaSizeBytes_pos hpos
  have hoff : o * c.lbaSizeBytes < c.exactBytes := by
    rw [Config.exactBytes, Nat.cast_mul]
    exact Int.mul_lt_mul_of_pos_right ho' (by omega)
  have hoff' : 0 ≤ o * c.lbaSizeBytes := Int.mul_nonneg ho (by omega)
  rw [readZone, zoneBytes_of_fits hfit]
  unfold Config.addressOf at hlow hneg ⊢
  -- the exact zone, counted from the first data zone, is negative but not by much
  generalize hx : v - c.logZoneNumConfig = x at hlow hneg ⊢
  have htwo : 2 ≤ c.exactBytes := by omega
  generalize c.exactBytes = bytes at hoff hlow hneg htwo hfit ⊢
  generalize o * (c.lbaSizeBytes : ℤ) = r at hoff hoff' hlow hneg ⊢
  have hxneg : x < 0 := by
    by_contra hx
    have := Int.mul_nonneg (show 0 ≤ x by omega) (show (0 : ℤ) ≤ bytes by omega)
    omega
  have hxlow : -9223372036854775808 ≤ x := by
    by_contra hx
    have := Int.mul_le_mul_of_nonneg_right (show x ≤ -9223372036854775809 by omega)
      (show (0 : ℤ) ≤ bytes by omega)
    omega
  have hquot : toU64 (x * bytes + r) / bytes ≤ 9223372036854775807 := by
    have hlt := toU64_lt (x * bytes + r)
    calc toU64 (x * bytes + r) / bytes ≤ toU64 (x * bytes + r) / 2 :=
          Nat.div_le_div_left htwo (by decide)
      _ ≤ 9223372036854775807 := by omega
  generalize toU64 (x * bytes + r) / bytes = z at hquot
  unfold toI64 toU64
  split <;> omega

/-- Where the read path looks where exact integers put every key, the log is groupable. -/
lemma groupable_of_read (hL : -2147483648 ≤ c.logZoneNumConfig)
    (hL' : c.logZoneNumConfig < 2147483648) (hkeys : BlockKeys c m)
    (hread : ∀ k ∈ m, ∃ v o : ℤ, 0 ≤ o ∧ o < c.nBlocksPerZone ∧ c.addressOf v o = k ∧
      readZone c (toU64 k) = v) : Groupable c m := by
  rw [Groupable]
  split
  · rename_i hbytes
    intro k hk
    obtain ⟨v, o, ho, ho', hplace, hv⟩ := hread k hk
    have hn : c.nBlocksPerZone = 1 := Nat.eq_one_of_mul_eq_one_right hbytes
    rw [Config.addressOf, hbytes] at hplace
    rw [← hplace, show o = 0 by omega]
    -- a zone number that is read is an `int64_t`
    rw [readZone, toI64] at hv
    split at hv <;> omega
  · intro k hk
    by_contra hneg
    obtain ⟨v, o, ho, ho', hplace, hv⟩ := hread k hk
    refine readZone_negative hpos hfit ‹_› hL hL' ho ho' ?_ ?_ (hplace ▸ hv)
    · exact hplace ▸ (hkeys k hk).1
    · exact hplace ▸ Int.not_le.mp hneg

omit hfit in
/-- What is in the groups of a log whose keys are all in their places. -/
lemma find_groupKeys_placed (hplaced : ∀ k ∈ m, WellPlaced c k) (order : Traversal ℤ) {v o lba : ℤ} :
    find (groupKeys c m ((order.order m).map Sigma.fst) ∅) v o = some lba ↔
      0 ≤ o ∧ o < c.nBlocksPerZone ∧ m.lookup (c.addressOf v o) = some lba := by
  have hinj : ∀ k ∈ (order.order m).map Sigma.fst, ∀ k' ∈ (order.order m).map Sigma.fst,
      c.virtualZone k = c.virtualZone k' → c.blockOffset k = c.blockOffset k' → k = k' := by
    intro k hk k' hk' hv ho
    rw [← (hplaced k ((order.mem_order_keys m).mp hk)).address, hv, ho]
    exact (hplaced k' ((order.mem_order_keys m).mp hk')).address
  refine (find_groupKeys c m _ ∅ hinj).trans ⟨?_, ?_⟩
  · rintro (hx | ⟨-, k, hk, rfl, rfl, hx⟩)
    · cases hx
    · have hk' := (order.mem_order_keys m).mp hk
      have hp := hplaced k hk'
      obtain ⟨x, hlook⟩ := lookup_of_mem hk'
      rw [hlook, Option.getD_some] at hx
      rw [hp.address, hlook, hx]
      exact ⟨hp.nonneg, hp.lt, rfl⟩
  · rintro ⟨ho, ho', hlook⟩
    have hk := mem_of_lookup hlook
    have hp := hplaced _ hk
    obtain ⟨hv, hoff⟩ := addressOf_inj hpos ⟨hp.nonneg, hp.lt⟩ ⟨ho, ho'⟩ hp.address
    refine Or.inr ⟨rfl, _, (order.mem_order_keys m).mpr hk, hv, hoff, ?_⟩
    rw [hlook, Option.getD_some]

end Places

/-- **When grouping is faithful.**  For every log of block addresses, in every order of the hash
table and in every environment: exactly when no key is negative; and for zones of one byte, when
the zone numbers fit. -/
theorem reindexed_iff (hh : Faithful h mem) (hpos : 0 < c.exactBytes)
    (hfit : c.exactBytes < 4294967296) (hL : -2147483648 ≤ c.logZoneNumConfig)
    (hL' : c.logZoneNumConfig < 2147483648) (order : Traversal ℤ) (s : σ)
    (hkeys : BlockKeys c (mem s).logZoneMapping) :
    let m := (mem s).logZoneMapping
    Reindexed c m ((groupLog c ((order.order m).map Sigma.fst) ∅).run h s).1 ↔ Groupable c m := by
  intro m
  constructor
  · intro hre
    refine groupable_of_read hpos hfit hL hL' hkeys fun k hk => ?_
    obtain ⟨lba, hlook⟩ := lookup_of_mem hk
    obtain ⟨⟨v, o⟩, ⟨hx, hplace⟩, -⟩ := hre.once hlook
    obtain ⟨ho, ho', -⟩ := hre.find_iff.mp hx
    exact ⟨v, o, ho, ho', hplace, hplace ▸ (hre.read hx).1⟩
  intro hm
  have hplaced := hm.placed hpos hfit hL hL' hkeys
  rw [run_groupLog_fst hh c _ s ∅ (order.nodup_keys m)]
  have hfind : ∀ {v o lba : ℤ}, find (groupKeys c m ((order.order m).map Sigma.fst) ∅) v o
      = some lba ↔ 0 ≤ o ∧ o < c.nBlocksPerZone ∧ m.lookup (c.addressOf v o) = some lba :=
    find_groupKeys_placed hpos hplaced order
  refine ⟨hfind, fun {k lba} hk => ?_, fun {v o lba} hx => ?_⟩
  · have hp := hplaced k (mem_of_lookup hk)
    refine ⟨(c.virtualZone k, c.blockOffset k),
      ⟨hfind.mpr ⟨hp.nonneg, hp.lt, by rw [hp.address]; exact hk⟩, hp.address⟩, ?_⟩
    rintro ⟨v, o⟩ ⟨hx, hplace⟩
    obtain ⟨ho, ho', -⟩ := hfind.mp hx
    obtain ⟨hv, hoff⟩ := addressOf_inj hpos ⟨ho, ho'⟩ ⟨hp.nonneg, hp.lt⟩
      (hplace.trans hp.address.symm)
    exact Prod.ext hv hoff
  · obtain ⟨ho, ho', hlook⟩ := hfind.mp hx
    have hp := hplaced _ (mem_of_lookup hlook)
    obtain ⟨hv, hoff⟩ := addressOf_inj hpos ⟨hp.nonneg, hp.lt⟩ ⟨ho, ho'⟩ hp.address
    exact ⟨hp.zone.trans hv, hp.offset.trans hoff⟩

/-- The same for a log of two blocks. -/
theorem reindexed_iff_two :
    let m := ((∅ : UMap ℤ).insert 16384 2).insert 20480 0
    let w : World smallDrive.drive := ⟨{ Ftl.fresh with logZoneMapping := m }, Media.empty _⟩
    Reindexed smallDrive.config m
      ((groupLog smallDrive.config ((Traversal.stored.order m).map Sigma.fst) ∅).run exec w).1 := by
  intro m w
  have hmem : ∀ k ∈ m, k = 20480 ∨ k = 16384 := by
    intro k hk
    rcases (AList.mem_insert _).mp hk with rfl | hk
    · exact Or.inl rfl
    · rcases (AList.mem_insert _).mp hk with rfl | hk
      · exact Or.inr rfl
      · exact absurd hk (AList.notMem_empty k)
  refine (reindexed_iff faithful_exec (by decide) (by decide) (by decide) (by decide)
    Traversal.stored w fun k hk => ?_).mpr ?_
  · rcases hmem k hk with rfl | rfl <;> decide
  · rw [Groupable, if_neg (by decide)]
    intro k hk
    rcases hmem k hk with rfl | rfl <;> decide

/-- **The failing run**: a block is written at the last block address of `uint64_t`.  Its key is
`-4096`, and it is put at offset `-1` of the first data zone, where no read looks for it. -/
theorem negative_key_misplaced :
    let r := (znsUdeviceWrite smallDrive.config [] (2 ^ 64 - 4096) 4096 fun _ => 7).run exec
      (fresh smallDrive)
    let m := r.2.ftl.logZoneMapping
    let sets := ((groupLog smallDrive.config ((Traversal.stored.order m).map Sigma.fst) ∅).run exec
      r.2).1
    r.1 = some 0 ∧ BlockKeys smallDrive.config m ∧ find sets 2 (-1) = some 0 ∧
      ¬ Reindexed smallDrive.config m sets := by
  intro r m sets
  have hfind : find sets 2 (-1) = some 0 := by decide +kernel
  have hkeys : m.keys = [-4096] := by decide +kernel
  refine ⟨by decide +kernel, fun k hk => ?_, hfind, fun hre => ?_⟩
  · rw [AList.mem_keys, hkeys, List.mem_singleton] at hk
    rw [hk]
    decide
  · have hoff := (hre.read hfind).2
    omega

end StoSys
