import StoSys.Ftl.Collect

/-!
# Reading one block

`Holds w q b` says where the last data `b` of user block `q` is: in a written block of the log that
the log map names, or, when the log map does not know `q`, in the data zone of its virtual zone.
A one-block read of such a block returns `b` (`Holds.run_read`), and a pass keeps it
(`Collected.holds`).
-/

namespace StoSys

open Effect HashMap Zoned CInt

variable {B : Type} {g : Setup B} {w : World g.drive}

/-! ## Address translation -/

lemma user_lt {q : ℕ} (hq : q < g.capacity) : q * g.lba + g.lba ≤ 9223372036854775808 := by
  have h1 : g.capacity ≤ g.nrZones * g.nBlocks := Nat.mul_le_mul_right _ (Nat.sub_le _ _)
  have h2 := g.total_lt
  have h3 := g.lba_lt
  calc q * g.lba + g.lba = (q + 1) * g.lba := (Nat.succ_mul q g.lba).symm
    _ ≤ 2147483648 * 4294967296 := Nat.mul_le_mul (by omega) (Nat.le_of_lt h3)
    _ = 9223372036854775808 := rfl

lemma key_eq {q : ℕ} (hq : q < g.capacity) :
    toI64 ((q * g.lba : ℕ) : ℤ) = ((q * g.lba : ℕ) : ℤ) :=
  toI64_of_lt (by have := user_lt hq; have := g.lba_pos; omega)

/-- A log entry is an address, whatever stands there: its top bit is never set. -/
lemma translate_log {m : Ftl} {q y : ℕ} (hq : q < g.capacity) (hy : y < 2 ^ 63)
    (h : m.logZoneMapping.lookup ((q * g.lba : ℕ) : ℤ) = some (y : ℤ)) :
    translate g.config m (q * g.lba) = some y := by
  have h64 : toU64 (y : ℤ) = y := toU64_of_lt (by omega)
  rw [translate, key_eq hq, h]
  simp only [h64, Nat.testBit_lt_two_pow hy, Bool.false_eq_true, if_false]

lemma translate_data {m : Ftl} {q : ℕ} (hq : q < g.capacity)
    (h : m.logZoneMapping.lookup ((q * g.lba : ℕ) : ℤ) = none) :
    translate g.config m (q * g.lba)
      = (m.dataZoneMapping.lookup ((g.vzone q : ℕ) : ℤ)).map
          fun zone => toU64 (zone + (q % g.nBlocks : ℕ)) := by
  have hv := g.vzone_lt hq
  have hnr := g.nrZones_lt
  have hzone : toI64 (toU64 (((q / g.nBlocks : ℕ) : ℤ) + g.config.logZoneNumConfig))
      = ((g.vzone q : ℕ) : ℤ) := by
    have hsum : ((q / g.nBlocks : ℕ) : ℤ) + g.config.logZoneNumConfig = ((g.vzone q : ℕ) : ℤ) := by
      rw [Setup.config_logZoneNumConfig, Setup.vzone]
      push_cast
      ring
    rw [hsum, toU64_of_lt (by omega), toI64_of_lt (by omega)]
  rw [translate, key_eq hq, h]
  dsimp only
  rw [dataEntry, Setup.config_zoneBytes, Setup.config_lbaSizeBytes, g.div_zoneBytes,
    g.mod_zoneBytes, hzone]

/-! ## The read -/

section Read

variable [Zero B]

lemma readLoop_one {q : ℕ} (hq : q < g.capacity) (buf : Buffer B) :
    znsUdeviceRead g.config (q * g.lba) g.lba buf
      = readLoop g.config g.lba (q * g.lba + g.lba) 1 (q * g.lba) 0 buf := by
  have hbound : toU64 (((q * g.lba : ℕ) : ℤ) + (toU32 (((1 : ℕ) : ℤ) * toI32 (g.lba : ℕ)) : ℕ))
      = q * g.lba + g.lba := by
    have h32 : toU32 (toI32 (g.lba : ℤ)) = g.lba := by
      have h := toU32_toI32_add 0 (g.lba : ℤ)
      rw [Int.zero_add, Int.zero_add] at h
      rw [h, toU32_of_lt g.lba_lt]
    have := user_lt hq
    rw [Nat.cast_one, Int.one_mul, h32]
    exact_mod_cast toU64_of_lt (x := q * g.lba + g.lba) (by omega)
  rw [znsUdeviceRead, Setup.config_lbaSizeBytes, Nat.mod_self, if_neg (by simp),
    Nat.div_self g.lba_pos]
  dsimp only
  rw [hbound]

/-- A block without an entry anywhere reads as zeros, without a command. -/
lemma run_read_none {q : ℕ} (hq : q < g.capacity) (buf : Buffer B)
    (h : translate g.config w.ftl (q * g.lba) = none) :
    (znsUdeviceRead g.config (q * g.lba) g.lba buf).run exec w = ((0, buf.store 0 [0]), w) := by
  have hlt : q * g.lba < q * g.lba + g.lba := by have := g.lba_pos; omega
  have hzero : (fun j : ℤ => if 0 ≤ j ∧ j < ((1 : ℕ) : ℤ) then 0 else buf j) = buf.store 0 [0] := by
    funext j
    rw [Buffer.store_single]
    by_cases hj : j = 0
    · rw [if_pos hj, if_pos (by omega)]
    · rw [if_neg hj, if_neg (by omega)]
  rw [readLoop_one hq, readLoop, if_pos hlt]
  simp only [Program.run_bind, run_getFtl, h, Setup.config_lbaSizeBytes, Nat.div_self g.lba_pos,
    hzero, Program.run_pure]

/-- Any other block reads as the block its entry names. -/
lemma run_read_some (hds : g.ds ≤ 18) {q x : ℕ} (hq : q < g.capacity) (buf : Buffer B)
    (h : translate g.config w.ftl (q * g.lba) = some x) (hx : x < g.nrZones * g.nBlocks) :
    (znsUdeviceRead g.config (q * g.lba) g.lba buf).run exec w
      = ((0, buf.store 0 [w.media.blockAt x]), w) := by
  have hlt : q * g.lba < q * g.lba + g.lba := by have := g.lba_pos; omega
  have htotal := g.total_lt
  have hx63 : x % 2 ^ 63 = x := Nat.mod_eq_of_lt (by omega)
  rw [readLoop_one hq, readLoop, if_pos hlt]
  simp only [Program.run_bind, run_getFtl, h, hx63]
  by_cases hsmall : g.lba < mdts
  · have h32 : toI32 (g.lba : ℤ) = (g.lba : ℕ) :=
      toI32_of_lt (by have : mdts = 262144 := rfl; omega)
    simp only [Setup.config_mdts, Setup.config_lbaSizeBytes, if_pos hsmall, h32, Program.run_bind,
      run_nvmeRead_one hx, Nat.zero_div, Nat.cast_zero, ne_eq, not_true_eq_false, if_false, readLoop,
      Program.run_pure]
  · have hi : x / g.nBlocks < g.nrZones := (Nat.div_lt_iff_lt_mul g.nBlocks_pos).mpr hx
    have ho := Nat.mod_lt x g.nBlocks_pos
    have hread := run_ioWithMdts_read (w := w) hds hi (o := x % g.nBlocks) (k := 1) (by omega) 0 buf
    rw [Nat.div_add_mod', Int.zero_mul, Nat.one_mul] at hread
    simp only [Setup.config_mdts, if_neg hsmall, Nat.cast_zero, Program.run_bind, hread, ne_eq,
      not_true_eq_false, if_false, readLoop, Program.run_pure, Media.blocks, List.range_one,
      List.map_cons, List.map_nil, Nat.add_zero]

end Read

/-! ## Where the data of a block is -/

/-- The log map sends `q` to address `y`, and `b` has been written there. -/
def Logged (w : World g.drive) (q y : ℕ) (b : B) : Prop :=
  w.ftl.logZoneMapping.lookup ((q * g.lba : ℕ) : ℤ) = some (y : ℤ) ∧
    w.media.Written y ∧ w.media.blockAt y = b

/-- The last data of block `q` is `b`, and there it is. -/
def Holds (w : World g.drive) (q : ℕ) (b : B) : Prop :=
  (∃ y : ℕ, Logged w q y b) ∨
    w.ftl.logZoneMapping.lookup ((q * g.lba : ℕ) : ℤ) = none ∧
      dataAt w (g.vzone q : ℕ) (q % g.nBlocks) = some b

lemma logRoom_le_total (g : Setup B) : g.logRoom < g.nrZones * g.nBlocks := by
  have h := Nat.mul_le_mul_right g.nBlocks (Nat.le_of_lt g.logZones_lt)
  have := g.logRoom_add_le
  have := g.nBlocks_pos
  omega

/-- A block of a zone in use has been written. -/
lemma ZoneInv.written (hz : ZoneInv g w) {v : ℤ} {e o : ℕ}
    (hv : w.ftl.dataZoneMapping.lookup v = some ((e * g.nBlocks : ℕ) : ℤ)) (ho : o < g.nBlocks) :
    w.media.Written (e * g.nBlocks + o) ∧ e * g.nBlocks + o < g.nrZones * g.nBlocks := by
  obtain ⟨-, hlt, -, hlen⟩ := hz.used hv
  refine ⟨(Setup.written_addr w.media ho).mpr (by rw [hlen]; exact ho), ?_⟩
  have h := Nat.mul_le_mul_right g.nBlocks (Nat.succ_le_of_lt hlt)
  rw [Nat.succ_mul] at h
  omega

/-- The address a reader is led to. -/
lemma Holds.translate (hlog : LogOk g w.ftl.logZoneMapping) (hz : ZoneInv g w) {q : ℕ}
    (hq : q < g.capacity) {b : B} (h : Holds w q b) :
    ∃ x, x < g.nrZones * g.nBlocks ∧ StoSys.translate g.config w.ftl (q * g.lba) = some x ∧
      w.media.Written x ∧ w.media.blockAt x = b := by
  have htotal := g.total_lt
  rcases h with ⟨y, hy, hwritten, hb⟩ | ⟨hnone, hb⟩
  · obtain ⟨-, y', -, -, heq, hlt⟩ := hlog hy
    have := logRoom_le_total g
    exact ⟨y, by omega, translate_log hq (by omega) hy, hwritten, hb⟩
  · have ho := g.offset_lt q
    rw [translate_data hq hnone]
    cases hv : w.ftl.dataZoneMapping.lookup ((g.vzone q : ℕ) : ℤ) with
    | none => rw [dataAt, hv] at hb; cases hb
    | some zone =>
        obtain ⟨e, rfl, -⟩ := hz.val hv
        rw [ZoneInv.dataAt_eq hv] at hb
        obtain ⟨hwritten, hlt⟩ := hz.written hv ho
        refine ⟨e * g.nBlocks + q % g.nBlocks, hlt, ?_, hwritten, Option.some.inj hb⟩
        rw [Option.map_some, ← Nat.cast_add, toU64_of_lt (by omega)]

/-- **A one-block read returns the last data.** -/
theorem Holds.run_read [Zero B] (hds : g.ds ≤ 18) (hlog : LogOk g w.ftl.logZoneMapping)
    (hz : ZoneInv g w) {q : ℕ} (hq : q < g.capacity) {b : B} (h : Holds w q b) (buf : Buffer B) :
    (znsUdeviceRead g.config (q * g.lba) g.lba buf).run exec w = ((0, buf.store 0 [b]), w) := by
  obtain ⟨x, hx, htr, -, hb⟩ := h.translate hlog hz hq
  rw [run_read_some hds hq buf htr hx, hb]

/-! ## What a pass makes of a block -/

section Pass

variable {ord : HashOrder} {q : ℕ} {set : UMap ℤ}

/-- The set of a zone tells which of its blocks are logged. -/
lemma lookup_passSet (hm : LogOk g w.ftl.logZoneMapping)
    (h : ⟨((g.vzone q : ℕ) : ℤ), set⟩ ∈ passSets g ord w.ftl) :
    set.lookup ((q % g.nBlocks : ℕ) : ℤ) = w.ftl.logZoneMapping.lookup ((q * g.lba : ℕ) : ℤ) := by
  cases hq : w.ftl.logZoneMapping.lookup ((q * g.lba : ℕ) : ℤ) with
  | some x =>
      obtain ⟨set', hset', hx⟩ := exists_passSet ord hm hq
      have heq : set = set' := by
        have h1 := (ord.zones.mem_order _).mp h
        have h2 := (ord.zones.mem_order _).mp hset'
        exact Option.some.inj (h1.symm.trans h2)
      rw [heq, hx]
  | none =>
      rw [Option.eq_none_iff_forall_ne_some]
      intro x hx
      obtain ⟨q', hv, ho, hlog⟩ := logged_of_passSet hm h hx
      have : q = q' := g.vzone_offset_inj (by omega) (by omega)
      rw [← this, hq] at hlog
      cases hlog

/-- What is written for block `q` when its zone is merged. -/
lemma merged_passSet (hm : LogOk g w.ftl.logZoneMapping)
    (h : ⟨((g.vzone q : ℕ) : ℤ), set⟩ ∈ passSets g ord w.ftl) (buf : Buffer B) :
    merged w (g.vzone q : ℕ) set buf (q % g.nBlocks : ℕ)
      = match w.ftl.logZoneMapping.lookup ((q * g.lba : ℕ) : ℤ) with
        | some x => w.media.blockAt x.toNat
        | none => (dataAt w (g.vzone q : ℕ) (q % g.nBlocks)).getD (buf (q % g.nBlocks : ℕ)) := by
  have ho := g.offset_lt q
  rw [merged, lookup_passSet hm h]
  cases w.ftl.logZoneMapping.lookup ((q * g.lba : ℕ) : ℤ) with
  | some x => rfl
  | none => simp only [oldBuf, Int.toNat_natCast, Nat.cast_nonneg, Nat.cast_lt, ho, true_and,
      if_true]

lemma finalBuf_snoc (done : ZoneSets) (v : ℤ) (set : UMap ℤ) (buf : Buffer B) :
    finalBuf w (done ++ [⟨v, set⟩]) buf = merged w v set (finalBuf w done buf) := by
  rw [finalBuf, List.foldl_append]
  rfl

/-- A block whose data is somewhere is written back with that data. -/
lemma Holds.merged (hm : LogOk g w.ftl.logZoneMapping)
    (hset : ⟨((g.vzone q : ℕ) : ℤ), set⟩ ∈ passSets g ord w.ftl) {b : B} (h : Holds w q b)
    (buf : Buffer B) : StoSys.merged w (g.vzone q : ℕ) set buf (q % g.nBlocks : ℕ) = b := by
  rw [merged_passSet hm hset]
  rcases h with ⟨y, hy, -, hb⟩ | ⟨hnone, hb⟩
  · rw [hy]
    exact hb
  · rw [hnone, hb]
    rfl

variable [Zero B] {s : World g.drive}

/-- **A pass keeps every block.** -/
theorem Collected.holds (h : Collected ord w s) (hr : Ready g w) {b : B} (hq : Holds w q b) :
    Holds s q b := by
  have ho := g.offset_lt q
  refine Or.inr ⟨by rw [h.ftl]; rfl, ?_⟩
  by_cases hv : ((g.vzone q : ℕ) : ℤ) ∈ (passSets g ord w.ftl).map Sigma.fst
  · obtain ⟨done, set, rest, hsplit⟩ := exists_split hv
    have hmem : ⟨((g.vzone q : ℕ) : ℤ), set⟩ ∈ passSets g ord w.ftl := mem_of_split hsplit
    rw [(h.self hsplit).dataAt_eq ho, finalBuf_snoc, hq.merged hr.log hmem]
  · rw [(h.others _ hv).dataAt_eq hr.zones ho]
    rcases hq with ⟨y, hy, -⟩ | ⟨-, hb⟩
    · obtain ⟨set, hset, -⟩ := exists_passSet ord hr.log hy
      exact absurd (List.mem_map_of_mem hset) hv
    · exact hb

end Pass

end StoSys
