import StoSys.Ftl.Reading
import StoSys.Ftl.Runs

/-!
# Writing

`Inv` is what every history of writes keeps, as long as no request is so large that
`free_zone_number` wraps: the log map names blocks the log may occupy, the cursor stays inside that
part of the log, and the data zones are accounted for.  Nothing is said about what the log zones
hold: that is `Holds`, block by block, and a write keeps it for every block it does not overwrite
(`write_keeps`).

`watermark_lt_iff` is the test of the watermark loop in exact integers, wrap-around included.
-/

namespace StoSys

open Effect HashMap Zoned CInt

variable {B : Type} {g : Setup B} {w : World g.drive}

/-! ## The watermark -/

/-- `free_zone_number(blocks) > gc_watermark`, in exact integers: the request fits below the
watermark, or it is so large that the subtraction wraps. -/
theorem watermark_lt_iff {m : Ftl} {k : ℕ} (hstart : m.logZoneStart = 0)
    (hsum : m.logZoneEnd + k < 4294967296) :
    g.gcWmark < freeZoneNumber g.config m (toI32 k) ↔
      m.logZoneEnd + k < g.logRoom ∨ (g.logZones + 1) * g.nBlocks ≤ m.logZoneEnd + k := by
  have hn := g.nBlocks_pos
  have hwm := g.wmark_lt
  have hL := g.logZones_lt
  have hnr := g.nrZones_lt
  have hused : toU32 ((m.logZoneEnd : ℤ) - m.logZoneStart + toI32 k) = m.logZoneEnd + k := by
    rw [toU32_toI32_add, hstart, Nat.cast_zero, Int.sub_zero]
    exact_mod_cast toU32_of_lt hsum
  have hlt : m.logZoneEnd + k < g.logRoom ↔
      (m.logZoneEnd + k) / g.nBlocks < g.logZones - g.gcWmark :=
    (Nat.div_lt_iff_lt_mul hn).symm
  have hle : (g.logZones + 1) * g.nBlocks ≤ m.logZoneEnd + k ↔
      g.logZones + 1 ≤ (m.logZoneEnd + k) / g.nBlocks := (Nat.le_div_iff_mul_le hn).symm
  have hx : (m.logZoneEnd + k) / g.nBlocks ≤ m.logZoneEnd + k := Nat.div_le_self _ _
  rw [hlt, hle, freeZoneNumber, hused, Setup.config_nBlocksPerZone, Setup.config_logZoneNumConfig]
  generalize (m.logZoneEnd + k) / g.nBlocks = x at hx
  rcases Nat.lt_or_ge g.logZones x with h | h
  · rw [toU32_sub_of_lt h (by omega)]
    omega
  · rw [toU32_sub_of_le h (by omega)]
    omega

section Loop

variable [Zero B]

/-- `w` after one granted pass. -/
def collect (ord : HashOrder) (w : World g.drive) : World g.drive :=
  ((triggerGc g.config ord : Prog B Unit).run exec (asked w)).2

lemma run_watermarkLoop_left {k : ℕ} (h : g.gcWmark < freeZoneNumber g.config w.ftl (toI32 k))
    (passes : List HashOrder) :
    (watermarkLoop g.config k passes : Prog B Bool).run exec w = (true, w) :=
  watermarkLoop_left (c := g.config) h passes

lemma run_watermarkLoop_nil {k : ℕ} (h : freeZoneNumber g.config w.ftl (toI32 k) ≤ g.gcWmark) :
    (watermarkLoop g.config k [] : Prog B Bool).run exec w = (false, w) :=
  watermarkLoop_nil (c := g.config) h

lemma run_watermarkLoop_pass {k : ℕ} (h : freeZoneNumber g.config w.ftl (toI32 k) ≤ g.gcWmark)
    (ord : HashOrder) (passes : List HashOrder) :
    (watermarkLoop g.config k (ord :: passes) : Prog B Bool).run exec w
      = (watermarkLoop g.config k passes : Prog B Bool).run exec (collect ord w) :=
  watermarkLoop_pass (c := g.config) h ord passes

/-- **Rule for the watermark loop**: what passes keep, the loop keeps. -/
lemma watermarkLoop_rule {P : World g.drive → Prop} {k : ℕ}
    (hpass : ∀ ord w, P w → freeZoneNumber g.config w.ftl (toI32 k) ≤ g.gcWmark →
      P (collect ord w)) :
    ∀ (passes : List HashOrder) (w : World g.drive), P w →
      let r := (watermarkLoop g.config k passes : Prog B Bool).run exec w
      P r.2 ∧ (r.1 = true → g.gcWmark < freeZoneNumber g.config r.2.ftl (toI32 k)) :=
  fun passes _ hw => watermarkLoop_keeps hpass passes hw

end Loop

/-! ## The log map -/

/-- The map entries of `k` blocks from `a` on are the `k` addresses from `c` on. -/
lemma lookup_mapBlocks {a c : ℕ} (hc : c < 2147483648) (log : UMap ℤ) (key : ℤ) : ∀ k : ℕ,
    a + k ≤ g.capacity → k * g.lba < 4294967296 → c + k < 4294967296 →
    (mapBlocks g.config (a * g.lba) c k log).lookup key
      = if ∃ i < k, key = (((a + i) * g.lba : ℕ) : ℤ) then
          some (c + (key / g.lba - a))
        else log.lookup key
  | 0, _, _, _ => by
      rw [mapBlocks, List.range_zero, List.foldl_nil, if_neg]
      rintro ⟨i, hi, -⟩
      omega
  | k + 1, hcap, hsize, hck => by
      have hlba := g.lba_pos
      have hk : k * g.lba < 4294967296 := by
        rw [Nat.succ_mul] at hsize
        omega
      have ih := lookup_mapBlocks (a := a) hc log key k (by omega) hk (by omega)
      have hkey : toI64 (((a * g.lba : ℕ) : ℤ) + (toU32 ((k * g.config.lbaSizeBytes : ℕ) : ℤ) : ℕ))
          = (((a + k) * g.lba : ℕ) : ℤ) := by
        rw [Setup.config_lbaSizeBytes, toU32_of_lt hk, ← Nat.cast_add, ← Nat.add_mul]
        exact key_eq (g := g) (by omega)
      have hval : ((toU32 ((c : ℤ) + (k : ℕ)) : ℕ) : ℤ) = c + k := by
        rw [← Nat.cast_add, toU32_of_lt (by omega)]
      rw [mapBlocks, List.range_succ, List.foldl_append]
      rw [mapBlocks] at ih
      rw [List.foldl_cons, List.foldl_nil, hkey, hval, lookup_insert_eq, ih]
      by_cases hlast : key = (((a + k) * g.lba : ℕ) : ℤ)
      · have hdiv : key / (g.lba : ℤ) = (a + k : ℕ) := by
          rw [hlast]
          exact_mod_cast Nat.mul_div_cancel (a + k) hlba
        rw [if_pos hlast, if_pos ⟨k, by omega, hlast⟩, hdiv]
        exact congrArg some (by omega)
      · rw [if_neg hlast]
        refine if_congr ⟨?_, ?_⟩ rfl rfl
        · rintro ⟨i, hi, h⟩
          exact ⟨i, by omega, h⟩
        · rintro ⟨i, hi, h⟩
          refine ⟨i, ?_, h⟩
          have : i ≠ k := by
            rintro rfl
            exact hlast h
          omega

/-- The same, read by user block. -/
lemma lookup_mapBlocks_user {a c k : ℕ} (hc : c < 2147483648) (log : UMap ℤ)
    (hcap : a + k ≤ g.capacity) (hsize : k * g.lba < 4294967296) (hck : c + k < 4294967296) (q : ℕ) :
    (mapBlocks g.config (a * g.lba) c k log).lookup ((q * g.lba : ℕ) : ℤ)
      = if a ≤ q ∧ q < a + k then some ((c + (q - a) : ℕ) : ℤ)
        else log.lookup ((q * g.lba : ℕ) : ℤ) := by
  rw [lookup_mapBlocks hc log _ k hcap hsize hck]
  have hdiv : ((q * g.lba : ℕ) : ℤ) / (g.lba : ℤ) = q := by
    exact_mod_cast Nat.mul_div_cancel q g.lba_pos
  by_cases h : a ≤ q ∧ q < a + k
  · rw [if_pos h, if_pos ⟨q - a, by omega, by rw [Nat.add_sub_cancel' h.1]⟩, hdiv]
    exact congrArg some (by omega)
  · rw [if_neg h, if_neg]
    rintro ⟨i, hi, heq⟩
    have := addr_inj heq
    omega

/-- New entries name the blocks from the cursor on. -/
lemma LogOk.mapBlocks {a c k : ℕ} {log : UMap ℤ} (h : LogOk g log) (hcap : a + k ≤ g.capacity)
    (hsize : k * g.lba < 4294967296) (hck : c + k ≤ g.logRoom) :
    LogOk g (StoSys.mapBlocks g.config (a * g.lba) c k log) := by
  have hroom := g.logRoom_lt
  intro key x hx
  rw [lookup_mapBlocks (by omega) log key k hcap hsize (by omega)] at hx
  by_cases hnew : ∃ i < k, key = (((a + i) * g.lba : ℕ) : ℤ)
  · rw [if_pos hnew] at hx
    obtain ⟨i, hi, rfl⟩ := hnew
    have hdiv : (((a + i) * g.lba : ℕ) : ℤ) / (g.lba : ℤ) = (a + i : ℕ) := by
      exact_mod_cast Nat.mul_div_cancel (a + i) g.lba_pos
    rw [hdiv] at hx
    have hx' := Option.some.inj hx
    exact ⟨a + i, c + i, rfl, by omega, by omega, by omega⟩
  · rw [if_neg hnew] at hx
    exact h hx

/-! ## The body of a write -/

/-- What a successful write leaves in memory, once the blocks are on the medium. -/
def entered (w : World g.drive) (a k c : ℕ) : World g.drive :=
  ⟨{ w.ftl with
    logZoneMapping := mapBlocks g.config (a * g.lba) c k w.ftl.logZoneMapping
    gcMutex := false }, w.media⟩

section Body

variable {a k : ℕ}

/-- The addresses `writeBody` derives from the cursor. -/
lemma cursor_eq {c : ℕ} (hc : c < 2147483648) :
    toI32 (c : ℤ) = (c : ℕ) ∧
      toU32 (toI32 ((c / g.nBlocks : ℕ) : ℤ) * (g.nBlocks : ℕ)) = c / g.nBlocks * g.nBlocks := by
  have hle := Nat.div_mul_le_self c g.nBlocks
  have hdiv := Nat.div_le_self c g.nBlocks
  refine ⟨toI32_of_lt hc, ?_⟩
  rw [toI32_of_lt (by omega), ← Nat.cast_mul, toU32_of_lt (by omega)]

/-- A write of less than `MDTS` has blocks of less than `MDTS`. -/
lemma ds_lt_of_small (hk : 0 < k) (hsmall : k * g.lba < mdts) : g.ds < 18 := by
  by_contra hds
  have hlba : mdts ≤ g.lba := Nat.pow_le_pow_right (show 0 < 2 by decide) (Nat.le_of_not_lt hds)
  exact absurd (hlba.trans (Nat.le_mul_of_pos_left g.lba hk)) (Nat.not_le.mpr hsmall)

/-- The count and length of an append below `MDTS`. -/
lemma append_args (hk : 0 < k) (hsmall : k * g.lba < mdts) :
    toU16 ((toU32 ((k : ℤ) - 1) : ℕ) : ℤ) = k - 1 ∧ toU32 ((k * g.lba : ℕ) : ℤ) = k * g.lba := by
  have hmdts : mdts = 262144 := rfl
  have h16 : k ≤ 65535 := by
    by_contra h
    have := Nat.mul_le_mul (show 65536 ≤ k by omega) g.lba_ge
    omega
  refine ⟨?_, toU32_of_lt (by omega)⟩
  rw [show (k : ℤ) - 1 = ((k - 1 : ℕ) : ℤ) by omega, toU32_of_lt (by omega), toU16_of_lt (by omega)]

/-- Such an append is as good as the drive makes it. -/
lemma run_nvmeZnsAppend_small (hk : 0 < k) (hsmall : k * g.lba < mdts) (zslba : ℕ) {bs : List B}
    (hbs : bs.length = k) :
    (nvmeZnsAppend zslba (toU32 ((k : ℤ) - 1)) ((k * g.lba : ℕ) : ℤ) bs : Prog B _).run exec w
      = match w.media.append zslba bs with
        | some (lba, m) => ((0, lba), World.mk w.ftl m)
        | none => ((commandError, 0), w) := by
  obtain ⟨hnlb, hsize⟩ := append_args hk hsmall
  have hk1 : k - 1 + 1 = k := by omega
  rw [nvmeZnsAppend, Program.run_perform, hnlb, hsize]
  simp only [exec, hk1, hbs, Setup.drive_lbaSize, and_self, if_true]
  cases w.media.append zslba bs <;> rfl

lemma run_nvmeZnsAppend (hk : 0 < k) (hsmall : k * g.lba < mdts) {z : ℕ} (hz : z < g.nrZones)
    {bs : List B} (hbs : bs.length = k) (hroom : (w.media.zone z).length + bs.length ≤ g.nBlocks) :
    (nvmeZnsAppend (z * g.nBlocks) (toU32 ((k : ℤ) - 1)) ((k * g.lba : ℕ) : ℤ) bs
        : Prog B _).run exec w
      = ((0, z * g.nBlocks + (w.media.zone z).length),
          World.mk w.ftl (w.media.setZone z (w.media.zone z ++ bs)
            (by rw [List.length_append]; exact hroom))) := by
  have happend := Media.append_start w.media (i := z) hz hroom
  simp only [Setup.drive_zoneSize] at happend
  rw [run_nvmeZnsAppend_small hk hsmall _ hbs, happend]

/-- An append that does not fit is refused, and so is an append of nothing: its zero-based count
is `65535`. -/
lemma run_nvmeZnsAppend_refused (hsmall : k * g.lba < mdts) {z : ℕ} {bs : List B}
    (hbs : bs.length = k) (hroom : k = 0 ∨ g.nBlocks < (w.media.zone z).length + k) :
    (nvmeZnsAppend (z * g.nBlocks) (toU32 ((k : ℤ) - 1)) ((k * g.lba : ℕ) : ℤ) bs
        : Prog B _).run exec w = ((commandError, 0), w) := by
  rcases Nat.eq_zero_or_pos k with hk | hk
  · subst hk
    have hnlb : toU16 ((toU32 (((0 : ℕ) : ℤ) - 1) : ℕ) : ℤ) = 65535 := by decide
    have hsize : toU32 ((0 * g.lba : ℕ) : ℤ) = 0 := by rw [Nat.zero_mul]; rfl
    have hlba := g.lba_pos
    rw [nvmeZnsAppend, Program.run_perform, hnlb, hsize]
    dsimp only [exec]
    rw [if_neg]
    rintro ⟨h, -⟩
    rw [Setup.drive_lbaSize] at h
    omega
  · have happend := Media.append_start_full w.media (i := z) bs
      (by rw [hbs, Setup.drive_zoneCap]; omega)
    simp only [Setup.drive_zoneSize] at happend
    rw [run_nvmeZnsAppend_small hk hsmall _ hbs, happend]

/-- Below `MDTS` the blocks are appended to the zone of the cursor. -/
lemma run_writeBody_append (hk : 0 < k) (hsmall : k * g.lba < mdts)
    (hc : w.ftl.logZoneEnd < 2147483648) {z : ℕ} (hz : w.ftl.logZoneEnd / g.nBlocks = z)
    (hznr : z < g.nrZones) (buf : Buffer B)
    (hroom : (w.media.zone z).length + (buf.slice 0 k).length ≤ g.nBlocks) :
    (writeBody g.config (a * g.lba) (k * g.lba) buf).run exec w
      = (0, entered ⟨{ w.ftl with
          logZoneEnd := z * g.nBlocks + (w.media.zone z).length + 1 },
          w.media.setZone z (w.media.zone z ++ buf.slice 0 k)
            (by rw [List.length_append]; exact hroom)⟩ a k w.ftl.logZoneEnd) := by
  obtain ⟨hcur, hslba⟩ := cursor_eq (g := g) hc
  rw [hz] at hslba
  have hend : toU32 ((z * g.nBlocks + (w.media.zone z).length + 1 : ℕ) : ℤ)
      = z * g.nBlocks + (w.media.zone z).length + 1 := by
    have hlen := Buffer.length_slice buf 0 k
    have := g.addr_lt hznr (o := (w.media.zone z).length) (by omega)
    exact toU32_of_lt (by omega)
  have hcmd := run_nvmeZnsAppend hk hsmall hznr (Buffer.length_slice buf 0 k) hroom
  simp only [writeBody, Program.run_bind, run_getFtl, Setup.config_lbaSizeBytes,
    Nat.mul_div_cancel _ g.lba_pos, Setup.config_nBlocksPerZone, hcur, hz, hslba, Setup.config_mdts,
    hsmall, if_true, hcmd, ne_eq, not_true_eq_false, if_false, run_modifyFtl, Program.run_pure, hend]
  rfl

lemma run_writeBody_append_refused (hsmall : k * g.lba < mdts)
    (hc : w.ftl.logZoneEnd < 2147483648) {z : ℕ} (hz : w.ftl.logZoneEnd / g.nBlocks = z)
    (hroom : k = 0 ∨ g.nBlocks < (w.media.zone z).length + k) (buf : Buffer B) :
    (writeBody g.config (a * g.lba) (k * g.lba) buf).run exec w = (commandError, w) := by
  obtain ⟨hcur, hslba⟩ := cursor_eq (g := g) hc
  rw [hz] at hslba
  have hcmd := run_nvmeZnsAppend_refused (w := w) hsmall (Buffer.length_slice buf 0 k) hroom
  have herr : ¬ commandError = 0 := by decide
  simp only [writeBody, Program.run_bind, run_getFtl, Setup.config_lbaSizeBytes,
    Nat.mul_div_cancel _ g.lba_pos, Setup.config_nBlocksPerZone, hcur, hz, hslba, Setup.config_mdts,
    hsmall, if_true, hcmd, ne_eq, herr, not_false_eq_true, Program.run_pure]

lemma large_pos (hlarge : mdts ≤ k * g.lba) : 0 < k := by
  by_contra hk
  rw [Nat.eq_zero_of_not_pos hk, Nat.zero_mul] at hlarge
  exact absurd hlarge (by decide)

/-- From `MDTS` on they are written from the start of the zone of the cursor, and the cursor stays
where it is. -/
lemma run_writeBody_large (hlarge : mdts ≤ k * g.lba)
    (hc : w.ftl.logZoneEnd < 2147483648) {z : ℕ} (hz : w.ftl.logZoneEnd / g.nBlocks = z)
    (buf : Buffer B) :
    let r := (ioWithMdts g.config (z * g.nBlocks) 0 (k * g.lba) false buf).run exec w
    (writeBody g.config (a * g.lba) (k * g.lba) buf).run exec w
      = if r.1.1 = 0 then (0, entered r.2 a k w.ftl.logZoneEnd) else (r.1.1, r.2) := by
  obtain ⟨hcur, hslba⟩ := cursor_eq (g := g) hc
  rw [hz] at hslba
  intro r
  have hr : (ioWithMdts g.config (z * g.nBlocks) 0 (k * g.lba) false buf).run exec w = r := rfl
  simp only [writeBody, Program.run_bind, run_getFtl, Setup.config_lbaSizeBytes,
    Nat.mul_div_cancel _ g.lba_pos, Setup.config_nBlocksPerZone, hcur, hz, hslba, Setup.config_mdts,
    Nat.not_lt.mpr hlarge, if_false, hr]
  by_cases h : r.1.1 = 0
  · simp only [h, ne_eq, not_true_eq_false, if_false, if_true, Program.run_bind, run_modifyFtl,
      Program.run_pure]
    rfl
  · simp only [h, ne_eq, not_false_eq_true, if_true, if_false, Program.run_pure]

/-- However far that gets, it only ever extends the zones it covers. -/
lemma writeBody_large (hlarge : mdts ≤ k * g.lba) (hc : w.ftl.logZoneEnd < 2147483648) {z : ℕ}
    (hz : w.ftl.logZoneEnd / g.nBlocks = z) (hsum : z * g.nBlocks + k < 4294967296)
    (buf : Buffer B) :
    ∃ ret t, Grew w (z * g.nBlocks) (z * g.nBlocks + k) t ∧ (ret = 0 → g.ds ≤ 18) ∧
      (writeBody g.config (a * g.lba) (k * g.lba) buf).run exec w
        = if ret = 0 then (0, entered t a k w.ftl.logZoneEnd) else (ret, t) := by
  have hrun := run_writeBody_large (w := w) (a := a) hlarge hc hz buf
  refine ⟨_, _, ?_, ?_, hrun⟩
  · rcases Nat.lt_or_ge 18 g.ds with hds | hds
    · rw [ioWithMdts_write_big hds (large_pos hlarge)]
      exact Grew.refl w _ _
    · exact ioWithMdts_write_grew hds hsum buf
  · intro hret
    by_contra hds
    rw [ioWithMdts_write_big (Nat.lt_of_not_le hds) (large_pos hlarge)] at hret
    exact absurd hret (show ¬ commandError = 0 by decide)

/-- The address only matters to the log map. -/
lemma writeBody_address (c : Config) (a b size : ℕ) (buf : Buffer B) (w : World g.drive) :
    let r := (writeBody c a size buf).run exec w
    let s := (writeBody c b size buf).run exec w
    r.1 = s.1 ∧ r.2.media = s.2.media ∧
      r.2.ftl = { s.2.ftl with logZoneMapping := r.2.ftl.logZoneMapping } := by
  simp only [writeBody, Program.run_bind, Program.run_ite, run_getFtl, run_modifyFtl,
    Program.run_pure]
  split_ifs <;> exact ⟨rfl, rfl, rfl⟩

end Body

/-! ## The whole call -/

section Call

variable [Zero B] {a k : ℕ}

lemma run_write_blocked (passes : List HashOrder) (hm : w.ftl.gcMutex = true) (buf : Buffer B) :
    (znsUdeviceWrite g.config passes a (k * g.lba) buf).run exec w = (none, w) :=
  znsUdeviceWrite_blocked (Nat.mul_mod_left k g.lba) hm passes buf

lemma run_write (passes : List HashOrder) (hm : w.ftl.gcMutex = false) (buf : Buffer B) :
    let l := (watermarkLoop g.config k passes : Prog B Bool).run exec (locked w)
    let r := (writeBody g.config a (k * g.lba) buf).run exec l.2
    (znsUdeviceWrite g.config passes a (k * g.lba) buf).run exec w
      = if l.1 = true then (some r.1, r.2) else (none, l.2) := by
  have hrun := @znsUdeviceWrite_locked _ _ _ g.config w a _ (Nat.mul_mod_left k g.lba) hm passes buf
  rw [Setup.config_lbaSizeBytes, Nat.mul_div_cancel _ g.lba_pos] at hrun
  exact hrun

variable {size : ℕ} {buf : Buffer B} {passes : List HashOrder}

/-- **How a call ends**: it does not return, for the mutex or at the watermark, or it returns what
its body returns. -/
lemma run_write_rule {Q : Option ℤ × World g.drive → Prop} (hsize : size = k * g.lba)
    (hblocked : Q (none, w))
    (hloop : let l := (watermarkLoop g.config k passes : Prog B Bool).run exec (locked w)
      Q (none, l.2) ∧ (l.1 = true →
        let r := (writeBody g.config a size buf).run exec l.2
        Q (some r.1, r.2))) :
    Q ((znsUdeviceWrite g.config passes a size buf).run exec w) := by
  subst hsize
  obtain ⟨hwait, hleft⟩ := hloop
  cases hm : w.ftl.gcMutex with
  | true =>
      rw [run_write_blocked passes hm]
      exact hblocked
  | false =>
      rw [run_write passes hm]
      split
      · exact hleft ‹_›
      · exact hwait

/-- A call that returns found the mutex free, and has left its watermark loop. -/
lemma write_left {r : ℤ} {w' : World g.drive} (hsize : size = k * g.lba)
    (h : (znsUdeviceWrite g.config passes a size buf).run exec w = (some r, w')) :
    w.ftl.gcMutex = false ∧
      let l := (watermarkLoop g.config k passes : Prog B Bool).run exec (locked w)
      l.1 = true ∧ (writeBody g.config a size buf).run exec l.2 = (r, w') := by
  subst hsize
  cases hm : w.ftl.gcMutex with
  | true =>
      rw [run_write_blocked _ hm] at h
      cases h
  | false =>
      refine ⟨rfl, ?_⟩
      have hrun := run_write (a := a) (k := k) passes hm buf
      intro l
      change _ = if l.1 = true then _ else _ at hrun
      rw [h] at hrun
      by_cases hl : l.1 = true
      · rw [if_pos hl] at hrun
        injection hrun with h₁ h₂
        exact ⟨hl, Prod.ext (Option.some.inj h₁).symm h₂.symm⟩
      · rw [if_neg hl] at hrun
        cases hrun

end Call

/-! ## What every write keeps -/

/-- The invariant of all histories without a wrapped request. -/
structure Inv (g : Setup B) (w : World g.drive) : Prop where
  start : w.ftl.logZoneStart = 0
  end_le : w.ftl.logZoneEnd ≤ g.logRoom
  log : LogOk g w.ftl.logZoneMapping
  zones : ZoneInv g w
  tight : Tight g w
  big : 18 < g.ds → w.ftl.logZoneMapping = ∅

namespace Inv

/-- A one-block request never wraps. -/
lemma no_wrap (h : Inv g w) : w.ftl.logZoneEnd + 1 < (g.logZones + 1) * g.nBlocks := by
  have hend := h.end_le
  have hle := g.logRoom_add_le
  have hn := g.nBlocks_pos
  rw [Nat.succ_mul]
  omega

lemma ready (h : Inv g w) : Ready g w := Ready.of_tight h.log h.zones h.tight h.big

lemma setFlags (h : Inv g w) {s : World g.drive} (hmedia : s.media = w.media)
    (hftl : s.ftl = { w.ftl with
      gcMutex := s.ftl.gcMutex
      triggerMyGc := s.ftl.triggerMyGc
      gcThreadStop := s.ftl.gcThreadStop }) : Inv g s := by
  have hstates : s.ftl.zoneStates = w.ftl.zoneStates := by rw [hftl]
  have hmap : s.ftl.dataZoneMapping = w.ftl.dataZoneMapping := by rw [hftl]
  have hlog : s.ftl.logZoneMapping = w.ftl.logZoneMapping := by rw [hftl]
  refine ⟨by rw [hftl]; exact h.start, by rw [hftl]; exact h.end_le, by rw [hlog]; exact h.log, ?_,
    h.tight.congr hmap hstates, by rw [hlog]; exact h.big⟩
  exact h.zones.congr hmap hstates fun i _ => by rw [hmedia]

lemma setEnd (h : Inv g w) {e : ℕ} (he : e ≤ g.logRoom) :
    Inv g ⟨{ w.ftl with logZoneEnd := e }, w.media⟩ :=
  ⟨h.start, he, h.log, h.zones.congr rfl rfl fun _ _ => rfl, h.tight.congr rfl rfl, h.big⟩

/-- Zones of the log may grow. -/
lemma grow (h : Inv g w) {s : World g.drive} {lo hi : ℕ} (hs : Grew w lo hi s)
    (hhi : hi ≤ g.logZones * g.nBlocks) : Inv g s := by
  refine ⟨by rw [hs.ftl]; exact h.start, by rw [hs.ftl]; exact h.end_le,
    by rw [hs.ftl]; exact h.log, ?_, h.tight.congr (by rw [hs.ftl]) (by rw [hs.ftl]),
    by rw [hs.ftl]; exact h.big⟩
  refine h.zones.congr (by rw [hs.ftl]) (by rw [hs.ftl]) fun i hi' => ?_
  by_contra hne
  have hlt := (hs.within i hne).2
  have := Nat.mul_le_mul_right g.nBlocks hi'
  omega

end Inv

/-- Growing zones lose no block. -/
lemma Grew.blockAt {s : World g.drive} {lo hi : ℕ} (hs : Grew w lo hi s) {x : ℕ}
    (hx : w.media.Written x) : s.media.Written x ∧ s.media.blockAt x = w.media.blockAt x := by
  obtain ⟨ext, hext⟩ := hs.grows (x / g.nBlocks)
  have hx' : x % g.nBlocks < (w.media.zone (x / g.nBlocks)).length := hx
  unfold Media.Written Media.blockAt
  rw [Setup.drive_zoneSize, ← hext, List.length_append, List.getElem?_append_left hx']
  exact ⟨by omega, rfl⟩

/-- Zones in use are full, so a transfer leaves them alone. -/
lemma Grew.dataAt {s : World g.drive} {lo hi : ℕ} (hs : Grew w lo hi s) (hz : ZoneInv g w) (v : ℤ)
    {o : ℕ} (ho : o < g.nBlocks) : StoSys.dataAt s v o = StoSys.dataAt w v o := by
  unfold StoSys.dataAt
  rw [hs.ftl]
  cases hv : w.ftl.dataZoneMapping.lookup v with
  | none => rfl
  | some zone =>
      obtain ⟨e, rfl, -⟩ := hz.val hv
      rw [Option.map_some, Option.map_some, Int.toNat_natCast, (hs.blockAt (hz.written hv ho).1).2]

lemma Holds.grow {s : World g.drive} {lo hi q : ℕ} {b : B} (hq : Holds w q b)
    (hs : Grew w lo hi s) (hz : ZoneInv g w) : Holds s q b := by
  rcases hq with ⟨y, hy, hwritten, hb⟩ | ⟨hnone, hb⟩
  · obtain ⟨hwritten', hb'⟩ := hs.blockAt hwritten
    exact Or.inl ⟨y, by rw [hs.ftl, hy], hwritten', hb'.trans hb⟩
  · exact Or.inr ⟨by rw [hs.ftl, hnone], by rw [hs.dataAt hz _ (g.offset_lt q), hb]⟩

/-- A block that is not overwritten is where it was. -/
lemma Holds.entered {q c : ℕ} {a k : ℕ} {b : B} (hq : Holds w q b) (hc : c < 2147483648)
    (hcap : a + k ≤ g.capacity) (hsize : k * g.lba < 4294967296) (hck : c + k < 4294967296)
    (hout : q < a ∨ a + k ≤ q) : Holds (StoSys.entered w a k c) q b := by
  have hlook := lookup_mapBlocks_user hc w.ftl.logZoneMapping hcap hsize hck q
  rw [if_neg (by omega)] at hlook
  rcases hq with ⟨y, hy, h⟩ | ⟨hnone, hb⟩
  · exact Or.inl ⟨y, hlook.trans hy, h⟩
  · exact Or.inr ⟨hlook.trans hnone, hb⟩

/-- An entry for the block just appended leads to its data exactly where the medium put it. -/
lemma logged_entered {q k i : ℕ} {b : B} (hcap : q + k ≤ g.capacity)
    (hsize : k * g.lba < 4294967296) (hi : i < k) {c : ℕ} (hck : c + k ≤ g.logRoom)
    (hwritten : w.media.Written (c + i)) (hb : w.media.blockAt (c + i) = b) :
    Logged (entered w q k c) (q + i) (c + i) b := by
  have hroom := g.logRoom_lt
  refine ⟨?_, hwritten, hb⟩
  have h := lookup_mapBlocks_user (a := q) (c := c) (k := k) (by omega) w.ftl.logZoneMapping hcap
    hsize (by omega) (q + i)
  rw [if_pos (by omega), Nat.add_sub_cancel_left] at h
  exact h

/-- Entering the blocks of a write below the watermark. -/
lemma Inv.entered {a k c : ℕ} (h : Inv g w) (hcap : a + k ≤ g.capacity)
    (hsize : k * g.lba < 4294967296) (hck : c + k ≤ g.logRoom) (hbig : g.ds ≤ 18) :
    Inv g (StoSys.entered w a k c) :=
  ⟨h.start, h.end_le, LogOk.mapBlocks h.log hcap hsize hck, h.zones.congr rfl rfl fun _ _ => rfl,
    h.tight.congr rfl rfl, fun hds => absurd hds (by omega)⟩

/-- An append that fits is one growth of the zone of the cursor. -/
lemma grew_append (z : ℕ) (bs : List B)
    (hroom : (w.media.zone z ++ bs).length ≤ g.drive.zoneCap) :
    Grew w (z * g.nBlocks) (z * g.nBlocks + 1)
      ⟨w.ftl, w.media.setZone z (w.media.zone z ++ bs) hroom⟩ := by
  refine ⟨rfl, fun i => ?_, fun i hi => ?_⟩
  · rw [Media.setZone_zone]
    split
    · rename_i hz
      rw [hz]
      exact List.prefix_append _ _
    · exact List.prefix_rfl
  · have hz : i = z := by
      by_contra hz
      exact hi (Media.setZone_zone_ne _ _ hroom hz)
    rw [hz, Nat.succ_mul]
    have := g.nBlocks_pos
    omega

/-- A 32-bit size is less than `2 ^ 30` blocks. -/
lemma blocks_lt {k : ℕ} (hsize : k * g.lba < 4294967296) : k < 1073741824 := by
  have := Nat.mul_le_mul_left k g.lba_ge
  omega

/-- The zone of a cursor inside the part of the log that writes may fill ends inside it. -/
lemma zone_end_le {c z : ℕ} (hc : c < g.logRoom) (hz : c / g.nBlocks = z) :
    z * g.nBlocks + g.nBlocks ≤ g.logRoom := by
  have hlt : z < g.logZones - g.gcWmark := by
    rw [← hz]
    exact (Nat.div_lt_iff_lt_mul g.nBlocks_pos).mpr hc
  rw [← Nat.succ_mul]
  exact Nat.mul_le_mul_right _ hlt

/-- The body of a write that has passed the watermark loop, in all its outcomes. -/
lemma Inv.writeBody {a k : ℕ} (h : Inv g w) (hcap : a + k ≤ g.capacity)
    (hsize : k * g.lba < 4294967296)
    (hpass : w.ftl.logZoneEnd + k < g.logRoom ∨ k * g.lba < mdts ∧ g.nBlocks < k)
    (buf : Buffer B) :
    let r := (StoSys.writeBody g.config (a * g.lba) (k * g.lba) buf).run exec w
    Inv g r.2 ∧ ∀ {q b}, Holds w q b → (r.1 = 0 → q < a ∨ a + k ≤ q) → Holds r.2 q b := by
  have hroomlt := g.logRoom_lt
  have hend := h.end_le
  have hle := g.logRoom_add_le
  have hc : w.ftl.logZoneEnd < 2147483648 := by omega
  have hn := g.nBlocks_pos
  obtain ⟨z, hz⟩ : ∃ z, w.ftl.logZoneEnd / g.nBlocks = z := ⟨_, rfl⟩
  have hstart : z * g.nBlocks ≤ w.ftl.logZoneEnd := hz ▸ Nat.div_mul_le_self _ _
  have hzL : z < g.logZones := by
    rw [← hz]
    exact (Nat.div_lt_iff_lt_mul hn).mpr (by omega)
  have hLnr := g.logZones_lt
  rcases Nat.lt_or_ge (k * g.lba) mdts with hsmall | hlarge
  · by_cases hroom : 0 < k ∧ (w.media.zone z).length + k ≤ g.nBlocks
    · -- the append fits, so the request is below the watermark
      have hck : w.ftl.logZoneEnd + k < g.logRoom := by omega
      have hds := ds_lt_of_small hroom.1 hsmall
      have hroom' : (w.media.zone z).length + (buf.slice 0 k).length ≤ g.nBlocks := by
        rw [Buffer.length_slice]
        exact hroom.2
      have hgrew := grew_append (w := w) z (buf.slice 0 k)
        (by rw [List.length_append]; exact hroom')
      have hzend := zone_end_le (by omega) hz
      rw [run_writeBody_append hroom.1 hsmall hc hz (by omega) buf hroom']
      refine ⟨((h.grow hgrew (by omega)).setEnd (by omega)).entered hcap hsize (by omega)
        (Nat.le_of_lt hds), ?_⟩
      intro q b hq hout
      have hq' := hq.grow hgrew h.zones
      exact Holds.entered (w := ⟨{ w.ftl with logZoneEnd := _ }, _⟩) hq' hc hcap hsize (by omega)
        (hout rfl)
    · rw [run_writeBody_append_refused hsmall hc hz (by omega)]
      exact ⟨h, fun hq _ => hq⟩
  · have hck : w.ftl.logZoneEnd + k < g.logRoom := by omega
    obtain ⟨ret, t, hgrew, hds, hrun⟩ := writeBody_large (a := a) hlarge hc hz (by omega) buf
    have hI := h.grow hgrew (by omega)
    rw [hrun]
    by_cases hret : ret = 0
    · rw [if_pos hret]
      refine ⟨hI.entered hcap hsize (by omega) (hds hret), fun hq hout => ?_⟩
      exact (hq.grow hgrew h.zones).entered hc hcap hsize (by omega) (hout rfl)
    · rw [if_neg hret]
      exact ⟨hI, fun hq _ => hq.grow hgrew h.zones⟩

/-- What such a body leaves alone: the data zones, and the log entries of other blocks. -/
lemma Inv.writeBody_others {a k : ℕ} (h : Inv g w) (hcap : a + k ≤ g.capacity)
    (hsize : k * g.lba < 4294967296) (hck : w.ftl.logZoneEnd + k < g.logRoom) (buf : Buffer B) :
    let r := (StoSys.writeBody g.config (a * g.lba) (k * g.lba) buf).run exec w
    r.2.ftl.dataZoneMapping = w.ftl.dataZoneMapping ∧
      (∀ (v : ℤ) {o : ℕ}, o < g.nBlocks → dataAt r.2 v o = dataAt w v o) ∧
      ∀ q, (r.1 = 0 → q < a ∨ a + k ≤ q) →
        r.2.ftl.logZoneMapping.lookup ((q * g.lba : ℕ) : ℤ)
          = w.ftl.logZoneMapping.lookup ((q * g.lba : ℕ) : ℤ) := by
  have hroomlt := g.logRoom_lt
  have hc : w.ftl.logZoneEnd < 2147483648 := by omega
  have hlook : ∀ q, (q < a ∨ a + k ≤ q) →
      (mapBlocks g.config (a * g.lba) w.ftl.logZoneEnd k w.ftl.logZoneMapping).lookup
        ((q * g.lba : ℕ) : ℤ) = w.ftl.logZoneMapping.lookup ((q * g.lba : ℕ) : ℤ) := by
    intro q hout
    rw [lookup_mapBlocks_user hc _ hcap hsize (by omega), if_neg (by omega)]
  obtain ⟨z, hz⟩ : ∃ z, w.ftl.logZoneEnd / g.nBlocks = z := ⟨_, rfl⟩
  have hzend := zone_end_le (by omega) hz
  have hle := g.logRoom_add_le
  have hn := g.nBlocks_pos
  have hstart : z * g.nBlocks ≤ w.ftl.logZoneEnd := hz ▸ Nat.div_mul_le_self _ _
  have hLnr := g.logZones_lt
  have hznr : z < g.nrZones := by
    have hzL : z < g.logZones := by
      rw [← hz]
      exact (Nat.div_lt_iff_lt_mul hn).mpr (by omega)
    omega
  rcases Nat.lt_or_ge (k * g.lba) mdts with hsmall | hlarge
  · by_cases hroom : 0 < k ∧ (w.media.zone z).length + k ≤ g.nBlocks
    · have hroom' : (w.media.zone z).length + (buf.slice 0 k).length ≤ g.nBlocks := by
        rw [Buffer.length_slice]
        exact hroom.2
      have hgrew := grew_append (w := w) z (buf.slice 0 k)
        (by rw [List.length_append]; exact hroom')
      rw [run_writeBody_append hroom.1 hsmall hc hz hznr buf hroom']
      exact ⟨rfl, fun v o ho => hgrew.dataAt h.zones v ho, fun q hout => hlook q (hout rfl)⟩
    · rw [run_writeBody_append_refused hsmall hc hz (by omega)]
      exact ⟨rfl, fun _ _ _ => rfl, fun _ _ => rfl⟩
  · obtain ⟨ret, t, hgrew, -, hrun⟩ := writeBody_large (a := a) hlarge hc hz (by omega) buf
    rw [hrun]
    by_cases hret : ret = 0
    · rw [if_pos hret]
      have hmap : t.ftl.dataZoneMapping = w.ftl.dataZoneMapping := by rw [hgrew.ftl]
      refine ⟨hmap, fun v o ho => hgrew.dataAt h.zones v ho, fun q hout => ?_⟩
      rw [StoSys.entered, hgrew.ftl]
      exact hlook q (hout rfl)
    · rw [if_neg hret]
      exact ⟨congrArg Ftl.dataZoneMapping hgrew.ftl, fun v o ho => hgrew.dataAt h.zones v ho,
        fun q _ => by rw [hgrew.ftl]⟩

section Pass

variable [Zero B]

/-- Nothing in the log. -/
structure Cleared (g : Setup B) (w : World g.drive) : Prop where
  log : w.ftl.logZoneMapping = ∅
  ends : w.ftl.logZoneEnd = 0
  zone : ∀ i < g.logZones, w.media.zone i = []

/-- **What a pass does to an invariant state.** -/
theorem Inv.pass (h : Inv g w) (ord : HashOrder) :
    let s := ((triggerGc g.config ord : Prog B Unit).run exec w).2
    Collected ord w s ∧ Inv g s ∧ Cleared g s ∧ s.ftl.gcMutex = w.ftl.gcMutex ∧
      ∀ {q b}, Holds w q b → Holds s q b := by
  intro s
  obtain ⟨hc, hz, ht⟩ := run_triggerGc ord h.ready
  have hlog : s.ftl.logZoneMapping = ∅ := congrArg Ftl.logZoneMapping hc.ftl
  have hend : s.ftl.logZoneEnd = 0 := (congrArg Ftl.logZoneEnd hc.ftl).trans h.start
  have hmutex : s.ftl.gcMutex = w.ftl.gcMutex := (congrArg Ftl.gcMutex hc.ftl).trans rfl
  refine ⟨hc, ⟨(congrArg Ftl.logZoneStart hc.ftl).trans h.start, ?_, ?_, hz, ht h.tight,
    fun _ => hlog⟩, ⟨hlog, hend, hc.logZone⟩, hmutex, fun hq => ?_⟩
  · exact hend ▸ Nat.zero_le _
  · rw [hlog]
    intro k x hx
    simp at hx
  · exact hc.holds h.ready hq

/-- The same for a pass that was asked for. -/
lemma Inv.collect (h : Inv g w) (ord : HashOrder) :
    let s := StoSys.collect ord w
    Collected ord (asked w) s ∧ Inv g s ∧ Cleared g s ∧ s.ftl.gcMutex = w.ftl.gcMutex ∧
      ∀ {q b}, Holds w q b → Holds s q b := by
  have hasked : Inv g (asked w) := h.setFlags rfl rfl
  exact hasked.pass ord

variable {a k : ℕ}

/-- **A write keeps the invariant, and every block it does not overwrite**, whatever it returns. -/
theorem write_keeps (h : Inv g w) (hcap : a + k ≤ g.capacity) (hsize : k * g.lba < 4294967296)
    (hwrap : k * g.lba < mdts ∨ w.ftl.logZoneEnd + k < (g.logZones + 1) * g.nBlocks)
    (passes : List HashOrder) (buf : Buffer B) :
    let r := (znsUdeviceWrite g.config passes (a * g.lba) (k * g.lba) buf).run exec w
    Inv g r.2 ∧ ∀ {q b}, Holds w q b → (r.1 = some 0 → q < a ∨ a + k ≤ q) → Holds r.2 q b := by
  have hn := g.nBlocks_pos
  have hle := g.logRoom_add_le
  have hlr := g.logRoom_lt
  have hL : (g.logZones + 1) * g.nBlocks = g.logZones * g.nBlocks + g.nBlocks := Nat.succ_mul _ _
  have hk := blocks_lt hsize
  -- a pass only ever moves the cursor back
  obtain ⟨⟨hI, hholds, hend⟩, hleft⟩ := watermarkLoop_rule
    (P := fun s => Inv g s ∧ (∀ {q b}, Holds w q b → Holds s q b) ∧
      s.ftl.logZoneEnd ≤ w.ftl.logZoneEnd) (k := k)
    (fun ord s hs _ => by
      obtain ⟨-, hI, hclear, -, hkeep⟩ := hs.1.collect ord
      exact ⟨hI, fun hq => hkeep (hs.2.1 hq), hclear.ends ▸ Nat.zero_le _⟩)
    passes (locked w) ⟨h.setFlags rfl rfl, fun hq => hq, Nat.le_refl _⟩
  refine run_write_rule (Q := fun r => Inv g r.2 ∧
    ∀ {q b}, Holds w q b → (r.1 = some 0 → q < a ∨ a + k ≤ q) → Holds r.2 q b) rfl
    ⟨h, fun hq _ => hq⟩ ⟨⟨hI, fun hq _ => hholds hq⟩, fun hl => ?_⟩
  have hend' := hI.end_le
  have hpass := (watermark_lt_iff hI.start (by omega)).mp (hleft hl)
  obtain ⟨hI', hkeep⟩ := hI.writeBody (a := a) (k := k) hcap hsize (by omega) buf
  exact ⟨hI', fun hq hout => hkeep (hholds hq) fun h0 => hout (congrArg some h0)⟩

/-! ## How the watermark loop is left -/

section Watermark

variable (h : Inv g w) (hk : w.ftl.logZoneEnd + k < (g.logZones + 1) * g.nBlocks)
include h hk

omit [Zero B] in
lemma Inv.watermark_iff :
    g.gcWmark < freeZoneNumber g.config w.ftl (toI32 k) ↔ w.ftl.logZoneEnd + k < g.logRoom := by
  have hsum : w.ftl.logZoneEnd + k < 4294967296 := by
    have h1 := g.start_lt (i := g.logZones + 1) g.logZones_lt
    omega
  rw [watermark_lt_iff h.start hsum]
  omega

/-- There is room: no pass is needed. -/
lemma Inv.watermarkLoop_room (hroom : w.ftl.logZoneEnd + k < g.logRoom)
    (passes : List HashOrder) :
    (watermarkLoop g.config k passes : Prog B Bool).run exec w = (true, w) :=
  run_watermarkLoop_left ((h.watermark_iff hk).mpr hroom) passes

/-- There is none, but an empty log would do: one pass. -/
lemma Inv.watermarkLoop_pass (hfull : g.logRoom ≤ w.ftl.logZoneEnd + k) (hfits : k < g.logRoom)
    (ord : HashOrder) (passes : List HashOrder) :
    (watermarkLoop g.config k (ord :: passes) : Prog B Bool).run exec w
      = (true, StoSys.collect ord w) := by
  obtain ⟨-, hI, hclear, -⟩ := h.collect ord
  have hroom : (StoSys.collect ord w).ftl.logZoneEnd + k < g.logRoom := by
    rw [hclear.ends]
    omega
  have hfree : freeZoneNumber g.config w.ftl (toI32 k) ≤ g.gcWmark := by
    rw [← Nat.not_lt, h.watermark_iff hk]
    omega
  rw [run_watermarkLoop_pass hfree]
  exact hI.watermarkLoop_room (by have := hclear.ends; omega) hroom passes

/-- An empty log would not do either: the loop is never left. -/
lemma Inv.watermarkLoop_stuck (hfull : g.logRoom ≤ w.ftl.logZoneEnd + k)
    {passes : List HashOrder} (hstuck : passes = [] ∨ g.logRoom ≤ k) :
    ((watermarkLoop g.config k passes : Prog B Bool).run exec w).1 = false := by
  rcases hstuck with rfl | hstuck
  · have hfree : freeZoneNumber g.config w.ftl (toI32 k) ≤ g.gcWmark := by
      rw [← Nat.not_lt, h.watermark_iff hk]
      omega
    rw [run_watermarkLoop_nil hfree]
  · obtain ⟨⟨hI, hend⟩, hleft⟩ := watermarkLoop_rule
      (P := fun s => Inv g s ∧ s.ftl.logZoneEnd ≤ w.ftl.logZoneEnd) (k := k)
      (fun ord s hs _ => by
        obtain ⟨-, hI, hclear, -⟩ := hs.1.collect ord
        exact ⟨hI, hclear.ends ▸ Nat.zero_le _⟩)
      passes w ⟨h, Nat.le_refl _⟩
    by_contra hne
    have hroom := (hI.watermark_iff (by omega)).mp (hleft (Bool.of_not_eq_false hne))
    omega

end Watermark

end Pass

end StoSys
