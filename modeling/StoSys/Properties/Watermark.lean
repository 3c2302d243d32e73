import StoSys.Ftl.History
import StoSys.Properties.ReadYourWrites

/-!
# The log area, the data area and the watermark

`free_zone_number` subtracts the zones in use from `log_zone_num_config` on 32 bits.  A request that
reaches past zone `log_zone_num_config` makes the difference wrap, and the write is let through.
Short of that the watermark is kept.

`Separate` is the invariant behind it.  It says nothing about the log map, so it is kept by writes
to any address and by collections that fail half way: a merge only ever writes to data zones, and a
reset of whatever zone leaves the free log zones free.
-/

namespace StoSys

open Effect HashMap Zoned CInt

variable {B : Type} {g : Setup B} {w : World g.drive}

/-- The log zones above the watermark are empty, and the data map stays in the data area. -/
structure Separate (g : Setup B) (w : World g.drive) : Prop where
  start : w.ftl.logZoneStart = 0
  end_le : w.ftl.logZoneEnd ≤ g.logRoom
  data : ∀ {v z}, w.ftl.dataZoneMapping.lookup v = some z →
    ∃ e : ℕ, z = (e * g.nBlocks : ℕ) ∧ g.logZones ≤ e ∧ e < g.nrZones
  empty : ∀ i, g.logZones - g.gcWmark ≤ i → i < g.logZones → w.media.zone i = []

namespace Separate

/-- The fields of the translation layer that matter. -/
lemma congr (h : Separate g w) {s : World g.drive} (hmedia : s.media = w.media)
    (hstart : s.ftl.logZoneStart = 0) (hend : s.ftl.logZoneEnd ≤ g.logRoom)
    (hdata : s.ftl.dataZoneMapping = w.ftl.dataZoneMapping) : Separate g s :=
  ⟨hstart, hend, by rw [hdata]; exact h.data, by rw [hmedia]; exact h.empty⟩

/-- A transfer may extend the zones below the watermark, and the data zones. -/
lemma grew (h : Separate g w) {s : World g.drive} {lo hi : ℕ} (hs : Grew w lo hi s)
    (hrange : hi ≤ g.logRoom ∨ g.logZones * g.nBlocks ≤ lo) : Separate g s := by
  have hL := g.logRoom_add_le
  refine ⟨by rw [hs.ftl]; exact h.start, by rw [hs.ftl]; exact h.end_le,
    by rw [hs.ftl]; exact h.data, fun i hi' hiL => ?_⟩
  rw [← h.empty i hi' hiL]
  by_contra hne
  obtain ⟨hlo, hhi⟩ := hs.within i hne
  have h₁ := Nat.mul_le_mul_right g.nBlocks hi'
  have h₂ : (i + 1) * g.nBlocks ≤ g.logZones * g.nBlocks := Nat.mul_le_mul_right g.nBlocks hiL
  rw [← Setup.logRoom] at h₁
  rcases hrange with hrange | hrange <;> omega

/-! ## A collection -/

lemma reset (a : ℤ) : Program.Triple exec (Separate g) (nvmeZnsReset a false : Prog B ℤ)
    fun _ => Separate g := by
  intro w h
  cases hm : w.media.reset (toU64 a) with
  | none =>
      have hrun : (nvmeZnsReset a false : Prog B ℤ).run exec w = (commandError, w) := by
        simp [nvmeZnsReset, exec, hm]
      rw [hrun]
      exact h
  | some m =>
      rw [run_nvmeZnsReset_some hm]
      refine ⟨h.start, h.end_le, h.data, fun i hi hiL => ?_⟩
      have hzone : m.zone i = _ := congrFun (Media.reset_eq_some hm) i
      rw [Function.update_apply, h.empty i hi hiL, ite_self] at hzone
      exact hzone

lemma modify {f : Ftl → Ftl} (hf : ∀ m : Ftl, (f m).logZoneStart = m.logZoneStart ∧
    (f m).logZoneEnd = m.logZoneEnd ∧ (f m).dataZoneMapping = m.dataZoneMapping) :
    Program.Triple exec (Separate g) (modifyFtl f : Prog B Unit) fun _ => Separate g := by
  intro w h
  obtain ⟨hstart, hend, hdata⟩ := hf w.ftl
  exact h.congr rfl (hstart.trans h.start) (hend ▸ h.end_le) hdata

/-- Where a merge writes: the start of a data zone, or `-1` when it has found none. -/
def Target (g : Setup B) (z : ℤ) : Prop :=
  z = -1 ∨ ∃ e : ℕ, z = (e * g.nBlocks : ℕ) ∧ g.logZones ≤ e ∧ e < g.nrZones

/-- The write of a merge buffer. -/
lemma writeZone {z : ℤ} (hz : Target g z) (buf : Buffer B) :
    Program.Triple exec (Separate g)
      (ioWithMdts g.config (toU64 z) 0 (g.nBlocks * g.lba) false buf) fun _ => Separate g := by
  intro w h
  rcases Nat.lt_or_ge 18 g.ds with hds | hds
  · rw [ioWithMdts_write_big hds g.nBlocks_pos]
    exact h
  · rcases hz with rfl | ⟨e, rfl, heL, henr⟩
    · -- there is no block `2 ^ 64 - 1`
      have hn := g.nBlocks_lt
      have hsize := Nat.mul_pos g.nBlocks_pos g.lba_pos
      have hout : g.nrZones ≤ toU64 (-1) / g.nBlocks := by
        rw [toU64_neg_one, Nat.le_div_iff_mul_le g.nBlocks_pos]
        have := g.total_lt
        omega
      rw [ioWithMdts_write_outside hsize hout]
      exact h
    · have hlt := g.start_lt (Nat.le_of_lt henr)
      have hn := g.nBlocks_lt
      rw [toU64_of_lt (show e * g.nBlocks < _ by omega)]
      have hgrew := ioWithMdts_write_grew (w := w) hds
        (show e * g.nBlocks + g.nBlocks < _ by omega) buf
      exact h.grew hgrew (Or.inr (Nat.mul_le_mul_right _ heL))

/-- The old zone of a virtual zone is a data zone. -/
lemma readOldZone (v : ℤ) (buf : Buffer B) :
    Program.Triple exec (Separate g) (StoSys.readOldZone g.config v buf)
      fun r s => Target g r.2.1 ∧ Separate g s := by
  rw [StoSys.readOldZone]
  refine .bind (R := fun m s => m = s.ftl ∧ Separate g s) (fun _ hs => ⟨rfl, hs⟩) fun m => ?_
  cases hv : m.dataZoneMapping.lookup v with
  | none => exact .pure fun s hs => ⟨Or.inl rfl, hs.2⟩
  | some zone =>
      refine .bind (R := fun _ s => Target g zone ∧ Separate g s) ?_ fun r => ?_
      · rintro s ⟨rfl, hs⟩
        refine ⟨Or.inr (hs.data hv), ?_⟩
        rw [ioWithMdts, run_ioLoop_read_snd]
        exact hs
      · refine .ite (fun _ => .pure fun s hs => ⟨Or.inl rfl, hs.2⟩) fun _ => ?_
        refine .bind (R := fun _ s => Target g zone ∧ Separate g s) ?_ fun _ => .pure fun _ hs => hs
        exact fun s hs => ⟨hs.1, hs.2.congr rfl hs.2.start hs.2.end_le rfl⟩

lemma readLogBlocks : ∀ (blocks : List (Sigma fun _ : ℤ => ℤ)) (buf : Buffer B),
    Program.Triple exec (Separate g) (StoSys.readLogBlocks g.config blocks buf) fun _ => Separate g
  | [], _ => .pure fun _ hs => hs
  | ⟨offset, lba⟩ :: rest, buf => by
      refine .bind (R := fun _ => Separate g) (fun s hs => ?_) fun r => ?_
      · rw [run_nvmeRead_snd]
        exact hs
      · exact .ite (fun _ => .pure fun _ hs => hs) fun _ => readLogBlocks rest _

lemma mergeInPlace {prev : ℤ} (hprev : Target g prev) (z : ℤ) (buf : Buffer B) :
    Program.Triple exec (Separate g) (StoSys.mergeInPlace g.config z prev buf)
      fun _ => Separate g := by
  rw [StoSys.mergeInPlace]
  refine .bind (reset prev) fun _ => .bind (writeZone hprev buf) fun w => ?_
  refine .ite (fun _ => .pure fun _ hs => hs) fun _ => ?_
  refine .bind (modify fun _ => ⟨rfl, rfl, rfl⟩) fun _ => ?_
  exact .bind (reset z) fun _ => .pure fun _ hs => hs

lemma mergeInto (v : ℤ) {z : ℤ} (hz : Target g z) (hne : z ≠ -1) (prev : ℤ) (buf : Buffer B) :
    Program.Triple exec (Separate g) (StoSys.mergeInto g.config v z prev buf)
      fun _ => Separate g := by
  rw [StoSys.mergeInto]
  refine .bind (writeZone hz buf) fun w => .ite (fun _ => .pure fun _ hs => hs) fun _ => ?_
  refine .bind (R := fun _ => Separate g) (fun s hs => ?_) fun _ => ?_
  · refine ⟨hs.start, hs.end_le, fun {v' z'} hv' => ?_, hs.empty⟩
    change (s.ftl.dataZoneMapping.insert v z).lookup v' = some z' at hv'
    rw [lookup_insert_eq] at hv'
    split at hv'
    · cases hv'
      exact hz.resolve_left hne
    · exact hs.data hv'
  · refine .bind (modify fun _ => ⟨rfl, rfl, rfl⟩) fun _ => .ite (fun _ => ?_) fun _ => ?_
    · exact .bind (reset prev) fun _ => .pure fun _ hs => hs
    · exact .pure fun _ hs => hs

/-- **One iteration of a merge**, with or without errors. -/
lemma mergeZone (v : ℤ) (blocks : List (Sigma fun _ : ℤ => ℤ)) (buf : Buffer B) :
    Program.Triple exec (Separate g) (StoSys.mergeZone g.config v blocks buf)
      fun _ => Separate g := by
  rw [StoSys.mergeZone]
  refine .bind (R := fun _ => Separate g) (fun _ hs => hs) fun m => ?_
  have hfound : Target g (nextEmptyZone g.config m) := by
    rcases nextEmptyZone_cases g m with ⟨e, he, hfound⟩ | ⟨-, hfound⟩
    · obtain ⟨⟨heL, henr⟩, -⟩ := mem_freeZones.mp he
      exact Or.inr ⟨e, hfound, heL, henr⟩
    · exact Or.inl hfound
  refine .bind (readOldZone v buf) fun old => ?_
  refine .ite (fun _ => .pure fun _ hs => hs.2) fun _ => ?_
  refine .bind (R := fun _ s => Target g old.2.1 ∧ Separate g s) ?_ fun r => ?_
  · exact fun s hs => ⟨hs.1, readLogBlocks blocks _ s hs.2⟩
  · refine .ite (fun _ => .pure fun _ hs => hs.2) fun _ => .ite (fun _ => ?_) fun hne => ?_
    · exact fun s hs => mergeInPlace hs.1 _ _ s hs.2
    · exact fun s hs => mergeInto v hfound hne _ _ s hs.2

lemma mergeLoop (ord : HashOrder) : ∀ (sets : List (Sigma fun _ : ℤ => UMap ℤ)) (buf : Buffer B),
    Program.Triple exec (Separate g) (StoSys.mergeLoop g.config ord sets buf) fun _ => Separate g
  | [], _ => .pure fun _ hs => hs
  | ⟨v, set⟩ :: rest, buf => by
      refine .bind (mergeZone v _ buf) fun r => ?_
      exact .ite (fun _ => .pure fun _ hs => hs) fun _ => mergeLoop ord rest r.2

lemma groupLog : ∀ (keys : List ℤ) (sets : UMap (UMap ℤ)),
    Program.Triple exec (Separate g) (StoSys.groupLog g.config keys sets : Prog B _)
      fun _ => Separate g
  | [], _ => .pure fun _ hs => hs
  | address :: rest, sets => by
      refine .bind (R := fun _ => Separate g) (fun _ hs => hs) fun m => ?_
      exact .bind (modify fun _ => ⟨rfl, rfl, rfl⟩) fun _ => groupLog rest _

lemma resetLogZones : ∀ k i : ℕ,
    Program.Triple exec (Separate g) (StoSys.resetLogZones g.config i k : Prog B _)
      fun _ => Separate g
  | 0, _ => .pure fun _ hs => hs
  | k + 1, i => .bind (reset _) fun _ => resetLogZones k (i + 1)

variable [Zero B]

/-- **A collection keeps the areas apart**, also when its merge fails half way, and rewinds the
cursor. -/
lemma triggerGc (ord : HashOrder) :
    Program.Triple exec (Separate g) (StoSys.triggerGc g.config ord : Prog B Unit)
      fun _ s => Separate g s ∧ s.ftl.logZoneEnd = 0 := by
  rw [StoSys.triggerGc]
  refine .bind (R := fun _ => Separate g) (fun _ hs => hs) fun m => .bind (groupLog _ _) fun sets => ?_
  have hmerge : Program.Triple exec (Separate g) (zoneMerge g.config ord sets : Prog B ℤ)
      fun _ => Separate g := .bind (mergeLoop ord _ _) fun _ => .pure fun _ hs => hs
  refine .bind hmerge fun _ => .bind (resetLogZones _ _) fun _ s hs => ?_
  refine ⟨hs.congr rfl hs.start ?_ rfl, hs.start⟩
  exact hs.start.trans_le (Nat.zero_le _)

/-! ## A write -/

variable {k : ℕ}

omit [Zero B] in
/-- The body of a write whose blocks end below the watermark. -/
lemma writeBody (h : Separate g w) (address : ℕ) (hroom : w.ftl.logZoneEnd + k < g.logRoom)
    (buf : Buffer B) :
    let r := (StoSys.writeBody g.config address (k * g.lba) buf).run exec w
    Separate g r.2 ∧
      ∀ i, g.logZones - g.gcWmark ≤ i → r.2.media.zone i = w.media.zone i := by
  have hroomlt := g.logRoom_lt
  have hle := g.logRoom_add_le
  have hc : w.ftl.logZoneEnd < 2147483648 := by omega
  have hout : ∀ {i}, g.logZones - g.gcWmark ≤ i → g.logRoom ≤ i * g.nBlocks := fun hi =>
    Nat.mul_le_mul_right _ hi
  obtain ⟨z, hz⟩ : ∃ z, w.ftl.logZoneEnd / g.nBlocks = z := ⟨_, rfl⟩
  have hstart : z * g.nBlocks ≤ w.ftl.logZoneEnd := hz ▸ Nat.div_mul_le_self _ _
  have hzend := zone_end_le (show w.ftl.logZoneEnd < g.logRoom by omega) hz
  -- the address does not matter
  obtain ⟨-, hmedia, hftl⟩ := writeBody_address g.config address (0 * g.lba) (k * g.lba) buf w
  suffices hbody : let s := ((StoSys.writeBody g.config (0 * g.lba) (k * g.lba) buf).run exec w).2
      Separate g s ∧ ∀ i, g.logZones - g.gcWmark ≤ i → s.media.zone i = w.media.zone i by
    intro r
    refine ⟨hbody.1.congr hmedia ?_ ?_ ?_, fun i hi => ?_⟩
    · rw [hftl]
      exact hbody.1.start
    · rw [hftl]
      exact hbody.1.end_le
    · rw [hftl]
    · rw [hmedia]
      exact hbody.2 i hi
  have hgrown : ∀ {s : World g.drive} {lo hi : ℕ}, Grew w lo hi s → hi ≤ g.logRoom →
      Separate g s ∧ ∀ i, g.logZones - g.gcWmark ≤ i → s.media.zone i = w.media.zone i := by
    intro s lo hi hs hhi
    refine ⟨h.grew hs (Or.inl hhi), fun i hi' => ?_⟩
    by_contra hne
    have := (hs.within i hne).2
    have := hout hi'
    omega
  rcases Nat.lt_or_ge (k * g.lba) mdts with hsmall | hlarge
  · by_cases hfits : 0 < k ∧ (w.media.zone z).length + k ≤ g.nBlocks
    · have hfits' : (w.media.zone z).length + (buf.slice 0 k).length ≤ g.nBlocks := by
        rw [Buffer.length_slice]
        exact hfits.2
      have hznr : z < g.nrZones := by
        rw [← hz]
        have := g.start_lt (Nat.le_of_lt g.logZones_lt)
        refine (Nat.div_lt_iff_lt_mul g.nBlocks_pos).mpr ?_
        have := Nat.mul_le_mul_right g.nBlocks (Nat.le_of_lt g.logZones_lt)
        omega
      obtain ⟨hs, hkeep⟩ := hgrown (grew_append z (buf.slice 0 k)
        (by rw [List.length_append]; exact hfits')) (by omega)
      rw [run_writeBody_append hfits.1 hsmall hc hz hznr buf hfits']
      refine ⟨hs.congr rfl h.start ?_ rfl, hkeep⟩
      change z * g.nBlocks + _ + 1 ≤ _
      omega
    · rw [run_writeBody_append_refused hsmall hc hz (by omega)]
      exact ⟨h, fun _ _ => rfl⟩
  · obtain ⟨ret, t, hgrew, -, hrun⟩ := writeBody_large (a := 0) hlarge hc hz (by omega) buf
    obtain ⟨ht, hkeep⟩ := hgrown hgrew (by omega)
    rw [hrun]
    by_cases hret : ret = 0
    · rw [if_pos hret]
      exact ⟨ht.congr rfl ht.start ht.end_le rfl, hkeep⟩
    · rw [if_neg hret]
      exact ⟨ht, hkeep⟩

end Separate

/-! ## The watermark -/

lemma separate_fresh (g : Setup B) : Separate g (fresh g) where
  start := rfl
  end_le := Nat.zero_le _
  data hv := by simp [fresh, Ftl.fresh] at hv
  empty _ _ _ := rfl

variable [Zero B]

/-- What the watermark loop is for: when a write of `k` blocks is let through, its blocks end below
the watermark; it stores to no zone from `log_zones - gc_wmark` on, and the log zones among these
are still empty afterwards. -/
def KeepsWatermark (g : Setup B) (w : World g.drive) (k : ℕ) : Prop :=
  ∀ (passes : List HashOrder) (address : ℕ) (buf : Buffer B),
    let l := (watermarkLoop g.config k passes : Prog B Bool).run exec (locked w)
    let s := ((writeBody g.config address (k * g.lba) buf).run exec l.2).2
    l.1 = true →
      l.2.ftl.logZoneEnd + k < g.logRoom ∧
      (∀ i, g.logZones - g.gcWmark ≤ i → s.media.zone i = l.2.media.zone i) ∧
      ∀ i, g.logZones - g.gcWmark ≤ i → i < g.logZones → s.media.zone i = []

/-- A request that does not reach beyond zone `log_zone_num_config` does not wrap. -/
def Unwrapped (g : Setup B) (w : World g.drive) (k : ℕ) : Prop :=
  w.ftl.logZoneEnd + k < (g.logZones + 1) * g.nBlocks

/-- Where the watermark loop leaves the device, for a request that does not wrap: a pass only ever
moves the cursor back. -/
lemma Separate.left {k : ℕ} (h : Separate g w) (hunwrapped : Unwrapped g w k)
    (passes : List HashOrder) :
    let l := (watermarkLoop g.config k passes : Prog B Bool).run exec (locked w)
    Separate g l.2 ∧ (l.1 = true → l.2.ftl.logZoneEnd + k < g.logRoom) := by
  have hL := g.start_lt (i := g.logZones + 1) g.logZones_lt
  unfold Unwrapped at hunwrapped
  obtain ⟨⟨hsep, hback⟩, hleft⟩ := watermarkLoop_rule (k := k)
    (P := fun s => Separate g s ∧ s.ftl.logZoneEnd ≤ w.ftl.logZoneEnd)
    (fun ord s hs _ => by
      have hasked : Separate g (asked s) := hs.1.congr rfl hs.1.start hs.1.end_le rfl
      obtain ⟨hcollect, hend⟩ := Separate.triggerGc ord _ hasked
      exact ⟨hcollect, hend.trans_le (Nat.zero_le _)⟩)
    passes (locked w) ⟨h.congr rfl h.start h.end_le rfl, Nat.le_refl _⟩
  intro l
  change Separate g l.2 at hsep
  change l.2.ftl.logZoneEnd ≤ w.ftl.logZoneEnd at hback
  refine ⟨hsep, fun hl => ?_⟩
  exact ((watermark_lt_iff hsep.start (by omega)).mp (hleft hl)).resolve_right (by omega)

/-- One request keeps the watermark exactly when it does not wrap. -/
lemma Separate.keeps_iff {k : ℕ} (h : Separate g w) (hsize : k * g.lba < 4294967296) :
    KeepsWatermark g w k ↔ Unwrapped g w k := by
  constructor
  · -- a wrapped request is let through at once
    intro hkeeps
    have hk := blocks_lt hsize
    have hend := h.end_le
    have hroomlt := g.logRoom_lt
    have hle := g.logRoom_add_le
    unfold Unwrapped
    by_contra hwrap
    rw [Nat.succ_mul] at hwrap
    have hleft := run_watermarkLoop_left (w := locked w) ((watermark_lt_iff h.start
      (show w.ftl.logZoneEnd + k < _ by omega)).mpr (Or.inr (by
        rw [Nat.succ_mul]
        exact Nat.not_lt.mp hwrap))) []
    have hroom := (hkeeps [] 0 (fun _ => 0) (by rw [hleft])).1
    rw [hleft] at hroom
    change w.ftl.logZoneEnd + k < _ at hroom
    omega
  · intro hunwrapped passes address buf l s hl
    obtain ⟨hsep, hroom⟩ := h.left hunwrapped passes
    obtain ⟨hbody, hkeep⟩ := hsep.writeBody address (hroom hl) buf
    exact ⟨hroom hl, hkeep, hbody.empty⟩

/-- A write that does not wrap keeps the areas apart, whatever its address and its outcome. -/
lemma Separate.write {k : ℕ} (h : Separate g w) (hunwrapped : Unwrapped g w k) (address : ℕ)
    (passes : List HashOrder) (buf : Buffer B) :
    Separate g ((znsUdeviceWrite g.config passes address (k * g.lba) buf).run exec w).2 := by
  obtain ⟨hsep, hroom⟩ := h.left hunwrapped passes
  exact run_write_rule (Q := fun r => Separate g r.2) rfl h
    ⟨hsep, fun hl => (hsep.writeBody address (hroom hl) buf).1⟩

/-- **The watermark, over whole runs.**  In every state that writes short of the wrap lead to (to
any address, of any size and outcome, with collections failing or not), a request keeps the
watermark exactly when it does not wrap either. -/
theorem keepsWatermark_iff (g : Setup B) {c : Config} {w : World g.drive}
    (h : History g (fun w _ k => k * g.lba < 4294967296 ∧ Unwrapped g w k) c w) {k : ℕ}
    (hsize : k * g.lba < 4294967296) :
    KeepsWatermark g w k ↔ w.ftl.logZoneEnd + k < (g.logZones + 1) * g.nBlocks := by
  refine Separate.keeps_iff (h.rule (separate_fresh g) ?_ ?_) hsize
  · exact fun hw hok passes buf => hw.write hok.2 _ passes buf
  · exact fun hw ord => (Separate.triggerGc ord _ hw).1

/-- A drive with four blocks of 64 KiB to a zone, so that one command covers a zone, and four log
zones of ten. -/
def wideDrive : Setup UInt8 where
  ds := 16
  nBlocks := 4
  nrZones := 10
  logZones := 4
  gcWmark := 1
  readAcross := false
  fill := 0
  ds_ge := by decide
  nBlocks_pos := Nat.succ_pos 3
  zoneBytes_lt := by decide
  total_lt := by decide
  wmark_pos := Nat.one_pos
  wmark_lt := by decide
  logZones_lt := by decide

/-- A write of eleven blocks fits a fresh log, and one of twenty keeps nothing. -/
theorem keepsWatermark_iff_fresh :
    KeepsWatermark wideDrive (fresh wideDrive) 11 ∧ ¬ KeepsWatermark wideDrive (fresh wideDrive) 20 := by
  have h₀ := History.fresh wideDrive
    fun w _ k => k * wideDrive.lba < 4294967296 ∧ Unwrapped wideDrive w k
  exact ⟨(keepsWatermark_iff wideDrive h₀ (by decide)).mpr (by decide), fun h =>
    absurd ((keepsWatermark_iff wideDrive h₀ (by decide)).mp h) (by decide)⟩

/-- **The failing run**: a write of twenty blocks to a fresh device passes the watermark loop
although the log has sixteen, succeeds, and fills all log zones and the first data zone. -/
theorem twenty_blocks_at_once :
    let r := (znsUdeviceWrite wideDrive.config [] 0 (20 * 65536) fun _ => 7).run exec
      (fresh wideDrive)
    (r.1 = some 0 ∧ (r.2.media.zone 3).length = 4 ∧ (r.2.media.zone 4).length = 4) ∧
      ¬ KeepsWatermark wideDrive (fresh wideDrive) 20 := by
  refine ⟨by decide +kernel, ?_⟩
  rw [(separate_fresh wideDrive).keeps_iff (by decide)]
  exact show ¬ 0 + 20 < (4 + 1) * 4 by decide

end StoSys
