import StoSys.Ftl.Cost
import StoSys.Properties.Watermark

/-!
# How often the log is collected, and what that costs

**A pass** erases each log zone once, whatever becomes of its merge (`costs_triggerGc`);
only the last one may be erased more often, for it is the zone of last resort.  It stores at most one
zone for each virtual zone that is in the log (`stored_triggerGc`).

**A run of one-block writes** therefore has a rhythm.  The first pass is made by write number
`logRoom`, which finds no more room; it leaves its own block in the log, so from then on there is one
pass every `logRoom - 1` writes (`collections_in_step`).  With that the wear of the log zones is known
exactly, and the blocks stored for `k` writes are at most `k` plus the zones that the passes rewrite
(`blocks_stored_le`).
-/

namespace StoSys

open Effect HashMap Zoned CInt

variable {B : Type} {g : Setup B} {w : World g.drive} {i : ℕ}

/-! ## One pass -/

/-- A merge writes, and erases, outside the log. -/
lemma target_ne {z : ℤ} (hz : Separate.Target g z) (hi : i < g.logZones) :
    toU64 z ≠ i * g.nBlocks := by
  have hlt := g.start_lt (Nat.le_of_lt (hi.trans g.logZones_lt))
  rcases hz with rfl | ⟨e, rfl, hle, henr⟩
  · rw [toU64_neg_one]
    omega
  · rw [g.toU64_start henr]
    intro heq
    have := Nat.eq_of_mul_eq_mul_right g.nBlocks_pos heq
    omega

section Erased

variable (hi : i + 1 < g.logZones)
include hi

/-- The zone of last resort. -/
lemma lastLog_ne : toU64 (toU32 (((g.logZones : ℤ) - 1) * g.nBlocks) : ℕ) ≠ i * g.nBlocks := by
  have hL : ((g.logZones : ℤ) - 1) * (g.nBlocks : ℤ) = (((g.logZones - 1) * g.nBlocks : ℕ) : ℤ) := by
    rw [← Nat.cast_pred g.logZones_pos, ← Nat.cast_mul]
  have hnr : g.logZones - 1 < g.nrZones := by
    have := g.logZones_lt
    omega
  rw [hL, g.toU32_start hnr, g.toU64_start hnr]
  intro heq
  have := Nat.eq_of_mul_eq_mul_right g.nBlocks_pos heq
  omega

lemma costs_mergeInPlace {prev : ℤ} (hprev : Separate.Target g prev) (buf : Buffer B) :
    Program.Costs exec (Op.erases (i * g.nBlocks)) (Separate g)
      (mergeInPlace g.config (toU32 ((g.config.logZoneNumConfig - 1) * g.config.nBlocksPerZone))
        prev buf) 0 fun _ => Separate g := by
  have hidle := idle_erases (B := B) (i * g.nBlocks)
  refine .free ?_ (Separate.mergeInPlace hprev _ buf)
  refine .bind_free (erases_nvmeZnsReset (target_ne hprev (by omega))) fun _ => ?_
  refine .bind_free (erases_ioLoop 0 false _ _ _ _ _) fun r => .ite (fun _ => .pure _) fun _ => ?_
  refine .bind_free (hidle.modifyFtl _) fun _ => ?_
  exact .bind_free (erases_nvmeZnsReset (lastLog_ne hi)) fun _ => .pure _

lemma costs_mergeInto (v : ℤ) {z prev : ℤ} (hz : Separate.Target g z) (hne : z ≠ -1)
    (hprev : Separate.Target g prev) (buf : Buffer B) :
    Program.Costs exec (Op.erases (i * g.nBlocks)) (Separate g)
      (mergeInto g.config v z prev buf) 0 fun _ => Separate g := by
  have hidle := idle_erases (B := B) (i * g.nBlocks)
  refine .free ?_ (Separate.mergeInto v hz hne prev buf)
  refine .bind_free (erases_ioLoop 0 false _ _ _ _ _) fun r => .ite (fun _ => .pure _) fun _ => ?_
  refine .bind_free (hidle.modifyFtl _) fun _ => .bind_free (hidle.modifyFtl _) fun _ => ?_
  refine .ite (fun _ => ?_) fun _ => .pure _
  exact .bind_free (erases_nvmeZnsReset (target_ne hprev (by omega))) fun _ => .pure _

/-- A merge leaves the log zones alone, but for the last one. -/
lemma costs_mergeZone (v : ℤ) (blocks : List (Sigma fun _ : ℤ => ℤ)) (buf : Buffer B) :
    Program.Costs exec (Op.erases (i * g.nBlocks)) (Separate g)
      (mergeZone g.config v blocks buf) 0 fun _ => Separate g := by
  have hidle := idle_erases (B := B) (i * g.nBlocks)
  rw [mergeZone]
  refine .bind_free (R := fun _ => Separate g) (.free hidle.getFtl fun _ hs => hs) fun m => ?_
  have hfound : Separate.Target g (nextEmptyZone g.config m) := by
    rcases nextEmptyZone_cases g m with ⟨e, he, hfound⟩ | ⟨-, hfound⟩
    · obtain ⟨⟨heL, henr⟩, -⟩ := mem_freeZones.mp he
      exact Or.inr ⟨e, hfound, heL, henr⟩
    · exact Or.inl hfound
  refine .bind_free (.free (hidle.readOldZone _ v buf) (Separate.readOldZone v buf)) fun old => ?_
  refine .ite (fun _ => .free (.pure _) fun _ hs => hs.2) fun _ => ?_
  refine .given (fun _ hs => hs.1) fun hprev => ?_
  refine .bind_free (R := fun _ => Separate g) (.free (hidle.readLogBlocks _ _ _)
    fun s hs => Separate.readLogBlocks blocks _ s hs.2) fun r => ?_
  refine .ite (fun _ => .free (.pure _) fun _ hs => hs) fun _ => .ite (fun _ => ?_) fun hne => ?_
  · exact costs_mergeInPlace hi hprev _
  · exact costs_mergeInto hi v hfound hne hprev _

lemma costs_mergeLoop (ord : HashOrder) (sets : ZoneSets) : ∀ buf : Buffer B,
    Program.Costs exec (Op.erases (i * g.nBlocks)) (Separate g)
      (mergeLoop g.config ord sets buf) 0 fun _ => Separate g := by
  induction sets with
  | nil => exact fun _ => .free (.pure _) fun _ hs => hs
  | cons x rest ih =>
      intro buf
      refine .bind_free (costs_mergeZone hi _ _ _) fun r => .ite (fun _ => ?_) fun _ => ih _
      exact .free (.pure _) fun _ hs => hs

omit hi in
/-- The loop at the end of a pass erases each zone once. -/
lemma cost_resetLogZones (k : ℕ) : ∀ (z : ℕ) (w : World g.drive), z + k ≤ g.logZones →
    Program.cost exec (Op.erases (i * g.nBlocks)) (resetLogZones g.config z k : Prog B Unit) w
      = if z ≤ i ∧ i < z + k then 1 else 0 := by
  induction k with
  | zero =>
      intro z w _
      rw [if_neg (by omega)]
      rfl
  | succ k ih =>
      intro z w hk
      have hz : z < g.nrZones := by
        have := g.logZones_lt
        omega
      have hprice : Op.erases (B := B) (i * g.nBlocks) (.nvmeZnsReset (z * g.nBlocks) false)
          = if z = i then 1 else 0 := by
        simp [Op.erases, g.nBlocks_pos.ne']
      rw [resetLogZones, Program.cost_bind, ih (z + 1) _ (by omega), nvmeZnsReset,
        Program.cost_perform, Setup.config_nBlocksPerZone, g.toU32_start hz, g.toU64_start hz, hprice]
      split_ifs <;> omega

variable [Zero B]

/-- **A pass erases each log zone once**, the last one apart, also when its merge fails. -/
theorem costs_triggerGc (ord : HashOrder) :
    Program.Costs exec (Op.erases (i * g.nBlocks)) (Separate g)
      (triggerGc g.config ord : Prog B Unit) 1
      fun _ s => Separate g s ∧ s.ftl.logZoneEnd = 0 := by
  have hidle := idle_erases (B := B) (i * g.nBlocks)
  refine fun w hw => ⟨?_, Separate.triggerGc ord w hw⟩
  suffices h : Program.Costs exec (Op.erases (i * g.nBlocks)) (Separate g)
      (triggerGc g.config ord : Prog B Unit) 1 fun _ _ => True from (h w hw).1
  rw [triggerGc]
  refine .bind_free (R := fun _ => Separate g) (.free hidle.getFtl fun _ hs => hs) fun m => ?_
  refine .bind_free (.free (hidle.groupLog _ _ _) (Separate.groupLog _ _)) fun sets => ?_
  refine .bind_free (R := fun _ => Separate g) (.bind_free (costs_mergeLoop hi ord _ _) fun r =>
    .free (.pure _) fun _ hs => hs) fun _ => ?_
  intro s _
  have hL : g.config.logZoneNumConfig.toNat = g.logZones := Int.toNat_natCast _
  have hreset := cost_resetLogZones (g := g) (i := i) g.logZones 0 s (by omega)
  rw [if_pos ⟨Nat.zero_le _, by omega⟩] at hreset
  simp only [hL, Program.cost_bind, hreset]
  exact ⟨rfl, trivial⟩

end Erased

/-! ## The zones that a pass rewrites -/

section Stored

variable [Zero B] {ord : HashOrder}

omit [Zero B] in
/-- As many as there are virtual zones at most, and as there are entries in the log. -/
lemma length_passSets_le (hm : LogOk g w.ftl.logZoneMapping) :
    (passSets g ord w.ftl).length
      ≤ min (g.nrZones - g.logZones) w.ftl.logZoneMapping.entries.length := by
  have hnodup : ((passSets g ord w.ftl).map Sigma.fst).Nodup := (setsOk_passSets hm).nodup
  refine Nat.le_min.mpr ⟨?_, ?_⟩
  · have hsub : (passSets g ord w.ftl).map Sigma.fst
        ⊆ (List.range' g.logZones (g.nrZones - g.logZones)).map ((↑) : ℕ → ℤ) := by
      intro v hv
      obtain ⟨⟨v, set⟩, hmem, rfl⟩ := List.mem_map.mp hv
      obtain ⟨u, rfl, hle, hlt⟩ := (setsOk_passSets hm).zone hmem
      refine List.mem_map_of_mem (List.mem_range'_1.mpr ⟨hle, ?_⟩)
      omega
    have hle := (List.subperm_of_subset hnodup hsub).length_le
    simpa using hle
  · have hsub : (passSets g ord w.ftl).map Sigma.fst
        ⊆ (logKeys ord w.ftl).map g.config.virtualZone := by
      intro v hv
      obtain ⟨⟨v, set⟩, hmem, rfl⟩ := List.mem_map.mp hv
      have hin := mem_of_lookup ((ord.zones.mem_order _).mp hmem)
      rcases (mem_groupKeys g.config w.ftl.logZoneMapping _ ∅).mp hin with hin | ⟨k, hk, rfl⟩
      · cases hin
      · exact List.mem_map_of_mem hk
    have hle := (List.subperm_of_subset hnodup hsub).length_le
    rw [List.length_map, List.length_map, logKeys, List.length_map,
      (ord.log.perm _).length_eq] at hle
    exact hle

/-- **A pass stores one zone at most for each virtual zone in the log.** -/
lemma stored_triggerGc (ord : HashOrder) (w : World g.drive) :
    Program.cost exec Op.stored (triggerGc g.config ord : Prog B Unit) w
      ≤ (passSets g ord w.ftl).length * g.nBlocks := by
  have hgroup := run_groupLog (w := w) g.config (logKeys ord w.ftl) ∅ (ord.log.nodup_keys _)
  rw [logKeys] at hgroup
  have hfree := Nat.le_zero.mp ((idle_stored (B := B)).groupLog g.config
    ((ord.log.order w.ftl.logZoneMapping).map Sigma.fst) ∅ _ exec w)
  have hloop := stored_mergeLoop (c := g.config) ord (passSets g ord w.ftl) (fun _ => (0 : B)) _ exec
    (marked w (logKeys ord w.ftl))
  rw [Setup.config_nBlocksPerZone, Setup.config_lbaSizeBytes, Nat.mul_div_cancel _ g.lba_pos] at hloop
  have hreset := fun s : World g.drive => Nat.le_zero.mp
    (stored_resetLogZones (B := B) (c := g.config) g.config.logZoneNumConfig.toNat 0 _ exec s)
  have hget := Nat.le_zero.mp ((idle_stored (B := B)).getFtl _ exec w)
  have hmodify : ∀ f (s : World g.drive),
      Program.cost exec Op.stored (modifyFtl f : Prog B Unit) s = 0 :=
    fun f s => Nat.le_zero.mp ((idle_stored (B := B)).modifyFtl f _ exec s)
  simp only [triggerGc, zoneMerge, Program.cost_bind, Program.cost_pure, run_getFtl, hgroup, hfree,
    hreset, hget, hmodify, Nat.zero_add, Nat.add_zero]
  exact hloop

end Stored

/-! ## A run of one-block writes -/

/-- **A run of one-block writes** on a device that has just been opened: how many have returned, and
what they have issued. -/
inductive Writes [Zero B] (g : Setup B) : ℕ → World g.drive → List (Op B) → Prop
  | opened : Writes g 0 (fresh g) []
  | write {k q : ℕ} {r : ℤ} {w w' : World g.drive} {ops : List (Op B)} (h : Writes g k w ops)
      (passes : List HashOrder) (buf : Buffer B) (hq : q < g.capacity)
      (hw : (znsUdeviceWrite g.config passes (q * g.lba) g.lba buf).run exec w = (some r, w')) :
      Writes g (k + 1) w'
        (ops ++ (znsUdeviceWrite g.config passes (q * g.lba) g.lba buf).issued exec w)

/-- **The pace.**  After `k` writes there have been `n` passes, and the log holds what has been
written since the last of them. -/
structure Pace [Zero B] (g : Setup B) (k n : ℕ) (w : World g.drive) : Prop where
  synced : Synced g w
  entries : w.ftl.logZoneMapping.entries.length ≤ w.ftl.logZoneEnd
  count : k = 0 ∧ n = 0 ∧ w.ftl.logZoneEnd = 0 ∨
    0 < w.ftl.logZoneEnd ∧ w.ftl.logZoneEnd < g.logRoom ∧
      k = n * (g.logRoom - 1) + w.ftl.logZoneEnd

section Run

variable [Zero B] {k n q : ℕ} {passes : List HashOrder} {buf : Buffer B} {price : Op B → ℕ}

omit [Zero B] in
/-- The cursor of a session keeps the areas apart. -/
lemma Synced.separate (h : Synced g w) : Separate g w where
  start := h.inv.start
  end_le := h.inv.end_le
  data hv := by
    obtain ⟨e, he, hle, hlt, -⟩ := h.inv.zones.val hv
    exact ⟨e, he, hle, hlt⟩
  empty i hi hiL := by
    have hlen := h.cursor i hiL
    have hroom := Nat.mul_le_mul_right g.nBlocks hi
    have hend := h.inv.end_le
    rw [← Setup.logRoom] at hroom
    refine List.length_eq_zero_iff.mp ?_
    omega

/-- Looking whether there is room is for free … -/
lemma cost_watermarkLoop_left (hprice : Idle price) {m : ℕ}
    (hfree : g.gcWmark < freeZoneNumber g.config w.ftl (toI32 m)) (passes : List HashOrder) :
    Program.cost exec price (watermarkLoop g.config m passes : Prog B Bool) w = 0 := by
  have hget := Nat.le_zero.mp (hprice.getFtl _ exec w)
  have hnot : ¬ freeZoneNumber g.config w.ftl (toI32 m) ≤ g.config.gcWatermark := Nat.not_le.mpr hfree
  cases passes with
  | nil => simp [watermarkLoop, hget]
  | cons ord rest => simp [watermarkLoop, hget, hnot]

/-- … and if there is none, a pass is paid for. -/
lemma cost_watermarkLoop_pass (hprice : Idle price) {m : ℕ}
    (hfree : freeZoneNumber g.config w.ftl (toI32 m) ≤ g.gcWmark) (ord : HashOrder)
    (rest : List HashOrder) :
    Program.cost exec price (watermarkLoop g.config m (ord :: rest) : Prog B Bool) w
      = Program.cost exec price (triggerGc g.config ord : Prog B Unit) (asked w)
        + Program.cost exec price (watermarkLoop g.config m rest : Prog B Bool) (collect ord w) := by
  have hget := Nat.le_zero.mp (hprice.getFtl _ exec w)
  have hmodify : ∀ f, Program.cost exec price (modifyFtl f : Prog B Unit) w = 0 :=
    fun f => Nat.le_zero.mp (hprice.modifyFtl f _ exec w)
  have hle : freeZoneNumber g.config w.ftl (toI32 m) ≤ g.config.gcWatermark := hfree
  rw [watermarkLoop, Program.cost_bind, hget]
  change 0 + Program.cost exec price
    (if freeZoneNumber g.config w.ftl (toI32 m) ≤ g.config.gcWatermark then _ else _) w = _
  rw [if_pos hle]
  simp only [Program.cost_bind, hmodify, run_modifyFtl, Nat.zero_add]
  rfl

/-- A call that gets the mutex, and leaves the loop, pays for the loop and for the body. -/
lemma cost_znsUdeviceWrite (hprice : Idle price) (hm : w.ftl.gcMutex = false)
    (hl : ((watermarkLoop g.config 1 passes : Prog B Bool).run exec (locked w)).1 = true) :
    Program.cost exec price (znsUdeviceWrite g.config passes (q * g.lba) g.lba buf) w
      = Program.cost exec price (watermarkLoop g.config 1 passes : Prog B Bool) (locked w)
        + Program.cost exec price (writeBody g.config (q * g.lba) g.lba buf)
          ((watermarkLoop g.config 1 passes : Prog B Bool).run exec (locked w)).2 := by
  have hget := Nat.le_zero.mp (hprice.getFtl _ exec w)
  have hmodify : ∀ f, Program.cost exec price (modifyFtl f : Prog B Unit) w = 0 :=
    fun f => Nat.le_zero.mp (hprice.modifyFtl f _ exec w)
  have hone : g.lba / g.lba = 1 := Nat.div_self g.lba_pos
  have hlock : ({ w with ftl := { w.ftl with gcMutex := true } } : World g.drive) = locked w := rfl
  simp only [znsUdeviceWrite, Setup.config_lbaSizeBytes, Nat.mod_self, ne_eq, not_true_eq_false,
    if_false, Program.cost_bind, hget, run_getFtl, hm, Bool.false_eq_true, hmodify, run_modifyFtl,
    hone, hlock, hl, if_true, Program.cost_map, Nat.zero_add]

omit [Zero B] in
/-- One entry more. -/
lemma length_mapBlocks_one (log : UMap ℤ) (address : ℕ) (c : ℤ) :
    (mapBlocks g.config address c 1 log).entries.length ≤ log.entries.length + 1 := by
  simp only [mapBlocks, List.range_one, List.foldl_cons, List.foldl_nil]
  rw [AList.entries_insert, List.length_cons]
  exact Nat.succ_le_succ (List.kerase_sublist _ _).length_le

omit [Zero B] in
/-- The body of a one-block write adds one entry to the log and moves the cursor by one. -/
lemma writeBody_entries (hds : g.ds < 18) (hat : AtCursor g w)
    (hroom : w.ftl.logZoneEnd + 1 < g.logRoom) (buf : Buffer B) :
    let s := ((writeBody g.config (q * g.lba) g.lba buf).run exec w).2
    s.ftl.logZoneEnd = w.ftl.logZoneEnd + 1 ∧
      s.ftl.logZoneMapping.entries.length ≤ w.ftl.logZoneMapping.entries.length + 1 := by
  have hn := g.nBlocks_pos
  have hlr := g.logRoom_lt
  have hle := g.logRoom_add_le
  have hzone := hat.zone (show w.ftl.logZoneEnd < g.logRoom by omega)
  have hmod := Nat.mod_lt w.ftl.logZoneEnd hn
  have hznr : w.ftl.logZoneEnd / g.nBlocks < g.nrZones :=
    (g.cursor_zone_lt (show w.ftl.logZoneEnd ≤ g.logRoom by omega)).trans g.logZones_lt
  have hfits : (w.media.zone (w.ftl.logZoneEnd / g.nBlocks)).length + (buf.slice 0 1).length
      ≤ g.nBlocks := by
    rw [Buffer.length_slice, hzone]
    omega
  have hrun := run_writeBody_append (w := w) (a := q) Nat.one_pos (one_small hds) (by omega) rfl hznr
    buf hfits
  rw [Nat.one_mul] at hrun
  intro s
  have hs : s = _ := congrArg Prod.snd hrun
  refine ⟨?_, ?_⟩
  · rw [hs]
    change w.ftl.logZoneEnd / g.nBlocks * g.nBlocks + _ + 1 = _
    rw [hzone, Nat.div_add_mod']
  · rw [hs]
    exact length_mapBlocks_one _ _ _

/-- The zones that passes may have to rewrite: as many as there are, and as writes fill the log. -/
def rewritten (g : Setup B) : ℕ := min (g.nrZones - g.logZones) (g.logRoom - 1) * g.nBlocks

/-! ### One write -/

/-- While there is room the loop costs nothing, … -/
lemma Pace.cost_room (h : Pace g k n w) (hlt : w.ftl.logZoneEnd + 1 < g.logRoom)
    (hprice : Idle price) :
    Program.cost exec price (watermarkLoop g.config 1 passes : Prog B Bool) (locked w) = 0 :=
  cost_watermarkLoop_left (w := locked w) hprice
    ((h.synced.inv.watermark_iff h.synced.inv.no_wrap).mpr hlt) passes

/-- … and the count goes on. -/
lemma Pace.next_room (h : Pace g k n w) (hlt : w.ftl.logZoneEnd + 1 < g.logRoom)
    {w' : World g.drive} (hsynced : Synced g w') (hend : w'.ftl.logZoneEnd = w.ftl.logZoneEnd + 1)
    (hentries : w'.ftl.logZoneMapping.entries.length ≤ w.ftl.logZoneMapping.entries.length + 1) :
    Pace g (k + 1) n w' := by
  refine ⟨hsynced, ?_, ?_⟩
  · rw [hend]
    exact hentries.trans (Nat.succ_le_succ h.entries)
  · rcases h.count with ⟨rfl, rfl, hzero⟩ | ⟨-, -, hcount⟩
    · refine Or.inr ⟨by omega, by omega, ?_⟩
      rw [Nat.zero_mul]
      omega
    · refine Or.inr ⟨by omega, by omega, ?_⟩
      rw [hend]
      exact congrArg (· + 1) hcount

section Pass

variable (h : Pace g k n w) (hge : g.logRoom ≤ w.ftl.logZoneEnd + 1)
include h hge

/-- Without room the loop costs a pass, … -/
lemma Pace.cost_pass (hroom : 1 < g.logRoom) (hprice : Idle price) (ord : HashOrder)
    (rest : List HashOrder) :
    Program.cost exec price (watermarkLoop g.config 1 (ord :: rest) : Prog B Bool) (locked w)
      = Program.cost exec price (triggerGc g.config ord : Prog B Unit) (asked (locked w)) := by
  have hI : Inv g (locked w) := h.synced.inv.setFlags rfl rfl
  obtain ⟨-, hIc, hclear, -⟩ := hI.collect ord
  have hfull : freeZoneNumber g.config w.ftl (toI32 1) ≤ g.gcWmark := by
    rw [← Nat.not_lt]
    intro hlt
    have := (h.synced.inv.watermark_iff h.synced.inv.no_wrap).mp hlt
    omega
  have hfree : g.gcWmark < freeZoneNumber g.config (collect ord (locked w)).ftl (toI32 1) := by
    refine (hIc.watermark_iff hIc.no_wrap).mpr ?_
    rwa [hclear.ends, Nat.zero_add]
  rw [cost_watermarkLoop_pass (w := locked w) hprice hfull ord rest,
    cost_watermarkLoop_left hprice hfree rest, Nat.add_zero]

omit hge in
/-- … which erases every log zone but the last once, … -/
lemma Pace.erases_pass {i : ℕ} (hi : i + 1 < g.logZones) (ord : HashOrder) :
    Program.cost exec (Op.erases (i * g.nBlocks)) (triggerGc g.config ord : Prog B Unit)
      (asked (locked w)) = 1 := by
  have hsep : Separate g (asked (locked w)) :=
    h.synced.separate.congr rfl h.synced.inv.start h.synced.inv.end_le rfl
  exact (costs_triggerGc hi ord _ hsep).1

/-- … and stores no more than what passes have to rewrite, … -/
lemma Pace.stored_pass (ord : HashOrder) :
    Program.cost exec Op.stored (triggerGc g.config ord : Prog B Unit) (asked (locked w))
      ≤ rewritten g := by
  refine (stored_triggerGc ord _).trans (Nat.mul_le_mul_right _ ?_)
  refine (length_passSets_le (w := asked (locked w)) h.synced.inv.log).trans ?_
  have hle : w.ftl.logZoneMapping.entries.length ≤ g.logRoom - 1 := by
    have := h.entries
    rcases h.count with ⟨-, -, hzero⟩ | ⟨-, hlt, -⟩ <;> omega
  exact min_le_min_left _ hle

/-- … and the count starts again. -/
lemma Pace.next_pass (hroom : 1 < g.logRoom) {w' : World g.drive} (hsynced : Synced g w')
    (hend : w'.ftl.logZoneEnd = 1) (hentries : w'.ftl.logZoneMapping.entries.length ≤ 1) :
    Pace g (k + 1) (n + 1) w' := by
  obtain ⟨hpos, hlt, hcount⟩ := h.count.resolve_left fun h0 => by omega
  refine ⟨hsynced, hend ▸ hentries, Or.inr ⟨by omega, by omega, ?_⟩⟩
  rw [Nat.succ_mul, hend]
  omega

end Pass

/-- **One write**, with or without a pass. -/
lemma Pace.write (hds : g.ds < 18) (h : Pace g k n w) (hq : q < g.capacity) {r : ℤ}
    {w' : World g.drive}
    (hw : (znsUdeviceWrite g.config passes (q * g.lba) g.lba buf).run exec w = (some r, w')) :
    ∃ m ≤ 1, Pace g (k + 1) (n + m) w' ∧
      (∀ i, i + 1 < g.logZones → Program.cost exec (Op.erases (i * g.nBlocks))
        (znsUdeviceWrite g.config passes (q * g.lba) g.lba buf) w = m) ∧
      Program.cost exec Op.stored (znsUdeviceWrite g.config passes (q * g.lba) g.lba buf) w
        ≤ m * rewritten g + 1 := by
  have hsynced : Synced g w' := by
    rcases h.synced.write passes hds hq buf with hnone | ⟨-, hs, -⟩
    · rw [hw] at hnone
      cases hnone
    · rw [hw] at hs
      exact hs
  obtain ⟨hmutex, hl, hbody⟩ := write_left (k := 1) (Nat.one_mul _).symm hw
  have hcost : ∀ {price : Op B → ℕ}, Idle price → Program.cost exec price
      (znsUdeviceWrite g.config passes (q * g.lba) g.lba buf) w = _ :=
    fun hprice => cost_znsUdeviceWrite hprice hmutex hl
  have herase : ∀ i s, Program.cost exec (Op.erases (i * g.nBlocks))
      (writeBody g.config (q * g.lba) g.lba buf) (s : World g.drive) = 0 :=
    fun i s => Nat.le_zero.mp (erases_writeBody _ _ _ _ exec s)
  have hstore : ∀ s : World g.drive, Program.cost exec Op.stored
      (writeBody g.config (q * g.lba) g.lba buf) s ≤ 1 := by
    intro s
    have h := stored_writeBody (c := g.config) (q * g.lba) g.lba buf _ exec s
    rwa [Setup.config_lbaSizeBytes, Nat.div_self g.lba_pos] at h
  rcases h.synced.loop passes with hno | ⟨-, -, hat, hroom, hcase⟩
  · rw [hno] at hl
    cases hl
  obtain ⟨hend, hentries⟩ := writeBody_entries (q := q) hds hat hroom buf
  rw [hbody] at hend hentries
  rcases hcase with ⟨hlt, heq⟩ | ⟨hge, ord, rest, rfl, heq⟩
  · -- there is room
    rw [heq] at hend hentries
    refine ⟨0, Nat.zero_le 1, h.next_room hlt hsynced hend hentries, fun i _ => ?_, ?_⟩
    · rw [hcost (idle_erases _), h.cost_room hlt (idle_erases _), herase]
    · rw [hcost idle_stored, h.cost_room hlt idle_stored, Nat.zero_mul]
      exact Nat.add_le_add_left (hstore _) 0
  · -- there is none
    obtain ⟨-, -, hclear, -⟩ := (h.synced.inv.setFlags rfl rfl : Inv g (locked w)).collect ord
    rw [heq, hclear.ends] at hend hroom
    rw [heq, hclear.log] at hentries
    refine ⟨1, Nat.le_refl 1, h.next_pass hge hroom hsynced hend hentries, fun i hi => ?_, ?_⟩
    · rw [hcost (idle_erases _), h.cost_pass hge hroom (idle_erases _), herase, h.erases_pass hi]
    · rw [hcost idle_stored, h.cost_pass hge hroom idle_stored, Nat.one_mul]
      exact Nat.add_le_add (h.stored_pass hge ord) (hstore _)

/-- The opening. -/
lemma pace_fresh (g : Setup B) : Pace g 0 0 (fresh g) :=
  ⟨synced_fresh g, Nat.zero_le _, Or.inl ⟨rfl, rfl, rfl⟩⟩

/-- The number of passes is what the pace says, if there is one. -/
lemma Pace.passes_eq (h : Pace g k n w) : n = (k - 1) / (g.logRoom - 1) := by
  rcases h.count with ⟨rfl, rfl, -⟩ | ⟨hpos, hlt, hk⟩
  · exact (Nat.zero_div _).symm
  · have hsub : k - 1 = n * (g.logRoom - 1) + (w.ftl.logZoneEnd - 1) := by omega
    rw [hsub, Nat.mul_comm, Nat.mul_add_div (by omega), Nat.div_eq_of_lt (by omega), Nat.add_zero]

lemma Pace.cursor_eq (h : Pace g k n w) (hk : 0 < k) :
    w.ftl.logZoneEnd = (k - 1) % (g.logRoom - 1) + 1 := by
  rcases h.count with ⟨rfl, -, -⟩ | ⟨hpos, hlt, heq⟩
  · cases hk
  · have hsub : k - 1 = n * (g.logRoom - 1) + (w.ftl.logZoneEnd - 1) := by omega
    rw [hsub, Nat.mul_comm, Nat.mul_add_mod, Nat.mod_eq_of_lt (by omega)]
    omega

/-- What runs keep, with what they have issued. -/
lemma Writes.pace (hds : g.ds < 18) {ops : List (Op B)} (h : Writes g k w ops) :
    ∃ n, Pace g k n w ∧
      (∀ i, i + 1 < g.logZones → (ops.map (Op.erases (i * g.nBlocks))).sum = n) ∧
      (ops.map Op.stored).sum ≤ n * rewritten g + k := by
  induction h with
  | opened => exact ⟨0, pace_fresh g, fun _ _ => rfl, Nat.zero_le _⟩
  | write _ passes buf hq hw ih =>
      obtain ⟨n, hpace, herases, hstored⟩ := ih
      obtain ⟨m, -, hpace', herases', hstored'⟩ := hpace.write hds hq hw
      refine ⟨n + m, hpace', fun i hi => ?_, ?_⟩
      · rw [List.map_append, List.sum_append, herases i hi]
        exact congrArg (n + ·) (herases' i hi)
      · rw [List.map_append, List.sum_append, Nat.add_mul]
        refine (Nat.add_le_add hstored hstored').trans (Nat.le_of_eq ?_)
        omega

/-- There are such runs of every length. -/
lemma exists_writes (hds : g.ds < 18) (hroom : 1 < g.logRoom) (hcap : 0 < g.capacity) (k : ℕ) :
    ∃ (w : World g.drive) (ops : List (Op B)), Writes g k w ops := by
  induction k with
  | zero => exact ⟨_, _, .opened⟩
  | succ k ih =>
      obtain ⟨w, ops, h⟩ := ih
      obtain ⟨n, hpace, -⟩ := h.pace hds
      have hret := hpace.synced.write_returns [.stored] hds hcap (fun _ => 0) hroom
        (Or.inl (List.cons_ne_nil _ _))
      exact ⟨_, _, h.write [.stored] (fun _ => 0) hcap (Prod.ext hret rfl)⟩

/-- **The rhythm of collections.**  After `k` one-block writes each log zone, the last one apart, has
been erased exactly once every `logRoom - 1` writes, not counting the first write, and the cursor
tells how many writes there have been since. -/
theorem collections_in_step (hds : g.ds < 18) {ops : List (Op B)} (h : Writes g k w ops)
    (hk : 0 < k) :
    w.ftl.logZoneEnd = (k - 1) % (g.logRoom - 1) + 1 ∧
      ∀ i, i + 1 < g.logZones →
        (ops.map (Op.erases (i * g.nBlocks))).sum = (k - 1) / (g.logRoom - 1) := by
  obtain ⟨n, hpace, herases, -⟩ := h.pace hds
  exact ⟨hpace.cursor_eq hk, fun i hi => (herases i hi).trans hpace.passes_eq⟩

/-- After ten writes to the small drive there have been four passes. -/
theorem collections_in_step_ten :
    ∃ (w : World smallDrive.drive) (ops : List (Op UInt8)), Writes smallDrive 10 w ops ∧
      w.ftl.logZoneEnd = 2 ∧ (ops.map (Op.erases 0)).sum = 4 := by
  obtain ⟨w, ops, h⟩ := exists_writes (g := smallDrive) (by decide) (by decide) (by decide) 10
  have hten := collections_in_step (by decide) h (by decide)
  exact ⟨w, ops, h, hten.1, hten.2 0 (by decide)⟩

/-- **Write amplification.**  `k` one-block writes make the drive store `k` blocks, and what the
passes rewrite: at most all data zones each time, and never more zones than a pass finds blocks. -/
theorem blocks_stored_le (hds : g.ds < 18) {ops : List (Op B)} (h : Writes g k w ops) :
    (ops.map Op.stored).sum
      ≤ k + (k - 1) / (g.logRoom - 1)
          * (min (g.nrZones - g.logZones) (g.logRoom - 1) * g.nBlocks) := by
  obtain ⟨n, hpace, -, hstored⟩ := h.pace hds
  rw [← hpace.passes_eq, Nat.add_comm]
  exact hstored

theorem blocks_stored_le_ten :
    ∃ (w : World smallDrive.drive) (ops : List (Op UInt8)), Writes smallDrive 10 w ops ∧
      (ops.map Op.stored).sum ≤ 34 := by
  obtain ⟨w, ops, h⟩ := exists_writes (g := smallDrive) (by decide) (by decide) (by decide) 10
  exact ⟨w, ops, h, blocks_stored_le (by decide) h⟩

end Run

end StoSys
