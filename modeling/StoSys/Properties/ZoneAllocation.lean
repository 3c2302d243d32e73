import StoSys.Properties.Watermark

/-!
# Allocation of data zones

Between operations the data map, the zone marks and the drive agree: a data zone is marked full when
it is the image of a virtual zone and empty otherwise.  A count then shows that a merge never runs
out of zones: when `next_empty_zone` finds none, all virtual zones have been placed, so the one
being merged has a zone of its own.

All of this rests on writes staying out of the data area, which `keepsWatermark_iff` gives for
requests that do not wrap.  A wrapped request below `MDTS` is refused by the drive; from `MDTS` on
it can fill data zones that are marked empty.
-/

namespace StoSys

open Effect HashMap Zoned CInt

variable {B : Type} {g : Setup B} {w : World g.drive}

/-- **The allocation invariant.** -/
structure DataZonesOk (g : Setup B) (w : World g.drive) : Prop where
  inj : ∀ {v v' z}, w.ftl.dataZoneMapping.lookup v = some z →
    w.ftl.dataZoneMapping.lookup v' = some z → v = v'
  start : ∀ {v z}, w.ftl.dataZoneMapping.lookup v = some z →
    ∃ e : ℕ, z = (e * g.nBlocks : ℕ) ∧ g.logZones ≤ e ∧ e < g.nrZones
  full : ∀ {e}, g.logZones ≤ e → e < g.nrZones → (w.ftl.zoneStates e = fullZone ↔
    ∃ v, w.ftl.dataZoneMapping.lookup v = some ((e * g.nBlocks : ℕ) : ℤ))
  empty : ∀ {e}, g.logZones ≤ e → e < g.nrZones → (w.ftl.zoneStates e = emptyZone ↔
    ¬ ∃ v, w.ftl.dataZoneMapping.lookup v = some ((e * g.nBlocks : ℕ) : ℤ))
  device : ∀ {e}, g.logZones ≤ e → e < g.nrZones → w.ftl.zoneStates e = w.media.zoneState e

lemma Inv.dataZonesOk (h : Inv g w) : DataZonesOk g w := by
  have hne : emptyZone ≠ fullZone := by decide
  have hn := g.nBlocks_pos
  refine ⟨h.zones.inj, fun hv => ?_, fun {e} hle hlt => ⟨fun hfull => ?_, fun ⟨v, hv⟩ => ?_⟩,
    fun {e} hle hlt => ⟨fun hempty hv => ?_, fun hno => ?_⟩, fun {e} hle hlt => ?_⟩
  · obtain ⟨e, hz, hle, hlt, -⟩ := h.zones.val hv
    exact ⟨e, hz, hle, hlt⟩
  · rcases h.tight e hle hlt with hempty | ⟨-, hv⟩
    · exact absurd (hempty.symm.trans hfull) hne
    · exact hv
  · exact (h.zones.used hv).2.2.1
  · obtain ⟨v, hv⟩ := hv
    exact hne (hempty.symm.trans (h.zones.used hv).2.2.1)
  · exact (h.tight e hle hlt).resolve_right fun hfull => hno hfull.2
  · rcases h.tight e hle hlt with hempty | ⟨hfull, v, hv⟩
    · rw [hempty, Media.zoneState, h.zones.free hle hlt hempty, List.length_nil, if_pos rfl]
      rfl
    · have hlen := (h.zones.used hv).2.2.2
      rw [hfull, Media.zoneState, hlen, if_neg (Nat.ne_of_gt hn), Setup.drive_zoneCap, if_pos rfl]
      rfl

/-! ## A merge never runs out -/

variable [Zero B]

/-- **What the invariant is for.**  `zone_merge` returns 0, so no command it issues has failed; and
in the iteration for `v`, after the sets `done`, either `next_empty_zone` finds a zone or `v` has
one. -/
def MergeSucceeds (g : Setup B) (ord : HashOrder) (w : World g.drive) : Prop :=
  let r := (groupLog g.config ((ord.log.order w.ftl.logZoneMapping).map Sigma.fst) ∅
    : Prog B (UMap (UMap ℤ))).run exec w
  ((zoneMerge g.config ord r.1 : Prog B ℤ).run exec r.2).1 = 0 ∧
    ∀ {done rest : ZoneSets} {v : ℤ} {set : UMap ℤ},
      ord.zones.order r.1 = done ++ ⟨v, set⟩ :: rest →
      let s := ((mergeLoop g.config ord done fun _ => (0 : B)).run exec r.2).2
      nextEmptyZone g.config s.ftl = -1 → ∃ zone, s.ftl.dataZoneMapping.lookup v = some zone ∧
        zone ≠ -1

lemma Inv.mergeSucceeds (h : Inv g w) (ord : HashOrder) : MergeSucceeds g ord w := by
  have hgroup := run_groupLog (w := w) g.config (logKeys ord w.ftl) ∅ (ord.log.nodup_keys _)
  rw [logKeys] at hgroup
  have hready := h.ready
  obtain ⟨hret, -⟩ := run_passLoop ord hready
  unfold MergeSucceeds
  rw [hgroup]
  refine ⟨?_, fun {done rest v set} hsplit hnone => ?_⟩
  · rw [zoneMerge, Program.run_bind]
    exact congrArg Prod.fst hret
  · change passSets g ord w.ftl = _ at hsplit
    have hok : SetsOk g (done ++ ⟨v, set⟩ :: rest) := hsplit ▸ setsOk_passSets hready.log
    have hsupply := hready.supply ord
    rw [hsplit, newZones_append, newZones_cons] at hsupply
    have hzm : ZoneInv g (marked w (logKeys ord w.ftl)) := h.zones.congr rfl rfl fun _ _ => rfl
    obtain ⟨-, hdone, hz', -, hcard, -⟩ := run_mergeLoop ord done (marked w (logKeys ord w.ftl))
      (fun _ => 0) (fun _ => by
        by_contra hds
        rw [passSets_nil (hready.big (Nat.lt_of_not_le hds))] at hsplit
        exact absurd hsplit.symm (by simp)) hzm hok.left (by
        change newZones w.ftl done ≤ (freeZones g w.ftl).card
        omega)
    -- all free zones are taken, so nothing that is still to come needs one
    have hfree := (nextEmptyZone_eq_neg_one _).mp hnone
    change _ + newZones w.ftl done = (freeZones g w.ftl).card at hcard
    rw [logKeys] at hcard hdone hz'
    rw [hfree, Finset.card_empty] at hcard
    have hmem : v ∈ w.ftl.dataZoneMapping := by
      by_contra hv
      rw [if_neg hv] at hsupply
      omega
    have hv : v ∉ done.map Sigma.fst := by
      intro hv
      have hnodup := hok.nodup
      rw [List.map_append, List.map_cons] at hnodup
      exact List.disjoint_of_nodup_append hnodup hv (List.mem_cons_self ..)
    obtain ⟨zone, hzone⟩ := lookup_of_mem ((hdone.others v hv).mem_iff.mpr hmem)
    obtain ⟨e, rfl, -⟩ := hz'.val hzone
    exact ⟨_, hzone, by omega⟩

/-! ## Over whole histories -/

/-- A write the allocation is meant for: aligned, inside the capacity, and no larger than the log
can take. -/
def Admissible (g : Setup B) (address k : ℕ) : Prop :=
  k * g.lba < 4294967296 ∧ k < g.logRoom ∧ ∃ a, address = a * g.lba ∧ a + k ≤ g.capacity

/-- Such a write, unless it is of `MDTS` or more and wraps. -/
def Harmless (g : Setup B) (w : World g.drive) (address k : ℕ) : Prop :=
  Admissible g address k ∧ (k * g.lba < mdts ∨ Unwrapped g w k)

/-- **The allocation invariant, over whole histories of harmless writes.** -/
theorem dataZonesOk_history (g : Setup B) {c : Config} {w : World g.drive}
    (h : History g (Harmless g) c w) :
    DataZonesOk g w ∧ ∀ (ord : HashOrder) (mutex trigger : Bool),
      MergeSucceeds g ord
        ⟨{ w.ftl with gcMutex := mutex, triggerMyGc := trigger }, w.media⟩ := by
  have hinv : Inv g w := by
    refine h.rule (inv_fresh g) ?_ fun hw ord => (hw.pass ord).2.1
    rintro w address k hw ⟨⟨hsize, -, a, rfl, hcap⟩, hwrap⟩ passes buf
    exact (write_keeps hw hcap hsize hwrap passes buf).1
  refine ⟨hinv.dataZonesOk, fun ord mutex trigger => ?_⟩
  have hflags : Inv g ⟨{ w.ftl with gcMutex := mutex, triggerMyGc := trigger }, w.media⟩ :=
    hinv.setFlags rfl rfl
  exact hflags.mergeSucceeds ord

/-- A write of three blocks and a pass. -/
theorem dataZonesOk_after_pass :
    let w := ((znsUdeviceWrite wideDrive.config [] (5 * 65536) (3 * 65536) fun _ => 7).run exec
      (fresh wideDrive)).2
    DataZonesOk wideDrive
      ((triggerGc wideDrive.config HashOrder.stored : Prog UInt8 Unit).run exec w).2 := by
  intro w
  have hok : Harmless wideDrive (fresh wideDrive) (5 * 65536) 3 :=
    ⟨⟨by decide, by decide, 5, rfl, by decide⟩, Or.inl (by decide)⟩
  have h₁ := (History.fresh wideDrive (Harmless wideDrive)).write [] (fun _ => 7) hok
  exact (dataZonesOk_history wideDrive (h₁.collect HashOrder.stored)).1

lemma History.writes : ∀ (l : List (ℕ × ℕ)) {w : World wideDrive.drive},
    History wideDrive (fun _ => Admissible wideDrive) wideDrive.config w →
    (∀ x ∈ l, Admissible wideDrive (x.1 * 65536) x.2) →
    History wideDrive (fun _ => Admissible wideDrive) wideDrive.config
      (l.foldl (fun w x => ((znsUdeviceWrite wideDrive.config [] (x.1 * 65536) (x.2 * 65536)
        fun _ => 7).run exec w).2) w)
  | [], _, h, _ => h
  | x :: l, _, h, hl =>
      History.writes l (h.write [] (fun _ => 7) (hl x (List.mem_cons_self ..)))
        fun y hy => hl y (List.mem_cons_of_mem _ hy)

/-- The writes of the failing run, as block and number of blocks. -/
def wrappingWrites : List (ℕ × ℕ) := [(0, 3), (3, 1), (4, 3), (7, 1), (8, 3), (11, 1), (0, 8)]

/-- **The failing run**: appends of three blocks and of one bring the cursor to the watermark,
twelve blocks.  A write of eight more ends at block 20, wraps and is let through; it covers log zone
`3` and data zone `4`, which stays marked empty. -/
theorem eight_blocks_at_the_watermark :
    let w := wrappingWrites.foldl (fun w x =>
      ((znsUdeviceWrite wideDrive.config [] (x.1 * 65536) (x.2 * 65536) fun _ => 7).run exec w).2)
      (fresh wideDrive)
    History wideDrive (fun _ => Admissible wideDrive) wideDrive.config w ∧
      w.ftl.zoneStates 4 = emptyZone ∧ w.media.zoneState 4 = fullZone ∧
      ¬ DataZonesOk wideDrive w := by
  intro w
  have hrun : w.ftl.zoneStates 4 = emptyZone ∧ w.media.zoneState 4 = fullZone := by decide +kernel
  refine ⟨?_, hrun.1, hrun.2, fun h => ?_⟩
  · have hfresh := History.fresh wideDrive fun _ => Admissible wideDrive
    refine History.writes wrappingWrites hfresh fun x hx => ?_
    have hdec : ∀ x ∈ wrappingWrites, x.2 * 65536 < 4294967296 ∧ x.2 < 12 ∧ x.1 + x.2 ≤ 24 := by
      decide
    obtain ⟨hsize, hroom, hcap⟩ := hdec x hx
    exact ⟨hsize, hroom, x.1, rfl, hcap⟩
  · have hdev := h.device (e := 4) (by decide) (by decide)
    rw [hrun.1, hrun.2] at hdev
    exact absurd hdev (by decide)

end StoSys
