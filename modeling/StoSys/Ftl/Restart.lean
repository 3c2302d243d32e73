import StoSys.Ftl.Frame
import StoSys.Ftl.Session

/-!
# Opening without a reset

`init_ss_zns_device` with `force_reset = false` puts the cursor at zero and leaves the log zones as
they are.  `InStep` is what a write needs then: the zone of the cursor holds as many blocks as the
cursor says, or is full, and then the write is refused; and so for the zones the cursor has still to
enter.  It says nothing about maps and data zones, so it is kept from any state on: a collection
rewinds the cursor and erases the log even when its merge makes no sense.
-/

namespace StoSys

open Effect HashMap Zoned CInt

variable {B : Type} {g : Setup B} {w : World g.drive}

/-! ## What a collection leaves behind, from any state -/

/-- The program leaves `log_zone_start` at zero. -/
abbrev KeepsStart {α : Type} (g : Setup B) (p : Prog B α) : Prop :=
  Program.Triple exec (fun w : World g.drive => w.ftl.logZoneStart = 0) p
    fun _ w => w.ftl.logZoneStart = 0

namespace KeepsStart

lemma coarse_start : Coarse fun m => m.logZoneStart = 0 := fun _ _ _ _ hm => hm

lemma mergeLoop (c : Config) (ord : HashOrder) (sets : List (Sigma fun _ : ℤ => UMap ℤ))
    (buf : Buffer B) : KeepsStart g (StoSys.mergeLoop c ord sets buf) :=
  Keeps.mergeLoop faithful_exec coarse_start c ord sets buf

lemma writeBody (c : Config) (address size : ℕ) (buf : Buffer B) :
    KeepsStart g (StoSys.writeBody c address size buf) :=
  Keeps.writeBody faithful_exec coarse_start (fun _ _ hm => hm) (fun _ hm => hm) c address size buf

end KeepsStart

section Pass

variable [Zero B]

/-- **A collection from any state**: the cursor is at zero, and the log is empty. -/
lemma run_triggerGc_any (hstart : w.ftl.logZoneStart = 0) (ord : HashOrder) :
    let s := ((triggerGc g.config ord : Prog B Unit).run exec w).2
    s.ftl.logZoneStart = 0 ∧ s.ftl.logZoneEnd = 0 ∧ ∀ i < g.logZones, s.media.zone i = [] := by
  obtain ⟨hrun, -⟩ := always_triggerGc (w := w) ord (I := fun _ => True)
  obtain ⟨hwiped, -⟩ := run_resetLogZones g.logZones 0 (afterMerge ord w)
    (by have := g.logZones_lt; omega)
  have hmerge : (afterMerge ord w).ftl.logZoneStart = 0 :=
    KeepsStart.mergeLoop g.config ord (passSets g ord w.ftl) (fun _ => 0) _ hstart
  change Wiped (afterMerge ord w) 0 g.logZones (afterReset ord w) at hwiped
  have hend : (afterReset ord w).ftl.logZoneStart = 0 := by rw [hwiped.ftl, hmerge]
  intro s
  simp only [s, hrun]
  exact ⟨hend, hend, fun i hi => (hwiped.zone i).trans (if_pos ⟨Nat.zero_le _, by omega⟩)⟩

end Pass

/-! ## The cursor and the write pointers -/

/-- **The cursor is in step with the write pointers.**  Each log zone from that of the cursor on
holds the blocks before the cursor that fall into it, or the cursor does not get past some full
zone.  Writes of `MDTS` and more do not move the cursor. -/
structure InStep (g : Setup B) (w : World g.drive) : Prop where
  start : w.ftl.logZoneStart = 0
  end_le : w.ftl.logZoneEnd ≤ g.logRoom
  small : g.ds < 18 → ∀ i, w.ftl.logZoneEnd / g.nBlocks ≤ i → i < g.logZones - g.gcWmark →
    (w.media.zone i).length = w.ftl.logZoneEnd - i * g.nBlocks ∨
      ∃ j, w.ftl.logZoneEnd / g.nBlocks ≤ j ∧ j ≤ i ∧ (w.media.zone j).length = g.nBlocks
  large : 18 ≤ g.ds → w.ftl.logZoneEnd = 0

/-- An empty log. -/
lemma InStep.of_empty (hstart : w.ftl.logZoneStart = 0) (hend : w.ftl.logZoneEnd = 0)
    (hempty : ∀ i < g.logZones, w.media.zone i = []) : InStep g w := by
  refine ⟨hstart, by omega, fun _ i _ hi => Or.inl ?_, fun _ => hend⟩
  rw [hempty i (by omega), hend, Nat.zero_sub, List.length_nil]

/-- For blocks of `MDTS` and more there is nothing else to it. -/
lemma InStep.of_large (hds : 18 ≤ g.ds) (hstart : w.ftl.logZoneStart = 0)
    (hend : w.ftl.logZoneEnd = 0) : InStep g w :=
  ⟨hstart, by omega, fun hlt => by omega, fun _ => hend⟩

lemma InStep.setFlags (h : InStep g w) {m : Ftl} (hstart : m.logZoneStart = w.ftl.logZoneStart)
    (hend : m.logZoneEnd = w.ftl.logZoneEnd) : InStep g ⟨m, w.media⟩ := by
  refine ⟨hstart.trans h.start, hend.trans_le h.end_le, fun hds => ?_, fun hds => ?_⟩
  · change ∀ i, m.logZoneEnd / g.nBlocks ≤ i → _
    rw [hend]
    exact h.small hds
  · exact hend.trans (h.large hds)

/-- One block further. -/
lemma InStep.step {s : World g.drive} {buf : Buffer B} (h : InStep g w) (hds : g.ds < 18)
    (hroom : w.ftl.logZoneEnd + 1 < g.logRoom)
    (hat : (w.media.zone (w.ftl.logZoneEnd / g.nBlocks)).length = w.ftl.logZoneEnd % g.nBlocks)
    (hstart : s.ftl.logZoneStart = 0) (hend : s.ftl.logZoneEnd = w.ftl.logZoneEnd + 1)
    (hzone : ∀ i, s.media.zone i = if i = w.ftl.logZoneEnd / g.nBlocks then
      w.media.zone i ++ buf.slice 0 1 else w.media.zone i) : InStep g s := by
  refine ⟨hstart, by omega, fun _ i hi hiL => ?_, fun h => by omega⟩
  have hn := g.nBlocks_pos
  have hsmall := h.small hds i
  have hdm := Nat.div_add_mod' w.ftl.logZoneEnd g.nBlocks
  have hmod := Nat.mod_lt w.ftl.logZoneEnd hn
  have hnext : w.ftl.logZoneEnd / g.nBlocks ≤ s.ftl.logZoneEnd / g.nBlocks :=
    Nat.div_le_div_right (by omega)
  have hlast : s.ftl.logZoneEnd / g.nBlocks ≤ w.ftl.logZoneEnd / g.nBlocks + 1 := by
    refine Nat.div_le_of_le_mul ?_
    rw [Nat.mul_comm, Nat.succ_mul]
    omega
  generalize w.ftl.logZoneEnd / g.nBlocks = z at *
  generalize s.ftl.logZoneEnd / g.nBlocks = z' at *
  rw [hend]
  by_cases hiz : i = z
  · subst hiz
    left
    rw [hzone, if_pos rfl, List.length_append, Buffer.length_slice]
    omega
  · have hle := Nat.mul_le_mul_right g.nBlocks (show z + 1 ≤ i by omega)
    rw [Nat.succ_mul] at hle
    rcases hsmall (by omega) hiL with hlen | ⟨j, hzj, hji, hfull⟩
    · left
      rw [hzone, if_neg hiz, hlen]
      omega
    · -- that zone is not the zone of the cursor
      have hjz : j ≠ z := by
        rintro rfl
        omega
      exact Or.inr ⟨j, by omega, hji, by rw [hzone, if_neg hjz, hfull]⟩

section Write

variable {q : ℕ}

/-- Blocks of `MDTS` and more go to the start of the log, if that is empty. -/
lemma writeBody_start (hds : 18 ≤ g.ds) (hend : w.ftl.logZoneEnd = 0) (hroom : 1 < g.logRoom)
    (hq : q < g.capacity) (buf : Buffer B) :
    let r := (StoSys.writeBody g.config (q * g.lba) g.lba buf).run exec w
    r.2.ftl.logZoneEnd = 0 ∧ (r.1 = 0 → g.ds ≤ 18 ∧ Logged r.2 q 0 (buf 0)) := by
  have hlarge := one_large hds
  have hn := g.nBlocks_pos
  have hnlt := g.nBlocks_lt
  have hz : w.ftl.logZoneEnd / g.nBlocks = 0 := by rw [hend, Nat.zero_div]
  have htotal : g.nBlocks ≤ g.nrZones * g.nBlocks := by
    have := g.logZones_lt
    exact Nat.le_mul_of_pos_left _ (by omega)
  obtain ⟨ret, t, hgrew, -, hbody⟩ := writeBody_large (a := q) hlarge (by omega) hz (by omega) buf
  have hrun := run_writeBody_large (w := w) (a := q) hlarge (by omega) hz buf
  obtain ⟨hiff, hspread⟩ := run_ioWithMdts_zones (w := w) (z := 0) Nat.one_pos (by omega)
    (fun i hi hlt => by
      have := Nat.le_mul_of_pos_left g.nBlocks hi
      omega) buf
  rw [Nat.one_mul] at hrun hbody hiff hspread
  intro r
  have hends : r.2.ftl.logZoneEnd = w.ftl.logZoneEnd := by
    simp only [r, hbody]
    rw [← hgrew.ftl]
    split <;> rfl
  refine ⟨hends.trans hend, fun h0 => ?_⟩
  change r = _ at hrun
  split at hrun
  · rename_i hret
    obtain ⟨hR, hs⟩ := hspread hret
    have hlog := Spread.logged (a := q) (c := 0) (w := w) (k := 1) (i := 0)
      (by rw [Nat.zero_div]; exact hs) (by rw [Nat.zero_div]; exact hR) (Nat.zero_mod _) (by omega)
      (by omega) (by rw [Nat.one_mul]; exact g.lba_lt) Nat.one_pos
    rw [hrun, hend]
    exact ⟨(hiff.mp hret).1, hlog⟩
  · rename_i hret
    rw [hrun] at h0
    exact absurd h0 hret

/-- **The body of a one-block write in step.** -/
lemma InStep.writeBody (h : InStep g w) (hroom : w.ftl.logZoneEnd + 1 < g.logRoom)
    (hq : q < g.capacity) (buf : Buffer B) :
    let r := (StoSys.writeBody g.config (q * g.lba) g.lba buf).run exec w
    InStep g r.2 ∧ (r.1 = 0 → g.ds ≤ 18 ∧ ∃ y < g.logRoom, Logged r.2 q y (buf 0)) := by
  have hn := g.nBlocks_pos
  have hlr := g.logRoom_lt
  have hc : w.ftl.logZoneEnd < 2147483648 := by omega
  have hzL : w.ftl.logZoneEnd / g.nBlocks < g.logZones - g.gcWmark :=
    (Nat.div_lt_iff_lt_mul hn).mpr (by rw [← Setup.logRoom]; omega)
  have hLnr := g.logZones_lt
  rcases Nat.lt_or_ge g.ds 18 with hds | hds
  · rcases h.small hds _ (Nat.le_refl _) hzL with hat | ⟨j, hzj, hjz, hfull⟩
    · -- the block goes where the map says
      have hdm := Nat.div_add_mod' w.ftl.logZoneEnd g.nBlocks
      have hmod := Nat.mod_lt w.ftl.logZoneEnd hn
      have hat' : (w.media.zone (w.ftl.logZoneEnd / g.nBlocks)).length
          = w.ftl.logZoneEnd % g.nBlocks := by omega
      obtain ⟨hret, -, hend, hlog, hzone⟩ := writeBody_atCursor (q := q) Nat.one_pos (one_small hds)
        (show q + 1 ≤ g.capacity by omega) hroom hat' hmod buf
      rw [Nat.one_mul] at hret hend hlog hzone
      intro r
      refine ⟨h.step hds hroom hat' (KeepsStart.writeBody _ _ _ buf w h.start) hend hzone,
        fun _ => ⟨by omega, _, ?_, hlog 0 Nat.one_pos⟩⟩
      omega
    · -- the zone of the cursor is full
      obtain rfl : j = w.ftl.logZoneEnd / g.nBlocks := by omega
      have hrun := run_writeBody_append_refused (w := w) (a := q) (one_small hds) hc rfl
        (Or.inr (by omega)) buf
      rw [Nat.one_mul] at hrun
      intro r
      simp only [r, hrun]
      exact ⟨h, fun h0 => absurd h0 (by decide)⟩
  · obtain ⟨hend, hlog⟩ := writeBody_start hds (h.large hds) (by omega) hq buf
    exact ⟨.of_large hds (KeepsStart.writeBody _ _ _ buf w h.start) hend,
      fun h0 => ⟨(hlog h0).1, 0, by omega, (hlog h0).2⟩⟩

variable [Zero B]

/-- **A one-block write in step**: if it succeeds the log map names the block written. -/
lemma InStep.write (h : InStep g w) (hq : q < g.capacity) (passes : List HashOrder)
    (buf : Buffer B) :
    let r := (znsUdeviceWrite g.config passes (q * g.lba) g.lba buf).run exec w
    InStep g r.2 ∧ (r.1 = some 0 → g.ds ≤ 18 ∧ ∃ y < g.logRoom, Logged r.2 q y (buf 0)) := by
  have hlr := g.logRoom_lt
  have hle := g.logRoom_add_le
  have hn := g.nBlocks_pos
  obtain ⟨hloop, hleft⟩ := watermarkLoop_rule (P := InStep g) (k := 1)
    (fun ord s hs _ => by
      obtain ⟨hstart, hend, hempty⟩ := run_triggerGc_any (w := asked s) hs.start ord
      exact .of_empty hstart hend hempty)
    passes (locked w) (h.setFlags rfl rfl)
  refine run_write_rule (k := 1) (Q := fun r => InStep g r.2 ∧
    (r.1 = some 0 → g.ds ≤ 18 ∧ ∃ y < g.logRoom, Logged r.2 q y (buf 0))) (Nat.one_mul _).symm
    ⟨h, fun h0 => by cases h0⟩ ⟨⟨hloop, fun h0 => by cases h0⟩, fun hl => ?_⟩
  have hend := hloop.end_le
  have hroom := (watermark_lt_iff hloop.start (by omega)).mp (hleft hl)
  rw [Nat.succ_mul] at hroom
  obtain ⟨hstep, hlog⟩ := hloop.writeBody (q := q) (by omega) hq buf
  exact ⟨hstep, fun h0 => hlog (Option.some.inj h0)⟩

end Write

/-! ## Opening again -/

/-- `w` after the device has been opened without a reset. -/
def reopened (w : World g.drive) : World g.drive := ⟨opened w w.media, w.media⟩

/-- **Exactly when the cursor is in step after that**: among the log zones that writes may fill, a
zone that is not empty comes after a full one, or is full itself. -/
def Resumable (g : Setup B) (w : World g.drive) : Prop :=
  g.ds < 18 → ∀ i < g.logZones - g.gcWmark,
    w.media.zone i = [] ∨ ∃ j ≤ i, (w.media.zone j).length = g.nBlocks

lemma Resumable.inStep (h : Resumable g w) : InStep g (reopened w) := by
  refine ⟨rfl, Nat.zero_le _, fun hds i _ hi => ?_, fun _ => rfl⟩
  rcases h hds i hi with hempty | ⟨j, hji, hfull⟩
  · left
    change (w.media.zone i).length = 0 - i * g.nBlocks
    rw [hempty, Nat.zero_sub, List.length_nil]
  · refine Or.inr ⟨j, ?_, hji, hfull⟩
    change 0 / g.nBlocks ≤ j
    rw [Nat.zero_div]
    exact Nat.zero_le j

/-- **The data zones are those of the maps**: the log map names blocks that writes may fill, the data
map full data zones, none of them twice, and every other data zone is empty.  A process that has just
started knows no data zone, so for it they must all be empty. -/
structure DataMapped (g : Setup B) (w : World g.drive) : Prop where
  log : LogOk g w.ftl.logZoneMapping
  key : ∀ {v z}, w.ftl.dataZoneMapping.lookup v = some z →
    ∃ u : ℕ, v = u ∧ g.logZones ≤ u ∧ u < g.nrZones
  val : ∀ {v z}, w.ftl.dataZoneMapping.lookup v = some z →
    ∃ e : ℕ, z = (e * g.nBlocks : ℕ) ∧ g.logZones ≤ e ∧ e < g.nrZones ∧
      (w.media.zone e).length = g.nBlocks
  inj : ∀ {v v' z}, w.ftl.dataZoneMapping.lookup v = some z →
    w.ftl.dataZoneMapping.lookup v' = some z → v = v'
  rest : ∀ e, g.logZones ≤ e → e < g.nrZones → w.media.zone e = [] ∨
    ∃ v, w.ftl.dataZoneMapping.lookup v = some ((e * g.nBlocks : ℕ) : ℤ)
  big : 18 < g.ds → w.ftl.logZoneMapping = ∅

/-- Then the zone states that the drive reports are right. -/
lemma DataMapped.reopened (h : DataMapped g w) : Inv g (reopened w) := by
  have hstate : ∀ e, g.logZones ≤ e → e < g.nrZones →
      (StoSys.reopened w).ftl.zoneStates e = w.media.zoneState e :=
    fun e hle hlt => if_pos ⟨hle, hlt⟩
  refine ⟨rfl, Nat.zero_le _, h.log, ⟨h.key, fun {v z} hv => ?_, h.inj, ?_⟩, ?_, h.big⟩
  · obtain ⟨e, he, hle, hlt, hlen⟩ := h.val hv
    exact ⟨e, he, hle, hlt, (hstate e hle hlt).trans (Media.zoneState_of_full hlen), hlen⟩
  · intro e hle hlt hmark
    exact (Media.zoneState_eq_one_iff _ _).mp ((hstate e hle hlt).symm.trans hmark)
  · intro e hle hlt
    rw [hstate e hle hlt]
    rcases h.rest e hle hlt with hempty | ⟨v, hv⟩
    · exact Or.inl ((Media.zoneState_eq_one_iff _ _).mpr hempty)
    · obtain ⟨e', he', -, -, hlen⟩ := h.val hv
      obtain rfl : e = e' := start_inj he'
      exact Or.inr ⟨Media.zoneState_of_full hlen, v, hv⟩

/-- In every history they are. -/
lemma Inv.dataMapped (h : Inv g w) : DataMapped g w := by
  refine ⟨h.log, h.zones.key, fun {v z} hv => ?_, h.zones.inj, fun e hle hlt => ?_, h.big⟩
  · obtain ⟨e, he, hle, hlt, -, hlen⟩ := h.zones.val hv
    exact ⟨e, he, hle, hlt, hlen⟩
  · exact (h.tight e hle hlt).imp (h.zones.free hle hlt) And.right

/-- The maps of a fresh process are empty. -/
lemma dataMapped_fresh_iff (m : Media g.drive) : DataMapped g ⟨Ftl.fresh, m⟩ ↔
    ∀ e, g.logZones ≤ e → e < g.nrZones → m.zone e = [] := by
  constructor
  · intro h e hle hlt
    rcases h.rest e hle hlt with hempty | ⟨v, hv⟩
    · exact hempty
    · exact absurd hv (by simp [Ftl.fresh])
  · intro hempty
    refine ⟨fun {k x} hk => ?_, fun {v z} hv => ?_, fun {v z} hv => ?_, fun {v v' z} hv => ?_,
      fun e hle hlt => Or.inl (hempty e hle hlt), fun _ => rfl⟩
    · exact absurd hk (by simp [Ftl.fresh])
    · exact absurd hv (by simp [Ftl.fresh])
    · exact absurd hv (by simp [Ftl.fresh])
    · exact absurd hv (by simp [Ftl.fresh])

/-- After a session: nothing has been written since the last pass, or a zone of blocks has. -/
lemma AtCursor.resumable_iff (hds : g.ds < 18) (h : AtCursor g w) :
    Resumable g w ↔ w.ftl.logZoneEnd = 0 ∨ g.nBlocks ≤ w.ftl.logZoneEnd := by
  have hn := g.nBlocks_pos
  have hwm := g.wmark_lt
  have hfirst := h 0 g.logZones_pos
  rw [Nat.zero_mul, Nat.sub_zero] at hfirst
  constructor
  · intro hr
    rcases hr hds 0 (by omega) with hempty | ⟨j, hj, hfull⟩
    · rw [hempty, List.length_nil] at hfirst
      omega
    · rw [Nat.le_zero.mp hj] at hfull
      omega
  · rintro (hzero | hfull) _ i hi
    · left
      have hlen := h i (by omega)
      rw [hzero, Nat.zero_sub, Nat.min_zero] at hlen
      exact List.length_eq_zero_iff.mp hlen
    · exact Or.inr ⟨0, Nat.zero_le i, by omega⟩

end StoSys
