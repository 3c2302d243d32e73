import StoSys.Ftl.Restart
import StoSys.Properties.ReadsDuringCollection

/-!
# Closing and opening again

Without `force_reset` the maps and the log zones stay, and `init_ss_zns_device` sets the cursor to
zero all the same.  The next append goes to the write pointer of the first log zone, and the log map
says it is block `0`.  From then on the cursor follows the write pointer again.

So one write is lost, unless the first log zone is empty, or full: then all writes are refused.

A process that has just started has empty maps.  Data zones that are not empty are lost to it, and
when the others are used up a merge finds none and the log is erased all the same.  So what is
written after opening stays readable only if the maps name the data zones in use (`DataMapped`).
-/

namespace StoSys

open Effect HashMap Zoned CInt

variable {B : Type} [Zero B] {g : Setup B} {w w' : World g.drive} {s s' : Store B} {c : Config}

/-- **A resumed session**: `init_ss_zns_device` without a reset, on the memory and the medium `w₀`;
after that one-block writes that return, and collections. -/
inductive Resumed (g : Setup B) (w₀ : World g.drive) (s₀ : Store B) :
    Config → World g.drive → Store B → Prop
  | init {c : Config} {w : World g.drive}
      (h : (initSsZnsDevice (g.params false) : Prog B _).run exec w₀ = ((0, some c), w)) :
      Resumed g w₀ s₀ c w s₀
  | write {c : Config} {w w' : World g.drive} {s : Store B} {q : ℕ} {r : ℤ}
      (hs : Resumed g w₀ s₀ c w s) (passes : List HashOrder) (buf : Buffer B) (hq : q < g.capacity)
      (h : (znsUdeviceWrite c passes (q * g.lba) g.lba buf).run exec w = (some r, w')) :
      Resumed g w₀ s₀ c w' (if r = 0 then Function.update s q (some (buf 0)) else s)
  | collect {c : Config} {w : World g.drive} {s : Store B} (hs : Resumed g w₀ s₀ c w s)
      (ord : HashOrder) : Resumed g w₀ s₀ c ((triggerGc c ord : Prog B Unit).run exec w).2 s

omit [Zero B] in
lemma run_reopen : (initSsZnsDevice (g.params false) : Prog B _).run exec w
    = ((0, some g.config), reopened w) :=
  run_init false

lemma Resumed.config_eq (h : Resumed g w s c w' s') : c = g.config := by
  induction h with
  | init h =>
      rw [run_reopen] at h
      cases h
      rfl
  | write _ _ _ _ _ ih => exact ih
  | collect _ _ ih => exact ih

/-! ## In step -/

/-- The cursor of a resumed session. -/
lemma Resumed.inStep (h : Resumed g w s c w' s') (hr : Resumable g w) : InStep g w' := by
  obtain rfl := h.config_eq
  generalize hc : g.config = c at h
  induction h with
  | init h =>
      rw [run_reopen] at h
      cases h
      exact hr.inStep
  | write hs passes buf hq h ih =>
      subst hc
      have hwrite := (ih.write hq passes buf).1
      rw [h] at hwrite
      exact hwrite
  | collect hs ord ih =>
      subst hc
      obtain ⟨hstart, hend, hempty⟩ := run_triggerGc_any ih.start ord
      exact .of_empty hstart hend hempty

/-- A write of a resumed session can be read back at once, whatever is on the device. -/
lemma InStep.reads {q : ℕ} (h : InStep g w) (hq : q < g.capacity) {passes : List HashOrder}
    {buf : Buffer B}
    (hw : (znsUdeviceWrite g.config passes (q * g.lba) g.lba buf).run exec w = (some 0, w')) :
    Reads g w' q (buf 0) := by
  obtain ⟨-, hlog⟩ := h.write hq passes buf
  rw [hw] at hlog
  obtain ⟨hds, y, hy, hlook, -, hb⟩ := hlog rfl
  have htotal := logRoom_le_total g
  rw [← hb]
  exact reads_entry hds hq (by omega) hlook

/-- A one-block write in step loses nothing. -/
lemma Consistent.write_inStep {q : ℕ} (h : Consistent g w s) (hstep : InStep g w)
    (hq : q < g.capacity) (passes : List HashOrder) (buf : Buffer B) :
    let r := (znsUdeviceWrite g.config passes (q * g.lba) g.lba buf).run exec w
    Consistent g r.2 (if r.1 = some 0 then Function.update s q (some (buf 0)) else s) := by
  obtain ⟨-, hlog⟩ := hstep.write hq passes buf
  have hkeep := write_keeps (a := q) (k := 1) h.inv (by omega)
    (by rw [Nat.one_mul]; exact g.lba_lt) (Or.inr h.inv.no_wrap) passes buf
  rw [Nat.one_mul] at hkeep
  intro r
  have hall : ∀ {q' b}, (if r.1 = some 0 then Function.update s q (some (buf 0)) else s) q' = some b →
      (q' < g.capacity ∧ g.ds ≤ 18) ∧ Holds r.2 q' b := by
    refine store_updated (Q := fun q b => (q < g.capacity ∧ g.ds ≤ 18) ∧ Holds r.2 q b)
      (fun h0 => ?_) fun hb hne => ⟨h.block hb, hkeep.2 (h.holds hb) fun h0 => ?_⟩
    · obtain ⟨hds, y, -, hy⟩ := hlog h0
      exact ⟨⟨hq, hds⟩, Or.inl ⟨y, hy⟩⟩
    · have := hne h0
      omega
  exact ⟨hkeep.1, fun hb => (hall hb).1, fun hb => (hall hb).2⟩

/-- What is held can be read. -/
lemma Consistent.reads (h : Consistent g w s) {q : ℕ} {b : B} (hb : s q = some b) :
    Reads g w q b := by
  obtain ⟨hq, hds⟩ := h.block hb
  exact fun buf => (h.holds hb).run_read hds h.inv.log h.inv.zones hq buf

/-- **Nothing is lost** in a resumed session that starts with all data readable. -/
lemma Resumed.consistent (h : Resumed g w s c w' s') (hw : Consistent g (reopened w) s)
    (hr : Resumable g w) : Consistent g w' s' := by
  obtain rfl := h.config_eq
  generalize hc : g.config = c at h
  induction h with
  | init h =>
      rw [run_reopen] at h
      cases h
      exact hw
  | write hs passes buf hq h ih =>
      subst hc
      have hwrite := ih.write_inStep (hs.inStep hr) hq passes buf
      simpa only [h, Option.some.injEq] using hwrite
  | collect hs ord ih =>
      subst hc
      obtain ⟨-, hI, -, -, hkeep⟩ := ih.inv.pass ord
      exact ⟨hI, ih.block, fun hb => hkeep (ih.holds hb)⟩

/-! ## Out of step -/

omit [Zero B] in
/-- The first zone the cursor enters out of step: not empty and not full, with empty zones before
it. -/
lemma exists_partial (hr : ¬ Resumable g w) : g.ds < 18 ∧ ∃ i < g.logZones - g.gcWmark,
    0 < (w.media.zone i).length ∧ (w.media.zone i).length < g.nBlocks ∧
      ∀ j < i, w.media.zone j = [] := by
  classical
  simp only [Resumable, not_forall, not_or, not_exists, not_and] at hr
  obtain ⟨hds, i, hi⟩ := hr
  have hex : ∃ i, i < g.logZones - g.gcWmark ∧ w.media.zone i ≠ [] ∧
      ∀ j ≤ i, (w.media.zone j).length ≠ g.nBlocks := ⟨i, hi.1, hi.2.1, hi.2.2⟩
  obtain ⟨hlt, hne, hfull⟩ := Nat.find_spec hex
  refine ⟨hds, Nat.find hex, hlt, List.length_pos_iff.mpr hne, ?_, fun j hj => ?_⟩
  · have hle : (w.media.zone (Nat.find hex)).length ≤ g.nBlocks := w.media.len_le _
    exact Nat.lt_of_le_of_ne hle (hfull _ (Nat.le_refl _))
  · by_contra hj'
    exact Nat.find_min hex hj ⟨by omega, hj', fun j' hj'' => hfull j' (by omega)⟩

/-- Block `q` has been appended to the zone of the cursor. -/
structure NextWritten (w : World g.drive) (q : ℕ) (buf : Buffer B) (w' : World g.drive) : Prop where
  mutex : w'.ftl.gcMutex = false
  start : w'.ftl.logZoneStart = 0
  ends : w'.ftl.logZoneEnd = w.ftl.logZoneEnd / g.nBlocks * g.nBlocks
    + (w.media.zone (w.ftl.logZoneEnd / g.nBlocks)).length + 1
  zone : ∀ i, w'.media.zone i = if i = w.ftl.logZoneEnd / g.nBlocks then
    w.media.zone i ++ buf.slice 0 1 else w.media.zone i
  data : w'.ftl.dataZoneMapping = w.ftl.dataZoneMapping
  log : ∀ q', w'.ftl.logZoneMapping.lookup ((q' * g.lba : ℕ) : ℤ) = if q' = q then
    some (w.ftl.logZoneEnd : ℤ) else w.ftl.logZoneMapping.lookup ((q' * g.lba : ℕ) : ℤ)

/-- **A one-block write for which there is room** makes no pass, and succeeds if the zone of the
cursor has room too. -/
lemma exists_nextWritten (hds : g.ds < 18) {q : ℕ} (hq : q < g.capacity)
    (hm : w.ftl.gcMutex = false) (hstart : w.ftl.logZoneStart = 0)
    (hroom : w.ftl.logZoneEnd + 1 < g.logRoom)
    (hzone : (w.media.zone (w.ftl.logZoneEnd / g.nBlocks)).length < g.nBlocks) (buf : Buffer B) :
    ∃ w', (znsUdeviceWrite g.config [] (q * g.lba) g.lba buf).run exec w = (some 0, w') ∧
      NextWritten w q buf w' := by
  have hlr := g.logRoom_lt
  have hcap : q + 1 ≤ g.capacity := hq
  have hznr : w.ftl.logZoneEnd / g.nBlocks < g.nrZones :=
    (g.cursor_zone_lt (by omega)).trans g.logZones_lt
  have hfits : ((locked w).media.zone (w.ftl.logZoneEnd / g.nBlocks)).length
      + (buf.slice 0 1).length ≤ g.nBlocks := by
    rw [Buffer.length_slice]
    exact hzone
  have hleft : (watermarkLoop g.config 1 [] : Prog B Bool).run exec (locked w) = (true, locked w) :=
    run_watermarkLoop_left ((watermark_lt_iff (m := (locked w).ftl) hstart (by
      change w.ftl.logZoneEnd + 1 < _
      omega)).mpr (Or.inl hroom)) []
  have hrun := run_write (a := q * g.lba) (k := 1) [] hm buf
  have hbody := run_writeBody_append (w := locked w) (a := q) Nat.one_pos (one_small hds)
    (show w.ftl.logZoneEnd < 2147483648 by omega) rfl hznr buf hfits
  simp only [hleft, if_true, hbody] at hrun
  rw [Nat.one_mul] at hrun
  refine ⟨_, hrun, rfl, hstart, rfl, fun i => ?_, rfl, fun q' => ?_⟩
  · rw [← List.length_append] at hfits
    refine (Media.setZone_zone w.media _ i _ hfits).trans ?_
    by_cases hi : i = w.ftl.logZoneEnd / g.nBlocks
    · exact (if_pos hi).trans (by rw [if_pos hi, hi]; rfl)
    · exact (if_neg hi).trans (if_neg hi).symm
  · refine (lookup_mapBlocks_user (show w.ftl.logZoneEnd < 2147483648 by omega) _ hcap
      (by rw [Nat.one_mul]; exact g.lba_lt) (by omega) q').trans ?_
    by_cases hqq : q' = q
    · rw [if_pos (by omega), if_pos hqq, hqq, Nat.sub_self, Nat.add_zero]
    · rw [if_neg (by omega), if_neg hqq]
      rfl

/-- The log zones before `i` have been filled with `p` blocks, and zone `i` is as it was. -/
structure FilledTo (w : World g.drive) (i p : ℕ) (w' : World g.drive) : Prop where
  mutex : w'.ftl.gcMutex = false
  start : w'.ftl.logZoneStart = 0
  ends : w'.ftl.logZoneEnd = p
  before : ∀ j < i, (w'.media.zone j).length = min g.nBlocks (p - j * g.nBlocks)
  zone : w'.media.zone i = w.media.zone i

/-- One block at a time. -/
lemma exists_filledTo (hds : g.ds < 18) {i : ℕ} (hi : i < g.logZones - g.gcWmark)
    (hbefore : ∀ j < i, w.media.zone j = []) (s : Store B) : ∀ p ≤ i * g.nBlocks,
    ∃ w' s', Resumed g w s g.config w' s' ∧ FilledTo w i p w'
  | 0, _ => by
      refine ⟨reopened w, s, .init run_reopen, rfl, rfl, rfl, fun j hj => ?_, rfl⟩
      change (w.media.zone j).length = _
      rw [hbefore j hj, Nat.zero_sub, Nat.min_zero, List.length_nil]
  | p + 1, hp => by
      obtain ⟨w₁, s₁, h₁, hfill⟩ := exists_filledTo hds hi hbefore s p (by omega)
      have hn := g.nBlocks_pos
      have hends := hfill.ends
      have hle := Nat.mul_le_mul_right g.nBlocks (Nat.succ_le_of_lt hi)
      rw [Nat.succ_mul, ← Setup.logRoom] at hle
      have hq : 0 < g.capacity := Nat.mul_pos (by have := g.logZones_lt; omega) hn
      -- the zone of the cursor
      have hz : p / g.nBlocks < i := (Nat.div_lt_iff_lt_mul hn).mpr (by omega)
      have hdm := Nat.div_add_mod' p g.nBlocks
      have hmod := Nat.mod_lt p hn
      have hlen := hfill.before _ hz
      obtain ⟨w₂, hrun, hnext⟩ := exists_nextWritten hds hq hfill.mutex hfill.start
        (by omega) (by rw [hends]; omega) fun _ => (0 : B)
      have hend := hnext.ends
      have hzone := hnext.zone
      rw [hends] at hend hzone
      refine ⟨w₂, _, h₁.write [] _ hq hrun, hnext.mutex, hnext.start, by omega, fun j hj => ?_, ?_⟩
      · have hj' := hfill.before j hj
        have hfar : j < p / g.nBlocks → (j + 1) * g.nBlocks ≤ p := fun hlt =>
          (Nat.mul_le_mul_right _ hlt).trans (Nat.div_mul_le_self _ _)
        have hnear : p / g.nBlocks < j → p < j * g.nBlocks := fun hlt =>
          (Nat.div_lt_iff_lt_mul hn).mp hlt
        rw [Nat.succ_mul] at hfar
        rw [hzone]
        split
        · rename_i hjz
          rw [List.length_append, Buffer.length_slice]
          rw [hjz] at hj' ⊢
          omega
        · omega
      · rw [hzone, if_neg (Nat.ne_of_gt hz)]
        exact hfill.zone

/-- Where the cursor is at the start of a zone and the drive is not, the block written next reads as
the first block of the zone. -/
lemma run_write_behind (hds : g.ds < 18) {i : ℕ} (hm : w.ftl.gcMutex = false)
    (hstart : w.ftl.logZoneStart = 0) (hend : w.ftl.logZoneEnd = i * g.nBlocks)
    (hroom : i * g.nBlocks + 1 < g.logRoom) (hne : 0 < (w.media.zone i).length)
    (hpart : (w.media.zone i).length < g.nBlocks) (b : B) :
    ∃ w₂, (znsUdeviceWrite g.config [] (0 * g.lba) g.lba fun _ => b).run exec w = (some 0, w₂) ∧
      Reads g w₂ 0 (w.media.blockAt (i * g.nBlocks)) := by
  have hn := g.nBlocks_pos
  have hlr := g.logRoom_lt
  have htotal := logRoom_le_total g
  have hLnr := g.logZones_lt
  have hinr : i < g.nrZones := (Nat.mul_lt_mul_right hn).mp (by omega)
  have hq : 0 < g.capacity := Nat.mul_pos (by omega) hn
  have hdiv : w.ftl.logZoneEnd / g.nBlocks = i := by rw [hend, Nat.mul_div_cancel _ hn]
  obtain ⟨w₂, hrun, hnext⟩ := exists_nextWritten hds hq hm hstart (by omega)
    (by rw [hdiv]; exact hpart) fun _ => b
  refine ⟨w₂, hrun, ?_⟩
  -- the map says `i * n`, which is where the zone starts
  have hlook : w₂.ftl.logZoneMapping.lookup ((0 * g.lba : ℕ) : ℤ)
      = some ((i * g.nBlocks : ℕ) : ℤ) := by
    rw [hnext.log, if_pos rfl, hend]
  have hzone₂ : w₂.media.zone i = w.media.zone i ++ [b] := by
    rw [hnext.zone, if_pos hdiv.symm]
    rfl
  have hread := reads_entry (g := g) (by omega) hq (by omega) hlook
  have hblock : w₂.media.blockAt (i * g.nBlocks + 0) = w.media.blockAt (i * g.nBlocks + 0) := by
    rw [Setup.blockAt_addr _ hn, Setup.blockAt_addr _ hn, hzone₂, List.getElem?_append_left hne]
  rw [Nat.add_zero] at hblock
  rw [← hblock]
  exact hread

/-- **The lost write.**  Where the cursor enters a zone out of step, the block written next reads as
what the zone has held. -/
lemma exists_misread (hr : ¬ Resumable g w) (s : Store B) :
    ∃ b₀ : B, ∀ b : B, ∃ w₁ s₁ w₂, Resumed g w s g.config w₁ s₁ ∧
      (znsUdeviceWrite g.config [] (0 * g.lba) g.lba fun _ => b).run exec w₁ = (some 0, w₂) ∧
      Reads g w₂ 0 b₀ := by
  obtain ⟨hds, i, hi, hne, hpart, hbefore⟩ := exists_partial hr
  obtain ⟨w₁, s₁, h₁, hfill⟩ := exists_filledTo hds hi hbefore s (i * g.nBlocks) (Nat.le_refl _)
  have hle := Nat.mul_le_mul_right g.nBlocks (Nat.succ_le_of_lt hi)
  rw [Nat.succ_mul, ← Setup.logRoom] at hle
  have hblock : w₁.media.blockAt (i * g.nBlocks) = w.media.blockAt (i * g.nBlocks) := by
    have hdiv : i * g.nBlocks / g.drive.zoneSize = i := Media.start_div (d := g.drive) i
    refine Media.blockAt_congr ?_
    rw [hdiv]
    exact hfill.zone
  refine ⟨w.media.blockAt (i * g.nBlocks), fun b => ?_⟩
  obtain ⟨w₂, hrun, hread⟩ := run_write_behind hds hfill.mutex hfill.start hfill.ends (by omega)
    (by rw [hfill.zone]; exact hne) (by rw [hfill.zone]; exact hpart) b
  exact ⟨w₁, s₁, w₂, h₁, hrun, hblock ▸ hread⟩

/-! ## Exactly when -/

/-- **Resuming without a reset.**  After a session nothing is ever lost exactly when the cursor
stood at zero or beyond the first log zone.  On a device whose data zones are those of the maps,
whatever is in the log zones, nothing that is written from then on is ever lost exactly when no log
zone that the cursor enters is partly filled. -/
theorem resume_iff [Nontrivial B] (g : Setup B) :
    (∀ {c : Config} {w : World g.drive} {s : Store B}, Session g (fun _ _ _ => True) c w s →
      ((∀ {c' w' s'}, Resumed g ((deinitSsZnsDevice : Prog B ℤ).run exec w).2 s c' w' s' →
          ∀ {q b}, s' q = some b → Reads g w' q b) ↔
        (g.ds < 18 → w.ftl.logZoneEnd = 0 ∨ g.nBlocks ≤ w.ftl.logZoneEnd))) ∧
      ∀ w : World g.drive, DataMapped g w →
        ((∀ {c' w' s'}, Resumed g w (fun _ => none) c' w' s' →
            ∀ {q b}, s' q = some b → Reads g w' q b) ↔
          Resumable g w) := by
  -- a run that loses its last write
  have hmisread : ∀ {w : World g.drive} (s : Store B), ¬ Resumable g w → ∃ w₂ s₂ q b,
      Resumed g w s g.config w₂ s₂ ∧ s₂ q = some b ∧ ¬ Reads g w₂ q b := by
    intro w s hr
    obtain ⟨b₀, hall⟩ := exists_misread hr s
    obtain ⟨b, hb⟩ := exists_ne b₀
    obtain ⟨w₁, s₁, w₂, h₁, hw₂, hread⟩ := hall b
    have hq : 0 < g.capacity := Nat.mul_pos (by have := g.logZones_lt; omega) g.nBlocks_pos
    exact ⟨w₂, _, 0, b, h₁.write [] (fun _ => b) hq hw₂, by rw [if_pos rfl, Function.update_self],
      fun hread' => hb (hread'.unique hread)⟩
  have hreads : ∀ {w : World g.drive} {s : Store B}, Consistent g (reopened w) s →
      ((∀ {c' w' s'}, Resumed g w s c' w' s' → ∀ {q b}, s' q = some b → Reads g w' q b) ↔
        Resumable g w) := by
    intro w s hcons
    constructor
    · intro hall
      by_contra hr
      obtain ⟨w₂, s₂, q, b, h₂, hb, hno⟩ := hmisread s hr
      exact hno (hall h₂ hb)
    · intro hr c' w' s' h' q b hb
      exact (h'.consistent hcons hr).reads hb
  refine ⟨fun {c w s} h => ?_,
    fun w hw => hreads ⟨hw.reopened, fun h => (by cases h), fun h => (by cases h)⟩⟩
  have hiff : Resumable g w ↔
      (g.ds < 18 → w.ftl.logZoneEnd = 0 ∨ g.nBlocks ≤ w.ftl.logZoneEnd) := by
    rcases Nat.lt_or_ge g.ds 18 with hds | hds
    · rw [(h.synced hds).1.cursor.resumable_iff hds]
      exact ⟨fun h _ => h, fun h => h hds⟩
    · exact iff_of_true (fun hlt => by omega) fun hlt => by omega
  rw [← hiff]
  -- closing the device changes a flag only
  have hclosed : Inv g ((deinitSsZnsDevice : Prog B ℤ).run exec w).2 :=
    h.consistent.inv.setFlags rfl rfl
  exact hreads ⟨hclosed.dataMapped.reopened, h.consistent.block, h.consistent.holds⟩

/-- Data in the last log zone, which writes never fill. -/
def leftover (bs : List UInt8) (h : bs.length ≤ smallDrive.drive.zoneCap) : World smallDrive.drive :=
  ⟨Ftl.fresh, (Media.empty smallDrive.drive).setZone 1 bs h⟩

/-- One block is written and collected; then a resumed session loses nothing.  Nor does one of a
fresh process that finds two blocks in the last log zone. -/
theorem resume_iff_collected :
    let w := ((znsUdeviceWrite smallDrive.config [] (4 * 4096) 4096 fun _ => 7).run exec
      (fresh smallDrive)).2
    let w₁ := ((triggerGc smallDrive.config HashOrder.stored : Prog UInt8 Unit).run exec w).2
    (∀ {c' w' s'}, Resumed smallDrive ((deinitSsZnsDevice : Prog UInt8 ℤ).run exec w₁).2
      (Function.update (fun _ => none) 4 (some 7)) c' w' s' →
        ∀ {q b}, s' q = some b → Reads smallDrive w' q b) ∧
    ∀ {c' w' s'}, Resumed smallDrive (leftover [5, 6] (by decide)) (fun _ => none) c' w' s' →
      ∀ {q b}, s' q = some b → Reads smallDrive w' q b := by
  intro w w₁
  have hw := (session_fresh smallDrive fun _ _ _ => True).write (q := 4) [] (fun _ => 7) (by decide)
    (fun _ _ _ => trivial) (show _ = (some 0, w) from Prod.ext (by decide +kernel) rfl)
  have hw₁ := hw.collect HashOrder.stored trivial
  rw [if_pos rfl] at hw₁
  obtain ⟨hsession, hany⟩ := resume_iff smallDrive
  refine ⟨(hsession hw₁).mpr (fun _ => Or.inl (by decide +kernel)), (hany _ ?_).mpr ?_⟩
  · refine (dataMapped_fresh_iff _).mpr fun e hle _ => ?_
    exact Media.setZone_zone_ne _ _ _ (show e ≠ 1 by rintro rfl; exact absurd hle (by decide))
  · intro _ i hi
    obtain rfl : i = 0 := Nat.lt_one_iff.mp hi
    exact Or.inl (Media.setZone_zone_ne (Media.empty smallDrive.drive) [5, 6] (by decide) (by decide))

/-- **The failing run**: block `4` is written, the device is closed and opened without a reset, and
block `8` is written.  It reads as block `4`. -/
theorem write_after_resume :
    let w := ((znsUdeviceWrite smallDrive.config [] (4 * 4096) 4096 fun _ => 7).run exec
      (fresh smallDrive)).2
    let w₁ := ((initSsZnsDevice (smallDrive.params false) : Prog UInt8 _).run exec
      ((deinitSsZnsDevice : Prog UInt8 ℤ).run exec w).2).2
    let w₂ := ((znsUdeviceWrite smallDrive.config [] (8 * 4096) 4096 fun _ => 9).run exec w₁).2
    Session smallDrive (fun _ _ _ => True) smallDrive.config w
        (Function.update (fun _ => none) 4 (some 7)) ∧
      Resumed smallDrive ((deinitSsZnsDevice : Prog UInt8 ℤ).run exec w).2
        (Function.update (fun _ => none) 4 (some 7)) smallDrive.config w₂
        (Function.update (Function.update (fun _ => none) 4 (some 7)) 8 (some 9)) ∧
      ¬ Reads smallDrive w₂ 8 9 := by
  intro w w₁ w₂
  have hw := (session_fresh smallDrive fun _ _ _ => True).write (q := 4) [] (fun _ => 7) (by decide)
    (fun _ _ _ => trivial) (show _ = (some 0, w) from Prod.ext (by decide +kernel) rfl)
  have h₁ : Resumed smallDrive ((deinitSsZnsDevice : Prog UInt8 ℤ).run exec w).2
      (Function.update (fun _ => none) 4 (some 7)) smallDrive.config w₁ _ :=
    .init (Prod.ext (by rw [run_reopen]) rfl)
  have h₂ := h₁.write (q := 8) [] (fun _ => 9) (by decide)
    (show _ = (some 0, w₂) from Prod.ext (by decide +kernel) rfl)
  refine ⟨hw, h₂, fun hread => ?_⟩
  have hseen : ((znsUdeviceRead smallDrive.config (8 * smallDrive.lba) smallDrive.lba
      fun _ => 1).run exec w₂).1.2 0 = 7 := by decide +kernel
  rw [hread] at hseen
  exact absurd (show (9 : UInt8) = 7 from hseen) (by decide)

end StoSys
