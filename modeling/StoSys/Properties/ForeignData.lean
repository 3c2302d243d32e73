import StoSys.Ftl.Session
import StoSys.Properties.ReadYourWrites

/-!
# Blocks that were never written

`zone_merge` zeroes its buffer once and then merges all zones of the pass through it.  A zone that
has a data zone overwrites the whole buffer; one that has none only overwrites the offsets it has
log blocks for, and writes to the drive whatever the zones before it have left at the others.

`Clean` is the condition under which there is nothing to find there.  At an offset `o` what is found
is the block that the last zone with a block at `o` has put there.
-/

namespace StoSys

open Effect HashMap Zoned CInt

variable {B : Type} [Zero B] {g : Setup B} {w : World g.drive} {s : Store B} {ord : HashOrder}

/-! ## What is left in the buffer -/

/-- Merging zone `z` puts something at offset `o` of the buffer: a log block, or a block of the data
zone. -/
def Fills (m : Ftl) (z : Sigma fun _ : ℤ => UMap ℤ) (o : ℤ) : Prop :=
  o ∈ z.2 ∨ z.1 ∈ m.dataZoneMapping

omit [Zero B] in
lemma merged_of_not_fills {v : ℤ} {set : UMap ℤ} {o : ℕ} (h : ¬ Fills w.ftl ⟨v, set⟩ o)
    (buf : Buffer B) : merged w v set buf o = buf o := by
  obtain ⟨hset, hmap⟩ := not_or.mp h
  have hlook : set.lookup (o : ℤ) = none := AList.lookup_eq_none.mpr hset
  have hzone : w.ftl.dataZoneMapping.lookup v = none := AList.lookup_eq_none.mpr hmap
  simp only [merged, hlook, oldBuf, dataAt, hzone, Option.map_none, Option.getD_none, ite_self]

omit [Zero B] in
lemma merged_of_fills {v : ℤ} {set : UMap ℤ} {o : ℕ} (h : Fills w.ftl ⟨v, set⟩ o)
    (ho : o < g.nBlocks) (buf buf' : Buffer B) : merged w v set buf o = merged w v set buf' o := by
  unfold merged
  cases hset : set.lookup (o : ℤ) with
  | some x => rfl
  | none =>
      rcases h with hmem | hmem
      · exact absurd hmem (AList.lookup_eq_none.mp hset)
      · obtain ⟨zone, hzone⟩ := lookup_of_mem hmem
        simp only [oldBuf, dataAt, hzone, Option.map_some, Option.getD_some, Int.toNat_natCast,
          Nat.cast_nonneg, Nat.cast_lt, ho, and_self, if_true]

/-- The buffer is zero where the last zone to fill it has left zero. -/
lemma finalBuf_eq_zero {o : ℕ} (done : ZoneSets)
    (h : ∀ {left between : ZoneSets} {u : ℤ} {set : UMap ℤ}, done = left ++ ⟨u, set⟩ :: between →
      Fills w.ftl ⟨u, set⟩ o → (∀ z ∈ between, ¬ Fills w.ftl z o) →
      ∀ buf : Buffer B, merged w u set buf o = 0) :
    finalBuf w done (fun _ => 0) o = 0 := by
  induction done using List.reverseRecOn with
  | nil => rfl
  | append_singleton init z ih =>
      obtain ⟨v, set⟩ := z
      rw [finalBuf_snoc]
      by_cases hz : Fills w.ftl ⟨v, set⟩ o
      · exact h rfl hz (fun _ hmem => absurd hmem List.not_mem_nil) _
      · rw [merged_of_not_fills hz]
        refine ih fun {left between u set'} heq hu hbetween => ?_
        refine @h left (between ++ [⟨v, set⟩]) u set' (by rw [heq]; simp) hu ?_
        intro z' hmem
        rcases List.mem_append.mp hmem with hmem | hmem
        · exact hbetween z' hmem
        · rw [List.mem_singleton.mp hmem]
          exact hz

/-- **A clean pass**: when a zone is merged for the first time, then at each offset it has no log
block for, the last zone before it that fills this offset has nothing but zeros there: the block has
not been written, or written with zeros. -/
def Clean (g : Setup B) (ord : HashOrder) (w : World g.drive) (s : Store B) : Prop :=
  ∀ {done rest : ZoneSets} {v : ℤ} {set : UMap ℤ}, passSets g ord w.ftl = done ++ ⟨v, set⟩ :: rest →
    v ∉ w.ftl.dataZoneMapping → ∀ {o : ℕ}, o < g.nBlocks → (o : ℤ) ∉ set →
    ∀ {left between : ZoneSets} {u : ℤ} {set' : UMap ℤ}, done = left ++ ⟨u, set'⟩ :: between →
      Fills w.ftl ⟨u, set'⟩ o → (∀ z ∈ between, ¬ Fills w.ftl z o) →
      ∀ {q : ℕ} {b : B}, u = (g.vzone q : ℕ) → o = q % g.nBlocks → s q = some b → b = 0

/-! ## The invariant -/

/-- Nothing but zeros is stored for block `q`. -/
structure Blank (g : Setup B) (w : World g.drive) (q : ℕ) : Prop where
  unlogged : w.ftl.logZoneMapping.lookup ((q * g.lba : ℕ) : ℤ) = none
  data : ∀ {b}, dataAt w (g.vzone q : ℕ) (q % g.nBlocks) = some b → b = 0

/-- Blocks that were never written are blank; and where nothing can be written, nothing is
mapped. -/
structure Zeroed (g : Setup B) (w : World g.drive) (s : Store B) : Prop where
  blank : ∀ {q}, q < g.capacity → s q = none → Blank g w q
  big : 18 < g.ds → ∀ v, w.ftl.dataZoneMapping.lookup v = none

lemma zeroed_fresh (g : Setup B) : Zeroed g (fresh g) fun _ => none := by
  have hmap : ∀ v, (fresh g).ftl.dataZoneMapping.lookup v = none := fun v => by
    simp [fresh, Ftl.fresh]
  refine ⟨fun {q} _ _ => ⟨by simp [fresh, Ftl.fresh], fun {b} hb => ?_⟩, fun _ => hmap⟩
  rw [dataAt, hmap] at hb
  cases hb

/-- A blank block reads as zeros: it is not mapped, or it is a block of zeros in a data zone. -/
lemma Zeroed.run_read (h : Zeroed g w s) (hI : Inv g w) {q : ℕ} (hq : q < g.capacity)
    (hs : s q = none) (buf : Buffer B) :
    (znsUdeviceRead g.config (q * g.lba) g.lba buf).run exec w = ((0, buf.store 0 [0]), w) := by
  obtain ⟨hlog, hdata⟩ := h.blank hq hs
  cases hv : w.ftl.dataZoneMapping.lookup ((g.vzone q : ℕ) : ℤ) with
  | none =>
      refine run_read_none hq buf ?_
      rw [translate_data hq hlog, hv, Option.map_none]
  | some zone =>
      have hds : g.ds ≤ 18 := by
        by_contra hds
        rw [h.big (Nat.lt_of_not_le hds)] at hv
        cases hv
      obtain ⟨b, hb⟩ : ∃ b, dataAt w (g.vzone q : ℕ) (q % g.nBlocks) = some b :=
        ⟨_, by rw [dataAt, hv, Option.map_some]⟩
      have hholds : Holds w q b := Or.inr ⟨hlog, hb⟩
      rw [hholds.run_read hds hI.log hI.zones hq buf, hdata hb]

/-! ## A clean pass -/

section Pass

variable (hc : Consistent g w s) (hz : Zeroed g w s) (hclean : Clean g ord w s)
include hc hz hclean

/-- In a clean pass the buffer might as well be zeroed for each zone. -/
lemma Zeroed.finalBuf_snoc {done rest : ZoneSets} {v : ℤ} {set : UMap ℤ}
    (hsplit : passSets g ord w.ftl = done ++ ⟨v, set⟩ :: rest) {o : ℕ} (ho : o < g.nBlocks) :
    finalBuf w (done ++ [⟨v, set⟩]) (fun _ => 0) o = merged w v set (fun _ => 0) o := by
  rw [StoSys.finalBuf_snoc]
  by_cases hv : Fills w.ftl ⟨v, set⟩ o
  · exact merged_of_fills hv ho _ _
  · obtain ⟨hset, hmap⟩ := not_or.mp hv
    rw [merged_of_not_fills hv, merged_of_not_fills hv]
    refine finalBuf_eq_zero done fun {left between u set'} hdone hu hbetween buf => ?_
    -- the block that zone `u` has at offset `o`
    have hmem : ⟨u, set'⟩ ∈ passSets g ord w.ftl := by
      rw [hsplit, hdone]
      simp
    obtain ⟨u, rfl, hle, hlt⟩ := (setsOk_passSets hc.inv.log).zone hmem
    obtain ⟨q, hq, rfl, rfl⟩ := g.exists_block hle hlt ho
    cases hs : s q with
    | some b =>
        rw [(hc.holds hs).merged hc.inv.log hmem]
        exact hclean hsplit hmap ho hset hdone hu hbetween rfl rfl hs
    | none =>
        obtain ⟨hlog, hdata⟩ := hz.blank hq hs
        rw [merged_passSet hc.inv.log hmem, hlog]
        cases hb : dataAt w (g.vzone q : ℕ) (q % g.nBlocks) with
        | some b => exact hdata hb
        | none =>
            -- then nothing fills the offset
            rcases hu with hu | hu
            · rw [← lookup_passSet hc.inv.log hmem] at hlog
              exact absurd hu (AList.lookup_eq_none.mp hlog)
            · obtain ⟨zone, hzone⟩ := lookup_of_mem hu
              rw [dataAt, hzone] at hb
              cases hb

/-- What a clean pass writes for a zone. -/
lemma Zeroed.pass_moved {v : ℤ} {set : UMap ℤ} (hmem : ⟨v, set⟩ ∈ passSets g ord w.ftl) :
    Moved v ((merged w v set fun _ => 0).slice 0 g.nBlocks)
      ((triggerGc g.config ord : Prog B Unit).run exec w).2 := by
  obtain ⟨hcol, -⟩ := hc.inv.pass ord
  obtain ⟨done, rest, hsplit⟩ := List.append_of_mem hmem
  have hmoved := hcol.self hsplit
  have hslice : (finalBuf w (done ++ [⟨v, set⟩]) fun _ => 0).slice 0 g.nBlocks
      = (merged w v set fun _ => 0).slice 0 g.nBlocks := by
    refine List.map_congr_left fun o ho => ?_
    rw [Int.zero_add]
    exact hz.finalBuf_snoc hc hclean hsplit (List.mem_range.mp ho)
  rw [hslice] at hmoved
  exact hmoved

lemma Zeroed.pass : Zeroed g ((triggerGc g.config ord : Prog B Unit).run exec w).2 s := by
  obtain ⟨hcol, -, hclear, -⟩ := hc.inv.pass ord
  refine ⟨fun {q} hq hs => ⟨by rw [hclear.log]; rfl, fun {b} hb => ?_⟩, fun hds v => ?_⟩
  · obtain ⟨hlog, hdata⟩ := hz.blank hq hs
    have ho := g.offset_lt q
    by_cases hv : ((g.vzone q : ℕ) : ℤ) ∈ (passSets g ord w.ftl).map Sigma.fst
    · obtain ⟨done, set, rest, hsplit⟩ := exists_split hv
      have hmem : ⟨((g.vzone q : ℕ) : ℤ), set⟩ ∈ passSets g ord w.ftl := mem_of_split hsplit
      rw [(hz.pass_moved hc hclean hmem).dataAt_eq ho, merged_passSet hc.inv.log hmem, hlog] at hb
      rw [← Option.some.inj hb]
      cases hold : dataAt w (g.vzone q : ℕ) (q % g.nBlocks) with
      | some b' => exact hdata hold
      | none => rfl
    · rw [(hcol.others _ hv).dataAt_eq hc.inv.zones ho] at hb
      exact hdata hb
  · have hnil : passSets g ord w.ftl = [] := passSets_nil (hc.inv.big hds)
    rw [(hcol.others v (by rw [hnil]; exact List.not_mem_nil)).lookup]
    exact hz.big hds v

end Pass

/-! ## Sessions of clean passes -/

/-- The flags have no part in it. -/
lemma Zeroed.setFlags {w' : World g.drive} (hz : Zeroed g w s) (hmedia : w'.media = w.media)
    (hftl : w'.ftl = { w.ftl with
      gcMutex := w'.ftl.gcMutex
      triggerMyGc := w'.ftl.triggerMyGc }) : Zeroed g w' s := by
  have hlog : w'.ftl.logZoneMapping = w.ftl.logZoneMapping := by rw [hftl]
  have hdata : w'.ftl.dataZoneMapping = w.ftl.dataZoneMapping := by rw [hftl]
  refine ⟨fun hq hs => ⟨by rw [hlog]; exact (hz.blank hq hs).unlogged, fun {b} hb => ?_⟩,
    fun hds v => by rw [hdata]; exact hz.big hds v⟩
  rw [dataAt, hdata, hmedia] at hb
  exact (hz.blank hq hs).data hb

/-- The pass that a one-block write may make is clean. -/
lemma Zeroed.loop (hc : Consistent g w s) (hz : Zeroed g w s) {passes : List HashOrder}
    (hok : freeZoneNumber g.config w.ftl (toI32 1) ≤ g.gcWmark →
      ∀ ord, passes.head? = some ord → Clean g ord w s) :
    let l := (watermarkLoop g.config 1 passes : Prog B Bool).run exec (locked w)
    l.1 = true → Zeroed g l.2 s := by
  intro l hl
  rcases hc.inv.loop_one passes with hno | ⟨-, -, -, hcase⟩
  · exact absurd (hno.symm.trans hl) Bool.false_ne_true
  rcases hcase with ⟨-, heq⟩ | ⟨hfull, ord, rest, hpasses, heq⟩
  · change l.2 = _ at heq
    rw [heq]
    exact hz.setFlags rfl rfl
  · have hasked : Consistent g (asked (locked w)) s :=
      ⟨hc.inv.setFlags rfl rfl, hc.block, hc.holds⟩
    have hzasked : Zeroed g (asked (locked w)) s := hz.setFlags rfl rfl
    have hfree : freeZoneNumber g.config w.ftl (toI32 1) ≤ g.gcWmark := by
      rw [← Nat.not_lt]
      intro hlt
      have := (hc.inv.watermark_iff hc.inv.no_wrap).mp hlt
      omega
    change l.2 = _ at heq
    rw [heq]
    exact hzasked.pass hasked (hok hfree ord (by rw [hpasses]; rfl))

omit [Zero B] in
/-- A block that is blank in the store after a write was so before, and is not the one written. -/
lemma blank_before {q q' : ℕ} {r : ℤ} {b : B}
    (hs : (if r = 0 then Function.update s q (some b) else s) q' = none) :
    s q' = none ∧ (r = 0 → q' ≠ q) := by
  by_cases hr : r = 0
  · rw [if_pos hr] at hs
    have hne : q' ≠ q := by
      rintro rfl
      rw [Function.update_self] at hs
      cases hs
    rw [Function.update_of_ne hne] at hs
    exact ⟨hs, fun _ => hne⟩
  · rw [if_neg hr] at hs
    exact ⟨hs, fun h0 => absurd h0 hr⟩

/-- A one-block write only ever touches its own block. -/
lemma Zeroed.write {q : ℕ} {r : ℤ} {w' : World g.drive} (hc : Consistent g w s) (hz : Zeroed g w s)
    (hq : q < g.capacity) {passes : List HashOrder} {buf : Buffer B}
    (hok : freeZoneNumber g.config w.ftl (toI32 1) ≤ g.gcWmark →
      ∀ ord, passes.head? = some ord → Clean g ord w s)
    (hw : (znsUdeviceWrite g.config passes (q * g.lba) g.lba buf).run exec w = (some r, w')) :
    Zeroed g w' (if r = 0 then Function.update s q (some (buf 0)) else s) := by
  obtain ⟨-, hl, hbody⟩ := write_left (k := 1) (Nat.one_mul _).symm hw
  have hzl := hz.loop hc hok hl
  rcases hc.inv.loop_one passes with hno | ⟨-, hI, hroom, -⟩
  · exact absurd (hno.symm.trans hl) Bool.false_ne_true
  generalize (watermarkLoop g.config 1 passes : Prog B Bool).run exec (locked w) = l
    at hbody hzl hI hroom
  have hothers := hI.writeBody_others (a := q) (k := 1) (by omega)
    (by rw [Nat.one_mul]; exact g.lba_lt) hroom buf
  rw [Nat.one_mul, hbody] at hothers
  obtain ⟨hmap, hdata, hlog⟩ := hothers
  refine ⟨fun {q'} hq' hs => ?_, fun hds v => by rw [hmap]; exact hzl.big hds v⟩
  obtain ⟨hs', hne⟩ := blank_before hs
  obtain ⟨hblank, hblank'⟩ := hzl.blank hq' hs'
  refine ⟨?_, fun {b} hb => ?_⟩
  · rw [hlog q' fun h0 => by have := hne h0; omega]
    exact hblank
  · rw [hdata _ (g.offset_lt q')] at hb
    exact hblank' hb

lemma Session.zeroed {c : Config} (h : Session g (fun w s ord => Clean g ord w s) c w s) :
    Zeroed g w s := by
  obtain rfl := h.config_eq
  generalize hconfig : g.config = c at h
  induction h with
  | init m h =>
      rw [run_init_fresh] at h
      cases h
      exact zeroed_fresh g
  | write hs passes buf hq hok h ih =>
      subst hconfig
      exact ih.write hs.consistent hq hok h
  | collect hs ord hok ih =>
      subst hconfig
      exact ih.pass hs.consistent hok

/-- **No foreign data.**  In a session all of whose passes are clean, a block that was never written
reads as zeros; and a clean pass writes nothing for a zone but its log blocks, the blocks of its
data zone and zeros. -/
theorem unwritten_reads_zero (g : Setup B) {c : Config} {w : World g.drive} {s : Store B}
    (h : Session g (fun w s ord => Clean g ord w s) c w s) :
    (∀ {q}, q < g.capacity → s q = none → ∀ buf : Buffer B,
      (znsUdeviceRead c (q * g.lba) g.lba buf).run exec w = ((0, buf.store 0 [0]), w)) ∧
    ∀ {ord : HashOrder}, Clean g ord w s → ∀ {v : ℤ} {set : UMap ℤ},
      ⟨v, set⟩ ∈ passSets g ord w.ftl →
        Moved v ((merged w v set fun _ => 0).slice 0 g.nBlocks)
          ((triggerGc c ord : Prog B Unit).run exec w).2 := by
  have hc := h.consistent
  have hz := h.zeroed
  rw [h.config_eq]
  exact ⟨fun hq hs buf => hz.run_read hc.inv hq hs buf,
    fun hclean _ _ hmem => hz.pass_moved hc hclean hmem⟩

/-- One block of a zone is written and the zone merged; its other blocks read as zeros. -/
theorem unwritten_reads_zero_merged :
    let w := ((znsUdeviceWrite smallDrive.config [] (4 * 4096) 4096 fun _ => 7).run exec
      (fresh smallDrive)).2
    let w' := ((triggerGc smallDrive.config HashOrder.stored : Prog UInt8 Unit).run exec w).2
    (znsUdeviceRead smallDrive.config (3 * 4096) 4096 fun _ => 1).run exec w'
      = ((0, Buffer.store (fun _ => 1) 0 [0]), w') := by
  intro w w'
  have hlen : (passSets smallDrive HashOrder.stored w.ftl).length = 1 := by decide +kernel
  have hfree : ¬ freeZoneNumber smallDrive.config (fresh smallDrive).ftl (toI32 1) ≤ 1 := by
    decide +kernel
  have h₁ := (session_fresh smallDrive fun w s ord => Clean smallDrive ord w s).write (q := 4) []
    (fun _ => 7) (by decide) (fun hle => absurd hle hfree)
    (show _ = (some 0, w) from Prod.ext (by decide +kernel) rfl)
  have h₂ := h₁.collect HashOrder.stored (by
    -- a single zone finds the buffer as it was zeroed
    intro done rest v set hsplit _ o _ _ left between u set' hdone
    rw [hsplit, hdone] at hlen
    simp only [List.length_append, List.length_cons] at hlen
    omega)
  exact (unwritten_reads_zero smallDrive h₂).1 (q := 3) (by decide) rfl _

/-- **The failing run**: blocks `1` and `3`, of different zones, are written, then block `8`, which
takes a pass.  Block `4`, which nobody has written, reads as the data of block `1`. -/
theorem two_zones_merged_together :
    let l : List (ℕ × UInt8) := [(1, 7), (3, 8), (8, 9)]
    ∃ w, Session smallDrive (fun _ _ _ => True) smallDrive.config w (replayed l fun _ => none) ∧
      replayed l (fun _ => none) 4 = none ∧
      ((znsUdeviceRead smallDrive.config (4 * 4096) 4096 fun _ => 0).run exec w).1.2 0 = 7 := by
  intro l
  obtain ⟨w, hw⟩ : ∃ w, replay smallDrive HashOrder.stored l (fresh smallDrive) = some w :=
    Option.isSome_iff_exists.mp (by decide +kernel)
  have hread : ((replay smallDrive HashOrder.stored l (fresh smallDrive)).map fun w =>
      ((znsUdeviceRead smallDrive.config (4 * 4096) 4096 fun _ => 0).run exec w).1.2 0) = some 7 := by
    decide +kernel
  rw [hw] at hread
  exact ⟨w, (session_fresh smallDrive fun _ _ _ => True).replay (fun _ _ => trivial) (by decide) hw,
    rfl, Option.some.inj hread⟩

end StoSys
