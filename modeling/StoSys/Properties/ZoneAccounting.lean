import StoSys.Ftl.FaultyWrite
import StoSys.Properties.FailedCollection

/-!
# Which zones are free

`zone_merge` finds a zone to write by its mark: a data zone marked EMPTY must be empty on the drive,
and hold nothing that the data map still points to.  `Accounted` is that agreement.

The mark of the old data zone of a virtual zone becomes EMPTY as soon as the zone has been read,
long before its data is anywhere else, and every return between there and the end of the iteration
leaves it so.  A zone that is filled by more than one command is marked FULL only after the last,
and a return in between leaves it half written and EMPTY.

So a pattern of failures does no harm that spares the writes, the resets of data zones, and the log
blocks that are read between the mark and the write (`Tolerable`).  A state withstands all patterns
if the merge never gets to such a place: `accountsKept_iff`.
-/

namespace StoSys

open Effect HashMap Zoned CInt

variable {B : Type} {g : Setup B} {w w' : World g.drive} {ord : HashOrder}
  {fails : ℕ → Op B → Bool}

/-- **Marks, map and drive agree**: the data zone of a virtual zone is marked FULL; a data zone
marked EMPTY is empty, and not the data zone of any virtual zone. -/
structure Accounted (g : Setup B) (w : World g.drive) : Prop where
  full : ∀ {v z}, w.ftl.dataZoneMapping.lookup v = some z →
    ∃ e : ℕ, z = (e * g.nBlocks : ℕ) ∧ g.logZones ≤ e ∧ e < g.nrZones ∧
      w.ftl.zoneStates e = fullZone
  empty : ∀ {e}, g.logZones ≤ e → e < g.nrZones → w.ftl.zoneStates e = emptyZone →
    w.media.zone e = [] ∧ ∀ v, w.ftl.dataZoneMapping.lookup v ≠ some ((e * g.nBlocks : ℕ) : ℤ)

/-- In every history the marks are right. -/
lemma ZoneInv.accounted (hz : ZoneInv g w) : Accounted g w := by
  refine ⟨fun hv => ?_, fun hle hlt hstate => ⟨hz.free hle hlt hstate, fun v hv => ?_⟩⟩
  · obtain ⟨e, he, hle, hlt, hfull, -⟩ := hz.val hv
    exact ⟨e, he, hle, hlt, hfull⟩
  · exact hz.used_not_free hv (mem_freeZones.mpr ⟨⟨hle, hlt⟩, hstate⟩)

/-- What `next_empty_zone` hands out is an empty zone that nobody uses. -/
def HandsOutFree (g : Setup B) (w : World g.drive) : Prop :=
  ∀ e : ℕ, nextEmptyZone g.config w.ftl = (e * g.nBlocks : ℕ) →
    w.media.zone e = [] ∧ ∀ v, w.ftl.dataZoneMapping.lookup v ≠ some ((e * g.nBlocks : ℕ) : ℤ)

lemma Accounted.handsOutFree (h : Accounted g w) : HandsOutFree g w := by
  intro e he
  rcases nextEmptyZone_cases g w.ftl with ⟨e', hfree, hfound⟩ | ⟨-, hnone⟩
  · obtain rfl : e' = e := start_inj (hfound.symm.trans he)
    obtain ⟨⟨hle, hlt⟩, hstate⟩ := mem_freeZones.mp hfree
    exact h.empty hle hlt hstate
  · omega

/-- A virtual zone whose data zone is marked EMPTY. -/
lemma not_accounted_markOld {v : ℤ} {e : ℕ}
    (hv : w.ftl.dataZoneMapping.lookup v = some ((e * g.nBlocks : ℕ) : ℤ)) :
    ¬ Accounted g (markOld w v) := by
  intro h
  have hmap : (markOld w v).ftl.dataZoneMapping = w.ftl.dataZoneMapping := by rw [markOld_ftl]
  have hstate : (markOld w v).ftl.zoneStates e = emptyZone := by
    simp only [markOld, hv, Ftl.setZoneState, tdiv_start, Int.toNat_natCast, Function.update_self]
  obtain ⟨e', he', -, -, hfull⟩ := h.full (v := v) (by rw [hmap]; exact hv)
  obtain rfl := start_inj he'
  rw [hstate] at hfull
  exact absurd hfull (by decide)

/-! ## Filling a free zone -/

/-- Virtual zone `v` has got the free zone `e`. -/
structure Filled (v : ℤ) (e : ℕ) (w w' : World g.drive) : Prop where
  free : e ∈ freeZones g w.ftl
  map : w'.ftl.dataZoneMapping = w.ftl.dataZoneMapping.insert v ((e * g.nBlocks : ℕ) : ℤ)
  states : w'.ftl.zoneStates = Function.update w.ftl.zoneStates e fullZone
  zone : ∀ i ≠ e, w'.media.zone i = w.media.zone i

namespace Filled

variable {v : ℤ} {e : ℕ}

/-- Only `e` has another mark, and `e` is not free any more. -/
lemma states_eq_empty (h : Filled v e w w') {i : ℕ} :
    w'.ftl.zoneStates i = emptyZone ↔ i ≠ e ∧ w.ftl.zoneStates i = emptyZone := by
  rw [h.states]
  by_cases hi : i = e
  · subst hi
    rw [Function.update_self]
    exact iff_of_false (by decide) fun hno => hno.1 rfl
  · rw [Function.update_of_ne hi]
    exact (and_iff_right hi).symm

lemma freeZones (h : Filled v e w w') :
    freeZones g w'.ftl = (StoSys.freeZones g w.ftl).erase e := by
  ext i
  rw [Finset.mem_erase, mem_freeZones, mem_freeZones, h.states_eq_empty]
  exact and_left_comm

lemma lookup_ne (h : Filled v e w w') {u : ℤ} (hu : u ≠ v) :
    w'.ftl.dataZoneMapping.lookup u = w.ftl.dataZoneMapping.lookup u := by
  rw [h.map, AList.lookup_insert_ne hu]

/-- The agreement is kept. -/
lemma accounted (h : Filled v e w w') (hw : Accounted g w) : Accounted g w' := by
  obtain ⟨⟨hle, hlt⟩, hfree⟩ := mem_freeZones.mp h.free
  refine ⟨fun {u z} hu => ?_, fun {i} hile hilt hstate => ?_⟩
  · by_cases huv : u = v
    · rw [huv, h.map, AList.lookup_insert] at hu
      exact ⟨e, (Option.some.inj hu).symm, hle, hlt, by rw [h.states, Function.update_self]⟩
    · rw [h.lookup_ne huv] at hu
      obtain ⟨i, hi, hile, hilt, hfull⟩ := hw.full hu
      have hie : i ≠ e := by
        rintro rfl
        rw [hfree] at hfull
        exact absurd hfull (by decide)
      exact ⟨i, hi, hile, hilt, by rw [h.states, Function.update_of_ne hie, hfull]⟩
  · obtain ⟨hie, hempty⟩ := h.states_eq_empty.mp hstate
    obtain ⟨hzone, hunused⟩ := hw.empty hile hilt hempty
    refine ⟨(h.zone i hie).trans hzone, fun u hu => ?_⟩
    by_cases huv : u = v
    · rw [huv, h.map, AList.lookup_insert] at hu
      exact hie (start_inj (Option.some.inj hu)).symm
    · rw [h.lookup_ne huv] at hu
      exact hunused u hu

end Filled

/-! ## Reading the log -/

/-- The log blocks of a set are blocks of the drive. -/
def Readable (g : Setup B) (set : UMap ℤ) : Prop :=
  ∀ {o x}, set.lookup o = some x → toU64 x < g.nrZones * g.nBlocks

lemma readable_iff {set : UMap ℤ} (ts : Traversal ℤ) :
    Readable g set ↔ ∀ b ∈ ts.order set, toU64 b.2 < g.nrZones * g.nBlocks :=
  ⟨fun h _ hb => h ((ts.mem_order set).mp hb), fun h _ _ hx => h _ ((ts.mem_order set).mpr hx)⟩

/-- One read command under a fault pattern. -/
lemma run_faulty_nvmeRead (fails : ℕ → Op B → Bool) (slba : ℕ) (nlb len off : ℤ)
    (s : World g.drive × ℕ) :
    (nvmeRead slba nlb len off : Prog B _).run (faulty fails) s
      = if fails s.2 (.nvmeRead slba (toU16 nlb) (toU32 len) off) = true then
          ((commandError, []), s.1, s.2 + 1)
        else (((nvmeRead slba nlb len off : Prog B _).run exec s.1).1, s.1, s.2 + 1) := by
  split
  · exact faulty_refused (o := .nvmeRead slba _ _ off) rfl ‹_›
  · have hrun := faulty_done (o := .nvmeRead slba _ _ off) rfl ‹_›
    have hsame := run_nvmeRead_snd (w := s.1) slba nlb len off
    refine Eq.trans hrun ?_
    exact congrArg (fun t => (_, t, s.2 + 1)) hsame

/-- Reading the log changes nothing, and succeeds only where the drive has the blocks. -/
lemma run_faulty_readLogBlocks (fails : ℕ → Op B → Bool) :
    ∀ (blocks : List (Sigma fun _ : ℤ => ℤ)) (buf : Buffer B) (s : World g.drive × ℕ),
    let r := (readLogBlocks g.config blocks buf).run (faulty fails) s
    r.2.1 = s.1 ∧ (r.1.1 = 0 → ∀ b ∈ blocks, toU64 b.2 < g.nrZones * g.nBlocks)
  | [], buf, s => ⟨rfl, fun _ b hb => absurd hb List.not_mem_nil⟩
  | ⟨o, x⟩ :: rest, buf, s => by
      have herr : commandError ≠ 0 := by decide
      have hone : let r := (nvmeRead (toU64 x) 0 g.lba (g.lba * o) : Prog B _).run (faulty fails) s
          r.2.1 = s.1 ∧ (r.1.1 = 0 → toU64 x < g.nrZones * g.nBlocks) := by
        intro r
        have hr : r = _ := run_faulty_nvmeRead fails (toU64 x) 0 g.lba (g.lba * o) s
        split at hr
        · rw [hr]
          exact ⟨rfl, fun h => absurd h herr⟩
        · rw [hr]
          refine ⟨rfl, fun h => ?_⟩
          by_contra hout
          rw [run_nvmeRead_outside (Nat.not_lt.mp hout)] at h
          exact absurd h herr
      intro r
      simp only [r, readLogBlocks, Program.run_bind, Setup.config_lbaSizeBytes]
      generalize (nvmeRead (toU64 x) 0 g.lba (g.lba * o) : Prog B _).run (faulty fails) s = r₁
        at hone ⊢
      obtain ⟨hsame, hx⟩ := hone
      by_cases hret : r₁.1.1 = 0
      · obtain ⟨hrest, hblocks⟩ :=
          run_faulty_readLogBlocks fails rest (buf.store o r₁.1.2) r₁.2
        simp only [hret, ne_eq, not_true_eq_false, if_false]
        refine ⟨hrest.trans hsame, fun h b hb => ?_⟩
        rcases List.mem_cons.mp hb with rfl | hb
        · exact hx hret
        · exact hblocks h b hb
      · simp only [if_pos hret, Program.run_pure]
        exact ⟨hsame, fun h => absurd h hret⟩

/-- Where the drive has the blocks, and works, it does succeed. -/
lemma exists_run_readLogBlocks : ∀ (blocks : List (Sigma fun _ : ℤ => ℤ)) (buf : Buffer B),
    (∀ b ∈ blocks, toU64 b.2 < g.nrZones * g.nBlocks) →
    ∃ buf', (readLogBlocks g.config blocks buf).run exec w = ((0, buf'), w)
  | [], buf, _ => ⟨buf, rfl⟩
  | ⟨o, x⟩ :: rest, buf, hok => by
      have hx := hok ⟨o, x⟩ (List.mem_cons_self ..)
      obtain ⟨buf', ih⟩ := exists_run_readLogBlocks rest
        (buf.store o [w.media.blockAt (toU64 x)]) fun b hb => hok b (List.mem_cons_of_mem _ hb)
      refine ⟨buf', ?_⟩
      rw [readLogBlocks]
      simp only [Setup.config_lbaSizeBytes, Program.run_bind, run_nvmeRead_one hx, ne_eq,
        not_true_eq_false, if_false]
      exact ih

/-! ## A virtual zone without a data zone -/

/-- Nothing has happened but that the merge has failed. -/
def Untouched (s : World g.drive × ℕ) (r : (ℤ × Buffer B) × World g.drive × ℕ) : Prop :=
  r.1.1 ≠ 0 ∧ r.2.1 = s.1

/-- With no old data zone to reset and to write, the in-place merge asks for an address that no
drive has. -/
lemma run_faulty_mergeInPlace_new (fails : ℕ → Op B → Bool) (a : ℤ) (buf : Buffer B)
    (s : World g.drive × ℕ) :
    Untouched s ((mergeInPlace g.config a (-1) buf).run (faulty fails) s) := by
  have hout : ¬ 18446744073709551615 / g.drive.zoneSize < g.drive.nrZones := by
    rw [Setup.drive_zoneSize, Setup.drive_nrZones, Nat.div_lt_iff_lt_mul g.nBlocks_pos]
    have := g.total_lt
    omega
  have hreset : ((nvmeZnsReset (-1) false : Prog B ℤ).run (faulty fails) s).2.1 = s.1 := by
    rcases run_faulty_reset fails (-1) s with h | h
    · exact h
    · rw [h, nvmeZnsReset, Program.run_perform, toU64_neg_one]
      have hnone : s.1.media.reset 18446744073709551615 = none := by
        rw [Media.reset, if_neg fun h => hout h.1]
      simp only [exec, hnone, Bool.false_eq_true, if_false]
  have hwrite : ∀ bs, s.1.media.write 18446744073709551615 bs = none := by
    intro bs
    rw [Media.write, dif_neg fun h => hout h.1]
  simp only [mergeInPlace, Program.run_bind, toU64_neg_one, Setup.config_nBlocksPerZone,
    Setup.config_lbaSizeBytes]
  generalize (nvmeZnsReset (-1) false : Prog B ℤ).run (faulty fails) s = r at hreset ⊢
  rw [← hreset] at hwrite
  obtain ⟨herr, hsame⟩ := run_faulty_ioWithMdts_refused fails (s := r.2)
    (Nat.mul_pos g.nBlocks_pos g.lba_pos) hwrite 0 buf
  simp only [if_pos herr, Program.run_pure]
  exact ⟨herr, hsame.trans hreset⟩

lemma run_ioLoop_zero {σ : Type} {h : Handler (Op B) Op.Res σ} {c : Config} (base : ℤ) (read : Bool)
    (fuel ptr wp : ℕ) (buf : Buffer B) (s : σ) :
    (ioLoop c base read fuel 0 ptr wp buf).run h s = ((0, buf), s) := by
  cases fuel with
  | zero => rfl
  | succ fuel => rw [ioLoop, if_neg (Nat.lt_irrefl 0), Program.run_pure]

/-- A zone that one command fills is filled, or it stays empty. -/
lemma run_faulty_fill (fails : ℕ → Op B → Bool) (hds : g.ds ≤ 18) (hfit : g.nBlocks * g.lba ≤ mdts)
    {e : ℕ} (he : e < g.nrZones) {s : World g.drive × ℕ} (hempty : s.1.media.zone e = [])
    (buf : Buffer B) :
    let r := (ioWithMdts g.config (e * g.nBlocks) 0 (g.nBlocks * g.lba) false buf).run
      (faulty fails) s
    Untouched s r ∨ r.1.1 = 0 ∧ Grown s.1 e buf 0 g.nBlocks r.2.1 := by
  have herr : (commandError : ℤ) ≠ 0 := by decide
  have hn := g.nBlocks_pos
  have hall : commandBlocks g g.nBlocks 0 = g.nBlocks := by
    rw [Setup.mdts_eq hds] at hfit
    have := Nat.le_of_mul_le_mul_right hfit g.lba_pos
    rw [commandBlocks, Nat.zero_mul]
    omega
  have hone := run_faulty_command fails buf (k := g.nBlocks) (c := s.2) (j := 0) (s := s) hds he
    hempty (by omega) (by omega)
    (by rw [Nat.zero_mul]; exact Grown.refl s.1 e buf 0) rfl
  have hstart := g.start_lt (Nat.le_of_lt he)
  have hstep := run_faulty_ioLoop_step fails buf (k := g.nBlocks) (z := e) (j := 0) hds (by omega)
    (by omega) (g.nBlocks * g.lba / mdts) s
  simp only [hall, Nat.zero_mul, Nat.sub_zero, Nat.add_zero, Nat.zero_add, Nat.sub_self] at hone hstep
  intro r
  have hr : r = _ := hstep
  rw [hr]
  generalize (nvmeWrite (e * g.nBlocks) ((g.nBlocks - 1 : ℕ) : ℤ) ((g.nBlocks * g.lba : ℕ) : ℤ)
    ((0 : ℕ) * g.lba) (buf.slice (0 : ℕ) g.nBlocks) : Prog B ℤ).run (faulty fails) s = r₁ at hone ⊢
  obtain ⟨hstop, hgo⟩ := hone
  by_cases hstops : Stops g fails s.2 e g.nBlocks buf 0
  · rw [hstop hstops, if_pos herr]
    exact Or.inl ⟨herr, rfl⟩
  · obtain ⟨hret, -, hgrown⟩ := hgo hstops
    rw [if_neg (by rw [not_not]; exact hret), run_ioLoop_zero]
    exact Or.inr ⟨rfl, hgrown⟩

/-- A free zone is filled and given to `v`, or nothing has happened. -/
lemma run_faulty_mergeInto_new (fails : ℕ → Op B → Bool) (hds : g.ds ≤ 18)
    (hfit : g.nBlocks * g.lba ≤ mdts) (v : ℤ) {e : ℕ} {s : World g.drive × ℕ}
    (hs : Accounted g s.1) (he : e ∈ freeZones g s.1.ftl) (buf : Buffer B) :
    let r := (mergeInto g.config v ((e * g.nBlocks : ℕ) : ℤ) (-1) buf).run (faulty fails) s
    Untouched s r ∨ r.1.1 = 0 ∧ Filled v e s.1 r.2.1 := by
  obtain ⟨⟨hle, hlt⟩, hstate⟩ := mem_freeZones.mp he
  have h64 := g.toU64_start hlt
  have hfill := run_faulty_fill fails hds hfit hlt (hs.empty hle hlt hstate).1 buf
  intro r
  simp only [r, mergeInto, Program.run_bind, h64, Setup.config_nBlocksPerZone,
    Setup.config_lbaSizeBytes]
  generalize (ioWithMdts g.config (e * g.nBlocks) 0 (g.nBlocks * g.lba) false buf).run
    (faulty fails) s = r₁ at hfill ⊢
  rcases hfill with ⟨herr, hsame⟩ | ⟨hret, hftl, hzone⟩
  · simp only [if_pos herr, Program.run_pure]
    exact Or.inl ⟨herr, hsame⟩
  · simp only [hret, ne_eq, not_true_eq_false, if_false, Program.run_bind, run_faulty_modifyFtl,
      tdiv_start, Program.run_pure]
    have hmap := congrArg (fun m : Ftl => m.dataZoneMapping.insert v ((e * g.nBlocks : ℕ) : ℤ)) hftl
    have hstates := congrArg (fun m : Ftl => Function.update m.zoneStates e fullZone) hftl
    refine Or.inr ⟨trivial, he, hmap, hstates, fun i hi => ?_⟩
    change r₁.2.1.media.zone i = _
    rw [hzone, Function.update_of_ne hi]

/-- Up to where a zone is written nothing happens, and to get there takes readable log blocks and a
free zone. -/
lemma run_faulty_mergeZone_cases (fails : ℕ → Op B → Bool) {v : ℤ} {s : World g.drive × ℕ}
    (hv : s.1.ftl.dataZoneMapping.lookup v = none) {set : UMap ℤ} (ts : Traversal ℤ)
    (buf : Buffer B) :
    let r := (mergeZone g.config v (ts.order set) buf).run (faulty fails) s
    Untouched s r ∨ Readable g set ∧ ∃ e ∈ freeZones g s.1.ftl, ∃ buf' s', s'.1 = s.1 ∧
      r = (mergeInto g.config v ((e * g.nBlocks : ℕ) : ℤ) (-1) buf').run (faulty fails) s' := by
  obtain ⟨hsame, hreadable⟩ := run_faulty_readLogBlocks fails (ts.order set) buf s
  intro r
  simp only [r, mergeZone, readOldZone, Program.run_bind, run_faulty_getFtl, hv, Program.run_pure,
    ne_eq, not_true_eq_false, if_false]
  generalize (readLogBlocks g.config (ts.order set) buf).run (faulty fails) s = r₁
    at hsame hreadable ⊢
  by_cases hret : r₁.1.1 = 0
  · rw [if_neg (by rw [not_not]; exact hret)]
    rcases nextEmptyZone_cases g s.1.ftl with ⟨e, he, hfound⟩ | ⟨-, hfound⟩
    · have hne : ¬ ((e * g.nBlocks : ℕ) : ℤ) = -1 := by omega
      simp only [hfound, if_neg hne]
      exact Or.inr ⟨(readable_iff ts).mpr (hreadable hret), e, he, r₁.1.2, r₁.2, hsame, rfl⟩
    · simp only [hfound, if_true]
      obtain ⟨herr, hun⟩ := run_faulty_mergeInPlace_new (g := g) fails
        (toU32 ((g.config.logZoneNumConfig - 1) * g.config.nBlocksPerZone)) r₁.1.2 r₁.2
      exact Or.inl ⟨herr, hun.trans hsame⟩
  · simp only [if_pos hret, Program.run_pure]
    exact Or.inl ⟨hret, hsame⟩

/-- **An iteration for a virtual zone without a data zone**: it has got a free zone, or nothing has
happened. -/
lemma run_faulty_mergeZone_new (fails : ℕ → Op B → Bool) (hds : g.ds ≤ 18) {v : ℤ}
    {s : World g.drive × ℕ} (hs : Accounted g s.1)
    (hv : s.1.ftl.dataZoneMapping.lookup v = none) {set : UMap ℤ} (ts : Traversal ℤ)
    (hfit : Readable g set → (freeZones g s.1.ftl).Nonempty → g.nBlocks * g.lba ≤ mdts)
    (buf : Buffer B) :
    let r := (mergeZone g.config v (ts.order set) buf).run (faulty fails) s
    Untouched s r ∨ r.1.1 = 0 ∧ Readable g set ∧ ∃ e, Filled v e s.1 r.2.1 := by
  intro r
  rcases run_faulty_mergeZone_cases fails hv ts buf with h | ⟨hread, e, he, buf', s', hsame, hr⟩
  · exact Or.inl h
  · rw [← hsame] at hs he hfit
    rcases run_faulty_mergeInto_new fails hds (hfit hread ⟨e, he⟩) v hs he buf' with
      ⟨herr, hun⟩ | ⟨hret, hfilled⟩
    · rw [← hr] at herr hun
      exact Or.inl ⟨herr, hun.trans hsame⟩
    · rw [← hr] at hret hfilled
      rw [hsame] at hfilled
      exact Or.inr ⟨hret, hread, e, hfilled⟩

/-! ## Blocks larger than `MDTS` -/

lemma run_faulty_ioWithMdts_read_big {c : Config} (fails : ℕ → Op B → Bool) (hds : 18 < g.ds)
    {size : ℕ} (hsize : 0 < size) (slba : ℕ) (base : ℤ) (buf : Buffer B)
    (s : World g.drive × ℕ) :
    Untouched s ((ioWithMdts c slba base size true buf).run (faulty fails) s) := by
  have herr : (commandError : ℤ) ≠ 0 := by decide
  have hlen : (if mdts < size then mdts else size) ≤ mdts := by
    split_ifs <;> omega
  have hread : ∀ nlb off, (nvmeRead slba nlb (if mdts < size then mdts else size : ℕ) off
      : Prog B _).run (faulty fails) s = ((commandError, []), s.1, s.2 + 1) := by
    intro nlb off
    rw [run_faulty_nvmeRead, run_nvmeRead_big hds hlen, ite_self]
  rw [ioWithMdts, ioLoop, if_pos hsize]
  simp only [if_true, Program.run_bind, hread, if_pos herr, Program.run_pure]
  exact ⟨herr, rfl⟩

/-- No merge gets past its first transfer of a whole zone. -/
lemma run_faulty_mergeZone_big (fails : ℕ → Op B → Bool) (hds : 18 < g.ds) (v : ℤ)
    (s : World g.drive × ℕ) (set : UMap ℤ) (ts : Traversal ℤ) (buf : Buffer B) :
    Untouched s ((mergeZone g.config v (ts.order set) buf).run (faulty fails) s) := by
  have hsize := Nat.mul_pos g.nBlocks_pos g.lba_pos
  cases hv : s.1.ftl.dataZoneMapping.lookup v with
  | none =>
      rcases run_faulty_mergeZone_cases fails hv ts buf with h | ⟨-, e, -, buf', s', hsame, hr⟩
      · exact h
      · obtain ⟨hret, hun⟩ := run_faulty_ioWithMdts_of_refused fails (s := s') hsize
          (fun nlb off bs len hlen =>
            run_nvmeWrite_big hds hlen (toU64 ((e * g.nBlocks : ℕ) : ℤ)) nlb off bs) 0 buf'
        rw [hr]
        simp only [mergeInto, Program.run_bind, Setup.config_nBlocksPerZone,
          Setup.config_lbaSizeBytes, if_pos hret, Program.run_pure]
        exact ⟨hret, hun.trans hsame⟩
  | some zone =>
      obtain ⟨hret, hun⟩ := run_faulty_ioWithMdts_read_big (c := g.config) fails hds hsize
        (toU64 zone) 0 buf s
      simp only [mergeZone, readOldZone, Program.run_bind, run_faulty_getFtl, hv,
        Setup.config_nBlocksPerZone, Setup.config_lbaSizeBytes, if_pos hret, Program.run_pure]
      exact ⟨hret, hun⟩

/-! ## How far the loop gets -/

/-- The loop can pass the sets `done`, if they are of virtual zones without a data zone. -/
structure Passable (g : Setup B) (m : Ftl) (done : ZoneSets) : Prop where
  readable : ∀ z ∈ done, Readable g z.2
  room : done.length ≤ (freeZones g m).card

/-- **Only new zones**: no virtual zone that the loop can get to has a data zone; and if it writes
at all, one command is enough for a zone. -/
structure OnlyNew (g : Setup B) (m : Ftl) (zs : ZoneSets) : Prop where
  fresh : ∀ {done z rest}, zs = done ++ z :: rest → Passable g m done →
    m.dataZoneMapping.lookup z.1 = none
  single : ∀ {z rest}, zs = z :: rest → Readable g z.2 → (freeZones g m).Nonempty →
    g.nBlocks * g.lba ≤ mdts

lemma OnlyNew.nil (m : Ftl) : OnlyNew g m [] :=
  ⟨fun h => absurd h.symm (List.append_ne_nil_of_right_ne_nil _ (List.cons_ne_nil _ _)),
    fun h => absurd h.symm (List.cons_ne_nil _ _)⟩

/-- The loop ends at a set that cannot be read, or for which there is no zone. -/
lemma OnlyNew.stuck {m : Ftl} {z : Sigma fun _ : ℤ => UMap ℤ} {zs : ZoneSets}
    (hv : m.dataZoneMapping.lookup z.1 = none)
    (hstuck : Readable g z.2 → ¬ (freeZones g m).Nonempty) : OnlyNew g m (z :: zs) := by
  refine ⟨fun {done z' rest} hsplit hpass => ?_, fun {z' rest} hsplit hread hfree => ?_⟩
  · rcases List.append_eq_cons_iff.mp hsplit.symm with ⟨-, hz⟩ | ⟨done', rfl, -⟩
    · cases hz
      exact hv
    · have hfree := hstuck (hpass.readable z (List.mem_cons_self ..))
      rw [Finset.not_nonempty_iff_eq_empty] at hfree
      have hroom := hpass.room
      rw [hfree, Finset.card_empty, List.length_cons] at hroom
      omega
  · cases hsplit
    exact absurd hfree (hstuck hread)

namespace Filled

variable {v : ℤ} {e : ℕ} {set : UMap ℤ}

/-- One set less, and one free zone less. -/
lemma passable_iff (h : Filled v e w w') (hread : Readable g set) {done : ZoneSets} :
    Passable g w.ftl (⟨v, set⟩ :: done) ↔ Passable g w'.ftl done := by
  have hcard := Finset.card_erase_of_mem h.free
  have hpos := Finset.card_pos.mpr ⟨e, h.free⟩
  rw [← h.freeZones] at hcard
  constructor
  · rintro ⟨hall, hroom⟩
    rw [List.length_cons] at hroom
    exact ⟨fun z hz => hall z (List.mem_cons_of_mem _ hz), by omega⟩
  · rintro ⟨hall, hroom⟩
    refine ⟨fun z hz => ?_, by rw [List.length_cons]; omega⟩
    rcases List.mem_cons.mp hz with rfl | hz
    · exact hread
    · exact hall z hz

/-- The condition, one iteration on. -/
lemma onlyNew_iff (h : Filled v e w w') (hv : w.ftl.dataZoneMapping.lookup v = none)
    (hread : Readable g set) {zs : ZoneSets} (hnodup : v ∉ zs.map Sigma.fst) :
    OnlyNew g w.ftl (⟨v, set⟩ :: zs) ↔ OnlyNew g w'.ftl zs ∧ g.nBlocks * g.lba ≤ mdts := by
  have hlook : ∀ {done z rest}, zs = done ++ z :: rest →
      w'.ftl.dataZoneMapping.lookup z.1 = w.ftl.dataZoneMapping.lookup z.1 := by
    rintro done z rest rfl
    refine h.lookup_ne fun hz => hnodup ?_
    rw [List.map_append, List.map_cons, hz]
    exact List.mem_append_right _ (List.mem_cons_self ..)
  constructor
  · intro hnew
    have hfit := hnew.single rfl hread ⟨e, h.free⟩
    refine ⟨⟨fun {done z rest} hsplit hpass => ?_, fun _ _ _ => hfit⟩, hfit⟩
    have hsplit' : (⟨v, set⟩ :: zs : ZoneSets) = (⟨v, set⟩ :: done) ++ z :: rest :=
      congrArg (List.cons _) hsplit
    rw [hlook hsplit]
    exact hnew.fresh hsplit' ((h.passable_iff hread).mpr hpass)
  · rintro ⟨hnew, hfit⟩
    refine ⟨fun {done z rest} hsplit hpass => ?_, fun _ _ _ => hfit⟩
    rcases List.append_eq_cons_iff.mp hsplit.symm with ⟨-, hz⟩ | ⟨done', rfl, hrest⟩
    · cases hz
      exact hv
    · rw [← hlook hrest]
      exact hnew.fresh hrest ((h.passable_iff hread).mp hpass)

end Filled

/-- **Under the condition** the agreement survives the loop, whatever fails. -/
lemma OnlyNew.accounted (hds : g.ds ≤ 18) (ord : HashOrder) (fails : ℕ → Op B → Bool) :
    ∀ (zs : ZoneSets) (buf : Buffer B) (s : World g.drive × ℕ), Accounted g s.1 →
      (zs.map Sigma.fst).Nodup → OnlyNew g s.1.ftl zs →
      Accounted g ((mergeLoop g.config ord zs buf).run (faulty fails) s).2.1
  | [], _, _, hs, _, _ => hs
  | ⟨v, set⟩ :: zs, buf, s, hs, hnodup, hnew => by
      rw [List.map_cons, List.nodup_cons] at hnodup
      have hv : s.1.ftl.dataZoneMapping.lookup v = none :=
        hnew.fresh (List.nil_append _).symm ⟨fun _ h => absurd h List.not_mem_nil, Nat.zero_le _⟩
      have hcases := run_faulty_mergeZone_new fails hds hs hv (ord.blocks v) (hnew.single rfl) buf
      simp only [mergeLoop, Program.run_bind]
      generalize (mergeZone g.config v ((ord.blocks v).order set) buf).run (faulty fails) s = r
        at hcases ⊢
      rcases hcases with ⟨herr, hsame⟩ | ⟨hret, hread, e, hfilled⟩
      · simp only [if_pos herr, Program.run_pure]
        rw [hsame]
        exact hs
      · simp only [hret, ne_eq, not_true_eq_false, if_false]
        exact OnlyNew.accounted hds ord fails zs r.1.2 r.2 (hfilled.accounted hs) hnodup.2
          ((hfilled.onlyNew_iff hv hread hnodup.1).mp hnew).1

/-! ## Failures that do no harm -/

/-- **A failure that does no harm**: of the reset of a log zone; of a read, unless it is that of a
log block whose virtual zone has a data zone. -/
def Tolerable (g : Setup B) (m : Ftl) (zs : ZoneSets) : Op B → Prop
  | .nvmeRead slba _ _ _ => ∀ z ∈ zs, z.1 ∈ m.dataZoneMapping → ∀ b ∈ z.2.entries, toU64 b.2 ≠ slba
  | .nvmeWrite _ _ _ _ _ => False
  | .nvmeZnsReset slba _ => slba / g.nBlocks < g.logZones
  | _ => True

/-- A write command. -/
def IsWrite : Op B → Prop
  | .nvmeWrite _ _ _ _ _ => True
  | _ => False

/-- A read command. -/
def IsRead : Op B → Prop
  | .nvmeRead _ _ _ _ => True
  | _ => False

/-- A read command of one of these blocks. -/
def IsReadOf (blocks : List (Sigma fun _ : ℤ => ℤ)) : Op B → Prop
  | .nvmeRead slba _ _ _ => ∃ b ∈ blocks, toU64 b.2 = slba
  | _ => False

lemma only_ioLoop_write (c : Config) (base : ℤ) : ∀ (fuel size ptr wp : ℕ) (buf : Buffer B),
    (ioLoop c base false fuel size ptr wp buf).Only IsWrite
  | 0, _, _, _, _ => trivial
  | fuel + 1, size, ptr, wp, buf => by
      rw [ioLoop]
      simp only [Bool.false_eq_true, if_false]
      refine .ite (.bind (.perform trivial) fun ret => .ite (.pure _) ?_) (.pure _)
      exact only_ioLoop_write c base fuel _ _ _ buf

lemma only_ioLoop_read (c : Config) (base : ℤ) : ∀ (fuel size ptr wp : ℕ) (buf : Buffer B),
    (ioLoop c base true fuel size ptr wp buf).Only IsRead
  | 0, _, _, _, _ => trivial
  | fuel + 1, size, ptr, wp, buf => by
      rw [ioLoop]
      simp only [if_true]
      refine .ite (.bind (.perform trivial) fun r => .ite (.pure _) ?_) (.pure _)
      exact only_ioLoop_read c base fuel _ _ _ _

lemma only_readLogBlocks (c : Config) : ∀ (blocks : List (Sigma fun _ : ℤ => ℤ)) (buf : Buffer B),
    (readLogBlocks c blocks buf).Only (IsReadOf blocks)
  | [], _ => trivial
  | ⟨o, x⟩ :: rest, buf => by
      have hmono : ∀ op : Op B, IsReadOf rest op → IsReadOf (⟨o, x⟩ :: rest) op := by
        rintro op hop
        cases op with
        | nvmeRead slba nlb len off =>
            obtain ⟨b, hb, hx⟩ := hop
            exact ⟨b, List.mem_cons_of_mem _ hb, hx⟩
        | _ => exact hop
      rw [readLogBlocks]
      refine .bind (.perform ⟨⟨o, x⟩, List.mem_cons_self .., rfl⟩) fun r => .ite (.pure _) ?_
      exact (only_readLogBlocks c rest _).mono hmono

/-- A transfer from the drive changes nothing, whatever fails. -/
lemma run_faulty_ioWithMdts_read (fails : ℕ → Op B → Bool) (c : Config) (slba : ℕ) (base : ℤ)
    (size : ℕ) (buf : Buffer B) (s : World g.drive × ℕ) :
    ((ioWithMdts c slba base size true buf).run (faulty fails) s).2.1 = s.1 := by
  refine (only_ioLoop_read c base _ size 0 slba buf).keeps (I := fun t : World g.drive × ℕ => t.1 = s.1)
    (fun o t ho ht => ?_) rfl
  cases o with
  | nvmeRead slba nlb len off =>
      by_cases hf : fails t.2 (.nvmeRead slba nlb len off) = true
      · rw [faulty_refused (o := .nvmeRead slba nlb len off) rfl hf]
        exact ht
      · rw [faulty_done (o := .nvmeRead slba nlb len off) rfl hf]
        refine Eq.trans ?_ ht
        dsimp only [exec]
        split
        · split <;> rfl
        · rfl
  | _ => exact ho.elim

/-- No two virtual zones share a data zone. -/
def Unshared (w : World g.drive) : Prop :=
  ∀ {v v' z}, w.ftl.dataZoneMapping.lookup v = some z →
    w.ftl.dataZoneMapping.lookup v' = some z → v = v'

/-- The data zone `q` of `v` has been replaced by the free zone `e`, and erased. -/
structure Replaced (v : ℤ) (q e : ℕ) (w w' : World g.drive) : Prop where
  old : w.ftl.dataZoneMapping.lookup v = some ((q * g.nBlocks : ℕ) : ℤ)
  free : e ∈ freeZones g w.ftl
  map : w'.ftl.dataZoneMapping = w.ftl.dataZoneMapping.insert v ((e * g.nBlocks : ℕ) : ℤ)
  states : w'.ftl.zoneStates
    = Function.update (Function.update w.ftl.zoneStates q emptyZone) e fullZone
  erased : w'.media.zone q = []
  zone : ∀ i, i ≠ e → i ≠ q → w'.media.zone i = w.media.zone i

/-- A data zone has been written again. -/
structure Restored (w w' : World g.drive) : Prop where
  map : w'.ftl.dataZoneMapping = w.ftl.dataZoneMapping
  states : w'.ftl.zoneStates = w.ftl.zoneStates
  zone : ∀ i, g.logZones ≤ i → w.ftl.zoneStates i = emptyZone →
    w'.media.zone i = w.media.zone i

/-- A virtual zone gets a free zone. -/
lemma Unshared.insert {v : ℤ} {e : ℕ} (hun : Unshared w) (hw : Accounted g w)
    (he : e ∈ freeZones g w.ftl)
    (hmap : w'.ftl.dataZoneMapping = w.ftl.dataZoneMapping.insert v ((e * g.nBlocks : ℕ) : ℤ)) :
    Unshared w' := by
  obtain ⟨⟨hle, hlt⟩, hstate⟩ := mem_freeZones.mp he
  have hnew := (hw.empty hle hlt hstate).2
  have hlook : ∀ u, w'.ftl.dataZoneMapping.lookup u
      = if u = v then some ((e * g.nBlocks : ℕ) : ℤ) else w.ftl.dataZoneMapping.lookup u := by
    intro u
    rw [hmap, lookup_insert_eq]
  intro u u' z hu hu'
  rw [hlook] at hu hu'
  split at hu <;> split at hu'
  · rw [‹u = v›, ‹u' = v›]
  · exact absurd (hu'.trans hu.symm) (hnew u')
  · exact absurd (hu.trans hu'.symm) (hnew u)
  · exact hun hu hu'

namespace Replaced

variable {v : ℤ} {q e : ℕ}

lemma ne (h : Replaced v q e w w') (hw : Accounted g w) : q ≠ e := by
  obtain ⟨⟨hle, hlt⟩, hstate⟩ := mem_freeZones.mp h.free
  rintro rfl
  exact (hw.empty hle hlt hstate).2 v h.old

/-- The agreement is kept. -/
lemma accounted (h : Replaced v q e w w') (hw : Accounted g w) (hun : Unshared w) :
    Accounted g w' := by
  obtain ⟨⟨hle, hlt⟩, hfree⟩ := mem_freeZones.mp h.free
  have hqe := h.ne hw
  refine ⟨fun {u z} hu => ?_, fun {i} hile hilt hstate => ?_⟩
  · by_cases huv : u = v
    · rw [huv, h.map, AList.lookup_insert] at hu
      exact ⟨e, (Option.some.inj hu).symm, hle, hlt, by rw [h.states, Function.update_self]⟩
    · rw [h.map, AList.lookup_insert_ne huv] at hu
      obtain ⟨i, rfl, hile, hilt, hfull⟩ := hw.full hu
      have hie : i ≠ e := by
        rintro rfl
        rw [hfree] at hfull
        exact absurd hfull (by decide)
      have hiq : i ≠ q := by
        rintro rfl
        exact huv (hun hu h.old)
      exact ⟨i, rfl, hile, hilt, by
        rw [h.states, Function.update_of_ne hie, Function.update_of_ne hiq, hfull]⟩
  · have hie : i ≠ e := by
      rintro rfl
      rw [h.states, Function.update_self] at hstate
      exact absurd hstate (by decide)
    have hunused : ∀ u, u ≠ v → w.ftl.dataZoneMapping.lookup u ≠ some ((i * g.nBlocks : ℕ) : ℤ) →
        w'.ftl.dataZoneMapping.lookup u ≠ some ((i * g.nBlocks : ℕ) : ℤ) := by
      intro u huv hu
      rwa [h.map, AList.lookup_insert_ne huv]
    have hself : w'.ftl.dataZoneMapping.lookup v ≠ some ((i * g.nBlocks : ℕ) : ℤ) := by
      rw [h.map, AList.lookup_insert]
      exact fun heq => hie (start_inj (Option.some.inj heq)).symm
    by_cases hiq : i = q
    · subst hiq
      refine ⟨h.erased, fun u => ?_⟩
      by_cases huv : u = v
      · rw [huv]
        exact hself
      · exact hunused u huv fun hu => huv (hun hu h.old)
    · rw [h.states, Function.update_of_ne hie, Function.update_of_ne hiq] at hstate
      obtain ⟨hzone, hno⟩ := hw.empty hile hilt hstate
      refine ⟨(h.zone i hie hiq).trans hzone, fun u => ?_⟩
      by_cases huv : u = v
      · rw [huv]
        exact hself
      · exact hunused u huv (hno u)

end Replaced

lemma Restored.accounted (h : Restored w w') (hw : Accounted g w) : Accounted g w' := by
  refine ⟨fun hu => ?_, fun hle hlt hstate => ?_⟩
  · rw [h.map] at hu
    rw [h.states]
    exact hw.full hu
  · rw [h.states] at hstate
    rw [h.map, h.zone _ hle hstate]
    exact hw.empty hle hlt hstate

section Spared

variable {zs : ZoneSets} {s : World g.drive × ℕ}
  (hquiet : ∀ i o, fails i o = true → Tolerable g w.ftl zs o)
include hquiet

/-- Writes succeed. -/
lemma run_spared_fill (hds : g.ds ≤ 18) {e : ℕ} (he : e < g.nrZones)
    (hempty : s.1.media.zone e = []) (buf : Buffer B) :
    let r := (ioWithMdts g.config (e * g.nBlocks) 0 (g.nBlocks * g.lba) false buf).run
      (faulty fails) s
    r.1.1 = 0 ∧ Grown s.1 e buf 0 g.nBlocks r.2.1 := by
  obtain ⟨hret, hgrown, -⟩ := run_ioWithMdts_fill (w := s.1) hds he buf hempty
  have hspared : ∀ i (o : Op B), IsWrite o → fails i o = false := by
    intro i o ho
    by_contra hf
    have hno := hquiet i o (Bool.eq_true_of_not_eq_false hf)
    cases o <;> first | exact ho.elim | exact hno.elim
  intro r
  have hr : r = _ := run_failing_only
    (only_ioLoop_write g.config 0 (g.nBlocks * g.lba / mdts + 1) (g.nBlocks * g.lba) 0
      (e * g.nBlocks) buf) hspared s.1 s.2
  rw [hr]
  exact ⟨congrArg Prod.fst hret, hgrown⟩

/-- So do resets of data zones. -/
lemma run_spared_reset {e : ℕ} (hle : g.logZones ≤ e) (hlt : e < g.nrZones) :
    ((nvmeZnsReset ((e * g.nBlocks : ℕ) : ℤ) false : Prog B ℤ).run (faulty fails) s).2.1
      = ⟨s.1.ftl, s.1.media.setZone e [] (Nat.zero_le _)⟩ := by
  have hf : ¬ fails s.2 (.nvmeZnsReset (toU64 ((e * g.nBlocks : ℕ) : ℤ)) false) = true := by
    intro hf
    have hlog : toU64 ((e * g.nBlocks : ℕ) : ℤ) / g.nBlocks < g.logZones := hquiet _ _ hf
    rw [g.toU64_start hlt, Nat.mul_div_cancel _ g.nBlocks_pos] at hlog
    omega
  have hrun := faulty_done (o := .nvmeZnsReset (toU64 ((e * g.nBlocks : ℕ) : ℤ)) false) rfl hf
  have hreset := congrArg Prod.snd (run_nvmeZnsReset_start (w := s.1) hlt)
  exact (congrArg (fun r => r.2.1) hrun).trans hreset

/-- And reads of the log blocks of a virtual zone that has a data zone. -/
lemma run_spared_readLogBlocks {v : ℤ} {set : UMap ℤ} (hmem : ⟨v, set⟩ ∈ zs)
    (hv : v ∈ w.ftl.dataZoneMapping) (ts : Traversal ℤ) (hread : Readable g set)
    (buf : Buffer B) :
    let r := (readLogBlocks g.config (ts.order set) buf).run (faulty fails) s
    r.1.1 = 0 ∧ r.2.1 = s.1 := by
  obtain ⟨buf', hlog⟩ := exists_run_readLogBlocks (w := s.1) (ts.order set) buf
    ((readable_iff ts).mp hread)
  have hspared : ∀ i (o : Op B), IsReadOf (ts.order set) o → fails i o = false := by
    intro i o ho
    by_contra hf
    have hno := hquiet i o (Bool.eq_true_of_not_eq_false hf)
    cases o with
    | nvmeRead slba nlb len off =>
        obtain ⟨b, hb, hx⟩ := ho
        exact hno _ hmem hv b ((ts.perm set).mem_iff.mp hb) hx
    | _ => exact ho.elim
  intro r
  have hr : r = _ := run_failing_only (only_readLogBlocks g.config (ts.order set) buf) hspared s.1 s.2
  rw [hr, hlog]
  exact ⟨rfl, rfl⟩

/-- The old zone of `v` is replaced. -/
lemma run_spared_mergeInto (hds : g.ds ≤ 18) {v : ℤ} {q e : ℕ} (hw : Accounted g w)
    (hv : w.ftl.dataZoneMapping.lookup v = some ((q * g.nBlocks : ℕ) : ℤ))
    (he : e ∈ freeZones g w.ftl) (hs : s.1 = markOld w v) (buf : Buffer B) :
    let r := (mergeInto g.config v ((e * g.nBlocks : ℕ) : ℤ) ((q * g.nBlocks : ℕ) : ℤ) buf).run
      (faulty fails) s
    r.1.1 = 0 ∧ Replaced v q e w r.2.1 := by
  obtain ⟨⟨hle, hlt⟩, hstate⟩ := mem_freeZones.mp he
  obtain ⟨q', hq', hqL, hqlt, hfull⟩ := hw.full hv
  obtain rfl := start_inj hq'
  have h64 := g.toU64_start hlt
  have hmarked : (markOld w v).ftl = w.ftl.setZoneState q emptyZone := by
    simp only [markOld, hv, tdiv_start]
  have hempty : s.1.media.zone e = [] := by
    rw [hs, markOld_media]
    exact (hw.empty hle hlt hstate).1
  obtain ⟨hret, hftl, hzone⟩ := run_spared_fill hquiet hds hlt hempty buf
  have hprev : ((q * g.nBlocks : ℕ) : ℤ) ≠ -1 := by omega
  intro r
  simp only [r, mergeInto, Program.run_bind, h64, Setup.config_nBlocksPerZone,
    Setup.config_lbaSizeBytes]
  generalize (ioWithMdts g.config (e * g.nBlocks) 0 (g.nBlocks * g.lba) false buf).run
    (faulty fails) s = r₁ at hret hftl hzone ⊢
  simp only [hret, ne_eq, not_true_eq_false, if_false, Program.run_bind, run_faulty_modifyFtl,
    tdiv_start, if_pos hprev, Program.run_pure]
  generalize hs₂ : (World.mk _ r₁.2.1.media, r₁.2.2) = s₂
  have hreset := run_spared_reset hquiet (s := s₂) hqL hqlt
  have hmedia : s₂.1.media = r₁.2.1.media := by rw [← hs₂]
  have hftl₂ : s₂.1.ftl = { r₁.2.1.ftl with
      dataZoneMapping := r₁.2.1.ftl.dataZoneMapping.insert v ((e * g.nBlocks : ℕ) : ℤ)
      zoneStates := Function.update r₁.2.1.ftl.zoneStates e fullZone } := by rw [← hs₂]; rfl
  rw [hftl, hs, hmarked] at hftl₂
  refine ⟨trivial, hv, he, ?_, ?_, ?_, fun i hie hiq => ?_⟩
  · rw [hreset, hftl₂]
    rfl
  · rw [hreset, hftl₂]
    rfl
  · rw [hreset]
    exact Media.setZone_zone_self _ _ _ (Nat.zero_le _)
  · rw [hreset]
    refine (Media.setZone_zone_ne s₂.1.media [] (Nat.zero_le _) hiq).trans ?_
    rw [hmedia, hzone, Function.update_of_ne hie, hs, markOld_media]

/-- Or it is written again. -/
lemma run_spared_mergeInPlace (hds : g.ds ≤ 18) {v : ℤ} {q : ℕ} (hw : Accounted g w)
    (hv : w.ftl.dataZoneMapping.lookup v = some ((q * g.nBlocks : ℕ) : ℤ))
    (hs : s.1 = markOld w v) (buf : Buffer B) :
    let r := (mergeInPlace g.config (((g.logZones - 1) * g.nBlocks : ℕ) : ℤ)
      ((q * g.nBlocks : ℕ) : ℤ) buf).run (faulty fails) s
    r.1.1 = 0 ∧ Restored w r.2.1 := by
  obtain ⟨q', hq', hqL, hqlt, hfull⟩ := hw.full hv
  obtain rfl := start_inj hq'
  have h64 := g.toU64_start hqlt
  have hmarked : (markOld w v).ftl = w.ftl.setZoneState q emptyZone := by
    simp only [markOld, hv, tdiv_start]
  have hreset := run_spared_reset hquiet (s := s) hqL hqlt
  intro r
  simp only [r, mergeInPlace, Program.run_bind, h64, Setup.config_nBlocksPerZone,
    Setup.config_lbaSizeBytes]
  generalize (nvmeZnsReset ((q * g.nBlocks : ℕ) : ℤ) false : Prog B ℤ).run (faulty fails) s = r₁
    at hreset ⊢
  have hempty : r₁.2.1.media.zone q = [] := by
    rw [hreset]
    exact Media.setZone_zone_self _ _ _ (Nat.zero_le _)
  obtain ⟨hret, hftl, hzone⟩ := run_spared_fill hquiet hds hqlt hempty buf
  generalize (ioWithMdts g.config (q * g.nBlocks) 0 (g.nBlocks * g.lba) false buf).run
    (faulty fails) r₁.2 = r₂ at hret hftl hzone ⊢
  simp only [hret, ne_eq, not_true_eq_false, if_false, Program.run_bind, run_faulty_modifyFtl,
    tdiv_start, Program.run_pure]
  generalize hs₃ : (World.mk _ r₂.2.1.media, r₂.2.2) = s₃
  have hmedia : s₃.1.media = r₂.2.1.media := by rw [← hs₃]
  have hftl₃ : s₃.1.ftl = { r₂.2.1.ftl with
      zoneStates := Function.update r₂.2.1.ftl.zoneStates q fullZone } := by rw [← hs₃]; rfl
  have hstates : Function.update (Function.update w.ftl.zoneStates q emptyZone) q fullZone
      = w.ftl.zoneStates := by
    rw [Function.update_idem, ← hfull, Function.update_eq_self]
  rw [hftl, hreset, hs, hmarked] at hftl₃
  -- the reset of the log zone is not looked at
  have hlast : ∀ i, g.logZones ≤ i → ((nvmeZnsReset (((g.logZones - 1) * g.nBlocks : ℕ) : ℤ) false
      : Prog B ℤ).run (faulty fails) s₃).2.1.media.zone i = s₃.1.media.zone i := by
    intro i hi
    have hL := g.logZones_pos
    have hLnr := g.logZones_lt
    rcases run_faulty_reset fails (((g.logZones - 1) * g.nBlocks : ℕ) : ℤ) s₃ with h | h
    · rw [h]
    · rw [h, run_nvmeZnsReset_start (by omega)]
      exact Media.setZone_zone_ne _ [] (Nat.zero_le _) (by omega)
  have hsame : ((nvmeZnsReset (((g.logZones - 1) * g.nBlocks : ℕ) : ℤ) false
      : Prog B ℤ).run (faulty fails) s₃).2.1.ftl = s₃.1.ftl := by
    have hLnr := g.logZones_lt
    rcases run_faulty_reset fails (((g.logZones - 1) * g.nBlocks : ℕ) : ℤ) s₃ with h | h
    · rw [h]
    · rw [h, run_nvmeZnsReset_start (by omega)]
  refine ⟨trivial, ?_, ?_, fun i hi hstate => ?_⟩
  · rw [hsame, hftl₃]
    rfl
  · rw [hsame, hftl₃]
    exact hstates
  · have hiq : i ≠ q := by
      rintro rfl
      rw [hfull] at hstate
      exact absurd hstate (by decide)
    rw [hlast i hi, hmedia, hzone, Function.update_of_ne hiq, hreset, hs]
    refine (Media.setZone_zone_ne _ [] (Nat.zero_le _) hiq).trans ?_
    rw [markOld_media]

/-- A virtual zone without a data zone gets a free one, or nothing happens. -/
lemma run_spared_mergeZone_new (hds : g.ds ≤ 18) {v : ℤ} (hw : Accounted g w) (hs : s.1 = w)
    (hv : w.ftl.dataZoneMapping.lookup v = none) (set : UMap ℤ) (ts : Traversal ℤ)
    (buf : Buffer B) :
    let r := (mergeZone g.config v (ts.order set) buf).run (faulty fails) s
    Untouched s r ∨ r.1.1 = 0 ∧ ∃ e, Filled v e w r.2.1 := by
  intro r
  rw [← hs] at hv
  rcases run_faulty_mergeZone_cases fails hv ts buf with h | ⟨-, e, he, buf', s', hsame, hr⟩
  · exact Or.inl h
  · rw [hs] at he hsame
    obtain ⟨⟨hle, hlt⟩, hstate⟩ := mem_freeZones.mp he
    have hempty : s'.1.media.zone e = [] := by
      rw [hsame]
      exact (hw.empty hle hlt hstate).1
    have h64 := g.toU64_start hlt
    obtain ⟨hret, hftl, hzone⟩ := run_spared_fill hquiet hds hlt hempty buf'
    refine Or.inr ?_
    change r = _ at hr
    rw [hr]
    simp only [mergeInto, Program.run_bind, h64, Setup.config_nBlocksPerZone,
      Setup.config_lbaSizeBytes]
    generalize (ioWithMdts g.config (e * g.nBlocks) 0 (g.nBlocks * g.lba) false buf').run
      (faulty fails) s' = r₁ at hret hftl hzone ⊢
    simp only [hret, ne_eq, not_true_eq_false, if_false, Program.run_bind, run_faulty_modifyFtl,
      tdiv_start, Program.run_pure]
    rw [hsame] at hftl hzone
    have hmap := congrArg (fun m : Ftl => m.dataZoneMapping.insert v ((e * g.nBlocks : ℕ) : ℤ)) hftl
    have hstates := congrArg (fun m : Ftl => Function.update m.zoneStates e fullZone) hftl
    refine ⟨trivial, e, he, hmap, hstates, fun i hi => ?_⟩
    change r₁.2.1.media.zone i = _
    rw [hzone, Function.update_of_ne hi]

/-- One that has a data zone gets another one, or that one again, or nothing happens. -/
lemma run_spared_mergeZone_old (hds : g.ds ≤ 18) {v : ℤ} {q : ℕ} (hw : Accounted g w)
    (hs : s.1 = w) (hv : w.ftl.dataZoneMapping.lookup v = some ((q * g.nBlocks : ℕ) : ℤ))
    {set : UMap ℤ} (hmem : ⟨v, set⟩ ∈ zs) (hread : Readable g set) (ts : Traversal ℤ)
    (buf : Buffer B) :
    let r := (mergeZone g.config v (ts.order set) buf).run (faulty fails) s
    Untouched s r ∨ r.1.1 = 0 ∧ ((∃ e, Replaced v q e w r.2.1) ∨ Restored w r.2.1) := by
  obtain ⟨q', hq', hqL, hqlt, hfull⟩ := hw.full hv
  obtain rfl := start_inj hq'
  have h64 := g.toU64_start hqlt
  have hsame := run_faulty_ioWithMdts_read fails g.config (q * g.nBlocks) 0 (g.nBlocks * g.lba) buf s
  have hscratch := scratch_eq g
  have hmark : (World.mk (s.1.ftl.setZoneState q emptyZone) s.1.media) = markOld w v := by
    rw [hs]
    simp only [markOld, hv, tdiv_start]
  intro r
  simp only [r, mergeZone, readOldZone, Program.run_bind, run_faulty_getFtl, hs, hv, h64,
    Setup.config_nBlocksPerZone, Setup.config_lbaSizeBytes]
  generalize (ioWithMdts g.config (q * g.nBlocks) 0 (g.nBlocks * g.lba) true buf).run
    (faulty fails) s = r₁ at hsame ⊢
  by_cases hret : r₁.1.1 = 0
  swap
  · simp only [if_pos hret, Program.run_pure]
    exact Or.inl ⟨hret, hsame⟩
  simp only [hret, ne_eq, not_true_eq_false, if_false, Program.run_bind, run_faulty_modifyFtl,
    tdiv_start, Program.run_pure]
  generalize hs₂ : (World.mk _ r₁.2.1.media, r₁.2.2) = s₂
  have hs₂' : s₂.1 = markOld w v := by
    rw [← hs₂, hsame, ← hmark]
  obtain ⟨hret₂, hsame₂⟩ := run_spared_readLogBlocks hquiet (s := s₂) hmem (mem_of_lookup hv) ts hread
    r₁.1.2
  generalize (readLogBlocks g.config (ts.order set) r₁.1.2).run (faulty fails) s₂ = r₂
    at hret₂ hsame₂ ⊢
  simp only [hret₂, not_true_eq_false, if_false]
  right
  rcases nextEmptyZone_cases g w.ftl with ⟨e, he, hfound⟩ | ⟨-, hfound⟩
  · have hne : ¬ ((e * g.nBlocks : ℕ) : ℤ) = -1 := by omega
    simp only [hfound, if_neg hne]
    obtain ⟨hret₃, hrep⟩ := run_spared_mergeInto hquiet hds hw hv he (hsame₂.trans hs₂') r₂.1.2
    exact ⟨hret₃, Or.inl ⟨e, hrep⟩⟩
  · rw [Setup.config_nBlocksPerZone] at hscratch
    simp only [hfound, if_true, hscratch]
    obtain ⟨hret₃, hrest⟩ := run_spared_mergeInPlace hquiet hds hw hv (hsame₂.trans hs₂') r₂.1.2
    exact ⟨hret₃, Or.inr hrest⟩

end Spared

/-- **Under a pattern that does no harm** the agreement survives the loop. -/
lemma accounted_of_harmless (hds : g.ds ≤ 18) (ord : HashOrder) :
    ∀ (zs : ZoneSets) (buf : Buffer B) (s : World g.drive × ℕ), Accounted g s.1 → Unshared s.1 →
      (zs.map Sigma.fst).Nodup → (∀ z ∈ zs, z.1 ∈ s.1.ftl.dataZoneMapping → Readable g z.2) →
      (∀ i o, fails i o = true → Tolerable g s.1.ftl zs o) →
      Accounted g ((mergeLoop g.config ord zs buf).run (faulty fails) s).2.1
  | [], _, _, hs, _, _, _, _ => hs
  | ⟨v, set⟩ :: zs, buf, s, hs, hun, hnodup, hread, hquiet => by
      rw [List.map_cons, List.nodup_cons] at hnodup
      have hhead : (⟨v, set⟩ : Sigma fun _ : ℤ => UMap ℤ) ∈ ⟨v, set⟩ :: zs := List.mem_cons_self ..
      -- the data map only changes at `v`
      have htail : ∀ (buf' : Buffer B) (s' : World g.drive × ℕ), Accounted g s'.1 → Unshared s'.1 →
          (∀ u ≠ v, s'.1.ftl.dataZoneMapping.lookup u = s.1.ftl.dataZoneMapping.lookup u) →
          Accounted g ((mergeLoop g.config ord zs buf').run (faulty fails) s').2.1 := by
        intro buf' s' hs' hun' hlook
        have hmem : ∀ z ∈ zs, z.1 ∈ s'.1.ftl.dataZoneMapping → z.1 ∈ s.1.ftl.dataZoneMapping := by
          intro z hz hz'
          obtain ⟨x, hx⟩ := lookup_of_mem hz'
          have hne : z.1 ≠ v := fun heq => hnodup.1 (List.mem_map.mpr ⟨z, hz, heq⟩)
          rw [hlook z.1 hne] at hx
          exact mem_of_lookup hx
        refine accounted_of_harmless hds ord zs buf' s' hs' hun' hnodup.2
          (fun z hz hz' => hread z (List.mem_cons_of_mem _ hz) (hmem z hz hz')) fun i o hf => ?_
        have ho := hquiet i o hf
        cases o with
        | nvmeRead slba nlb len off =>
            exact fun z hz hz' => ho z (List.mem_cons_of_mem _ hz) (hmem z hz hz')
        | _ => exact ho
      have hcases :
          let r := (mergeZone g.config v ((ord.blocks v).order set) buf).run (faulty fails) s
          Untouched s r ∨ r.1.1 = 0 ∧ Accounted g r.2.1 ∧ Unshared r.2.1 ∧
            ∀ u ≠ v, r.2.1.ftl.dataZoneMapping.lookup u = s.1.ftl.dataZoneMapping.lookup u := by
        intro r
        cases hv : s.1.ftl.dataZoneMapping.lookup v with
        | none =>
            rcases run_spared_mergeZone_new hquiet hds hs rfl hv set (ord.blocks v) buf with
              h | ⟨hret, e, hfilled⟩
            · exact Or.inl h
            · exact Or.inr ⟨hret, hfilled.accounted hs, hun.insert hs hfilled.free hfilled.map,
                fun u hu => hfilled.lookup_ne hu⟩
        | some zone =>
            obtain ⟨q, rfl, -⟩ := hs.full hv
            rcases run_spared_mergeZone_old hquiet hds hs rfl hv hhead
              (hread _ hhead (mem_of_lookup hv)) (ord.blocks v) buf with
              h | ⟨hret, ⟨e, hrep⟩ | hrest⟩
            · exact Or.inl h
            · exact Or.inr ⟨hret, hrep.accounted hs hun, hun.insert hs hrep.free hrep.map,
                fun u hu => by rw [hrep.map, AList.lookup_insert_ne hu]⟩
            · refine Or.inr ⟨hret, hrest.accounted hs, fun hu hu' => ?_,
                fun u _ => by rw [hrest.map]⟩
              rw [hrest.map] at hu hu'
              exact hun hu hu'
      simp only [mergeLoop, Program.run_bind]
      generalize (mergeZone g.config v ((ord.blocks v).order set) buf).run (faulty fails) s = r
        at hcases ⊢
      rcases hcases with ⟨herr, hsame⟩ | ⟨hret, hs', hun', hlook⟩
      · simp only [if_pos herr, Program.run_pure]
        rw [hsame]
        exact hs
      · simp only [hret, ne_eq, not_true_eq_false, if_false]
        exact htail r.1.2 r.2 hs' hun' hlook

/-! ## Where a drive dies -/

lemma run_deadFrom_nvmeZnsReset {k i : ℕ} (hk : k ≤ i) (a : ℤ) :
    (nvmeZnsReset a false : Prog B ℤ).run (faulty (deadFrom k)) (w, i)
      = (commandError, w, i + 1) :=
  faulty_refused (o := .nvmeZnsReset (toU64 a) false) rfl (decide_eq_true hk)

/-- A drive that dies when the old data zone has been read, and marked EMPTY. -/
lemma exists_deadFrom_marked (hds : g.ds ≤ 18) {v : ℤ} {e : ℕ}
    (hv : w.ftl.dataZoneMapping.lookup v = some ((e * g.nBlocks : ℕ) : ℤ)) (he : e < g.nrZones)
    (blocks : List (Sigma fun _ : ℤ => ℤ)) (buf : Buffer B) (i : ℕ) :
    ∃ k, i ≤ k ∧
      let r := (mergeZone g.config v blocks buf).run (faulty (deadFrom k)) (w, i)
      r.1.1 ≠ 0 ∧ r.2.1 = markOld w v := by
  have herr : (commandError : ℤ) ≠ 0 := by decide
  have hold := run_readOldZone_some hds hv he buf
  obtain ⟨k, hk⟩ : ∃ k, k = i + failable refusal ((readOldZone g.config v buf).issued exec w) :=
    ⟨_, rfl⟩
  have hcalm := run_deadFrom_calm (w := w) (p := readOldZone g.config v buf) (k := k) (i := i)
    (by omega)
  rw [hold, ← hk] at hcalm
  refine ⟨k, by omega, ?_⟩
  have hwrite : ∀ (a : ℕ) (buf : Buffer B) {j : ℕ}, k ≤ j →
      let r := (ioWithMdts g.config a 0 (g.nBlocks * g.lba) false buf).run (faulty (deadFrom k))
        (markOld w v, j)
      r.1.1 ≠ 0 ∧ r.2.1 = markOld w v :=
    fun a buf j hj => run_deadFrom_ioWithMdts hj (Nat.mul_pos g.nBlocks_pos g.lba_pos) a 0 false buf
  cases blocks with
  | cons b rest =>
      intro r
      simp only [r, mergeZone, readLogBlocks, Program.run_bind, run_faulty_getFtl, hcalm,
        run_deadFrom_nvmeRead (Nat.le_refl k), ne_eq, not_true_eq_false, if_false, if_pos herr,
        Program.run_pure]
      exact ⟨herr, trivial⟩
  | nil =>
      rcases nextEmptyZone_cases g w.ftl with ⟨e', -, hfound⟩ | ⟨-, hfound⟩
      · have hne : ¬ ((e' * g.nBlocks : ℕ) : ℤ) = -1 := by omega
        obtain ⟨hret, hsame⟩ := hwrite (toU64 ((e' * g.nBlocks : ℕ) : ℤ)) (oldBuf w v buf)
          (Nat.le_refl k)
        simp only [mergeZone, readLogBlocks, mergeInto, Program.run_bind, run_faulty_getFtl, hcalm,
          hfound, if_neg hne, ne_eq, not_true_eq_false, if_false, Setup.config_nBlocksPerZone,
          Setup.config_lbaSizeBytes, if_pos hret, Program.run_pure]
        exact ⟨hret, hsame⟩
      · obtain ⟨hret, hsame⟩ := hwrite (toU64 ((e * g.nBlocks : ℕ) : ℤ)) (oldBuf w v buf)
          (Nat.le_succ k)
        simp only [mergeZone, readLogBlocks, mergeInPlace, Program.run_bind, run_faulty_getFtl,
          hcalm, hfound, if_true, ne_eq, not_true_eq_false, if_false,
          run_deadFrom_nvmeZnsReset (Nat.le_refl k), Setup.config_nBlocksPerZone,
          Setup.config_lbaSizeBytes, if_pos hret, Program.run_pure]
        exact ⟨hret, hsame⟩

/-- If a zone is free, one is found. -/
lemma exists_nextEmptyZone {m : Ftl} (hfree : (freeZones g m).Nonempty) :
    ∃ e ∈ freeZones g m, nextEmptyZone g.config m = (e * g.nBlocks : ℕ) := by
  rcases nextEmptyZone_cases g m with ⟨e, he, hfound⟩ | ⟨hnone, -⟩
  · exact ⟨e, he, hfound⟩
  · exact absurd hnone (Finset.nonempty_iff_ne_empty.mp hfree)

section NewZone

variable {v : ℤ} {set : UMap ℤ} (hw : Accounted g w) (hds : g.ds ≤ 18)
  (hv : w.ftl.dataZoneMapping.lookup v = none) (hread : Readable g set)
  (hfree : (freeZones g w.ftl).Nonempty)
include hw hds hv hread hfree

/-- A drive that dies after the first of several commands that fill a free zone. -/
lemma exists_deadFrom_half (hbig : mdts < g.nBlocks * g.lba) (ts : Traversal ℤ) (buf : Buffer B)
    (i : ℕ) :
    ∃ k, i ≤ k ∧
      let r := (mergeZone g.config v (ts.order set) buf).run (faulty (deadFrom k)) (w, i)
      r.1.1 ≠ 0 ∧ ¬ Accounted g r.2.1 := by
  obtain ⟨e, he, hfound⟩ := exists_nextEmptyZone hfree
  obtain ⟨⟨hle, hlt⟩, hstate⟩ := mem_freeZones.mp he
  have hempty := (hw.empty hle hlt hstate).1
  have h64 := g.toU64_start hlt
  obtain ⟨buf', hlog⟩ := exists_run_readLogBlocks (w := w) (ts.order set) buf
    ((readable_iff ts).mp hread)
  obtain ⟨j, hj⟩ : ∃ j, j = i + failable refusal
      ((readLogBlocks g.config (ts.order set) buf).issued exec w) := ⟨_, rfl⟩
  have hcalm := run_deadFrom_calm (w := w) (p := readLogBlocks g.config (ts.order set) buf)
    (k := j + 1) (i := i) (by omega)
  rw [hlog, ← hj] at hcalm
  -- the first command is done, the second one refused
  have hper : g.per < g.nBlocks := by
    rw [Setup.mdts_eq hds] at hbig
    exact Nat.lt_of_mul_lt_mul_right hbig
  have hfuel : 1 < g.nBlocks * g.lba / mdts + 1 :=
    Nat.succ_lt_succ (Nat.div_pos (Nat.le_of_lt hbig) (by decide))
  have hbefore : ∀ j' < 1, ¬ Stops g (deadFrom (j + 1)) j e g.nBlocks buf' j' := by
    intro j' hj' hstops
    obtain rfl : j' = 0 := by omega
    rcases hstops with hdead | hcross
    · have := of_decide_eq_true hdead
      omega
    · rw [commandBlocks] at hcross
      omega
  have hstop : Stops g (deadFrom (j + 1)) j e g.nBlocks buf' 1 :=
    Or.inl (decide_eq_true (Nat.le_refl _))
  obtain ⟨hret, hgrown⟩ := run_faulty_ioLoop_stop (d := 1) (j := 0) (s := (w, j)) hds hlt hempty
    (by omega) (by omega) hstop hbefore _ rfl
    (by rw [Nat.zero_mul]; exact Grown.refl w e buf' 0) rfl hfuel
  simp only [Nat.zero_mul, Nat.sub_zero, Nat.add_zero, Nat.one_mul] at hret hgrown
  refine ⟨j + 1, by omega, ?_⟩
  have hne : ¬ ((e * g.nBlocks : ℕ) : ℤ) = -1 := by omega
  have hlost : ∀ t : World g.drive, Grown w e buf' 0 g.per t → ¬ Accounted g t := by
    intro t ht hacc
    have hnil := (hacc.empty hle hlt (by rw [ht.1]; exact hstate)).1
    have hlen := ht.length hempty
    rw [hnil, List.length_nil] at hlen
    exact absurd hlen.symm (Nat.ne_of_gt g.per_pos)
  have hpair : ∀ r : (ℤ × Buffer B) × World g.drive × ℕ, r.1.1 ≠ 0 → Grown w e buf' 0 g.per r.2.1 →
      r.1.1 ≠ 0 ∧ ¬ Accounted g r.2.1 := fun r hr ht => ⟨hr, hlost _ ht⟩
  simp only [mergeZone, readOldZone, mergeInto, Program.run_bind, run_faulty_getFtl, hv,
    Program.run_pure, hcalm, hfound, if_neg hne, ne_eq, not_true_eq_false, if_false, h64,
    Setup.config_nBlocksPerZone, Setup.config_lbaSizeBytes, ioWithMdts, if_pos hret]
  exact hpair _ hret hgrown

/-- On a working drive the virtual zone gets a free zone. -/
lemma exists_filled (hfit : g.nBlocks * g.lba ≤ mdts) (ts : Traversal ℤ) (buf : Buffer B) :
    let r := (mergeZone g.config v (ts.order set) buf).run exec w
    r.1.1 = 0 ∧ ∃ e, Filled v e w r.2 := by
  obtain ⟨e, he, hfound⟩ := exists_nextEmptyZone hfree
  obtain ⟨⟨hle, hlt⟩, hstate⟩ := mem_freeZones.mp he
  have h64 := g.toU64_start hlt
  have hne : ¬ ((e * g.nBlocks : ℕ) : ℤ) = -1 := by omega
  obtain ⟨buf', hlog⟩ := exists_run_readLogBlocks (w := w) (ts.order set) buf
    ((readable_iff ts).mp hread)
  obtain ⟨hfill, -⟩ := run_ioWithMdts_fill hds hlt buf' (hw.empty hle hlt hstate).1
  have hret : ((mergeZone g.config v (ts.order set) buf).run exec w).1.1 = 0 := by
    simp only [mergeZone, readOldZone, mergeInto, Program.run_bind, run_getFtl, hv,
      Program.run_pure, hlog, hfound, if_neg hne, ne_eq, not_true_eq_false, if_false, h64,
      Setup.config_nBlocksPerZone, Setup.config_lbaSizeBytes, hfill]
  -- what it does, it does as on a drive with failures, of which there are none
  have hcalm : (mergeZone g.config v (ts.order set) buf).run (faulty fun _ _ => false) (w, 0) = _ :=
    run_failing_calm fun _ _ _ _ => rfl
  have hcases := run_faulty_mergeZone_new (fun _ _ => false) hds (s := (w, 0)) hw hv ts
    (fun (_ : Readable g set) _ => hfit) buf
  simp only [hcalm] at hcases
  rcases hcases with ⟨herr, -⟩ | ⟨-, -, hfilled⟩
  · exact absurd hret herr
  · exact ⟨hret, hfilled⟩

end NewZone

/-- **Against the condition** there is a moment at which the drive must not die. -/
lemma exists_deadFrom_mergeLoop (hds : g.ds ≤ 18) (ord : HashOrder) :
    ∀ (zs : ZoneSets) (w : World g.drive) (buf : Buffer B) (i : ℕ), Accounted g w →
      (zs.map Sigma.fst).Nodup → ¬ OnlyNew g w.ftl zs →
      ∃ k, i ≤ k ∧
        ¬ Accounted g ((mergeLoop g.config ord zs buf).run (faulty (deadFrom k)) (w, i)).2.1
  | [], w, _, _, _, _, hnew => absurd (OnlyNew.nil w.ftl) hnew
  | ⟨v, set⟩ :: zs, w, buf, i, hw, hnodup, hnew => by
      rw [List.map_cons, List.nodup_cons] at hnodup
      cases hv : w.ftl.dataZoneMapping.lookup v with
      | some zone =>
          obtain ⟨e, rfl, -, hlt, -⟩ := hw.full hv
          obtain ⟨k, hk, herr, hmark⟩ := exists_deadFrom_marked hds hv hlt
            ((ord.blocks v).order set) buf i
          refine ⟨k, hk, ?_⟩
          simp only [mergeLoop, Program.run_bind, if_pos herr, Program.run_pure]
          rw [hmark]
          exact not_accounted_markOld hv
      | none =>
          obtain ⟨hread, hfree⟩ : Readable g set ∧ (freeZones g w.ftl).Nonempty := by
            by_contra hstuck
            exact hnew (OnlyNew.stuck hv (not_and.mp hstuck))
          rcases Nat.lt_or_ge mdts (g.nBlocks * g.lba) with hbig | hfit
          · obtain ⟨k, hk, herr, hlost⟩ := exists_deadFrom_half hw hds hv hread hfree hbig
              (ord.blocks v) buf i
            refine ⟨k, hk, ?_⟩
            simp only [mergeLoop, Program.run_bind, if_pos herr, Program.run_pure]
            exact hlost
          · obtain ⟨hret, e, hfilled⟩ := exists_filled hw hds hv hread hfree hfit (ord.blocks v) buf
            have hrest : ¬ OnlyNew g _ zs :=
              fun h => hnew ((hfilled.onlyNew_iff hv hread hnodup.1).mpr ⟨h, hfit⟩)
            obtain ⟨k, hk, hlost⟩ := exists_deadFrom_mergeLoop hds ord zs _
              ((mergeZone g.config v ((ord.blocks v).order set) buf).run exec w).1.2
              (i + failable refusal
                ((mergeZone g.config v ((ord.blocks v).order set) buf).issued exec w))
              (hfilled.accounted hw) hnodup.2 hrest
            refine ⟨k, by omega, ?_⟩
            simp only [mergeLoop, Program.run_bind, run_deadFrom_calm hk, hret, ne_eq,
              not_true_eq_false, if_false]
            exact hlost

/-! ## The whole merge -/

section Merge

variable [Zero B]

/-- Where `zone_merge` leaves a world. -/
def faultyZoneMerge (ord : HashOrder) (zoneSets : UMap (UMap ℤ)) (fails : ℕ → Op B → Bool)
    (w : World g.drive) : World g.drive :=
  ((zoneMerge g.config ord zoneSets).run (faulty fails) (w, 0)).2.1

lemma faultyZoneMerge_eq (ord : HashOrder) (zoneSets : UMap (UMap ℤ)) (fails : ℕ → Op B → Bool)
    (w : World g.drive) : faultyZoneMerge ord zoneSets fails w =
      ((mergeLoop g.config ord (ord.zones.order zoneSets) fun _ => (0 : B)).run (faulty fails)
        (w, 0)).2.1 := by
  rw [faultyZoneMerge, zoneMerge, Program.run_bind]
  rfl

/-- Every block of the sets has its place in the merge buffer, which holds one zone. -/
def InBuffer (g : Setup B) (zoneSets : UMap (UMap ℤ)) : Prop :=
  ∀ {v set}, zoneSets.lookup v = some set → ∀ {o x}, set.lookup o = some x → 0 ≤ o ∧ o < g.nBlocks

/-- **A merge keeps the account**: it stores nothing outside its buffer, the marks are right
afterwards, and free zones are handed out only. -/
structure AccountsKept (g : Setup B) (ord : HashOrder) (zoneSets : UMap (UMap ℤ))
    (fails : ℕ → Op B → Bool) (w : World g.drive) : Prop where
  inBuffer : InBuffer g zoneSets
  accounted : Accounted g (faultyZoneMerge ord zoneSets fails w)
  handsOutFree : HandsOutFree g (faultyZoneMerge ord zoneSets fails w)

lemma Accounted.kept {zoneSets : UMap (UMap ℤ)} (hbuf : InBuffer g zoneSets)
    (h : Accounted g (faultyZoneMerge ord zoneSets fails w)) :
    AccountsKept g ord zoneSets fails w :=
  ⟨hbuf, h, h.handsOutFree⟩

/-- With blocks larger than `MDTS` no merge does anything. -/
lemma accounted_of_large (hds : 18 < g.ds) (ord : HashOrder) (zoneSets : UMap (UMap ℤ))
    (fails : ℕ → Op B → Bool) (hw : Accounted g w) :
    Accounted g (faultyZoneMerge ord zoneSets fails w) := by
  rw [faultyZoneMerge_eq]
  cases ord.zones.order zoneSets with
  | nil => exact hw
  | cons z rest =>
      obtain ⟨herr, hsame⟩ := run_faulty_mergeZone_big fails hds z.1 (w, 0) z.2
        (ord.blocks z.1) fun _ => (0 : B)
      simp only [mergeLoop, Program.run_bind, if_pos herr, Program.run_pure]
      rw [hsame]
      exact hw

/-- **One pattern of failures** that does no harm, in a state in which no data zone is shared, and
with sets whose virtual zones have no data zone, or whose log blocks are blocks of the drive. -/
lemma accountsKept_of_harmless {zoneSets : UMap (UMap ℤ)} (hw : Accounted g w)
    (hbuf : InBuffer g zoneSets) (hun : Unshared w)
    (hread : ∀ {v set}, zoneSets.lookup v = some set → v ∈ w.ftl.dataZoneMapping → Readable g set)
    (hquiet : ∀ i o, fails i o = true → Tolerable g w.ftl (ord.zones.order zoneSets) o) :
    AccountsKept g ord zoneSets fails w := by
  refine Accounted.kept hbuf ?_
  rcases Nat.lt_or_ge 18 g.ds with hds | hds
  · exact accounted_of_large hds ord zoneSets fails hw
  · rw [faultyZoneMerge_eq]
    exact accounted_of_harmless hds ord _ _ (w, 0) hw hun (ord.zones.nodup_keys zoneSets)
      (fun z hz => hread ((ord.zones.mem_order zoneSets).mp hz)) hquiet

/-- **Failures during a merge**, for any sets whatever.  A pattern that does no harm leaves the
account right.  All patterns do exactly when no block lies outside the merge buffer, and blocks are
larger than `MDTS`, so that no merge does anything; or no virtual zone that the loop can get to has
a data zone, and a zone it writes is written by one command. -/
theorem accountsKept_iff (g : Setup B) (ord : HashOrder) (zoneSets : UMap (UMap ℤ))
    {w : World g.drive} (hw : Accounted g w) :
    (∀ fails, InBuffer g zoneSets → Unshared w →
      (∀ {v set}, zoneSets.lookup v = some set → v ∈ w.ftl.dataZoneMapping → Readable g set) →
      (∀ i o, fails i o = true → Tolerable g w.ftl (ord.zones.order zoneSets) o) →
      AccountsKept g ord zoneSets fails w) ∧
    ((∀ fails, AccountsKept g ord zoneSets fails w) ↔
      InBuffer g zoneSets ∧ (18 < g.ds ∨ OnlyNew g w.ftl (ord.zones.order zoneSets))) := by
  refine ⟨fun fails hbuf hun hread hquiet => accountsKept_of_harmless hw hbuf hun hread hquiet,
    ?_⟩
  have hnodup := ord.zones.nodup_keys zoneSets
  constructor
  · intro hall
    refine ⟨(hall fun _ _ => false).inBuffer, ?_⟩
    by_contra hno
    obtain ⟨hds, hnew⟩ := not_or.mp hno
    obtain ⟨k, -, hlost⟩ := exists_deadFrom_mergeLoop (Nat.not_lt.mp hds) ord _ w (fun _ => 0) 0 hw
      hnodup hnew
    have hacc := (hall (deadFrom k)).accounted
    rw [faultyZoneMerge_eq] at hacc
    exact hlost hacc
  · rintro ⟨hbuf, hcond⟩ fails
    refine Accounted.kept hbuf ?_
    rcases Nat.lt_or_ge 18 g.ds with hds | hds
    · exact accounted_of_large hds ord zoneSets fails hw
    · rw [faultyZoneMerge_eq]
      exact (hcond.resolve_left (Nat.not_lt.mpr hds)).accounted hds ord fails _ _ (w, 0) hw hnodup

end Merge

/-! ## A virtual zone that is merged twice -/

/-- Block `4` of the small drive is written. -/
def fourWritten (b : UInt8) (w : World smallDrive.drive) : World smallDrive.drive :=
  ((znsUdeviceWrite smallDrive.config [] (4 * 4096) 4096 fun _ => b).run exec w).2

/-- It is written, collected, and written again. -/
def fourRewritten : World smallDrive.drive :=
  fourWritten 9 ((triggerGc smallDrive.config HashOrder.stored : Prog UInt8 Unit).run exec
    (fourWritten 7 (fresh smallDrive))).2

lemma session_fourRewritten : Session smallDrive (fun _ _ _ => True) smallDrive.config
    fourRewritten (Function.update (fun _ => none) 4 (some 9)) := by
  have h₁ := (session_fresh smallDrive fun _ _ _ => True).write (q := 4) [] (fun _ => 7) (by decide)
    (fun _ _ _ => trivial) (show _ = (some 0, fourWritten 7 (fresh smallDrive)) from
      Prod.ext (by decide +kernel) rfl)
  have h₂ := (h₁.collect HashOrder.stored trivial).write (q := 4) [] (fun _ => 9) (by decide)
    (fun _ _ _ => trivial) (show _ = (some 0, fourRewritten) from
      Prod.ext (by decide +kernel) rfl)
  have hstore : (Function.update (Function.update (fun _ => none) 4 (some 7)) 4 (some 9)
      : Store UInt8) = Function.update (fun _ => none) 4 (some 9) := Function.update_idem ..
  exact hstore ▸ h₂

/-- The sets of the next pass. -/
def fourSets : UMap (UMap ℤ) := (∅ : UMap (UMap ℤ)).insert 3 ((∅ : UMap ℤ).insert 1 0)

lemma eq_of_lookup_fourSets {v o x : ℤ} {set : UMap ℤ} (hset : fourSets.lookup v = some set)
    (hx : set.lookup o = some x) : o = 1 ∧ x = 0 := by
  rw [fourSets, lookup_insert_eq] at hset
  split at hset
  · obtain rfl := Option.some.inj hset
    rw [lookup_insert_eq] at hx
    split at hx
    · exact ⟨‹_›, (Option.some.inj hx).symm⟩
    · exact absurd hx (by simp)
  · exact absurd hset (by simp)

lemma inBuffer_fourSets : InBuffer smallDrive fourSets := by
  intro v set hset o x hx
  obtain ⟨rfl, -⟩ := eq_of_lookup_fourSets hset hx
  exact ⟨by decide, by decide⟩

/-- The drive refuses to read data zone `2`, and to reset a log zone. -/
def zoneTwoUnread : Op UInt8 → Bool
  | .nvmeRead slba _ _ _ => slba == 6
  | .nvmeZnsReset slba _ => decide (slba < 6)
  | _ => false

/-- Some patterns spare the second merge, not all of them do; the first merge withstands all. -/
theorem accountsKept_iff_rewritten :
    AccountsKept smallDrive HashOrder.stored fourSets (fun _ => zoneTwoUnread) fourRewritten ∧
    ¬ (∀ fails, AccountsKept smallDrive HashOrder.stored fourSets fails fourRewritten) ∧
    ∀ fails, AccountsKept smallDrive HashOrder.stored fourSets fails (fresh smallDrive) := by
  have hzones := session_fourRewritten.consistent.inv.zones
  have hlook : fourRewritten.ftl.dataZoneMapping.lookup 3 = some 6 := by decide +kernel
  obtain ⟨hone, hall⟩ := accountsKept_iff smallDrive HashOrder.stored fourSets hzones.accounted
  have hfirst := accountsKept_iff smallDrive HashOrder.stored fourSets
    (session_fresh smallDrive fun _ _ _ => True).consistent.inv.zones.accounted
  refine ⟨hone _ inBuffer_fourSets hzones.inj (fun {v set} hset _ {o x} hx => ?_) fun _ o ho => ?_,
    fun hkept => ?_, hfirst.2.mpr ⟨inBuffer_fourSets,
      Or.inr ⟨fun _ _ => rfl, fun _ _ _ => by decide⟩⟩⟩
  · obtain ⟨-, rfl⟩ := eq_of_lookup_fourSets hset hx
    decide
  · cases o with
    | nvmeRead slba nlb len off =>
        obtain rfl : slba = 6 := beq_iff_eq.mp ho
        intro z hz _ b hb
        obtain rfl := List.mem_singleton.mp hz
        obtain rfl := List.mem_singleton.mp hb
        decide
    | nvmeZnsReset slba all =>
        have hlt : slba < 6 := of_decide_eq_true ho
        change slba / 3 < 2
        omega
    | _ => exact absurd ho Bool.false_ne_true
  · have hnew := ((hall.mp hkept).2.resolve_left (by decide)).fresh
      (List.nil_append _).symm ⟨fun _ h => absurd h List.not_mem_nil, Nat.zero_le _⟩
    rw [hlook] at hnew
    exact absurd hnew (by decide)

/-- **The failing run**: in that merge the read of the log is refused.  Then the zone with the first
version is handed out as a free one. -/
theorem live_zone_handed_out :
    let w' := faultyZoneMerge HashOrder.stored fourSets (fun i _ => i = 1) fourRewritten
    Session smallDrive (fun _ _ _ => True) smallDrive.config fourRewritten
        (Function.update (fun _ => none) 4 (some 9)) ∧
      Accounted smallDrive fourRewritten ∧ ¬ Accounted smallDrive w' ∧
      nextEmptyZone smallDrive.config w'.ftl = 6 ∧
      w'.ftl.dataZoneMapping.lookup 3 = some 6 ∧ w'.media.zone 2 = [0, 7, 0] := by
  intro w'
  have hrun := session_fourRewritten
  have hnext : nextEmptyZone smallDrive.config w'.ftl = 6 := by decide +kernel
  have hlook : w'.ftl.dataZoneMapping.lookup 3 = some 6 := by decide +kernel
  have hzone : w'.media.zone 2 = [0, 7, 0] := by decide +kernel
  have hlost : ¬ Accounted smallDrive w' :=
    fun h => (h.handsOutFree 2 hnext).2 3 hlook
  exact ⟨hrun, hrun.consistent.inv.zones.accounted, hlost, hnext, hlook, hzone⟩

end StoSys
