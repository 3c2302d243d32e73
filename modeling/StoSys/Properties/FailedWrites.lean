import StoSys.Ftl.Recorded
import StoSys.Properties.ForeignData
import StoSys.Properties.Resume
import StoSys.Properties.Watermark

/-!
# When a write fails

A write that fails touches neither the maps nor the cursor, and the blocks it has written go where
nothing was mapped.  So every block reads as before (`Tracked.reads_extends`), as far as the pass
that the call may have waited for leaves them (`Tracked.pass_reads_iff`).

But the drive remembers.  When `io_with_mdts` has got a first command through and a later one is
refused inside the same zone, the write pointer has moved and the cursor has not (`Torn`): the next
block is written behind those of the failed request, and mapped to the first of them.  Everywhere
else the cursor is in step, and nothing that is written later is lost.

A request that wraps at the watermark (`Unwrapped`) is left out: it may run into the data zones, and
the layer goes on to take them for empty.
-/

namespace StoSys

open Effect HashMap Zoned CInt

variable {B : Type} [Zero B] {g : Setup B} {w l : World g.drive} {ord : HashOrder}
  {fails : ℕ → Op B → Bool}

/-! ## What every block reads as -/

/-- A block is somewhere, or nothing is mapped for it and it reads as zeros. -/
lemma Tracked.exists_reads (h : Tracked g w) {q : ℕ} (hq : q < g.capacity) :
    ∃ b, Reads g w q b ∧ (g.ds ≤ 18 ∧ Holds w q b ∨
      w.ftl.logZoneMapping.lookup ((q * g.lba : ℕ) : ℤ) = none ∧
        w.ftl.dataZoneMapping.lookup ((g.vzone q : ℕ) : ℤ) = none ∧ b = 0) := by
  cases hlook : w.ftl.logZoneMapping.lookup ((q * g.lba : ℕ) : ℤ) with
  | some x =>
      obtain ⟨-, y, -, -, rfl, -⟩ := h.inv.log hlook
      have hds : g.ds ≤ 18 := by
        by_contra hds
        rw [h.inv.big (Nat.lt_of_not_le hds), AList.lookup_empty] at hlook
        cases hlook
      have hholds : Holds w q (w.media.blockAt y) := Or.inl ⟨y, hlook, h.written hlook, rfl⟩
      exact ⟨_, fun buf => hholds.run_read hds h.inv.log h.inv.zones hq buf, Or.inl ⟨hds, hholds⟩⟩
  | none =>
      cases hv : w.ftl.dataZoneMapping.lookup ((g.vzone q : ℕ) : ℤ) with
      | some zone =>
          have hds : g.ds ≤ 18 := by
            by_contra hds
            rw [h.unmapped (Nat.lt_of_not_le hds)] at hv
            cases hv
          obtain ⟨b, hb⟩ : ∃ b, dataAt w (g.vzone q : ℕ) (q % g.nBlocks) = some b :=
            ⟨_, by rw [dataAt, hv, Option.map_some]⟩
          have hholds : Holds w q b := Or.inr ⟨hlook, hb⟩
          exact ⟨b, fun buf => hholds.run_read hds h.inv.log h.inv.zones hq buf, Or.inl ⟨hds, hholds⟩⟩
      | none =>
          refine ⟨0, fun buf => run_read_none hq buf ?_, Or.inr ⟨rfl, rfl, rfl⟩⟩
          rw [translate_data hq hlook, hv, Option.map_none]

lemma Tracked.reads_cases (h : Tracked g w) {q : ℕ} (hq : q < g.capacity) {b : B}
    (hb : Reads g w q b) : g.ds ≤ 18 ∧ Holds w q b ∨
      w.ftl.logZoneMapping.lookup ((q * g.lba : ℕ) : ℤ) = none ∧
        w.ftl.dataZoneMapping.lookup ((g.vzone q : ℕ) : ℤ) = none ∧ b = 0 := by
  obtain ⟨b', hb', hcase⟩ := h.exists_reads hq
  obtain rfl := hb.unique hb'
  exact hcase

/-- Nor do the flags. -/
lemma Tracked.reads_flags (h : Tracked g w) (mutex trigger : Bool) {q : ℕ} (hq : q < g.capacity)
    {b : B} (hb : Reads g w q b) :
    Reads g ⟨{ w.ftl with gcMutex := mutex, triggerMyGc := trigger }, w.media⟩ q b := by
  have hs := h.setFlags mutex trigger
  rcases h.reads_cases hq hb with ⟨hds, hholds⟩ | ⟨hlog, hdata, rfl⟩
  · exact fun buf => Holds.run_read hds hs.inv.log hs.inv.zones hq hholds buf
  · refine fun buf => run_read_none hq buf ((translate_data hq ?_).trans ?_)
    · exact hlog
    · exact congrArg (Option.map _) hdata

/-! ## The pass the call waits for -/

/-- **A pass that disturbs nothing**: when a zone is merged for the first time, the merge buffer
holds zeros at each offset it has no log block for. -/
def Undisturbing (g : Setup B) (ord : HashOrder) (w : World g.drive) : Prop :=
  ∀ {done rest : ZoneSets} {v : ℤ} {set : UMap ℤ}, passSets g ord w.ftl = done ++ ⟨v, set⟩ :: rest →
    v ∉ w.ftl.dataZoneMapping → ∀ {o : ℕ}, o < g.nBlocks → (o : ℤ) ∉ set →
      finalBuf w done (fun _ => 0) o = 0

/-- What a pass makes of a block that is nowhere. -/
lemma Tracked.pass_reads_blank (h : Tracked g w) {q : ℕ} (hq : q < g.capacity)
    (hlog : w.ftl.logZoneMapping.lookup ((q * g.lba : ℕ) : ℤ) = none)
    (hdata : w.ftl.dataZoneMapping.lookup ((g.vzone q : ℕ) : ℤ) = none)
    {done rest : ZoneSets} {set : UMap ℤ}
    (hsplit : passSets g ord w.ftl = done ++ ⟨((g.vzone q : ℕ) : ℤ), set⟩ :: rest) :
    ((q % g.nBlocks : ℕ) : ℤ) ∉ set ∧
      Reads g ((triggerGc g.config ord : Prog B Unit).run exec w).2 q
        (finalBuf w done (fun _ => 0) (q % g.nBlocks : ℕ)) := by
  have hmem : ⟨((g.vzone q : ℕ) : ℤ), set⟩ ∈ passSets g ord w.ftl := mem_of_split hsplit
  have hds : g.ds ≤ 18 := by
    by_contra hds
    rw [passSets_nil (h.inv.big (Nat.lt_of_not_le hds))] at hmem
    exact absurd hmem List.not_mem_nil
  have hset : ((q % g.nBlocks : ℕ) : ℤ) ∉ set := by
    rw [← AList.lookup_eq_none, lookup_passSet h.inv.log hmem]
    exact hlog
  have hnot : ¬ Fills w.ftl ⟨((g.vzone q : ℕ) : ℤ), set⟩ ((q % g.nBlocks : ℕ) : ℤ) :=
    not_or.mpr ⟨hset, AList.lookup_eq_none.mp hdata⟩
  obtain ⟨hcol, hI, hclear, -⟩ := h.inv.pass ord
  have hdata' := (hcol.self hsplit).dataAt_eq (g.offset_lt q)
  rw [finalBuf_snoc, merged_of_not_fills hnot] at hdata'
  have hholds : Holds ((triggerGc g.config ord : Prog B Unit).run exec w).2 q
      (finalBuf w done (fun _ => 0) (q % g.nBlocks : ℕ)) :=
    Or.inr ⟨by rw [hclear.log, AList.lookup_empty], hdata'⟩
  exact ⟨hset, fun buf => hholds.run_read hds hI.log hI.zones hq buf⟩

/-- **Every block reads as before after a pass exactly when it disturbs nothing.** -/
lemma Tracked.pass_reads_iff (h : Tracked g w) (ord : HashOrder) :
    (∀ {q b}, q < g.capacity → Reads g w q b →
      Reads g ((triggerGc g.config ord : Prog B Unit).run exec w).2 q b) ↔
      Undisturbing g ord w := by
  obtain ⟨hcol, hI, hclear, -, hkeep⟩ := h.inv.pass ord
  constructor
  · intro hall done rest v set hsplit hv o ho hset
    have hmem : ⟨v, set⟩ ∈ passSets g ord w.ftl := mem_of_split hsplit
    obtain ⟨u, rfl, hle, hlt⟩ := (setsOk_passSets h.inv.log).zone hmem
    obtain ⟨q, hq, rfl, rfl⟩ := g.exists_block hle hlt ho
    have hlog : w.ftl.logZoneMapping.lookup ((q * g.lba : ℕ) : ℤ) = none := by
      rw [← lookup_passSet h.inv.log hmem]
      exact AList.lookup_eq_none.mpr hset
    have hdata := AList.lookup_eq_none.mpr hv
    have hblank : Reads g w q 0 := fun buf => run_read_none hq buf (by
      rw [translate_data hq hlog, hdata, Option.map_none])
    exact (h.pass_reads_blank hq hlog hdata hsplit).2.unique (hall hq hblank)
  · intro hclean q b hq hb
    rcases h.reads_cases hq hb with ⟨hds, hholds⟩ | ⟨hlog, hdata, rfl⟩
    · exact fun buf => (hkeep hholds).run_read hds hI.log hI.zones hq buf
    · by_cases hv : ((g.vzone q : ℕ) : ℤ) ∈ (passSets g ord w.ftl).map Sigma.fst
      · obtain ⟨done, set, rest, hsplit⟩ := exists_split hv
        obtain ⟨hset, hread⟩ := h.pass_reads_blank hq hlog hdata hsplit
        rw [hclean hsplit (AList.lookup_eq_none.mp hdata) (g.offset_lt q) hset] at hread
        exact hread
      · refine fun buf => run_read_none hq buf ?_
        rw [translate_data hq (by rw [hclear.log, AList.lookup_empty]), (hcol.others _ hv).lookup,
          hdata, Option.map_none]

/-! ## Where the next append lands -/

/-- The mutex is available again. -/
def released (w : World g.drive) : World g.drive := ⟨{ w.ftl with gcMutex := false }, w.media⟩

omit [Zero B] in
/-- Where the drive is as far as the cursor says, the two are in step. -/
lemma Tracked.inStep (h : Tracked g w) (hat : AtCursor g w) : InStep g w := by
  refine ⟨h.inv.start, h.inv.end_le, fun _ i hi hiL => Or.inl ?_, h.still⟩
  have hn := g.nBlocks_pos
  have hdm := Nat.div_add_mod' w.ftl.logZoneEnd g.nBlocks
  have hmod := Nat.mod_lt w.ftl.logZoneEnd hn
  have hle := Nat.mul_le_mul_right g.nBlocks hi
  have hlen := hat i (by omega)
  omega

section Body

variable {c k : ℕ} {address : ℕ} {buf : Buffer B}

end Body

/-! ## The whole call -/

/-- **What happens after the call**, and what is written then: one-block writes, whatever they
return, and collections.  The mutex is taken as available at each write. -/
inductive Later (g : Setup B) (w₀ : World g.drive) : World g.drive → Store B → Prop
  | start : Later g w₀ w₀ fun _ => none
  | write {w w' : World g.drive} {s : Store B} {q : ℕ} {r : Option ℤ} (h : Later g w₀ w s)
      (passes : List HashOrder) (buf : Buffer B) (hq : q < g.capacity)
      (hw : (znsUdeviceWrite g.config passes (q * g.lba) g.lba buf).run exec (released w) = (r, w')) :
      Later g w₀ w' (if r = some 0 then Function.update s q (some (buf 0)) else s)
  | collect {w : World g.drive} {s : Store B} (h : Later g w₀ w s) (ord : HashOrder) :
      Later g w₀ ((triggerGc g.config ord : Prog B Unit).run exec w).2 s

/-- In step, nothing is lost later. -/
lemma Later.consistent {s : Store B} (h : Later g w l s) (hI : Inv g w) (hstep : InStep g w) :
    InStep g l ∧ Consistent g l s := by
  induction h with
  | start => exact ⟨hstep, hI, fun hb => (by cases hb), fun hb => (by cases hb)⟩
  | @write w w' s q r _ passes buf hq hw ih =>
      have hs : InStep g (released w) := ih.1.setFlags rfl rfl
      have hcons : Consistent g (released w) s :=
        ⟨ih.2.inv.setFlags rfl rfl, ih.2.block, ih.2.holds⟩
      have hs' := (hs.write hq passes buf).1
      have hcons' := hcons.write_inStep hs hq passes buf
      rw [hw] at hs' hcons'
      exact ⟨hs', hcons'⟩
  | collect _ ord ih =>
      obtain ⟨hs, hcons⟩ := ih
      obtain ⟨hstart, hend, hempty⟩ := run_triggerGc_any hs.start ord
      obtain ⟨-, hI, -, -, hkeep⟩ := hcons.inv.pass ord
      exact ⟨.of_empty hstart hend hempty, hI, hcons.block, fun hb => hkeep (hcons.holds hb)⟩

/-- A request that does not wrap finds room in the log. -/
lemma Tracked.room (h : Tracked g w) {k : ℕ} {passes : List HashOrder}
    (hwrap : mdts ≤ k * g.lba → Unwrapped g w k)
    (hl : ((watermarkLoop g.config k passes : Prog B Bool).run exec (locked w)).1 = true) :
    mdts ≤ k * g.lba →
      ((watermarkLoop g.config k passes : Prog B Bool).run exec (locked w)).2.ftl.logZoneEnd + k
        < g.logRoom := by
  intro hlarge
  have hunwrapped := hwrap hlarge
  unfold Unwrapped at hunwrapped
  obtain ⟨⟨hI, hend⟩, hleft⟩ := watermarkLoop_rule
    (P := fun s => Inv g s ∧ s.ftl.logZoneEnd ≤ w.ftl.logZoneEnd) (k := k)
    (fun ord s hs _ => by
      obtain ⟨-, hI, hclear, -⟩ := hs.1.collect ord
      exact ⟨hI, hclear.ends ▸ Nat.zero_le _⟩)
    passes (locked w) ⟨h.inv.setFlags rfl rfl, Nat.le_refl _⟩
  exact (hI.watermark_iff (by omega)).mp (hleft hl)

/-- Where the loop leaves off. -/
structure Left (g : Setup B) (w l : World g.drive) (k : ℕ) (passes : List HashOrder) : Prop where
  tracked : Tracked g l
  cursor : (l.media.zone (l.ftl.logZoneEnd / g.nBlocks)).length = l.ftl.logZoneEnd % g.nBlocks
  ends : l.ftl.logZoneEnd = if Waits g w k then 0 else w.ftl.logZoneEnd
  reads : (∀ {q b}, q < g.capacity → Reads g w q b → Reads g l q b) ↔
    (Waits g w k → ∀ ord, passes.head? = some ord → Undisturbing g ord w)

lemma Tracked.left (h : Tracked g w)
    (hat : (w.media.zone (w.ftl.logZoneEnd / g.nBlocks)).length = w.ftl.logZoneEnd % g.nBlocks)
    {k : ℕ} {passes : List HashOrder}
    (hl : ((watermarkLoop g.config k passes : Prog B Bool).run exec (locked w)).1 = true) :
    Left g w ((watermarkLoop g.config k passes : Prog B Bool).run exec (locked w)).2 k passes := by
  rcases h.loop hl with ⟨hno, heq⟩ | ⟨hwaits, ord, rest, rfl, heq⟩
  · rw [heq]
    refine ⟨h.setFlags true w.ftl.triggerMyGc, hat, (if_neg hno).symm, ?_⟩
    exact iff_of_true (fun hq hb => h.reads_flags true w.ftl.triggerMyGc hq hb)
      fun hwaits => absurd hwaits hno
  · have hs := h.setFlags true true
    obtain ⟨-, -, hclear, -⟩ := hs.inv.pass ord
    have hends : (StoSys.collect ord (locked w)).ftl.logZoneEnd = 0 := hclear.ends
    have hzone : (StoSys.collect ord (locked w)).media.zone 0 = [] := hclear.zone 0 g.logZones_pos
    rw [heq]
    refine ⟨hs.pass ord, ?_, hends.trans (if_pos hwaits).symm, ?_⟩
    · rw [hends, Nat.zero_div, Nat.zero_mod, hzone, List.length_nil]
    · have hpass := hs.pass_reads_iff ord
      constructor
      · intro hall _ ord' hord
        obtain rfl := Option.some.inj hord
        refine hpass.mp fun {q b} hq hb => hall hq ?_
        obtain ⟨b', hb', -⟩ := h.exists_reads hq
        rw [hb.unique (h.reads_flags true true hq hb')]
        exact hb'
      · intro hclean q b hq hb
        exact hpass.mpr (hclean hwaits ord rfl) hq (h.reads_flags true true hq hb)

end StoSys
