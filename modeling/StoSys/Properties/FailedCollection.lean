import StoSys.Ftl.FaultyMerge
import StoSys.Properties.ReadsDuringCollection

/-!
# Collections that fail

When a command of a merge fails, `zone_merge` returns its error.  `trigger_gc` prints it, and then
erases the log and forgets the log map as if all zones had been merged.  What was only in the log is
lost.

A refused reset is another matter: nobody looks at its return code, and the data has been copied by
then.  So a pass survives refused resets, except of zones it goes on to write.
-/

namespace StoSys

open Effect HashMap Zoned CInt

variable {B : Type} [Zero B] {g : Setup B} {w f : World g.drive} {s : Store B} {ord : HashOrder}
  {fails : ℕ → Op B → Bool} {q : ℕ} {b : B}

/-! ## The pass -/

omit [Zero B] in
/-- A reset happens or it does not. -/
lemma run_faulty_reset (fails : ℕ → Op B → Bool) (a : ℤ) (s : World g.drive × ℕ) :
    ((nvmeZnsReset a false : Prog B ℤ).run (faulty fails) s).2.1 = s.1 ∨
      ((nvmeZnsReset a false : Prog B ℤ).run (faulty fails) s).2.1
        = ((nvmeZnsReset a false : Prog B ℤ).run exec s.1).2 := by
  by_cases hf : fails s.2 (.nvmeZnsReset (toU64 a) false) = true
  · have hrun := faulty_refused (o := .nvmeZnsReset (toU64 a) false) rfl hf
    exact Or.inl (congrArg (fun r => r.2.1) hrun)
  · have hrun := faulty_done (o := .nvmeZnsReset (toU64 a) false) rfl hf
    exact Or.inr (congrArg (fun r => r.2.1) hrun)

/-- What a reader finds for block `q` without a log. -/
def underneath (w : World g.drive) (q : ℕ) : B :=
  (dataAt w (g.vzone q : ℕ) (q % g.nBlocks)).getD 0

section Reads

variable (hI : Inv g w) (hds : g.ds ≤ 18) (hq : q < g.capacity)
  (hnone : f.ftl.logZoneMapping.lookup ((q * g.lba : ℕ) : ℤ) = none)
include hI hds hq hnone

/-- A zone the pass has not touched. -/
lemma Kept.reads (hk : Kept ((g.vzone q : ℕ) : ℤ) w f) : Reads g f q (underneath w q) := by
  unfold underneath
  cases hv : w.ftl.dataZoneMapping.lookup ((g.vzone q : ℕ) : ℤ) with
  | none =>
      rw [dataAt, hv, Option.map_none, Option.getD_none]
      refine fun buf => run_read_none hq buf ?_
      rw [translate_data hq hnone, hk.lookup, hv, Option.map_none]
  | some zone =>
      obtain ⟨e, rfl, -, he, -⟩ := hI.zones.val hv
      have hin : InData w q (w.media.blockAt (e * g.nBlocks + q % g.nBlocks)) := ⟨e, hv, he, rfl⟩
      rw [ZoneInv.dataAt_eq hv, Option.getD_some]
      exact (hk.inData hin).reads hds hq hnone

/-- **What a reader finds after a faulty pass**, from a moment `t` of the loop on a working
drive. -/
lemma Stage.reads {t : World g.drive}
    (ht : Stage (marked w (logKeys ord w.ftl)) (passSets g ord w.ftl) (fun _ => 0) t)
    (hmap : f.ftl.dataZoneMapping = t.ftl.dataZoneMapping)
    (hzone : ∀ i, g.logZones ≤ i → f.media.zone i = t.media.zone i ∨
      t.media.zone i = [] ∧ f.media.zone i = w.media.zone i) (hh : Holds w q b) :
    Reads g f q b ∨ Reads g f q (underneath w q) ∨
      InPlace g ord w.ftl (g.vzone q : ℕ) ∧ Reads g f q g.fill := by
  have ho := g.offset_lt q
  have hkept : Kept ((g.vzone q : ℕ) : ℤ) (marked w (logKeys ord w.ftl)) t →
      Reads g f q (underneath w q) := by
    intro hk
    refine Kept.reads hI hds hq hnone ⟨by rw [hmap]; exact hk.lookup, fun {e} he => ?_⟩
    rcases hzone e (hI.zones.used he).1 with heq | ⟨-, heq⟩
    · rw [heq]
      exact hk.zone he
    · exact heq
  by_cases hv : ((g.vzone q : ℕ) : ℤ) ∈ (passSets g ord w.ftl).map Sigma.fst
  · obtain ⟨done, set, rest, hsplit⟩ := exists_split hv
    have hset : ⟨((g.vzone q : ℕ) : ℤ), set⟩ ∈ passSets g ord w.ftl := mem_of_split hsplit
    have hmerged := hh.merged hI.log hset (finalBuf (marked w (logKeys ord w.ftl)) done fun _ => 0)
    have hself := ht.self hsplit
    rw [finalBuf_snoc] at hself
    rcases hself with
      hk | ⟨e, hle, hlt, hlook, hself⟩ | ⟨hfree, hmem, k, e, hle, hlt, hold, hlook, hself⟩
    · exact Or.inr (Or.inl (hkept hk))
    · -- moved, so the zone has blocks, and `f` has the same
      have hne : t.media.zone e ≠ [] := by
        intro hnil
        have hlen := congrArg List.length (hself.symm.trans hnil)
        rw [Buffer.length_slice, List.length_nil] at hlen
        have := g.nBlocks_pos
        omega
      have heq : f.media.zone e = t.media.zone e :=
        (hzone e hle).resolve_right fun h => hne h.1
      have hmoved : Moved ((g.vzone q : ℕ) : ℤ) _ f :=
        ⟨e, hle, hlt, by rw [hmap]; exact hlook, heq.trans hself⟩
      have hread := (Moved.inData hmoved).reads hds hq hnone
      have hval : merged (marked w (logKeys ord w.ftl)) (g.vzone q : ℕ) set
          (finalBuf (marked w (logKeys ord w.ftl)) done fun _ => 0) (q % g.nBlocks : ℕ) = b := hmerged
      rw [hval] at hread
      exact Or.inl hread
    · rcases hzone e hle with heq | ⟨-, heq⟩
      · have hin : InData f q (if q % g.nBlocks < k then b else g.fill) := by
          refine ⟨e, by rw [hmap]; exact hlook, hlt, ?_⟩
          rw [Setup.blockAt_addr _ ho, heq, hself, List.getElem?_take]
          split
          · rw [← hmerged]
            simp [Buffer.slice, ho]
            rfl
          · rfl
        have hread := hin.reads hds hq hnone
        split at hread
        · exact Or.inl hread
        · exact Or.inr (Or.inr ⟨⟨done, set, rest, hsplit, hmem, hfree⟩, hread⟩)
      · have hk : Kept ((g.vzone q : ℕ) : ℤ) w f := by
          refine ⟨by rw [hmap, hlook]; exact hold.symm, fun {e'} he' => ?_⟩
          have hee : e' = e := start_inj (Option.some.inj (he'.symm.trans hold))
          rw [hee]
          exact heq
        exact Or.inr (Or.inl (hk.reads hI hds hq hnone))
  · exact Or.inr (Or.inl (hkept (ht.others _ hv)))

end Reads

/-! ## Any pattern of failures -/

section AnyPattern

variable (hI : Inv g w) (hds : g.ds ≤ 18)
include hI hds

end AnyPattern

/-! ## A drive that dies

The converse needs only one kind of pattern: from some command on, none succeeds.
-/

omit [Zero B] in
/-- A drive that refuses every command from the `k`-th on. -/
def deadFrom (k : ℕ) : ℕ → Op B → Bool := fun i _ => decide (k ≤ i)

section Dies

variable {c : Config} {k i : ℕ}

omit [Zero B] in
/-- As long as the drive lives. -/
lemma run_deadFrom_calm {α : Type} {p : Prog B α}
    (h : i + failable refusal (p.issued exec w) ≤ k) :
    p.run (faulty (deadFrom k)) (w, i)
      = ((p.run exec w).1, (p.run exec w).2, i + failable refusal (p.issued exec w)) :=
  run_failing_calm fun _ _ _ hj => decide_eq_false (by omega)

omit [Zero B] in
lemma run_deadFrom_nvmeRead (hk : k ≤ i) (slba : ℕ) (nlb len off : ℤ) :
    (nvmeRead slba nlb len off : Prog B _).run (faulty (deadFrom k)) (w, i)
      = ((commandError, []), w, i + 1) :=
  faulty_refused (o := .nvmeRead slba (toU16 nlb) (toU32 len) off) rfl (decide_eq_true hk)

omit [Zero B] in
lemma run_deadFrom_nvmeWrite (hk : k ≤ i) (slba : ℕ) (nlb len off : ℤ) (bs : List B) :
    (nvmeWrite slba nlb len off bs : Prog B _).run (faulty (deadFrom k)) (w, i)
      = (commandError, w, i + 1) :=
  faulty_refused (o := .nvmeWrite slba (toU16 nlb) (toU32 len) off bs) rfl (decide_eq_true hk)

omit [Zero B] in
/-- Once it is dead no transfer succeeds, and none has an effect. -/
lemma run_deadFrom_ioWithMdts (hk : k ≤ i) {size : ℕ} (hsize : 0 < size) (slba : ℕ) (base : ℤ)
    (read : Bool) (buf : Buffer B) :
    let r := (ioWithMdts c slba base size read buf).run (faulty (deadFrom k)) (w, i)
    r.1.1 ≠ 0 ∧ r.2.1 = w := by
  have herr : (commandError : ℤ) ≠ 0 := by decide
  intro r
  cases read with
  | true =>
      simp only [r, ioWithMdts, ioLoop, if_pos hsize, if_true, Program.run_bind,
        run_deadFrom_nvmeRead hk, if_pos herr, Program.run_pure]
      exact ⟨herr, trivial⟩
  | false =>
      simp only [r, ioWithMdts, ioLoop, if_pos hsize, Bool.false_eq_true, if_false, Program.run_bind,
        run_deadFrom_nvmeWrite hk, if_pos herr, Program.run_pure]
      exact ⟨herr, trivial⟩

end Dies

/-! ## What survives -/

section Survives

variable (hI : Inv g w)
include hI

end Survives

/-- A block that is not in the log is underneath it. -/
lemma Holds.underneath (h : Holds w q b)
    (hno : ((q * g.lba : ℕ) : ℤ) ∉ w.ftl.logZoneMapping) : underneath w q = b := by
  rcases h with ⟨y, hy⟩ | ⟨-, hb⟩
  · exact absurd (mem_of_lookup hy.1) hno
  · rw [StoSys.underneath, hb, Option.getD_some]

end StoSys
