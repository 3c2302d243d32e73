import StoSys.Ftl.IoSpec
import Mathlib.Data.Finset.Card
import Mathlib.Order.Interval.Finset.Nat

/-!
# Data zones

What the data map, the zone marks and the medium agree on.  `ZoneInv` is the part every history
keeps: a mapped zone is a full data zone marked full, no two virtual zones share one, and a zone
marked empty is empty.  `Tight` adds that nothing else is there: every data zone is either free or
the image of some virtual zone.  `Tight` holds from a reset on; `ZoneInv` alone is what is left when
the medium has been used before.
-/

namespace StoSys

open Effect HashMap Zoned CInt

variable {B : Type} {g : Setup B}

/-- What the data map and the medium hold for offset `o` of virtual zone `v`. -/
def dataAt {d : Drive B} (w : World d) (v : ℤ) (o : ℕ) : Option B :=
  (w.ftl.dataZoneMapping.lookup v).map fun zone => w.media.blockAt (zone.toNat + o)

structure ZoneInv (g : Setup B) (w : World g.drive) : Prop where
  key : ∀ {v z}, w.ftl.dataZoneMapping.lookup v = some z →
    ∃ u : ℕ, v = u ∧ g.logZones ≤ u ∧ u < g.nrZones
  val : ∀ {v z}, w.ftl.dataZoneMapping.lookup v = some z →
    ∃ e : ℕ, z = (e * g.nBlocks : ℕ) ∧ g.logZones ≤ e ∧ e < g.nrZones ∧
      w.ftl.zoneStates e = fullZone ∧ (w.media.zone e).length = g.nBlocks
  inj : ∀ {v v' z}, w.ftl.dataZoneMapping.lookup v = some z →
    w.ftl.dataZoneMapping.lookup v' = some z → v = v'
  free : ∀ {e}, g.logZones ≤ e → e < g.nrZones → w.ftl.zoneStates e = emptyZone →
    w.media.zone e = []

/-- Every data zone is free or in use. -/
def Tight (g : Setup B) (w : World g.drive) : Prop :=
  ∀ e, g.logZones ≤ e → e < g.nrZones → w.ftl.zoneStates e = emptyZone ∨
    w.ftl.zoneStates e = fullZone ∧
      ∃ v, w.ftl.dataZoneMapping.lookup v = some ((e * g.nBlocks : ℕ) : ℤ)

/-- The data zones marked empty. -/
def freeZones (g : Setup B) (m : Ftl) : Finset ℕ :=
  (Finset.Ico g.logZones g.nrZones).filter fun e => m.zoneStates e = emptyZone

lemma mem_freeZones {m : Ftl} {e : ℕ} :
    e ∈ freeZones g m ↔ (g.logZones ≤ e ∧ e < g.nrZones) ∧ m.zoneStates e = emptyZone := by
  rw [freeZones, Finset.mem_filter, Finset.mem_Ico]

/-- Zone starts determine zones. -/
lemma start_inj {e e' : ℕ} (h : ((e * g.nBlocks : ℕ) : ℤ) = (e' * g.nBlocks : ℕ)) : e = e' :=
  Nat.eq_of_mul_eq_mul_right g.nBlocks_pos (by exact_mod_cast h)

lemma tdiv_start (e : ℕ) : ((e * g.nBlocks : ℕ) : ℤ).tdiv (g.nBlocks : ℤ) = e := by
  rw [← Int.ofNat_tdiv, Nat.mul_div_cancel _ g.nBlocks_pos]

/-- `next_empty_zone` finds a data zone marked empty, or there is none. -/
lemma nextEmptyZone_cases (g : Setup B) (m : Ftl) :
    (∃ e, e ∈ freeZones g m ∧ nextEmptyZone g.config m = (e * g.nBlocks : ℕ)) ∨
      (freeZones g m = ∅ ∧ nextEmptyZone g.config m = -1) := by
  have hL : toU64 g.config.logZoneNumConfig = g.logZones :=
    toU64_of_lt (by have := g.nrZones_lt; have := g.logZones_lt; omega)
  unfold nextEmptyZone
  rw [hL, Setup.config_znsNumZones]
  split
  · rename_i e he
    have hmem := List.mem_of_find?_eq_some he
    have hstate := List.find?_some he
    rw [List.mem_range'_1] at hmem
    refine Or.inl ⟨e, mem_freeZones.mpr ⟨by omega, by simpa using hstate⟩, ?_⟩
    have hlt := g.start_lt (i := e) (by omega)
    rw [Setup.config_nBlocksPerZone, toU64_of_lt (by omega), toI32_of_lt hlt]
  · rename_i hnone
    refine Or.inr ⟨Finset.eq_empty_of_forall_notMem fun e he => ?_, rfl⟩
    obtain ⟨hrange, hstate⟩ := mem_freeZones.mp he
    have h := List.find?_eq_none.mp hnone e (List.mem_range'_1.mpr (by omega))
    simp [hstate] at h

/-- `next_empty_zone` returns `-1` exactly when no data zone is marked empty. -/
lemma nextEmptyZone_eq_neg_one (m : Ftl) :
    nextEmptyZone g.config m = -1 ↔ freeZones g m = ∅ := by
  rcases nextEmptyZone_cases g m with ⟨e, he, hfound⟩ | ⟨hfree, hfound⟩
  · rw [hfound]
    refine ⟨fun h => by omega, fun h => ?_⟩
    rw [h] at he
    exact absurd he (Finset.notMem_empty e)
  · exact iff_of_true hfound hfree

namespace ZoneInv

variable {w : World g.drive}

/-- A virtual zone with a data zone reads that zone. -/
lemma dataAt_eq {v : ℤ} {e o : ℕ}
    (hv : w.ftl.dataZoneMapping.lookup v = some ((e * g.nBlocks : ℕ) : ℤ)) :
    dataAt w v o = some (w.media.blockAt (e * g.nBlocks + o)) := by
  rw [dataAt, hv, Option.map_some, Int.toNat_natCast]

/-- Counting: with `Tight`, the free zones and the zones in use make up all data zones, and there
are as many data zones as virtual zones. -/
lemma card_free_add (hz : ZoneInv g w) (ht : Tight g w) :
    (freeZones g w.ftl).card
        + ((Finset.Ico g.logZones g.nrZones).filter fun u : ℕ =>
            (u : ℤ) ∈ w.ftl.dataZoneMapping).card
      = g.nrZones - g.logZones := by
  classical
  -- the image of the mapped virtual zones is the set of zones that are not free
  have himage : ((Finset.Ico g.logZones g.nrZones).filter fun u : ℕ =>
        (u : ℤ) ∈ w.ftl.dataZoneMapping).card
      = ((Finset.Ico g.logZones g.nrZones).filter fun e => ¬ w.ftl.zoneStates e = emptyZone).card := by
    refine Finset.card_bij
      (fun u _ => ((w.ftl.dataZoneMapping.lookup (u : ℤ)).getD 0).toNat / g.nBlocks) ?_ ?_ ?_
    · intro u hu
      obtain ⟨z, hlook⟩ := lookup_of_mem (Finset.mem_filter.mp hu).2
      obtain ⟨e, rfl, hle, hlt, hfull, -⟩ := hz.val hlook
      rw [hlook, Option.getD_some, Int.toNat_natCast, Nat.mul_div_cancel _ g.nBlocks_pos,
        Finset.mem_filter, Finset.mem_Ico]
      exact ⟨⟨hle, hlt⟩, by rw [hfull]; decide⟩
    · intro u hu u' hu' heq
      obtain ⟨z, hlook⟩ := lookup_of_mem (Finset.mem_filter.mp hu).2
      obtain ⟨z', hlook'⟩ := lookup_of_mem (Finset.mem_filter.mp hu').2
      obtain ⟨e, rfl, -⟩ := hz.val hlook
      obtain ⟨e', rfl, -⟩ := hz.val hlook'
      simp only [hlook, hlook', Option.getD_some, Int.toNat_natCast,
        Nat.mul_div_cancel _ g.nBlocks_pos] at heq
      subst heq
      exact_mod_cast hz.inj hlook hlook'
    · intro e he
      obtain ⟨hrange, hne⟩ := Finset.mem_filter.mp he
      obtain ⟨hle, hlt⟩ := Finset.mem_Ico.mp hrange
      rcases ht e hle hlt with h | ⟨-, v, hv⟩
      · exact absurd h hne
      · obtain ⟨u, rfl, hle', hlt'⟩ := hz.key hv
        refine ⟨u, Finset.mem_filter.mpr ⟨Finset.mem_Ico.mpr ⟨hle', hlt'⟩, mem_of_lookup hv⟩, ?_⟩
        rw [hv, Option.getD_some, Int.toNat_natCast, Nat.mul_div_cancel _ g.nBlocks_pos]
  rw [himage, freeZones, Finset.card_filter_add_card_filter_not, Nat.card_Ico]

end ZoneInv

end StoSys
