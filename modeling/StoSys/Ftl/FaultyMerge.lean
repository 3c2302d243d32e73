import StoSys.Lib.Faults
import StoSys.Ftl.Collect

/-!
# Merging when commands fail

`faulty` is the drive with refusals.  A refused read or write ends `zone_merge` at once; a refused
reset goes unnoticed and leaves a zone with its old blocks that the layer takes for empty.  So the
faulty run is the run on a working drive up to the point where it gives up, apart from such zones:
that is what `Shadows` says of two worlds, and what `tracks_mergeLoop` proves of two runs.

A zone that was not reset is only noticed when the pass wants to write it, and then the drive
refuses the write.  `Fatal` collects the refusals that end a pass: those of reads and writes, and
those of resets of zones that are written.
-/

namespace StoSys

open Effect HashMap Zoned CInt

variable {B : Type} {g : Setup B}

/-- How the drive refuses a command; everything else cannot fail. -/
def refusal : (o : Op B) → Option (Op.Res o)
  | .nvmeRead _ _ _ _ => some (commandError, [])
  | .nvmeWrite _ _ _ _ _ => some commandError
  | .nvmeZnsAppend _ _ _ _ => some (commandError, 0)
  | .nvmeZnsReset _ _ => some commandError
  | _ => none

/-- **A drive that refuses commands**: the `i`-th command is refused, and has no effect, when
`fails i` holds of it. -/
def faulty {d : Drive B} (fails : ℕ → Op B → Bool) : Handler (Op B) Op.Res (World d × ℕ) :=
  exec.failing refusal fails

/-- Refusals that end a pass in which the operation is wanted. -/
def Fatal (g : Setup B) (fails : ℕ → Op B → Bool) : Op B → Prop
  | .nvmeRead slba nlb dataLen off => ∃ i, fails i (.nvmeRead slba nlb dataLen off) = true
  | .nvmeWrite slba nlb dataLen off payload =>
      ∃ i, fails i (.nvmeWrite slba nlb dataLen off payload) = true ∨
        ∃ a, a / g.nBlocks = slba / g.nBlocks ∧ fails i (.nvmeZnsReset a false) = true
  | _ => False

/-! ## Zones that were not reset -/

/-- Zone `i` has been erased in `t` only: the reset was refused.  `w` is the start of the pass. -/
structure Stale (g : Setup B) (fails : ℕ → Op B → Bool) (w s t : World g.drive) (i : ℕ) :
    Prop where
  ge : g.logZones - 1 ≤ i
  erased : t.media.zone i = []
  data : g.logZones ≤ i → s.media.zone i = w.media.zone i ∧ (s.media.zone i).length = g.nBlocks
  refused : ∃ k, fails k (.nvmeZnsReset (i * g.nBlocks) false) = true

/-- **The faulty world and the working one.** -/
structure Shadows (g : Setup B) (fails : ℕ → Op B → Bool) (w : World g.drive)
    (s : World g.drive × ℕ) (t : World g.drive) : Prop where
  ftl : s.1.ftl = t.ftl
  zone : ∀ i, s.1.media.zone i = t.media.zone i ∨ Stale g fails w s.1 t i

section Follows

variable {fails : ℕ → Op B → Bool} {w : World g.drive} {s : World g.drive × ℕ} {t : World g.drive}

/-- A command that the pattern refuses. -/
lemma faulty_refused {o : Op B} {r : Op.Res o} (ho : refusal o = some r) (hf : fails s.2 o = true) :
    faulty fails o s = (r, s.1, s.2 + 1) :=
  failing_refused ho hf

/-- A command that it does not. -/
lemma faulty_done {o : Op B} {r : Op.Res o} (ho : refusal o = some r) (hf : ¬ fails s.2 o = true) :
    faulty fails o s = ((exec o s.1).1, (exec o s.1).2, s.2 + 1) :=
  failing_done ho hf

lemma Shadows.refl (w₀ w : World g.drive) (k : ℕ) : Shadows g fails w₀ (w, k) w :=
  ⟨rfl, fun _ => Or.inl rfl⟩

lemma run_faulty_getFtl : (getFtl : Prog B Ftl).run (faulty fails) s = (s.1.ftl, s) := rfl

lemma run_faulty_modifyFtl (f : Ftl → Ftl) :
    (modifyFtl f : Prog B Unit).run (faulty fails) s
      = ((), ⟨⟨f s.1.ftl, s.1.media⟩, s.2⟩) := rfl

lemma Shadows.modifyFtl (h : Shadows g fails w s t) (f : Ftl → Ftl) :
    Shadows g fails w ((StoSys.modifyFtl f : Prog B Unit).run (faulty fails) s).2
      ((StoSys.modifyFtl f : Prog B Unit).run exec t).2 :=
  ⟨congrArg f h.ftl, fun i => (h.zone i).imp id fun hs => ⟨hs.ge, hs.erased, hs.data, hs.refused⟩⟩

/-- A reset, refused or not: the zone is empty in `t`, and in the faulty world stale at worst. -/
lemma Shadows.reset {i : ℕ} (h : Shadows g fails w s t) (hge : g.logZones - 1 ≤ i)
    (hi : i < g.nrZones) (hdata : g.logZones ≤ i → t.media.zone i = w.media.zone i ∧
      (t.media.zone i).length = g.nBlocks) :
    Shadows g fails w
      ((nvmeZnsReset ((i * g.nBlocks : ℕ) : ℤ) false : Prog B ℤ).run (faulty fails) s).2
      ((nvmeZnsReset ((i * g.nBlocks : ℕ) : ℤ) false : Prog B ℤ).run exec t).2 := by
  have h64 := g.toU64_start hi
  have hs := run_nvmeZnsReset_start (w := s.1) hi
  have ht := run_nvmeZnsReset_start (w := t) hi
  rw [ht]
  rw [nvmeZnsReset, Program.run_perform, h64] at hs ⊢
  -- the other zones do not change
  have hother : ∀ {m : Media g.drive}, (∀ j ≠ i, m.zone j = s.1.media.zone j) → ∀ j ≠ i,
      m.zone j = (t.media.setZone i [] (Nat.zero_le _)).zone j ∨
        Stale g fails w ⟨s.1.ftl, m⟩ ⟨t.ftl, t.media.setZone i [] (Nat.zero_le _)⟩ j := by
    intro m hm j hj
    have htj := Media.setZone_zone_ne t.media [] (Nat.zero_le _) hj
    rcases h.zone j with hjeq | hjs
    · exact Or.inl ((hm j hj).trans (hjeq.trans htj.symm))
    · exact Or.inr ⟨hjs.ge, htj.trans hjs.erased, fun hle => by rw [hm j hj]; exact hjs.data hle,
        hjs.refused⟩
  have hti := Media.setZone_zone_self t.media i [] (Nat.zero_le _)
  by_cases hf : fails s.2 (.nvmeZnsReset (i * g.nBlocks) false) = true
  · have hrun := faulty_refused (o := .nvmeZnsReset (i * g.nBlocks) false) rfl hf
    rw [hrun]
    refine ⟨h.ftl, fun j => ?_⟩
    by_cases hj : j = i
    · rw [hj]
      refine Or.inr ⟨hge, hti, fun hle => ?_, s.2, hf⟩
      rcases h.zone i with hieq | his
      · rw [hieq]
        exact hdata hle
      · exact his.data hle
    · exact hother (fun _ _ => rfl) j hj
  · have hrun := faulty_done (o := .nvmeZnsReset (i * g.nBlocks) false) rfl hf
    rw [hrun, hs]
    refine ⟨h.ftl, fun j => ?_⟩
    by_cases hj : j = i
    · have hsi := Media.setZone_zone_self s.1.media i [] (Nat.zero_le _)
      rw [hj]
      exact Or.inl (hsi.trans hti.symm)
    · exact hother (fun j hj => Media.setZone_zone_ne s.1.media [] (Nat.zero_le _) hj) j hj

/-! ## Transfers -/

variable {v : ℤ} {set : UMap ℤ}

end Follows

end StoSys
