import StoSys.Properties.PassesEnd

/-!
# Where zones start

A drive lays its zones out by size: zone `i` starts at `i * zone_size`, and the first `zcap` blocks
from there can be written.  The layer knows one number, `n_blocks_per_zone`, which is the capacity
of the first zone, and multiplies by it wherever it needs a zone start: for the target of an append,
in `next_empty_zone`, in the loop that resets the log, and in `zone_merge` for the last log zone.
What `next_empty_zone` returns is an `int`.

So the addresses match the drive exactly when capacity and size are the same and the start of the
last zone is an `int` (`zonesMatch_iff`); what is computed is what the commands of a write, of a merge
and of the loop over the log carry (`zoneAt_writeBody`, `zoneAt_mergeZone`, `zoneAt_resetLogZones`).
One target has no zone to match: `zone_merge` uses `prev_zone` without looking at it when no data zone
is empty, and for a virtual zone without a data zone that is `-1`.
-/

namespace StoSys

open Effect HashMap Zoned CInt Transitions

variable {B : Type} {d : Drive B} {p : InitParams} {c : Config} {w : World d} {m : Ftl}

/-! ## What the layer computes -/

/-- The target of an append: `zone_no * n_blocks_per_zone`. -/
def appendTarget (c : Config) (m : Ftl) : ℕ :=
  toU32 (toI32 (m.logZoneEnd / c.nBlocksPerZone : ℕ) * c.nBlocksPerZone)

/-- The last log zone, as `zone_merge` computes it. -/
def lastLogZone (c : Config) : ℤ := toU32 ((c.logZoneNumConfig - 1) * c.nBlocksPerZone)

/-- The zones that `zone_merge` writes and resets for virtual zone `v`. -/
def mergeTargets (c : Config) (m : Ftl) (v : ℤ) : List ℤ :=
  let zoneNumber := nextEmptyZone c m
  let prevZone := (m.dataZoneMapping.lookup v).getD (-1)
  if zoneNumber = -1 then [prevZone, lastLogZone c]
  else if prevZone ≠ -1 then [zoneNumber, prevZone]
  else [zoneNumber]

lemma mergeTargets_of_none (h : nextEmptyZone c m = -1) (v : ℤ) :
    mergeTargets c m v = [(m.dataZoneMapping.lookup v).getD (-1), lastLogZone c] :=
  if_pos h

lemma mem_mergeTargets {v t : ℤ} (h : nextEmptyZone c m ≠ -1) (ht : t ∈ mergeTargets c m v) :
    t = nextEmptyZone c m ∨
      v ∈ m.dataZoneMapping ∧ t = (m.dataZoneMapping.lookup v).getD (-1) := by
  rw [mergeTargets, if_neg h] at ht
  split at ht
  · rename_i hprev
    have hv : v ∈ m.dataZoneMapping := by
      by_contra hv
      rw [AList.lookup_eq_none.mpr hv] at hprev
      exact hprev rfl
    exact (List.mem_cons.mp ht).imp id fun ht => ⟨hv, List.mem_singleton.mp ht⟩
  · exact Or.inl (List.mem_singleton.mp ht)

/-! ## What it should compute -/

/-- A zone start of the drive. -/
def IsStart (d : Drive B) (t : ℤ) : Prop := ∃ i < d.nrZones, t = ((i * d.zoneSize : ℕ) : ℤ)

/-- A block that can be written. -/
def Writable (d : Drive B) (x : ℤ) : Prop :=
  ∃ i < d.nrZones, ∃ o < d.zoneCap, x = ((i * d.zoneSize + o : ℕ) : ℤ)

/-- **The addresses in the memory, and those computed from it**, are those of the drive. -/
structure Addressed (d : Drive B) (c : Config) (m : Ftl) : Prop where
  /-- `next_empty_zone` returns the start of an empty data zone, or there is none -/
  empty : (∃ i : ℕ, c.logZoneNumConfig ≤ i ∧ i < d.nrZones ∧ m.zoneStates i = emptyZone ∧
      nextEmptyZone c m = (i * d.zoneSize : ℕ)) ∨
    nextEmptyZone c m = -1 ∧
      ∀ i : ℕ, c.logZoneNumConfig ≤ i → i < d.nrZones → m.zoneStates i ≠ emptyZone
  /-- the loop that resets the log -/
  reset : ∀ i : ℕ, i < c.logZoneNumConfig →
    toU32 (i * c.nBlocksPerZone : ℕ) = i * d.zoneSize
  last : ∃ i : ℕ, i = c.logZoneNumConfig - 1 ∧ lastLogZone c = (i * d.zoneSize : ℕ)
  /-- the targets of a merge, unless there is neither an empty zone nor an old one -/
  merge : ∀ v, (∀ t ∈ mergeTargets c m v, IsStart d t) ↔
    nextEmptyZone c m ≠ -1 ∨ v ∈ m.dataZoneMapping
  data : ∀ {v z}, m.dataZoneMapping.lookup v = some z →
    ∃ i : ℕ, c.logZoneNumConfig ≤ i ∧ i < d.nrZones ∧ z = (i * d.zoneSize : ℕ)
  log : ∀ {k x}, m.logZoneMapping.lookup k = some x → Writable d x
  /-- the read path, which divides by the size of a zone in bytes -/
  read : 0 < c.zoneBytes → ∀ {a y}, dataEntry c m a = some y → ∃ i < d.nrZones, ∃ o < d.zoneCap,
    y = i * d.zoneSize + o ∧
      m.dataZoneMapping.lookup (toI64 (toU64 ((a / c.zoneBytes : ℕ) + c.logZoneNumConfig)))
        = some ((i * d.zoneSize : ℕ) : ℤ)

/-- **Zone addresses match the drive**: at every instant of the next call, whatever it is, and where
a write goes that has had any number of passes. -/
def ZonesMatch [Zero B] (c : Config) (w : World d) : Prop :=
  (∀ (k : ℕ) (passes : List HashOrder), k * c.lbaSizeBytes < 4294967296 →
    let l := (watermarkLoop c k passes : Prog B Bool).run exec (locked w)
    l.1 = true → l.2.ftl.logZoneEnd / c.nBlocksPerZone < d.nrZones ∧
      appendTarget c l.2.ftl = l.2.ftl.logZoneEnd / c.nBlocksPerZone * d.zoneSize) ∧
  ∀ call : DeviceCall B, call.InRange →
    Program.Always exec (fun s => Addressed d c s.ftl) (call.code c) w

/-! ## What the commands carry -/

/-- The zone starts that a command is given satisfy `T`: an append and a reset name one, and a transfer
begins with one, at the start of the buffer. -/
def ZoneAt (T : ℕ → Prop) : Op B → Prop
  | .nvmeZnsAppend zslba _ _ _ => T zslba
  | .nvmeWrite slba _ _ off _ => off = 0 → T slba
  | .nvmeZnsReset slba _ => T slba
  | _ => True

lemma ZoneAt.mono {T T' : ℕ → Prop} (hle : ∀ t, T t → T' t) {o : Op B} (ho : ZoneAt T o) :
    ZoneAt T' o := by
  cases o with
  | nvmeZnsAppend zslba nlb dataLen payload => exact hle _ ho
  | nvmeWrite slba nlb dataLen off payload => exact fun hoff => hle _ (ho hoff)
  | nvmeZnsReset slba selectAll => exact hle _ ho
  | _ => trivial

section Commands

variable {T : ℕ → Prop}

lemma zoneAt_ioLoop (read : Bool) (fuel : ℕ) : ∀ (size bufPtr wp : ℕ) (buf : Buffer B),
    (read = false → bufPtr = 0 → T wp) →
    Program.Only (ZoneAt T) (ioLoop c 0 read fuel size bufPtr wp buf) := by
  induction fuel with
  | zero => exact fun _ _ _ _ _ => .pure _
  | succ fuel ih =>
      intro size bufPtr wp buf hwp
      rw [ioLoop]
      split
      · rename_i hsize
        cases read with
        | true =>
            refine .bind (.perform trivial) fun r => ?_
            exact .ite (.pure _) (ih _ _ _ _ fun h => absurd h (by decide))
        | false =>
            refine .bind (.perform fun hoff => hwp rfl (by omega)) fun r => .ite (.pure _) ?_
            -- the data pointer has moved
            refine ih _ _ _ _ fun _ hzero => ?_
            have hmdts : 0 < mdts := by decide
            split at hzero <;> omega
      · exact .pure _

/-- **A write** goes to `appendTarget`. -/
lemma zoneAt_writeBody (address size : ℕ) (buf : Buffer B) :
    ∀ o ∈ (writeBody c address size buf).issued exec w, ZoneAt (· = appendTarget c w.ftl) o := by
  intro o ho
  rw [writeBody, Program.issued_bind, run_getFtl] at ho
  rcases List.mem_append.mp ho with ho | ho
  · obtain rfl := List.mem_singleton.mp ho
    trivial
  · refine Program.Only.issued (show Program.Only (ZoneAt (· = appendTarget c w.ftl)) _ from ?_) ho
    have hfinish : ∀ {f f' : Ftl → Ftl}, Program.Only (ZoneAt (· = appendTarget c w.ftl))
        (modifyFtl f >>= fun _ => modifyFtl f' >>= fun _ => pure 0 : Prog B ℤ) :=
      .bind (.perform trivial) fun _ => .bind (.perform trivial) fun _ => .pure _
    refine .ite ?_ ?_
    · refine .bind (.perform rfl) fun r => .ite (.pure _) ?_
      exact .bind (.perform trivial) fun _ => hfinish
    · refine .bind (zoneAt_ioLoop false _ _ _ _ _ fun _ _ => rfl) fun r => ?_
      exact .ite (.pure _) hfinish

/-- **The loop that resets the log**, from zone `i` on. -/
lemma zoneAt_resetLogZones (k : ℕ) : ∀ i : ℕ,
    Program.Only (ZoneAt fun t => ∃ j, i ≤ j ∧ j < i + k ∧ t = toU32 (j * c.nBlocksPerZone : ℕ))
      (resetLogZones c i k : Prog B Unit) := by
  induction k with
  | zero => exact fun i => .pure _
  | succ k ih =>
      intro i
      refine .bind (.perform ⟨i, Nat.le_refl i, by omega, ?_⟩) fun _ => ?_
      · exact toU64_of_lt ((toU32_lt _).trans (by decide))
      · refine (ih (i + 1)).mono fun o ho => ho.mono ?_
        rintro t ⟨j, hij, hj, rfl⟩
        exact ⟨j, by omega, by omega, rfl⟩

lemma zoneAt_readLogBlocks (l : List (Sigma fun _ : ℤ => ℤ)) : ∀ buf : Buffer B,
    Program.Only (ZoneAt T) (readLogBlocks c l buf) := by
  induction l with
  | nil => exact fun buf => .pure _
  | cons x l ih =>
      exact fun buf => .bind (.perform trivial) fun r => .ite (.pure _) (ih _)

/-- What `zone_merge` goes on with when it has read the old zone: `prev_zone`, in a state in which
nothing else has happened yet. -/
lemma readOldZone_prev (v : ℤ) (buf : Buffer B) :
    let r := ((readOldZone c v buf).run exec w).1
    r.1 = 0 → r.2.1 = (w.ftl.dataZoneMapping.lookup v).getD (-1) := by
  rw [readOldZone, Program.run_bind, run_getFtl]
  dsimp only
  cases hv : w.ftl.dataZoneMapping.lookup v with
  | none => exact fun _ => rfl
  | some zone =>
      dsimp only
      rw [Program.run_bind]
      split
      · exact fun h => absurd h ‹_›
      · exact fun _ => rfl

lemma zoneAt_readOldZone (v : ℤ) (buf : Buffer B) :
    Program.Only (ZoneAt T) (readOldZone c v buf) := by
  refine .bind (.perform trivial) fun m => ?_
  split
  · exact .pure _
  · refine .bind (zoneAt_ioLoop true _ _ _ _ _ nofun) fun r => .ite (.pure _) ?_
    exact .bind (.perform trivial) fun _ => .pure _

/-- **A merge** writes and resets the zones of `mergeTargets`. -/
lemma zoneAt_mergeZone (v : ℤ) (blocks : List (Sigma fun _ : ℤ => ℤ)) (buf : Buffer B) :
    ∀ o ∈ (mergeZone c v blocks buf).issued exec w,
      ZoneAt (fun t => ∃ x ∈ mergeTargets c w.ftl v, t = toU64 x) o := by
  intro o ho
  have hprev := readOldZone_prev (c := c) (w := w) v buf
  rw [mergeZone, Program.issued_bind, run_getFtl] at ho
  rcases List.mem_append.mp ho with ho | ho
  · obtain rfl := List.mem_singleton.mp ho
    trivial
  dsimp only at ho
  rw [Program.issued_bind] at ho
  rcases List.mem_append.mp ho with ho | ho
  · exact (zoneAt_readOldZone v buf).issued ho
  generalize (readOldZone c v buf).run exec w = r at hprev ho
  by_cases hret : r.1.1 = 0
  swap
  · rw [if_pos hret] at ho
    cases ho
  rw [if_neg (not_not.mpr hret), hprev hret] at ho
  refine Program.Only.issued (show Program.Only (ZoneAt _) _ from ?_) ho
  refine .bind (zoneAt_readLogBlocks _ _) fun b => .ite (.pure _) ?_
  obtain ⟨prev, hp⟩ : ∃ prev, prev = (w.ftl.dataZoneMapping.lookup v).getD (-1) := ⟨_, rfl⟩
  rw [← hp]
  split
  · -- in place
    rename_i hnone
    have htargets := mergeTargets_of_none hnone v
    rw [← hp] at htargets
    rw [htargets]
    have hprevZone : ∃ x ∈ [prev, lastLogZone c], toU64 prev = toU64 x :=
      ⟨prev, List.mem_cons_self .., rfl⟩
    have hlast : ∃ x ∈ [prev, lastLogZone c], toU64 (lastLogZone c) = toU64 x :=
      ⟨_, List.mem_cons_of_mem _ (List.mem_singleton_self _), rfl⟩
    refine .bind (.perform hprevZone) fun _ => ?_
    refine .bind (zoneAt_ioLoop false _ _ _ _ _ fun _ _ => hprevZone) fun r => .ite (.pure _) ?_
    exact .bind (.perform trivial) fun _ => .bind (.perform hlast) fun _ => .pure _
  · -- into a zone that is empty
    rename_i hfound
    have htargets : mergeTargets c w.ftl v = if prev ≠ -1 then [nextEmptyZone c w.ftl, prev]
        else [nextEmptyZone c w.ftl] := by
      rw [mergeTargets, if_neg hfound, ← hp]
    rw [htargets]
    have hzone : ∃ x ∈ if prev ≠ -1 then [nextEmptyZone c w.ftl, prev]
        else [nextEmptyZone c w.ftl], toU64 (nextEmptyZone c w.ftl) = toU64 x := by
      refine ⟨_, ?_, rfl⟩
      split <;> exact List.mem_cons_self ..
    refine .bind (zoneAt_ioLoop false _ _ _ _ _ fun _ _ => hzone) fun r => .ite (.pure _) ?_
    refine .bind (.perform trivial) fun _ => .bind (.perform trivial) fun _ => ?_
    split
    · exact .bind (.perform ⟨prev, List.mem_cons_of_mem _ (List.mem_singleton_self _), rfl⟩)
        fun _ => .pure _
    · exact .pure _

/-- **So the commands go to zones of the drive** while the addresses are those of the drive: those of a
merge, when there is an empty zone or an old one, … -/
lemma Addressed.zoneAt_mergeZone (h : Addressed d c w.ftl) {v : ℤ}
    (hv : nextEmptyZone c w.ftl ≠ -1 ∨ v ∈ w.ftl.dataZoneMapping)
    (blocks : List (Sigma fun _ : ℤ => ℤ)) (buf : Buffer B) :
    ∀ o ∈ (mergeZone c v blocks buf).issued exec w,
      ZoneAt (fun t => ∃ i < d.nrZones, t = toU64 ((i * d.zoneSize : ℕ) : ℤ)) o := by
  intro o ho
  refine (StoSys.zoneAt_mergeZone v blocks buf o ho).mono ?_
  rintro t ⟨x, hx, rfl⟩
  obtain ⟨i, hi, rfl⟩ := (h.merge v).mpr hv x hx
  exact ⟨i, hi, rfl⟩

/-- … and those of the loop that resets the log. -/
lemma Addressed.zoneAt_resetLogZones (h : Addressed d c m) :
    Program.Only (ZoneAt fun t => ∃ i : ℕ, i < c.logZoneNumConfig ∧ t = i * d.zoneSize)
      (resetLogZones c 0 c.logZoneNumConfig.toNat : Prog B Unit) := by
  refine (StoSys.zoneAt_resetLogZones _ 0).mono fun o ho => ho.mono ?_
  rintro t ⟨i, -, hi, rfl⟩
  have hlog : (i : ℤ) < c.logZoneNumConfig := by omega
  exact ⟨i, hlog, h.reset i hlog⟩

end Commands

/-- A drive and parameters that `init_ss_zns_device` is meant for. -/
structure Conforming (d : Drive B) (p : InitParams) : Prop where
  ds_ge : 2 ≤ d.ds
  ds_lt : d.ds < 32
  nrZones_lt : d.nrZones < 4294967296
  wmark_pos : 1 ≤ p.gcWmark
  wmark_lt : p.gcWmark < p.logZones
  logZones_lt : p.logZones < d.nrZones

/-! ## Capacity and size are the same -/

/-- What the layer computes with is what the drive is. -/
structure Layout (d : Drive B) (c : Config) (L wm : ℕ) : Prop where
  lba : c.lbaSizeBytes = d.lbaSize
  blocks : c.nBlocksPerZone = d.zoneSize
  full : d.zoneCap = d.zoneSize
  zones : c.znsNumZones = d.nrZones
  log : c.logZoneNumConfig = L
  wmark : c.gcWatermark = wm
  ds_ge : 2 ≤ d.ds
  ds_lt : d.ds < 32
  wm_pos : 1 ≤ wm
  wm_lt : wm < L
  L_lt : L < d.nrZones
  last_lt : (d.nrZones - 1) * d.zoneSize < 2147483648

lemma Conforming.layout (h : Conforming d p) (hfull : d.zoneCap = d.zoneSize)
    (hlast : (d.nrZones - 1) * d.zoneSize < 2147483648) :
    ∃ L wm, Layout d (configOf d p) L wm := by
  have hwm := h.wmark_pos
  have hL := h.wmark_lt
  have hnr := h.logZones_lt
  have hnr' := h.nrZones_lt
  have hsize : d.zoneSize ≤ (d.nrZones - 1) * d.zoneSize :=
    Nat.le_mul_of_pos_left _ (by omega)
  have hds : (2 : ℕ) ^ d.ds < 4294967296 :=
    Nat.lt_of_lt_of_eq (Nat.pow_lt_pow_right (by decide) h.ds_lt) (by decide)
  refine ⟨p.logZones.toNat, p.gcWmark.toNat, ?_⟩
  refine ⟨toU32_of_lt hds, ?_, hfull, toU32_of_lt hnr', ?_, ?_, h.ds_ge, h.ds_lt, by omega,
    by omega, by omega, hlast⟩
  · change toU32 d.zoneCap = _
    rw [hfull]
    exact toU32_of_lt (by omega)
  · change p.logZones = _
    omega
  · change toU32 p.gcWmark = _
    unfold toU32
    omega

namespace Layout

variable {L wm : ℕ} (h : Layout d c L wm)
include h

lemma start_lt {i : ℕ} (hi : i < d.nrZones) : i * d.zoneSize < 2147483648 :=
  Nat.lt_of_le_of_lt (Nat.mul_le_mul_right _ (by omega)) h.last_lt

lemma size_le : 2 * d.zoneSize < 2147483648 := by
  have h₁ := h.wm_pos
  have h₂ := h.wm_lt
  have h₃ := h.L_lt
  exact h.start_lt (by omega)

lemma addr_lt {i o : ℕ} (hi : i < d.nrZones) (ho : o < d.zoneCap) :
    i * d.zoneSize + o < 4294967296 := by
  have h₁ := h.start_lt hi
  have h₂ := h.size_le
  have h₃ := h.full
  omega

/-- `next_empty_zone`, for any zone states. -/
lemma nextEmptyZone_cases (m : Ftl) :
    (∃ i : ℕ, c.logZoneNumConfig ≤ i ∧ i < d.nrZones ∧ m.zoneStates i = emptyZone ∧
      nextEmptyZone c m = (i * d.zoneSize : ℕ)) ∨
    nextEmptyZone c m = -1 ∧
      ∀ i : ℕ, c.logZoneNumConfig ≤ i → i < d.nrZones → m.zoneStates i ≠ emptyZone := by
  have hlast := h.last_lt
  have hsize := h.size_le
  have hpos := d.zoneSize_pos
  have hnr : d.nrZones - 1 ≤ (d.nrZones - 1) * d.zoneSize := Nat.le_mul_of_pos_right _ hpos
  have hLnr := h.L_lt
  have hL : toU64 c.logZoneNumConfig = L := by
    rw [h.log]
    exact toU64_of_lt (by omega)
  rw [h.log]
  unfold nextEmptyZone
  rw [hL, h.zones]
  split
  · rename_i i hi
    have hmem := List.mem_of_find?_eq_some hi
    have hstate := List.find?_some hi
    rw [List.mem_range'_1] at hmem
    have hlt := h.start_lt (i := i) (by omega)
    refine Or.inl ⟨i, by omega, by omega, by simpa using hstate, ?_⟩
    rw [h.blocks, toU64_of_lt (by omega), toI32_of_lt hlt]
  · rename_i hnone
    refine Or.inr ⟨rfl, fun i hLi hi hstate => ?_⟩
    have hno := List.find?_eq_none.mp hnone i (List.mem_range'_1.mpr (by omega))
    simp [hstate] at hno

end Layout

/-! ## The two maps -/

/-- What the maps hold are zone starts and writable blocks. -/
structure Stored (d : Drive B) (c : Config) (m : Ftl) : Prop where
  data : ∀ {v z}, m.dataZoneMapping.lookup v = some z →
    ∃ i : ℕ, c.logZoneNumConfig ≤ i ∧ i < d.nrZones ∧ z = (i * d.zoneSize : ℕ)
  log : ∀ {k x}, m.logZoneMapping.lookup k = some x → Writable d x

namespace Stored

lemma fresh (p : InitParams) (media : Media d) : Stored d c (started p Ftl.fresh media) where
  data hv := by simp [started, Ftl.fresh] at hv
  log hk := by simp [started, Ftl.fresh] at hk

variable {L wm : ℕ}

/-- The rest follows from the maps. -/
lemma addressed (hs : Stored d c m) (h : Layout d c L wm) : Addressed d c m := by
  have hcases := h.nextEmptyZone_cases m
  have hstart : ∀ {i}, i < L → toU32 (i * c.nBlocksPerZone : ℕ) = i * d.zoneSize := by
    intro i hi
    rw [h.blocks]
    have := h.start_lt (i := i) (Nat.lt_trans hi h.L_lt)
    exact toU32_of_lt (by omega)
  have hlast : lastLogZone c = ((L - 1) * d.zoneSize : ℕ) := by
    have hL := h.wm_lt
    have hcast : (c.logZoneNumConfig - 1) * (c.nBlocksPerZone : ℤ)
        = ((L - 1) * c.nBlocksPerZone : ℕ) := by
      rw [h.log]
      push_cast [show 1 ≤ L by omega]
      ring
    rw [lastLogZone, hcast, hstart (by omega)]
  have hold : ∀ v, v ∈ m.dataZoneMapping → IsStart d ((m.dataZoneMapping.lookup v).getD (-1)) := by
    intro v hv
    obtain ⟨z, hz⟩ := lookup_of_mem hv
    obtain ⟨i, -, hi, rfl⟩ := hs.data hz
    rw [hz]
    exact ⟨i, hi, rfl⟩
  refine ⟨hcases, fun i hi => hstart (by rw [h.log] at hi; omega),
    ⟨L - 1, by rw [h.log]; have := h.wm_lt; omega, hlast⟩, fun v => ?_, hs.data, hs.log,
    fun hbytes {a y} hy => ?_⟩
  · have hlastStart : IsStart d (lastLogZone c) := ⟨L - 1, by have := h.L_lt; omega, hlast⟩
    by_cases hfound : nextEmptyZone c m = -1
    · rw [mergeTargets_of_none hfound, List.forall_mem_cons, List.forall_mem_singleton,
        or_iff_right (not_not.mpr hfound)]
      refine ⟨fun hall => ?_, fun hv => ⟨hold v hv, hlastStart⟩⟩
      by_contra hv
      obtain ⟨i, -, hi⟩ := hall.1
      rw [AList.lookup_eq_none.mpr hv] at hi
      change (-1 : ℤ) = _ at hi
      omega
    · obtain ⟨i, -, hi, -, heq⟩ := hcases.resolve_right fun hno => hfound hno.1
      refine iff_of_true (fun t ht => ?_) (Or.inl hfound)
      rcases mem_mergeTargets hfound ht with rfl | ⟨hv, rfl⟩
      · exact ⟨i, hi, heq⟩
      · exact hold v hv
  · rw [dataEntry] at hy
    obtain ⟨z, hz, rfl⟩ := Option.map_eq_some_iff.mp hy
    obtain ⟨i, -, hi, rfl⟩ := hs.data hz
    have hoff : a % c.zoneBytes / c.lbaSizeBytes < d.zoneCap := by
      have hmod := Nat.mod_lt a hbytes
      have hle : c.zoneBytes ≤ c.nBlocksPerZone * c.lbaSizeBytes := by
        unfold Config.zoneBytes toU32
        omega
      rw [h.full, ← h.blocks]
      refine Nat.div_lt_of_lt_mul ?_
      rw [Nat.mul_comm]
      omega
    refine ⟨i, hi, _, hoff, ?_, hz⟩
    have hlt := h.addr_lt hi hoff
    rw [← Nat.cast_add]
    exact toU64_of_lt (by omega)

/-- **A merge keeps both maps.** -/
lemma mergeKeeps (h : Layout d c L wm) : MergeKeeps c (Stored d c) where
  mark m _ _ hm := ⟨hm.data, hm.log⟩
  give m m' v hfound hm := by
    refine ⟨fun {v' z} hz => ?_, hm.log⟩
    change (m.dataZoneMapping.insert v (nextEmptyZone c m')).lookup v' = some z at hz
    rw [lookup_insert_eq] at hz
    split at hz
    · obtain ⟨i, hL, hi, -, heq⟩ := (h.nextEmptyZone_cases m').resolve_right fun hno => hfound hno.1
      exact ⟨i, hL, hi, (Option.some.inj hz).symm.trans heq⟩
    · exact hm.data hz
  invalidate m address hm := by
    refine ⟨hm.data, fun {k x} hx => ?_⟩
    change (m.logZoneMapping.insert address _).lookup k = some x at hx
    rw [lookup_insert_eq] at hx
    split at hx
    · -- an invalid entry is the first block of the drive
      have hzero : StoSys.invalidate ((m.logZoneMapping.lookup address).getD 0) = 0 := by
        cases hlook : m.logZoneMapping.lookup address with
        | none => rfl
        | some y =>
            obtain ⟨i, hi, o, ho, rfl⟩ := hm.log hlook
            have := h.addr_lt hi ho
            exact invalidate_natCast (by omega)
      have := h.L_lt
      refine ⟨0, by omega, 0, d.cap_pos, ?_⟩
      rw [← Option.some.inj hx, hzero, Nat.zero_mul]
      rfl
    · exact hm.log hx

end Stored

/-! ## A write -/

/-- `io_with_mdts` uses nothing of the configuration but the block size. -/
lemma ioLoop_congr {c c' : Config} (hlba : c.lbaSizeBytes = c'.lbaSizeBytes) (base : ℤ)
    (read : Bool) (fuel size ptr wp : ℕ) (buf : Buffer B) :
    ioLoop c base read fuel size ptr wp buf = ioLoop c' base read fuel size ptr wp buf := by
  induction fuel generalizing size ptr wp buf with
  | zero => rfl
  | succ fuel ih => simp only [ioLoop, hlba, ih]

/-- Three zones of one block, of the size of the drive's blocks. -/
def oneBlockZones (d : Drive B) (hge : 2 ≤ d.ds) (hlt : d.ds < 32) : Setup B where
  ds := d.ds
  nBlocks := 1
  nrZones := 3
  logZones := 2
  gcWmark := 1
  readAcross := d.readAcross
  fill := d.fill
  ds_ge := hge
  nBlocks_pos := Nat.one_pos
  zoneBytes_lt := by
    rw [Nat.one_mul]
    exact Nat.lt_of_lt_of_eq (Nat.pow_lt_pow_right (by decide) hlt) (by decide)
  total_lt := by decide
  wmark_pos := Nat.one_pos
  wmark_lt := Nat.one_lt_two
  logZones_lt := Nat.lt_succ_self 2

/-- **A transfer that succeeds** starts at the write pointer of its zone and ends on the drive. -/
lemma ioLoop_write_fits {g : Setup B} (hds : g.ds ≤ 18) {fuel cnt ptr wp : ℕ} {b : ℤ}
    (buf : Buffer B) (hfuel : cnt ≤ fuel * g.per) (hcnt : 0 < cnt)
    (hb : (0 : ℤ) + ptr = b * g.lba) (hwp : wp + cnt < 4294967296) :
    ((ioLoop g.config 0 false fuel (cnt * g.lba) ptr wp buf).run exec w).1.1 = 0 →
      wp % d.zoneSize = (w.media.zone (wp / d.zoneSize)).length ∧
        wp + cnt ≤ d.nrZones * d.zoneSize := by
  induction fuel generalizing cnt ptr wp b w with
  | zero => omega
  | succ fuel ih =>
      obtain ⟨k, hk⟩ : ∃ k, k = min g.per cnt := ⟨_, rfl⟩
      obtain ⟨hk0, hkc, -, -⟩ := command_bounds hds hk hcnt
      have hstep := ioLoop_write_step hds hk hcnt 0 b fuel ptr wp hb (by omega) buf
      have hcases := run_nvmeWrite_cases wp ((k - 1 : ℕ) : ℤ) ((k * g.lba : ℕ) : ℤ) (b * g.lba)
        (buf.slice b k) w
      rw [hstep, Program.run_bind]
      generalize (nvmeWrite wp ((k - 1 : ℕ) : ℤ) ((k * g.lba : ℕ) : ℤ) (b * g.lba)
        (buf.slice b k) : Prog B ℤ).run exec w = t at hcases ⊢
      rcases hcases with rfl | ⟨hret, hwrite, -, -⟩
      · rw [if_pos (show commandError ≠ 0 by decide)]
        exact fun h => absurd h (show ¬ commandError = 0 by decide)
      · rw [if_neg (not_not.mpr hret)]
        intro hrest
        obtain ⟨hzone, hoff, hnew⟩ := Media.write_eq_some hwrite
        have hlen := t.2.media.len_le (wp / d.zoneSize)
        rw [hnew, Function.update_self, List.length_append, Buffer.length_slice, ← hoff] at hlen
        have hend : wp + k ≤ d.nrZones * d.zoneSize := by
          have hcap := d.cap_le
          have hdm := Nat.div_add_mod' wp d.zoneSize
          have hle := Nat.mul_le_mul_right d.zoneSize (Nat.succ_le_of_lt hzone)
          rw [Nat.succ_mul] at hle
          omega
        refine ⟨hoff, ?_⟩
        rcases Nat.eq_zero_or_pos (cnt - k) with hdone | hmore
        · omega
        · have hbase : (0 : ℤ) + ((ptr + k * g.lba : ℕ) : ℤ) = (b + k) * g.lba := by
            push_cast
            linarith
          have hrest := (ih (by rw [Nat.succ_mul] at hfuel; omega) hmore hbase (by omega) hrest).2
          omega

/-- The same for `io_with_mdts` under any configuration with that block size; blocks larger than
`MDTS` are never written. -/
lemma ioWithMdts_write_fits (hlba : c.lbaSizeBytes = d.lbaSize) (hge : 2 ≤ d.ds) (hlt : d.ds < 32)
    {k wp : ℕ} (hk : 0 < k) (hwp : wp + k < 4294967296) (buf : Buffer B)
    (hret : ((ioWithMdts c wp 0 (k * d.lbaSize) false buf).run exec w).1.1 = 0) :
    wp % d.zoneSize = (w.media.zone (wp / d.zoneSize)).length ∧
      wp + k ≤ d.nrZones * d.zoneSize := by
  rcases Nat.lt_or_ge 18 d.ds with hds | hds
  · have hbig : mdts < d.lbaSize := Nat.pow_lt_pow_right (show 1 < 2 by decide) hds
    have hsize : d.lbaSize ≤ k * d.lbaSize := Nat.le_mul_of_pos_left _ hk
    rw [ioWithMdts, ioLoop, if_pos (by omega)] at hret
    simp only [if_pos (show mdts < k * d.lbaSize by omega), hlba, Bool.false_eq_true, if_false,
      Program.run_bind, Nat.div_eq_of_lt hbig] at hret
    have hrefused : ∀ nlb len off i,
        (nvmeWrite wp nlb len off (buf.slice i 0) : Prog B ℤ).run exec w = (commandError, w) :=
      fun nlb len off i =>
        (run_nvmeWrite_cases wp nlb len off (buf.slice i 0) w).resolve_right fun h => h.2.2.2 rfl
    rw [hrefused, if_pos (show commandError ≠ 0 by decide)] at hret
    exact absurd hret (show ¬ commandError = 0 by decide)
  · have hcongr := ioLoop_congr (show c.lbaSizeBytes = (oneBlockZones d hge hlt).config.lbaSizeBytes
      from hlba) 0 false (k * d.lbaSize / mdts + 1) (k * d.lbaSize) 0 wp buf
    rw [ioWithMdts, hcongr] at hret
    exact ioLoop_write_fits (g := oneBlockZones d hge hlt) (b := 0) hds buf
      (fuel_ge (g := oneBlockZones d hge hlt) hds k) hk (by simp) hwp hret

/-- What `log_zone_mapping` holds after a write was there before, or is one of its addresses. -/
lemma lookup_mapBlocks_cases {address k : ℕ} {e : ℤ} {log : UMap ℤ} {key x : ℤ}
    (h : (mapBlocks c address e k log).lookup key = some x) :
    (∃ i < k, x = toU32 (e + (i : ℕ))) ∨ log.lookup key = some x := by
  induction k with
  | zero => exact Or.inr h
  | succ k ih =>
      have hstep : mapBlocks c address e (k + 1) log = (mapBlocks c address e k log).insert
          (toI64 (address + toU32 (k * c.lbaSizeBytes : ℕ))) (toU32 (e + k)) := by
        rw [mapBlocks, List.range_succ, List.foldl_append]
        rfl
      rw [hstep, lookup_insert_eq] at h
      split at h
      · exact Or.inl ⟨k, Nat.lt_succ_self k, (Option.some.inj h).symm⟩
      · rcases ih h with ⟨i, hi, hx⟩ | hold
        · exact Or.inl ⟨i, Nat.lt_succ_of_lt hi, hx⟩
        · exact Or.inr hold

/-- Entering writable blocks. -/
lemma Stored.entered (hs : Stored d c m) (address : ℕ) {e k : ℕ} (he : e + k < 4294967296)
    (hnew : ∀ i < k, Writable d ((e + i : ℕ) : ℤ)) :
    Stored d c { m with logZoneMapping := mapBlocks c address e k m.logZoneMapping } := by
  refine ⟨hs.data, fun {key x} hx => ?_⟩
  rcases lookup_mapBlocks_cases hx with ⟨i, hi, rfl⟩ | hold
  · rw [← Nat.cast_add, toU32_of_lt (by omega)]
    exact hnew i hi
  · exact hs.log hold

/-- The cursor after an append to zone `z` is on 32 bits. -/
lemma toU32_cursor {z size len : ℕ} (hz : z * size < 2147483648) (hsize : 2 * size < 2147483648)
    (hlen : len ≤ size) : toU32 ((z * size + len + 1 : ℕ) : ℤ) = z * size + len + 1 :=
  toU32_of_lt (by omega)

/-- An append leaves the cursor one block into what it has written, or at the start of the next
zone. -/
lemma behind_of_append {z : ℕ} {m m' : Media d} {bs : List B} (hk : 0 < bs.length)
    (hzone : m'.zone = Function.update m.zone z (m.zone z ++ bs))
    (hle : (m.zone z).length + 1 ≤ d.zoneSize) :
    (z * d.zoneSize + (m.zone z).length + 1) % d.zoneSize
      ≤ (m'.zone ((z * d.zoneSize + (m.zone z).length + 1) / d.zoneSize)).length := by
  rcases Nat.lt_or_eq_of_le hle with hin | hnext
  · rw [Nat.add_assoc, Media.addr_mod hin, Media.addr_div hin, hzone, Function.update_self,
      List.length_append]
    exact Nat.add_le_add_left hk _
  · rw [Nat.add_assoc, hnext, ← Nat.succ_mul, Nat.mul_mod_left]
    exact Nat.zero_le _

/-- It is below the watermark if the blocks were to end there. -/
lemma append_end_le {e z len k room : ℕ} (hz : e / d.zoneSize = z)
    (hin : e + k < room * d.zoneSize) (hk : 0 < k) (hlen : len + k ≤ d.zoneSize) :
    z * d.zoneSize + len + 1 ≤ room * d.zoneSize := by
  have hzL : z < room := by
    rw [← hz]
    exact (Nat.div_lt_iff_lt_mul d.zoneSize_pos).mpr (Nat.lt_of_le_of_lt (Nat.le_add_right _ _) hin)
  calc z * d.zoneSize + len + 1
      ≤ z * d.zoneSize + len + k := Nat.add_le_add_left hk _
    _ ≤ (z + 1) * d.zoneSize := by
        rw [Nat.succ_mul, Nat.add_assoc]
        exact Nat.add_le_add_left hlen _
    _ ≤ room * d.zoneSize := Nat.mul_le_mul_right _ hzL

/-- **The cursor between two calls**: below the watermark, and not ahead of its zone. -/
structure CursorAt (d : Drive B) (L wm : ℕ) (w : World d) : Prop where
  start : w.ftl.logZoneStart = 0
  end_le : w.ftl.logZoneEnd ≤ (L - wm) * d.zoneSize
  behind : w.ftl.logZoneEnd % d.zoneSize ≤ (w.media.zone (w.ftl.logZoneEnd / d.zoneSize)).length

namespace CursorAt

variable {L wm k : ℕ} (hcur : CursorAt d L wm w)
include hcur

/-- The blocks from the cursor on, as far as their zone has room for them behind its pointer … -/
lemma room_writable (hz : w.ftl.logZoneEnd / d.zoneSize < d.nrZones)
    (hroom : (w.media.zone (w.ftl.logZoneEnd / d.zoneSize)).length + k ≤ d.zoneCap) :
    ∀ i < k, Writable d ((w.ftl.logZoneEnd + i : ℕ) : ℤ) := by
  intro i hi
  refine ⟨_, hz, w.ftl.logZoneEnd % d.zoneSize + i, ?_, ?_⟩
  · exact Nat.lt_of_lt_of_le (Nat.add_lt_add_of_le_of_lt hcur.behind hi) hroom
  · rw [← Nat.add_assoc, Nat.div_add_mod']

/-- … or from the start of an empty zone on, as far as there are zones. -/
lemma rest_writable (hfull : d.zoneCap = d.zoneSize)
    (hempty : (w.media.zone (w.ftl.logZoneEnd / d.zoneSize)).length = 0)
    (hlast : w.ftl.logZoneEnd / d.zoneSize * d.zoneSize + k ≤ d.nrZones * d.zoneSize) :
    ∀ i < k, Writable d ((w.ftl.logZoneEnd + i : ℕ) : ℤ) := by
  intro i hi
  have hzero : w.ftl.logZoneEnd % d.zoneSize = 0 := Nat.le_zero.mp (hempty ▸ hcur.behind)
  have hdm := Nat.div_add_mod' w.ftl.logZoneEnd d.zoneSize
  rw [hzero, Nat.add_zero] at hdm
  rw [hdm] at hlast
  have hlt := Nat.lt_of_lt_of_le (Nat.add_lt_add_left hi _) hlast
  refine ⟨_, (Nat.div_lt_iff_lt_mul d.zoneSize_pos).mpr hlt, _, ?_, by rw [Nat.div_add_mod']⟩
  rw [hfull]
  exact Nat.mod_lt _ d.zoneSize_pos

/-- A transfer leaves it where it is. -/
lemma ioWithMdts (slba : ℕ) (base : ℤ) (size : ℕ) (buf : Buffer B) :
    let s := ((StoSys.ioWithMdts c slba base size false buf).run exec w).2
    s.ftl = w.ftl ∧ CursorAt d L wm s := by
  refine triple_ioLoop_write c base (P := fun s => s.ftl = w.ftl ∧ CursorAt d L wm s)
    (fun slba nlb len off bs s hs => ?_) _ _ _ _ buf w ⟨rfl, hcur⟩
  rcases run_nvmeWrite_cases slba nlb len off bs s with hr | ⟨-, hwrite, hftl, -⟩
  · rw [hr]
    exact hs
  · obtain ⟨-, -, hzone⟩ := Media.write_eq_some hwrite
    refine ⟨hftl.trans hs.1, by rw [hftl]; exact hs.2.start, by rw [hftl]; exact hs.2.end_le, ?_⟩
    rw [hftl]
    refine hs.2.behind.trans ?_
    rw [hzone, Function.update_apply]
    split
    · rename_i heq
      rw [heq, List.length_append]
      exact Nat.le_add_right _ _
    · exact Nat.le_refl _

end CursorAt

namespace Layout

variable {L wm : ℕ} (h : Layout d c L wm)
include h

lemma blocks_lt {k : ℕ} (hsize : k * d.lbaSize < 4294967296) : k < 1073741824 := by
  have hlba : 4 ≤ d.lbaSize := Nat.pow_le_pow_right (show 0 < 2 by decide) h.ds_ge
  have := Nat.mul_le_mul_left k hlba
  omega

/-- A request that is let through ends below the watermark, or is longer than a zone. -/
lemma fits_of_pass (hcur : CursorAt d L wm w) {k : ℕ} (hsize : k * d.lbaSize < 4294967296)
    (hpass : c.gcWatermark < freeZoneNumber c w.ftl (toI32 k)) :
    w.ftl.logZoneEnd + k < (L - wm) * d.zoneSize ∨ d.zoneCap < k := by
  have hend := hcur.end_le
  have hwm := h.wm_pos
  have hlt := h.wm_lt
  have hLnr := h.L_lt
  have hpos := d.zoneSize_pos
  have hL : L * d.zoneSize < 2147483648 := h.start_lt hLnr
  have hle : (L - wm) * d.zoneSize ≤ L * d.zoneSize := Nat.mul_le_mul_right _ (Nat.sub_le _ _)
  have hLle : L ≤ L * d.zoneSize := Nat.le_mul_of_pos_right _ hpos
  have hk := h.blocks_lt hsize
  rw [lt_freeZoneNumber_iff (by rw [h.log]; omega) (by rw [h.log]; omega) (by rw [h.wmark]; omega)
    hcur.start, Fits, h.log, h.wmark, h.blocks, Nat.mod_eq_of_lt (by omega)] at hpass
  rcases hpass with hroom | ⟨hwrap, -⟩
  · refine Or.inl ((Nat.div_lt_iff_lt_mul hpos).mp ?_)
    omega
  · have hfar : L + 1 ≤ (w.ftl.logZoneEnd + k) / d.zoneSize := by omega
    rw [Nat.le_div_iff_mul_le hpos, Nat.succ_mul] at hfar
    have hfull := h.full
    have hsum : (L - wm) * d.zoneSize + wm * d.zoneSize = L * d.zoneSize := by
      rw [← Nat.add_mul, Nat.sub_add_cancel (by omega)]
    have := Nat.le_mul_of_pos_left d.zoneSize hwm
    omega

lemma cursor_zone_lt (hcur : CursorAt d L wm w) : w.ftl.logZoneEnd / d.zoneSize < d.nrZones := by
  have hwm := h.wm_pos
  have hlt := h.wm_lt
  have hLnr := h.L_lt
  have hle := Nat.div_le_div_right (c := d.zoneSize) hcur.end_le
  rw [Nat.mul_div_cancel _ d.zoneSize_pos] at hle
  omega

/-- **The target of an append.** -/
lemma appendTarget_eq (hcur : CursorAt d L wm w) :
    appendTarget c w.ftl = w.ftl.logZoneEnd / d.zoneSize * d.zoneSize := by
  have hz := h.start_lt (h.cursor_zone_lt hcur)
  have hle : w.ftl.logZoneEnd / d.zoneSize ≤ w.ftl.logZoneEnd / d.zoneSize * d.zoneSize :=
    Nat.le_mul_of_pos_right _ d.zoneSize_pos
  rw [appendTarget, h.blocks, toI32_of_lt (by omega), ← Nat.cast_mul]
  exact toU32_of_lt (by omega)

lemma cursor_lt (hcur : CursorAt d L wm w) : w.ftl.logZoneEnd < 2147483648 :=
  Nat.lt_of_le_of_lt (hcur.end_le.trans (Nat.mul_le_mul_right _ (Nat.sub_le _ _)))
    (h.start_lt h.L_lt)

/-- **The body of a write by append.** -/
lemma writeBody_append (hs : Stored d c w.ftl) (hcur : CursorAt d L wm w) {k : ℕ}
    (hsize : k * d.lbaSize < 4294967296)
    (hpass : c.gcWatermark < freeZoneNumber c w.ftl (toI32 k)) (hsmall : k * d.lbaSize < c.mdts)
    (address : ℕ) (buf : Buffer B) :
    Program.Always exec (fun s => Stored d c s.ftl)
        (StoSys.writeBody c address (k * d.lbaSize) buf) w ∧
      CursorAt d L wm ((StoSys.writeBody c address (k * d.lbaSize) buf).run exec w).2 := by
  have hfits := h.fits_of_pass hcur hsize hpass
  have htarget := h.appendTarget_eq hcur
  have hznr := h.cursor_zone_lt hcur
  have hstart := h.start_lt hznr
  have hlt := h.cursor_lt hcur
  have hk := h.blocks_lt hsize
  have hblocks : k * d.lbaSize / d.lbaSize = k := Nat.mul_div_cancel _ d.lbaSize_pos
  have hcast : toI32 (w.ftl.logZoneEnd : ℤ) = (w.ftl.logZoneEnd : ℕ) := toI32_of_lt hlt
  rw [appendTarget] at htarget
  obtain ⟨z, hz⟩ : ∃ z, w.ftl.logZoneEnd / d.zoneSize = z := ⟨_, rfl⟩
  rw [hz] at htarget hznr hstart
  have hzdiv : z * d.zoneSize / d.zoneSize = z := Media.start_div z
  simp only [StoSys.writeBody, Program.always_bind, always_getFtl, run_getFtl, Program.run_bind,
    h.lba, hblocks, htarget, hcast, if_pos hsmall]
  have hcases := run_nvmeZnsAppend_cases (z * d.zoneSize) (toU32 ((k : ℤ) - 1))
    ((k * d.lbaSize : ℕ) : ℤ) (buf.slice 0 k) w
  have halways := Throughout.perform (P := Stored d c) faithful_exec (o := .nvmeZnsAppend
    (z * d.zoneSize) (toU16 ((toU32 ((k : ℤ) - 1) : ℕ) : ℤ)) (toU32 ((k * d.lbaSize : ℕ) : ℤ))
    (buf.slice 0 k)) rfl w hs
  change Program.Always exec _ (nvmeZnsAppend _ _ _ _) w at halways
  generalize (nvmeZnsAppend (z * d.zoneSize) (toU32 ((k : ℤ) - 1)) ((k * d.lbaSize : ℕ) : ℤ)
    (buf.slice 0 k) : Prog B (ℤ × ℕ)).run exec w = r at hcases ⊢
  rcases hcases with ⟨hret, hr⟩ | ⟨hret, happend, hftl, hne⟩
  · simp only [if_pos hret, Program.always_pure, Program.run_pure, hr]
    exact ⟨⟨hs, halways, hs⟩, hcur⟩
  · obtain ⟨-, -, hroom, hlba, hzone⟩ := Media.append_eq_some happend
    rw [hzdiv, Buffer.length_slice] at hroom
    rw [hzdiv] at hlba hzone
    have hnew := hcur.room_writable (k := k) (by rw [hz]; exact hznr) (by rwa [hz])
    have hbs : 0 < (buf.slice 0 k).length := List.length_pos_iff.mpr hne
    have hk0 : 0 < k := by rwa [Buffer.length_slice] at hbs
    have hroom' := hroom.trans d.cap_le
    have hle : (w.media.zone z).length + 1 ≤ d.zoneSize :=
      Nat.le_trans (Nat.add_le_add_left hk0 _) hroom'
    have hcursor : toU32 ((r.1.2 + 1 : ℕ) : ℤ)
        = z * d.zoneSize + (w.media.zone z).length + 1 := by
      rw [hlba]
      exact toU32_cursor hstart h.size_le (Nat.le_of_succ_le hle)
    have hk_le : k ≤ d.zoneCap := Nat.le_trans (Nat.le_add_left _ _) hroom
    have hend_le := append_end_le hz (hfits.resolve_right (Nat.not_lt.mpr hk_le)) hk0 hroom'
    have hentered := hs.entered address (show w.ftl.logZoneEnd + k < 4294967296 by omega) hnew
    simp only [hret, ne_eq, not_true_eq_false, if_false, Program.always_bind, Program.run_bind,
      always_modifyFtl, run_modifyFtl, hftl, hcursor, Program.run_pure, Program.always_pure]
    refine ⟨⟨hs, halways, ⟨hs, ⟨hs.data, hs.log⟩⟩,
      ⟨⟨hs.data, hs.log⟩, ⟨hentered.data, hentered.log⟩⟩,
      ⟨⟨hentered.data, hentered.log⟩, ⟨hentered.data, hentered.log⟩⟩,
      ⟨hentered.data, hentered.log⟩⟩, hcur.start, ?_, ?_⟩
    · exact hend_le
    · exact behind_of_append hbs hzone hle

/-- **The body of a write of `MDTS` and more.** -/
lemma writeBody_transfer (hs : Stored d c w.ftl) (hcur : CursorAt d L wm w) {k : ℕ}
    (hsize : k * d.lbaSize < 4294967296) (hlarge : ¬ k * d.lbaSize < c.mdts)
    (address : ℕ) (buf : Buffer B) :
    Program.Always exec (fun s => Stored d c s.ftl)
        (StoSys.writeBody c address (k * d.lbaSize) buf) w ∧
      CursorAt d L wm ((StoSys.writeBody c address (k * d.lbaSize) buf).run exec w).2 := by
  have htarget := h.appendTarget_eq hcur
  have hlt := h.cursor_lt hcur
  have hk := h.blocks_lt hsize
  have hblocks : k * d.lbaSize / d.lbaSize = k := Nat.mul_div_cancel _ d.lbaSize_pos
  have hcast : toI32 (w.ftl.logZoneEnd : ℤ) = (w.ftl.logZoneEnd : ℕ) := toI32_of_lt hlt
  have hsum : w.ftl.logZoneEnd + k < 4294967296 := by omega
  have hdm := Nat.div_add_mod' w.ftl.logZoneEnd d.zoneSize
  rw [appendTarget] at htarget
  obtain ⟨z, hz⟩ : ∃ z, w.ftl.logZoneEnd / d.zoneSize = z := ⟨_, rfl⟩
  rw [hz] at htarget hdm
  have hzdiv : z * d.zoneSize / d.zoneSize = z := Media.start_div z
  simp only [StoSys.writeBody, Program.always_bind, always_getFtl, run_getFtl, Program.run_bind,
    h.lba, hblocks, htarget, hcast, if_neg hlarge]
  have halways : Program.Always exec (fun s => Stored d c s.ftl)
      (ioWithMdts c (z * d.zoneSize) 0 (k * d.lbaSize) false buf) w :=
    Throughout.ioLoop faithful_exec c 0 false _ _ _ _ buf w hs
  have hwp : z * d.zoneSize + k < 4294967296 := by
    rw [← hdm] at hsum
    exact Nat.lt_of_le_of_lt (Nat.add_le_add_right (Nat.le_add_right _ _) k) hsum
  have hfit := fun hk0 : 0 < k =>
    ioWithMdts_write_fits (w := w) h.lba h.ds_ge h.ds_lt hk0 hwp buf
  obtain ⟨hftl, hcur'⟩ := CursorAt.ioWithMdts (c := c) hcur (z * d.zoneSize) 0 (k * d.lbaSize) buf
  generalize (ioWithMdts c (z * d.zoneSize) 0 (k * d.lbaSize) false buf).run exec w = r
    at hfit hftl hcur' ⊢
  have hs' : Stored d c r.2.ftl := by rwa [hftl]
  by_cases hret : r.1.1 = 0
  · have hnew : ∀ i < k, Writable d ((w.ftl.logZoneEnd + i : ℕ) : ℤ) := by
      intro i hi
      obtain ⟨hoff, hlast⟩ := hfit (Nat.zero_lt_of_lt hi) hret
      rw [Nat.mul_mod_left, hzdiv] at hoff
      exact hcur.rest_writable h.full (by rw [hz]; exact hoff.symm) (by rwa [hz]) i hi
    have hentered := hs'.entered address hsum hnew
    simp only [hret, ne_eq, not_true_eq_false, if_false, Program.always_bind, Program.run_bind,
      always_modifyFtl, run_modifyFtl, Program.run_pure, Program.always_pure]
    refine ⟨⟨hs, halways, ⟨hs', ⟨hentered.data, hentered.log⟩⟩,
      ⟨⟨hentered.data, hentered.log⟩, ⟨hentered.data, hentered.log⟩⟩,
      ⟨hentered.data, hentered.log⟩⟩, hcur'.start, hcur'.end_le, hcur'.behind⟩
  · simp only [hret, ne_eq, not_false_eq_true, if_true, Program.always_pure, Program.run_pure]
    exact ⟨⟨hs, halways, hs'⟩, hcur'⟩

/-- **The body of a write.** -/
lemma writeBody (hs : Stored d c w.ftl) (hcur : CursorAt d L wm w) {k : ℕ}
    (hsize : k * d.lbaSize < 4294967296)
    (hpass : c.gcWatermark < freeZoneNumber c w.ftl (toI32 k)) (address : ℕ) (buf : Buffer B) :
    Program.Always exec (fun s => Stored d c s.ftl)
        (StoSys.writeBody c address (k * d.lbaSize) buf) w ∧
      CursorAt d L wm ((StoSys.writeBody c address (k * d.lbaSize) buf).run exec w).2 := by
  by_cases hsmall : k * d.lbaSize < c.mdts
  · exact h.writeBody_append hs hcur hsize hpass hsmall address buf
  · exact h.writeBody_transfer hs hcur hsize hsmall address buf

/-- **A collection.** -/
lemma triggerGc [Zero B] (hs : Stored d c w.ftl) (hstart : w.ftl.logZoneStart = 0)
    (ord : HashOrder) :
    Program.Always exec (fun s => Stored d c s.ftl) (StoSys.triggerGc c ord : Prog B Unit) w ∧
      CursorAt d L wm ((StoSys.triggerGc c ord : Prog B Unit).run exec w).2 := by
  refine ⟨Throughout.triggerGc faithful_exec (Stored.mergeKeeps h) (fun _ _ hm => ⟨hm.data, hm.log⟩)
    (fun _ hm => ⟨hm.data, fun hk => by cases hk⟩) (fun _ _ hm => ⟨hm.data, hm.log⟩) ord w hs, ?_⟩
  obtain ⟨hstart', hend, -⟩ := triggerGc_clears (c := c) hstart ord
  refine ⟨hstart', by rw [hend]; exact Nat.zero_le _, ?_⟩
  rw [hend, Nat.zero_mod]
  exact Nat.zero_le _

/-- **The watermark loop.** -/
lemma watermarkLoop [Zero B] (hs : Stored d c w.ftl) (hcur : CursorAt d L wm w) (k : ℕ)
    (passes : List HashOrder) :
    let l := (StoSys.watermarkLoop c k passes : Prog B Bool).run exec w
    Program.Always exec (fun s => Stored d c s.ftl)
        (StoSys.watermarkLoop c k passes : Prog B Bool) w ∧
      (Stored d c l.2.ftl ∧ CursorAt d L wm l.2) ∧
        (l.1 = true → c.gcWatermark < freeZoneNumber c l.2.ftl (toI32 k)) := by
  refine ⟨Throughout.watermarkLoop faithful_exec (Stored.mergeKeeps h)
    (fun _ _ hm => ⟨hm.data, hm.log⟩) (fun _ hm => ⟨hm.data, fun hk => by cases hk⟩)
    (fun _ _ hm => ⟨hm.data, hm.log⟩) k passes w hs, ?_⟩
  refine watermarkLoop_keeps (P := fun s => Stored d c s.ftl ∧ CursorAt d L wm s)
    (fun ord s hs _ => ?_) passes ⟨hs, hcur⟩
  obtain ⟨halways, hcur'⟩ := h.triggerGc (w := asked s) ⟨hs.1.data, hs.1.log⟩ hs.2.start ord
  exact ⟨halways.last, hcur'⟩

/-- **A write**, with its passes. -/
lemma znsUdeviceWrite [Zero B] (hs : Stored d c w.ftl) (hcur : CursorAt d L wm w) {size : ℕ}
    (hsize : size < 4294967296) (passes : List HashOrder) (address : ℕ) (buf : Buffer B) :
    Program.Always exec (fun s => Stored d c s.ftl)
        (StoSys.znsUdeviceWrite c passes address size buf) w ∧
      CursorAt d L wm ((StoSys.znsUdeviceWrite c passes address size buf).run exec w).2 := by
  rw [StoSys.znsUdeviceWrite]
  by_cases halign : size % c.lbaSizeBytes = 0
  · obtain ⟨k, rfl⟩ : ∃ k, size = k * d.lbaSize :=
      ⟨_, (Nat.div_mul_cancel (Nat.dvd_of_mod_eq_zero (h.lba ▸ halign))).symm⟩
    cases hm : w.ftl.gcMutex with
    | true =>
        simp only [halign, ne_eq, not_true_eq_false, if_false, Program.always_bind,
          Program.run_bind, always_getFtl, run_getFtl, hm, if_true, Program.always_pure,
          Program.run_pure]
        exact ⟨⟨hs, hs⟩, hcur⟩
    | false =>
        have hs' : Stored d c (locked w).ftl := ⟨hs.data, hs.log⟩
        have hk : k * d.lbaSize / c.lbaSizeBytes = k := by
          rw [h.lba, Nat.mul_div_cancel _ d.lbaSize_pos]
        obtain ⟨hloop, ⟨hl, hlcur⟩, hleft⟩ := h.watermarkLoop hs'
          ⟨hcur.start, hcur.end_le, hcur.behind⟩ k passes
        have hlock : (modifyFtl (fun m => { m with gcMutex := true }) : Prog B Unit).run exec w
            = ((), locked w) := rfl
        simp only [halign, hk, ne_eq, not_true_eq_false, if_false, Program.always_bind,
          Program.run_bind, always_getFtl, run_getFtl, hm, Bool.false_eq_true, always_modifyFtl,
          hlock]
        generalize (StoSys.watermarkLoop c k passes : Prog B Bool).run exec (locked w) = l
          at hl hlcur hleft ⊢
        by_cases hl₁ : l.1 = true
        · obtain ⟨hbody, hcur'⟩ := h.writeBody hl hlcur hsize (hleft hl₁) address buf
          simp only [if_pos hl₁, Program.always_map, Program.run_map]
          exact ⟨⟨hs, ⟨hs, hs'⟩, hloop, hbody⟩, hcur'⟩
        · simp only [if_neg hl₁, Program.always_pure, Program.run_pure]
          exact ⟨⟨hs, ⟨hs, hs'⟩, hloop, hl⟩, hlcur⟩
  · rw [if_pos halign]
    exact ⟨Program.always_pure.mpr hs, hcur⟩

end Layout

/-! ## Runs -/

/-- What one call keeps. -/
lemma Called.stored [Zero B] {L wm : ℕ} (h : Layout d c L wm) {w' : World d} {call : DeviceCall B}
    (hcall : Called c call w w') (hw : Stored d c w.ftl ∧ CursorAt d L wm w) :
    Stored d c w'.ftl ∧ CursorAt d L wm w' := by
  obtain ⟨hs, hcur⟩ := hw
  refine hcall.keeps (P := fun s => Stored d c s.ftl ∧ CursorAt d L wm s)
    (fun _ hsize passes buf => ?_) (fun ord => ?_) ⟨hs, hcur⟩
  · obtain ⟨halways, hcur'⟩ := h.znsUdeviceWrite hs hcur hsize passes _ buf
    exact ⟨halways.last, hcur'⟩
  · obtain ⟨halways, hcur'⟩ := h.triggerGc hs hcur.start ord
    exact ⟨halways.last, hcur'⟩

/-- **One capacity and size**: the addresses match the drive in every run. -/
lemma Layout.zonesMatch [Zero B] {L wm : ℕ} (h : Layout d c L wm) (hs : Stored d c w.ftl)
    (hcur : CursorAt d L wm w) : ZonesMatch c w := by
  refine ⟨fun k passes _ => ?_, fun call hrange => ?_⟩
  · intro l hl
    obtain ⟨-, ⟨-, hcur'⟩, -⟩ := h.watermarkLoop (w := locked w) ⟨hs.data, hs.log⟩
      ⟨hcur.start, hcur.end_le, hcur.behind⟩ k passes
    rw [h.appendTarget_eq hcur', h.blocks]
    exact ⟨h.cursor_zone_lt hcur', rfl⟩
  · have halways : Program.Always exec (fun s => Stored d c s.ftl) (call.code c) w := by
      cases call with
      | write passes address size buf =>
          exact Program.always_map.mpr (h.znsUdeviceWrite hs hcur hrange.2 passes address buf).1
      | read address size buf =>
          exact Program.always_map.mpr
            (Throughout.znsUdeviceRead faithful_exec c address size buf w hs)
      | collect ord => exact (h.triggerGc hs hcur.start ord).1
    exact halways.mono fun s hs => hs.addressed h

/-- A medium on which only the last zone is empty. -/
def lastEmpty (d : Drive B) : Media d where
  zone i := if i = d.nrZones - 1 then [] else [d.fill]
  len_le i := by
    split
    · exact Nat.zero_le _
    · exact d.cap_pos

/-- There the first look at the drive tells the two apart. -/
lemma Conforming.of_addressed (h : Conforming d p)
    (hw : Addressed d (configOf d p) (started p Ftl.fresh (lastEmpty d))) :
    d.zoneCap = d.zoneSize ∧ (d.nrZones - 1) * d.zoneSize < 2147483648 := by
  have hwm := h.wmark_pos
  have hL := h.wmark_lt
  have hnr := h.logZones_lt
  have hlog : (configOf d p).logZoneNumConfig = p.logZones := rfl
  have hstates : ∀ {i : ℕ}, (configOf d p).logZoneNumConfig ≤ i → i < d.nrZones →
      (started p Ftl.fresh (lastEmpty d)).zoneStates i = (lastEmpty d).zoneState i := by
    intro i hLi hi
    have hin : toU64 p.logZones ≤ i ∧ i < d.nrZones := by
      rw [hlog] at hLi
      unfold toU64
      omega
    change (if _ ∧ _ then _ else _) = _
    rw [if_pos hin]
    exact Nat.mul_div_cancel _ (by decide)
  constructor
  · have hone := hw.reset 1 (by rw [hlog]; omega)
    have hblocks : (configOf d p).nBlocksPerZone ≤ d.zoneCap := by
      change toU32 d.zoneCap ≤ _
      unfold toU32
      omega
    rw [Nat.one_mul, Nat.one_mul] at hone
    have hle : toU32 ((configOf d p).nBlocksPerZone : ℕ) ≤ (configOf d p).nBlocksPerZone := by
      unfold toU32
      omega
    have := d.cap_le
    omega
  · obtain ⟨i, hLi, hi, hempty, hfound⟩ | ⟨-, hnone⟩ := hw.empty
    · have hlast : i = d.nrZones - 1 := by
        by_contra hne
        have hstate : Media.zoneState (lastEmpty d) i ≠ emptyZone := by
          simp only [Media.zoneState, lastEmpty, if_neg hne, List.length_singleton,
            if_neg Nat.one_ne_zero]
          split <;> decide
        rw [hstates hLi hi] at hempty
        exact hstate hempty
      have hle : nextEmptyZone (configOf d p) (started p Ftl.fresh (lastEmpty d)) < 2147483648 := by
        unfold nextEmptyZone
        split
        · unfold toI32
          split <;> omega
        · decide
      rw [hfound, hlast] at hle
      exact_mod_cast hle
    · refine absurd ?_ (hnone (d.nrZones - 1) (by rw [hlog]; omega) (by omega))
      rw [hstates (by rw [hlog]; omega) (by omega)]
      simp [Media.zoneState, lastEmpty, emptyZone]

/-- **Zone addresses match the drive** in every state of every run, opened with or without a reset,
exactly when a zone is as large as its capacity and the last zone starts below `2 ^ 31`. -/
theorem zonesMatch_iff [Zero B] (h : Conforming d p) :
    (∀ {forceReset : Bool} {tr : List (World d × DeviceCall B)} {w : World d},
        Run (JustOpened { p with forceReset }) (Called (configOf d p)) tr w →
          ZonesMatch (configOf d p) w) ↔
      d.zoneCap = d.zoneSize ∧ (d.nrZones - 1) * d.zoneSize < 2147483648 := by
  constructor
  · intro hall
    have hopened : JustOpened { p with forceReset := false }
        ⟨started { p with forceReset := false } Ftl.fresh (lastEmpty d), lastEmpty d⟩ :=
      ⟨lastEmpty d, run_initSsZnsDevice _ _⟩
    have hread := (hall (.start hopened)).2 (.read 0 0 fun _ => 0)
      ⟨by decide, by decide⟩
    exact h.of_addressed hread.head
  · rintro ⟨hfull, hlast⟩ forceReset tr w hrun
    obtain ⟨L, wm, hlayout⟩ := h.layout hfull hlast
    have hinv : Stored d (configOf d p) w.ftl ∧ CursorAt d L wm w := by
      refine hrun.invariant (I := fun w => Stored d (configOf d p) w.ftl ∧ CursorAt d L wm w)
        (fun s hs => ?_) fun hw hcall => hcall.stored hlayout hw
      obtain ⟨m, rfl⟩ := hs.eq
      refine ⟨Stored.fresh _ m, rfl, Nat.zero_le _, ?_⟩
      change 0 % _ ≤ _
      rw [Nat.zero_mod]
      exact Nat.zero_le _
    exact hlayout.zonesMatch hinv.1 hinv.2

/-- The same for the small drive, just opened. -/
theorem zonesMatch_iff_fresh :
    JustOpened (smallDrive.params true) (fresh smallDrive) ∧
      ZonesMatch (configOf smallDrive.drive (smallDrive.params true)) (fresh smallDrive) := by
  have hopened : JustOpened (smallDrive.params true) (fresh smallDrive) :=
    ⟨Media.empty _, run_init_fresh _⟩
  refine ⟨hopened, ?_⟩
  have hall := zonesMatch_iff (d := smallDrive.drive) (p := smallDrive.params true)
    ⟨by decide, by decide, by decide, by decide, by decide, by decide⟩
  exact hall.mpr (by decide) (.start hopened)

/-- The small drive, with one block of every zone out of reach. -/
def shortZones : Drive UInt8 where
  ds := 12
  nrZones := 5
  zoneSize := 4
  zoneCap := 3
  readAcross := false
  fill := 0
  cap_pos := Nat.succ_pos 2
  cap_le := by decide

/-- Zone 2 starts at block 8, and `next_empty_zone` returns 6, which is inside zone 1. -/
theorem next_empty_zone_inside_log :
    let p : InitParams := { logZones := 2, gcWmark := 1, forceReset := true }
    let w : World shortZones := ⟨started p Ftl.fresh (Media.empty shortZones), Media.empty _⟩
    Conforming shortZones p ∧ JustOpened p w ∧ nextEmptyZone (configOf shortZones p) w.ftl = 6 ∧
      (∀ i : ℕ, (6 : ℤ) ≠ (i * shortZones.zoneSize : ℕ)) ∧
        ¬ ZonesMatch (configOf shortZones p) w := by
  intro p w
  have hfound : nextEmptyZone (configOf shortZones p) w.ftl = 6 := by decide
  have hno : ∀ i : ℕ, (6 : ℤ) ≠ (i * shortZones.zoneSize : ℕ) := by
    intro i
    change (6 : ℤ) ≠ (i * 4 : ℕ)
    omega
  refine ⟨⟨by decide, by decide, by decide, by decide, by decide, by decide⟩,
    ⟨Media.empty _, run_initSsZnsDevice p _⟩, hfound, hno, fun hmatch => ?_⟩
  have hread := hmatch.2 (.read 0 0 fun _ => 0) ⟨by decide, by decide⟩
  rcases hread.head.empty with ⟨i, -, -, -, heq⟩ | ⟨heq, -⟩
  · exact hno i (hfound.symm.trans heq)
  · rw [hfound] at heq
    exact absurd heq (by decide)

end StoSys
