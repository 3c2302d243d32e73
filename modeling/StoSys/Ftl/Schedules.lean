import StoSys.Ftl.Threads
import StoSys.Ftl.Runs

/-!
# A call on its own

In the sequential model a write that runs out of space is granted its collections, each at the
moment it waits for it.  Here that is one of the interleavings: a call that is made while the
collector sleeps and no other call is under way goes through the points of the two threads and ends
as `znsUdeviceWrite` does, with the collector asleep again.
-/

namespace StoSys

open Effect HashMap Zoned CInt Monitor Transitions

variable {B ι : Type} [Zero B] {d : Drive B}

/-- Giving the mutex back. -/
def unlocked (w : World d) : World d := ⟨{ w.ftl with gcMutex := false }, w.media⟩

omit [Zero B] in
lemma locked_unlocked (w : World d) : locked (unlocked w) = locked w := rfl

omit [Zero B] in
lemma locked_of_held {w : World d} (hm : w.ftl.gcMutex = true) : locked w = w := by
  obtain ⟨ftl, media⟩ := w
  obtain ⟨log, data, start, fin, states, mutex, trigger, stop⟩ := ftl
  cases hm
  rfl

omit [Zero B] in
lemma unlocked_locked {w : World d} (hm : w.ftl.gcMutex = false) :
    unlocked (locked w) = w := by
  obtain ⟨ftl, media⟩ := w
  obtain ⟨log, data, start, fin, states, mutex, trigger, stop⟩ := ftl
  cases hm
  rfl

variable [DecidableEq ι]

/-- The points `p`, but with the collector at `g` and writer `i` at `v`. -/
def both (p : Points (Thread ι) Cond Point) (i : ι) (g : Status Cond GcPoint)
    (v : Status Cond WritePoint) : Points (Thread ι) Cond Point :=
  Function.update (Function.update p .gc g) (.writer i) v

section Both

variable (p : Points (Thread ι) Cond Point) (i : ι) (g g' : Status Cond GcPoint)
  (v v' : Status Cond WritePoint)

omit [DecidableEq ι] in
lemma gc_ne_writer : (Thread.gc : Thread ι) ≠ .writer i := by
  intro h
  cases h

@[simp] lemma both_gc : both p i g v .gc = g := by
  rw [both, Function.update_of_ne (gc_ne_writer i), Function.update_self]

@[simp] lemma both_writer : both p i g v (.writer i) = v := Function.update_self ..

lemma both_of_ne {t : Thread ι} (hgc : t ≠ .gc) (hi : t ≠ .writer i) :
    both p i g v t = p t := by
  rw [both, Function.update_of_ne hi, Function.update_of_ne hgc]

lemma both_deinit : both p i g v .deinit = p .deinit := by
  refine both_of_ne p i g v (fun h => ?_) fun h => ?_
  · cases h
  · cases h

@[simp] lemma update_both_writer : Function.update (both p i g v) (.writer i) v' = both p i g v' :=
  Function.update_idem ..

@[simp] lemma update_both_gc : Function.update (both p i g v) .gc g' = both p i g' v := by
  rw [both, Function.update_comm (gc_ne_writer i).symm, Function.update_idem]
  rfl

variable {p i g v} in
/-- Naming the points of the two threads. -/
lemma both_eq (hgc : p .gc = g) (hi : p (.writer i) = v) : both p i g v = p := by
  rw [both, ← hgc, Function.update_eq_self, ← hi, Function.update_eq_self]

end Both

/-- The threads of a working drive. -/
abbrev onDrive (d : Drive B) (c : Config) (req : ι → Request B) :
    Machine (Thread ι) (World d) Cond Point :=
  process c faithful_exec req

/-- Some steps. -/
abbrev Steps (c : Config) (req : ι → Request B) :
    Threads ι (World d) → Threads ι (World d) → Prop :=
  Relation.ReflTransGen fun s s' => ∃ t, Step (onDrive d c req) t s s'

section Pass

variable {c : Config} {req : ι → Request B} {w : World d} {p : Points (Thread ι) Cond Point} {i : ι}

/-! ## One instruction -/

section Instr

variable {x : World d} {g g' : Status Cond GcPoint} {v v' : Status Cond WritePoint}
  {a b : GcPoint} {k l : WritePoint} {cv : Cond}

lemma Steps.gc
    (hs : Step (onDrive d c req) .gc ⟨w, both p i g v⟩ ⟨x, Function.update (both p i g v) .gc g'⟩) :
    Steps c req ⟨w, both p i g v⟩ ⟨x, both p i g' v⟩ := by
  rw [update_both_gc] at hs
  exact .single ⟨.gc, hs⟩

lemma Steps.writer
    (hs : Step (onDrive d c req) (.writer i) ⟨w, both p i g v⟩
      ⟨x, Function.update (both p i g v) (.writer i) v'⟩) :
    Steps c req ⟨w, both p i g v⟩ ⟨x, both p i g v'⟩ := by
  rw [update_both_writer] at hs
  exact .single ⟨.writer i, hs⟩

lemma Steps.gc_lock (hcode : (onDrive d c req).code .gc a = .lock b) (hm : w.ftl.gcMutex = false) :
    Steps c req ⟨w, both p i (.running a) v⟩ ⟨locked w, both p i (.running b) v⟩ :=
  .gc (.lock (both_gc p i (.running a) v) hcode hm)

lemma Steps.gc_wait (hcode : (onDrive d c req).code .gc a = .wait cv b) :
    Steps c req ⟨w, both p i (.running a) v⟩ ⟨unlocked w, both p i (.asleep cv b) v⟩ :=
  .gc (.wait (both_gc p i (.running a) v) hcode)

lemma Steps.gc_wake (hm : w.ftl.gcMutex = false) :
    Steps c req ⟨w, both p i (.woken a) v⟩ ⟨locked w, both p i (.running a) v⟩ :=
  .gc (.wake (both_gc p i (.woken a) v) hm)

lemma Steps.gc_act {result : World d → World d → GcPoint → Prop}
    (hcode : (onDrive d c req).code .gc a = .act result) (hx : result w x b) :
    Steps c req ⟨w, both p i (.running a) v⟩ ⟨x, both p i (.running b) v⟩ :=
  .gc (.act (both_gc p i (.running a) v) hcode hx)

lemma Steps.gc_signal (hcode : (onDrive d c req).code .gc a = .signal cv b) :
    Steps c req ⟨w, both p i (.running a) (.asleep cv l)⟩
      ⟨w, both p i (.running b) (.woken l)⟩ := by
  have hs : Step (onDrive d c req) .gc ⟨w, both p i (.running a) (.asleep cv l)⟩
      ⟨w, Function.update (Function.update (both p i (.running a) (.asleep cv l)) .gc (.running b))
        (.writer i) (.woken l)⟩ :=
    .signal (both_gc p i (.running a) (.asleep cv l)) hcode
      (both_writer p i (.running a) (.asleep cv l))
  rw [update_both_gc, update_both_writer] at hs
  exact .single ⟨.gc, hs⟩

lemma Steps.writer_lock (hcode : (onDrive d c req).code (.writer i) k = .lock l)
    (hm : w.ftl.gcMutex = false) :
    Steps c req ⟨w, both p i g (.running k)⟩ ⟨locked w, both p i g (.running l)⟩ :=
  .writer (.lock (both_writer p i g (.running k)) hcode hm)

lemma Steps.writer_wait (hcode : (onDrive d c req).code (.writer i) k = .wait cv l) :
    Steps c req ⟨w, both p i g (.running k)⟩ ⟨unlocked w, both p i g (.asleep cv l)⟩ :=
  .writer (.wait (both_writer p i g (.running k)) hcode)

lemma Steps.writer_wake (hm : w.ftl.gcMutex = false) :
    Steps c req ⟨w, both p i g (.woken k)⟩ ⟨locked w, both p i g (.running k)⟩ :=
  .writer (.wake (both_writer p i g (.woken k)) hm)

lemma Steps.writer_act {result : World d → World d → WritePoint → Prop}
    (hcode : (onDrive d c req).code (.writer i) k = .act result) (hx : result w x l) :
    Steps c req ⟨w, both p i g (.running k)⟩ ⟨x, both p i g (.running l)⟩ :=
  .writer (.act (both_writer p i g (.running k)) hcode hx)

lemma Steps.writer_await {ready : Points (Thread ι) Cond Point → Prop}
    (hcode : (onDrive d c req).code (.writer i) k = .await ready l)
    (hready : ready (both p i g (.running k))) :
    Steps c req ⟨w, both p i g (.running k)⟩ ⟨w, both p i g (.running l)⟩ :=
  .writer (.await (both_writer p i g (.running k)) hcode hready)

lemma Steps.writer_signal (hcode : (onDrive d c req).code (.writer i) k = .signal cv l) :
    Steps c req ⟨w, both p i (.asleep cv b) (.running k)⟩
      ⟨w, both p i (.woken b) (.running l)⟩ := by
  have hs : Step (onDrive d c req) (.writer i) ⟨w, both p i (.asleep cv b) (.running k)⟩
      ⟨w, Function.update (Function.update (both p i (.asleep cv b) (.running k)) (.writer i)
        (.running l)) .gc (.woken b)⟩ :=
    .signal (both_writer p i (.asleep cv b) (.running k)) hcode
      (both_gc p i (.asleep cv b) (.running k))
  rw [update_both_writer, update_both_gc] at hs
  exact .single ⟨.writer i, hs⟩

/-- A signal that is lost: the collector is not asleep. -/
lemma Steps.writer_lost (hcode : (onDrive d c req).code (.writer i) k = .signal cv l)
    (hnone : ∀ u pc, both p i g (.running k) u ≠ .asleep cv pc) :
    Steps c req ⟨w, both p i g (.running k)⟩ ⟨w, both p i g (.running l)⟩ :=
  .writer (.lost (both_writer p i g (.running k)) hcode hnone)

end Instr

/-! ## The collector -/

section Collector

variable {g : Status Cond GcPoint} {v : Status Cond WritePoint}

/-- The collector, with nothing to do, goes to sleep. -/
lemma steps_gc_sleeps (hm : w.ftl.gcMutex = false) (htrigger : w.ftl.triggerMyGc = false)
    (hstop : w.ftl.gcThreadStop = false) :
    Steps c req ⟨w, both p i (.running .locking) v⟩
      ⟨w, both p i (.asleep .startGc .testing) v⟩ := by
  have hlock : Steps c req ⟨w, both p i (.running .locking) v⟩
      ⟨locked w, both p i (.running .testing) v⟩ :=
    .gc_lock rfl hm
  have htest : Steps c req ⟨locked w, both p i (.running .testing) v⟩
      ⟨locked w, both p i (.running .waiting) v⟩ := by
    refine .gc_act rfl ⟨rfl, ?_⟩
    simp only [run_getFtl, locked, hstop, htrigger]
    rfl
  have hwait : Steps c req ⟨locked w, both p i (.running .waiting) v⟩
      ⟨unlocked (locked w), both p i (.asleep .startGc .testing) v⟩ :=
    .gc_wait rfl
  rw [unlocked_locked hm] at hwait
  exact (hlock.trans htest).trans hwait

/-- **A pass** of the collector that has been woken, and that wakes writer `i` at its end. -/
lemma steps_gc_pass (hm : w.ftl.gcMutex = false) (htrigger : w.ftl.triggerMyGc = true)
    (hstop : w.ftl.gcThreadStop = false) (ord : HashOrder) :
    Steps c req ⟨w, both p i (.woken .testing) (.asleep .stopGc .testing)⟩
      ⟨unlocked ((triggerGc c ord : Prog B Unit).run exec (locked w)).2,
        both p i (.asleep .startGc .testing) (.woken .testing)⟩ := by
  obtain ⟨w', hw'⟩ : ∃ w', ((triggerGc c ord : Prog B Unit).run exec (locked w)).2 = w' := ⟨_, rfl⟩
  have hstop' : w'.ftl.gcThreadStop = false := by
    rw [← hw']
    exact Keeps.triggerGc (P := fun m => m.gcThreadStop = false) faithful_exec (fun _ _ _ _ hm => hm)
      (fun _ hm => hm) c ord (locked w) hstop
  have htrigger' : w'.ftl.triggerMyGc = false := by
    rw [← hw']
    exact mem_triggerGc_trigger faithful_exec c ord (locked w)
  have hwake : Steps c req ⟨w, both p i (.woken .testing) (.asleep .stopGc .testing)⟩
      ⟨locked w, both p i (.running .testing) (.asleep .stopGc .testing)⟩ :=
    .gc_wake hm
  have htest : Steps c req ⟨locked w, both p i (.running .testing) (.asleep .stopGc .testing)⟩
      ⟨locked w, both p i (.running .checking) (.asleep .stopGc .testing)⟩ := by
    refine .gc_act rfl ⟨rfl, ?_⟩
    simp only [run_getFtl, locked, hstop, htrigger]
    rfl
  have hcheck : Steps c req ⟨locked w, both p i (.running .checking) (.asleep .stopGc .testing)⟩
      ⟨locked w, both p i (.running .collecting) (.asleep .stopGc .testing)⟩ := by
    refine .gc_act rfl ⟨rfl, ?_⟩
    simp only [run_getFtl, locked, hstop]
    rfl
  have hcollect : Steps c req
      ⟨locked w, both p i (.running .collecting) (.asleep .stopGc .testing)⟩
      ⟨w', both p i (.running .signalling) (.asleep .stopGc .testing)⟩ :=
    .gc_act rfl ⟨ord, hw'.symm, rfl⟩
  have hsignal : Steps c req ⟨w', both p i (.running .signalling) (.asleep .stopGc .testing)⟩
      ⟨w', both p i (.running .unlocking) (.woken .testing)⟩ :=
    .gc_signal rfl
  have hunlock : Steps c req ⟨w', both p i (.running .unlocking) (.woken .testing)⟩
      ⟨unlocked w', both p i (.running .locking) (.woken .testing)⟩ :=
    .gc_act rfl ⟨rfl, rfl⟩
  rw [hw']
  exact (((((hwake.trans htest).trans hcheck).trans hcollect).trans hsignal).trans hunlock).trans
    (steps_gc_sleeps rfl htrigger' hstop')

end Collector

/-! ## The writer -/

section Writer

variable {g : Status Cond GcPoint}

/-- A call with a size that is no multiple of the block size. -/
lemma steps_writer_refused (hdeinit : p .deinit = .running .idle)
    (halign : (req i).size % c.lbaSizeBytes ≠ 0) :
    Steps c req ⟨w, both p i g (.running .idle)⟩
      ⟨w, both p i g (.running (.returned (-1)))⟩ := by
  have hcode : (onDrive d c req).code (.writer i) .idle
      = .await (fun s => s .deinit = .running .idle) (.returned (-1)) :=
    congrArg (Instr.await _) (if_pos halign)
  exact .writer_await hcode ((both_deinit p i g _).trans hdeinit)

/-- Any other call comes to its loop when the mutex is free. -/
lemma steps_writer_starts (hdeinit : p .deinit = .running .idle)
    (halign : (req i).size % c.lbaSizeBytes = 0) (hm : w.ftl.gcMutex = false) :
    Steps c req ⟨w, both p i g (.running .idle)⟩ ⟨locked w, both p i g (.running .testing)⟩ := by
  have hcall : Steps c req ⟨w, both p i g (.running .idle)⟩
      ⟨w, both p i g (.running .locking)⟩ := by
    have hcode : (onDrive d c req).code (.writer i) .idle
        = .await (fun s => s .deinit = .running .idle) .locking :=
      congrArg (Instr.await _) (if_neg (not_not.mpr halign))
    exact .writer_await hcode ((both_deinit p i g _).trans hdeinit)
  have hlock : Steps c req ⟨w, both p i g (.running .locking)⟩
      ⟨locked w, both p i g (.running .testing)⟩ :=
    .writer_lock rfl hm
  exact hcall.trans hlock

/-- With room in the log it leaves the loop. -/
lemma steps_writer_passes
    (hroom : c.gcWatermark < freeZoneNumber c w.ftl (toI32 ((req i).size / c.lbaSizeBytes : ℕ))) :
    Steps c req ⟨w, both p i g (.running .testing)⟩ ⟨w, both p i g (.running .writing)⟩ := by
  refine .writer_act rfl ⟨rfl, ?_⟩
  simp only [run_getFtl, Nat.not_le.mpr hroom, if_false]

/-- Without, it asks for a pass … -/
lemma steps_writer_asks
    (hfull : freeZoneNumber c w.ftl (toI32 ((req i).size / c.lbaSizeBytes : ℕ)) ≤ c.gcWatermark) :
    Steps c req ⟨w, both p i g (.running .testing)⟩
      ⟨asked w, both p i g (.running .signalling)⟩ := by
  have htest : Steps c req ⟨w, both p i g (.running .testing)⟩
      ⟨w, both p i g (.running .triggering)⟩ := by
    refine .writer_act rfl ⟨rfl, ?_⟩
    simp only [run_getFtl, hfull, if_true]
  have htrigger : Steps c req ⟨w, both p i g (.running .triggering)⟩
      ⟨asked w, both p i g (.running .signalling)⟩ :=
    .writer_act rfl ⟨rfl, rfl⟩
  exact htest.trans htrigger

/-- … wakes the collector, and sleeps … -/
lemma steps_writer_sleeps
    (hfull : freeZoneNumber c w.ftl (toI32 ((req i).size / c.lbaSizeBytes : ℕ)) ≤ c.gcWatermark) :
    Steps c req ⟨w, both p i (.asleep .startGc .testing) (.running .testing)⟩
      ⟨unlocked (asked w), both p i (.woken .testing) (.asleep .stopGc .testing)⟩ := by
  have hsignal : Steps c req ⟨asked w, both p i (.asleep .startGc .testing) (.running .signalling)⟩
      ⟨asked w, both p i (.woken .testing) (.running .waiting)⟩ :=
    .writer_signal rfl
  have hwait : Steps c req ⟨asked w, both p i (.woken .testing) (.running .waiting)⟩
      ⟨unlocked (asked w), both p i (.woken .testing) (.asleep .stopGc .testing)⟩ :=
    .writer_wait rfl
  exact ((steps_writer_asks hfull).trans hsignal).trans hwait

/-- … or just sleeps, if the collector has been woken already. -/
lemma steps_writer_sleeps_too {a : GcPoint}
    (hnone : ∀ u pc, u ≠ .gc → u ≠ .writer i → p u ≠ .asleep .startGc pc)
    (hfull : freeZoneNumber c w.ftl (toI32 ((req i).size / c.lbaSizeBytes : ℕ)) ≤ c.gcWatermark) :
    Steps c req ⟨w, both p i (.woken a) (.running .testing)⟩
      ⟨unlocked (asked w), both p i (.woken a) (.asleep .stopGc .testing)⟩ := by
  have hlost : Steps c req ⟨asked w, both p i (.woken a) (.running .signalling)⟩
      ⟨asked w, both p i (.woken a) (.running .waiting)⟩ := by
    refine .writer_lost rfl fun u pc hpc => ?_
    by_cases hgc : u = .gc
    · subst hgc
      rw [both_gc] at hpc
      cases hpc
    · by_cases hi : u = .writer i
      · subst hi
        rw [both_writer] at hpc
        cases hpc
      · rw [both_of_ne _ _ _ _ hgc hi] at hpc
        exact hnone u pc hgc hi hpc
  have hwait : Steps c req ⟨asked w, both p i (.woken a) (.running .waiting)⟩
      ⟨unlocked (asked w), both p i (.woken a) (.asleep .stopGc .testing)⟩ :=
    .writer_wait rfl
  exact ((steps_writer_asks hfull).trans hlost).trans hwait

/-- It gets the mutex again when it has been woken. -/
lemma steps_writer_wakes (hm : w.ftl.gcMutex = false) :
    Steps c req ⟨w, both p i g (.woken .testing)⟩ ⟨locked w, both p i g (.running .testing)⟩ :=
  .writer_wake hm

/-- The body. -/
lemma steps_writer_writes :
    let r := (writeBody c (req i).address (req i).size (req i).buf).run exec w
    Steps c req ⟨w, both p i g (.running .writing)⟩ ⟨r.2, both p i g (.running (.returned r.1))⟩ :=
  .writer_act rfl ⟨rfl, rfl⟩

end Writer

/-! ## The call -/

/-- **The watermark loop**, with the collections it is granted. -/
lemma steps_watermarkLoop {w₁ : World d} :
    ∀ {passes : List HashOrder} {w : World d}, w.ftl.gcMutex = true → w.ftl.gcThreadStop = false →
      (watermarkLoop c ((req i).size / c.lbaSizeBytes) passes : Prog B Bool).run exec w
        = (true, w₁) →
      Steps c req ⟨w, both p i (.asleep .startGc .testing) (.running .testing)⟩
        ⟨w₁, both p i (.asleep .startGc .testing) (.running .writing)⟩
  | [], w, hm, hstop, hrun => by
      rcases Nat.lt_or_ge c.gcWatermark
        (freeZoneNumber c w.ftl (toI32 ((req i).size / c.lbaSizeBytes : ℕ))) with hroom | hfull
      · rw [watermarkLoop_left hroom] at hrun
        cases hrun
        exact steps_writer_passes hroom
      · rw [watermarkLoop_nil hfull] at hrun
        cases hrun
  | ord :: passes, w, hm, hstop, hrun => by
      rcases Nat.lt_or_ge c.gcWatermark
        (freeZoneNumber c w.ftl (toI32 ((req i).size / c.lbaSizeBytes : ℕ))) with hroom | hfull
      · rw [watermarkLoop_left hroom] at hrun
        cases hrun
        exact steps_writer_passes hroom
      · rw [watermarkLoop_pass hfull] at hrun
        -- the mutex goes to the collector and comes back
        obtain ⟨w', hw'⟩ : ∃ w', ((triggerGc c ord : Prog B Unit).run exec (asked w)).2 = w' :=
          ⟨_, rfl⟩
        have hm' : w'.ftl.gcMutex = true := by
          rw [← hw', mem_triggerGc_mutex faithful_exec c ord (asked w)]
          exact hm
        have hstop' : w'.ftl.gcThreadStop = false := by
          rw [← hw']
          exact Keeps.triggerGc (P := fun m => m.gcThreadStop = false) faithful_exec
            (fun _ _ _ _ hm => hm) (fun _ hm => hm) c ord (asked w) hstop
        have hsleep : Steps c req ⟨w, both p i (.asleep .startGc .testing) (.running .testing)⟩
            ⟨unlocked (asked w), both p i (.woken .testing) (.asleep .stopGc .testing)⟩ :=
          steps_writer_sleeps hfull
        have hpass : Steps c req
            ⟨unlocked (asked w), both p i (.woken .testing) (.asleep .stopGc .testing)⟩
            ⟨unlocked w', both p i (.asleep .startGc .testing) (.woken .testing)⟩ := by
          have h : Steps c req
              ⟨unlocked (asked w), both p i (.woken .testing) (.asleep .stopGc .testing)⟩ _ :=
            steps_gc_pass rfl rfl (show (unlocked (asked w)).ftl.gcThreadStop = false from hstop) ord
          rw [locked_unlocked, locked_of_held (w := asked w) hm, hw'] at h
          exact h
        have hwake : Steps c req ⟨unlocked w', both p i (.asleep .startGc .testing) (.woken .testing)⟩
            ⟨w', both p i (.asleep .startGc .testing) (.running .testing)⟩ := by
          have h : Steps c req
              ⟨unlocked w', both p i (.asleep .startGc .testing) (.woken .testing)⟩ _ :=
            steps_writer_wakes rfl
          rw [locked_unlocked, locked_of_held hm'] at h
          exact h
        rw [hw'] at hrun
        exact ((hsleep.trans hpass).trans hwake).trans (steps_watermarkLoop hm' hstop' hrun)

/-- **A call on its own** ends as in the sequential model. -/
theorem steps_znsUdeviceWrite {passes : List HashOrder} {r : ℤ} {w' : World d}
    (hdeinit : p .deinit = .running .idle) (hstop : w.ftl.gcThreadStop = false)
    (hrun : (znsUdeviceWrite c passes (req i).address (req i).size (req i).buf).run exec w
      = (some r, w')) :
    Steps c req ⟨w, both p i (.asleep .startGc .testing) (.running .idle)⟩
      ⟨w', both p i (.asleep .startGc .testing) (.running (.returned r))⟩ := by
  by_cases halign : (req i).size % c.lbaSizeBytes = 0
  · cases hm : w.ftl.gcMutex with
    | true =>
        rw [znsUdeviceWrite_blocked halign hm] at hrun
        cases hrun
    | false =>
        rw [znsUdeviceWrite_locked halign hm] at hrun
        split at hrun
        case isTrue hleft =>
          cases hrun
          exact ((steps_writer_starts hdeinit halign hm).trans
            (steps_watermarkLoop rfl hstop (Prod.ext hleft rfl))).trans steps_writer_writes
        case isFalse => cases hrun
  · rw [znsUdeviceWrite, if_pos halign] at hrun
    cases hrun
    exact steps_writer_refused hdeinit halign

end Pass

end StoSys
