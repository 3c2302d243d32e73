import StoSys.Ftl.Schedules
import StoSys.Properties.ReadYourWrites

/-!
# Writers asleep on `stop_gc`

The collector signals `stop_gc` once a pass, and a signal wakes one writer.  Two writers that are
asleep at the same time have asked for one pass between them: one of them is woken, the other is
not, and nobody will wake it unless another writer runs out of space.

So a run leaves no writer asleep as long as no writer goes to sleep beside another one.  Once one
has done so there is a wake-up short for good: in every later state in which nothing is under way,
some writer is asleep.
-/

namespace StoSys

open Effect HashMap Zoned CInt Monitor Transitions

variable {B σ ι : Type}

/-- Writer `i` is asleep on `stop_gc`. -/
def Asleep (s : Threads ι σ) (i : ι) : Prop := ∃ pc, s.thread (.writer i) = .asleep .stopGc pc

/-- Nothing is under way: no pass has been asked for, the collector sleeps, and so does every writer
that has not returned. -/
structure Quiet (mem : σ → Ftl) (s : Threads ι σ) : Prop where
  triggerMyGc : (mem s.shared).triggerMyGc = false
  gc : ∃ pc, s.thread .gc = .asleep .startGc pc
  writer : ∀ i, Inactive s.thread i ∨ Asleep s i

/-- A writer sleeps, and there is nobody to wake it. -/
def Stranded (mem : σ → Ftl) (s : Threads ι σ) : Prop := Quiet mem s ∧ ∃ i, Asleep s i

/-- The step is not a writer going to sleep beside another one. -/
def SleepsAlone (s : Threads ι σ) (t : Thread ι) : Prop :=
  ∀ i j, t = .writer i → s.thread (.writer i) = .running .waiting → ¬ Asleep s j

section Process

variable [Zero B] [DecidableEq ι] {h : Handler (Op B) Op.Res σ} {mem : σ → Ftl}
  {hh : Faithful h mem} {c : Config} {req : ι → Request B} {s s' : Threads ι σ} {t : Thread ι}

/-- A writer that is asleep was so before, or has just waited. -/
lemma asleep_step (hs : Step (process c hh req) t s s') {i : ι} (ha : Asleep s' i) :
    Asleep s i ∨ t = .writer i ∧ s.thread (.writer i) = .running .waiting := by
  obtain ⟨pc, hpc⟩ := ha
  by_cases ht : Thread.writer i = t
  · subst ht
    rcases hs.self with ⟨pc', heq⟩ | ⟨pc', cv, next, hrun, hcode, heq⟩
    · rw [heq] at hpc
      cases hpc
    · cases pc' with
      | waiting => exact Or.inr ⟨rfl, hrun⟩
      | _ => cases hcode
  · rcases hs.other ht with heq | ⟨cv, pc', -, heq, -⟩
    · rw [heq] at hpc
      exact Or.inl ⟨pc, hpc⟩
    · rw [heq] at hpc
      cases hpc

/-- The collector signals `stop_gc`: a writer wakes up, if one is asleep. -/
lemma signal_step (hs : Step (process c hh req) t s s')
    (hv : Valid (process c hh req) holding (fun t pc x => flags t pc (mem x)) s)
    (hpc : s.thread .gc = .running .signalling) :
    s'.thread .gc = .running .signalling ∨
      (∃ i, Asleep s i ∧ ¬ Asleep s' i) ∨ ∀ i, ¬ Asleep s i := by
  by_cases ht : t = .gc
  · subst ht
    right
    rcases (hs.of_signal hpc rfl).2 with ⟨u, pc', hu, hwoken, -⟩ | ⟨hnone, -⟩
    · obtain ⟨i, rfl⟩ := asleep_stopGc hv hu
      refine Or.inl ⟨i, ⟨pc', hu⟩, ?_⟩
      rintro ⟨pc'', hpc''⟩
      rw [hwoken] at hpc''
      cases hpc''
    · exact Or.inr fun i ⟨pc', ha⟩ => hnone _ pc' ha
  · rcases hs.other (Ne.symm ht) with heq | ⟨cv, pc, hold, -⟩
    · exact Or.inl (heq.trans hpc)
    · cases hpc.symm.trans hold

/-! ## One at a time -/

/-- At most one writer is asleep, and its pass or its wake-up is still to come. -/
structure Attended (mem : σ → Ftl) (s : Threads ι σ) : Prop where
  unique : ∀ {i j}, Asleep s i → Asleep s j → i = j
  served : ∀ {i}, Asleep s i →
    (mem s.shared).triggerMyGc = true ∨ s.thread .gc = .running .signalling

lemma Attended.step (hv : Valid (process c hh req) holding (fun t pc x => flags t pc (mem x)) s)
    (ha : Attended mem s) (halone : SleepsAlone s t) (hs : Step (process c hh req) t s s') :
    Attended mem s' where
  unique {i j} hi hj := by
    rcases asleep_step hs hi with hi | ⟨rfl, hi⟩
    · rcases asleep_step hs hj with hj | ⟨rfl, hj⟩
      · exact ha.unique hi hj
      · exact absurd hi (halone j i rfl hj)
    · rcases asleep_step hs hj with hj | ⟨hj, -⟩
      · exact absurd hj (halone i j rfl hi)
      · exact Thread.writer.inj hj
  served {i} hi := by
    have hbefore : (mem s.shared).triggerMyGc = true ∨ s.thread .gc = .running .signalling := by
      rcases asleep_step hs hi with hold | ⟨-, hwaiting⟩
      · exact ha.served hold
      · exact Or.inl (hv.holds hwaiting rfl)
    rcases hbefore with htrigger | hsignalling
    · rcases trigger_step hs with heq | ⟨-, -, -, hset⟩ | ⟨-, -, hgc⟩
      · exact Or.inl (heq.trans htrigger)
      · exact Or.inl hset
      · exact Or.inr hgc
    · rcases signal_step hs hv hsignalling with hgc | ⟨j, hj, hwoken⟩ | hnone
      · exact Or.inr hgc
      · -- the writer that was woken is the only one there is
        rcases asleep_step hs hi with hold | ⟨rfl, hwaiting⟩
        · exact absurd (ha.unique hold hj ▸ hi) hwoken
        · exact absurd hj (halone i j rfl hwaiting)
      · rcases asleep_step hs hi with hold | ⟨rfl, hwaiting⟩
        · exact absurd hold (hnone i)
        · have hone := hv.unique (t := .writer i) ⟨_, hwaiting, rfl⟩ ⟨_, hsignalling, rfl⟩
          cases hone

/-! ## A wake-up short -/

/-- Writer `i` has asked for a pass, and has not been woken since. -/
def Committed (s : Threads ι σ) (i : ι) : Prop :=
  s.thread (.writer i) = .running .signalling ∨ s.thread (.writer i) = .running .waiting ∨
    Asleep s i

/-- There are more writers that wait to be woken than there will be signals for them. -/
def Short (mem : σ → Ftl) (s : Threads ι σ) : Prop :=
  (∃ i, Committed s i ∧ (mem s.shared).triggerMyGc = false ∧ s.thread .gc ≠ .running .signalling) ∨
    ∃ i j, i ≠ j ∧ Committed s i ∧ Committed s j

omit [Zero B] [DecidableEq ι] in
lemma Committed.congr {i : ι} (hi : Committed s i)
    (heq : s'.thread (.writer i) = s.thread (.writer i)) : Committed s' i := by
  unfold Committed Asleep at hi ⊢
  rw [heq]
  exact hi

/-- Only a signal of the collector ends the wait. -/
lemma committed_step (hs : Step (process c hh req) t s s')
    (hv : Valid (process c hh req) holding (fun t pc x => flags t pc (mem x)) s) {i : ι}
    (hi : Committed s i) :
    Committed s' i ∨ t = .gc ∧ s.thread .gc = .running .signalling := by
  by_cases ht : Thread.writer i = t
  · subst ht
    left
    rcases hi with hsignalling | hwaiting | ⟨pc, hasleep⟩
    · exact Or.inr (Or.inl (hs.of_signal hsignalling rfl).1)
    · exact Or.inr (Or.inr ⟨_, hs.of_wait hwaiting rfl⟩)
    · exact absurd hasleep hs.not_asleep
  · rcases hs.other ht with heq | ⟨cv, pc, hold, -, pc', next, hrun, hcode⟩
    · exact Or.inl (hi.congr heq)
    · -- the writer sleeps on `stop_gc`, which nobody else signals
      obtain ⟨pc₀, hwait⟩ := hv.slept hold
      cases pc₀ <;> cases hwait
      cases t with
      | gc =>
          cases pc' <;> cases hcode
          exact Or.inr ⟨rfl, hrun⟩
      | _ => cases pc' <;> cases hcode

/-- **Once short, always short.** -/
lemma Short.step (hv : Valid (process c hh req) holding (fun t pc x => flags t pc (mem x)) s)
    (hshort : Short mem s) (hs : Step (process c hh req) t s s') : Short mem s' := by
  by_cases hgc : t = .gc ∧ s.thread .gc = .running .signalling
  · -- the collector wakes one writer of two
    obtain ⟨rfl, hpc⟩ := hgc
    obtain ⟨hnext, hwoken⟩ := hs.of_signal hpc rfl
    have htrigger : (mem s'.shared).triggerMyGc = false := by
      rcases trigger_step hs with heq | ⟨i, hi, -, -⟩ | ⟨-, hcollecting, -⟩
      · exact heq.trans (hv.holds hpc rfl)
      · cases hv.unique (t := .gc) ⟨_, hpc, rfl⟩ ⟨_, hi, rfl⟩
      · cases hpc.symm.trans hcollecting
    have hmoved : s'.thread .gc ≠ .running .signalling := by
      rw [hnext]
      nofun
    rcases hshort with ⟨i, -, -, hno⟩ | ⟨i, j, hij, hi, hj⟩
    · exact absurd hpc hno
    · left
      rcases hwoken with ⟨u, pc', -, -, hothers⟩ | ⟨-, hothers⟩
      · by_cases hu : Thread.writer i = u
        · refine ⟨j, hj.congr (hothers _ nofun ?_), htrigger, hmoved⟩
          rintro rfl
          exact hij (Thread.writer.inj hu)
        · exact ⟨i, hi.congr (hothers _ nofun hu), htrigger, hmoved⟩
      · exact ⟨i, hi.congr (hothers _ nofun), htrigger, hmoved⟩
  · have hkeep : ∀ {i}, Committed s i → Committed s' i := fun hi =>
      (committed_step hs hv hi).resolve_right hgc
    rcases hshort with ⟨i, hi, htrigger, hno⟩ | ⟨i, j, hij, hi, hj⟩
    · rcases trigger_step hs with heq | ⟨j, hj, hnext, -⟩ | ⟨-, hcollecting, -⟩
      · refine Or.inl ⟨i, hkeep hi, heq.trans htrigger, fun hsignalling => ?_⟩
        rcases signalling_step hv hs hsignalling with hold | hcollecting
        · exact hno hold
        · cases htrigger.symm.trans (hv.holds hcollecting rfl)
      · -- another writer asks for the next pass
        refine Or.inr ⟨i, j, ?_, hkeep hi, Or.inl hnext⟩
        rintro rfl
        rcases hi with hpc | hpc | ⟨pc, hpc⟩
        · cases hj.symm.trans hpc
        · cases hj.symm.trans hpc
        · cases hj.symm.trans hpc
      · cases htrigger.symm.trans (hv.holds hcollecting rfl)
    · exact Or.inr ⟨i, j, hij, hkeep hi, hkeep hj⟩

/-- A writer that goes to sleep beside another one. -/
lemma Short.of_not_alone (hv : Valid (process c hh req) holding (fun t pc x => flags t pc (mem x)) s)
    (hnot : ¬ SleepsAlone s t) (hs : Step (process c hh req) t s s') : Short mem s' := by
  unfold SleepsAlone at hnot
  push Not at hnot
  obtain ⟨i, j, rfl, hi, hj⟩ := hnot
  refine Or.inr ⟨i, j, ?_, Or.inr (Or.inr ⟨_, hs.of_wait hi rfl⟩), ?_⟩
  · rintro rfl
    obtain ⟨pc, hpc⟩ := hj
    cases hi.symm.trans hpc
  · rcases committed_step hs hv (Or.inr (Or.inr hj)) with hkept | ⟨hgc, -⟩
    · exact hkept
    · cases hgc

omit [Zero B] [DecidableEq ι] in
/-- At rest, a wake-up short is a writer asleep. -/
lemma Short.stranded (hshort : Short mem s) (hquiet : Quiet mem s) : Stranded mem s := by
  obtain ⟨i, hi⟩ : ∃ i, Committed s i := by
    rcases hshort with ⟨i, hi, -⟩ | ⟨i, -, -, hi, -⟩
    · exact ⟨i, hi⟩
    · exact ⟨i, hi⟩
  refine ⟨hquiet, i, (hquiet.writer i).resolve_left fun hinactive => ?_⟩
  rcases hinactive with hidle | ⟨ret, hret⟩
  · rcases hi with hpc | hpc | ⟨pc, hpc⟩ <;> cases hidle.symm.trans hpc
  · rcases hi with hpc | hpc | ⟨pc, hpc⟩ <;> cases hret.symm.trans hpc

omit [Zero B] [DecidableEq ι] in
lemma Attended.start (ho : Opened mem s) : Attended mem s := by
  have hnone : ∀ {i}, ¬ Asleep s i := by
    rintro i ⟨pc, hpc⟩
    cases (ho.writer i).symm.trans hpc
  exact ⟨fun hi => absurd hi hnone, fun hi => absurd hi hnone⟩

omit [Zero B] [DecidableEq ι] in
lemma Attended.not_stranded (ha : Attended mem s) : ¬ Stranded mem s := by
  rintro ⟨hquiet, i, hi⟩
  rcases ha.served hi with htrigger | hsignalling
  · cases hquiet.triggerMyGc.symm.trans htrigger
  · obtain ⟨pc, hpc⟩ := hquiet.gc
    cases hpc.symm.trans hsignalling

/-- **Sleeping writers.**  In any environment, for any calls and in every run: a writer is left
asleep exactly if nothing is under way any more and at some point a writer went to sleep beside
another one. -/
theorem stranded_iff {ι σ : Type} [DecidableEq ι] (h : Handler (Op B) Op.Res σ) (mem : σ → Ftl)
    (hh : Faithful h mem) (c : Config) (req : ι → Request B)
    (tr : List (Threads ι σ × Thread ι)) (s : Threads ι σ) (hr : Schedule hh c req tr s) :
    Stranded mem s ↔ Quiet mem s ∧ ∃ x ∈ tr, ¬ SleepsAlone x.1 x.2 := by
  have hvalid := fun {tr s} (hr : Schedule hh c req tr s) => hr.valid
  refine ⟨fun hstranded => ⟨hstranded.1, ?_⟩, fun ⟨hquiet, hbad⟩ => Short.stranded ?_ hquiet⟩
  · by_contra hno
    push Not at hno
    have hattended : Attended mem s := hr.guarded hvalid (fun _ => .start)
      (fun hv ha halone hs => ha.step hv halone hs) hno
    exact hattended.not_stranded hstranded
  · exact hr.since hvalid (fun hv hnot hs => .of_not_alone hv hnot hs)
      (fun hv hshort hs => hshort.step hv hs) hbad

end Process

/-! ## A run with a pass -/

/-- Three calls on the small drive, for the blocks `4`, `0` and `4`. -/
def blockCalls (i : Fin 3) : Request UInt8 where
  address := (if i = 1 then 0 else 4) * 4096
  size := 4096
  buf _ := 7 + i.val.toUInt8

/-- The threads on a fresh drive. -/
def freshStart : Threads (Fin 3) (World smallDrive.drive) := ⟨fresh smallDrive, startPoints⟩

lemma opened_freshStart : Opened World.ftl freshStart :=
  ⟨fun _ => rfl, rfl, rfl, rfl, rfl, rfl⟩

/-- The `i`-th call, on its own. -/
def blockCalled (i : Fin 3) (passes : List HashOrder) (w : World smallDrive.drive) :
    World smallDrive.drive :=
  ((znsUdeviceWrite smallDrive.config passes (blockCalls i).address (blockCalls i).size
    (blockCalls i).buf).run exec w).2

/-- Two of them fill the log up to the watermark. -/
def twoCalled : World smallDrive.drive := blockCalled 1 [] (blockCalled 0 [] (fresh smallDrive))

/-- The points of the threads then, the collector asleep. -/
def twoReturned : Points (Thread (Fin 3)) Cond Point :=
  both (both startPoints 0 (.asleep .startGc .testing) (.running (.returned 0))) 1
    (.asleep .startGc .testing) (.running (.returned 0))

lemma steps_to_two :
    Steps smallDrive.config blockCalls freshStart ⟨twoCalled, twoReturned⟩ := by
  let p₀ : Points (Thread (Fin 3)) Cond Point :=
    both startPoints 0 (.asleep .startGc .testing) (.running .idle)
  have hsleep : Steps smallDrive.config blockCalls freshStart ⟨fresh smallDrive, p₀⟩ := by
    have hp : both startPoints (0 : Fin 3) (.running .locking) (.running .idle) = startPoints :=
      both_eq rfl rfl
    have h : Steps smallDrive.config blockCalls
        ⟨fresh smallDrive, both startPoints 0 (.running .locking) (.running .idle)⟩
        ⟨fresh smallDrive, p₀⟩ :=
      steps_gc_sleeps rfl rfl rfl
    rw [hp] at h
    exact h
  have hreturn : ∀ (i : Fin 3) (w : World smallDrive.drive),
      ((znsUdeviceWrite smallDrive.config [] (blockCalls i).address (blockCalls i).size
        (blockCalls i).buf).run exec w).1 = some 0 →
      (znsUdeviceWrite smallDrive.config [] (blockCalls i).address (blockCalls i).size
        (blockCalls i).buf).run exec w = (some 0, blockCalled i [] w) :=
    fun _ _ h => Prod.ext h rfl
  have hfirst : Steps smallDrive.config blockCalls ⟨fresh smallDrive, p₀⟩
      ⟨blockCalled 0 [] (fresh smallDrive), both startPoints 0 (.asleep .startGc .testing)
        (.running (.returned 0))⟩ :=
    steps_znsUdeviceWrite rfl rfl (hreturn 0 _ (by decide +kernel))
  have hp : both (both startPoints (0 : Fin 3) (.asleep .startGc .testing)
      (.running (.returned 0))) 1 (.asleep .startGc .testing) (.running .idle)
        = both startPoints 0 (.asleep .startGc .testing) (.running (.returned 0)) :=
    both_eq rfl rfl
  have hsecond : Steps smallDrive.config blockCalls
      ⟨blockCalled 0 [] (fresh smallDrive), both (both startPoints 0 (.asleep .startGc .testing)
        (.running (.returned 0))) 1 (.asleep .startGc .testing) (.running .idle)⟩
      ⟨twoCalled, twoReturned⟩ :=
    steps_znsUdeviceWrite rfl (by decide +kernel) (hreturn 1 _ (by decide +kernel))
  rw [hp] at hsecond
  exact (hsleep.trans hfirst).trans hsecond

lemma both_twoReturned :
    both twoReturned 2 (.asleep .startGc .testing) (.running .idle) = twoReturned :=
  both_eq rfl rfl

/-- The third call wakes the collector, sleeps through a pass, and comes to its body. -/
lemma steps_to_body :
    Steps smallDrive.config blockCalls freshStart
      ⟨((watermarkLoop smallDrive.config 1 [HashOrder.stored] : Prog UInt8 Bool).run exec
        (locked twoCalled)).2,
      both twoReturned 2 (.asleep .startGc .testing) (.running .writing)⟩ := by
  have hstarts : Steps smallDrive.config blockCalls
      ⟨twoCalled, both twoReturned 2 (.asleep .startGc .testing) (.running .idle)⟩
      ⟨locked twoCalled, both twoReturned 2 (.asleep .startGc .testing) (.running .testing)⟩ :=
    steps_writer_starts rfl (by decide) (by decide +kernel)
  rw [both_twoReturned] at hstarts
  refine (steps_to_two.trans hstarts).trans (steps_watermarkLoop rfl (by decide +kernel)
    (Prod.ext (by decide +kernel) rfl))

/-- … and returns. -/
lemma steps_to_return :
    Steps smallDrive.config blockCalls freshStart
      ⟨blockCalled 2 [HashOrder.stored] twoCalled,
      both twoReturned 2 (.asleep .startGc .testing) (.running (.returned 0))⟩ := by
  have hthird : Steps smallDrive.config blockCalls
      ⟨twoCalled, both twoReturned 2 (.asleep .startGc .testing) (.running .idle)⟩
      ⟨blockCalled 2 [HashOrder.stored] twoCalled,
        both twoReturned 2 (.asleep .startGc .testing) (.running (.returned 0))⟩ :=
    steps_znsUdeviceWrite rfl (by decide +kernel)
      (show _ = (some 0, blockCalled 2 [HashOrder.stored] twoCalled) from
        Prod.ext (by decide +kernel) rfl)
  rw [both_twoReturned] at hthird
  exact steps_to_two.trans hthird

lemma returned_all (i : Fin 3) :
    both twoReturned 2 (.asleep .startGc .testing) (.running (.returned 0)) (.writer i)
      = .running (.returned 0) := by
  match i with
  | 0 => rfl
  | 1 => rfl
  | 2 => rfl

/-- Of three calls the last has to sleep; it is woken, so it has slept beside nobody. -/
theorem lone_writer_not_stranded :
    ∃ tr s, Schedule (faithful_exec (d := smallDrive.drive)) smallDrive.config blockCalls tr s ∧
      (∀ i, s.thread (.writer i) = .running (.returned 0)) ∧ s.shared.ftl.logZoneEnd = 1 ∧
      ∀ x ∈ tr, SleepsAlone x.1 x.2 := by
  obtain ⟨tr, hr⟩ := Run.extend (.start opened_freshStart) steps_to_return
  refine ⟨tr, _, hr, returned_all, by decide +kernel, ?_⟩
  by_contra hno
  push Not at hno
  obtain ⟨-, i, pc, hasleep⟩ := (stranded_iff exec World.ftl faithful_exec smallDrive.config _ tr _
    hr).mpr ⟨⟨by decide +kernel, ⟨_, rfl⟩, fun i => Or.inl (Or.inr ⟨0, returned_all i⟩)⟩, hno⟩
  cases (returned_all i).symm.trans hasleep

/-! ## Two writers and one signal -/

/-- Three calls on the small drive, each of two blocks of a zone of its own. -/
def threeCalls (i : Fin 3) : Request UInt8 where
  address := i * 3 * 4096
  size := 2 * 4096
  buf _ := 7

/-- **A writer that nobody wakes.**  The first call leaves no room for the next two; both ask for a
pass and go to sleep.  The collector runs one pass and wakes one of them, which returns. -/
theorem second_writer_sleeps_on :
    let start : Threads (Fin 3) (World smallDrive.drive) := ⟨fresh smallDrive, startPoints⟩
    ∃ s, Steps smallDrive.config threeCalls start s ∧ Opened World.ftl start ∧
      Stranded World.ftl s ∧ Asleep s 2 := by
  intro start
  let c := smallDrive.config
  -- the first call, with the collector asleep
  let first := (znsUdeviceWrite c [] 0 (2 * 4096) fun _ => 7).run exec (fresh smallDrive)
  let p₁ : Points (Thread (Fin 3)) Cond Point :=
    both startPoints 0 (.asleep .startGc .testing) (.running (.returned 0))
  have hstart : Steps c threeCalls start ⟨first.2, p₁⟩ := by
    have hp : both startPoints (0 : Fin 3) (.running .locking) (.running .idle) = startPoints :=
      both_eq rfl rfl
    have hsleep : Steps c threeCalls
        ⟨fresh smallDrive, both startPoints 0 (.running .locking) (.running .idle)⟩ _ :=
      steps_gc_sleeps rfl rfl rfl
    rw [hp] at hsleep
    have hreturn : (znsUdeviceWrite c [] 0 (2 * 4096) fun _ => 7).run exec (fresh smallDrive)
        = (some 0, first.2) :=
      Prod.ext (by decide +kernel) rfl
    exact hsleep.trans (steps_znsUdeviceWrite rfl rfl hreturn)
  -- the second call wakes the collector and sleeps
  let w₂ := unlocked (asked (locked first.2))
  let p₂ := both p₁ 1 (.woken .testing) (.asleep .stopGc .testing)
  have hsecond : Steps c threeCalls ⟨first.2, p₁⟩ ⟨w₂, p₂⟩ := by
    have hp : both p₁ 1 (.asleep .startGc .testing) (.running .idle) = p₁ := both_eq rfl rfl
    have hstarts : Steps c threeCalls
        ⟨first.2, both p₁ 1 (.asleep .startGc .testing) (.running .idle)⟩
        ⟨locked first.2, both p₁ 1 (.asleep .startGc .testing) (.running .testing)⟩ :=
      steps_writer_starts rfl (by decide) (by decide +kernel)
    rw [hp] at hstarts
    exact hstarts.trans (steps_writer_sleeps (by decide +kernel))
  -- the third finds it woken, and sleeps too
  let w₃ := unlocked (asked (locked w₂))
  let p₃ := both p₂ 2 (.woken .testing) (.asleep .stopGc .testing)
  have hthird : Steps c threeCalls ⟨w₂, p₂⟩ ⟨w₃, p₃⟩ := by
    have hp : both p₂ 2 (.woken .testing) (.running .idle) = p₂ := both_eq rfl rfl
    have hstarts : Steps c threeCalls ⟨w₂, both p₂ 2 (.woken .testing) (.running .idle)⟩
        ⟨locked w₂, both p₂ 2 (.woken .testing) (.running .testing)⟩ :=
      steps_writer_starts rfl (by decide) rfl
    rw [hp] at hstarts
    refine hstarts.trans (steps_writer_sleeps_too ?_ (by decide +kernel))
    rintro (i | _ | _) pc hgc hi hpc
    · match i with
      | 0 => cases hpc
      | 1 => cases hpc
      | 2 => exact hi rfl
    · exact hgc rfl
    · cases hpc
  -- a pass, which wakes the second call
  let w₄ := unlocked ((triggerGc c HashOrder.stored : Prog UInt8 Unit).run exec (locked w₃)).2
  let last := (writeBody c (3 * 4096) (2 * 4096) fun _ => 7).run exec (locked w₄)
  let p₄ := both p₃ 1 (.asleep .startGc .testing) (.running (.returned last.1))
  have hpass : Steps c threeCalls ⟨w₃, p₃⟩ ⟨last.2, p₄⟩ := by
    have hp : both p₃ 1 (.woken .testing) (.asleep .stopGc .testing) = p₃ := both_eq rfl rfl
    have hcollects : Steps c threeCalls
        ⟨w₃, both p₃ 1 (.woken .testing) (.asleep .stopGc .testing)⟩
        ⟨w₄, both p₃ 1 (.asleep .startGc .testing) (.woken .testing)⟩ :=
      steps_gc_pass rfl rfl (by decide +kernel) HashOrder.stored
    rw [hp] at hcollects
    have hwrites : Steps c threeCalls
        ⟨locked w₄, both p₃ 1 (.asleep .startGc .testing) (.running .testing)⟩ ⟨last.2, p₄⟩ :=
      (steps_writer_passes (by decide +kernel)).trans steps_writer_writes
    exact (hcollects.trans (steps_writer_wakes rfl)).trans hwrites
  refine ⟨_, ((hstart.trans hsecond).trans hthird).trans hpass,
    ⟨fun _ => rfl, rfl, rfl, rfl, rfl, rfl⟩, ⟨⟨by decide +kernel, ⟨_, rfl⟩, fun i => ?_⟩, 2, _, rfl⟩,
    _, rfl⟩
  match i with
  | 0 => exact Or.inl (Or.inr ⟨_, rfl⟩)
  | 1 => exact Or.inl (Or.inr ⟨_, rfl⟩)
  | 2 => exact Or.inr ⟨_, rfl⟩

end StoSys
