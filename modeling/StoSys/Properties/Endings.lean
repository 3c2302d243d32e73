import StoSys.Properties.Interleavings
import StoSys.Properties.Shutdown
import StoSys.Properties.SleepingWriters

/-!
# How a process ends

A process that cannot go on has ended in one of four ways: the calls have returned and the device is
closed; a writer is asleep for good; the shutdown hangs; or the mutex is gone with a call that
failed.  There is no other way to get stuck, whatever the environment does and however the threads
overtake each other (`schedule_stops`).

What the calls, the sleeping writers and the signal of the shutdown have to do with it has been seen
for each of them.  What is missing for all of them together is about the collector.

**It is woken.**  A pass that has been asked for is seen by the collector before it goes to sleep,
or the writer that asked is about to signal (`Heard`).

**It stops when it is told to**, and not before (`Ending`).
-/

namespace StoSys

open Effect HashMap Zoned CInt Monitor Transitions

variable {B σ ι : Type}

/-- The device is closed, and no call is under way. -/
structure Finished (s : Threads ι σ) : Prop where
  deinit : s.thread .deinit = .running .joined
  gc : s.thread .gc = .running .ended
  writer : ∀ i, Inactive s.thread i

/-- The calls that got to the device have returned `0`, if they have returned. -/
def NoneFailed (c : Config) (req : ι → Request B) (s : Threads ι σ) : Prop :=
  ∀ i r, s.thread (.writer i) = .running (.returned r) → (req i).size % c.lbaSizeBytes = 0 → r = 0

/-- What the collector knows of the flags when it waits or leaves. -/
def seen : (t : Thread ι) → Point t → Ftl → Prop
  | .gc, .waiting, m => m.triggerMyGc = false
  | .gc, .leaving, m => m.gcThreadStop = true
  | _, _, _ => True

variable [Zero B]

section Process

variable {h : Handler (Op B) Op.Res σ} {mem : σ → Ftl} {hh : Faithful h mem} {c : Config}
  {req : ι → Request B}

lemma annotated_seen :
    Annotated (process c hh req) holding fun t pc x => seen t pc (mem x) where
  lock {t pc next} x hcode := by
    cases t <;> cases pc <;> cases hcode <;> trivial
  wake {t pc cv next} x hcode := by
    cases t <;> cases pc <;> cases hcode <;> trivial
  signal {t pc cv next x} hcode _ := by
    cases t <;> cases pc <;> cases hcode <;> trivial
  await {t pc ready next x} hcode _ := by
    cases t with
    | gc => cases pc <;> cases hcode
    | _ => trivial
  act {t pc result x y next} hcode hx hholding _ := by
    cases t with
    | gc =>
        cases pc with
        | testing =>
            cases hcode
            rw [hx.1, hx.2, run_getFtl_fst hh, mem_getFtl hh]
            dsimp only
            split
            case isTrue hclear =>
              rw [Bool.and_eq_true, Bool.not_eq_true', Bool.not_eq_true'] at hclear
              exact hclear.2
            case isFalse => trivial
        | checking =>
            cases hcode
            rw [hx.1, hx.2, run_getFtl_fst hh, mem_getFtl hh]
            dsimp only
            split
            case isTrue hset => exact hset
            case isFalse => trivial
        | collecting =>
            cases hcode
            obtain ⟨ord, -, rfl⟩ := hx
            trivial
        | leaving | unlocking =>
            cases hcode
            rw [hx.2]
            trivial
        | _ => cases hcode
    | _ => trivial
  outside {t pc result x y next} hcode hx hfree {u pc'} hseen := by
    cases t with
    | deinit =>
        cases pc <;> cases hcode
        rw [hx.1, mem_modifyFtl hh]
        cases u with
        | gc =>
            cases pc' with
            | leaving => rfl
            | _ => exact hseen
        | _ => trivial
    | _ => cases pc <;> cases hcode <;> cases hfree

variable [DecidableEq ι] {tr : List (Threads ι σ × Thread ι)} {s s' : Threads ι σ} {t : Thread ι}

lemma Schedule.seen (hr : Schedule hh c req tr s) :
    Valid (process c hh req) holding (fun t pc x => StoSys.seen t pc (mem x)) s :=
  Valid.run guarded annotated_seen (fun _ ho => ho.started) hr

/-! ## The collector stops when it is told to -/

/-- Only the shutdown tells the collector to stop. -/
lemma gcThreadStop_step (hs : Step (process c hh req) t s s') (ht : t ≠ .deinit) :
    (mem s'.shared).gcThreadStop = (mem s.shared).gcThreadStop := by
  have hget : (mem ((getFtl : Prog B Ftl).run h s.shared).2).gcThreadStop
      = (mem s.shared).gcThreadStop := congrArg Ftl.gcThreadStop (mem_getFtl hh _)
  have hmodify : ∀ {f : Ftl → Ftl}, (∀ m, (f m).gcThreadStop = m.gcThreadStop) →
      (mem ((modifyFtl f : Prog B Unit).run h s.shared).2).gcThreadStop
        = (mem s.shared).gcThreadStop := fun hf => by
    rw [mem_modifyFtl hh]
    exact hf _
  rcases hs.shared_cases with (heq | heq | heq) | ⟨pc, result, next, -, hcode, hx, -⟩
  · rw [heq]
  · rw [heq]
    exact hmodify fun _ => rfl
  · rw [heq]
    exact hmodify fun _ => rfl
  · cases t with
    | writer i =>
        cases pc with
        | testing =>
            cases hcode
            exact hx.1 ▸ hget
        | triggering =>
            cases hcode
            exact hx.1 ▸ hmodify fun _ => rfl
        | writing =>
            cases hcode
            rw [hx.1]
            exact Keeps.writeBody (P := fun m => m.gcThreadStop = (mem s.shared).gcThreadStop) hh
              (fun _ _ _ _ hm => hm) (fun _ _ hm => hm) (fun _ hm => hm) c _ _ _ _ rfl
        | _ => cases hcode
    | gc =>
        cases pc with
        | testing | checking =>
            cases hcode
            exact hx.1 ▸ hget
        | collecting =>
            cases hcode
            obtain ⟨ord, heq, -⟩ := hx
            rw [heq]
            exact Keeps.triggerGc (P := fun m => m.gcThreadStop = (mem s.shared).gcThreadStop) hh
              (fun _ _ _ _ hm => hm) (fun _ hm => hm) c ord _ rfl
        | leaving | unlocking =>
            cases hcode
            exact hx.1 ▸ hmodify fun _ => rfl
        | _ => cases hcode
    | deinit => exact absurd rfl ht

/-- The collector ends when it has been told to, which the shutdown does, which waits for it. -/
structure Ending (mem : σ → Ftl) (s : Threads ι σ) : Prop where
  told : (mem s.shared).gcThreadStop = true → s.thread .deinit ≠ .running .idle
  ended : s.thread .gc = .running .ended → (mem s.shared).gcThreadStop = true
  joined : s.thread .deinit = .running .joined → s.thread .gc = .running .ended

omit [Zero B] [DecidableEq ι] in
lemma Ending.start (ho : Opened mem s) : Ending mem s where
  told hstop := by
    rw [ho.gcThreadStop] at hstop
    cases hstop
  ended hgc := by cases ho.gc.symm.trans hgc
  joined hdeinit := by cases ho.deinit.symm.trans hdeinit

/-- The shutdown does not begin again. -/
lemma deinit_idle_before (ho : Orderly mem s) (hs : Step (process c hh req) t s s')
    (hidle : s'.thread .deinit = .running .idle) :
    t ≠ .deinit ∧ s.thread .deinit = .running .idle := by
  by_cases ht : t = .deinit
  · subst ht
    rcases hs.reached hidle with hwoken | ⟨pc, -, hreach⟩
    · obtain ⟨pc, hpc⟩ := ho.running
      cases hpc.symm.trans hwoken
    · cases pc with
      | stopping =>
          obtain ⟨x, y, -, hq⟩ := hreach
          cases hq
      | _ => cases hreach
  · exact ⟨ht, (deinit_step ho hs ht).symm.trans hidle⟩

/-- The collector ends where it leaves its loop. -/
lemma ended_step (hv : Valid (process c hh req) holding (fun t pc x => seen t pc (mem x)) s)
    (hs : Step (process c hh req) t s s') (hended : s'.thread .gc = .running .ended) :
    s.thread .gc = .running .ended ∨ t = .gc ∧ s.thread .gc = .running .leaving := by
  by_cases ht : t = .gc
  · subst ht
    rcases hs.reached hended with hwoken | ⟨pc, hpc, hreach⟩
    · obtain ⟨pc₀, cv, hcode⟩ := hv.roused hwoken
      cases pc₀ <;> cases hcode
    · cases pc with
      | leaving => exact Or.inr ⟨rfl, hpc⟩
      | testing | checking =>
          obtain ⟨x, y, -, hq⟩ := hreach
          dsimp only at hq
          split at hq <;> cases hq
      | collecting =>
          obtain ⟨x, y, ord, -, hq⟩ := hreach
          cases hq
      | unlocking =>
          obtain ⟨x, y, -, hq⟩ := hreach
          cases hq
      | _ => cases hreach
  · rcases hs.other (Ne.symm ht) with heq | ⟨cv, pc, -, heq, -⟩
    · exact Or.inl (heq.symm.trans hended)
    · cases heq.symm.trans hended

lemma Ending.step (hv : Valid (process c hh req) holding (fun t pc x => seen t pc (mem x)) s)
    (ho : Orderly mem s) (he : Ending mem s) (hs : Step (process c hh req) t s s') :
    Ending mem s' where
  told hstop hidle := by
    obtain ⟨ht, hbefore⟩ := deinit_idle_before ho hs hidle
    exact he.told ((gcThreadStop_step hs ht).symm.trans hstop) hbefore
  ended hended := by
    rcases ended_step hv hs hended with hbefore | ⟨rfl, hpc⟩
    · exact stop_step hs (he.ended hbefore)
    · exact (gcThreadStop_step hs nofun).trans (hv.holds hpc rfl)
  joined hjoined := by
    have hkept : s.thread .gc = .running .ended → s'.thread .gc = .running .ended := by
      intro hended
      have ht : Thread.gc ≠ t := by
        rintro rfl
        exact hs.inv hended
      rcases hs.other ht with heq | ⟨cv, pc, hasleep, -⟩
      · exact heq.trans hended
      · cases hended.symm.trans hasleep
    by_cases ht : t = .deinit
    · subst ht
      obtain ⟨pc, hpc⟩ := ho.running
      rcases hs.reached hjoined with hwoken | ⟨pc', hpc', hreach⟩
      · cases hpc.symm.trans hwoken
      · cases pc' with
        | joining => exact hkept (hs.inv hpc').1
        | stopping =>
            obtain ⟨x, y, -, hq⟩ := hreach
            cases hq
        | _ => cases hreach
    · exact hkept (he.joined ((deinit_step ho hs ht).symm.trans hjoined))

/-! ## The collector is woken -/

/-- Where a pass has been asked for and the collector sleeps, a writer is about to signal. -/
def Heard (mem : σ → Ftl) (s : Threads ι σ) : Prop :=
  (mem s.shared).triggerMyGc = true → ∀ pc, s.thread .gc = .asleep .startGc pc →
    ∃ i, s.thread (.writer i) = .running .signalling

lemma Heard.step
    (hv : Valid (process c hh req) holding (fun t pc x => flags t pc (mem x)) s)
    (hv' : Valid (process c hh req) holding (fun t pc x => seen t pc (mem x)) s)
    (hheard : Heard mem s) (hs : Step (process c hh req) t s s') : Heard mem s' := by
  intro htrigger pc hgc
  by_cases ht : t = .gc
  · -- it has just gone to sleep, and found nothing to do
    subst ht
    rcases hs.self with ⟨pc', hrun⟩ | ⟨pc', cv, next, hpc, hcode, -⟩
    · cases hrun.symm.trans hgc
    · cases pc' <;> cases hcode
      have hclear : (mem s.shared).triggerMyGc = false := hv'.holds hpc rfl
      rcases trigger_step hs with heq | ⟨i, -, hsignalling, -⟩ | ⟨-, hcollecting, -⟩
      · cases hclear.symm.trans (heq.symm.trans htrigger)
      · exact ⟨i, hsignalling⟩
      · cases hpc.symm.trans hcollecting
  · have hbefore : s.thread .gc = .asleep .startGc pc := by
      rcases hs.other (Ne.symm ht) with heq | ⟨cv, pc', -, heq, -⟩
      · exact heq.symm.trans hgc
      · cases heq.symm.trans hgc
    rcases trigger_step hs with heq | ⟨i, -, hsignalling, -⟩ | ⟨hgc', -⟩
    · obtain ⟨i, hi⟩ := hheard (heq.symm.trans htrigger) pc hbefore
      refine ⟨i, ?_⟩
      by_cases hti : Thread.writer i = t
      · -- the signal wakes the collector
        subst hti
        rcases (hs.of_signal hi rfl).2 with ⟨u, pc', hu, hwoken, -⟩ | ⟨hnone, -⟩
        · cases asleep_startGc hv hu
          cases hwoken.symm.trans hgc
        · exact absurd hbefore (hnone _ pc)
      · rcases hs.other hti with heq | ⟨cv, pc', hasleep, -⟩
        · exact heq.trans hi
        · cases hi.symm.trans hasleep
    · exact ⟨i, hsignalling⟩
    · exact absurd hgc' ht

/-! ## Calls that fail -/

/-- A call that has failed has left the mutex taken, and the collector will not end. -/
def Leaves (hh : Faithful h mem) (c : Config) (req : ι → Request B) (s : Threads ι σ) : Prop :=
  ¬ NoneFailed c req s →
    Abandoned (process c hh req) holding s ∧ s.thread .gc ≠ .running .ended

/-- The collector needs the mutex to end. -/
lemma not_ended_step (hv : Valid (process c hh req) holding (fun t pc x => seen t pc (mem x)) s)
    (ha : Abandoned (process c hh req) holding s) (hne : s.thread .gc ≠ .running .ended)
    (hs : Step (process c hh req) t s s') : s'.thread .gc ≠ .running .ended := by
  intro hended
  rcases ended_step hv hs hended with hbefore | ⟨-, hpc⟩
  · exact hne hbefore
  · exact ha.2 .gc ⟨_, hpc, rfl⟩

lemma Leaves.step (hv : Valid (process c hh req) holding (fun t pc x => seen t pc (mem x)) s)
    (ho : Orderly mem s) (he : Ending mem s) (hl : Leaves hh c req s)
    (hs : Step (process c hh req) t s s') : Leaves hh c req s' := by
  intro hfailed
  by_cases hbefore : NoneFailed c req s
  · -- a call has just failed: it was in its body, and the device is open
    unfold NoneFailed at hfailed
    push Not at hfailed
    obtain ⟨i, r, hret, halign, hne⟩ := hfailed
    obtain rfl : t = .writer i := by
      by_contra ht
      exact hne (hbefore i r (returned_before hs ht hret) halign)
    rcases hs.reached hret with hwoken | ⟨pc, hpc, hreach⟩
    · obtain ⟨pc₀, cv, hcode⟩ := hv.roused hwoken
      cases pc₀ <;> cases hcode
    · cases pc with
      | idle =>
          change WritePoint.returned r = ite _ _ _ at hreach
          rw [if_neg (not_not.mpr halign)] at hreach
          cases hreach
      | testing =>
          obtain ⟨x, y, -, hq⟩ := hreach
          dsimp only at hq
          split at hq <;> cases hq
      | triggering =>
          obtain ⟨x, y, -, hq⟩ := hreach
          cases hq
      | writing =>
          obtain ⟨x, next, ⟨hx, hnext⟩, rfl⟩ := hs.inv hpc
          dsimp only at hret
          rw [Function.update_self] at hret
          cases hret
          cases hnext
          refine ⟨abandoned_of_failed hv hs hpc (Function.update_self ..) hx hne, fun hended => ?_⟩
          have hended' : s.thread .gc = .running .ended := hended
          rcases ho.returned (he.told (he.ended hended')) i with hidle | ⟨r, hreturned⟩
          · cases hpc.symm.trans hidle
          · cases hpc.symm.trans hreturned
      | _ => cases hreach
  · obtain ⟨ha, hne⟩ := hl hbefore
    exact ⟨ha.step guarded hs, not_ended_step hv ha hne hs⟩

/-- Who owns the mutex: whoever holds it, and a call that has failed. -/
def owning (c : Config) (req : ι → Request B) : (t : Thread ι) → Point t → Prop
  | .writer i, .returned r => (req i).size % c.lbaSizeBytes = 0 ∧ r ≠ 0
  | t, pc => holding t pc = true

omit [DecidableEq ι] in
lemma owning_follows : FollowsMutex (process c hh req) holding (admitted c req) (owning c req) where
  lock {t pc next} hcode := by
    cases t <;> cases pc <;> cases hcode <;> rfl
  wake {t pc cv next} hcode := by
    cases t <;> cases pc <;> cases hcode <;> rfl
  signal {t pc cv next} hcode howning := by
    cases t with
    | deinit => cases howning
    | writer i | gc =>
        cases pc <;> cases hcode
        rfl
  await {t pc ready next} hcode howning := by
    cases t with
    | deinit => cases howning
    | _ => cases pc <;> cases hcode <;> cases howning
  act {t pc result x y next} hcode hx hadmitted hheld htaken := by
    cases t with
    | writer i =>
        cases pc with
        | testing =>
            cases hcode
            left
            rw [hx.2]
            dsimp only
            split
            · exact rfl
            · exact rfl
        | triggering =>
            cases hcode
            left
            rw [hx.2]
            exact rfl
        | writing =>
            cases hcode
            left
            rw [hx.2]
            refine ⟨hadmitted, ?_⟩
            rw [hx.1] at htaken
            exact (writeBody_mutex hh c (req i).address (req i).size (req i).buf x (hheld rfl)).mp
              htaken
        | _ => cases hcode
    | gc =>
        cases pc with
        | testing | checking =>
            cases hcode
            left
            rw [hx.2]
            dsimp only
            split
            · exact rfl
            · exact rfl
        | collecting =>
            cases hcode
            obtain ⟨ord, -, rfl⟩ := hx
            exact Or.inl rfl
        | leaving | unlocking =>
            cases hcode
            have hfree : (mem y).gcMutex = false := by
              rw [hx.1]
              exact congrArg Ftl.gcMutex (mem_modifyFtl hh _ x)
            cases hfree.symm.trans htaken
        | _ => cases hcode
    | deinit =>
        cases pc <;> cases hcode
        refine Or.inr ⟨?_, Bool.false_ne_true⟩
        rw [hx.1] at htaken
        exact (congrArg Ftl.gcMutex (mem_modifyFtl hh _ x)).symm.trans htaken

/-! ## Where nothing moves -/

omit [DecidableEq ι] in
lemma total : Total (process c hh req) := by
  intro t pc result hcode x
  cases t with
  | writer i => cases pc <;> cases hcode <;> exact ⟨_, _, rfl, rfl⟩
  | gc =>
      cases pc with
      | collecting =>
          cases hcode
          exact ⟨_, _, HashOrder.stored, rfl, rfl⟩
      | _ => cases hcode <;> exact ⟨_, _, rfl, rfl⟩
  | deinit =>
      cases pc <;> cases hcode
      exact ⟨_, _, rfl, rfl⟩

/-- A thread that holds the mutex can move. -/
lemma not_holds_stopped (hstop : Stopped (process c hh req) s) (t : Thread ι) :
    ¬ Monitor.Holds holding s t := by
  rintro ⟨pc, hpc, hholding⟩
  rcases hstop.running total hpc with hcode | ⟨next, hcode, -⟩ | ⟨ready, next, hcode, -⟩
  · cases t <;> cases pc <;> cases hcode <;> cases hholding
  · cases t <;> cases pc <;> cases hcode <;> cases hholding
  · cases t <;> cases pc <;> cases hcode <;> cases hholding

omit [Zero B] [DecidableEq ι] in
lemma Short.committed (hshort : Short mem s) : ∃ i, Committed s i := by
  rcases hshort with ⟨i, hi, -⟩ | ⟨i, -, -, hi, -⟩
  · exact ⟨i, hi⟩
  · exact ⟨i, hi⟩

omit [Zero B] [DecidableEq ι] in
lemma Committed.not_inactive {i : ι} (hi : Committed s i) : ¬ Inactive s.thread i := by
  rintro (hidle | ⟨r, hret⟩)
  · rcases hi with hpc | hpc | ⟨pc, hpc⟩ <;> cases hidle.symm.trans hpc
  · rcases hi with hpc | hpc | ⟨pc, hpc⟩ <;> cases hret.symm.trans hpc

/-- A process that has finished stays as it is. -/
lemma Finished.not_step (hf : Finished s) : ¬ Step (process c hh req) t s s' := by
  intro hs
  cases t with
  | writer i =>
      refine not_step_inactive ?_ (hf.writer i) hs
      rw [hf.deinit]
      nofun
  | gc => exact hs.inv hf.gc
  | deinit => exact hs.inv hf.deinit

section Stopped

variable (hr : Schedule hh c req tr s) (hstop : Stopped (process c hh req) s)
  (hfree : (mem s.shared).gcMutex = false)
include hr hstop hfree

/-- A collector that cannot move sleeps, or has come to its end. -/
lemma gc_stopped :
    (∃ pc, s.thread .gc = .asleep .startGc pc) ∨ s.thread .gc = .running .ended := by
  cases hgc : s.thread .gc with
  | running pc =>
      rcases hstop.running total hgc with hcode | ⟨next, -, hheld⟩ | ⟨ready, next, hcode, -⟩
      · cases pc <;> cases hcode
        exact Or.inr rfl
      · cases hfree.symm.trans hheld
      · cases pc <;> cases hcode
  | asleep cv pc =>
      obtain ⟨pc₀, hcode⟩ := hr.valid.slept hgc
      cases pc₀ <;> cases hcode
      exact Or.inl ⟨_, rfl⟩
  | woken pc => cases hfree.symm.trans (hstop.woken hgc)

/-- A call that cannot move is not under way, or is asleep. -/
lemma writer_stopped (hdeinit : s.thread .deinit = .running .idle) (i : ι) :
    Inactive s.thread i ∨ Asleep s i := by
  cases hi : s.thread (.writer i) with
  | running pc =>
      rcases hstop.running total hi with hcode | ⟨next, -, hheld⟩ | ⟨ready, next, hcode, hready⟩
      · cases pc <;> cases hcode
        exact Or.inl (Or.inr ⟨_, hi⟩)
      · cases hfree.symm.trans hheld
      · cases pc <;> cases hcode
        exact absurd hdeinit hready
  | asleep cv pc =>
      obtain ⟨pc₀, hcode⟩ := hr.valid.slept hi
      cases pc₀ <;> cases hcode
      exact Or.inr ⟨_, hi⟩
  | woken pc => cases hfree.symm.trans (hstop.woken hi)

end Stopped

/-! ## Runs -/

lemma Schedule.ending (hr : Schedule hh c req tr s) : Ending mem s :=
  hr.along (I := fun s => Valid (process c hh req) holding
      (fun t pc x => StoSys.seen t pc (mem x)) s ∧ Orderly mem s)
    (fun hr => ⟨Schedule.seen hr, Schedule.orderly hr⟩) (fun _ => .start)
    fun hI he hs => he.step hI.1 hI.2 hs

lemma Schedule.heard (hr : Schedule hh c req tr s) : Heard mem s := by
  refine hr.along (I := fun s => Valid (process c hh req) holding
      (fun t pc x => flags t pc (mem x)) s ∧ Valid (process c hh req) holding
      (fun t pc x => StoSys.seen t pc (mem x)) s)
    (fun hr => ⟨Schedule.valid hr, Schedule.seen hr⟩) (fun s ho _ pc hgc => ?_)
    fun hI hheard hs => hheard.step hI.1 hI.2 hs
  cases ho.gc.symm.trans hgc

lemma Schedule.leaves (hr : Schedule hh c req tr s) : Leaves hh c req s := by
  refine hr.along (I := fun s => Valid (process c hh req) holding
      (fun t pc x => StoSys.seen t pc (mem x)) s ∧ Orderly mem s ∧ Ending mem s)
    (fun hr => ⟨Schedule.seen hr, Schedule.orderly hr, Schedule.ending hr⟩)
    (fun s ho hfailed => absurd (fun i r hret _ => ?_) hfailed)
    fun hI hl hs => hl.step hI.1 hI.2.1 hI.2.2 hs
  cases (ho.writer i).symm.trans hret

lemma Schedule.owned (hr : Schedule hh c req tr s) :
    Owned (process c hh req) (owning c req) s := by
  refine hr.along (I := fun s => Valid (process c hh req) holding
      (fun t pc x => StoSys.seen t pc (mem x)) s ∧ ∀ t, admitted c req t (s.thread t).point)
    (fun hr => ⟨Schedule.seen hr, admitted_run (fun _ ho => ho) hr⟩) (fun s ho hheld => ?_)
    fun hI ho hs => ho.step owning_follows hI.1 hI.2 hs
  cases ho.gcMutex.symm.trans hheld

/-- **Where a process that cannot go on has come to.** -/
lemma stopped_cases (hr : Schedule hh c req tr s) (hstop : Stopped (process c hh req) s) :
    Finished s ∨ Stranded mem s ∨ Hung mem s ∨ Abandoned (process c hh req) holding s := by
  cases hfree : (mem s.shared).gcMutex with
  | true => exact Or.inr (Or.inr (Or.inr ⟨hfree, not_holds_stopped hstop⟩))
  | false =>
      obtain ⟨pc, hdeinit⟩ := hr.orderly.running
      have hgc := gc_stopped hr hstop hfree
      rcases hstop.running total hdeinit with hcode | ⟨next, hcode, -⟩ |
        ⟨ready, next, hcode, hready⟩
      · -- the shutdown has come to its end
        cases pc <;> cases hcode
        exact Or.inl ⟨hdeinit, hr.ending.joined hdeinit,
          hr.orderly.returned (Signalled.begun (Or.inr hdeinit)).1⟩
      · cases pc <;> cases hcode
      · cases pc with
        | idle =>
            -- a call is under way, so it sleeps, and so does the collector
            cases hcode
            have hwriter := writer_stopped hr hstop hfree hdeinit
            have hasleep := hgc.resolve_right fun hended =>
              hr.ending.told (hr.ending.ended hended) hdeinit
            obtain ⟨pc', hpc'⟩ := hasleep
            have htrigger : (mem s.shared).triggerMyGc = false := by
              by_contra hset
              obtain ⟨i, hi⟩ := hr.heard (Bool.not_eq_false _ ▸ hset) pc' hpc'
              rcases hwriter i with (hidle | ⟨r, hret⟩) | ⟨pc, ha⟩
              · cases hi.symm.trans hidle
              · cases hi.symm.trans hret
              · cases hi.symm.trans ha
            obtain ⟨i, hi⟩ := not_forall.mp hready
            exact Or.inr (Or.inl ⟨⟨htrigger, ⟨pc', hpc'⟩, hwriter⟩, i, (hwriter i).resolve_left hi⟩)
        | joining =>
            cases hcode
            obtain ⟨hidle, hstopping⟩ := Signalled.begun (Or.inl hdeinit)
            exact Or.inr (Or.inr (Or.inl ⟨hdeinit, hgc.resolve_right hready,
              hr.orderly.stopped hidle hstopping, hr.orderly.returned hidle⟩))
        | _ => cases hcode

/-- **How a process ends.**  In any environment, for any calls and in every run, a process that
cannot go on is closed with all calls returned, or a writer is asleep for good, or the shutdown
hangs, or the mutex is gone.  It is closed exactly if no call that got to the device failed, no
writer went to sleep beside another one, and the signal of the shutdown did not come while the
collector was about to wait. -/
theorem schedule_stops {ι σ : Type} [DecidableEq ι] (h : Handler (Op B) Op.Res σ) (mem : σ → Ftl)
    (hh : Faithful h mem) (c : Config) (req : ι → Request B)
    (tr : List (Threads ι σ × Thread ι)) (s : Threads ι σ) (hr : Schedule hh c req tr s)
    (hstop : Stopped (process c hh req) s) :
    (Finished s ∨ Stranded mem s ∨ Hung mem s ∨ Abandoned (process c hh req) holding s) ∧
      (Finished s ↔ NoneFailed c req s ∧ ∀ x ∈ tr, SleepsAlone x.1 x.2 ∧ SignalHeard x.1 x.2) := by
  have hvalid := fun {tr s} (hr : Schedule hh c req tr s) => hr.valid
  have hI := fun {tr s} (hr : Schedule hh c req tr s) => And.intro hr.valid hr.orderly
  have hcases := stopped_cases hr hstop
  refine ⟨hcases, fun hf => ⟨?_, fun x hx => ⟨?_, ?_⟩⟩, fun ⟨hnone, hgood⟩ => ?_⟩
  · by_contra hfailed
    exact (hr.leaves hfailed).2 hf.gc
  · by_contra hnot
    have hshort : Short mem s := hr.since hvalid (fun hv hnot hs => .of_not_alone hv hnot hs)
      (fun hv hshort hs => hshort.step hv hs) ⟨x, hx, hnot⟩
    obtain ⟨i, hi⟩ := hshort.committed
    exact hi.not_inactive (hf.writer i)
  · by_contra hnot
    have hmissed : Missed s := hr.since hI (fun hI hnot hs => .of_not_heard hI.1 hnot hs)
      (fun hI hm hs => hm.step hI.2 hs) ⟨x, hx, hnot⟩
    cases hmissed.deinit.symm.trans hf.deinit
  · rcases hcases with hf | hstranded | hhung | habandoned
    · exact hf
    · have hattended : Attended mem s := hr.guarded hvalid (fun _ => .start)
        (fun hv ha halone hs => ha.step hv halone hs) fun x hx => (hgood x hx).1
      exact absurd hstranded hattended.not_stranded
    · have hawake : Awake s := hr.guarded hI (fun _ ho => .start ho)
        (fun hI ha hheard hs => ha.step hI.1 hI.2 hheard hs) fun x hx => (hgood x hx).2
      obtain ⟨pc, hpc⟩ := hhung.gc
      exact absurd hpc ((hawake (Or.inl hhung.deinit)).2 _ pc)
    · -- nobody holds the mutex, so a call has gone away with it
      obtain ⟨t, pc, hpc, howning⟩ := hr.owned habandoned.1
      have hnot : ¬ holding t pc = true := fun hholding => habandoned.2 t ⟨pc, hpc, hholding⟩
      cases t with
      | writer i =>
          cases pc with
          | returned r => exact absurd (hnone i r hpc howning.1) howning.2
          | _ => exact absurd howning hnot
      | _ => exact absurd howning hnot

end Process

/-- Three calls return, the last after a pass, and the device is closed while the collector is
asleep. -/
theorem schedule_stops_closed :
    ∃ tr s, Schedule (faithful_exec (d := smallDrive.drive)) smallDrive.config blockCalls tr s ∧
      Stopped (onDrive smallDrive.drive smallDrive.config blockCalls) s ∧
      (∀ i, s.thread (.writer i) = .running (.returned 0)) ∧
      NoneFailed smallDrive.config blockCalls s ∧
      ∀ x ∈ tr, SleepsAlone x.1 x.2 ∧ SignalHeard x.1 x.2 := by
  let M := onDrive smallDrive.drive smallDrive.config blockCalls
  let w := blockCalled 2 [HashOrder.stored] twoCalled
  let p₀ := both twoReturned 2 (.asleep .startGc .testing) (.running (.returned 0))
  have hinactive : ∀ i, Inactive p₀ i := fun i => Or.inr ⟨0, returned_all i⟩
  -- the shutdown wakes the collector
  let p₁ := Function.update p₀ .deinit (.running .stopping)
  have hbegin : Step M .deinit ⟨w, p₀⟩ ⟨w, p₁⟩ :=
    .await (rfl : p₀ .deinit = .running .idle) rfl hinactive
  let w' : World smallDrive.drive := ⟨{ w.ftl with gcThreadStop := true }, w.media⟩
  let p₂ := Function.update p₁ .deinit (.running .signalling)
  have hstop : Step M .deinit ⟨w, p₁⟩ ⟨w', p₂⟩ :=
    .act (rfl : p₁ .deinit = .running .stopping) rfl ⟨rfl, rfl⟩
  let p₃ := Function.update (Function.update p₂ .deinit (.running .joining)) .gc (.woken .testing)
  have hsignal : Step M .deinit ⟨w', p₂⟩ ⟨w', p₃⟩ :=
    .signal (rfl : p₂ .deinit = .running .signalling) rfl
      (rfl : p₂ .gc = .asleep .startGc .testing)
  -- the collector ends, and is joined
  let p₄ := Function.update p₃ .gc (.running .testing)
  have hwake : Step M .gc ⟨w', p₃⟩ ⟨locked w', p₄⟩ :=
    .wake (rfl : p₃ .gc = .woken .testing) (by decide +kernel)
  let p₅ := Function.update p₄ .gc (.running .checking)
  have htest : Step M .gc ⟨locked w', p₄⟩ ⟨locked w', p₅⟩ :=
    .act (rfl : p₄ .gc = .running .testing) rfl ⟨rfl, rfl⟩
  let p₆ := Function.update p₅ .gc (.running .leaving)
  have hcheck : Step M .gc ⟨locked w', p₅⟩ ⟨locked w', p₆⟩ :=
    .act (rfl : p₅ .gc = .running .checking) rfl ⟨rfl, rfl⟩
  let p₇ := Function.update p₆ .gc (.running .ended)
  have hleave : Step M .gc ⟨locked w', p₆⟩ ⟨unlocked (locked w'), p₇⟩ :=
    .act (rfl : p₆ .gc = .running .leaving) rfl ⟨rfl, rfl⟩
  let last : Threads (Fin 3) (World smallDrive.drive) :=
    ⟨unlocked (locked w'), Function.update p₇ .deinit (.running .joined)⟩
  have hjoin : Step M .deinit ⟨unlocked (locked w'), p₇⟩ last :=
    .await (rfl : p₇ .deinit = .running .joining) rfl rfl
  obtain ⟨tr, hr⟩ := Run.extend (.start opened_freshStart) steps_to_return
  have hlast := (((((((hr.step hbegin).step hstop).step hsignal).step hwake).step htest).step
    hcheck).step hleave).step hjoin
  have hfinished : Finished last := ⟨rfl, rfl, hinactive⟩
  have hstopped : Stopped M last := fun t s' => hfinished.not_step
  obtain ⟨hnone, hgood⟩ := (schedule_stops exec World.ftl faithful_exec smallDrive.config _ _
    last hlast hstopped).2.mp hfinished
  exact ⟨_, last, hlast, hstopped, returned_all, hnone, hgood⟩

end StoSys
