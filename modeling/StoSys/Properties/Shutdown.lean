import StoSys.Ftl.Schedules
import StoSys.Properties.ReadYourWrites

/-!
# The signal of the shutdown

`deinit_ss_zns_device` sets its flag and signals `start_gc` without the mutex.  The collector may
have tested the flag before it was set and not be asleep yet when the signal comes; then the signal
is lost, the collector goes to sleep, and the join waits for ever.

That is the only way to get stuck: a run in which the signal does not come between the collector's
test and its wait never hangs.
-/

namespace StoSys

open Effect HashMap Zoned CInt Monitor Transitions

variable {B σ ι : Type}

/-- The shutdown waits for the collector, which sleeps and has been told to stop; nobody is left to
wake it. -/
structure Hung (mem : σ → Ftl) (s : Threads ι σ) : Prop where
  deinit : s.thread .deinit = .running .joining
  gc : ∃ pc, s.thread .gc = .asleep .startGc pc
  gcThreadStop : (mem s.shared).gcThreadStop = true
  writer : ∀ i, Inactive s.thread i

/-- The step is not the shutdown signalling while the collector is about to wait. -/
def SignalHeard (s : Threads ι σ) (t : Thread ι) : Prop :=
  t = .deinit → s.thread .deinit = .running .signalling → s.thread .gc ≠ .running .waiting

section Process

variable [Zero B] [DecidableEq ι] {h : Handler (Op B) Op.Res σ} {mem : σ → Ftl}
  {hh : Faithful h mem} {c : Config} {req : ι → Request B} {s s' : Threads ι σ} {t : Thread ι}

/-! ## The order of things -/

/-- When the shutdown is under way the calls have returned, and behind its first step the flag is
set. -/
structure Orderly (mem : σ → Ftl) (s : Threads ι σ) : Prop where
  running : ∃ pc, s.thread .deinit = .running pc
  returned : s.thread .deinit ≠ .running .idle → ∀ i, Inactive s.thread i
  stopped : s.thread .deinit ≠ .running .idle → s.thread .deinit ≠ .running .stopping →
    (mem s.shared).gcThreadStop = true

/-- A call that is not under way does nothing once the shutdown has begun. -/
lemma not_step_inactive (hdeinit : s.thread .deinit ≠ .running .idle) {i : ι}
    (hi : Inactive s.thread i) : ¬ Step (process c hh req) (.writer i) s s' := by
  intro hs
  rcases hi with hpc | ⟨ret, hpc⟩
  · exact hdeinit (hs.inv hpc).1
  · exact hs.inv hpc

/-- Nor does a step of another thread change it. -/
lemma inactive_step (hs : Step (process c hh req) t s s') {i : ι} (hi : Inactive s.thread i)
    (ht : Thread.writer i ≠ t) : Inactive s'.thread i := by
  rcases hs.other ht with heq | ⟨cv, pc, hpc, -⟩
  · unfold Inactive
    rw [heq]
    exact hi
  · rcases hi with hidle | ⟨ret, hret⟩
    · cases hidle.symm.trans hpc
    · cases hret.symm.trans hpc

/-- Only the shutdown itself moves the shutdown. -/
lemma deinit_step (ho : Orderly mem s) (hs : Step (process c hh req) t s s') (ht : t ≠ .deinit) :
    s'.thread .deinit = s.thread .deinit := by
  rcases hs.other (Ne.symm ht) with heq | ⟨cv, pc, hpc, -⟩
  · exact heq
  · obtain ⟨pc', hrun⟩ := ho.running
    cases hrun.symm.trans hpc

omit [Zero B] [DecidableEq ι] in
lemma Orderly.start (ho : Opened mem s) : Orderly mem s where
  running := ⟨_, ho.deinit⟩
  returned hne := absurd ho.deinit hne
  stopped hne := absurd ho.deinit hne

/-- The flag stays set. -/
lemma stop_step (hs : Step (process c hh req) t s s') (hstop : (mem s.shared).gcThreadStop = true) :
    (mem s'.shared).gcThreadStop = true :=
  keeps_step (P := fun m => m.gcThreadStop = true) (fun _ _ _ _ hm => hm) (fun _ _ hm => hm)
    (fun _ _ hm => hm) (fun _ _ hm => hm) (fun _ _ => rfl) hs hstop

lemma Orderly.step (ho : Orderly mem s) (hs : Step (process c hh req) t s s') : Orderly mem s' := by
  by_cases ht : t = .deinit
  · subst ht
    obtain ⟨pc, hpc⟩ := ho.running
    have hother : ∀ {i}, Inactive s.thread i → Inactive s'.thread i := fun hi =>
      inactive_step hs hi nofun
    have hrunning : ∃ pc, s'.thread .deinit = .running pc := by
      rcases hs.self with hrun | ⟨pc', cv, next, -, hcode, -⟩
      · exact hrun
      · cases pc' <;> cases hcode
    cases pc with
    | idle =>
        obtain ⟨hready, rfl⟩ := hs.inv hpc
        exact ⟨hrunning, fun _ i => hother (hready i),
          fun _ hno => (hno (Function.update_self Thread.deinit _ s.thread)).elim⟩
    | stopping =>
        have hreturned := ho.returned (by rw [hpc]; nofun)
        obtain ⟨x, next, ⟨rfl, rfl⟩, rfl⟩ := hs.inv hpc
        exact ⟨hrunning, fun _ i => hother (hreturned i),
          fun _ _ => congrArg Ftl.gcThreadStop (mem_modifyFtl hh _ _)⟩
    | signalling =>
        have hreturned := ho.returned (by rw [hpc]; nofun)
        have hstopped := ho.stopped (by rw [hpc]; nofun) (by rw [hpc]; nofun)
        exact ⟨hrunning, fun _ i => hother (hreturned i),
          fun _ _ => stop_step hs hstopped⟩
    | joining =>
        have hreturned := ho.returned (by rw [hpc]; nofun)
        have hstopped := ho.stopped (by rw [hpc]; nofun) (by rw [hpc]; nofun)
        obtain ⟨-, rfl⟩ := hs.inv hpc
        exact ⟨hrunning, fun _ i => hother (hreturned i), fun _ _ => hstopped⟩
    | joined => exact (hs.inv hpc).elim
  · have hsame := deinit_step ho hs ht
    refine ⟨hsame ▸ ho.running, fun hne i => ?_, fun hidle hstopping => ?_⟩
    · rw [hsame] at hne
      refine inactive_step hs (ho.returned hne i) ?_
      rintro rfl
      exact not_step_inactive hne (ho.returned hne i) hs
    · rw [hsame] at hidle hstopping
      exact stop_step hs (ho.stopped hidle hstopping)

/-! ## A signal that is heard -/

/-- The shutdown has signalled. -/
def Signalled (s : Threads ι σ) : Prop :=
  s.thread .deinit = .running .joining ∨ s.thread .deinit = .running .joined

omit [Zero B] [DecidableEq ι] in
lemma Signalled.begun (hsig : Signalled s) :
    s.thread .deinit ≠ .running .idle ∧ s.thread .deinit ≠ .running .stopping := by
  rcases hsig with hpc | hpc
  · rw [hpc]
    exact ⟨nofun, nofun⟩
  · rw [hpc]
    exact ⟨nofun, nofun⟩

/-- Once the shutdown has signalled the collector neither sleeps nor is about to. -/
def Awake (s : Threads ι σ) : Prop :=
  Signalled s → s.thread .gc ≠ .running .waiting ∧ ∀ cv pc, s.thread .gc ≠ .asleep cv pc

/-- With the flag set the collector does not come to its wait. -/
lemma gc_step_stopped (hv : Valid (process c hh req) holding (fun t pc x => flags t pc (mem x)) s)
    (hstop : (mem s.shared).gcThreadStop = true) (hs : Step (process c hh req) .gc s s') :
    s'.thread .gc ≠ .running .waiting := by
  intro hwaiting
  rcases hs.reached hwaiting with hwoken | ⟨pc, hpc, hreach⟩
  · obtain ⟨pc₀, cv, hcode⟩ := hv.roused hwoken
    cases pc₀ <;> cases hcode
  · cases pc with
    | testing =>
        obtain ⟨x, next, ⟨-, hnext⟩, rfl⟩ := hs.inv hpc
        dsimp only at hwaiting
        rw [Function.update_self] at hwaiting
        rw [run_getFtl_fst hh] at hnext
        dsimp only at hnext
        rw [hstop] at hnext
        cases hwaiting.symm.trans (congrArg Status.running hnext)
    | checking =>
        obtain ⟨x, y, -, hnext⟩ := hreach
        dsimp only at hnext
        split at hnext <;> cases hnext
    | leaving | unlocking =>
        obtain ⟨x, y, -, hnext⟩ := hreach
        cases hnext
    | collecting =>
        obtain ⟨x, y, ord, -, hnext⟩ := hreach
        cases hnext
    | _ => cases hreach

omit [Zero B] [DecidableEq ι] in
lemma Awake.start (ho : Opened mem s) : Awake s := by
  rintro (hpc | hpc)
  · cases ho.deinit.symm.trans hpc
  · cases ho.deinit.symm.trans hpc

lemma Awake.step (hv : Valid (process c hh req) holding (fun t pc x => flags t pc (mem x)) s)
    (ho : Orderly mem s) (ha : Awake s) (hheard : SignalHeard s t)
    (hs : Step (process c hh req) t s s') : Awake s' := by
  intro hdeinit
  cases t with
  | writer i =>
      unfold Signalled at hdeinit
      rw [deinit_step ho hs nofun] at hdeinit
      have hnot := (Signalled.begun hdeinit).1
      exact absurd hs (not_step_inactive hnot (ho.returned hnot i))
  | gc =>
      unfold Signalled at hdeinit
      rw [deinit_step ho hs nofun] at hdeinit
      obtain ⟨hidle, hstopping⟩ := Signalled.begun hdeinit
      have hstop := ho.stopped hidle hstopping
      refine ⟨gc_step_stopped hv hstop hs, fun cv pc hasleep => ?_⟩
      rcases hs.self with ⟨pc', hrun⟩ | ⟨pc', cv', next, hpc, hcode, -⟩
      · cases hrun.symm.trans hasleep
      · cases pc' <;> cases hcode
        exact (ha hdeinit).1 hpc
  | deinit =>
      obtain ⟨pc, hpc⟩ := ho.running
      cases pc with
      | signalling =>
          obtain ⟨-, ⟨u, pc, hu, hwoken, -⟩ | ⟨hnone, hothers⟩⟩ := hs.of_signal hpc rfl
          · cases asleep_startGc hv hu
            rw [hwoken]
            exact ⟨nofun, nofun⟩
          · rw [hothers .gc nofun]
            refine ⟨hheard rfl hpc, fun cv pc' hasleep => ?_⟩
            obtain ⟨pc₀, hcode⟩ := hv.slept hasleep
            cases pc₀ <;> cases hcode
            exact hnone _ _ hasleep
      | joining =>
          have hne : (Thread.gc : Thread ι) ≠ .deinit := nofun
          obtain ⟨-, rfl⟩ := hs.inv hpc
          dsimp only
          rw [Function.update_of_ne hne]
          exact ha (Or.inl hpc)
      | idle =>
          obtain ⟨-, rfl⟩ := hs.inv hpc
          unfold Signalled at hdeinit
          dsimp only at hdeinit
          rw [Function.update_self] at hdeinit
          rcases hdeinit with h | h <;> cases h
      | stopping =>
          obtain ⟨x, next, ⟨-, rfl⟩, rfl⟩ := hs.inv hpc
          unfold Signalled at hdeinit
          dsimp only at hdeinit
          rw [Function.update_self] at hdeinit
          rcases hdeinit with h | h <;> cases h
      | joined => exact (hs.inv hpc).elim

/-! ## A signal that is not -/

/-- The signal has come too early. -/
structure Missed (s : Threads ι σ) : Prop where
  deinit : s.thread .deinit = .running .joining
  gc : s.thread .gc = .running .waiting ∨ ∃ pc, s.thread .gc = .asleep .startGc pc

lemma Missed.of_not_heard
    (hv : Valid (process c hh req) holding (fun t pc x => flags t pc (mem x)) s)
    (hnot : ¬ SignalHeard s t) (hs : Step (process c hh req) t s s') : Missed s' := by
  unfold SignalHeard at hnot
  push Not at hnot
  obtain ⟨rfl, hsignalling, hwaiting⟩ := hnot
  obtain ⟨hnext, ⟨u, pc, hu, -⟩ | ⟨-, hothers⟩⟩ := hs.of_signal hsignalling rfl
  · cases asleep_startGc hv hu
    cases hwaiting.symm.trans hu
  · exact ⟨hnext, Or.inl ((hothers .gc nofun).trans hwaiting)⟩

/-- **Once missed, always missed.** -/
lemma Missed.step (ho : Orderly mem s) (hm : Missed s) (hs : Step (process c hh req) t s s') :
    Missed s' := by
  have hbegun : s.thread .deinit ≠ .running .idle := by
    rw [hm.deinit]
    nofun
  cases t with
  | writer i => exact absurd hs (not_step_inactive hbegun (ho.returned hbegun i))
  | deinit =>
      obtain ⟨hended, -⟩ := hs.inv hm.deinit
      rcases hm.gc with hpc | ⟨pc, hpc⟩
      · cases hpc.symm.trans hended
      · cases hpc.symm.trans hended
  | gc =>
      refine ⟨(deinit_step ho hs nofun).trans hm.deinit, ?_⟩
      rcases hm.gc with hpc | ⟨pc, hpc⟩
      · exact Or.inr ⟨_, hs.of_wait hpc rfl⟩
      · exact absurd hpc hs.not_asleep

/-! ## Runs -/

omit [Zero B] [DecidableEq ι] in
lemma Missed.hung (ho : Orderly mem s) (hm : Missed s)
    (hasleep : ∃ pc, s.thread .gc = .asleep .startGc pc) : Hung mem s := by
  obtain ⟨hidle, hstopping⟩ := Signalled.begun (Or.inl hm.deinit)
  exact ⟨hm.deinit, hasleep, ho.stopped hidle hstopping, ho.returned hidle⟩

/-- A hung process stays as it is. -/
lemma Hung.not_step (hhung : Hung mem s) : ¬ Step (process c hh req) t s s' := by
  intro hs
  obtain ⟨pc, hpc⟩ := hhung.gc
  have hbegun := (Signalled.begun (Or.inl hhung.deinit)).1
  cases t with
  | writer i => exact not_step_inactive hbegun (hhung.writer i) hs
  | gc => exact hs.not_asleep hpc
  | deinit => cases hpc.symm.trans (hs.inv hhung.deinit).1

lemma Schedule.orderly {tr : List (Threads ι σ × Thread ι)} (hr : Schedule hh c req tr s) :
    Orderly mem s :=
  hr.invariant (fun _ => .start) fun ho hs => ho.step hs

/-- **The shutdown.**  In any environment, after any calls and in every run: the shutdown hangs
exactly if its signal came while the collector was about to wait, and the collector has gone to
sleep since.  And once the signal has come then, the hang is there or one step away. -/
theorem hung_iff {ι σ : Type} [DecidableEq ι] (h : Handler (Op B) Op.Res σ) (mem : σ → Ftl)
    (hh : Faithful h mem) (c : Config) (req : ι → Request B)
    (tr : List (Threads ι σ × Thread ι)) (s : Threads ι σ) (hr : Schedule hh c req tr s) :
    (Hung mem s ↔ (∃ pc, s.thread .gc = .asleep .startGc pc) ∧
        ∃ x ∈ tr, ¬ SignalHeard x.1 x.2) ∧
      ((∃ x ∈ tr, ¬ SignalHeard x.1 x.2) →
        Hung mem s ∨ ∃ s', Step (process c hh req) .gc s s' ∧ Hung mem s') := by
  have hI := fun {tr s} (hr : Schedule hh c req tr s) => And.intro hr.valid hr.orderly
  have hmissed : (∃ x ∈ tr, ¬ SignalHeard x.1 x.2) → Missed s := fun hbad =>
    hr.since hI (fun hI hnot hs => .of_not_heard hI.1 hnot hs) (fun hI hm hs => hm.step hI.2 hs) hbad
  refine ⟨⟨fun hhung => ⟨hhung.gc, ?_⟩, fun ⟨hasleep, hbad⟩ =>
    (hmissed hbad).hung hr.orderly hasleep⟩, fun hbad => ?_⟩
  · by_contra hno
    push Not at hno
    have hawake : Awake s := hr.guarded hI (fun _ ho => .start ho)
      (fun hI ha hheard hs => ha.step hI.1 hI.2 hheard hs) hno
    obtain ⟨pc, hpc⟩ := hhung.gc
    exact (hawake (Or.inl hhung.deinit)).2 _ pc hpc
  · have hm := hmissed hbad
    rcases hm.gc with hwaiting | hasleep
    · have hs : Step (process c hh req) .gc s _ := .wait hwaiting rfl
      exact Or.inr ⟨_, hs, (hm.step hr.orderly hs).hung (hr.orderly.step hs)
        ⟨_, hs.of_wait hwaiting rfl⟩⟩
    · exact Or.inl (hm.hung hr.orderly hasleep)

end Process

/-- A shutdown whose signal wakes the collector comes to its end. -/
theorem shutdown_ends :
    ∃ tr s, Schedule (faithful_exec (d := smallDrive.drive)) smallDrive.config
        (fun _ : Unit => ⟨0, 4096, fun _ => 7⟩) tr s ∧ s.thread .deinit = .running .joined ∧
      ¬ Hung World.ftl s := by
  let M := onDrive smallDrive.drive smallDrive.config fun _ : Unit => ⟨0, 4096, fun _ => 7⟩
  -- the collector is asleep
  let p₀ := both startPoints () (.asleep .startGc .testing) (.running .idle)
  have hsleep : Steps smallDrive.config (fun _ : Unit => ⟨0, 4096, fun _ => 7⟩)
      ⟨fresh smallDrive, startPoints⟩ ⟨fresh smallDrive, p₀⟩ := by
    have hp : both startPoints () (.running .locking) (.running .idle) = startPoints :=
      both_eq rfl rfl
    have h : Steps smallDrive.config (fun _ : Unit => ⟨0, 4096, fun _ => 7⟩)
        ⟨fresh smallDrive, both startPoints () (.running .locking) (.running .idle)⟩ _ :=
      steps_gc_sleeps rfl rfl rfl
    rw [hp] at h
    exact h
  -- the shutdown wakes it
  let w := fresh smallDrive
  let p₁ := Function.update p₀ .deinit (.running .stopping)
  have hbegin : Step M .deinit ⟨w, p₀⟩ ⟨w, p₁⟩ :=
    .await (rfl : p₀ .deinit = .running .idle) rfl fun _ => Or.inl rfl
  let w' : World smallDrive.drive := ⟨{ w.ftl with gcThreadStop := true }, w.media⟩
  let p₂ := Function.update p₁ .deinit (.running .signalling)
  have hstop : Step M .deinit ⟨w, p₁⟩ ⟨w', p₂⟩ :=
    .act (rfl : p₁ .deinit = .running .stopping) rfl ⟨rfl, rfl⟩
  let p₃ := Function.update (Function.update p₂ .deinit (.running .joining)) .gc (.woken .testing)
  have hsignal : Step M .deinit ⟨w', p₂⟩ ⟨w', p₃⟩ :=
    .signal (rfl : p₂ .deinit = .running .signalling) rfl
      (rfl : p₂ .gc = .asleep .startGc .testing)
  -- it ends, and is joined
  let p₄ := Function.update p₃ .gc (.running .testing)
  have hwake : Step M .gc ⟨w', p₃⟩ ⟨locked w', p₄⟩ := .wake (rfl : p₃ .gc = .woken .testing) rfl
  let p₅ := Function.update p₄ .gc (.running .checking)
  have htest : Step M .gc ⟨locked w', p₄⟩ ⟨locked w', p₅⟩ :=
    .act (rfl : p₄ .gc = .running .testing) rfl ⟨rfl, rfl⟩
  let p₆ := Function.update p₅ .gc (.running .leaving)
  have hcheck : Step M .gc ⟨locked w', p₅⟩ ⟨locked w', p₆⟩ :=
    .act (rfl : p₅ .gc = .running .checking) rfl ⟨rfl, rfl⟩
  let p₇ := Function.update p₆ .gc (.running .ended)
  have hleave : Step M .gc ⟨locked w', p₆⟩ ⟨unlocked (locked w'), p₇⟩ :=
    .act (rfl : p₆ .gc = .running .leaving) rfl ⟨rfl, rfl⟩
  let last : Threads Unit (World smallDrive.drive) :=
    ⟨unlocked (locked w'), Function.update p₇ .deinit (.running .joined)⟩
  have hjoin : Step M .deinit ⟨unlocked (locked w'), p₇⟩ last :=
    .await (rfl : p₇ .deinit = .running .joining) rfl rfl
  have hopened : Opened World.ftl (⟨fresh smallDrive, startPoints⟩ : Threads Unit _) :=
    ⟨fun _ => rfl, rfl, rfl, rfl, rfl, rfl⟩
  have hfirst : Run (Opened World.ftl) (Step M) [] ⟨fresh smallDrive, startPoints⟩ := .start hopened
  obtain ⟨tr, hr⟩ := hfirst.extend hsleep
  have hlast := (((((((hr.step hbegin).step hstop).step hsignal).step hwake).step htest).step
    hcheck).step hleave).step hjoin
  refine ⟨_, last, hlast, rfl, fun hhung => ?_⟩
  obtain ⟨⟨pc, hpc⟩, -⟩ := (hung_iff exec World.ftl faithful_exec smallDrive.config _ _ last
    hlast).1.mp hhung
  cases hpc

/-- **A shutdown that hangs.**  The collector tests the flags, the shutdown sets its flag and
signals, the collector goes to sleep. -/
theorem shutdown_hangs :
    let start : Threads Unit (World smallDrive.drive) := ⟨fresh smallDrive, startPoints⟩
    let M := onDrive smallDrive.drive smallDrive.config fun _ : Unit => ⟨0, 4096, fun _ => 7⟩
    ∃ s, Relation.ReflTransGen (fun s s' => ∃ t, Step M t s s') start s ∧ Opened World.ftl start ∧
      Hung World.ftl s ∧ ∀ t s', ¬ Step M t s s' := by
  intro start M
  -- the collector finds nothing to do
  let w := locked (fresh smallDrive)
  let p₁ := Function.update start.thread .gc (.running .testing)
  have hlock : Step M .gc start ⟨w, p₁⟩ :=
    .lock (rfl : start.thread .gc = .running .locking) rfl rfl
  let p₂ := Function.update p₁ .gc (.running .waiting)
  have htest : Step M .gc ⟨w, p₁⟩ ⟨w, p₂⟩ :=
    .act (rfl : p₁ .gc = .running .testing) rfl ⟨rfl, rfl⟩
  -- the shutdown sets its flag and signals
  let p₃ := Function.update p₂ .deinit (.running .stopping)
  have hbegin : Step M .deinit ⟨w, p₂⟩ ⟨w, p₃⟩ :=
    .await (rfl : p₂ .deinit = .running .idle) rfl fun _ => Or.inl rfl
  let w' : World smallDrive.drive := ⟨{ w.ftl with gcThreadStop := true }, w.media⟩
  let p₄ := Function.update p₃ .deinit (.running .signalling)
  have hstop : Step M .deinit ⟨w, p₃⟩ ⟨w', p₄⟩ :=
    .act (rfl : p₃ .deinit = .running .stopping) rfl ⟨rfl, rfl⟩
  let p₅ := Function.update p₄ .deinit (.running .joining)
  have hsignal : Step M .deinit ⟨w', p₄⟩ ⟨w', p₅⟩ := by
    refine .lost (rfl : p₄ .deinit = .running .signalling) rfl ?_
    rintro (i | _ | _) pc hpc
    · cases hpc
    · cases hpc
    · cases hpc
  -- the collector goes to sleep
  let last : Threads Unit (World smallDrive.drive) :=
    ⟨unlocked w', Function.update p₅ .gc (.asleep .startGc .testing)⟩
  have hwait : Step M .gc ⟨w', p₅⟩ last := .wait (rfl : p₅ .gc = .running .waiting) rfl
  have hhung : Hung World.ftl last := ⟨rfl, ⟨_, rfl⟩, rfl, fun _ => Or.inl rfl⟩
  exact ⟨_, .head ⟨_, hlock⟩ (.head ⟨_, htest⟩ (.head ⟨_, hbegin⟩ (.head ⟨_, hstop⟩
    (.head ⟨_, hsignal⟩ (.single ⟨_, hwait⟩))))), ⟨fun _ => rfl, rfl, rfl, rfl, rfl, rfl⟩, hhung,
    fun t s' => hhung.not_step⟩

end StoSys
