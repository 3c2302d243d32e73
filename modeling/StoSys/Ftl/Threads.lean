import StoSys.Lib.Monitor
import StoSys.Ftl.Frame

/-!
# Writers, the collector and the shutdown

Each call of `zns_udevice_write`, the loop of `trigger_gc` and `deinit_ss_zns_device` are threads
around `gc_mutex`.  Their points are the places where one of them can be overtaken by another; what
happens between two of them is code of the sequential model, run at once.  In particular a
collection, and the body of a write, run with the mutex held and are one step each.

There is one thread for every call of `zns_udevice_write` that is ever made, so "any number of
writers" is any type of calls.  A device is shut down when the calls on it have returned, and not
used afterwards.
-/

namespace StoSys

open Effect HashMap CInt Monitor Transitions

variable {B σ ι : Type}

/-- The condition variables. -/
inductive Cond where
  | startGc
  | stopGc
  deriving DecidableEq

inductive Thread (ι : Type) where
  | writer (i : ι)
  | gc
  | deinit
  deriving DecidableEq

/-- Points of `zns_udevice_write`. -/
inductive WritePoint where
  /-- not called yet -/
  | idle
  | locking
  /-- at the test of the `while` loop -/
  | testing
  /-- about to set `trigger_my_gc` -/
  | triggering
  | signalling
  | waiting
  /-- behind the loop -/
  | writing
  | returned (ret : ℤ)

/-- Points of `trigger_gc`. -/
inductive GcPoint where
  | locking
  /-- at the test of the inner `while` loop -/
  | testing
  | waiting
  /-- behind the inner loop, at the test of `gc_thread_stop` -/
  | checking
  | leaving
  | ended
  | collecting
  | signalling
  | unlocking

/-- Points of `deinit_ss_zns_device`. -/
inductive DeinitPoint where
  | idle
  /-- about to set `gc_thread_stop` -/
  | stopping
  | signalling
  | joining
  | joined

/-- The points of each thread. -/
abbrev Point : Thread ι → Type
  | .writer _ => WritePoint
  | .gc => GcPoint
  | .deinit => DeinitPoint

/-- The arguments of a call. -/
structure Request (B : Type) where
  address : ℕ
  size : ℕ
  buf : Buffer B

abbrev Threads (ι σ : Type) : Type := Monitor.State (Thread ι) σ Cond Point

/-- The code at a point of thread `t`. -/
abbrev Code (ι σ : Type) (t : Thread ι) : Type := Instr (Thread ι) σ Cond Point (Point t)

/-- A call that has not begun, or has come to an end. -/
def Inactive (s : Points (Thread ι) Cond Point) (i : ι) : Prop :=
  s (.writer i) = .running .idle ∨ ∃ ret, s (.writer i) = .running (.returned ret)

section Machine

variable [Zero B] (h : Handler (Op B) Op.Res σ) (mem : σ → Ftl) (c : Config)

/-- A piece of the sequential model, which goes on where its answer says. -/
def atomically {α Q : Type} (p : Prog B α) (next : α → Q) : Instr (Thread ι) σ Cond Point Q :=
  .act fun x y q => y = (p.run h x).2 ∧ q = next (p.run h x).1

/-- `zns_udevice_write` -/
def writeCode (r : Request B) (i : ι) : WritePoint → Code ι σ (.writer i)
  | .idle => .await (fun s => s .deinit = .running .idle)
      (if r.size % c.lbaSizeBytes ≠ 0 then .returned (-1) else .locking)
  | .locking => .lock .testing
  | .testing => atomically h getFtl fun m =>
      if freeZoneNumber c m (toI32 (r.size / c.lbaSizeBytes : ℕ)) ≤ c.gcWatermark then .triggering
      else .writing
  | .triggering => atomically h (modifyFtl fun m => { m with triggerMyGc := true }) fun _ => .signalling
  | .signalling => .signal .startGc .waiting
  | .waiting => .wait .stopGc .testing
  | .writing => atomically h (writeBody c r.address r.size r.buf) .returned
  | .returned _ => .stop

/-- `trigger_gc` -/
def gcCode : GcPoint → Code ι σ .gc
  | .locking => .lock .testing
  | .testing => atomically h getFtl fun m =>
      if !m.gcThreadStop && !m.triggerMyGc then .waiting else .checking
  | .waiting => .wait .startGc .testing
  | .checking => atomically h getFtl fun m => if m.gcThreadStop then .leaving else .collecting
  | .leaving => atomically h (modifyFtl fun m => { m with gcMutex := false }) fun _ => .ended
  | .ended => .stop
  | .collecting => .act fun x y q =>
      ∃ ord, y = ((triggerGc c ord : Prog B Unit).run h x).2 ∧ q = .signalling
  | .signalling => .signal .stopGc .unlocking
  | .unlocking => atomically h (modifyFtl fun m => { m with gcMutex := false }) fun _ => .locking

/-- `deinit_ss_zns_device`, up to the end of `pthread_join` -/
def deinitCode : DeinitPoint → Code ι σ .deinit
  | .idle => .await (fun s => ∀ i, Inactive s i) .stopping
  | .stopping => atomically h (modifyFtl fun m => { m with gcThreadStop := true }) fun _ => .signalling
  | .signalling => .signal .startGc .joining
  | .joining => .await (fun s => s .gc = .running .ended) .joined
  | .joined => .stop

variable {h mem}

/-- The threads of a process, with the calls `req`.

A pass and the body of a write are one step each: nobody who takes the mutex sees into them.
`zns_udevice_read` takes none, and may fall into the middle of one in the source; the states of this
machine are the moments at which none is under way. -/
def process (hh : Faithful h mem) (req : ι → Request B) : Machine (Thread ι) σ Cond Point where
  code
    | .writer i => writeCode h c (req i) i
    | .gc => gcCode h c
    | .deinit => deinitCode h
  held x := (mem x).gcMutex
  take x := ((modifyFtl fun m => { m with gcMutex := true } : Prog B Unit).run h x).2
  release x := ((modifyFtl fun m => { m with gcMutex := false } : Prog B Unit).run h x).2
  held_take x := congrArg Ftl.gcMutex (mem_modifyFtl hh _ x)
  held_release x := congrArg Ftl.gcMutex (mem_modifyFtl hh _ x)

end Machine

/-- The device has been opened: no call has been made, and the thread of the collector is about to
start. -/
structure Opened (mem : σ → Ftl) (s : Threads ι σ) : Prop where
  writer : ∀ i, s.thread (.writer i) = .running .idle
  gc : s.thread .gc = .running .locking
  deinit : s.thread .deinit = .running .idle
  gcMutex : (mem s.shared).gcMutex = false
  triggerMyGc : (mem s.shared).triggerMyGc = false
  gcThreadStop : (mem s.shared).gcThreadStop = false

/-- The points of the threads when the device has been opened. -/
def startPoints : Points (Thread ι) Cond Point
  | .writer _ => .running .idle
  | .gc => .running .locking
  | .deinit => .running .idle

/-! ## Who holds the mutex, and what is true under it -/

def WritePoint.holding : WritePoint → Bool
  | .idle | .locking | .returned _ => false
  | _ => true

def GcPoint.holding : GcPoint → Bool
  | .locking | .ended => false
  | _ => true

/-- The points behind `pthread_mutex_lock`. -/
def holding : (t : Thread ι) → Point t → Bool
  | .writer _, pc => pc.holding
  | .gc, pc => pc.holding
  | .deinit, _ => false

/-- What a thread knows of the flags. -/
def flags : (t : Thread ι) → Point t → Ftl → Prop
  | .writer _, .signalling, m | .writer _, .waiting, m => m.triggerMyGc = true
  | .gc, .checking, m => m.gcThreadStop = true ∨ m.triggerMyGc = true
  | .gc, .collecting, m => m.triggerMyGc = true
  | .gc, .signalling, m => m.triggerMyGc = false
  | _, _, _ => True

/-- `deinit_ss_zns_device` sets its flag without the mutex, and nobody is the wiser. -/
lemma flags_stopped {t : Thread ι} {pc : Point t} {m : Ftl} (hflags : flags t pc m) :
    flags t pc { m with gcThreadStop := true } := by
  cases t with
  | gc =>
      cases pc with
      | checking => exact Or.inl rfl
      | _ => exact hflags
  | _ => cases pc <;> exact hflags

section Process

variable [Zero B] {h : Handler (Op B) Op.Res σ} {mem : σ → Ftl} (hh : Faithful h mem) (c : Config)
  (req : ι → Request B)

variable {hh c req}

/-- A collection leaves the mutex alone. -/
lemma mem_triggerGc_mutex (hh : Faithful h mem) (c : Config) (ord : HashOrder) (x : σ) :
    (mem ((triggerGc c ord : Prog B Unit).run h x).2).gcMutex = (mem x).gcMutex :=
  Keeps.triggerGc (P := fun m => m.gcMutex = (mem x).gcMutex) hh (fun _ _ _ _ hm => hm)
    (fun _ hm => hm) c ord x rfl

/-- **`gc_mutex` guards what is behind `pthread_mutex_lock`.** -/
lemma guarded : Guarded (process c hh req) holding where
  wait {t pc cv next} hcode := by
    cases t <;> cases pc <;> cases hcode <;> rfl
  signal {t pc cv next} hcode := by
    cases t <;> cases pc <;> cases hcode <;> exact id
  await {t pc ready next} hcode := by
    cases t with
    | writer i =>
        cases pc <;> cases hcode
        split
        · exact id
        · exact id
    | _ => cases pc <;> cases hcode <;> exact id
  act {t pc result x y next} hcode hx := by
    cases t with
    | writer i =>
        cases pc with
        | testing =>
            cases hcode
            rw [hx.1]
            exact ⟨fun _ => rfl, fun _ => congrArg Ftl.gcMutex (mem_getFtl hh x)⟩
        | triggering =>
            cases hcode
            rw [hx.1]
            exact ⟨fun _ => rfl, fun _ => (congrArg Ftl.gcMutex (mem_modifyFtl hh _ x)).trans rfl⟩
        | writing =>
            cases hcode
            rw [hx.2]
            exact ⟨fun _ => rfl, fun hsame => Bool.noConfusion hsame⟩
        | _ => cases hcode
    | gc =>
        cases pc with
        | testing =>
            cases hcode
            rw [hx.1]
            exact ⟨fun _ => rfl, fun _ => congrArg Ftl.gcMutex (mem_getFtl hh x)⟩
        | checking =>
            cases hcode
            rw [hx.1]
            exact ⟨fun _ => rfl, fun _ => congrArg Ftl.gcMutex (mem_getFtl hh x)⟩
        | collecting =>
            cases hcode
            obtain ⟨ord, rfl, rfl⟩ := hx
            exact ⟨fun _ => rfl, fun _ => mem_triggerGc_mutex hh c ord x⟩
        | leaving =>
            cases hcode
            rw [hx.2]
            exact ⟨fun _ => rfl, fun hsame => Bool.noConfusion hsame⟩
        | unlocking =>
            cases hcode
            rw [hx.2]
            exact ⟨fun _ => rfl, fun hsame => Bool.noConfusion hsame⟩
        | _ => cases hcode
    | deinit =>
        cases pc <;> cases hcode
        rw [hx.1, hx.2]
        exact ⟨id, fun _ => (congrArg Ftl.gcMutex (mem_modifyFtl hh _ x)).trans rfl⟩

/-- At the end of a collection the request is withdrawn. -/
lemma mem_triggerGc_trigger (hh : Faithful h mem) (c : Config) (ord : HashOrder) (x : σ) :
    (mem ((triggerGc c ord : Prog B Unit).run h x).2).triggerMyGc = false := by
  obtain ⟨m, -, hm⟩ := triggerGc_rewinds (P := fun _ => True) hh (fun _ _ _ _ _ => trivial) c ord x
    trivial
  rw [hm]
  rfl

/-- **The flags.** -/
lemma annotated : Annotated (process c hh req) holding fun t pc x => flags t pc (mem x) where
  lock {t pc next} x hcode := by
    cases t <;> cases pc <;> cases hcode <;> trivial
  wake {t pc cv next} x hcode := by
    cases t <;> cases pc <;> cases hcode <;> trivial
  signal {t pc cv next x} hcode hflags := by
    cases t with
    | writer i =>
        cases pc <;> cases hcode
        exact hflags
    | gc =>
        cases pc <;> cases hcode
        trivial
    | deinit =>
        cases pc <;> cases hcode
        trivial
  await {t pc ready next x} hcode hflags := by
    cases t with
    | writer i =>
        cases pc <;> cases hcode
        split
        · trivial
        · trivial
    | _ => cases pc <;> cases hcode <;> trivial
  act {t pc result x y next} hcode hx hholding hflags := by
    cases t with
    | writer i =>
        cases pc with
        | testing =>
            cases hcode
            rw [hx.2]
            dsimp only
            split
            · trivial
            · trivial
        | triggering =>
            cases hcode
            rw [hx.1, hx.2]
            exact congrArg Ftl.triggerMyGc (mem_modifyFtl hh _ x)
        | writing =>
            cases hcode
            rw [hx.2] at hholding
            exact Bool.noConfusion hholding
        | _ => cases hcode
    | gc =>
        cases pc with
        | testing =>
            cases hcode
            rw [hx.1, hx.2, run_getFtl_fst hh, mem_getFtl hh]
            dsimp only
            split
            case isTrue => trivial
            case isFalse hset =>
              rw [← Bool.not_or, Bool.not_eq_true', Bool.not_eq_false, Bool.or_eq_true] at hset
              exact hset
        | checking =>
            cases hcode
            rw [hx.1, hx.2, run_getFtl_fst hh, mem_getFtl hh]
            dsimp only
            split
            case isTrue => trivial
            case isFalse hset => exact hflags.resolve_left hset
        | collecting =>
            cases hcode
            obtain ⟨ord, rfl, rfl⟩ := hx
            exact mem_triggerGc_trigger hh c ord x
        | leaving =>
            cases hcode
            rw [hx.2] at hholding
            exact Bool.noConfusion hholding
        | unlocking =>
            cases hcode
            rw [hx.2] at hholding
            exact Bool.noConfusion hholding
        | _ => cases hcode
    | deinit => cases hholding
  outside {t pc result x y next} hcode hx hfree {u pc'} hflags := by
    cases t with
    | deinit =>
        cases pc <;> cases hcode
        rw [hx.1, mem_modifyFtl hh]
        exact flags_stopped hflags
    | _ => cases pc <;> cases hcode <;> cases hfree

/-- The threads that start do not hold the mutex. -/
lemma Opened.started {s : Threads ι σ} (ho : Opened mem s) : Started holding s := by
  intro t
  cases t with
  | writer i => exact ⟨_, ho.writer i, rfl⟩
  | gc => exact ⟨_, ho.gc, rfl⟩
  | deinit => exact ⟨_, ho.deinit, rfl⟩

variable [DecidableEq ι]

/-- The runs of a process. -/
abbrev Schedule (hh : Faithful h mem) (c : Config) (req : ι → Request B)
    (tr : List (Threads ι σ × Thread ι)) (s : Threads ι σ) : Prop :=
  Run (Opened mem) (Step (process c hh req)) tr s

/-- **In every interleaving** the mutex excludes, and the flags are what the threads take them
for. -/
theorem Schedule.valid {tr : List (Threads ι σ × Thread ι)} {s : Threads ι σ}
    (hr : Schedule hh c req tr s) :
    Valid (process c hh req) holding (fun t pc x => flags t pc (mem x)) s :=
  Valid.run guarded annotated (fun _ ho => ho.started) hr

/-! ## Who sleeps where -/

section Asleep

variable {s : Threads ι σ}
  (hv : Valid (process c hh req) holding (fun t pc x => flags t pc (mem x)) s)
include hv

omit [DecidableEq ι] in
/-- Only writers sleep on `stop_gc` … -/
lemma asleep_stopGc {t : Thread ι} {pc : Point t} (hpc : s.thread t = .asleep .stopGc pc) :
    ∃ i, t = .writer i := by
  obtain ⟨pc₀, hcode⟩ := hv.slept hpc
  cases t with
  | writer i => exact ⟨i, rfl⟩
  | _ => cases pc₀ <;> cases hcode

omit [DecidableEq ι] in
/-- … and only the collector on `start_gc`. -/
lemma asleep_startGc {t : Thread ι} {pc : Point t} (hpc : s.thread t = .asleep .startGc pc) :
    t = .gc := by
  obtain ⟨pc₀, hcode⟩ := hv.slept hpc
  cases t with
  | gc => rfl
  | _ => cases pc₀ <;> cases hcode

end Asleep

/-! ## What a step does -/

section Step

variable {s s' : Threads ι σ} {t : Thread ι}

/-- **The request for a collection** is made by a writer and withdrawn by the collection. -/
lemma trigger_step (hs : Step (process c hh req) t s s') :
    (mem s'.shared).triggerMyGc = (mem s.shared).triggerMyGc ∨
      (∃ i, s.thread (.writer i) = .running .triggering ∧
        s'.thread (.writer i) = .running .signalling ∧ (mem s'.shared).triggerMyGc = true) ∨
      t = .gc ∧ s.thread .gc = .running .collecting ∧ s'.thread .gc = .running .signalling := by
  rcases hs.shared_cases with (heq | heq | heq) | ⟨pc, result, next, hpc, hcode, hx, hnext⟩
  · rw [heq]
    exact Or.inl rfl
  · rw [heq]
    exact Or.inl ((congrArg Ftl.triggerMyGc (mem_modifyFtl hh _ _)).trans rfl)
  · rw [heq]
    exact Or.inl ((congrArg Ftl.triggerMyGc (mem_modifyFtl hh _ _)).trans rfl)
  · cases t with
    | writer i =>
        cases pc with
        | testing =>
            cases hcode
            exact Or.inl (hx.1 ▸ congrArg Ftl.triggerMyGc (mem_getFtl hh _))
        | triggering =>
            cases hcode
            obtain ⟨hx, rfl⟩ := hx
            rw [hx, mem_modifyFtl hh]
            exact Or.inr (Or.inl ⟨i, hpc, hnext, rfl⟩)
        | writing =>
            cases hcode
            rw [hx.1]
            exact Or.inl (Keeps.writeBody
              (P := fun m => m.triggerMyGc = (mem s.shared).triggerMyGc) hh (fun _ _ _ _ hm => hm)
              (fun _ _ hm => hm) (fun _ hm => hm) c _ _ _ _ rfl)
        | _ => cases hcode
    | gc =>
        cases pc with
        | testing =>
            cases hcode
            exact Or.inl (hx.1 ▸ congrArg Ftl.triggerMyGc (mem_getFtl hh _))
        | checking =>
            cases hcode
            exact Or.inl (hx.1 ▸ congrArg Ftl.triggerMyGc (mem_getFtl hh _))
        | collecting =>
            cases hcode
            obtain ⟨ord, -, rfl⟩ := hx
            exact Or.inr (Or.inr ⟨rfl, hpc, hnext⟩)
        | leaving =>
            cases hcode
            rw [hx.1, mem_modifyFtl hh]
            exact Or.inl rfl
        | unlocking =>
            cases hcode
            rw [hx.1, mem_modifyFtl hh]
            exact Or.inl rfl
        | _ => cases hcode
    | deinit =>
        cases pc <;> cases hcode
        rw [hx.1, mem_modifyFtl hh]
        exact Or.inl rfl

/-- The collector signals after a collection. -/
lemma signalling_step
    (hv : Valid (process c hh req) holding (fun t pc x => flags t pc (mem x)) s)
    (hs : Step (process c hh req) t s s') (hgc : s'.thread .gc = .running .signalling) :
    s.thread .gc = .running .signalling ∨ s.thread .gc = .running .collecting := by
  by_cases ht : Thread.gc = t
  · subst ht
    rcases hs.reached hgc with hwoken | ⟨pc, hpc, hreach⟩
    · obtain ⟨pc₀, cv, hcode⟩ := hv.roused hwoken
      cases pc₀ <;> cases hcode
    · cases pc with
      | collecting => exact Or.inr hpc
      | testing =>
          obtain ⟨x, y, -, hnext⟩ := hreach
          dsimp only at hnext
          split at hnext <;> cases hnext
      | checking =>
          obtain ⟨x, y, -, hnext⟩ := hreach
          dsimp only at hnext
          split at hnext <;> cases hnext
      | leaving | unlocking =>
          obtain ⟨x, y, -, hnext⟩ := hreach
          cases hnext
      | _ => cases hreach
  · rcases hs.other ht with heq | ⟨cv, pc, -, heq, -⟩
    · exact Or.inl (heq.symm.trans hgc)
    · cases heq.symm.trans hgc

/-- A property of the memory that each piece of the code keeps. -/
lemma keeps_step {P : Ftl → Prop} (hP : Coarse P) (hend : ∀ m e, P m → P { m with logZoneEnd := e })
    (hmutex : ∀ m b, P m → P { m with gcMutex := b })
    (htrigger : ∀ m b, P m → P { m with triggerMyGc := b })
    (hstop : ∀ m, P m → P { m with gcThreadStop := true })
    (hs : Step (process c hh req) t s s') (hbefore : P (mem s.shared)) : P (mem s'.shared) := by
  have hget : P (mem ((getFtl : Prog B Ftl).run h s.shared).2) := by
    rw [mem_getFtl hh]
    exact hbefore
  have hmodify : ∀ {f : Ftl → Ftl}, (∀ m, P m → P (f m)) →
      P (mem ((modifyFtl f : Prog B Unit).run h s.shared).2) := fun hf => by
    rw [mem_modifyFtl hh]
    exact hf _ hbefore
  have hrewound : ∀ m, P m → P (rewound m) := fun m hm =>
    hP { m with logZoneEnd := m.logZoneStart, triggerMyGc := false } ∅ m.dataZoneMapping
      m.zoneStates (htrigger _ false (hend m m.logZoneStart hm))
  rcases hs.shared_cases with (heq | heq | heq) | ⟨pc, result, next, -, hcode, hx, -⟩
  · rw [heq]
    exact hbefore
  · rw [heq]
    exact hmodify fun m hm => hmutex m true hm
  · rw [heq]
    exact hmodify fun m hm => hmutex m false hm
  · cases t with
    | writer i =>
        cases pc with
        | testing =>
            cases hcode
            exact hx.1 ▸ hget
        | triggering =>
            cases hcode
            exact hx.1 ▸ hmodify fun m hm => htrigger m true hm
        | writing =>
            cases hcode
            rw [hx.1]
            exact Keeps.writeBody hh hP hend (fun m hm => hmutex m false hm) c _ _ _ _ hbefore
        | _ => cases hcode
    | gc =>
        cases pc with
        | testing =>
            cases hcode
            exact hx.1 ▸ hget
        | checking =>
            cases hcode
            exact hx.1 ▸ hget
        | leaving =>
            cases hcode
            exact hx.1 ▸ hmodify fun m hm => hmutex m false hm
        | collecting =>
            cases hcode
            obtain ⟨ord, heq, -⟩ := hx
            rw [heq]
            exact Keeps.triggerGc hh hP hrewound c ord _ hbefore
        | unlocking =>
            cases hcode
            exact hx.1 ▸ hmodify fun m hm => hmutex m false hm
        | _ => cases hcode
    | deinit =>
        cases pc <;> cases hcode
        exact hx.1 ▸ hmodify hstop

end Step

end Process

end StoSys
