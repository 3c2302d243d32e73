import StoSys.Ftl.ZnsDevice

/-!
# What the code does to the process memory

Whatever a device answers, it does not write to the memory of the process: only `Op.modify` does.
`Faithful` says this of an environment, and then says nothing about answers, so a fact proved for
every faithful environment holds on a working drive, under every pattern of failures and against a
drive that answers anything.

`Throughout` is such a fact: a property of the memory that is true at every instant of a program;
`Keeps` only says that it is true again at the end.  The code of a merge changes the two maps and
the zone states, in three places (`MergeKeeps`), so it keeps every property that these do not enter
(`Coarse`).
-/

namespace StoSys

open Effect HashMap CInt

variable {B σ α β : Type}

/-- What an operation does to the memory. -/
def Op.effect : Op B → Ftl → Ftl
  | .modify f => f
  | _ => id

/-- **Environments**, over states of which `mem` is the process memory. -/
structure Faithful (h : Handler (Op B) Op.Res σ) (mem : σ → Ftl) : Prop where
  get : ∀ s, (h .get s).1 = mem s
  effect : ∀ o s, mem (h o s).2 = o.effect (mem s)

section Faithful

variable {h : Handler (Op B) Op.Res σ} {mem : σ → Ftl} (hh : Faithful h mem)
include hh

lemma run_getFtl_fst (s : σ) : ((getFtl : Prog B Ftl).run h s).1 = mem s := hh.get s

lemma mem_getFtl (s : σ) : mem ((getFtl : Prog B Ftl).run h s).2 = mem s := hh.effect _ s

lemma mem_modifyFtl (f : Ftl → Ftl) (s : σ) :
    mem ((modifyFtl f : Prog B Unit).run h s).2 = f (mem s) := hh.effect _ s

end Faithful

/-- The working drive. -/
lemma faithful_exec {d : Zoned.Drive B} : Faithful (exec (d := d)) World.ftl := by
  refine ⟨fun _ => rfl, fun o s => ?_⟩
  cases o with
  | nvmeRead slba nlb dataLen off =>
      dsimp only [exec]
      split
      · split <;> rfl
      · rfl
  | nvmeWrite slba nlb dataLen off payload =>
      dsimp only [exec]
      split
      · split <;> rfl
      · rfl
  | nvmeZnsAppend zslba nlb dataLen payload =>
      dsimp only [exec]
      split
      · split <;> rfl
      · rfl
  | nvmeZnsReset slba selectAll =>
      dsimp only [exec]
      split
      · rfl
      · split <;> rfl
  | _ => rfl

/-- `P` is true of the memory at every instant of the program. -/
def Throughout (h : Handler (Op B) Op.Res σ) (mem : σ → Ftl) (P : Ftl → Prop) (p : Prog B α) :
    Prop :=
  ∀ s, P (mem s) → Program.Always h (fun s => P (mem s)) p s

/-- The program leaves `P` true of the memory. -/
abbrev Keeps (h : Handler (Op B) Op.Res σ) (mem : σ → Ftl) (P : Ftl → Prop) (p : Prog B α) : Prop :=
  Program.Triple h (fun s => P (mem s)) p fun _ s => P (mem s)

/-- Neither the maps nor the zone states enter `P`. -/
def Coarse (P : Ftl → Prop) : Prop :=
  ∀ m log data states, P m →
    P { m with logZoneMapping := log, dataZoneMapping := data, zoneStates := states }

/-- **What a merge does to the memory** keeps `P`: marking a zone, giving a virtual zone what
`next_empty_zone` has found, and overwriting a log entry that has been read. -/
structure MergeKeeps (c : Config) (P : Ftl → Prop) : Prop where
  mark : ∀ m i state, P m → P (m.setZoneState i state)
  give : ∀ m m' v, nextEmptyZone c m' ≠ -1 → P m →
    P { m with dataZoneMapping := m.dataZoneMapping.insert v (nextEmptyZone c m') }
  invalidate : ∀ m address, P m → P { m with
    logZoneMapping := m.logZoneMapping.insert address
      (StoSys.invalidate ((m.logZoneMapping.lookup address).getD 0)) }

lemma Coarse.mergeKeeps {P : Ftl → Prop} (hP : Coarse P) (c : Config) : MergeKeeps c P where
  mark m _ _ hm := hP m m.logZoneMapping m.dataZoneMapping _ hm
  give m _ _ _ hm := hP m m.logZoneMapping _ m.zoneStates hm
  invalidate m _ hm := hP m _ m.dataZoneMapping m.zoneStates hm

namespace Throughout

variable {h : Handler (Op B) Op.Res σ} {mem : σ → Ftl} {P : Ftl → Prop}

lemma keeps {p : Prog B α} (hp : Throughout h mem P p) : Keeps h mem P p :=
  fun s hs => (hp s hs).last

lemma pure (a : α) : Throughout h mem P (Pure.pure a : Prog B α) :=
  fun _ hs => Program.always_pure.mpr hs

lemma bind {p : Prog B α} {f : α → Prog B β} (hp : Throughout h mem P p)
    (hf : ∀ a, Throughout h mem P (f a)) : Throughout h mem P (p >>= f) :=
  fun s hs => Program.always_bind.mpr ⟨hp s hs, hf _ _ (hp s hs).last⟩

lemma ite {c : Prop} [Decidable c] {p q : Prog B α} (hp : c → Throughout h mem P p)
    (hq : ¬ c → Throughout h mem P q) : Throughout h mem P (if c then p else q) := by
  split
  · exact hp ‹_›
  · exact hq ‹_›

variable (hh : Faithful h mem)
include hh

/-- A command, or a look at the memory. -/
lemma perform {o : Op B} (ho : o.effect = id) : Throughout h mem P (Program.perform o) := by
  intro s hs
  refine Program.always_perform.mpr ⟨hs, ?_⟩
  rw [hh.effect, ho]
  exact hs

lemma modify {f : Ftl → Ftl} (hf : ∀ m, P m → P (f m)) : Throughout h mem P (modifyFtl f) := by
  intro s hs
  refine Program.always_perform.mpr ⟨hs, ?_⟩
  rw [hh.effect]
  exact hf _ hs

/-! ## Transfers and reads -/

lemma ioLoop (c : Config) (base : ℤ) (read : Bool) :
    ∀ (fuel sizeToIo bufPtr writePointer : ℕ) (buf : Buffer B),
      Throughout h mem P (StoSys.ioLoop c base read fuel sizeToIo bufPtr writePointer buf)
  | 0, _, _, _, _ => pure _
  | fuel + 1, sizeToIo, bufPtr, writePointer, buf => by
      rw [StoSys.ioLoop]
      refine ite (fun _ => ite (fun _ => ?_) fun _ => ?_) fun _ => pure _
      · exact bind (perform hh rfl) fun r =>
          ite (fun _ => pure _) fun _ => ioLoop c base read fuel _ _ _ _
      · exact bind (perform hh rfl) fun r =>
          ite (fun _ => pure _) fun _ => ioLoop c base read fuel _ _ _ _

lemma readLoop [Zero B] (c : Config) (size bound : ℕ) : ∀ (fuel i numRead : ℕ) (buf : Buffer B),
    Throughout h mem P (StoSys.readLoop c size bound fuel i numRead buf)
  | 0, _, _, _ => pure _
  | fuel + 1, i, numRead, buf => by
      rw [StoSys.readLoop]
      refine ite (fun _ => bind (perform hh rfl) fun m => ?_) fun _ => pure _
      split
      · exact pure _
      · refine ite (fun _ => bind (perform hh rfl) fun r => ?_) fun _ =>
          bind (ioLoop hh _ _ _ _ _ _ _ _) fun r => ?_
        · exact ite (fun _ => pure _) fun _ => readLoop c size bound fuel _ _ _
        · exact ite (fun _ => pure _) fun _ => readLoop c size bound fuel _ _ _

/-- A read leaves the memory as it is. -/
lemma znsUdeviceRead [Zero B] (c : Config) (address size : ℕ) (buf : Buffer B) :
    Throughout h mem P (StoSys.znsUdeviceRead c address size buf) :=
  ite (fun _ => pure _) fun _ => readLoop hh c _ _ _ _ _ _

/-! ## Merging -/

lemma readLogBlocks (c : Config) : ∀ (blocks : List (Sigma fun _ : ℤ => ℤ)) (buf : Buffer B),
    Throughout h mem P (StoSys.readLogBlocks c blocks buf)
  | [], _ => pure _
  | ⟨_, _⟩ :: rest, _ =>
      bind (perform hh rfl) fun _ => ite (fun _ => pure _) fun _ => readLogBlocks c rest _

lemma resetLogZones (c : Config) : ∀ k i : ℕ, Throughout h mem P (StoSys.resetLogZones c i k)
  | 0, _ => pure _
  | k + 1, i => bind (perform hh rfl) fun _ => resetLogZones c k (i + 1)

variable {c : Config} (hP : MergeKeeps c P)
include hP

lemma setZoneState (i : ℤ) (state : ℕ) :
    Throughout h mem P (modifyFtl fun m => m.setZoneState i state) :=
  modify hh fun m hm => hP.mark m i state hm

lemma readOldZone (v : ℤ) (buf : Buffer B) :
    Throughout h mem P (StoSys.readOldZone c v buf) := by
  refine bind (perform hh rfl) fun m => ?_
  split
  · exact pure _
  · refine bind (ioLoop hh c 0 true _ _ _ _ _) fun r => ite (fun _ => pure _) fun _ => ?_
    exact bind (setZoneState hh hP _ _) fun _ => pure _

lemma mergeInPlace (z prev : ℤ) (buf : Buffer B) :
    Throughout h mem P (StoSys.mergeInPlace c z prev buf) := by
  refine bind (perform hh rfl) fun _ => bind (ioLoop hh c 0 false _ _ _ _ _) fun r => ?_
  refine ite (fun _ => pure _) fun _ => bind (setZoneState hh hP _ _) fun _ => ?_
  exact bind (perform hh rfl) fun _ => pure _

lemma mergeInto (v prev : ℤ) {m' : Ftl} (hfound : nextEmptyZone c m' ≠ -1) (buf : Buffer B) :
    Throughout h mem P (StoSys.mergeInto c v (nextEmptyZone c m') prev buf) := by
  have hgive : Throughout h mem P (modifyFtl fun m =>
      { m with dataZoneMapping := m.dataZoneMapping.insert v (nextEmptyZone c m') }
        : Prog B Unit) :=
    modify hh fun m hm => hP.give m m' v hfound hm
  refine bind (ioLoop hh c 0 false _ _ _ _ _) fun r => ite (fun _ => pure _) fun _ =>
    bind hgive fun _ => ?_
  refine bind (setZoneState hh hP _ _) fun _ => ite (fun _ => ?_) fun _ => pure _
  exact bind (perform hh rfl) fun _ => pure _

lemma mergeZone (v : ℤ) (blocks : List (Sigma fun _ : ℤ => ℤ)) (buf : Buffer B) :
    Throughout h mem P (StoSys.mergeZone c v blocks buf) := by
  refine bind (perform hh rfl) fun m => bind (readOldZone hh hP v buf) fun old => ?_
  refine ite (fun _ => pure _) fun _ => bind (readLogBlocks hh c _ _) fun r => ?_
  refine ite (fun _ => pure _) fun _ => ite (fun _ => ?_) fun hfound => ?_
  · exact mergeInPlace hh hP _ _ _
  · exact mergeInto hh hP v _ hfound _

/-- **A merge**, also one that fails. -/
lemma mergeLoop (ord : HashOrder) :
    ∀ (sets : List (Sigma fun _ : ℤ => UMap ℤ)) (buf : Buffer B),
      Throughout h mem P (StoSys.mergeLoop c ord sets buf)
  | [], _ => pure _
  | ⟨v, _⟩ :: rest, buf =>
      bind (mergeZone hh hP v _ buf) fun _ => ite (fun _ => pure _) fun _ => mergeLoop ord rest _

/-- The entry that is overwritten is the one that has been read. -/
lemma groupLog : ∀ (keys : List ℤ) (sets : UMap (UMap ℤ)),
    Throughout h mem P (StoSys.groupLog c keys sets)
  | [], _ => pure _
  | address :: rest, sets => by
      intro s hs
      rw [StoSys.groupLog]
      refine Program.always_bind.mpr ⟨perform hh rfl s hs, ?_⟩
      rw [run_getFtl_fst hh]
      refine Program.always_bind.mpr ⟨Program.always_perform.mpr ⟨?_, ?_⟩, ?_⟩
      · rw [mem_getFtl hh]
        exact hs
      · rw [hh.effect, mem_getFtl hh]
        exact hP.invalidate _ address hs
      · refine groupLog rest _ _ ?_
        rw [mem_modifyFtl hh, mem_getFtl hh]
        exact hP.invalidate _ address hs

/-- **A collection**, with its last three assignments. -/
lemma triggerGc [Zero B] (hend : ∀ m e, P m → P { m with logZoneEnd := e })
    (hclear : ∀ m, P m → P { m with logZoneMapping := ∅ })
    (htrigger : ∀ m b, P m → P { m with triggerMyGc := b }) (ord : HashOrder) :
    Throughout h mem P (StoSys.triggerGc c ord : Prog B Unit) := by
  refine bind (perform hh rfl) fun m => bind (groupLog hh hP _ _) fun sets => ?_
  refine bind (bind (mergeLoop hh hP ord _ _) fun r => pure _) fun ret => ?_
  refine bind (resetLogZones hh c _ _) fun _ => bind (modify hh fun m hm => hend m _ hm) fun _ => ?_
  exact bind (modify hh hclear) fun _ => modify hh fun m hm => htrigger m false hm

/-- **The watermark loop**, whether it is left or not. -/
lemma watermarkLoop [Zero B] (hend : ∀ m e, P m → P { m with logZoneEnd := e })
    (hclear : ∀ m, P m → P { m with logZoneMapping := ∅ })
    (htrigger : ∀ m b, P m → P { m with triggerMyGc := b }) (blocks : ℕ) :
    ∀ passes : List HashOrder,
      Throughout h mem P (StoSys.watermarkLoop c blocks passes : Prog B Bool)
  | [] => bind (perform hh rfl) fun _ => pure _
  | ord :: passes =>
      bind (perform hh rfl) fun _ => ite (fun _ =>
        bind (modify hh fun m hm => htrigger m true hm) fun _ =>
          bind (triggerGc hh hP hend hclear htrigger ord) fun _ =>
            watermarkLoop hend hclear htrigger blocks passes) fun _ => pure _

end Throughout

namespace Keeps

variable {h : Handler (Op B) Op.Res σ} {mem : σ → Ftl} {P : Ftl → Prop}

lemma pure (a : α) : Keeps h mem P (Pure.pure a : Prog B α) := fun _ hs => hs

lemma bind {p : Prog B α} {f : α → Prog B β} (hp : Keeps h mem P p)
    (hf : ∀ a, Keeps h mem P (f a)) : Keeps h mem P (p >>= f) :=
  Program.Triple.bind hp hf

lemma ite {c : Prop} [Decidable c] {p q : Prog B α} (hp : Keeps h mem P p)
    (hq : Keeps h mem P q) : Keeps h mem P (if c then p else q) :=
  Program.Triple.ite (fun _ => hp) fun _ => hq

variable (hh : Faithful h mem)
include hh

lemma perform {o : Op B} (ho : o.effect = id) : Keeps h mem P (Program.perform o) :=
  (Throughout.perform hh ho).keeps

lemma modify {f : Ftl → Ftl} (hf : ∀ m, P m → P (f m)) : Keeps h mem P (modifyFtl f) :=
  (Throughout.modify hh hf).keeps

lemma ioLoop (c : Config) (base : ℤ) (read : Bool) (fuel sizeToIo bufPtr writePointer : ℕ)
    (buf : Buffer B) :
    Keeps h mem P (StoSys.ioLoop c base read fuel sizeToIo bufPtr writePointer buf) :=
  (Throughout.ioLoop hh c base read fuel sizeToIo bufPtr writePointer buf).keeps

/-- **A merge** keeps what the maps and the zone states do not enter, also when it fails. -/
lemma mergeLoop (hP : Coarse P) (c : Config) (ord : HashOrder)
    (sets : List (Sigma fun _ : ℤ => UMap ℤ)) (buf : Buffer B) :
    Keeps h mem P (StoSys.mergeLoop c ord sets buf) :=
  (Throughout.mergeLoop hh (hP.mergeKeeps c) ord sets buf).keeps

lemma groupLog (hP : Coarse P) (c : Config) (keys : List ℤ) (sets : UMap (UMap ℤ)) :
    Keeps h mem P (StoSys.groupLog c keys sets) :=
  (Throughout.groupLog hh (hP.mergeKeeps c) keys sets).keeps

lemma resetLogZones (c : Config) (k i : ℕ) : Keeps h mem P (StoSys.resetLogZones c i k) :=
  (Throughout.resetLogZones hh c k i).keeps

end Keeps

section Collection

variable [Zero B] {h : Handler (Op B) Op.Res σ} {mem : σ → Ftl} {P : Ftl → Prop}

/-- The memory at the end of a collection, as it was when the log zones had been reset. -/
def rewound (m : Ftl) : Ftl :=
  { m with logZoneEnd := m.logZoneStart, logZoneMapping := ∅, triggerMyGc := false }

/-- **A collection** keeps such a property up to its last three assignments, and makes these
whatever happened before. -/
theorem triggerGc_rewinds (hh : Faithful h mem) (hP : Coarse P) (c : Config) (ord : HashOrder) :
    Program.Triple h (fun s => P (mem s)) (triggerGc c ord : Prog B Unit)
      fun _ s => ∃ m, P m ∧ mem s = rewound m := by
  refine .bind (Keeps.perform hh rfl) fun m => .bind (Keeps.groupLog hh hP c _ _) fun sets => ?_
  refine .bind (Keeps.bind (Keeps.mergeLoop hh hP c ord _ _) fun r => Keeps.pure _) fun ret => ?_
  refine .bind (Keeps.resetLogZones hh c _ _) fun _ s hs => ?_
  refine ⟨mem s, hs, ?_⟩
  simp only [modifyFtl, Program.run_bind, Program.run_perform, hh.effect, Op.effect]
  rfl

/-- A property that the whole of a collection keeps. -/
lemma Keeps.triggerGc (hh : Faithful h mem) (hP : Coarse P) (hrewound : ∀ m, P m → P (rewound m))
    (c : Config) (ord : HashOrder) : Keeps h mem P (StoSys.triggerGc c ord : Prog B Unit) := by
  refine (triggerGc_rewinds hh hP c ord).post fun _ s hs => ?_
  obtain ⟨m, hm, heq⟩ := hs
  rw [heq]
  exact hrewound m hm

/-- **The watermark loop** keeps a property that passes keep, whether it is left or not. -/
lemma Keeps.watermarkLoop (hh : Faithful h mem) (hP : Coarse P)
    (hrewound : ∀ m, P m → P (rewound m)) (hasked : ∀ m, P m → P { m with triggerMyGc := true })
    (c : Config) (blocks : ℕ) : ∀ passes : List HashOrder,
      Keeps h mem P (StoSys.watermarkLoop c blocks passes : Prog B Bool)
  | [] => .bind (.perform hh rfl) fun _ => .pure _
  | ord :: passes =>
      .bind (.perform hh rfl) fun _ => .ite
        (.bind (.modify hh hasked) fun _ => .bind (.triggerGc hh hP hrewound c ord) fun _ =>
          watermarkLoop hh hP hrewound hasked c blocks passes) (.pure _)

end Collection

/-! ## Writing -/

section Write

variable {h : Handler (Op B) Op.Res σ} {mem : σ → Ftl} {P : Ftl → Prop}

/-- The body of a write keeps what neither the cursor nor the mutex enters either. -/
lemma Keeps.writeBody (hh : Faithful h mem) (hP : Coarse P)
    (hend : ∀ m e, P m → P { m with logZoneEnd := e })
    (hunlock : ∀ m, P m → P { m with gcMutex := false }) (c : Config) (address size : ℕ)
    (buf : Buffer B) : Keeps h mem P (StoSys.writeBody c address size buf) := by
  have hfinish : ∀ {f : UMap ℤ → UMap ℤ}, Keeps h mem P (do
      modifyFtl fun m => { m with logZoneMapping := f m.logZoneMapping }
      modifyFtl fun m => { m with gcMutex := false }
      Pure.pure 0 : Prog B ℤ) := fun {_} =>
    .bind (.modify hh fun m hm => hP m _ m.dataZoneMapping m.zoneStates hm) fun _ =>
      .bind (.modify hh hunlock) fun _ => .pure _
  refine .bind (.perform hh rfl) fun m => .ite ?_ ?_
  · refine .bind (.perform hh rfl) fun r => .ite (.pure _) ?_
    exact .bind (.modify hh fun m hm => hend m _ hm) fun _ => hfinish
  · exact .bind (.ioLoop hh c 0 false _ _ _ _ _) fun r => .ite (.pure _) hfinish

/-- **A write** keeps what passes and the body keep. -/
lemma Keeps.znsUdeviceWrite [Zero B] (hh : Faithful h mem) (hP : Coarse P)
    (hend : ∀ m e, P m → P { m with logZoneEnd := e })
    (hmutex : ∀ m b, P m → P { m with gcMutex := b })
    (htrigger : ∀ m b, P m → P { m with triggerMyGc := b }) (c : Config)
    (passes : List HashOrder) (address size : ℕ) (buf : Buffer B) :
    Keeps h mem P (StoSys.znsUdeviceWrite c passes address size buf) := by
  have hrewound : ∀ m, P m → P (rewound m) := fun m hm =>
    hP { m with logZoneEnd := m.logZoneStart, triggerMyGc := false } ∅ m.dataZoneMapping
      m.zoneStates (htrigger _ false (hend m m.logZoneStart hm))
  refine .ite (.pure _) (.bind (.perform hh rfl) fun m => .ite (.pure _) ?_)
  refine .bind (.modify hh fun m hm => hmutex m true hm) fun _ => ?_
  refine .bind (.watermarkLoop hh hP hrewound (fun m hm => htrigger m true hm) c _ passes)
    fun left => .ite ?_ (.pure _)
  exact .bind (.writeBody hh hP hend (fun m hm => hmutex m false hm) c address size buf) fun _ =>
    .pure _

lemma Keeps.znsUdeviceRead [Zero B] (hh : Faithful h mem) (c : Config) (address size : ℕ)
    (buf : Buffer B) : Keeps h mem P (StoSys.znsUdeviceRead c address size buf) :=
  (Throughout.znsUdeviceRead hh c address size buf).keeps

end Write

end StoSys
