import StoSys.Lib.Twin
import StoSys.Ftl.Frame

/-!
# What the flags do not decide

The mutex and the two flags of the collector are memory that the threads use to agree on who runs.
What a read, a write behind the watermark loop or a collection does to the maps, the cursor, the
zone states and the device does not depend on them: two worlds that are alike up to the flags stay
so, and the answers are the same (`Flagless`).

This holds for every device that does not look into the memory of the process (`Apart`), so on a
working drive and on one that refuses commands.
-/

namespace StoSys

open Effect HashMap CInt

variable {B σ ρ α β : Type}

/-- `m'` is `m` up to the mutex and the flags of the collector. -/
def Ftl.Alike (m m' : Ftl) : Prop :=
  ∃ mutex trigger stop,
    m' = { m with gcMutex := mutex, triggerMyGc := trigger, gcThreadStop := stop }

namespace Ftl.Alike

variable {m m' m'' : Ftl}

lemma refl (m : Ftl) : m.Alike m := ⟨m.gcMutex, m.triggerMyGc, m.gcThreadStop, rfl⟩

lemma symm (h : m.Alike m') : m'.Alike m := by
  obtain ⟨mutex, trigger, stop, rfl⟩ := h
  exact ⟨m.gcMutex, m.triggerMyGc, m.gcThreadStop, rfl⟩

lemma trans (h : m.Alike m') (h' : m'.Alike m'') : m.Alike m'' := by
  obtain ⟨mutex, trigger, stop, rfl⟩ := h
  obtain ⟨mutex', trigger', stop', rfl⟩ := h'
  exact ⟨mutex', trigger', stop', rfl⟩

end Ftl.Alike

/-- An operation on the device. -/
def Op.IsCommand : Op B → Prop
  | .get | .modify _ => False
  | _ => True

/-- **Devices apart from the memory.**  `rest` is all that a command depends on and changes. -/
structure Apart (h : Handler (Op B) Op.Res σ) (rest : σ → ρ) : Prop where
  get : ∀ s, rest (h .get s).2 = rest s
  modify : ∀ f s, rest (h (.modify f) s).2 = rest s
  command : ∀ {o : Op B} {s t : σ}, o.IsCommand → rest s = rest t →
    (h o s).1 = (h o t).1 ∧ rest (h o s).2 = rest (h o t).2

/-- The working drive. -/
lemma apart_exec {d : Zoned.Drive B} : Apart (exec (d := d)) World.media := by
  refine ⟨fun _ => rfl, fun _ _ => rfl, fun {o s t} ho hrest => ?_⟩
  obtain ⟨m, media⟩ := s
  obtain ⟨m', media'⟩ := t
  obtain rfl : media = media' := hrest
  cases o with
  | get | modify f => exact ho.elim
  | sysCall | nvmeIdentifyNs | nvmeZnsReport => exact ⟨rfl, rfl⟩
  | nvmeRead slba nlb dataLen off =>
      dsimp only [exec]
      split
      · split <;> exact ⟨rfl, rfl⟩
      · exact ⟨rfl, rfl⟩
  | nvmeWrite slba nlb dataLen off payload =>
      dsimp only [exec]
      split
      · split <;> exact ⟨rfl, rfl⟩
      · exact ⟨rfl, rfl⟩
  | nvmeZnsAppend zslba nlb dataLen payload =>
      dsimp only [exec]
      split
      · split <;> exact ⟨rfl, rfl⟩
      · exact ⟨rfl, rfl⟩
  | nvmeZnsReset slba selectAll =>
      dsimp only [exec]
      split
      · exact ⟨rfl, rfl⟩
      · split <;> exact ⟨rfl, rfl⟩

/-- Refusing commands needs a counter, and no look at the memory. -/
lemma Apart.failing {h : Handler (Op B) Op.Res σ} {rest : σ → ρ} (hr : Apart h rest)
    {refusal : (o : Op B) → Option (Op.Res o)} (hget : refusal .get = none)
    (hmodify : ∀ f, refusal (.modify f) = none) (fails : ℕ → Op B → Bool) :
    Apart (h.failing refusal fails) fun s => (rest s.1, s.2) := by
  refine ⟨fun s => ?_, fun f s => ?_, fun {o s t} ho hrest => ?_⟩
  · rw [failing_none hget, hr.get]
  · rw [failing_none (hmodify f), hr.modify]
  · obtain ⟨hrest, hcount⟩ := Prod.mk.inj hrest
    obtain ⟨hres, hnext⟩ := hr.command ho hrest
    cases hrefusal : refusal o with
    | none =>
        rw [failing_none hrefusal, failing_none hrefusal, hcount]
        exact ⟨hres, congrArg (·, t.2) hnext⟩
    | some r =>
        by_cases hf : fails t.2 o = true
        · rw [failing_refused hrefusal (hcount ▸ hf), failing_refused hrefusal hf, hcount]
          exact ⟨rfl, congrArg (·, t.2 + 1) hrest⟩
        · rw [failing_done hrefusal (hcount ▸ hf), failing_done hrefusal hf, hcount]
          exact ⟨hres, congrArg (·, t.2 + 1) hnext⟩

/-! ## Worlds alike -/

/-- The device is in the same state, and the memory is the same up to the flags. -/
structure SameData (mem : σ → Ftl) (rest : σ → ρ) (s t : σ) : Prop where
  mem : (mem s).Alike (mem t)
  rest : rest s = rest t

namespace SameData

variable {mem : σ → Ftl} {rest : σ → ρ} {s t u : σ}

lemma refl (s : σ) : SameData mem rest s s := ⟨.refl _, rfl⟩

lemma symm (h : SameData mem rest s t) : SameData mem rest t s := ⟨h.mem.symm, h.rest.symm⟩

lemma trans (h : SameData mem rest s t) (h' : SameData mem rest t u) : SameData mem rest s u :=
  ⟨h.mem.trans h'.mem, h.rest.trans h'.rest⟩

variable {h : Handler (Op B) Op.Res σ} (hh : Faithful h mem) (hr : Apart h rest)
include hh hr

/-- Looking at the memory. -/
lemma getFtl (s : σ) : SameData mem rest s ((StoSys.getFtl : Prog B Ftl).run h s).2 := by
  refine ⟨?_, (hr.get s).symm⟩
  rw [mem_getFtl hh]
  exact .refl _

/-- Setting a flag. -/
lemma setFlag {f : Ftl → Ftl} (hf : ∀ m : Ftl, m.Alike (f m)) (s : σ) :
    SameData mem rest s ((modifyFtl f : Prog B Unit).run h s).2 := by
  refine ⟨?_, (hr.modify f s).symm⟩
  rw [mem_modifyFtl hh]
  exact hf _

end SameData

/-- **The flags do not matter** to the program: from worlds alike the answers are the same, and the
worlds are alike at the end. -/
abbrev Flagless (h : Handler (Op B) Op.Res σ) (mem : σ → Ftl) (rest : σ → ρ) (p q : Prog B α) :
    Prop :=
  Program.Twin h h (SameData mem rest) Eq p q

namespace Flagless

variable {h : Handler (Op B) Op.Res σ} {mem : σ → Ftl} {rest : σ → ρ}

lemma pure (a : α) : Flagless h mem rest (Pure.pure a : Prog B α) (Pure.pure a) :=
  Program.Twin.pure rfl

variable (hh : Faithful h mem) (hr : Apart h rest)
include hh hr

/-- A command. -/
lemma command {o : Op B} (ho : o.IsCommand) (heffect : o.effect = id) :
    Flagless h mem rest (Program.perform o) (Program.perform o) := by
  intro s t hst
  obtain ⟨hres, hrest⟩ := hr.command ho hst.rest
  refine ⟨hres, ?_, hrest⟩
  rw [Program.run_perform, Program.run_perform, hh.effect, hh.effect, heffect]
  exact hst.mem

/-- A look at the memory, if what follows does not use the flags. -/
lemma get {f : Ftl → Prog B α} (hf : ∀ m mutex trigger stop, Flagless h mem rest (f m)
    (f { m with gcMutex := mutex, triggerMyGc := trigger, gcThreadStop := stop })) :
    Flagless h mem rest (getFtl >>= f) (getFtl >>= f) := by
  refine .bind (Q := Ftl.Alike) (fun s t hst => ?_) ?_
  · rw [run_getFtl_fst hh, run_getFtl_fst hh]
    exact ⟨hst.mem, ((SameData.getFtl hh hr s).symm.trans hst).trans (.getFtl hh hr t)⟩
  · rintro m - ⟨mutex, trigger, stop, rfl⟩
    exact hf m mutex trigger stop

/-- An assignment to the rest of the memory. -/
lemma modify {f : Ftl → Ftl} (hf : ∀ m mutex trigger stop, (f m).Alike
    (f { m with gcMutex := mutex, triggerMyGc := trigger, gcThreadStop := stop })) :
    Flagless h mem rest (modifyFtl f) (modifyFtl f) := by
  intro s t hst
  refine ⟨rfl, ?_, ((hr.modify f s).trans hst.rest).trans (hr.modify f t).symm⟩
  rw [mem_modifyFtl hh, mem_modifyFtl hh]
  obtain ⟨mutex, trigger, stop, heq⟩ := hst.mem
  rw [heq]
  exact hf _ mutex trigger stop

/-! ## Transfers and reads -/

lemma ioLoop (c : Config) (base : ℤ) (read : Bool) :
    ∀ (fuel sizeToIo bufPtr writePointer : ℕ) (buf : Buffer B), Flagless h mem rest
      (StoSys.ioLoop c base read fuel sizeToIo bufPtr writePointer buf)
      (StoSys.ioLoop c base read fuel sizeToIo bufPtr writePointer buf)
  | 0, _, _, _, _ => pure _
  | fuel + 1, sizeToIo, bufPtr, writePointer, buf => by
      rw [StoSys.ioLoop]
      refine .ite (fun _ => .ite (fun _ => ?_) fun _ => ?_) fun _ => pure _
      · exact .seq (command hh hr trivial rfl) fun r =>
          .ite (fun _ => pure _) fun _ => ioLoop c base read fuel _ _ _ _
      · exact .seq (command hh hr trivial rfl) fun r =>
          .ite (fun _ => pure _) fun _ => ioLoop c base read fuel _ _ _ _

lemma readLoop [Zero B] (c : Config) (size bound : ℕ) : ∀ (fuel i numRead : ℕ) (buf : Buffer B),
    Flagless h mem rest (StoSys.readLoop c size bound fuel i numRead buf)
      (StoSys.readLoop c size bound fuel i numRead buf)
  | 0, _, _, _ => pure _
  | fuel + 1, i, numRead, buf => by
      rw [StoSys.readLoop]
      refine .ite (fun _ => get hh hr fun m mutex trigger stop => ?_) fun _ => pure _
      have htranslate : translate c { m with
          gcMutex := mutex, triggerMyGc := trigger, gcThreadStop := stop } i = translate c m i := rfl
      rw [htranslate]
      split
      · exact pure _
      · refine .ite (fun _ => .seq (command hh hr trivial rfl) fun r => ?_) fun _ =>
          .seq (ioLoop hh hr _ _ _ _ _ _ _ _) fun r => ?_
        · exact .ite (fun _ => pure _) fun _ => readLoop c size bound fuel _ _ _
        · exact .ite (fun _ => pure _) fun _ => readLoop c size bound fuel _ _ _

/-- **A read.** -/
lemma znsUdeviceRead [Zero B] (c : Config) (address size : ℕ) (buf : Buffer B) :
    Flagless h mem rest (StoSys.znsUdeviceRead c address size buf)
      (StoSys.znsUdeviceRead c address size buf) :=
  .ite (fun _ => pure _) fun _ => readLoop hh hr c _ _ _ _ _ _

/-! ## Collecting -/

lemma setZoneState (i : ℤ) (state : ℕ) :
    Flagless h mem rest (modifyFtl fun m => m.setZoneState i state)
      (modifyFtl fun m => m.setZoneState i state) :=
  modify hh hr fun _ mutex trigger stop => ⟨mutex, trigger, stop, rfl⟩

lemma readOldZone (c : Config) (v : ℤ) (buf : Buffer B) :
    Flagless h mem rest (StoSys.readOldZone c v buf) (StoSys.readOldZone c v buf) := by
  refine get hh hr fun m mutex trigger stop => ?_
  dsimp only
  split
  · exact pure _
  · refine .seq (ioLoop hh hr c 0 true _ _ _ _ _) fun r => .ite (fun _ => pure _) fun _ => ?_
    exact .seq (setZoneState hh hr _ _) fun _ => pure _

lemma readLogBlocks (c : Config) : ∀ (blocks : List (Sigma fun _ : ℤ => ℤ)) (buf : Buffer B),
    Flagless h mem rest (StoSys.readLogBlocks c blocks buf) (StoSys.readLogBlocks c blocks buf)
  | [], _ => pure _
  | ⟨_, _⟩ :: blocks, _ =>
      .seq (command hh hr trivial rfl) fun _ =>
        .ite (fun _ => pure _) fun _ => readLogBlocks c blocks _

lemma mergeInPlace (c : Config) (z prev : ℤ) (buf : Buffer B) :
    Flagless h mem rest (StoSys.mergeInPlace c z prev buf) (StoSys.mergeInPlace c z prev buf) := by
  refine .seq (command hh hr trivial rfl) fun _ => .seq (ioLoop hh hr c 0 false _ _ _ _ _) fun r => ?_
  refine .ite (fun _ => pure _) fun _ => .seq (setZoneState hh hr _ _) fun _ => ?_
  exact .seq (command hh hr trivial rfl) fun _ => pure _

lemma mergeInto (c : Config) (v z prev : ℤ) (buf : Buffer B) :
    Flagless h mem rest (StoSys.mergeInto c v z prev buf) (StoSys.mergeInto c v z prev buf) := by
  refine .seq (ioLoop hh hr c 0 false _ _ _ _ _) fun r => .ite (fun _ => pure _) fun _ => ?_
  refine .seq (modify hh hr fun _ mutex trigger stop => ⟨mutex, trigger, stop, rfl⟩) fun _ => ?_
  refine .seq (setZoneState hh hr _ _) fun _ => .ite (fun _ => ?_) fun _ => pure _
  exact .seq (command hh hr trivial rfl) fun _ => pure _

lemma mergeZone (c : Config) (v : ℤ) (blocks : List (Sigma fun _ : ℤ => ℤ)) (buf : Buffer B) :
    Flagless h mem rest (StoSys.mergeZone c v blocks buf) (StoSys.mergeZone c v blocks buf) := by
  refine get hh hr fun m mutex trigger stop => .seq (readOldZone hh hr c v buf) fun old => ?_
  refine .ite (fun _ => pure _) fun _ => .seq (readLogBlocks hh hr c _ _) fun r => ?_
  have hfound : nextEmptyZone c { m with
      gcMutex := mutex, triggerMyGc := trigger, gcThreadStop := stop } = nextEmptyZone c m := rfl
  rw [hfound]
  refine .ite (fun _ => pure _) fun _ => .ite (fun _ => ?_) fun _ => ?_
  · exact mergeInPlace hh hr c _ _ _
  · exact mergeInto hh hr c _ _ _ _

lemma mergeLoop (c : Config) (ord : HashOrder) :
    ∀ (sets : List (Sigma fun _ : ℤ => UMap ℤ)) (buf : Buffer B),
      Flagless h mem rest (StoSys.mergeLoop c ord sets buf) (StoSys.mergeLoop c ord sets buf)
  | [], _ => pure _
  | ⟨v, _⟩ :: sets, buf =>
      .seq (mergeZone hh hr c v _ buf) fun _ =>
        .ite (fun _ => pure _) fun _ => mergeLoop c ord sets _

lemma groupLog (c : Config) : ∀ (keys : List ℤ) (sets : UMap (UMap ℤ)),
    Flagless h mem rest (StoSys.groupLog c keys sets) (StoSys.groupLog c keys sets)
  | [], _ => pure _
  | _ :: keys, _ =>
      get hh hr fun _ _ _ _ =>
        .seq (modify hh hr fun _ mutex trigger stop => ⟨mutex, trigger, stop, rfl⟩) fun _ =>
          groupLog c keys _

lemma resetLogZones (c : Config) : ∀ k i : ℕ,
    Flagless h mem rest (StoSys.resetLogZones c i k) (StoSys.resetLogZones c i k)
  | 0, _ => pure _
  | k + 1, i => .seq (command hh hr trivial rfl) fun _ => resetLogZones c k (i + 1)

/-- **A collection.** -/
lemma triggerGc [Zero B] (c : Config) (ord : HashOrder) :
    Flagless h mem rest (StoSys.triggerGc c ord : Prog B Unit) (StoSys.triggerGc c ord) := by
  refine get hh hr fun m _ _ _ => .seq (groupLog hh hr c _ _) fun sets => ?_
  refine .seq (.seq (mergeLoop hh hr c ord _ _) fun r => pure _) fun ret => ?_
  refine .seq (resetLogZones hh hr c _ _) fun _ => ?_
  refine .seq (modify hh hr fun _ mutex trigger stop => ⟨mutex, trigger, stop, rfl⟩) fun _ => ?_
  refine .seq (modify hh hr fun _ mutex trigger stop => ⟨mutex, trigger, stop, rfl⟩) fun _ => ?_
  exact modify hh hr fun _ mutex _ stop => ⟨mutex, false, stop, rfl⟩

/-! ## Writing -/

/-- **The body of a write.** -/
lemma writeBody (c : Config) (address size : ℕ) (buf : Buffer B) :
    Flagless h mem rest (StoSys.writeBody c address size buf)
      (StoSys.writeBody c address size buf) := by
  have hfinish : ∀ f : UMap ℤ → UMap ℤ, Flagless h mem rest (do
      modifyFtl fun m => { m with logZoneMapping := f m.logZoneMapping }
      modifyFtl fun m => { m with gcMutex := false }
      Pure.pure 0 : Prog B ℤ) (do
      modifyFtl fun m => { m with logZoneMapping := f m.logZoneMapping }
      modifyFtl fun m => { m with gcMutex := false }
      Pure.pure 0) := fun _ =>
    .seq (modify hh hr fun _ mutex trigger stop => ⟨mutex, trigger, stop, rfl⟩) fun _ =>
      .seq (modify hh hr fun _ _ trigger stop => ⟨false, trigger, stop, rfl⟩) fun _ => pure _
  refine get hh hr fun m _ _ _ => .ite (fun _ => ?_) fun _ => ?_
  · refine .seq (command hh hr trivial rfl) fun r => .ite (fun _ => pure _) fun _ => ?_
    refine .seq (modify hh hr fun _ mutex trigger stop => ⟨mutex, trigger, stop, rfl⟩) fun _ => ?_
    exact hfinish _
  · exact .seq (ioLoop hh hr c 0 false _ _ _ _ _) fun r => .ite (fun _ => pure _) fun _ => hfinish _

end Flagless

end StoSys
