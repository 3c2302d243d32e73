import StoSys.Ftl.FaultyMerge
import StoSys.Ftl.Frame
import StoSys.Properties.ReadYourWrites

/-!
# Who releases the mutex

`zns_udevice_write` takes `gc_mutex` once and has three exits behind that.  Only the last of them
releases it: a write whose append or split write fails returns with the mutex held, and from then on
every write, the collector and the shutdown, which waits for the collector, are stuck.

The collector itself is well behaved: each trip round its loop releases what it has taken, whatever
happens to the merge.

Both facts hold in every environment, so under every pattern of device failures.
-/

namespace StoSys

open Effect HashMap Zoned CInt

variable {B σ : Type} {h : Handler (Op B) Op.Res σ} {mem : σ → Ftl}

/-- A drive that refuses commands is an environment. -/
lemma faithful_faulty {d : Drive B} (fails : ℕ → Op B → Bool) :
    Faithful (faulty (d := d) fails) fun s => s.1.ftl := by
  refine ⟨fun _ => rfl, fun o s => ?_⟩
  cases ho : refusal o with
  | none =>
      rw [faulty, failing_none ho]
      exact faithful_exec.effect o s.1
  | some r =>
      by_cases hf : fails s.2 o = true
      · rw [faulty, failing_refused ho hf]
        cases o with
        | modify f => cases ho
        | _ => rfl
      · rw [faulty, failing_done ho hf]
        exact faithful_exec.effect o s.1

/-! ## The collector's loop, with its mutex -/

/-- How a trip round the loop of `trigger_gc` ends. -/
inductive Trip where
  /-- `pthread_mutex_lock` does not return -/
  | blocked
  /-- asleep on `start_gc`, which releases the mutex -/
  | waiting
  /-- `gc_thread_stop` is set, and the thread ends -/
  | stopped
  | collected
  deriving DecidableEq

variable [Zero B]

/-- A trip round the loop of `trigger_gc`, from `pthread_mutex_lock` on. -/
def gcTrip (c : Config) (ord : HashOrder) : Prog B Trip := do
  let m ← getFtl
  if m.gcMutex then pure .blocked
  else do
    modifyFtl fun m => { m with gcMutex := true }
    if !m.gcThreadStop && !m.triggerMyGc then do
      modifyFtl fun m => { m with gcMutex := false }
      pure .waiting
    else if m.gcThreadStop then do
      modifyFtl fun m => { m with gcMutex := false }
      pure .stopped
    else do
      triggerGc c ord
      modifyFtl fun m => { m with gcMutex := false }
      pure .collected

/-- `deinit_ss_zns_device`, where the join is over when the thread has left its loop; `none` when
that does not happen. -/
def deinitJoined (c : Config) (ord : HashOrder) : Prog B (Option ℤ) := do
  modifyFtl fun m => { m with gcThreadStop := true }
  let trip ← gcTrip c ord
  if trip = .stopped then do
    let ret ← sysCall .close
    pure (some ret)
  else pure none

/-- What `pthread_mutex_lock` does where it finds the mutex free. -/
def takeMutex : Prog B Unit := do
  let _ ← getFtl
  modifyFtl fun m => { m with gcMutex := true }

/-- **The mutex is there for everyone**: it is free, the collector gets it, the shutdown comes to an
end, and a write that does not return has not left the watermark loop. -/
structure Available (h : Handler (Op B) Op.Res σ) (mem : σ → Ftl) (c : Config) (s : σ) : Prop where
  released : (mem s).gcMutex = false
  pass : ∀ ord, ((gcTrip c ord).run h s).1 ≠ .blocked
  deinit : ∀ ord, ((deinitJoined c ord).run h s).1 ≠ none
  write : ∀ (passes : List HashOrder) (address size : ℕ) (buf : Buffer B),
    ((znsUdeviceWrite c passes address size buf).run h s).1 = none →
      ((watermarkLoop c (size / c.lbaSizeBytes) passes : Prog B Bool).run h
        ((takeMutex : Prog B Unit).run h s).2).1 = false

/-- The mutex belongs to whoever has taken it: the loop, the merge and the transfers leave it
alone. -/
lemma coarse_mutex (b : Bool) : Coarse fun m => m.gcMutex = b := fun _ _ _ _ hm => hm

section Environment

variable (hh : Faithful h mem) {c : Config} {s : σ}
include hh

omit [Zero B] in
lemma mem_takeMutex :
    mem ((takeMutex : Prog B Unit).run h s).2 = { mem s with gcMutex := true } := by
  rw [takeMutex, Program.run_bind, mem_modifyFtl hh, mem_getFtl hh]

/-- The run of a call that gets the mutex. -/
lemma run_znsUdeviceWrite_free (hfree : (mem s).gcMutex = false) {size : ℕ}
    (halign : size % c.lbaSizeBytes = 0) (passes : List HashOrder) (address : ℕ) (buf : Buffer B) :
    let l := (watermarkLoop c (size / c.lbaSizeBytes) passes : Prog B Bool).run h
      ((takeMutex : Prog B Unit).run h s).2
    let r := (writeBody c address size buf).run h l.2
    (znsUdeviceWrite c passes address size buf).run h s
      = if l.1 = true then (some r.1, r.2) else (none, l.2) := by
  intro l r
  have hl : (watermarkLoop c (size / c.lbaSizeBytes) passes : Prog B Bool).run h
    ((takeMutex : Prog B Unit).run h s).2 = l := rfl
  rw [takeMutex, Program.run_bind] at hl
  rw [znsUdeviceWrite, if_neg (not_not.mpr halign), Program.run_bind, run_getFtl_fst hh, hfree]
  simp only [Bool.false_eq_true, if_false, Program.run_bind, hl]
  by_cases hleft : l.1 = true
  · simp only [hleft, if_true, Program.run_map]
    rfl
  · simp only [hleft]
    rfl

lemma run_znsUdeviceWrite_held (hheld : (mem s).gcMutex = true) {size : ℕ}
    (halign : size % c.lbaSizeBytes = 0) (passes : List HashOrder) (address : ℕ) (buf : Buffer B) :
    ((znsUdeviceWrite c passes address size buf).run h s).1 = none := by
  rw [znsUdeviceWrite, if_neg (not_not.mpr halign), Program.run_bind, run_getFtl_fst hh, hheld]
  rfl

/-- A trip leaves the mutex as it found it … -/
lemma gcTrip_mutex (ord : HashOrder) :
    (mem ((gcTrip c ord).run h s).2).gcMutex = (mem s).gcMutex := by
  cases hm : (mem s).gcMutex with
  | true =>
      rw [gcTrip, Program.run_bind, run_getFtl_fst hh, if_pos hm, Program.run_pure, mem_getFtl hh,
        hm]
  | false =>
      rw [gcTrip, Program.run_bind, run_getFtl_fst hh, if_neg (by rw [hm]; exact Bool.false_ne_true),
        Program.run_bind, Program.run_ite]
      split
      · rw [Program.run_bind, Program.run_pure, mem_modifyFtl hh]
      · rw [Program.run_ite]
        split
        · rw [Program.run_bind, Program.run_pure, mem_modifyFtl hh]
        · rw [Program.run_bind, Program.run_bind, Program.run_pure, mem_modifyFtl hh]

/-- … and gets past it exactly if it is free. -/
lemma gcTrip_blocked_iff (ord : HashOrder) :
    ((gcTrip c ord).run h s).1 = .blocked ↔ (mem s).gcMutex = true := by
  rw [gcTrip, Program.run_bind, run_getFtl_fst hh]
  cases hm : (mem s).gcMutex with
  | true => exact iff_of_true rfl rfl
  | false =>
      simp only [Bool.false_eq_true, if_false, iff_false, Program.run_bind, Program.run_ite]
      split
      · nofun
      · split
        · nofun
        · nofun

/-- The shutdown comes to an end exactly if the mutex is free. -/
lemma deinitJoined_none_iff (ord : HashOrder) :
    ((deinitJoined c ord).run h s).1 = none ↔ (mem s).gcMutex = true := by
  obtain ⟨s', hs'⟩ : ∃ s', ((modifyFtl fun m => { m with gcThreadStop := true }
    : Prog B Unit).run h s).2 = s' := ⟨_, rfl⟩
  have hmem : mem s' = { mem s with gcThreadStop := true } := by
    rw [← hs', mem_modifyFtl hh]
  rw [deinitJoined, Program.run_bind, hs', Program.run_bind, gcTrip, Program.run_bind,
    run_getFtl_fst hh, hmem]
  cases hm : (mem s).gcMutex with
  | true => exact iff_of_true rfl rfl
  | false =>
      simp only [Bool.false_eq_true, if_false, iff_false, Bool.not_true, Bool.false_and, if_true,
        Program.run_bind, Program.run_pure]
      exact Option.some_ne_none _

/-- **All of it hangs on the mutex.** -/
lemma available_iff : Available h mem c s ↔ (mem s).gcMutex = false := by
  refine ⟨fun ha => ha.released, fun hfree => ?_⟩
  have hne : ¬ (mem s).gcMutex = true := by
    rw [hfree]
    exact Bool.false_ne_true
  refine ⟨hfree, fun ord => mt (gcTrip_blocked_iff hh ord).mp hne,
    fun ord => mt (deinitJoined_none_iff hh ord).mp hne, fun passes address size buf hnone => ?_⟩
  by_cases halign : size % c.lbaSizeBytes = 0
  · rw [run_znsUdeviceWrite_free hh hfree halign] at hnone
    by_contra hleft
    rw [if_pos (Bool.not_eq_false _ ▸ hleft)] at hnone
    cases hnone
  · rw [znsUdeviceWrite, if_pos halign] at hnone
    cases hnone

end Environment

/-! ## The three exits of a write -/

/-- The device does what it is asked: the code of its answer is zero. -/
def Accepted : (o : Op B) → Op.Res o → Prop
  | .get, _ => True
  | .modify _, _ => True
  | .sysCall _, code => code = (0 : ℤ)
  | .nvmeIdentifyNs, answer => answer.1 = (0 : ℤ)
  | .nvmeZnsReport, answer => answer.1 = (0 : ℤ)
  | .nvmeRead _ _ _ _, answer => answer.1 = (0 : ℤ)
  | .nvmeWrite _ _ _ _ _, code => code = (0 : ℤ)
  | .nvmeZnsAppend _ _ _ _, answer => answer.1 = (0 : ℤ)
  | .nvmeZnsReset _ _, code => code = (0 : ℤ)

omit [Zero B] in
/-- A split transfer reports success if every command of it was accepted. -/
lemma reports_ioLoop (c : Config) (base : ℤ) (read : Bool) :
    ∀ (fuel sizeToIo bufPtr writePointer : ℕ) (buf : Buffer B) (s : σ),
      Program.Reports h Accepted (fun r _ => ¬ r.1 ≠ 0)
        (ioLoop c base read fuel sizeToIo bufPtr writePointer buf) s
  | 0, _, _, _, _, _ => iff_of_true trivial (not_not.mpr rfl)
  | fuel + 1, sizeToIo, bufPtr, writePointer, buf, s => by
      rw [ioLoop]
      split
      · cases read with
        | true =>
            rw [if_pos rfl]
            refine .unless ?_ ?_ ?_
            · exact Program.reports_perform (o := Op.nvmeRead _ _ _ _) not_not.symm
            · exact fun _ hr => not_not.mpr hr
            · exact reports_ioLoop c base true fuel _ _ _ _ _
        | false =>
            rw [if_neg Bool.false_ne_true]
            refine .unless ?_ ?_ ?_
            · exact Program.reports_perform (o := Op.nvmeWrite _ _ _ _ _) not_not.symm
            · exact fun _ hr => not_not.mpr hr
            · exact reports_ioLoop c base false fuel _ _ _ _ _
      · exact iff_of_true trivial (not_not.mpr rfl)

section Exits

variable (hh : Faithful h mem) {c : Config} {s : σ} {size : ℕ}
include hh

omit [Zero B] in
/-- The end of a write that succeeds. -/
lemma reports_finish {f : UMap ℤ → UMap ℤ} :
    Program.Reports h Accepted (fun _ s => (mem s).gcMutex = false) (do
      modifyFtl fun m => { m with logZoneMapping := f m.logZoneMapping }
      modifyFtl fun m => { m with gcMutex := false }
      pure 0 : Prog B ℤ) s := by
  refine iff_of_true ⟨trivial, trivial, trivial⟩ ?_
  rw [Program.run_bind, Program.run_bind, Program.run_pure]
  exact congrArg Ftl.gcMutex (mem_modifyFtl hh _ _)

omit [Zero B] in
/-- **The body of a write** releases the mutex exactly if no command of it is refused. -/
theorem reports_writeBody (hheld : (mem s).gcMutex = true) (address : ℕ) (buf : Buffer B) :
    Program.Reports h Accepted (fun _ s => (mem s).gcMutex = false)
      (writeBody c address size buf) s := by
  have hstuck : ∀ {s' : σ}, (mem s').gcMutex = true → ¬ (mem s').gcMutex = false := by
    intro s' hs'
    rw [hs']
    exact Bool.noConfusion
  have hget : (mem ((getFtl : Prog B Ftl).run h s).2).gcMutex = true := by
    rw [mem_getFtl hh, hheld]
  refine .after (Program.served_perform.mpr trivial) ?_
  split
  · refine .unless ?_ (fun _ _ => hstuck ?_) ?_
    · exact Program.reports_perform (o := Op.nvmeZnsAppend _ _ _ _) not_not.symm
    · exact Keeps.perform hh (P := fun m => m.gcMutex = true) rfl _ hget
    · exact .after (Program.served_perform.mpr trivial) (reports_finish hh)
  · refine .unless (reports_ioLoop c 0 false _ _ _ _ _ _) (fun _ _ => hstuck ?_)
      (reports_finish hh)
    exact Keeps.ioLoop hh (P := fun m => m.gcMutex = true) c 0 false _ _ _ _ _ _ hget

end Exits

/-! ## After a write has returned -/

/-- Where the body of a write starts: the mutex is taken, and the watermark loop has been left. -/
def atBody (h : Handler (Op B) Op.Res σ) (c : Config) (size : ℕ) (passes : List HashOrder) (s : σ) :
    σ :=
  ((watermarkLoop c (size / c.lbaSizeBytes) passes : Prog B Bool).run h
    ((takeMutex : Prog B Unit).run h s).2).2

/-- **Returns and the mutex.**  In every environment, from every state with the mutex free: after a
write that returns, the mutex is there for everyone exactly if the size was refused or the device
did what the body of the write asked of it.  The collector leaves the mutex as it found it. -/
theorem available_after_write_iff {σ : Type} (h : Handler (Op B) Op.Res σ) (mem : σ → Ftl)
    (hh : Faithful h mem) (c : Config) (s : σ) (hfree : (mem s).gcMutex = false)
    (passes : List HashOrder) (address size : ℕ) (buf : Buffer B) (r : ℤ)
    (hreturn : ((znsUdeviceWrite c passes address size buf).run h s).1 = some r) :
    (Available h mem c ((znsUdeviceWrite c passes address size buf).run h s).2
        ↔ size % c.lbaSizeBytes ≠ 0 ∨
          Program.Served h Accepted (writeBody c address size buf) (atBody h c size passes s)) ∧
      ∀ (s' : σ) (ord : HashOrder), (mem ((gcTrip c ord : Prog B Trip).run h s').2).gcMutex
        = (mem s').gcMutex := by
  refine ⟨?_, fun s' ord => gcTrip_mutex hh ord⟩
  rw [available_iff hh]
  by_cases halign : size % c.lbaSizeBytes = 0
  · have hheld : (mem (atBody h c size passes s)).gcMutex = true := by
      refine Keeps.watermarkLoop hh (coarse_mutex true) (fun _ hm => hm) (fun _ hm => hm) c _ passes
        _ ?_
      exact congrArg Ftl.gcMutex (mem_takeMutex hh)
    have hbody : Program.Reports h Accepted (fun _ s => (mem s).gcMutex = false)
        (writeBody c address size buf) (atBody h c size passes s) :=
      reports_writeBody hh hheld address buf
    rw [run_znsUdeviceWrite_free hh hfree halign] at hreturn ⊢
    split at hreturn
    case isTrue hleft =>
      rw [if_pos hleft, or_iff_right (not_not.mpr halign)]
      exact hbody.symm
    case isFalse => cases hreturn
  · rw [znsUdeviceWrite, if_pos halign, Program.run_pure]
    exact iff_of_true hfree (Or.inl halign)

/-- The first write to the small drive leaves the mutex to everyone if the drive takes the append,
and to nobody if it does not. -/
theorem available_after_first_write :
    let h (fails : Bool) : Handler (Op UInt8) Op.Res (World smallDrive.drive × ℕ) :=
      faulty fun _ _ => fails
    let after (fails : Bool) := ((znsUdeviceWrite smallDrive.config [] 0 4096 fun _ => 7).run
      (h fails) (fresh smallDrive, 0)).2
    Available (h false) (fun s => s.1.ftl) smallDrive.config (after false) ∧
      ¬ Available (h true) (fun s => s.1.ftl) smallDrive.config (after true) := by
  intro h after
  constructor
  · refine (available_after_write_iff (h false) _ (faithful_faulty _) smallDrive.config
      (fresh smallDrive, 0) rfl [] 0 4096 (fun _ => 7) 0 (by decide +kernel)).1.mpr (Or.inr ?_)
    exact (reports_writeBody (faithful_faulty _) (by decide +kernel) 0 _).mpr (by decide +kernel)
  · intro ha
    rcases (available_after_write_iff (h true) _ (faithful_faulty _) smallDrive.config
      (fresh smallDrive, 0) rfl [] 0 4096 (fun _ => 7) 2 (by decide +kernel)).1.mp ha with hsize | hs
    · exact absurd hsize (by decide)
    · have hfree := (reports_writeBody (faithful_faulty _) (by decide +kernel) 0 _).mp hs
      exact absurd hfree (by decide +kernel)

/-- **A write that fails keeps the mutex.**  The drive refuses the first append: from then on no
write returns, the collector does not get through its next trip, and the shutdown does not end. -/
theorem failed_write_keeps_mutex :
    let h : Handler (Op UInt8) Op.Res (World smallDrive.drive × ℕ) := faulty fun i _ => i == 0
    let first := (znsUdeviceWrite smallDrive.config [] 0 4096 fun _ => 7).run h (fresh smallDrive, 0)
    first.1 = some 2 ∧ first.2.1.ftl.gcMutex = true ∧
      ¬ Available h (fun s => s.1.ftl) smallDrive.config first.2 ∧
      (∀ (passes : List HashOrder) (address size : ℕ) (buf : Buffer UInt8), size % 4096 = 0 →
        ((znsUdeviceWrite smallDrive.config passes address size buf).run h first.2).1 = none) ∧
      (∀ ord, ((gcTrip smallDrive.config ord : Prog UInt8 Trip).run h first.2).1 = .blocked) ∧
      ∀ ord, ((deinitJoined smallDrive.config ord : Prog UInt8 _).run h first.2).1 = none := by
  intro h first
  have hh : Faithful h fun s => s.1.ftl := faithful_faulty _
  have hheld : first.2.1.ftl.gcMutex = true := by decide +kernel
  refine ⟨by decide +kernel, hheld, fun ha => ?_, fun passes address size buf halign => ?_,
    fun ord => (gcTrip_blocked_iff hh ord).mpr hheld,
    fun ord => (deinitJoined_none_iff hh ord).mpr hheld⟩
  · exact Bool.false_ne_true (ha.released.symm.trans hheld)
  · exact run_znsUdeviceWrite_held hh hheld halign passes address buf

end StoSys
