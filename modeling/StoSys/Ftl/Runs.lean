import StoSys.Ftl.Frame
import StoSys.Ftl.IoSpec
import StoSys.Lib.Transitions

/-!
# Runs on any drive

A `Setup` is a drive and parameters that go together.  Here nothing is asked of either: `Reachable`
is a run of any calls with any arguments on any drive, opened with any parameters, with or without a
reset, in a process that may have a past.  A run of `DeviceCall`s starts in a fresh process, and is
kept together with the calls it has made.
-/

namespace StoSys

open Effect HashMap Zoned CInt Transitions

variable {B : Type} {d : Drive B} {p : InitParams}

/-- What `init_ss_zns_device` computes from its parameters on drive `d`. -/
def configOf (d : Drive B) (p : InitParams) : Config :=
  mkConfig p d.ds (zoneReport (Media.empty d))

/-- The memory when the device has been opened on `media`. -/
def started (p : InitParams) (m : Ftl) (media : Media d) : Ftl :=
  { m with
    logZoneStart := 0
    logZoneEnd := 0
    zoneStates := reportedStates p d.nrZones (zoneReport media)
    gcMutex := false
    triggerMyGc := false
    gcThreadStop := false }

/-- **`init_ss_zns_device`** on a working drive. -/
theorem run_initSsZnsDevice (p : InitParams) (w : World d) :
    let m := if p.forceReset then Media.empty d else w.media
    (initSsZnsDevice p : Prog B _).run exec w
      = ((0, some (configOf d p)), ⟨started p w.ftl m, m⟩) := by
  intro m
  cases hreset : p.forceReset with
  | true =>
      have hm : m = Media.empty d := if_pos hreset
      simp only [initSsZnsDevice, Program.run_bind, run_sysCall, run_nvmeIdentifyNs,
        run_nvmeZnsReport, Int.lt_irrefl, ne_eq, not_true_eq_false, if_false, hreset, if_true,
        run_nvmeZnsReset_all, run_modifyFtl, Program.run_pure, hm]
      rfl
  | false =>
      have hm : m = w.media := if_neg (by rw [hreset]; exact Bool.false_ne_true)
      simp only [initSsZnsDevice, Program.run_bind, run_sysCall, run_nvmeIdentifyNs,
        run_nvmeZnsReport, Int.lt_irrefl, ne_eq, not_true_eq_false, if_false, hreset,
        Bool.false_eq_true, run_modifyFtl, Program.run_pure, hm]
      rfl

/-! ## A write, and its watermark loop -/

/-- Asking for a pass. -/
def asked (w : World d) : World d := ⟨{ w.ftl with triggerMyGc := true }, w.media⟩

/-- Holding the mutex. -/
def locked (w : World d) : World d := ⟨{ w.ftl with gcMutex := true }, w.media⟩

section Loop

variable [Zero B] {c : Config} {w : World d} {k : ℕ}

/-- The loop is left where its test fails … -/
lemma watermarkLoop_left (h : c.gcWatermark < freeZoneNumber c w.ftl (toI32 k))
    (passes : List HashOrder) :
    (watermarkLoop c k passes : Prog B Bool).run exec w = (true, w) := by
  cases passes with
  | nil =>
      simp only [watermarkLoop, Program.run_bind, run_getFtl, Program.run_pure, h, decide_true]
  | cons ord rest =>
      simp only [watermarkLoop, Program.run_bind, run_getFtl, Nat.not_le.mpr h, if_false,
        Program.run_pure]

/-- … and takes a pass elsewhere. -/
lemma watermarkLoop_nil (h : freeZoneNumber c w.ftl (toI32 k) ≤ c.gcWatermark) :
    (watermarkLoop c k [] : Prog B Bool).run exec w = (false, w) := by
  simp only [watermarkLoop, Program.run_bind, run_getFtl, Program.run_pure, Nat.not_lt.mpr h,
    decide_false]

lemma watermarkLoop_pass (h : freeZoneNumber c w.ftl (toI32 k) ≤ c.gcWatermark)
    (ord : HashOrder) (passes : List HashOrder) :
    (watermarkLoop c k (ord :: passes) : Prog B Bool).run exec w
      = (watermarkLoop c k passes : Prog B Bool).run exec
          ((triggerGc c ord : Prog B Unit).run exec (asked w)).2 := by
  simp only [watermarkLoop, Program.run_bind, run_getFtl, run_modifyFtl, h, if_true]
  rfl

/-- **Rule for the watermark loop**: what passes keep, the loop keeps. -/
lemma watermarkLoop_keeps {P : World d → Prop}
    (hpass : ∀ ord w, P w → freeZoneNumber c w.ftl (toI32 k) ≤ c.gcWatermark →
      P ((triggerGc c ord : Prog B Unit).run exec (asked w)).2) (passes : List HashOrder) (hw : P w) :
    let r := (watermarkLoop c k passes : Prog B Bool).run exec w
    P r.2 ∧ (r.1 = true → c.gcWatermark < freeZoneNumber c r.2.ftl (toI32 k)) := by
  induction passes generalizing w with
  | nil =>
      rcases Nat.lt_or_ge c.gcWatermark (freeZoneNumber c w.ftl (toI32 k)) with h | h
      · rw [watermarkLoop_left h]
        exact ⟨hw, fun _ => h⟩
      · rw [watermarkLoop_nil h]
        exact ⟨hw, fun h => by cases h⟩
  | cons ord passes ih =>
      rcases Nat.lt_or_ge c.gcWatermark (freeZoneNumber c w.ftl (toI32 k)) with h | h
      · rw [watermarkLoop_left h]
        exact ⟨hw, fun _ => h⟩
      · rw [watermarkLoop_pass h]
        exact ih (hpass ord w hw h)

/-- A pass puts the cursor at zero and empties the log map, whatever it has merged. -/
lemma triggerGc_clears (hstart : w.ftl.logZoneStart = 0) (ord : HashOrder) :
    let s := ((triggerGc c ord : Prog B Unit).run exec w).2
    s.ftl.logZoneStart = 0 ∧ s.ftl.logZoneEnd = 0 ∧ s.ftl.logZoneMapping = ∅ := by
  obtain ⟨m, hm, heq⟩ := triggerGc_rewinds faithful_exec (P := fun m => m.logZoneStart = 0)
    (fun _ _ _ _ hm => hm) c ord w hstart
  intro s
  change s.ftl = rewound m at heq
  rw [heq]
  exact ⟨hm, hm, rfl⟩

end Loop

section Call

variable [Zero B] {c : Config} {w : World d} {address size : ℕ}

/-- A call that finds the mutex held blocks. -/
lemma znsUdeviceWrite_blocked (halign : size % c.lbaSizeBytes = 0) (hm : w.ftl.gcMutex = true)
    (passes : List HashOrder) (buf : Buffer B) :
    (znsUdeviceWrite c passes address size buf).run exec w = (none, w) := by
  simp only [znsUdeviceWrite, halign, ne_eq, not_true_eq_false, if_false, Program.run_bind,
    run_getFtl, hm, if_true, Program.run_pure]

/-- A call that gets it runs the loop, and the body if the loop is left. -/
lemma znsUdeviceWrite_locked (halign : size % c.lbaSizeBytes = 0) (hm : w.ftl.gcMutex = false)
    (passes : List HashOrder) (buf : Buffer B) :
    let l := (watermarkLoop c (size / c.lbaSizeBytes) passes : Prog B Bool).run exec (locked w)
    let r := (writeBody c address size buf).run exec l.2
    (znsUdeviceWrite c passes address size buf).run exec w
      = if l.1 = true then (some r.1, r.2) else (none, l.2) := by
  intro l r
  have hl : (watermarkLoop c (size / c.lbaSizeBytes) passes : Prog B Bool).run exec (locked w)
      = l := rfl
  simp only [znsUdeviceWrite, halign, ne_eq, not_true_eq_false, if_false, Program.run_bind,
    run_getFtl, hm, Bool.false_eq_true, run_modifyFtl]
  change Program.run exec (if ((watermarkLoop c (size / c.lbaSizeBytes) passes
    : Prog B Bool).run exec (locked w)).1 = true then _ else _) _ = _
  rw [hl]
  by_cases h : l.1 = true
  · simp only [h, if_true, Program.run_map]
    rfl
  · simp only [h]
    rfl

end Call

/-! ## Reads -/

section Reads

variable [Zero B] {w : World d}

/-- Reads change nothing. -/
lemma readLoop_snd (c : Config) (size bound : ℕ) : ∀ (fuel i numRead : ℕ) (buf : Buffer B),
    Program.Triple exec (· = w) (readLoop c size bound fuel i numRead buf) fun _ s => s = w
  | 0, _, _, _ => Program.Triple.pure fun _ hs => hs
  | fuel + 1, i, numRead, buf => by
      rw [readLoop]
      refine .ite (fun _ => ?_) fun _ => .pure fun _ hs => hs
      refine .bind (R := fun _ s => s = w) (fun _ hs => hs) fun m => ?_
      split
      · exact .pure fun _ hs => hs
      · refine .ite (fun _ => ?_) fun _ => ?_
        · refine .bind (R := fun _ s => s = w) (fun s hs => ?_) fun r => ?_
          · exact (run_nvmeRead_snd _ _ _ _).trans hs
          · exact .ite (fun _ => .pure fun _ hs => hs) fun _ =>
            readLoop_snd c size bound fuel _ _ _
        · refine .bind (R := fun _ s => s = w) (fun s hs => ?_) fun r => ?_
          · exact (run_ioLoop_read_snd _ _ _ _ _ _ _ _).trans hs
          · exact .ite (fun _ => .pure fun _ hs => hs) fun _ =>
            readLoop_snd c size bound fuel _ _ _

lemma run_read_snd (c : Config) (address size : ℕ) (buf : Buffer B) (w : World d) :
    ((znsUdeviceRead c address size buf).run exec w).2 = w := by
  rw [znsUdeviceRead, Program.run_ite]
  split
  · rfl
  · exact readLoop_snd _ _ _ _ _ _ _ w rfl

end Reads

/-! ## Runs -/

/-- **A run**: open the device, then make any calls; the collector may run at any time in
between. -/
inductive Reachable [Zero B] (d : Drive B) (p : InitParams) : Config → World d → Prop
  | init {c : Config} {w : World d} (w₀ : World d)
      (h : (initSsZnsDevice p : Prog B _).run exec w₀ = ((0, some c), w)) : Reachable d p c w
  | write {c : Config} {w : World d} (hw : Reachable d p c w) (passes : List HashOrder)
      (address size : ℕ) (buf : Buffer B) :
      Reachable d p c ((znsUdeviceWrite c passes address size buf).run exec w).2
  | read {c : Config} {w : World d} (hw : Reachable d p c w) (address size : ℕ) (buf : Buffer B) :
      Reachable d p c ((znsUdeviceRead c address size buf).run exec w).2
  | collect {c : Config} {w : World d} (hw : Reachable d p c w) (ord : HashOrder) :
      Reachable d p c ((triggerGc c ord : Prog B Unit).run exec w).2

namespace Reachable

variable [Zero B] {c : Config} {w : World d}

lemma config_eq (h : Reachable d p c w) : c = configOf d p := by
  induction h with
  | init w₀ h =>
      rw [run_initSsZnsDevice] at h
      exact (Option.some.inj (Prod.mk.inj (Prod.mk.inj h).1).2).symm
  | write _ _ _ _ _ ih => exact ih
  | read _ _ _ _ ih => exact ih
  | collect _ _ ih => exact ih

/-- The block size is that of the drive, as far as requests of 32 bits can tell. -/
lemma lbaSizeBytes_eq (h : Reachable d p c w) {k : ℕ} (hk : 0 < k)
    (hsize : k * d.lbaSize < 4294967296) : c.lbaSizeBytes = d.lbaSize := by
  rw [h.config_eq]
  exact toU32_of_lt (Nat.lt_of_le_of_lt (Nat.le_mul_of_pos_left _ hk) hsize)

lemma mdts_eq (h : Reachable d p c w) : c.mdts = mdts := by
  rw [h.config_eq]
  rfl

lemma capacityBytes_lt (h : Reachable d p c w) : c.capacityBytes < 18446744073709551616 := by
  rw [h.config_eq]
  exact toU64_lt _

/-- The log starts at zone zero. -/
lemma logZoneStart_eq (h : Reachable d p c w) : w.ftl.logZoneStart = 0 := by
  have hcoarse : Coarse fun m => m.logZoneStart = 0 := fun _ _ _ _ hm => hm
  induction h with
  | init w₀ h =>
      rw [run_initSsZnsDevice] at h
      rw [← (Prod.mk.inj h).2]
      rfl
  | write _ passes address size buf ih =>
      exact Keeps.znsUdeviceWrite faithful_exec hcoarse (fun _ _ hm => hm) (fun _ _ hm => hm)
        (fun _ _ hm => hm) _ passes address size buf _ ih
  | read _ address size buf ih =>
      exact Keeps.znsUdeviceRead (P := fun m => m.logZoneStart = 0) faithful_exec _ address size
        buf _ ih
  | collect _ ord ih =>
      exact Keeps.triggerGc faithful_exec hcoarse (fun _ hm => hm) _ ord _ ih

end Reachable

/-! ## Calls of a fresh process -/

/-- The calls on an open device, and the passes the thread makes on its own. -/
inductive DeviceCall (B : Type) where
  | write (passes : List HashOrder) (address size : ℕ) (buf : Buffer B)
  | read (address size : ℕ) (buf : Buffer B)
  | collect (ord : HashOrder)

namespace DeviceCall

def code [Zero B] (c : Config) : DeviceCall B → Prog B Unit
  | .write passes address size buf => (fun _ => ()) <$> znsUdeviceWrite c passes address size buf
  | .read address size buf => (fun _ => ()) <$> znsUdeviceRead c address size buf
  | .collect ord => triggerGc c ord

/-- An address has 64 bits and a size 32. -/
def InRange : DeviceCall B → Prop
  | .write _ address size _ => address < 18446744073709551616 ∧ size < 4294967296
  | .read address size _ => address < 18446744073709551616 ∧ size < 4294967296
  | .collect _ => True

end DeviceCall

/-- A fresh process opens the device on some medium. -/
def JustOpened (p : InitParams) (w : World d) : Prop :=
  ∃ m : Media d, (initSsZnsDevice p : Prog B _).run exec ⟨Ftl.fresh, m⟩
    = ((0, some (configOf d p)), w)

/-- A call of a run. -/
def Called [Zero B] (c : Config) (call : DeviceCall B) (w w' : World d) : Prop :=
  call.InRange ∧ w' = ((call.code c).run exec w).2

lemma JustOpened.eq {w : World d} (h : JustOpened p w) : ∃ m : Media d,
    w = ⟨started p Ftl.fresh m, m⟩ := by
  obtain ⟨m, hinit⟩ := h
  rw [run_initSsZnsDevice] at hinit
  exact ⟨_, (Prod.mk.inj hinit).2.symm⟩

/-- A call keeps what writes and collections keep. -/
lemma Called.keeps [Zero B] {c : Config} {w w' : World d} {call : DeviceCall B}
    (h : Called c call w w') {P : World d → Prop}
    (hwrite : ∀ {address size}, address < 18446744073709551616 → size < 4294967296 →
      ∀ (passes : List HashOrder) (buf : Buffer B),
        P ((znsUdeviceWrite c passes address size buf).run exec w).2)
    (hcollect : ∀ ord, P ((triggerGc c ord : Prog B Unit).run exec w).2) (hw : P w) : P w' := by
  obtain ⟨hrange, rfl⟩ := h
  cases call with
  | write passes address size buf =>
      rw [DeviceCall.code, Program.run_map]
      exact hwrite hrange.1 hrange.2 passes buf
  | read address size buf =>
      rw [DeviceCall.code, Program.run_map, run_read_snd]
      exact hw
  | collect ord => exact hcollect ord

end StoSys
