import StoSys.Properties.ForeignData
import StoSys.Properties.Resume

/-!
# Opening again with a reset

`init_ss_zns_device` with `force_reset` erases the drive and puts the cursor at zero.  The two maps
are globals that neither it nor `deinit_ss_zns_device` touches, so the entries of the first session
are there in the second.  A stale entry of the log map names a block that the second session will
use for something else, and a stale entry of the data map a zone that it will give away again.

With both maps empty the second session is that of a fresh process (`Restarted.session`).
-/

namespace StoSys

open Effect HashMap Zoned CInt

variable {B : Type} [Zero B] {g : Setup B} {w w' : World g.drive} {s : Store B} {c : Config}

/-! ## What a user does, and sees -/

/-- The calls of a session of one-block requests, and the passes the thread makes in between. -/
inductive Call (B : Type) where
  | write (q : ℕ) (passes : List HashOrder) (buf : Buffer B)
  | read (q : ℕ) (buf : Buffer B)
  | collect (ord : HashOrder)

/-- What comes back: the code of a write, if it returns; the code of a read and its buffer. -/
inductive Answer (B : Type) where
  | wrote (r : Option ℤ)
  | got (r : ℤ) (buf : Buffer B)
  | collected

def Answer.returned : Answer B → Bool
  | .wrote r => r.isSome
  | _ => true

/-- The block a read has returned. -/
def Answer.block : Answer B → Option B
  | .got _ buf => some (buf 0)
  | _ => none

def Call.run (c : Config) : Call B → Prog B (Answer B)
  | .write q passes buf => do
      return .wrote (← znsUdeviceWrite c passes (q * c.lbaSizeBytes) c.lbaSizeBytes buf)
  | .read q buf => do
      let (r, buf) ← znsUdeviceRead c (q * c.lbaSizeBytes) c.lbaSizeBytes buf
      return .got r buf
  | .collect ord => do
      triggerGc c ord
      return .collected

/-- One call after the other; nothing comes after one that does not return. -/
def performCalls (c : Config) : List (Call B) → Prog B (List (Answer B))
  | [] => return []
  | call :: calls => do
      let a ← call.run c
      if a.returned then
        return a :: (← performCalls c calls)
      else
        return [a]

/-- Open the device with a reset and make the calls. -/
def session (g : Setup B) (calls : List (Call B)) : Prog B (List (Answer B)) := do
  let (_, c) ← initSsZnsDevice (g.params true)
  match c with
  | some c => performCalls c calls
  | none => return []

/-- Close the device, open it with a reset and make the calls. -/
def secondSession (g : Setup B) (calls : List (Call B)) : Prog B (List (Answer B)) := do
  let _ ← deinitSsZnsDevice
  session g calls

/-- **A second session** after whatever has left `w₀`: one-block writes that return, and passes. -/
inductive Restarted (g : Setup B) (ok : World g.drive → Store B → HashOrder → Prop)
    (w₀ : World g.drive) : Config → World g.drive → Store B → Prop
  | init {c : Config} {w : World g.drive}
      (h : (initSsZnsDevice (g.params true) : Prog B _).run exec
        ((deinitSsZnsDevice : Prog B ℤ).run exec w₀).2 = ((0, some c), w)) :
      Restarted g ok w₀ c w fun _ => none
  | write {c : Config} {w w' : World g.drive} {s : Store B} {q : ℕ} {r : ℤ}
      (hs : Restarted g ok w₀ c w s) (passes : List HashOrder) (buf : Buffer B)
      (hq : q < g.capacity)
      (hok : freeZoneNumber c w.ftl (toI32 1) ≤ c.gcWatermark →
        ∀ ord, passes.head? = some ord → ok w s ord)
      (h : (znsUdeviceWrite c passes (q * g.lba) g.lba buf).run exec w = (some r, w')) :
      Restarted g ok w₀ c w' (if r = 0 then Function.update s q (some (buf 0)) else s)
  | collect {c : Config} {w : World g.drive} {s : Store B} (hs : Restarted g ok w₀ c w s)
      (ord : HashOrder) (hok : ok w s ord) :
      Restarted g ok w₀ c ((triggerGc c ord : Prog B Unit).run exec w).2 s

/-! ## After a reset -/

/-- `w` after the device has been opened with a reset: of the memory, the maps are left. -/
def wiped (w : World g.drive) : World g.drive := ⟨opened w (Media.empty _), Media.empty _⟩

omit [Zero B] in
lemma run_restart : (initSsZnsDevice (g.params true) : Prog B _).run exec
    ((deinitSsZnsDevice : Prog B ℤ).run exec w).2 = ((0, some g.config), wiped w) :=
  run_init true

lemma run_session (calls : List (Call B)) (m : Media g.drive) :
    (session g calls).run exec ⟨Ftl.fresh, m⟩ = (performCalls g.config calls).run exec (fresh g) := by
  simp only [session, Program.run_bind, run_init_fresh]

lemma run_secondSession (calls : List (Call B)) (w : World g.drive) :
    (secondSession g calls).run exec w = (performCalls g.config calls).run exec (wiped w) := by
  simp only [secondSession, session, Program.run_bind, run_restart]

omit [Zero B] in
/-- With empty maps nothing is left. -/
lemma wiped_eq_fresh (hlog : w.ftl.logZoneMapping = ∅) (hdata : w.ftl.dataZoneMapping = ∅) :
    wiped w = fresh g := by
  have hstate : ∀ i, (Media.empty g.drive).zoneState i = emptyZone := fun _ => rfl
  simp only [wiped, opened, fresh, hlog, hdata, hstate]
  rfl

/-- **The second session is one of a fresh process.** -/
lemma Restarted.session {ok : World g.drive → Store B → HashOrder → Prop}
    (h : Restarted g ok w c w' s) (hlog : w.ftl.logZoneMapping = ∅)
    (hdata : w.ftl.dataZoneMapping = ∅) : Session g ok c w' s := by
  induction h with
  | init h =>
      rw [run_restart, wiped_eq_fresh hlog hdata] at h
      cases h
      exact session_fresh g ok
  | write _ passes buf hq hok h ih => exact ih.write passes buf hq hok h
  | collect _ ord hok ih => exact ih.collect ord hok

/-! ## Stale entries of the log map -/

/-- After `p` writes to block `a` in a session that has found the maps of `w`. -/
structure Overwriting (w : World g.drive) (a p : ℕ) (w' : World g.drive) : Prop where
  mutex : w'.ftl.gcMutex = false
  start : w'.ftl.logZoneStart = 0
  ends : w'.ftl.logZoneEnd = p
  cursor : AtCursor g w'
  data : w'.ftl.dataZoneMapping = w.ftl.dataZoneMapping
  log : ∀ q ≠ a, w'.ftl.logZoneMapping.lookup ((q * g.lba : ℕ) : ℤ)
    = w.ftl.logZoneMapping.lookup ((q * g.lba : ℕ) : ℤ)

section Stale

variable {a p q : ℕ}

omit [Zero B] in
lemma overwriting_wiped (w : World g.drive) (a : ℕ) : Overwriting w a 0 (wiped w) := by
  refine ⟨rfl, rfl, rfl, fun i _ => ?_, rfl, fun _ _ => rfl⟩
  change 0 = min g.nBlocks (0 - i * g.nBlocks)
  omega

/-- One write more, and log block `p` is that write's. -/
lemma Overwriting.write (hds : g.ds < 18) (ha : a < g.capacity) (h : Overwriting w a p w')
    (hroom : p + 1 < g.logRoom) (b : B) :
    ∃ w'', (znsUdeviceWrite g.config [] (a * g.lba) g.lba fun _ => b).run exec w' = (some 0, w'') ∧
      Overwriting w a (p + 1) w'' ∧ w''.media.blockAt p = b := by
  have hends := h.ends
  have hmod := Nat.mod_lt p g.nBlocks_pos
  have hdm := Nat.div_add_mod' p g.nBlocks
  have hat := h.cursor.zone (by omega)
  obtain ⟨w'', hrun, hnext⟩ := exists_nextWritten hds ha h.mutex h.start (by omega)
    (by rw [hat, hends]; exact hmod) fun _ => b
  have hend : w''.ftl.logZoneEnd = p + 1 := by
    rw [hnext.ends, hat, hends, hdm]
  have hdata := hnext.data.trans h.data
  refine ⟨w'', hrun, ⟨hnext.mutex, hnext.start, hend, ?_, hdata, fun q hq => ?_⟩, ?_⟩
  · exact h.cursor.step (by rw [hend, hends]) hnext.zone
  · rw [hnext.log, if_neg hq]
    exact h.log q hq
  · rw [hends] at hat
    have hzone := hnext.zone (p / g.nBlocks)
    rw [hends, if_pos rfl] at hzone
    rw [← hdm, Setup.blockAt_addr _ hmod, hzone, ← hat,
      List.getElem?_append_right (Nat.le_refl _), Nat.sub_self,
      Buffer.getElem?_slice _ Nat.one_pos, Option.getD_some]

/-- `k` writes to block `a`, and then other calls. -/
lemma Overwriting.performCalls (hds : g.ds < 18) (ha : a < g.capacity) (b : B)
    (calls : List (Call B)) : ∀ {k p : ℕ} {w' : World g.drive}, Overwriting w a p w' →
    p + k + 1 < g.logRoom → ∃ w'', Overwriting w a (p + k + 1) w'' ∧
      w''.media.blockAt (p + k) = b ∧
      ((StoSys.performCalls g.config
          (List.replicate (k + 1) (.write a [] fun _ => b) ++ calls)).run exec w').1
        = List.replicate (k + 1) (.wrote (some 0))
          ++ ((StoSys.performCalls g.config calls).run exec w'').1
  | 0, p, w', h, hroom => by
      obtain ⟨w'', hrun, h', hb⟩ := h.write hds ha hroom b
      refine ⟨w'', h', hb, ?_⟩
      simp only [List.replicate_succ, List.replicate_zero, List.cons_append, List.nil_append,
        StoSys.performCalls, Call.run, Program.run_bind, Setup.config_lbaSizeBytes, hrun,
        Program.run_pure, Answer.returned, Option.isSome_some, if_true]
  | k + 1, p, w', h, hroom => by
      obtain ⟨w₁, hrun, h₁, -⟩ := h.write hds ha (by omega) b
      obtain ⟨w'', h', hb, hrest⟩ := h₁.performCalls hds ha b calls (k := k) (by omega)
      rw [Nat.add_right_comm p 1 k] at h' hb
      refine ⟨w'', h', hb, ?_⟩
      rw [List.replicate_succ, List.replicate_succ (n := k + 1), List.cons_append, List.cons_append,
        ← hrest]
      simp only [StoSys.performCalls, Call.run, Program.run_bind, Setup.config_lbaSizeBytes, hrun,
        Program.run_pure, Answer.returned, Option.isSome_some, if_true]

/-- **A stale entry is seen.**  The second session reaches the log block it names. -/
lemma exists_stale [Nontrivial B] (hds : g.ds < 18) (hcap : 1 < g.capacity) (hq : q < g.capacity)
    {y : ℕ} (hy : y + 1 < g.logRoom)
    (hstale : w.ftl.logZoneMapping.lookup ((q * g.lba : ℕ) : ℤ) = some (y : ℤ))
    (m : Media g.drive) : ∃ calls : List (Call B),
      ((secondSession g calls).run exec w).1 ≠ ((session g calls).run exec ⟨Ftl.fresh, m⟩).1 := by
  obtain ⟨b, hb⟩ := exists_ne (0 : B)
  obtain ⟨a, ha, haq⟩ : ∃ a < g.capacity, q ≠ a := by
    rcases Nat.eq_zero_or_pos q with hzero | hpos
    · exact ⟨1, hcap, by omega⟩
    · exact ⟨0, by omega, by omega⟩
  have hempty : wiped (fresh g) = fresh g := wiped_eq_fresh rfl rfl
  have hfresh := overwriting_wiped (fresh g) a
  rw [hempty] at hfresh
  obtain ⟨w₁, h₁, hblock, hrun₁⟩ := (overwriting_wiped w a).performCalls hds ha b
    [.read q fun _ => 0] (k := y) (by omega)
  obtain ⟨w₂, h₂, -, hrun₂⟩ := hfresh.performCalls hds ha b [.read q fun _ => 0] (k := y) (by omega)
  rw [Nat.zero_add] at h₁ h₂ hblock
  -- the stale entry leads to the last write, and in a fresh process there is no entry
  have hread₁ := reads_entry (by omega) hq (by have := logRoom_le_total g; omega)
    ((h₁.log q haq).trans hstale)
  have hread₂ := run_read_none (w := w₂) hq (fun _ => 0) (by
    rw [translate_data hq (h₂.log q haq), h₂.data]
    rfl)
  refine ⟨List.replicate (y + 1) (.write a [] fun _ => b) ++ [.read q fun _ => 0],
    fun heq => hb ?_⟩
  rw [run_secondSession, run_session, hrun₁, hrun₂, List.append_cancel_left_eq] at heq
  simp only [performCalls, Call.run, Program.run_bind, Setup.config_lbaSizeBytes, hread₁ _, hread₂,
    Program.run_pure, hblock, Answer.returned, if_true, List.cons.injEq, Answer.got.injEq, true_and,
    and_true] at heq
  have h0 := congrFun heq 0
  simpa [Buffer.store_single] using h0

end Stale

/-! ## Independence -/

/-- **Reset gives an independent session when both maps are empty.**  Whatever the first session
was, the second answers all calls as a fresh process does, gives no zone away twice, and with clean
passes reads zeros where nothing has been written.  And conversely an entry of the log map is always
seen by some second session. -/
theorem reset_independent [Nontrivial B] (g : Setup B) {w : World g.drive} (m : Media g.drive) :
    (w.ftl.logZoneMapping = ∅ → w.ftl.dataZoneMapping = ∅ →
      (∀ calls : List (Call B),
        ((secondSession g calls).run exec w).1 = ((session g calls).run exec ⟨Ftl.fresh, m⟩).1) ∧
      (∀ {c w' s}, Restarted g (fun _ _ _ => True) w c w' s → ∀ {v v' z : ℤ},
        w'.ftl.dataZoneMapping.lookup v = some z → w'.ftl.dataZoneMapping.lookup v' = some z →
          v = v') ∧
      ∀ {c w' s}, Restarted g (fun w s ord => Clean g ord w s) w c w' s →
        ∀ {q}, q < g.capacity → s q = none → ∀ buf : Buffer B,
          (znsUdeviceRead c (q * g.lba) g.lba buf).run exec w' = ((0, buf.store 0 [0]), w')) ∧
    ∀ {q y : ℕ}, g.ds < 18 → 1 < g.capacity → q < g.capacity → y + 1 < g.logRoom →
      w.ftl.logZoneMapping.lookup ((q * g.lba : ℕ) : ℤ) = some (y : ℤ) → ∃ calls : List (Call B),
        ((secondSession g calls).run exec w).1 ≠ ((session g calls).run exec ⟨Ftl.fresh, m⟩).1 := by
  refine ⟨fun hlog hdata => ⟨fun calls => ?_, fun h v v' z hv hv' => ?_, fun h q hq hs buf => ?_⟩,
    fun hds hcap hq hy hstale => exists_stale hds hcap hq hy hstale m⟩
  · rw [run_secondSession, run_session, wiped_eq_fresh hlog hdata]
  · exact (h.session hlog hdata).consistent.inv.zones.inj hv hv'
  · exact (unwritten_reads_zero g (h.session hlog hdata)).1 hq hs buf

/-- The first session has read a block and collected. -/
theorem reset_independent_idle :
    let w := ((triggerGc smallDrive.config HashOrder.stored : Prog UInt8 Unit).run exec
      ((znsUdeviceRead smallDrive.config (4 * 4096) 4096 fun _ => 1).run exec (fresh smallDrive)).2).2
    let calls : List (Call UInt8) := [.write 4 [] fun _ => 9, .read 4 fun _ => 0]
    ((secondSession smallDrive calls).run exec w).1
      = ((session smallDrive calls).run exec ⟨Ftl.fresh, Media.empty smallDrive.drive⟩).1 := by
  intro w calls
  have hlog : w.ftl.logZoneMapping = ∅ := AList.ext (List.isEmpty_iff.mp (by decide +kernel))
  have hdata : w.ftl.dataZoneMapping = ∅ := AList.ext (List.isEmpty_iff.mp (by decide +kernel))
  exact ((reset_independent smallDrive (Media.empty _)).1 hlog hdata).1 calls

/-- **The failing runs**: the first session writes block `4`; the second writes block `8` and reads
block `4`, which it has not written.  When the first also collects, the second gives the zone away
again. -/
theorem reset_keeps_maps :
    let w := ((znsUdeviceWrite smallDrive.config [] (4 * 4096) 4096 fun _ => 7).run exec
      (fresh smallDrive)).2
    let w₁ := ((triggerGc smallDrive.config HashOrder.stored : Prog UInt8 Unit).run exec w).2
    let calls : List (Call UInt8) := [.write 8 [] fun _ => 9, .read 4 fun _ => 0]
    let s := ((secondSession smallDrive [.write 0 [] fun _ => 9, .collect HashOrder.stored]).run
      exec w₁).2
    Session smallDrive (fun _ _ _ => True) smallDrive.config w
        (Function.update (fun _ => none) 4 (some 7)) ∧
      ((secondSession smallDrive calls).run exec w).1.filterMap Answer.block = [9] ∧
      ((session smallDrive calls).run exec ⟨Ftl.fresh, Media.empty smallDrive.drive⟩).1.filterMap
        Answer.block = [0] ∧
      s.ftl.dataZoneMapping.lookup 2 = some 6 ∧ s.ftl.dataZoneMapping.lookup 3 = some 6 := by
  intro w w₁ calls s
  have h := (session_fresh smallDrive fun _ _ _ => True).write (q := 4) [] (fun _ => 7) (by decide)
    (fun _ _ _ => trivial) (show _ = (some 0, w) from Prod.ext (by decide +kernel) rfl)
  exact ⟨h, by decide +kernel, by decide +kernel, by decide +kernel, by decide +kernel⟩

end StoSys
