import StoSys.Lib.Cost
import StoSys.Ftl.ZnsDevice

/-!
# What the code costs a drive

Two prices matter to a flash drive: how many blocks it is made to store (`Op.stored`), and how often
a zone is erased (`Op.erases`).  Neither charges for reads, or for what happens in memory (`Idle`).
The bounds here hold whatever the drive answers.
-/

namespace StoSys

open Effect HashMap CInt

variable {B : Type}

/-- Blocks that the operation stores. -/
def Op.stored : Op B → ℕ
  | .nvmeWrite _ _ _ _ payload => payload.length
  | .nvmeZnsAppend _ _ _ payload => payload.length
  | _ => 0

/-- Whether the operation erases the zone that starts at block `start`. -/
def Op.erases (start : ℕ) : Op B → ℕ
  | .nvmeZnsReset slba selectAll => if selectAll = true ∨ slba = start then 1 else 0
  | _ => 0

/-- Memory and reads are for free. -/
structure Idle (price : Op B → ℕ) : Prop where
  get : price .get = 0
  modify : ∀ f, price (.modify f) = 0
  read : ∀ slba nlb dataLen off, price (.nvmeRead slba nlb dataLen off) = 0

lemma idle_stored : Idle (B := B) Op.stored := ⟨rfl, fun _ => rfl, fun _ _ _ _ => rfl⟩

lemma idle_erases (start : ℕ) : Idle (B := B) (Op.erases start) :=
  ⟨rfl, fun _ => rfl, fun _ _ _ _ => rfl⟩

/-! ## For free -/

section Free

variable {price : Op B → ℕ} (hprice : Idle price)
include hprice

lemma Idle.getFtl : Program.AtMost price 0 (getFtl : Prog B Ftl) :=
  .perform hprice.get.le

lemma Idle.modifyFtl (f : Ftl → Ftl) : Program.AtMost price 0 (modifyFtl f : Prog B Unit) :=
  .perform (hprice.modify f).le

lemma Idle.nvmeRead (slba : ℕ) (nlb dataLen off : ℤ) :
    Program.AtMost price 0 (nvmeRead slba nlb dataLen off : Prog B _) :=
  .perform (hprice.read _ _ _ _).le

lemma Idle.ioLoop (c : Config) (base : ℤ) (fuel : ℕ) : ∀ (size ptr wp : ℕ) (buf : Buffer B),
    Program.AtMost price 0 (ioLoop c base true fuel size ptr wp buf) := by
  induction fuel with
  | zero => exact fun _ _ _ _ => .pure _
  | succ fuel ih =>
      intro size ptr wp buf
      rw [StoSys.ioLoop]
      refine .ite (fun _ => ?_) fun _ => .pure _
      rw [if_pos rfl]
      exact .bind_free (hprice.nvmeRead _ _ _ _) fun r => .ite (fun _ => .pure _) fun _ => ih _ _ _ _

lemma Idle.readOldZone (c : Config) (v : ℤ) (buf : Buffer B) :
    Program.AtMost price 0 (readOldZone c v buf) := by
  refine .bind_free hprice.getFtl fun m => ?_
  split
  · exact .pure _
  · refine .bind_free (hprice.ioLoop c 0 _ _ _ _ _) fun r => .ite (fun _ => .pure _) fun _ => ?_
    exact .bind_free (hprice.modifyFtl _) fun _ => .pure _

lemma Idle.readLogBlocks (c : Config) (blocks : List (Sigma fun _ : ℤ => ℤ)) :
    ∀ buf : Buffer B, Program.AtMost price 0 (readLogBlocks c blocks buf) := by
  induction blocks with
  | nil => exact fun _ => .pure _
  | cons x rest ih =>
      intro buf
      exact .bind_free (hprice.nvmeRead _ _ _ _) fun r => .ite (fun _ => .pure _) fun _ => ih _

lemma Idle.groupLog (c : Config) (keys : List ℤ) :
    ∀ sets, Program.AtMost price 0 (groupLog c keys sets : Prog B _) := by
  induction keys with
  | nil => exact fun _ => .pure _
  | cons k rest ih =>
      intro sets
      exact .bind_free hprice.getFtl fun m => .bind_free (hprice.modifyFtl _) fun _ => ih _

end Free

/-! ## Blocks stored -/

section Stored

variable {c : Config}

/-- A transfer stores no more than it was asked to. -/
lemma stored_ioLoop (base : ℤ) (fuel : ℕ) : ∀ (size ptr wp : ℕ) (buf : Buffer B),
    Program.AtMost Op.stored (size / c.lbaSizeBytes) (ioLoop c base false fuel size ptr wp buf) := by
  induction fuel with
  | zero => exact fun _ _ _ _ => .pure _
  | succ fuel ih =>
      intro size ptr wp buf
      rw [ioLoop]
      refine .ite (fun _ => ?_) fun _ => .pure _
      rw [if_neg Bool.false_ne_true]
      obtain ⟨single, hsingle⟩ : ∃ k, k = if mdts < size then mdts else size := ⟨_, rfl⟩
      have hle : single ≤ size := by
        rw [hsingle]
        split <;> omega
      rw [← hsingle]
      have hsum : single / c.lbaSizeBytes + (size - single) / c.lbaSizeBytes
          ≤ size / c.lbaSizeBytes := by
        have h := Nat.div_add_div_le_add_div (x := single) (y := size - single) (z := c.lbaSizeBytes)
        rwa [Nat.add_sub_cancel' hle] at h
      refine Program.AtMost.mono (.bind (.perform ?_) fun ret => ?_) hsum
      · simp [Op.stored]
      · exact .ite (fun _ => .pure _) fun _ => ih _ _ _ _

lemma stored_ioWithMdts (slba : ℕ) (base : ℤ) (size : ℕ) (buf : Buffer B) :
    Program.AtMost Op.stored (size / c.lbaSizeBytes) (ioWithMdts c slba base size false buf) :=
  stored_ioLoop base _ _ _ _ _

lemma stored_nvmeZnsReset (slba : ℤ) (all : Bool) :
    Program.AtMost Op.stored 0 (nvmeZnsReset slba all : Prog B ℤ) :=
  .perform (Nat.le_refl 0)

lemma stored_mergeInPlace (z prev : ℤ) (buf : Buffer B) :
    Program.AtMost Op.stored (c.nBlocksPerZone * c.lbaSizeBytes / c.lbaSizeBytes)
      (mergeInPlace c z prev buf) := by
  refine .bind_free (stored_nvmeZnsReset _ _) fun _ => ?_
  refine (stored_ioWithMdts _ _ _ _).then_free fun w => ?_
  refine .ite (fun _ => .pure _) fun _ => .bind_free (idle_stored.modifyFtl _) fun _ => ?_
  exact .bind_free (stored_nvmeZnsReset _ _) fun _ => .pure _

lemma stored_mergeInto (v z prev : ℤ) (buf : Buffer B) :
    Program.AtMost Op.stored (c.nBlocksPerZone * c.lbaSizeBytes / c.lbaSizeBytes)
      (mergeInto c v z prev buf) := by
  refine (stored_ioWithMdts _ _ _ _).then_free fun w => ?_
  refine .ite (fun _ => .pure _) fun _ => .bind_free (idle_stored.modifyFtl _) fun _ => ?_
  refine .bind_free (idle_stored.modifyFtl _) fun _ => .ite (fun _ => ?_) fun _ => .pure _
  exact .bind_free (stored_nvmeZnsReset _ _) fun _ => .pure _

/-- One merge stores one zone. -/
lemma stored_mergeZone (v : ℤ) (blocks : List (Sigma fun _ : ℤ => ℤ)) (buf : Buffer B) :
    Program.AtMost Op.stored (c.nBlocksPerZone * c.lbaSizeBytes / c.lbaSizeBytes)
      (mergeZone c v blocks buf) := by
  refine .bind_free idle_stored.getFtl fun m => .bind_free (idle_stored.readOldZone c v buf)
    fun old => ?_
  refine .ite (fun _ => .pure _) fun _ => .bind_free (idle_stored.readLogBlocks c _ _) fun r => ?_
  refine .ite (fun _ => .pure _) fun _ => .ite (fun _ => ?_) fun _ => ?_
  · exact stored_mergeInPlace _ _ _
  · exact stored_mergeInto _ _ _ _

/-- A merge loop stores one zone for each zone set. -/
lemma stored_mergeLoop (ord : HashOrder) (sets : List (Sigma fun _ : ℤ => UMap ℤ)) :
    ∀ buf : Buffer B, Program.AtMost Op.stored
      (sets.length * (c.nBlocksPerZone * c.lbaSizeBytes / c.lbaSizeBytes))
      (mergeLoop c ord sets buf) := by
  induction sets with
  | nil => exact fun _ => .pure _
  | cons x rest ih =>
      intro buf
      rw [List.length_cons, Nat.succ_mul, Nat.add_comm]
      exact (stored_mergeZone _ _ _).bind fun r => .ite (fun _ => .pure _) fun _ => ih _

lemma stored_resetLogZones (k : ℕ) : ∀ i : ℕ,
    Program.AtMost Op.stored 0 (resetLogZones c i k : Prog B Unit) := by
  induction k with
  | zero => exact fun _ => .pure _
  | succ k ih => exact fun i => .bind_free (stored_nvmeZnsReset _ _) fun _ => ih _

/-- **The body of a write stores its blocks once.** -/
lemma stored_writeBody (address size : ℕ) (buf : Buffer B) :
    Program.AtMost Op.stored (size / c.lbaSizeBytes) (writeBody c address size buf) := by
  have hfinish : ∀ f : UMap ℤ → UMap ℤ, Program.AtMost Op.stored 0 (do
      modifyFtl fun m => { m with logZoneMapping := f m.logZoneMapping }
      modifyFtl fun m => { m with gcMutex := false }
      Pure.pure 0 : Prog B ℤ) := fun f =>
    .bind_free (idle_stored.modifyFtl _) fun _ => .bind_free (idle_stored.modifyFtl _) fun _ =>
      .pure _
  refine .bind_free idle_stored.getFtl fun m => .ite (fun _ => ?_) fun _ => ?_
  · refine .then_free (.perform ?_) fun r => .ite (fun _ => .pure _) fun _ => ?_
    · simp [Op.stored]
    · exact .bind_free (idle_stored.modifyFtl _) fun _ => hfinish _
  · refine (stored_ioWithMdts _ _ _ _).then_free fun r => ?_
    exact .ite (fun _ => .pure _) fun _ => hfinish _

end Stored

/-! ## Zones erased -/

section Erased

variable {c : Config} {start : ℕ}

lemma erases_nvmeZnsReset {slba : ℤ} (h : toU64 slba ≠ start) :
    Program.AtMost (Op.erases start) 0 (nvmeZnsReset slba false : Prog B ℤ) :=
  .perform (Nat.le_of_eq (if_neg (by simp [h])))

lemma erases_ioLoop (base : ℤ) (read : Bool) (fuel : ℕ) : ∀ (size ptr wp : ℕ) (buf : Buffer B),
    Program.AtMost (Op.erases start) 0 (ioLoop c base read fuel size ptr wp buf) := by
  induction fuel with
  | zero => exact fun _ _ _ _ => .pure _
  | succ fuel ih =>
      intro size ptr wp buf
      rw [ioLoop]
      refine .ite (fun _ => .ite (fun _ => ?_) fun _ => ?_) fun _ => .pure _
      · exact .bind_free (.perform (Nat.le_refl 0)) fun r =>
          .ite (fun _ => .pure _) fun _ => ih _ _ _ _
      · exact .bind_free (.perform (Nat.le_refl 0)) fun r =>
          .ite (fun _ => .pure _) fun _ => ih _ _ _ _

/-- A write of its own erases nothing. -/
lemma erases_writeBody (address size : ℕ) (buf : Buffer B) :
    Program.AtMost (Op.erases start) 0 (writeBody c address size buf) := by
  have hidle := idle_erases (B := B) start
  have hfinish : ∀ f : UMap ℤ → UMap ℤ, Program.AtMost (Op.erases start) 0 (do
      modifyFtl fun m => { m with logZoneMapping := f m.logZoneMapping }
      modifyFtl fun m => { m with gcMutex := false }
      Pure.pure 0 : Prog B ℤ) := fun f =>
    .bind_free (hidle.modifyFtl _) fun _ => .bind_free (hidle.modifyFtl _) fun _ => .pure _
  refine .bind_free hidle.getFtl fun m => .ite (fun _ => ?_) fun _ => ?_
  · refine .bind_free (.perform (Nat.le_refl 0)) fun r => .ite (fun _ => .pure _) fun _ => ?_
    exact .bind_free (hidle.modifyFtl _) fun _ => hfinish _
  · refine .bind_free (erases_ioLoop 0 false _ _ _ _ _) fun r => .ite (fun _ => .pure _) fun _ => ?_
    exact hfinish _

end Erased

end StoSys
