import StoSys.Properties.Interleavings
import Mathlib.Algebra.BigOperators.Option
import Mathlib.Data.Fintype.Option

/-!
# Every schedule comes to an end

The handshake between the writers and the collector is two `while` loops that wake each other up.
With finitely many calls, each of which finds room in an empty log, they do not go on for ever: the
steps of a schedule are bounded by the number of calls, in every interleaving and whatever the
device does (`schedule_length_le`).

The steps are paid for in advance.  A writer pays for the wake-up of the collector, and the
collector for that of a writer.  A pass is paid for by the request that is withdrawn in it or by the
log that it empties: after a pass nobody asks for another one before a call has written something,
and that call has kept back the price of a pass.
-/

namespace StoSys

open Effect HashMap CInt Monitor Transitions

variable {B σ ι : Type}

/-! ## Sums over the threads -/

/-- The writers, and two more. -/
def threadEquiv : Thread ι ≃ Option (Option ι) where
  toFun
    | .writer i => some (some i)
    | .gc => some none
    | .deinit => none
  invFun
    | some (some i) => .writer i
    | some none => .gc
    | none => .deinit
  left_inv t := by cases t <;> rfl
  right_inv
    | some (some _) => rfl
    | some none => rfl
    | none => rfl

instance [Fintype ι] : Fintype (Thread ι) := Fintype.ofEquiv _ threadEquiv.symm

lemma sum_threads [Fintype ι] (f : Thread ι → ℕ) :
    ∑ t, f t = f .deinit + (f .gc + ∑ i, f (.writer i)) := by
  rw [← Fintype.sum_equiv threadEquiv.symm (fun o => f (threadEquiv.symm o)) f fun _ => rfl,
    Fintype.sum_option, Fintype.sum_option]
  rfl

/-! ## What a pass is good for -/

/-- The call finds room in a log that is empty. -/
def FitsEmptyLog (c : Config) (r : Request B) : Prop :=
  ∀ m : Ftl, m.logZoneEnd = m.logZoneStart → HasRoom c r m

/-- A call that asks for a pass has found something in the log. -/
def begun (c : Config) (req : ι → Request B) : (t : Thread ι) → Point t → Ftl → Prop
  | .writer i, .triggering, m =>
      (req i).size % c.lbaSizeBytes = 0 → m.logZoneEnd ≠ m.logZoneStart
  | _, _, _ => True

section Process

variable [Zero B] {h : Handler (Op B) Op.Res σ} {mem : σ → Ftl} {hh : Faithful h mem} {c : Config}
  {req : ι → Request B}

lemma annotated_begun (hfit : ∀ i, (req i).size % c.lbaSizeBytes = 0 → FitsEmptyLog c (req i)) :
    Annotated (process c hh req) holding fun t pc x => begun c req t pc (mem x) where
  lock {t pc next} x hcode := by
    cases t <;> cases pc <;> cases hcode <;> trivial
  wake {t pc cv next} x hcode := by
    cases t <;> cases pc <;> cases hcode <;> trivial
  signal {t pc cv next x} hcode _ := by
    cases t <;> cases pc <;> cases hcode <;> trivial
  await {t pc ready next x} hcode _ := by
    cases t with
    | writer i =>
        cases pc <;> cases hcode
        split
        · trivial
        · trivial
    | _ => trivial
  act {t pc result x y next} hcode hx _ _ := by
    cases t with
    | writer i =>
        cases pc with
        | testing =>
            cases hcode
            rw [hx.1, hx.2, run_getFtl_fst hh, mem_getFtl hh]
            dsimp only
            split
            case isTrue hfull =>
              exact fun halign hempty => absurd (hfit i halign _ hempty) (Nat.not_lt.mpr hfull)
            case isFalse => trivial
        | triggering | writing =>
            cases hcode
            rw [hx.2]
            trivial
        | _ => cases hcode
    | _ => trivial
  outside {t pc result x y next} hcode hx hfree {u pc'} hbegun := by
    cases t with
    | deinit =>
        cases pc <;> cases hcode
        rw [hx.1, mem_modifyFtl hh]
        cases u with
        | writer i => cases pc' <;> exact hbegun
        | _ => trivial
    | _ => cases pc <;> cases hcode <;> cases hfree

/-! ## Prices -/

/-- What a writer has to spend.  `15` of it is kept back for a pass until the call has returned. -/
@[simp] def WritePoint.price : WritePoint → ℕ
  | .idle => 25
  | .locking => 24
  | .testing => 23
  | .triggering => 22
  | .signalling => 21
  | .waiting => 16
  | .writing => 16
  | .returned _ => 0

/-- What the collector has to spend.  A pass earns it what it spends on the way back to its wait,
and on the writer that it wakes. -/
@[simp] def GcPoint.price : GcPoint → ℕ
  | .locking => 4
  | .testing => 3
  | .waiting => 1
  | .checking => 2
  | .leaving => 1
  | .ended => 0
  | .collecting => 1
  | .signalling => 15
  | .unlocking => 5

@[simp] def DeinitPoint.price : DeinitPoint → ℕ
  | .idle => 8
  | .stopping => 7
  | .signalling => 6
  | .joining => 1
  | .joined => 0

@[simp] def price : (t : Thread ι) → Status Cond (Point t) → ℕ
  | .writer _, .running pc => pc.price
  | .writer _, .asleep _ _ => 15
  | .writer _, .woken _ => 24
  | .gc, .running pc => pc.price
  | .gc, .asleep _ _ => 0
  | .gc, .woken _ => 4
  | .deinit, .running pc => pc.price
  | .deinit, .asleep _ _ | .deinit, .woken _ => 0

/-- What it costs a sleeper to test its condition again. -/
@[simp] def charge : Cond → ℕ
  | .startGc => 4
  | .stopGc => 9

/-- A pass is worth something when it has been asked for, or when the log is not empty. -/
def budget (m : Ftl) : ℕ := if m.triggerMyGc = true ∨ m.logZoneEnd ≠ m.logZoneStart then 15 else 0

lemma budget_le (m : Ftl) : budget m ≤ 15 := by
  unfold budget
  split
  · exact le_rfl
  · exact Nat.zero_le _

lemma budget_rewound (m : Ftl) : budget (rewound m) = 0 :=
  if_neg (not_or.mpr ⟨Bool.false_ne_true, not_not.mpr rfl⟩)

lemma budget_triggered {m : Ftl} (h : m.triggerMyGc = true) : budget m = 15 := if_pos (Or.inl h)

lemma budget_begun {m : Ftl} (h : m.logZoneEnd ≠ m.logZoneStart) : budget m = 15 :=
  if_pos (Or.inr h)

/-- **Every step is paid for.** -/
lemma paid : Paid (process c hh req) holding
    (fun t pc x => flags t pc (mem x) ∧ begun c req t pc (mem x)) (admitted c req) price charge
    fun x => budget (mem x) where
  take x := (congrArg budget (mem_modifyFtl hh _ x)).trans rfl
  release x := (congrArg budget (mem_modifyFtl hh _ x)).trans rfl
  lock {t pc next} hcode := by
    cases t <;> cases pc <;> cases hcode <;> simp
  wait {t pc cv next} hcode := by
    cases t <;> cases pc <;> cases hcode <;> simp
  woken {t pc cv next} hcode := by
    cases t <;> cases pc <;> cases hcode <;> simp
  wake {t pc cv next} hcode := by
    cases t <;> cases pc <;> cases hcode <;> simp
  signal {t pc cv next} hcode := by
    cases t <;> cases pc <;> cases hcode <;> simp
  await {t pc ready next} hcode := by
    cases t with
    | writer i =>
        cases pc <;> cases hcode
        split
        · simp
        · simp
    | gc => cases pc <;> cases hcode
    | deinit => cases pc <;> cases hcode <;> simp
  act {t pc result x y next} hcode hx hadmitted hinv := by
    have hget : budget (mem ((getFtl : Prog B Ftl).run h x).2) = budget (mem x) :=
      congrArg budget (mem_getFtl hh x)
    have hflag : ∀ f : Ftl → Ftl, budget (f (mem x)) = budget (mem x) →
        budget (mem ((modifyFtl f : Prog B Unit).run h x).2) = budget (mem x) := fun f hf =>
      (congrArg budget (mem_modifyFtl hh f x)).trans hf
    cases t with
    | writer i =>
        cases pc with
        | testing =>
            cases hcode
            rw [hx.1, hx.2, hget]
            refine Nat.add_lt_add_right ?_ _
            dsimp only
            split
            · simp
            · simp
        | triggering =>
            -- the log is not empty, so the pass is paid for already
            cases hcode
            have hlog : budget (mem x) = 15 := budget_begun ((hinv rfl).2 hadmitted)
            have hpass := budget_le (mem y)
            rw [hx.2, hlog]
            exact Nat.add_lt_add_of_lt_of_le (by simp) hpass
        | writing =>
            cases hcode
            have hpass := budget_le (mem y)
            rw [hx.2]
            change 0 + budget (mem y) < 16 + budget (mem x)
            omega
        | _ => cases hcode
    | gc =>
        cases pc with
        | testing | checking =>
            cases hcode
            rw [hx.1, hx.2, hget]
            refine Nat.add_lt_add_right ?_ _
            dsimp only
            split
            · simp
            · simp
        | collecting =>
            -- the request is withdrawn, and the log is empty
            cases hcode
            obtain ⟨ord, rfl, rfl⟩ := hx
            obtain ⟨m, -, hm⟩ := triggerGc_rewinds (P := fun _ => True) hh
              (fun _ _ _ _ _ => trivial) c ord x trivial
            have hasked : budget (mem x) = 15 := budget_triggered (hinv rfl).1
            rw [hm, budget_rewound, hasked]
            simp
        | leaving | unlocking =>
            cases hcode
            rw [hx.1, hx.2, hflag _ rfl]
            exact Nat.add_lt_add_right (by simp) _
        | _ => cases hcode
    | deinit =>
        cases pc <;> cases hcode
        rw [hx.1, hx.2, hflag _ rfl]
        exact Nat.add_lt_add_right (by simp) _

/-- What there is to spend when the device has been opened. -/
lemma wealth_opened [Fintype ι] {s : Threads ι σ} (ho : Opened mem s) :
    wealth price (fun x => budget (mem x)) s ≤ 25 * Fintype.card ι + 27 := by
  have hbudget := budget_le (mem s.shared)
  have hwriters : ∑ i, price (.writer i) (s.thread (.writer i)) = Fintype.card ι * 25 :=
    Finset.sum_const_nat fun i _ => by
      rw [ho.writer i]
      rfl
  unfold wealth funds
  rw [sum_threads, ho.gc, ho.deinit, hwriters]
  change 8 + (4 + Fintype.card ι * 25) + budget (mem s.shared) ≤ _
  omega

/-- **Every schedule comes to an end.**  Finitely many calls, each of which finds room in an empty
log if its size is accepted at all: in any environment no interleaving of them with the collector
and the shutdown has more than `25` steps for each call and `27` more. -/
theorem schedule_length_le {ι σ : Type} [Fintype ι] [DecidableEq ι] (h : Handler (Op B) Op.Res σ)
    (mem : σ → Ftl) (hh : Faithful h mem) (c : Config) (req : ι → Request B)
    (hfit : ∀ i, (req i).size % c.lbaSizeBytes = 0 → FitsEmptyLog c (req i))
    (tr : List (Threads ι σ × Thread ι)) (s : Threads ι σ) (hr : Schedule hh c req tr s) :
    tr.length ≤ 25 * Fintype.card ι + 27 := by
  exact Paid.run guarded (annotated.and (annotated_begun hfit)) closed_admitted paid
    (fun s ho => ⟨ho.started, ho.admitted c req, wealth_opened ho⟩) hr

end Process

/-- Three calls on the fresh drive, of which the last has to sleep. -/
theorem schedule_length_le_three :
    (∀ i, FitsEmptyLog smallDrive.config (blockCalls i)) ∧
      ∃ tr s, Schedule (faithful_exec (d := smallDrive.drive)) smallDrive.config blockCalls tr s ∧
        s.thread (.writer 2) = .running (.returned 0) ∧ tr.length ≤ 102 := by
  have hfit : ∀ i, FitsEmptyLog smallDrive.config (blockCalls i) := by
    intro i m hempty
    unfold HasRoom freeZoneNumber
    rw [hempty, sub_self]
    revert i
    decide
  obtain ⟨tr, hr⟩ := Run.extend (.start opened_freshStart) steps_to_return
  exact ⟨hfit, tr, _, hr, both_writer twoReturned 2 (.asleep .startGc .testing)
    (.running (.returned 0)), schedule_length_le exec World.ftl faithful_exec smallDrive.config
      blockCalls (fun i _ => hfit i) tr _ hr⟩

end StoSys
