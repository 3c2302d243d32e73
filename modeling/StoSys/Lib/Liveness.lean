import StoSys.Lib.Monitor
import Mathlib.Algebra.BigOperators.Group.Finset.Basic
import Mathlib.Data.Fintype.BigOperators

/-!
# Threads that come to an end

How a program of `Monitor` ends, if it does.

* `Closed` — points that the threads do not leave.
* `Stopped` — no thread can move.  A thread that is not at its end then waits for the mutex, for the
  others, or for a signal.
* `FollowsMutex`, `Owned` — a mutex that is taken has an owner: a thread that holds it, or one that
  has gone away with it.
* `Paid` — every instruction is paid for in advance.  Threads carry the price of what they have
  still to do, a signal carries the price of what the woken thread does again, and what the threads
  find in the shared state may pay as well.  So the runs are no longer than what there is to spend
  at the start (`Paid.run`).
-/

namespace Monitor

open Transitions

variable {T S CV : Type} {P : T → Type} {M : Machine T S CV P} {holding : (t : T) → P t → Bool}

/-- Two annotations at once. -/
lemma Annotated.and {inv inv' : (t : T) → P t → S → Prop} (ha : Annotated M holding inv)
    (ha' : Annotated M holding inv') :
    Annotated M holding fun t pc x => inv t pc x ∧ inv' t pc x where
  lock x hcode := ⟨ha.lock x hcode, ha'.lock x hcode⟩
  wake x hcode := ⟨ha.wake x hcode, ha'.wake x hcode⟩
  signal hcode hinv := ⟨ha.signal hcode hinv.1, ha'.signal hcode hinv.2⟩
  await hcode hinv := ⟨ha.await hcode hinv.1, ha'.await hcode hinv.2⟩
  act hcode hx hholding hinv := ⟨ha.act hcode hx hholding hinv.1, ha'.act hcode hx hholding hinv.2⟩
  outside hcode hx hfree _ _ hinv :=
    ⟨ha.outside hcode hx hfree hinv.1, ha'.outside hcode hx hfree hinv.2⟩

variable [DecidableEq T] {s s' : State T S CV P} {t : T}

/-! ## Points that are not left -/

/-- The code leads from points `reach` to such points. -/
structure Closed (M : Machine T S CV P) (reach : (t : T) → P t → Prop) : Prop where
  next : ∀ {t pc q}, reach t pc → (M.code t pc).Reaches q → reach t q
  wait : ∀ {t pc cv q}, reach t pc → M.code t pc = .wait cv q → reach t q

lemma Closed.step {reach : (t : T) → P t → Prop} (hc : Closed M reach) (hs : Step M t s s')
    (h : ∀ u, reach u (s.thread u).point) (u : T) : reach u (s'.thread u).point := by
  by_cases hu : u = t
  · subst hu
    rcases hs.self with ⟨pc, hpc⟩ | ⟨pc, cv, next, hpc, hcode, hasleep⟩
    · rw [hpc]
      rcases hs.reached hpc with hwoken | ⟨pc', hpc', hreach⟩
      · have hbefore := h u
        rw [hwoken] at hbefore
        exact hbefore
      · have hbefore := h u
        rw [hpc'] at hbefore
        exact hc.next hbefore hreach
    · have hbefore := h u
      rw [hpc] at hbefore
      rw [hasleep]
      exact hc.wait hbefore hcode
  · rcases hs.other hu with heq | ⟨cv, pc, hasleep, hwoken, -⟩
    · rw [heq]
      exact h u
    · have hbefore := h u
      rw [hasleep] at hbefore
      rw [hwoken]
      exact hbefore

/-- **A thread that goes away with the mutex** leaves it taken for good. -/
lemma Exclusive.abandoned (he : Exclusive M holding s) (hs : Step M t s s')
    (hholds : Holds holding s t) (hnot : ¬ Holds holding s' t) (hheld : M.held s'.shared = true) :
    Abandoned M holding s' := by
  refine ⟨hheld, fun u hu => ?_⟩
  by_cases hut : u = t
  · subst hut
    exact hnot hu
  · obtain ⟨pc, hpc, hholding⟩ := hu
    rcases hs.other hut with heq | ⟨cv, pc', -, heq, -⟩
    · exact hut (he.unique ⟨pc, heq ▸ hpc, hholding⟩ hholds)
    · rw [heq] at hpc
      cases hpc

/-! ## Where nothing moves -/

/-- No thread can move. -/
def Stopped (M : Machine T S CV P) (s : State T S CV P) : Prop := ∀ t s', ¬ Step M t s s'

/-- What a thread does to the shared state can always be done. -/
def Total (M : Machine T S CV P) : Prop :=
  ∀ {t : T} {pc : P t} {result : S → S → P t → Prop}, M.code t pc = .act result →
    ∀ x, ∃ y next, result x y next

namespace Stopped

variable {pc : P t}

/-- A thread that runs is at its end, or waits for the mutex or for the others. -/
lemma running (hstop : Stopped M s) (htotal : Total M) (hpc : s.thread t = .running pc) :
    M.code t pc = .stop ∨ (∃ next, M.code t pc = .lock next ∧ M.held s.shared = true) ∨
      ∃ ready next, M.code t pc = .await ready next ∧ ¬ ready s.thread := by
  cases hcode : M.code t pc with
  | lock next =>
      refine Or.inr (Or.inl ⟨next, rfl, ?_⟩)
      by_contra hfree
      exact hstop t _ (.lock hpc hcode (Bool.eq_false_iff.mpr hfree))
  | wait cv next => exact absurd (.wait hpc hcode) (hstop t _)
  | signal cv next =>
      by_cases hsleeper : ∃ u pc', s.thread u = .asleep cv pc'
      · obtain ⟨u, pc', hu⟩ := hsleeper
        exact absurd (.signal hpc hcode hu) (hstop t _)
      · exact absurd (.lost hpc hcode fun u pc' hu => hsleeper ⟨u, pc', hu⟩) (hstop t _)
  | act result =>
      obtain ⟨y, next, hy⟩ := htotal hcode s.shared
      exact absurd (.act hpc hcode hy) (hstop t _)
  | await ready next =>
      refine Or.inr (Or.inr ⟨ready, next, rfl, fun hready => ?_⟩)
      exact hstop t _ (.await hpc hcode hready)
  | stop => exact Or.inl rfl

/-- A thread that has been woken waits for the mutex. -/
lemma woken (hstop : Stopped M s) (hpc : s.thread t = .woken pc) : M.held s.shared = true := by
  by_contra hfree
  exact hstop t _ (.wake hpc (Bool.eq_false_iff.mpr hfree))

end Stopped

/-! ## Owners of the mutex -/

/-- **The annotation `owning` follows the mutex**: whoever takes it owns it, and an owner stays one
until the mutex is released. -/
structure FollowsMutex (M : Machine T S CV P) (holding : (t : T) → P t → Bool)
    (reach owning : (t : T) → P t → Prop) : Prop where
  lock : ∀ {t pc next}, M.code t pc = .lock next → owning t next
  wake : ∀ {t pc cv next}, M.code t pc = .wait cv next → owning t next
  signal : ∀ {t pc cv next}, M.code t pc = .signal cv next → owning t pc → owning t next
  await : ∀ {t pc ready next}, M.code t pc = .await ready next → owning t pc → owning t next
  act : ∀ {t pc result x y next}, M.code t pc = .act result → result x y next → reach t pc →
    (holding t pc = true → M.held x = true) → M.held y = true →
      owning t next ∨ M.held x = true ∧ ¬ owning t pc

/-- A mutex that is taken has an owner. -/
def Owned (M : Machine T S CV P) (owning : (t : T) → P t → Prop) (s : State T S CV P) : Prop :=
  M.held s.shared = true → ∃ t pc, s.thread t = .running pc ∧ owning t pc

section Owned

variable {reach owning : (t : T) → P t → Prop} {inv : (t : T) → P t → S → Prop}

omit [DecidableEq T] in
lemma Owned.of_running {pc : P t} (hpc : s.thread t = .running pc) (howning : owning t pc) :
    Owned M owning s := fun _ => ⟨t, pc, hpc, howning⟩

/-- An owner that does not move. -/
lemma Owned.keep {x : S} {status : Status CV (P t)} (ho : Owned M owning s)
    (hheld : M.held s.shared = true) (ht : ∀ pc, s.thread t = .running pc → ¬ owning t pc) :
    Owned M owning ⟨x, Function.update s.thread t status⟩ := by
  intro _
  obtain ⟨u, pc, hpc, howning⟩ := ho hheld
  have hu : u ≠ t := by
    rintro rfl
    exact ht pc hpc howning
  exact ⟨u, pc, (Function.update_of_ne hu _ _).trans hpc, howning⟩

/-- **One step.** -/
lemma Owned.step (ht : FollowsMutex M holding reach owning) (hv : Valid M holding inv s)
    (hreach : ∀ u, reach u (s.thread u).point) (ho : Owned M owning s) (hs : Step M t s s') :
    Owned M owning s' := by
  cases hs with
  | lock hpc hcode hfree => exact .of_running (Function.update_self ..) (ht.lock hcode)
  | wake hpc hfree =>
      obtain ⟨pc₀, cv, hcode⟩ := hv.roused hpc
      exact .of_running (Function.update_self ..) (ht.wake hcode)
  | wait hpc hcode =>
      intro hheld
      dsimp only at hheld
      rw [M.held_release] at hheld
      cases hheld
  | @signal cv pc next v pc' hpc hcode hv' =>
      intro hheld
      obtain ⟨u, pc'', hu, howning⟩ := ho hheld
      have huv : u ≠ v := by
        rintro rfl
        rw [hu] at hv'
        cases hv'
      by_cases hut : u = t
      · subst hut
        cases hpc.symm.trans hu
        refine ⟨u, next, ?_, ht.signal hcode howning⟩
        dsimp only
        rw [Function.update_of_ne huv, Function.update_self]
      · refine ⟨u, pc'', ?_, howning⟩
        dsimp only
        rw [Function.update_of_ne huv, Function.update_of_ne hut, hu]
  | @lost cv pc next hpc hcode hnone =>
      by_cases howning : owning t pc
      · exact .of_running (Function.update_self ..) (ht.signal hcode howning)
      · intro hheld
        refine ho.keep hheld (fun pc' hpc' => ?_) hheld
        cases hpc.symm.trans hpc'
        exact howning
  | @await ready pc next hpc hcode hready =>
      by_cases howning : owning t pc
      · exact .of_running (Function.update_self ..) (ht.await hcode howning)
      · intro hheld
        refine ho.keep hheld (fun pc' hpc' => ?_) hheld
        cases hpc.symm.trans hpc'
        exact howning
  | @act result pc next x hpc hcode hx =>
      intro hheld
      have hpoint := hreach t
      rw [hpc] at hpoint
      rcases ht.act hcode hx hpoint (fun hholding => hv.held ⟨pc, hpc, hholding⟩) hheld with
        howning | ⟨hbefore, hnot⟩
      · exact ⟨t, next, Function.update_self .., howning⟩
      · refine ho.keep hbefore (fun pc' hpc' => ?_) hheld
        cases hpc.symm.trans hpc'
        exact hnot

end Owned

/-! ## Prices -/

/-- **Every instruction is paid for.**  `price` is what a thread has to spend, `charge` what a
signal is worth, `budget` what the shared state adds. -/
structure Paid (M : Machine T S CV P) (holding : (t : T) → P t → Bool)
    (inv : (t : T) → P t → S → Prop) (reach : (t : T) → P t → Prop)
    (price : (t : T) → Status CV (P t) → ℕ) (charge : CV → ℕ) (budget : S → ℕ) : Prop where
  take : ∀ x, budget (M.take x) = budget x
  release : ∀ x, budget (M.release x) = budget x
  lock : ∀ {t pc next}, M.code t pc = .lock next → price t (.running next) < price t (.running pc)
  wait : ∀ {t pc cv next}, M.code t pc = .wait cv next →
    price t (.asleep cv next) < price t (.running pc)
  woken : ∀ {t pc cv next}, M.code t pc = .wait cv next →
    price t (.woken next) ≤ price t (.asleep cv next) + charge cv
  wake : ∀ {t pc cv next}, M.code t pc = .wait cv next →
    price t (.running next) < price t (.woken next)
  signal : ∀ {t pc cv next}, M.code t pc = .signal cv next →
    price t (.running next) + charge cv < price t (.running pc)
  await : ∀ {t pc ready next}, M.code t pc = .await ready next →
    price t (.running next) < price t (.running pc)
  act : ∀ {t pc result x y next}, M.code t pc = .act result → result x y next → reach t pc →
    (holding t pc = true → inv t pc x) →
      price t (.running next) + budget y < price t (.running pc) + budget x

section Paid

variable [Fintype T] {inv : (t : T) → P t → S → Prop} {reach : (t : T) → P t → Prop}
  {price : (t : T) → Status CV (P t) → ℕ} {charge : CV → ℕ} {budget : S → ℕ}

/-- What the threads have to spend. -/
def funds (price : (t : T) → Status CV (P t) → ℕ) (p : Points T CV P) : ℕ := ∑ t, price t (p t)

/-- A thread moves. -/
lemma funds_update (price : (t : T) → Status CV (P t) → ℕ) (p : Points T CV P) (t : T)
    (status : Status CV (P t)) :
    funds price (Function.update p t status) + price t (p t) = funds price p + price t status := by
  have hothers : ∑ u ∈ Finset.univ.erase t, price u (Function.update p t status u)
      = ∑ u ∈ Finset.univ.erase t, price u (p u) :=
    Finset.sum_congr rfl fun u hu => by rw [Function.update_of_ne (Finset.ne_of_mem_erase hu)]
  have hmem := Finset.mem_univ t
  have hafter : funds price (Function.update p t status)
      = price t (Function.update p t status t)
        + ∑ u ∈ Finset.univ.erase t, price u (Function.update p t status u) :=
    (Finset.add_sum_erase _ _ hmem).symm
  have hbefore : funds price p = price t (p t) + ∑ u ∈ Finset.univ.erase t, price u (p u) :=
    (Finset.add_sum_erase _ _ hmem).symm
  rw [Function.update_self, hothers] at hafter
  omega

/-- All there is to spend. -/
def wealth (price : (t : T) → Status CV (P t) → ℕ) (budget : S → ℕ) (s : State T S CV P) : ℕ :=
  funds price s.thread + budget s.shared

/-- **One step** is paid for. -/
lemma Paid.step (hp : Paid M holding inv reach price charge budget) (hv : Valid M holding inv s)
    (hreach : ∀ u, reach u (s.thread u).point) (hs : Step M t s s') :
    wealth price budget s' < wealth price budget s := by
  unfold wealth
  cases hs with
  | @lock pc next hpc hcode hfree =>
      have hmove := funds_update price s.thread t (.running next)
      have hpay := hp.lock hcode
      rw [hpc] at hmove
      dsimp only
      rw [hp.take]
      omega
  | @wait cv pc next hpc hcode =>
      have hmove := funds_update price s.thread t (.asleep cv next)
      have hpay := hp.wait hcode
      rw [hpc] at hmove
      dsimp only
      rw [hp.release]
      omega
  | @wake pc hpc hfree =>
      obtain ⟨pc₀, cv, hcode⟩ := hv.roused hpc
      have hmove := funds_update price s.thread t (.running pc)
      have hpay := hp.wake hcode
      rw [hpc] at hmove
      dsimp only
      rw [hp.take]
      omega
  | @signal cv pc next u pc' hpc hcode hu =>
      obtain ⟨pc₀, hsleep⟩ := hv.slept hu
      have hne : u ≠ t := by
        rintro rfl
        rw [hpc] at hu
        cases hu
      have hmove := funds_update price s.thread t (.running next)
      have hrouse := funds_update price (Function.update s.thread t (.running next)) u
        (.woken pc')
      have hpay := hp.signal hcode
      have hcharge := hp.woken hsleep
      rw [hpc] at hmove
      rw [Function.update_of_ne hne, hu] at hrouse
      dsimp only
      omega
  | @lost cv pc next hpc hcode hnone =>
      have hmove := funds_update price s.thread t (.running next)
      have hpay := hp.signal hcode
      rw [hpc] at hmove
      dsimp only
      omega
  | @await ready pc next hpc hcode hready =>
      have hmove := funds_update price s.thread t (.running next)
      have hpay := hp.await hcode
      rw [hpc] at hmove
      dsimp only
      omega
  | @act result pc next x hpc hcode hx =>
      have hmove := funds_update price s.thread t (.running next)
      have hpoint := hreach t
      rw [hpc] at hmove hpoint
      have hpay := hp.act hcode hx hpoint fun hholding => hv.holds hpc hholding
      dsimp only
      omega

/-- **Every run** is no longer than what there was to spend. -/
theorem Paid.run {init : State T S CV P → Prop} {bound : ℕ} (hg : Guarded M holding)
    (ha : Annotated M holding inv) (hc : Closed M reach)
    (hp : Paid M holding inv reach price charge budget)
    (hinit : ∀ s, init s → Started holding s ∧ (∀ t, reach t (s.thread t).point) ∧
      wealth price budget s ≤ bound)
    {tr : List (State T S CV P × T)} (hr : Run init (Step M) tr s) : tr.length ≤ bound := by
  have hle : tr.length + wealth price budget s ≤ bound := by
    refine hr.length_add_le (I := fun s => Valid M holding inv s ∧ ∀ t, reach t (s.thread t).point)
      (fun s hs => ⟨⟨.start (hinit s hs).1, (hinit s hs).2.1⟩, (hinit s hs).2.2⟩)
      (fun hI hs => ⟨⟨hI.1.step hg ha hs, hc.step hs hI.2⟩, hp.step hI.1 hI.2 hs⟩)
  omega

end Paid

end Monitor
