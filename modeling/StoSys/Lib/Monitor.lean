import StoSys.Lib.Transitions
import Mathlib.Logic.Function.Basic

/-!
# Threads around one mutex

Threads share a state, a mutex and condition variables in the style of POSIX: waiting releases the
mutex and falls asleep in one step, a signal wakes at most one sleeper and is lost when there is
none, and a woken thread takes the mutex before it goes on.  Nobody wakes without a signal: the
spurious wake-ups that POSIX allows are not modelled.  What a thread does at each of its points is an
`Instr`; how the mutex is stored in the shared state is up to the program.

* `Guarded` — an annotation says at which points a thread holds the mutex; `Guarded.exclusive` is
  mutual exclusion.
* `Abandoned` — the mutex is taken for good.
* `Annotated` — assertions on the shared state at the points that hold the mutex.  They stay true
  while the other threads move, because these do not hold it (`Valid.run`).
-/

namespace Monitor

open Transitions

/-- Where a thread is, and what it is doing there. -/
inductive Status (CV P : Type) : Type where
  | running (pc : P)
  /-- asleep on `cv`, to go on at `pc` -/
  | asleep (cv : CV) (pc : P)
  /-- woken, and about to take the mutex -/
  | woken (pc : P)

/-- The point of a thread, whatever it is doing there. -/
def Status.point {CV P : Type} : Status CV P → P
  | .running pc | .asleep _ pc | .woken pc => pc

/-- The points of all threads. -/
abbrev Points (T CV : Type) (P : T → Type) : Type := (t : T) → Status CV (P t)

/-- What a thread does at a point. -/
inductive Instr (T S CV : Type) (P : T → Type) (Q : Type) : Type where
  | lock (next : Q)
  | wait (cv : CV) (next : Q)
  | signal (cv : CV) (next : Q)
  /-- change the shared state -/
  | act (result : S → S → Q → Prop)
  /-- go on when the other threads are where they should be -/
  | await (ready : Points T CV P → Prop) (next : Q)
  | stop

/-- The points that an instruction leads to. -/
def Instr.Reaches {T S CV : Type} {P : T → Type} {Q : Type} (q : Q) : Instr T S CV P Q → Prop
  | .lock next => q = next
  | .signal _ next => q = next
  | .act result => ∃ x y, result x y q
  | .await _ next => q = next
  | .wait _ _ => False
  | .stop => False

/-- The code of the threads, and where the mutex is. -/
structure Machine (T S CV : Type) (P : T → Type) where
  code : (t : T) → P t → Instr T S CV P (P t)
  held : S → Bool
  take : S → S
  release : S → S
  held_take : ∀ s, held (take s) = true
  held_release : ∀ s, held (release s) = false

structure State (T S CV : Type) (P : T → Type) where
  shared : S
  thread : Points T CV P

variable {T S CV : Type} {P : T → Type} [DecidableEq T]

/-- **A step** of thread `t`. -/
inductive Step (M : Machine T S CV P) (t : T) (s : State T S CV P) : State T S CV P → Prop
  | lock {pc next : P t} (hpc : s.thread t = .running pc) (hcode : M.code t pc = .lock next)
      (hfree : M.held s.shared = false) :
      Step M t s ⟨M.take s.shared, Function.update s.thread t (.running next)⟩
  | wait {cv : CV} {pc next : P t} (hpc : s.thread t = .running pc)
      (hcode : M.code t pc = .wait cv next) :
      Step M t s ⟨M.release s.shared, Function.update s.thread t (.asleep cv next)⟩
  | wake {pc : P t} (hpc : s.thread t = .woken pc) (hfree : M.held s.shared = false) :
      Step M t s ⟨M.take s.shared, Function.update s.thread t (.running pc)⟩
  | signal {cv : CV} {pc next : P t} {u : T} {pc' : P u} (hpc : s.thread t = .running pc)
      (hcode : M.code t pc = .signal cv next) (hu : s.thread u = .asleep cv pc') :
      Step M t s
        ⟨s.shared, Function.update (Function.update s.thread t (.running next)) u (.woken pc')⟩
  | lost {cv : CV} {pc next : P t} (hpc : s.thread t = .running pc)
      (hcode : M.code t pc = .signal cv next) (hnone : ∀ u pc', s.thread u ≠ .asleep cv pc') :
      Step M t s ⟨s.shared, Function.update s.thread t (.running next)⟩
  | act {result : S → S → P t → Prop} {pc next : P t} {x : S} (hpc : s.thread t = .running pc)
      (hcode : M.code t pc = .act result) (hx : result s.shared x next) :
      Step M t s ⟨x, Function.update s.thread t (.running next)⟩
  | await {ready : Points T CV P → Prop} {pc next : P t} (hpc : s.thread t = .running pc)
      (hcode : M.code t pc = .await ready next) (hready : ready s.thread) :
      Step M t s ⟨s.shared, Function.update s.thread t (.running next)⟩

variable {M : Machine T S CV P} {holding : (t : T) → P t → Bool}

section Inversion

variable {s s' : State T S CV P} {t : T} {pc next : P t} {cv : CV}

/-- What a thread that is at an instruction can do. -/
lemma Step.inv (hs : Step M t s s') (hpc : s.thread t = .running pc) :
    match M.code t pc with
    | .lock next => M.held s.shared = false ∧
        s' = ⟨M.take s.shared, Function.update s.thread t (.running next)⟩
    | .wait cv next => s' = ⟨M.release s.shared, Function.update s.thread t (.asleep cv next)⟩
    | .signal cv next =>
        (∃ u pc', s.thread u = .asleep cv pc' ∧ s' = ⟨s.shared,
          Function.update (Function.update s.thread t (.running next)) u (.woken pc')⟩) ∨
        (∀ u pc', s.thread u ≠ .asleep cv pc') ∧
          s' = ⟨s.shared, Function.update s.thread t (.running next)⟩
    | .act result => ∃ x next, result s.shared x next ∧
        s' = ⟨x, Function.update s.thread t (.running next)⟩
    | .await ready next => ready s.thread ∧
        s' = ⟨s.shared, Function.update s.thread t (.running next)⟩
    | .stop => False := by
  cases hs with
  | lock hpc' hcode hfree =>
      cases hpc.symm.trans hpc'
      rw [hcode]
      exact ⟨hfree, rfl⟩
  | wait hpc' hcode =>
      cases hpc.symm.trans hpc'
      rw [hcode]
  | wake hpc' => cases hpc.symm.trans hpc'
  | signal hpc' hcode hu =>
      cases hpc.symm.trans hpc'
      rw [hcode]
      exact Or.inl ⟨_, _, hu, rfl⟩
  | lost hpc' hcode hnone =>
      cases hpc.symm.trans hpc'
      rw [hcode]
      exact Or.inr ⟨hnone, rfl⟩
  | act hpc' hcode hx =>
      cases hpc.symm.trans hpc'
      rw [hcode]
      exact ⟨_, _, hx, rfl⟩
  | await hpc' hcode hready =>
      cases hpc.symm.trans hpc'
      rw [hcode]
      exact ⟨hready, rfl⟩

/-- Where a thread has come from. -/
lemma Step.reached (hs : Step M t s s') (hnext : s'.thread t = .running next) :
    s.thread t = .woken next ∨
      ∃ pc, s.thread t = .running pc ∧ (M.code t pc).Reaches next := by
  cases hs with
  | wait hpc hcode =>
      dsimp only at hnext
      rw [Function.update_self] at hnext
      cases hnext
  | wake hpc hfree =>
      dsimp only at hnext
      rw [Function.update_self] at hnext
      cases hnext
      exact Or.inl hpc
  | @signal cv pc next' u pc' hpc hcode hu =>
      have hne : t ≠ u := by
        rintro rfl
        rw [hpc] at hu
        cases hu
      dsimp only at hnext
      rw [Function.update_of_ne hne, Function.update_self] at hnext
      cases hnext
      refine Or.inr ⟨pc, hpc, ?_⟩
      rw [hcode]
      exact rfl
  | act hpc hcode hx =>
      dsimp only at hnext
      rw [Function.update_self] at hnext
      cases hnext
      refine Or.inr ⟨_, hpc, ?_⟩
      rw [hcode]
      exact ⟨_, _, hx⟩
  | lock hpc hcode | lost hpc hcode | await hpc hcode =>
      dsimp only at hnext
      rw [Function.update_self] at hnext
      cases hnext
      refine Or.inr ⟨_, hpc, ?_⟩
      rw [hcode]
      exact rfl

/-- A thread that sleeps does nothing. -/
lemma Step.not_asleep (hs : Step M t s s') : s.thread t ≠ .asleep cv pc := by
  intro hpc
  cases hs with
  | lock hpc' | wait hpc' | wake hpc' | signal hpc' | lost hpc' | act hpc' | await hpc' =>
      cases hpc.symm.trans hpc'

/-- A thread that waits falls asleep. -/
lemma Step.of_wait (hs : Step M t s s') (hpc : s.thread t = .running pc)
    (hcode : M.code t pc = .wait cv next) : s'.thread t = .asleep cv next := by
  have h := hs.inv hpc
  rw [hcode] at h
  rw [h]
  exact Function.update_self ..

/-- A thread that signals goes on, and wakes one sleeper if there is any. -/
lemma Step.of_signal (hs : Step M t s s') (hpc : s.thread t = .running pc)
    (hcode : M.code t pc = .signal cv next) :
    s'.thread t = .running next ∧
      ((∃ u pc', s.thread u = .asleep cv pc' ∧ s'.thread u = .woken pc' ∧
          ∀ v, v ≠ t → v ≠ u → s'.thread v = s.thread v) ∨
        (∀ u pc', s.thread u ≠ .asleep cv pc') ∧ ∀ v, v ≠ t → s'.thread v = s.thread v) := by
  have h := hs.inv hpc
  rw [hcode] at h
  rcases h with ⟨u, pc', hu, rfl⟩ | ⟨hnone, rfl⟩
  · have hne : t ≠ u := by
      rintro rfl
      rw [hpc] at hu
      cases hu
    refine ⟨?_, Or.inl ⟨u, pc', hu, Function.update_self .., fun v hvt hvu => ?_⟩⟩
    · dsimp only
      rw [Function.update_of_ne hne, Function.update_self]
    · dsimp only
      rw [Function.update_of_ne hvu, Function.update_of_ne hvt]
  · exact ⟨Function.update_self .., Or.inr ⟨hnone, fun v hv => Function.update_of_ne hv _ _⟩⟩

end Inversion

/-! ## Mutual exclusion -/

/-- Thread `t` is at a point that holds the mutex. -/
def Holds (holding : (t : T) → P t → Bool) (s : State T S CV P) (t : T) : Prop :=
  ∃ pc, s.thread t = .running pc ∧ holding t pc = true

/-- **The annotation `holding` fits the code**: a thread comes to a point that holds the mutex by
taking it or from another such point, it waits at such points only, and elsewhere it leaves the
mutex alone. -/
structure Guarded (M : Machine T S CV P) (holding : (t : T) → P t → Bool) : Prop where
  wait : ∀ {t pc cv next}, M.code t pc = .wait cv next → holding t pc = true
  signal : ∀ {t pc cv next}, M.code t pc = .signal cv next → holding t next = true →
    holding t pc = true
  await : ∀ {t pc ready next}, M.code t pc = .await ready next → holding t next = true →
    holding t pc = true
  act : ∀ {t pc result x y next}, M.code t pc = .act result → result x y next →
    (holding t next = true → holding t pc = true) ∧
      (holding t next = holding t pc → M.held y = M.held x)

/-- At most one thread holds the mutex, and while one does it is taken. -/
structure Exclusive (M : Machine T S CV P) (holding : (t : T) → P t → Bool) (s : State T S CV P) :
    Prop where
  held : ∀ {t}, Holds holding s t → M.held s.shared = true
  unique : ∀ {t u}, Holds holding s t → Holds holding s u → t = u

/-- Who holds the mutex after a thread has changed its status. -/
lemma holds_update {s : State T S CV P} {x : S} {t u : T} {status : Status CV (P t)}
    (h : Holds holding ⟨x, Function.update s.thread t status⟩ u) :
    (u ≠ t ∧ Holds holding s u) ∨ (u = t ∧ ∃ pc, status = .running pc ∧ holding t pc = true) := by
  obtain ⟨pc, hpc, hholding⟩ := h
  by_cases hu : u = t
  · subst hu
    dsimp only at hpc
    rw [Function.update_self] at hpc
    exact Or.inr ⟨rfl, pc, hpc, hholding⟩
  · dsimp only at hpc
    rw [Function.update_of_ne hu] at hpc
    exact Or.inl ⟨hu, pc, hpc, hholding⟩

/-- A thread moves between points that agree on the mutex. -/
lemma holds_update_running {s : State T S CV P} {x : S} {t u : T} {pc next : P t}
    (hpc : s.thread t = .running pc) (himp : holding t next = true → holding t pc = true)
    (h : Holds holding ⟨x, Function.update s.thread t (.running next)⟩ u) : Holds holding s u := by
  rcases holds_update h with ⟨-, hold⟩ | ⟨rfl, pc', hpc', hholding⟩
  · exact hold
  · cases hpc'
    exact ⟨pc, hpc, himp hholding⟩

namespace Exclusive

variable {s : State T S CV P}

omit [DecidableEq T] in
lemma not_holds (he : Exclusive M holding s) (hfree : M.held s.shared = false) (t : T) :
    ¬ Holds holding s t := by
  intro h
  rw [he.held h] at hfree
  cases hfree

omit [DecidableEq T] in
lemma mono (he : Exclusive M holding s) {s' : State T S CV P}
    (hheld : M.held s'.shared = M.held s.shared)
    (hsub : ∀ {t}, Holds holding s' t → Holds holding s t) : Exclusive M holding s' where
  held h := hheld.trans (he.held (hsub h))
  unique ht hu := he.unique (hsub ht) (hsub hu)

/-- Taking the mutex when it is free. -/
lemma take (he : Exclusive M holding s) (hfree : M.held s.shared = false) (t : T)
    (status : Status CV (P t)) :
    Exclusive M holding ⟨M.take s.shared, Function.update s.thread t status⟩ where
  held _ := M.held_take _
  unique {u v} hu hv := by
    have honly : ∀ {u}, Holds holding ⟨M.take s.shared, Function.update s.thread t status⟩ u →
        u = t := by
      intro u h
      rcases holds_update h with ⟨-, hold⟩ | ⟨heq, -⟩
      · exact absurd hold (he.not_holds hfree u)
      · exact heq
    rw [honly hu, honly hv]

/-- **One step.** -/
lemma step (hg : Guarded M holding) (he : Exclusive M holding s) {t : T} {s' : State T S CV P}
    (hs : Step M t s s') : Exclusive M holding s' := by
  cases hs with
  | lock hpc hcode hfree => exact he.take hfree t _
  | wake hpc hfree => exact he.take hfree t _
  | @wait cv pc next hpc hcode =>
      have hnone : ∀ {u}, ¬ Holds holding ⟨M.release s.shared,
          Function.update s.thread t (.asleep cv next)⟩ u := by
        intro u h
        rcases holds_update h with ⟨hne, hold⟩ | ⟨-, pc', hpc', -⟩
        · exact hne (he.unique hold ⟨_, hpc, hg.wait hcode⟩)
        · cases hpc'
      exact ⟨fun h => absurd h hnone, fun h => absurd h hnone⟩
  | @signal cv pc next u pc' hpc hcode hu =>
      refine he.mono rfl fun {v} h => ?_
      rcases holds_update (s := ⟨s.shared, Function.update s.thread t (.running next)⟩) h with
        ⟨-, hold⟩ | ⟨-, pc', hpc', -⟩
      · exact holds_update_running hpc (hg.signal hcode) hold
      · cases hpc'
  | lost hpc hcode hnone =>
      exact he.mono rfl fun h => holds_update_running hpc (hg.signal hcode) h
  | await hpc hcode hready =>
      exact he.mono rfl fun h => holds_update_running hpc (hg.await hcode) h
  | @act result pc next x hpc hcode hx =>
      obtain ⟨himp, hkeep⟩ := hg.act hcode hx
      have hsub : ∀ {u}, Holds holding ⟨x, Function.update s.thread t (.running next)⟩ u →
          Holds holding s u := fun h => holds_update_running hpc himp h
      refine ⟨fun {u} h => ?_, fun hu hv => he.unique (hsub hu) (hsub hv)⟩
      have hsame : holding t next = holding t pc := by
        rcases holds_update h with ⟨hne, hold⟩ | ⟨-, pc', hpc', hholding⟩
        · -- somebody else holds it, so `t` does not
          have hno : ¬ holding t pc = true := fun hholding => hne (he.unique hold ⟨pc, hpc, hholding⟩)
          rw [Bool.eq_false_iff.mpr hno, Bool.eq_false_iff.mpr (mt himp hno)]
        · cases hpc'
          rw [hholding, himp hholding]
      exact (hkeep hsame).trans (he.held (hsub h))

end Exclusive

/-- The mutex is taken, and nobody holds it. -/
def Abandoned (M : Machine T S CV P) (holding : (t : T) → P t → Bool) (s : State T S CV P) : Prop :=
  M.held s.shared = true ∧ ∀ t, ¬ Holds holding s t

/-- A mutex that has been abandoned stays so. -/
lemma Abandoned.step {s s' : State T S CV P} {t : T} (hg : Guarded M holding)
    (ha : Abandoned M holding s) (hs : Step M t s s') : Abandoned M holding s' := by
  obtain ⟨hheld, hnone⟩ := ha
  cases hs with
  | lock hpc hcode hfree | wake hpc hfree =>
      rw [hheld] at hfree
      cases hfree
  | wait hpc hcode => exact absurd ⟨_, hpc, hg.wait hcode⟩ (hnone t)
  | @signal cv pc next u pc' hpc hcode hu =>
      refine ⟨hheld, fun v h => ?_⟩
      rcases holds_update (s := ⟨s.shared, Function.update s.thread t (.running next)⟩) h with
        ⟨-, hold⟩ | ⟨-, pc', hpc', -⟩
      · exact hnone v (holds_update_running hpc (hg.signal hcode) hold)
      · cases hpc'
  | lost hpc hcode _ =>
      exact ⟨hheld, fun u h => hnone u (holds_update_running hpc (hg.signal hcode) h)⟩
  | await hpc hcode hready =>
      exact ⟨hheld, fun u h => hnone u (holds_update_running hpc (hg.await hcode) h)⟩
  | @act result pc next x hpc hcode hx =>
      obtain ⟨himp, hkeep⟩ := hg.act hcode hx
      have hout : ¬ holding t pc = true := fun h => hnone t ⟨pc, hpc, h⟩
      have hsame : holding t next = holding t pc := by
        rw [Bool.eq_false_iff.mpr hout, Bool.eq_false_iff.mpr (mt himp hout)]
      exact ⟨(hkeep hsame).trans hheld, fun u h => hnone u (holds_update_running hpc himp h)⟩

/-! ## Assertions under the mutex -/

/-- **Assertions on the shared state**, `inv t pc` for thread `t` at point `pc`. -/
structure Annotated (M : Machine T S CV P) (holding : (t : T) → P t → Bool)
    (inv : (t : T) → P t → S → Prop) : Prop where
  lock : ∀ {t pc next} (x : S), M.code t pc = .lock next → inv t next (M.take x)
  wake : ∀ {t pc cv next} (x : S), M.code t pc = .wait cv next → inv t next (M.take x)
  signal : ∀ {t pc cv next x}, M.code t pc = .signal cv next → inv t pc x → inv t next x
  await : ∀ {t pc ready next x}, M.code t pc = .await ready next → inv t pc x → inv t next x
  act : ∀ {t pc result x y next}, M.code t pc = .act result → result x y next →
    holding t next = true → inv t pc x → inv t next y
  /-- a thread without the mutex does not disturb the others -/
  outside : ∀ {t pc result x y next}, M.code t pc = .act result → result x y next →
    holding t pc = false → ∀ {u pc'}, inv u pc' x → inv u pc' y

/-- The assertions hold where they are made: at the points with the mutex.  And a thread sleeps only
where its code makes it wait. -/
structure Valid (M : Machine T S CV P) (holding : (t : T) → P t → Bool)
    (inv : (t : T) → P t → S → Prop) (s : State T S CV P) : Prop extends Exclusive M holding s where
  holds : ∀ {t pc}, s.thread t = .running pc → holding t pc = true → inv t pc s.shared
  slept : ∀ {t cv pc}, s.thread t = .asleep cv pc → ∃ pc₀, M.code t pc₀ = .wait cv pc
  roused : ∀ {t pc}, s.thread t = .woken pc → ∃ pc₀ cv, M.code t pc₀ = .wait cv pc

section Valid

variable {inv : (t : T) → P t → S → Prop} {s : State T S CV P}

/-- What becomes of another thread in a step: it stays as it is, or it is woken by a signal. -/
lemma Step.other {t u : T} {s' : State T S CV P} (hs : Step M t s s') (hu : u ≠ t) :
    s'.thread u = s.thread u ∨
      ∃ cv pc, s.thread u = .asleep cv pc ∧ s'.thread u = .woken pc ∧
        ∃ pc' next, s.thread t = .running pc' ∧ M.code t pc' = .signal cv next := by
  cases hs with
  | @signal cv pc next v pc' hpc hcode hv =>
      by_cases huv : u = v
      · subst huv
        exact Or.inr ⟨cv, pc', hv, Function.update_self .., pc, next, hpc, hcode⟩
      · left
        dsimp only
        rw [Function.update_of_ne huv, Function.update_of_ne hu]
  | _ => exact Or.inl (Function.update_of_ne hu _ _)

/-- … and of the thread that takes it. -/
lemma Step.self {t : T} {s' : State T S CV P} (hs : Step M t s s') :
    (∃ pc, s'.thread t = .running pc) ∨ ∃ pc cv next, s.thread t = .running pc ∧
      M.code t pc = .wait cv next ∧ s'.thread t = .asleep cv next := by
  cases hs with
  | @wait cv pc next hpc hcode =>
      exact Or.inr ⟨pc, cv, next, hpc, hcode, Function.update_self ..⟩
  | @signal cv pc next u pc' hpc hcode hu =>
      have hne : t ≠ u := by
        rintro rfl
        rw [hpc] at hu
        cases hu
      refine Or.inl ⟨next, ?_⟩
      dsimp only
      rw [Function.update_of_ne hne, Function.update_self]
  | _ => exact Or.inl ⟨_, Function.update_self ..⟩

/-- What becomes of the shared state. -/
lemma Step.shared_cases {t : T} {s' : State T S CV P} (hs : Step M t s s') :
    (s'.shared = s.shared ∨ s'.shared = M.take s.shared ∨ s'.shared = M.release s.shared) ∨
      ∃ pc result next, s.thread t = .running pc ∧ M.code t pc = .act result ∧
        result s.shared s'.shared next ∧ s'.thread t = .running next := by
  cases hs with
  | lock | wake => exact Or.inl (Or.inr (Or.inl rfl))
  | wait => exact Or.inl (Or.inr (Or.inr rfl))
  | signal | lost | await => exact Or.inl (Or.inl rfl)
  | act hpc hcode hx => exact Or.inr ⟨_, _, _, hpc, hcode, hx, Function.update_self ..⟩

/-- The assertion at the new point of the thread that moves. -/
lemma Valid.inv_self (ha : Annotated M holding inv) (hg : Guarded M holding)
    (hv : Valid M holding inv s) {t : T} {s' : State T S CV P} (hs : Step M t s s') {pc : P t}
    (hpc : s'.thread t = .running pc) (hholding : holding t pc = true) : inv t pc s'.shared := by
  cases hs with
  | lock hpc' hcode hfree =>
      dsimp only at hpc
      rw [Function.update_self] at hpc
      cases hpc
      exact ha.lock _ hcode
  | wait hpc' hcode =>
      dsimp only at hpc
      rw [Function.update_self] at hpc
      cases hpc
  | wake hpc' hfree =>
      dsimp only at hpc
      rw [Function.update_self] at hpc
      cases hpc
      obtain ⟨pc₀, cv, hcode⟩ := hv.roused hpc'
      exact ha.wake _ hcode
  | @signal cv pc' next u pc'' hpc' hcode hu =>
      have hne : t ≠ u := by
        rintro rfl
        rw [hpc'] at hu
        cases hu
      dsimp only at hpc
      rw [Function.update_of_ne hne, Function.update_self] at hpc
      cases hpc
      exact ha.signal hcode (hv.holds hpc' (hg.signal hcode hholding))
  | lost hpc' hcode hnone =>
      dsimp only at hpc
      rw [Function.update_self] at hpc
      cases hpc
      exact ha.signal hcode (hv.holds hpc' (hg.signal hcode hholding))
  | act hpc' hcode hx =>
      dsimp only at hpc
      rw [Function.update_self] at hpc
      cases hpc
      exact ha.act hcode hx hholding (hv.holds hpc' ((hg.act hcode hx).1 hholding))
  | await hpc' hcode hready =>
      dsimp only at hpc
      rw [Function.update_self] at hpc
      cases hpc
      exact ha.await hcode (hv.holds hpc' (hg.await hcode hholding))

/-- The assertions of the others: either the shared state is as it was, or nobody held the mutex, or
the thread that moves keeps out of what it protects. -/
lemma Valid.inv_other (ha : Annotated M holding inv) (hg : Guarded M holding)
    (hv : Valid M holding inv s) {t u : T} {s' : State T S CV P} (hs : Step M t s s') {pc : P u}
    (hu : u ≠ t) (hpc : s.thread u = .running pc) (hholding : holding u pc = true) :
    inv u pc s'.shared := by
  have hbefore := hv.holds hpc hholding
  have hown : Holds holding s u := ⟨pc, hpc, hholding⟩
  cases hs with
  | lock hpc' hcode hfree => exact absurd hown (hv.not_holds hfree u)
  | wake hpc' hfree => exact absurd hown (hv.not_holds hfree u)
  | wait hpc' hcode => exact absurd (hv.unique hown ⟨_, hpc', hg.wait hcode⟩) hu
  | @act result pc' next x hpc' hcode hx =>
      cases ht : holding t pc' with
      | true => exact absurd (hv.unique hown ⟨_, hpc', ht⟩) hu
      | false => exact ha.outside hcode hx ht hbefore
  | _ => exact hbefore

/-- **One step.** -/
lemma Valid.step (hg : Guarded M holding) (ha : Annotated M holding inv)
    (hv : Valid M holding inv s) {t : T} {s' : State T S CV P} (hs : Step M t s s') :
    Valid M holding inv s' where
  toExclusive := hv.toExclusive.step hg hs
  holds {u pc} hpc hholding := by
    by_cases hu : u = t
    · subst hu
      exact hv.inv_self ha hg hs hpc hholding
    · rcases hs.other hu with heq | ⟨cv, pc', -, heq, -⟩
      · rw [heq] at hpc
        exact hv.inv_other ha hg hs hu hpc hholding
      · rw [heq] at hpc
        cases hpc
  slept {u cv pc} hpc := by
    by_cases hu : u = t
    · subst hu
      rcases hs.self with ⟨pc', heq⟩ | ⟨pc', cv', next, -, hcode, heq⟩
      · rw [heq] at hpc
        cases hpc
      · rw [heq] at hpc
        cases hpc
        exact ⟨pc', hcode⟩
    · rcases hs.other hu with heq | ⟨cv', pc', -, heq, -⟩
      · rw [heq] at hpc
        exact hv.slept hpc
      · rw [heq] at hpc
        cases hpc
  roused {u pc} hpc := by
    by_cases hu : u = t
    · subst hu
      rcases hs.self with ⟨pc', heq⟩ | ⟨pc', cv', next, -, hcode, heq⟩
      · rw [heq] at hpc
        cases hpc
      · rw [heq] at hpc
        cases hpc
    · rcases hs.other hu with heq | ⟨cv', pc', hslept, heq, -⟩
      · rw [heq] at hpc
        exact hv.roused hpc
      · rw [heq] at hpc
        cases hpc
        obtain ⟨pc₀, hcode⟩ := hv.slept hslept
        exact ⟨pc₀, cv', hcode⟩

/-- Every thread is at a point, and none of these holds the mutex. -/
def Started (holding : (t : T) → P t → Bool) (s : State T S CV P) : Prop :=
  ∀ t, ∃ pc, s.thread t = .running pc ∧ holding t pc = false

omit [DecidableEq T] in
lemma Valid.start (hs : Started holding s) : Valid M holding inv s := by
  have hno : ∀ {t pc}, s.thread t = .running pc → ¬ holding t pc = true := by
    intro t pc hpc
    obtain ⟨pc', hpc', hfree⟩ := hs t
    cases hpc.symm.trans hpc'
    rw [hfree]
    exact Bool.false_ne_true
  have hrun : ∀ t, ∃ pc, s.thread t = .running pc := fun t => (hs t).imp fun _ h => h.1
  refine ⟨⟨?_, ?_⟩, ?_, ?_, ?_⟩
  · rintro t ⟨pc, hpc, hholding⟩
    exact absurd hholding (hno hpc)
  · rintro t - ⟨pc, hpc, hholding⟩
    exact absurd hholding (hno hpc)
  · intro t pc hpc hholding
    exact absurd hholding (hno hpc)
  · intro t cv pc hpc
    obtain ⟨pc', hpc'⟩ := hrun t
    cases hpc.symm.trans hpc'
  · intro t pc hpc
    obtain ⟨pc', hpc'⟩ := hrun t
    cases hpc.symm.trans hpc'

/-- **Every run.** -/
theorem Valid.run (hg : Guarded M holding) (ha : Annotated M holding inv)
    {init : State T S CV P → Prop} (hinit : ∀ s, init s → Started holding s)
    {tr : List (State T S CV P × T)} (hr : Run init (Step M) tr s) : Valid M holding inv s :=
  hr.invariant (fun s hs => .start (hinit s hs)) fun hv hs => hv.step hg ha hs

end Valid

end Monitor
