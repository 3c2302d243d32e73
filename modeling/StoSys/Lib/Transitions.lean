import Mathlib.Data.List.Basic
import Mathlib.Logic.Relation
import Mathlib.Tactic.Common

/-!
# Runs of a transition system

A run is kept together with the steps it took, so that a statement about a run can speak of its
past: "if every step was taken at a good moment", "once this step has been taken".

* `Run.invariant` — what holds at the start and is kept by every step holds at the end.
* `Run.along` — the same, when another invariant is used for it.
* `Run.guarded` — and when only the steps that meet a condition keep it.
* `Run.since` — what a step establishes that does not meet the condition, and every later step
  keeps.
* `Run.length_add_le` — runs whose steps all spend something.
-/

namespace Transitions

variable {S E : Type}

/-- A run to `s` and its steps, the latest first; a step is a state and the event that left it. -/
inductive Run (init : S → Prop) (step : E → S → S → Prop) : List (S × E) → S → Prop
  | start {s : S} (hs : init s) : Run init step [] s
  | step {tr : List (S × E)} {s s' : S} {e : E} (hr : Run init step tr s) (hs : step e s s') :
      Run init step ((s, e) :: tr) s'

namespace Run

variable {init : S → Prop} {step : E → S → S → Prop} {tr : List (S × E)} {s : S} {I J : S → Prop}
  {ok : S → E → Prop}

/-- A run goes on. -/
lemma extend {s' : S} (hr : Run init step tr s)
    (hs : Relation.ReflTransGen (fun s s' => ∃ e, step e s s') s s') :
    ∃ tr', Run init step tr' s' := by
  induction hs with
  | refl => exact ⟨tr, hr⟩
  | tail _ hlast ih =>
      obtain ⟨tr', hr'⟩ := ih
      obtain ⟨e, he⟩ := hlast
      exact ⟨_, hr'.step he⟩

/-- **Invariants.** -/
lemma invariant (hr : Run init step tr s) (hinit : ∀ s, init s → I s)
    (hstep : ∀ {e s s'}, I s → step e s s' → I s') : I s := by
  induction hr with
  | start hs => exact hinit _ hs
  | step _ hs ih => exact hstep ih hs

/-- **Invariants of the runs that keep to a condition.**  `I` holds in every run, and may be used
to show that `J` is kept. -/
lemma guarded (hr : Run init step tr s) (hI : ∀ {tr s}, Run init step tr s → I s)
    (hinit : ∀ s, init s → J s)
    (hstep : ∀ {e s s'}, I s → J s → ok s e → step e s s' → J s')
    (hok : ∀ x ∈ tr, ok x.1 x.2) : J s := by
  induction hr with
  | start hs => exact hinit _ hs
  | step hr hs ih =>
      have hbefore := ih fun x hx => hok x (List.mem_cons_of_mem _ hx)
      exact hstep (hI hr) hbefore (hok _ (List.mem_cons_self ..)) hs

/-- **Invariants that rest on others.** -/
lemma along (hr : Run init step tr s) (hI : ∀ {tr s}, Run init step tr s → I s)
    (hinit : ∀ s, init s → J s) (hstep : ∀ {e s s'}, I s → J s → step e s s' → J s') : J s := by
  induction hr with
  | start hs => exact hinit _ hs
  | step hr hs ih => exact hstep (hI hr) ih hs

/-- **What follows from a step that breaks a condition.** -/
lemma since (hr : Run init step tr s) (hI : ∀ {tr s}, Run init step tr s → I s)
    (hbreak : ∀ {e s s'}, I s → ¬ ok s e → step e s s' → J s')
    (hstep : ∀ {e s s'}, I s → J s → step e s s' → J s')
    (hbad : ∃ x ∈ tr, ¬ ok x.1 x.2) : J s := by
  induction hr with
  | start hs =>
      obtain ⟨x, hx, -⟩ := hbad
      cases hx
  | @step tr s s' e hr hs ih =>
      obtain ⟨x, hx, hnot⟩ := hbad
      rcases List.mem_cons.mp hx with rfl | hx
      · exact hbreak (hI hr) hnot hs
      · exact hstep (hI hr) (ih ⟨x, hx, hnot⟩) hs

/-- **Runs that spend something at every step** are no longer than what there was. -/
lemma length_add_le {cost : S → ℕ} {bound : ℕ} (hr : Run init step tr s)
    (hinit : ∀ s, init s → I s ∧ cost s ≤ bound)
    (hstep : ∀ {e s s'}, I s → step e s s' → I s' ∧ cost s' < cost s) :
    tr.length + cost s ≤ bound := by
  have h : I s ∧ tr.length + cost s ≤ bound := by
    induction hr with
    | start hs =>
        rw [List.length_nil, Nat.zero_add]
        exact hinit _ hs
    | step _ hs ih =>
        obtain ⟨hI, hle⟩ := ih
        obtain ⟨hI', hlt⟩ := hstep hI hs
        rw [List.length_cons]
        exact ⟨hI', by omega⟩
  exact h.2

end Run

end Transitions
