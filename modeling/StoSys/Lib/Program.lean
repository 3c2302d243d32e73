import Mathlib.Data.List.Basic
import Mathlib.Tactic.Common

/-!
# Programs over an effect signature

A straight-line systems program is a tree: either it is done, or it performs one operation and
goes on with the answer.  `Program Op Res α` is that tree, for any signature of operations `Op`
with answers `Res`.  What an operation *means* is not part of it; a `Handler` supplies that, so
one program text can be run against a well-behaved device, a device that fails on demand, or an
adversary that answers anything.

* `Program.run` — the result and the final state under a handler.
* `Program.visited` — every state between two consecutive operations, the first and the last
  included.  This is what another thread, or a crash, can observe.
* `Program.Always` — an assertion on all visited states, with one rule for each constructor
  (`always_pure`, `always_bind`, `always_perform`).
* `Program.Triple` — pre- and postconditions, with the same rules.
* `Program.issued` — the operations performed, in order.
* `Program.Only` — which operations a program can perform, whatever it is answered.
-/

namespace Effect

/-- A program over operations `Op`, where operation `o` is answered by a value of `Res o`. -/
inductive Program (Op : Type) (Res : Op → Type) (α : Type) : Type where
  | pure (a : α) : Program Op Res α
  | op (o : Op) (next : Res o → Program Op Res α) : Program Op Res α

/-- The meaning of a signature over states `σ`. -/
abbrev Handler (Op : Type) (Res : Op → Type) (σ : Type) : Type :=
  (o : Op) → σ → Res o × σ

variable {Op : Type} {Res : Op → Type} {σ α β : Type}

namespace Program

/-- Sequencing: graft `f` onto every leaf. -/
def bind (p : Program Op Res α) (f : α → Program Op Res β) : Program Op Res β :=
  match p with
  | .pure a => f a
  | .op o next => .op o fun r => (next r).bind f

instance : Monad (Program Op Res) where
  pure := .pure
  bind := bind

/-- The program that performs one operation and returns its answer. -/
def perform (o : Op) : Program Op Res (Res o) := .op o .pure

/-- Run a program to its end. -/
def run (h : Handler Op Res σ) : Program Op Res α → σ → α × σ
  | .pure a, s => (a, s)
  | .op o next, s => run h (next (h o s).1) (h o s).2

/-- All states between two consecutive operations, in order. -/
def visited (h : Handler Op Res σ) : Program Op Res α → σ → List σ
  | .pure _, s => [s]
  | .op o next, s => s :: visited h (next (h o s).1) (h o s).2

/-- The operations a run performs, in order. -/
def issued (h : Handler Op Res σ) : Program Op Res α → σ → List Op
  | .pure _, _ => []
  | .op o next, s => o :: issued h (next (h o s).1) (h o s).2

/-! ## Equations for `run` -/

variable (h : Handler Op Res σ)

@[simp] lemma run_pure (a : α) (s : σ) :
    run h (Pure.pure a : Program Op Res α) s = (a, s) := rfl

@[simp] lemma run_perform (o : Op) (s : σ) :
    run h (perform o : Program Op Res (Res o)) s = h o s := rfl

@[simp] lemma run_bind (p : Program Op Res α) (f : α → Program Op Res β) (s : σ) :
    run h (p >>= f) s = run h (f (run h p s).1) (run h p s).2 := by
  induction p generalizing s with
  | pure a => rfl
  | op o next ih => exact ih (h o s).1 (h o s).2

@[simp] lemma run_map (f : α → β) (p : Program Op Res α) (s : σ) :
    run h (f <$> p) s = (f (run h p s).1, (run h p s).2) :=
  run_bind h p (Pure.pure ∘ f) s

lemma run_ite (c : Prop) [Decidable c] (p q : Program Op Res α) (s : σ) :
    run h (if c then p else q) s = if c then run h p s else run h q s := by
  split <;> rfl

/-! ## Assertions on every visited state -/

/-- `I` holds of every state visited by running `p` from `s`. -/
def Always (I : σ → Prop) (p : Program Op Res α) (s : σ) : Prop :=
  ∀ s' ∈ visited h p s, I s'

variable {h} {I J : σ → Prop} {s : σ}

@[simp] lemma always_pure {a : α} :
    Always h I (Pure.pure a : Program Op Res α) s ↔ I s := by
  simp [Always, Pure.pure, visited]

@[simp] lemma always_perform {o : Op} :
    Always h I (perform o : Program Op Res (Res o)) s ↔ I s ∧ I (h o s).2 := by
  simp [Always, perform, visited]

/-- The state a run starts in is visited. -/
lemma Always.head {p : Program Op Res α} (hp : Always h I p s) : I s := by
  cases p with
  | pure a => exact hp s (by simp [visited])
  | op o next => exact hp s (by simp [visited])

/-- The state a run ends in is visited. -/
lemma Always.last {p : Program Op Res α} (hp : Always h I p s) : I (run h p s).2 := by
  induction p generalizing s with
  | pure a => exact hp s (by simp [visited])
  | op o next ih =>
      refine ih (h o s).1 fun s' hs' => hp s' ?_
      simp [visited, hs']

/-- **Sequencing rule.**  The states visited by `p >>= f` are those visited by `p`, then those
visited by the continuation. -/
@[simp] lemma always_bind {p : Program Op Res α} {f : α → Program Op Res β} :
    Always h I (p >>= f) s
      ↔ Always h I p s ∧ Always h I (f (run h p s).1) (run h p s).2 := by
  induction p generalizing s with
  | pure a =>
      refine ⟨fun hf => ⟨?_, hf⟩, fun hf => hf.2⟩
      exact always_pure.mpr (Always.head hf)
  | op o next ih =>
      have hop : ∀ {γ : Type} (k : Res o → Program Op Res γ),
          Always h I (.op o k) s ↔ I s ∧ Always h I (k (h o s).1) (h o s).2 := by
        intro γ k
        simp [Always, visited]
      have hbind : (Program.op o next >>= f) = .op o fun r => next r >>= f := rfl
      rw [hbind, hop, hop, ih]
      exact and_assoc.symm

@[simp] lemma always_map {p : Program Op Res α} {f : α → β} :
    Always h I (f <$> p) s ↔ Always h I p s := by
  have hmap : (f <$> p) = p >>= fun a => Pure.pure (f a) := rfl
  rw [hmap, always_bind, always_pure]
  exact and_iff_left_of_imp Always.last

lemma Always.ite {c : Prop} [Decidable c] {p q : Program Op Res α} (hp : Always h I p s)
    (hq : Always h I q s) : Always h I (if c then p else q) s := by
  split
  · exact hp
  · exact hq

/-- A weaker assertion follows. -/
lemma Always.mono {p : Program Op Res α} (hp : Always h I p s) (hIJ : ∀ s, I s → J s) :
    Always h J p s :=
  fun s' hs' => hIJ s' (hp s' hs')

lemma Always.and {p : Program Op Res α} (hI : Always h I p s) (hJ : Always h J p s) :
    Always h (fun s => I s ∧ J s) p s :=
  fun s' hs' => ⟨hI s' hs', hJ s' hs'⟩

/-! ## Pre- and postconditions -/

/-- Run from a state that satisfies `P`, the program ends with an answer and a state that satisfy
`Q`. -/
def Triple (h : Handler Op Res σ) (P : σ → Prop) (p : Program Op Res α) (Q : α → σ → Prop) : Prop :=
  ∀ s, P s → Q (run h p s).1 (run h p s).2

namespace Triple

variable {P : σ → Prop} {R Q : α → σ → Prop} {Q' : β → σ → Prop}

lemma pure {a : α} (ha : ∀ s, P s → Q a s) : Triple h P (Pure.pure a : Program Op Res α) Q :=
  ha

lemma bind {p : Program Op Res α} {f : α → Program Op Res β} (hp : Triple h P p R)
    (hf : ∀ a, Triple h (R a) (f a) Q') : Triple h P (p >>= f) Q' := by
  intro s hs
  rw [run_bind]
  exact hf _ _ (hp s hs)

lemma ite {c : Prop} [Decidable c] {p q : Program Op Res α} (hp : c → Triple h P p Q)
    (hq : ¬ c → Triple h P q Q) : Triple h P (if c then p else q) Q := by
  split
  · exact hp ‹c›
  · exact hq ‹¬ c›

/-- A fact about what came before. -/
lemma given {p : Program Op Res α} {φ : Prop} (hp : φ → Triple h (fun _ => True) p Q) :
    Triple h (fun _ => φ) p Q :=
  fun s hφ => hp hφ s trivial

lemma post {p : Program Op Res α} (hp : Triple h P p R) (hRQ : ∀ a s, R a s → Q a s) :
    Triple h P p Q :=
  fun s hs => hRQ _ _ (hp s hs)

end Triple

/-! ## Operations issued -/

@[simp] lemma issued_pure (a : α) (s : σ) :
    issued h (Pure.pure a : Program Op Res α) s = [] := rfl

@[simp] lemma issued_perform (o : Op) (s : σ) :
    issued h (perform o : Program Op Res (Res o)) s = [o] := rfl

@[simp] lemma issued_bind (p : Program Op Res α) (f : α → Program Op Res β) (s : σ) :
    issued h (p >>= f) s = issued h p s ++ issued h (f (run h p s).1) (run h p s).2 := by
  induction p generalizing s with
  | pure a => rfl
  | op o next ih => exact congrArg (o :: ·) (ih (h o s).1 (h o s).2)

/-! ## Operations in the text -/

/-- All operations of the program satisfy `May`, whatever the answers. -/
def Only (May : Op → Prop) : Program Op Res α → Prop
  | .pure _ => True
  | .op o next => May o ∧ ∀ r, Only May (next r)

namespace Only

variable {May : Op → Prop}

lemma pure (a : α) : Only May (Pure.pure a : Program Op Res α) := trivial

lemma perform {o : Op} (ho : May o) : Only May (Program.perform o : Program Op Res (Res o)) :=
  ⟨ho, fun _ => trivial⟩

/-- **Sequencing rule.** -/
lemma bind {p : Program Op Res α} {f : α → Program Op Res β} (hp : Only May p)
    (hf : ∀ a, Only May (f a)) : Only May (p >>= f) := by
  induction p with
  | pure a => exact hf a
  | op o next ih => exact ⟨hp.1, fun r => ih r (hp.2 r)⟩

lemma ite {c : Prop} [Decidable c] {p q : Program Op Res α} (hp : Only May p) (hq : Only May q) :
    Only May (if c then p else q) := by
  split
  · exact hp
  · exact hq

lemma mono {May' : Op → Prop} {p : Program Op Res α} (hp : Only May p)
    (hle : ∀ o, May o → May' o) : Only May' p := by
  induction p with
  | pure a => trivial
  | op o next ih => exact ⟨hle o hp.1, fun r => ih r (hp.2 r)⟩

/-- What each of the operations keeps, the program keeps. -/
lemma keeps {p : Program Op Res α} (hp : Only May p) (hI : ∀ o s, May o → I s → I (h o s).2)
    (hs : I s) : I (p.run h s).2 := by
  induction p generalizing s with
  | pure a => exact hs
  | op o next ih => exact ih _ (hp.2 _) (hI o s hp.1 hs)

lemma issued {p : Program Op Res α} (hp : Only May p) {o : Op} (ho : o ∈ p.issued h s) : May o := by
  induction p generalizing s with
  | pure a => cases ho
  | op o' next ih =>
      rcases List.mem_cons.mp ho with rfl | ho
      · exact hp.1
      · exact ih _ (hp.2 _) ho

end Only

end Program

end Effect
