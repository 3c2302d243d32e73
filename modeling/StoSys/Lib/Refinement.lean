import StoSys.Lib.Faults

/-!
# Refinement, for clients that keep to the rules

One handler says what a component is for, and accepts only the operations it has an answer to;
another says what the component does.  If the second gives the answer of the first to every
operation that the first accepts, no program can tell the two apart while it keeps to accepted
operations (`run_refines`).

**Parts of a signature.**  A program over one signature is a program over a larger one (`inject`),
and runs there as it does under the part of the handler that it uses.

**Total triples.**  `Delivers` is a triple that also says that every operation is accepted: what a
client needs to know of itself before it may be run against the component.
-/

namespace Effect.Program

variable {Op : Type} {Res : Op → Type} {σ τ α β : Type}

/-! ## Parts of a signature -/

/-- A program over a part of the signature: `f` names the operations, `r` translates the answers. -/
def inject {Op' : Type} {Res' : Op' → Type} (f : Op → Op') (r : ∀ o, Res' (f o) → Res o) :
    Program Op Res α → Program Op' Res' α
  | .pure a => .pure a
  | .op o next => .op (f o) fun x => inject f r (next (r o x))

lemma run_inject {Op' : Type} {Res' : Op' → Type} (f : Op → Op') (r : ∀ o, Res' (f o) → Res o)
    (h : Handler Op' Res' σ) (p : Program Op Res α) (s : σ) :
    (p.inject f r).run h s = p.run (fun o s => (r o (h (f o) s).1, (h (f o) s).2)) s := by
  induction p generalizing s with
  | pure a => rfl
  | op o next ih => exact ih _ _

/-! ## Refinement -/

/-- **Refinement.**  `h` does what `k` does, as far as operations go that `k` accepts. -/
lemma run_refines {h : Handler Op Res σ} {k : Handler Op Res τ} {ok : (o : Op) → Res o → Prop}
    {R : σ → τ → Prop}
    (hstep : ∀ {o s t}, R s t → ok o (k o t).1 → (h o s).1 = (k o t).1 ∧ R (h o s).2 (k o t).2)
    {p : Program Op Res α} {s : σ} {t : τ} (hR : R s t) (hp : Served k ok p t) :
    (p.run h s).1 = (p.run k t).1 ∧ R (p.run h s).2 (p.run k t).2 := by
  induction p generalizing s t with
  | pure a => exact ⟨rfl, hR⟩
  | op o next ih =>
      obtain ⟨hok, hrest⟩ := hp
      obtain ⟨hres, hR'⟩ := hstep hR hok
      rw [run, run, hres]
      exact ih _ hR' hrest

/-! ## Triples -/

/-- The run itself, when the answer is known. -/
lemma Triple.run_eq {h : Handler Op Res σ} {P : σ → Prop} {c : α} {p : Program Op Res α}
    (hp : Triple h P p fun a s => P s ∧ a = c) {s : σ} (hs : P s) :
    ∃ s', p.run h s = (c, s') ∧ P s' :=
  ⟨(p.run h s).2, Prod.ext (hp s hs).2 rfl, (hp s hs).1⟩

/-- From a state that satisfies `P` every operation of the program is accepted, and it ends with an
answer and a state that satisfy `Q`. -/
def Delivers (h : Handler Op Res σ) (ok : (o : Op) → Res o → Prop) (P : σ → Prop)
    (p : Program Op Res α) (Q : α → σ → Prop) : Prop :=
  ∀ s, P s → Served h ok p s ∧ Q (p.run h s).1 (p.run h s).2

namespace Delivers

variable {h : Handler Op Res σ} {ok : (o : Op) → Res o → Prop} {P : σ → Prop} {R Q : α → σ → Prop}
  {Q' : β → σ → Prop}

lemma pure {a : α} (ha : ∀ s, P s → Q a s) :
    Delivers h ok P (Pure.pure a : Program Op Res α) Q :=
  fun s hs => ⟨trivial, ha s hs⟩

lemma perform {o : Op} {Q : Res o → σ → Prop}
    (ho : ∀ s, P s → ok o (h o s).1 ∧ Q (h o s).1 (h o s).2) :
    Delivers h ok P (Program.perform o) Q :=
  fun s hs => ⟨served_perform.mpr (ho s hs).1, (ho s hs).2⟩

lemma bind {p : Program Op Res α} {f : α → Program Op Res β} (hp : Delivers h ok P p R)
    (hf : ∀ a, Delivers h ok (R a) (f a) Q') : Delivers h ok P (p >>= f) Q' := by
  intro s hs
  obtain ⟨hserved, hR⟩ := hp s hs
  obtain ⟨hserved', hQ⟩ := hf _ _ hR
  rw [run_bind]
  exact ⟨served_bind.mpr ⟨hserved, hserved'⟩, hQ⟩

lemma ite {c : Prop} [Decidable c] {p q : Program Op Res α} (hp : c → Delivers h ok P p Q)
    (hq : ¬ c → Delivers h ok P q Q) : Delivers h ok P (if c then p else q) Q := by
  split
  · exact hp ‹_›
  · exact hq ‹_›

/-- What the precondition says of the data of the program. -/
lemma given {p : Program Op Res α} {φ : Prop} (hφ : ∀ s, P s → φ)
    (hp : φ → Delivers h ok P p Q) : Delivers h ok P p Q :=
  fun s hs => hp (hφ s hs) s hs

lemma pre {p : Program Op Res α} {P' : σ → Prop} (hp : Delivers h ok P p Q)
    (hP : ∀ s, P' s → P s) : Delivers h ok P' p Q :=
  fun s hs => hp s (hP s hs)

lemma post {p : Program Op Res α} (hp : Delivers h ok P p R) (hRQ : ∀ a s, R a s → Q a s) :
    Delivers h ok P p Q :=
  fun s hs => ⟨(hp s hs).1, hRQ _ _ (hp s hs).2⟩

end Delivers

end Effect.Program
