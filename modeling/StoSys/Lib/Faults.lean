import StoSys.Lib.Program

/-!
# Runs in which operations fail

`Handler.failing` turns a handler into one that refuses chosen operations.  A program that gives up
on the first refusal it cares about runs like the program without failures up to that point.
`Program.Tracks` says this of two handlers: either both runs end alike, or the first has given up
somewhere, in a state related to one that the second passes through.  It composes: `Tracks.bind` for
programs that hand a bad answer on, `Tracks.seq` for those that ignore it.

`Program.Served` says of a run that every operation got the answer it hoped for, and
`Program.Reports` that the run tells.
-/

namespace Effect

variable {Op : Type} {Res : Op → Type} {σ σ₁ σ₂ α β : Type}

/-! ## Handlers that fail on demand -/

/-- Run `h`, but refuse operation `o` as the `i`-th one (counted from the start of the run) when
`fails i o` holds: a refused operation is answered by `refusal` and leaves the state alone.  An
operation without a refusal cannot fail, and does not count. -/
def Handler.failing (h : Handler Op Res σ) (refusal : (o : Op) → Option (Res o))
    (fails : ℕ → Op → Bool) : Handler Op Res (σ × ℕ) :=
  fun o s =>
    match refusal o with
    | none => ((h o s.1).1, (h o s.1).2, s.2)
    | some r =>
        if fails s.2 o then (r, s.1, s.2 + 1) else ((h o s.1).1, (h o s.1).2, s.2 + 1)

section Failing

variable {h : Handler Op Res σ} {refusal : (o : Op) → Option (Res o)} {fails : ℕ → Op → Bool}

lemma failing_none {o : Op} (ho : refusal o = none) (s : σ × ℕ) :
    h.failing refusal fails o s = ((h o s.1).1, (h o s.1).2, s.2) := by
  rw [Handler.failing, ho]

lemma failing_refused {o : Op} {r : Res o} (ho : refusal o = some r) {s : σ × ℕ}
    (hf : fails s.2 o = true) : h.failing refusal fails o s = (r, s.1, s.2 + 1) := by
  rw [Handler.failing, ho]
  exact if_pos hf

lemma failing_done {o : Op} {r : Res o} (ho : refusal o = some r) {s : σ × ℕ}
    (hf : ¬ fails s.2 o = true) :
    h.failing refusal fails o s = ((h o s.1).1, (h o s.1).2, s.2 + 1) := by
  rw [Handler.failing, ho]
  exact if_neg hf

/-- How many of the operations can fail. -/
def failable (refusal : (o : Op) → Option (Res o)) (l : List Op) : ℕ :=
  l.countP fun o => (refusal o).isSome

/-- Where nothing is refused nothing is different. -/
lemma run_failing_calm {p : Program Op Res α} {s : σ} {i : ℕ}
    (hf : ∀ o ∈ p.issued h s, ∀ k < i + failable refusal (p.issued h s), fails k o = false) :
    p.run (h.failing refusal fails) (s, i)
      = ((p.run h s).1, (p.run h s).2, i + failable refusal (p.issued h s)) := by
  induction p generalizing s i with
  | pure a => rfl
  | op o next ih =>
      have hcount : failable refusal ((Program.op o next).issued h s)
          = failable refusal ((next (h o s).1).issued h (h o s).2)
            + if (refusal o).isSome then 1 else 0 := List.countP_cons
      have hrest : ∀ o' ∈ (next (h o s).1).issued h (h o s).2, o' ∈ (Program.op o next).issued h s :=
        fun _ ho' => List.mem_cons_of_mem _ ho'
      rw [hcount] at hf ⊢
      rw [Program.run, Program.run]
      cases ho : refusal o with
      | none =>
          rw [ho] at hf
          rw [failing_none ho]
          exact ih (h o s).1 fun o' ho' => hf o' (hrest o' ho')
      | some r =>
          rw [ho, Option.isSome_some, if_pos rfl] at hf
          have hfirst := hf o (List.mem_cons_self ..) i (by omega)
          rw [failing_done ho (by rw [hfirst]; exact Bool.false_ne_true)]
          have hnext := ih (h o s).1 (s := (h o s).2) (i := i + 1) fun o' ho' k hk =>
            hf o' (hrest o' ho') k (by omega)
          refine hnext.trans ?_
          rw [Option.isSome_some, if_pos rfl, Nat.add_assoc, Nat.add_comm 1]

/-- Operations that the pattern spares. -/
lemma run_failing_only {May : Op → Prop} {p : Program Op Res α} (hp : p.Only May)
    (hf : ∀ k o, May o → fails k o = false) (s : σ) (i : ℕ) :
    p.run (h.failing refusal fails) (s, i)
      = ((p.run h s).1, (p.run h s).2, i + failable refusal (p.issued h s)) :=
  run_failing_calm fun _ ho k _ => hf k _ (hp.issued ho)

end Failing

namespace Program

lemma visited_bind_left {h : Handler Op Res σ} {p : Program Op Res α} {f : α → Program Op Res β}
    {s s' : σ} (hs : s' ∈ p.visited h s) : s' ∈ (p >>= f).visited h s := by
  by_contra hno
  have hall : Always h (· ≠ s') (p >>= f) s := by
    rintro x hx rfl
    exact hno hx
  exact (always_bind.mp hall).1 s' hs rfl

lemma visited_bind_right {h : Handler Op Res σ} {p : Program Op Res α} {f : α → Program Op Res β}
    {s s' : σ} (hs : s' ∈ (f (p.run h s).1).visited h (p.run h s).2) :
    s' ∈ (p >>= f).visited h s := by
  by_contra hno
  have hall : Always h (· ≠ s') (p >>= f) s := by
    rintro x hx rfl
    exact hno hx
  exact (always_bind.mp hall).2 s' hs rfl

lemma mem_visited_head (h : Handler Op Res σ) (p : Program Op Res α) (s : σ) :
    s ∈ p.visited h s := by
  by_contra hno
  have hall : Always h (· ≠ s) p s := by
    rintro x hx rfl
    exact hno hx
  exact hall.head rfl

/-! ## Answers -/

/-- Every operation the run performs is answered as `ok` asks. -/
def Served (h : Handler Op Res σ) (ok : (o : Op) → Res o → Prop) : Program Op Res α → σ → Prop
  | .pure _, _ => True
  | .op o next, s => ok o (h o s).1 ∧ Served h ok (next (h o s).1) (h o s).2

section Served

variable {h : Handler Op Res σ} {ok : (o : Op) → Res o → Prop} {s : σ}

@[simp] lemma served_pure {a : α} : Served h ok (Pure.pure a : Program Op Res α) s := trivial

@[simp] lemma served_perform {o : Op} :
    Served h ok (perform o : Program Op Res (Res o)) s ↔ ok o (h o s).1 :=
  and_iff_left trivial

@[simp] lemma served_bind {p : Program Op Res α} {f : α → Program Op Res β} :
    Served h ok (p >>= f) s
      ↔ Served h ok p s ∧ Served h ok (f (run h p s).1) (run h p s).2 := by
  induction p generalizing s with
  | pure a => exact ⟨fun hs => ⟨trivial, hs⟩, And.right⟩
  | op o next ih =>
      have hbind : (Program.op o next >>= f) = .op o fun r => next r >>= f := rfl
      rw [hbind, Served, ih]
      exact and_assoc.symm

/-- The run tells: `Q` holds of its answer and its final state exactly if it was served. -/
def Reports (h : Handler Op Res σ) (ok : (o : Op) → Res o → Prop) (Q : α → σ → Prop)
    (p : Program Op Res α) (s : σ) : Prop :=
  Served h ok p s ↔ Q (p.run h s).1 (p.run h s).2

lemma reports_perform {o : Op} {Q : Res o → σ → Prop}
    (hQ : ok o (h o s).1 ↔ Q (h o s).1 (h o s).2) :
    Reports h ok Q (perform o : Program Op Res (Res o)) s :=
  served_perform.trans hQ

/-- An operation whose answer is always good. -/
lemma Reports.after {Q : β → σ → Prop} {p : Program Op Res α} {f : α → Program Op Res β}
    (hp : Served h ok p s) (hf : Reports h ok Q (f (p.run h s).1) (p.run h s).2) :
    Reports h ok Q (p >>= f) s := by
  unfold Reports at hf ⊢
  rw [served_bind, run_bind, and_iff_right hp]
  exact hf

/-- **Giving up** on the first bad answer. -/
lemma Reports.unless {Q : β → σ → Prop} {bad : α → Prop} [DecidablePred bad]
    {p : Program Op Res α} {g : α → β} {q : α → Program Op Res β}
    (hp : Reports h ok (fun a _ => ¬ bad a) p s)
    (hbad : ∀ a, bad a → ¬ Q (g a) (p.run h s).2)
    (hq : Reports h ok Q (q (p.run h s).1) (p.run h s).2) :
    Reports h ok Q (p >>= fun a => if bad a then Pure.pure (g a) else q a) s := by
  unfold Reports at hp hq ⊢
  rw [served_bind, run_bind, hp]
  by_cases hgive : bad (p.run h s).1
  · rw [if_pos hgive]
    exact iff_of_false (fun hs => hs.1 hgive) (hbad _ hgive)
  · rw [if_neg hgive, and_iff_right hgive]
    exact hq

end Served

/-! ## Tracking -/

/-- **Tracking.**  From `s` under `h₁` the program answers what it answers from `t` under `h₂`, and
the final states are related.  Or its answer is `Bad`: then the state it ends in is related to one
that `h₂` visits, and among the operations that `h₂` is asked for one is `Fatal`. -/
def Tracks (h₁ : Handler Op Res σ₁) (h₂ : Handler Op Res σ₂) (R : σ₁ → σ₂ → Prop)
    (Fatal : Op → Prop) (Bad : α → Prop) (p : Program Op Res α) (s : σ₁) (t : σ₂) : Prop :=
  (p.run h₁ s).1 = (p.run h₂ t).1 ∧ R (p.run h₁ s).2 (p.run h₂ t).2 ∨
    Bad (p.run h₁ s).1 ∧ (∃ t' ∈ p.visited h₂ t, R (p.run h₁ s).2 t') ∧
      ∃ o ∈ p.issued h₂ t, Fatal o

namespace Tracks

variable {h₁ : Handler Op Res σ₁} {h₂ : Handler Op Res σ₂} {R : σ₁ → σ₂ → Prop} {Fatal : Op → Prop}
  {Bad : α → Prop} {Bad' : β → Prop} {s : σ₁} {t : σ₂}

lemma pure {a : α} (hR : R s t) : Tracks h₁ h₂ R Fatal Bad (Pure.pure a) s t :=
  Or.inl ⟨rfl, hR⟩

lemma perform {o : Op} {Bad : Res o → Prop} (h : (h₁ o s).1 = (h₂ o t).1 ∧ R (h₁ o s).2 (h₂ o t).2 ∨
    Bad (h₁ o s).1 ∧ R (h₁ o s).2 t ∧ Fatal o) :
    Tracks h₁ h₂ R Fatal Bad (Program.perform o) s t := by
  refine h.imp id ?_
  rintro ⟨hbad, hR, hfatal⟩
  exact ⟨hbad, ⟨t, mem_visited_head _ _ _, hR⟩, o, List.mem_singleton.mpr rfl, hfatal⟩

/-- **Sequencing**, when `f` hands a bad answer on. -/
lemma bind {p : Program Op Res α} {f : α → Program Op Res β}
    (hp : Tracks h₁ h₂ R Fatal Bad p s t)
    (hf : ∀ s', R s' (p.run h₂ t).2 → Tracks h₁ h₂ R Fatal Bad' (f (p.run h₂ t).1) s' (p.run h₂ t).2)
    (hbad : ∀ a, Bad a → ∃ b, Bad' b ∧ f a = Pure.pure b) :
    Tracks h₁ h₂ R Fatal Bad' (p >>= f) s t := by
  unfold Tracks
  rw [run_bind, run_bind, issued_bind]
  rcases hp with ⟨ha, hR⟩ | ⟨ha, ⟨t', ht', hR⟩, o, ho, hfatal⟩
  · rw [ha]
    rcases hf _ hR with hgood | ⟨hb, ⟨t', ht', hR'⟩, o, ho, hfatal⟩
    · exact Or.inl hgood
    · exact Or.inr ⟨hb, ⟨t', visited_bind_right ht', hR'⟩, o, List.mem_append_right _ ho, hfatal⟩
  · obtain ⟨b, hb, heq⟩ := hbad _ ha
    rw [heq]
    exact Or.inr ⟨hb, ⟨t', visited_bind_left ht', hR⟩, o, List.mem_append_left _ ho, hfatal⟩

/-- **Sequencing**, when the first part cannot fail. -/
lemma after {p : Program Op Res α} {f : α → Program Op Res β}
    (hp : (p.run h₁ s).1 = (p.run h₂ t).1 ∧ R (p.run h₁ s).2 (p.run h₂ t).2)
    (hf : ∀ s', R s' (p.run h₂ t).2 →
      Tracks h₁ h₂ R Fatal Bad' (f (p.run h₂ t).1) s' (p.run h₂ t).2) :
    Tracks h₁ h₂ R Fatal Bad' (p >>= f) s t := by
  have hgood : Tracks h₁ h₂ R Fatal (fun _ => False) p s t := Or.inl hp
  exact hgood.bind hf fun _ ha => ha.elim

/-- **Sequencing**, when the answer is ignored. -/
lemma seq {p : Program Op Res α} {q : Program Op Res β}
    (hR : R (p.run h₁ s).2 (p.run h₂ t).2)
    (hq : ∀ s', R s' (p.run h₂ t).2 → Tracks h₁ h₂ R Fatal Bad' q s' (p.run h₂ t).2) :
    Tracks h₁ h₂ R Fatal Bad' (p >>= fun _ => q) s t := by
  unfold Tracks
  rw [run_bind, run_bind, issued_bind]
  rcases hq _ hR with hgood | ⟨hb, ⟨t', ht', hR'⟩, o, ho, hfatal⟩
  · exact Or.inl hgood
  · exact Or.inr ⟨hb, ⟨t', visited_bind_right ht', hR'⟩, o, List.mem_append_right _ ho, hfatal⟩

end Tracks

end Program

end Effect
