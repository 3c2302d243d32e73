import Mathlib.Computability.Language

/-!
# Strings with 64-bit positions

`BasicString α` is `std::basic_string`: a list of characters whose length is a `size_t`.  A search
returns the first position of a pattern, or `npos`; a caller that computes with positions does so on
64 bits, and takes what comes out of it to `substr`, which cuts off at the end of the string and
throws beyond it.

* `OccursAt` — where a pattern stands, and `OccursAt.split`, the three parts it cuts a string into.
* `BasicString.find_spec` — the first position, and `BasicString.find_le_find`: the beginning of a
  pattern is found no later than the pattern.
* `mem_dots` — the words over a set of characters, for patterns with a wildcard.
-/

namespace Strings

variable {α : Type}

/-! ## Occurrences -/

/-- `pat` stands at position `i` of `s`. -/
def OccursAt (pat s : List α) (i : ℕ) : Prop := pat <+: s.drop i

instance decidableOccursAt [DecidableEq α] (pat s : List α) : DecidablePred (OccursAt pat s) :=
  fun i => inferInstanceAs (Decidable (pat <+: s.drop i))

namespace OccursAt

variable {pat s : List α} {i : ℕ}

/-- Before it, the pattern, and after it. -/
lemma split (h : OccursAt pat s i) : s.take i ++ pat ++ s.drop (i + pat.length) = s := by
  have hrest : pat ++ (s.drop i).drop pat.length = s.drop i := List.prefix_iff_eq_append.mp h
  rw [← List.drop_drop, List.append_assoc, hrest, List.take_append_drop]

lemma end_le (h : OccursAt pat s i) (hpat : pat ≠ []) : i + pat.length ≤ s.length := by
  have hle := h.length_le
  have hpos := List.length_pos_iff.mpr hpat
  rw [List.length_drop] at hle
  omega

lemma begins {pat' : List α} (h : OccursAt pat s i) (hp : pat' <+: pat) : OccursAt pat' s i :=
  hp.trans h

lemma append (l pat r : List α) : OccursAt pat (l ++ (pat ++ r)) l.length := by
  rw [OccursAt, List.drop_left]
  exact List.prefix_append pat r

end OccursAt

/-! ## The first one -/

section Position

variable [DecidableEq α]

/-- The first position of `pat`, if it has one. -/
def position (pat : List α) : List α → Option ℕ
  | [] => if pat <+: [] then some 0 else none
  | c :: cs => if pat <+: c :: cs then some 0 else (position pat cs).map (· + 1)

omit [DecidableEq α] in
/-- A pattern at the start is the first one. -/
lemma first_zero {pat s : List α} {i : ℕ} (h : OccursAt pat s 0) :
    some 0 = some i ↔ OccursAt pat s i ∧ ∀ j < i, ¬ OccursAt pat s j := by
  constructor
  · rintro ⟨⟩
    exact ⟨h, fun j hj => absurd hj (Nat.not_lt_zero j)⟩
  · rintro ⟨-, hmin⟩
    rcases Nat.eq_zero_or_pos i with rfl | hi
    · rfl
    · exact absurd h (hmin 0 hi)

lemma position_eq_some_iff {pat s : List α} {i : ℕ} :
    position pat s = some i ↔ OccursAt pat s i ∧ ∀ j < i, ¬ OccursAt pat s j := by
  induction s generalizing i with
  | nil =>
      rw [position]
      split_ifs with h
      · exact first_zero h
      · refine iff_of_false (fun hi => by cases hi) fun hi => h ?_
        rw [← List.drop_nil (i := i)]
        exact hi.1
  | cons c cs ih =>
      have hsucc : ∀ j, OccursAt pat (c :: cs) (j + 1) ↔ OccursAt pat cs j := fun _ => Iff.rfl
      rw [position]
      split_ifs with h
      · exact first_zero h
      · cases i with
        | zero => exact iff_of_false (by simp) fun hi => h hi.1
        | succ i =>
            have hmap : (position pat cs).map (· + 1) = some (i + 1) ↔ position pat cs = some i := by
              simp
            rw [hmap, ih, hsucc]
            refine and_congr_right fun _ => ⟨fun hmin j hj => ?_, fun hmin j hj => ?_⟩
            · cases j with
              | zero => exact h
              | succ j => exact hmin j (Nat.lt_of_succ_lt_succ hj)
            · exact hmin (j + 1) (Nat.succ_lt_succ hj)

end Position

/-! ## Strings -/

/-- `std::string::npos`, the largest `size_t` -/
def npos : ℕ := 18446744073709551615

/-- **A string.**  Its length is a position, and not `npos`. -/
@[ext] structure BasicString (α : Type) where
  chars : List α
  length_lt : chars.length < npos

namespace BasicString

/-- `size()`, and `length()` -/
def size (s : BasicString α) : ℕ := s.chars.length

/-- `substr(pos, n)`; `none` when it throws `out_of_range`. -/
def substr (s : BasicString α) (pos n : ℕ) : Option (BasicString α) :=
  if pos ≤ s.size then
    some ⟨(s.chars.drop pos).take n, by
      have := s.length_lt
      rw [List.length_take, List.length_drop]
      omega⟩
  else none

lemma chars_substr {s : BasicString α} {pos : ℕ} (h : pos ≤ s.size) (n : ℕ) :
    (s.substr pos n).map chars = some ((s.chars.drop pos).take n) := by
  rw [substr, if_pos h]
  rfl

/-- A length that reaches the end takes the rest. -/
lemma chars_substr_rest {s : BasicString α} {pos n : ℕ} (h : pos ≤ s.size)
    (hn : s.size ≤ pos + n) : (s.substr pos n).map chars = some (s.chars.drop pos) := by
  rw [chars_substr h, List.take_of_length_le]
  rw [List.length_drop]
  change s.size - pos ≤ n
  omega

variable [DecidableEq α]

/-- `find(pat)` -/
def find (s pat : BasicString α) : ℕ := (position pat.chars s.chars).getD npos

lemma find_eq {s pat : BasicString α} {i : ℕ} (h : OccursAt pat.chars s.chars i)
    (hmin : ∀ j < i, ¬ OccursAt pat.chars s.chars j) : s.find pat = i := by
  rw [find, position_eq_some_iff.mpr ⟨h, hmin⟩, Option.getD_some]

/-- **A pattern that occurs is found where it occurs first.** -/
lemma find_spec {s pat : BasicString α} {i : ℕ} (h : OccursAt pat.chars s.chars i) :
    OccursAt pat.chars s.chars (s.find pat) ∧ s.find pat ≤ i ∧
      ∀ j < s.find pat, ¬ OccursAt pat.chars s.chars j := by
  have hex : ∃ i, OccursAt pat.chars s.chars i := ⟨i, h⟩
  rw [find_eq (Nat.find_spec hex) fun j hj => Nat.find_min hex hj]
  exact ⟨Nat.find_spec hex, Nat.find_min' hex h, fun j hj => Nat.find_min hex hj⟩

/-- The beginning of a pattern is found no later. -/
lemma find_le_find {s pat pat' : BasicString α} {i : ℕ} (h : OccursAt pat.chars s.chars i)
    (hp : pat'.chars <+: pat.chars) : s.find pat' ≤ s.find pat :=
  (find_spec ((find_spec h).1.begins hp)).2.1

end BasicString

/-! ## Wildcards -/

open Computability

/-- `.`, where `dot` is what it stands for -/
def wildcard (dot : Set α) : Language α := {s | ∃ c ∈ dot, s = [c]}

/-- `.*` -/
def dots (dot : Set α) : Language α := (wildcard dot)∗

lemma mem_dots {dot : Set α} {s : List α} : s ∈ dots dot ↔ ∀ c ∈ s, c ∈ dot := by
  rw [dots, Language.mem_kstar]
  constructor
  · rintro ⟨L, rfl, hL⟩ c hc
    obtain ⟨s, hs, hcs⟩ := List.mem_flatten.mp hc
    obtain ⟨c', hc', rfl⟩ := hL s hs
    rw [List.mem_singleton.mp hcs]
    exact hc'
  · intro h
    refine ⟨s.map fun c => [c], ?_, fun y hy => ?_⟩
    · induction s with
      | nil => rfl
      | cons c s ih =>
          rw [List.map_cons, List.flatten_cons, ← ih fun c hc => h c (List.mem_cons_of_mem _ hc)]
          rfl
    · obtain ⟨c, hc, rfl⟩ := List.mem_map.mp hy
      exact ⟨c, h c hc, rfl⟩

end Strings
