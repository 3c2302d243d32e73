import StoSys.M45.Uri
import Mathlib.Data.List.TakeWhile
import Mathlib.Tactic.IntervalCases

/-!
# Two parsers for one URI

The constructor takes the device from behind the first `:` up to the first `://`, and `open_rocksdb`
the path from behind the first `://` on.  The pattern only asks for a `://` somewhere behind `s2fs:`.
So there are two kinds of registered URIs.

**The first `:` is not the beginning of a `://`.**  Then the parts fit together again.

**It is**, that is, the URI begins with `s2fs://`.  Then the device would have to end one character
before it begins, its length is `npos`, and `substr` returns everything up to the end.
-/

namespace StoSys.M45

open Strings CInt

/-- Nothing is lost of `x` on 64 bits. -/
def Exact (x : ℤ) : Prop := (toU64 x : ℤ) = x

/-- **The parsers agree**: what they give to `substr` is what they mean, and the URI is the scheme,
the device, the delimiter and the path. -/
structure ParsersAgree (uri : Text) : Prop where
  device_pos : Exact (uri.find sdelimiter + sdelimiter.size : ℕ)
  device_len : Exact ((uri.find edelimiter : ℤ) - devicePos uri)
  path_pos : Exact (uri.find edelimiter + edelimiter.size : ℕ)
  parts : ∃ dev path, device uri = some dev ∧ dbPath uri edelimiter = some path ∧
    scheme ++ dev.chars ++ edelimiter.chars ++ path.chars = uri.chars

lemma exact_natCast {n : ℕ} (h : n < 18446744073709551616) : Exact n := by
  rw [Exact, toU64_of_lt h]

lemma not_exact_of_neg {x : ℤ} (h : x < 0) : ¬ Exact x := by
  intro hx
  rw [← hx] at h
  omega

lemma size_lt (uri : Text) : uri.size < 18446744073709551615 := uri.length_lt

/-- A string of the registered pattern. -/
lemma mem_s2fsPattern {dot : Set Char} {s : List Char} : s ∈ s2fsPattern dot ↔
    ∃ a b, (∀ c ∈ a, c ∈ dot) ∧ (∀ c ∈ b, c ∈ dot) ∧
      scheme ++ (a ++ (edelimiter.chars ++ b)) = s := by
  simp only [s2fsPattern, Language.mem_mul, mem_dots]
  constructor
  · rintro ⟨_, rfl, _, ⟨a, ha, _, ⟨_, rfl, b, hb, rfl⟩, rfl⟩, rfl⟩
    exact ⟨a, b, ha, hb, rfl⟩
  · rintro ⟨a, b, ha, hb, rfl⟩
    exact ⟨scheme, rfl, _, ⟨a, ha, _, ⟨_, rfl, b, hb, rfl⟩, rfl⟩, rfl⟩

lemma mem_ecmaDot_of_all {s : List Char} (h : s.all (· ∈ ecmaDot) = true) : ∀ c ∈ s, c ∈ ecmaDot :=
  fun c hc => of_decide_eq_true (List.all_eq_true.mp h c hc)

section Parse

variable {uri : Text} {t : List Char}

/-! ## Where the delimiters are -/

/-- The first `:` is that of the scheme. -/
lemma find_sdelimiter (h : uri.chars = scheme ++ t) : uri.find sdelimiter = 4 := by
  refine BasicString.find_eq ?_ fun j hj => ?_
  · rw [h]
    exact ⟨t, rfl⟩
  · rw [h]
    rintro ⟨r, hr⟩
    interval_cases j <;> exact absurd (List.cons.inj hr).1 (by decide)

/-- A `://` is there, at or behind it. -/
lemma find_edelimiter (h : uri.chars = scheme ++ t) {i : ℕ}
    (hi : OccursAt edelimiter.chars uri.chars i) :
    OccursAt edelimiter.chars uri.chars (uri.find edelimiter) ∧ 4 ≤ uri.find edelimiter ∧
      uri.find edelimiter ≤ i ∧ uri.find edelimiter + 3 ≤ uri.size := by
  obtain ⟨hocc, hle, -⟩ := BasicString.find_spec hi
  have hcolon : sdelimiter.chars <+: edelimiter.chars := ⟨"//".toList, rfl⟩
  have hs := BasicString.find_le_find hi hcolon
  rw [find_sdelimiter h] at hs
  exact ⟨hocc, hs, hle, hocc.end_le (by decide)⟩

/-- It is the `:` of the scheme that begins it. -/
lemma occursAt_four (h : uri.chars = scheme ++ t) :
    OccursAt edelimiter.chars uri.chars 4 ↔ scheme ++ "//".toList <+: uri.chars := by
  rw [h, List.prefix_append_right_inj]
  change ':' :: "//".toList <+: ':' :: t ↔ _
  rw [List.cons_prefix_cons]
  exact and_iff_right rfl

/-! ## What the parsers return -/

lemma devicePos_eq (h : uri.chars = scheme ++ t) : devicePos uri = 5 := by
  rw [devicePos, find_sdelimiter h]
  rfl

lemma five_le_size (h : uri.chars = scheme ++ t) : 5 ≤ uri.size := by
  rw [BasicString.size, h, List.length_append]
  exact Nat.le_add_right _ _

lemma chars_dbPath {p : ℕ} (hp : uri.find edelimiter = p) (hend : p + 3 ≤ uri.size) :
    (dbPath uri edelimiter).map BasicString.chars = some (uri.chars.drop (p + 3)) := by
  have hsize := size_lt uri
  have hpos : pathPos uri edelimiter = p + 3 := by
    rw [pathPos, hp]
    exact toU64_of_lt (show p + 3 < _ by omega)
  rw [dbPath, hpos]
  exact BasicString.chars_substr_rest hend (Nat.le_add_left _ _)

lemma chars_device (h : uri.chars = scheme ++ t) {p : ℕ} (hp : uri.find edelimiter = p)
    (hlt : 4 < p) (hend : p + 3 ≤ uri.size) :
    (device uri).map BasicString.chars = some ((uri.chars.drop 5).take (p - 5)) := by
  have hsize := size_lt uri
  have hlen : deviceLen uri = p - 5 := by
    rw [deviceLen, devicePos_eq h, hp, ← Nat.cast_sub (by omega)]
    exact toU64_of_lt (by omega)
  rw [device, devicePos_eq h, hlen]
  exact BasicString.chars_substr (five_le_size h) _

/-- **The wrapped length.** -/
lemma chars_device_wrapped (h : uri.chars = scheme ++ t) (hp : uri.find edelimiter = 4) :
    (device uri).map BasicString.chars = some (uri.chars.drop 5) := by
  have hsize : uri.size < npos := uri.length_lt
  have hlen : deviceLen uri = npos := by
    rw [deviceLen, devicePos_eq h, hp]
    rfl
  rw [device, devicePos_eq h, hlen]
  exact BasicString.chars_substr_rest (five_le_size h) (by omega)

/-! ## Whether they agree -/

/-- Taken apart and put together. -/
lemma parsersAgree_of_lt (h : uri.chars = scheme ++ t) {p : ℕ} (hp : uri.find edelimiter = p)
    (hocc : OccursAt edelimiter.chars uri.chars p) (hlt : 4 < p) (hend : p + 3 ≤ uri.size) :
    ParsersAgree uri := by
  have hsize := size_lt uri
  obtain ⟨dev, hdev, hdevChars⟩ := Option.map_eq_some_iff.mp (chars_device h hp hlt hend)
  obtain ⟨path, hpath, hpathChars⟩ := Option.map_eq_some_iff.mp (chars_dbPath hp hend)
  refine ⟨?_, ?_, ?_, dev, path, hdev, hpath, ?_⟩
  · rw [find_sdelimiter h]
    exact exact_natCast (by decide)
  · rw [devicePos_eq h, hp, ← Nat.cast_sub (by omega)]
    exact exact_natCast (by omega)
  · rw [hp]
    exact exact_natCast (show p + 3 < _ by omega)
  · have hscheme : scheme = uri.chars.take 5 := by
      rw [h]
      rfl
    have hfront : scheme ++ (uri.chars.drop 5).take (p - 5) = uri.chars.take p := by
      rw [hscheme, ← List.take_add, Nat.add_sub_cancel' hlt]
    rw [hdevChars, hpathChars, hfront]
    exact hocc.split

/-- A device that would end before it begins. -/
lemma wrapped_not_exact (h : uri.chars = scheme ++ t) (hp : uri.find edelimiter = 4) :
    ¬ Exact ((uri.find edelimiter : ℤ) - devicePos uri) := by
  rw [hp, devicePos_eq h]
  exact not_exact_of_neg (by decide)

/-- And the parts have too many characters. -/
lemma wrapped_parts (h : uri.chars = scheme ++ t) (hp : uri.find edelimiter = 4)
    (hend : 4 + 3 ≤ uri.size) {dev path : Text} (hdev : device uri = some dev)
    (hpath : dbPath uri edelimiter = some path) :
    scheme ++ dev.chars ++ edelimiter.chars ++ path.chars ≠ uri.chars := by
  intro hparts
  have hdevChars := chars_device_wrapped h hp
  have hpathChars := chars_dbPath hp hend
  rw [hdev, Option.map_some, Option.some.injEq] at hdevChars
  rw [hpath, Option.map_some, Option.some.injEq] at hpathChars
  have hlen := congrArg List.length hparts
  have hscheme : scheme.length = 5 := rfl
  have hdelimiter : edelimiter.chars.length = 3 := rfl
  rw [hdevChars, hpathChars] at hlen
  simp only [List.length_append, List.length_drop, hscheme, hdelimiter] at hlen
  change 4 + 3 ≤ uri.chars.length at hend
  omega

end Parse

/-- A registered URI begins with `s2fs://`, or its parts fit together. -/
lemma registered_cases {dot : Set Char} {uri : Text} (h : uri.chars ∈ s2fsPattern dot) :
    (∃ t, uri.chars = scheme ++ t ∧ uri.find edelimiter = 4 ∧ 4 + 3 ≤ uri.size ∧
        scheme ++ "//".toList <+: uri.chars) ∨
      ParsersAgree uri ∧ ¬ scheme ++ "//".toList <+: uri.chars := by
  obtain ⟨a, b, -, -, hchars⟩ := mem_s2fsPattern.mp h
  have hmem : OccursAt edelimiter.chars uri.chars (scheme ++ a).length := by
    rw [← hchars, ← List.append_assoc]
    exact .append (scheme ++ a) edelimiter.chars b
  obtain ⟨hocc, hge, -, hend⟩ := find_edelimiter hchars.symm hmem
  rw [← occursAt_four hchars.symm]
  rcases Nat.lt_or_eq_of_le hge with hlt | heq
  · have hno : ¬ OccursAt edelimiter.chars uri.chars 4 := (BasicString.find_spec hmem).2.2 4 hlt
    exact Or.inr ⟨parsersAgree_of_lt hchars.symm rfl hocc hlt hend, hno⟩
  · rw [← heq] at hocc hend
    exact Or.inl ⟨_, hchars.symm, heq.symm, hend, hocc⟩

/-- **The two parsers agree exactly on the registered URIs that do not begin with `s2fs://`.** -/
theorem parsersAgree_iff (dot : Set Char) {uri : Text} (h : uri.chars ∈ s2fsPattern dot) :
    ParsersAgree uri ↔ ¬ scheme ++ "//".toList <+: uri.chars := by
  rcases registered_cases h with ⟨t, hchars, hp, hend, hbegins⟩ | ⟨hagree, hno⟩
  · refine iff_of_false (fun hagree => ?_) (not_not.mpr hbegins)
    obtain ⟨dev, path, hdev, hpath, hparts⟩ := hagree.parts
    exact wrapped_parts hchars hp hend hdev hpath hparts
  · exact iff_of_true hagree hno

/-- The URI of the help text. -/
theorem parsersAgree_help :
    let uri : Text := ⟨"s2fs:nvme0n1:///tmp/atr1/".toList, by decide⟩
    uri.chars ∈ s2fsPattern ecmaDot ∧ ParsersAgree uri := by
  intro uri
  have hmem : uri.chars ∈ s2fsPattern ecmaDot := mem_s2fsPattern.mpr
    ⟨"nvme0n1".toList, "/tmp/atr1/".toList, mem_ecmaDot_of_all rfl, mem_ecmaDot_of_all rfl, rfl⟩
  exact ⟨hmem, (parsersAgree_iff ecmaDot hmem).mpr (by decide)⟩

/-- **The failing URI**: the length of the device name wraps, the device is everything behind the
first `:`, and the device's name is the beginning of the path. -/
theorem device_name_wraps :
    let uri : Text := ⟨"s2fs://nvme0n1:///tmp/db".toList, by decide⟩
    uri.chars ∈ s2fsPattern ecmaDot ∧ deviceLen uri = npos ∧
      (device uri).map BasicString.chars = some "//nvme0n1:///tmp/db".toList ∧
      (dbPath uri edelimiter).map BasicString.chars = some "nvme0n1:///tmp/db".toList ∧
      ¬ ParsersAgree uri := by
  intro uri
  have hchars : uri.chars = scheme ++ "//nvme0n1:///tmp/db".toList := rfl
  have hmem : uri.chars ∈ s2fsPattern ecmaDot := mem_s2fsPattern.mpr
    ⟨"//nvme0n1".toList, "/tmp/db".toList, mem_ecmaDot_of_all rfl, mem_ecmaDot_of_all rfl, rfl⟩
  refine ⟨hmem, by decide, by decide, by decide, fun hagree => ?_⟩
  exact wrapped_not_exact hchars (by decide) hagree.device_len

/-- Already the length wraps exactly there. -/
theorem deviceLen_exact_iff (dot : Set Char) {uri : Text} (h : uri.chars ∈ s2fsPattern dot) :
    Exact ((uri.find edelimiter : ℤ) - devicePos uri) ↔ ¬ scheme ++ "//".toList <+: uri.chars := by
  rcases registered_cases h with ⟨t, hchars, hp, -, hbegins⟩ | ⟨hagree, hno⟩
  · exact iff_of_false (wrapped_not_exact hchars hp) (not_not.mpr hbegins)
  · exact iff_of_true hagree.device_len hno

/-! ## What is opened -/

section Open

open Effect

/-- Without a character zero the name is the device's. -/
lemma strdup_eq {s : Text} (h : Char.ofNat 0 ∉ s.chars) : strdup s = s.chars := by
  rw [strdup, List.takeWhile_eq_self_iff]
  intro c hc
  rw [decide_eq_true_iff]
  rintro rfl
  exact h hc

variable {σ : Type} {h : Handler RocksOp RocksOp.Res σ} {s : σ}

/-- Whatever RocksDB answers, it is asked for the environment of the URI, and then for the path. -/
lemma withRocksdb_spec (act : Text → RocksOp) {uri delimiter path : Text}
    (hpath : dbPath uri delimiter = some path) :
    ((withRocksdb act uri delimiter).run h s).1 ≠ none ∧
      ∀ o ∈ (withRocksdb act uri delimiter).issued h s, o = .createFromUri uri ∨ o = act path := by
  simp only [withRocksdb, hpath, Program.run_bind, Program.issued_bind]
  split_ifs with hcreated
  · simp only [Program.run_bind, Program.issued_bind]
    split_ifs with hdone
    all_goals
      refine ⟨Option.some_ne_none _, fun o ho => ?_⟩
      simpa using ho
  · refine ⟨Option.some_ne_none _, fun o ho => Or.inl ?_⟩
    simpa using ho

end Open

/-- **Outside the failing URIs** the name of the device that the constructor opens and the path that
RocksDB gets make up the URI. -/
theorem opens_parts (dot : Set Char) {uri : Text} (huri : uri.chars ∈ s2fsPattern dot)
    (hslashes : ¬ scheme ++ "//".toList <+: uri.chars) (hzero : Char.ofNat 0 ∉ uri.chars) :
    ∃ dev path, device uri = some dev ∧
      scheme ++ (initParams dev).name ++ edelimiter.chars ++ path.chars = uri.chars ∧
      ∀ {σ : Type} (h : Effect.Handler RocksOp RocksOp.Res σ) (s : σ),
        ((openRocksdb uri edelimiter).run h s).1 ≠ none ∧
          ∀ o ∈ (openRocksdb uri edelimiter).issued h s,
            o = .createFromUri uri ∨ o = .dbOpen path := by
  rcases registered_cases huri with ⟨-, -, -, -, hbegins⟩ | ⟨hagree, -⟩
  · exact absurd hbegins hslashes
  · obtain ⟨dev, path, hdev, hpath, hparts⟩ := hagree.parts
    have hname : (initParams dev).name = dev.chars := by
      refine strdup_eq fun hmem => hzero ?_
      rw [← hparts]
      simp only [List.mem_append, hmem, true_or, or_true]
    refine ⟨dev, path, hdev, ?_, fun h s => withRocksdb_spec .dbOpen hpath⟩
    rw [hname]
    exact hparts

end StoSys.M45
