import StoSys.M45.Uri
import Mathlib.Data.List.AList

/-!
# `m45_main.cc`: two databases

`main` fills a map with random entries, puts them into the database under test and into a second
one, the shadow, and then looks up everything that the shadow holds in the database under test.
With `-r` it only looks up, with `-S` there is no shadow.

RocksDB is the environment.  It is asked to open and destroy databases by `RocksOp`; what a database
does with its entries is a `Database`, which may do anything.  An assertion that fails ends the
process, and so does an exception: `none`.
-/

namespace StoSys.M45

open Effect Strings CInt

/-! ## The entries -/

/-- `alphanum_char`; its size counts the zero at the end. -/
def alphanumChar : List Char :=
  "0123456789ABCDEFGHIJKLMNOPQRSTUVWXYZabcdefghijklmnopqrstuvwxyz!@#$%^&*()".toList ++
    [Char.ofNat 0]

/-- `genrate_random_string`, from random number `r` on: the string, and the next random number.
`reserve` throws on a length below zero, which becomes a large `size_t`. -/
def genrateRandomString (rand : ℕ → ℕ) (r : ℕ) (len : ℤ) : Option (List Char × ℕ) :=
  if len < 0 then none
  else some ((List.range len.toNat).map fun i =>
    alphanumChar.getD (rand (r + i) % alphanumChar.length) '0', r + len.toNat)

/-- `std::to_string` -/
def toString (count : ℕ) : List Char := Nat.toDigits 10 count

/-- `std::map<std::string, std::string>` -/
abbrev TestMap : Type := AList fun _ : List Char => List Char

/-- The loop of `fill_up_map`, with a bound on its turns. -/
def fillLoop (rand : ℕ → ℕ) (entries ksize vsize : ℤ) :
    (fuel count r : ℕ) → TestMap → Option TestMap
  | 0, _, _, _ => none
  | fuel + 1, count, r, m =>
      if m.keys.length = toU64 entries then some m
      else if count < entries then do
        let (random, r) ← genrateRandomString rand r ksize
        let key := random ++ toString count
        let (value, r) ← genrateRandomString rand r (toI32 (toU64 (ksize + vsize - key.length)))
        if key ∈ m then none
        else
          fillLoop rand entries ksize vsize fuel (count + 1) r
            (m.insert key (value ++ toString count))
      else none

/-- `fill_up_map`, on an empty map. -/
def fillUpMap (rand : ℕ → ℕ) (entries ksize vsize : ℤ) : Option TestMap :=
  fillLoop rand entries ksize vsize (entries.toNat + 1) 0 0 ∅

/-! ## The databases -/

/-- An open database: `Put`, `Get` and `Close`, which may fail, what an iterator visits and whether it
gets to the end without an error, and the database that is there after it has been destroyed and
created again. -/
structure Database (S : Type) where
  put : S → List Char → List Char → Option S
  get : S → List Char → Option (List Char)
  close : S → Option S
  entries : S → List (List Char × List Char)
  status : S → Bool
  destroyed : S

/-- **A database that works.** -/
structure Database.Lawful {S : Type} (db : Database S) : Prop where
  put_some : ∀ s k v, ∃ s', db.put s k v = some s'
  get_put : ∀ {s k v s'}, db.put s k v = some s' →
    ∀ k', db.get s' k' = if k' = k then some v else db.get s k'
  close_some : ∀ s, ∃ s', db.close s = some s' ∧ ∀ k, db.get s' k = db.get s k
  status_ok : ∀ s, db.status s = true
  mem_entries : ∀ s k v, (k, v) ∈ db.entries s ↔ db.get s k = some v
  get_destroyed : ∀ k, db.get db.destroyed k = none

variable {S T : Type}

/-- The loop that puts the entries, in the order of their keys, into both databases. -/
def insertAll (test : Database T) (shadow : Database S) (single : Bool) :
    List (Sigma fun _ : List Char => List Char) → T → S → Option (T × S)
  | [], t, s => some (t, s)
  | x :: rest, t, s => do
      let t ← test.put t x.1 x.2
      let s ← if single then some s else shadow.put s x.1 x.2
      insertAll test shadow single rest t s

/-- `std::less<std::string>` -/
def less (x y : List Char) : Bool := List.lex x y fun c d => decide (c.toNat < d.toNat)

/-- The order in which the map is walked. -/
def inOrder (m : TestMap) : List (Sigma fun _ : List Char => List Char) :=
  m.entries.mergeSort fun x y => !less y.1 x.1

/-- The loop over the shadow: each entry must be in the database under test. -/
def compareAll (test : Database T) (t : T) : List (List Char × List Char) → Option Unit
  | [] => some ()
  | x :: rest =>
      match test.get t x.1 with
      | none => none
      | some testValue => if testValue = x.2 then compareAll test t rest else none

/-- The loop over the map, without a shadow.  A value that differs is reported, and not counted. -/
def readAll (test : Database T) (t : T) :
    List (Sigma fun _ : List Char => List Char) → (ent : ℕ) → Option ℕ
  | [], ent => some ent
  | x :: rest, ent =>
      match test.get t x.1 with
      | none => none
      | some testValue => readAll test t rest (if testValue ≠ x.2 then ent else ent + 1)

/-! ## The program -/

/-- What the options say. -/
structure Arguments where
  testUri : Text
  shadowUri : Text
  ksize : ℤ
  vsize : ℤ
  entries : ℤ
  roverify : Bool
  deleteall : Bool
  single : Bool

/-- What `main` starts with. -/
def defaults : Arguments where
  testUri := ⟨"posix:///tmp/testdb".toList, by decide⟩
  shadowUri := ⟨"posix:///tmp/shadowdb".toList, by decide⟩
  ksize := 10
  vsize := 90
  entries := 1
  roverify := false
  deleteall := false
  single := false

variable (test : Database T) (shadow : Database S) (a : Arguments)

/-- The entries that this run puts. -/
def newEntries (rand : ℕ → ℕ) : Option TestMap :=
  if a.roverify then some ∅ else fillUpMap rand a.entries a.ksize a.vsize

/-- What is done with the open databases, and what they hold then. -/
def exercise (rand : ℕ → ℕ) (t : T) (s : S) : Option (T × S) := do
  let m ← newEntries a rand
  let (t, s) ← insertAll test shadow a.single (inOrder m) t s
  if a.single then do
    let _ent ← readAll test t (inOrder m) 0
    some (t, s)
  else do
    compareAll test t (shadow.entries s)
    if shadow.status s then some (t, s) else none

/-- `destroy_myrocks_context`, for the shadow and then for the database under test: an assertion fails
when `Close` does.  In the single mode there is no shadow to close. -/
def closeBoth (t : T) (s : S) : Option (T × S) := do
  let s ← if a.single then some s else shadow.close s
  let t ← test.close t
  some (t, s)

/-- `delimiter` -/
def delimiter : Text := edelimiter

/-- `-D`: what `main` returns if that is not the end of it, 0 otherwise. -/
def deleteBoth : Program RocksOp RocksOp.Res (Option ℤ) := do
  match ← deleteRocksdb a.testUri delimiter with
  | none => pure none
  | some ret =>
      if ret ≠ 0 then pure (some (-1))
      else if a.single then pure (some 0)
      else do
        match ← deleteRocksdb a.shadowUri delimiter with
        | none => pure none
        | some ret => if ret ≠ 0 then pure (some (-1)) else pure (some 0)

/-- Opening; an assertion fails unless the databases are open then. -/
def openBoth : Program RocksOp RocksOp.Res (Option ℤ) := do
  match ← (if a.single then pure (some 0) else openRocksdb a.shadowUri delimiter) with
  | some 0 => openRocksdb a.testUri delimiter
  | _ => pure none

/-- `EINVAL` -/
def einval : ℤ := 22

/-- `main`, after the options have been read: the exit status. -/
def m45Main (rand : ℕ → ℕ) (t : T) (s : S) : Program RocksOp RocksOp.Res (Option ℤ) :=
  if a.deleteall ∧ a.roverify then pure (some (-einval))
  else if a.single ∧ a.roverify then pure (some (-einval))
  else do
    match ← (if a.deleteall then deleteBoth a else pure (some 0)) with
    | none => pure none
    | some ret =>
        if ret ≠ 0 then pure (some ret)
        else do
          let t := if a.deleteall then test.destroyed else t
          let s := if a.deleteall ∧ a.single = false then shadow.destroyed else s
          match ← openBoth a with
          | some 0 => pure (((exercise test shadow a rand t s).bind fun x =>
              closeBoth test shadow a x.1 x.2).map fun _ => 0)
          | _ => pure none

end StoSys.M45
