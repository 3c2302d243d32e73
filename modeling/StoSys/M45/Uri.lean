import StoSys.Ftl.ZnsDevice
import StoSys.Lib.Strings

/-!
# `m45-rocksdb`: the parts of a URI

A URI such as `s2fs:nvme0n1:///tmp/atr1/` names a device and a database on it.  RocksDB knows it by
the pattern that `rocksdb_s2fs.cc` registers, and hands it to the constructor in `S2FileSystem.cc`,
which opens the device.  `m45_main.cc` has the same string, and opens the database.  Both look for
their delimiters from the start of the string on, and compute with what `find` returns on 64 bits.

RocksDB is the environment of `openRocksdb` and `deleteRocksdb`: it may answer anything.
-/

namespace StoSys.M45

open Effect Strings CInt

/-- `std::string` -/
abbrev Text : Type := BasicString Char

/-! ## The pattern -/

/-- What every registered URI begins with. -/
def scheme : List Char := "s2fs:".toList

/-- `.` in a pattern of `std::regex`: everything but line terminators. -/
def ecmaDot : Set Char := {c | c ≠ '\n' ∧ c ≠ '\r'}

instance decidableMemEcmaDot (c : Char) : Decidable (c ∈ ecmaDot) :=
  inferInstanceAs (Decidable (c ≠ '\n' ∧ c ≠ '\r'))

/-- `"s2fs:.*://.*"`, where `dot` is what `.` stands for -/
def s2fsPattern (dot : Set Char) : Language Char :=
  {scheme} * (dots dot * ({"://".toList} * dots dot))

/-! ## The file system -/

def sdelimiter : Text := ⟨":".toList, by decide⟩

def edelimiter : Text := ⟨"://".toList, by decide⟩

/-- The position that the constructor gives to `substr`, … -/
def devicePos (uri : Text) : ℕ := toU64 (uri.find sdelimiter + sdelimiter.size : ℕ)

/-- … the length, … -/
def deviceLen (uri : Text) : ℕ := toU64 ((uri.find edelimiter : ℤ) - devicePos uri)

/-- … and the device name it gets. -/
def device (uri : Text) : Option Text := uri.substr (devicePos uri) (deviceLen uri)

/-- `struct zdev_init_params` -/
structure ZdevInitParams extends InitParams where
  name : List Char

/-- `strdup(s.c_str())`: up to the first character zero. -/
def strdup (s : Text) : List Char := s.chars.takeWhile fun c => c ≠ Char.ofNat 0

/-- What the constructor opens a device with. -/
def initParams (device : Text) : ZdevInitParams where
  name := strdup device
  logZones := 3
  gcWmark := 1
  forceReset := false

/-- `S2FileSystem`, once the assertions of its constructor have held. -/
structure S2FileSystem where
  uri : Text
  znsDev : Config
  lba_ne : znsDev.lbaSizeBytes ≠ 0
  capacity_ne : znsDev.capacityBytes ≠ 0

/-- `S2FileSystem::S2FileSystem`; `none` when `substr` throws or an assertion fails. -/
def newS2FileSystem {B : Type} (uriDbPath : Text) : Prog B (Option S2FileSystem) :=
  match device uriDbPath with
  | none => pure none
  | some device => do
      let r ← initSsZnsDevice (initParams device).toInitParams
      match r with
      | (ret, some znsDev) =>
          if h : ret = 0 ∧ znsDev.lbaSizeBytes ≠ 0 ∧ znsDev.capacityBytes ≠ 0 then
            pure (some ⟨uriDbPath, znsDev, h.2.1, h.2.2⟩)
          else pure none
      | (_, none) => pure none

/-! ## The database -/

/-- What `m45_main.cc` asks of RocksDB; the answers are `s.ok()`. -/
inductive RocksOp where
  | createFromUri (uri : Text)
  | dbOpen (dbPath : Text)
  | destroyDb (dbPath : Text)

abbrev RocksOp.Res : RocksOp → Type := fun _ => Bool

/-- The position that `open_rocksdb` gives to `substr`. -/
def pathPos (uri delimiter : Text) : ℕ := toU64 (uri.find delimiter + delimiter.size : ℕ)

/-- `db_path` -/
def dbPath (uri delimiter : Text) : Option Text := uri.substr (pathPos uri delimiter) uri.size

/-- The common text of `open_rocksdb` and `delete_rocksdb`, which only differ in what they do with
the path; `none` when `substr` throws.  `uri_ext` is only printed. -/
def withRocksdb (act : Text → RocksOp) (uri delimiter : Text) :
    Program RocksOp RocksOp.Res (Option ℤ) :=
  match dbPath uri delimiter with
  | none => pure none
  | some dbPath => do
      let created ← Program.perform (RocksOp.createFromUri uri)
      if created then do
        let done ← Program.perform (act dbPath)
        if done then pure (some 0) else pure (some (-1))
      else pure (some (-1))

/-- `open_rocksdb` -/
def openRocksdb (uri delimiter : Text) : Program RocksOp RocksOp.Res (Option ℤ) :=
  withRocksdb .dbOpen uri delimiter

/-- `delete_rocksdb` -/
def deleteRocksdb (uri delimiter : Text) : Program RocksOp RocksOp.Res (Option ℤ) :=
  withRocksdb .destroyDb uri delimiter

end StoSys.M45
