import StoSys.Ftl.ByteDevice
import StoSys.M3.Runs
import StoSys.Properties.ReadYourWrites

/-!
# One implementation for the other

Both implementations of `zns_device.h` store what a client writes block by block, so a client that
reads only what it has written gets the same answers from either (`implementations_agree`): whatever
it is, however the hash maps are iterated, and however often the log is collected on the way.

**The full-device test** is such a client, so it raises no false alarm on either
(`m3Main_passes`): its verdict is zero at the label, for every list of blocks, every sequence of
random numbers and every way in which the side file is moved.
-/

namespace StoSys

open Effect HashMap Zoned CInt M3

variable {ds : ℕ} {g : Setup (Block ds)}

/-! ## Two devices on one drive -/

/-- The configuration of the file on the drive of `g`. -/
def fileConfig (g : Setup (Block ds)) : FileConfig :=
  mkFileConfig (g.params true) g.ds g.nBlocks g.nrZones

lemma fileConfig_lba : (fileConfig g).lbaSizeBytes = g.lba := toU32_of_lt g.lba_lt

/-- The capacities are the same when the products fit 32 bits. -/
lemma fileConfig_capacity (hfits : g.capacity * g.lba < 4294967296) :
    (fileConfig g).capacityBytes = g.capacity * g.lba := by
  have hzone : toU32 ((g.nBlocks * g.lba : ℕ) : ℤ) = g.nBlocks * g.lba := toU32_of_lt g.zone_lba_lt
  have hnum : toU32 ((g.nrZones : ℤ) - g.logZones) = g.nrZones - g.logZones := by
    have hL := g.logZones_lt
    have hn := g.nrZones_lt
    rw [← Nat.cast_sub (Nat.le_of_lt hL)]
    exact toU32_of_lt (by omega)
  have hmul : (g.nrZones - g.logZones) * (g.nBlocks * g.lba) = g.capacity * g.lba := by
    rw [Setup.capacity, Nat.mul_assoc]
  have hlba : toU32 ((2 ^ g.ds : ℕ) : ℤ) = g.lba := toU32_of_lt g.lba_lt
  simp only [fileConfig, mkFileConfig, Setup.params, hlba, hzone, hnum, hmul]
  exact toU32_of_lt hfits

/-- **The implementations cannot be told apart** by a client that reads only what it has written,
one block at a time. -/
theorem implementations_agree {α : Type} (hds : g.ds = ds) (hsmall : ds < 18) (hroom : 1 < g.logRoom)
    (hfits : g.capacity * g.lba < 4294967296) (ord : ℕ → HashOrder) (host : M3.Host) (p : M3.Prog α)
    (file : Bytes) (hp : Program.Served (testEnv host (ideal (userDevice g))) M3.Accepted p
      { file := file, device := fun _ => none }) :
    let layer := p.run (testEnv host (ftlDevice g ord)) { file := file, device := (fresh g, 0) }
    let plain := p.run (testEnv host (fileDevice (fileConfig g)))
      { file := file, device := fileOpened (fileConfig g) }
    layer.1 = plain.1 ∧ layer.2.file = plain.2.file ∧ layer.2.written = plain.2.written ∧
      layer.2.readBack = plain.2.readBack := by
  intro layer plain
  have hstores : Stores (userDevice g) (fileDevice (fileConfig g)) (Filed (fileConfig g)) :=
    stores_file fileConfig_lba (fileConfig_capacity hfits)
      (by rw [fileConfig_capacity hfits]; omega)
  have hlayer := client_refines (stores_ftl hds hsmall hroom ord)
    (s := { file := file, device := (fresh g, 0) }) ⟨rfl, rfl, rfl, rfl, rfl, keeping_fresh g 0⟩ hp
  have hplain := client_refines hstores
    (s := { file := file, device := fileOpened (fileConfig g) })
    ⟨rfl, rfl, rfl, rfl, rfl, filed_opened _⟩ hp
  exact ⟨hlayer.1.trans hplain.1.symm, hlayer.2.file.trans hplain.2.file.symm,
    hlayer.2.written.trans hplain.2.written.symm, hlayer.2.readBack.trans hplain.2.readBack.symm⟩

/-- The small drive, with the bytes of its blocks. -/
def byteDrive : Setup (Block 12) where
  ds := 12
  nBlocks := 3
  nrZones := 5
  logZones := 2
  gcWmark := 1
  readAcross := false
  fill := 0
  ds_ge := smallDrive.ds_ge
  nBlocks_pos := smallDrive.nBlocks_pos
  zoneBytes_lt := smallDrive.zoneBytes_lt
  total_lt := smallDrive.total_lt
  wmark_pos := smallDrive.wmark_pos
  wmark_lt := smallDrive.wmark_lt
  logZones_lt := smallDrive.logZones_lt

/-- A machine that moves whole blocks. -/
def calmHost : M3.Host where
  openRet := 3
  fallocateRet := 0
  removeRet := 0
  rand _ := 0
  transfer _ := 4096

/-- A client that writes a number of blocks, each full of one byte, and reads one of them. -/
def writesThenRead (size address : ℕ) : List (ℕ × UInt8) → M3.Prog (ℤ × Bytes)
  | [] => udeviceRead address (fun _ => 1) size
  | (a, v) :: rest => do
      let _ ← udeviceWrite a (fun _ => v) size
      writesThenRead size address rest

/-- It gets along with `ideal` when it reads what it has written. -/
lemma writesThenRead_delivers {dev : UserDevice} {host : M3.Host} {address size : ℕ}
    (hone : OneBlock dev address size) (l : List (ℕ × UInt8)) :
    (∀ x ∈ l, OneBlock dev x.1 size) →
    Program.Delivers (testEnv host (ideal dev)) M3.Accepted
      (fun s => s.device.Has address size ∨ address ∈ l.map Prod.fst)
      (writesThenRead size address l) fun _ _ => True := by
  induction l with
  | nil =>
      intro _
      refine .perform fun s hs => ⟨?_, trivial⟩
      exact ideal_read_eq_zero_iff.mpr ⟨hone, hs.resolve_right List.not_mem_nil⟩
  | cons x l ih =>
      intro hl
      have hx := hl x (List.mem_cons_self ..)
      refine .bind (R := fun _ s => s.device.Has address size ∨ address ∈ l.map Prod.fst)
        (.perform fun s hs => ⟨ideal_write_eq_zero_iff.mpr hx, ?_⟩)
        fun _ => ih fun y hy => hl y (List.mem_cons_of_mem _ hy)
      simp only [testEnv, ideal_write hx]
      rcases hs with hs | hmem
      · -- what is there stays there
        refine Or.inl fun j hj => ?_
        rw [Stored.put]
        split
        · rfl
        · exact hs j hj
      · rcases List.mem_cons.mp hmem with rfl | hmem
        · exact Or.inl (Stored.has_put _ _ _ _)
        · exact Or.inr hmem

/-- Five writes on the small drive, one of them twice to the same block: its log has room for two
blocks, so the translation layer collects it on the way. -/
theorem implementations_agree_five :
    let l : List (ℕ × UInt8) := [(16384, 7), (0, 8), (4096, 9), (16384, 10), (8192, 11)]
    ((writesThenRead 4096 16384 l).run (testEnv calmHost (ftlDevice byteDrive fun _ => .stored))
        { file := fun _ => 0, device := (fresh byteDrive, 0) }).1
      = ((writesThenRead 4096 16384 l).run (testEnv calmHost (fileDevice (fileConfig byteDrive)))
        { file := fun _ => 0, device := fileOpened (fileConfig byteDrive) }).1 := by
  intro l
  have hone : OneBlock (userDevice byteDrive) 16384 4096 := by decide
  exact (implementations_agree (g := byteDrive) rfl (by decide) (by decide) (by decide)
    (fun _ => .stored) calmHost (writesThenRead 4096 16384 l) (fun _ => 0)
    (writesThenRead_delivers hone l (by decide) _ (Or.inr (by decide))).1).1

/-! ## No false alarm -/

/-- The state after some calls of `wr_full_device_verify`, each with its list of blocks and its
number of further writes. -/
def afterCalls {δ : Type} (dev : UserDevice) (fuel : ℕ) (shuffle : List ℕ → List ℕ)
    (env : Handler TestOp TestOp.Res (TestState δ)) :
    List (Bool × ℕ) → TestState δ → TestState δ
  | [], s => s
  | (isShuffled, maxHammerIo) :: calls, s =>
      afterCalls dev fuel shuffle env calls
        ((wrFullDeviceVerify dev fuel (getSequenceAsArray
          (toU32 (dev.capacityBytes / dev.lbaSizeBytes : ℕ)) isShuffled shuffle)
          maxHammerIo).run env s).2

/-- Each call leaves a device that stores. -/
lemma agrees_afterCalls {δ : Type} {dev : UserDevice} {device : Device δ} {R : δ → Stored → Prop}
    (hd : Stores dev device R) {host : M3.Host} {fuel : ℕ} (hw : Works host dev fuel)
    (hc : Clears host) {shuffle : List ℕ → List ℕ} (hperm : ∀ l : List ℕ, (shuffle l).Perm l)
    (hentries : 0 < toU32 (dev.capacityBytes / dev.lbaSizeBytes : ℕ)) (calls : List (Bool × ℕ)) :
    ∀ {s : TestState δ} {t : TestState Stored}, Agrees R s t →
      ∃ t', Agrees R (afterCalls dev fuel shuffle (testEnv host device) calls s) t' := by
  induction calls with
  | nil => exact fun h => ⟨_, h⟩
  | cons call calls ih =>
      intro s t h
      obtain ⟨t', h', -⟩ := delivers_refined hd (wrFullDeviceVerify_delivers hw hc
        (getSequenceAsArray_inside hperm call.1)
        fun _ : 0 < call.2 => getSequenceAsArray_ne_nil hperm call.1 hentries) h trivial
      exact ih h'

/-- **The full-device test passes on every device that stores**, so on the translation layer and on
the file; and not for want of looking: each call of `wr_full_device_verify` gets to the end and finds
no difference, whatever calls have been made before (`main` makes three). -/
theorem m3Main_passes {δ : Type} {dev : UserDevice} {device : Device δ} {R : δ → Stored → Prop}
    (hd : Stores dev device R) {x : δ} (hx : R x fun _ => none) {host : M3.Host} {fuel : ℕ}
    (hw : Works host dev fuel) (hc : Clears host) {shuffle : List ℕ → List ℕ}
    (hperm : ∀ l : List ℕ, (shuffle l).Perm l)
    (hentries : 0 < toU32 (dev.capacityBytes / dev.lbaSizeBytes : ℕ)) (toHammerLba : ℕ)
    (deinitRet : ℤ) (file : Bytes) :
    ((m3Main dev fuel shuffle toHammerLba deinitRet).run (testEnv host device)
        { file := file, device := x }).1 = some deinitRet ∧
      ∀ (calls : List (Bool × ℕ)) (isShuffled : Bool) (maxHammerIo : ℕ),
        ((passes dev fuel (getSequenceAsArray (toU32 (dev.capacityBytes / dev.lbaSizeBytes : ℕ))
          isShuffled shuffle) maxHammerIo).run (testEnv host device)
          (afterCalls dev fuel shuffle (testEnv host device) calls
            { file := file, device := x })).1 = .done 0 := by
  have hagrees : Agrees R { file := file, device := x }
      ({ file := file, device := fun _ => none } : TestState Stored) := ⟨rfl, rfl, rfl, rfl, rfl, hx⟩
  refine ⟨?_, fun calls isShuffled maxHammerIo => ?_⟩
  · obtain ⟨-, -, hexit⟩ := delivers_refined hd
      (m3Main_delivers hw hc hperm hentries toHammerLba deinitRet) hagrees trivial
    exact hexit
  · obtain ⟨t, ht⟩ := agrees_afterCalls hd hw hc hperm hentries calls hagrees
    obtain ⟨-, -, hverdict⟩ := delivers_refined hd (passes_delivers hw
      (getSequenceAsArray_inside hperm isShuffled)
      fun _ : 0 < maxHammerIo => getSequenceAsArray_ne_nil hperm isShuffled hentries) ht trivial
    exact hverdict

/-- The translation layer on the small drive, with the addresses reversed for shuffled: `main` returns
zero, and the third of its calls finds no difference. -/
theorem m3Main_passes_small :
    let env := testEnv calmHost (ftlDevice byteDrive fun _ => .stored)
    let s : TestState (World byteDrive.drive × ℕ) :=
      { file := fun _ => 0, device := (fresh byteDrive, 0) }
    ((m3Main (userDevice byteDrive) 4097 List.reverse 10000 0).run env s).1 = some 0 ∧
      ((passes (userDevice byteDrive) 4097 (getSequenceAsArray
          (toU32 ((userDevice byteDrive).capacityBytes / (userDevice byteDrive).lbaSizeBytes : ℕ))
          true List.reverse) 10000).run env
        (afterCalls (userDevice byteDrive) 4097 List.reverse env [(false, 0), (true, 0)] s)).1
          = .done 0 := by
  intro env s
  have hstores := stores_ftl (g := byteDrive) rfl (by decide) (by decide) fun _ => .stored
  have hworks : Works calmHost (userDevice byteDrive) 4097 :=
    ⟨fun _ => (by decide : (0 : ℤ) < 4096), by decide, by decide, by decide⟩
  have hpasses := m3Main_passes hstores (keeping_fresh byteDrive 0) hworks ⟨by decide, rfl, rfl⟩
    List.reverse_perm (by decide) 10000 0 fun _ => 0
  exact ⟨hpasses.1, hpasses.2 [(false, 0), (true, 0)] true 10000⟩

end StoSys
