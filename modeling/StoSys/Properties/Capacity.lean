import StoSys.Ftl.FileDevice
import StoSys.Ftl.Runs
import StoSys.Properties.ReadYourWrites

/-!
# The capacity that opening reports

Both implementations multiply the number of data zones by the size of a zone.  The layer takes that
size through a 32-bit field, and multiplies on 64 bits; the file takes both factors through 32-bit
fields, and multiplies on 32 bits.  So the layer is exact for zones below four gibibytes, and the
file for devices below four gibibytes (`capacityExact_iff`).
-/

namespace StoSys

open Effect CInt Zoned

variable {B σ σ' : Type} {p : InitParams} {ds zcap zsze nrZones : ℕ}

/-- An environment that reports this LBA format and, every time, this geometry. -/
structure Reporting (h : Handler (Op B) Op.Res σ) (ds zcap nrZones : ℕ) : Prop where
  identify : ∀ s, (h .nvmeIdentifyNs s).1.2 = ds
  zones : ∀ s, (h .nvmeZnsReport s).1.2.nrZones = nrZones
  capacity : ∀ s, (h .nvmeZnsReport s).1.2.zcap 0 = zcap

/-- The same for the file. -/
structure FileReporting (h : Handler FileOp FileOp.Res σ) (ds zsze nrZones : ℕ) : Prop where
  identify : ∀ s, (h .nvmeIdentifyNs s).1.2 = ds
  identifyZns : ∀ s, (h .nvmeZnsIdentifyNs s).1.2 = zsze
  zones : ∀ s, (h .nvmeZnsReport s).1.2 = nrZones

/-- The fault-free environment reports the drive. -/
lemma reporting_exec (d : Drive B) : Reporting (exec (d := d)) d.ds d.zoneCap d.nrZones :=
  ⟨fun _ => rfl, fun _ => rfl, fun _ => rfl⟩

/-- The answers that open the file of a drive. -/
def fileExec (d : Drive B) : Handler FileOp FileOp.Res Unit
  | .nvmeOpen, s => ((0 : ℤ), s)
  | .nvmeGetNsid, s => ((0 : ℤ), s)
  | .nvmeIdentifyNs, s => (((0 : ℤ), d.ds), s)
  | .nvmeZnsIdentifyNs, s => (((0 : ℤ), d.zoneSize), s)
  | .nvmeZnsReport, s => (((0 : ℤ), d.nrZones), s)
  | .fopen, s => ((), s)
  | .fseek offset, s => (fseek offset, s)
  | .fputc, s => ((0 : ℤ), s)

lemma fileReporting_fileExec (d : Drive B) :
    FileReporting (fileExec d) d.ds d.zoneSize d.nrZones :=
  ⟨fun _ => rfl, fun _ => rfl, fun _ => rfl⟩

/-- The size of the file has 32 bits, so that no call to `fseek` is given a negative position. -/
lemma run_fileInitSsZnsDevice (d : Drive B) (p : InitParams) :
    (fileInitSsZnsDevice p).run (fileExec d) ()
      = ((0, some (mkFileConfig p d.ds d.zoneSize d.nrZones)), ()) := by
  have hcap : (mkFileConfig p d.ds d.zoneSize d.nrZones).capacityBytes < 4294967296 := by
    change toU32 (toU32 (d.nrZones - p.logZones) * toU32 (d.zoneSize * toU32 (2 ^ d.ds : ℕ) : ℕ) : ℕ)
      < 4294967296
    exact toU32_lt _
  have hseek : ¬ fseek (toI64 (mkFileConfig p d.ds d.zoneSize d.nrZones).capacityBytes) < 0 := by
    rw [fseek_neg_iff, toI64_of_lt (by omega)]
    omega
  have hstart : ¬ fseek 0 < 0 := by decide
  have hput : ¬ (0 : ℤ) = -1 := by decide
  simp only [fileInitSsZnsDevice, Program.run_bind, Program.run_perform, fileExec, Int.lt_irrefl,
    ne_eq, not_true_eq_false, if_false, hseek, hstart, hput, Program.run_pure]

/-- Whatever else fails or does not, a device that is opened has this configuration. -/
lemma Reporting.config {h : Handler (Op B) Op.Res σ} (hr : Reporting h ds zcap nrZones)
    (p : InitParams) (s : σ) {c : Config}
    (hc : ((initSsZnsDevice p).run h s).1.2 = some c) :
    ∃ report : ZoneReport, report.nrZones = nrZones ∧ report.zcap 0 = zcap ∧
      c = mkConfig p ds report := by
  have hstop : ∀ ret : ℤ, Program.Triple h (fun _ => True)
      (pure (ret, none) : Prog B (ℤ × Option Config))
      fun r _ => ∀ c, r.2 = some c → ∃ report : ZoneReport, report.nrZones = nrZones ∧
        report.zcap 0 = zcap ∧ c = mkConfig p ds report :=
    fun ret => .pure fun _ _ c hc => by cases hc
  have htriple : Program.Triple h (fun _ => True) (initSsZnsDevice p : Prog B _)
      fun r _ => ∀ c, r.2 = some c → ∃ report : ZoneReport, report.nrZones = nrZones ∧
        report.zcap 0 = zcap ∧ c = mkConfig p ds report := by
    refine .bind (R := fun _ _ => True) (fun _ _ => trivial) fun fd => ?_
    refine .ite (fun _ => hstop _) fun _ => ?_
    refine .bind (R := fun _ _ => True) (fun _ _ => trivial) fun ret => ?_
    refine .ite (fun _ => hstop _) fun _ => ?_
    refine .bind (R := fun ns _ => ns.2 = ds) (fun s _ => hr.identify s) fun ns => ?_
    refine .given fun hns => .ite (fun _ => hstop _) fun _ => ?_
    refine .bind (R := fun single _ => single.2.nrZones = nrZones) (fun s _ => hr.zones s)
      fun single => ?_
    refine .given fun hsingle => .ite (fun _ => hstop _) fun _ => ?_
    dsimp only
    refine .ite (fun _ => ?_) fun _ => ?_
    all_goals
      refine .bind (R := fun _ _ => True) (fun _ _ => trivial) fun ret => ?_
      refine .ite (fun _ => hstop _) fun _ => ?_
      refine .bind (R := fun all _ => all.2.zcap 0 = zcap) (fun s _ => hr.capacity s) fun all => ?_
      refine .given fun hall => .ite (fun _ => hstop _) fun _ => ?_
      refine .bind (R := fun _ _ => True) (fun _ _ => trivial) fun ret => ?_
      refine .ite (fun _ => hstop _) fun _ => ?_
      refine .bind (R := fun _ _ => True) (fun _ _ => trivial) fun _ => ?_
      have hlast : ∀ (ret : ℤ) c, some (mkConfig p ns.2 { all.2 with nrZones := single.2.nrZones })
          = some c → ∃ report : ZoneReport, report.nrZones = nrZones ∧ report.zcap 0 = zcap ∧
            c = mkConfig p ds report := by
        intro _ c hc
        rw [← Option.some.inj hc, hns]
        exact ⟨{ all.2 with nrZones := single.2.nrZones }, hsingle, hall, rfl⟩
      refine .ite (fun _ => ?_) fun _ => ?_
      all_goals
        refine .bind (R := fun _ _ => True) (fun _ _ => trivial) fun ret => ?_
        exact .pure fun _ _ => hlast ret
  exact htriple s trivial c hc

lemma FileReporting.config {h : Handler FileOp FileOp.Res σ}
    (hr : FileReporting h ds zsze nrZones) (p : InitParams) (s : σ) {c : FileConfig}
    (hc : ((fileInitSsZnsDevice p).run h s).1.2 = some c) :
    c = mkFileConfig p ds zsze nrZones := by
  have hstop : ∀ ret : ℤ, Program.Triple h (fun _ => True)
      (pure (ret, none) : Program FileOp FileOp.Res (ℤ × Option FileConfig))
      fun r _ => ∀ c, r.2 = some c → c = mkFileConfig p ds zsze nrZones :=
    fun ret => .pure fun _ _ c hc => by cases hc
  have htriple : Program.Triple h (fun _ => True) (fileInitSsZnsDevice p)
      fun r _ => ∀ c, r.2 = some c → c = mkFileConfig p ds zsze nrZones := by
    refine .bind (R := fun _ _ => True) (fun _ _ => trivial) fun fd => ?_
    refine .ite (fun _ => hstop _) fun _ => ?_
    refine .bind (R := fun _ _ => True) (fun _ _ => trivial) fun ret => ?_
    refine .ite (fun _ => hstop _) fun _ => ?_
    refine .bind (R := fun ns _ => ns.2 = ds) (fun s _ => hr.identify s) fun ns => ?_
    refine .given fun hns => .ite (fun _ => hstop _) fun _ => ?_
    refine .bind (R := fun zns _ => zns.2 = zsze) (fun s _ => hr.identifyZns s) fun zns => ?_
    refine .given fun hzns => .ite (fun _ => hstop _) fun _ => ?_
    refine .bind (R := fun report _ => report.2 = nrZones) (fun s _ => hr.zones s) fun report => ?_
    refine .given fun hreport => .ite (fun _ => hstop _) fun _ => ?_
    refine .bind (R := fun _ _ => True) (fun _ _ => trivial) fun _ => ?_
    refine .bind (R := fun _ _ => True) (fun _ _ => trivial) fun ret => ?_
    refine .ite (fun _ => hstop _) fun _ => ?_
    refine .bind (R := fun _ _ => True) (fun _ _ => trivial) fun ret => ?_
    refine .ite (fun _ => hstop _) fun _ => ?_
    refine .bind (R := fun _ _ => True) (fun _ _ => trivial) fun ret => ?_
    refine .ite (fun _ => hstop _) fun _ => .pure fun _ _ c hc => ?_
    rw [← Option.some.inj hc, hns, hzns, hreport]
  exact htriple s trivial c hc

/-! ## The products -/

/-- The layer loses what 32 bits of a zone's size do not hold. -/
lemma mkConfig_capacityBytes (p : InitParams) (ds : ℕ) (report : ZoneReport) :
    (mkConfig p ds report).capacityBytes
      = toU64 ((report.nrZones - p.logZones) * (report.zcap 0 * 2 ^ ds % 4294967296 : ℕ)) := by
  change toU64 (_ * (toU32 (report.zcap 0 * toU32 (2 ^ ds : ℕ) : ℕ) : ℕ)) = _
  rw [toU32_natCast, toU32_natCast, Nat.mul_mod_mod]

/-- The file loses what 32 bits of the whole device's size do not hold. -/
lemma mkFileConfig_capacityBytes {n : ℕ} (hn : nrZones - p.logZones = n) (ds zsze : ℕ) :
    (mkFileConfig p ds zsze nrZones).capacityBytes = n * (zsze * 2 ^ ds) % 4294967296 := by
  change toU32 (toU32 (nrZones - p.logZones) * toU32 (zsze * toU32 (2 ^ ds : ℕ) : ℕ) : ℕ) = _
  rw [hn]
  simp only [toU32_natCast]
  rw [Nat.mod_mul_mod, Nat.mul_mod_mod, ← Nat.mul_assoc, Nat.mul_mod_mod, Nat.mul_assoc]

/-- What opening stores, and where each of the two products is exact; for one capacity and size of a
zone they are equal exactly when the layer's is below four gibibytes. -/
lemma capacities {n : ℕ} (zsze : ℕ) (hzones : nrZones - p.logZones = n) (hn : 0 < n)
    (htotal : n * (zcap * 2 ^ ds) < 18446744073709551616) {report : ZoneReport}
    (hnr : report.nrZones = nrZones) (hcap : report.zcap 0 = zcap) :
    ((mkConfig p ds report).capacityBytes = n * (zcap * 2 ^ ds) ↔ zcap * 2 ^ ds < 4294967296) ∧
    ((mkFileConfig p ds zsze nrZones).capacityBytes = n * (zsze * 2 ^ ds) ↔
      n * (zsze * 2 ^ ds) < 4294967296) ∧
    (zcap = zsze → ((mkConfig p ds report).capacityBytes
        = (mkFileConfig p ds zsze nrZones).capacityBytes ↔
      n * (zsze * 2 ^ ds % 4294967296) < 4294967296)) := by
  have hkept : n * (zcap * 2 ^ ds % 4294967296) ≤ n * (zcap * 2 ^ ds) :=
    Nat.mul_le_mul_left _ (Nat.mod_le _ _)
  rw [mkConfig_capacityBytes, mkFileConfig_capacityBytes hzones, hnr, hcap, hzones,
    ← Nat.cast_mul, toU64_of_lt (by omega)]
  refine ⟨?_, ?_, fun hsame => ?_⟩
  · rw [Nat.mul_right_inj (Nat.ne_of_gt hn)]
    omega
  · omega
  · have hrest : n * (zsze * 2 ^ ds) % 4294967296
        = n * (zsze * 2 ^ ds % 4294967296) % 4294967296 := (Nat.mul_mod_mod _ _ _).symm
    rw [hsame, hrest]
    omega

/-- **The capacity is exact** in both: the product, as integers. -/
structure CapacityExact (p : InitParams) (ds zcap zsze nrZones : ℕ) (c : Config) (c' : FileConfig) :
    Prop where
  layer : c.capacityBytes = (nrZones - p.logZones) * (zcap * 2 ^ ds : ℕ)
  file : c'.capacityBytes = (nrZones - p.logZones) * (zsze * 2 ^ ds : ℕ)
  same : zcap = zsze → c.capacityBytes = c'.capacityBytes

/-- **When the capacity is exact**: for every report of more zones than the log has, of a total size
below `2 ^ 64`, and whatever the environment answers otherwise, once both have opened their
device. -/
theorem capacityExact_iff {env : Handler (Op B) Op.Res σ} (henv : Reporting env ds zcap nrZones)
    {fileEnv : Handler FileOp FileOp.Res σ'} (hfile : FileReporting fileEnv ds zsze nrZones)
    (hzones : p.logZones < nrZones)
    (htotal : (nrZones - p.logZones) * (zcap * 2 ^ ds : ℕ) < (18446744073709551616 : ℤ))
    {s : σ} {t : σ'} {c : Config} {c' : FileConfig}
    (hc : ((initSsZnsDevice p).run env s).1.2 = some c)
    (hc' : ((fileInitSsZnsDevice p).run fileEnv t).1.2 = some c') :
    CapacityExact p ds zcap zsze nrZones c c' ↔ zcap * 2 ^ ds < 4294967296 ∧
      (nrZones - p.logZones) * (zsze * 2 ^ ds : ℕ) < (4294967296 : ℤ) := by
  obtain ⟨report, hnr, hcap, rfl⟩ := henv.config p s hc
  obtain rfl := hfile.config p t hc'
  obtain ⟨n, hn⟩ : ∃ n : ℕ, nrZones - p.logZones = n :=
    ⟨_, (Int.toNat_of_nonneg (by omega)).symm⟩
  rw [hn, ← Nat.cast_mul] at htotal
  obtain ⟨hlayer, hfile', hsame⟩ :=
    capacities zsze hn (by omega) (by exact_mod_cast htotal) hnr hcap
  rw [hn]
  constructor
  · intro h
    exact ⟨hlayer.mp (by exact_mod_cast hn ▸ h.layer),
      by exact_mod_cast hfile'.mp (by exact_mod_cast hn ▸ h.file)⟩
  · rintro ⟨hzone, hdevice⟩
    have hdevice' : n * (zsze * 2 ^ ds) < 4294967296 := by exact_mod_cast hdevice
    refine ⟨?_, ?_, fun h => (hsame h).mpr ?_⟩
    · rw [hlayer.mpr hzone, hn]
      exact_mod_cast rfl
    · rw [hfile'.mpr hdevice', hn]
      exact_mod_cast rfl
    · exact Nat.lt_of_le_of_lt (Nat.mul_le_mul_left _ (Nat.mod_le _ _)) hdevice'

/-- The same for the small drive. -/
theorem capacityExact_iff_small :
    let p := smallDrive.params true
    CapacityExact p 12 smallDrive.drive.zoneCap smallDrive.drive.zoneSize smallDrive.drive.nrZones
      (configOf smallDrive.drive p)
      (mkFileConfig p 12 smallDrive.drive.zoneSize smallDrive.drive.nrZones) :=
  (capacityExact_iff (reporting_exec smallDrive.drive) (fileReporting_fileExec smallDrive.drive)
    (p := smallDrive.params true) (by decide) (by decide)
    (s := fresh smallDrive) (t := ())
    (congrArg (fun r => r.1.2) (run_initSsZnsDevice (smallDrive.params true) (fresh smallDrive)))
    (congrArg (fun r => r.1.2) (run_fileInitSsZnsDevice smallDrive.drive (smallDrive.params true)))).mpr
    (by decide)

/-- A drive with ten zones of five gibibytes. -/
def fiveGibibytes : Drive UInt8 where
  ds := 12
  nrZones := 10
  zoneSize := 1310720
  zoneCap := 1310720
  readAcross := false
  fill := 0
  cap_pos := by decide
  cap_le := by decide

/-- With two log zones there is room for forty gibibytes.  The layer reports eight, and the file
none. -/
theorem forty_gibibytes_lost :
    let p : InitParams := { logZones := 2, gcWmark := 1, forceReset := true }
    let c := configOf fiveGibibytes p
    let c' := mkFileConfig p 12 1310720 10
    ((initSsZnsDevice p).run exec ⟨Ftl.fresh, Media.empty fiveGibibytes⟩).1 = (0, some c) ∧
      ((fileInitSsZnsDevice p).run (fileExec fiveGibibytes) ()).1 = (0, some c') ∧
      c.capacityBytes = 8589934592 ∧ c'.capacityBytes = 0 ∧
      ((fiveGibibytes.nrZones - p.logZones) * (fiveGibibytes.zoneCap * 2 ^ 12 : ℕ) : ℤ)
        = 42949672960 ∧
      ¬ CapacityExact p 12 1310720 1310720 10 c c' := by
  intro p c c'
  have hlayer : c.capacityBytes = 8589934592 := by decide
  have hfile : c'.capacityBytes = 0 := by decide
  refine ⟨congrArg Prod.fst (run_initSsZnsDevice p _),
    congrArg Prod.fst (run_fileInitSsZnsDevice fiveGibibytes p), hlayer, hfile, by decide,
    fun h => ?_⟩
  have hsame := h.same rfl
  rw [hlayer, hfile] at hsame
  exact absurd hsame (by decide)

end StoSys
