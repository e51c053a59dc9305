import AtreoAgent.Certs.Manager
import AtreoAgent.Machine.Storage

/-! Issuing a certificate (`IssueCert` in `issuer.go`, `WriteFile` of package `atomic`).
The certificate and its key are two files, each replaced by a rename. Between the
two renames the new certificate stands beside the old key. -/
namespace Certs

open Codec Storage

/-- A file, by its directory and its name there. -/
structure Path where
  dir : String
  name : String
  deriving DecidableEq, Repr

def Path.tmp (p : Path) : Path := ⟨p.dir, p.name ++ ".tmp"⟩

inductive IssueError where
  /-- `issuer: empty suffix` -/
  | emptySuffix
  /-- `create issuer keys dir: …` -/
  | createKeysDir
  /-- `create cert dir: …` -/
  | createCertDir
  /-- `account key: …` -/
  | accountKey
  /-- `create ACME client: …` -/
  | createClient
  /-- `ACME registration: …` -/
  | registration
  /-- `marshal registration: …` -/
  | marshalRegistration
  /-- `write registration: …` -/
  | writeRegistration
  /-- `set DNS provider: …` -/
  | setProvider
  /-- `obtain cert: …` -/
  | obtain
  /-- `write cert: …` -/
  | writeCert
  /-- `write key: …` -/
  | writeKey
  deriving DecidableEq, Repr

/-- What comes of `WriteFile`. Writing the temporary file may fail and leave anything
in it; renaming it may fail, and then so may removing it. -/
inductive WriteOutcome where
  | written
  | renameFailed (removed : Bool)
  | writeFailed (left : Option Bytes)
  deriving DecidableEq, Repr

abbrev IssueJob := Job Path Bytes IssueError

/-- `atomic.WriteFile` -/
def writeFile (path : Path) (data : Bytes) (e : IssueError) : WriteOutcome → IssueJob Unit
  | .writeFailed left => Job.perform (·.set path.tmp left) (.error e)
  | .renameFailed removed => do
      Job.perform (·.set path.tmp (some data)) (.ok ())
      Job.perform (fun fs => if removed then fs.set path.tmp none else fs) (.error e)
  | .written => do
      Job.perform (·.set path.tmp (some data)) (.ok ())
      Job.perform (fun fs => (fs.set path (fs path.tmp)).set path.tmp none) (.ok ())

/-- The outcomes of what `IssueCert` asks for. -/
structure Issuance where
  /-- The directory of the account and that of the certificate can be made. -/
  mkdirAll : String → Bool
  readable : Path → Bool
  /-- The contents are a PEM block with an EC private key. -/
  isAccountKey : Bytes → Bool
  /-- The PEM block of a new account key, if one can be made. -/
  newAccountKey : Option Bytes
  writeAccountKey : WriteOutcome
  /-- The contents are a registration with a URI. -/
  isRegistration : Bytes → Bool
  newClient : Bool
  register : Bool
  /-- The registration as JSON. -/
  registrationJSON : Option Bytes
  writeRegistration : WriteOutcome
  setDNS01Provider : Bool
  /-- The certificate and the private key from the ACME server. -/
  obtain : Option (Bytes × Bytes)
  writeCert : WriteOutcome
  writeKey : WriteOutcome

namespace Issuance

/-- `os.ReadFile`; a file that cannot be read counts as missing. -/
def readFile (o : Issuance) (p : Path) : IssueJob (Option Bytes) := do
  let data ← Job.read p
  pure (if o.readable p then data else none)

def loadOrCreateAccountKey (o : Issuance) (keysDir : String) : IssueJob Unit := do
  let path : Path := ⟨keysDir, "acme_account.key"⟩
  let data ← o.readFile path
  if data.any o.isAccountKey then pure ()
  else
    let key ← Job.require .accountKey o.newAccountKey
    writeFile path key .accountKey o.writeAccountKey

/-- The account is registered unless `registration.json` says so already. -/
def ensureRegistered (o : Issuance) (keysDir : String) : IssueJob Unit := do
  let path : Path := ⟨keysDir, "registration.json"⟩
  let data ← o.readFile path
  -- `Stat` and `Chmod`, which change no contents.
  Job.perform id (.ok ())
  Job.ensure .createClient o.newClient
  if data.any o.isRegistration then pure ()
  else
    Job.ensure .registration o.register
    let json ← Job.require .marshalRegistration o.registrationJSON
    writeFile path json .writeRegistration o.writeRegistration

/-- `IssueCert` as far as the answer of the ACME server. -/
def obtainCert (o : Issuance) (lower : Char → Char) (keysDir suffix : String) (certPath : Path) :
    IssueJob (Bytes × Bytes) := do
  Job.ensure .emptySuffix (normaliseHost lower suffix ≠ "")
  Job.ensure .createKeysDir (o.mkdirAll keysDir)
  Job.ensure .createCertDir (o.mkdirAll certPath.dir)
  o.loadOrCreateAccountKey keysDir
  o.ensureRegistered keysDir
  Job.ensure .setProvider o.setDNS01Provider
  Job.require .obtain o.obtain

def issueCert (o : Issuance) (lower : Char → Char) (keysDir suffix : String)
    (certPath keyPath : Path) : IssueJob Unit := do
  let certs ← o.obtainCert lower keysDir suffix certPath
  writeFile certPath certs.1 .writeCert o.writeCert
  writeFile keyPath certs.2 .writeKey o.writeKey

end Issuance

abbrev Contents := Storage.Files Path Bytes

def certPath (dir : String) : Path := ⟨dir, "cert.pem"⟩

def keyPath (dir : String) : Path := ⟨dir, "key.pem"⟩

/-- What `crypto/tls` makes of the contents of files. -/
structure Pem where
  leaf : Bytes → Option Leaf
  /-- The key is that of the certificate. -/
  pairs : Bytes → Bytes → Bool

def Pem.filesAt (pem : Pem) (fs : Contents) (dir : String) : Files where
  leaf := (fs (certPath dir)).bind pem.leaf
  paired := (fs (certPath dir)).any fun cert => (fs (keyPath dir)).any (pem.pairs cert)

/-- `LoadSuffix` succeeds on the files of the directory. -/
def Loadable (letters : Letters) (pem : Pem) (dir : String) (fs : Contents) : Prop :=
  dir ≠ "" ∧ ((pem.filesAt fs dir).load letters dir).isSome = true

instance (letters : Letters) (pem : Pem) (dir : String) (fs : Contents) :
    Decidable (Loadable letters pem dir fs) := inferInstanceAs (Decidable (_ ∧ _))

/-- `IssueCert` with the paths that `PathsFor` gives for the suffix. -/
def Issuance.issueAt (o : Issuance) (lower : Char → Char) (keysDir suffix : String) :
    IssueJob Unit :=
  o.issueCert lower keysDir suffix (certPath (normaliseHost lower suffix))
    (keyPath (normaliseHost lower suffix))

/-- What `EnsureCert` sees of the issuance when the files hold `fs`. -/
def Issuance.tick (o : Issuance) (lower : Char → Char) (pem : Pem) (keysDir : String)
    (fs : Contents) (now : Atreolink.Time) (mkdir : String → Bool) : Tick where
  now := now
  mkdir := mkdir
  issueCert suffix _ :=
    (((o.issueAt lower keysDir suffix).result fs).isOk,
      pem.filesAt ((o.issueAt lower keysDir suffix).final fs) (normaliseHost lower suffix))

/-- Wherever `IssueCert` stops without success, the files load; and after an error
`EnsureCert` falls back to them. -/
structure CertificateKept (letters : Letters) (pem : Pem) (keysDir suffix : String) (o : Issuance)
    (fs : Contents) : Prop where
  loads : ∀ s ∈ (o.issueAt letters.lower keysDir suffix).points fs,
    Loadable letters pem (normaliseHost letters.lower suffix) s
  fallsBack : ∀ name e (m : Manager) now mkdir, normaliseHost letters.lower name = suffix →
    (o.issueAt letters.lower keysDir suffix).result fs = .error e →
    mkdir (normaliseHost letters.lower suffix) = true →
      (m.ensureCert letters (o.tick letters.lower pem keysDir fs now mkdir) name).2.ok = true

/-- Both files of the directory are as they were. -/
def Untouched (dir : String) (fs s : Contents) : Prop :=
  s (certPath dir) = fs (certPath dir) ∧ s (keyPath dir) = fs (keyPath dir)

variable {dir : String} {fs s : Contents} {path : Path}

theorem loadable_congr {letters : Letters} {pem : Pem} (h : Untouched dir fs s) :
    Loadable letters pem dir s ↔ Loadable letters pem dir fs := by
  rw [Loadable, Loadable, Pem.filesAt, Pem.filesAt, h.1, h.2]

theorem Untouched.set (h : Untouched dir fs s) {p : Path} (hCert : p.name ≠ "cert.pem")
    (hKey : p.name ≠ "key.pem") (d : Option Bytes) : Untouched dir fs (s.set p d) := by
  have hCert' : certPath dir ≠ p := fun hEq => hCert (congrArg Path.name hEq).symm
  have hKey' : keyPath dir ≠ p := fun hEq => hKey (congrArg Path.name hEq).symm
  rw [Untouched, Storage.Files.set_of_ne hCert', Storage.Files.set_of_ne hKey']
  exact h

theorem writeFile_upholds {I : Contents → Prop} (hTmp : ∀ s, I s → ∀ d, I (s.set path.tmp d))
    (hPath : ∀ s, I s → ∀ d, I (s.set path d)) (data : Bytes) (e : IssueError) (w : WriteOutcome) :
    Job.Upholds (writeFile path data e w) I := by
  have hWrite : Job.Upholds (Job.perform (·.set path.tmp (some data)) (.ok ()) : IssueJob Unit) I :=
    .perform (fun s hs => hTmp s hs _) _
  cases w with
  | writeFailed left => exact .perform (fun s hs => hTmp s hs left) _
  | renameFailed removed =>
      refine hWrite.bind fun _ => .perform (fun s hs => ?_) _
      cases removed with
      | true => exact hTmp s hs none
      | false => exact hs
  | written => exact hWrite.bind fun _ => .perform (fun s hs => hTmp _ (hPath s hs _) none) _

/-- Up to the answer of the server only the files of the account are written. -/
theorem Issuance.obtainCert_upholds (o : Issuance) (lower : Char → Char) (keysDir suffix : String)
    (path : Path) (dir : String) (fs : Contents) :
    Job.Upholds (o.obtainCert lower keysDir suffix path) (Untouched dir fs) := by
  have hEnsure : ∀ e ok, Job.Upholds (Job.ensure e ok : IssueJob Unit) (Untouched dir fs) :=
    fun e ok => .of_nil fun _ => rfl
  have hPure : Job.Upholds (pure () : IssueJob Unit) (Untouched dir fs) := .of_nil fun _ => rfl
  have hRead : ∀ p, Job.Upholds (o.readFile p) (Untouched dir fs) := fun p => .of_nil fun _ => rfl
  have hWrite : ∀ (p : Path) data e w, p = ⟨keysDir, "acme_account.key"⟩ ∨
      p = ⟨keysDir, "registration.json"⟩ →
        Job.Upholds (writeFile p data e w) (Untouched dir fs) := by
    rintro p data e w (rfl | rfl) <;>
      exact writeFile_upholds (fun s hs d => hs.set (by simp [Path.tmp]) (by simp [Path.tmp]) d)
        (fun s hs d => hs.set (by simp) (by simp) d) data e w
  have hAccount : Job.Upholds (o.loadOrCreateAccountKey keysDir) (Untouched dir fs) := by
    refine (hRead _).bind fun data => ?_
    split
    · exact hPure
    · exact (Job.Upholds.require _ _).bind fun key => hWrite _ _ _ _ (Or.inl rfl)
  have hRegistered : Job.Upholds (o.ensureRegistered keysDir) (Untouched dir fs) := by
    refine (hRead _).bind fun data => (Job.Upholds.perform (fun s hs => hs) _).bind fun _ =>
      (hEnsure _ _).bind fun _ => ?_
    split
    · exact hPure
    · exact (hEnsure _ _).bind fun _ => (Job.Upholds.require _ _).bind fun json =>
        hWrite _ _ _ _ (Or.inr rfl)
  exact (hEnsure _ _).bind fun _ => (hEnsure _ _).bind fun _ => (hEnsure _ _).bind fun _ =>
    hAccount.bind fun _ => hRegistered.bind fun _ => (hEnsure _ _).bind fun _ =>
      Job.Upholds.require _ _

theorem writeFile_ne_nil (path : Path) (data : Bytes) (e : IssueError) (w : WriteOutcome)
    (fs : Contents) : (writeFile path data e w fs).1 ≠ [] := by
  cases w <;> exact List.cons_ne_nil _ _

/-- Until it has succeeded, `WriteFile` has touched the temporary file only. -/
theorem writeFile_points (hCert : path.tmp.name ≠ "cert.pem") (hKey : path.tmp.name ≠ "key.pem")
    {data : Bytes} {e : IssueError} {w : WriteOutcome}
    (hs : s ∈ (writeFile path data e w).points fs) : Untouched dir fs s := by
  have hSame : Untouched dir fs fs := ⟨rfl, rfl⟩
  have hTmp : Untouched dir fs (fs.set path.tmp (some data)) := hSame.set hCert hKey _
  cases w with
  | writeFailed left =>
      rcases Job.mem_points hs with rfl | hs
      · exact hSame
      · obtain rfl := List.mem_singleton.mp hs
        exact hSame.set hCert hKey left
  | renameFailed removed =>
      rcases Job.mem_points hs with rfl | hs
      · exact hSame
      · rcases List.mem_cons.mp hs with rfl | hs
        · exact hTmp
        · obtain rfl := List.mem_singleton.mp hs
          cases removed with
          | true => exact hTmp.set hCert hKey none
          | false => exact hTmp
  | written =>
      -- The rename is the last operation, so it is not among the points.
      have hPoints : (writeFile path data e .written).points fs =
          [fs, fs.set path.tmp (some data)] := rfl
      rw [hPoints] at hs
      rcases List.mem_cons.mp hs with rfl | hs
      · exact hSame
      · obtain rfl := List.mem_singleton.mp hs
        exact hTmp

theorem writeFile_result (path : Path) (data : Bytes) (e : IssueError) (w : WriteOutcome)
    (fs : Contents) :
    (writeFile path data e w).result fs = if w = .written then .ok () else .error e := by
  cases w <;> rfl

/-- What a completed write leaves. -/
theorem writeFile_final (data : Bytes) (e : IssueError) (fs : Contents) (q : Path)
    (hTmp : q ≠ path.tmp) :
    (writeFile path data e .written).final fs q = if q = path then some data else fs q := by
  have hRenamed : (fs.set path.tmp (some data)) path.tmp = some data := Storage.Files.set_self _ _ _
  change (((fs.set path.tmp (some data)).set path ((fs.set path.tmp (some data)) path.tmp)).set
    path.tmp none) q = _
  rw [hRenamed, Storage.Files.set_of_ne hTmp]
  split
  next hPath => rw [hPath, Storage.Files.set_self]
  next hPath => rw [Storage.Files.set_of_ne hPath, Storage.Files.set_of_ne hTmp]

/-- The two writes at the end of `IssueCert`. -/
def Issuance.replacePair (o : Issuance) (dir : String) (certs : Bytes × Bytes) : IssueJob Unit := do
  writeFile (certPath dir) certs.1 .writeCert o.writeCert
  writeFile (keyPath dir) certs.2 .writeKey o.writeKey

theorem Issuance.issueAt_eq (o : Issuance) (lower : Char → Char) (keysDir suffix : String) :
    o.issueAt lower keysDir suffix =
      o.obtainCert lower keysDir suffix (certPath (normaliseHost lower suffix)) >>=
        o.replacePair (normaliseHost lower suffix) := rfl

/-- The new certificate has been renamed into place, and the key is the old one. -/
def Halfway (dir : String) (cert : Bytes) (fs s : Contents) : Prop :=
  Untouched dir (fs.set (certPath dir) (some cert)) s

theorem keyPath_ne_certPath (dir : String) : keyPath dir ≠ certPath dir := fun h => by
  simpa [certPath, keyPath] using congrArg Path.name h

theorem Halfway.of_untouched {cert : Bytes} {t : Contents} (h : Halfway dir cert t s)
    (hUntouched : Untouched dir fs t) : Halfway dir cert fs s := by
  obtain ⟨hCert, hKey⟩ := h
  rw [Storage.Files.set_self] at hCert
  rw [Storage.Files.set_of_ne (keyPath_ne_certPath dir)] at hKey
  refine ⟨by rw [Storage.Files.set_self, hCert], ?_⟩
  rw [Storage.Files.set_of_ne (keyPath_ne_certPath dir), hKey, hUntouched.2]

theorem halfway_writeFile (dir : String) (cert : Bytes) (e : IssueError) (fs : Contents) :
    Halfway dir cert fs ((writeFile (certPath dir) cert e .written).final fs) := by
  have hCert : certPath dir ≠ (certPath dir).tmp := fun h => by
    simpa [certPath, Path.tmp] using congrArg Path.name h
  have hKey : keyPath dir ≠ (certPath dir).tmp := fun h => by
    simpa [certPath, keyPath, Path.tmp] using congrArg Path.name h
  have hOther := keyPath_ne_certPath dir
  constructor
  · rw [writeFile_final cert e fs _ hCert, if_pos rfl, Storage.Files.set_self]
  · rw [writeFile_final cert e fs _ hKey, if_neg hOther, Storage.Files.set_of_ne hOther]

/-- Where the two writes may stop: nothing is replaced, or the certificate alone; and
if it is replaced, the second kind of state is passed through. -/
theorem Issuance.replacePair_points (o : Issuance) (dir : String) (certs : Bytes × Bytes)
    (fs : Contents) :
    (∀ s ∈ (o.replacePair dir certs).points fs,
      Untouched dir fs s ∨ (o.writeCert = .written ∧ Halfway dir certs.1 fs s)) ∧
    (o.writeCert = .written → ∃ s ∈ (o.replacePair dir certs).points fs,
      Halfway dir certs.1 fs s) := by
  have hCertPoints : ∀ s ∈ (writeFile (certPath dir) certs.1 .writeCert o.writeCert).points fs,
      Untouched dir fs s := fun s hs =>
    writeFile_points (by simp [certPath, Path.tmp]) (by simp [certPath, Path.tmp]) hs
  by_cases hWritten : o.writeCert = .written
  · have hResult : (writeFile (certPath dir) certs.1 .writeCert o.writeCert).result fs = .ok () := by
      rw [writeFile_result, if_pos hWritten]
    have hHalfway := halfway_writeFile dir certs.1 .writeCert fs
    rw [← hWritten] at hHalfway
    rw [replacePair, Job.points_bind_of_ok hResult]
    constructor
    · intro s hs
      rcases List.mem_append.mp hs with hs | hs
      · left
        apply hCertPoints
        rw [Job.points, hResult]
        exact hs
      · right
        have hLater : Untouched dir _ s :=
          writeFile_points (by simp [keyPath, Path.tmp]) (by simp [keyPath, Path.tmp]) hs
        exact ⟨hWritten, hLater.1.trans hHalfway.1, hLater.2.trans hHalfway.2⟩
    · intro _
      exact ⟨_, List.mem_append_right _ (Job.start_mem_points (writeFile_ne_nil _ _ _ _ _)), hHalfway⟩
  · have hResult : (writeFile (certPath dir) certs.1 .writeCert o.writeCert).result fs =
        .error .writeCert := by
      rw [writeFile_result, if_neg hWritten]
    rw [replacePair, Job.points_bind_of_error hResult]
    exact ⟨fun s hs => Or.inl (hCertPoints s hs), fun h => absurd h hWritten⟩

/-- Where `IssueCert` may stop: the pair is untouched, or the certificate alone has been
replaced by the one the server gave; and if it is replaced, that is a place to stop. -/
theorem Issuance.issueAt_points (o : Issuance) (lower : Char → Char) (keysDir suffix : String)
    (fs : Contents) :
    (∀ s ∈ (o.issueAt lower keysDir suffix).points fs,
      Untouched (normaliseHost lower suffix) fs s ∨
        ∃ certs, (o.obtainCert lower keysDir suffix
            (certPath (normaliseHost lower suffix))).result fs = .ok certs ∧
          o.writeCert = .written ∧ Halfway (normaliseHost lower suffix) certs.1 fs s) ∧
    (∀ certs, (o.obtainCert lower keysDir suffix
        (certPath (normaliseHost lower suffix))).result fs = .ok certs →
      o.writeCert = .written → ∃ s ∈ (o.issueAt lower keysDir suffix).points fs,
        Halfway (normaliseHost lower suffix) certs.1 fs s) := by
  rw [issueAt_eq]
  generalize normaliseHost lower suffix = dir
  have hUpholds := o.obtainCert_upholds lower keysDir suffix (certPath dir) dir fs
  have hSame : Untouched dir fs fs := ⟨rfl, rfl⟩
  cases hResult : (o.obtainCert lower keysDir suffix (certPath dir)).result fs with
  | error e =>
      rw [Job.points_bind_of_error hResult]
      exact ⟨fun s hs => Or.inl (hUpholds.points hSame hs), fun certs h => by cases h⟩
  | ok certs =>
      rw [Job.points_bind_of_ok hResult]
      have hFinal := hUpholds.final hSame
      have hPair := o.replacePair_points dir certs
        ((o.obtainCert lower keysDir suffix (certPath dir)).final fs)
      have hFrom : ∀ {s}, Halfway dir certs.1
          ((o.obtainCert lower keysDir suffix (certPath dir)).final fs) s →
            Halfway dir certs.1 fs s := fun h => h.of_untouched hFinal
      constructor
      · intro s hs
        rcases List.mem_append.mp hs with hs | hs
        · left
          apply hUpholds.points hSame
          rw [Job.points, hResult]
          exact hs
        · rcases hPair.1 s hs with hUntouched | ⟨hWritten, hHalfway⟩
          · exact Or.inl ⟨hUntouched.1.trans hFinal.1, hUntouched.2.trans hFinal.2⟩
          · exact Or.inr ⟨certs, rfl, hWritten, hFrom hHalfway⟩
      · rintro _ ⟨⟩ hWritten
        obtain ⟨s, hs, hHalfway⟩ := hPair.2 hWritten
        exact ⟨s, List.mem_append_right _ hs, hFrom hHalfway⟩

/-- `EnsureCert` succeeds if the files load after the issuance. -/
theorem Manager.ensureCert_ok {letters : Letters} {tick : Tick} {m : Manager} {name : String}
    (hMkdir : tick.mkdir (normaliseHost letters.lower (normaliseHost letters.lower name)) = true)
    (hDir : normaliseHost letters.lower (normaliseHost letters.lower name) ≠ "")
    (hLoad : ∀ files, ((tick.issueCert (normaliseHost letters.lower name) files).2.load letters
      (normaliseHost letters.lower (normaliseHost letters.lower name))).isSome = true) :
    (m.ensureCert letters tick name).2.ok = true := by
  have hName : normaliseHost letters.lower name ≠ "" := by
    intro h
    rw [h] at hDir
    exact hDir rfl
  have hPaths : Registry.pathsFor letters.lower tick.mkdir (normaliseHost letters.lower name) =
      some (normaliseHost letters.lower (normaliseHost letters.lower name)) := by
    rw [Registry.pathsFor, if_neg hDir, if_pos hMkdir]
  simp only [ensureCert, if_neg hName, hPaths]
  split
  next => rfl
  next =>
    split
    next => rfl
    next hNone =>
      obtain ⟨leaf, hLeaf⟩ := Option.isSome_iff_exists.mp (hLoad (m.disk
        (normaliseHost letters.lower (normaliseHost letters.lower name))))
      simp [loadSuffix, Registry.loadSuffix, hDir, hLeaf] at hNone

/-- A usable certificate survives wherever `IssueCert` stops exactly if the new one is
never put in its place, or goes with the old key as well. -/
theorem usable_certificate_kept_iff (letters : Letters) (pem : Pem) (keysDir suffix : String)
    (o : Issuance) (fs : Contents)
    (hLoads : Loadable letters pem (normaliseHost letters.lower suffix) fs) :
    CertificateKept letters pem keysDir suffix o fs ↔
      ∀ certs, (o.obtainCert letters.lower keysDir suffix
          (certPath (normaliseHost letters.lower suffix))).result fs = .ok certs →
        o.writeCert = .written →
          Loadable letters pem (normaliseHost letters.lower suffix)
            (fs.set (certPath (normaliseHost letters.lower suffix)) (some certs.1)) := by
  have hPoints := o.issueAt_points letters.lower keysDir suffix fs
  constructor
  · intro hKept certs hObtain hWritten
    obtain ⟨s, hs, hHalfway⟩ := hPoints.2 certs hObtain hWritten
    exact (loadable_congr hHalfway).mp (hKept.loads s hs)
  · intro hNew
    have hAll : ∀ s ∈ (o.issueAt letters.lower keysDir suffix).points fs,
        Loadable letters pem (normaliseHost letters.lower suffix) s := by
      intro s hs
      rcases hPoints.1 s hs with hUntouched | ⟨certs, hObtain, hWritten, hHalfway⟩
      · exact (loadable_congr hUntouched).mpr hLoads
      · exact (loadable_congr hHalfway).mpr (hNew certs hObtain hWritten)
    refine ⟨hAll, ?_⟩
    rintro name e m now mkdir rfl hError hMkdir
    obtain ⟨hDir, hLoad⟩ := hAll _ (Job.final_mem_points hError)
    exact Manager.ensureCert_ok hMkdir hDir fun _ => hLoad

/-- A certificate of any contents is for `home.example`; its key has the same contents. -/
def homePem : Pem := ⟨fun _ => some ⟨0, ["*.home.example"], ""⟩, fun cert key => cert = key⟩

/-- The files of `home.example` with a pair in them. -/
def homeFiles : Contents := fun p =>
  if p = certPath "home.example" ∨ p = keyPath "home.example" then some [1] else none

/-- A renewal with a new pair, and what comes of writing it. -/
def homeIssuance (obtained : Option (Bytes × Bytes)) (writeKey : WriteOutcome) : Issuance where
  mkdirAll _ := true
  readable _ := true
  isAccountKey _ := true
  newAccountKey := some [3]
  writeAccountKey := .written
  isRegistration _ := true
  newClient := true
  register := true
  registrationJSON := some [4]
  writeRegistration := .written
  setDNS01Provider := true
  obtain := obtained
  writeCert := .written
  writeKey := writeKey

def homeManager : Manager where
  registry := ⟨∅⟩
  disk := fun dir => homePem.filesAt homeFiles dir
  renewalState := ∅
  notifier := false
  calls := []

/-- An issuance that the server refuses leaves the pair usable. -/
theorem refused_issuance_keeps_certificate :
    Loadable .ascii homePem "home.example" homeFiles ∧
      CertificateKept .ascii homePem "keys" "home.example" (homeIssuance none .written) homeFiles := by
  have hName : normaliseHost Letters.ascii.lower "home.example" = "home.example" := by decide +kernel
  have hLoads : Loadable .ascii homePem "home.example" homeFiles := by decide +kernel
  have hKept := usable_certificate_kept_iff .ascii homePem "keys" "home.example"
    (homeIssuance none .written) homeFiles (by rw [hName]; exact hLoads)
  have hRefused : ((homeIssuance none .written).obtainCert Letters.ascii.lower "keys" "home.example"
      (certPath (normaliseHost Letters.ascii.lower "home.example"))).result homeFiles =
        .error .obtain := by decide +kernel
  refine ⟨hLoads, hKept.mpr ?_⟩
  intro certs hObtain
  rw [hRefused] at hObtain
  cases hObtain

/-- If the key cannot be written, or the agent stops before it is, the files no longer
load, and `EnsureCert` has nothing to fall back to. -/
theorem new_certificate_beside_old_key :
    Loadable .ascii homePem "home.example" homeFiles ∧
    ((homeIssuance (some ([2], [2])) (.writeFailed none)).issueAt Letters.ascii.lower "keys"
        "home.example").result homeFiles = .error .writeKey ∧
    ¬ Loadable .ascii homePem "home.example"
      (((homeIssuance (some ([2], [2])) (.writeFailed none)).issueAt Letters.ascii.lower "keys"
        "home.example").final homeFiles) ∧
    (homeManager.ensureCert .ascii ((homeIssuance (some ([2], [2])) (.writeFailed none)).tick
      Letters.ascii.lower homePem "keys" homeFiles 0 fun _ => true) "home.example").2.ok = false ∧
    ∃ s ∈ ((homeIssuance (some ([2], [2])) .written).issueAt Letters.ascii.lower "keys"
      "home.example").points homeFiles, ¬ Loadable .ascii homePem "home.example" s := by
  decide +kernel

end Certs
