/-
# `AgentUpgrade` — an agent that replaces its own binary

An upgrade is downloaded, checked, written beside the binary and renamed over
it, after a copy of the binary has been made.  If the service cannot be
restarted, the copy is renamed back.  Every call to the system may fail; which
ones do is given by a record of faults, and what is left on the disk is a
function of it.

A rename is all or nothing, so that the binary is always a complete one.  That
it is the old one after an error rests on the way back, which can fail too
(`upgrade_left_in_place`).
-/
import Incudal.Basic

namespace Incudal

/-! ## Files and faults -/

abbrev FileBytes := List UInt8

structure AgentFile where
  bytes : FileBytes
  mode : ℕ
deriving DecidableEq, Repr

/-- The files of an upgrade: the binary, its copy, the temporary file of this call, the lock. -/
structure UpgradeFiles where
  binary : Option AgentFile
  backup : Option AgentFile := none
  temp : Option AgentFile := none
  lock : Bool := false
deriving DecidableEq, Repr

structure UpgradeInstruction where
  available : Bool := true
  version : String
  url : String
  sha256 : String
  gzip : Bool := false
deriving DecidableEq, Repr

/-- The fields of a runner that are not paths or functions. -/
structure UpgradeRunner where
  allowedBaseURL : String
  maxDownloadBytes : ℤ
  maxBinaryBytes : ℤ
deriving DecidableEq, Repr

/-- What the agent takes from the library of its language; `gunzip` reads at most so many bytes. -/
structure UpgradeTools where
  parseURL : String → Option (String × String)
  equalFold : String → String → Bool
  text : FileBytes → String
  sha256Hex : FileBytes → String
  gunzip : FileBytes → ℕ → Except String FileBytes
  executableError : FileBytes → Option String

/-- The outcome of every call to the system, in the order in which they are made: the error, if
there is one.  A write or a copy that fails has written some bytes before. -/
structure UpgradeFaults where
  openLock : Option String := none
  response : Except String (ℕ × FileBytes)
  readBody : Option String := none
  createTemp : Option String := none
  writeTemp : Option (String × ℕ) := none
  chmodTemp : Option String := none
  statBinary : Option String := none
  removeBackup : Bool := false
  openBinary : Option String := none
  statSource : Option String := none
  openBackup : Option String := none
  copy : Option (String × ℕ) := none
  chmodBackup : Option String := none
  rename : Option String := none
  removeTemp : Bool := false
  restart : Option String := none
  statBackup : Option String := none
  renameBackup : Option String := none
  restartAgain : Option String := none
  removeLock : Bool := false

/-- What came of the way back after a restart that failed. -/
inductive Rollback
  | failed (error : String)
  | restartFailed (error : String)
  | done
deriving DecidableEq, Repr

inductive UpgradeError
  | plain (error : String)
  | restart (error : String) (rollback : Rollback)
deriving DecidableEq, Repr

def UpgradeError.text : UpgradeError → String
  | .plain error => error
  | .restart error (.failed e) =>
      "restart agent after upgrade: " ++ error ++ "; rollback failed: " ++ e
  | .restart error (.restartFailed e) =>
      "restart agent after upgrade: " ++ error ++ "; rolled back but restart failed: " ++ e
  | .restart error .done => "restart agent after upgrade: " ++ error ++ "; rolled back successfully"

/-! ## The steps of an upgrade -/

section Steps

variable (tools : UpgradeTools) (runner : UpgradeRunner) (faults : UpgradeFaults)

/-- `strings.TrimRight(s, "/")`. -/
def trimSlashes (s : String) : String :=
  String.ofList (s.toList.reverse.dropWhile (· == '/')).reverse

def validateUpgradeURL (rawURL : String) : Except String Unit :=
  match tools.parseURL rawURL with
  | none => .error ("upgrade URL is invalid: " ++ rawURL)
  | some (scheme, host) =>
      if scheme = "" ∨ host = "" then .error ("upgrade URL is invalid: " ++ rawURL)
      else if scheme ≠ "https" then .error ("upgrade URL scheme is not allowed: " ++ scheme)
      else
        match tools.parseURL (trimSlashes runner.allowedBaseURL) with
        | none => .error ("panel URL is invalid: " ++ runner.allowedBaseURL)
        | some (baseScheme, baseHost) =>
            if baseScheme = "" ∨ baseHost = "" then
              .error ("panel URL is invalid: " ++ runner.allowedBaseURL)
            else if baseScheme ≠ "https" then .error "panel URL must use https"
            else if !tools.equalFold scheme baseScheme || !tools.equalFold host baseHost then
              .error "upgrade URL is outside panel origin"
            else .ok ()

/-- The limit of a download, and of the binary in it. -/
def UpgradeRunner.downloadLimit : ℕ :=
  if runner.maxDownloadBytes ≤ 0 then 64 * 1024 * 1024 else runner.maxDownloadBytes.toNat

def UpgradeRunner.binaryLimit : ℕ :=
  if 0 < runner.maxBinaryBytes then runner.maxBinaryBytes.toNat else 128 * 1024 * 1024

def download : Except String FileBytes :=
  match faults.response with
  | .error error => .error error
  | .ok (status, stream) =>
      if status < 200 ∨ 300 ≤ status then
        .error ("download upgrade failed: status=" ++ toString status ++ " body=" ++
          tools.text (stream.take 4096))
      else
        match faults.readBody with
        | some error => .error error
        | none =>
            let body := stream.take (runner.downloadLimit + 1)
            if runner.downloadLimit < body.length then
              .error ("upgrade package exceeds " ++ toString runner.downloadLimit ++ " bytes")
            else .ok body

def verifySHA256 (payload : FileBytes) (expected : String) : Except String Unit :=
  let actual := tools.sha256Hex payload
  if tools.equalFold actual expected then .ok ()
  else .error ("upgrade sha256 mismatch: expected=" ++ expected ++ " actual=" ++ actual)

/-- The binary of a package, within the limit. -/
def unpack (gzip : Bool) (packageBytes : FileBytes) : Except String FileBytes :=
  if gzip then
    match tools.gunzip packageBytes (runner.binaryLimit + 1) with
    | .error error => .error error
    | .ok binary =>
        if runner.binaryLimit < binary.length then
          .error ("decompressed upgrade binary exceeds " ++ toString runner.binaryLimit ++ " bytes")
        else .ok binary
  else if runner.binaryLimit < packageBytes.length then
    .error ("upgrade binary exceeds " ++ toString runner.binaryLimit ++ " bytes")
  else .ok packageBytes

/-- The package that is installed: downloaded, of the right sum, unpacked and executable. -/
def fetchBinary (instruction : UpgradeInstruction) : Except String FileBytes := do
  let packageBytes ← download tools runner faults
  verifySHA256 tools packageBytes instruction.sha256
  let binaryBytes ← unpack tools runner instruction.gzip packageBytes
  match tools.executableError binaryBytes with
  | some error => throw error
  | none => return binaryBytes

/-- The temporary file, or nothing beside an error: what was begun is removed if it can be. -/
def writeTempBinary (binaryBytes : FileBytes) (files : UpgradeFiles) :
    UpgradeFiles × Option String :=
  match faults.createTemp with
  | some error => (files, some error)
  | none =>
      let left : FileBytes → Option AgentFile := fun bytes =>
        if faults.removeTemp then some ⟨bytes, 0o600⟩ else none
      match faults.writeTemp, faults.chmodTemp with
      | some (error, n), _ => ({ files with temp := left (binaryBytes.take n) }, some error)
      | none, some error => ({ files with temp := left binaryBytes }, some error)
      | none, none => ({ files with temp := some ⟨binaryBytes, 0o755⟩ }, none)

/-- `copyFile` of the binary over the backup. -/
def copyBinary (binary : AgentFile) (files : UpgradeFiles) : UpgradeFiles × Option String :=
  let mode := if binary.mode = 0 then 0o755 else binary.mode
  match faults.openBinary, faults.statSource, faults.openBackup with
  | some error, _, _ => (files, some error)
  | none, some error, _ => (files, some error)
  | none, none, some error => (files, some error)
  | none, none, none =>
      match faults.copy, faults.chmodBackup with
      | some (error, n), _ =>
          ({ files with backup := some ⟨binary.bytes.take n, mode⟩ }, some error)
      | none, some error => ({ files with backup := some ⟨binary.bytes, mode⟩ }, some error)
      | none, none => ({ files with backup := some ⟨binary.bytes, mode⟩ }, none)

/-- The rename of the temporary file over the binary. -/
def renameTemp (files : UpgradeFiles) : UpgradeFiles × Option String :=
  match faults.rename with
  | some error => (files, some ("replace agent binary: " ++ error))
  | none => ({ files with binary := files.temp, temp := none }, none)

/-- The backup of an earlier upgrade is removed, if it can be. -/
def dropBackup (files : UpgradeFiles) : UpgradeFiles :=
  if faults.removeBackup then files else { files with backup := none }

/-- `replaceBinary`: a binary that cannot be found is not backed up. -/
def replaceBinary (files : UpgradeFiles) : UpgradeFiles × Option String :=
  match files.binary, faults.statBinary with
  | some binary, none =>
      match copyBinary faults binary (dropBackup faults files) with
      | (files, some error) => (files, some ("backup current agent: " ++ error))
      | (files, none) => renameTemp faults files
  | _, _ => renameTemp faults files

/-- `rollback`: the backup is renamed over the binary. -/
def rollbackBinary (files : UpgradeFiles) : UpgradeFiles × Option String :=
  match files.backup, faults.statBackup, faults.renameBackup with
  | none, none, _ => (files, some "no such file or directory")
  | _, some error, _ => (files, some error)
  | some _, none, some error => (files, some error)
  | some backup, none, none => ({ files with binary := some backup, backup := none }, none)

/-- The restart, and the way back if it fails. -/
def restartOrRollback (files : UpgradeFiles) : UpgradeFiles × Option UpgradeError :=
  match faults.restart with
  | none => (files, none)
  | some error =>
      match rollbackBinary faults files with
      | (files, some rollbackError) => (files, some (.restart error (.failed rollbackError)))
      | (files, none) =>
          match faults.restartAgain with
          | some e => (files, some (.restart error (.restartFailed e)))
          | none => (files, some (.restart error .done))

/-- The part of an upgrade that runs under the lock. -/
def installBinary (instruction : UpgradeInstruction) (files : UpgradeFiles) :
    UpgradeFiles × Option UpgradeError :=
  match fetchBinary tools runner faults instruction with
  | .error error => (files, some (.plain error))
  | .ok binaryBytes =>
      match writeTempBinary faults binaryBytes files with
      | (files, some error) => (files, some (.plain error))
      | (files, none) =>
          match replaceBinary faults files with
          | (files, some error) =>
              (if faults.removeTemp then files else { files with temp := none },
                some (.plain error))
          | (files, none) => restartOrRollback faults files

/-- The checks before anything is done; `none` where there is nothing to do. -/
def checkInstruction (instruction : UpgradeInstruction) (currentVersion : String) :
    Option (Except String Unit) :=
  if !instruction.available then none
  else if instruction.version = "" then some (.error "upgrade version is required")
  else if instruction.version = currentVersion then none
  else if instruction.url = "" then some (.error "upgrade URL is required")
  else if instruction.sha256 = "" then some (.error "upgrade sha256 is required")
  else some (validateUpgradeURL tools runner instruction.url)

/-- `Apply`. -/
def applyUpgrade (instruction : UpgradeInstruction) (currentVersion : String)
    (files : UpgradeFiles) : UpgradeFiles × Option UpgradeError :=
  match checkInstruction tools runner instruction currentVersion with
  | none => (files, none)
  | some (.error error) => (files, some (.plain error))
  | some (.ok ()) =>
      if files.lock then (files, some (.plain "agent upgrade already in progress"))
      else
        match faults.openLock with
        | some error => (files, some (.plain error))
        | none =>
            let (files, error) :=
              installBinary tools runner faults instruction { files with lock := true }
            ({ files with lock := faults.removeLock }, error)

/-! ## What the disk holds afterwards -/

/-- The bytes at the path of the binary. -/
def UpgradeFiles.content (files : UpgradeFiles) : Option FileBytes :=
  files.binary.map AgentFile.bytes

/-- What a package of the promised sum unpacks to. -/
def Verified (instruction : UpgradeInstruction) (binaryBytes : FileBytes) : Prop :=
  ∃ packageBytes, download tools runner faults = .ok packageBytes ∧
    verifySHA256 tools packageBytes instruction.sha256 = .ok () ∧
    unpack tools runner instruction.gzip packageBytes = .ok binaryBytes

/-- A backup of an earlier upgrade is there, this one makes none, and there is a way back. -/
def StaleBackup (files : UpgradeFiles) : Prop :=
  (files.binary = none ∨ faults.statBinary ≠ none) ∧ files.backup ≠ none ∧ faults.restart ≠ none

/-- The error tells that the way back failed. -/
def UpgradeError.rollbackFailed : UpgradeError → Bool
  | .restart _ (.failed _) => true
  | _ => false

variable {tools runner}

theorem verified_of_fetchBinary {instruction : UpgradeInstruction} {binaryBytes : FileBytes}
    (h : fetchBinary tools runner faults instruction = .ok binaryBytes) :
    Verified tools runner faults instruction binaryBytes := by
  simp only [fetchBinary, bind, Except.bind] at h
  split at h
  · cases h
  rename_i packageBytes hdownload
  split at h
  · cases h
  rename_i hsum
  split at h
  · cases h
  rename_i unpacked hunpack
  split at h
  · cases h
  · cases h
    exact ⟨packageBytes, hdownload, hsum, hunpack⟩

theorem writeTempBinary_cases (binaryBytes : FileBytes) (files : UpgradeFiles) :
    (∃ temp error, writeTempBinary faults binaryBytes files =
      ({ files with temp := temp }, some error)) ∨
    writeTempBinary faults binaryBytes files =
      ({ files with temp := some ⟨binaryBytes, 0o755⟩ }, none) := by
  simp only [writeTempBinary]
  split
  · exact .inl ⟨files.temp, _, rfl⟩
  split
  · exact .inl ⟨_, _, rfl⟩
  · exact .inl ⟨_, _, rfl⟩
  · exact .inr rfl

theorem copyBinary_cases (binary : AgentFile) (files : UpgradeFiles) :
    (∃ backup error, copyBinary faults binary files =
      ({ files with backup := backup }, some error)) ∨
    ∃ mode, copyBinary faults binary files =
      ({ files with backup := some ⟨binary.bytes, mode⟩ }, none) := by
  simp only [copyBinary]
  split
  · exact .inl ⟨files.backup, _, rfl⟩
  · exact .inl ⟨files.backup, _, rfl⟩
  · exact .inl ⟨files.backup, _, rfl⟩
  split
  · exact .inl ⟨_, _, rfl⟩
  · exact .inl ⟨_, _, rfl⟩
  · exact .inr ⟨_, rfl⟩

theorem renameTemp_cases (files : UpgradeFiles) :
    (∃ error, renameTemp faults files = (files, some error)) ∨
    renameTemp faults files = ({ files with binary := files.temp, temp := none }, none) := by
  simp only [renameTemp]
  split
  · exact .inl ⟨_, rfl⟩
  · exact .inr rfl

theorem dropBackup_eq (files : UpgradeFiles) :
    ∃ backup, dropBackup faults files = { files with backup := backup } := by
  simp only [dropBackup]
  split
  · exact ⟨files.backup, rfl⟩
  · exact ⟨none, rfl⟩

theorem replaceBinary_backed {files : UpgradeFiles} {binary : AgentFile}
    (hbinary : files.binary = some binary) (hstat : faults.statBinary = none) :
    replaceBinary faults files =
      match copyBinary faults binary (dropBackup faults files) with
      | (files, some error) => (files, some ("backup current agent: " ++ error))
      | (files, none) => renameTemp faults files := by
  simp only [replaceBinary, hbinary, hstat]

theorem replaceBinary_unbacked {files : UpgradeFiles}
    (h : files.binary = none ∨ faults.statBinary ≠ none) :
    replaceBinary faults files = renameTemp faults files := by
  simp only [replaceBinary]
  split
  · rename_i binary hbinary hstat
    rcases h with h | h
    · cases h.symm.trans hbinary
    · exact (h hstat).elim
  · rfl

/-- Either the binary stays, or it is the temporary file, and then the backup holds the old bytes
unless none was made. -/
theorem replaceBinary_cases (files : UpgradeFiles) :
    (∃ files' error, replaceBinary faults files = (files', some error) ∧
      files'.binary = files.binary) ∨
    ∃ backup, replaceBinary faults files =
        ({ files with binary := files.temp, backup := backup, temp := none }, none) ∧
      ((∃ old, backup = some old ∧ some old.bytes = files.content) ∨
        backup = files.backup ∧ (files.binary = none ∨ faults.statBinary ≠ none)) := by
  by_cases hunbacked : files.binary = none ∨ faults.statBinary ≠ none
  · rw [replaceBinary_unbacked faults hunbacked]
    obtain ⟨error, hrename⟩ | hrename := renameTemp_cases faults files
    · exact .inl ⟨files, _, hrename, rfl⟩
    · exact .inr ⟨files.backup, hrename, .inr ⟨rfl, hunbacked⟩⟩
  obtain ⟨hfound, hstat⟩ := not_or.mp hunbacked
  obtain ⟨binary, hbinary⟩ := Option.ne_none_iff_exists'.mp hfound
  rw [replaceBinary_backed faults hbinary (Classical.not_not.mp hstat)]
  obtain ⟨dropped, hdrop⟩ := dropBackup_eq faults files
  rw [hdrop]
  obtain ⟨backup, error, hcopy⟩ | ⟨mode, hcopy⟩ := copyBinary_cases faults binary
    { files with backup := dropped }
  · rw [hcopy]
    exact .inl ⟨_, _, rfl, rfl⟩
  rw [hcopy]
  obtain ⟨error, hrename⟩ | hrename := renameTemp_cases faults
    { files with backup := some ⟨binary.bytes, mode⟩ }
  · exact .inl ⟨_, _, hrename, rfl⟩
  · refine .inr ⟨_, hrename, .inl ⟨_, rfl, ?_⟩⟩
    simp only [UpgradeFiles.content, hbinary, Option.map_some]

theorem rollbackBinary_cases (files : UpgradeFiles) :
    (∃ error, rollbackBinary faults files = (files, some error)) ∨
    ∃ backup, files.backup = some backup ∧
      rollbackBinary faults files = ({ files with binary := some backup, backup := none }, none) := by
  simp only [rollbackBinary]
  split
  · exact .inl ⟨_, rfl⟩
  · exact .inl ⟨_, rfl⟩
  · exact .inl ⟨_, rfl⟩
  · rename_i backup hbackup _ _
    exact .inr ⟨backup, hbackup, rfl⟩

/-- The way back leads to `old`, if the backup holds nothing else. -/
theorem restartOrRollback_cases (files : UpgradeFiles) {old : Option FileBytes}
    (hold : faults.restart ≠ none → ∀ backup, files.backup = some backup → some backup.bytes = old) :
    restartOrRollback faults files = (files, none) ∨
    (∃ error, restartOrRollback faults files = (files, some error) ∧ error.rollbackFailed) ∨
    ∃ files' error, restartOrRollback faults files = (files', some error) ∧
      ¬ error.rollbackFailed ∧ files'.content = old := by
  cases hrestart : faults.restart with
  | none => exact .inl (by simp only [restartOrRollback, hrestart])
  | some error =>
      right
      simp only [restartOrRollback, hrestart]
      obtain ⟨e, hback⟩ | ⟨backup, hbackup, hback⟩ := rollbackBinary_cases faults files
      · rw [hback]
        exact .inl ⟨_, rfl, rfl⟩
      · rw [hback]
        have hcontent : some backup.bytes = old := hold (by simp [hrestart]) backup hbackup
        cases hagain : faults.restartAgain with
        | some e => exact .inr ⟨_, _, rfl, by simp [UpgradeError.rollbackFailed], hcontent⟩
        | none => exact .inr ⟨_, _, rfl, by simp [UpgradeError.rollbackFailed], hcontent⟩

variable (tools runner) in
/-- The binary is the old one or a verified one; which one it is beside an error. -/
structure UpgradeOutcome (instruction : UpgradeInstruction) (before after : UpgradeFiles)
    (error : Option UpgradeError) : Prop where
  complete : after.content = before.content ∨
    ∃ bytes, Verified tools runner faults instruction bytes ∧ after.content = some bytes
  kept : ∀ e, error = some e → ¬ e.rollbackFailed → after.content = before.content
  replaced : ∀ e, error = some e → e.rollbackFailed →
    ∃ bytes, Verified tools runner faults instruction bytes ∧ after.content = some bytes

/-- An error after which nothing was replaced. -/
theorem UpgradeOutcome.of_kept {faults : UpgradeFaults} {instruction : UpgradeInstruction}
    {before after : UpgradeFiles} {error : Option UpgradeError} (hcontent : after.content = before.content)
    (herror : ∀ e, error = some e → ¬ e.rollbackFailed) :
    UpgradeOutcome tools runner faults instruction before after error where
  complete := .inl hcontent
  kept _ _ _ := hcontent
  replaced e he hfailed := (herror e he hfailed).elim

theorem UpgradeOutcome.plain {faults : UpgradeFaults} {instruction : UpgradeInstruction}
    {before after : UpgradeFiles} (hcontent : after.content = before.content) (error : String) :
    UpgradeOutcome tools runner faults instruction before after (some (.plain error)) :=
  .of_kept hcontent fun e he => by cases he; simp [UpgradeError.rollbackFailed]

variable (tools runner) in
theorem installBinary_outcome (instruction : UpgradeInstruction) (files : UpgradeFiles)
    (hstale : ¬ StaleBackup faults files) :
    UpgradeOutcome tools runner faults instruction files
      (installBinary tools runner faults instruction files).1
      (installBinary tools runner faults instruction files).2 := by
  simp only [installBinary]
  split
  · exact .plain (by rfl) _
  rename_i binaryBytes hfetch
  have hverified := verified_of_fetchBinary faults hfetch
  obtain ⟨temp, error, hwrite⟩ | hwrite := writeTempBinary_cases faults binaryBytes files
  · simp only [hwrite]
    exact .plain (by rfl) _
  simp only [hwrite]
  obtain ⟨files', error, hreplace, hbinary⟩ | ⟨backup, hreplace, hbackup⟩ :=
    replaceBinary_cases faults { files with temp := some ⟨binaryBytes, 0o755⟩ }
  · have hcontent : files'.content = files.content := congrArg (Option.map AgentFile.bytes) hbinary
    simp only [hreplace]
    split
    · exact .plain hcontent _
    · refine .plain ?_ _
      exact hcontent
  simp only [hreplace]
  have hold : faults.restart ≠ none →
      ∀ b, backup = some b → some b.bytes = files.content := by
    intro hrestart b hb
    rcases hbackup with ⟨old, rfl, hcontent⟩ | ⟨rfl, hunbacked⟩
    · cases hb
      exact hcontent
    · exact (hstale ⟨hunbacked, Option.ne_none_iff_exists'.mpr ⟨b, hb⟩, hrestart⟩).elim
  obtain hdone | ⟨error, hdone, hfailed⟩ | ⟨files', error, hdone, hrolled, hcontent⟩ :=
    restartOrRollback_cases faults
      { files with binary := some ⟨binaryBytes, 0o755⟩, backup := backup, temp := none } hold
  · rw [hdone]
    exact ⟨.inr ⟨binaryBytes, hverified, rfl⟩, fun e he => (by cases he), fun e he => (by cases he)⟩
  · rw [hdone]
    refine ⟨.inr ⟨binaryBytes, hverified, rfl⟩, fun e he hne => ?_, fun e he _ => ?_⟩
    · cases he
      exact (hne hfailed).elim
    · exact ⟨binaryBytes, hverified, rfl⟩
  · rw [hdone]
    exact .of_kept hcontent fun e he => by cases he; exact hrolled

variable (tools runner) in
/-- An upgrade leaves the old binary or a complete one from a package of the promised sum, and
beside an error the old one, unless the error tells that the way back failed. -/
theorem upgrade_outcome (instruction : UpgradeInstruction) (currentVersion : String)
    {files : UpgradeFiles} (hstale : ¬ StaleBackup faults files) :
    UpgradeOutcome tools runner faults instruction files
      (applyUpgrade tools runner faults instruction currentVersion files).1
      (applyUpgrade tools runner faults instruction currentVersion files).2 := by
  simp only [applyUpgrade]
  split
  · exact .of_kept rfl fun e he => by cases he
  · exact .plain (by rfl) _
  split
  · exact .plain (by rfl) _
  split
  · exact .plain (by rfl) _
  have hinstall := installBinary_outcome tools runner faults instruction
    { files with lock := true } hstale
  exact { hinstall with }

end Steps

/-! ## Two runs -/

/-- The head of an executable and nothing else. -/
def elfHeader : FileBytes :=
  [0x7f, 0x45, 0x4c, 0x46, 2, 1, 1, 0] ++ List.replicate 8 0 ++
  [2, 0, 0x3e, 0, 1, 0, 0, 0] ++ List.replicate 28 0 ++
  [0x40, 0, 0x38, 0, 0, 0, 0x40, 0, 0, 0, 0, 0]

def elfHeaderSum : String := "51224867e5fb13d0c6052397c9f4959c7c87bb8bc7d750c91429728a18b507d9"

/-- The library on the inputs of the runs. -/
def sampleTools : UpgradeTools where
  parseURL _ := some ("https", "panel.example")
  equalFold a b := a == b
  text _ := ""
  sha256Hex payload := if payload = elfHeader then elfHeaderSum else ""
  gunzip _ _ := .error "gzip: invalid header"
  executableError payload := if payload = elfHeader then none else some "bad magic number"

def sampleRunner : UpgradeRunner := ⟨"https://panel.example/", 0, 0⟩

def sampleUpgrade : UpgradeInstruction :=
  { version := "1.1.0", url := "https://panel.example/agent", sha256 := elfHeaderSum }

def sampleUpgradeFiles : UpgradeFiles := { binary := some ⟨[0x7f, 0x45, 0x4c, 0x46], 0o755⟩ }

/-- The restart fails, and the binary is rolled back. -/
def restartFaults : UpgradeFaults :=
  { response := .ok (200, elfHeader), restart := some "exit status 1" }

theorem upgrade_outcome_rolled_back :
    ¬ StaleBackup restartFaults sampleUpgradeFiles ∧
      UpgradeOutcome sampleTools sampleRunner restartFaults sampleUpgrade sampleUpgradeFiles
        (applyUpgrade sampleTools sampleRunner restartFaults sampleUpgrade "1.0.0"
          sampleUpgradeFiles).1
        (applyUpgrade sampleTools sampleRunner restartFaults sampleUpgrade "1.0.0"
          sampleUpgradeFiles).2 :=
  have hstale : ¬ StaleBackup restartFaults sampleUpgradeFiles := fun h => h.2.1 rfl
  ⟨hstale, upgrade_outcome sampleTools sampleRunner restartFaults sampleUpgrade "1.0.0" hstale⟩

/-- The restart fails, and the rename of the backup fails too. -/
def lostFaults : UpgradeFaults :=
  { restartFaults with renameBackup := some "read-only file system" }

/-- An error was returned and the new binary is in place. -/
theorem upgrade_left_in_place :
    (applyUpgrade sampleTools sampleRunner lostFaults sampleUpgrade "1.0.0"
        sampleUpgradeFiles).2.map UpgradeError.text =
      some "restart agent after upgrade: exit status 1; rollback failed: read-only file system" ∧
    (applyUpgrade sampleTools sampleRunner lostFaults sampleUpgrade "1.0.0"
        sampleUpgradeFiles).1.content = some elfHeader ∧
    sampleUpgradeFiles.content ≠ some elfHeader := by
  decide

end Incudal
