import LuminalShine.Lib.Calls

/-!
# The driver setting and its undo journal

`src/platform/windows/nvprefs/`: the base profile of the NVIDIA driver, the undo file, and the
functions of `nvprefs_interface` as programs of driver and file calls, each of which can fail.
A session works on its own copy of the settings; other programs change the saved ones.

## Main definitions

* `Host` — the saved setting, the undo file and the memory of the process.
* `Call`, `perform` — the calls and what they do.
* `recover`, `modifyGlobalProfile`, `restoreGlobalProfile` — the functions.
* `Entry.program` — who calls them: the start of the host, the start of a stream, the restore
  guard and the command line.
-/

namespace LuminalShine.Nvprefs

open LuminalShine.Lib.Calls

/-! ## The host -/

abbrev Value := UInt32

/-- `OGL_CPL_PREFER_DXPRESENT_PREFER_ENABLED`, and what the driver reports for a base profile
that does not hold the setting itself. -/
structure Driver where
  preferEnabled : Value
  predefined : Option Value
  deriving DecidableEq, Repr

/-- `opengl_swapchain_t`. -/
structure Swapchain where
  ourValue : Value
  undoValue : Option Value
  deriving DecidableEq, Repr

/-- `undo_data_t`. -/
structure UndoData where
  openglSwapchain : Option Swapchain := none
  deriving DecidableEq, Repr

def UndoData.merge (data newer : UndoData) : UndoData :=
  match newer.openglSwapchain with
  | some swapchain => ⟨some swapchain⟩
  | none => data

/-- The undo data that is kept when `newer` is found. -/
def UndoData.mergeInto (newer : UndoData) : Option UndoData → UndoData
  | some data => data.merge newer
  | none => newer

/-- The undo file on disk; a text that cannot be parsed has no content. -/
structure UndoFile where
  content : Option UndoData
  flushed : Bool
  deriving DecidableEq, Repr

/-- The copy of the base profile that a driver session works on; `base` is the saved one at the
last `LoadSettings` or `SaveSettings`. -/
structure Session where
  own : Option Value
  base : Option Value
  deriving DecidableEq, Repr

/-- `nvprefs_interface::impl`.  `some false` is an undo file whose handle was reset. -/
structure Impl where
  loaded : Bool := false
  session : Option Session := none
  undoData : Option UndoData := none
  undoFile : Option Bool := none
  deriving DecidableEq, Repr

/-- `recovery` is the undo file that a recovery has open, with whether one of its calls has
failed.  `written` is history: the reading of the setting over which the program wrote, as long
as the saved setting is what it wrote. -/
structure Host where
  saved : Option Value
  written : Option (Option Value) := none
  file : Option UndoFile := none
  recovery : Option Bool := none
  impl : Impl := {}
  deriving DecidableEq, Repr

/-! ## Calls -/

/-- `failed` is any status but `NVAPI_OK` and `NVAPI_SETTING_NOT_FOUND`; `current` says that the
setting is in the profile itself. -/
inductive Reading where
  | failed
  | notFound
  | found (value : Value) (current : Bool)
  deriving DecidableEq, Repr

inductive Opening where
  | opened
  | absent
  | denied
  deriving DecidableEq, Repr

inductive Call where
  -- the memory of the process
  | impl
  | setLoaded (loaded : Bool)
  | keepUndoData (data : UndoData)
  | forget
  -- the driver
  | getEnvironment
  | initializeApi
  | createSession
  | loadSettings
  | destroySession
  | getBaseProfile
  | getSetting
  | setSetting (value : Value)
  | deleteSetting
  | saveSettings
  -- the configuration and the application profile
  | openglVulkanOnDxgi
  | checkApplicationProfile
  | applicationModified
  -- the undo file of a recovery
  | openFile
  | getFileSize
  | readFile
  | deleteFile
  | closeFile
  -- the undo file of the process
  | createDirectory
  | createFile
  | setFilePointer
  | setEndOfFile
  | writeFile (data : UndoData)
  | flush
  | deleteOwnedFile
  deriving DecidableEq, Repr

abbrev Call.Answer : Call → Type
  | .impl => Impl
  | .setLoaded _ | .keepUndoData _ | .forget | .destroySession | .closeFile => Unit
  | .getSetting => Reading
  | .openFile => Opening
  | .readFile => Option UndoData
  | .getEnvironment | .initializeApi | .createSession | .loadSettings | .getBaseProfile
  | .setSetting _ | .deleteSetting | .saveSettings | .openglVulkanOnDxgi
  | .checkApplicationProfile | .applicationModified | .getFileSize | .deleteFile
  | .createDirectory | .createFile | .setFilePointer | .setEndOfFile | .writeFile _ | .flush
  | .deleteOwnedFile => Bool

namespace Host

def withSession (h : Host) (session : Option Session) : Host :=
  { h with impl := { h.impl with session } }

/-- The own value of the session becomes `own`. -/
def setOwn (h : Host) (own : Option Value) : Host :=
  h.withSession (h.impl.session.map fun session => { session with own })

/-- A call of a recovery that fails is remembered. -/
def note (h : Host) (ok : Bool) : Host :=
  { h with recovery := h.recovery.map fun failed => failed || !ok }

def setFile (h : Host) (file : Option UndoFile) : Host := { h with file }

def setContent (h : Host) (content : Option UndoData) : Host :=
  h.setFile (h.file.map fun _ => ⟨content, false⟩)

def setHandle (h : Host) (undoFile : Option Bool) : Host :=
  { h with impl := { h.impl with undoFile } }

def setUndoData (h : Host) (undoData : Option UndoData) : Host :=
  { h with impl := { h.impl with undoData } }

end Host

section
variable (d : Driver)

/-- What `GetSetting` finds when the profile holds `own`. -/
def effective (own : Option Value) : Option Value := own.or d.predefined

def reading (own : Option Value) : Reading :=
  match own, d.predefined with
  | some value, _ => .found value true
  | none, some value => .found value false
  | none, none => .notFound

/-- The history after the session has saved `own`. -/
def Host.writtenAfter (h : Host) (own : Option Value) : Option (Option Value) :=
  if own = some d.preferEnabled ∧ effective d h.saved ≠ some d.preferEnabled then
    some (effective d h.saved)
  else if own = h.saved then h.written else none

def Host.save (h : Host) : Host :=
  match h.impl.session with
  | none => h
  | some session =>
      { h with saved := session.own, written := h.writtenAfter d session.own }.withSession
        (some ⟨session.own, session.own⟩)

def openFile (h : Host) (ok : Bool) : Host × Opening :=
  if ok then
    match h.file with
    | none => (h, .absent)
    | some _ =>
        -- the process that owns the file shares it with nobody
        if h.impl.undoFile = some true then (h, .denied)
        else ({ h with recovery := some false }, .opened)
  else (h, .denied)

def createFile (h : Host) (ok : Bool) : Host × Bool :=
  if ok && h.file.isNone then
    (({ h with file := some ⟨none, false⟩ }).setHandle (some true), true)
  else (h, false)

/-- What a call does when it succeeds or fails. -/
def perform (h : Host) (c : Call) (ok : Bool) : Host × c.Answer :=
  match c with
  | .impl => (h, h.impl)
  | .setLoaded loaded => ({ h with impl := { h.impl with loaded } }, ())
  | .keepUndoData data => (h.setUndoData (some data), ())
  | .forget => ((h.setUndoData none).setHandle none, ())
  | .getEnvironment => (h, ok)
  | .initializeApi => (h, ok)
  | .createSession => (if ok then h.withSession (some ⟨none, none⟩) else h, ok)
  | .loadSettings => (if ok then h.withSession (some ⟨h.saved, h.saved⟩) else h, ok)
  | .destroySession => (h.withSession none, ())
  | .getBaseProfile => (h.note ok, ok)
  | .getSetting =>
      (h.note ok, if ok then
        match h.impl.session with
        | some session => reading d session.own
        | none => .failed
      else .failed)
  | .setSetting value => ((if ok then h.setOwn (some value) else h).note ok, ok)
  | .deleteSetting => ((if ok then h.setOwn none else h).note ok, ok)
  | .saveSettings => ((if ok then h.save d else h).note ok, ok)
  | .openglVulkanOnDxgi => (h, ok)
  | .checkApplicationProfile => (h, ok)
  | .applicationModified => (h, ok)
  | .openFile => openFile h ok
  | .getFileSize => (h.note ok, ok)
  | .readFile =>
      (h.note ok, if ok then
        match h.file with
        | some file => some (file.content.getD {})
        | none => none
      else none)
  | .deleteFile => (if ok then { h with file := none, recovery := none } else h, ok)
  | .closeFile => ({ h with recovery := none }, ())
  | .createDirectory => (h, ok)
  | .createFile => createFile h ok
  | .setFilePointer => (h, ok)
  | .setEndOfFile => (if ok then h.setContent none else h, ok)
  | .writeFile data => (h.setContent (if ok then some data else none), ok)
  | .flush =>
      (if ok then h.setFile (h.file.map fun file => { file with flushed := true }) else h, ok)
  | .deleteOwnedFile => (if ok then (h.setFile none).setHandle (some false) else h, ok)

/-! ## The functions -/

abbrev Program (α : Type) := Prog Call Call.Answer α

def ask (c : Call) : Program c.Answer := Prog.ask c

/-- `driver_settings_t::load_settings`; a failure destroys the session. -/
def loadSettings : Program Bool := do
  let impl ← ask .impl
  if impl.session.isSome then
    if ← ask .loadSettings then pure true
    else
      ask .destroySession
      pure false
  else pure false

/-- `driver_settings_t::init`. -/
def init : Program Bool := do
  let impl ← ask .impl
  if impl.session.isSome then pure true
  else if ← ask .initializeApi then
    if ← ask .createSession then loadSettings else pure false
  else pure false

/-- `driver_settings_t::save_settings`. -/
def saveSettings : Program Bool := do
  let impl ← ask .impl
  if impl.session.isSome then ask .saveSettings else pure false

def undoSwapchain (undoValue : Option Value) : Program Bool :=
  match undoValue with
  | some value => ask (.setSetting value)
  | none => ask .deleteSetting

/-- `driver_settings_t::restore_global_profile_to_undo`. -/
def restoreGlobalProfileToUndo (data : UndoData) : Program Bool := do
  let impl ← ask .impl
  if impl.session.isSome then
    match data.openglSwapchain with
    | none => pure true
    | some swapchain =>
        if ← ask .getBaseProfile then
          match ← ask .getSetting with
          | .found value current =>
              if current && value == swapchain.ourValue then undoSwapchain swapchain.undoValue
              else pure true
          | .notFound => pure true
          | .failed => pure false
        else pure false
  else pure false

/-- `set_opengl_swapchain` with what was found, and the new value. -/
def changeSwapchain (undoValue : Option Value) : Program (Option (Option UndoData)) := do
  if ← ask (.setSetting d.preferEnabled) then
    pure (some (some ⟨some ⟨d.preferEnabled, undoValue⟩⟩))
  else pure none

/-- `driver_settings_t::check_and_modify_global_profile`: `none` if it fails. -/
def checkAndModifyGlobalProfile : Program (Option (Option UndoData)) := do
  let impl ← ask .impl
  if impl.session.isSome then
    if ← ask .openglVulkanOnDxgi then
      if ← ask .getBaseProfile then
        match ← ask .getSetting with
        | .notFound => changeSwapchain d none
        | .found value _ =>
            if value == d.preferEnabled then pure (some none) else changeSwapchain d (some value)
        | .failed => pure none
      else pure none
    else pure (some none)
  else pure none

/-- `nvprefs_interface::load`. -/
def load : Program Bool := do
  let impl ← ask .impl
  if impl.loaded then pure true
  else if ← ask .getEnvironment then
    let loaded ← init
    ask (.setLoaded loaded)
    pure loaded
  else pure false

/-- `nvprefs_interface::unload`. -/
def unload : Program Unit := do
  let impl ← ask .impl
  if impl.loaded then
    ask .destroySession
    ask (.setLoaded false)
  else pure ()

/-- `undo_file_t::read_undo_data`. -/
def readUndoData : Program (Option UndoData) := do
  if ← ask .getFileSize then ask .readFile else pure none

/-- What a recovery does with the undo file it has opened, up to the deletion. -/
def restoreFromFile : Program Unit := do
  match ← readUndoData with
  | none => pure ()
  | some data =>
      if ← restoreGlobalProfileToUndo data then
        let _ ← saveSettings
        pure ()
      else pure ()

/-- `restore_from_and_delete_undo_file_if_exists`: the file is deleted whether or not the
setting could be restored. -/
def recover : Program Bool := do
  let impl ← ask .impl
  if impl.loaded then
    match ← ask .openFile with
    | .opened =>
        restoreFromFile
        let deleted ← ask .deleteFile
        ask .closeFile
        pure deleted
    | .absent => pure true
    | .denied => pure false
  else pure false

/-- `nvprefs_interface::modify_application_profile`. -/
def modifyApplicationProfile : Program Bool := do
  let impl ← ask .impl
  if impl.loaded && impl.session.isSome then
    if ← ask .checkApplicationProfile then
      if ← ask .applicationModified then saveSettings else pure true
    else pure false
  else pure false

/-- `undo_file_t::write_undo_data`; a failure of the flush is only logged. -/
def writeUndoData (data : UndoData) : Program Bool := do
  let impl ← ask .impl
  if impl.undoFile = some true then
    if ← ask .setFilePointer then
      if ← ask .setEndOfFile then
        if ← ask (.writeFile data) then
          let _ ← ask .flush
          pure true
        else pure false
      else pure false
    else pure false
  else pure false

/-- `undo_file_t::delete_file` of the file that the process owns. -/
def deleteOwnedFile : Program Bool := do
  let impl ← ask .impl
  if impl.undoFile = some true then ask .deleteOwnedFile else pure false

/-- The undo file of the process, which is created if there is none yet. -/
def prepareUndoFile : Program Bool := do
  let impl ← ask .impl
  if impl.undoFile.isSome then pure true
  else if ← ask .createDirectory then ask .createFile else pure false

/-- The merged undo data, which is also kept in memory. -/
def mergeUndoData (newer : UndoData) : Program UndoData := do
  let impl ← ask .impl
  ask (.keepUndoData (newer.mergeInto impl.undoData))
  pure (newer.mergeInto impl.undoData)

def makeUndoAndCommit (newer : UndoData) : Program Bool := do
  if ← prepareUndoFile then
    let data ← mergeUndoData newer
    if ← writeUndoData data then saveSettings
    else
      let _ ← deleteOwnedFile
      pure false
  else pure false

/-- `nvprefs_interface::modify_global_profile`. -/
def modifyGlobalProfile : Program Bool := do
  let impl ← ask .impl
  if impl.loaded then
    match ← checkAndModifyGlobalProfile d with
    | none => pure false
    | some none => pure true
    | some (some newer) =>
        if ← makeUndoAndCommit newer then pure true
        else
          let _ ← loadSettings
          pure false
  else pure false

/-- `nvprefs_interface::restore_global_profile`. -/
def restoreGlobalProfile : Program Bool := do
  let impl ← ask .impl
  match impl.undoData with
  | some data =>
      if impl.loaded && impl.undoFile.isSome then
        if ← restoreGlobalProfileToUndo data then
          if ← saveSettings then
            if ← deleteOwnedFile then
              ask .forget
              pure true
            else pure false
          else pure false
        else pure false
      else pure false
  | none => pure false

/-! ## The callers -/

/-- `main`, `streaming_will_start`, the destructor of `restore_guard`, and
`restore_nvprefs_undo` of the command line. -/
inductive Entry where
  | startup
  | streamingWillStart
  | restoreGuard
  | restoreNvprefsUndo
  deriving DecidableEq, Repr

/-- The three changes of a start, with the recovery only if `recovers`. -/
def applyPreferences (recovers : Bool) : Program Unit := do
  if recovers then
    let _ ← recover
    pure ()
  else pure ()
  let _ ← modifyApplicationProfile
  let _ ← modifyGlobalProfile d
  unload

def Entry.program : Entry → Program Unit
  | .startup => do
      if ← load then applyPreferences d true else pure ()
  | .streamingWillStart => do
      if ← load then
        let impl ← ask .impl
        applyPreferences d impl.undoFile.isNone
      else pure ()
  | .restoreGuard => do
      let impl ← ask .impl
      if impl.undoFile.isSome then
        if ← load then
          let _ ← restoreGlobalProfile
          pure ()
        else pure ()
      else pure ()
      unload
  | .restoreNvprefsUndo => do
      if ← load then
        let _ ← recover
        unload
      else pure ()

/-! ## Histories -/

/-- The host and what remains of the program that it runs. -/
structure State where
  host : Host
  program : Program Unit

def State.initial (saved : Option Value) : State := ⟨{ saved }, .done ()⟩

/-- `external` is another program that saves the setting; a `crash` also stands for the end of
the process. -/
inductive Label where
  | begin (entry : Entry)
  | proceed (ok : Bool)
  | external (saved : Option Value)
  | crash
  | powerLoss
  deriving DecidableEq, Repr

def Host.external (h : Host) (saved : Option Value) : Host :=
  { h with saved, written := if saved = h.saved then h.written else none }

def Host.crash (h : Host) : Host := { h with recovery := none, impl := {} }

/-- What was not flushed is lost. -/
def Host.losePower (h : Host) : Host :=
  h.crash.setFile (h.file.map fun file => if file.flushed then file else ⟨none, true⟩)

def step (s : State) : Label → Option State
  | .begin entry => match s.program with
      | .done _ => some { s with program := entry.program d }
      | .call _ _ => none
  | .proceed ok => match s.program with
      | .done _ => none
      | .call c next =>
          some ⟨(perform d s.host c ok).1, next (perform d s.host c ok).2⟩
  | .external saved => some { s with host := s.host.external saved }
  | .crash => some ⟨s.host.crash, .done ()⟩
  | .powerLoss => some ⟨s.host.losePower, .done ()⟩

end

end LuminalShine.Nvprefs
