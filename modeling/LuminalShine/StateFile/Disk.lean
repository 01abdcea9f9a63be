import LuminalShine.ClientStore.Store
import Mathlib.Data.List.Sort

/-!
# The files beside a state file

`atomic_write_json` and `load_or_recover` of `src/state_storage.cpp` as the file operations
they perform, so that a crash can cut them short.  Every tree carries the number of the
write it comes from.

## Main definitions

* `Disk`, `Op` — the files beside one path, and the operations on them.
* `writeOps`, `atomicWriteJson`, `loadOrRecover` — the source's functions, cut by a crash.
* `Outcome` — what a write leaves, wherever it was cut.

## Main results

* `leavesCut_writeOps`, `leavesCut_recovery` — the outcome of a write and of a recovery.
* `recovered_files`, `atomicWriteJson_files` — without crashes, this is the file of the
  client store.
-/

namespace LuminalShine.StateFile

open LuminalShine.Lib

/-! ## Files -/

/-- A tree, and the number of the write it comes from. -/
structure Snapshot where
  version : ℕ
  tree : Ptree

inductive Content where
  | corrupt (size : ℕ)
  | intact (snapshot : Snapshot)

/-- `read_json`. -/
def Content.read : Content → Option Snapshot
  | .corrupt _ => none
  | .intact snapshot => some snapshot

/-- A candidate of `recovery_temp_candidates`: `.tmp` or `.tmp.<pid>.<sequence>`. -/
structure Temp where
  name : ℕ
  mtime : ℕ
  content : Content

/-- The files beside one path; `bakTemp` is the one `update_backup` copies to. -/
structure Disk where
  primary : Option Content
  bak : Option Content
  bakTemp : Option Content
  temps : List Temp

namespace Disk

/-- The temporaries under other names. -/
def others (d : Disk) (name : ℕ) : List Temp := d.temps.filter (·.name ≠ name)

def find (d : Disk) (name : ℕ) : Option Temp := d.temps.find? (·.name = name)

end Disk

/-- The operations of a write, of its backup and of a recovery. -/
inductive Op where
  | writeTemp (temp : Temp)
  | flush
  | removeTemp (name : ℕ)
  | rename (name : ℕ)
  | copyBackup
  | renameBackup
  | removeBackupTemp

namespace Op

def exec (d : Disk) : Op → Disk
  | .writeTemp temp => { d with temps := d.others temp.name ++ [temp] }
  | .flush => d
  | .removeTemp name => { d with temps := d.others name }
  | .rename name =>
      match d.find name with
      | none => d
      | some temp => { d with primary := some temp.content, temps := d.others name }
  | .copyBackup => { d with bakTemp := d.primary }
  | .renameBackup =>
      match d.bakTemp with
      | none => d
      | some content => { d with bak := some content, bakTemp := none }
  | .removeBackupTemp => { d with bakTemp := none }

def isRenameBackup : Op → Bool
  | .renameBackup => true
  | _ => false

end Op

def execute (ops : List Op) (d : Disk) : Disk := ops.foldl Op.exec d

/-- The operations done before a crash; `none` is a call that returns. -/
def cut (crash : Option ℕ) (ops : List Op) : List Op :=
  match crash with
  | none => ops
  | some done => ops.take done

/-! ## The two functions -/

/-- The calls of one write: its temporary, and `true` where a call does not fail. -/
structure WriteCalls where
  name : ℕ
  mtime : ℕ
  makeDir : Bool
  write : Bool
  rename : Bool
  removeTemp : Bool
  copyBackup : Bool
  renameBackup : Bool
  deriving DecidableEq, Repr

/-- `update_backup`. -/
def backupOps (calls : WriteCalls) : List Op :=
  if !calls.copyBackup then []
  else if !calls.renameBackup then [.copyBackup, .flush, .removeBackupTemp]
  else [.copyBackup, .flush, .renameBackup]

/-- `atomic_write_json`: its operations, and what it returns.  The temporary is torn until
it is written out. -/
def writeOps (snapshot : Snapshot) (calls : WriteCalls) : List Op × Bool :=
  let torn : Op := .writeTemp ⟨calls.name, calls.mtime, .corrupt 0⟩
  let whole : Op := .writeTemp ⟨calls.name, calls.mtime, .intact snapshot⟩
  let cleanup : List Op := if calls.removeTemp then [.removeTemp calls.name] else []
  if !calls.makeDir then ([], false)
  else if !calls.write then (torn :: cleanup, false)
  else if !calls.rename then (torn :: whole :: .flush :: cleanup, false)
  else ([torn, whole, Op.flush, Op.rename calls.name] ++ backupOps calls, true)

def atomicWriteJson (snapshot : Snapshot) (calls : WriteCalls) (crash : Option ℕ) (d : Disk) :
    Disk :=
  execute (cut crash (writeOps snapshot calls).1) d

namespace Disk

/-- `recovery_temp_candidates`: newest first, by the time of the last write. -/
def recoveryTempCandidates (d : Disk) : List Temp :=
  d.temps.insertionSort fun a b => b.mtime ≤ a.mtime

/-- The first candidate that parses. -/
def readTemp (d : Disk) : Option (ℕ × Snapshot) :=
  d.recoveryTempCandidates.findSome? fun temp => temp.content.read.map (temp.name, ·)

def readPrimary (d : Disk) : Option Snapshot := d.primary.bind Content.read

def readBak (d : Disk) : Option Snapshot := d.bak.bind Content.read

/-- What a load recovers, with the operations it restores the primary by. -/
def recovery (d : Disk) (calls : WriteCalls) (removeOk : Bool) : Option (Snapshot × List Op) :=
  match d.readTemp with
  | some (name, snapshot) =>
      let restore := writeOps snapshot calls
      some (snapshot,
        restore.1 ++ if restore.2 && removeOk then [.removeTemp name] else [])
  | none => d.readBak.map fun snapshot => (snapshot, (writeOps snapshot calls).1)

/-- `load_or_recover`: the tree, and the disk after it. -/
def loadOrRecover (d : Disk) (calls : WriteCalls) (removeOk : Bool) (crash : Option ℕ) :
    Option Snapshot × Disk :=
  match d.readPrimary with
  | some snapshot => (some snapshot, d)
  | none =>
      match d.recovery calls removeOk with
      | some (snapshot, ops) => (some snapshot, execute (cut crash ops) d)
      | none => (none, d)

end Disk

/-! ## What a write leaves behind -/

namespace Disk

@[simp] theorem others_filter (d : Disk) (name : ℕ) (temp : Temp) (h : temp.name = name) :
    ({ d with temps := d.others name ++ [temp] } : Disk).others name = d.others name := by
  simp [others, List.filter_append, h]

theorem find_append (d : Disk) (name : ℕ) (temp : Temp) (h : temp.name = name) :
    ({ d with temps := d.others name ++ [temp] } : Disk).find name = some temp := by
  have hnone : (d.others name).find? (·.name = name) = none := by
    simp [others, List.find?_eq_none]
  simp [find, List.find?_append, hnone, h]

theorem mem_of_mem_others {d : Disk} {name : ℕ} {temp : Temp} (h : temp ∈ d.others name) :
    temp ∈ d.temps := (List.mem_filter.mp h).1

end Disk

section Write

variable (d : Disk) (name mtime : ℕ) (content content' : Content)

theorem exec_writeTemp_writeTemp :
    Op.exec (Op.exec d (.writeTemp ⟨name, mtime, content⟩)) (.writeTemp ⟨name, mtime, content'⟩) =
      Op.exec d (.writeTemp ⟨name, mtime, content'⟩) := by
  simp [Op.exec]

theorem exec_removeTemp_writeTemp :
    Op.exec (Op.exec d (.writeTemp ⟨name, mtime, content⟩)) (.removeTemp name) =
      { d with temps := d.others name } := by
  simp [Op.exec]

theorem exec_rename_writeTemp :
    Op.exec (Op.exec d (.writeTemp ⟨name, mtime, content⟩)) (.rename name) =
      { d with primary := some content, temps := d.others name } := by
  simp [Op.exec, Disk.find_append]

end Write

/-- What a write of `snapshot` under `name` leaves, whether or not it was cut short. -/
structure Outcome (d : Disk) (snapshot : Snapshot) (name : ℕ) (mirrors : Bool) (d' : Disk) :
    Prop where
  temps : ∀ temp ∈ d'.temps, temp ∈ d.temps ∨ ∀ s ∈ temp.content.read, s = snapshot
  primary : d'.primary = d.primary ∨ d'.primary = some (.intact snapshot)
  unmirrored : mirrors = false → d'.bak = d.bak
  mirrored : mirrors = true → d'.bak = some (.intact snapshot) ∧
    d'.primary = some (.intact snapshot) ∧ ∀ temp ∈ d'.temps, temp ∈ d.others name

namespace Outcome

variable {d d' : Disk} {snapshot : Snapshot} {name : ℕ} {mirrors : Bool}

theorem refl : Outcome d snapshot name false d where
  temps := fun _ h => Or.inl h
  primary := Or.inl rfl
  unmirrored := fun _ => rfl
  mirrored := fun h => by cases h

theorem written {mtime : ℕ} {content : Content} (h : ∀ s ∈ content.read, s = snapshot) :
    Outcome d snapshot name false (Op.exec d (.writeTemp ⟨name, mtime, content⟩)) where
  temps := by
    intro temp htemp
    simp only [Op.exec, List.mem_append, List.mem_singleton] at htemp
    rcases htemp with htemp | rfl
    · exact Or.inl (Disk.mem_of_mem_others htemp)
    · exact Or.inr h
  primary := Or.inl rfl
  unmirrored := fun _ => rfl
  mirrored := fun h => by cases h

theorem removed : Outcome d snapshot name false { d with temps := d.others name } where
  temps := fun _ h => Or.inl (Disk.mem_of_mem_others h)
  primary := Or.inl rfl
  unmirrored := fun _ => rfl
  mirrored := fun h => by cases h

theorem renamed (bakTemp : Option Content) : Outcome d snapshot name false
    { d with primary := some (.intact snapshot), temps := d.others name, bakTemp } where
  temps := fun _ h => Or.inl (Disk.mem_of_mem_others h)
  primary := Or.inr rfl
  unmirrored := fun _ => rfl
  mirrored := fun h => by cases h

theorem backedUp (bakTemp : Option Content) : Outcome d snapshot name true
    { primary := some (.intact snapshot), bak := some (.intact snapshot), bakTemp,
      temps := d.others name } where
  temps := fun _ h => Or.inl (Disk.mem_of_mem_others h)
  primary := Or.inr rfl
  unmirrored := fun h => by cases h
  mirrored := fun _ => ⟨rfl, rfl, fun _ h => h⟩

/-- A recovery ends by removing the temporary it took. -/
theorem removeTemp (h : Outcome d snapshot name mirrors d') (taken : ℕ) :
    Outcome d snapshot name mirrors (Op.exec d' (.removeTemp taken)) where
  temps := fun temp htemp => h.temps temp (Disk.mem_of_mem_others htemp)
  primary := h.primary
  unmirrored := h.unmirrored
  mirrored := fun hmirrors =>
    ⟨(h.mirrored hmirrors).1, (h.mirrored hmirrors).2.1,
      fun temp htemp => (h.mirrored hmirrors).2.2 temp (Disk.mem_of_mem_others htemp)⟩

end Outcome

section Prefixes

variable (d : Disk) (snapshot : Snapshot) (calls : WriteCalls)

/-- What a list of operations leaves; whether the last rename is among them decides it. -/
def Leaves (ops : List Op) : Prop :=
  Outcome d snapshot calls.name (ops.any Op.isRenameBackup) (execute ops d)

/-- The same wherever the list is cut. -/
def LeavesCut (ops : List Op) : Prop := ∀ done, done <+: ops → Leaves d snapshot calls done

variable {d snapshot calls}

theorem leaves_of_execute {ops : List Op} {d' : Disk} (h : execute ops d = d')
    (hd' : Outcome d snapshot calls.name (ops.any Op.isRenameBackup) d') :
    Leaves d snapshot calls ops := by
  unfold Leaves
  rw [h]
  exact hd'

theorem leavesCut_nil : LeavesCut d snapshot calls [] := by
  intro done hdone
  rw [List.prefix_nil.mp hdone]
  exact Outcome.refl

theorem LeavesCut.concat {ops : List Op} {op : Op} (h : LeavesCut d snapshot calls ops)
    (hop : Leaves d snapshot calls (ops ++ [op])) : LeavesCut d snapshot calls (ops ++ [op]) := by
  intro done hdone
  rcases List.prefix_concat_iff.mp hdone with rfl | hdone
  · exact hop
  · exact h done hdone

theorem LeavesCut.append {ops tail : List Op} {op : Op}
    (h : LeavesCut d snapshot calls (ops ++ tail))
    (hop : Leaves d snapshot calls (ops ++ (tail ++ [op]))) :
    LeavesCut d snapshot calls (ops ++ (tail ++ [op])) := by
  rw [← List.append_assoc] at hop ⊢
  exact h.concat hop

theorem LeavesCut.cut {ops : List Op} (h : LeavesCut d snapshot calls ops) (crash : Option ℕ) :
    Leaves d snapshot calls (cut crash ops) := by
  cases crash with
  | none => exact h ops (List.prefix_refl ops)
  | some done => exact h _ (List.take_prefix done ops)

variable (d snapshot calls)

/-- The temporary, torn and then written out. -/
def tempOps : List Op :=
  [.writeTemp ⟨calls.name, calls.mtime, .corrupt 0⟩,
    .writeTemp ⟨calls.name, calls.mtime, .intact snapshot⟩]

theorem execute_tempOps (ops : List Op) :
    execute (tempOps snapshot calls ++ ops) d =
      execute ops (Op.exec d (.writeTemp ⟨calls.name, calls.mtime, .intact snapshot⟩)) := by
  simp [tempOps, execute, exec_writeTemp_writeTemp]

theorem leavesCut_torn :
    LeavesCut d snapshot calls [.writeTemp ⟨calls.name, calls.mtime, .corrupt 0⟩] :=
  leavesCut_nil.concat (Outcome.written (by simp [Content.read]))

theorem leavesCut_flushed : LeavesCut d snapshot calls (tempOps snapshot calls ++ [Op.flush]) := by
  have hwhole : ∀ s ∈ (Content.intact snapshot).read, s = snapshot := by simp [Content.read]
  refine LeavesCut.concat (LeavesCut.concat (leavesCut_torn d snapshot calls) ?_) ?_
  · exact leaves_of_execute (execute_tempOps d snapshot calls []) (Outcome.written hwhole)
  · exact leaves_of_execute (execute_tempOps d snapshot calls _) (Outcome.written hwhole)

/-- The write up to the rename over the primary. -/
def renamedOps : List Op := tempOps snapshot calls ++ [Op.flush] ++ [Op.rename calls.name]

/-- The disk after it. -/
theorem execute_renamed (ops : List Op) :
    execute (renamedOps snapshot calls ++ ops) d =
      execute ops { d with primary := some (.intact snapshot), temps := d.others calls.name } := by
  have h := exec_rename_writeTemp d calls.name calls.mtime (.intact snapshot)
  rw [renamedOps, List.append_assoc, List.append_assoc, execute_tempOps, ← h]
  rfl

theorem leavesCut_renamed :
    LeavesCut d snapshot calls (renamedOps snapshot calls) := by
  refine (leavesCut_flushed d snapshot calls).concat ?_
  have h := execute_renamed d snapshot calls []
  rw [List.append_nil] at h
  exact leaves_of_execute h (Outcome.renamed _)

/-- After the rename, the operations of the backup. -/
theorem leaves_backup {tail : List Op} {d' : Disk}
    (h : execute tail { d with
      primary := some (.intact snapshot), temps := d.others calls.name } = d')
    (hd' : Outcome d snapshot calls.name
      ((renamedOps snapshot calls ++ tail).any
        Op.isRenameBackup) d') :
    Leaves d snapshot calls
      (renamedOps snapshot calls ++ tail) :=
  leaves_of_execute ((execute_renamed d snapshot calls tail).trans h) hd'

theorem leavesCut_backup :
    LeavesCut d snapshot calls
      (renamedOps snapshot calls ++ backupOps calls) := by
  have hcopied : LeavesCut d snapshot calls (renamedOps snapshot calls ++ [Op.copyBackup]) :=
    (leavesCut_renamed d snapshot calls).concat
      (leaves_backup d snapshot calls rfl (Outcome.renamed (some (.intact snapshot))))
  have hflushed : LeavesCut d snapshot calls
      (renamedOps snapshot calls ++ ([Op.copyBackup] ++ [Op.flush])) :=
    hcopied.append
      (leaves_backup d snapshot calls rfl (Outcome.renamed (some (.intact snapshot))))
  unfold backupOps
  split
  · rw [List.append_nil]
    exact leavesCut_renamed d snapshot calls
  · split
    · exact hflushed.append (leaves_backup d snapshot calls rfl (Outcome.renamed none))
    · exact hflushed.append (leaves_backup d snapshot calls rfl (Outcome.backedUp none))

/-- Wherever a crash cuts a write. -/
theorem leavesCut_writeOps : LeavesCut d snapshot calls (writeOps snapshot calls).1 := by
  unfold writeOps
  dsimp only
  split
  · exact leavesCut_nil
  · split
    · split
      · refine (leavesCut_torn d snapshot calls).concat ?_
        exact leaves_of_execute (exec_removeTemp_writeTemp d calls.name calls.mtime _)
          Outcome.removed
      · exact leavesCut_torn d snapshot calls
    · split
      · split
        · refine (leavesCut_flushed d snapshot calls).concat ?_
          have h := execute_tempOps d snapshot calls ([Op.flush] ++ [Op.removeTemp calls.name])
          rw [← List.append_assoc] at h
          exact leaves_of_execute
            (h.trans (exec_removeTemp_writeTemp d calls.name calls.mtime _)) Outcome.removed
        · exact leavesCut_flushed d snapshot calls
      · exact leavesCut_backup d snapshot calls

/-- Wherever a crash cuts a recovery. -/
theorem leavesCut_recovery {removeOk : Bool} {ops : List Op}
    (h : d.recovery calls removeOk = some (snapshot, ops)) : LeavesCut d snapshot calls ops := by
  unfold Disk.recovery at h
  split at h
  · case h_1 name taken _ =>
      simp only [Option.some.injEq, Prod.mk.injEq] at h
      obtain ⟨rfl, rfl⟩ := h
      split
      · refine (leavesCut_writeOps d taken calls).concat ?_
        have hwrite := leavesCut_writeOps d taken calls _ (List.prefix_refl _)
        refine leaves_of_execute (List.foldl_append ..) ?_
        rw [List.any_append]
        simpa [Op.isRenameBackup, execute] using hwrite.removeTemp name
      · rw [List.append_nil]
        exact leavesCut_writeOps d taken calls
  · simp only [Option.map_eq_some_iff, Prod.mk.injEq] at h
    obtain ⟨taken, -, rfl, rfl⟩ := h
    exact leavesCut_writeOps d taken calls

end Prefixes

/-! ## What a load finds -/

/-- The tree is in a temporary or in the backup. -/
def Disk.Holds (d : Disk) (snapshot : Snapshot) : Prop :=
  (∃ temp ∈ d.temps, snapshot ∈ temp.content.read) ∨ snapshot ∈ d.readBak

theorem readTemp_mem {d : Disk} {name : ℕ} {snapshot : Snapshot}
    (h : d.readTemp = some (name, snapshot)) :
    ∃ temp ∈ d.temps, snapshot ∈ temp.content.read := by
  obtain ⟨temp, htemp, hread⟩ := List.exists_of_findSome?_eq_some h
  simp only [Option.map_eq_some_iff, Prod.mk.injEq] at hread
  obtain ⟨read, hread, -, rfl⟩ := hread
  exact ⟨temp, (List.mem_insertionSort _).mp htemp, hread⟩

theorem recovery_holds {d : Disk} {calls : WriteCalls} {removeOk : Bool} {snapshot : Snapshot}
    {ops : List Op} (h : d.recovery calls removeOk = some (snapshot, ops)) : d.Holds snapshot := by
  unfold Disk.recovery at h
  split at h
  · case h_1 name taken htaken =>
      simp only [Option.some.injEq, Prod.mk.injEq] at h
      exact Or.inl (h.1 ▸ readTemp_mem htaken)
  · simp only [Option.map_eq_some_iff, Prod.mk.injEq] at h
    obtain ⟨taken, htaken, rfl, -⟩ := h
    exact Or.inr htaken

/-- What a load returns. -/
theorem loadOrRecover_fst (d : Disk) (calls : WriteCalls) (removeOk : Bool) (crash : Option ℕ) :
    (d.loadOrRecover calls removeOk crash).1 =
      d.readPrimary.or ((d.readTemp.map (·.2)).or d.readBak) := by
  unfold Disk.loadOrRecover Disk.recovery
  cases d.readPrimary with
  | some p => rfl
  | none =>
      cases d.readTemp with
      | some taken => rfl
      | none => cases d.readBak <;> rfl

/-! ## The files of the client store -/

/-- What the model of the clients' file sees of the disk. -/
def Content.clientContent : Content → ClientStore.Content
  | .corrupt size => .unreadable size
  | .intact snapshot => .json snapshot.tree

def Disk.files (d : Disk) : ClientStore.Files where
  primary := d.primary.map Content.clientContent
  bak := d.bak.map Content.clientContent
  temps := d.recoveryTempCandidates.map (·.content.clientContent)

theorem takeReadable_map (temps : List Temp) :
    (ClientStore.Files.takeReadable (temps.map (·.content.clientContent))).map (·.1) =
      (temps.findSome? fun temp => temp.content.read.map (temp.name, ·)).map (·.2.tree) := by
  induction temps with
  | nil => rfl
  | cons temp temps ih =>
      obtain ⟨name, mtime, content⟩ := temp
      cases content with
      | corrupt size =>
          simpa [ClientStore.Files.takeReadable, Content.clientContent, Content.read,
            Function.comp_def] using ih
      | intact snapshot =>
          simp [ClientStore.Files.takeReadable, Content.clientContent, Content.read]

/-- What a parsed file holds there. -/
def clientTree : ClientStore.Content → Option Ptree
  | .unreadable _ => none
  | .json tree => some tree

theorem recovered_eq (files : ClientStore.Files) :
    files.recovered = (files.primary.bind clientTree).or
      (((ClientStore.Files.takeReadable files.temps).map (·.1)).or
        (files.bak.bind clientTree)) := by
  unfold ClientStore.Files.recovered ClientStore.Files.loadOrRecover
  rcases files.primary with _ | (size | tree)
  · rcases ClientStore.Files.takeReadable files.temps with _ | ⟨tree, rest⟩
    · rcases files.bak with _ | (size | tree) <;> rfl
    · rfl
  · rcases ClientStore.Files.takeReadable files.temps with _ | ⟨tree, rest⟩
    · rcases files.bak with _ | (size | tree) <;> rfl
    · rfl
  · rfl

theorem bind_clientTree (content : Option Content) :
    (content.map Content.clientContent).bind clientTree =
      (content.bind Content.read).map (·.tree) := by
  rcases content with _ | (size | snapshot) <;> rfl

/-- Recovery there is recovery here. -/
theorem recovered_files (d : Disk) (calls : WriteCalls) (removeOk : Bool) (crash : Option ℕ) :
    d.files.recovered = (d.loadOrRecover calls removeOk crash).1.map (·.tree) := by
  rw [recovered_eq, loadOrRecover_fst, Option.map_or, Option.map_or]
  simp only [Disk.files, bind_clientTree, takeReadable_map, Disk.readPrimary, Disk.readTemp,
    Disk.readBak, Option.map_map, Function.comp_def]

/-- The calls of a write that goes through, under a name of its own. -/
def WriteCalls.succeed (name : ℕ) : WriteCalls := ⟨name, name, true, true, true, true, true, true⟩

/-- A write that goes through under a new name is the write there. -/
theorem atomicWriteJson_files (d : Disk) (snapshot : Snapshot) {name : ℕ}
    (hname : ∀ temp ∈ d.temps, temp.name ≠ name) :
    (atomicWriteJson snapshot (.succeed name) none d).files =
      d.files.atomicWriteJson snapshot.tree := by
  have hothers : d.others name = d.temps := by
    simpa [Disk.others] using hname
  have hdisk : atomicWriteJson snapshot (.succeed name) none d =
      { d with
        primary := some (.intact snapshot), bak := some (.intact snapshot), bakTemp := none } := by
    have h := execute_renamed d snapshot (.succeed name) [.copyBackup, .flush, .renameBackup]
    rw [show (WriteCalls.succeed name).name = name from rfl, hothers] at h
    exact h
  rw [hdisk]
  rfl

end LuminalShine.StateFile
