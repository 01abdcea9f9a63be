import LuminalShine.ClientStore.Format
import Mathlib.Logic.Function.Basic

/-!
# The client store and its files

`src/state_storage.cpp` keeps every state file with a backup and recovers it from left-over
temporaries; `src/nvhttp.cpp` saves the paired clients by merging them into the tree that
is on disk and loads them from there.

A file is its parsed content; a write that succeeds leaves the written tree in the primary
and in the backup.  What the identifier generator returns is an argument.

## Main definitions

* `Files` — one state file with its backup and temporaries; `loadOrRecover`,
  `atomicWriteJson`.
* `State` — the process and its two state files.
* `saveState`, `loadState`, `addAuthorizedClient`, `unpairClient`, `eraseAllClients`,
  `resetState` — the operations.
* `SameClients` — two states of a file from which the loader takes the same certificates.
-/

namespace LuminalShine.ClientStore

open LuminalShine.Lib

/-! ## Files -/

/-- What is on disk under one name. -/
inductive Content where
  | unreadable (size : ℕ)
  | json (tree : Ptree)

/-- A state file, its `.bak` and its `.tmp` candidates, newest first. -/
structure Files where
  primary : Option Content
  bak : Option Content
  temps : List Content

namespace Files

/-- `atomic_write_json`, which also refreshes the backup. -/
def atomicWriteJson (files : Files) (tree : Ptree) : Files :=
  { files with primary := some (.json tree), bak := some (.json tree) }

/-- The newest temporary that parses, and the others. -/
def takeReadable : List Content → Option (Ptree × List Content)
  | [] => none
  | .json tree :: rest => some (tree, rest)
  | .unreadable size :: rest =>
      (takeReadable rest).map fun found => (found.1, .unreadable size :: found.2)

/-- `load_or_recover`: the primary, else a temporary, else the backup; what was recovered
becomes the primary. -/
def loadOrRecover (files : Files) : Option Ptree × Files :=
  match files.primary with
  | some (.json tree) => (some tree, files)
  | _ =>
      match takeReadable files.temps with
      | some (tree, rest) => (some tree, { files.atomicWriteJson tree with temps := rest })
      | none =>
          match files.bak with
          | some (.json tree) => (some tree, files.atomicWriteJson tree)
          | _ => (none, files)

/-- `load_state` deletes an empty primary that has no backup. -/
def removeEmptyPrimary (files : Files) : Files :=
  match files.primary, files.bak with
  | some (.unreadable 0), none => { files with primary := none }
  | _, _ => files

/-- `reset_state` renames the primary and the backup away. -/
def archive (files : Files) : Files := { files with primary := none, bak := none }

end Files

/-! ## The process -/

inductive StatePath where
  | sunshine
  | luminalshine
  deriving DecidableEq, Repr

/-- `luminalshine_state_path()` is the other file, or the same one when none is
configured. -/
structure Config where
  luminalshineStatePath : StatePath
  windows : Bool
  deriving DecidableEq, Repr

/-- What `uuid_t::generate` returns during one call. -/
structure Generated where
  uniqueId : String
  uuid : ℕ → String

/-- `client_root`, `http::unique_id`, the markers saved along, the once-flag of the
migration, the `FRESH_STATE` flag, and the disk. -/
structure State where
  clients : List NamedCert
  uniqueId : String
  lastNotifiedVersion : String
  sharedVirtualDisplayGuid : String
  migrated : Bool
  freshState : Bool
  fs : StatePath → Files

namespace State

/-- `load_or_recover` on a path. -/
def loadAt (fs : StatePath → Files) (path : StatePath) : Option Ptree × (StatePath → Files) :=
  ((fs path).loadOrRecover.1, Function.update fs path (fs path).loadOrRecover.2)

/-- `atomic_write_json` on a path. -/
def writeAt (fs : StatePath → Files) (path : StatePath) (tree : Ptree) : StatePath → Files :=
  Function.update fs path ((fs path).atomicWriteJson tree)

end State

/-! ## `migrate_recent_state_keys` -/

/-- The two trees while keys move from one to the other. -/
structure Migration where
  oldRoot : Ptree
  newTree : Ptree
  oldModified : Bool := false
  newModified : Bool := false

namespace Migration

/-- `move_child`. -/
def moveChild (m : Migration) (key : String) : Migration :=
  match m.oldRoot.find? key with
  | none => m
  | some child =>
      let newRoot := rootOf m.newTree
      let moved := newRoot.find? key = none
      { oldRoot := m.oldRoot.eraseFirst key
        newTree := m.newTree.set "root" (if moved then newRoot.putChild child [key] else newRoot)
        oldModified := true
        newModified := m.newModified || moved }

/-- The same for `last_notified_version`, which is a text. -/
def moveVersion (m : Migration) : Migration :=
  match m.oldRoot.find? "last_notified_version" with
  | none => m
  | some last =>
      let newRoot := rootOf m.newTree
      let moved := newRoot.find? "last_notified_version" = none
      { oldRoot := m.oldRoot.erase "last_notified_version"
        newTree := m.newTree.set "root"
          (if moved then newRoot.put last.data ["last_notified_version"] else newRoot)
        oldModified := true
        newModified := m.newModified || moved }

/-- All keys that move. -/
def run (oldRoot newTree : Ptree) : Migration :=
  (((⟨oldRoot, newTree, false, false⟩ : Migration).moveChild "api_tokens").moveChild
    "session_tokens").moveVersion

end Migration

namespace State

variable (conf : Config)

/-- `migrate_recent_state_keys`, once per process. -/
def migrateRecentStateKeys (s : State) : State :=
  if s.migrated then s
  else if conf.luminalshineStatePath = .sunshine then { s with migrated := true }
  else
    let old := loadAt s.fs .sunshine
    let new := loadAt old.2 conf.luminalshineStatePath
    match old.1.bind fun tree => (tree.find? "root").map fun root => (tree, root) with
    | none => { s with migrated := true, fs := new.2 }
    | some (oldTree, oldRoot) =>
        let m := Migration.run oldRoot (new.1.getD .empty)
        let fs := if m.newModified then writeAt new.2 conf.luminalshineStatePath m.newTree
          else new.2
        let fs := if m.oldModified then writeAt fs .sunshine (oldTree.set "root" m.oldRoot) else fs
        { s with migrated := true, fs := fs }

/-! ## `save_state` and `load_state` -/

/-- `client_last_seen`: every identifier is a path. -/
def lastSeenNode (clients : List NamedCert) : Ptree :=
  clients.foldl (fun node c =>
    match c.lastSeen with
    | none => node
    | some seen => node.put seen.toInt.repr (fragments c.uuid)) .empty

/-- The second tree of `save_state`. -/
def writeMarkers (s : State) (tree : Ptree) : Ptree :=
  let root := (rootOf tree).put s.lastNotifiedVersion ["last_notified_version"]
  let root := if conf.windows && s.sharedVirtualDisplayGuid ≠ "" then
    root.put s.sharedVirtualDisplayGuid ["shared_virtual_display_guid"] else root
  tree.set "root" (root.putChild (lastSeenNode s.clients) ["client_last_seen"])

/-- `save_state`. -/
def saveState (s : State) : State :=
  let s := s.migrateRecentStateKeys conf
  let loaded := loadAt s.fs .sunshine
  let fs := writeAt loaded.2 .sunshine
    (writeClients (loaded.1.getD .empty) s.uniqueId s.clients)
  let markers := loadAt fs conf.luminalshineStatePath
  { s with
    fs := writeAt markers.2 conf.luminalshineStatePath
      (s.writeMarkers conf (markers.1.getD .empty)) }

/-- A text of the marker file. -/
def markerText (tree : Option Ptree) (key : String) : String :=
  (tree.map fun t => readText (rootOf t) key).getD ""

/-- `load_state`.  A client that cannot be read throws before the list is replaced. -/
def loadState (generated : Generated) (s : State) : State :=
  let s := s.migrateRecentStateKeys conf
  let loaded := loadAt s.fs .sunshine
  match loaded.1 with
  | none =>
      { s with
        uniqueId := generated.uniqueId
        lastNotifiedVersion := ""
        fs := Function.update loaded.2 .sunshine (loaded.2 .sunshine).removeEmptyPrimary }
  | some tree =>
      match (rootOf tree).find? "uniqueid" with
      | none => { s with uniqueId := generated.uniqueId, fs := loaded.2 }
      | some uniqueId =>
          let markers := loadAt loaded.2 conf.luminalshineStatePath
          { s with
            clients :=
              (readClients generated.uuid ((rootOf tree).find? "devices")
                ((rootOf tree).find? "named_devices")).getD s.clients
            uniqueId := uniqueId.data
            lastNotifiedVersion := markerText markers.1 "last_notified_version"
            sharedVirtualDisplayGuid :=
              if conf.windows then markerText markers.1 "shared_virtual_display_guid"
              else s.sharedVirtualDisplayGuid
            fs := markers.2 }

/-! ## Operations -/

/-- `add_authorized_client`. -/
def addAuthorizedClient (name cert uuid : String) (s : State) : State :=
  let s := { s with clients := s.clients ++ [{ name := name, uuid := uuid, cert := cert }] }
  if s.freshState then s else s.saveState conf

/-- The entries `unpair_client` erases. -/
def unpaired (uuid : String) (s : State) : List NamedCert := s.clients.filter (·.uuid = uuid)

/-- `unpair_client`. -/
def unpairClient (uuid : String) (generated : Generated) (s : State) : State :=
  (State.saveState conf { s with clients := s.clients.filter (·.uuid ≠ uuid) }).loadState conf
    generated

/-- `erase_all_clients`. -/
def eraseAllClients (s : State) : State := State.saveState conf { s with clients := [] }

/-- `reset_state`, when the files can be renamed. -/
def resetState (generated : Generated) (s : State) : State :=
  let fs := Function.update s.fs .sunshine (s.fs .sunshine).archive
  let fs := Function.update fs conf.luminalshineStatePath (fs conf.luminalshineStatePath).archive
  State.saveState conf { s with clients := [], uniqueId := generated.uniqueId, fs := fs }

/-- A new process: nothing but the disk survives. -/
def start (freshState : Bool) (generated : Generated) (fs : StatePath → Files) : State :=
  let s : State :=
    { clients := []
      uniqueId := ""
      lastNotifiedVersion := ""
      sharedVirtualDisplayGuid := ""
      migrated := false
      freshState := freshState
      fs := fs }
  if freshState then s else s.loadState conf generated

end State

/-! ## What the loader takes from a file -/

namespace Files

variable {files : Files}

/-- The tree a load sees. -/
def recovered (files : Files) : Option Ptree := files.loadOrRecover.1

/-- A child of its root. -/
def node (files : Files) (key : String) : Option Ptree :=
  files.recovered.bind fun tree => (rootOf tree).find? key

/-- The certificates it imports from the old format. -/
def legacy (files : Files) : List String := legacyCerts (files.node "devices")

/-- The certificates of the clients it lists. -/
def named (files : Files) : List String := namedCerts (files.node "named_devices")

/-- The primary parses, so nothing has to be recovered. -/
def Readable (files : Files) : Prop := ∃ tree, files.primary = some (.json tree)

theorem recovered_of_primary {tree : Ptree} (h : files.primary = some (.json tree)) :
    files.recovered = some tree := by
  rw [recovered, loadOrRecover, h]

@[simp] theorem recovered_atomicWriteJson (tree : Ptree) :
    (files.atomicWriteJson tree).recovered = some tree := recovered_of_primary rfl

theorem node_of_recovered {tree : Ptree} (h : files.recovered = some tree) (key : String) :
    files.node key = (rootOf tree).find? key := by
  rw [node, h, Option.bind_some]

/-- A load that finds a tree leaves it in the primary; one that finds none changes
nothing. -/
theorem loadOrRecover_cases (files : Files) :
    (∃ tree, files.loadOrRecover.1 = some tree ∧
      files.loadOrRecover.2.primary = some (.json tree)) ∨
    (files.loadOrRecover.1 = none ∧ files.loadOrRecover.2 = files) := by
  simp only [loadOrRecover]
  split
  · rename_i tree hprimary
    exact .inl ⟨tree, rfl, hprimary⟩
  · split
    · rename_i tree rest _
      exact .inl ⟨tree, rfl, rfl⟩
    · split
      · rename_i tree _
        exact .inl ⟨tree, rfl, rfl⟩
      · exact .inr ⟨rfl, rfl⟩

/-- A load leaves behind what the next load sees again. -/
theorem recovered_loadOrRecover : files.loadOrRecover.2.recovered = files.recovered := by
  rcases files.loadOrRecover_cases with ⟨tree, hfound, hprimary⟩ | ⟨_, hsame⟩
  · rw [recovered_of_primary hprimary, recovered, hfound]
  · rw [hsame]

theorem Readable.loadOrRecover (h : files.Readable) : files.loadOrRecover.2 = files := by
  obtain ⟨tree, hprimary⟩ := h
  rw [Files.loadOrRecover, hprimary]

theorem recovered_removeEmptyPrimary (h : files.recovered = none) :
    files.removeEmptyPrimary.recovered = none := by
  simp only [removeEmptyPrimary]
  split
  · rename_i hprimary hbak
    cases htemps : takeReadable files.temps with
    | none => simp [recovered, loadOrRecover, hbak, htemps]
    | some found => simp [recovered, loadOrRecover, hprimary, htemps] at h
  · exact h

end Files

/-- The keys `load_state` reads the clients from. -/
def clientKeys : List String := ["uniqueid", "devices", "named_devices"]

theorem ne_of_mem_clientKeys {key key' : String} (h : key ∈ clientKeys) (h' : key' ∉ clientKeys) :
    key ≠ key' := fun heq => h' (heq ▸ h)

/-- The loader takes the same clients from both, and what could be read directly still
can. -/
structure SameClients (files files' : Files) : Prop where
  readable : files.Readable → files'.Readable
  node : ∀ key ∈ clientKeys, files'.node key = files.node key

namespace SameClients

variable {files files' files'' : Files}

theorem refl (files : Files) : SameClients files files := ⟨id, fun _ _ => rfl⟩

theorem trans (h : SameClients files files') (h' : SameClients files' files'') :
    SameClients files files'' :=
  ⟨h'.readable ∘ h.readable, fun key hkey => (h'.node key hkey).trans (h.node key hkey)⟩

theorem legacy (h : SameClients files files') : files'.legacy = files.legacy := by
  rw [Files.legacy, h.node "devices" (by decide), Files.legacy]

theorem named (h : SameClients files files') : files'.named = files.named := by
  rw [Files.named, h.node "named_devices" (by decide), Files.named]

theorem of_recovered (hreadable : files.Readable → files'.Readable)
    (h : files'.recovered = files.recovered) : SameClients files files' :=
  ⟨hreadable, fun key _ => by rw [Files.node, h, Files.node]⟩

theorem removeEmptyPrimary (h : files.recovered = none) :
    SameClients files files.removeEmptyPrimary := by
  refine .of_recovered ?_ (by rw [Files.recovered_removeEmptyPrimary h, h])
  rintro ⟨tree, hprimary⟩
  rw [Files.recovered_of_primary hprimary] at h
  cases h

/-- A tree may be written over one that agrees with it on the client keys. -/
theorem atomicWriteJson {tree tree' : Ptree} (hrecovered : files.recovered = some tree)
    (h : ∀ key ∈ clientKeys, (rootOf tree').find? key = (rootOf tree).find? key) :
    SameClients files (files.atomicWriteJson tree') := by
  refine ⟨fun _ => ⟨tree', rfl⟩, fun key hkey => ?_⟩
  rw [Files.node_of_recovered (Files.recovered_atomicWriteJson tree'),
    Files.node_of_recovered hrecovered, h key hkey]

end SameClients

@[simp] theorem rootOf_set (tree root : Ptree) : rootOf (tree.set "root" root) = root := by
  rw [rootOf, Ptree.find?_set_self, Option.getD_some]

/-! ### The migration -/

namespace Migration

theorem find?_moveChild {m : Migration} {key key' : String} (h : key' ≠ key) :
    (m.moveChild key).oldRoot.find? key' = m.oldRoot.find? key' := by
  simp only [moveChild]
  split
  · rfl
  · exact Ptree.find?_eraseFirst_ne _ h

theorem find?_moveVersion {m : Migration} {key : String} (h : key ≠ "last_notified_version") :
    m.moveVersion.oldRoot.find? key = m.oldRoot.find? key := by
  simp only [moveVersion]
  split
  · rfl
  · exact Ptree.find?_erase_ne _ h

/-- The migration takes none of the keys the client list is read from. -/
theorem find?_run {oldRoot newTree : Ptree} {key : String} (h : key ∈ clientKeys) :
    (run oldRoot newTree).oldRoot.find? key = oldRoot.find? key := by
  rw [run, find?_moveVersion (ne_of_mem_clientKeys h (by decide)),
    find?_moveChild (ne_of_mem_clientKeys h (by decide)),
    find?_moveChild (ne_of_mem_clientKeys h (by decide))]

end Migration

namespace State

variable {conf : Config}

@[simp] theorem loadAt_fst (fs : StatePath → Files) (path : StatePath) :
    (loadAt fs path).1 = (fs path).recovered := rfl

theorem recovered_loadAt (fs : StatePath → Files) (path path' : StatePath) :
    ((loadAt fs path).2 path').recovered = (fs path').recovered := by
  by_cases h : path' = path
  · subst h
    simp [loadAt, Files.recovered_loadOrRecover]
  · simp [loadAt, Function.update_of_ne h]

theorem loadAt_sameClients (fs : StatePath → Files) (path path' : StatePath) :
    SameClients (fs path') ((loadAt fs path).2 path') := by
  refine .of_recovered ?_ (recovered_loadAt fs path path')
  intro hreadable
  by_cases h : path' = path
  · subst h
    simpa [loadAt, hreadable.loadOrRecover] using hreadable
  · simpa [loadAt, Function.update_of_ne h] using hreadable

theorem writeAt_self (fs : StatePath → Files) (path : StatePath) (tree : Ptree) :
    writeAt fs path tree path = (fs path).atomicWriteJson tree := by
  rw [writeAt, Function.update_self]

theorem writeAt_of_ne {path path' : StatePath} (fs : StatePath → Files) (tree : Ptree)
    (h : path' ≠ path) : writeAt fs path tree path' = fs path' := by
  rw [writeAt, Function.update_of_ne h]

variable (conf)

theorem migrateRecentStateKeys_clients (s : State) :
    (s.migrateRecentStateKeys conf).clients = s.clients := by
  simp only [migrateRecentStateKeys]
  split
  · rfl
  · split
    · rfl
    · split <;> rfl

theorem migrateRecentStateKeys_sameClients (s : State) :
    SameClients (s.fs .sunshine) ((s.migrateRecentStateKeys conf).fs .sunshine) := by
  simp only [migrateRecentStateKeys]
  split
  · exact .refl _
  · split
    · exact .refl _
    · rename_i hpath
      have hold := loadAt_sameClients s.fs .sunshine .sunshine
      have hnew := loadAt_sameClients (loadAt s.fs .sunshine).2 conf.luminalshineStatePath .sunshine
      split
      · exact hold.trans hnew
      · rename_i oldTree oldRoot hfound
        refine (hold.trans hnew).trans ?_
        obtain ⟨tree, hloaded, hroot⟩ := Option.bind_eq_some_iff.mp hfound
        obtain ⟨root, hfind, heq⟩ := Option.map_eq_some_iff.mp hroot
        cases heq
        have hrecovered : ((loadAt (loadAt s.fs .sunshine).2 conf.luminalshineStatePath).2
            .sunshine).recovered = some oldTree := by
          rw [recovered_loadAt, recovered_loadAt]
          exact hloaded
        generalize (loadAt (loadAt s.fs .sunshine).2 conf.luminalshineStatePath).2 = fs at hrecovered ⊢
        -- the marker file is another one, so only the write of the old tree counts
        generalize hfs : (if (Migration.run oldRoot _).newModified = true then _ else fs) = fs'
        have hsame : fs' .sunshine = fs .sunshine := by
          rw [← hfs]
          split
          · exact writeAt_of_ne _ _ (Ne.symm hpath)
          · rfl
        rw [← hsame] at hrecovered ⊢
        split
        · have hroot : rootOf oldTree = oldRoot := by rw [rootOf, hfind, Option.getD_some]
          simp only [writeAt_self]
          refine .atomicWriteJson hrecovered fun key hkey => ?_
          rw [rootOf_set, hroot, Migration.find?_run hkey]
        · exact .refl _

/-! ### Saving and loading -/

theorem find?_writeMarkers (s : State) (tree : Ptree) {key : String} (h : key ∈ clientKeys) :
    (rootOf (s.writeMarkers conf tree)).find? key = (rootOf tree).find? key := by
  rw [writeMarkers, rootOf_set, Ptree.find?_putChild_ne _ _ (ne_of_mem_clientKeys h (by decide))]
  split
  · rw [Ptree.find?_put_ne _ _ (ne_of_mem_clientKeys h (by decide)),
      Ptree.find?_put_ne _ _ (ne_of_mem_clientKeys h (by decide))]
  · rw [Ptree.find?_put_ne _ _ (ne_of_mem_clientKeys h (by decide))]

/-- The markers that are saved after the clients leave them alone, also when they go into
the same file. -/
theorem saveMarkers_sameClients (s : State) {fs : StatePath → Files} {tree : Ptree}
    (hrecovered : (fs .sunshine).recovered = some tree) :
    SameClients (fs .sunshine) (writeAt (loadAt fs conf.luminalshineStatePath).2
      conf.luminalshineStatePath
      (s.writeMarkers conf ((loadAt fs conf.luminalshineStatePath).1.getD .empty)) .sunshine) := by
  refine (loadAt_sameClients fs conf.luminalshineStatePath .sunshine).trans ?_
  by_cases hpath : conf.luminalshineStatePath = .sunshine
  · rw [hpath, loadAt_fst, hrecovered, Option.getD_some, writeAt_self]
    exact .atomicWriteJson ((recovered_loadAt _ _ _).trans hrecovered)
      fun key hkey => find?_writeMarkers conf s tree hkey
  · rw [writeAt_of_ne _ _ (Ne.symm hpath)]
    exact .refl _

/-- **A save.**  The primary can be read, lists exactly the clients in memory, and still
has the old devices it had before. -/
theorem saveState_files (s : State) :
    ((s.saveState conf).fs .sunshine).Readable ∧
    ((s.saveState conf).fs .sunshine).node "devices" = (s.fs .sunshine).node "devices" ∧
    ((s.saveState conf).fs .sunshine).node "named_devices" = some (namedDevicesNode s.clients) ∧
    (((s.saveState conf).fs .sunshine).node "uniqueid").isSome := by
  have hmigrated := migrateRecentStateKeys_sameClients conf s
  have hclients := migrateRecentStateKeys_clients conf s
  simp only [saveState]
  generalize s.migrateRecentStateKeys conf = s₁ at hmigrated hclients ⊢
  let tree := writeClients ((loadAt s₁.fs .sunshine).1.getD .empty) s₁.uniqueId s₁.clients
  let fs := writeAt (loadAt s₁.fs .sunshine).2 .sunshine tree
  have hwritten : fs .sunshine = ((loadAt s₁.fs .sunshine).2 .sunshine).atomicWriteJson tree :=
    writeAt_self _ _ _
  have hrecovered : (fs .sunshine).recovered = some tree := by
    rw [hwritten, Files.recovered_atomicWriteJson]
  have hmarkers := saveMarkers_sameClients conf s₁ hrecovered
  refine ⟨hmarkers.readable ⟨tree, by rw [hwritten]; rfl⟩, ?_, ?_, ?_⟩
  · rw [← hmigrated.node "devices" (by decide)]
    refine (hmarkers.node "devices" (by decide)).trans ?_
    rw [Files.node_of_recovered hrecovered, find?_devices_writeClients, loadAt_fst, Files.node]
    cases (s₁.fs .sunshine).recovered <;> rfl
  · rw [← hclients]
    refine (hmarkers.node "named_devices" (by decide)).trans ?_
    rw [Files.node_of_recovered hrecovered, find?_named_devices_writeClients]
  · have huniqueid := hmarkers.node "uniqueid" (by decide)
    rw [Files.node_of_recovered hrecovered] at huniqueid
    exact huniqueid ▸ find?_uniqueid_writeClients _ _ _

/-- A load keeps the file as it is for the next load. -/
theorem loadState_sameClients (generated : Generated) (s : State) :
    SameClients (s.fs .sunshine) ((s.loadState conf generated).fs .sunshine) := by
  have hmigrated := migrateRecentStateKeys_sameClients conf s
  simp only [loadState]
  generalize s.migrateRecentStateKeys conf = s₁ at hmigrated ⊢
  have hloaded := hmigrated.trans (loadAt_sameClients s₁.fs .sunshine .sunshine)
  split
  · rename_i hnone
    refine hloaded.trans ?_
    simp only [Function.update_self]
    exact .removeEmptyPrimary ((recovered_loadAt _ _ _).trans hnone)
  · split
    · exact hloaded
    · exact hloaded.trans (loadAt_sameClients _ _ _)

/-- **A load.**  The clients stay, unless the file has an identifier and its clients can be
read: then they are these. -/
theorem loadState_clients (generated : Generated) (s : State) :
    (s.loadState conf generated).clients =
      if ((s.fs .sunshine).node "uniqueid").isSome then
        (readClients generated.uuid ((s.fs .sunshine).node "devices")
          ((s.fs .sunshine).node "named_devices")).getD s.clients
      else s.clients := by
  have hmigrated := migrateRecentStateKeys_sameClients conf s
  have hclients := migrateRecentStateKeys_clients conf s
  simp only [loadState]
  generalize s.migrateRecentStateKeys conf = s₁ at hmigrated hclients ⊢
  rw [← hmigrated.node "uniqueid" (by decide), ← hmigrated.node "devices" (by decide),
    ← hmigrated.node "named_devices" (by decide), ← hclients]
  split
  · rename_i hnone
    have hrecovered : (s₁.fs .sunshine).recovered = none := hnone
    simp [Files.node, hrecovered]
  · rename_i tree htree
    have hrecovered : (s₁.fs .sunshine).recovered = some tree := htree
    simp only [Files.node_of_recovered hrecovered]
    split
    · rename_i huniqueid
      simp [huniqueid]
    · rename_i uniqueId huniqueid
      simp only [huniqueid, Option.isSome_some, if_true]

end State

end LuminalShine.ClientStore
