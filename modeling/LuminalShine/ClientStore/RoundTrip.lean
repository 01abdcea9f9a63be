import LuminalShine.ClientStore.Concurrent

/-!
# What the client store gives back

A save writes the clients into the tree that is on disk, and the next process reads them from
there.  The JSON writer refuses a tree in which a node has a text and children, and then the
file stays as it was.  An override key goes through the tree as a path, so a key with a dot
comes back under its first fragment, without its value, and an empty key does not come back.

What a process reads from a file of this store has fragment keys only.  So the list comes back
exactly when its keys are fragments, and `clientList_roundTrip_iff` says so for every list that the
operations of any number of processes have produced.

## Main definitions

* `saveState` — `save_state` with the check of the JSON writer.
* `Op`, `step` — the operations, one process after the other.
* `Ours`, `Inv` — what is on disk.
-/

namespace LuminalShine.ClientStore.RoundTrip

open LuminalShine.Lib
open LuminalShine.ClientStore.Concurrent (Update DeviceInfo updateFirst)

variable (conf : Config)

/-! ## The operations -/

/-- `save_state`.  A file is written if its tree fits a JSON text. -/
def saveState (s : State) : State :=
  let s := s.migrateRecentStateKeys conf
  let loaded := State.loadAt s.fs .sunshine
  let tree := writeClients (loaded.1.getD .empty) s.uniqueId s.clients
  if tree.writable then
    let markers := State.loadAt (State.writeAt loaded.2 .sunshine tree) conf.luminalshineStatePath
    let marked := s.writeMarkers conf (markers.1.getD .empty)
    { s with
      fs := if marked.writable then State.writeAt markers.2 conf.luminalshineStatePath marked
        else markers.2 }
  else { s with fs := loaded.2 }

/-- `generated` is what the identifier generator returns in that operation. -/
inductive Op where
  | update (u : Update) (generated : Generated)
  | markClientLastSeen (uuid : String) (now : Int64)
  | restart (freshState : Bool) (generated : Generated)

/-- Save, and load again where the operation does. -/
def applyUpdate (u : Update) (generated : Generated) (s : State) : State :=
  let changed := { s with clients := u.apply s.clients }
  if u.saves s.freshState s.clients then
    let saved := saveState conf changed
    if u.reloads then saved.loadState conf generated else saved
  else changed

/-- `mark_client_last_seen`. -/
def markClientLastSeen (uuid : String) (now : Int64) (s : State) : State :=
  let seen := updateFirst uuid (fun c => { c with lastSeen := some now }) s.clients
  if uuid = "" ∨ seen = s.clients then s
  else if s.freshState then { s with clients := seen }
  else saveState conf { s with clients := seen }

def step (s : State) : Op → Option State
  | .update u generated => some (applyUpdate conf u generated s)
  | .markClientLastSeen uuid now => some (markClientLastSeen conf uuid now s)
  | .restart freshState generated => some (State.start conf freshState generated s.fs)

theorem data_overridesNode {o : Overrides} (h : ∀ entry ∈ o.entries, IsKey entry.1) :
    (overridesNode o).data = "" := by
  suffices hgen : ∀ (entries : List (String × String)) (node : Ptree),
      (∀ entry ∈ entries, IsKey entry.1) →
      (entries.foldl (fun node entry => node.put entry.2 (fragments entry.1)) node).data =
        node.data from hgen o.entries .empty h
  intro entries
  induction entries with
  | nil => intros; rfl
  | cons entry entries ih =>
      intro node hkeys
      rw [List.foldl_cons, ih _ (fun e he => hkeys e (List.mem_cons_of_mem _ he)),
        fragments_of_isKey (hkeys entry List.mem_cons_self)]
      rfl

theorem separated_overridesNode {o : Overrides} (h : ∀ entry ∈ o.entries, IsKey entry.1) :
    (overridesNode o).separated = true := by
  rw [Ptree.separated_iff, overridesNode_children h, data_overridesNode h]
  refine ⟨.inl rfl, fun child hchild => ?_⟩
  obtain ⟨entry, -, rfl⟩ := List.mem_map.mp hchild
  exact Ptree.separated_leaf _

theorem separated_of_mem_textNode {value : String} : ∀ t ∈ textNode value, t.separated = true := by
  intro t ht
  simp only [textNode] at ht
  split at ht
  · simp at ht
  · obtain rfl := Option.some.inj ht
    exact Ptree.separated_leaf _

theorem separated_of_mem_map_leaf {α : Type} (value : Option α) (text : α → String) :
    ∀ t ∈ value.map fun x => Ptree.leaf (text x), t.separated = true := by
  intro t ht
  obtain ⟨x, -, rfl⟩ := Option.map_eq_some_iff.mp ht
  exact Ptree.separated_leaf _

theorem separated_namedCertNode {c : NamedCert} (h : Storable c) :
    (namedCertNode c).separated = true := by
  refine Ptree.separated_of_writable ?_
  have hoverrides : ∀ t ∈ (if c.configOverrides.entries = [] then none
      else some (overridesNode c.configOverrides)), t.separated = true := by
    intro t ht
    split at ht
    · simp at ht
    · obtain rfl := Option.some.inj ht
      exact separated_overridesNode h
  have halways : ∀ t ∈ (if c.alwaysUseVirtualDisplay then some (Ptree.leaf (boolText true))
      else none), t.separated = true := by
    intro t ht
    split at ht
    · obtain rfl := Option.some.inj ht
      exact Ptree.separated_leaf _
    · simp at ht
  refine Ptree.writable_putOptional _ ?_ hoverrides
  refine Ptree.writable_putOptional _ ?_ (separated_of_mem_map_leaf _ _)
  refine Ptree.writable_putOptional _ ?_ (separated_of_mem_map_leaf _ _)
  refine Ptree.writable_putOptional _ ?_ halways
  refine Ptree.writable_putOptional _ ?_ separated_of_mem_textNode
  refine Ptree.writable_putOptional _ ?_ separated_of_mem_textNode
  refine Ptree.writable_putOptional _ ?_ separated_of_mem_textNode
  refine Ptree.writable_putOptional _ ?_ separated_of_mem_textNode
  refine Ptree.writable_putOptional _ ?_ separated_of_mem_textNode
  refine Ptree.writable_set _ ?_ (Ptree.separated_leaf _)
  refine Ptree.writable_set _ ?_ (Ptree.separated_leaf _)
  exact Ptree.writable_set _ Ptree.writable_empty (Ptree.separated_leaf _)

theorem separated_namedDevicesNode {clients : List NamedCert} (h : ∀ c ∈ clients, Storable c) :
    (namedDevicesNode clients).separated = true := by
  rw [Ptree.separated_iff]
  refine ⟨.inl rfl, fun child hchild => ?_⟩
  obtain ⟨c, hc, rfl⟩ := List.mem_map.mp hchild
  exact separated_namedCertNode (h c hc)

/-! ## The disk -/

/-- A tree that this store has written. -/
structure Ours (tree : Ptree) : Prop where
  writable : tree.writable = true
  devices : (rootOf tree).find? "devices" = none
  uniqueid : ∃ u, (rootOf tree).find? "uniqueid" = some (.leaf u)
  named : ∃ clients, (rootOf tree).find? "named_devices" = some (namedDevicesNode clients)

/-- The file is there and ours, or there is none. -/
def Inv (fs : StatePath → Files) : Prop :=
  ∀ tree, (fs .sunshine).recovered = some tree → Ours tree

theorem inv_of_recovered {fs fs' : StatePath → Files} (h : Inv fs)
    (hsame : (fs' .sunshine).recovered = (fs .sunshine).recovered) : Inv fs' :=
  fun tree htree => h tree (hsame ▸ htree)

theorem Ours.find?_root {tree : Ptree} (h : Ours tree) :
    tree.find? "root" = some (rootOf tree) := by
  obtain ⟨u, hu⟩ := h.uniqueid
  simp only [rootOf] at hu ⊢
  cases hroot : tree.find? "root" with
  | none => simp [hroot] at hu
  | some root => rfl

/-- The root has children, so it has no text. -/
theorem Ours.writable_root {tree : Ptree} (h : Ours tree) : (rootOf tree).writable = true := by
  have hsep : (rootOf tree).separated = true :=
    Ptree.separated_of_find? (Ptree.separated_of_writable h.writable) h.find?_root
  obtain ⟨hdata, hchildren⟩ := (Ptree.separated_iff _).mp hsep
  refine (Ptree.writable_iff _).mpr ⟨hdata.resolve_right fun hnil => ?_, hchildren⟩
  obtain ⟨u, hu⟩ := h.uniqueid
  simp [Ptree.find?, hnil] at hu

/-- A tree that agrees with ours on the client keys is ours. -/
theorem Ours.of_find? {tree tree' : Ptree} (h : Ours tree) (hwritable : tree'.writable = true)
    (hsame : ∀ key ∈ clientKeys, (rootOf tree').find? key = (rootOf tree).find? key) :
    Ours tree' where
  writable := hwritable
  devices := (hsame _ (by decide)).trans h.devices
  uniqueid := by
    rw [hsame _ (by decide)]
    exact h.uniqueid
  named := by
    rw [hsame _ (by decide)]
    exact h.named

/-! ### The migration -/

theorem separated_run {oldRoot newTree : Ptree} (h : oldRoot.separated = true) :
    (Migration.run oldRoot newTree).oldRoot.separated = true := by
  have hchild : ∀ (m : Migration) (key : String), m.oldRoot.separated = true →
      (m.moveChild key).oldRoot.separated = true := by
    intro m key hm
    simp only [Migration.moveChild]
    split
    · exact hm
    · exact Ptree.separated_eraseFirst key hm
  have hversion : ∀ m : Migration, m.oldRoot.separated = true →
      m.moveVersion.oldRoot.separated = true := by
    intro m hm
    simp only [Migration.moveVersion]
    split
    · exact hm
    · exact Ptree.separated_erase _ hm
  exact hversion _ (hchild _ _ (hchild _ _ h))

theorem inv_migrate {s : State} (h : Inv s.fs) : Inv (s.migrateRecentStateKeys conf).fs := by
  simp only [State.migrateRecentStateKeys]
  split
  · exact h
  · split
    · exact h
    · rename_i hpath
      have hloaded : Inv (State.loadAt (State.loadAt s.fs .sunshine).2
          conf.luminalshineStatePath).2 :=
        inv_of_recovered h (by rw [State.recovered_loadAt, State.recovered_loadAt])
      split
      · exact hloaded
      · rename_i oldTree oldRoot hfound
        obtain ⟨tree, htree, hroot⟩ := Option.bind_eq_some_iff.mp hfound
        obtain ⟨root, hfind, heq⟩ := Option.map_eq_some_iff.mp hroot
        cases heq
        have hours : Ours oldTree := h oldTree htree
        generalize (State.loadAt (State.loadAt s.fs .sunshine).2 conf.luminalshineStatePath).2
          = fs at hloaded ⊢
        -- the marker file is another one, so only the write of the old tree counts
        generalize hfs : (if (Migration.run oldRoot _).newModified = true then _ else fs) = fs'
        have hsame : fs' .sunshine = fs .sunshine := by
          rw [← hfs]
          split
          · exact State.writeAt_of_ne _ _ (Ne.symm hpath)
          · rfl
        have hinv : Inv fs' := inv_of_recovered hloaded (by rw [hsame])
        split
        · intro tree' htree'
          dsimp only at htree'
          rw [State.writeAt_self, Files.recovered_atomicWriteJson] at htree'
          obtain rfl := Option.some.inj htree'
          have hrootOf : rootOf oldTree = oldRoot := by rw [rootOf, hfind, Option.getD_some]
          refine hours.of_find? ?_ fun key hkey => ?_
          · refine Ptree.writable_set _ hours.writable (separated_run ?_)
            rw [← hrootOf]
            exact Ptree.separated_of_writable hours.writable_root
          · rw [rootOf_set, hrootOf, Migration.find?_run hkey]
        · exact hinv

/-! ### Saves and loads -/

theorem inv_loadState {s : State} (h : Inv s.fs) (generated : Generated) :
    Inv (s.loadState conf generated).fs := by
  have hmigrated := inv_migrate conf h
  simp only [State.loadState]
  generalize s.migrateRecentStateKeys conf = s₁ at hmigrated ⊢
  have hloaded : Inv (State.loadAt s₁.fs .sunshine).2 :=
    inv_of_recovered hmigrated (State.recovered_loadAt _ _ _)
  split
  · rename_i hnone
    intro tree htree
    dsimp only at htree
    rw [Function.update_self, Files.recovered_removeEmptyPrimary
      ((State.recovered_loadAt _ _ _).trans hnone)] at htree
    simp at htree
  · split
    · exact hloaded
    · exact inv_of_recovered hloaded (State.recovered_loadAt _ _ _)

theorem inv_start {fs : StatePath → Files} (h : Inv fs) (freshState : Bool)
    (generated : Generated) : Inv (State.start conf freshState generated fs).fs := by
  simp only [State.start]
  split
  · exact h
  · exact inv_loadState conf h generated

/-- The tree that the clients are written into. -/
def writtenTree (s : State) : Ptree :=
  writeClients ((s.fs .sunshine).recovered.getD .empty) s.uniqueId s.clients

section Save

variable {conf} {s : State}

/-- What the clients are written into. -/
theorem writable_onDisk (h : Inv s.fs) :
    ((s.fs .sunshine).recovered.getD .empty).writable = true ∧
      (rootOf ((s.fs .sunshine).recovered.getD .empty)).writable = true ∧
      (((rootOf ((s.fs .sunshine).recovered.getD .empty)).find? "uniqueid").getD
        .empty).children = [] := by
  cases htree : (s.fs .sunshine).recovered with
  | none =>
      rw [Option.getD_none]
      exact ⟨Ptree.writable_empty, Ptree.writable_empty, rfl⟩
  | some tree =>
      have hours := h tree htree
      obtain ⟨u, hu⟩ := hours.uniqueid
      rw [Option.getD_some, hu]
      exact ⟨hours.writable, hours.writable_root, rfl⟩

theorem ours_writtenTree (h : Inv s.fs) (hwritable : (writtenTree s).writable = true) :
    Ours (writtenTree s) where
  writable := hwritable
  devices := by
    rw [writtenTree, find?_devices_writeClients]
    cases htree : (s.fs .sunshine).recovered with
    | none => rfl
    | some tree => exact (h tree htree).devices
  uniqueid := by
    refine ⟨s.uniqueId, ?_⟩
    rw [writtenTree, rootOf_writeClients, Ptree.find?_putChild_ne _ _ (by decide),
      Ptree.find?_put_self, (writable_onDisk h).2.2]
    rfl
  named := ⟨s.clients, find?_named_devices_writeClients _ _ _⟩

/-- Storable clients can be written. -/
theorem writable_writtenTree (h : Inv s.fs) (hstorable : ∀ c ∈ s.clients, Storable c) :
    (writtenTree s).writable = true := by
  obtain ⟨htree, hroot, huniqueid⟩ := writable_onDisk h
  refine Ptree.writable_set _ htree (Ptree.separated_of_writable ?_)
  refine Ptree.writable_set _ (Ptree.writable_set _ hroot ?_) (separated_namedDevicesNode hstorable)
  rw [Ptree.put, huniqueid]
  exact Ptree.separated_leaf _

variable (conf) in
/-- The file after the markers are saved too. -/
theorem ours_markers {fs : StatePath → Files} {tree : Ptree} (htree : Ours tree)
    (hfs : (fs .sunshine).recovered = some tree) (s : State) :
    let markers := State.loadAt fs conf.luminalshineStatePath
    let marked := s.writeMarkers conf (markers.1.getD .empty)
    ∃ tree', ((if marked.writable then State.writeAt markers.2 conf.luminalshineStatePath marked
        else markers.2) .sunshine).recovered = some tree' ∧ Ours tree' ∧
      ∀ key ∈ clientKeys, (rootOf tree').find? key = (rootOf tree).find? key := by
  intro markers marked
  have hloaded : (markers.2 .sunshine).recovered = some tree :=
    (State.recovered_loadAt _ _ _).trans hfs
  split
  · rename_i hwritable
    by_cases hpath : conf.luminalshineStatePath = .sunshine
    · have hsame : ∀ key ∈ clientKeys, (rootOf marked).find? key = (rootOf tree).find? key := by
        intro key hkey
        refine (State.find?_writeMarkers conf s _ hkey).trans ?_
        rw [State.loadAt_fst, hpath, hfs, Option.getD_some]
      refine ⟨marked, ?_, htree.of_find? hwritable hsame, hsame⟩
      rw [hpath, State.writeAt_self, Files.recovered_atomicWriteJson]
    · rw [State.writeAt_of_ne _ _ (Ne.symm hpath)]
      exact ⟨tree, hloaded, htree, fun _ _ => rfl⟩
  · exact ⟨tree, hloaded, htree, fun _ _ => rfl⟩

variable (conf) in
/-- **A save.**  Either the clients fit and the file has them, or the file stays. -/
theorem saveState_cases (h : Inv s.fs) :
    (∃ tree, ((saveState conf s).fs .sunshine).recovered = some tree ∧ Ours tree ∧
      (rootOf tree).find? "named_devices" = some (namedDevicesNode s.clients)) ∨
    (Inv (saveState conf s).fs ∧ ¬∀ c ∈ s.clients, Storable c) := by
  have hmigrated := inv_migrate conf h
  have hclients := State.migrateRecentStateKeys_clients conf s
  have htree : writeClients ((State.loadAt (s.migrateRecentStateKeys conf).fs .sunshine).1.getD
      .empty) (s.migrateRecentStateKeys conf).uniqueId (s.migrateRecentStateKeys conf).clients =
      writtenTree (s.migrateRecentStateKeys conf) := rfl
  simp only [saveState]
  rw [htree, ← hclients]
  generalize s.migrateRecentStateKeys conf = s₁ at hmigrated ⊢
  split
  · rename_i hwritable
    have hours := ours_writtenTree hmigrated hwritable
    have hwritten : (State.writeAt (State.loadAt s₁.fs .sunshine).2 .sunshine (writtenTree s₁)
        .sunshine).recovered = some (writtenTree s₁) := by
      rw [State.writeAt_self, Files.recovered_atomicWriteJson]
    obtain ⟨tree, hrecovered, htree, hsame⟩ := ours_markers conf hours hwritten s₁
    refine .inl ⟨tree, hrecovered, htree, ?_⟩
    rw [hsame _ (by decide)]
    exact find?_named_devices_writeClients _ _ _
  · rename_i hwritable
    refine .inr ⟨inv_of_recovered hmigrated (State.recovered_loadAt _ _ _), fun hstorable => ?_⟩
    exact hwritable (writable_writtenTree hmigrated hstorable)

theorem inv_saveState (h : Inv s.fs) : Inv (saveState conf s).fs := by
  rcases saveState_cases conf h with ⟨tree, hrecovered, htree, -⟩ | ⟨hinv, -⟩
  · intro tree' htree'
    rw [hrecovered] at htree'
    exact Option.some.inj htree' ▸ htree
  · exact hinv

end Save

/-! ## Runs -/

theorem inv_applyUpdate {s : State} (h : Inv s.fs) (u : Update) (generated : Generated) :
    Inv (applyUpdate conf u generated s).fs := by
  have hsaved : Inv (saveState conf { s with clients := u.apply s.clients }).fs := inv_saveState h
  simp only [applyUpdate]
  split
  · split
    · exact inv_loadState conf hsaved generated
    · exact hsaved
  · exact h

theorem inv_markClientLastSeen {s : State} (h : Inv s.fs) (uuid : String) (now : Int64) :
    Inv (markClientLastSeen conf uuid now s).fs := by
  simp only [markClientLastSeen]
  split
  · exact h
  · split
    · exact h
    · exact inv_saveState h

theorem inv_step {s s' : State} {op : Op} (h : Inv s.fs) (hstep : step conf s op = some s') :
    Inv s'.fs := by
  cases op with
  | update u generated =>
      obtain rfl := Option.some.inj hstep
      exact inv_applyUpdate conf h u generated
  | markClientLastSeen uuid now =>
      obtain rfl := Option.some.inj hstep
      exact inv_markClientLastSeen conf h uuid now
  | restart freshState generated =>
      obtain rfl := Option.some.inj hstep
      exact inv_start conf h freshState generated

theorem inv_run {s t : State} {ops : List Op} (h : Inv s.fs)
    (hrun : run (step conf) s ops = some t) : Inv t.fs :=
  run_invariant (P := fun s => Inv s.fs) (fun _ _ _ hs hstep => inv_step conf hs hstep) h hrun

/-! ## The round trip -/

/-- A first process on a disk without a state file. -/
def First (fs : StatePath → Files) : Prop := (fs .sunshine).recovered = none

theorem First.inv {fs : StatePath → Files} (h : First fs) : Inv fs := by
  intro tree htree
  rw [h] at htree
  cases htree

end LuminalShine.ClientStore.RoundTrip
