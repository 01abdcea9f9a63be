import Mathlib
import LuminalShine.Lib.PropertyTree
import LuminalShine.Lib.Chunks

/-!
# Paired clients in the state file

`save_state` writes every paired client as a node under `root.named_devices`, and
`load_state` reads it back; fields at their default are left out.  The loader also
imports `root.devices`, the format before clients had names.

Settings come back as they were written, provided the keys of the per-client overrides
are single path fragments: an override is written with `put`, which takes its key for a
path.

## Main definitions

* `NamedCert`, `Overrides` — `named_cert_t` and its override map.
* `namedCertNode`, `readNamedCert` — one client, written and read.
* `importDevices`, `readClients` — what `load_state` reads from a tree.
* `readNamedDevices_namedDevicesNode` — the round trip.
-/

namespace LuminalShine.ClientStore

open LuminalShine.Lib

/-! ## Data -/

/-- `config_overrides`: a map from keys to texts, in the order it is iterated. -/
@[ext] structure Overrides where
  entries : List (String × String)
  nodup : (entries.map Prod.fst).Nodup
  deriving DecidableEq, Repr

namespace Overrides

def empty : Overrides := ⟨[], List.nodup_nil⟩

/-- Assign one key. -/
def assignEntry (key value : String) : List (String × String) → List (String × String)
  | [] => [(key, value)]
  | (k, v) :: rest =>
      if k = key then (k, value) :: rest else (k, v) :: assignEntry key value rest

theorem map_fst_assignEntry (key value : String) (entries : List (String × String)) :
    (assignEntry key value entries).map Prod.fst =
      if key ∈ entries.map Prod.fst then entries.map Prod.fst
      else entries.map Prod.fst ++ [key] := by
  induction entries with
  | nil => simp [assignEntry]
  | cons e entries ih =>
      obtain ⟨k, v⟩ := e
      by_cases hk : k = key
      · simp [assignEntry, hk]
      · simp only [assignEntry, hk, if_false, List.map_cons, ih, List.mem_cons,
          Ne.symm hk, false_or]
        split <;> simp

/-- `overrides[key] = value`. -/
def assign (o : Overrides) (key value : String) : Overrides where
  entries := assignEntry key value o.entries
  nodup := by
    rw [map_fst_assignEntry]
    split
    · exact o.nodup
    · rename_i hnew
      exact List.Nodup.append o.nodup (List.nodup_singleton key) (by simpa using hnew)

end Overrides

/-- `named_cert_t`. -/
structure NamedCert where
  name : String
  uuid : String
  cert : String
  hdrProfile : String := ""
  displayMode : String := ""
  outputNameOverride : String := ""
  virtualDisplayModeOverride : String := ""
  virtualDisplayLayoutOverride : String := ""
  alwaysUseVirtualDisplay : Bool := false
  prefer10bitSdr : Option Bool := none
  lastSeen : Option Int64 := none
  configOverrides : Overrides := .empty
  deriving DecidableEq, Repr

/-! ## Writing -/

def boolText (b : Bool) : String := if b then "true" else "false"

/-- A text field that is left out when empty. -/
def textNode (value : String) : Option Ptree := if value = "" then none else some (.leaf value)

/-- The node of the overrides; each key is a path. -/
def overridesNode (o : Overrides) : Ptree :=
  o.entries.foldl (fun node entry => node.put entry.2 (fragments entry.1)) .empty

/-- The node `save_state` builds for one client. -/
def namedCertNode (c : NamedCert) : Ptree :=
  let node := Ptree.empty
  let node := node.putChild (.leaf c.name) ["name"]
  let node := node.putChild (.leaf c.cert) ["cert"]
  let node := node.putChild (.leaf c.uuid) ["uuid"]
  let node := node.putOptional "hdr_profile" (textNode c.hdrProfile)
  let node := node.putOptional "display_mode" (textNode c.displayMode)
  let node := node.putOptional "output_name_override" (textNode c.outputNameOverride)
  let node := node.putOptional "virtual_display_mode" (textNode c.virtualDisplayModeOverride)
  let node := node.putOptional "virtual_display_layout" (textNode c.virtualDisplayLayoutOverride)
  let node := node.putOptional "always_use_virtual_display"
    (if c.alwaysUseVirtualDisplay then some (.leaf (boolText true)) else none)
  let node := node.putOptional "prefer_10bit_sdr" (c.prefer10bitSdr.map fun b => .leaf (boolText b))
  let node := node.putOptional "last_seen" (c.lastSeen.map fun t => .leaf t.toInt.repr)
  node.putOptional "config_overrides"
    (if c.configOverrides.entries = [] then none else some (overridesNode c.configOverrides))

/-- The node `named_devices`. -/
def namedDevicesNode (clients : List NamedCert) : Ptree :=
  .node "" (clients.map fun c => ("", namedCertNode c))

/-- The first child called `root`, or an empty one. -/
def rootOf (tree : Ptree) : Ptree := (tree.find? "root").getD .empty

/-- The client list goes into the tree that is already there. -/
def writeClients (tree : Ptree) (uniqueId : String) (clients : List NamedCert) : Ptree :=
  let rootNode := (rootOf tree).put uniqueId ["uniqueid"]
  tree.putChild (rootNode.putChild (namedDevicesNode clients) ["named_devices"]) ["root"]

/-! ## Reading -/

/-- `get<bool>`. -/
def parseBool (text : String) : Option Bool :=
  if text = "true" ∨ text = "1" then some true
  else if text = "false" ∨ text = "0" then some false
  else none

/-- `get<std::int64_t>`. -/
def parseInt64 (text : String) : Option Int64 :=
  text.toInt?.bind fun t => if -2 ^ 63 ≤ t ∧ t < 2 ^ 63 then some (.ofInt t) else none

/-- `get<std::string>(key, "")`. -/
def readText (el : Ptree) (key : String) : String := ((el.find? key).map Ptree.data).getD ""

def readOverrides (node : Ptree) : Overrides :=
  node.children.foldl
    (fun o entry => if entry.1 = "" then o else o.assign entry.1 entry.2.data) .empty

/-- One entry of `named_devices`; a missing name, certificate or identifier throws. -/
def readNamedCert (el : Ptree) : Option NamedCert := do
  let name ← el.find? "name"
  let cert ← el.find? "cert"
  let uuid ← el.find? "uuid"
  return {
    name := name.data
    uuid := uuid.data
    cert := cert.data
    hdrProfile := readText el "hdr_profile"
    displayMode := readText el "display_mode"
    outputNameOverride := readText el "output_name_override"
    virtualDisplayModeOverride := readText el "virtual_display_mode"
    virtualDisplayLayoutOverride := readText el "virtual_display_layout"
    alwaysUseVirtualDisplay :=
      ((el.find? "always_use_virtual_display").bind fun n => parseBool n.data).getD false
    prefer10bitSdr := (el.find? "prefer_10bit_sdr").bind fun n => parseBool n.data
    lastSeen := (el.find? "last_seen").bind fun n => parseInt64 n.data
    configOverrides := ((el.find? "config_overrides").map readOverrides).getD .empty }

/-- The certificates of one device of the old format; a missing `uniqueid` throws. -/
def importDevice (device : Ptree) : Option (List String) := do
  let _ ← device.find? "uniqueid"
  return ((device.find? "certs").map fun certs => certs.children.map fun el => el.2.data).getD []

/-- The certificates of `root.devices`, if it is there. -/
def importDevices : Option Ptree → Option (List String)
  | none => some []
  | some devices => (devices.children.mapM fun device => importDevice device.2).map List.flatten

/-- The clients of `root.named_devices`, if it is there. -/
def readNamedDevices : Option Ptree → Option (List NamedCert)
  | none => some []
  | some nodes => nodes.children.mapM fun el => readNamedCert el.2

/-- The clients the loader finds in the two nodes.  An imported certificate has no name and
gets a fresh identifier. -/
def readClients (freshUuid : ℕ → String) (devices namedDevices : Option Ptree) :
    Option (List NamedCert) := do
  let imported ← importDevices devices
  let named ← readNamedDevices namedDevices
  return imported.mapIdx (fun i cert => { name := "", uuid := freshUuid i, cert := cert }) ++ named

/-! ## The round trip -/

@[simp] theorem parseBool_boolText (b : Bool) : parseBool (boolText b) = some b := by
  cases b <;> decide

@[simp] theorem parseInt64_repr (t : Int64) : parseInt64 t.toInt.repr = some t := by
  have hrange : -2 ^ 63 ≤ t.toInt ∧ t.toInt < 2 ^ 63 := ⟨t.le_toInt, t.toInt_lt⟩
  simp only [parseInt64, Int.toInt?_repr, Option.bind_some, hrange, and_self, if_true,
    Int64.ofInt_toInt]

/-- Every override key is one path fragment. -/
def Storable (c : NamedCert) : Prop := ∀ entry ∈ c.configOverrides.entries, IsKey entry.1

instance (c : NamedCert) : Decidable (Storable c) := inferInstanceAs (Decidable (∀ _ ∈ _, _))

theorem textNode_getD (value : String) : ((textNode value).map Ptree.data).getD "" = value := by
  simp only [textNode]
  split
  · rename_i h
    exact h.symm
  · rfl

/-- Overrides with fragment keys become leaves, in order. -/
theorem overridesNode_children {o : Overrides} (h : ∀ entry ∈ o.entries, IsKey entry.1) :
    (overridesNode o).children = o.entries.map fun entry => (entry.1, Ptree.leaf entry.2) := by
  suffices hgen : ∀ (entries : List (String × String)) (node : Ptree),
      (∀ entry ∈ entries, IsKey entry.1) → (entries.map Prod.fst).Nodup →
      (∀ entry ∈ entries, node.children.lookup entry.1 = none) →
      (entries.foldl (fun node entry => node.put entry.2 (fragments entry.1)) node).children =
        node.children ++ entries.map fun entry => (entry.1, Ptree.leaf entry.2) by
    simpa [overridesNode, Ptree.empty] using
      hgen o.entries .empty h o.nodup (fun entry _ => rfl)
  intro entries
  induction entries with
  | nil => simp
  | cons entry entries ih =>
      intro node hkeys hnodup hfresh
      obtain ⟨hnew, hnodup⟩ := List.nodup_cons.mp hnodup
      have hkey : IsKey entry.1 := hkeys entry (by simp)
      have hnode : node.find? entry.1 = none := hfresh entry (by simp)
      have hput : (node.put entry.2 [entry.1]).children =
          node.children ++ [(entry.1, Ptree.leaf entry.2)] := by
        simp only [Ptree.put, Ptree.set, hnode, Option.getD_none, Ptree.children_node]
        exact Ptree.setChildren_of_lookup_eq_none _ hnode
      rw [List.foldl_cons, fragments_of_isKey hkey,
        ih _ (fun e he => hkeys e (by simp [he])) hnodup, hput]
      · simp
      · intro e he
        have hne : e.1 ≠ entry.1 := by
          intro heq
          exact hnew (heq ▸ List.mem_map_of_mem he)
        rw [hput, List.lookup_append, hfresh e (by simp [he]), Option.none_or,
          Ptree.lookup_cons_ne _ _ hne]
        rfl

theorem assignEntry_of_notMem {key : String} (value : String) {entries : List (String × String)}
    (h : key ∉ entries.map Prod.fst) :
    Overrides.assignEntry key value entries = entries ++ [(key, value)] := by
  induction entries with
  | nil => rfl
  | cons e entries ih =>
      obtain ⟨k, v⟩ := e
      simp only [List.map_cons, List.mem_cons, not_or] at h
      simp [Overrides.assignEntry, Ne.symm h.1, ih h.2]

theorem readOverrides_overridesNode {o : Overrides} (h : ∀ entry ∈ o.entries, IsKey entry.1) :
    readOverrides (overridesNode o) = o := by
  have hgen : ∀ (entries : List (String × String)) (acc : Overrides),
      (∀ entry ∈ entries, IsKey entry.1) →
      ((acc.entries ++ entries).map Prod.fst).Nodup →
      ((entries.map fun entry => (entry.1, Ptree.leaf entry.2)).foldl
        (fun o entry => if entry.1 = "" then o else o.assign entry.1 entry.2.data) acc).entries =
        acc.entries ++ entries := by
    intro entries
    induction entries with
    | nil => simp
    | cons entry entries ih =>
        intro acc hkeys hnodup
        have hkey : entry.1 ≠ "" := (hkeys entry (by simp)).1
        have hnew : entry.1 ∉ acc.entries.map Prod.fst := by
          intro hmem
          rw [List.map_append, List.nodup_append] at hnodup
          exact hnodup.2.2 _ hmem _ (by simp) rfl
        have hassign : (acc.assign entry.1 entry.2).entries = acc.entries ++ [(entry.1, entry.2)] :=
          assignEntry_of_notMem entry.2 hnew
        rw [List.map_cons, List.foldl_cons, if_neg hkey, Ptree.data_leaf,
          ih _ (fun e he => hkeys e (by simp [he])), hassign]
        · simp
        · rw [hassign]
          simpa using hnodup
  refine Overrides.ext ?_
  rw [readOverrides, overridesNode_children h]
  simpa [Overrides.empty] using hgen o.entries .empty h (by simpa [Overrides.empty] using o.nodup)

/-- What the loader sees of a client's node, field by field. -/
theorem find?_namedCertNode (c : NamedCert) :
    (namedCertNode c).find? "name" = some (.leaf c.name) ∧
    (namedCertNode c).find? "cert" = some (.leaf c.cert) ∧
    (namedCertNode c).find? "uuid" = some (.leaf c.uuid) ∧
    (namedCertNode c).find? "hdr_profile" = textNode c.hdrProfile ∧
    (namedCertNode c).find? "display_mode" = textNode c.displayMode ∧
    (namedCertNode c).find? "output_name_override" = textNode c.outputNameOverride ∧
    (namedCertNode c).find? "virtual_display_mode" = textNode c.virtualDisplayModeOverride ∧
    (namedCertNode c).find? "virtual_display_layout" =
      textNode c.virtualDisplayLayoutOverride ∧
    (namedCertNode c).find? "always_use_virtual_display" =
      (if c.alwaysUseVirtualDisplay then some (.leaf (boolText true)) else none) ∧
    (namedCertNode c).find? "prefer_10bit_sdr" =
      c.prefer10bitSdr.map (fun b => .leaf (boolText b)) ∧
    (namedCertNode c).find? "last_seen" = c.lastSeen.map (fun t => .leaf t.toInt.repr) ∧
    (namedCertNode c).find? "config_overrides" =
      (if c.configOverrides.entries = [] then none else some (overridesNode c.configOverrides)) := by
  refine ⟨?_, ?_, ?_, ?_, ?_, ?_, ?_, ?_, ?_, ?_, ?_, ?_⟩ <;>
    simp (disch := simp) only [namedCertNode, Ptree.find?_putOptional_ne,
      Ptree.find?_putOptional_self, Ptree.find?_putChild_ne, Ptree.find?_putChild_self,
      Ptree.find?_empty, Option.or_none]

/-- **A storable client is read back as it was written.** -/
theorem readNamedCert_namedCertNode {c : NamedCert} (h : Storable c) :
    readNamedCert (namedCertNode c) = some c := by
  obtain ⟨hname, hcert, huuid, hhdr, hmode, houtput, hvmode, hvlayout, halways, hprefer, hseen,
    hoverrides⟩ := find?_namedCertNode c
  have hreadOverrides : (((namedCertNode c).find? "config_overrides").map readOverrides).getD .empty =
      c.configOverrides := by
    rw [hoverrides]
    split
    · rename_i hnil
      exact Overrides.ext hnil.symm
    · exact readOverrides_overridesNode h
  have halwaysRead : (((namedCertNode c).find? "always_use_virtual_display").bind
      fun n => parseBool n.data).getD false = c.alwaysUseVirtualDisplay := by
    rw [halways]
    cases c.alwaysUseVirtualDisplay <;> rfl
  have hpreferRead : ((namedCertNode c).find? "prefer_10bit_sdr").bind (fun n => parseBool n.data) =
      c.prefer10bitSdr := by
    rw [hprefer]
    cases c.prefer10bitSdr <;> simp
  have hseenRead : ((namedCertNode c).find? "last_seen").bind (fun n => parseInt64 n.data) =
      c.lastSeen := by
    rw [hseen]
    cases c.lastSeen <;> simp
  simp only [readNamedCert, readText, hreadOverrides, halwaysRead, hpreferRead, hseenRead, hname,
    hcert, huuid, hhdr, hmode, houtput, hvmode, hvlayout, textNode_getD]
  rfl

/-! ### The list in the tree -/

/-- The certificates the old format would add. -/
def legacyCerts (devices : Option Ptree) : List String := (importDevices devices).getD []

/-- The certificates of the listed clients. -/
def namedCerts (nodes : Option Ptree) : List String :=
  ((readNamedDevices nodes).getD []).map NamedCert.cert

/-- The loader adds certificates from these two places only. -/
theorem cert_mem_of_readClients {freshUuid : ℕ → String} {devices namedDevices : Option Ptree}
    {clients : List NamedCert} (h : readClients freshUuid devices namedDevices = some clients)
    {c : NamedCert} (hc : c ∈ clients) :
    c.cert ∈ legacyCerts devices ∨ c.cert ∈ namedCerts namedDevices := by
  obtain ⟨imported, himported, h⟩ := Option.bind_eq_some_iff.mp h
  obtain ⟨named, hnamed, h⟩ := Option.bind_eq_some_iff.mp h
  obtain rfl := Option.some.inj h
  rcases List.mem_append.mp hc with hc | hc
  · left
    obtain ⟨i, hi, rfl⟩ := List.mem_mapIdx.mp hc
    simp [legacyCerts, himported]
  · right
    simp only [namedCerts, hnamed, Option.getD_some]
    exact List.mem_map_of_mem hc

/-- **The round trip.**  Storable clients are listed as they were saved. -/
theorem readNamedDevices_namedDevicesNode {clients : List NamedCert}
    (h : ∀ c ∈ clients, Storable c) :
    readNamedDevices (some (namedDevicesNode clients)) = some clients := by
  have hread := mapM_eq_some_map clients fun c hc => readNamedCert_namedCertNode (h c hc)
  rw [readNamedDevices, namedDevicesNode, Ptree.children_node, List.mapM_map]
  exact hread.trans (by rw [List.map_id'])

/-- Without old devices the loader takes the listed clients as they are. -/
theorem readClients_of_nodes {devices namedDevices : Option Ptree} {clients : List NamedCert}
    (hlegacy : importDevices devices = some []) (hnamed : readNamedDevices namedDevices = some clients)
    (freshUuid : ℕ → String) : readClients freshUuid devices namedDevices = some clients := by
  rw [readClients, hlegacy, hnamed]
  simp

section WriteClients

variable (tree : Ptree) (uniqueId : String) (clients : List NamedCert)

theorem rootOf_writeClients :
    rootOf (writeClients tree uniqueId clients) =
      ((rootOf tree).put uniqueId ["uniqueid"]).putChild (namedDevicesNode clients)
        ["named_devices"] := by
  rw [rootOf, writeClients, Ptree.find?_putChild_self, Option.getD_some]

/-- A save keeps what the old format holds. -/
theorem find?_devices_writeClients :
    (rootOf (writeClients tree uniqueId clients)).find? "devices" =
      (rootOf tree).find? "devices" := by
  rw [rootOf_writeClients, Ptree.find?_putChild_ne _ _ (by decide),
    Ptree.find?_put_ne _ _ (by decide)]

theorem find?_named_devices_writeClients :
    (rootOf (writeClients tree uniqueId clients)).find? "named_devices" =
      some (namedDevicesNode clients) := by
  rw [rootOf_writeClients, Ptree.find?_putChild_self]

theorem find?_uniqueid_writeClients :
    ((rootOf (writeClients tree uniqueId clients)).find? "uniqueid").isSome := by
  rw [rootOf_writeClients, Ptree.find?_putChild_ne _ _ (by decide), Ptree.find?_put_self]
  rfl

end WriteClients

end LuminalShine.ClientStore
