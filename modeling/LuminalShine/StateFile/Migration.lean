import LuminalShine.ClientStore.Store

/-!
# The migration of the recent keys

`migrate_recent_state_keys` of `src/state_storage.cpp` moves three keys from the old state
file to the new one: it writes the new file, then the old one without the keys, and looks
at neither result.

A write that fails leaves its file as it was.

## Main definitions

* `Writes` — which writes of a migration go through.
* `migrateWith` — the migration under them.
* `value`, `remaining` — what a file holds under a migrated key, and what removal leaves.
* `KeepsValues` — no value is lost and no other key changes.

## Main results

* `migrateWith_keeps_iff` — a migration keeps every value unless the old file is written
  and the new one is not.
-/

namespace LuminalShine.StateFile

open LuminalShine.Lib
open LuminalShine.ClientStore

/-- Which writes go through: those that restore a recovered file, and the two of the
migration. -/
structure Writes where
  restoreOld : Bool
  restoreNew : Bool
  new : Bool
  old : Bool
  deriving DecidableEq, Repr

/-- `load_or_recover`, whose restoring write may fail. -/
def loadWith (ok : Bool) (fs : StatePath → Files) (path : StatePath) :
    Option Ptree × (StatePath → Files) :=
  ((State.loadAt fs path).1, if ok then (State.loadAt fs path).2 else fs)

/-- `atomic_write_json`, which may fail. -/
def writeWith (ok : Bool) (fs : StatePath → Files) (path : StatePath) (tree : Ptree) :
    StatePath → Files :=
  if ok then State.writeAt fs path tree else fs

/-- `migrate_recent_state_keys`. -/
def migrateWith (conf : Config) (writes : Writes) (s : State) : State :=
  if s.migrated then s
  else if conf.luminalshineStatePath = .sunshine then { s with migrated := true }
  else
    let old := loadWith writes.restoreOld s.fs .sunshine
    let new := loadWith writes.restoreNew old.2 conf.luminalshineStatePath
    match old.1.bind fun tree => (tree.find? "root").map fun root => (tree, root) with
    | none => { s with migrated := true, fs := new.2 }
    | some (oldTree, oldRoot) =>
        let m := Migration.run oldRoot (new.1.getD .empty)
        let fs := if m.newModified then
          writeWith writes.new new.2 conf.luminalshineStatePath m.newTree else new.2
        let fs := if m.oldModified then
          writeWith writes.old fs .sunshine (oldTree.set "root" m.oldRoot) else fs
        { s with migrated := true, fs := fs }

/-- When every write goes through, this is the migration of the client store. -/
theorem migrateWith_true (conf : Config) (s : State) :
    migrateWith conf ⟨true, true, true, true⟩ s = s.migrateRecentStateKeys conf := rfl

/-! ## Values -/

def migratedKeys : List String := ["api_tokens", "session_tokens", "last_notified_version"]

/-- The value of a migrated key: a subtree, and a text for the version. -/
def valueOf (key : String) (child : Ptree) : Ptree :=
  if key = "last_notified_version" then .leaf child.data else child

/-- What a root node holds under a key. -/
def rootValue (root : Ptree) (key : String) : Option Ptree := (root.find? key).map (valueOf key)

/-- What is left of it once the key has moved: a later child of the same name, but for the
version, where all are removed. -/
def rootRemaining (root : Ptree) (key : String) : Option Ptree :=
  if key = "last_notified_version" then none else (root.eraseFirst key).find? key

def value (files : Files) (key : String) : Option Ptree :=
  files.recovered.bind fun tree => rootValue (rootOf tree) key

def remaining (files : Files) (key : String) : Option Ptree :=
  files.recovered.bind fun tree => rootRemaining (rootOf tree) key

/-- The other keys of the root, and the other nodes of the file. -/
def otherKeys (files : Files) : List (String × Ptree) × List (String × Ptree) :=
  (((files.recovered.map rootOf).getD .empty).childrenNamed (· ∉ migratedKeys),
    (files.recovered.getD .empty).childrenNamed (· ≠ "root"))

/-- Every migrated key has the value it had, the new file's first; what the new file had
stays there; and no other key changes. -/
structure KeepsValues (conf : Config) (s s' : State) : Prop where
  value : ∀ key ∈ migratedKeys,
    (value (s'.fs conf.luminalshineStatePath) key).or (value (s'.fs .sunshine) key) =
      (value (s.fs conf.luminalshineStatePath) key).or (value (s.fs .sunshine) key)
  precedence : ∀ key ∈ migratedKeys, ∀ v,
    StateFile.value (s.fs conf.luminalshineStatePath) key = some v →
      StateFile.value (s'.fs conf.luminalshineStatePath) key = some v
  others : ∀ path, otherKeys (s'.fs path) = otherKeys (s.fs path)

/-! ## One key -/

/-- A value is read off the children of its name. -/
theorem rootValue_congr {root root' : Ptree} {key : String}
    (h : root'.childrenNamed (· = key) = root.childrenNamed (· = key)) :
    rootValue root' key = rootValue root key := by
  rw [rootValue, rootValue, Ptree.find?_eq_childrenNamed, Ptree.find?_eq_childrenNamed, h]

theorem rootRemaining_congr {root root' : Ptree} {key : String}
    (h : root'.childrenNamed (· = key) = root.childrenNamed (· = key)) :
    rootRemaining root' key = rootRemaining root key := by
  rw [rootRemaining, rootRemaining, Ptree.find?_eq_childrenNamed, Ptree.find?_eq_childrenNamed,
    Ptree.childrenNamed_eraseFirst_self, Ptree.childrenNamed_eraseFirst_self, h]

/-- What moving one key does to the two trees. -/
structure Moves (key : String) (m m' : Migration) : Prop where
  new : rootValue (rootOf m'.newTree) key =
    (rootValue (rootOf m.newTree) key).or (rootValue m.oldRoot key)
  old : rootValue m'.oldRoot key = rootRemaining m.oldRoot key
  frameNew : ∀ p : String → Bool, p key = false →
    (rootOf m'.newTree).childrenNamed p = (rootOf m.newTree).childrenNamed p
  frameOld : ∀ p : String → Bool, p key = false →
    m'.oldRoot.childrenNamed p = m.oldRoot.childrenNamed p
  frameTree : m'.newTree.childrenNamed (· ≠ "root") = m.newTree.childrenNamed (· ≠ "root")
  newModified : m'.newModified = (m.newModified ||
    (rootValue (rootOf m.newTree) key).isNone && (rootValue m.oldRoot key).isSome)
  oldModified : m'.oldModified = (m.oldModified || (rootValue m.oldRoot key).isSome)

theorem moves_moveChild (m : Migration) {key : String} (hkey : key ≠ "last_notified_version") :
    Moves key m (m.moveChild key) := by
  have hvalue : ∀ root : Ptree, rootValue root key = root.find? key := by
    intro root
    have hid : valueOf key = id := by
      funext child
      simp [valueOf, hkey]
    rw [rootValue, hid, Option.map_id, id]
  have hremaining : ∀ root : Ptree, rootRemaining root key = (root.eraseFirst key).find? key :=
    fun root => if_neg hkey
  unfold Migration.moveChild
  cases hold : m.oldRoot.find? key with
  | none =>
      constructor <;>
        simp [hvalue, hremaining, hold, Ptree.eraseFirst_of_find?_eq_none hold]
  | some child =>
      by_cases hmoved : (rootOf m.newTree).find? key = none
      · constructor
        · simp [hvalue, hmoved, hold]
        · simp [hvalue, hremaining]
        · intro p hp
          simp only [hmoved, if_true, rootOf_set]
          exact Ptree.childrenNamed_set _ _ hp
        · intro p hp
          exact Ptree.childrenNamed_eraseFirst _ hp
        · exact Ptree.childrenNamed_set _ _ (by simp)
        · simp [hvalue, hmoved, hold]
        · simp [hvalue, hold]
      · constructor
        · obtain ⟨v, hv⟩ := Option.ne_none_iff_exists'.mp hmoved
          simp [hvalue, hv]
        · simp [hvalue, hremaining]
        · intro p hp
          simp [hmoved]
        · intro p hp
          exact Ptree.childrenNamed_eraseFirst _ hp
        · exact Ptree.childrenNamed_set _ _ (by simp)
        · simp [hvalue, hmoved]
        · simp [hvalue, hold]

theorem moves_moveVersion (m : Migration) : Moves "last_notified_version" m m.moveVersion := by
  have hremaining : ∀ root : Ptree, rootRemaining root "last_notified_version" = none :=
    fun root => if_pos rfl
  unfold Migration.moveVersion
  cases hold : m.oldRoot.find? "last_notified_version" with
  | none => constructor <;> simp [rootValue, hremaining, hold]
  | some last =>
      by_cases hmoved : (rootOf m.newTree).find? "last_notified_version" = none
      · constructor
        · simp [rootValue, hmoved, hold, Ptree.find?_put_self, valueOf]
        · simp [rootValue, hremaining]
        · intro p hp
          simp only [hmoved, if_true, rootOf_set]
          exact Ptree.childrenNamed_set _ _ hp
        · intro p hp
          exact Ptree.childrenNamed_erase _ hp
        · exact Ptree.childrenNamed_set _ _ (by simp)
        · simp [rootValue, hmoved, hold]
        · simp [rootValue, hold]
      · constructor
        · obtain ⟨v, hv⟩ := Option.ne_none_iff_exists'.mp hmoved
          simp [rootValue, hv]
        · simp [rootValue, hremaining]
        · intro p hp
          simp [hmoved]
        · intro p hp
          exact Ptree.childrenNamed_erase _ hp
        · exact Ptree.childrenNamed_set _ _ (by simp)
        · simp [rootValue, hmoved]
        · simp [rootValue, hold]

namespace Moves

variable {key key' : String} {m m' : Migration}

theorem new_of_ne (h : Moves key m m') (hne : key' ≠ key) :
    rootValue (rootOf m'.newTree) key' = rootValue (rootOf m.newTree) key' :=
  rootValue_congr (h.frameNew _ (by simpa using Ne.symm hne))

theorem old_of_ne (h : Moves key m m') (hne : key' ≠ key) :
    rootValue m'.oldRoot key' = rootValue m.oldRoot key' :=
  rootValue_congr (h.frameOld _ (by simpa using Ne.symm hne))

theorem remaining_of_ne (h : Moves key m m') (hne : key' ≠ key) :
    rootRemaining m'.oldRoot key' = rootRemaining m.oldRoot key' :=
  rootRemaining_congr (h.frameOld _ (by simpa using Ne.symm hne))

end Moves

/-! ## All keys -/

/-- What moving every key does. -/
structure MovesAll (oldRoot newTree : Ptree) (m : Migration) : Prop where
  new : ∀ key ∈ migratedKeys, rootValue (rootOf m.newTree) key =
    (rootValue (rootOf newTree) key).or (rootValue oldRoot key)
  old : ∀ key ∈ migratedKeys, rootValue m.oldRoot key = rootRemaining oldRoot key
  frameNew : (rootOf m.newTree).childrenNamed (· ∉ migratedKeys) =
    (rootOf newTree).childrenNamed (· ∉ migratedKeys)
  frameOld : m.oldRoot.childrenNamed (· ∉ migratedKeys) =
    oldRoot.childrenNamed (· ∉ migratedKeys)
  frameTree : m.newTree.childrenNamed (· ≠ "root") = newTree.childrenNamed (· ≠ "root")
  newModified : m.newModified = migratedKeys.any fun key =>
    (rootValue (rootOf newTree) key).isNone && (rootValue oldRoot key).isSome
  oldModified : m.oldModified = migratedKeys.any fun key => (rootValue oldRoot key).isSome

theorem movesAll_run (oldRoot newTree : Ptree) :
    MovesAll oldRoot newTree (Migration.run oldRoot newTree) := by
  let start : Migration := ⟨oldRoot, newTree, false, false⟩
  have hapi : Moves "api_tokens" start (start.moveChild "api_tokens") :=
    moves_moveChild _ (by decide)
  have hsession : Moves "session_tokens" (start.moveChild "api_tokens")
      ((start.moveChild "api_tokens").moveChild "session_tokens") := moves_moveChild _ (by decide)
  have hversion : Moves "last_notified_version"
      ((start.moveChild "api_tokens").moveChild "session_tokens")
      (Migration.run oldRoot newTree) := moves_moveVersion _
  constructor
  · intro key hkey
    simp only [migratedKeys, List.mem_cons, List.not_mem_nil, or_false] at hkey
    rcases hkey with rfl | rfl | rfl
    · rw [hversion.new_of_ne (by decide), hsession.new_of_ne (by decide), hapi.new]
    · rw [hversion.new_of_ne (by decide), hsession.new, hapi.new_of_ne (by decide),
        hapi.old_of_ne (by decide)]
    · rw [hversion.new, hsession.new_of_ne (by decide), hapi.new_of_ne (by decide),
        hsession.old_of_ne (by decide), hapi.old_of_ne (by decide)]
  · intro key hkey
    simp only [migratedKeys, List.mem_cons, List.not_mem_nil, or_false] at hkey
    rcases hkey with rfl | rfl | rfl
    · rw [hversion.old_of_ne (by decide), hsession.old_of_ne (by decide), hapi.old]
    · rw [hversion.old_of_ne (by decide), hsession.old, hapi.remaining_of_ne (by decide)]
    · rw [hversion.old, hsession.remaining_of_ne (by decide), hapi.remaining_of_ne (by decide)]
  · rw [hversion.frameNew _ (by decide), hsession.frameNew _ (by decide),
      hapi.frameNew _ (by decide)]
  · rw [hversion.frameOld _ (by decide), hsession.frameOld _ (by decide),
      hapi.frameOld _ (by decide)]
  · rw [hversion.frameTree, hsession.frameTree, hapi.frameTree]
  · rw [hversion.newModified, hsession.newModified, hapi.newModified,
      hsession.new_of_ne (by decide), hapi.new_of_ne (by decide), hapi.new_of_ne (by decide),
      hsession.old_of_ne (by decide), hapi.old_of_ne (by decide), hapi.old_of_ne (by decide)]
    simp [migratedKeys, start, Bool.or_assoc]
  · rw [hversion.oldModified, hsession.oldModified, hapi.oldModified,
      hsession.old_of_ne (by decide), hapi.old_of_ne (by decide), hapi.old_of_ne (by decide)]
    simp [migratedKeys, start, Bool.or_assoc]

/-! ## The two files -/

theorem recovered_loadWith (ok : Bool) (fs : StatePath → Files) (path path' : StatePath) :
    ((loadWith ok fs path).2 path').recovered = (fs path').recovered := by
  cases ok with
  | false => rfl
  | true => exact State.recovered_loadAt fs path path'

theorem recovered_writeWith_self (ok : Bool) (fs : StatePath → Files) (path : StatePath)
    (tree : Ptree) :
    ((writeWith ok fs path tree) path).recovered = if ok then some tree else (fs path).recovered := by
  cases ok with
  | false => rfl
  | true => simp [writeWith, State.writeAt_self]

theorem writeWith_of_ne (ok : Bool) {path path' : StatePath} (fs : StatePath → Files)
    (tree : Ptree) (h : path' ≠ path) : writeWith ok fs path tree path' = fs path' := by
  cases ok with
  | false => rfl
  | true => exact State.writeAt_of_ne fs tree h

/-- What is on the disk after a migration that runs. -/
theorem recovered_migrateWith {conf : Config} (writes : Writes) {s : State}
    (hmigrated : s.migrated = false) (hpath : conf.luminalshineStatePath ≠ .sunshine) :
    (∀ path, ((migrateWith conf writes s).fs path).recovered = (s.fs path).recovered) ∧
      (∀ tree, (s.fs .sunshine).recovered = some tree → tree.find? "root" = none) ∨
    ∃ oldTree oldRoot, (s.fs .sunshine).recovered = some oldTree ∧
      oldTree.find? "root" = some oldRoot ∧
      ∃ m, MovesAll oldRoot ((s.fs conf.luminalshineStatePath).recovered.getD .empty) m ∧
        ((migrateWith conf writes s).fs conf.luminalshineStatePath).recovered =
          (if m.newModified && writes.new then some m.newTree
            else (s.fs conf.luminalshineStatePath).recovered) ∧
        ((migrateWith conf writes s).fs .sunshine).recovered =
          (if m.oldModified && writes.old then some (oldTree.set "root" m.oldRoot)
            else (s.fs .sunshine).recovered) := by
  have hold : (loadWith writes.restoreOld s.fs .sunshine).1 = (s.fs .sunshine).recovered := rfl
  have hnew : (loadWith writes.restoreNew (loadWith writes.restoreOld s.fs .sunshine).2
      conf.luminalshineStatePath).1 = (s.fs conf.luminalshineStatePath).recovered :=
    recovered_loadWith _ _ _ _
  have hloaded : ∀ path, ((loadWith writes.restoreNew
      (loadWith writes.restoreOld s.fs .sunshine).2 conf.luminalshineStatePath).2
      path).recovered = (s.fs path).recovered := by
    intro path
    rw [recovered_loadWith, recovered_loadWith]
  unfold migrateWith
  rw [if_neg (by simp [hmigrated]), if_neg hpath]
  dsimp only
  rw [hold, hnew]
  cases hroot : (s.fs .sunshine).recovered.bind fun tree =>
      (tree.find? "root").map fun root => (tree, root) with
  | none =>
      refine Or.inl ⟨hloaded, ?_⟩
      intro tree htree
      simpa [htree] using hroot
  | some found =>
      obtain ⟨oldTree, oldRoot⟩ := found
      simp only [Option.bind_eq_some_iff, Option.map_eq_some_iff, Prod.mk.injEq] at hroot
      obtain ⟨tree, htree, root, hfind, rfl, rfl⟩ := hroot
      refine Or.inr ⟨tree, root, htree, hfind, _, movesAll_run root _, ?_⟩
      dsimp only
      generalize Migration.run root
        ((s.fs conf.luminalshineStatePath).recovered.getD .empty) = m
      obtain ⟨oldRoot, newTree, oldModified, newModified⟩ := m
      cases newModified <;> cases oldModified <;>
        simp [writeWith_of_ne _ _ _ hpath, writeWith_of_ne _ _ _ hpath.symm,
          recovered_writeWith_self, hloaded]

theorem rootValue_empty (key : String) : rootValue .empty key = none := by
  rw [rootValue, Ptree.find?_empty, Option.map_none]

theorem value_of_recovered {files : Files} {tree : Ptree} (h : files.recovered = some tree)
    (key : String) : value files key = rootValue (rootOf tree) key := by
  rw [value, h, Option.bind_some]

/-- A file that cannot be read has the values of an empty one. -/
theorem value_eq_getD (files : Files) (key : String) :
    value files key = rootValue (rootOf (files.recovered.getD .empty)) key := by
  cases h : files.recovered with
  | some tree => exact value_of_recovered h key
  | none =>
      have hroot : rootOf .empty = .empty := rfl
      rw [value, h, Option.bind_none, Option.getD_none, hroot, rootValue_empty]

/-- Without a value nothing remains. -/
theorem rootRemaining_of_rootValue {root : Ptree} {key : String} (h : rootValue root key = none) :
    rootRemaining root key = none := by
  rw [rootValue, Option.map_eq_none_iff] at h
  rw [rootRemaining, Ptree.eraseFirst_of_find?_eq_none h, h, ite_self]

theorem remaining_of_value {files : Files} {key : String} (h : value files key = none) :
    remaining files key = none := by
  cases hfiles : files.recovered with
  | none => rw [remaining, hfiles, Option.bind_none]
  | some tree =>
      rw [value_of_recovered hfiles] at h
      rw [remaining, hfiles, Option.bind_some, rootRemaining_of_rootValue h]

section Migrated

variable {conf : Config} (writes : Writes) {s : State}

/-- The new file's values after a migration that runs. -/
theorem value_new_migrateWith (hmigrated : s.migrated = false)
    (hpath : conf.luminalshineStatePath ≠ .sunshine) {key : String} (hkey : key ∈ migratedKeys) :
    value ((migrateWith conf writes s).fs conf.luminalshineStatePath) key =
      if writes.new then
        (value (s.fs conf.luminalshineStatePath) key).or (value (s.fs .sunshine) key)
      else value (s.fs conf.luminalshineStatePath) key := by
  rcases recovered_migrateWith writes hmigrated hpath with
    ⟨hsame, hroot⟩ | ⟨oldTree, oldRoot, hold, hroot, m, hm, hnew', -⟩
  · have hold : value (s.fs .sunshine) key = none := by
      cases hfiles : (s.fs .sunshine).recovered with
      | none => rw [value, hfiles, Option.bind_none]
      | some tree =>
          rw [value_of_recovered hfiles, rootOf, hroot tree hfiles, Option.getD_none,
            rootValue_empty]
    rw [value, hsame, ← value, hold, Option.or_none, ite_self]
  · have holdValue : value (s.fs .sunshine) key = rootValue oldRoot key := by
      rw [value_of_recovered hold, rootOf, hroot, Option.getD_some]
    cases hwrite : writes.new with
    | false =>
        rw [hwrite, Bool.and_false, if_neg Bool.false_ne_true] at hnew'
        rw [value, hnew', if_neg Bool.false_ne_true, value]
    | true =>
        rw [if_pos rfl, value_eq_getD (s.fs conf.luminalshineStatePath), holdValue, ← hm.new key hkey]
        cases hmodified : m.newModified with
        | true =>
            rw [hwrite, hmodified, Bool.and_true, if_pos rfl] at hnew'
            exact value_of_recovered hnew' key
        | false =>
            -- Nothing moved: the new file had every value of the old one.
            rw [hmodified, Bool.false_and, if_neg Bool.false_ne_true] at hnew'
            rw [hm.new key hkey, value, hnew', ← value, value_eq_getD]
            have hany := hm.newModified
            rw [hmodified, eq_comm, List.any_eq_false] at hany
            have hkeyNot := hany key hkey
            simp only [Bool.and_eq_true, Option.isNone_iff_eq_none, not_and,
              Bool.not_eq_true, Option.isSome_eq_false_iff] at hkeyNot
            cases hv : rootValue
                (rootOf ((s.fs conf.luminalshineStatePath).recovered.getD .empty)) key with
            | some v => rfl
            | none => rw [hkeyNot hv]; rfl

/-- The old file's values after it. -/
theorem value_old_migrateWith (hmigrated : s.migrated = false)
    (hpath : conf.luminalshineStatePath ≠ .sunshine) {key : String} (hkey : key ∈ migratedKeys) :
    value ((migrateWith conf writes s).fs .sunshine) key =
      if writes.old then remaining (s.fs .sunshine) key else value (s.fs .sunshine) key := by
  have hunchanged : value (s.fs .sunshine) key = none →
      (if writes.old then remaining (s.fs .sunshine) key else value (s.fs .sunshine) key) =
        value (s.fs .sunshine) key := by
    intro h
    rw [remaining_of_value h, h, ite_self]
  rcases recovered_migrateWith writes hmigrated hpath with
    ⟨hsame, hroot⟩ | ⟨oldTree, oldRoot, hold, hroot, m, hm, -, hold'⟩
  · rw [hunchanged, value, hsame, ← value]
    cases hfiles : (s.fs .sunshine).recovered with
    | none => rw [value, hfiles, Option.bind_none]
    | some tree =>
        rw [value_of_recovered hfiles, rootOf, hroot tree hfiles, Option.getD_none,
          rootValue_empty]
  · have hrootOf : rootOf oldTree = oldRoot := by rw [rootOf, hroot, Option.getD_some]
    have holdValue : value (s.fs .sunshine) key = rootValue oldRoot key := by
      rw [value_of_recovered hold, hrootOf]
    cases hmodified : m.oldModified with
    | false =>
        rw [hmodified, Bool.false_and, if_neg Bool.false_ne_true] at hold'
        have hany := hm.oldModified
        rw [hmodified, eq_comm, List.any_eq_false] at hany
        have hnone : rootValue oldRoot key = none := by simpa using hany key hkey
        rw [hunchanged (holdValue.trans hnone), value, hold', ← value]
    | true =>
        cases hwrite : writes.old with
        | false =>
            rw [hwrite, Bool.and_false, if_neg Bool.false_ne_true] at hold'
            rw [value, hold', if_neg Bool.false_ne_true, ← value]
        | true =>
            rw [hwrite, hmodified, Bool.and_true, if_pos rfl] at hold'
            rw [value_of_recovered hold', rootOf_set, hm.old key hkey, if_pos rfl, remaining, hold,
              Option.bind_some, hrootOf]

theorem otherKeys_eq_getD (files : Files) :
    otherKeys files = ((rootOf (files.recovered.getD .empty)).childrenNamed (· ∉ migratedKeys),
      (files.recovered.getD .empty).childrenNamed (· ≠ "root")) := by
  rw [otherKeys]
  cases files.recovered <;> rfl

theorem otherKeys_migrateWith (hmigrated : s.migrated = false)
    (hpath : conf.luminalshineStatePath ≠ .sunshine) (path : StatePath) :
    otherKeys ((migrateWith conf writes s).fs path) = otherKeys (s.fs path) := by
  have hcases : path = .sunshine ∨ path = conf.luminalshineStatePath := by
    cases hconf : conf.luminalshineStatePath with
    | sunshine => exact absurd hconf hpath
    | luminalshine => cases path <;> simp
  rw [otherKeys_eq_getD, otherKeys_eq_getD]
  rcases recovered_migrateWith writes hmigrated hpath with
    ⟨hsame, -⟩ | ⟨oldTree, oldRoot, hold, hroot, m, hm, hnew', hold'⟩
  · rw [hsame]
  · rcases hcases with rfl | rfl
    · rw [hold']
      split
      · have hrootOf : rootOf oldTree = oldRoot := by rw [rootOf, hroot, Option.getD_some]
        rw [hold, Option.getD_some, Option.getD_some, rootOf_set, hrootOf, hm.frameOld,
          Ptree.childrenNamed_set _ _ (by simp)]
      · rfl
    · rw [hnew']
      split
      · rw [Option.getD_some, hm.frameNew, hm.frameTree]
      · rfl

end Migrated

/-! ## The exact condition -/

theorem KeepsValues.of_fs {conf : Config} {s s' : State} (h : s'.fs = s.fs) :
    KeepsValues conf s s' where
  value := fun _ _ => by rw [h]
  precedence := fun _ _ _ hv => by rwa [h]
  others := fun _ => by rw [h]

/-- The key's value survives the removal from the old file: the new file has one, or the old
file has the same one again. -/
def Survives (conf : Config) (s : State) (key : String) : Prop :=
  value (s.fs conf.luminalshineStatePath) key ≠ none ∨
    remaining (s.fs .sunshine) key = value (s.fs .sunshine) key

/-- One key, by what was written. -/
theorem value_kept_iff {conf : Config} (writes : Writes) {s : State}
    (hmigrated : s.migrated = false) (hpath : conf.luminalshineStatePath ≠ .sunshine)
    {key : String} (hkey : key ∈ migratedKeys) :
    (value ((migrateWith conf writes s).fs conf.luminalshineStatePath) key).or
        (value ((migrateWith conf writes s).fs .sunshine) key) =
      (value (s.fs conf.luminalshineStatePath) key).or (value (s.fs .sunshine) key) ↔
    writes.new = true ∨ writes.old = false ∨ Survives conf s key := by
  rw [value_new_migrateWith writes hmigrated hpath hkey,
    value_old_migrateWith writes hmigrated hpath hkey, Survives]
  cases hnew : writes.new with
  | true =>
      -- The new file has the value, whatever the old one keeps.
      cases hv : value (s.fs conf.luminalshineStatePath) key with
      | some v => simp
      | none =>
          cases hw : value (s.fs .sunshine) key with
          | some w => simp
          | none => simp [remaining_of_value hw]
  | false =>
      cases hold : writes.old with
      | false => simp
      | true =>
          -- Only the old file is written: the value is what it had besides.
          cases hv : value (s.fs conf.luminalshineStatePath) key with
          | some v => simp
          | none => simp

/-- A migration keeps every value, and the other keys, exactly when it has run before, the
new file is written, the old one is not, or no key needs the move. -/
theorem migrateWith_keeps_iff (conf : Config) (writes : Writes) (s : State) :
    KeepsValues conf s (migrateWith conf writes s) ↔
      s.migrated = true ∨ writes.new = true ∨ writes.old = false ∨
        ∀ key ∈ migratedKeys, Survives conf s key := by
  cases hmigrated : s.migrated with
  | true =>
      have hfs : (migrateWith conf writes s).fs = s.fs := by simp [migrateWith, hmigrated]
      simp [KeepsValues.of_fs hfs]
  | false =>
      by_cases hpath : conf.luminalshineStatePath = .sunshine
      · -- One file for both: nothing moves.
        have hfs : (migrateWith conf writes s).fs = s.fs := by
          simp [migrateWith, hmigrated, hpath]
        have hsurvives : ∀ key ∈ migratedKeys, Survives conf s key := by
          intro key _
          rw [Survives, hpath]
          cases hv : value (s.fs .sunshine) key with
          | some v => exact Or.inl (by simp)
          | none => exact Or.inr (remaining_of_value hv)
        exact iff_of_true (KeepsValues.of_fs hfs) (Or.inr (Or.inr (Or.inr hsurvives)))
      · have hone := fun key (hkey : key ∈ migratedKeys) =>
          value_kept_iff writes hmigrated hpath hkey
        constructor
        · intro h
          by_cases hnew : writes.new = true
          · exact Or.inr (Or.inl hnew)
          · by_cases hold : writes.old = false
            · exact Or.inr (Or.inr (Or.inl hold))
            · refine Or.inr (Or.inr (Or.inr ?_))
              intro key hkey
              simpa [hnew, hold] using (hone key hkey).mp (h.value key hkey)
        · intro h
          refine ⟨?_, ?_, otherKeys_migrateWith writes hmigrated hpath⟩
          · intro key hkey
            refine (hone key hkey).mpr ?_
            simp only [Bool.false_eq_true, false_or] at h
            exact h.imp_right fun h => h.imp_right fun h => h key hkey
          · intro key hkey v hv
            rw [value_new_migrateWith writes hmigrated hpath hkey, hv, Option.some_or, ite_self]

/-- A process whose old file holds tokens and whose new file is not there yet. -/
def tokensInOldFile : State where
  clients := []
  uniqueId := ""
  lastNotifiedVersion := ""
  sharedVirtualDisplayGuid := ""
  migrated := false
  freshState := false
  fs path :=
    match path with
    | .sunshine =>
        ⟨some (.json (.node "" [("root", .node "" [("api_tokens", .leaf "")])])), none, []⟩
    | .luminalshine => ⟨none, none, []⟩

/-- The new file cannot be written and the old one can: the tokens are in neither. -/
theorem migration_loses_tokens :
    ¬ KeepsValues ⟨.luminalshine, true⟩ tokensInOldFile
      (migrateWith ⟨.luminalshine, true⟩ ⟨true, true, false, true⟩ tokensInOldFile) := by
  intro h
  have htokens := congrArg Option.isSome (h.value "api_tokens" (by decide))
  exact absurd htokens (by decide)

end LuminalShine.StateFile
