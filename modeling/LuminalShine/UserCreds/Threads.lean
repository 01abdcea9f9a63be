import LuminalShine.UserCreds.Record
import LuminalShine.Lib.Run

/-!
# The threads that use the credentials

`verify_user_password`, `save_user_creds`, `reload_user_creds` and the reset of
`src/confighttp.cpp`, run by any number of threads.  One step is one access to the store or
to the fields in memory; `state_mutex` is held from the first access of a save or a reload to
its last, and a reset does not take it.

## Main definitions

* `Process`, `step` — the store, the fields and the threads.
* `Sound` — no record accepts only what was replaced, and no failed reload changed a field.
* `Orderly` — upgrades that were not overtaken, resets outside of the mutex's sections, and
  no record that lacks a field after the user.
-/

namespace LuminalShine.UserCreds

open LuminalShine.Lib

/-! ## The process -/

/-- What the store holds. -/
inductive Blob where
  | garbage
  | json (tree : Ptree)

/-- A password change or a reset that reached the store. -/
inductive Entry where
  | password (username password : String)
  | reset
  deriving DecidableEq, Repr

/-- A call of `save_user_creds`; an upgrade carries the version of its snapshot. -/
structure Save where
  username : String
  password : String
  upgrades : Option ℕ
  deriving DecidableEq, Repr

/-- Where a thread is.  `completes` is the change that ends with the reload. -/
inductive Pc where
  | idle
  | verifying (username password : String) (snapshot : Credentials) (version : ℕ)
  | locked (save : Save)
  | saving (save : Save) (existing : Option Blob)
  | reloading (completes : Option ℕ)
  | loaded (completes : Option ℕ) (blob : Blob) (version : ℕ)
  | erased (version : ℕ)

def Pc.holdsLock : Pc → Bool
  | .locked _ | .saving _ _ | .reloading _ | .loaded _ _ _ => true
  | .idle | .verifying _ _ _ _ | .erased _ => false

/-- The snapshot a thread is about to write back. -/
def Pc.upgrading : Pc → Option ℕ
  | .saving save _ => save.upgrades
  | _ => none

/-- The record a thread is about to assign. -/
def Pc.record : Pc → Option Ptree
  | .loaded _ (.json tree) _ => some tree
  | _ => none

/-- The store and the fields, each with the number of the change its content comes from; the
changes so far; the newest that is completed, and the newest that no later content may
precede. -/
structure Process where
  persisted : Option (Blob × ℕ)
  ram : Credentials
  ramVersion : ℕ
  lock : Option ℕ
  threads : ℕ → Pc
  history : List Entry
  floor : ℕ
  completed : ℕ
  reloadSpoiled : Bool

/-- What `cred_store::erase` did. -/
inductive Erasure where
  | failed
  | halfway
  | done
  deriving DecidableEq, Repr

inductive Label where
  | snapshot (tid : ℕ) (username password : String)
  | verified (tid : ℕ)
  | upgrade (tid : ℕ)
  | beginChange (tid : ℕ) (username password : String)
  | beginReload (tid : ℕ)
  | loadExisting (tid : ℕ) (ok : Bool)
  | store (tid : ℕ) (salt : String) (ok : Bool)
  | loadBlob (tid : ℕ) (ok : Bool)
  | assign (tid : ℕ)
  | erase (tid : ℕ) (erasure : Erasure)
  | clear (tid : ℕ)
  | restart
  deriving DecidableEq, Repr

/-- The tree a save starts from. -/
def existingTree : Option Blob → Ptree
  | some (.json tree) => tree
  | _ => .empty

namespace Process

def init (persisted : Option Blob) (ram : Credentials) : Process where
  persisted := persisted.map (·, 0)
  ram := ram
  ramVersion := 0
  lock := none
  threads := fun _ => .idle
  history := []
  floor := 0
  completed := 0
  reloadSpoiled := false

def goto (s : Process) (tid : ℕ) (pc : Pc) : Process :=
  { s with threads := Function.update s.threads tid pc }

/-- The end of a section under the mutex. -/
def release (s : Process) (tid : ℕ) : Process := { s with lock := none }.goto tid .idle

/-- The number of the next change. -/
def next (s : Process) : ℕ := s.history.length + 1

/-- A record reaches the store: that of an upgrade with the number of its snapshot. -/
def put (s : Process) (tid : ℕ) (save : Save) (tree : Ptree) : Process :=
  match save.upgrades with
  | some version =>
      { s with persisted := some (.json tree, version) }.goto tid (.reloading none)
  | none =>
      { s with
        persisted := some (.json tree, s.next)
        history := s.history ++ [Entry.password save.username save.password] }.goto tid
        (.reloading (some s.next))

/-- The assignments of a reload; a change is completed by them. -/
def assign (s : Process) (completes : Option ℕ) (tree : Ptree) (version : ℕ) : Process :=
  match assignRecord s.ram tree with
  | (ram, true) =>
      { s with
        ram, ramVersion := version
        completed := max s.completed (completes.getD 0)
        floor := max s.floor (completes.getD 0) }
  | (ram, false) => { s with ram, reloadSpoiled := s.reloadSpoiled || ram ≠ s.ram }

/-- The record is gone. -/
def erase (s : Process) : Process :=
  { s with persisted := none, history := s.history ++ [Entry.reset], floor := s.next }

end Process

variable (crypto : Crypto)

def step (s : Process) : Label → Option Process
  | .snapshot tid username password =>
      match s.threads tid with
      | .idle => some (s.goto tid (.verifying username password s.ram s.ramVersion))
      | _ => none
  | .verified tid =>
      match s.threads tid with
      | .verifying username password snapshot _ =>
          if accepts crypto snapshot username password && snapshot.legacy &&
            crypto.argon2idAvailable then none
          else some (s.goto tid .idle)
      | _ => none
  | .upgrade tid =>
      match s.threads tid with
      | .verifying username password snapshot version =>
          if (accepts crypto snapshot username password && snapshot.legacy &&
              crypto.argon2idAvailable) = true ∧ s.lock = none then
            some ({ s with lock := some tid }.goto tid (.locked ⟨username, password, some version⟩))
          else none
      | _ => none
  | .beginChange tid username password =>
      match s.threads tid with
      | .idle =>
          if s.lock = none then
            some ({ s with lock := some tid }.goto tid (.locked ⟨username, password, none⟩))
          else none
      | _ => none
  | .beginReload tid =>
      match s.threads tid with
      | .idle =>
          if s.lock = none then some ({ s with lock := some tid }.goto tid (.reloading none))
          else none
      | _ => none
  | .loadExisting tid ok =>
      match s.threads tid with
      | .locked save =>
          some (s.goto tid (.saving save (if ok then s.persisted.map (·.1) else none)))
      | _ => none
  | .store tid salt ok =>
      match s.threads tid with
      | .saving save existing =>
          match saveRecord crypto (existingTree existing) save.username save.password salt with
          | none => some (s.release tid)
          | some tree => if ok then some (s.put tid save tree) else some (s.release tid)
      | _ => none
  | .loadBlob tid ok =>
      match s.threads tid with
      | .reloading completes =>
          match s.persisted with
          | some (blob, version) =>
              if ok then some (s.goto tid (.loaded completes blob version))
              else some (s.release tid)
          | none => some (s.release tid)
      | _ => none
  | .assign tid =>
      match s.threads tid with
      | .loaded completes blob version =>
          match blob with
          | .garbage => some (s.release tid)
          | .json tree => some ((s.assign completes tree version).release tid)
      | _ => none
  | .erase tid erasure =>
      match s.threads tid with
      | .idle =>
          match erasure with
          | .failed => some s
          | .halfway => some s.erase
          | .done => some (s.erase.goto tid (.erased s.next))
      | _ => none
  | .clear tid =>
      match s.threads tid with
      | .erased version =>
          some ({ s with
            ram := s.ram.clear
            ramVersion := s.history.length
            completed := max s.completed version }.goto tid .idle)
      | _ => none
  | .restart =>
      some { s with
        ram := s.ram.clear
        ramVersion := s.history.length
        lock := none
        threads := fun _ => .idle }

/-! ## Soundness -/

/-- The change of that number. -/
def entry (history : List Entry) (version : ℕ) : Option Entry :=
  if version = 0 then none else history[version - 1]?

/-- Something was completed, and the record accepts a login but none that is as new. -/
def OnlyOlder (s : Process) (c : Credentials) : Prop :=
  0 < s.completed ∧ (∃ username password, accepts crypto c username password = true) ∧
    ∀ version username password, s.completed ≤ version →
      entry s.history version = some (.password username password) →
      accepts crypto c username password = false

structure Sound (s : Process) : Prop where
  ram : ¬ OnlyOlder crypto s s.ram
  persisted : ∀ tree version, s.persisted = some (.json tree, version) →
    (assignRecord s.ram tree).2 = true → ¬ OnlyOlder crypto s (assignRecord s.ram tree).1
  reload : s.reloadSpoiled = false

/-- An upgrade reaches the store only if no completed change and no reset came after its
snapshot; a reset reaches it only outside the sections under the mutex; and no reload reads a
record that names a user and lacks another field. -/
def Orderly (s : Process) : Label → Prop
  | .store tid _ ok =>
      ok = true → ∀ version ∈ (s.threads tid).upgrading, s.floor ≤ version
  | .assign tid => ∀ tree ∈ (s.threads tid).record, ¬ Truncated tree
  | .erase _ erasure => erasure ≠ .failed → s.lock = none
  | _ => True

instance (s : Process) (label : Label) : Decidable (Orderly s label) :=
  match label with
  | .store tid _ ok => inferInstanceAs
      (Decidable (ok = true → ∀ version ∈ (s.threads tid).upgrading, s.floor ≤ version))
  | .assign tid => inferInstanceAs (Decidable (∀ tree ∈ (s.threads tid).record, ¬ Truncated tree))
  | .erase _ erasure => inferInstanceAs (Decidable (erasure ≠ .failed → s.lock = none))
  | .snapshot _ _ _ | .verified _ | .upgrade _ | .beginChange _ _ _ | .beginReload _
  | .loadExisting _ _ | .loadBlob _ _ | .clear _ | .restart => isTrue trivial

end LuminalShine.UserCreds
