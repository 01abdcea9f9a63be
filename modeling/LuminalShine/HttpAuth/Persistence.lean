import LuminalShine.HttpAuth.SessionTokens
import LuminalShine.Lib.Run
import LuminalShine.Lib.WriteBehind

/-!
# Two token managers and one state file

The API tokens and the sessions are saved to the same file, each manager under a key of its
own.  An operation changes the tokens under the mutex of its manager; the save that follows
takes a snapshot under that mutex, releases it, and later replaces the manager's part of the
file under the mutex of the state file.  Any thread may run in between.

Nothing orders the writes of two saves as their snapshots.  A save that is overtaken puts
back what was revoked meanwhile; `staleWrite_revives` is such a schedule for each manager.
`Guarded` says which steps go wrong, and `tokens_saved` what all the others do: each manager
is an instance of `Lib.WriteBehind`.

The operations that only read the tokens are not steps, and tokens are revoked one by one:
the managers have no operation for all of them.

## Main definitions

* `ApiTokenInfo`, `ApiNode` — the API tokens, in memory and in the file.
* `Phase`, `System`, `Label`, `step` — threads at work.
* `Guarded` — the condition on each step.
* `System.apiView`, `System.sessionView` — the managers as stores that save by snapshots.
-/

namespace LuminalShine.HttpAuth.Persistence

open LuminalShine.Lib

/-! ## API tokens -/

def toUpper (ch : UInt8) : UInt8 := if 97 ≤ ch && ch ≤ 122 then ch - 32 else ch

/-- An element of the `scopes` array of a request: `methods` is absent unless it is an
array. -/
structure Scope where
  path : Option Text
  methods : Option (List Text)
  deriving DecidableEq, Repr

/-- The methods of each path.  In which order the C++ map and its sets are written is left
out. -/
abbrev PathMethods := AList fun _ : Text => List Text

/-- `parse_json_scopes`: one invalid scope refuses the request. -/
def parseJsonScopes (scopes : List Scope) : Option PathMethods :=
  scopes.foldlM
    (fun pathMethods scope =>
      match scope.path, scope.methods with
      | some path, some methods => some (pathMethods.insert path ((methods.map (·.map toUpper)).dedup))
      | _, _ => none)
    ∅

structure ApiTokenInfo where
  hash : Text
  pathMethods : PathMethods
  username : Text
  createdAt : ℤ

/-- A child of `root.api_tokens`. -/
structure ApiNode where
  hash : Text
  username : Text
  createdAt : ℤ
  scopes : List (Text × List Text)
  deriving DecidableEq, Repr

abbrev ApiTokens := AList fun _ : Text => ApiTokenInfo

variable (conf : Config)

def ApiNode.ofEntry (entry : Σ _ : Text, ApiTokenInfo) : ApiNode where
  hash := entry.1
  username := entry.2.username
  createdAt := conf.seconds entry.2.createdAt
  scopes := entry.2.pathMethods.entries.map fun scope => (scope.1, scope.2)

/-- What a save of the API tokens writes. -/
def apiNodes (tokens : ApiTokens) : List ApiNode := tokens.entries.map (ApiNode.ofEntry conf)

/-- What a save of the sessions writes. -/
def sessionNodes (entries : List (Σ _ : Text, SessionToken)) : List Node :=
  entries.map (Node.ofEntry conf)

/-! ## The system -/

/-- The two keys of the state file. -/
structure StateFile where
  apiTokens : List ApiNode
  sessionTokens : List Node
  deriving DecidableEq, Repr

/-- Where a thread is.  A snapshot has its number in the order of its manager. -/
inductive Phase where
  | idle
  | apiToSave
  | apiWriting (number : ℕ) (snapshot : List ApiNode)
  /-- `issue_session_tokens` has stored the session. -/
  | toCleanup
  /-- `revoke_refresh_token` has found the session. -/
  | toRevoke (sessionHash : Text)
  | toSave
  | writing (number : ℕ) (snapshot : List (Σ _ : Text, SessionToken))
  /-- The write of the sessions has failed. -/
  | toMark

/-- The managers, the file and the threads.  History: whether the API tokens have changed
since their last snapshot, and the numbers of the snapshots taken and in the file. -/
structure System where
  apiTokens : ApiTokens
  sessions : SessionTokenManager
  file : StateFile
  phase : ℕ → Phase
  apiUnsaved : Bool
  apiTaken : ℕ
  apiWritten : ℕ
  taken : ℕ
  written : ℕ

/-- The critical sections.  A write has whether the file could be read and written. -/
inductive Label where
  | createApiToken (thread : ℕ) (now : ℤ) (scopes : List Scope) (username token : Text)
  | revokeApiTokenByHash (thread : ℕ) (hash : Text)
  | snapshotApi (thread : ℕ)
  | writeApi (thread : ℕ) (readable writable : Bool)
  | issue (thread : ℕ) (now : ℤ) (login : Login) (draw : Draw)
  | cleanup (thread : ℕ) (now : ℤ)
  | refresh (thread : ℕ) (now : ℤ) (renewal : Renewal) (draw : Draw)
  | validate (thread : ℕ) (now : ℤ) (token : Text)
  | username (thread : ℕ) (now : ℤ) (token : Text)
  | revokeByHash (thread : ℕ) (tokenHash : Text)
  | findRefresh (thread : ℕ) (refreshToken : Text)
  | revokeFound (thread : ℕ)
  | save (thread : ℕ)
  | snapshot (thread : ℕ)
  | write (thread : ℕ) (readable writable : Bool)
  | mark (thread : ℕ)

namespace System

/-- The thread goes on. -/
def goto (s : System) (thread : ℕ) (phase : Phase) : System :=
  { s with phase := Function.update s.phase thread phase }

/-- The thread has changed the sessions, and saves them if it has to. -/
def withSessions (s : System) (thread : ℕ) (result : SessionTokenManager × Bool) : System :=
  { s with sessions := result.1 }.goto thread (if result.2 then .toSave else .idle)

/-- A file that cannot be read is replaced as a whole. -/
def fileRead (s : System) (readable : Bool) : StateFile := if readable then s.file else ⟨[], []⟩

/-- A critical section that begins an operation. -/
def fromIdle (s : System) (thread : ℕ) (next : System) : Option System :=
  match s.phase thread with
  | .idle => some next
  | _ => none

def step (s : System) : Label → Option System
  | .createApiToken thread now scopes username token =>
      s.fromIdle thread <|
        match parseJsonScopes scopes with
        | none => s
        | some pathMethods =>
            let tokenHash := conf.hash token
            { s with
              apiTokens := s.apiTokens.insert tokenHash ⟨tokenHash, pathMethods, username, now⟩
              apiUnsaved := true }.goto thread .apiToSave
  | .revokeApiTokenByHash thread hash =>
      s.fromIdle thread <|
        if hash = [] ∨ hash ∉ s.apiTokens then s
        else
          { s with
            apiTokens := s.apiTokens.erase hash
            apiUnsaved := true }.goto thread .apiToSave
  | .snapshotApi thread =>
      match s.phase thread with
      | .apiToSave =>
          some ({ s with
            apiUnsaved := false
            apiTaken := s.apiTaken + 1 }.goto thread
              (.apiWriting (s.apiTaken + 1) (apiNodes conf s.apiTokens)))
      | _ => none
  | .writeApi thread readable writable =>
      match s.phase thread with
      | .apiWriting number snapshot =>
          if writable then
            some ({ s with
              file := { s.fileRead readable with apiTokens := snapshot }
              apiWritten := number }.goto thread .idle)
          -- the exception leaves the operation
          else some (s.goto thread .idle)
      | _ => none
  | .issue thread now login draw =>
      s.fromIdle thread <|
        { s with sessions := (s.sessions.issueSessionTokens conf now login draw).1 }.goto thread .toCleanup
  | .cleanup thread now =>
      let result := s.sessions.cleanupExpiredSessionTokens now
      match s.phase thread with
      -- the hourly task saves if it has removed something, a login in any case
      | .idle => some (s.withSessions thread result)
      | .toCleanup => some (s.withSessions thread (result.1, true))
      | _ => none
  | .refresh thread now renewal draw =>
      let result := s.sessions.refreshSessionTokens conf now renewal draw
      s.fromIdle thread (s.withSessions thread (result.1, result.2.2))
  | .validate thread now token =>
      let result := s.sessions.validateSessionTokenRole conf now token
      s.fromIdle thread (s.withSessions thread (result.1, result.2.2))
  | .username thread now token =>
      let result := s.sessions.getUsernameForToken conf now token
      s.fromIdle thread (s.withSessions thread (result.1, result.2.2))
  | .revokeByHash thread tokenHash =>
      s.fromIdle thread (s.withSessions thread (s.sessions.revokeSessionByHash tokenHash))
  | .findRefresh thread refreshToken =>
      s.fromIdle thread <|
        match s.sessions.sessionOfRefreshToken conf refreshToken with
        | none => s
        | some sessionHash => s.goto thread (.toRevoke sessionHash)
  | .revokeFound thread =>
      match s.phase thread with
      | .toRevoke sessionHash =>
          some (s.withSessions thread (s.sessions.revokeSessionByHash sessionHash))
      | _ => none
  | .save thread => s.fromIdle thread (s.goto thread .toSave)
  | .snapshot thread =>
      match s.phase thread with
      | .toSave =>
          match s.sessions.takeSnapshot with
          | none => some (s.goto thread .idle)
          | some (sessions, snapshot) =>
              some ({ s with
                sessions := sessions
                taken := s.taken + 1 }.goto thread (.writing (s.taken + 1) snapshot))
      | _ => none
  | .write thread readable writable =>
      match s.phase thread with
      | .writing number snapshot =>
          if writable then
            some ({ s with
              sessions := s.sessions.finishSave false
              file := { s.fileRead readable with sessionTokens := sessionNodes conf snapshot }
              written := number }.goto thread .idle)
          else some (s.goto thread .toMark)
      | _ => none
  | .mark thread =>
      match s.phase thread with
      | .toMark => some ({ s with sessions := s.sessions.finishSave true }.goto thread .idle)
      | _ => none

/-- Nobody is at work, and the file has the tokens of both managers. -/
def initial (apiTokens : ApiTokens) (sessions : SessionTokenManager) : System where
  apiTokens := apiTokens
  sessions := { sessions with dirty := false }
  file := ⟨apiNodes conf apiTokens, sessionNodes conf sessions.sessionTokens.entries⟩
  phase := fun _ => .idle
  apiUnsaved := false
  apiTaken := 0
  apiWritten := 0
  taken := 0
  written := 0

end System

/-- The number of the snapshot that a thread is about to write. -/
def Phase.apiNumber : Phase → Option ℕ
  | .apiWriting number _ => some number
  | _ => none

def Phase.number : Phase → Option ℕ
  | .writing number _ => some number
  | _ => none

/-- **When nothing is lost.**  The file can be read and written; a write finds no later
snapshot of its manager in the file; a username lookup, which does not save a session that
it removes, finds none that is past its refresh expiry. -/
def Guarded (s : System) : Label → Prop
  | .writeApi thread readable writable =>
      readable = true ∧ writable = true ∧ ∀ number ∈ (s.phase thread).apiNumber, s.apiWritten < number
  | .write thread readable writable =>
      readable = true ∧ writable = true ∧ ∀ number ∈ (s.phase thread).number, s.written < number
  | .username _ now token =>
      ∀ entry ∈ s.sessions.sessionTokens.lookup (conf.hash token), now ≤ entry.refreshExpiresAt
  -- only a failed write leads here
  | .mark _ => False
  | _ => True

instance (s : System) : ∀ label, Decidable (Guarded conf s label)
  | .writeApi thread readable writable =>
      inferInstanceAs (Decidable (readable = true ∧ writable = true ∧
        ∀ number ∈ (s.phase thread).apiNumber, s.apiWritten < number))
  | .write thread readable writable =>
      inferInstanceAs (Decidable (readable = true ∧ writable = true ∧
        ∀ number ∈ (s.phase thread).number, s.written < number))
  | .username _ now token =>
      inferInstanceAs (Decidable (∀ entry ∈ s.sessions.sessionTokens.lookup (conf.hash token),
        now ≤ entry.refreshExpiresAt))
  | .mark _ => isFalse id
  | .createApiToken .. | .revokeApiTokenByHash .. | .snapshotApi _ | .issue .. | .cleanup ..
  | .refresh .. | .validate .. | .revokeByHash .. | .findRefresh .. | .revokeFound _ | .save _
  | .snapshot _ => isTrue trivial

/-! ## The managers as stores that save by snapshots -/

def Phase.apiDuty : Phase → Duty (List ApiNode)
  | .apiToSave => .toSave
  | .apiWriting number snapshot => .writing number snapshot
  | _ => .nothing

def Phase.duty : Phase → Duty (List Node)
  | .toCleanup | .toSave => .toSave
  | .writing number snapshot => .writing number (sessionNodes conf snapshot)
  | _ => .nothing

namespace System

def apiView (s : System) : WriteBehind ℕ (List ApiNode) where
  memory := apiNodes conf s.apiTokens
  file := s.file.apiTokens
  unsaved := s.apiUnsaved
  taken := s.apiTaken
  written := s.apiWritten
  duty := fun thread => (s.phase thread).apiDuty

def sessionView (s : System) : WriteBehind ℕ (List Node) where
  memory := sessionNodes conf s.sessions.sessionTokens.entries
  file := s.file.sessionTokens
  unsaved := s.sessions.dirty
  taken := s.taken
  written := s.written
  duty := fun thread => (s.phase thread).duty conf

variable {conf} {s : System} {thread : ℕ}

theorem fromIdle_eq_some {next s' : System} :
    s.fromIdle thread next = some s' ↔ s.phase thread = .idle ∧ next = s' := by
  rw [fromIdle]
  split <;> simp_all

theorem apiView_goto (s : System) (thread : ℕ) (phase : Phase) :
    (s.goto thread phase).apiView conf =
      { s.apiView conf with
        duty := Function.update (s.apiView conf).duty thread phase.apiDuty } := by
  have hduty : (fun t => (Function.update s.phase thread phase t).apiDuty) =
      Function.update (fun t => (s.phase t).apiDuty) thread phase.apiDuty :=
    Function.comp_update Phase.apiDuty s.phase thread phase
  simp only [apiView, goto, hduty]

theorem sessionView_goto (s : System) (thread : ℕ) (phase : Phase) :
    (s.goto thread phase).sessionView conf =
      { s.sessionView conf with
        duty := Function.update (s.sessionView conf).duty thread (phase.duty conf) } := by
  have hduty : (fun t => (Function.update s.phase thread phase t).duty conf) =
      Function.update (fun t => (s.phase t).duty conf) thread (phase.duty conf) :=
    Function.comp_update (Phase.duty conf) s.phase thread phase
  simp only [sessionView, goto, hduty]

/-- A thread that goes on with the same duty does not show. -/
theorem apiView_goto_of_eq {phase : Phase} (h : phase.apiDuty = (s.phase thread).apiDuty) :
    (s.goto thread phase).apiView conf = s.apiView conf := by
  have hduty : Function.update (s.apiView conf).duty thread phase.apiDuty = (s.apiView conf).duty := by
    rw [h]
    exact Function.update_eq_self thread _
  rw [apiView_goto, hduty]

theorem sessionView_goto_of_eq {phase : Phase} (h : phase.duty conf = (s.phase thread).duty conf) :
    (s.goto thread phase).sessionView conf = s.sessionView conf := by
  have hduty : Function.update (s.sessionView conf).duty thread (phase.duty conf) =
      (s.sessionView conf).duty := by
    rw [h]
    exact Function.update_eq_self thread _
  rw [sessionView_goto, hduty]

end System

/-! ## Every guarded step shows as steps of the two stores -/

/-- What a step does, the stores can do. -/
structure Simulates (s s' : System) : Prop where
  api : Relation.ReflTransGen WriteBehind.Step (s.apiView conf) (s'.apiView conf)
  sessions : Relation.ReflTransGen WriteBehind.Step (s.sessionView conf) (s'.sessionView conf)

/-- An operation that changes the sessions marks them dirty and says that they are to be
saved. -/
structure Reports (m : SessionTokenManager) (result : SessionTokenManager × Bool) : Prop where
  dirty : result.2 = true → result.1.dirty = true
  same : result.2 = false → result.1 = m

section Reports

variable {conf} {m : SessionTokenManager}

theorem reports_refresh (now : ℤ) (renewal : Renewal) (draw : Draw) :
    Reports m ((m.refreshSessionTokens conf now renewal draw).1,
      (m.refreshSessionTokens conf now renewal draw).2.2) := by
  rw [SessionTokenManager.refreshSessionTokens]
  dsimp only
  split
  · exact ⟨nofun, fun _ => rfl⟩
  split
  · exact ⟨nofun, fun _ => rfl⟩
  split
  · exact ⟨fun _ => rfl, nofun⟩
  split
  · exact ⟨fun _ => rfl, nofun⟩
  · exact ⟨fun _ => rfl, nofun⟩

theorem reports_validate (now : ℤ) (token : Text) :
    Reports m ((m.validateSessionTokenRole conf now token).1,
      (m.validateSessionTokenRole conf now token).2.2) := by
  rw [SessionTokenManager.validateSessionTokenRole]
  split
  · exact ⟨nofun, fun _ => rfl⟩
  split
  · exact ⟨fun _ => rfl, nofun⟩
  split
  · exact ⟨nofun, fun _ => rfl⟩
  split
  · exact ⟨fun _ => rfl, nofun⟩
  · exact ⟨nofun, fun _ => rfl⟩

/-- Only the removal of an expired session is not reported. -/
theorem reports_username {now : ℤ} {token : Text}
    (hlive : ∀ entry ∈ m.sessionTokens.lookup (conf.hash token), now ≤ entry.refreshExpiresAt) :
    Reports m ((m.getUsernameForToken conf now token).1,
      (m.getUsernameForToken conf now token).2.2) := by
  rw [SessionTokenManager.getUsernameForToken]
  split
  · exact ⟨nofun, fun _ => rfl⟩
  rename_i entry hlookup
  split
  · have hnow := hlive entry hlookup
    omega
  split
  · exact ⟨nofun, fun _ => rfl⟩
  split
  · exact ⟨fun _ => rfl, nofun⟩
  · exact ⟨nofun, fun _ => rfl⟩

theorem reports_revoke (tokenHash : Text) : Reports m (m.revokeSessionByHash tokenHash) := by
  rw [SessionTokenManager.revokeSessionByHash]
  split
  · exact ⟨nofun, fun _ => rfl⟩
  · exact ⟨fun _ => rfl, nofun⟩

theorem dirty_drops {entries : List (Σ _ : Text, SessionToken)} (hdirty : m.dirty = true) :
    (entries.foldl (fun m entry => m.drop entry.1 entry.2) m).dirty = true := by
  induction entries generalizing m with
  | nil => exact hdirty
  | cons entry entries ih => exact ih rfl

theorem reports_cleanup (now : ℤ) : Reports m (m.cleanupExpiredSessionTokens now) := by
  rw [SessionTokenManager.cleanupExpiredSessionTokens]
  cases m.expired now with
  | nil => exact ⟨nofun, fun _ => rfl⟩
  | cons entry entries => exact ⟨fun _ => dirty_drops (m := m.drop entry.1 entry.2) rfl, nofun⟩

end Reports

namespace Simulates

variable {conf} {s s' : System} {thread : ℕ}

theorem refl (s : System) : Simulates conf s s := ⟨.refl, .refl⟩

/-- A thread goes on with the same duties. -/
theorem moved {phase : Phase} (hapi : phase.apiDuty = (s.phase thread).apiDuty)
    (hduty : phase.duty conf = (s.phase thread).duty conf) : Simulates conf s (s.goto thread phase) := by
  constructor
  · rw [System.apiView_goto_of_eq hapi]
  · rw [System.sessionView_goto_of_eq hduty]

/-- A thread changes the API tokens. -/
theorem apiChanged (hphase : s.phase thread = .idle) (tokens : ApiTokens) :
    Simulates conf s ({ s with apiTokens := tokens, apiUnsaved := true }.goto thread .apiToSave) where
  api := by
    have hduty : ∀ number snapshot, (s.apiView conf).duty thread ≠ .writing number snapshot := by
      simp only [System.apiView, hphase]
      exact Duty.nothing_ne
    rw [System.apiView_goto]
    exact .single (.change (s.apiView conf) thread (apiNodes conf tokens) hduty)
  sessions := by
    rw [System.sessionView_goto_of_eq]
    · exact .refl
    · simp only [hphase]
      rfl

/-- A thread changes the sessions and marks them dirty. -/
theorem changed {m : SessionTokenManager} {phase : Phase} (hdirty : m.dirty = true)
    (hapi : phase.apiDuty = (s.phase thread).apiDuty) (hphase : phase.duty conf = .toSave)
    (hduty : ∀ number snapshot, (s.phase thread).duty conf ≠ .writing number snapshot) :
    Simulates conf s ({ s with sessions := m }.goto thread phase) where
  api := by
    rw [System.apiView_goto_of_eq]
    · exact .refl
    · exact hapi
  sessions := by
    have hchange := WriteBehind.Step.change (s.sessionView conf) thread
      (sessionNodes conf m.sessionTokens.entries) hduty
    rw [System.sessionView_goto, hphase]
    simp only [System.sessionView, hdirty] at hchange ⊢
    exact .single hchange

/-- An operation on the sessions. -/
theorem withSessions {result : SessionTokenManager × Bool} (hphase : (s.phase thread).apiDuty = .nothing)
    (hduty : (s.phase thread).duty conf = .nothing) (hreports : Reports s.sessions result) :
    Simulates conf s (s.withSessions thread result) := by
  obtain ⟨m, saves⟩ := result
  cases saves with
  | false =>
      obtain rfl : m = s.sessions := hreports.same rfl
      exact moved hphase.symm hduty.symm
  | true =>
      refine changed (hreports.dirty rfl) hphase.symm rfl ?_
      rw [hduty]
      exact Duty.nothing_ne

theorem withSessions_of_idle {result : SessionTokenManager × Bool} (hphase : s.phase thread = .idle)
    (hreports : Reports s.sessions result) : Simulates conf s (s.withSessions thread result) := by
  refine withSessions ?_ ?_ hreports
  · rw [hphase]
    rfl
  · rw [hphase]
    rfl

/-- A login, up to its cleanup. -/
theorem issue (hphase : s.phase thread = .idle) (now : ℤ) (login : Login) (draw : Draw) :
    Simulates conf s
      ({ s with sessions := (s.sessions.issueSessionTokens conf now login draw).1 }.goto thread
        .toCleanup) := by
  refine changed rfl ?_ rfl ?_
  · rw [hphase]
    rfl
  · rw [hphase]
    exact Duty.nothing_ne

/-- The cleanup of a login, which saves in any case. -/
theorem cleanup (hphase : s.phase thread = .toCleanup) (now : ℤ) :
    Simulates conf s
      (s.withSessions thread ((s.sessions.cleanupExpiredSessionTokens now).1, true)) := by
  have hreports := reports_cleanup (m := s.sessions) now
  have hapi : Phase.toSave.apiDuty = (s.phase thread).apiDuty := by
    rw [hphase]
    rfl
  cases hremoved : (s.sessions.cleanupExpiredSessionTokens now).2 with
  | false =>
      rw [hreports.same hremoved]
      refine moved hapi ?_
      rw [hphase]
      rfl
  | true =>
      refine changed (hreports.dirty hremoved) hapi rfl ?_
      rw [hphase]
      exact Duty.toSave_ne

theorem snapshotApi (hphase : s.phase thread = .apiToSave) :
    Simulates conf s
      ({ s with apiUnsaved := false, apiTaken := s.apiTaken + 1 }.goto thread
        (.apiWriting (s.apiTaken + 1) (apiNodes conf s.apiTokens))) where
  api := by
    have hduty : (s.apiView conf).duty thread = .toSave := congrArg Phase.apiDuty hphase
    rw [System.apiView_goto]
    exact .single (.snapshot (s.apiView conf) thread hduty)
  sessions := by
    rw [System.sessionView_goto_of_eq]
    · exact .refl
    · simp only [hphase]
      rfl

theorem snapshot (hphase : s.phase thread = .toSave) :
    Simulates conf s
      ({ s with
          sessions := { s.sessions with dirty := false }
          taken := s.taken + 1 }.goto thread
        (.writing (s.taken + 1) s.sessions.sessionTokens.entries)) where
  api := by
    rw [System.apiView_goto_of_eq]
    · exact .refl
    · simp only [hphase]
      rfl
  sessions := by
    have hduty : (s.sessionView conf).duty thread = .toSave := congrArg (Phase.duty conf) hphase
    rw [System.sessionView_goto]
    exact .single (.snapshot (s.sessionView conf) thread hduty)

/-- There is nothing to save. -/
theorem skip (hphase : s.phase thread = .toSave) (hdirty : s.sessions.dirty = false) :
    Simulates conf s (s.goto thread .idle) where
  api := by
    rw [System.apiView_goto_of_eq]
    simp only [hphase]
    rfl
  sessions := by
    have hduty : (s.sessionView conf).duty thread = .toSave := congrArg (Phase.duty conf) hphase
    rw [System.sessionView_goto]
    exact .single (.skip (s.sessionView conf) thread hduty hdirty)

theorem save (hphase : s.phase thread = .idle) : Simulates conf s (s.goto thread .toSave) where
  api := by
    rw [System.apiView_goto_of_eq]
    simp only [hphase]
    rfl
  sessions := by
    have hduty : (s.sessionView conf).duty thread = .nothing := congrArg (Phase.duty conf) hphase
    rw [System.sessionView_goto]
    exact .single (.ask (s.sessionView conf) thread hduty)

theorem writeApi {number : ℕ} {nodes : List ApiNode} (hphase : s.phase thread = .apiWriting number nodes)
    (horder : s.apiWritten < number) :
    Simulates conf s
      ({ s with file := { s.file with apiTokens := nodes }, apiWritten := number }.goto thread .idle) where
  api := by
    have hduty : (s.apiView conf).duty thread = .writing number nodes := congrArg Phase.apiDuty hphase
    rw [System.apiView_goto]
    exact .single (.write (s.apiView conf) thread hduty horder)
  sessions := by
    rw [System.sessionView_goto_of_eq]
    · exact .refl
    · simp only [hphase]
      rfl

theorem write {number : ℕ} {entries : List (Σ _ : Text, SessionToken)}
    (hphase : s.phase thread = .writing number entries) (horder : s.written < number) :
    Simulates conf s
      ({ s with
          file := { s.file with sessionTokens := sessionNodes conf entries }
          written := number }.goto thread .idle) where
  api := by
    rw [System.apiView_goto_of_eq]
    · exact .refl
    · simp only [hphase]
      rfl
  sessions := by
    have hduty : (s.sessionView conf).duty thread = .writing number (sessionNodes conf entries) :=
      congrArg (Phase.duty conf) hphase
    rw [System.sessionView_goto]
    exact .single (.write (s.sessionView conf) thread hduty horder)

end Simulates

section Runs

variable {conf} {s s' : System} {label : Label}

/-- **Every guarded step is one of the two stores.** -/
theorem step_simulates (hguard : Guarded conf s label) (hstep : s.step conf label = some s') :
    Simulates conf s s' := by
  cases label with
  | createApiToken thread now scopes username token =>
      obtain ⟨hphase, rfl⟩ := System.fromIdle_eq_some.mp hstep
      split
      · exact .refl s
      · exact .apiChanged hphase _
  | revokeApiTokenByHash thread hash =>
      obtain ⟨hphase, rfl⟩ := System.fromIdle_eq_some.mp hstep
      split
      · exact .refl s
      · exact .apiChanged hphase _
  | snapshotApi thread =>
      simp only [System.step] at hstep
      split at hstep
      · rename_i hphase
        obtain rfl := Option.some.inj hstep
        exact .snapshotApi hphase
      · cases hstep
  | writeApi thread readable writable =>
      obtain ⟨rfl, rfl, horder⟩ := hguard
      simp only [System.step] at hstep
      split at hstep
      · rename_i number nodes hphase
        obtain rfl := Option.some.inj hstep
        refine .writeApi hphase (horder number ?_)
        rw [hphase]
        rfl
      · cases hstep
  | issue thread now login draw =>
      obtain ⟨hphase, rfl⟩ := System.fromIdle_eq_some.mp hstep
      exact .issue hphase now login draw
  | cleanup thread now =>
      simp only [System.step] at hstep
      split at hstep
      · rename_i hphase
        obtain rfl := Option.some.inj hstep
        exact .withSessions_of_idle hphase (reports_cleanup now)
      · rename_i hphase
        obtain rfl := Option.some.inj hstep
        exact .cleanup hphase now
      · cases hstep
  | refresh thread now renewal draw =>
      obtain ⟨hphase, rfl⟩ := System.fromIdle_eq_some.mp hstep
      exact .withSessions_of_idle hphase (reports_refresh now renewal draw)
  | validate thread now token =>
      obtain ⟨hphase, rfl⟩ := System.fromIdle_eq_some.mp hstep
      exact .withSessions_of_idle hphase (reports_validate now token)
  | username thread now token =>
      obtain ⟨hphase, rfl⟩ := System.fromIdle_eq_some.mp hstep
      exact .withSessions_of_idle hphase (reports_username hguard)
  | revokeByHash thread tokenHash =>
      obtain ⟨hphase, rfl⟩ := System.fromIdle_eq_some.mp hstep
      exact .withSessions_of_idle hphase (reports_revoke tokenHash)
  | findRefresh thread refreshToken =>
      obtain ⟨hphase, rfl⟩ := System.fromIdle_eq_some.mp hstep
      split
      · exact .refl s
      · refine .moved ?_ ?_
        · rw [hphase]
          rfl
        · rw [hphase]
          rfl
  | revokeFound thread =>
      simp only [System.step] at hstep
      split at hstep
      · rename_i sessionHash hphase
        obtain rfl := Option.some.inj hstep
        refine .withSessions ?_ ?_ (reports_revoke sessionHash)
        · rw [hphase]
          rfl
        · rw [hphase]
          rfl
      · cases hstep
  | save thread =>
      obtain ⟨hphase, rfl⟩ := System.fromIdle_eq_some.mp hstep
      exact .save hphase
  | snapshot thread =>
      simp only [System.step, SessionTokenManager.takeSnapshot] at hstep
      split at hstep
      · rename_i hphase
        cases hdirty : s.sessions.dirty with
        | false =>
            simp only [hdirty, Bool.false_eq_true, if_false] at hstep
            obtain rfl := Option.some.inj hstep
            exact .skip hphase hdirty
        | true =>
            simp only [hdirty, if_true] at hstep
            obtain rfl := Option.some.inj hstep
            exact .snapshot hphase
      · cases hstep
  | write thread readable writable =>
      obtain ⟨rfl, rfl, horder⟩ := hguard
      simp only [System.step] at hstep
      split at hstep
      · rename_i number entries hphase
        obtain rfl := Option.some.inj hstep
        refine .write hphase (horder number ?_)
        rw [hphase]
        rfl
      · cases hstep
  | mark thread => exact hguard.elim

/-- The two stores keep their newest snapshots in sight. -/
structure Inv (conf : Config) (s : System) : Prop where
  api : (s.apiView conf).Inv
  sessions : (s.sessionView conf).Inv

theorem Inv.step (hI : Inv conf s) (hguard : Guarded conf s label)
    (hstep : s.step conf label = some s') : Inv conf s' := by
  have hsim := step_simulates hguard hstep
  exact ⟨hI.api.steps hsim.api, hI.sessions.steps hsim.sessions⟩

theorem inv_initial (apiTokens : ApiTokens) (sessions : SessionTokenManager) :
    Inv conf (System.initial conf apiTokens sessions) where
  api := .of_idle (fun _ => rfl) rfl rfl rfl
  sessions := .of_idle (fun _ => rfl) rfl rfl rfl

end Runs

/-- A clock of one tick a second. -/
def hostConf : Config where
  hash := fun token => 36 :: token
  hash_ne_nil := fun _ => List.cons_ne_nil _ _
  sessionTokenTtl := 600
  rememberMeRefreshTokenTtl := 0
  ticks := 1

def userLogin : Login := ⟨[97], 0, 0, [], [49], false, .admin⟩

def hostApiTokens : ApiTokens :=
  AList.singleton (hostConf.hash [1]) ⟨hostConf.hash [1], ∅, [97], 0⟩

def hostSessions : SessionTokenManager :=
  (SessionTokenManager.empty.issueSessionTokens hostConf 0 userLogin ⟨[1], [2], []⟩).1

/-- One API token and one session, both of token 1. -/
def host : System := System.initial hostConf hostApiTokens hostSessions

/-- The writes in the order of the snapshots. -/
def inOrder : List Label :=
  [.createApiToken 0 0 [] [97] [3], .snapshotApi 0, .revokeApiTokenByHash 1 (hostConf.hash [1]),
    .snapshotApi 1, .writeApi 0 true true, .writeApi 1 true true]

end LuminalShine.HttpAuth.Persistence
