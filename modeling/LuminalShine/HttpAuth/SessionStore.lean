import LuminalShine.HttpAuth.SessionTokens
import LuminalShine.Lib.Run
import Mathlib.Logic.Relation

/-!
# The session store over whole runs

The two maps of the manager have different keys, and five operations remove a session.  The
maps stay in step because every critical section is a chain of `Change`s: a session goes
together with its index entry, or comes with a hash that is nowhere in the store.

The state file brings sessions back.  What is written has the sessions of memory, so a load
cannot bring back a refresh token that was used, unless no write has succeeded since.

## Main definitions

* `State`, `Op`, `perform` — the manager with its file, one operation at a time.
* `Change`, `Changes` — what a critical section can do to the maps.
* `Sound`, `Stored` — the invariants of the maps and of the file.
* `Spent` — a refresh token that will not be accepted again.
-/

namespace LuminalShine.HttpAuth

open LuminalShine.Lib

/-! ## The system -/

/-- The manager, its part of the state file, and the history: every hash there was, and the
number of successful writes. -/
structure State where
  manager : SessionTokenManager
  file : List Node
  known : List Text
  writes : ℕ

/-- An operation with what its environment does: the times it reads, the texts it draws,
whether the state file can be read and written. -/
inductive Op where
  | issue (now cleanupNow : ℤ) (login : Login) (draw : Draw) (write : Bool)
  | refresh (now : ℤ) (renewal : Renewal) (draw : Draw) (write : Bool)
  | validate (now : ℤ) (token : Text) (write : Bool)
  | revoke (token : Text) (write : Bool)
  | revokeByHash (tokenHash : Text) (write : Bool)
  | revokeRefresh (refreshToken : Text) (write : Bool)
  | cleanup (now : ℤ)
  | username (now : ℤ) (token : Text) (write : Bool)
  | save (write : Bool)
  | load (now : ℤ) (readable write : Bool)

variable (conf : Config)

/-- The hashes of the texts that an operation draws. -/
def Draw.hashes (draw : Draw) : List Text := [conf.hash draw.sessionToken, conf.hash draw.refreshToken]

def Op.drawn : Op → List Text
  | .issue _ _ _ draw _ | .refresh _ _ draw _ => draw.hashes conf
  | _ => []

/-- `save_session_tokens`. -/
def State.save (s : State) (write : Bool) : State :=
  match s.manager.takeSnapshot with
  | none => s
  | some (manager, snapshot) =>
      if write then
        { s with
          manager := manager.finishSave false
          file := snapshot.map (Node.ofEntry conf)
          writes := s.writes + 1 }
      else { s with manager := manager.finishSave true }

/-- The save at the end of an operation. -/
def State.saveIf (s : State) (needed write : Bool) : State := if needed then s.save conf write else s

/-- The memory after an operation, and whether a save follows. -/
def SessionTokenManager.perform (m : SessionTokenManager) (file : List Node) :
    Op → SessionTokenManager × Bool
  | .issue now cleanupNow login draw _ =>
      (((m.issueSessionTokens conf now login draw).1.cleanupExpiredSessionTokens cleanupNow).1, true)
  | .refresh now renewal draw _ =>
      let result := m.refreshSessionTokens conf now renewal draw
      (result.1, result.2.2)
  | .validate now token _ =>
      let result := m.validateSessionTokenRole conf now token
      (result.1, result.2.2)
  | .revoke token _ => m.revokeSessionByHash (conf.hash token)
  | .revokeByHash tokenHash _ => m.revokeSessionByHash tokenHash
  | .revokeRefresh refreshToken _ =>
      match m.sessionOfRefreshToken conf refreshToken with
      | none => (m, false)
      | some sessionHash => m.revokeSessionByHash sessionHash
  | .cleanup now => ((m.cleanupExpiredSessionTokens now).1, false)
  | .username now token _ =>
      let result := m.getUsernameForToken conf now token
      (result.1, result.2.2)
  | .save _ => (m, true)
  | .load now readable _ => loadSessionTokens conf now (if readable then some file else none)

/-- Whether the write of an operation succeeds. -/
def Op.write : Op → Bool
  | .issue _ _ _ _ write | .refresh _ _ _ write | .validate _ _ write | .revoke _ write
  | .revokeByHash _ write | .revokeRefresh _ write | .username _ _ write | .save write
  | .load _ _ write => write
  | .cleanup _ => true

def State.perform (s : State) (op : Op) : State :=
  let result := s.manager.perform conf s.file op
  { s with
    manager := result.1
    known := s.known ++ op.drawn conf }.saveIf conf result.2 op.write

def step (s : State) (op : Op) : Option State := some (s.perform conf op)

/-- The texts that are drawn are new, and so are their hashes. -/
def Fresh (s : State) (op : Op) : Prop := ∀ hash ∈ op.drawn conf, hash ∉ s.known

instance (s : State) (op : Op) : Decidable (Fresh conf s op) :=
  inferInstanceAs (Decidable (∀ hash ∈ op.drawn conf, hash ∉ s.known))

/-- The refresh hashes of a file. -/
def refreshHashes (nodes : List Node) : List Text :=
  (nodes.map (·.refreshTokenHash)).filter (· ≠ [])

/-- A manager that was just constructed, next to a file. -/
def State.initial (file : List Node) : State where
  manager := .empty
  file := file
  known := file.map (·.hash) ++ refreshHashes file
  writes := 0

/-! ## What a critical section does -/

/-- One change of the maps.  `keys` and `refreshes` are the hashes that may come in. -/
inductive Change (keys refreshes : List Text) : SessionTokenManager → SessionTokenManager → Prop
  | drop (m : SessionTokenManager) {hash : Text} {token : SessionToken}
      (hlookup : m.sessionTokens.lookup hash = some token) :
      Change keys refreshes m (m.drop hash token)
  /-- An index entry without a session. -/
  | unlink (m : SessionTokenManager) {refreshHash sessionHash : Text}
      (hindex : m.refreshIndex.lookup refreshHash = some sessionHash)
      (hlookup : m.sessionTokens.lookup sessionHash = none) :
      Change keys refreshes m { m with refreshIndex := m.refreshIndex.erase refreshHash }
  | touch (m : SessionTokenManager) {hash : Text} {token : SessionToken} (now : ℤ)
      (hlookup : m.sessionTokens.lookup hash = some token) :
      Change keys refreshes m (m.touch hash token now)
  | add (m : SessionTokenManager) {hash : Text} {token : SessionToken}
      (hkey : hash ∈ keys) (hrefresh : token.refreshTokenHash ∈ refreshes)
      (hnil : token.refreshTokenHash ≠ [])
      (hnew : hash ∉ m.sessionTokens) (hunlinked : token.refreshTokenHash ∉ m.refreshIndex)
      (hordered : token.expiresAt ≤ token.refreshExpiresAt) :
      Change keys refreshes m
        { m with
          sessionTokens := m.sessionTokens.insert hash token
          refreshIndex := m.refreshIndex.insert token.refreshTokenHash hash }
  /-- A session from before refresh tokens. -/
  | addLegacy (m : SessionTokenManager) {hash : Text} {token : SessionToken}
      (hkey : hash ∈ keys) (hnil : token.refreshTokenHash = [])
      (hnew : hash ∉ m.sessionTokens) (hordered : token.expiresAt ≤ token.refreshExpiresAt) :
      Change keys refreshes m { m with sessionTokens := m.sessionTokens.insert hash token }
  | mark (m : SessionTokenManager) (dirty : Bool) : Change keys refreshes m { m with dirty := dirty }

abbrev Changes (keys refreshes : List Text) : SessionTokenManager → SessionTokenManager → Prop :=
  Relation.ReflTransGen (Change keys refreshes)

/-- **The maps are in step**, and the expiries in order. -/
structure Sound (known : List Text) (m : SessionTokenManager) : Prop where
  linked : ∀ refreshHash sessionHash, m.refreshIndex.lookup refreshHash = some sessionHash ↔
    refreshHash ≠ [] ∧ ∃ token, m.sessionTokens.lookup sessionHash = some token ∧
      token.refreshTokenHash = refreshHash
  ordered : ∀ hash token, m.sessionTokens.lookup hash = some token →
    token.expiresAt ≤ token.refreshExpiresAt
  known_sessions : ∀ hash token, m.sessionTokens.lookup hash = some token → hash ∈ known
  known_refreshes : ∀ refreshHash hash, m.refreshIndex.lookup refreshHash = some hash →
    refreshHash ∈ known

namespace Sound

variable {known known' : List Text} {m m' : SessionTokenManager}

theorem mono (hm : Sound known m) (hsub : ∀ hash ∈ known, hash ∈ known') : Sound known' m where
  linked := hm.linked
  ordered := hm.ordered
  known_sessions := fun hash token h => hsub hash (hm.known_sessions hash token h)
  known_refreshes := fun hash sessionHash h => hsub hash (hm.known_refreshes hash sessionHash h)

/-- A refresh hash belongs to one session. -/
theorem eq_of_refreshTokenHash (hm : Sound known m) {hash₁ hash₂ : Text}
    {token₁ token₂ : SessionToken} (h₁ : m.sessionTokens.lookup hash₁ = some token₁)
    (h₂ : m.sessionTokens.lookup hash₂ = some token₂) (hnil : token₁.refreshTokenHash ≠ [])
    (heq : token₁.refreshTokenHash = token₂.refreshTokenHash) : hash₁ = hash₂ := by
  have hindex₁ := (hm.linked token₁.refreshTokenHash hash₁).mpr ⟨hnil, token₁, h₁, rfl⟩
  have hindex₂ := (hm.linked token₁.refreshTokenHash hash₂).mpr ⟨hnil, token₂, h₂, heq.symm⟩
  rw [hindex₁] at hindex₂
  exact Option.some.inj hindex₂

theorem drop (hm : Sound known m) {hash : Text} {token : SessionToken}
    (hlookup : m.sessionTokens.lookup hash = some token) : Sound known (m.drop hash token) where
  linked := by
    intro refreshHash sessionHash
    -- the index entries that go are those of the session that goes
    have hindex : (m.drop hash token).refreshIndex.lookup refreshHash = some sessionHash ↔
        refreshHash ≠ token.refreshTokenHash ∧ m.refreshIndex.lookup refreshHash = some sessionHash := by
      by_cases hnil : token.refreshTokenHash = []
      · simp only [SessionTokenManager.drop, hnil, ne_eq, not_true_eq_false, if_false]
        refine ⟨fun h => ⟨((hm.linked _ _).mp h).1, h⟩, fun h => h.2⟩
      · simp only [SessionTokenManager.drop, ne_eq, hnil, not_false_eq_true, if_true]
        exact lookup_erase_eq_some
    rw [hindex, hm.linked]
    simp only [SessionTokenManager.drop]
    constructor
    · intro ⟨hne, hnil, t, ht, hrefresh⟩
      refine ⟨hnil, t, lookup_erase_eq_some.mpr ⟨?_, ht⟩, hrefresh⟩
      intro heq
      rw [heq, hlookup, Option.some.injEq] at ht
      exact hne (ht ▸ hrefresh.symm)
    · intro ⟨hnil, t, ht, hrefresh⟩
      obtain ⟨hne, ht⟩ := lookup_erase_eq_some.mp ht
      refine ⟨?_, hnil, t, ht, hrefresh⟩
      intro heq
      exact hne (hm.eq_of_refreshTokenHash ht hlookup (hrefresh ▸ hnil) (hrefresh.trans heq))
  ordered := forall_erase hm.ordered
  known_sessions := forall_erase hm.known_sessions
  known_refreshes := by
    simp only [SessionTokenManager.drop]
    split
    · exact forall_erase hm.known_refreshes
    · exact hm.known_refreshes

theorem touch (hm : Sound known m) {hash : Text} {token : SessionToken} (now : ℤ)
    (hlookup : m.sessionTokens.lookup hash = some token) :
    Sound known (m.touch hash token now) where
  linked := by
    intro refreshHash sessionHash
    refine (hm.linked refreshHash sessionHash).trans (and_congr_right fun _ => ?_)
    simp only [SessionTokenManager.touch, lookup_insert_eq_some]
    constructor
    · intro ⟨t, ht, hrefresh⟩
      by_cases hk : sessionHash = hash
      · rw [hk, hlookup, Option.some.injEq] at ht
        exact ⟨_, .inl ⟨hk, rfl⟩, ht ▸ hrefresh⟩
      · exact ⟨t, .inr ⟨hk, ht⟩, hrefresh⟩
    · intro ⟨t, ht, hrefresh⟩
      rcases ht with ⟨rfl, rfl⟩ | ⟨-, ht⟩
      · exact ⟨token, hlookup, hrefresh⟩
      · exact ⟨t, ht, hrefresh⟩
  ordered := forall_insert hm.ordered (hm.ordered hash token hlookup)
  known_sessions := forall_insert hm.known_sessions (hm.known_sessions hash token hlookup)
  known_refreshes := hm.known_refreshes

theorem add (hm : Sound known m) {hash : Text} {token : SessionToken}
    (hkey : hash ∈ known) (hrefresh : token.refreshTokenHash ∈ known)
    (hnil : token.refreshTokenHash ≠ []) (hnew : hash ∉ m.sessionTokens)
    (hunlinked : token.refreshTokenHash ∉ m.refreshIndex)
    (hordered : token.expiresAt ≤ token.refreshExpiresAt) :
    Sound known
      { m with
        sessionTokens := m.sessionTokens.insert hash token
        refreshIndex := m.refreshIndex.insert token.refreshTokenHash hash } where
  linked := by
    intro refreshHash sessionHash
    have hnone := AList.lookup_eq_none.mpr hnew
    have hunlinked := AList.lookup_eq_none.mpr hunlinked
    simp only [lookup_insert_eq_some]
    constructor
    · rintro (⟨rfl, rfl⟩ | ⟨-, hindex⟩)
      · exact ⟨hnil, token, .inl ⟨rfl, rfl⟩, rfl⟩
      · obtain ⟨hne, t, ht, heq⟩ := (hm.linked _ _).mp hindex
        refine ⟨hne, t, .inr ⟨?_, ht⟩, heq⟩
        rintro rfl
        rw [hnone] at ht
        cases ht
    · rintro ⟨hne, t, ⟨rfl, rfl⟩ | ⟨-, ht⟩, heq⟩
      · exact .inl ⟨heq.symm, rfl⟩
      · have hindex := (hm.linked refreshHash sessionHash).mpr ⟨hne, t, ht, heq⟩
        refine .inr ⟨?_, hindex⟩
        rintro rfl
        rw [hunlinked] at hindex
        cases hindex
  ordered := forall_insert hm.ordered hordered
  known_sessions := forall_insert hm.known_sessions hkey
  known_refreshes := forall_insert hm.known_refreshes hrefresh

theorem addLegacy (hm : Sound known m) {hash : Text} {token : SessionToken}
    (hkey : hash ∈ known) (hnil : token.refreshTokenHash = []) (hnew : hash ∉ m.sessionTokens)
    (hordered : token.expiresAt ≤ token.refreshExpiresAt) :
    Sound known { m with sessionTokens := m.sessionTokens.insert hash token } where
  linked := by
    intro refreshHash sessionHash
    have hnone := AList.lookup_eq_none.mpr hnew
    refine (hm.linked refreshHash sessionHash).trans (and_congr_right fun hne => ?_)
    simp only [lookup_insert_eq_some]
    constructor
    · intro ⟨t, ht, heq⟩
      refine ⟨t, .inr ⟨?_, ht⟩, heq⟩
      rintro rfl
      rw [hnone] at ht
      cases ht
    · rintro ⟨t, ⟨rfl, rfl⟩ | ⟨-, ht⟩, heq⟩
      · exact absurd (heq ▸ hnil) hne
      · exact ⟨t, ht, heq⟩
  ordered := forall_insert hm.ordered hordered
  known_sessions := forall_insert hm.known_sessions hkey
  known_refreshes := hm.known_refreshes

/-- **Every change keeps the maps in step.** -/
theorem change {keys refreshes : List Text} (hkeys : ∀ k ∈ keys, k ∈ known)
    (hrefreshes : ∀ k ∈ refreshes, k ∈ known) (hm : Sound known m)
    (hchange : Change keys refreshes m m') : Sound known m' := by
  cases hchange with
  | drop hlookup => exact hm.drop hlookup
  | unlink hindex hlookup =>
      obtain ⟨-, token, htoken, -⟩ := (hm.linked _ _).mp hindex
      rw [hlookup] at htoken
      cases htoken
  | touch now hlookup => exact hm.touch now hlookup
  | add hkey hrefresh hnil hnew hunlinked hordered =>
      exact hm.add (hkeys _ hkey) (hrefreshes _ hrefresh) hnil hnew hunlinked hordered
  | addLegacy hkey hnil hnew hordered => exact hm.addLegacy (hkeys _ hkey) hnil hnew hordered
  | mark dirty => exact ⟨hm.linked, hm.ordered, hm.known_sessions, hm.known_refreshes⟩

theorem changes {keys refreshes : List Text} (hkeys : ∀ k ∈ keys, k ∈ known)
    (hrefreshes : ∀ k ∈ refreshes, k ∈ known) (hm : Sound known m)
    (hchanges : Changes keys refreshes m m') : Sound known m' := by
  induction hchanges with
  | refl => exact hm
  | tail _ hchange ih => exact ih.change hkeys hrefreshes hchange

end Sound

/-- A refresh hash that does not come in is not there afterwards. -/
theorem Changes.notMem {keys refreshes : List Text} {m m' : SessionTokenManager} {hash : Text}
    (hchanges : Changes keys refreshes m m') (hout : hash ∉ refreshes) (hmem : hash ∉ m.refreshIndex) :
    hash ∉ m'.refreshIndex := by
  induction hchanges with
  | refl => exact hmem
  | tail _ hchange ih =>
      cases hchange with
      | drop _ =>
          simp only [SessionTokenManager.drop]
          split
          · exact fun h => ih (AList.mem_erase.mp h).2
          · exact ih
      | unlink _ _ => exact fun h => ih (AList.mem_erase.mp h).2
      | touch _ _ => exact ih
      | add _ hrefresh _ _ _ _ =>
          intro h
          rcases (AList.mem_insert _).mp h with rfl | h
          · exact hout hrefresh
          · exact ih h
      | addLegacy _ _ _ _ => exact ih
      | mark _ => exact ih

/-! ## The operations are chains of changes -/

section Operations

variable {keys refreshes known : List Text} {m : SessionTokenManager}

theorem changes_drops {entries : List (Σ _ : Text, SessionToken)} (hnodup : entries.NodupKeys)
    (hlookup : ∀ entry ∈ entries, m.sessionTokens.lookup entry.1 = some entry.2) :
    Changes keys refreshes m (entries.foldl (fun m entry => m.drop entry.1 entry.2) m) := by
  induction entries generalizing m with
  | nil => exact .refl
  | cons entry entries ih =>
      obtain ⟨hnew, hnodup⟩ := List.nodupKeys_cons.mp hnodup
      refine .head (.drop m (hlookup entry List.mem_cons_self)) (ih hnodup ?_)
      intro other hother
      refine lookup_erase_eq_some.mpr ⟨?_, hlookup other (List.mem_cons_of_mem _ hother)⟩
      intro heq
      exact hnew (heq ▸ List.mem_keys_of_mem hother)

theorem changes_cleanup (now : ℤ) :
    Changes keys refreshes m (m.cleanupExpiredSessionTokens now).1 := by
  refine changes_drops (m.sessionTokens.nodupKeys.sublist List.filter_sublist) ?_
  intro entry hentry
  exact AList.mem_lookup_iff.mpr (List.mem_of_mem_filter hentry)

theorem changes_revoke (tokenHash : Text) :
    Changes keys refreshes m (m.revokeSessionByHash tokenHash).1 := by
  rw [SessionTokenManager.revokeSessionByHash]
  split
  · exact .refl
  · rename_i hlookup
    exact .single (.drop m hlookup)

theorem changes_validate (now : ℤ) (token : Text) :
    Changes keys refreshes m (m.validateSessionTokenRole conf now token).1 := by
  rw [SessionTokenManager.validateSessionTokenRole]
  split
  · exact .refl
  · rename_i hlookup
    split
    · exact .single (.drop m hlookup)
    · split
      · exact .refl
      · split
        · exact .single (.touch m now hlookup)
        · exact .refl

/-- A username lookup changes the memory as a validation does. -/
theorem fst_getUsernameForToken (now : ℤ) (token : Text) :
    (m.getUsernameForToken conf now token).1 = (m.validateSessionTokenRole conf now token).1 := by
  rw [SessionTokenManager.getUsernameForToken, SessionTokenManager.validateSessionTokenRole]
  split
  · rfl
  · split
    · rfl
    · split
      · rfl
      · split <;> rfl

theorem Login.token_ordered (login : Login) (now : ℤ) (draw : Draw) :
    (login.token conf now draw).expiresAt ≤ (login.token conf now draw).refreshExpiresAt :=
  Int.min_le_right _ _

theorem Renewal.token_ordered (renewal : Renewal) (now : ℤ) (draw : Draw) (entry : SessionToken) :
    (renewal.token conf now draw entry).expiresAt ≤
      (renewal.token conf now draw entry).refreshExpiresAt :=
  Int.min_le_right _ _

/-- The hashes of a draw are in neither map. -/
theorem Sound.notMem_of_fresh {draw : Draw} (hm : Sound known m)
    (hfresh : ∀ hash ∈ draw.hashes conf, hash ∉ known) :
    conf.hash draw.sessionToken ∉ m.sessionTokens ∧ conf.hash draw.refreshToken ∉ m.refreshIndex := by
  refine ⟨notMem_of_forall hm.known_sessions (hfresh _ ?_),
    notMem_of_forall hm.known_refreshes (hfresh _ ?_)⟩
  · simp [Draw.hashes]
  · simp [Draw.hashes]

theorem changes_issue {draw : Draw} (hm : Sound known m)
    (hfresh : ∀ hash ∈ draw.hashes conf, hash ∉ known) (now : ℤ) (login : Login) :
    Changes (draw.hashes conf) (draw.hashes conf) m (m.issueSessionTokens conf now login draw).1 := by
  obtain ⟨hsession, hrefresh⟩ := hm.notMem_of_fresh conf hfresh
  have hemplace : emplace (m.sessionTokens.erase (conf.hash draw.sessionToken))
      (conf.hash draw.sessionToken) (login.token conf now draw) =
        m.sessionTokens.insert (conf.hash draw.sessionToken) (login.token conf now draw) := by
    rw [erase_of_lookup_none (AList.lookup_eq_none.mpr hsession), emplace_of_notMem hsession]
  refine .tail (.single (.add m ?_ ?_ (conf.hash_ne_nil _) hsession hrefresh
    (login.token_ordered conf now draw))) ?_
  · exact List.mem_cons_self
  · exact List.mem_cons_of_mem _ List.mem_cons_self
  · rw [SessionTokenManager.issueSessionTokens, hemplace]
    exact .mark _ true

/-- The session that a refresh hash leads to is the one that has it. -/
theorem Sound.drop_of_index (hm : Sound known m) {refreshHash sessionHash : Text} {entry : SessionToken}
    (hindex : m.refreshIndex.lookup refreshHash = some sessionHash)
    (hlookup : m.sessionTokens.lookup sessionHash = some entry) :
    m.drop sessionHash entry =
      { sessionTokens := m.sessionTokens.erase sessionHash
        refreshIndex := m.refreshIndex.erase refreshHash
        dirty := true } := by
  obtain ⟨hnil, token, htoken, hrefresh⟩ := (hm.linked _ _).mp hindex
  rw [hlookup, Option.some.injEq] at htoken
  subst htoken hrefresh
  simp only [SessionTokenManager.drop, ne_eq, hnil, not_false_eq_true, if_true]

theorem changes_refresh {draw : Draw} (hm : Sound known m)
    (hfresh : ∀ hash ∈ draw.hashes conf, hash ∉ known) (now : ℤ) (renewal : Renewal) :
    Changes (draw.hashes conf) (draw.hashes conf) m
      (m.refreshSessionTokens conf now renewal draw).1 := by
  obtain ⟨hsession, hrefresh⟩ := hm.notMem_of_fresh conf hfresh
  rw [SessionTokenManager.refreshSessionTokens]
  dsimp only
  split
  · exact .refl
  split
  · exact .refl
  rename_i sessionHash hindex
  split
  · rename_i hlookup
    exact .tail (.single (.unlink m hindex hlookup)) (.mark _ true)
  rename_i entry hlookup
  have hdrop := hm.drop_of_index hindex hlookup
  split
  · exact hdrop ▸ .single (.drop m hlookup)
  · -- the old session goes, then the new one comes
    have hnew : conf.hash draw.sessionToken ∉ m.sessionTokens.erase sessionHash :=
      fun h => hsession (AList.mem_erase.mp h).2
    have hunlinked : conf.hash draw.refreshToken ∉
        m.refreshIndex.erase (conf.hash renewal.refreshToken) :=
      fun h => hrefresh (AList.mem_erase.mp h).2
    rw [emplace_of_notMem hnew]
    refine .head (.drop m hlookup) (.single ?_)
    rw [hdrop]
    exact .add _ List.mem_cons_self (List.mem_cons_of_mem _ List.mem_cons_self)
      (conf.hash_ne_nil _) hnew hunlinked (renewal.token_ordered conf now draw entry)

/-! ### Loading -/

theorem Node.token_ordered (node : Node) :
    (node.token conf).1.expiresAt ≤ (node.token conf).1.refreshExpiresAt := by
  rw [Node.token]
  dsimp only
  split <;> omega

theorem mem_refreshHashes {nodes : List Node} {hash : Text} :
    hash ∈ refreshHashes nodes ↔ hash ≠ [] ∧ ∃ node ∈ nodes, node.refreshTokenHash = hash := by
  simp only [refreshHashes, List.mem_filter, List.mem_map, decide_eq_true_eq]
  exact and_comm

theorem refreshHashes_cons (node : Node) (nodes : List Node) :
    refreshHashes (node :: nodes) = refreshHashes [node] ++ refreshHashes nodes := by
  rw [refreshHashes, List.map_cons, ← List.singleton_append, List.filter_append]
  rfl

theorem changes_loadNode {node : Node} {acc : SessionTokenManager × Bool} (now : ℤ)
    (hunlinked : ∀ hash ∈ refreshHashes [node], hash ∉ acc.1.refreshIndex) :
    Changes [node.hash] (refreshHashes [node]) acc.1
      (SessionTokenManager.loadNode conf now acc node).1 := by
  have hordered := node.token_ordered conf
  rw [SessionTokenManager.loadNode]
  split
  · exact .refl
  dsimp only
  split
  · exact .refl
  split
  · exact .refl
  rename_i hnew
  by_cases hnil : (node.token conf).1.refreshTokenHash = []
  · rw [if_neg (not_not.mpr hnil)]
    exact .single (.addLegacy acc.1 List.mem_cons_self hnil hnew hordered)
  · rw [if_pos hnil]
    have hmem : node.refreshTokenHash ∈ refreshHashes [node] :=
      mem_refreshHashes.mpr ⟨hnil, node, List.mem_cons_self, rfl⟩
    exact .single (.add acc.1 List.mem_cons_self hmem hnil hnew (hunlinked _ hmem) hordered)

theorem Change.mono {keys' refreshes' : List Text} {m' : SessionTokenManager}
    (hkeys : ∀ k ∈ keys, k ∈ keys') (hrefreshes : ∀ k ∈ refreshes, k ∈ refreshes')
    (hchange : Change keys refreshes m m') : Change keys' refreshes' m m' := by
  cases hchange with
  | drop hlookup => exact .drop m hlookup
  | unlink hindex hlookup => exact .unlink m hindex hlookup
  | touch now hlookup => exact .touch m now hlookup
  | add hkey hrefresh hnil hnew hunlinked hordered =>
      exact .add m (hkeys _ hkey) (hrefreshes _ hrefresh) hnil hnew hunlinked hordered
  | addLegacy hkey hnil hnew hordered => exact .addLegacy m (hkeys _ hkey) hnil hnew hordered
  | mark dirty => exact .mark m dirty

theorem Changes.mono {keys' refreshes' : List Text} {m' : SessionTokenManager}
    (hchanges : Changes keys refreshes m m') (hkeys : ∀ k ∈ keys, k ∈ keys')
    (hrefreshes : ∀ k ∈ refreshes, k ∈ refreshes') : Changes keys' refreshes' m m' :=
  Relation.ReflTransGen.mono (fun _ _ hchange => hchange.mono hkeys hrefreshes) _ _ hchanges

/-- The nodes come in one by one; a refresh hash that two of them have would break the
index. -/
theorem changes_loadNodes {nodes : List Node} {acc : SessionTokenManager × Bool} (now : ℤ)
    (hdistinct : (refreshHashes nodes).Nodup)
    (hunlinked : ∀ hash ∈ refreshHashes nodes, hash ∉ acc.1.refreshIndex) :
    Changes (nodes.map (·.hash)) (refreshHashes nodes) acc.1
      (nodes.foldl (SessionTokenManager.loadNode conf now) acc).1 := by
  induction nodes generalizing acc with
  | nil => exact .refl
  | cons node nodes ih =>
      rw [refreshHashes_cons] at hdistinct hunlinked ⊢
      obtain ⟨-, hrest, hdisjoint⟩ := List.nodup_append.mp hdistinct
      have hnode := changes_loadNode conf now fun hash h => hunlinked hash (List.mem_append_left _ h)
      have hnodes := ih hrest fun hash h =>
        hnode.notMem (fun h' => hdisjoint hash h' hash h rfl) (hunlinked hash (List.mem_append_right _ h))
      refine .trans (hnode.mono ?_ ?_) (hnodes.mono ?_ ?_)
      · intro k hk
        exact List.mem_singleton.mp hk ▸ List.mem_cons_self
      · exact fun k hk => List.mem_append_left _ hk
      · exact fun k hk => List.mem_cons_of_mem _ hk
      · exact fun k hk => List.mem_append_right _ hk

theorem changes_load {file : List Node} (now : ℤ) (readable : Bool)
    (hdistinct : (refreshHashes file).Nodup) :
    Changes (file.map (·.hash)) (refreshHashes file) .empty
      (SessionTokenManager.loadSessionTokens conf now (if readable then some file else none)).1 := by
  cases readable with
  | false => exact .refl
  | true =>
      let acc : SessionTokenManager × Bool := (.empty, false)
      have hunlinked : ∀ hash ∈ refreshHashes file, hash ∉ acc.1.refreshIndex :=
        fun hash _ => AList.notMem_empty hash
      exact (changes_loadNodes conf now hdistinct hunlinked).tail (.mark _ _)

end Operations

/-! ## The file -/

/-- The file can be loaded. -/
structure Stored (known : List Text) (file : List Node) : Prop where
  distinct : (refreshHashes file).Nodup
  known_sessions : ∀ hash ∈ file.map (·.hash), hash ∈ known
  known_refreshes : ∀ hash ∈ refreshHashes file, hash ∈ known

section File

variable {known : List Text} {m : SessionTokenManager}

/-- A snapshot has the refresh hashes of the index. -/
theorem Sound.mem_refreshHashes_snapshot (hm : Sound known m) {hash : Text} :
    hash ∈ refreshHashes (m.sessionTokens.entries.map (Node.ofEntry conf)) ↔ hash ∈ m.refreshIndex := by
  rw [mem_refreshHashes, ← AList.lookup_isSome, Option.isSome_iff_exists]
  constructor
  · intro ⟨hnil, node, hnode, heq⟩
    obtain ⟨entry, hentry, rfl⟩ := List.mem_map.mp hnode
    exact ⟨entry.1, (hm.linked _ _).mpr ⟨hnil, entry.2, AList.mem_lookup_iff.mpr hentry, heq⟩⟩
  · intro ⟨sessionHash, hindex⟩
    obtain ⟨hnil, token, htoken, heq⟩ := (hm.linked _ _).mp hindex
    exact ⟨hnil, _, List.mem_map_of_mem (AList.mem_lookup_iff.mp htoken), heq⟩

theorem Sound.stored (hm : Sound known m) :
    Stored known (m.sessionTokens.entries.map (Node.ofEntry conf)) where
  distinct := by
    rw [refreshHashes, List.map_map, List.Nodup, List.pairwise_filter, List.pairwise_map]
    refine (List.nodupKeys_iff_pairwise.mp m.sessionTokens.nodupKeys).imp_of_mem ?_
    intro entry₁ entry₂ h₁ h₂ hne hnil _ heq
    exact hne (hm.eq_of_refreshTokenHash (AList.mem_lookup_iff.mpr h₁)
      (AList.mem_lookup_iff.mpr h₂) (of_decide_eq_true hnil) heq)
  known_sessions := by
    intro hash hhash
    rw [List.map_map] at hhash
    obtain ⟨entry, hentry, rfl⟩ := List.mem_map.mp hhash
    exact hm.known_sessions entry.1 entry.2 (AList.mem_lookup_iff.mpr hentry)
  known_refreshes := by
    intro hash hhash
    have hmem := (hm.mem_refreshHashes_snapshot conf).mp hhash
    obtain ⟨sessionHash, hindex⟩ := Option.isSome_iff_exists.mp (AList.lookup_isSome.mpr hmem)
    exact hm.known_refreshes hash sessionHash hindex

end File

/-! ## Runs -/

structure Inv (s : State) : Prop where
  sound : Sound s.known s.manager
  stored : Stored s.known s.file

/-- A used refresh token: its hash is not in the index, and not in a file that was written
after `writes` writes. -/
structure Spent (hash : Text) (writes : ℕ) (s : State) : Prop where
  known : hash ∈ s.known
  unlinked : hash ∉ s.manager.refreshIndex
  unsaved : writes < s.writes → hash ∉ refreshHashes s.file

def Op.isLoad : Op → Bool
  | .load .. => true
  | _ => false

section Runs

variable {conf} {s : State} {op : Op} {hash : Text} {writes : ℕ}

/-- A save changes the flag only, or it writes the sessions of memory. -/
theorem State.saveIf_cases (conf : Config) (s : State) (needed write : Bool) :
    ∃ dirty, s.saveIf conf needed write = { s with manager := { s.manager with dirty := dirty } } ∨
      s.saveIf conf needed write =
        { s with
          manager := { s.manager with dirty := dirty }
          file := s.manager.sessionTokens.entries.map (Node.ofEntry conf)
          writes := s.writes + 1 } := by
  rw [State.saveIf, State.save, SessionTokenManager.takeSnapshot]
  cases needed with
  | false => exact ⟨s.manager.dirty, .inl rfl⟩
  | true =>
      cases hdirty : s.manager.dirty with
      | false => exact ⟨s.manager.dirty, .inl rfl⟩
      | true =>
          cases write with
          | false => exact ⟨true, .inl rfl⟩
          | true => exact ⟨false, .inr rfl⟩

theorem Inv.saveIf (hI : Inv s) (needed write : Bool) : Inv (s.saveIf conf needed write) := by
  have hsound (dirty : Bool) : Sound s.known { s.manager with dirty := dirty } :=
    ⟨hI.sound.linked, hI.sound.ordered, hI.sound.known_sessions, hI.sound.known_refreshes⟩
  obtain ⟨dirty, heq | heq⟩ := s.saveIf_cases conf needed write
  · rw [heq]
    exact ⟨hsound dirty, hI.stored⟩
  · rw [heq]
    exact ⟨hsound dirty, hI.sound.stored conf⟩

theorem Spent.saveIf (hspent : Spent hash writes s) (hsound : Sound s.known s.manager)
    (needed write : Bool) : Spent hash writes (s.saveIf conf needed write) := by
  obtain ⟨dirty, heq | heq⟩ := s.saveIf_cases conf needed write
  · rw [heq]
    exact ⟨hspent.known, hspent.unlinked, hspent.unsaved⟩
  · rw [heq]
    refine ⟨hspent.known, hspent.unlinked, fun _ hmem => ?_⟩
    exact hspent.unlinked ((hsound.mem_refreshHashes_snapshot conf).mp hmem)

/-- **Every operation but a load is a chain of changes.** -/
theorem changes_perform (hsound : Sound s.known s.manager) (hfresh : Fresh conf s op)
    (hload : op.isLoad = false) :
    Changes (op.drawn conf) (op.drawn conf) s.manager (s.manager.perform conf s.file op).1 := by
  cases op with
  | issue now cleanupNow login draw write =>
      exact (changes_issue conf hsound hfresh now login).trans (changes_cleanup cleanupNow)
  | refresh now renewal draw write => exact changes_refresh conf hsound hfresh now renewal
  | validate now token write => exact changes_validate conf now token
  | revoke token write => exact changes_revoke (conf.hash token)
  | revokeByHash tokenHash write => exact changes_revoke tokenHash
  | revokeRefresh refreshToken write =>
      rw [SessionTokenManager.perform]
      split
      · exact .refl
      · rename_i sessionHash _
        exact changes_revoke sessionHash
  | cleanup now => exact changes_cleanup now
  | username now token write =>
      rw [SessionTokenManager.perform, fst_getUsernameForToken]
      exact changes_validate conf now token
  | save write => exact .refl
  | load now readable write => cases hload

theorem sound_empty (known : List Text) : Sound known .empty where
  linked := by
    intro refreshHash sessionHash
    simp [SessionTokenManager.empty]
  ordered := by
    intro k token h
    simp [SessionTokenManager.empty] at h
  known_sessions := by
    intro k token h
    simp [SessionTokenManager.empty] at h
  known_refreshes := by
    intro k sessionHash h
    simp [SessionTokenManager.empty] at h

theorem Inv.sound_perform (hI : Inv s) (hfresh : Fresh conf s op) :
    Sound (s.known ++ op.drawn conf) (s.manager.perform conf s.file op).1 := by
  have hleft : ∀ k ∈ s.known, k ∈ s.known ++ op.drawn conf := fun k hk => List.mem_append_left _ hk
  have hright : ∀ k ∈ op.drawn conf, k ∈ s.known ++ op.drawn conf :=
    fun k hk => List.mem_append_right _ hk
  cases hload : op.isLoad with
  | false =>
      exact (hI.sound.mono hleft).changes hright hright (changes_perform hI.sound hfresh hload)
  | true =>
      cases op with
      | load now readable write =>
          exact (sound_empty _).changes (fun k hk => hleft k (hI.stored.known_sessions k hk))
            (fun k hk => hleft k (hI.stored.known_refreshes k hk))
            (changes_load conf now readable hI.stored.distinct)
      | _ => cases hload

/-- **Every operation keeps the invariant.** -/
theorem Inv.perform (hI : Inv s) (hfresh : Fresh conf s op) : Inv (s.perform conf op) := by
  refine Inv.saveIf ⟨hI.sound_perform hfresh, ?_⟩ _ _
  exact ⟨hI.stored.distinct, fun k hk => List.mem_append_left _ (hI.stored.known_sessions k hk),
    fun k hk => List.mem_append_left _ (hI.stored.known_refreshes k hk)⟩

/-- **A used refresh token stays used** while loads read what was written since. -/
theorem Spent.perform (hI : Inv s) (hfresh : Fresh conf s op)
    (hload : op.isLoad = true → writes < s.writes) (hspent : Spent hash writes s) :
    Spent hash writes (s.perform conf op) := by
  have hunlinked : hash ∉ (s.manager.perform conf s.file op).1.refreshIndex := by
    cases hop : op.isLoad with
    | false =>
        exact (changes_perform hI.sound hfresh hop).notMem
          (fun hmem => hfresh hash hmem hspent.known) hspent.unlinked
    | true =>
        cases op with
        | load now readable write =>
            exact (changes_load conf now readable hI.stored.distinct).notMem
              (hspent.unsaved (hload rfl)) (AList.notMem_empty hash)
        | _ => cases hop
  let s' : State :=
    { s with
      manager := (s.manager.perform conf s.file op).1
      known := s.known ++ op.drawn conf }
  have hspent' : Spent hash writes s' :=
    ⟨List.mem_append_left _ hspent.known, hunlinked, hspent.unsaved⟩
  exact hspent'.saveIf (hI.sound_perform hfresh) _ _

theorem inv_initial {file : List Node} (hfile : (refreshHashes file).Nodup) :
    Inv (State.initial file) where
  sound := sound_empty _
  stored := ⟨hfile, fun _ hk => List.mem_append_left _ hk, fun _ hk => List.mem_append_right _ hk⟩

theorem inv_of_run {ops : List Op} {t : State} (hI : Inv s)
    (hfresh : RunMeets (step conf) (Fresh conf) s ops) (hrun : run (step conf) s ops = some t) :
    Inv t := by
  refine run_invariant_of_meets ?_ hI hfresh hrun
  intro s₁ op s₂ hI hfresh hstep
  obtain rfl := Option.some.inj hstep
  exact hI.perform hfresh

theorem inv_spent_of_run {ops : List Op} {t : State} (hI : Inv s) (hspent : Spent hash writes s)
    (hmeets : RunMeets (step conf)
      (fun s op => Fresh conf s op ∧ (op.isLoad = true → writes < s.writes)) s ops)
    (hrun : run (step conf) s ops = some t) : Inv t ∧ Spent hash writes t := by
  refine run_invariant_of_meets (P := fun s => Inv s ∧ Spent hash writes s) ?_ ⟨hI, hspent⟩ hmeets hrun
  intro s₁ op s₂ hboth hguard hstep
  obtain rfl := Option.some.inj hstep
  exact ⟨hboth.1.perform hguard.1, hboth.2.perform hboth.1 hguard.1 hguard.2⟩

/-! ### What an answer says -/

variable {m : SessionTokenManager} {now : ℤ}

theorem validateSessionTokenRole_eq_some {token : Text} {role : SessionRole}
    (hvalid : (m.validateSessionTokenRole conf now token).2.1 = some role) :
    ∃ entry, m.sessionTokens.lookup (conf.hash token) = some entry ∧
      now ≤ entry.expiresAt ∧ entry.role = role := by
  rw [SessionTokenManager.validateSessionTokenRole] at hvalid
  split at hvalid
  · cases hvalid
  · rename_i entry hlookup
    split at hvalid
    · cases hvalid
    · split at hvalid
      · cases hvalid
      · refine ⟨entry, hlookup, by omega, ?_⟩
        split at hvalid <;> exact Option.some.inj hvalid

/-- An accepted refresh token leads to a session, which a new one replaces. -/
theorem refreshSessionTokens_eq_some {renewal : Renewal} {draw : Draw} {bundle : SessionTokenBundle}
    (haccept : (m.refreshSessionTokens conf now renewal draw).2.1 = some bundle) :
    ∃ sessionHash entry,
      m.refreshIndex.lookup (conf.hash renewal.refreshToken) = some sessionHash ∧
      m.sessionTokens.lookup sessionHash = some entry ∧
      bundle = (renewal.token conf now draw entry).bundle conf now draw ∧
      (m.refreshSessionTokens conf now renewal draw).1 =
        { sessionTokens := emplace (m.sessionTokens.erase sessionHash)
            (conf.hash draw.sessionToken) (renewal.token conf now draw entry)
          refreshIndex := (m.refreshIndex.erase (conf.hash renewal.refreshToken)).insert
            (conf.hash draw.refreshToken) (conf.hash draw.sessionToken)
          dirty := true } := by
  rw [SessionTokenManager.refreshSessionTokens] at haccept ⊢
  split at haccept
  · cases haccept
  rename_i hempty
  dsimp only at haccept
  split at haccept
  · cases haccept
  rename_i sessionHash hindex
  split at haccept
  · cases haccept
  rename_i entry hlookup
  split at haccept
  · cases haccept
  rename_i hexpired
  refine ⟨sessionHash, entry, hindex, hlookup, (Option.some.inj haccept).symm, ?_⟩
  simp only [hempty, hindex, hlookup, hexpired, if_false]
  rfl

theorem refreshSessionTokens_eq_none {renewal : Renewal} (draw : Draw)
    (hunlinked : conf.hash renewal.refreshToken ∉ m.refreshIndex) :
    (m.refreshSessionTokens conf now renewal draw).2.1 = none := by
  rw [SessionTokenManager.refreshSessionTokens]
  simp only [AList.lookup_eq_none.mpr hunlinked]
  split <;> rfl

theorem State.saveIf_sessionTokens (s : State) (needed write : Bool) :
    (s.saveIf conf needed write).manager.sessionTokens = s.manager.sessionTokens := by
  obtain ⟨dirty, heq | heq⟩ := s.saveIf_cases conf needed write
  · rw [heq]
  · rw [heq]

/-- The session that a renewal makes. -/
theorem lookup_perform_refresh (hI : Inv s) {renewal : Renewal} {draw : Draw} {entry : SessionToken}
    {sessionHash : Text} {write : Bool} (hfresh : Fresh conf s (.refresh now renewal draw write))
    (htokens : (s.manager.refreshSessionTokens conf now renewal draw).1.sessionTokens =
      emplace (s.manager.sessionTokens.erase sessionHash) (conf.hash draw.sessionToken)
        (renewal.token conf now draw entry)) :
    (s.perform conf (.refresh now renewal draw write)).manager.sessionTokens.lookup
      (conf.hash draw.sessionToken) = some (renewal.token conf now draw entry) := by
  obtain ⟨hsession, -⟩ := hI.sound.notMem_of_fresh conf hfresh
  rw [State.perform, State.saveIf_sessionTokens]
  dsimp only [SessionTokenManager.perform]
  rw [htokens, emplace_of_notMem fun h => hsession (AList.mem_erase.mp h).2]
  exact AList.lookup_insert _

/-- **A refresh token is used up when it is accepted.** -/
theorem spent_perform_refresh (hI : Inv s) {renewal : Renewal} {draw : Draw} {sessionHash : Text}
    {write : Bool} (hfresh : Fresh conf s (.refresh now renewal draw write))
    (hindex : s.manager.refreshIndex.lookup (conf.hash renewal.refreshToken) = some sessionHash)
    (hrefreshes : (s.manager.refreshSessionTokens conf now renewal draw).1.refreshIndex =
      (s.manager.refreshIndex.erase (conf.hash renewal.refreshToken)).insert
        (conf.hash draw.refreshToken) (conf.hash draw.sessionToken)) :
    Spent (conf.hash renewal.refreshToken) s.writes
      (s.perform conf (.refresh now renewal draw write)) := by
  have hknown := hI.sound.known_refreshes _ _ hindex
  let s' : State :=
    { s with
      manager := (s.manager.refreshSessionTokens conf now renewal draw).1
      known := s.known ++ draw.hashes conf }
  have hspent : Spent (conf.hash renewal.refreshToken) s.writes s' := by
    refine ⟨List.mem_append_left _ hknown, ?_, fun hlt => absurd hlt (lt_irrefl _)⟩
    simp only [s', hrefreshes]
    intro hmem
    rcases (AList.mem_insert _).mp hmem with heq | hmem
    · refine hfresh (conf.hash draw.refreshToken) ?_ (heq ▸ hknown)
      exact List.mem_cons_of_mem _ List.mem_cons_self
    · exact (AList.mem_erase.mp hmem).1 rfl
  exact hspent.saveIf (hI.sound_perform hfresh) _ _

/-- An accepted refresh: the new session has the user, the role and the refresh expiry of
the old one, and the refresh token is used up. -/
theorem Inv.refresh (hI : Inv s) {renewal : Renewal} {draw : Draw} {bundle : SessionTokenBundle}
    {write : Bool} (hfresh : Fresh conf s (.refresh now renewal draw write))
    (haccept : (s.manager.refreshSessionTokens conf now renewal draw).2.1 = some bundle) :
    (∃ sessionHash entry updated,
      s.manager.refreshIndex.lookup (conf.hash renewal.refreshToken) = some sessionHash ∧
      s.manager.sessionTokens.lookup sessionHash = some entry ∧
      (s.perform conf (.refresh now renewal draw write)).manager.sessionTokens.lookup
        (conf.hash bundle.sessionToken) = some updated ∧
      updated.username = entry.username ∧ updated.role = entry.role ∧
      updated.refreshExpiresAt = entry.refreshExpiresAt) ∧
    Spent (conf.hash renewal.refreshToken) s.writes
      (s.perform conf (.refresh now renewal draw write)) := by
  obtain ⟨sessionHash, entry, hindex, hlookup, rfl, hmanager⟩ := refreshSessionTokens_eq_some haccept
  constructor
  · have hupdated := lookup_perform_refresh hI hfresh (congrArg (·.sessionTokens) hmanager)
    exact ⟨sessionHash, entry, _, hindex, hlookup, hupdated, rfl, rfl, rfl⟩
  · exact spent_perform_refresh hI hfresh hindex (congrArg (·.refreshIndex) hmanager)

end Runs

/-- **The session store over every run.**  Start from a file whose refresh hashes are
distinct, and let every draw be new; the times may be any.  The index and the sessions that
have a refresh hash are in bijection, no access expiry is after the refresh expiry, and a
session is valid until its access expiry, the last tick included.

An accepted refresh token renews its session for the same user and role, up to the same
refresh expiry.  From then on it is refused, provided that a load only reads a file that was
written since. -/
theorem session_store_invariant (file : List Node) (ops : List Op) (s : State)
    (hfile : (refreshHashes file).Nodup)
    (hfresh : RunMeets (step conf) (Fresh conf) (State.initial file) ops)
    (hrun : run (step conf) (State.initial file) ops = some s) :
    (∀ refreshHash sessionHash,
      s.manager.refreshIndex.lookup refreshHash = some sessionHash ↔
        refreshHash ≠ [] ∧ ∃ token, s.manager.sessionTokens.lookup sessionHash = some token ∧
          token.refreshTokenHash = refreshHash) ∧
    (∀ hash token, s.manager.sessionTokens.lookup hash = some token →
      token.expiresAt ≤ token.refreshExpiresAt) ∧
    (∀ now token role, (s.manager.validateSessionTokenRole conf now token).2.1 = some role →
      ∃ entry, s.manager.sessionTokens.lookup (conf.hash token) = some entry ∧
        now ≤ entry.expiresAt ∧ entry.role = role) ∧
    ∀ now renewal draw write bundle, Fresh conf s (.refresh now renewal draw write) →
      (s.manager.refreshSessionTokens conf now renewal draw).2.1 = some bundle →
      (∃ sessionHash entry updated,
        s.manager.refreshIndex.lookup (conf.hash renewal.refreshToken) = some sessionHash ∧
        s.manager.sessionTokens.lookup sessionHash = some entry ∧
        (s.perform conf (.refresh now renewal draw write)).manager.sessionTokens.lookup
          (conf.hash bundle.sessionToken) = some updated ∧
        updated.username = entry.username ∧ updated.role = entry.role ∧
        updated.refreshExpiresAt = entry.refreshExpiresAt) ∧
      ∀ later t,
        RunMeets (step conf) (fun s' op => Fresh conf s' op ∧ (op.isLoad = true → s.writes < s'.writes))
          (s.perform conf (.refresh now renewal draw write)) later →
        run (step conf) (s.perform conf (.refresh now renewal draw write)) later = some t →
        ∀ (now' : ℤ) (renewal' : Renewal) (draw' : Draw),
          renewal'.refreshToken = renewal.refreshToken →
          (t.manager.refreshSessionTokens conf now' renewal' draw').2.1 = none := by
  have hI := inv_of_run (inv_initial hfile) hfresh hrun
  refine ⟨hI.sound.linked, hI.sound.ordered,
    fun now token role hvalid => validateSessionTokenRole_eq_some hvalid, ?_⟩
  intro now renewal draw write bundle hdraw haccept
  obtain ⟨hkept, hspent⟩ := hI.refresh hdraw haccept
  refine ⟨hkept, ?_⟩
  intro later t hmeets hlater now' renewal' draw' hsame
  obtain ⟨-, hspent'⟩ := inv_spent_of_run (hI.perform hdraw) hspent hmeets hlater
  refine refreshSessionTokens_eq_none draw' ?_
  rw [hsame]
  exact hspent'.unlinked

/-! ### A login -/

/-- A clock of one tick a second; access for ten minutes. -/
def tenMinutes : Config where
  hash := fun token => 35 :: token
  hash_ne_nil := fun _ => List.cons_ne_nil _ _
  sessionTokenTtl := 600
  rememberMeRefreshTokenTtl := 0
  ticks := 1

def adminLogin : Login := ⟨[97], 0, 0, [], [49], false, .admin⟩

/-- The login, written to the file. -/
def loggedIn : List Op := [.issue 0 0 adminLogin ⟨[1], [2], []⟩ true]

/-- The refresh token of the login is used, but the write fails; then the file is loaded. -/
def reloaded : List Op := [.refresh 1 ⟨[2], [], [49]⟩ ⟨[3], [4], []⟩ false, .load 2 true true]

/-- The token is valid at its access expiry.  Its refresh token is accepted, and accepted
again when the file that is loaded does not have the first use. -/
theorem valid_at_expiry_and_reused :
    ∃ s t : State,
      RunMeets (step tenMinutes) (Fresh tenMinutes) (State.initial []) (loggedIn ++ reloaded) ∧
      run (step tenMinutes) (State.initial []) loggedIn = some s ∧
      run (step tenMinutes) s reloaded = some t ∧
      (∃ entry, s.manager.sessionTokens.lookup (tenMinutes.hash [1]) = some entry ∧
        (s.manager.validateSessionTokenRole tenMinutes 600 [1]).2.1 = some .admin ∧
        ¬ 600 < entry.expiresAt) ∧
      (s.manager.refreshSessionTokens tenMinutes 1 ⟨[2], [], [49]⟩ ⟨[3], [4], []⟩).2.1.isSome ∧
      (t.manager.refreshSessionTokens tenMinutes 3 ⟨[2], [], [49]⟩ ⟨[5], [6], []⟩).2.1.isSome := by
  refine ⟨_, _, by decide, rfl, rfl, ⟨_, rfl, rfl, by decide⟩, rfl, rfl⟩

/-- With a write that succeeds, the refresh token is refused after the load. -/
theorem refused_after_load :
    ∃ s : State, run (step tenMinutes) (State.initial []) loggedIn = some s ∧
      ∀ t : State,
        run (step tenMinutes)
          (s.perform tenMinutes (.refresh 1 ⟨[2], [], [49]⟩ ⟨[3], [4], []⟩ true))
          [.load 2 true true] = some t →
        (t.manager.refreshSessionTokens tenMinutes 3 ⟨[2], [], [49]⟩ ⟨[5], [6], []⟩).2.1 = none := by
  refine ⟨_, rfl, ?_⟩
  intro t ht
  refine (((session_store_invariant tenMinutes [] loggedIn _ List.nodup_nil (by decide) rfl).2.2.2
    1 ⟨[2], [], [49]⟩ ⟨[3], [4], []⟩ true _ (by decide) rfl).2 _ t ?_ ht) 3 _ ⟨[5], [6], []⟩ rfl
  decide

end LuminalShine.HttpAuth
