import LuminalShine.Lib.Assoc
import Mathlib.Data.List.Infix
import Mathlib.Data.Int.Notation
import Mathlib.Data.Nat.Notation

/-!
# Session tokens of the web interface

`SessionTokenManager` (`src/http_auth.cpp`) keeps a session for each access token, under the
hash of the token, and an index from the hash of the refresh token to the session it renews.
A session is issued at login, renewed by its refresh token until the refresh expiry, revoked,
or removed once it has expired: by the cleanup, or by the next request that finds it.

Each definition on the manager is one critical section of its mutex.  `saveSessionTokens` is
two: the snapshot, here, and the write of the state file, which belongs to the systems built
on this module.

Times are ticks of the system clock, lifetimes are seconds.  Hash, clock and random
generator are what the source injects as dependencies: the hash is part of `Config`, the
others are arguments.

## Main definitions

* `SessionToken`, `SessionTokenManager` — the data.
* `issueSessionTokens`, `refreshSessionTokens`, `validateSessionTokenRole`,
  `revokeSessionByHash`, `cleanupExpiredSessionTokens`, `getUsernameForToken` — the operations.
* `Node`, `takeSnapshot`, `loadSessionTokens` — what is written and how it is read back.
-/

namespace LuminalShine.HttpAuth

open LuminalShine.Lib

/-- A `std::string`. -/
abbrev Text := List UInt8

def ascii (literal : String) : Text := literal.toList.map fun c => UInt8.ofNat c.toNat

/-! ## Device labels -/

def toLower (ch : UInt8) : UInt8 := if 65 ≤ ch && ch ≤ 90 then ch + 32 else ch

/-- `boost::algorithm::icontains`. -/
def icontains (value : Text) (needle : String) : Bool :=
  decide ((ascii needle).map toLower <:+: value.map toLower)

def detectOs (uaLower : Text) : Text :=
  if icontains uaLower "windows nt 10" then ascii "Windows 10/11"
  else if icontains uaLower "windows nt 6.3" then ascii "Windows 8.1"
  else if icontains uaLower "windows nt 6.2" then ascii "Windows 8"
  else if icontains uaLower "windows nt 6.1" then ascii "Windows 7"
  else if icontains uaLower "mac os x" then ascii "macOS"
  else if icontains uaLower "iphone" || icontains uaLower "ipad" then ascii "iOS"
  else if icontains uaLower "android" then ascii "Android"
  else if icontains uaLower "linux" then ascii "Linux"
  else []

def detectBrowser (uaLower : Text) : Text :=
  if icontains uaLower "edg/" then ascii "Microsoft Edge"
  else if icontains uaLower "opr/" then ascii "Opera"
  else if icontains uaLower "chrome/" && !icontains uaLower "edg/" && !icontains uaLower "opr/" then
    ascii "Google Chrome"
  else if icontains uaLower "firefox" then ascii "Mozilla Firefox"
  else if icontains uaLower "safari" && !icontains uaLower "chrome" then ascii "Safari"
  else if icontains uaLower "brave" then ascii "Brave"
  else []

/-- The ellipsis is three bytes of UTF-8. -/
def truncateLabel (value : Text) : Text :=
  if value.length ≤ 80 then value else value.take 79 ++ [0xE2, 0x80, 0xA6]

def deriveDeviceLabel (userAgent remoteAddress : Text) : Text :=
  if userAgent = [] then
    if remoteAddress ≠ [] then remoteAddress else ascii "Unknown device"
  else
    let uaLower := userAgent.map toLower
    let os := detectOs uaLower
    let browser := detectBrowser uaLower
    let label :=
      if browser ≠ [] ∧ os ≠ [] then browser ++ ascii " on " ++ os
      else if browser ≠ [] then browser
      else os
    if label = [] then truncateLabel userAgent else label

/-! ## Data -/

inductive SessionRole where
  | stats
  | admin
  deriving DecidableEq, Repr

def SessionRole.toText : SessionRole → Text
  | .admin => ascii "admin"
  | .stats => ascii "stats"

def SessionRole.ofText (value : Text) : SessionRole :=
  if value = ascii "stats" then .stats else .admin

structure SessionToken where
  username : Text
  createdAt : ℤ
  expiresAt : ℤ
  refreshExpiresAt : ℤ
  userAgent : Text
  remoteAddress : Text
  lastSeen : ℤ
  rememberMe : Bool
  deviceLabel : Text
  refreshTokenHash : Text
  rotationId : Text
  role : SessionRole
  deriving DecidableEq, Repr

structure SessionTokenBundle where
  sessionToken : Text
  refreshToken : Text
  sessionTtl : ℤ
  refreshTtl : ℤ
  rememberMe : Bool
  deriving DecidableEq, Repr

/-- The settings and the dependencies that do not change.  A hash is the hexadecimal text of
a digest, so it is never empty. -/
structure Config where
  hash : Text → Text
  hash_ne_nil : ∀ token, hash token ≠ []
  sessionTokenTtl : ℤ
  rememberMeRefreshTokenTtl : ℤ
  /-- Ticks of the clock in a second. -/
  ticks : ℕ

/-- `remember_me_token_ttl`. -/
def Config.rememberMeTokenTtl (conf : Config) : ℤ :=
  if conf.rememberMeRefreshTokenTtl ≤ 0 then 24 * 7 * 3600 else conf.rememberMeRefreshTokenTtl

def defaultRefreshTokenTtl : ℤ := 24 * 3600

/-- `duration_cast<seconds>`, which rounds towards zero. -/
def Config.seconds (conf : Config) (ticks : ℤ) : ℤ := ticks.tdiv conf.ticks

/-- What the random generator returned for one session. -/
structure Draw where
  sessionToken : Text
  refreshToken : Text
  rotationId : Text
  deriving DecidableEq, Repr

/-- The arguments of `issue_session_tokens`. -/
structure Login where
  username : Text
  sessionTtl : ℤ
  refreshTtl : ℤ
  userAgent : Text
  remoteAddress : Text
  rememberMe : Bool
  role : SessionRole
  deriving DecidableEq, Repr

/-- The arguments of `refresh_session_tokens`. -/
structure Renewal where
  refreshToken : Text
  userAgent : Text
  remoteAddress : Text
  deriving DecidableEq, Repr

structure SessionTokenManager where
  sessionTokens : AList fun _ : Text => SessionToken
  refreshIndex : AList fun _ : Text => Text
  dirty : Bool

variable (conf : Config)

/-- The access lifetime of a login. -/
def Login.accessTtl (login : Login) : ℤ :=
  if login.sessionTtl ≤ 0 then conf.sessionTokenTtl else login.sessionTtl

/-- Its refresh lifetime, which is never the shorter of the two. -/
def Login.renewalTtl (login : Login) : ℤ :=
  let refreshTtl :=
    if login.refreshTtl ≤ 0 then
      if login.rememberMe then conf.rememberMeTokenTtl else defaultRefreshTokenTtl
    else login.refreshTtl
  if refreshTtl < login.accessTtl conf then login.accessTtl conf else refreshTtl

/-- The session a login gets. -/
def Login.token (login : Login) (now : ℤ) (draw : Draw) : SessionToken :=
  let refreshExpiresAt := now + login.renewalTtl conf * conf.ticks
  { username := login.username
    createdAt := now
    expiresAt := min (now + login.accessTtl conf * conf.ticks) refreshExpiresAt
    refreshExpiresAt := refreshExpiresAt
    userAgent := login.userAgent
    remoteAddress := login.remoteAddress
    lastSeen := now
    rememberMe := login.rememberMe
    deviceLabel := deriveDeviceLabel login.userAgent login.remoteAddress
    refreshTokenHash := conf.hash draw.refreshToken
    rotationId := draw.rotationId
    role := login.role }

/-- The session that takes the place of `entry` when it is renewed: the refresh expiry is
the old one. -/
def Renewal.token (renewal : Renewal) (now : ℤ) (draw : Draw) (entry : SessionToken) :
    SessionToken :=
  { username := entry.username
    createdAt := now
    expiresAt := min (now + conf.sessionTokenTtl * conf.ticks) entry.refreshExpiresAt
    refreshExpiresAt := entry.refreshExpiresAt
    userAgent := renewal.userAgent
    remoteAddress := renewal.remoteAddress
    lastSeen := now
    rememberMe := entry.rememberMe
    deviceLabel := deriveDeviceLabel renewal.userAgent renewal.remoteAddress
    refreshTokenHash := conf.hash draw.refreshToken
    rotationId := draw.rotationId
    role := entry.role }

/-- What the caller gets for a session that was just made. -/
def SessionToken.bundle (token : SessionToken) (now : ℤ) (draw : Draw) : SessionTokenBundle where
  sessionToken := draw.sessionToken
  refreshToken := draw.refreshToken
  sessionTtl := conf.seconds (token.expiresAt - now)
  refreshTtl := conf.seconds (token.refreshExpiresAt - now)
  rememberMe := token.rememberMe

/-! ## The operations -/

namespace SessionTokenManager

/-- A session and its index entry go. -/
def drop (m : SessionTokenManager) (hash : Text) (token : SessionToken) : SessionTokenManager where
  sessionTokens := m.sessionTokens.erase hash
  refreshIndex :=
    if token.refreshTokenHash ≠ [] then m.refreshIndex.erase token.refreshTokenHash
    else m.refreshIndex
  dirty := true

/-- The session was used at `now`; this is recorded every five minutes. -/
def touch (m : SessionTokenManager) (hash : Text) (token : SessionToken) (now : ℤ) :
    SessionTokenManager :=
  { m with
    sessionTokens := m.sessionTokens.insert hash { token with lastSeen := now }
    dirty := true }

/-- `issue_session_tokens`, up to the cleanup and the save that follow. -/
def issueSessionTokens (m : SessionTokenManager) (now : ℤ) (login : Login) (draw : Draw) :
    SessionTokenManager × SessionTokenBundle :=
  let sessionHash := conf.hash draw.sessionToken
  let token := login.token conf now draw
  ({ sessionTokens := emplace (m.sessionTokens.erase sessionHash) sessionHash token
     refreshIndex := m.refreshIndex.insert token.refreshTokenHash sessionHash
     dirty := true },
   token.bundle conf now draw)

/-- `refresh_session_tokens`; the last component is `needs_persist`. -/
def refreshSessionTokens (m : SessionTokenManager) (now : ℤ) (renewal : Renewal) (draw : Draw) :
    SessionTokenManager × Option SessionTokenBundle × Bool :=
  if renewal.refreshToken = [] then (m, none, false)
  else
    let refreshHash := conf.hash renewal.refreshToken
    match m.refreshIndex.lookup refreshHash with
    | none => (m, none, false)
    | some sessionHash =>
        match m.sessionTokens.lookup sessionHash with
        | none =>
            ({ m with refreshIndex := m.refreshIndex.erase refreshHash, dirty := true }, none, true)
        | some entry =>
            if now > entry.refreshExpiresAt then
              ({ sessionTokens := m.sessionTokens.erase sessionHash
                 refreshIndex := m.refreshIndex.erase refreshHash
                 dirty := true }, none, true)
            else
              let newSessionHash := conf.hash draw.sessionToken
              let updated := renewal.token conf now draw entry
              ({ sessionTokens := emplace (m.sessionTokens.erase sessionHash) newSessionHash updated
                 refreshIndex :=
                   (m.refreshIndex.erase refreshHash).insert updated.refreshTokenHash newSessionHash
                 dirty := true },
               some (updated.bundle conf now draw), true)

/-- `validate_session_token_role`; the last component is `should_persist`. -/
def validateSessionTokenRole (m : SessionTokenManager) (now : ℤ) (token : Text) :
    SessionTokenManager × Option SessionRole × Bool :=
  let tokenHash := conf.hash token
  match m.sessionTokens.lookup tokenHash with
  | none => (m, none, false)
  | some entry =>
      if now > entry.refreshExpiresAt then (m.drop tokenHash entry, none, true)
      -- the refresh token may still be valid
      else if now > entry.expiresAt then (m, none, false)
      else if now - entry.lastSeen ≥ 5 * 60 * conf.ticks then
        (m.touch tokenHash entry now, some entry.role, true)
      else (m, some entry.role, false)

/-- `revoke_session_by_hash`, with whether there was such a session. -/
def revokeSessionByHash (m : SessionTokenManager) (tokenHash : Text) : SessionTokenManager × Bool :=
  match m.sessionTokens.lookup tokenHash with
  | none => (m, false)
  | some entry => (m.drop tokenHash entry, true)

/-- The first critical section of `revoke_refresh_token`: the session to revoke. -/
def sessionOfRefreshToken (m : SessionTokenManager) (refreshToken : Text) : Option Text :=
  if refreshToken = [] then none else m.refreshIndex.lookup (conf.hash refreshToken)

/-- The sessions that are past their refresh expiry. -/
def expired (m : SessionTokenManager) (now : ℤ) : List (Σ _ : Text, SessionToken) :=
  m.sessionTokens.entries.filter fun entry => now > entry.2.refreshExpiresAt

/-- `cleanup_expired_session_tokens`, with whether anything was removed. -/
def cleanupExpiredSessionTokens (m : SessionTokenManager) (now : ℤ) : SessionTokenManager × Bool :=
  ((m.expired now).foldl (fun m entry => m.drop entry.1 entry.2) m, !(m.expired now).isEmpty)

/-- `get_username_for_token`; the last component is whether the save at the end is reached
with `should_persist`.  The return for an expired session leaves before it. -/
def getUsernameForToken (m : SessionTokenManager) (now : ℤ) (token : Text) :
    SessionTokenManager × Option Text × Bool :=
  let tokenHash := conf.hash token
  match m.sessionTokens.lookup tokenHash with
  | none => (m, none, false)
  | some entry =>
      if now > entry.refreshExpiresAt then (m.drop tokenHash entry, none, false)
      else if now > entry.expiresAt then (m, none, false)
      else if now - entry.lastSeen ≥ 5 * 60 * conf.ticks then
        (m.touch tokenHash entry now, some entry.username, true)
      else (m, some entry.username, false)

end SessionTokenManager

/-! ## The state file -/

/-- A child of `root.session_tokens`, as `get` reads it: a missing text is empty, a missing
number zero, a missing flag false.  The three fields that are younger than the format have
defaults of their own. -/
structure Node where
  hash : Text
  username : Text
  createdAt : ℤ
  expiresAt : ℤ
  refreshExpiresAt : Option ℤ
  lastSeen : Option ℤ
  rememberMe : Bool
  role : Option Text
  refreshTokenHash : Text
  rotationId : Text
  userAgent : Text
  remoteAddress : Text
  deviceLabel : Text
  deriving DecidableEq, Repr

/-- The node of a session: whole seconds. -/
def Node.ofEntry (entry : Σ _ : Text, SessionToken) : Node where
  hash := entry.1
  username := entry.2.username
  createdAt := conf.seconds entry.2.createdAt
  expiresAt := conf.seconds entry.2.expiresAt
  refreshExpiresAt := some (conf.seconds entry.2.refreshExpiresAt)
  lastSeen := some (conf.seconds entry.2.lastSeen)
  rememberMe := entry.2.rememberMe
  role := some entry.2.role.toText
  refreshTokenHash := entry.2.refreshTokenHash
  rotationId := entry.2.rotationId
  userAgent := entry.2.userAgent
  remoteAddress := entry.2.remoteAddress
  deviceLabel := entry.2.deviceLabel

/-- The session of a node, and whether the file has to be saved again for it. -/
def Node.token (node : Node) : SessionToken × Bool :=
  let expiresAt := node.expiresAt * conf.ticks
  let deviceLabel :=
    if node.deviceLabel = [] then deriveDeviceLabel node.userAgent node.remoteAddress
    else node.deviceLabel
  let refreshExpiresAt :=
    -- a session from before refresh tokens expires with its access token
    if node.refreshTokenHash = [] then expiresAt
    else node.refreshExpiresAt.getD node.expiresAt * conf.ticks
  ({ username := node.username
     createdAt := node.createdAt * conf.ticks
     expiresAt := if expiresAt > refreshExpiresAt then refreshExpiresAt else expiresAt
     refreshExpiresAt := refreshExpiresAt
     userAgent := node.userAgent
     remoteAddress := node.remoteAddress
     lastSeen := node.lastSeen.getD node.createdAt * conf.ticks
     rememberMe := node.rememberMe
     deviceLabel := deviceLabel
     refreshTokenHash := node.refreshTokenHash
     rotationId := node.rotationId
     role := SessionRole.ofText (node.role.getD (ascii "admin")) },
   decide (node.deviceLabel = []) || decide (expiresAt > refreshExpiresAt))

namespace SessionTokenManager

/-- The start of `save_session_tokens`: nothing to do, or the sessions to write. -/
def takeSnapshot (m : SessionTokenManager) :
    Option (SessionTokenManager × List (Σ _ : Text, SessionToken)) :=
  if m.dirty then some ({ m with dirty := false }, m.sessionTokens.entries) else none

/-- The end of `save_session_tokens`. -/
def finishSave (m : SessionTokenManager) (writeFailed : Bool) : SessionTokenManager :=
  if writeFailed then { m with dirty := true } else m

def empty : SessionTokenManager where
  sessionTokens := ∅
  refreshIndex := ∅
  dirty := false

/-- The loop body of `load_session_tokens`; the flag is `needs_resave`. -/
def loadNode (now : ℤ) (acc : SessionTokenManager × Bool) (node : Node) :
    SessionTokenManager × Bool :=
  if node.hash = [] then acc
  else
    let token := (node.token conf).1
    let needsResave := acc.2 || (node.token conf).2
    if now > token.refreshExpiresAt then (acc.1, needsResave)
    else if node.hash ∈ acc.1.sessionTokens then (acc.1, needsResave)
    else
      ({ acc.1 with
         sessionTokens := acc.1.sessionTokens.insert node.hash token
         refreshIndex :=
           if token.refreshTokenHash ≠ [] then
             acc.1.refreshIndex.insert token.refreshTokenHash node.hash
           else acc.1.refreshIndex }, needsResave)

/-- `load_session_tokens`, up to the save that follows when `needs_resave` is set.  `nodes`
is absent when the file is missing or unreadable. -/
def loadSessionTokens (now : ℤ) (nodes : Option (List Node)) : SessionTokenManager × Bool :=
  match nodes with
  | none => (empty, false)
  | some nodes =>
      let loaded := nodes.foldl (loadNode conf now) (empty, false)
      ({ loaded.1 with dirty := loaded.2 }, loaded.2)

end SessionTokenManager

end LuminalShine.HttpAuth
