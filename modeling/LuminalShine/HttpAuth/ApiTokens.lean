import LuminalShine.ClientStore.Format
import LuminalShine.Lib.SortedMap

/-!
# API tokens through the state file

An API token carries scopes: patterns of paths, each with the methods it allows.
`create_api_token` takes them from the request as they are; `save_api_tokens` writes them
under `root.api_tokens` and `load_api_tokens` reads them back.  The loader is stricter than
the request: it drops a scope with an empty path and one without methods.

What a dropped scope would have decided is lost.  The empty path is a pattern too, which
matches the empty request path; and a scope without methods allows nothing, but a pattern
that is no regular expression makes the check throw where it stands.  `Lossless` says when
neither matters, and `load_decides_as_saved` that it is exactly then that a loaded manager
decides as the saved one.

The regular expressions are a library's; a match may throw, which is the outcome `none`.

## Main definitions

* `parseJsonScopes`, `createApiToken`, `authenticateToken` — the manager.
* `saveApiTokens`, `loadApiTokens` — the state tree.
* `Lossless` — the scopes that lose nothing in the tree.
-/

namespace LuminalShine.HttpAuth.ApiTokens

open LuminalShine.Lib LuminalShine.ClientStore

/-! ## The manager -/

/-- What the manager calls: the token hash, `boost::regex_match`, and the conversion of a
time to whole seconds and back. -/
structure Environment where
  hash : String → String
  regexMatch : String → String → Option Bool
  toSeconds : ℤ → Int64
  ofSeconds : Int64 → ℤ

/-- `std::set<std::string>` and the map from paths to methods. -/
abbrev Methods := SortedMap String Unit

abbrev PathMethods := SortedMap String Methods

structure ApiTokenInfo where
  hash : String
  pathMethods : PathMethods
  username : String
  createdAt : ℤ

/-- `_api_tokens`, keyed by hash. -/
abbrev TokenMap := SortedMap String ApiTokenInfo

/-- A value of the request body, as far as it is looked at. -/
inductive Json where
  | text (s : String)
  | array (items : List Json)
  | other

/-- An element of the `scopes` array, with its two fields if it has them. -/
structure ScopeJson where
  path : Option Json
  methods : Option Json

/-- How `parse_json_scopes` fails: with its own exception, which it catches, or with the
parser's, which it does not. -/
inductive ScopeError where
  | invalidScope
  | typeError
  deriving DecidableEq, Repr

/-- `get<std::string>()`. -/
def Json.getText : Json → Except ScopeError String
  | .text s => .ok s
  | _ => .error .typeError

def parseMethod (methods : Methods) (m : Json) : Except ScopeError Methods := do
  let text ← m.getText
  return methods.assign text.toUpper ()

def parseJsonScope (pathMethods : PathMethods) (s : ScopeJson) :
    Except ScopeError PathMethods :=
  match s.path, s.methods with
  | some path, some (.array items) => do
      let path ← path.getText
      let methods ← items.foldlM parseMethod ∅
      return pathMethods.assign path methods
  | _, _ => .error .invalidScope

def parseJsonScopes (scopes : List ScopeJson) : Except ScopeError PathMethods :=
  scopes.foldlM parseJsonScope ∅

variable (env : Environment)

/-- `create_api_token`, with the token it has drawn; a request that fails leaves the
tokens as they are. -/
def createApiToken (tokens : TokenMap) (scopes : List ScopeJson) (username token : String)
    (now : ℤ) : Except ScopeError TokenMap := do
  let pathMethods ← parseJsonScopes scopes
  return tokens.assign (env.hash token) ⟨env.hash token, pathMethods, username, now⟩

/-- `revoke_api_token_by_hash`. -/
def revokeApiTokenByHash (tokens : TokenMap) (hash : String) : TokenMap :=
  if hash = "" then tokens else tokens.erase hash

/-- The pattern of a scope, anchored at both ends. -/
def anchored (scopePath : String) : String :=
  let pattern := if scopePath.toList.head? = some '^' then scopePath else "^" ++ scopePath
  if pattern.toList.getLast? = some '$' then pattern else pattern ++ "$"

/-- `boost::iequals`. -/
def iequals (a b : String) : Bool := a.toUpper == b.toUpper

def isMethodAllowed (methods : Methods) (method : String) : Bool :=
  methods.entries.any fun m => iequals m.1 method.toUpper

/-- What one scope says of a request. -/
def scopeAllows (path method : String) (scope : String × Methods) : Option Bool :=
  (env.regexMatch (anchored scope.1) path).map fun matched =>
    matched && isMethodAllowed scope.2 method

/-- The scopes are asked in order, until one allows the request. -/
def scopesAllow (scopes : List (String × Methods)) (path method : String) : Option Bool :=
  scopes.anyM (scopeAllows env path method)

/-- `authenticate_token`. -/
def authenticateToken (tokens : TokenMap) (token path method : String) : Option Bool :=
  match tokens.lookup (env.hash token) with
  | none => some false
  | some info => scopesAllow env info.pathMethods.entries path method

/-! ## The state tree -/

def methodsNode (methods : Methods) : Ptree :=
  .node "" (methods.entries.map fun m => ("", .leaf m.1))

def scopeNode (scope : String × Methods) : Ptree :=
  (Ptree.empty.put scope.1 ["path"]).addChild "methods" (methodsNode scope.2)

def scopesNode (pathMethods : PathMethods) : Ptree :=
  .node "" (pathMethods.entries.map fun scope => ("", scopeNode scope))

def tokenNode (entry : String × ApiTokenInfo) : Ptree :=
  let t := Ptree.empty.put entry.1 ["hash"]
  let t := t.put entry.2.username ["username"]
  let t := t.put (env.toSeconds entry.2.createdAt).toInt.repr ["created_at"]
  t.addChild "scopes" (scopesNode entry.2.pathMethods)

def apiTokensNode (tokens : TokenMap) : Ptree :=
  .node "" (tokens.entries.map fun entry => ("", tokenNode env entry))

/-- `save_api_tokens`: the tree that is there, with the tokens put in. -/
def saveApiTokens (root : Ptree) (tokens : TokenMap) : Ptree :=
  root.putChild (apiTokensNode env tokens) ["root", "api_tokens"]

/-- The methods `parse_scope` reads. -/
def readMethods (scopeTree : Ptree) : Methods :=
  match scopeTree.find? "methods" with
  | none => ∅
  | some node => node.children.foldl (fun methods m => methods.tryEmplace m.2.data ()) ∅

def parseScope (scopeTree : Ptree) : Option (String × Methods) :=
  let path := readText scopeTree "path"
  if path = "" then none
  else if (readMethods scopeTree).entries.isEmpty then none
  else some (path, readMethods scopeTree)

def buildScopeMap (scopesTree : Ptree) : PathMethods :=
  scopesTree.children.foldl
    (fun out scopeTree =>
      match parseScope scopeTree.2 with
      | none => out
      | some (path, methods) => out.tryEmplace path methods)
    ∅

/-- One entry of `root.api_tokens`; without a hash it is skipped. -/
def readToken (tokens : TokenMap) (tokenTree : Ptree) : TokenMap :=
  let hash := readText tokenTree "hash"
  if hash = "" then tokens
  else
    tokens.tryEmplace hash {
      hash := hash
      pathMethods := match tokenTree.find? "scopes" with
        | none => ∅
        | some scopesTree => buildScopeMap scopesTree
      username := readText tokenTree "username"
      createdAt := env.ofSeconds
        (((tokenTree.find? "created_at").bind fun n => parseInt64 n.data).getD 0) }

/-- `load_api_tokens`, of a tree that could be read. -/
def loadApiTokens (root : Ptree) : TokenMap :=
  match (root.find? "root").bind (·.find? "api_tokens") with
  | none => ∅
  | some tokensNode => tokensNode.children.foldl (fun tokens t => readToken env tokens t.2) ∅

/-! ## The round trip -/

/-- The scopes the loader keeps. -/
def isKept (scope : String × Methods) : Bool := scope.1 != "" && !scope.2.entries.isEmpty

def keptScopes (pathMethods : PathMethods) : PathMethods :=
  ⟨pathMethods.entries.filter isKept, pathMethods.sorted.filter _⟩

theorem readText_scopeNode (scope : String × Methods) :
    readText (scopeNode scope) "path" = scope.1 := by
  simp [readText, scopeNode, Ptree.find?_addChild, Ptree.find?_put_self]

theorem readMethods_scopeNode (scope : String × Methods) :
    readMethods (scopeNode scope) = scope.2 := by
  have hfind : (scopeNode scope).find? "methods" = some (methodsNode scope.2) := by
    simp [scopeNode, Ptree.find?_addChild, Ptree.find?_put_ne]
  simp only [readMethods, hfind, methodsNode, Ptree.children_node, List.foldl_map, Ptree.data_leaf]
  refine SortedMap.ext ?_
  have h := SortedMap.entries_foldl_tryEmplace ∅ scope.2.sorted (by simp)
  simpa using h

theorem parseScope_scopeNode (scope : String × Methods) :
    parseScope (scopeNode scope) = if isKept scope then some scope else none := by
  simp only [parseScope, readText_scopeNode, readMethods_scopeNode, isKept]
  by_cases hpath : scope.1 = ""
  · simp [hpath]
  · by_cases hmethods : scope.2.entries.isEmpty = true
    · simp [hmethods]
    · simp [hpath, hmethods]

theorem buildScopeMap_scopesNode (pathMethods : PathMethods) :
    buildScopeMap (scopesNode pathMethods) = keptScopes pathMethods := by
  have hfold : ∀ (l : List (String × Methods)) (out : PathMethods),
      l.foldl (fun out scope =>
        match parseScope (scopeNode scope) with
        | none => out
        | some (path, methods) => out.tryEmplace path methods) out =
      (l.filter isKept).foldl (fun out scope => out.tryEmplace scope.1 scope.2) out := by
    intro l
    induction l with
    | nil => exact fun _ => rfl
    | cons scope rest ih =>
        intro out
        rw [List.foldl_cons, parseScope_scopeNode]
        cases hkept : isKept scope with
        | false =>
            rw [List.filter_cons_of_neg (by simp [hkept])]
            exact ih out
        | true =>
            rw [List.filter_cons_of_pos hkept, List.foldl_cons]
            exact ih _
  simp only [buildScopeMap, scopesNode, Ptree.children_node, List.foldl_map]
  rw [hfold]
  refine SortedMap.ext ?_
  have h := SortedMap.entries_foldl_tryEmplace ∅ (keptScopes pathMethods).sorted (by simp)
  rwa [SortedMap.entries_empty, List.nil_append] at h

/-- What becomes of a token: the dropped scopes, and the time below a second. -/
def reloaded (info : ApiTokenInfo) : ApiTokenInfo :=
  { info with
    pathMethods := keptScopes info.pathMethods
    createdAt := env.ofSeconds (env.toSeconds info.createdAt) }

theorem find?_tokenNode (entry : String × ApiTokenInfo) :
    (tokenNode env entry).find? "hash" = some (.leaf entry.1) ∧
    (tokenNode env entry).find? "username" = some (.leaf entry.2.username) ∧
    (tokenNode env entry).find? "created_at" =
      some (.leaf (env.toSeconds entry.2.createdAt).toInt.repr) ∧
    (tokenNode env entry).find? "scopes" = some (scopesNode entry.2.pathMethods) := by
  have hempty : Ptree.empty.children = [] := rfl
  refine ⟨?_, ?_, ?_, ?_⟩ <;>
    simp [tokenNode, Ptree.find?_addChild, Ptree.find?_put_self, Ptree.find?_put_ne, Ptree.leaf,
      hempty]

theorem readToken_tokenNode (tokens : TokenMap) {entry : String × ApiTokenInfo}
    (hkey : entry.1 ≠ "") (hhash : entry.2.hash = entry.1) :
    readToken env tokens (tokenNode env entry) =
      tokens.tryEmplace entry.1 (reloaded env entry.2) := by
  obtain ⟨h1, h2, h3, h4⟩ := find?_tokenNode env entry
  simp only [readToken, readText, h1, h2, h3, h4, Option.map_some, Option.getD_some,
    Ptree.data_leaf, if_neg hkey, Option.bind_some, parseInt64_repr, buildScopeMap_scopesNode]
  simp only [reloaded, hhash]

/-- A manager whose tokens are filed under their own, nonempty hashes. -/
def Filed (tokens : TokenMap) : Prop :=
  ∀ entry ∈ tokens.entries, entry.1 ≠ "" ∧ entry.2.hash = entry.1

/-- **The round trip.**  Every token comes back under its hash, reloaded. -/
theorem entries_load_save (root : Ptree) {tokens : TokenMap} (h : Filed tokens) :
    (loadApiTokens env (saveApiTokens env root tokens)).entries =
      tokens.entries.map fun entry => (entry.1, reloaded env entry.2) := by
  have hfind : ((saveApiTokens env root tokens).find? "root").bind (·.find? "api_tokens") =
      some (apiTokensNode env tokens) := by
    simp [saveApiTokens, Ptree.putChild]
  have hfold : ∀ (l : List (String × ApiTokenInfo)) (out : TokenMap),
      (∀ entry ∈ l, entry.1 ≠ "" ∧ entry.2.hash = entry.1) →
      l.foldl (fun out entry => readToken env out (tokenNode env entry)) out =
        (l.map fun entry => (entry.1, reloaded env entry.2)).foldl
          (fun out entry => out.tryEmplace entry.1 entry.2) out := by
    intro l
    induction l with
    | nil => exact fun _ _ => rfl
    | cons entry rest ih =>
        intro out hl
        have hentry := hl entry List.mem_cons_self
        rw [List.foldl_cons, List.map_cons, List.foldl_cons,
          readToken_tokenNode env out hentry.1 hentry.2]
        exact ih _ fun e he => hl e (List.mem_cons_of_mem _ he)
  simp only [loadApiTokens, hfind, apiTokensNode, Ptree.children_node, List.foldl_map]
  rw [hfold _ _ h]
  have hsorted : (tokens.entries.map fun entry => (entry.1, reloaded env entry.2)).Pairwise
      fun a b => a.1 < b.1 := List.pairwise_map.mpr tokens.sorted
  have hentries := SortedMap.entries_foldl_tryEmplace ∅ hsorted (by simp)
  simpa using hentries

/-! ## The decisions -/

section Decisions

variable {env}

theorem scopesAllow_cons (scope : String × Methods) (rest : List (String × Methods))
    (path method : String) :
    scopesAllow env (scope :: rest) path method =
      (scopeAllows env path method scope).bind fun allowed =>
        if allowed then some true else scopesAllow env rest path method := by
  rw [scopesAllow, List.anyM_cons]
  cases scopeAllows env path method scope with
  | none => rfl
  | some allowed => cases allowed <;> rfl

/-- Nothing is allowed, and nothing throws, exactly if every scope says no. -/
theorem scopesAllow_eq_false {scopes : List (String × Methods)} {path method : String} :
    scopesAllow env scopes path method = some false ↔
      ∀ scope ∈ scopes, scopeAllows env path method scope = some false := by
  induction scopes with
  | nil => simp [scopesAllow]
  | cons scope rest ih =>
      rw [scopesAllow_cons, List.forall_mem_cons, ← ih]
      cases scopeAllows env path method scope with
      | none => simp
      | some allowed => cases allowed <;> simp

/-- Scopes that say no are passed over. -/
theorem scopesAllow_append {before : List (String × Methods)} {path method : String}
    (h : scopesAllow env before path method = some false) (after : List (String × Methods)) :
    scopesAllow env (before ++ after) path method = scopesAllow env after path method := by
  induction before with
  | nil => rfl
  | cons scope rest ih =>
      rw [scopesAllow_eq_false, List.forall_mem_cons] at h
      rw [List.cons_append, scopesAllow_cons, h.1]
      exact ih (scopesAllow_eq_false.mpr h.2)

theorem scopesAllow_filter_kept {before : List (String × Methods)} {path method : String}
    (h : scopesAllow env before path method = some false) :
    scopesAllow env (before.filter isKept) path method = some false := by
  rw [scopesAllow_eq_false] at h ⊢
  exact fun scope hscope => h scope (List.mem_of_mem_filter hscope)

variable (env) in
/-- The scopes lose nothing in the tree.  A method listed under the empty path is allowed
there by the scopes that are kept; and where a pattern without methods cannot be evaluated
and the scopes before it say no, the kept scopes after it cannot be evaluated either. -/
structure Lossless (scopes : List (String × Methods)) : Prop where
  emptyPath : ∀ methods, ("", methods) ∈ scopes → ∀ method,
    isMethodAllowed methods method = true →
    scopesAllow env (scopes.filter isKept) "" method = some true
  methodless : ∀ before path after, scopes = before ++ (path, ∅) :: after →
    ∀ requested method, scopesAllow env before requested method = some false →
    env.regexMatch (anchored path) requested = none →
    scopesAllow env (after.filter isKept) requested method = none

theorem anchored_empty : anchored "" = "^$" := by decide

/-- The empty path is the smallest, so its scope is asked first. -/
theorem cons_of_empty_mem {pathMethods : PathMethods} {methods : Methods}
    (h : ("", methods) ∈ pathMethods.entries) :
    ∃ rest, pathMethods.entries = ("", methods) :: rest := by
  obtain ⟨before, rest, hsplit⟩ := List.append_of_mem h
  cases before with
  | nil => exact ⟨rest, hsplit⟩
  | cons scope before =>
      have hsorted := pathMethods.sorted
      rw [hsplit, List.cons_append, List.pairwise_cons] at hsorted
      have hlt := String.lt_iff_toList_lt.mp (hsorted.1 ("", methods) (by simp))
      exact absurd hlt (List.not_lt_nil _)

/-- Nothing is lost where nothing is dropped. -/
theorem lossless_of_kept {scopes : List (String × Methods)} (h : scopes.all isKept = true) :
    Lossless env scopes := by
  rw [List.all_eq_true] at h
  refine ⟨?_, ?_⟩
  · intro methods hmem
    exact absurd (h _ hmem) (by simp [isKept])
  · intro before path after hsplit
    exact absurd (h (path, ∅) (by simp [hsplit])) (by simp [isKept])

variable (hempty : ∀ path, env.regexMatch "^$" path = some (path == ""))
include hempty

theorem lossless_of_same_decisions {pathMethods : PathMethods}
    (h : ∀ path method, scopesAllow env (keptScopes pathMethods).entries path method =
      scopesAllow env pathMethods.entries path method) :
    Lossless env pathMethods.entries where
  emptyPath := by
    intro methods hmem method hallowed
    obtain ⟨rest, hsplit⟩ := cons_of_empty_mem hmem
    change scopesAllow env (keptScopes pathMethods).entries "" method = some true
    rw [h, hsplit, scopesAllow_cons]
    simp [scopeAllows, anchored_empty, hempty, hallowed]
  methodless := by
    intro before path after hsplit requested method hbefore hthrows
    have hall : scopesAllow env pathMethods.entries requested method = none := by
      rw [hsplit, scopesAllow_append hbefore, scopesAllow_cons]
      simp [scopeAllows, hthrows]
    have hkept := h requested method
    have hdropped : isKept (path, ∅) = false := by simp [isKept]
    simp only [keptScopes] at hkept
    rw [hall, hsplit, List.filter_append, List.filter_cons_of_neg (by simp [hdropped]),
      scopesAllow_append (scopesAllow_filter_kept hbefore)] at hkept
    exact hkept

theorem same_decisions_of_lossless {scopes : List (String × Methods)}
    (h : Lossless env scopes) (path method : String) :
    scopesAllow env (scopes.filter isKept) path method = scopesAllow env scopes path method := by
  -- the scopes already asked said no; the claim is about the rest
  suffices hrest : ∀ before rest, scopes = before ++ rest →
      scopesAllow env before path method = some false →
      scopesAllow env (rest.filter isKept) path method = scopesAllow env rest path method from
    hrest [] scopes rfl rfl
  intro before rest
  induction rest generalizing before with
  | nil => exact fun _ _ => rfl
  | cons scope rest ih =>
      intro hsplit hbefore
      have hnext : scopeAllows env path method scope = some false →
          scopesAllow env (rest.filter isKept) path method = scopesAllow env rest path method := by
        intro hno
        refine ih (before ++ [scope]) (by simp [hsplit]) ?_
        rw [scopesAllow_append hbefore, scopesAllow_cons, hno]
        rfl
      by_cases hkept : isKept scope = true
      · rw [List.filter_cons_of_pos hkept, scopesAllow_cons, scopesAllow_cons]
        cases hsays : scopeAllows env path method scope with
        | none => rfl
        | some allowed =>
            cases allowed with
            | true => rfl
            | false => exact hnext hsays
      · rw [List.filter_cons_of_neg hkept, scopesAllow_cons]
        obtain ⟨scopePath, methods⟩ := scope
        cases hsays : scopeAllows env path method (scopePath, methods) with
        | none =>
            -- only a pattern without methods can throw here
            have hthrows : env.regexMatch (anchored scopePath) path = none := by
              simpa [scopeAllows] using hsays
            have hpath : scopePath ≠ "" := by
              rintro rfl
              simp [anchored_empty, hempty] at hthrows
            have hmethods : methods = ∅ := by
              refine SortedMap.ext ?_
              simpa [isKept, hpath] using hkept
            subst hmethods
            exact h.methodless before scopePath rest hsplit path method hbefore hthrows
        | some allowed =>
            cases allowed with
            | false => exact hnext hsays
            | true =>
                simp only [scopeAllows, Option.map_eq_some_iff, Bool.and_eq_true] at hsays
                obtain ⟨matched, hmatched, rfl, hallowed⟩ := hsays
                have hpath : scopePath = "" := by
                  by_contra hne
                  have hnone : methods.entries = [] := by simpa [isKept, hne] using hkept
                  simp [isMethodAllowed, hnone] at hallowed
                subst hpath
                rw [anchored_empty, hempty, Option.some.injEq, beq_iff_eq] at hmatched
                subst hmatched
                have hmem : ("", methods) ∈ scopes := by simp [hsplit]
                have hall := h.emptyPath methods hmem method hallowed
                rw [hsplit, List.filter_append, List.filter_cons_of_neg hkept,
                  scopesAllow_append (scopesAllow_filter_kept hbefore)] at hall
                exact hall

end Decisions

/-! ## Whole managers -/

/-- The managers `create_api_token` and `revoke_api_token_by_hash` lead to. -/
inductive Created : TokenMap → Prop where
  | empty : Created ∅
  | create {tokens tokens' : TokenMap} {scopes username token now} : Created tokens →
      createApiToken env tokens scopes username token now = .ok tokens' → Created tokens'
  | revoke {tokens : TokenMap} {hash} : Created tokens → Created (revokeApiTokenByHash tokens hash)

/-- Every token is filed under the hash of a token that can be presented. -/
theorem Created.entry {tokens : TokenMap} (h : Created env tokens) :
    ∀ entry ∈ tokens.entries, entry.2.hash = entry.1 ∧ ∃ token, entry.1 = env.hash token := by
  induction h with
  | empty => intro entry hentry; cases hentry
  | @create tokens tokens' scopes username token now _ hcreate ih =>
      unfold createApiToken at hcreate
      cases hparse : parseJsonScopes scopes with
      | error e => rw [hparse] at hcreate; cases hcreate
      | ok pathMethods =>
          rw [hparse] at hcreate
          cases hcreate
          intro entry hentry
          rcases SortedMap.mem_assign hentry with rfl | hentry
          · exact ⟨rfl, token, rfl⟩
          · exact ih entry hentry
  | @revoke tokens hash _ ih =>
      intro entry hentry
      unfold revokeApiTokenByHash at hentry
      split at hentry
      · exact ih entry hentry
      · exact ih entry (List.mem_of_mem_filter hentry)

theorem lookup_load_save (root : Ptree) {tokens : TokenMap} (h : Filed tokens) (hash : String) :
    (loadApiTokens env (saveApiTokens env root tokens)).lookup hash =
      (tokens.lookup hash).map (reloaded env) := by
  have hentries := entries_load_save env root h
  unfold SortedMap.lookup
  rw [hentries]
  induction tokens.entries with
  | nil => rfl
  | cons entry rest ih =>
      rw [List.map_cons, List.lookup_cons, List.lookup_cons]
      cases hash == entry.1 with
      | true => rfl
      | false => exact ih

/-- **The loaded manager decides as the saved one** for every token, path and method, if and
only if the scopes of every token lose nothing in the tree. -/
theorem load_decides_as_saved (hhash : ∀ token, env.hash token ≠ "")
    (hempty : ∀ path, env.regexMatch "^$" path = some (path == ""))
    {tokens : TokenMap} (hcreated : Created env tokens) (root : Ptree) :
    (∀ token path method,
      authenticateToken env (loadApiTokens env (saveApiTokens env root tokens)) token path method =
        authenticateToken env tokens token path method) ↔
      ∀ entry ∈ tokens.entries, Lossless env entry.2.pathMethods.entries := by
  have hfiled : Filed tokens := by
    intro entry hentry
    obtain ⟨hself, token, hkey⟩ := hcreated.entry env entry hentry
    exact ⟨hkey ▸ hhash token, hself⟩
  simp only [authenticateToken, lookup_load_save env root hfiled]
  constructor
  · intro h entry hentry
    obtain ⟨-, token, hkey⟩ := hcreated.entry env entry hentry
    have hlookup : tokens.lookup (env.hash token) = some entry.2 :=
      SortedMap.lookup_eq_some_iff.mpr (hkey ▸ hentry)
    refine lossless_of_same_decisions hempty ?_
    intro path method
    have hsame := h token path method
    rw [hlookup] at hsame
    exact hsame
  · intro h token path method
    cases hlookup : tokens.lookup (env.hash token) with
    | none => rfl
    | some info =>
        have hmem := SortedMap.lookup_eq_some_iff.mp hlookup
        exact same_decisions_of_lossless hempty (h _ hmem) path method

/-! ## Three managers -/

/-- The matcher on patterns of ordinary characters between the anchors; a parenthesis on its
own is refused. -/
def literalMatch (pattern path : String) : Option Bool :=
  let body := (pattern.toList.drop 1).dropLast
  if '(' ∈ body then none else some (path.toList == body)

def literalEnvironment : Environment where
  hash token := "sha256:" ++ token
  regexMatch := literalMatch
  toSeconds := Int64.ofInt
  ofSeconds := Int64.toInt

theorem literalEnvironment_hash (token : String) : literalEnvironment.hash token ≠ "" := by
  intro h
  have := congrArg String.length h
  simp [literalEnvironment, String.length_append] at this

theorem literalEnvironment_empty (path : String) :
    literalEnvironment.regexMatch "^$" path = some (path == "") := by
  have hbody : ("^$".toList.drop 1).dropLast = [] := by decide
  simp only [literalEnvironment, literalMatch, hbody, List.not_mem_nil, if_false]
  congr 1
  rw [Bool.eq_iff_iff, beq_iff_eq, beq_iff_eq, String.toList_eq_nil_iff]

/-- The request for one scope. -/
def scopeJson (path : String) (methods : List String) : ScopeJson :=
  ⟨some (.text path), some (.array (methods.map .text))⟩

/-- A manager with one token. -/
def single (scopes : List ScopeJson) : TokenMap :=
  match createApiToken literalEnvironment ∅ scopes "admin" "t" 0 with
  | .ok tokens => tokens
  | .error _ => ∅

theorem load_decides_as_saved_api :
    Created literalEnvironment (single [scopeJson "/api" ["get"]]) ∧
    ∀ token path method, authenticateToken literalEnvironment (loadApiTokens literalEnvironment
      (saveApiTokens literalEnvironment .empty (single [scopeJson "/api" ["get"]])))
      token path method =
    authenticateToken literalEnvironment (single [scopeJson "/api" ["get"]]) token path method := by
  have hcreated : Created literalEnvironment (single [scopeJson "/api" ["get"]]) :=
    .create .empty (rfl : createApiToken literalEnvironment ∅ [scopeJson "/api" ["get"]]
      "admin" "t" 0 = .ok _)
  have hkept : (single [scopeJson "/api" ["get"]]).entries.all
      (fun entry => entry.2.pathMethods.entries.all isKept) = true := by rfl
  rw [List.all_eq_true] at hkept
  exact ⟨hcreated, (load_decides_as_saved literalEnvironment literalEnvironment_hash
    literalEnvironment_empty hcreated .empty).mpr
    (fun entry hentry => lossless_of_kept (hkept entry hentry))⟩

/-- The empty path is allowed until the tokens are loaded again, and a pattern that cannot
be evaluated refuses what it stands in front of until then. -/
theorem load_decides_otherwise :
    Created literalEnvironment (single [scopeJson "" ["GET"]]) ∧
    authenticateToken literalEnvironment (single [scopeJson "" ["GET"]]) "t" "" "GET" = some true ∧
    authenticateToken literalEnvironment (loadApiTokens literalEnvironment
      (saveApiTokens literalEnvironment .empty (single [scopeJson "" ["GET"]]))) "t" "" "GET" =
      some false ∧
    Created literalEnvironment (single [scopeJson "(" [], scopeJson "/api" ["GET"]]) ∧
    authenticateToken literalEnvironment (single [scopeJson "(" [], scopeJson "/api" ["GET"]])
      "t" "/api" "GET" = none ∧
    authenticateToken literalEnvironment (loadApiTokens literalEnvironment
      (saveApiTokens literalEnvironment .empty
        (single [scopeJson "(" [], scopeJson "/api" ["GET"]]))) "t" "/api" "GET" = some true := by
  refine ⟨?_, by decide +kernel, by rfl, ?_, by rfl, by decide +kernel⟩
  · exact .create .empty (rfl : createApiToken literalEnvironment ∅ [scopeJson "" ["GET"]]
      "admin" "t" 0 = .ok _)
  · exact .create .empty (rfl : createApiToken literalEnvironment ∅
      [scopeJson "(" [], scopeJson "/api" ["GET"]] "admin" "t" 0 = .ok _)

end LuminalShine.HttpAuth.ApiTokens
