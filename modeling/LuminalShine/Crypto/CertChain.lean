import Mathlib.Data.List.Basic
import Mathlib.Data.Nat.Notation

/-!
# The certificates of the paired clients

`cert_chain_t` of `src/crypto.cpp`.  Every paired certificate gets an OpenSSL store of its
own, so that the certificate of one client does not stand in the way of another's, and
`verify` asks the stores in the order of pairing.

A store that does not accept ends the search unless its error code is one of two.  So a
client may be refused for a store of somebody else that stands before its own: the verdict is
independent of the order exactly as long as no store fails with a third code.  What OpenSSL
finds for one certificate and one store is a parameter.

## Main definitions

* `CertChain`, `add`, `verify` — the chain.
* `Hides` — a store that ends the search.

## Main results

* `verify_iff` — the lists for which `verify` accepts what one of the stores accepts.
* `verify_any_order_iff` — the same for every order of pairing.
-/

namespace LuminalShine.Crypto

/-! ## OpenSSL -/

/-- What `X509_STORE_CTX_get_error` returns: the codes the source names, and the others. -/
inductive ErrCode where
  | ok
  | certNotYetValid
  | certHasExpired
  | depthZeroSelfSignedCert
  | invalidCa
  | other (code : ℕ)
  deriving DecidableEq, Repr

/-- An `x509_store_t`. -/
structure X509Store (Cert : Type) where
  certs : List Cert

/-- `verifyCert` is `X509_verify_cert` with the context set up for it: the callback, whether
a partial chain will do, the store and the certificate. -/
structure OpenSsl (Cert : Type) where
  verifyCert : (Bool → ErrCode → Bool) → Bool → X509Store Cert → Cert → Except ErrCode Unit
  errorString : ErrCode → String

/-- `openssl_verify_cb`: a client whose clock is wrong is not turned away. -/
def opensslVerifyCb (ok : Bool) : ErrCode → Bool
  | .certNotYetValid | .certHasExpired => true
  | _ => ok

/-! ## The chain -/

variable {Cert : Type}

/-- `cert_chain_t`. -/
structure CertChain (Cert : Type) where
  certs : List (Cert × X509Store Cert)

namespace CertChain

/-- `clear`, and the chain before the first client. -/
def clear : CertChain Cert := ⟨[]⟩

def add (chain : CertChain Cert) (cert : Cert) : CertChain Cert :=
  ⟨chain.certs ++ [(cert, ⟨[cert]⟩)]⟩

/-- The chain of some clients, in the order of their pairing. -/
def ofList (paired : List Cert) : CertChain Cert := paired.foldl add clear

theorem foldl_add (chain : CertChain Cert) (paired : List Cert) :
    (paired.foldl add chain).certs = chain.certs ++ paired.map fun c => (c, ⟨[c]⟩) := by
  induction paired generalizing chain with
  | nil => simp
  | cons c paired ih => simp [ih, add]

@[simp] theorem certs_ofList (paired : List Cert) :
    (ofList paired).certs = paired.map fun c => (c, ⟨[c]⟩) := by
  simp [ofList, foldl_add, clear]

variable (ssl : OpenSsl Cert)

/-- One round of the loop: the partial chain is enough for a client that OpenSSL does not
take for self-signed. -/
def verifyStore (store : X509Store Cert) (cert : Cert) : Except ErrCode Unit :=
  ssl.verifyCert opensslVerifyCb true store cert

/-- The codes after which the next store is asked. -/
def Tolerated (code : ErrCode) : Prop :=
  code = .depthZeroSelfSignedCert ∨ code = .invalidCa

instance : DecidablePred Tolerated :=
  fun code => inferInstanceAs (Decidable (code = .depthZeroSelfSignedCert ∨ code = .invalidCa))

/-- The loop of `verify`, with the error of the store before. -/
def verifyFrom (cert : Cert) (errCode : ErrCode) : List (Cert × X509Store Cert) → Option String
  | [] => some (ssl.errorString errCode)
  | (_, store) :: stores =>
      match verifyStore ssl store cert with
      | .ok () => none
      | .error code =>
          if ¬ Tolerated code then some (ssl.errorString code)
          else verifyFrom cert code stores

/-- `verify`: no text when the certificate is accepted. -/
def verify (chain : CertChain Cert) (cert : Cert) : Option String :=
  verifyFrom ssl cert .ok chain.certs

/-! ## The verdict -/

/-- The store of `c` accepts the certificate. -/
def Accepts (cert c : Cert) : Prop := verifyStore ssl ⟨[c]⟩ cert = .ok ()

/-- The store of `c` fails with a code after which no other store is asked. -/
def Hides (cert c : Cert) : Prop :=
  ∃ code, verifyStore ssl ⟨[c]⟩ cert = .error code ∧ ¬ Tolerated code

variable {ssl} {cert c : Cert}

theorem Hides.not_accepts (h : Hides ssl cert c) : ¬ Accepts ssl cert c := by
  intro haccepts
  rcases h with ⟨code, hcode, -⟩
  rw [Accepts, hcode] at haccepts
  cases haccepts

/-- The first element with `p`, when none before it has `q`: the head has it, or the tail. -/
theorem exists_split_cons {p q : Cert → Prop} {paired : List Cert} :
    (∃ before a after, c :: paired = before ++ a :: after ∧ p a ∧ ∀ b ∈ before, q b) ↔
      p c ∨ q c ∧ ∃ before a after, paired = before ++ a :: after ∧ p a ∧ ∀ b ∈ before, q b := by
  constructor
  · rintro ⟨before, a, after, heq, hp, hq⟩
    cases before with
    | nil =>
        simp only [List.nil_append, List.cons.injEq] at heq
        exact Or.inl (heq.1 ▸ hp)
    | cons b before =>
        simp only [List.cons_append, List.cons.injEq] at heq
        simp only [List.forall_mem_cons] at hq
        exact Or.inr ⟨heq.1 ▸ hq.1, before, a, after, heq.2, hp, hq.2⟩
  · rintro (hp | ⟨hc, before, a, after, rfl, hp, hq⟩)
    · exact ⟨[], c, paired, rfl, hp, by simp⟩
    · exact ⟨c :: before, a, after, rfl, hp, by simpa [hc] using hq⟩

/-- The loop accepts at the first store that accepts, if no store before it ends the loop. -/
theorem verifyFrom_eq_none_iff (errCode : ErrCode) (paired : List Cert) :
    verifyFrom ssl cert errCode (paired.map fun c => (c, ⟨[c]⟩)) = none ↔
      ∃ before a after, paired = before ++ a :: after ∧ Accepts ssl cert a ∧
        ∀ b ∈ before, ¬ Hides ssl cert b := by
  induction paired generalizing errCode with
  | nil => simp [verifyFrom]
  | cons c paired ih =>
      rw [exists_split_cons, List.map_cons, verifyFrom]
      cases hstore : verifyStore ssl ⟨[c]⟩ cert with
      | ok => simp [Accepts, hstore]
      | error code =>
          have hrejects : ¬ Accepts ssl cert c := by simp [Accepts, hstore]
          by_cases hcode : Tolerated code
          · have hc : ¬ Hides ssl cert c := by simp [Hides, hstore, hcode]
            simp [hcode, hrejects, hc, ih]
          · have hc : Hides ssl cert c := ⟨code, hstore, hcode⟩
            simp [hcode, hrejects, hc]

theorem verify_eq_none_iff (paired : List Cert) :
    verify ssl (ofList paired) cert = none ↔
      ∃ before a after, paired = before ++ a :: after ∧ Accepts ssl cert a ∧
        ∀ b ∈ before, ¬ Hides ssl cert b := by
  rw [verify, certs_ofList, verifyFrom_eq_none_iff]

/-- Whatever accepts, something accepts first. -/
theorem exists_first {p : Cert → Prop} {paired : List Cert} (h : ∃ a ∈ paired, p a) :
    ∃ before a after, paired = before ++ a :: after ∧ p a ∧ ∀ b ∈ before, ¬ p b := by
  induction paired with
  | nil => simp at h
  | cons c paired ih =>
      rw [exists_split_cons]
      by_cases hc : p c
      · exact Or.inl hc
      · simp only [List.exists_mem_cons_iff, hc, false_or] at h
        exact Or.inr ⟨hc, ih h⟩

/-- No store that ends the search stands between the clients and all the stores that accept
the certificate. -/
def NoneHidden (ssl : OpenSsl Cert) (cert : Cert) (paired : List Cert) : Prop :=
  ∀ before c after, paired = before ++ c :: after → Hides ssl cert c →
    (∃ a ∈ after, Accepts ssl cert a) → ∃ b ∈ before, Accepts ssl cert b

/-- **The verdict of the chain.**  `verify` accepts what one of the stores accepts, in this
order of pairing, exactly when no store hides all the accepting ones. -/
theorem verify_iff (ssl : OpenSsl Cert) (paired : List Cert) (cert : Cert) :
    (verify ssl (ofList paired) cert = none ↔ ∃ c ∈ paired, Accepts ssl cert c) ↔
      NoneHidden ssl cert paired := by
  rw [verify_eq_none_iff]
  constructor
  · intro hverdict before c after hpaired hc hafter
    -- The first accepting store cannot stand at or behind `c`.
    have haccepting : ∃ a ∈ paired, Accepts ssl cert a := by
      rcases hafter with ⟨a, ha, haccepts⟩
      exact ⟨a, by simp [hpaired, ha], haccepts⟩
    rcases hverdict.mpr haccepting with ⟨before', a, after', hpaired', haccepts, hquiet⟩
    rw [hpaired, List.append_eq_append_iff] at hpaired'
    rcases hpaired' with ⟨as, hbefore', hrest⟩ | ⟨bs, hbefore, hrest⟩
    · cases as with
      | nil =>
          simp only [List.nil_append, List.cons.injEq] at hrest
          exact absurd (hrest.1 ▸ haccepts) hc.not_accepts
      | cons b as =>
          simp only [List.cons_append, List.cons.injEq] at hrest
          exact absurd hc (hquiet c (by simp [hbefore', hrest.1]))
    · cases bs with
      | nil =>
          simp only [List.nil_append, List.cons.injEq] at hrest
          exact absurd (hrest.1 ▸ haccepts) hc.not_accepts
      | cons b bs =>
          simp only [List.cons_append, List.cons.injEq] at hrest
          exact ⟨a, by simp [hbefore, hrest.1], haccepts⟩
  · intro hnone
    constructor
    · rintro ⟨before, a, after, rfl, haccepts, -⟩
      exact ⟨a, by simp, haccepts⟩
    · intro haccepting
      rcases exists_first haccepting with ⟨before, a, after, rfl, haccepts, hfirst⟩
      refine ⟨before, a, after, rfl, haccepts, ?_⟩
      intro b hb hhides
      rcases List.append_of_mem hb with ⟨front, back, rfl⟩
      rcases hnone front b (back ++ a :: after) (by simp) hhides ⟨a, by simp, haccepts⟩
        with ⟨b', hb', haccepts'⟩
      exact hfirst b' (by simp [hb']) haccepts'

/-- In every order of pairing. -/
theorem verify_any_order_iff (ssl : OpenSsl Cert) (paired : List Cert) (cert : Cert) :
    (∀ order, order.Perm paired →
        (verify ssl (ofList order) cert = none ↔ ∃ c ∈ paired, Accepts ssl cert c)) ↔
      ((∃ c ∈ paired, Accepts ssl cert c) → ∀ c ∈ paired, ¬ Hides ssl cert c) := by
  constructor
  · intro horders haccepting c hc hhides
    rcases List.append_of_mem hc with ⟨front, back, rfl⟩
    -- The order that begins with `c`.
    have hverdict := (horders (c :: (front ++ back)) List.perm_middle.symm).mpr haccepting
    rw [verify_eq_none_iff, exists_split_cons] at hverdict
    rcases hverdict with haccepts | ⟨hquiet, -⟩
    · exact hhides.not_accepts haccepts
    · exact hquiet hhides
  · intro hquiet order horder
    have hsame : (∃ c ∈ paired, Accepts ssl cert c) ↔ ∃ c ∈ order, Accepts ssl cert c := by
      simp [horder.mem_iff]
    rw [hsame, verify_iff]
    intro before c after hpaired hhides hafter
    rcases hafter with ⟨a, ha, haccepts⟩
    have hmem : c ∈ order ∧ a ∈ order := by simp [hpaired, ha]
    have hnot := hquiet ⟨a, horder.mem_iff.mp hmem.2, haccepts⟩ c (horder.mem_iff.mp hmem.1)
    exact absurd hhides hnot

/-- A certificate that OpenSSL does not take for self-signed: a store without it looks for
its issuer and does not find it. -/
def notSelfSigned : OpenSsl String where
  verifyCert _ _ store cert :=
    if cert ∈ store.certs then .ok () else .error (.other 20)
  errorString _ := "unable to get local issuer certificate"

/-- The client that was paired second is refused. -/
theorem verify_hides_second_client :
    ¬ (verify notSelfSigned (ofList ["first", "second"]) "second" = none ↔
      ∃ c ∈ ["first", "second"], Accepts notSelfSigned "second" c) := by
  have hrefused : verify notSelfSigned (ofList ["first", "second"]) "second" ≠ none := by
    decide
  have haccepted : Accepts notSelfSigned "second" "second" := rfl
  intro h
  exact hrefused (h.mpr ⟨"second", by simp, haccepted⟩)

end CertChain

end LuminalShine.Crypto
