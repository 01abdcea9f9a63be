import Mathlib
import LuminalShine.Lib.Assoc
import LuminalShine.Lib.Run

/-!
# Mailboxes shared by name

`mail_raw_t` hands out events and queues by identifier.  Its map holds only weak references, so
a post lives as long as somebody holds it; the destructor of a post cleans the map up, but only
some time after the last reference is gone, and it erases the first expired entry it meets, not
necessarily its own.

* `Mail`, `Mail.get`, `Mail.cleanup`, `step` — the map with the references to the posts made so
  far;
* `Mail.Sound` — every live post is registered, and no more entries are expired than destructors
  are on their way;
* `mail_meets` — in every run the holders of an identifier hold one post, and asking for the
  identifier gives it to them.
-/

namespace LuminalShine.Safe

open LuminalShine.Lib

variable {κ : Type} [LinearOrder κ]

/-- The state of a `mail_raw_t`.  Posts are numbered as they are made, `posts` keeps the
identifier each was made for; `refs` counts the strong references and `pending` the destructors
that have not reached their `cleanup`. -/
structure Mail (κ : Type) where
  idToPost : AList fun _ : κ => ℕ
  posts : List κ
  refs : ℕ → ℕ
  pending : ℕ

namespace Mail

def start : Mail κ := ⟨∅, [], fun _ => 0, 0⟩

def expired (m : Mail κ) (post : ℕ) : Bool := m.refs post == 0

def addRef (m : Mail κ) (post : ℕ) : Mail κ :=
  { m with refs := Function.update m.refs post (m.refs post + 1) }

/-- `make_shared` and `emplace`. -/
def make (m : Mail κ) (id : κ) : Mail κ :=
  { m with
    idToPost := emplace m.idToPost id m.posts.length
    posts := m.posts ++ [id]
    refs := Function.update m.refs m.posts.length 1 }

/-- `event` and `queue`: the live post of the identifier, or a new one in place of what the map
has. -/
def get (m : Mail κ) (id : κ) : Mail κ × ℕ :=
  match m.idToPost.lookup id with
  | some post =>
    if m.expired post then
      ({ m with idToPost := m.idToPost.erase id }.make id, m.posts.length)
    else (m.addRef post, post)
  | none => (m.make id, m.posts.length)

/-- The identifiers whose entry is expired. -/
def expiredIds (m : Mail κ) : List κ :=
  m.idToPost.keys.filter fun id => (m.idToPost.lookup id).any m.expired

/-- `cleanup`: the map is walked in key order up to the first expired entry. -/
def cleanup (m : Mail κ) : Mail κ :=
  match m.expiredIds.min? with
  | some id => { m with idToPost := m.idToPost.erase id }
  | none => m

/-- A strong reference goes; the last one starts the destructor of the post. -/
def release (m : Mail κ) (post : ℕ) : Mail κ :=
  { m with
    refs := Function.update m.refs post (m.refs post - 1)
    pending := if m.refs post = 1 then m.pending + 1 else m.pending }

end Mail

/-- What happens to a mail: somebody asks for an identifier, copies a reference they hold, drops
one, or a destructor reaches its cleanup. -/
inductive MailOp (κ : Type)
  | get (id : κ)
  | copy (post : ℕ)
  | drop (post : ℕ)
  | cleanup

def Mail.step (m : Mail κ) : MailOp κ → Option (Mail κ)
  | .get id => some (m.get id).1
  | .copy post => if m.refs post = 0 then none else some (m.addRef post)
  | .drop post => if m.refs post = 0 then none else some (m.release post)
  | .cleanup => if m.pending = 0 then none else some { m.cleanup with pending := m.pending - 1 }

namespace Mail

/-- How many entries are expired. -/
def expiredCount (m : Mail κ) : ℕ := m.idToPost.entries.countP fun e => m.expired e.2

/-- Live posts are registered under their identifier, entries name the post made for it, and
every expired entry is owed a cleanup. -/
structure Sound (m : Mail κ) : Prop where
  registered : ∀ {id : κ} {post : ℕ}, m.refs post ≠ 0 → m.posts[post]? = some id →
    m.idToPost.lookup id = some post
  named : ∀ {id : κ} {post : ℕ}, m.idToPost.lookup id = some post → m.posts[post]? = some id
  made : ∀ {post : ℕ}, m.refs post ≠ 0 → post < m.posts.length
  owed : m.expiredCount ≤ m.pending

variable {m : Mail κ}

theorem sound_start : Sound (start : Mail κ) where
  registered h := absurd rfl h
  named h := by simp [start] at h
  made h := absurd rfl h
  owed := by simp [expiredCount, start]

/-- Two live posts of one identifier are one post. -/
theorem Sound.unique (h : m.Sound) {id : κ} {a b : ℕ} (ha : m.refs a ≠ 0) (hb : m.refs b ≠ 0)
    (hida : m.posts[a]? = some id) (hidb : m.posts[b]? = some id) : a = b :=
  Option.some.inj ((h.registered ha hida).symm.trans (h.registered hb hidb))

omit [LinearOrder κ] in
/-- A change of counts that kills no post keeps the owed cleanups. -/
theorem expiredCount_mono {m' : Mail κ} (hmap : m'.idToPost = m.idToPost)
    (hlive : ∀ post, m.refs post ≠ 0 → m'.refs post ≠ 0) : m'.expiredCount ≤ m.expiredCount := by
  rw [expiredCount, hmap]
  apply List.countP_mono_left
  intro e _ he
  by_contra hne
  have hrefs : m.refs e.2 ≠ 0 := by simpa [expired] using hne
  exact hlive e.2 hrefs (by simpa [expired] using he)

theorem Sound.addRef (h : m.Sound) {post : ℕ} (hlive : m.refs post ≠ 0) :
    (m.addRef post).Sound := by
  have hiff : ∀ k, (m.addRef post).refs k ≠ 0 ↔ m.refs k ≠ 0 := by
    intro k
    by_cases hk : k = post
    · subst hk
      simpa [Mail.addRef] using hlive
    · simp [Mail.addRef, hk]
  constructor
  · intro id k hk hid
    exact h.registered ((hiff k).mp hk) hid
  · exact h.named
  · intro k hk
    exact h.made ((hiff k).mp hk)
  · have hcount : (m.addRef post).expiredCount ≤ m.expiredCount :=
      expiredCount_mono rfl fun k hk => (hiff k).mpr hk
    exact hcount.trans h.owed

/-- The number of the next post is free. -/
theorem Sound.refs_length (h : m.Sound) : m.refs m.posts.length = 0 := by
  by_contra hne
  exact Nat.lt_irrefl _ (h.made hne)

/-- No entry names a post that is not made. -/
theorem Sound.lt_of_lookup (h : m.Sound) {id : κ} {post : ℕ}
    (hl : m.idToPost.lookup id = some post) : post < m.posts.length :=
  (List.getElem?_eq_some_iff.mp (h.named hl)).1

/-- Making a post for an identifier that is not in the map. -/
theorem Sound.make (h : m.Sound) {id : κ} (hid : id ∉ m.idToPost)  : (m.make id).Sound := by
  have hfree := h.refs_length
  have hmap : (m.make id).idToPost = m.idToPost.insert id m.posts.length :=
    emplace_of_notMem hid
  constructor
  · intro key post hpost hkey
    rw [hmap, lookup_insert_eq_some]
    by_cases hnew : post = m.posts.length
    · subst hnew
      left
      simpa [Mail.make] using hkey.symm
    · have hold : m.refs post ≠ 0 := by simpa [Mail.make, hnew] using hpost
      have hlt := h.made hold
      have hl := h.registered hold (by simpa [Mail.make, List.getElem?_append_left hlt] using hkey)
      right
      refine ⟨?_, hl⟩
      rintro rfl
      exact hid (AList.lookup_isSome.mp (by rw [hl]; rfl))
  · intro key post hl
    rw [hmap, lookup_insert_eq_some] at hl
    rcases hl with ⟨rfl, rfl⟩ | ⟨-, hl⟩
    · simp [Mail.make]
    · have hlt := h.lt_of_lookup hl
      simpa [Mail.make, List.getElem?_append_left hlt] using h.named hl
  · intro post hpost
    by_cases hnew : post = m.posts.length
    · simp [Mail.make, hnew]
    · have hlt : post < m.posts.length := h.made (by simpa [Mail.make, hnew] using hpost)
      simp only [Mail.make, List.length_append, List.length_singleton]
      omega
  · have hnew : (m.make id).expired m.posts.length = false := by simp [Mail.make, expired]
    have hcount : (m.make id).expiredCount = m.expiredCount := by
      rw [expiredCount, hmap, countP_entries_insert, erase_of_lookup_none
        (AList.lookup_eq_none.mpr hid), hnew]
      apply List.countP_congr
      intro e he
      have hlt := h.lt_of_lookup (AList.mem_lookup_iff.mpr he)
      simp [Mail.make, expired, hlt.ne]
    rw [hcount]
    exact h.owed

/-- Erasing an expired entry takes one cleanup off what is owed. -/
theorem Sound.erase (h : m.Sound) {id : κ} {post : ℕ} (hl : m.idToPost.lookup id = some post)
    (hdead : m.refs post = 0) :
    ({ m with idToPost := m.idToPost.erase id } : Mail κ).Sound ∧
      ({ m with idToPost := m.idToPost.erase id } : Mail κ).expiredCount + 1 = m.expiredCount := by
  have hcount : ({ m with idToPost := m.idToPost.erase id } : Mail κ).expiredCount + 1 =
      m.expiredCount := by
    have hexpired : m.expired post = true := by simp [expired, hdead]
    rw [expiredCount, expiredCount, countP_entries_of_lookup _ hl, hexpired]
    rfl
  refine ⟨?_, hcount⟩
  constructor
  · intro key k hk hkey
    rw [lookup_erase_eq_some]
    refine ⟨?_, h.registered hk hkey⟩
    rintro rfl
    have := (h.registered hk hkey).symm.trans hl
    rw [Option.some.inj this] at hk
    exact hk hdead
  · intro key k hl'
    exact h.named (lookup_erase_eq_some.mp hl').2
  · exact h.made
  · have howed := h.owed
    change _ ≤ m.pending
    omega

theorem notMem_erase (l : AList fun _ : κ => ℕ) (id : κ) : id ∉ l.erase id := by
  simp

/-- Asking for an identifier, whatever the map has under it. -/
theorem Sound.get (h : m.Sound) (id : κ) : (m.get id).1.Sound := by
  rw [Mail.get]
  cases hl : m.idToPost.lookup id with
  | none => exact h.make (AList.lookup_eq_none.mp hl)
  | some post =>
      by_cases hdead : m.refs post = 0
      · have hexpired : m.expired post = true := by simp [expired, hdead]
        simp only [hexpired, if_true]
        exact (h.erase hl hdead).1.make (notMem_erase m.idToPost id)
      · have hlive : m.expired post = false := by simp [expired, hdead]
        simp only [hlive, Bool.false_eq_true, if_false]
        exact h.addRef hdead

/-- The cleanup finds an expired entry whenever there is one, and erases nothing else. -/
theorem cleanup_cases (m : Mail κ) :
    (m.cleanup = m ∧ m.expiredCount = 0) ∨
      ∃ id post, m.idToPost.lookup id = some post ∧ m.refs post = 0 ∧
        m.cleanup = { m with idToPost := m.idToPost.erase id } := by
  cases hmin : m.expiredIds.min? with
  | none =>
      left
      refine ⟨by simp [cleanup, hmin], ?_⟩
      rw [expiredCount, List.countP_eq_zero]
      intro e he hexp
      have hl := AList.mem_lookup_iff.mpr he
      have hmem : e.1 ∈ m.expiredIds := by
        rw [expiredIds, List.mem_filter, Option.mem_def.mp hl]
        exact ⟨List.mem_map_of_mem he, hexp⟩
      rw [List.min?_eq_none_iff.mp hmin] at hmem
      exact absurd hmem List.not_mem_nil
  | some id =>
      right
      have hmem := List.min?_mem hmin
      rw [expiredIds, List.mem_filter, Option.any_eq_true] at hmem
      obtain ⟨-, post, hl, hexp⟩ := hmem
      exact ⟨id, post, hl, by simpa [expired] using hexp, by simp [cleanup, hmin]⟩

/-- A destructor that reaches its cleanup pays what it owes. -/
theorem Sound.cleanup (h : m.Sound) :
    ({ m.cleanup with pending := m.pending - 1 } : Mail κ).Sound := by
  have howed := h.owed
  rcases m.cleanup_cases with ⟨heq, hnone⟩ | ⟨id, post, hl, hdead, heq⟩
  · rw [heq]
    refine ⟨h.registered, h.named, h.made, ?_⟩
    change m.expiredCount ≤ _
    omega
  · obtain ⟨herased, hcount⟩ := h.erase hl hdead
    rw [heq]
    refine ⟨herased.registered, herased.named, herased.made, ?_⟩
    change ({ m with idToPost := m.idToPost.erase id } : Mail κ).expiredCount ≤ m.pending - 1
    omega

/-- The last reference to a post makes at most its own entry expire. -/
theorem Sound.expiredCount_release (h : m.Sound) {post : ℕ} (hlive : m.refs post ≠ 0) :
    (m.release post).expiredCount ≤ m.expiredCount + if m.refs post = 1 then 1 else 0 := by
  obtain ⟨id, hid⟩ : ∃ id, m.posts[post]? = some id := ⟨_, List.getElem?_eq_getElem (h.made hlive)⟩
  have hl := h.registered hlive hid
  have hothers : (m.idToPost.erase id).entries.countP (fun e => (m.release post).expired e.2) =
      (m.idToPost.erase id).entries.countP fun e => m.expired e.2 := by
    apply List.countP_congr
    intro e he
    obtain ⟨hne, hle⟩ := lookup_erase_eq_some.mp (AList.mem_lookup_iff.mpr he)
    have hpost : e.2 ≠ post := by
      intro heq
      have := h.named hle
      rw [heq, hid, Option.some.injEq] at this
      exact hne this.symm
    simp [release, expired, hpost]
  have hself : m.expired post = false := by simp [expired, hlive]
  have hbefore : m.expiredCount = (m.idToPost.erase id).entries.countP fun e => m.expired e.2 := by
    rw [expiredCount, countP_entries_of_lookup _ hl, hself]
    rfl
  have hafter : (m.release post).expiredCount =
      (m.idToPost.erase id).entries.countP (fun e => (m.release post).expired e.2) +
        ((m.release post).expired post).toNat := by
    have hl' : (m.release post).idToPost.lookup id = some post := hl
    rw [expiredCount, countP_entries_of_lookup _ hl']
    rfl
  rw [hafter, hothers, ← hbefore]
  by_cases hone : m.refs post = 1
  · simp [release, expired, hone]
  · have hmore : m.refs post - 1 ≠ 0 := by omega
    simp [release, expired, hone, hmore]

theorem Sound.release (h : m.Sound) {post : ℕ} (hlive : m.refs post ≠ 0) :
    (m.release post).Sound := by
  have hsub : ∀ k, (m.release post).refs k ≠ 0 → m.refs k ≠ 0 := by
    intro k hk
    by_cases hkp : k = post
    · exact hkp ▸ hlive
    · simpa [Mail.release, hkp] using hk
  constructor
  · intro id k hk hid
    exact h.registered (hsub k hk) hid
  · exact h.named
  · intro k hk
    exact h.made (hsub k hk)
  · have hcount := h.expiredCount_release hlive
    have howed := h.owed
    change (m.release post).expiredCount ≤ if m.refs post = 1 then m.pending + 1 else m.pending
    split at hcount <;> rename_i hone
    · rw [if_pos hone]
      omega
    · rw [if_neg hone]
      omega

theorem Sound.step (h : m.Sound) {op : MailOp κ} {m' : Mail κ} (hstep : m.step op = some m') :
    m'.Sound := by
  cases op with
  | get id =>
      rw [Mail.step, Option.some.injEq] at hstep
      exact hstep ▸ h.get id
  | copy post =>
      rw [Mail.step, Option.ite_none_left_eq_some, Option.some.injEq] at hstep
      exact hstep.2 ▸ h.addRef hstep.1
  | drop post =>
      rw [Mail.step, Option.ite_none_left_eq_some, Option.some.injEq] at hstep
      exact hstep.2 ▸ h.release hstep.1
  | cleanup =>
      rw [Mail.step, Option.ite_none_left_eq_some, Option.some.injEq] at hstep
      exact hstep.2 ▸ h.cleanup

theorem sound_of_ops {ops : List (MailOp κ)} (hrun : run Mail.step start ops = some m) : m.Sound :=
  run_invariant (fun _ _ _ h hstep => h.step hstep) sound_start hrun

/-- Asking for the identifier of a live post gives that post. -/
theorem Sound.get_live (h : m.Sound) {id : κ} {post : ℕ} (hlive : m.refs post ≠ 0)
    (hid : m.posts[post]? = some id) : (m.get id).2 = post := by
  have hexpired : m.expired post = false := by simp [expired, hlive]
  simp [Mail.get, h.registered hlive hid, hexpired]

/-- With no destructor on its way every entry is live. -/
theorem Sound.live_of_settled (h : m.Sound) (hsettled : m.pending = 0) {id : κ} {post : ℕ}
    (hl : m.idToPost.lookup id = some post) : m.refs post ≠ 0 := by
  intro hdead
  have hcount : 0 < m.expiredCount :=
    List.countP_pos_iff.mpr ⟨⟨id, post⟩, AList.mem_lookup_iff.mp hl, by simp [expired, hdead]⟩
  have howed := h.owed
  omega

end Mail

/-- **Holders of one identifier meet.**  However references are taken, copied and dropped and
whenever the destructors get to clean up: an identifier has at most one live post, asking for
it gives that post, and once no destructor is on its way the map holds live posts only. -/
theorem mail_meets {ops : List (MailOp κ)} {m : Mail κ}
    (hrun : run Mail.step .start ops = some m) :
    (∀ (id : κ) (a b : ℕ), m.refs a ≠ 0 → m.refs b ≠ 0 → m.posts[a]? = some id →
      m.posts[b]? = some id → a = b) ∧
    (∀ (id : κ) (post : ℕ), m.refs post ≠ 0 → m.posts[post]? = some id → (m.get id).2 = post) ∧
    (m.pending = 0 → ∀ (id : κ) (post : ℕ), m.idToPost.lookup id = some post →
      m.refs post ≠ 0) := by
  have h := Mail.sound_of_ops hrun
  refine ⟨?_, ?_, ?_⟩
  · intro id a b ha hb hida hidb
    exact h.unique ha hb hida hidb
  · intro id post hlive hid
    exact h.get_live hlive hid
  · intro hsettled id post hl
    exact h.live_of_settled hsettled hl

/-- Two holders, one of whom leaves, and a third who comes before the cleanup. -/
theorem mail_meets_three :
    ∃ m : Mail ℕ, run Mail.step .start
      [.get 7, .get 7, .drop 0, .drop 0, .get 7, .cleanup] = some m ∧ (m.get 7).2 = 1 := by
  refine ⟨_, rfl, ?_⟩
  exact (mail_meets (rfl : run Mail.step .start
    [.get 7, .get 7, .drop 0, .drop 0, .get 7, .cleanup] = some _)).2.1 7 1 (by decide) (by decide)

end LuminalShine.Safe
