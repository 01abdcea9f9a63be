import LuminalShine.Changelog.Book

/-!
# Acknowledgements of a book

An acknowledgement of the tree of a book is one of the book: a state is changed where it is, or
appended as long as there is room.

## Main definitions

* `UserState.next` — the state after an acknowledgement.

## Main results

* `acknowledgeTree_encode`, `acknowledgeTree_full` — an acknowledgement of the tree.
* `Book.Valid.put` — the limits are kept.
-/

namespace LuminalShine.Changelog

open LuminalShine.Lib

/-! ## An acknowledgement of a book -/

section

variable {book : Book} {key version : String} {state : UserState} {installed : Bool}

theorem find?_encode (book : Book) :
    (encode book).find? "users" = some (.node "" (encodeUsers book)) := by
  simp [encode, Ptree.find?]

theorem set_encode (book book' : Book) :
    (encode book).set "users" (.node "" (encodeUsers book')) = encode book' := by
  simp [encode, Ptree.set, Ptree.setChildren]

theorem acknowledgeTree_empty (key version : String) (installed : Bool) :
    acknowledgeTree .empty key version installed =
      acknowledgeTree (encode []) key version installed :=
  rfl

theorem Book.get_of_lookup {state : UserState} (h : book.lookup key = some state) :
    book.get key = state := by
  rw [Book.get, h, Option.getD_some]

theorem Book.get_of_none (h : book.lookup key = none) : book.get key = .new := by
  rw [Book.get, h, Option.getD_none]

theorem length_encodeUsers (book : Book) : (encodeUsers book).length = book.length := by
  rw [encodeUsers, List.length_map]

theorem mem_of_lookup {state : UserState} (h : book.lookup key = some state) :
    (key, state) ∈ book := by
  induction book with
  | nil => cases h
  | cons user book ih =>
      rcases user with ⟨k, s⟩
      by_cases hk : k = key
      · subst hk
        rw [List.lookup_cons_self, Option.some.injEq] at h
        subst h
        exact List.mem_cons_self
      · rw [List.lookup_cons, beq_false_of_ne (Ne.symm hk)] at h
        exact List.mem_cons_of_mem _ (ih h)

theorem UserState.valid_new : UserState.new.Valid where
  length := Nat.zero_le _
  seen := by simp [UserState.new]
  dismissed := .inl rfl

theorem Book.Valid.get (h : book.Valid) (key : String) : (book.get key).Valid := by
  cases hlookup : book.lookup key with
  | none =>
      rw [Book.get_of_none hlookup]
      exact UserState.valid_new
  | some state =>
      rw [Book.get_of_lookup hlookup]
      exact h.state _ (mem_of_lookup hlookup)

theorem acknowledgeTree_full (hnone : book.lookup key = none) (hfull : maxUsers ≤ book.length) :
    acknowledgeTree (encode book) key version installed =
      .error (.runtimeError "Changelog user limit reached") := by
  simp only [acknowledgeTree, find?_encode, Option.isNone_some, Bool.false_eq_true, if_false,
    Option.getD_some, Ptree.children_node, findEntry_encodeUsers, hnone, Option.map_none,
    Option.isNone_none, length_encodeUsers, hfull, and_self, if_true]

/-- With room for the user, the state is acknowledged in the book. -/
theorem acknowledgeTree_encode (hvalid : book.Valid)
    (hroom : book.lookup key = none → book.length < maxUsers) :
    acknowledgeTree (encode book) key version installed =
      .ok (((book.get key).acknowledge version installed).elim (book.get key, none)
        fun state => (state, some (encode (book.put key state)))) := by
  cases hlookup : book.lookup key with
  | none =>
      have hfits : ¬maxUsers ≤ book.length := Nat.not_le.mpr (hroom hlookup)
      rw [Book.get_of_none hlookup]
      simp only [acknowledgeTree, find?_encode, Option.isNone_some, Bool.false_eq_true, if_false,
        Option.getD_some, Ptree.children_node, Ptree.data_node, findEntry_encodeUsers, hlookup,
        Option.map_none, length_encodeUsers, hfits, and_false, Option.getD_none, decode_new]
      cases UserState.new.acknowledge version installed with
      | none => rfl
      | some state =>
          simp only [put_new, putEntry_encodeUsers, set_encode]
          rfl
  | some state =>
      have hstate := hvalid.get key
      rw [Book.get_of_lookup hlookup] at hstate ⊢
      simp only [acknowledgeTree, find?_encode, Option.isNone_some, Bool.false_eq_true, if_false,
        Option.getD_some, Ptree.children_node, Ptree.data_node, findEntry_encodeUsers, hlookup,
        Option.map_some, false_and, decode_encodeUser hstate]
      cases state.acknowledge version installed with
      | none => rfl
      | some state' =>
          simp only [put_encodeUser, putEntry_encodeUsers, set_encode]
          rfl

/-- The state after an acknowledgement. -/
def UserState.next (state : UserState) (version : String) (installed : Bool) : UserState :=
  if installed then
    { state with
      seenInstalledVersions := remember maxSeenVersions state.seenInstalledVersions version }
  else { state with dismissedUpdateVersion := version }

theorem getD_acknowledge (hlength : state.seenInstalledVersions.length ≤ maxSeenVersions)
    (version : String) (installed : Bool) :
    (state.acknowledge version installed).getD state = state.next version installed := by
  rcases state with ⟨seen, dismissed⟩
  cases installed with
  | true =>
      by_cases hmem : version ∈ seen
      · simp [UserState.acknowledge, UserState.next, hmem, remember_of_mem hmem]
      · have hnewest : newest maxSeenVersions (seen ++ [version]) =
            if maxSeenVersions < (seen ++ [version]).length then (seen ++ [version]).tail
            else seen ++ [version] := by
          split
          · case isTrue hlt =>
              rw [List.length_append, List.length_singleton] at hlt
              simp only at hlength
              rw [newest, List.length_append, List.length_singleton,
                show seen.length + 1 - maxSeenVersions = 1 by omega, List.drop_one]
          · case isFalse hle => exact newest_of_length_le (Nat.not_lt.mp hle)
        simp only [UserState.acknowledge, UserState.next, hmem, if_true, if_false, remember,
          hnewest, Option.getD_some]
  | false =>
      by_cases heq : dismissed = version
      · simp [UserState.acknowledge, UserState.next, heq]
      · simp [UserState.acknowledge, UserState.next, heq]

theorem UserState.Valid.next (h : state.Valid) (hversion : validVersion version = true)
    (installed : Bool) : (state.next version installed).Valid := by
  cases installed with
  | true =>
      refine ⟨length_remember_le h.length, ?_, h.dismissed⟩
      intro v hv
      rcases mem_of_mem_remember hv with hmem | rfl
      · exact h.seen v hmem
      · exact hversion
  | false => exact ⟨h.length, h.seen, .inr hversion⟩

/-- What an acknowledgement of the tree returns is the next state; nothing is written where it
is the state already. -/
theorem acknowledge_cases (h : state.Valid) (version : String) (installed : Bool) :
    (state.acknowledge version installed = none ∧ state.next version installed = state) ∨
      state.acknowledge version installed = some (state.next version installed) := by
  have hnext := getD_acknowledge h.length version installed
  cases hack : state.acknowledge version installed with
  | none =>
      rw [hack, Option.getD_none] at hnext
      exact .inl ⟨rfl, hnext.symm⟩
  | some state' =>
      rw [hack, Option.getD_some] at hnext
      exact .inr (by rw [hnext])

theorem Book.get_put_self (book : Book) (key : String) (state : UserState) :
    (book.put key state).get key = state := by
  induction book with
  | nil => simp [Book.put, Book.get]
  | cons user book ih =>
      rcases user with ⟨k, s⟩
      by_cases hk : k = key
      · simp [Book.put, Book.get, hk]
      · rw [Book.put, if_neg hk, Book.get, List.lookup_cons, beq_false_of_ne (Ne.symm hk)]
        exact ih

theorem Book.get_put_ne {key' : String} (h : key' ≠ key) (book : Book) (state : UserState) :
    (book.put key state).get key' = book.get key' := by
  induction book with
  | nil =>
      rw [Book.put, Book.get, Book.get, List.lookup_cons, beq_false_of_ne h]
  | cons user book ih =>
      rcases user with ⟨k, s⟩
      by_cases hk : k = key
      · subst hk
        rw [Book.put, if_pos rfl, Book.get, Book.get, List.lookup_cons, List.lookup_cons,
          beq_false_of_ne h]
      · rw [Book.put, if_neg hk, Book.get, Book.get, List.lookup_cons, List.lookup_cons]
        cases key' == k with
        | true => rfl
        | false => exact ih

theorem Book.mem_put {user : String × UserState} (h : user ∈ book.put key state) :
    user ∈ book ∨ user = (key, state) := by
  induction book with
  | nil => exact .inr (List.mem_singleton.mp h)
  | cons first book ih =>
      rcases first with ⟨k, s⟩
      by_cases hk : k = key
      · subst hk
        rw [Book.put, if_pos rfl] at h
        rcases List.mem_cons.mp h with rfl | hmem
        · exact .inr rfl
        · exact .inl (List.mem_cons_of_mem _ hmem)
      · rw [Book.put, if_neg hk] at h
        rcases List.mem_cons.mp h with rfl | hmem
        · exact .inl List.mem_cons_self
        · rcases ih hmem with hmem | heq
          · exact .inl (List.mem_cons_of_mem _ hmem)
          · exact .inr heq

theorem Book.length_put (book : Book) (key : String) (state : UserState) :
    (book.put key state).length =
      if book.lookup key = none then book.length + 1 else book.length := by
  induction book with
  | nil => rfl
  | cons first book ih =>
      rcases first with ⟨k, s⟩
      by_cases hk : k = key
      · subst hk
        simp [Book.put]
      · rw [Book.put, if_neg hk, List.length_cons, ih, List.lookup_cons,
          beq_false_of_ne (Ne.symm hk), List.length_cons]
        split <;> rfl

theorem Book.Valid.put (h : book.Valid) (hkey : byteSize key ≤ 256) (hstate : state.Valid)
    (hroom : book.lookup key = none → book.length < maxUsers) : (book.put key state).Valid where
  length := by
    rw [Book.length_put]
    split
    · case isTrue hnone => exact hroom hnone
    · exact h.length
  key user hmem := by
    rcases Book.mem_put hmem with hmem | rfl
    · exact h.key user hmem
    · exact hkey
  state user hmem := by
    rcases Book.mem_put hmem with hmem | rfl
    · exact h.state user hmem
    · exact hstate

end

end LuminalShine.Changelog
