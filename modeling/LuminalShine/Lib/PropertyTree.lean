import Mathlib.Data.List.Basic

/-!
# Property trees

A node carries a text and an ordered list of named children; a name may occur more than
once, and lookups take its first occurrence.  Paths are texts whose fragments are
separated by dots.

## Main definitions

* `Ptree` — the trees.
* `Ptree.find?` — lookup of a child.
* `Ptree.put`, `Ptree.putChild` — write a text, a subtree at a path.
* `Ptree.childrenNamed` — the children of some names.
* `Ptree.writable` — what a JSON text can hold.
* `fragments` — the path a text denotes.
-/

namespace LuminalShine.Lib

inductive Ptree where
  | node (data : String) (children : List (String × Ptree))

namespace Ptree

/-- The tree with neither text nor children. -/
def empty : Ptree := .node "" []

/-- A tree that is only a text. -/
def leaf (data : String) : Ptree := .node data []

def data : Ptree → String
  | .node d _ => d

def children : Ptree → List (String × Ptree)
  | .node _ cs => cs

/-- The first child of that name. -/
def find? (t : Ptree) (key : String) : Option Ptree := t.children.lookup key

/-- Put `child` where the first child of that name is, or at the end. -/
def setChildren (key : String) (child : Ptree) : List (String × Ptree) → List (String × Ptree)
  | [] => [(key, child)]
  | (k, c) :: rest =>
      if k = key then (k, child) :: rest else (k, c) :: setChildren key child rest

def set (t : Ptree) (key : String) (child : Ptree) : Ptree :=
  .node t.data (setChildren key child t.children)

/-- Write a text at a path; missing nodes are created, an existing node keeps its
children. -/
def put (t : Ptree) (value : String) : List String → Ptree
  | [] => .node value t.children
  | f :: fs => t.set f (((t.find? f).getD empty).put value fs)

/-- Put a subtree at a path; missing nodes are created. -/
def putChild (t : Ptree) (child : Ptree) : List String → Ptree
  | [] => child
  | f :: fs => t.set f (((t.find? f).getD empty).putChild child fs)

/-- Append a child, whether or not there is one of that name. -/
def addChild (t : Ptree) (key : String) (child : Ptree) : Ptree :=
  .node t.data (t.children ++ [(key, child)])

/-- Drop every child of that name. -/
def erase (t : Ptree) (key : String) : Ptree :=
  .node t.data (t.children.filter fun c => c.1 ≠ key)

/-- Drop the first child of that name. -/
def eraseFirst (t : Ptree) (key : String) : Ptree :=
  .node t.data (t.children.eraseP fun c => c.1 = key)

@[simp] theorem data_leaf (d : String) : (leaf d).data = d := rfl
@[simp] theorem data_node (d : String) (cs : List (String × Ptree)) : (node d cs).data = d := rfl
@[simp] theorem children_leaf (d : String) : (leaf d).children = [] := rfl
@[simp] theorem children_node (d : String) (cs : List (String × Ptree)) :
    (node d cs).children = cs := rfl
@[simp] theorem find?_empty (key : String) : empty.find? key = none := rfl

theorem lookup_cons_ne {key key' : String} (c : Ptree) (cs : List (String × Ptree))
    (h : key' ≠ key) : ((key, c) :: cs).lookup key' = cs.lookup key' := by
  have hne : (key' == key) = false := by simpa using h
  rw [List.lookup_cons, hne]

theorem lookup_cons_congr {key : String} {c : Ptree} {cs cs' : List (String × Ptree)}
    {key' : String} (h : cs.lookup key' = cs'.lookup key') :
    ((key, c) :: cs).lookup key' = ((key, c) :: cs').lookup key' := by
  rw [List.lookup_cons, List.lookup_cons, h]

@[simp] theorem find?_set_self (t : Ptree) (key : String) (child : Ptree) :
    (t.set key child).find? key = some child := by
  simp only [find?, set, children_node]
  induction t.children with
  | nil => simp [setChildren]
  | cons c cs ih =>
      obtain ⟨k, v⟩ := c
      by_cases h : k = key
      · simp [setChildren, h]
      · simp only [setChildren, h, if_false]
        rw [lookup_cons_ne v _ (Ne.symm h), ih]

theorem find?_set_ne (t : Ptree) {key key' : String} (child : Ptree) (h : key' ≠ key) :
    (t.set key child).find? key' = t.find? key' := by
  simp only [find?, set, children_node]
  induction t.children with
  | nil => exact lookup_cons_ne child [] h
  | cons c cs ih =>
      obtain ⟨k, v⟩ := c
      by_cases hk : k = key
      · subst hk
        simp only [setChildren, if_true]
        rw [lookup_cons_ne child cs h, lookup_cons_ne v cs h]
      · simp only [setChildren, hk, if_false]
        exact lookup_cons_congr ih

/-- A name that is not there yet is appended. -/
theorem setChildren_of_lookup_eq_none {key : String} (child : Ptree)
    {cs : List (String × Ptree)} (h : cs.lookup key = none) :
    setChildren key child cs = cs ++ [(key, child)] := by
  induction cs with
  | nil => rfl
  | cons c cs ih =>
      obtain ⟨k, v⟩ := c
      by_cases hk : k = key
      · simp [hk] at h
      · rw [lookup_cons_ne v cs (Ne.symm hk)] at h
        simp [setChildren, hk, ih h]

/-- An appended child is found unless an earlier one has its name. -/
theorem find?_addChild (t : Ptree) (key key' : String) (child : Ptree) :
    (t.addChild key child).find? key' =
      (t.find? key').or (if key' = key then some child else none) := by
  simp only [find?, addChild, children_node]
  induction t.children with
  | nil =>
      by_cases h : key' = key
      · simp [h]
      · rw [List.nil_append, lookup_cons_ne child [] h, if_neg h]
        rfl
  | cons c cs ih =>
      obtain ⟨k, v⟩ := c
      rw [List.cons_append]
      by_cases h : key' = k
      · simp [h]
      · rw [lookup_cons_ne v _ h, lookup_cons_ne v _ h, ih]

theorem find?_erase_ne (t : Ptree) {key key' : String} (h : key' ≠ key) :
    (t.erase key).find? key' = t.find? key' := by
  simp only [find?, erase, children_node]
  induction t.children with
  | nil => rfl
  | cons c cs ih =>
      obtain ⟨k, v⟩ := c
      by_cases hk : k = key
      · subst hk
        rw [List.filter_cons_of_neg (by simp), ih, lookup_cons_ne v cs h]
      · rw [List.filter_cons_of_pos (by simpa using hk)]
        exact lookup_cons_congr ih

theorem find?_eraseFirst_ne (t : Ptree) {key key' : String} (h : key' ≠ key) :
    (t.eraseFirst key).find? key' = t.find? key' := by
  simp only [find?, eraseFirst, children_node]
  induction t.children with
  | nil => rfl
  | cons c cs ih =>
      obtain ⟨k, v⟩ := c
      by_cases hk : k = key
      · subst hk
        rw [List.eraseP_cons_of_pos (by simp), lookup_cons_ne v cs h]
      · rw [List.eraseP_cons_of_neg (by simpa using hk)]
        exact lookup_cons_congr ih

@[simp] theorem find?_erase_self (t : Ptree) (key : String) : (t.erase key).find? key = none := by
  simp only [find?, erase, children_node, List.lookup_eq_none_iff, List.mem_filter,
    decide_eq_true_eq, bne_iff_ne]
  intro c hc
  exact Ne.symm hc.2

theorem eraseFirst_of_find?_eq_none {t : Ptree} {key : String} (h : t.find? key = none) :
    t.eraseFirst key = t := by
  obtain ⟨d, cs⟩ := t
  simp only [find?, children_node, List.lookup_eq_none_iff, bne_iff_ne] at h
  simp only [eraseFirst, data_node, children_node, node.injEq, true_and]
  rw [List.eraseP_of_forall_not]
  intro c hc
  simpa using Ne.symm (h c hc)

/-! ### The children of some names -/

/-- The children whose name passes the test, in order. -/
def childrenNamed (t : Ptree) (p : String → Bool) : List (String × Ptree) :=
  t.children.filter fun c => p c.1

section ChildrenNamed

variable {p : String → Bool} {key : String}

theorem childrenNamed_set (t : Ptree) (child : Ptree) (h : p key = false) :
    (t.set key child).childrenNamed p = t.childrenNamed p := by
  simp only [childrenNamed, set, children_node]
  induction t.children with
  | nil => simp [setChildren, h]
  | cons c cs ih =>
      obtain ⟨k, v⟩ := c
      by_cases hk : k = key
      · simp [setChildren, hk, h]
      · simp only [setChildren, hk, if_false, List.filter_cons, ih]

theorem childrenNamed_erase (t : Ptree) (h : p key = false) :
    (t.erase key).childrenNamed p = t.childrenNamed p := by
  simp only [childrenNamed, erase, children_node, List.filter_filter]
  refine List.filter_congr fun c _ => ?_
  by_cases hc : c.1 = key
  · simp [hc, h]
  · simp [hc]

theorem childrenNamed_eraseFirst (t : Ptree) (h : p key = false) :
    (t.eraseFirst key).childrenNamed p = t.childrenNamed p := by
  simp only [childrenNamed, eraseFirst, children_node]
  induction t.children with
  | nil => rfl
  | cons c cs ih =>
      by_cases hc : c.1 = key
      · simp [List.eraseP_cons_of_pos, hc, h]
      · rw [List.eraseP_cons_of_neg (by simpa using hc), List.filter_cons, List.filter_cons, ih]

/-- A lookup sees the children of its name. -/
theorem find?_eq_childrenNamed (t : Ptree) (key : String) :
    t.find? key = (t.childrenNamed (· = key)).head?.map (·.2) := by
  simp only [find?, childrenNamed]
  induction t.children with
  | nil => rfl
  | cons c cs ih =>
      obtain ⟨k, v⟩ := c
      by_cases hk : k = key
      · simp [hk]
      · rw [lookup_cons_ne v cs (Ne.symm hk), ih]
        simp [hk]

theorem childrenNamed_eraseFirst_self (t : Ptree) (key : String) :
    (t.eraseFirst key).childrenNamed (· = key) = (t.childrenNamed (· = key)).tail := by
  simp only [childrenNamed, eraseFirst, children_node]
  induction t.children with
  | nil => rfl
  | cons c cs ih =>
      by_cases hc : c.1 = key
      · simp [List.eraseP_cons_of_pos, hc]
      · rw [List.eraseP_cons_of_neg (by simpa using hc)]
        simpa [hc] using ih

end ChildrenNamed

/-! ### One-fragment paths -/

theorem find?_put_self (t : Ptree) (key value : String) :
    (t.put value [key]).find? key = some (.node value ((t.find? key).getD empty).children) :=
  find?_set_self t key _

theorem find?_put_ne (t : Ptree) {key key' : String} (value : String) (h : key' ≠ key) :
    (t.put value [key]).find? key' = t.find? key' :=
  find?_set_ne t _ h

@[simp] theorem find?_putChild_self (t : Ptree) (key : String) (child : Ptree) :
    (t.putChild child [key]).find? key = some child :=
  find?_set_self t key _

theorem find?_putChild_ne (t : Ptree) {key key' : String} (child : Ptree) (h : key' ≠ key) :
    (t.putChild child [key]).find? key' = t.find? key' :=
  find?_set_ne t _ h

/-- Write a child only if there is something to write. -/
def putOptional (t : Ptree) (key : String) : Option Ptree → Ptree
  | none => t
  | some child => t.putChild child [key]

theorem find?_putOptional_self (t : Ptree) (key : String) (child : Option Ptree) :
    (t.putOptional key child).find? key = child.or (t.find? key) := by
  cases child with
  | none => rfl
  | some c => exact find?_putChild_self t key c

theorem find?_putOptional_ne (t : Ptree) {key key' : String} (child : Option Ptree)
    (h : key' ≠ key) : (t.putOptional key child).find? key' = t.find? key' := by
  cases child with
  | none => rfl
  | some c => exact find?_putChild_ne t c h

/-! ### JSON texts -/

mutual

/-- No node has both a text and children. -/
def separated : Ptree → Bool
  | .node d cs => (d = "" || cs.isEmpty) && separatedAll cs

def separatedAll : List (String × Ptree) → Bool
  | [] => true
  | (_, c) :: cs => c.separated && separatedAll cs

end

/-- The trees a JSON text can hold; at the top it has no text alone. -/
def writable (t : Ptree) : Bool := t.data = "" && t.separated

theorem separatedAll_iff (cs : List (String × Ptree)) :
    separatedAll cs = true ↔ ∀ c ∈ cs, c.2.separated = true := by
  induction cs with
  | nil => simp [separatedAll]
  | cons c cs ih => simp [separatedAll, ih]

theorem separated_iff (t : Ptree) :
    t.separated = true ↔
      (t.data = "" ∨ t.children = []) ∧ ∀ c ∈ t.children, c.2.separated = true := by
  cases t with
  | node d cs => simp [separated, separatedAll_iff]

theorem writable_iff (t : Ptree) :
    t.writable = true ↔ t.data = "" ∧ ∀ c ∈ t.children, c.2.separated = true := by
  rw [writable, Bool.and_eq_true, decide_eq_true_eq, separated_iff]
  constructor
  · intro h
    exact ⟨h.1, h.2.2⟩
  · intro h
    exact ⟨h.1, .inl h.1, h.2⟩

@[simp] theorem separated_leaf (d : String) : (leaf d).separated = true := by
  rw [separated_iff]
  simp

@[simp] theorem writable_empty : empty.writable = true := by
  rw [writable_iff]
  simp [empty]

theorem separated_of_writable {t : Ptree} (h : t.writable = true) : t.separated = true :=
  (Bool.and_eq_true_iff.mp h).2

theorem mem_setChildren {key : String} {child : Ptree} {cs : List (String × Ptree)}
    {c : String × Ptree} (h : c ∈ setChildren key child cs) : c = (key, child) ∨ c ∈ cs := by
  induction cs with
  | nil => simpa [setChildren] using h
  | cons head cs ih =>
      obtain ⟨k, v⟩ := head
      by_cases hk : k = key
      · simp only [setChildren, hk, if_true, List.mem_cons] at h ⊢
        exact h.imp id .inr
      · simp only [setChildren, hk, if_false, List.mem_cons] at h ⊢
        rcases h with h | h
        · exact .inr (.inl h)
        · exact (ih h).imp id .inr

/-- A node without a text may get children. -/
theorem writable_set {t child : Ptree} (key : String) (ht : t.writable = true)
    (hchild : child.separated = true) : (t.set key child).writable = true := by
  rw [writable_iff] at ht ⊢
  refine ⟨ht.1, fun c hc => ?_⟩
  rcases mem_setChildren hc with rfl | hc
  · exact hchild
  · exact ht.2 c hc

theorem writable_putOptional {t : Ptree} {child : Option Ptree} (key : String)
    (ht : t.writable = true) (hchild : ∀ c ∈ child, c.separated = true) :
    (t.putOptional key child).writable = true := by
  cases child with
  | none => exact ht
  | some c => exact writable_set key ht (hchild c rfl)

theorem mem_of_lookup {key : String} {child : Ptree} {cs : List (String × Ptree)}
    (h : cs.lookup key = some child) : (key, child) ∈ cs := by
  induction cs with
  | nil => simp at h
  | cons c cs ih =>
      obtain ⟨k, v⟩ := c
      by_cases hk : key = k
      · subst hk
        simp only [List.lookup_cons, beq_self_eq_true, Option.some.injEq] at h
        simp [h]
      · rw [lookup_cons_ne v cs hk] at h
        exact List.mem_cons_of_mem _ (ih h)

theorem separated_of_find? {t child : Ptree} {key : String} (ht : t.separated = true)
    (h : t.find? key = some child) : child.separated = true :=
  ((separated_iff t).mp ht).2 _ (mem_of_lookup h)

/-- Taking children away keeps a tree fit for a JSON text. -/
theorem separated_of_sublist {t t' : Ptree} (ht : t.separated = true) (hdata : t'.data = t.data)
    (hsub : t'.children.Sublist t.children) : t'.separated = true := by
  rw [separated_iff] at ht ⊢
  refine ⟨?_, fun c hc => ht.2 c (hsub.subset hc)⟩
  rw [hdata]
  refine ht.1.imp id fun hnil => ?_
  rw [hnil] at hsub
  exact List.sublist_nil.mp hsub

theorem separated_erase {t : Ptree} (key : String) (ht : t.separated = true) :
    (t.erase key).separated = true := separated_of_sublist ht rfl List.filter_sublist

theorem separated_eraseFirst {t : Ptree} (key : String) (ht : t.separated = true) :
    (t.eraseFirst key).separated = true := separated_of_sublist ht rfl List.eraseP_sublist

end Ptree

/-- The fragments of a dotted path.  A trailing separator adds nothing. -/
def fragments (path : String) : List String :=
  let parts := (path.toList.splitOn '.').map String.ofList
  if parts.getLast? = some "" then parts.dropLast else parts

/-- A text that can name a child: it is one fragment. -/
def IsKey (key : String) : Prop := key ≠ "" ∧ '.' ∉ key.toList

instance (key : String) : Decidable (IsKey key) := inferInstanceAs (Decidable (_ ∧ _))

theorem fragments_of_isKey {key : String} (h : IsKey key) : fragments key = [key] := by
  have hsplit : key.toList.splitOn '.' = [key.toList] := by
    refine List.splitOnP_eq_singleton ?_
    intro c hc
    have hne : c ≠ '.' := fun hdot => h.2 (hdot ▸ hc)
    simpa using hne
  simp [fragments, hsplit, h.1]

theorem notMem_of_mem_splitOn {a : Char} {xs part : List Char} (h : part ∈ xs.splitOn a) :
    a ∉ part := by
  induction xs generalizing part with
  | nil => simp_all
  | cons x xs ih =>
      rw [List.splitOn_cons_eq_if_modifyHead] at h
      split at h
      · rcases List.mem_cons.mp h with rfl | h
        · simp
        · exact ih h
      · rename_i hx
        cases hsplit : xs.splitOn a with
        | nil => simp [hsplit] at h
        | cons head tail =>
            rw [hsplit, List.modifyHead_cons] at h
            rw [hsplit] at ih
            rcases List.mem_cons.mp h with rfl | h
            · have hne : a ≠ x := fun heq => hx (by simp [heq])
              simpa [hne] using ih List.mem_cons_self
            · exact ih (List.mem_cons_of_mem _ h)

end LuminalShine.Lib
