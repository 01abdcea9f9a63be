import LuminalShine.Vhf.Gamepads

/-!
# Touch contacts and caches of a slot

No two pointers of a slot share a contact.  Its caches are such that one or two battery reports
stand for all that the client has sent, so a recovery can replay them.

## Main definitions

* `Slot.Separates`, `Mapped` — what the mapping of the pointers is, and the mappings that occur.
* `Slot.Cached` — what the caches are worth.

## Main results

* `Mapped.contact`, `Slot.Cached.keepBattery`, `Slot.Cached.keepInput` — what one event does.
-/

namespace LuminalShine.Vhf

variable {Level : Type} {levels : Levels Level} {slot : Slot}

/-! ## Touch contacts -/

/-- The contacts in use, as a mask. -/
def usedContacts (contactOfPointer : List (UInt32 × ℕ)) : BitVec 8 :=
  contactOfPointer.foldr (fun entry mask => mask ||| (1#8 <<< entry.2)) 0

/-- No two pointers share a contact, and the free contacts are the others of the two. -/
structure Slot.Separates (slot : Slot) : Prop where
  injective : ∀ p q contact, slot.contactOfPointer.lookup p = some contact →
    slot.contactOfPointer.lookup q = some contact → p = q
  contacts : ∀ entry ∈ slot.contactOfPointer, entry.2 = 0 ∨ entry.2 = 1
  free : slot.freeContacts = 0x3 &&& ~~~usedContacts slot.contactOfPointer

/-- The mappings that occur, each with its free contacts. -/
inductive Mapped : List (UInt32 × ℕ) → BitVec 8 → Prop
  | none : Mapped [] 3
  | zero (p : UInt32) : Mapped [(p, 0)] 2
  | one (p : UInt32) : Mapped [(p, 1)] 1
  | zeroOne (p q : UInt32) (h : p ≠ q) : Mapped [(p, 0), (q, 1)] 0
  | oneZero (p q : UInt32) (h : p ≠ q) : Mapped [(p, 1), (q, 0)] 0

theorem Mapped.separates (h : Mapped slot.contactOfPointer slot.freeContacts) :
    slot.Separates := by
  generalize hmap : slot.contactOfPointer = map at h
  generalize hfree : slot.freeContacts = free at h
  refine ⟨fun p q contact hp hq => ?_, fun entry hentry => ?_, ?_⟩
  · rw [hmap] at hp hq
    cases h <;> simp [List.lookup_cons] at hp hq <;> grind
  · rw [hmap] at hentry
    cases h <;> simp at hentry <;> grind
  · rw [hfree, hmap]
    cases h <;> simp [usedContacts]

theorem Mapped.down (h : Mapped slot.contactOfPointer slot.freeContacts) (pointerId : UInt32) :
    Mapped (slot.contact pointerId .down).2.contactOfPointer
      (slot.contact pointerId .down).2.freeContacts := by
  cases hlookup : slot.contactOfPointer.lookup pointerId with
  | some contact => simpa [Slot.contact, hlookup] using h
  | none =>
      generalize hmap : slot.contactOfPointer = map at h hlookup
      generalize hfree : slot.freeContacts = free at h
      cases h with
      | none => simpa [Slot.contact, hmap, hfree] using Mapped.zero pointerId
      | zero p =>
          have hne : pointerId ≠ p := fun heq => by simp [heq] at hlookup
          simpa [Slot.contact, hmap, hfree, hlookup] using Mapped.oneZero pointerId p hne
      | one p =>
          have hne : pointerId ≠ p := fun heq => by simp [heq] at hlookup
          simpa [Slot.contact, hmap, hfree, hlookup] using Mapped.zeroOne pointerId p hne
      | zeroOne p q hpq =>
          simpa [Slot.contact, hmap, hfree, hlookup] using Mapped.zeroOne p q hpq
      | oneZero p q hpq =>
          simpa [Slot.contact, hmap, hfree, hlookup] using Mapped.oneZero p q hpq

theorem lookup_of_ne {p q : UInt32} (hne : p ≠ q) (contact : ℕ)
    (contactOfPointer : List (UInt32 × ℕ)) :
    ((q, contact) :: contactOfPointer).lookup p = contactOfPointer.lookup p := by
  rw [List.lookup_cons, beq_false_of_ne hne]

theorem Mapped.up (h : Mapped slot.contactOfPointer slot.freeContacts) (pointerId : UInt32) :
    Mapped (slot.contact pointerId .up).2.contactOfPointer
      (slot.contact pointerId .up).2.freeContacts := by
  cases hlookup : slot.contactOfPointer.lookup pointerId with
  | none => simpa [Slot.contact, hlookup] using h
  | some contact =>
      generalize hmap : slot.contactOfPointer = map at h hlookup
      generalize hfree : slot.freeContacts = free at h
      cases h with
      | none => simp at hlookup
      | zero p =>
          by_cases hp : pointerId = p
          · simpa [Slot.contact, hmap, hfree, hp] using Mapped.none
          · simp [lookup_of_ne hp] at hlookup
      | one p =>
          by_cases hp : pointerId = p
          · simpa [Slot.contact, hmap, hfree, hp] using Mapped.none
          · simp [lookup_of_ne hp] at hlookup
      | zeroOne p q hpq =>
          by_cases hp : pointerId = p
          · simpa [Slot.contact, hmap, hfree, hp, hpq.symm] using Mapped.one q
          · by_cases hq : pointerId = q
            · simpa [Slot.contact, hmap, hfree, hq, hpq, lookup_of_ne hpq.symm]
                using Mapped.zero p
            · simp [lookup_of_ne hp, lookup_of_ne hq] at hlookup
      | oneZero p q hpq =>
          by_cases hp : pointerId = p
          · simpa [Slot.contact, hmap, hfree, hp, hpq.symm] using Mapped.zero q
          · by_cases hq : pointerId = q
            · simpa [Slot.contact, hmap, hfree, hq, hpq, lookup_of_ne hpq.symm]
                using Mapped.one p
            · simp [lookup_of_ne hp, lookup_of_ne hq] at hlookup

theorem Mapped.contact (h : Mapped slot.contactOfPointer slot.freeContacts) (pointerId : UInt32)
    (event : TouchEvent) :
    Mapped (slot.contact pointerId event).2.contactOfPointer
      (slot.contact pointerId event).2.freeContacts := by
  cases event with
  | down => exact h.down pointerId
  | up => exact h.up pointerId
  | cancel => exact h.up pointerId
  | cancelAll => exact .none
  | hover => exact h
  | move => exact h

/-- A touch changes the mapping of its slot and nothing else. -/
theorem contact_frame (slot : Slot) (pointerId : UInt32) (event : TouchEvent) :
    ∃ contactOfPointer freeContacts, (slot.contact pointerId event).2 =
      { slot with contactOfPointer, freeContacts } := by
  cases event with
  | down =>
      simp only [Slot.contact]
      split
      · exact ⟨_, _, rfl⟩
      · split
        · exact ⟨_, _, rfl⟩
        · split <;> exact ⟨_, _, rfl⟩
  | up | cancel =>
      simp only [Slot.contact]
      split <;> exact ⟨_, _, rfl⟩
  | cancelAll => exact ⟨_, _, rfl⟩
  | hover => exact ⟨_, _, rfl⟩
  | move => exact ⟨_, _, rfl⟩

/-! ## Caches -/

/-- The battery of a controller that has received all reports of the client. -/
def Levels.replay (levels : Levels Level) (reports : List BatteryReport) : Level × UInt8 :=
  reports.foldl levels.receive levels.fresh

/-- The reports that a recovery sends. -/
def Slot.cachedBatteries (slot : Slot) : List BatteryReport :=
  slot.batteryLevelSeed.toList ++ slot.lastBattery.toList

variable (levels) in
/-- The caches stand for all that the client has sent. -/
structure Slot.Cached (slot : Slot) : Prop where
  input : slot.lastInput = slot.inputs.getLast?
  battery : levels.replay slot.cachedBatteries = levels.replay slot.batteries
  seed : slot.lastBattery = none → slot.batteryLevelSeed = none

/-- A report with a percentage makes the battery by itself. -/
theorem receive_of_le {report : BatteryReport} (h : report.percent ≤ 100)
    (battery battery' : Level × UInt8) :
    levels.receive battery report = levels.receive battery' report := by
  simp [Levels.receive, h]

/-- A report without one keeps the level, so only the last such report counts. -/
theorem receive_receive_of_not_le {report : BatteryReport} (h : ¬ report.percent ≤ 100)
    (battery : Level × UInt8) (newer : BatteryReport) :
    levels.receive (levels.receive battery report) newer = levels.receive battery newer := by
  simp [Levels.receive, h]

theorem replay_append (reports : List BatteryReport) (report : BatteryReport) :
    levels.replay (reports ++ [report]) = levels.receive (levels.replay reports) report :=
  List.foldl_concat _ _ _ _

theorem Slot.Cached.keepBattery (h : slot.Cached levels) (report : BatteryReport) :
    (slot.keepBattery report).Cached levels where
  input := h.input
  seed := fun hnone => by cases hnone
  battery := by
    have hnew : levels.replay (slot.keepBattery report).batteries =
        levels.receive (levels.replay slot.cachedBatteries) report := by
      rw [h.battery]
      exact replay_append slot.batteries report
    rw [hnew]
    by_cases hpercent : report.percent ≤ 100
    · rw [receive_of_le hpercent _ levels.fresh]
      simp [Slot.cachedBatteries, Slot.keepBattery, hpercent, Levels.replay]
    · cases hlast : slot.lastBattery with
      | none =>
          have hseed := h.seed hlast
          simp [Slot.cachedBatteries, Slot.keepBattery, hpercent, hlast, hseed, Levels.replay]
      | some last =>
          by_cases hold : last.percent ≤ 100
          · have hcached : levels.replay slot.cachedBatteries =
                levels.receive levels.fresh last := by
              rw [Slot.cachedBatteries, hlast, Option.toList_some, replay_append]
              exact receive_of_le hold _ _
            rw [hcached]
            simp [Slot.cachedBatteries, Slot.keepBattery, hpercent, hlast, hold, Levels.replay]
          · have hcached : levels.replay slot.cachedBatteries =
                levels.receive (levels.replay slot.batteryLevelSeed.toList) last := by
              rw [Slot.cachedBatteries, hlast, Option.toList_some, replay_append]
            rw [hcached, receive_receive_of_not_le hold, ← replay_append]
            simp [Slot.cachedBatteries, Slot.keepBattery, hpercent, hlast, hold]

theorem Slot.Cached.keepInput (h : slot.Cached levels) (report : InputReport) :
    (slot.keepInput report).Cached levels where
  input := by simp [Slot.keepInput]
  battery := h.battery
  seed := h.seed

end LuminalShine.Vhf
