/-
This file decides when the registered keys are the ones that are looked up.
-/

import Peakwork.Construction.Config.Daemon
import Peakwork.Library.Run

namespace Peakwork.Config

variable {T : Type}

/-- What a lookup compares of a key. -/
def Key.pair (item : Key T) : Section × T := (item.sect, item.key)

def KeyManager.pairs (manager : KeyManager T) : List (Section × T) := manager.keys.map Key.pair

/-- A key that is registered again has its old name. -/
def KeepsName (manager : KeyManager T) (added : Key T) : Prop :=
  ∀ item ∈ manager.keys, item.pair = added.pair → item.keyName = added.keyName

variable {manager : KeyManager T} {added : Key T}

theorem Key.eq_of_pair {first second : Key T} (same : first.pair = second.pair)
    (named : first.keyName = second.keyName) : first = second := by
  obtain ⟨sect, key⟩ := Prod.mk.inj same
  cases first
  cases second
  cases sect
  cases key
  cases named
  rfl

theorem mem_pairs {pair : Section × T} : pair ∈ manager.pairs ↔ ∃ item ∈ manager.keys, item.pair = pair :=
  List.mem_map

/-- A key whose pair is registered under its name is registered. -/
theorem KeepsName.mem (keeps : KeepsName manager added) (taken : added.pair ∈ manager.pairs) :
    added ∈ manager.keys := by
  obtain ⟨item, member, same⟩ := mem_pairs.mp taken
  rw [← Key.eq_of_pair same (keeps item member same)]
  exact member

theorem pairs_new : KeyManager.pairs ⟨manager.keys ++ [added]⟩ = manager.pairs ++ [added.pair] :=
  List.map_append

variable [DecidableEq T]

/-- The first key of the pair is the one that a lookup finds. -/
def KeyManager.first (manager : KeyManager T) (pair : Section × T) : Option (Key T) :=
  manager.keys.find? (·.pair = pair)

/-- The new key is found, the other lookups return or throw the same, and no pair is registered twice. -/
structure Registers (number : T → Int) (manager : KeyManager T) (added : Key T) : Prop where
  distinct : (manager.addKey added).pairs.Nodup
  yields : (manager.addKey added).lookup number added.sect added.key = .ok (added.sect.dotted added.keyName)
  others : ∀ sect key, (sect, key) ≠ added.pair →
    (manager.addKey added).lookup number sect key = manager.lookup number sect key

variable {number : T → Int}

theorem lookup_eq (manager : KeyManager T) (number : T → Int) (sect : Section) (key : T) :
    manager.lookup number sect key =
      match manager.first (sect, key) with
      | some item => .ok (item.sect.dotted item.keyName)
      | none => .error ("Key " ++ toString (number key) ++ " does not found in " ++ sect.name ++
          " section config keys") := by
  have same : (fun item : Key T => decide (sect = item.sect ∧ key = item.key)) =
      fun item => decide (item.pair = (sect, key)) := by
    funext item
    simp only [Key.pair, Prod.mk.injEq, eq_comm]
  rw [KeyManager.lookup, same]
  rfl

theorem addKey_registered (member : added ∈ manager.keys) : manager.addKey added = manager := by
  rw [KeyManager.addKey, if_pos]
  simpa using member

theorem addKey_new (missing : added ∉ manager.keys) : manager.addKey added = ⟨manager.keys ++ [added]⟩ := by
  rw [KeyManager.addKey, if_neg]
  simpa using missing

/-- Among distinct pairs a lookup finds the registered key itself. -/
theorem first_of_mem (distinct : manager.pairs.Nodup) (member : added ∈ manager.keys) :
    manager.first added.pair = some added := by
  obtain ⟨keys⟩ := manager
  show keys.find? (·.pair = added.pair) = some added
  induction keys with
  | nil => cases member
  | cons item rest ih =>
      obtain ⟨apart, later⟩ := List.nodup_cons.mp distinct
      rcases List.mem_cons.mp member with rfl | member
      · exact List.find?_cons_of_pos (by simp)
      · have different : item.pair ≠ added.pair := by
          intro same
          exact apart (same ▸ List.mem_map_of_mem member)
        rw [List.find?_cons_of_neg (by simpa using different)]
        exact ih later member

theorem first_new_self (free : added.pair ∉ manager.pairs) :
    KeyManager.first ⟨manager.keys ++ [added]⟩ added.pair = some added := by
  have missing : manager.keys.find? (fun item => item.pair = added.pair) = none := by
    rw [List.find?_eq_none]
    intro item member
    have apart : item.pair ≠ added.pair := fun same => free (mem_pairs.mpr ⟨item, member, same⟩)
    simpa using apart
  rw [KeyManager.first, List.find?_append, missing]
  simp

theorem first_new_other {pair : Section × T} (apart : pair ≠ added.pair) :
    KeyManager.first ⟨manager.keys ++ [added]⟩ pair = manager.first pair := by
  have missed : [added].find? (fun item => item.pair = pair) = none := by
    rw [List.find?_singleton, if_neg]
    simpa using apart.symm
  rw [KeyManager.first, List.find?_append, missed, Option.or_none]
  rfl

/-- A key that keeps its name is registered exactly once. -/
theorem registers_of_keepsName (distinct : manager.pairs.Nodup) (keeps : KeepsName manager added) :
    Registers number manager added := by
  by_cases member : added ∈ manager.keys
  · rw [← addKey_registered member] at distinct
    refine ⟨distinct, ?_, fun sect key _ => by rw [addKey_registered member]⟩
    rw [addKey_registered member] at distinct ⊢
    rw [lookup_eq, show (added.sect, added.key) = added.pair from rfl, first_of_mem distinct member]
  · have free : added.pair ∉ manager.pairs := fun taken => member (keeps.mem taken)
    refine ⟨?_, ?_, fun sect key apart => ?_⟩
    · rw [addKey_new member, pairs_new, List.nodup_append]
      refine ⟨distinct, List.nodup_singleton _, fun pair taken other single => ?_⟩
      rintro rfl
      exact free (List.mem_singleton.mp single ▸ taken)
    · rw [addKey_new member, lookup_eq, show (added.sect, added.key) = added.pair from rfl, first_new_self free]
    · rw [addKey_new member, lookup_eq, lookup_eq, first_new_other apart]

/-- A key with another name makes its pair occur twice. -/
theorem keepsName_of_registers (registers : Registers number manager added) : KeepsName manager added := by
  intro item member same
  have twice := registers.distinct
  by_cases there : added ∈ manager.keys
  · rw [addKey_registered there] at twice
    have first := first_of_mem twice member
    rw [same, first_of_mem twice there] at first
    rw [← Option.some.inj first]
  · rw [addKey_new there, pairs_new, List.nodup_append] at twice
    exact absurd same (twice.2.2 _ (mem_pairs.mpr ⟨item, member, rfl⟩) _ List.mem_cons_self)

/-- Every registration is found by its lookup and by no other one exactly when each keeps the name that
its pair has already. -/
theorem registrations_agree_iff (number : T → Int) (initKeys added : List (Key T))
    (distinct : (KeyManager.mk initKeys).pairs.Nodup) :
    StepsMeet KeyManager.addKey (Registers number) ⟨initKeys⟩ added ↔
      StepsMeet KeyManager.addKey KeepsName ⟨initKeys⟩ added :=
  stepsMeet_congr
    (fun (manager : KeyManager T) _ (distinct : manager.pairs.Nodup) keeps =>
      (registers_of_keepsName distinct keeps : Registers number _ _).distinct)
    (fun _ _ distinct => ⟨keepsName_of_registers, registers_of_keepsName distinct⟩) _ added distinct

theorem registrations_agree_example :
    StepsMeet KeyManager.addKey (Registers Daemon.EKeys.number) ⟨Daemon.keys.keys⟩
        [⟨Daemon.sectionGRPC, .logPath, "log_path"⟩] ↔
      StepsMeet KeyManager.addKey KeepsName ⟨Daemon.keys.keys⟩ [⟨Daemon.sectionGRPC, .logPath, "log_path"⟩] :=
  registrations_agree_iff _ _ _ (by decide)

/-- A second name of a key of the daemon is registered, and the first one is looked up. -/
theorem second_name_lost :
    (KeyManager.mk Daemon.keys.keys).pairs.Nodup ∧
      ¬ StepsMeet KeyManager.addKey (Registers Daemon.EKeys.number) ⟨Daemon.keys.keys⟩
        [⟨Daemon.sectionDaemon, .logPath, "log"⟩] := by
  constructor
  · decide
  · rintro ⟨registers, _⟩
    have found := registers.yields
    revert found
    decide

end Peakwork.Config
