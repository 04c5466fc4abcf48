/-
This file gives the names of the settings.
-/

import Mathlib.Tactic

namespace Peakwork.Config

structure Section where
  name : String
  deriving DecidableEq, Repr

namespace Section

/-- The name of a setting in the section. -/
def dotted (sect : Section) (key : String) : String := sect.name ++ "." ++ key

end Section

structure Key (T : Type) where
  sect : Section
  key : T
  keyName : String
  deriving DecidableEq, Repr

structure KeyManager (T : Type) where
  keys : List (Key T)
  deriving DecidableEq, Repr

/-- The call operator of the manager; `number` is the number of the enumerator in its message. -/
def KeyManager.lookup {T : Type} [DecidableEq T] (manager : KeyManager T) (number : T → Int)
    (sect : Section) (key : T) : Except String String :=
  match manager.keys.find? fun item => sect = item.sect ∧ key = item.key with
  | some item => .ok (item.sect.dotted item.keyName)
  | none => .error ("Key " ++ toString (number key) ++ " does not found in " ++ sect.name ++
      " section config keys")

/-- Only a key with the same section, key and name is not registered again. -/
def KeyManager.addKey {T : Type} [DecidableEq T] (manager : KeyManager T) (added : Key T) : KeyManager T :=
  if manager.keys.any (· = added) then manager else ⟨manager.keys ++ [added]⟩

end Peakwork.Config
