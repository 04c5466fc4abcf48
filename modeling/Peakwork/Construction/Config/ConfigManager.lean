/-
This file gives the manager of the configurations.
-/

import Peakwork.Construction.Config.Config
import Peakwork.Library.FilePath

namespace Peakwork.Config

/-- The cache goes from the text of a path to the number of its object; an object stands in memory
until the process ends. -/
structure ConfigManager where
  configs : List (String × Nat) := []
  objects : List Config := []
  files : FilePath → File

namespace ConfigManager

/-- The constructor of an object throws, or a text is missing in the map. -/
inductive Failure where
  | constructor (failure : Config.Failure)
  | outOfRange
  deriving DecidableEq, Repr

abbrev Call := EStateM Failure ConfigManager

/-- This is `std::make_shared<Config>`. -/
def makeShared (folder name : String) : Call Nat := fun manager =>
  let blank := Config.blank folder name (manager.files (.ofText (folder ++ "/" ++ name).toList))
  match Config.init.run blank with
  | .ok _ cfg => .ok manager.objects.length { manager with objects := manager.objects ++ [cfg] }
  | .error failure _ => .error (.constructor failure) manager

/-- This is `std::map::at`. -/
def cached (path : String) : Call Nat := fun manager =>
  match manager.configs.lookup path with
  | some cfg => .ok cfg manager
  | none => .error .outOfRange manager

def insert (path : String) (cfg : Nat) : Call Unit :=
  modify fun manager => { manager with configs := (path, cfg) :: manager.configs }

def getConfig (folder name : String) : Call Nat := do
  let path := folder ++ "/" ++ name
  let manager ← getThe ConfigManager
  if (manager.configs.lookup path).isNone then
    let cfg ← makeShared folder name
    insert path cfg
  cached path

end ConfigManager

end Peakwork.Config
