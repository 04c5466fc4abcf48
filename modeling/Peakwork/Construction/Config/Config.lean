/-
This file gives the configuration that is kept in a file.
-/

import Peakwork.Library.Decimal
import Peakwork.Library.Json
import Peakwork.Library.Paths

namespace Peakwork

/-- A text that is not JSON, such as the empty text, is unreadable. -/
inductive File where
  | absent
  | unreadable
  | holds (tree : PropertyTree)
  deriving Repr

/-- The mutex is `true` while it is locked, and the file is the one at the path. -/
structure Config where
  configFolder : String
  configPath : String
  root : PropertyTree := .empty
  mtx : Bool := false
  file : File
  deriving Repr

namespace Config

/-- A thread that locks its own mutex again is stuck; the others are exceptions. -/
inductive Failure where
  | badPath
  | badData (what : String)
  | jsonParser (what : String)
  | badLexicalCast
  | invalidArgument (what : String)
  | runtimeError (what : String)
  | deadlock
  deriving DecidableEq, Repr

abbrev Call := EStateM Failure Config

/-- The guard unlocks the mutex on every way out of its block. -/
def locked {α : Type} (body : Call α) : Call α := fun config =>
  if config.mtx then .error .deadlock config else
    match body { config with mtx := true } with
    | .ok value after => .ok value { after with mtx := false }
    | .error failure after => .error failure { after with mtx := false }

/-- The file is opened, and so emptied, before the tree is checked. -/
def writeJson : Call Unit := fun config =>
  if Json.verify true config.root then .ok () { config with file := .holds config.root }
  else .error (.jsonParser (config.configPath ++ ": ptree contains data that cannot be represented in JSON"))
    { config with file := .unreadable }

/-- A write turns the exceptions of the tree and of the file into another one. -/
def rethrow {α : Type} (cantAdd : String) : Failure → Call α
  | .badData what => throw (.runtimeError (cantAdd ++ what))
  | .jsonParser what => throw (.runtimeError ("Can't write json file : " ++ what))
  | failure => throw failure

def writeString (key value : String) : Call Unit :=
  tryCatch (locked do
      modify fun config => { config with root := config.root.put key value }
      writeJson)
    (rethrow ("Can't add (\"" ++ key ++ "\":\"" ++ value ++ "\" : "))

/-- The tree of an array has one unnamed child for each value. -/
def arrayTree (values : List String) : PropertyTree :=
  values.foldl (fun child value => child.pushBack "" (PropertyTree.empty.put "" value)) .empty

/-- The whole key is looked for among the direct children of the root, and then it is a path. -/
def write (key : String) (values : List String) : Call Unit :=
  tryCatch (locked do
      modify fun config =>
        if (config.root.find key).isNone then
          { config with root := config.root.addChild key (arrayTree values) }
        else config
      writeJson)
    (rethrow ("Can't add (\"" ++ key ++ "\": array_of_values "))

/-- With a default, nothing is thrown. -/
def get (key defValue : String) : Call String := fun config => .ok (config.root.get key defValue) config

def getChild (key : String) : Call PropertyTree := fun config =>
  match config.root.getChild key with
  | some child => .ok child config
  | none => .error .badPath config

/-- The mutex is still locked in the handler. -/
def getString (key defValue : String) : Call String :=
  locked (tryCatch (get key defValue) fun failure =>
    match failure with
    | .badPath => do
        writeString key defValue
        return defValue
    | failure => throw failure)

/-- The mutex is still locked in the handler. -/
def getArray (key : String) (defValue : List String) : Call (List String) :=
  locked (tryCatch
    (do
      let child ← getChild key
      let res := child.children.map (·.2.data)
      return if res.isEmpty then defValue else res)
    fun failure =>
      match failure with
      | .badPath => do
          write key defValue
          return defValue
      | failure => throw failure)

def getInt (key : String) (defValue : Int) : Call Int := do
  match Decimal.castInt (← getString key (Decimal.castString defValue)) with
  | some value => return value
  | none => throw .badLexicalCast

def writeInt (key : String) (value : Int) : Call Unit := writeString key (Decimal.castString value)

/-- A file that exists is read into the tree. -/
def init : Call Unit := fun config =>
  match config.file with
  | .absent => .ok () config
  | .unreadable => .error (.runtimeError ("Can't parse config file : " ++ config.configPath)) config
  | .holds tree => .ok () { config with root := tree }

/-- The constructor sets the members and then calls `init`. -/
def blank (folder name : String) (file : File) : Config :=
  { configFolder := folder, configPath := folder ++ "/" ++ name, file }

end Config

end Peakwork
