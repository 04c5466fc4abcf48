/-
This file gives the settings of the daemon.
-/

import Peakwork.Construction.Config.Config
import Peakwork.Construction.Config.KeyManager

namespace Peakwork.Config.Daemon

inductive EKeys where
  | logPath
  | dbPath
  | interface
  | port
  | iexUrl
  | iexTocken
  | iexUpdatePriceSecond
  | iexUpdateSymbols
  deriving DecidableEq, Repr

def EKeys.number : EKeys → Int
  | .logPath => 0
  | .dbPath => 1
  | .interface => 2
  | .port => 3
  | .iexUrl => 4
  | .iexTocken => 5
  | .iexUpdatePriceSecond => 6
  | .iexUpdateSymbols => 7

def logFile : String := "./log.txt"
def dbFile : String := "./peakwork.db"
def grpcInterface : String := "0.0.0.0"
def grpcPort : String := "50050"
def updateTime : Int := 3
def iexUrl : String := "https://sandbox.iexapis.com"
def iexToken : String := "Tpk_cf32bcdd9dac4ee586469a167121bda2"
def updateSymbols : List String := ["aapl", "fb"]

def sectionDaemon : Section := ⟨"daemon"⟩
def sectionGRPC : Section := ⟨"grpc_server"⟩
def sectionIEX : Section := ⟨"iex_api"⟩

def keys : KeyManager EKeys := ⟨[
  ⟨sectionDaemon, .logPath, "log_path"⟩,
  ⟨sectionDaemon, .dbPath, "db_path"⟩,
  ⟨sectionGRPC, .interface, "interface"⟩,
  ⟨sectionGRPC, .port, "port"⟩,
  ⟨sectionIEX, .iexUrl, "url"⟩,
  ⟨sectionIEX, .iexTocken, "tocken"⟩,
  ⟨sectionIEX, .iexUpdatePriceSecond, "update_price_timeout_sec"⟩,
  ⟨sectionIEX, .iexUpdateSymbols, "update_symbols"⟩]⟩

/-- A name that is not registered throws. -/
def name (sect : Section) (key : EKeys) : Call String :=
  match keys.lookup EKeys.number sect key with
  | .ok name => return name
  | .error what => throw (.invalidArgument what)

def getDBPath : Call String := do getString (← name sectionDaemon .dbPath) dbFile
def getLogPath : Call String := do getString (← name sectionDaemon .logPath) logFile
def getGRPCServerInterface : Call String := do getString (← name sectionGRPC .interface) grpcInterface
def getGRPCServerPort : Call String := do getString (← name sectionGRPC .port) grpcPort
def getIEXUrl : Call String := do getString (← name sectionIEX .iexUrl) iexUrl
def getIEXTocken : Call String := do getString (← name sectionIEX .iexTocken) iexToken
def getIEXUpdateTimeout : Call Int := do getInt (← name sectionIEX .iexUpdatePriceSecond) updateTime

/-- The list is read at the key of the timeout. -/
def getIEXUpdateSymbols : Call (List String) := do
  getArray (← name sectionIEX .iexUpdatePriceSecond) updateSymbols

def init : Call Unit := do
  writeString (← name sectionDaemon .logPath) (← getLogPath)
  writeString (← name sectionDaemon .dbPath) (← getDBPath)
  writeString (← name sectionGRPC .interface) (← getGRPCServerInterface)
  writeString (← name sectionGRPC .port) (← getGRPCServerPort)
  writeString (← name sectionIEX .iexUrl) (← getIEXUrl)
  writeString (← name sectionIEX .iexTocken) (← getIEXTocken)
  writeInt (← name sectionIEX .iexUpdatePriceSecond) (← getIEXUpdateTimeout)
  write (← name sectionIEX .iexUpdateSymbols) (← getIEXUpdateSymbols)

/-- The constructor `Daemon::Daemon` in a new process, where no configuration is cached. -/
def construct (file : File) : EStateM.Result Failure Config Unit :=
  (do Config.init; init).run (blank "." "daemon.cfg" file)

end Peakwork.Config.Daemon
