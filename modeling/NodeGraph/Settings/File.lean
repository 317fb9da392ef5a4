import NodeGraph.Event
import NodeGraph.File
import NodeGraph.Settings.Basic
import NodeGraph.Toml.Document

/-!
# The settings file

Settings are kept in a TOML document with a key for each of them. `Settings.parse?` reads one, with
the standard settings for the keys that are not there, and `Settings.render?` writes one. Keys that
mean nothing here are ignored.

Whether settings can be used is not asked when they are parsed, but when they are loaded from a
file.
-/

namespace NodeGraph.Settings

open Toml (Entries Item Scalar)

/-- The name that a settings file has if no other is given. -/
def fileName : String := "numgraph.toml"

/-- The rate that a key holds: a float, or an integer as the nearest one. It need not be a rate that
can be used. -/
def rate? : Item → Option Float32
  | .value (.integer n) => some (Binary.single n)
  | .value (.float x) => some (Binary.narrow x)
  | _ => none

/-- The seed that a key holds, which is not negative. Integers of a document have a sign, so that
large seeds cannot be written. -/
def seed? : Item → Option (Option UInt64)
  | .value (.integer n) => if 0 ≤ n then some (some (UInt64.ofNat n.toNat)) else none
  | _ => none

/-- The truth value that a key holds. Numbers are not taken for one. -/
def switch? : Item → Option Bool
  | .value (.boolean b) => some b
  | _ => none

/-- What a key holds, read by `read`, or what stands in if the key is not there. A key that is there
and holds something else is not replaced. -/
def keyOr {α : Type} (es : Entries) (key : String) (read : Item → Option α) (standard : α) :
    Option α :=
  match es.item? key with
  | none => some standard
  | some item => read item

/-- The settings in the outermost table of a document. Other tables are not looked at. -/
def ofEntries? (es : Entries) : Option Settings := do
  let standard : Settings := {}
  return {
    rate := ← keyOr es "updates_per_second" rate? standard.rate
    seed := ← keyOr es "seed" seed? standard.seed
    logStats := ← keyOr es "log_compile_stats" switch? standard.logStats }

/-- The settings of a document. They need not be usable. -/
def parse? (text : String) : Option Settings := do
  ofEntries? (← Toml.parse? text)

/-- The line of a key and its value. -/
def line (key value : String) : String :=
  key ++ " = " ++ value ++ "\n"

/-- The document of settings. A seed that is no integer of 64 bits with a sign has no written
form. -/
def render? (s : Settings) : Option String :=
  let rate := line "updates_per_second" (Decimal.Style.toml.double (Binary.widen s.rate))
  let logStats := line "log_compile_stats" (if s.logStats then "true" else "false")
  match s.seed with
  | none => some (rate ++ logStats)
  | some n =>
    if n.toNat ≤ 9223372036854775807 then some (rate ++ line "seed" (toString n.toNat) ++ logStats)
    else none

/-- The settings in a file, which are usable. What stands in the way is told with the path, unless
it is the rate. -/
def load (path : String) (file : FileContent) : Except SettingsProblem Settings := do
  match file.read with
  | .error detail => throw (.unreadable path detail)
  | .ok text =>
    match parse? text with
    | none => throw (.malformed path "not a settings document")
    | some settings =>
      settings.validate
      return settings

/-- The settings in a file, or the standard ones if there is no file. The standard ones also stand
in, with a report, for settings that cannot be read or used. -/
def loadOrDefault (path : String) : FileContent → Settings × List Event
  | .missing => ({}, [])
  | file =>
    match load path file with
    | .ok settings => (settings, [])
    | .error problem => ({}, [.settingsDefaulted (.settings problem)])

/-- Writes settings to a file. They need not be usable. -/
def save (s : Settings) (write : FileWriter) : Except SettingsProblem Unit :=
  match s.render? with
  | none => .error (.unprintable "seed out of range")
  | some text => (write text).mapError .unwritable

end NodeGraph.Settings
