import SurfaceWater.Detection.Params
import SurfaceWater.Numeric.Numeral

/-!
# Options

What the commands of the program can be told, how it is spelled, and what a setting may be set to.
An option is given at most once.
-/

namespace SurfaceWater

inductive CommandName where
  | info
  | metadata
  | detectWater
  deriving DecidableEq, Repr

def CommandName.text : CommandName → String
  | info => "info"
  | metadata => "metadata"
  | detectWater => "detect-water"

def CommandName.all : List CommandName := [info, metadata, detectWater]

/-- Where an argument stands: before the name of a command, or after it. -/
inductive ArgumentPlace where
  | program
  | command (name : CommandName)
  deriving DecidableEq, Repr

/-- How many paths a place takes, if there is a limit. -/
def ArgumentPlace.inputLimit : ArgumentPlace → Option Nat
  | program => some 0
  | command .detectWater => none
  | command _ => some 1

/-- An option that stands alone. -/
inductive Flag where
  | verbose
  | json
  | help
  | version
  deriving DecidableEq, Repr

namespace Flag

def long : Flag → String
  | verbose => "verbose"
  | json => "json"
  | help => "help"
  | version => "version"

def short : Flag → Option Char
  | verbose => some 'v'
  | json => none
  | help => some 'h'
  | version => some 'V'

def places (place : ArgumentPlace) : List Flag :=
  match place with
  | .program => [verbose, help, version]
  | .command .metadata => [json, verbose, help]
  | .command _ => [verbose, help]

end Flag

inductive Setting where
  | output
  | tileSize
  | threads
  | rule
  | threshold
  deriving DecidableEq, Repr

namespace Setting

def long : Setting → String
  | output => "output"
  | tileSize => "tile-size"
  | threads => "threads"
  | rule => "rule"
  | threshold => "threshold"

def short : Setting → Option Char
  | output => some 'o'
  | tileSize => some 't'
  | threads => some 'j'
  | rule => some 'r'
  | threshold => none

def places (place : ArgumentPlace) : List Setting :=
  match place with
  | .command .detectWater => [output, tileSize, threads, rule, threshold]
  | _ => []

end Setting

inductive CommandOption where
  | flag (flag : Flag)
  | setting (setting : Setting)
  deriving DecidableEq, Repr

namespace CommandOption

def long : CommandOption → String
  | flag f => f.long
  | setting s => s.long

def short : CommandOption → Option Char
  | flag f => f.short
  | setting s => s.short

def places (place : ArgumentPlace) : List CommandOption :=
  (Flag.places place).map flag ++ (Setting.places place).map setting

def ofLong? (place : ArgumentPlace) (name : String) : Option CommandOption :=
  (places place).find? fun o => o.long = name

def ofShort? (place : ArgumentPlace) (c : Char) : Option CommandOption :=
  (places place).find? fun o => o.short = some c

end CommandOption

inductive RuleKind where
  | ndwi
  | ndwiNdvi
  deriving DecidableEq, Repr

namespace RuleKind

def ofText? : String → Option RuleKind
  | "ndwi" => some ndwi
  | "ndwi-ndvi" => some ndwiNdvi
  | _ => none

/-- The rule of a kind, with its NDWI threshold if one is given. -/
def rule (kind : RuleKind) (threshold : Option Binary32) : WaterRule :=
  match kind with
  | ndwi => (threshold.map WaterRule.ndwiAbove).getD .standard
  | ndwiNdvi => .ndwiAboveNdviBelow (threshold.getD 0) 0

end RuleKind

/-- A number of 64 bits in decimal digits, with or without a plus sign. -/
def readCount? (text : String) : Option Nat :=
  let digits := match text.toList with
    | '+' :: rest => rest
    | chars => chars
  (naturalOfDigits? digits).filter (· < UInt64.size)

end SurfaceWater
