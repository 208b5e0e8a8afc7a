import SurfaceWater.CommandLine.Options

/-!
# Arguments

The words after the name of the program, read from left to right into a request and whether the log
is to say more about it. A word with two dashes in front is an option by its long name, with its
value after an equals sign or as the next word. A word with one dash is a row of options by their
letters, of which the last may have a value, in the rest of the word or as the next word. Two dashes
alone end the options. A request for help or for the version ends the reading where it stands.
-/

namespace SurfaceWater

/-- Why words make no request. -/
inductive UsageFault where
  | noCommand
  | unknownCommand (name : String)
  | unknownOption (word : String)
  | unexpectedValue (option : CommandOption)
  | noValue (setting : Setting)
  | repeated (option : CommandOption)
  | invalidValue (setting : Setting) (text : String)
  | emptyPath
  | unexpectedPath (text : String)
  | noInput
  | noOutput
  deriving DecidableEq

namespace UsageFault

def message : UsageFault → String
  | noCommand => "a command is required"
  | unknownCommand name => s!"there is no command '{name}'"
  | unknownOption word => s!"there is no option '{word}' here"
  | unexpectedValue option => s!"--{option.long} takes no value"
  | noValue setting => s!"--{setting.long} needs a value"
  | repeated option => s!"--{option.long} is given twice"
  | invalidValue setting text => s!"--{setting.long} cannot be '{text}'"
  | emptyPath => "a path must not be empty"
  | unexpectedPath text => s!"'{text}' is one path too many"
  | noInput => "an input path is required"
  | noOutput => "an output path is required"

end UsageFault

inductive Interruption where
  | fault (fault : UsageFault)
  | help
  | version
  deriving DecidableEq

/-- What the program is asked to do. -/
inductive Request where
  | info (input : String)
  | metadata (input : String) (json : Bool)
  | detectWater (inputs : List String) (output : String) (params : DetectionParams)
  deriving DecidableEq

/-- A request, and whether to say more about its progress. -/
structure Invocation where
  request : Request
  verbose : Bool
  deriving DecidableEq

/-- What a word says by its form. -/
inductive Word where
  | separator
  | long (name : String) (value : Option String)
  | letters (letters : List Char)
  | plain
  deriving DecidableEq, Repr

namespace Word

def ofText (text : String) : Word :=
  match text.toList with
  | ['-', '-'] => separator
  | '-' :: '-' :: rest =>
    let value := match rest.dropWhile (· ≠ '=') with
      | _ :: value => some (String.ofList value)
      | [] => none
    long (String.ofList (rest.takeWhile (· ≠ '='))) value
  | '-' :: letter :: rest => letters (letter :: rest)
  | _ => plain

end Word

/-- What the words of one place have said so far. -/
structure ArgumentScan where
  inputs : List String
  flags : List Flag
  output : Option String
  tileSize : Option Nat
  threads : Option Nat
  rule : Option RuleKind
  threshold : Option Binary32
  /-- The setting that the next word is the value of. -/
  pending : Option Setting
  /-- All further words are paths. -/
  pathsOnly : Bool

namespace ArgumentScan

def start : ArgumentScan := ⟨[], [], none, none, none, none, none, none, false⟩

def refuse {α : Type} (fault : UsageFault) : Except Interruption α := .error (.fault fault)

/-- The new value of a setting that has not been given before. -/
def once {α : Type} (setting : Setting) (text : String) (before value : Option α) :
    Except Interruption (Option α) :=
  match before, value with
  | some _, _ => refuse (.repeated (.setting setting))
  | none, none => refuse (.invalidValue setting text)
  | none, some value => .ok (some value)

def nonempty? (text : String) : Option String := if text.isEmpty then none else some text

def set (scan : ArgumentScan) (setting : Setting) (text : String) : Except Interruption ArgumentScan := do
  let scan := { scan with pending := none }
  match setting with
  | .output => return { scan with output := ← once setting text scan.output (nonempty? text) }
  | .tileSize => return { scan with tileSize := ← once setting text scan.tileSize (readCount? text) }
  | .threads => return { scan with threads := ← once setting text scan.threads (readCount? text) }
  | .rule => return { scan with rule := ← once setting text scan.rule (RuleKind.ofText? text) }
  | .threshold => return { scan with threshold := ← once setting text scan.threshold (Binary.read? text) }

def raise (scan : ArgumentScan) (flag : Flag) : Except Interruption ArgumentScan :=
  match flag with
  | .help => .error .help
  | .version => .error .version
  | flag =>
    if scan.flags.contains flag then refuse (.repeated (.flag flag))
    else .ok { scan with flags := flag :: scan.flags }

def input (scan : ArgumentScan) (place : ArgumentPlace) (text : String) : Except Interruption ArgumentScan :=
  if place.inputLimit.any (· ≤ scan.inputs.length) then refuse (.unexpectedPath text)
  else if text.isEmpty then refuse .emptyPath
  else .ok { scan with inputs := scan.inputs ++ [text] }

/-- Takes an option by its long name. -/
def long (scan : ArgumentScan) (place : ArgumentPlace) (name : String) (value : Option String) :
    Except Interruption ArgumentScan :=
  match CommandOption.ofLong? place name, value with
  | none, _ => refuse (.unknownOption s!"--{name}")
  | some (.flag flag), none => scan.raise flag
  | some (.flag flag), some _ => refuse (.unexpectedValue (.flag flag))
  | some (.setting setting), none => .ok { scan with pending := some setting }
  | some (.setting setting), some value => scan.set setting value

/-- Takes a row of options. An equals sign before a value does not belong to it. -/
def letters (scan : ArgumentScan) (place : ArgumentPlace) : List Char → Except Interruption ArgumentScan
  | [] => .ok scan
  | letter :: rest =>
    match CommandOption.ofShort? place letter with
    | none => refuse (.unknownOption s!"-{letter}")
    | some (.flag flag) => do (← scan.raise flag).letters place rest
    | some (.setting setting) =>
      match rest with
      | [] => .ok { scan with pending := some setting }
      | '=' :: value => scan.set setting (String.ofList value)
      | value => scan.set setting (String.ofList value)

def word (scan : ArgumentScan) (place : ArgumentPlace) (text : String) : Except Interruption ArgumentScan :=
  if scan.pathsOnly then scan.input place text
  else match scan.pending, Word.ofText text with
    | some setting, .plain => scan.set setting text
    | some setting, _ => refuse (.noValue setting)
    | none, .separator => .ok { scan with pathsOnly := true }
    | none, .long name value => scan.long place name value
    | none, .letters letters => scan.letters place letters
    | none, .plain => scan.input place text

def firstInput (scan : ArgumentScan) : Except Interruption String :=
  match scan.inputs with
  | [] => refuse .noInput
  | input :: _ => .ok input

def outputPath (scan : ArgumentScan) : Except Interruption String :=
  match scan.output with
  | none => refuse .noOutput
  | some output => .ok output

/-- The parameters that the settings amount to. -/
def params (scan : ArgumentScan) : DetectionParams where
  tileSize := scan.tileSize.getD DetectionParams.standard.tileSize
  mode := .ofThreads (scan.threads.getD 0)
  rule := (scan.rule.getD .ndwi).rule scan.threshold

def request (scan : ArgumentScan) (command : CommandName) : Except Interruption Request := do
  if let some setting := scan.pending then refuse (.noValue setting)
  match command with
  | .info => return .info (← scan.firstInput)
  | .metadata => return .metadata (← scan.firstInput) (scan.flags.contains .json)
  | .detectWater =>
    let _ ← scan.firstInput
    return .detectWater scan.inputs (← scan.outputPath) scan.params

end ArgumentScan

namespace Invocation

def helpName : String := "help"

/-- The words after a request for help may name one command, or help itself. -/
def readHelp : List String → Interruption
  | [] => .help
  | [name] =>
    if name = helpName || (CommandName.all.map CommandName.text).contains name then .help
    else .fault (.unknownCommand name)
  | _ :: name :: _ => .fault (.unknownCommand name)

/-- Reads the words after the name of a command. -/
def readCommand (verbose : Bool) (command : CommandName) (words : List String) : Except Interruption Invocation := do
  let scan ← words.foldlM (fun scan text => scan.word (.command command) text) ArgumentScan.start
  return ⟨← scan.request command, verbose || scan.flags.contains .verbose⟩

/-- Reads the words up to the name of a command, and what follows it. -/
def readWords : ArgumentScan → List String → Except Interruption Invocation
  | _, [] => ArgumentScan.refuse .noCommand
  | scan, text :: rest =>
    let command := if scan.pathsOnly then none else CommandName.all.find? fun command => command.text = text
    match command with
    | some command => readCommand (scan.flags.contains .verbose) command rest
    | none =>
      if !scan.pathsOnly && text = helpName then .error (readHelp rest)
      else do
        let scan ← scan.word .program text
        readWords scan rest

def read (words : List String) : Except Interruption Invocation := readWords .start words

end Invocation

end SurfaceWater
