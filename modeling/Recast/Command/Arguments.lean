-- The arguments of the command line. Short flags may stand together
-- behind one dash, and a value may follow its option in the same argument
-- or in the next one. After two dashes nothing is an option any more.
import Recast.Path
import Recast.Text.Split

namespace Recast.Command

/-! ## What may stand on a command line -/

/-- A word with two dashes, and perhaps a letter with one dash. -/
structure Switch where
  name : String
  short : Option Char
deriving Repr, DecidableEq, Inhabited

/-- The switches of a command, and how many plain arguments it takes. -/
structure Spec where
  flags : List Switch
  /-- Switches with a value. -/
  options : List Switch
  /-- Options whose value may be empty. -/
  mayBeEmpty : List String
  /-- The greatest count of plain arguments, if there is one. -/
  most : Option Nat
deriving Repr, DecidableEq, Inhabited

/-- Why there is nothing to do. -/
inductive Stop
  | help
  | version
  /-- The arguments make no sense. -/
  | usage
deriving Repr, DecidableEq, Inhabited

/-- What was read so far. -/
structure Matches where
  flags : List String
  values : List (String × String)
  plain : List String
deriving Repr, DecidableEq, Inhabited

namespace Matches

def empty : Matches := ⟨[], [], []⟩

def has (m : Matches) (flag : String) : Bool := m.flags.contains flag

def value? (m : Matches) (option : String) : Option String := m.values.lookup option

/-- Takes a flag, which must be the first of its name. -/
def addFlag (m : Matches) (name : String) : Except Stop Matches :=
  if name = "help" then .error .help
  else if name = "version" then .error .version
  else if m.has name then .error .usage
  else .ok { m with flags := m.flags ++ [name] }

/-- Takes the value of an option, which must be the first of its name. -/
def addValue (spec : Spec) (m : Matches) (name value : String) : Except Stop Matches :=
  if (m.value? name).isSome then .error .usage
  else if value.isEmpty && !spec.mayBeEmpty.contains name then .error .usage
  else .ok { m with values := m.values ++ [(name, value)] }

/-- Takes a plain argument. All of them name files, so none is empty. -/
def addPlain (spec : Spec) (m : Matches) (arg : String) : Except Stop Matches :=
  if arg.isEmpty || spec.most.any (· ≤ m.plain.length) then .error .usage
  else .ok { m with plain := m.plain ++ [arg] }

end Matches

/-! ## Arguments with dashes -/

/-- Whether an argument is a switch. A single dash is a plain argument. -/
def isDashed (arg : String) : Bool :=
  match arg.toList with
  | '-' :: _ :: _ => true
  | _ => false

/-- What follows two dashes. Gives the option whose value is still to come. -/
def readLong (spec : Spec) (m : Matches) (cs : List Char) :
    Except Stop (Matches × Option String) :=
  let name := String.ofList (cs.takeWhile (· != '='))
  let attached := cs.dropWhile (· != '=')
  if spec.flags.any (·.name == name) then
    if attached.isEmpty then (m.addFlag name).map (·, none) else .error .usage
  else if spec.options.any (·.name == name) then
    match attached with
    | [] => .ok (m, some name)
    | _ :: value => (m.addValue spec name (String.ofList value)).map (·, none)
  else .error .usage

/-- The letters behind one dash. -/
def readShort (spec : Spec) (m : Matches) : List Char → Except Stop (Matches × Option String)
  | [] => .ok (m, none)
  | c :: cs =>
    match spec.flags.find? (·.short == some c) with
    | some flag =>
      match m.addFlag flag.name with
      | .ok m => readShort spec m cs
      | .error e => .error e
    | none =>
      match spec.options.find? (·.short == some c) with
      | none => .error .usage
      | some option =>
        match cs with
        | [] => .ok (m, some option.name)
        | '=' :: value => (m.addValue spec option.name (String.ofList value)).map (·, none)
        | value => (m.addValue spec option.name (String.ofList value)).map (·, none)

def readDashed (spec : Spec) (m : Matches) (arg : String) :
    Except Stop (Matches × Option String) :=
  match arg.toList with
  | '-' :: '-' :: cs => readLong spec m cs
  | '-' :: cs => readShort spec m cs
  | _ => .error .usage

/-! ## All arguments -/

/-- Reads the arguments of a command. The value of an option does not
start with a dash. -/
def readArgs (spec : Spec) (m : Matches) : List String → Except Stop Matches
  | [] => .ok m
  | arg :: rest =>
    if arg = "--" then rest.foldlM (Matches.addPlain spec) m
    else if isDashed arg then
      match readDashed spec m arg with
      | .error e => .error e
      | .ok (m, none) => readArgs spec m rest
      | .ok (m, some option) =>
        match rest with
        | [] => .error .usage
        | value :: rest =>
          if isDashed value then .error .usage
          else
            match m.addValue spec option value with
            | .error e => .error e
            | .ok m => readArgs spec m rest
    else
      match m.addPlain spec arg with
      | .error e => .error e
      | .ok m => readArgs spec m rest

/-! ## Commands -/

structure TranslateArgs where
  /-- The units, in order. -/
  inputs : List Path
  language : String
  /-- One file for each unit goes here. -/
  outDir : Option Path
  header : Option String
  ignoreErrors : Bool
  /-- The file for markers. -/
  markers : Option Path
  parallel : Bool
  keepGoing : Bool
  failFast : Bool
deriving Repr, DecidableEq, Inhabited

/-- What is asked for. -/
inductive Request
  | translate (args : TranslateArgs)
  | markers (file : Path) (json : Bool)
  | renderers
deriving Repr, DecidableEq, Inhabited

def verbose : Switch := ⟨"verbose", some 'v'⟩

def helpFlag : Switch := ⟨"help", some 'h'⟩

def topSpec : Spec := ⟨[verbose, helpFlag, ⟨"version", some 'V'⟩], [], [], some 0⟩

def translateSpec : Spec where
  flags := [verbose, helpFlag, ⟨"ignore-errors", none⟩, ⟨"parallel", none⟩, ⟨"keep-going", none⟩,
    ⟨"fail-fast", none⟩]
  options := [⟨"to", some 't'⟩, ⟨"out-dir", some 'o'⟩, ⟨"header", none⟩, ⟨"markers", none⟩]
  mayBeEmpty := ["to", "header"]
  most := none

def markersSpec : Spec := ⟨[verbose, helpFlag, ⟨"json", none⟩], [], [], some 1⟩

def renderersSpec : Spec := ⟨[verbose, helpFlag], [], [], some 0⟩

/-- Units there must be, and going on and stopping exclude each other. -/
def translateOf (m : Matches) : Except Stop Request :=
  if m.plain.isEmpty || (m.has "keep-going" && m.has "fail-fast") then .error .usage
  else .ok (.translate {
    inputs := m.plain.map Path.mk
    language := (m.value? "to").getD "csharp"
    outDir := (m.value? "out-dir").map Path.mk
    header := m.value? "header"
    ignoreErrors := m.has "ignore-errors"
    markers := (m.value? "markers").map Path.mk
    parallel := m.has "parallel"
    keepGoing := m.has "keep-going"
    failFast := m.has "fail-fast" })

def markersOf (m : Matches) : Except Stop Request :=
  match m.plain with
  | [file] => .ok (.markers ⟨file⟩ (m.has "json"))
  | _ => .error .usage

/-- The names of the commands. -/
def names : List String := ["translate", "markers", "renderers", "help"]

/-- What may be asked about: nothing, or one command. -/
def readHelp : List String → Stop
  | [] => .help
  | [name] => if names.contains name then .help else .usage
  | _ => .usage

/-- Reads a command and its arguments. Switches for all commands may
stand before it. -/
def readFrom (m : Matches) : List String → Except Stop Request
  | [] => .error .usage
  | arg :: rest =>
    if arg = "--" then .error .usage
    else if isDashed arg then
      match readDashed topSpec m arg with
      | .error e => .error e
      | .ok (m, _) => readFrom m rest
    else
      match arg with
      | "translate" => (readArgs translateSpec .empty rest).bind translateOf
      | "markers" => (readArgs markersSpec .empty rest).bind markersOf
      | "renderers" => (readArgs renderersSpec .empty rest).map fun _ => .renderers
      | "help" => .error (readHelp rest)
      | _ => .error .usage

/-- The request that the arguments make. -/
def read (args : List String) : Except Stop Request := readFrom .empty args

end Recast.Command
