/-
  BrokerTopology.Cli.Grammar — the grammar of command lines, and its
  reader.

  A command is a leaf with options and positional arguments, or a group
  of commands, one of which explains the others.  Some options may stand
  at every level.  At one level an option is given once at most; where
  several levels give it, the deepest counts.

  An option with a value takes the rest of its argument, or the argument
  that follows unless that looks like an option itself.  Short options
  may be run together.  After two dashes all arguments are positional.

  Arguments are read from the left, and whatever is asked for or wrong
  first decides.  A value that is an argument of its own is looked at
  late: when its level goes on, or when all levels are read.  So help on
  a command is given whatever stands for a value before its name.

  Main statements:
    * `mem_interleave` — help leaves no option out.
-/
import BrokerTopology.Cli.Color

namespace BrokerTopology

namespace Cli

/-! ## §1. Grammars -/

/-- An option. -/
structure OptionSpec where
  name : String
  letter : Option Char := none
  /-- What its value is called; a flag has none. -/
  value : Option String := none
  /-- Which values make sense. -/
  accepts : String → Bool := fun _ => true
  help : String

/-- A positional argument. -/
structure ArgumentSpec where
  name : String
  required : Bool := true
  /-- Whether it may stand more than once. -/
  many : Bool := false
  help : String := ""

/-- A command, a group of commands, or the command that explains those of its group. -/
inductive CommandSpec where
  | leaf (name about : String) (options : List OptionSpec) (arguments : List ArgumentSpec)
  | group (name about : String) (commands : List CommandSpec)
  | help

namespace CommandSpec

/-- The name of a command. -/
def name : CommandSpec → String
  | leaf name .. => name
  | group name .. => name
  | help => "help"

/-- What a command is for. -/
def about : CommandSpec → String
  | leaf _ about .. => about
  | group _ about _ => about
  | help => "Print this message or the help of the given subcommand(s)"

/-- The options of a command. -/
def options : CommandSpec → List OptionSpec
  | leaf _ _ options _ => options
  | _ => []

/-- The positional arguments of a command. -/
def arguments : CommandSpec → List ArgumentSpec
  | leaf _ _ _ arguments => arguments
  | group .. => []
  | help =>
    [{ name := "COMMAND", required := false, many := true,
       help := "Print help for the subcommand(s)" }]

/-- The commands of a group.  Every group can explain itself. -/
def commands : CommandSpec → List CommandSpec
  | group _ _ commands => commands ++ [help]
  | _ => []

/-- The command of a name in a group. -/
def command? (spec : CommandSpec) (name : String) : Option CommandSpec :=
  spec.commands.find? fun c => c.name == name

end CommandSpec

/-- A grammar: a program, and the options that may stand at every level. -/
structure Grammar where
  program : CommandSpec
  everywhere : List OptionSpec

/-! ## §2. Outcomes -/

/-- What is wrong with a command line. -/
inductive Misuse where
  | unknownArgument (arg : String)
  | unknownCommand (arg : String)
  | missingCommand
  | missingArgument (name : String)
  | missingValue (option : String)
  | unexpectedValue (option : String)
  | invalidValue (option value : String)
  | repeated (option : String)
deriving DecidableEq, Repr

/-- What is said of a misused command line. -/
def Misuse.message : Misuse → String
  | unknownArgument arg => "unexpected argument '" ++ arg ++ "' found"
  | unknownCommand arg => "unrecognized subcommand '" ++ arg ++ "'"
  | missingCommand => "a subcommand is required but one was not provided"
  | missingArgument name => "the required argument <" ++ name ++ "> was not provided"
  | missingValue option => "a value is required for '--" ++ option ++ "' but none was supplied"
  | unexpectedValue option => "no value is expected for '--" ++ option ++ "'"
  | invalidValue option value => "invalid value '" ++ value ++ "' for '--" ++ option ++ "'"
  | repeated option => "the argument '--" ++ option ++ "' cannot be used multiple times"

/-- What ends the reading before its end. -/
inductive Stop where
  | help (spec : CommandSpec) (path : List String)
  | version
  | misuse (m : Misuse)

/-- The options given at one level, with their values. -/
abbrev Given := List (String × String)

/-- What a command line says. -/
structure Matched where
  /-- The names of the command and the groups it is in. -/
  path : List String
  /-- The options, the deepest level first. -/
  levels : List Given
  arguments : List String
deriving DecidableEq, Repr

namespace Matched

/-- The value given to an option. -/
def value? (m : Matched) (option : String) : Option String :=
  m.levels.findSome? fun given => given.lookup option

/-- Whether a flag is given. -/
def has (m : Matched) (flag : String) : Bool := (m.value? flag).isSome

/-- A positional argument; one that is left out is empty. -/
def argument (m : Matched) (i : Nat) : String := m.arguments[i]?.getD ""

end Matched

/-! ## §3. Levels -/

/-- The options of one level, as far as it is read. -/
structure Level where
  given : Given := []
  /-- The last option, if its value was an argument of its own and is not looked at yet. -/
  unsettled : Option (OptionSpec × String) := none

namespace Level

/-- Note an option and its value, which must make sense. -/
def note (l : Level) (option : OptionSpec) (value : String) : Except Stop Level :=
  -- another level may give the option again
  if (l.given.lookup option.name).isSome then .error (.misuse (.repeated option.name))
  else if option.accepts value then .ok { l with given := l.given ++ [(option.name, value)] }
  else .error (.misuse (.invalidValue option.name value))

/-- Look at the value that was put off. -/
def settle (l : Level) : Except Stop Level :=
  match l.unsettled with
  | none => .ok l
  | some (option, value) => { l with unsettled := none }.note option value

end Level

/-! ## §4. Reading -/

/-- Where the reading of a command line is. -/
structure ReaderState where
  spec : CommandSpec
  path : List String
  level : Level := {}
  /-- The levels around this one, the deepest one first. -/
  outer : List Level := []
  /-- The positional arguments, the last one first. -/
  arguments : List String := []
  /-- The option that waits for its value. -/
  waiting : Option OptionSpec := none
  /-- Whether two dashes were read. -/
  literal : Bool := false
  /-- Whether help is asked for on the command that is named next. -/
  asking : Bool := false

namespace ReaderState

/-- Whether an argument looks like an option: a lone dash does not. -/
def looksLikeOption : List Char → Bool
  | ['-'] => false
  | '-' :: _ => true
  | _ => false

/-- The options that may stand here. -/
def optionsHere (g : Grammar) (s : ReaderState) : List OptionSpec := s.spec.options ++ g.everywhere

/-- Whether the reading is still at the outermost level. -/
def atTop (s : ReaderState) : Bool := s.path.length = 1

/-- Look at the value that was put off at this level. -/
def settle (s : ReaderState) : Except Stop ReaderState := do
  return { s with level := ← s.level.settle }

/-- Note an option and its value. -/
def give (s : ReaderState) (option : OptionSpec) (value : String) : Except Stop ReaderState := do
  return { s with level := ← s.level.note option value }

/-- A long option, with the value that is attached to it. -/
def long (g : Grammar) (s : ReaderState) (name : String) (attached : Option String) :
    Except Stop ReaderState :=
  match (s.optionsHere g).find? (fun o => o.name == name) with
  | some option =>
    match option.value, attached with
    | none, none => s.give option ""
    | none, some _ => .error (.misuse (.unexpectedValue name))
    | some _, none => .ok { s with waiting := some option }
    | some _, some value => s.give option value
  | none =>
    if name = "help" && attached.isNone then .error (.help s.spec s.path)
    else if name = "version" && attached.isNone && s.atTop then .error .version
    else .error (.misuse (.unknownArgument ("--" ++ name)))

/-- Short options run together, the last one perhaps with its value. -/
def letters (g : Grammar) (s : ReaderState) : List Char → Except Stop ReaderState
  | [] => .ok s
  | c :: rest =>
    match (s.optionsHere g).find? (fun o => o.letter == some c) with
    | some option =>
      match option.value, rest with
      | none, rest =>
        match s.give option "" with
        | .error stop => .error stop
        | .ok s => s.letters g rest
      -- the first option with a value ends the run of letters
      | some _, [] => .ok { s with waiting := some option }
      | some _, '=' :: value => s.give option (String.ofList value)
      | some _, value => s.give option (String.ofList value)
    | none =>
      if c = 'h' then .error (.help s.spec s.path)
      else if c = 'V' && s.atTop then .error .version
      else .error (.misuse (.unknownArgument (String.ofList ['-', c])))

/-- Go down to a command of the group. -/
def descend (s : ReaderState) (command : CommandSpec) : ReaderState :=
  { spec := command, path := s.path ++ [command.name], outer := s.level :: s.outer,
    asking := s.asking }

/-- The name of a command; after two dashes no command is named any more. -/
def enter (s : ReaderState) (arg : String) : Except Stop ReaderState :=
  if s.literal then .error (.misuse (.unknownArgument arg))
  else
    match s.spec.command? arg with
    | some .help => .ok { s with asking := true }
    | some command => .ok (s.descend command)
    | none => .error (.misuse (.unknownCommand arg))

/-- A positional argument. -/
def argument (s : ReaderState) (arg : String) : Except Stop ReaderState := do
  let s ← s.settle
  if s.arguments.length < s.spec.arguments.length then
    return { s with arguments := arg :: s.arguments }
  else .error (.misuse (.unknownArgument arg))

/-- An argument that is no option: the name of a command in a group, else positional. -/
def word (s : ReaderState) (arg : String) : Except Stop ReaderState :=
  match s.spec with
  | .group .. => s.enter arg
  | _ => s.argument arg

/-- The name of a command that help is asked for on. -/
def ask (s : ReaderState) (arg : String) : Except Stop ReaderState :=
  match s.spec.command? arg with
  | some command => .ok (s.descend command)
  | none => .error (.misuse (.unknownCommand arg))

/-- The value that an option waits for, which is no other option. -/
def receive (s : ReaderState) (option : OptionSpec) (arg : String) : Except Stop ReaderState :=
  if looksLikeOption arg.toList then .error (.misuse (.missingValue option.name))
  else .ok { s with waiting := none, level := { s.level with unsettled := some (option, arg) } }

/-- Read one argument. -/
def step (g : Grammar) (s : ReaderState) (arg : String) : Except Stop ReaderState :=
  if s.asking then s.ask arg
  else if s.literal then s.word arg
  else
    match s.waiting with
    | some option => s.receive option arg
    | none =>
      match arg.toList with
      -- from here on dashes mean nothing
      | ['-', '-'] => .ok { s with literal := true }
      | '-' :: '-' :: body => do
        let s ← s.settle
        let name := String.ofList (body.takeWhile (· != '='))
        match body.dropWhile (· != '=') with
        | [] => s.long g name none
        | _ :: value => s.long g name (some (String.ofList value))
      | '-' :: c :: rest => do (← s.settle).letters g (c :: rest)
      | _ => s.word arg

/-- What the arguments of a command come to. -/
def matched (s : ReaderState) : Except Stop Matched := do
  let s ← s.settle
  match (s.spec.arguments.drop s.arguments.length).find? fun a => a.required with
  | some a => .error (.misuse (.missingArgument a.name))
  | none =>
    -- the command is read in full before the groups it is in
    let outer ← s.outer.mapM Level.settle
    return { path := s.path, levels := (s.level :: outer).map Level.given,
             arguments := s.arguments.reverse }

/-- What the arguments come to when there are no more. -/
def finish (s : ReaderState) : Except Stop Matched :=
  if s.asking then .error (.help s.spec s.path)
  else
    match s.waiting, s.spec with
    | some option, _ => .error (.misuse (.missingValue option.name))
    | none, .group .. => .error (.misuse .missingCommand)
    | none, _ => s.matched

end ReaderState

/-- Read a command line. -/
def Grammar.parse (g : Grammar) (args : List String) : Except Stop Matched := do
  let start : ReaderState := { spec := g.program, path := [g.program.name] }
  (← args.foldlM (fun s arg => s.step g arg) start).finish

/-! ## §5. Help -/

/-- Text that is typed as it stands. -/
def verbatim (text : String) : Span := { text, look := .bold }

/-- A line filled up with blanks. -/
def Line.pad (width : Nat) (line : Line) : Line :=
  line ++ [{ text := String.ofList (List.replicate (width - line.width) ' ') }]

/-- Two columns, the second one aligned. -/
def columns (rows : List (Line × String)) : List Line :=
  let width := (rows.map fun r => r.1.width).foldl max 0
  rows.map fun (left, right) =>
    [{ text := "  " }] ++ left.pad width ++ [{ text := "  " ++ right }]

/-- A heading and its columns, after an empty line; nothing if there are none. -/
def paragraph (heading : String) (rows : List (Line × String)) : List Line :=
  if rows.isEmpty then [] else [] :: [{ text := heading, look := .title }] :: columns rows

/-- How an option is written. -/
def OptionSpec.usage (o : OptionSpec) : Line :=
  (match o.letter with
    | some c => [verbatim (String.ofList ['-', c]), { text := ", " }]
    | none => [{ text := "    " }]) ++
  [verbatim ("--" ++ o.name)] ++
  match o.value with
    | some value => [{ text := " <" ++ value ++ ">" }]
    | none => []

/-- How a positional argument is written. -/
def ArgumentSpec.usage (a : ArgumentSpec) : String :=
  (if a.required then "<" ++ a.name ++ ">" else "[" ++ a.name ++ "]") ++
    if a.many then "..." else ""

/-- What an option is sorted by among others: its letter, the small one first, or its name. -/
def OptionSpec.sortKey (o : OptionSpec) : String :=
  match o.letter with
  | some c => String.ofList [c.toLower, if c.isLower then '0' else '1']
  | none => o.name

/-- Two lists of options as one: all first ones, then all second ones, and so on. -/
def interleave (own everywhere : List OptionSpec) : List OptionSpec :=
  let places := own.zipIdx ++ everywhere.zipIdx
  (places.mergeSort fun (a, i) (b, j) => i < j || (i = j && a.sortKey ≤ b.sortKey)).map Prod.fst

theorem mem_interleave {o : OptionSpec} {own everywhere : List OptionSpec} :
    o ∈ interleave own everywhere ↔ o ∈ own ∨ o ∈ everywhere := by
  have h (l : List OptionSpec) : (∃ place ∈ l.zipIdx, place.1 = o) ↔ o ∈ l := by
    rw [← List.mem_map, List.zipIdx_map_fst]
  simp only [interleave, List.mem_map, List.mem_mergeSort, List.mem_append, or_and_right,
    exists_or, h]

/-- The options of a command with those that every command has.  The one that explains the
others has none. -/
def Grammar.optionRows (g : Grammar) (spec : CommandSpec) (top : Bool) : List (Line × String) :=
  match spec with
  | .help => []
  | _ =>
    let row (o : OptionSpec) : Line × String := (o.usage, o.help)
    (interleave spec.options g.everywhere).map row ++
      [row { name := "help", letter := some 'h', help := "Print help" }] ++
      if top then [row { name := "version", letter := some 'V', help := "Print version" }] else []

/-- What follows the name of a command, in short. -/
def CommandSpec.usage : CommandSpec → List String
  | .leaf _ _ _ arguments => "[OPTIONS]" :: arguments.map ArgumentSpec.usage
  | .group .. => ["[OPTIONS]", "<COMMAND>"]
  | .help => CommandSpec.help.arguments.map ArgumentSpec.usage

/-- The lines that explain a command. -/
def Grammar.helpLines (g : Grammar) (spec : CommandSpec) (path : List String) : List Line :=
  [Line.ofText spec.about, [],
    [{ text := "Usage:", look := .title }, { text := " " }, verbatim (" ".intercalate path),
      { text := String.join (spec.usage.map fun part => " " ++ part) }]] ++
    paragraph "Commands:" (spec.commands.map fun c => ([verbatim c.name], c.about)) ++
    paragraph "Arguments:" (spec.arguments.map fun a => (Line.ofText a.usage, a.help)) ++
    paragraph "Options:" (g.optionRows spec (path.length = 1))

end Cli

end BrokerTopology
