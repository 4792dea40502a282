/-! # Command line arguments

```text
tscape [OPTIONS] render <INPUT> --output <OUTPUT> [--frames-dir <FRAMES_DIR>]
tscape [OPTIONS] parse <INPUT>
```

The options `--verbose` and `--config` may stand in front of the command and behind it; behind it
they count more. An option takes the next argument as its value, unless a value is attached to it.
Two dashes end the options. Asking for help or for the version ends the reading at once.

An option or operand is entered only when the next one begins, so a fault in it shows only then.

These are the rules of the package `clap` 4 for the options above: which arguments it takes, and
when it ends the reading instead. The texts that it then prints are left out.

* `Arguments.read` — the invocation that the arguments ask for.
-/

namespace IsoScene.CommandLine

inductive Stop where
  | help
  | version
  | usage
deriving DecidableEq, Repr

inductive Command where
  | render
  | parse
deriving DecidableEq, Repr

/-- A position among the arguments: in front of the command, or behind it. -/
abbrev Level := Option Command

/-- Options without a value. -/
inductive Switch where
  | verbose
  | help
  | version
deriving DecidableEq, Repr

/-- What takes a value: the options that have one, and the operand. -/
inductive Slot where
  | config
  | output
  | framesDirectory
  | input
deriving DecidableEq, Repr

inductive OptionName where
  | switch (switch : Switch)
  | slot (slot : Slot)
deriving DecidableEq, Repr

def longOption (level : Level) (name : String) : Option OptionName :=
  match name, level with
  | "verbose", _ => some (.switch .verbose)
  | "help", _ => some (.switch .help)
  | "config", _ => some (.slot .config)
  | "version", none => some (.switch .version)
  | "output", some .render => some (.slot .output)
  | "frames-dir", some .render => some (.slot .framesDirectory)
  | _, _ => none

def shortOption (level : Level) (letter : Char) : Option OptionName :=
  match letter, level with
  | 'v', _ => some (.switch .verbose)
  | 'h', _ => some (.switch .help)
  | 'V', none => some (.switch .version)
  | 'o', some .render => some (.slot .output)
  | _, _ => none

/-- The arguments that have been entered at one level, and the slot that is still to be entered,
with its value if it has one. -/
structure Entered where
  verbose : Bool
  values : List (Slot × List Char)
  pending : Option (Slot × Option (List Char))
  /-- Only operands may follow. -/
  optionsEnded : Bool

namespace Entered

def none : Entered := ⟨false, [], Option.none, false⟩

def awaitsValue (entered : Entered) : Bool :=
  match entered.pending with
  | some (_, Option.none) => !entered.optionsEnded
  | _ => false

/-- Enters the value of a slot. It may not be empty, and no slot has two values. -/
def enter (entered : Entered) (slot : Slot) (value : List Char) : Except Stop Entered :=
  if value.isEmpty || (entered.values.lookup slot).isSome then .error .usage
  else .ok { entered with values := (slot, value) :: entered.values }

def settle (entered : Entered) : Except Stop Entered :=
  match entered.pending with
  | Option.none => .ok entered
  | some (_, Option.none) => .error .usage
  | some (slot, some value) => { entered with pending := Option.none }.enter slot value

def flip (entered : Entered) (switch : Switch) : Except Stop Entered := do
  let entered ← entered.settle
  match switch with
  | .help => .error .help
  | .version => .error .version
  | .verbose => if entered.verbose then .error .usage else .ok { entered with verbose := true }

/-- Begins a slot; a value that is attached to it is entered at once. -/
def begin (entered : Entered) (slot : Slot) (attached : Option (List Char)) :
    Except Stop Entered := do
  let entered ← entered.settle
  match attached with
  | some value => entered.enter slot value
  | Option.none => .ok { entered with pending := some (slot, Option.none) }

/-- Enters the options of one argument that begins with one dash, after the dash. -/
def shortOptions (entered : Entered) (level : Level) : List Char → Except Stop Entered
  | [] => .ok entered
  | letter :: rest =>
    match shortOption level letter with
    | Option.none => .error .usage
    | some (.switch switch) => do
      let entered ← entered.flip switch
      entered.shortOptions level rest
    | some (.slot slot) =>
      match rest with
      | [] => entered.begin slot Option.none
      | '=' :: value => entered.begin slot (some value)
      | value => entered.begin slot (some value)

/-- Enters the option of an argument that begins with two dashes, after the dashes. -/
def longOptions (entered : Entered) (level : Level) (argument : List Char) :
    Except Stop Entered :=
  let name := argument.takeWhile (· ≠ '=')
  let attached := match argument.dropWhile (· ≠ '=') with
    | [] => Option.none
    | _ :: value => some value
  match longOption level (String.ofList name) with
  | Option.none => .error .usage
  | some (.switch switch) => if attached.isSome then .error .usage else entered.flip switch
  | some (.slot slot) => entered.begin slot attached

/-- Enters the operand. There is only one. -/
def operand (entered : Entered) (argument : List Char) : Except Stop Entered := do
  let entered ← entered.settle
  if (entered.values.lookup .input).isSome then .error .usage
  else .ok { entered with pending := some (.input, some argument) }

def argument (entered : Entered) (level : Level) (argument : List Char) : Except Stop Entered :=
  if entered.optionsEnded then entered.operand argument
  else
    match argument with
    | ['-', '-'] => .ok { entered with optionsEnded := true }
    | '-' :: '-' :: body => entered.longOptions level body
    | '-' :: letter :: rest => entered.shortOptions level (letter :: rest)
    | _ =>
      match entered.pending with
      | some (slot, Option.none) => .ok { entered with pending := some (slot, some argument) }
      | _ => entered.operand argument

end Entered

inductive Task where
  | render (input output : List Char) (framesDirectory : Option (List Char))
  | parse (input : List Char)
deriving DecidableEq, Repr

/-- The file that holds the scene text; a single dash stands for standard input. -/
def Task.input : Task → List Char
  | render input _ _ => input
  | parse input => input

/-- A task with the configuration to use, if one is named. -/
structure Invocation where
  config : Option (List Char)
  task : Task
deriving DecidableEq, Repr

def command? (word : String) : Option Command :=
  match word with
  | "render" => some .render
  | "parse" => some .parse
  | _ => none

/-- What the words behind `help` ask for: help on the program, or on one of its commands. -/
def helpOn : List String → Stop
  | [] => .help
  | [word] => if (command? word).isSome || word = "help" then .help else .usage
  | _ => .usage

/-- The task of a command, from the arguments behind it. -/
def taskOf (command : Command) (entered : Entered) : Except Stop Task :=
  match command, entered.values.lookup .input, entered.values.lookup .output with
  | .render, some input, some output =>
    .ok (.render input output (entered.values.lookup .framesDirectory))
  | .parse, some input, _ => .ok (.parse input)
  | _, _, _ => .error .usage

/-- Reads the arguments behind a command. What is still pending in front of it is entered last. -/
def readCommand (command : Command) (front : Entered) (arguments : List String) :
    Except Stop Invocation := do
  let entered ← arguments.foldlM
    (fun entered argument => entered.argument (some command) argument.toList) Entered.none
  let entered ← entered.settle
  let task ← taskOf command entered
  let front ← front.settle
  .ok ⟨(entered.values.lookup .config).or (front.values.lookup .config), task⟩

/-- Reads the arguments in front of the command, and then the rest. -/
def readFront (front : Entered) : List String → Except Stop Invocation
  | [] => .error .usage
  | word :: rest =>
    let next : Except Stop Invocation := do
      let front ← front.argument none word.toList
      readFront front rest
    if front.awaitsValue then next
    else if front.optionsEnded then .error .usage
    else if word = "help" then .error (helpOn rest)
    else
      match command? word with
      | some command => readCommand command front rest
      | none => if word.toList.head? = some '-' ∧ word ≠ "-" then next else .error .usage

def read (arguments : List String) : Except Stop Invocation := readFront Entered.none arguments

end IsoScene.CommandLine
