import LabelMail.Console.Help
import LabelMail.Record
import LabelMail.Text.Pieces

/-!
Reading a command line. Options come before a command or after it, each at most once on either
side; one that is common to all commands counts where it stands last. A value follows its option
as the next argument, unless it starts with a hyphen, or behind an equals sign. What is wrong with
the value of an option shows when the next option is read, or else when the command line is at its
end.
-/
namespace LabelMail.Console

/-- Why a command line is not carried out. -/
inductive Stop where
  | wrong
  | help (t : Topic)
  | version
  deriving DecidableEq, Repr

inductive Token where
  /-- Two hyphens, after which there are no options. -/
  | separator
  | long (name : String) (value : Option String)
  /-- The letter behind a single hyphen; further ones do not count. -/
  | short (letter : Char)
  | plain (text : String)
  deriving DecidableEq, Repr

def Token.ofText (text : String) : Token :=
  match text.toList with
  | ['-', '-'] => .separator
  | '-' :: '-' :: r =>
    let (name, value) := Text.cutFirst (· == '=') r
    .long (String.ofList name) (value.map String.ofList)
  | '-' :: letter :: _ => .short letter
  | _ => .plain text

/-- The options that were read on one side of the command. -/
structure Given where
  values : List (String × String)
  /-- The option that was read last, and its value if that was read too. -/
  pending : Option (String × Option String)
  deriving DecidableEq, Repr

namespace Given

def none : Given := ⟨[], Option.none⟩

def value? (g : Given) (name : String) : Option String := g.values.lookup name

/-- Takes a value for an option. The path of the settings must not be empty. -/
def enter (g : Given) (name value : String) : Except Stop Given :=
  if (g.value? name).isSome || (name == Choice.config.name && value.isEmpty) then .error .wrong
  else .ok { g with values := (name, value) :: g.values }

/-- Enters the option that was read last. -/
def settle (g : Given) : Except Stop Given :=
  match g.pending with
  | Option.none => .ok g
  | some (_, Option.none) => .error .wrong
  | some (name, some value) => { g with pending := Option.none }.enter name value

/-- Takes an option with the value behind its equals sign, if there is one. -/
def takeLong (g : Given) (c : Choice) (value : Option String) : Except Stop Given := do
  let g ← g.settle
  match c.placeholder, value with
  | Option.none, some _ => .error .wrong
  | Option.none, Option.none => g.enter c.name ""
  | some _, some value => g.enter c.name value
  | some _, Option.none => .ok { g with pending := some (c.name, Option.none) }

end Given

/-- Stops for a letter or for its long name, once the option before it is in order. -/
def stopAt (g : Given) (s : Stop) : Except Stop α := do
  discard g.settle
  .error s

/-- The topic and the version that the letters of a side stand for. -/
structure Side where
  form : Form
  topic : Topic
  hasVersion : Bool
  /-- The names that end this side. -/
  commands : List String
  deriving DecidableEq, Repr

namespace Side

def first : Side :=
  ⟨.top, .program, true, Form.commands.map Form.name ++ [Help.helpName]⟩

def second (f : Form) : Side := ⟨f, .command f, false, []⟩

def takeOption (side : Side) (g : Given) : Token → Except Stop Given
  | .short 'h' | .long "help" Option.none => stopAt g (.help side.topic)
  | .short 'V' | .long "version" Option.none =>
    if side.hasVersion then stopAt g .version else .error .wrong
  | .long name value =>
    match side.form.choice? name with
    | some c => g.takeLong c value
    | none => .error .wrong
  | _ => .error .wrong

/-- Reads up to a command, which is returned with the arguments after it, or to the end. -/
def read (side : Side) : Given → List String → Except Stop (Given × Option (String × List String))
  | g, [] => .ok (g, none)
  | g, text :: rest =>
    match Token.ofText text, g.pending with
    | .plain value, some (name, none) =>
      side.read { g with pending := some (name, some value) } rest
    | .plain name, _ =>
      if side.commands.contains name then .ok (g, some (name, rest)) else .error .wrong
    | .separator, _ => if rest.isEmpty then .ok (g, none) else .error .wrong
    | token, _ => side.takeOption g token >>= fun g => side.read g rest

end Side

inductive Command where
  | serve
  | addUser (u : User)
  | sync (owner : String)
  deriving DecidableEq, Repr

structure CommandLine where
  /-- The path of the settings. -/
  config : String
  command : Command
  deriving DecidableEq, Repr

/-- The topic that follows the command for help. -/
def topicOf : List String → Except Stop Topic
  | [] => .ok .program
  | [name] =>
    if name = Help.helpName then .ok .help
    else match Form.command? name with
      | some f => .ok (.command f)
      | none => .error .wrong
  | _ => .error .wrong

/-- The command of a form from its options, of which those that it needs must be given. -/
def commandOf (f : Form) (g : Given) : Except Stop Command :=
  let text (name : String) : String := (g.value? name).getD ""
  if f.choices.any fun c => c.required && (g.value? c.name).isNone then .error .wrong
  else if f = .addUser then
    .ok (.addUser ⟨text "id", text "first-name", text "last-name", text "email"⟩)
  else if f = .sync then .ok (.sync (text "owner"))
  else .ok .serve

def readCommand (name : String) (rest : List String) : Except Stop (Given × Command) := do
  if name = Help.helpName then .error (.help (← topicOf rest))
  match Form.command? name with
  | none => .error .wrong
  | some f =>
    let (g, _) ← (Side.second f).read .none rest
    let g ← g.settle
    return (g, ← commandOf f g)

def CommandLine.read (arguments : List String) : Except Stop CommandLine := do
  let (before, command) ← Side.first.read .none arguments
  let (after, command) ← match command with
    | none => pure (Given.none, Command.serve)
    | some (name, rest) => readCommand name rest
  let before ← before.settle
  let config := (after.value? Choice.config.name <|> before.value? Choice.config.name)
  return ⟨config.getD defaultConfig, command⟩

end LabelMail.Console
