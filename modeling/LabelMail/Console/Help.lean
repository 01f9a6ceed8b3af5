import LabelMail.Console.Form

/-!
What the console tells about itself: the help on all commands or on one of them, and the version.
In a list of commands or options, what is said about them starts in one column.
-/
namespace LabelMail.Console

/-- What help can be asked about. -/
inductive Topic where
  | program
  | command (f : Form)
  | help
  deriving DecidableEq, Repr

namespace Help

def program : String := Form.top.name

def version : String := program ++ " 0.1.0\n"

def blanks (n : Nat) : String := String.ofList (List.replicate n ' ')

def widest (specs : List String) : Nat :=
  specs.foldl (fun n s => max n s.length) 0

/-- An entry of a list whose entries are at most `width` wide. -/
def entry (indent : String) (width : Nat) (spec about : String) : String :=
  indent ++ spec ++ blanks (width + 2 - spec.length) ++ about ++ "\n"

def helpName : String := "help"

def helpAbout : String := "Print this message or the help of the given subcommand(s)"

def commandList : String :=
  let entries := (Form.commands.map fun f => (f.name, f.about)) ++ [(helpName, helpAbout)]
  let width := widest (entries.map (·.1))
  "\nCommands:\n" ++ String.join (entries.map fun (name, about) => entry "  " width name about)

def spec (c : Choice) : String :=
  "--" ++ c.name ++ (c.placeholder.map fun p => " <" ++ p ++ ">").getD ""

/-- The options of a form, in which an indent leaves room for the letters that some of them have. -/
def optionList (f : Form) (lettered : List (Char × String × String)) : String :=
  let width := widest (f.choices.map spec ++ lettered.map fun o => "--" ++ o.2.1)
  "\nOptions:\n" ++ String.join (f.choices.map fun c => entry "      " width (spec c) c.about)
    ++ String.join (lettered.map fun (letter, name, about) =>
      entry ("  -" ++ letter.toString ++ ", ") width ("--" ++ name) about)

def usage (words : List String) : String :=
  "\nUsage: " ++ " ".intercalate (program :: words) ++ "\n"

def helpOption : Char × String × String := ('h', "help", "Print help")

def versionOption : Char × String × String := ('V', "version", "Print version")

def text : Topic → String
  | .program =>
    Form.top.about ++ "\n" ++ usage ["[OPTIONS]", "[COMMAND]"] ++ commandList
      ++ optionList .top [helpOption, versionOption]
  | .command f =>
    f.about ++ "\n"
      ++ usage (f.name :: "[OPTIONS]" :: (f.choices.filter (·.required)).map spec)
      ++ optionList f [helpOption]
  | .help =>
    helpAbout ++ "\n" ++ usage [helpName, "[COMMAND]..."]
      ++ "\nArguments:\n  [COMMAND]...  Print help for the subcommand(s)\n"

end Help

end LabelMail.Console
