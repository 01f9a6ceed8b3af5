/-!
The commands of the console and the options that each of them takes. One table of forms says both
how a command line is read and what the help tells about it.
-/
namespace LabelMail.Console

/-- An option. The `placeholder` stands for its value in the help; an option without one is a
flag. -/
structure Choice where
  name : String
  placeholder : Option String
  about : String
  required : Bool
  deriving DecidableEq, Repr

/-- The path of the settings unless another one is given. -/
def defaultConfig : String := "settings.toml"

namespace Choice

def config : Choice :=
  ⟨"config", some "CONFIG", s!"Path to the TOML config [default: {defaultConfig}]", false⟩

def debug : Choice := ⟨"debug", none, "Debug logging", false⟩

/-- An option that must be given. -/
def needed (name placeholder : String) : Choice := ⟨name, some placeholder, "", true⟩

/-- An option that is empty unless it is given. -/
def emptyByDefault (name placeholder : String) : Choice :=
  ⟨name, some placeholder, "[default: ]", false⟩

end Choice

structure Form where
  name : String
  about : String
  /-- The options in the order of the help. -/
  choices : List Choice
  deriving DecidableEq, Repr

namespace Form

def serve : Form := ⟨"serve", "Serve the mailbox API (default)", [.config, .debug]⟩

def addUser : Form where
  name := "add-user"
  about := "Create or update a directory entry"
  choices := [.config, .needed "id" "ID", .debug, .emptyByDefault "first-name" "FIRST_NAME",
    .emptyByDefault "last-name" "LAST_NAME", .needed "email" "EMAIL"]

def sync : Form where
  name := "sync"
  about := "Mirror one mailbox into the replica"
  choices := [.config, .needed "owner" "OWNER", .debug]

def commands : List Form := [serve, addUser, sync]

/-- The form of a command line up to its command. -/
def top : Form where
  name := "tagmail"
  about := "Label-driven mailbox server"
  choices := [.config, .debug]

def command? (name : String) : Option Form := commands.find? (·.name == name)

def choice? (f : Form) (name : String) : Option Choice := f.choices.find? (·.name == name)

end Form

end LabelMail.Console
