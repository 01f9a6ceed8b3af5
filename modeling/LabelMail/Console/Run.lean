import LabelMail.Console.Arguments
import LabelMail.Console.Inspection

/-!
Running the programs of the console on a disk. A run ends with a code, which is 0 if all went
well, 1 if what was asked for failed and 2 if it was not understood, with the text that it prints,
and with what it has to complain about.
-/
namespace LabelMail.Console

structure Ending where
  code : Nat
  printed : String
  complaint : String
  deriving DecidableEq, Repr

def Ending.success (printed : String) : Ending := ⟨0, printed, ""⟩

def Ending.failure (complaint : String) : Ending := ⟨1, "", complaint⟩

def Stop.ending : Stop → Ending
  | wrong => ⟨2, "", "the command line is not understood"⟩
  | help t => .success (Help.text t)
  | version => .success Help.version

/-- Carries out a command in the mailroom that the settings describe and says what it prints. To
serve takes a socket, which is not to be had here. -/
def carryOut (s : Settings) : Command → Disk.Action String
  | .serve => Disk.withStores s (throw (.file "no socket"))
  | .addUser u => do
    Disk.withStores s (Mailroom.onPrimary (Primary.putUser u))
    return s!"user {u.id} saved\n"
  | .sync owner => do
    let report ← Disk.withStores s do
      discard (MonadExcept.ofExcept s.remoteAddress)
      Mailroom.synchronize owner
    return s!"mirrored {report.copied}, removed {report.removed}, failed {report.failed}\n"

def ended : EStateM.Result Failure Disk String → Ending × Disk
  | .ok printed d => (.success printed, d)
  | .error e d => (.failure e.message, d)

/-- The mailbox server. -/
def mail (arguments : List String) (d : Disk) : Ending × Disk :=
  match CommandLine.read arguments with
  | .error s => (s.ending, d)
  | .ok line =>
    ended ((do
      let s ← MonadExcept.ofExcept ((← get).settings line.config)
      carryOut s line.command : Disk.Action String) d)

/-- The look into the replica, for which only the first argument counts. -/
def inspection (arguments : List String) (d : Disk) : Ending × Disk :=
  match arguments with
  | [] => (.failure "a text to look for is missing", d)
  | query :: _ =>
    ended ((do
      let lines ← Inspection.inspect query
      return String.join (lines.map (· ++ "\n")) : Disk.Action String) d)

end LabelMail.Console
