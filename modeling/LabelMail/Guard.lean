import LabelMail.Sort

/-!
Guards over messages. A guard gives one call at a time the exclusive use of a message id. The book
of guards keeps a lock for every id that was asked for lately; when it has grown large, the locks
that nobody has or waits for are struck out before the next one is entered. An id that is asked for
again after that gets a new lock.
-/
namespace LabelMail

structure Guard where
  holder : String
  /-- The number of the call that took it. -/
  call : Nat
  id : String
  /-- The lock that it keeps shut. -/
  lock : Nat
  deriving DecidableEq, Repr

/-- A request for guards over several ids. -/
structure GuardBook.Call where
  number : Nat
  holder : String
  ids : List String
  /-- What is still to be asked for, in this order. -/
  rest : List String
  deriving DecidableEq, Repr

/-- A call that has come to a lock that is shut, and the guard that it waits for. -/
structure GuardBook.Wait where
  call : GuardBook.Call
  guard : Guard
  deriving DecidableEq, Repr

structure GuardBook where
  /-- The locks by the ids that they are for. -/
  slots : List (String × Nat)
  held : List Guard
  /-- Whoever waits longest is first. -/
  waiting : List GuardBook.Wait
  /-- The calls that were given what they waited for and have not gone on since. -/
  woken : List GuardBook.Call
  /-- How many locks there have been. -/
  made : Nat
  /-- How many calls there have been. -/
  called : Nat
  deriving DecidableEq, Repr

/-- Leaves out each member that the next one equals. -/
def squeeze : List String → List String
  | [] => []
  | [a] => [a]
  | a :: b :: r => if a = b then squeeze (b :: r) else a :: squeeze (b :: r)

namespace GuardBook

/-- From this many slots on, idle ones are struck out. -/
def limit : Nat := 256

def empty : GuardBook := ⟨[], [], [], [], 0, 0⟩

def isShut (b : GuardBook) (lock : Nat) : Bool :=
  b.held.any (·.lock == lock)

/-- Whether anything but its slot refers to a lock. -/
def isUsed (b : GuardBook) (lock : Nat) : Bool :=
  b.isShut lock || b.waiting.any (·.guard.lock == lock)

def pruned (b : GuardBook) : GuardBook :=
  if b.slots.length < limit then b else { b with slots := b.slots.filter fun s => b.isUsed s.2 }

def withSlot (b : GuardBook) (id : String) : GuardBook × Nat :=
  match b.slots.find? (·.1 == id) with
  | some s => (b, s.2)
  | none => ({ b with slots := b.slots ++ [(id, b.made)], made := b.made + 1 }, b.made)

/-- The guards of one call. -/
def takenBy (b : GuardBook) (call : Nat) : List Guard :=
  b.held.filter (·.call == call)

/-- Goes on with a call: asks for ids in turn until one is not to be had. The guards are handed over
when all of them are there. -/
def proceed (b : GuardBook) (c : Call) : List String → GuardBook × Option (List Guard)
  | [] => (b, some (b.takenBy c.number))
  | id :: rest =>
    let (b, lock) := b.pruned.withSlot id
    let guard : Guard := ⟨c.holder, c.number, id, lock⟩
    if b.isShut lock then
      ({ b with waiting := b.waiting ++ [⟨{ c with rest := rest }, guard⟩] }, none)
    else
      ({ b with held := b.held ++ [guard] }).proceed c rest

/-- Starts a call for ids in the given order. -/
def ask (b : GuardBook) (holder : String) (ids : List String) : GuardBook × Option (List Guard) :=
  ({ b with called := b.called + 1 }).proceed ⟨b.called, holder, ids, ids⟩ ids

/-- The ids without repetitions in the order in which they are asked for. -/
def inOrder (ids : List String) : List String :=
  squeeze (sortBy (fun a b => decide (a ≤ b)) ids)

/-- Starts a call for ids, each once and in ascending order. -/
def askMany (b : GuardBook) (holder : String) (ids : List String) :
    GuardBook × Option (List Guard) :=
  b.ask holder (inOrder ids)

/-- The calls that have not ended. -/
def opened (b : GuardBook) : List Call :=
  b.waiting.map (·.call) ++ b.woken

def isOpen (b : GuardBook) (call : Nat) : Bool :=
  b.opened.any (·.number == call)

/-- Goes on with a call that was woken. -/
def resume (b : GuardBook) (c : Call) : GuardBook × Option (List Guard) :=
  if c ∈ b.woken then ({ b with woken := b.woken.erase c }).proceed c c.rest else (b, none)

/-- Gives back a guard. Its lock goes to the call that has waited longest for it. Guards of a call
that has not ended are not out of its hands yet. -/
def drop (b : GuardBook) (guard : Guard) : GuardBook :=
  if guard ∈ b.held ∧ ¬ b.isOpen guard.call then
    match b.waiting.find? (·.guard.lock == guard.lock) with
    | none => { b with held := b.held.erase guard }
    | some w =>
      { b with
        held := b.held.erase guard ++ [w.guard]
        waiting := b.waiting.erase w
        woken := b.woken ++ [w.call] }
  else b

def dropAll (b : GuardBook) (guards : List Guard) : GuardBook :=
  guards.foldl drop b

/-- Ends a call early, with the guards that it has taken. -/
def giveUp (b : GuardBook) (call : Nat) : GuardBook :=
  if b.isOpen call then
    ({ b with
        waiting := b.waiting.filter (·.call.number != call)
        woken := b.woken.filter (·.number != call) }).dropAll (b.takenBy call)
  else b

/-- Asks for one id and gives up where it would have to wait; says whether it was granted. A slot is
kept in either case. -/
def lock (b : GuardBook) (holder id : String) : GuardBook × Bool :=
  match b.ask holder [id] with
  | (b', some _) => (b', true)
  | (b', none) => (b'.giveUp b.called, false)

/-- Asks for several ids and gives up where it would have to wait; otherwise says how many guards
there are. -/
def lockMany (b : GuardBook) (holder : String) (ids : List String) : GuardBook × Option Nat :=
  match b.askMany holder ids with
  | (b', some guards) => (b', some guards.length)
  | (b', none) => (b'.giveUp b.called, none)

/-- Gives back all guards of one holder and says how many there were. -/
def release (b : GuardBook) (holder : String) : GuardBook × Nat :=
  (b.dropAll (b.held.filter (·.holder == holder)), b.held.countP (·.holder == holder))

/-- Asks for ids in turn and gives each back at once; says how many were granted. -/
def touch (b : GuardBook) : List String → GuardBook × Nat
  | [] => (b, 0)
  | id :: rest =>
    let (b', granted) := b.lock "" id
    let (b'', n) := (b'.dropAll (b'.takenBy b.called)).touch rest
    (b'', if granted then n + 1 else n)

end GuardBook

end LabelMail
