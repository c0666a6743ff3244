/-
  CommitteeSync.Sync.System — the synchronizer with all its tasks.

  A task is known by its number, which is its place in the order in which tasks came to be.
  A request adds a task, and one step of the system is one turn of one task; which task goes
  next, and what its collaborators reply, is up to the surroundings. Launching the background
  run adds the reporter and then startup to the tasks.
-/

import CommitteeSync.Sync.Work

namespace CommitteeSync

inductive Task where
  | active (w : Work)
  | ended (o : Outcome)
  deriving Repr

structure System where
  shared : Shared
  tasks : List Task

namespace System

def work? (s : System) (id : Nat) : Option Work :=
  match s.tasks[id]? with
  | some (.active w) => some w
  | _ => none

def outcome? (s : System) (id : Nat) : Option Outcome :=
  match s.tasks[id]? with
  | some (.ended o) => some o
  | _ => none

/-- What an active task waits for. -/
def waitsFor? (env : Setup) (s : System) (id : Nat) : Option Wait := (s.work? id).map (·.waitsFor env s.shared.runToken)

def taskOf : Turn Work Outcome → Task
  | .waits w => .active w
  | .ends o => .ended o

/-- The tasks of a background run that came to life in the turn that is over. -/
def launched (before after : Shared) : List Task :=
  if after.background.launched && !before.background.launched then [.active (.asked .reporter), .active (.asked .startup)] else []

/-- Takes a request; its task has the number of tasks before it. -/
def request (s : System) (r : Request) : System := { s with tasks := s.tasks ++ [.active (.asked r)] }

/-- The next turn of an active task. -/
def resume (env : Setup) (s : System) (id : Nat) (reply : Reply) : System :=
  match s.work? id with
  | none => s
  | some w =>
    match w.resume env s.shared reply with
    | (after, turn) => ⟨after, s.tasks.set id (taskOf turn) ++ launched s.shared after⟩

/-- Launches the background run under a root token. -/
def launch (s : System) (root : Token) : System :=
  let after := s.shared.launch root
  ⟨after, s.tasks ++ launched s.shared after⟩

end System

end CommitteeSync
