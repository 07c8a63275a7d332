import StageGate.Command

/-!
This module contains runs of the services: commands one after the other, each with its own surroundings.
A command that fails is a part of its run like any other.
-/

namespace StageGate

/-- Whether a command is one of the services; the others write rows as they are given. -/
def Command.isService : Command → Bool
  | .writeAudit _ | .addRow .. | .changeRow .. => false
  | _ => true

structure Turn where
  env : Environment
  command : Command
  isService : command.isService

/-- Commands one after the other in surroundings that stay the same. -/
def Turn.allIn (env : Environment) (commands : List Command) (h : ∀ k ∈ commands, k.isService) : List Turn :=
  commands.pmap (fun command hservice => ⟨env, command, hservice⟩) h

namespace Service

def answer (s : Service) (t : Turn) : Except Fault Value :=
  (t.command.run t.env s).1

def after (s : Service) (t : Turn) : Service :=
  (t.command.run t.env s).2

def run (s : Service) (ts : List Turn) : Service :=
  ts.foldl after s

def reached (ts : List Turn) : Service :=
  empty.run ts

theorem reached_append (ts us : List Turn) : reached (ts ++ us) = (reached ts).run us := by
  simp [reached, run]

theorem reached_concat (ts : List Turn) (t : Turn) : reached (ts ++ [t]) = (reached ts).after t :=
  reached_append ts [t]

end Service

end StageGate
