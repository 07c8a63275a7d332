import StageGate.Store.Transaction

/-!
This module contains drafts: changes that are made one after the other in a session, and kept in the end. A draft that
fails does not take back what it did, so that it can be seen in the session, and kept by whatever is kept next.
-/

namespace StageGate

/-- A fault, and what the session holds after it; nothing is left in a session that was rolled back. -/
structure Failure where
  fault : Fault
  left : Option Store

abbrev Draft := StateT Store (Except Failure)

namespace Draft

variable {α β : Type}

/-- Looks at what the session holds, which stays as it is if there is a fault. -/
def look (f : Store → Except Fault α) : Draft α := fun s =>
  match f s with
  | .ok a => .ok (a, s)
  | .error fault => .error ⟨fault, some s⟩

instance : MonadLift (Except Fault) Draft := ⟨fun x => look fun _ => x⟩

/-- Writes rows. A session in which that fails is rolled back. -/
def write (t : Transaction α) : Draft α := fun s =>
  match t s with
  | .ok r => .ok r
  | .error fault => .error ⟨fault, none⟩

/-- What is computed while rows have already been changed, which the session writes before it is used again. -/
def amid (changes : Transaction β) (x : Except Fault α) : Draft α := fun s =>
  match x with
  | .ok a => .ok (a, s)
  | .error fault => .error ⟨fault, (changes s).toOption.map (·.2)⟩

end Draft

/-- What is stored, and what is held on top of it by somebody who has not kept it yet. -/
structure Session where
  saved : Store
  held : Store
  deriving DecidableEq

namespace Session

def opened (s : Store) : Session :=
  ⟨s, s⟩

def run {α : Type} (d : Draft α) (s : Session) : Except Fault α × Session :=
  match d.run s.held with
  | .ok (a, store) => (.ok a, opened store)
  | .error f => (.error f.fault, ⟨s.saved, f.left.getD s.saved⟩)

/-- What is left when the session ends, whatever it holds. -/
def closed (s : Session) : Store :=
  s.saved

end Session

end StageGate
