import StageGate.Fault
import StageGate.Text.Surrogate

/-!
This module contains the settings that are read from the surroundings: the address of the database, and
what a service in production has to be given.
-/

namespace StageGate.Settings

def replaceFirst (old new : List Char) : List Char → List Char
  | [] => if old.isEmpty then new else []
  | c :: cs =>
    if old.isPrefixOf (c :: cs) then new ++ (c :: cs).drop old.length
    else c :: replaceFirst old new cs

def checkSetting (setting : Option String) : Except Fault Unit :=
  if !setting.all Text.isEncodable then .error (.broken .unencodable)
  else if setting.any fun s => s.toList.any (·.toNat = 0) then .error (.broken .illegalCharacter)
  else .ok ()

def databaseUrl (given : Option String) (fallback : Value) : Except Fault Value := do
  checkSetting given
  match given with
  | none | some "" => return fallback
  | some url =>
    return .text (String.ofList (replaceFirst "postgres://".toList "postgresql://".toList url.toList))

def isGiven (setting : Option String) : Bool :=
  setting.any (· ≠ "")

def checkProduction (url : Value) (secret : Option String) : Except Fault Unit := do
  checkSetting secret
  if !url.isTrue then
    .error (.broken (.missingSetting "DATABASE_URL environment variable is required in production"))
  else if !isGiven secret then
    .error (.broken (.missingSetting "SECRET_KEY environment variable must be set in production"))
  else
    .ok ()

end StageGate.Settings
