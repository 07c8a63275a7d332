import StageGate.Api.Address
import StageGate.Json.Reader
import StageGate.Text.Blank
import StageGate.Text.Encoding

/-!
This module contains requests: where they go, who sends them, and the document they carry.
-/

namespace StageGate.Api

structure Body where
  contentType : String
  text : String

structure Request where
  method : String
  address : String
  body : Option Body
  user : Option String
  id : Option String

namespace Body

def isPadding (c : Char) : Bool :=
  c.toNat < 0x80 && Text.isBlank c

def isJson (b : Body) : Bool :=
  let kind := Text.strip isPadding (b.contentType.toList.takeWhile (· ≠ ';'))
  let kind := (String.ofList kind).toLower.toList
  let structured := "application/".toList.isPrefixOf kind && "+json".toList.isSuffixOf kind
  kind = "application/json".toList || structured

def byteOrderMark : Char := '\ufeff'

def content? (b : Body) : Option String :=
  match b.text.toList with
  | c :: cs => if c = byteOrderMark then some (String.ofList cs) else Text.decoded? b.text
  | [] => some b.text

def document (levels : Nat) (b : Body) : Except Fault Value :=
  if !b.isJson then .ok .null
  else
    match b.content?.map (Json.readWithin levels) with
    | some (.ok v) => .ok v
    | some (.error (.tooDeep isObject)) => .error (.broken (.tooDeep isObject))
    | _ => .ok .null

end Body

namespace Request

/-- The document of a request, if it has no more levels than there is room for. -/
def data (levels : Nat) (r : Request) : Except Fault Value :=
  match r.body with
  | none => .ok (.object [])
  | some b => (b.document levels).map (·.orElse (.object []))

def longestActor : Nat := 150

def actor (r : Request) : String :=
  let given := match r.user with | none | some "" => "system" | some user => user
  let name := String.ofList ((Text.trim given).toList.take longestActor)
  if name = "" then "system" else name

def checkHeader (header : Option String) : Except Fault Unit :=
  if header.any fun s => s.toList.any fun c => c = '\r' || c = '\n' then
    .error (.broken .illegalCharacter)
  else
    .ok ()

def checkText (s : String) : Except Fault Unit :=
  if Text.isEncodable s then .ok () else .error (.broken .unencodable)

def destination (r : Request) : Except Fault Address := do
  let a ← Address.ofText r.address
  checkText (String.ofList a.joined)
  [r.user, r.id, r.body.map (·.contentType)].forM checkHeader
  checkText ((r.body.map (·.text)).getD "")
  return a

end Request

end StageGate.Api
