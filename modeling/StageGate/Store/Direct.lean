import StageGate.Store.Row
import StageGate.Store.Transaction

/-!
This module contains the writing of single rows as they are given, which only the constraints of the store
can stop: columns that may not be empty, columns that have to be unique, and rows that are referred to.
-/

namespace StageGate.Direct

open Transaction

/-! ## Columns -/

def isTime (key : String) : Bool :=
  "_at".toList.isSuffixOf key.toList

def checkTimes (values : Fields) : Except Fault Unit :=
  values.forM fun (key, v) =>
    match v with
    | .null => .ok ()
    | .text s =>
      if isTime key && (Stamp.ofText? s).isNone then .error (.broken .notAnInteger) else .ok ()
    | _ => if isTime key then .error (.broken .wrongKind) else .ok ()

def prepare (kind : ColumnKind) (v : Value) : Except Fault Unit :=
  match kind with
  | .flag => (Column.flag? v).map fun _ => ()
  | .document => Column.checkDocument v
  | .time => (Column.time? v).map fun _ => ()
  | .clock => if v.isNull then .ok () else .error (.broken .unprepared)
  | _ => .ok ()

def keep (kind : ColumnKind) (v : Value) : Except Fault Value :=
  match kind with
  | .text => (Column.text v).map .ofText?
  | .number | .reference _ => Column.number v
  | .flag => (Column.flag? v).map (.ofOption .bool)
  | .document => .ok (Column.document v)
  | .time | .clock => (Column.time? v).map (.ofOption (.text ·.text))

def attributes (table : Table) : List Attribute :=
  .optional "id" .number :: table.columns

def keepAll (table : Table) (values : Fields) : Except Fault Fields := do
  let given := (attributes table).filterMap fun a => (values.get? a.name).map (a, ·)
  given.forM fun (a, v) => prepare a.kind v
  given.mapM fun (a, v) => return (a.name, ← keep a.kind v)

/-! ## Constraints -/

def violated {α : Type} (constraint : String) : Except Fault α :=
  .error (.broken (.violated constraint))

def checkRequired (table : Table) (values : Fields) : Except Fault Unit :=
  table.columns.forM fun a =>
    if a.isRequired && (values.getD a.name (.bool true)).isNull then
      violated ("NOT NULL constraint failed: " ++ table.name ++ "." ++ a.name)
    else
      .ok ()

def checkUnique (table : Table) (columns : List String) (isFree : Bool) : Except Fault Unit :=
  if isFree then .ok ()
  else
    violated ("UNIQUE constraint failed: " ++
      ", ".intercalate (columns.map fun c => table.name ++ "." ++ c))

def sharesKey (table : Table) (key : List String) (row other : Fields) : Bool :=
  key.all (fun c => row.getD c .null = other.getD c .null) &&
    (table ≠ .entry || (Row.text row "status" = "active" && Row.text other "status" = "active"))

def refersToRows (s : Store) (table : Table) (id : Int) (row : Fields) : Bool :=
  table.columns.all fun a =>
    match a.kind, row.getD a.name .null with
    | .reference _, .null => true
    | .reference parent, .int n => (parent = table && n = id) || (Row.find? s parent n).isSome
    | .reference _, _ => false
    | _, _ => true

def isReferredTo (s : Store) (table : Table) (id : Int) : Bool :=
  Table.all.any fun t => t.columns.any fun a =>
    a.kind = .reference table && (Row.all s t).any (Row.int? · a.name = some id)

def checkRow (s : Store) (table : Table) (old : Option Int) (id : Int) (values row : Fields) :
    Except Fault Unit := do
  let others := (Row.all s table).filter fun r => Row.int? r "id" ≠ old
  checkRequired table values
  checkUnique table ["id"] !(others.any (Row.int? · "id" = some id))
  if let some key := table.key? then
    checkUnique table key !(others.any (sharesKey table key row))
  let isLeft := old.any fun old => old ≠ id && isReferredTo s table old
  if isLeft || !refersToRows s table id row then violated "FOREIGN KEY constraint failed"

/-! ## Writing -/

def initial (now : Instant) (table : Table) : Fields :=
  table.columns.map fun a =>
    match a.initial with
    | .value v => (a.name, v)
    | .now => (a.name, .text now.text)

def givenId (kept : Fields) : Except Fault (Option Int) :=
  match kept.getD "id" .null with
  | .null => .ok none
  | .int n => .ok (some n)
  | _ => violated "datatype mismatch"

def add (now : Instant) (table : Table) (values : Fields) : Transaction Int := do
  checkTimes values
  demand (values.all fun (key, _) => (attributes table).any (·.name = key)) (.broken .wrongKind)
  let given := (attributes table).filterMap fun a =>
    ((values.get? a.name).filter fun v => !v.isNull || a.keepsNull).map (a.name, ·)
  let s ← get
  let kept ← keepAll table given
  let id := (← givenId kept).getD (Store.nextId ((Row.all s table).map (Row.int · "id")))
  let row := (initial now table).merge kept
  checkRow s table none id row row
  set (Row.write s table id id row)
  return id

def differs (key : String) (old new : Value) : Bool :=
  match new.asText?.bind Stamp.ofText? with
  | some stamp =>
    -- A time that says its zone is never what a column keeps.
    if isTime key then stamp.ahead.isSome || old ≠ .text stamp.reading.text else !old.same new
  | none => !old.same new

def change (now : Instant) (table : Table) (id : Value) (values : Fields) : Transaction Int := do
  checkTimes values
  let s ← get
  let current ← Store.follow (← Store.seek (Row.find? s table) id)
  let old := Row.int current "id"
  let changed := values.filter fun (key, v) =>
    current.has key && differs key (current.getD key .null) v
  if changed.isEmpty then return old
  let touched : Fields :=
    match table.touched? with
    | some key => if Fields.has changed key then [] else [(key, .text now.text)]
    | none => []
  let kept ← keepAll table (touched ++ changed)
  let id := (← givenId kept).getD old
  let row := current.merge kept
  checkRow s table (some old) id kept row
  set (Row.write s table old id row)
  return id

def addLead (now : Instant) (values : Fields) : Transaction Lead := do
  let id ← add now .lead values
  reading fun s => Store.follow (s.lead? id)

end StageGate.Direct
