import OutboxRelay.Event

/-! The commands that an outbox table is driven by: their form, their text with numbered
parameters, and what kind of answer each of them has. -/

namespace OutboxRelay.Sql

inductive Column
  | id
  | aggregateType
  | aggregateId
  | eventType
  | payload
  | headers
  | status
  | createdAt
  | publishedAt
  | claimedAt
deriving DecidableEq

namespace Column

def all : List Column :=
  [.id, .aggregateType, .aggregateId, .eventType, .payload, .headers, .status, .createdAt,
   .publishedAt, .claimedAt]

def name : Column → String
  | .id => "id"
  | .aggregateType => "aggregate_type"
  | .aggregateId => "aggregate_id"
  | .eventType => "event_type"
  | .payload => "payload"
  | .headers => "headers"
  | .status => "status"
  | .createdAt => "created_at"
  | .publishedAt => "published_at"
  | .claimedAt => "claimed_at"

end Column

inductive Value
  | integer (n : Int)
  | text (s : String)
  | time (t : Timestamp)
  | null
deriving DecidableEq

structure Row where
  id : Int
  aggregateType : String
  aggregateId : String
  eventType : String
  payload : String
  headers : String
  status : String
  createdAt : Timestamp
  publishedAt : Option Timestamp
  claimedAt : Option Timestamp
deriving DecidableEq

inductive Operand
  | column (c : Column)
  | parameter (number : Nat)
  /-- The time at which the transaction began. -/
  | now
  | greatest (a b : Operand)

inductive Condition
  | equal (c : Column) (o : Operand)
  | less (c : Column) (o : Operand)
  | both (a b : Condition)

inductive Selection
  | matching (c : Condition)
  /-- The rows of lowest id that match, so many of them, rows locked by others passed over. -/
  | lowest (c : Condition) (limit : Operand)

/-- A command, and the type of its answer: the number of rows it touched, rows, or counts. -/
inductive Command : Type → Type 1
  | update (sets : List (Column × Operand)) (rows : Selection) : Command Nat
  | updateReturning (sets : List (Column × Operand)) (rows : Selection) : Command (List Row)
  /-- Insert one row, the columns in the order of the parameters. -/
  | insertReturning (columns : List Column) : Command (List Row)
  | countMatching (c : Condition) : Command (List Int)
  | countPer (c : Column) : Command (List (String × Int))
  | elsewhere (text : String) : Command Nat
  /-- A query of other tables; its answer has the columns of each row as texts, if not null. -/
  | lookup (text : String) : Command (List (List (Option String)))

def tableName : String := "message_outbox"

def commaSeparated (parts : List String) : String := String.intercalate ", " parts

def doubleQuoted (name : String) : String := "\"" ++ name ++ "\""

def Operand.text : Operand → String
  | .column c => c.name
  | .parameter number => "$" ++ toString number
  | .now => "now()"
  | .greatest a b => "GREATEST(" ++ a.text ++ ", " ++ b.text ++ ")"

def Condition.text : Condition → String
  | .equal c o => c.name ++ " = " ++ o.text
  | .less c o => c.name ++ " < " ++ o.text
  | .both a b => a.text ++ " AND " ++ b.text

def Selection.text : Selection → String
  | .matching c => c.text
  | .lowest c limit =>
    "id IN ( SELECT id FROM " ++ tableName ++ " WHERE " ++ c.text ++ " ORDER BY id LIMIT " ++
      limit.text ++ " FOR UPDATE SKIP LOCKED)"

def updateText (sets : List (Column × Operand)) (rows : Selection) : String :=
  "UPDATE " ++ tableName ++ " SET " ++
    commaSeparated (sets.map fun (c, o) => c.name ++ " = " ++ o.text) ++ " WHERE " ++ rows.text

def insertText (columns : List Column) : String :=
  let quotedNames (cs : List Column) := commaSeparated (cs.map fun c => doubleQuoted c.name)
  let marks := (List.range columns.length).map fun i => (Operand.parameter (i + 1)).text
  "INSERT INTO " ++ doubleQuoted tableName ++ " (" ++ quotedNames columns ++ ") VALUES (" ++
    commaSeparated marks ++ ") RETURNING " ++ quotedNames Column.all

def Command.text {α : Type} : Command α → String
  | .update sets rows => updateText sets rows
  | .updateReturning sets rows => updateText sets rows ++ " RETURNING *"
  | .insertReturning columns => insertText columns
  | .countMatching c => "SELECT COUNT(*) AS count FROM " ++ tableName ++ " WHERE " ++ c.text
  | .countPer c =>
    "SELECT " ++ c.name ++ ", COUNT(*) AS count FROM " ++ tableName ++ " GROUP BY " ++ c.name
  | .elsewhere text | .lookup text => text

end OutboxRelay.Sql
