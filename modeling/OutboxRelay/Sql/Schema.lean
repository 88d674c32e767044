import OutboxRelay.Sql.Database

/-! The outbox table and its index, as the commands that make and remove them. -/

namespace OutboxRelay.Sql

structure ColumnDefinition where
  column : Column
  type : String
  notNull : Bool
  standard : Option String
  primaryKey : Bool

namespace ColumnDefinition

def text (d : ColumnDefinition) : String :=
  doubleQuoted d.column.name ++ " " ++ d.type ++ (if d.notNull then " NOT NULL" else "") ++
    (match d.standard with
      | some e => " DEFAULT " ++ e
      | none => "") ++
    (if d.primaryKey then " PRIMARY KEY" else "")

end ColumnDefinition

namespace Schema

def columns : List ColumnDefinition :=
  [⟨.id, "bigserial", true, none, true⟩,
   ⟨.aggregateType, "varchar", true, none, false⟩,
   ⟨.aggregateId, "varchar", true, none, false⟩,
   ⟨.eventType, "varchar", true, none, false⟩,
   ⟨.payload, "text", true, none, false⟩,
   ⟨.headers, "text", true, some "'\x7b\x7d'", false⟩,
   ⟨.status, "varchar(16)", true, some "'NEW'", false⟩,
   ⟨.createdAt, "timestamp with time zone", true, some "CURRENT_TIMESTAMP", false⟩,
   ⟨.publishedAt, "timestamp with time zone", false, none, false⟩,
   ⟨.claimedAt, "timestamp with time zone", false, none, false⟩]

def createTable : String :=
  "CREATE TABLE IF NOT EXISTS " ++ doubleQuoted tableName ++ " ( " ++
    commaSeparated (columns.map ColumnDefinition.text) ++ " )"

def createIndex : String :=
  "CREATE INDEX " ++ doubleQuoted "idx_message_outbox_status_id" ++ " ON " ++
    doubleQuoted tableName ++ " (" ++
    commaSeparated ([Column.status, Column.id].map fun c => doubleQuoted c.name) ++ ")"

def dropTable : String := "DROP TABLE " ++ doubleQuoted tableName

def migrationName : String := "m20261001_000001_create_message_outbox"

variable {σ : Type} [Database σ]

def runAll : List String → σ → Except DbError Unit × σ
  | [], s => (.ok (), s)
  | text :: rest, s =>
    match Database.run s (.elsewhere text) [] with
    | (.ok _, s) => runAll rest s
    | (.error e, s) => (.error e, s)

def create (s : σ) : Except DbError Unit × σ := runAll [createTable, createIndex] s

def remove (s : σ) : Except DbError Unit × σ := runAll [dropTable] s

end Schema

end OutboxRelay.Sql
