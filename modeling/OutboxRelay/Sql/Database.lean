import OutboxRelay.Sql.Command
import OutboxRelay.StoreError

/-! Databases: what runs commands, alone or in a transaction. -/

namespace OutboxRelay.Sql

inductive DbError
  | custom (text : String)
  | connection (text : String)
  | execution (text : String)
  | query (text : String)
  | recordNotFound (text : String)
deriving DecidableEq

namespace DbError

def message : DbError → String
  | custom text => "Custom Error: " ++ text
  | connection text => "Connection Error: " ++ text
  | execution text => "Execution Error: " ++ text
  | query text => "Query Error: " ++ text
  | recordNotFound text => "RecordNotFound Error: " ++ text

def cause? : DbError → Option String
  | connection text | execution text | query text => some text
  | custom _ | recordNotFound _ => none

def toStoreError (e : DbError) : StoreError :=
  match e.cause? with
  | some cause => (StoreError.ofRoot cause).withContext e.message
  | none => .ofRoot e.message

end DbError

/-- What the client is told of a transaction that failed with `e` and was rolled back with this
answer. -/
def DbError.afterRollback (e : DbError) : Except DbError Unit → DbError
  | .ok _ => e
  | .error lost => lost

/-- A rollback may be refused, but no change is kept of it either way. -/
class Database (σ : Type) where
  run : {α : Type} → σ → Command α → List Value → Except DbError α × σ
  ping : σ → Except DbError Unit
  begin : σ → Except DbError Unit × σ
  commit : σ → Except DbError Unit × σ
  rollbackAnswer : σ → Except DbError Unit
  rollback : σ → σ

class RollsBack (σ : Type) [Database σ] : Prop where
  accepted : ∀ s : σ, Database.rollbackAnswer s = .ok ()

/-- A client's own work inside a transaction: commands, each chosen after the answers to those
before, and a result, which may be an error of the client's own or pass over one of the database. -/
inductive Work (α : Type) : Type 1
  | done (result : Except DbError α)
  | issue {β : Type} (command : Command β) (values : List Value)
    (next : Except DbError β → Work α)

def Work.execute {α : Type} (text : String) (next : Except DbError Nat → Work α) : Work α :=
  .issue (.elsewhere text) [] next

variable {σ : Type} [Database σ]

inductive Connection (σ : Type)
  | disconnected
  | connected (database : σ)

def disconnectedError : DbError := .connection "Disconnected"

instance : Database (Connection σ) where
  run
    | .disconnected, _, _ => (.error disconnectedError, .disconnected)
    | .connected db, command, values =>
      let (answer, db) := Database.run db command values
      (answer, .connected db)
  ping
    | .disconnected => .error disconnectedError
    | .connected db => Database.ping db
  begin
    | .disconnected => (.error disconnectedError, .disconnected)
    | .connected db => let (answer, db) := Database.begin db; (answer, .connected db)
  commit
    | .disconnected => (.error disconnectedError, .disconnected)
    | .connected db => let (answer, db) := Database.commit db; (answer, .connected db)
  rollbackAnswer
    -- nothing was begun, so there is nothing to undo
    | .disconnected => .ok ()
    | .connected db => Database.rollbackAnswer db
  rollback
    | .disconnected => .disconnected
    | .connected db => .connected (Database.rollback db)

instance [RollsBack σ] : RollsBack (Connection σ) where
  accepted
    | .disconnected => rfl
    | .connected db => RollsBack.accepted db

def Work.run {α : Type} : Work α → σ → Except DbError α × σ
  | .done result, s => (result, s)
  | .issue command values next, s =>
    let (answer, s) := Database.run s command values
    (next answer).run s

/-- Run `body` between begin and commit; a failure of it is followed by rollback. -/
def transaction {α : Type} (s : σ) (body : σ → Except DbError α × σ) : Except DbError α × σ :=
  match Database.begin s with
  | (.error e, s) => (.error e, s)
  | (.ok _, s) =>
    match body s with
    | (.error e, s) => (.error (e.afterRollback (Database.rollbackAnswer s)), Database.rollback s)
    | (.ok value, s) =>
      let (committed, s) := Database.commit s
      (committed.map fun _ => value, s)

end OutboxRelay.Sql
