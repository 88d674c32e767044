import OutboxRelay.Sql.Database
import OutboxRelay.Text.Blank
import OutboxRelay.Text.Pieces

/-! A database that answers from a script and keeps a transcript, for trials without one. -/

namespace OutboxRelay.Sql

structure ScriptRow where
  row : Row
  count : Int

structure Issued where
  text : String
  values : List Value
deriving DecidableEq

structure ScriptedDatabase where
  queries : List (Except DbError (List ScriptRow))
  executions : List (Except DbError Nat)
  transcript : List (List Issued)
  inTransaction : Bool

namespace ScriptedDatabase

def oneLine (text : String) : String :=
  String.intercalate " "
    (((Text.pieces Text.isBlank text.toList).filter (· ≠ [])).map String.ofList)

def issue (s : ScriptedDatabase) (text : String) (values : List Value) : ScriptedDatabase :=
  let issued : Issued := ⟨oneLine text, values⟩
  { s with
    transcript :=
      if s.inTransaction then
        match s.transcript.getLast? with
        | some group => s.transcript.dropLast ++ [group ++ [issued]]
        | none => [[issued]]
      else s.transcript ++ [[issued]] }

def usedUp : DbError := .query "the script has no answer left"

def nextRows (s : ScriptedDatabase) : Except DbError (List ScriptRow) × ScriptedDatabase :=
  match s.queries with
  | [] => (.error usedUp, s)
  | answer :: rest => (answer, { s with queries := rest })

def nextCount (s : ScriptedDatabase) : Except DbError Nat × ScriptedDatabase :=
  match s.executions with
  | [] => (.error usedUp, s)
  | answer :: rest => (answer, { s with executions := rest })

def answer {α : Type} (s : ScriptedDatabase) : Command α → Except DbError α × ScriptedDatabase
  | .update .. | .elsewhere _ => s.nextCount
  | .updateReturning .. | .insertReturning _ =>
    let (rows, s) := s.nextRows
    (rows.map (·.map (·.row)), s)
  | .countMatching _ =>
    let (rows, s) := s.nextRows
    (rows.map (·.map (·.count)), s)
  | .countPer _ =>
    let (rows, s) := s.nextRows
    (rows.map (·.map fun r => (r.row.status, r.count)), s)
  | .lookup _ =>
    let (rows, s) := s.nextRows
    (rows.map (·.map fun r => [some r.row.payload]), s)

def close (s : ScriptedDatabase) (text : String) : ScriptedDatabase :=
  { s.issue text [] with inTransaction := false }

instance : Database ScriptedDatabase where
  run s command values := (s.issue command.text values).answer command
  ping _ := .ok ()
  begin s := (.ok (), { s.issue "BEGIN" [] with inTransaction := true })
  commit s := (.ok (), s.close "COMMIT")
  rollbackAnswer _ := .ok ()
  rollback s := s.close "ROLLBACK"

instance : RollsBack ScriptedDatabase where
  accepted _ := rfl

end ScriptedDatabase

end OutboxRelay.Sql
