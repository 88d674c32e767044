import OutboxRelay.Proofs.Store.TableCommands
import OutboxRelay.Sql.Script

/-! The work of a client and the insert of its event in one transaction, for any work and whatever a
database answers to each command. What reaches the database is recorded; a record of such a call has
one of five forms, and in each of them either everything lasts or nothing does. On a table this is
what becomes of the rows. A commit that fails is taken to have changed nothing, and a rollback to be
accepted. -/

namespace OutboxRelay.Sql

/-! ### Records -/

inductive Told
  | failed (e : DbError)
  | count (number : Nat)
  | rows (rows : List Row)
  | counts (counts : List Int)
  | countPer (counts : List (String × Int))
  | texts (rows : List (List (Option String)))

def Told.of {β : Type} : Command β → Except DbError β → Told
  | _, .error e => .failed e
  | .update .., .ok number | .elsewhere _, .ok number => .count number
  | .updateReturning .., .ok found | .insertReturning _, .ok found => .rows found
  | .countMatching _, .ok found => .counts found
  | .countPer _, .ok found => .countPer found
  | .lookup _, .ok found => .texts found

inductive Entry
  | begin (answer : Except DbError Unit)
  | command (issued : Issued) (answer : Told)
  | commit (answer : Except DbError Unit)
  | rollback

def Entry.of {β : Type} (command : Command β) (values : List Value) (answer : Except DbError β) :
    Entry :=
  .command ⟨command.text, values⟩ (.of command answer)

structure Recorded (σ : Type) where
  database : σ
  entries : List Entry

variable {σ : Type} [Database σ]

instance : Database (Recorded σ) where
  run r command values :=
    let (answer, s) := Database.run r.database command values
    (answer, ⟨s, r.entries ++ [.of command values answer]⟩)
  ping r := Database.ping r.database
  begin r :=
    let (answer, s) := Database.begin r.database
    (answer, ⟨s, r.entries ++ [.begin answer]⟩)
  commit r :=
    let (answer, s) := Database.commit r.database
    (answer, ⟨s, r.entries ++ [.commit answer]⟩)
  rollbackAnswer r := Database.rollbackAnswer r.database
  rollback r := ⟨Database.rollback r.database, r.entries ++ [.rollback]⟩

instance [RollsBack σ] : RollsBack (Recorded σ) where
  accepted r := RollsBack.accepted r.database

/-- The work has issued its commands, been told these answers, and come to the result. -/
inductive Work.Does {α : Type} : Work α → List Entry → Except DbError α → Prop
  | done (result : Except DbError α) : Does (.done result) [] result
  | issue {β : Type} {command : Command β} {values : List Value}
    {next : Except DbError β → Work α} {entries : List Entry} {result : Except DbError α}
    (answer : Except DbError β) (rest : Does (next answer) entries result) :
    Does (.issue command values next) (.of command values answer :: entries) result

theorem Work.run_recorded {α : Type} (work : Work α) (r : Recorded σ) : ∃ entries,
    work.run r = ((work.run r.database).1, ⟨(work.run r.database).2, r.entries ++ entries⟩) ∧
      work.Does entries (work.run r.database).1 := by
  induction work generalizing r with
  | done result => exact ⟨[], by rw [List.append_nil]; rfl, .done result⟩
  | issue command values next ih =>
    obtain ⟨entries, run, does⟩ := ih (Database.run r.database command values).1
      (Database.run r command values).2
    refine ⟨_, ?_, .issue _ does⟩
    rw [List.append_cons]
    exact run

/-! ### What lasts -/

/-- The changes made for good, and those of the open transaction. -/
structure Effects where
  lasting : List Issued
  pending : Option (List Issued)

def Entry.changes : Entry → List Issued
  | .command _ (.failed _) => []
  | .command issued _ => [issued]
  | _ => []

def Effects.after (f : Effects) (entry : Entry) : Effects :=
  match entry with
  | .begin (.ok _) => { f with pending := some [] }
  | .begin (.error _) => f
  | .command .. =>
    match f.pending with
    | some pending => { f with pending := some (pending ++ entry.changes) }
    | none => { f with lasting := f.lasting ++ entry.changes }
  | .commit (.ok _) => ⟨f.lasting ++ f.pending.getD [], none⟩
  | .commit (.error _) | .rollback => { f with pending := none }

/-- The changes that a database with this record has made for good. -/
def lasting (entries : List Entry) : List Issued := (entries.foldl Effects.after ⟨[], none⟩).lasting

theorem Work.Does.effects {α : Type} {work : Work α} {entries : List Entry}
    {result : Except DbError α} (does : work.Does entries result) (before pending : List Issued) :
    entries.foldl Effects.after ⟨before, some pending⟩ =
      ⟨before, some (pending ++ entries.flatMap Entry.changes)⟩ := by
  induction does generalizing pending with
  | done result => rw [List.flatMap_nil, List.append_nil]; rfl
  | issue answer rest ih =>
    rw [List.foldl_cons, List.flatMap_cons, ← List.append_assoc]
    exact ih _

end OutboxRelay.Sql

namespace OutboxRelay.SqlStore

open Sql

/-! ### The courses of a call -/

def insertedId : Except DbError (List Row) → Except DbError Int
  | .ok (row :: _) => .ok row.id
  | .ok [] => .error (.recordNotFound "Failed to find inserted item")
  | .error e => .error e

def transactionFailure (e : DbError) : StoreError :=
  (StoreError.ofRoot e.message).withContext "persist outbox event with business write"

/-- The record of a call, from the beginning of the transaction to its end, and the answer. -/
inductive Course {α : Type} (work : Work α) (e : NewEvent) :
    List Entry → Except StoreError (α × Int) → Prop
  | notBegun (error : DbError) :
    Course work e [.begin (.error error)] (.error (transactionFailure error))
  | workFailed {entries : List Entry} {error : DbError} (does : work.Does entries (.error error)) :
    Course work e (.begin (.ok ()) :: entries ++ [.rollback]) (.error (transactionFailure error))
  | notInserted {entries : List Entry} {value : α} {answer : Except DbError (List Row)}
    {error : DbError} (does : work.Does entries (.ok value))
    (refused : insertedId answer = .error error) :
    Course work e
      (.begin (.ok ()) :: entries ++ [.of insertCommand (insertValues e) answer] ++ [.rollback])
      (.error (transactionFailure error))
  | notCommitted {entries : List Entry} {value : α} {answer : Except DbError (List Row)} {id : Int}
    (does : work.Does entries (.ok value)) (inserted : insertedId answer = .ok id)
    (error : DbError) :
    Course work e (.begin (.ok ()) :: entries ++ [.of insertCommand (insertValues e) answer] ++
      [.commit (.error error)]) (.error (transactionFailure error))
  | committed {entries : List Entry} {value : α} {answer : Except DbError (List Row)} {id : Int}
    (does : work.Does entries (.ok value)) (inserted : insertedId answer = .ok id) :
    Course work e (.begin (.ok ()) :: entries ++ [.of insertCommand (insertValues e) answer] ++
      [.commit (.ok ())]) (.ok (value, id))

variable {σ : Type} [Database σ]

theorem insert_eq (s : σ) (e : NewEvent) : insert s e =
    (insertedId (Database.run s insertCommand (insertValues e)).1,
      (Database.run s insertCommand (insertValues e)).2) := by
  unfold insert
  split <;> rename_i run <;> rw [run] <;> rfl

theorem insertAfter_eq [RollsBack σ] {α : Type} (s : σ) (work : Work α) (e : NewEvent) :
    insertAfter s work e =
    match Database.begin s with
    | (.error error, s) => (.error (transactionFailure error), s)
    | (.ok _, s) =>
      match work.run s with
      | (.error error, s) => (.error (transactionFailure error), Database.rollback s)
      | (.ok value, s) =>
        match insert s e with
        | (.error error, s) => (.error (transactionFailure error), Database.rollback s)
        | (.ok id, s) =>
          match Database.commit s with
          | (.error error, s) => (.error (transactionFailure error), s)
          | (.ok _, s) => (.ok (value, id), s) := by
  unfold insertAfter transaction
  rcases Database.begin s with ⟨error | _, s⟩
  · rfl
  · dsimp only
    rcases work.run s with ⟨error | value, s⟩
    · dsimp only
      rw [RollsBack.accepted]
      rfl
    · dsimp only
      rcases insert s e with ⟨error | id, s⟩
      · dsimp only [Except.map]
        rw [RollsBack.accepted]
        rfl
      · dsimp only [Except.map]
        rcases Database.commit s with ⟨error | _, s⟩ <;> rfl

theorem insertAfter_recorded [RollsBack σ] {α : Type} (s : σ) (work : Work α) (e : NewEvent) :
    ∃ entries,
    insertAfter (Recorded.mk s []) work e =
        ((insertAfter s work e).1, ⟨(insertAfter s work e).2, entries⟩) ∧
      Course work e entries (insertAfter s work e).1 := by
  have begins : Database.begin (Recorded.mk s []) =
      ((Database.begin s).1, ⟨(Database.begin s).2, [.begin (Database.begin s).1]⟩) := rfl
  rw [insertAfter_eq, insertAfter_eq, begins]
  rcases Database.begin s with ⟨error | _, s⟩
  · exact ⟨_, rfl, .notBegun error⟩
  obtain ⟨entries, run, does⟩ := work.run_recorded ⟨s, [.begin (.ok ())]⟩
  dsimp only at run does ⊢
  rw [run]
  rcases worked : work.run s with ⟨error | value, s⟩ <;> rw [worked] at does
  · exact ⟨_, rfl, .workFailed does⟩
  dsimp only
  rw [insert_eq, insert_eq]
  have answers : Database.run (Recorded.mk s ([.begin (.ok ())] ++ entries)) insertCommand
      (insertValues e) = ((Database.run s insertCommand (insertValues e)).1,
        ⟨(Database.run s insertCommand (insertValues e)).2, [.begin (.ok ())] ++ entries ++
          [.of insertCommand (insertValues e)
            (Database.run s insertCommand (insertValues e)).1]⟩) := rfl
  rw [answers]
  rcases Database.run s insertCommand (insertValues e) with ⟨answer, s⟩
  dsimp only
  rcases told : insertedId answer with error | id
  · exact ⟨_, rfl, .notInserted does told⟩
  have commits (entries : List Entry) : Database.commit (Recorded.mk s entries) =
      ((Database.commit s).1, ⟨(Database.commit s).2, entries ++ [.commit (Database.commit s).1]⟩) :=
    rfl
  dsimp only
  rw [commits]
  rcases Database.commit s with ⟨error | _, s⟩
  · exact ⟨_, rfl, .notCommitted does told error⟩
  · exact ⟨_, rfl, .committed does told⟩

section Outcome

variable {α : Type} {work : Work α} {e : NewEvent} {entries : List Entry}

theorem effects_of_does {result : Except DbError α} (does : work.Does entries result)
    (more : List Entry) : (Entry.begin (.ok ()) :: entries ++ more).foldl Effects.after ⟨[], none⟩ =
      more.foldl Effects.after ⟨[], some (entries.flatMap Entry.changes)⟩ := by
  rw [List.cons_append, List.foldl_cons, List.foldl_append]
  exact congrArg (more.foldl Effects.after) (does.effects [] [])

theorem lasting_of_failed {error : StoreError} (course : Course work e entries (.error error)) :
    lasting entries = [] := by
  unfold lasting
  cases course with
  | notBegun error => rfl
  | workFailed does => rw [effects_of_does does]; rfl
  | notInserted does refused => rw [List.append_assoc, effects_of_does does]; rfl
  | notCommitted does inserted error => rw [List.append_assoc, effects_of_does does]; rfl

theorem changes_of_inserted {answer : Except DbError (List Row)} {id : Int}
    (inserted : insertedId answer = .ok id) :
    (Entry.of insertCommand (insertValues e) answer).changes =
      [⟨insertCommand.text, insertValues e⟩] := by
  cases answer with
  | error error => cases inserted
  | ok rows => rfl

theorem lasting_of_persisted {value : α} {id : Int}
    (course : Course work e entries (.ok (value, id))) :
    ∃ told, work.Does told (.ok value) ∧
      lasting entries = told.flatMap Entry.changes ++ [⟨insertCommand.text, insertValues e⟩] := by
  cases course with
  | committed does inserted =>
    refine ⟨_, does, ?_⟩
    rw [← changes_of_inserted inserted, lasting, List.append_assoc, effects_of_does does]
    rfl

end Outcome

/-! ### The rows of a table -/

section Rows

variable {α β : Type}

theorem saved_run (t : Table) (command : Command β) (values : List Value) :
    (Database.run t command values).2.saved = t.saved := by
  change (t.run command values).2.saved = t.saved
  unfold Table.run
  split
  · cases command <;> rfl
  · rfl

theorem saved_work (work : Work α) (t : Table) : (work.run t).2.saved = t.saved := by
  induction work generalizing t with
  | done result => rfl
  | issue command values next ih =>
    exact (ih _ (Database.run t command values).2).trans (saved_run t command values)

theorem rows_insertAfter (t : Table) (work : Work α) (e : NewEvent) :
    (∀ error, (insertAfter t work e).1 = .error error → (insertAfter t work e).2.rows = t.rows) ∧
    ∀ value id, (insertAfter t work e).1 = .ok (value, id) →
      ∃ worked : Table, work.run { t with saved := some t.rows } = (.ok value, worked) ∧
        id = (worked.lastId : Int) + 1 ∧
        (insertAfter t work e).2.rows =
          worked.rearranged.rows ++ [insertedRow id worked.now e] := by
  have begins : Database.begin t = (.ok (), { t with saved := some t.rows }) := rfl
  have saved := saved_work work { t with saved := some t.rows }
  rw [insertAfter_eq, begins]
  dsimp only
  rcases worked : work.run { t with saved := some t.rows } with ⟨error | value, after⟩ <;>
    rw [worked] at saved ⊢
  · refine ⟨fun _ _ => ?_, nofun⟩
    exact congrArg (Option.getD · after.rows) saved
  dsimp only
  by_cases storable : (insertValues e).all Value.isStorable = true
  · rw [insert_spec storable]
    refine ⟨nofun, fun value id persisted => ?_⟩
    cases persisted
    exact ⟨after, rfl, rfl, rfl⟩
  · rw [insert_of_refused storable]
    refine ⟨fun _ _ => ?_, nofun⟩
    exact congrArg (Option.getD · after.rows) saved

end Rows

/-- A client's work and the insert of its event are one transaction. For any work on any database that
accepts rollbacks, a record of the call has one of the five courses, whose answer is the one that the
client gets: there is an insert only after work that did not fail, a failure of either is followed by
the rollback and nothing else and is what the client is told, and the client has its result and an id
only if all was committed. So the changes of the work and the new row last together, or none of them does; on a
table, the rows are those of the work and the new one, or those that were there before. -/
theorem insertAfter_all_or_nothing {α : Type} (work : Work α) (e : NewEvent) :
    (∀ {σ : Type} [Database σ] [RollsBack σ] (s : σ), ∃ entries,
      insertAfter (Recorded.mk s []) work e =
        ((insertAfter s work e).1, ⟨(insertAfter s work e).2, entries⟩) ∧
      Course work e entries (insertAfter s work e).1 ∧
      (∀ error, (insertAfter s work e).1 = .error error → lasting entries = []) ∧
      ∀ value id, (insertAfter s work e).1 = .ok (value, id) → ∃ told, work.Does told (.ok value) ∧
        lasting entries = told.flatMap Entry.changes ++ [⟨insertCommand.text, insertValues e⟩]) ∧
    ∀ t : Table,
      (∀ error, (insertAfter t work e).1 = .error error → (insertAfter t work e).2.rows = t.rows) ∧
      ∀ value id, (insertAfter t work e).1 = .ok (value, id) →
        ∃ worked : Table, work.run { t with saved := some t.rows } = (.ok value, worked) ∧
          id = (worked.lastId : Int) + 1 ∧
          (insertAfter t work e).2.rows =
            worked.rearranged.rows ++ [insertedRow id worked.now e] := by
  refine ⟨fun s => ?_, fun t => rows_insertAfter t work e⟩
  obtain ⟨entries, recorded, course⟩ := insertAfter_recorded s work e
  refine ⟨entries, recorded, course, fun error failed => ?_, fun value id persisted => ?_⟩
  · rw [failed] at course
    exact lasting_of_failed course
  · rw [persisted] at course
    exact lasting_of_persisted course

def paidOrder : NewEvent := ⟨"Order", "order-1", "OrderPaid", "p", .empty⟩

def payment : Work Nat := .execute "UPDATE orders SET paid = TRUE WHERE id = 1" .done

/-- A database that carries the payment out and refuses the row of its event. -/
def refusingInserts : ScriptedDatabase := ⟨[.error (.query "disk full")], [.ok 1], [], false⟩

theorem insertAfter_all_or_nothing_of_refused :
    (∃ entries, insertAfter (Recorded.mk refusingInserts []) payment paidOrder =
        ((insertAfter refusingInserts payment paidOrder).1,
          ⟨(insertAfter refusingInserts payment paidOrder).2, entries⟩) ∧
      Course payment paidOrder entries (.error (transactionFailure (.query "disk full"))) ∧
      lasting entries = []) ∧
    ∃ worked : Table, (insertAfter (Table.empty .backwards ⟨0⟩) payment paidOrder).2.rows =
      worked.rearranged.rows ++ [insertedRow 1 worked.now paidOrder] := by
  obtain ⟨entries, recorded, course, nothing, _⟩ :=
    (insertAfter_all_or_nothing payment paidOrder).1 refusingInserts
  have refused : (insertAfter refusingInserts payment paidOrder).1 =
      .error (transactionFailure (.query "disk full")) := rfl
  obtain ⟨worked, _, _, rows⟩ :=
    ((insertAfter_all_or_nothing payment paidOrder).2 (Table.empty .backwards ⟨0⟩)).2 0 1 rfl
  exact ⟨⟨entries, recorded, refused ▸ course, nothing _ refused⟩, worked, rows⟩

end OutboxRelay.SqlStore
