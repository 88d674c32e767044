import OutboxRelay.Sql.Database

/-! What the commands mean: the outbox table as a list of rows, and each command as one atomic
change of it. Comparisons with null are not true. Rows come in any order, another one at each
command, so callers must not rest on it. A text with the character U+0000 is refused, as the
encoding of the table has no such character. The columns of times are taken to hold every point of
the civil clock to the nanosecond, so that a time comes back as it was written. -/

namespace OutboxRelay.Sql

namespace Value

def ofOption (t : Option Timestamp) : Value := t.elim .null .time

def greatest : Value → Value → Value
  | .time a, .time b => .time (Timestamp.max a b)
  | .null, v => v
  | v, _ => v

def isLess : Value → Value → Bool
  | .integer a, .integer b => a < b
  | .time a, .time b => a.nanos < b.nanos
  | _, _ => false

def isEqual : Value → Value → Bool
  | .null, _ => false
  | a, b => a = b

def text? : Value → Option String
  | .text s => some s
  | _ => none

def time? : Value → Option Timestamp
  | .time t => some t
  | _ => none

def count (v : Value) : Nat :=
  match v with
  | .integer n => n.toNat
  | _ => 0

def isStorable : Value → Bool
  | .text s => !s.toList.contains (Char.ofNat 0)
  | _ => true

end Value

namespace Row

def get (r : Row) : Column → Value
  | .id => .integer r.id
  | .aggregateType => .text r.aggregateType
  | .aggregateId => .text r.aggregateId
  | .eventType => .text r.eventType
  | .payload => .text r.payload
  | .headers => .text r.headers
  | .status => .text r.status
  | .createdAt => .time r.createdAt
  | .publishedAt => .ofOption r.publishedAt
  | .claimedAt => .ofOption r.claimedAt

/-- The row with a column set. A value of another type than the column's changes nothing. -/
def set (r : Row) (c : Column) (v : Value) : Row :=
  let text (old : String) : String := v.text?.getD old
  match c with
  | .id => match v with
    | .integer n => { r with id := n }
    | _ => r
  | .aggregateType => { r with aggregateType := text r.aggregateType }
  | .aggregateId => { r with aggregateId := text r.aggregateId }
  | .eventType => { r with eventType := text r.eventType }
  | .payload => { r with payload := text r.payload }
  | .headers => { r with headers := text r.headers }
  | .status => { r with status := text r.status }
  | .createdAt => { r with createdAt := v.time?.getD r.createdAt }
  | .publishedAt => { r with publishedAt := v.time? }
  | .claimedAt => { r with claimedAt := v.time? }

def standard (id : Int) (now : Timestamp) : Row :=
  ⟨id, "", "", "", "", "\x7b\x7d", "NEW", now, none, none⟩

end Row

def Operand.eval (now : Timestamp) (parameters : List Value) (r : Row) : Operand → Value
  | .column c => r.get c
  | .parameter number => (parameters[number - 1]?).getD .null
  | .now => .time now
  | .greatest a b => (a.eval now parameters r).greatest (b.eval now parameters r)

def Condition.holds (now : Timestamp) (parameters : List Value) (r : Row) : Condition → Bool
  | .equal c o => (r.get c).isEqual (o.eval now parameters r)
  | .less c o => (r.get c).isLess (o.eval now parameters r)
  | .both a b => a.holds now parameters r && b.holds now parameters r

/-- The order in which rows come out of a table that has run so many commands. -/
structure RowOrder where
  arrange : (commands : Nat) → List Row → List Row
  perm : ∀ commands rows, (arrange commands rows).Perm rows

def RowOrder.backwards : RowOrder := ⟨fun _ rows => rows.reverse, fun _ rows => rows.reverse_perm⟩

structure Table where
  rows : List Row
  lastId : Nat
  /-- The time at which the transaction, or the lone command, began. -/
  now : Timestamp
  saved : Option (List Row)
  order : RowOrder
  commands : Nat

namespace Table

def empty (order : RowOrder) (now : Timestamp) : Table := ⟨[], 0, now, none, order, 0⟩

def rearranged (t : Table) : Table :=
  { t with rows := t.order.arrange t.commands t.rows, commands := t.commands + 1 }

def selected (t : Table) (parameters : List Value) : Selection → List Int
  | .matching c => (t.rows.filter fun r => c.holds t.now parameters r).map (·.id)
  | .lowest c limit =>
    let candidates := (t.rows.filter fun r => c.holds t.now parameters r).map (·.id)
    match t.rows with
    | [] => []
    | r :: _ =>
      (candidates.mergeSort (· ≤ ·)).take (limit.eval t.now parameters r).count

def change (t : Table) (parameters : List Value) (sets : List (Column × Operand)) (r : Row) :
    Row :=
  sets.foldl (fun new (c, o) => new.set c (o.eval t.now parameters r)) r

def update (t : Table) (parameters : List Value) (sets : List (Column × Operand))
    (selection : Selection) : List Row × List Row :=
  let ids := t.selected parameters selection
  (t.rows.map fun r => if r.id ∈ ids then t.change parameters sets r else r,
    (t.rows.filter (·.id ∈ ids)).map (t.change parameters sets))

def newRow (t : Table) (columns : List Column) (values : List Value) : Row :=
  (columns.zip values).foldl (fun r (c, v) => r.set c v) (Row.standard (t.lastId + 1) t.now)

def countPer (t : Table) (c : Column) : List (String × Int) :=
  let texts := t.rows.filterMap fun r => (r.get c).text?
  texts.eraseDups.map fun s => (s, (texts.count s : Int))

def execute {α : Type} (t : Table) (command : Command α) (parameters : List Value) :
    Except DbError α × Table :=
  match command with
  | .update sets selection =>
    let (rows, touched) := t.update parameters sets selection
    (.ok touched.length, { t with rows := rows })
  | .updateReturning sets selection =>
    let (rows, touched) := t.update parameters sets selection
    (.ok touched, { t with rows := rows })
  | .insertReturning columns =>
    let row := t.newRow columns parameters
    (.ok [row], { t with rows := t.rows ++ [row], lastId := t.lastId + 1 })
  | .countMatching c => (.ok [((t.rows.filter fun r => c.holds t.now parameters r).length : Int)], t)
  | .countPer c => (.ok (t.countPer c), t)
  | .elsewhere _ => (.ok 0, t)
  | .lookup _ => (.ok [], t)

def refusal {α : Type} (command : Command α) : DbError :=
  let text := "error returned from database: invalid byte sequence for encoding \"UTF8\": 0x00"
  match command with
  | .update .. | .elsewhere _ => .execution text
  | _ => .query text

def run {α : Type} (t : Table) (command : Command α) (parameters : List Value) :
    Except DbError α × Table :=
  if parameters.all Value.isStorable then t.rearranged.execute command parameters
  else (.error (refusal command), t)

/-- Ids that a rolled back transaction took are not handed out again. -/
instance : Database Table where
  run t command parameters := t.run command parameters
  ping _ := .ok ()
  begin t := (.ok (), { t with saved := some t.rows })
  commit t := (.ok (), { t with saved := none })
  rollbackAnswer _ := .ok ()
  rollback t := { t with rows := t.saved.getD t.rows, saved := none }

instance : RollsBack Table where
  accepted _ := rfl

end Table

end OutboxRelay.Sql
