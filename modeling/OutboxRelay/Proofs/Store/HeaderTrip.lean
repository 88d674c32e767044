import OutboxRelay.Proofs.Store.Agreement
import OutboxRelay.Proofs.Store.ClaimAnswer

/-! The headers of an event on their way through the table, from the call that persists it to the
claim that takes its row. No call of any client writes to the column of a row that is there, so what
was written is what is read, in whatever order the entries were written. -/

namespace OutboxRelay.SqlStore

open Sql Outbox

def headerColumn (rows : List Row) : List (Int × String) := rows.map fun r => (r.id, r.headers)

/-! ### One call -/

theorem headerColumn_rearranged (t : Table) :
    (headerColumn t.rearranged.rows).Perm (headerColumn t.rows) :=
  (t.order.perm t.commands t.rows).map _

theorem headerColumn_change {ids : List Int} {change : Row → Row} (rows : List Row)
    (same : ∀ r, ((change r).id, (change r).headers) = (r.id, r.headers)) :
    headerColumn (rows.map fun r => if r.id ∈ ids then change r else r) = headerColumn rows := by
  rw [headerColumn, List.map_map]
  refine List.map_congr_left fun r _ => ?_
  dsimp only [Function.comp_apply]
  split
  · exact same r
  · rfl

theorem headerColumn_claimNew (t : Table) (limit : UInt64) :
    (headerColumn (claimNew t limit).store.rows).Perm (headerColumn t.rows) ∧
      (claimNew t limit).store.lastId = t.lastId := by
  unfold claimNew
  split
  · exact ⟨.refl _, rfl⟩
  · rw [run_claim]
    refine ⟨(List.Perm.of_eq ?_).trans (headerColumn_rearranged t), rfl⟩
    exact headerColumn_change _ fun _ => rfl

theorem headerColumn_settledTable (t : Table) (id : Int) (settlement : Settlement) :
    (headerColumn (settledTable t id settlement).rows).Perm (headerColumn t.rows) := by
  refine (List.Perm.of_eq ?_).trans (headerColumn_rearranged t)
  exact headerColumn_change _ fun _ => by cases settlement <;> rfl

theorem headerColumn_insert {t : Table} {e : NewEvent}
    (storable : (insertValues e).all Value.isStorable = true) :
    (headerColumn (insert t e).2.rows).Perm
      (headerColumn t.rows ++ [((t.lastId : Int) + 1, HeaderBlob.encode e.headers)]) := by
  rw [insert_spec storable]
  unfold headerColumn
  rw [List.map_append]
  exact (headerColumn_rearranged t).append_right _

theorem isStorable_insertValues_iff {e : NewEvent} :
    (insertValues e).all Value.isStorable = true ↔ e.Storable := by
  refine ⟨fun storable s field => isStorable_text.1 ?_, isStorable_insertValues⟩
  refine List.all_eq_true.1 storable (.text s) ?_
  rw [insertValues_eq]
  exact List.mem_append_left _ (List.mem_map_of_mem field)

theorem insertAsPart_eq_ok_iff {t : Table} {e : NewEvent} {id : Int} :
    (insertAsPart t e).1 = .ok id ↔ e.Storable ∧ id = (t.lastId : Int) + 1 := by
  unfold insertAsPart
  constructor
  · intro persisted
    by_cases storable : e.Storable
    · rw [insert_spec (isStorable_insertValues storable)] at persisted
      cases persisted
      exact ⟨storable, rfl⟩
    · rw [insert_of_refused (mt isStorable_insertValues_iff.1 storable)] at persisted
      cases persisted
  · rintro ⟨storable, rfl⟩
    rw [insert_spec (isStorable_insertValues storable)]
    rfl

/-- The column of `t'` is that of `t`, with more rows under ids that were not yet handed out. -/
def Extends (t t' : Table) : Prop :=
  t.lastId ≤ t'.lastId ∧ ∃ new, (headerColumn t'.rows).Perm (headerColumn t.rows ++ new) ∧
    ∀ entry ∈ new, (t.lastId : Int) < entry.1 ∧ entry.1 ≤ t'.lastId

theorem extends_of_perm {t t' : Table} (column : (headerColumn t'.rows).Perm (headerColumn t.rows))
    (lastId : t'.lastId = t.lastId) : Extends t t' :=
  ⟨Nat.le_of_eq lastId.symm, [], (List.append_nil _).symm ▸ column, nofun⟩

theorem extends_answer (t : Table) (now : Timestamp) (request : Request) :
    Extends t (answer (SqlStore.mk t) now request).2.database := by
  cases request with
  | persist e =>
    change Extends t (insert t e).2
    by_cases storable : e.Storable
    · have values := isStorable_insertValues storable
      have lastId : (insert t e).2.lastId = t.lastId + 1 := by rw [insert_spec values]
      refine ⟨by omega, _, headerColumn_insert values, List.forall_mem_singleton.2 ?_⟩
      dsimp only
      omega
    · rw [insert_of_refused (mt isStorable_insertValues_iff.1 storable)]
      exact extends_of_perm (.refl _) rfl
  | claimNew limit =>
    obtain ⟨column, lastId⟩ := headerColumn_claimNew t limit
    exact extends_of_perm column lastId
  | settlePublished id =>
    change Extends t (settlePublished t id).store
    rw [(settlePublished_spec t id).2]
    exact extends_of_perm (headerColumn_settledTable t id .published) rfl
  | settleFailed id reason =>
    change Extends t (settleFailed t id reason).store
    rw [(settleFailed_spec t id reason).2]
    exact extends_of_perm (headerColumn_settledTable t id .failed) rfl
  | stats =>
    change Extends t (stats t).store
    unfold stats
    rw [run_counts]
    exact extends_of_perm (headerColumn_rearranged t) rfl

/-! ### Runs of calls -/

theorem answerAll_keeps {P : Table → Prop} (clocked : ∀ t now, P t → P { t with now := now })
    (extended : ∀ t t', Extends t t' → P t → P t') {t : Table} (h : P t) (clock : WallClock)
    (requests : List Request) : P (answerAll setClock clock ⟨t⟩ requests).2.database := by
  induction requests generalizing t clock with
  | nil => exact h
  | cons request rest ih =>
    have before := clocked t clock.read.1 h
    exact ih (extended _ _ (extends_answer _ clock.read.1 request) before) clock.read.2

def Bounded (t : Table) : Prop := ∀ entry ∈ headerColumn t.rows, entry.1 ≤ t.lastId

theorem bounded_of_extends {t t' : Table} (more : Extends t t') (h : Bounded t) : Bounded t' := by
  obtain ⟨grown, new, column, fresh⟩ := more
  intro entry member
  rcases List.mem_append.1 (column.mem_iff.1 member) with old | added
  · have low := h entry old
    omega
  · exact (fresh entry added).2

/-- One row has the id, and the entries of the headers stand in its column in some order. -/
def Stores (id : Int) (h : Headers) (t : Table) : Prop :=
  id ≤ t.lastId ∧ ∃ entries, entries.Perm h.entries ∧
    (headerColumn t.rows).filter (·.1 = id) = [(id, HeaderBlob.written entries)]

theorem stores_of_extends {id : Int} {h : Headers} {t t' : Table} (more : Extends t t')
    (stores : Stores id h t) : Stores id h t' := by
  obtain ⟨grown, new, column, fresh⟩ := more
  obtain ⟨known, entries, perm, one⟩ := stores
  refine ⟨by omega, entries, perm, ?_⟩
  have others : new.filter (·.1 = id) = [] := by
    refine List.filter_eq_nil_iff.2 fun entry member same => ?_
    have higher := (fresh entry member).1
    have equal := of_decide_eq_true same
    omega
  have found := column.filter (·.1 = id)
  rw [List.filter_append, one, others] at found
  exact List.perm_singleton.1 found

def writeHeaders (id : Int) (raw : String) (t : Table) : Table :=
  { t with rows := withHeaders id raw t.rows }

theorem headerColumn_withHeaders (id : Int) (raw : String) (rows : List Row) :
    (headerColumn (withHeaders id raw rows)).filter (·.1 = id) =
      ((headerColumn rows).filter (·.1 = id)).map fun _ => (id, raw) := by
  induction rows with
  | nil => rfl
  | cons r rest ih =>
    have first : headerColumn (withHeaders id raw (r :: rest)) =
        (r.id, if r.id = id then raw else r.headers) :: headerColumn (withHeaders id raw rest) := by
      refine congrArg (· :: headerColumn (withHeaders id raw rest)) ?_
      dsimp only
      split <;> rfl
    rw [first, show headerColumn (r :: rest) = (r.id, r.headers) :: headerColumn rest from rfl,
      List.filter_cons, List.filter_cons, ih]
    by_cases same : r.id = id
    · rw [if_pos (decide_eq_true same), if_pos (decide_eq_true same), if_pos same, same, List.map_cons]
    · rw [if_neg (mt of_decide_eq_true same), if_neg (mt of_decide_eq_true same)]

theorem stores_insert {t : Table} {e : NewEvent} (bounded : Bounded t) (storable : e.Storable)
    {entries : List (String × String)} (perm : entries.Perm e.headers.entries) :
    Stores ((t.lastId : Int) + 1) e.headers
      (writeHeaders (t.lastId + 1) (HeaderBlob.written entries) (insert t e).2) := by
  have values := isStorable_insertValues storable
  have known : ((t.lastId : Int) + 1) ≤ (insert t e).2.lastId := by
    rw [insert_spec values]
    exact Int.le_refl _
  refine ⟨known, entries, perm, ?_⟩
  have old : (headerColumn t.rows).filter (·.1 = (t.lastId : Int) + 1) = [] := by
    refine List.filter_eq_nil_iff.2 fun entry member same => ?_
    have low := bounded entry member
    have equal := of_decide_eq_true same
    omega
  have found := (headerColumn_insert (t := t) values).filter (·.1 = (t.lastId : Int) + 1)
  have own : [((t.lastId : Int) + 1, HeaderBlob.encode e.headers)].filter
      (·.1 = (t.lastId : Int) + 1) = [((t.lastId : Int) + 1, HeaderBlob.encode e.headers)] :=
    List.filter_eq_self.2 (List.forall_mem_singleton.2 (decide_eq_true rfl))
  rw [List.filter_append, old, List.nil_append, own] at found
  refine (headerColumn_withHeaders ..).trans ?_
  rw [List.perm_singleton.1 found]
  rfl

/-! ### The claim -/

theorem lowestIds_of_perm {rows rows' : List Row} (perm : rows.Perm rows') (limit : Nat) :
    lowestIds rows limit = lowestIds rows' limit := by
  have ids : (newIds rows).Perm (newIds rows') := (perm.filter _).map _
  have sorted (ids : List Int) : (ids.mergeSort (· ≤ ·)).Pairwise (· ≤ ·) :=
    List.pairwise_mergeSort' (· ≤ ·) ids
  have same : ((newIds rows).mergeSort (· ≤ ·)).Perm ((newIds rows').mergeSort (· ≤ ·)) :=
    (List.mergeSort_perm ..).trans (ids.trans (List.mergeSort_perm ..).symm)
  rw [lowestIds, lowestIds,
    same.eq_of_pairwise (fun _ _ _ _ => Int.le_antisymm) (sorted _) (sorted _)]

theorem result_claimNew_table (t : Table) (limit : UInt64) : ∃ taken : List Row,
    (claimNew t limit).result = .ok (byId (taken.map fun r => eventOf (claimedRow t.now r))) ∧
      taken.Perm (t.rows.filter (·.id ∈ lowestIds t.rows (limitValue limit).toNat)) := by
  by_cases none : limit = 0
  · subst none
    have nothing : t.rows.filter (·.id ∈ lowestIds t.rows (limitValue 0).toNat) = [] :=
      List.filter_eq_nil_iff.2 fun r _ taken => List.not_mem_nil (of_decide_eq_true taken)
    exact ⟨[], by simp [claimNew, byId], .of_eq nothing.symm⟩
  · have perm := t.order.perm t.commands t.rows
    refine ⟨t.rearranged.rows.filter
      (·.id ∈ lowestIds t.rearranged.rows (limitValue limit).toNat), ?_, ?_⟩
    · have answers : Answers t limit _ := congrArg Prod.fst (run_claim t (limitValue limit))
      have inProgress (r : Row) : (claimedRow t.now r).status ∈ statusTexts :=
        mem_statusTexts_iff.2 ⟨.inProgress, rfl⟩
      have known := result_of_known none answers (List.forall_mem_map.2 fun r _ => inProgress r)
      rwa [List.map_map] at known
    · rw [lowestIds_of_perm (show t.rearranged.rows.Perm t.rows from perm)]
      exact perm.filter _

theorem rowHeaders_of_stores {id : Int} {h : Headers} {t : Table} (stores : Stores id h t) {r : Row}
    (member : r ∈ t.rows) (same : r.id = id) : (rowHeaders r).1 = h := by
  obtain ⟨-, entries, perm, one⟩ := stores
  have here : (r.id, r.headers) ∈ (headerColumn t.rows).filter (·.1 = id) :=
    List.mem_filter.2 ⟨List.mem_map_of_mem (f := fun r : Row => (r.id, r.headers)) member,
      decide_eq_true same⟩
  rw [one] at here
  have column : r.headers = HeaderBlob.written entries :=
    congrArg Prod.snd (List.mem_singleton.1 here)
  rw [rowHeaders, column, HeaderBlob.decode?_written perm]

theorem claimNew_of_stores {id : Int} {h : Headers} {t : Table} (stores : Stores id h t)
    (limit : UInt64) : ∃ events, (claimNew t limit).result = .ok events ∧
      (∀ event ∈ events, event.id = id → event.headers = h) ∧
      (id ∈ lowestIds t.rows (limitValue limit).toNat → ∃ event ∈ events, event.id = id) := by
  obtain ⟨taken, claimed, perm⟩ := result_claimNew_table t limit
  refine ⟨_, claimed, fun event member same => ?_, fun low => ?_⟩
  · obtain ⟨r, here, rfl⟩ := List.mem_map.1 ((perm_byId _).mem_iff.1 member)
    have row : r ∈ t.rows := (List.mem_filter.1 (perm.mem_iff.1 here)).1
    exact rowHeaders_of_stores (r := r) stores row same
  · have new : id ∈ newIds t.rows := by
      exact (List.mergeSort_perm _ _).mem_iff.1 (List.mem_of_mem_take low)
    obtain ⟨r, here, rfl⟩ := List.mem_map.1 new
    have found : r ∈ taken :=
      perm.mem_iff.2 (List.mem_filter.2 ⟨(List.mem_filter.1 here).1, decide_eq_true low⟩)
    exact ⟨_, (perm_byId _).mem_iff.2 (List.mem_map_of_mem found), rfl⟩

/-- In whatever order the entries of an event's headers are written to the column, they are an
object of texts without a control character of JSON's, which a text column holds and which is read
back as the same headers, with nothing to journal. So the headers are no reason to refuse the event,
and whatever calls other clients make before and after it is persisted, the claim that takes its row
finds them as they were. -/
theorem headers_come_back (e : NewEvent) {entries : List (String × String)}
    (perm : entries.Perm e.headers.entries) :
    let raw := HeaderBlob.written entries
    HeaderBlob.encode e.headers = HeaderBlob.written e.headers.entries ∧
    (HeaderBlob.Object raw.toList entries ∧ (∀ c ∈ raw.toList, 0x20 ≤ c.toNat) ∧
      (Value.text raw).isStorable ∧ ∀ r : Row, r.headers = raw → rowHeaders r = (e.headers, [])) ∧
    ∀ order start clock before now,
      let found := (answerAll setClock clock ⟨Table.empty order start⟩ before).2
      let reply := Outbox.persist found now e
      ((∃ id, reply.result = .ok id) ↔ e.Storable) ∧
      ∀ id, reply.result = .ok id → ∀ clock' after now' limit,
        let stored := writeHeaders id raw reply.store.database
        let later := (answerAll setClock clock' ⟨stored⟩ after).2
        ∃ events, (Outbox.claimNew later now' limit).result = .ok events ∧
          (∀ event ∈ events, event.id = id → event.headers = e.headers) ∧
          (id ∈ lowestIds later.database.rows (limitValue limit).toNat →
            ∃ event ∈ events, event.id = id) := by
  intro raw
  have visible (c : Char) (here : c ∈ raw.toList) : 0x20 ≤ c.toNat :=
    HeaderBlob.le_of_mem_written here
  have storable : (Value.text raw).isStorable :=
    isStorable_text.2 fun here => absurd (visible _ here) (by decide)
  have reads (r : Row) (column : r.headers = raw) : rowHeaders r = (e.headers, []) := by
    rw [rowHeaders, column, HeaderBlob.decode?_written perm]
  refine ⟨HeaderBlob.encode_eq _, ⟨HeaderBlob.object_written entries, visible, storable, reads⟩, ?_⟩
  intro order start clock before now found reply
  have bounded : Bounded found.database :=
    answerAll_keeps (P := Bounded) (fun _ _ => id) (fun _ _ => bounded_of_extends)
      (fun _ here => absurd here List.not_mem_nil) clock before
  refine ⟨⟨?_, fun fields => ⟨_, insertAsPart_eq_ok_iff.2 ⟨fields, rfl⟩⟩⟩, ?_⟩
  · rintro ⟨id, persisted⟩
    exact (insertAsPart_eq_ok_iff.1 persisted).1
  · intro id persisted clock' after now' limit stored later
    obtain ⟨fields, rfl⟩ := insertAsPart_eq_ok_iff.1 persisted
    have stores : Stores _ e.headers later.database :=
      answerAll_keeps (P := Stores _ e.headers) (fun _ _ => id) (fun _ _ => stores_of_extends)
        (stores_insert bounded fields perm) clock' after
    exact claimNew_of_stores stores limit

def oddHeaders : Headers := .ofList [("a\"b\\\n", "\x00\x1f"), ("naïve", "😀"), ("", "")]

/-- One client writes the entries backwards, and another one claims their row. -/
theorem headers_come_back_of_oddHeaders :
    let e : NewEvent := ⟨"Order", "order-1", "OrderPlaced", "p", oddHeaders⟩
    let raw := HeaderBlob.written e.headers.entries.reverse
    let stored := writeHeaders 1 raw (insert (Table.empty .backwards ⟨0⟩) e).2
    e.headers.entries.reverse.Perm e.headers.entries ∧
      ∃ events, (Outbox.claimNew (SqlStore.mk stored) ⟨0⟩ 25).result = .ok events ∧
        ∃ event ∈ events, event.id = 1 ∧ event.headers = oddHeaders := by
  intro e raw stored
  have perm : e.headers.entries.reverse.Perm e.headers.entries := List.reverse_perm _
  refine ⟨perm, ?_⟩
  obtain ⟨-, -, trips⟩ := headers_come_back e perm
  obtain ⟨-, trip⟩ := trips .backwards ⟨0⟩ .steady [] ⟨0⟩
  have storable : e.Storable := by decide
  have persisted : (insertAsPart (Table.empty .backwards ⟨0⟩) e).1 = .ok 1 :=
    insertAsPart_eq_ok_iff.2 ⟨storable, rfl⟩
  obtain ⟨events, claimed, same, taken⟩ := trip 1 persisted .steady [] ⟨0⟩ 25
  have rows : stored.rows = [{ insertedRow 1 ⟨0⟩ e with headers := raw }] := by
    unfold stored writeHeaders
    rw [insert_spec (isStorable_insertValues storable)]
    rfl
  have new : newIds stored.rows = [1] := by rw [rows]; rfl
  have low : (1 : Int) ∈ lowestIds stored.rows (limitValue 25).toNat := by
    rw [lowestIds, new, List.mergeSort_singleton]
    decide
  obtain ⟨event, member, id⟩ := taken low
  exact ⟨events, claimed, event, member, id, same event member id⟩

end OutboxRelay.SqlStore
