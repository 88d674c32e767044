import OutboxRelay.Broker.ActiveMq
import OutboxRelay.Proofs.Url.Form
import OutboxRelay.Proofs.Url.Reading

/-! What a message says about itself in the query of its URL. The query holds the pairs that the
configured address brings along, then the kind of the message, its correlation id and its
properties in any order, and all of them come back from it. They share their names, though: which
pair says what is plain only as long as no property is called like one of the other two. -/

namespace OutboxRelay

/-! ### Entries by their keys -/

namespace Headers

theorem filter_eq_lookup {entries : List (String × String)} (sorted : entries.Pairwise (·.1 < ·.1))
    (key : String) :
    entries.filter (·.1 = key) = ((entries.lookup key).map ((key, ·))).toList := by
  induction entries with
  | nil => rfl
  | cons e rest ih =>
    obtain ⟨first, sorted⟩ := List.pairwise_cons.1 sorted
    rw [lookup_cons_eq]
    by_cases same : e.1 = key
    · have none : rest.filter (·.1 = key) = [] := List.filter_eq_nil_iff.2 fun p member again =>
        String.lt_irrefl _ ((of_decide_eq_true again).trans same.symm ▸ first p member)
      rw [List.filter_cons, if_pos (decide_eq_true same), none, if_pos same.symm, ← same]
      rfl
    · rw [List.filter_cons, if_neg (by simpa using same), if_neg (Ne.symm same), ih sorted]

theorem filter_of_perm {h : Headers} {entries : List (String × String)}
    (perm : entries.Perm h.entries) (key : String) :
    entries.filter (·.1 = key) = ((h.get? key).map ((key, ·))).toList := by
  have kept := perm.filter (·.1 = key)
  rw [filter_eq_lookup h.sorted] at kept
  unfold get?
  generalize h.entries.lookup key = found at kept ⊢
  cases found with
  | none => exact List.perm_nil.1 kept
  | some value => exact List.perm_singleton.1 kept

theorem get?_of_mem {h : Headers} {p : String × String} (member : p ∈ h.entries) :
    h.get? p.1 = some p.2 := by
  have kept : p ∈ h.entries.filter (·.1 = p.1) := List.mem_filter.2 ⟨member, decide_eq_true rfl⟩
  rw [filter_of_perm (.refl _), Option.mem_toList] at kept
  obtain ⟨value, found, same⟩ := Option.map_eq_some_iff.1 kept
  rw [found, ← same]

end Headers

namespace ActiveMq

open Url

/-- The pairs of a query say of what kind a message is, which correlation id it has and which
properties, each once, and they say nothing else. -/
structure Conveys (m : JmsMessage) (pairs : List (String × String)) : Prop where
  kind : pairs.filter (·.1 = "type") = [("type", "queue")]
  correlationId : pairs.filter (·.1 = correlationParameter) =
    (m.correlationId.map ((correlationParameter, ·))).toList
  property : ∀ p ∈ m.properties.entries, pairs.filter (·.1 = p.1) = [p]
  nothingElse : ∀ p ∈ pairs, p.1 = "type" ∨ p.1 = correlationParameter ∨ p ∈ m.properties.entries

/-- The pairs that the configured address brings along. -/
def ownPairs (c : ActiveMq) (destination : String) : List (String × String) :=
  match Url.parse (c.endpoint destination) with
  | .ok url => Form.decode (url.query.getD [])
  | .error _ => []

variable {c : ActiveMq} {m : JmsMessage} {properties : List (String × String)}

/-! ### Pairs of a message -/

theorem filter_parametersIn (perm : properties.Perm m.properties.entries) (name : String) :
    (parametersIn m properties).filter (·.1 = name) =
      (if name = "type" then [("type", "queue")] else []) ++
        ((if name = correlationParameter then
          (m.correlationId.map ((correlationParameter, ·))).toList else []) ++
          ((m.properties.get? name).map ((name, ·))).toList) := by
  have correlationId : ((m.correlationId.map ((correlationParameter, ·))).toList).filter
      (·.1 = name) = if name = correlationParameter then
        (m.correlationId.map ((correlationParameter, ·))).toList else [] := by
    cases m.correlationId with
    | none => simp
    | some id => by_cases same : name = correlationParameter <;> simp [same, eq_comm]
  have kind : [("type", "queue")].filter (·.1 = name) =
      if name = "type" then [("type", "queue")] else [] := by
    by_cases same : name = "type" <;> simp [same, eq_comm]
  rw [parametersIn, ← List.singleton_append, List.filter_append, List.filter_append, kind,
    correlationId, Headers.filter_of_perm perm]

theorem conveys_parametersIn (perm : properties.Perm m.properties.entries)
    (noType : m.properties.get? "type" = none)
    (noCorrelationId : m.properties.get? correlationParameter = none) :
    Conveys m (parametersIn m properties) := by
  refine ⟨?_, ?_, fun p member => ?_, fun p member => ?_⟩
  · rw [filter_parametersIn perm, if_pos rfl, if_neg (by decide), noType]
    rfl
  · rw [filter_parametersIn perm, if_neg (by decide), if_pos rfl, noCorrelationId]
    exact List.append_nil _
  · have valued := Headers.get?_of_mem member
    have other {name : String} (none : m.properties.get? name = Option.none) : p.1 ≠ name :=
      fun named => by rw [← named, valued] at none; cases none
    rw [filter_parametersIn perm, if_neg (other noType), if_neg (other noCorrelationId), valued]
    rfl
  · rcases List.mem_cons.1 member with rfl | member
    · exact .inl rfl
    · rcases List.mem_append.1 member with correlation | member
      · obtain ⟨id, -, rfl⟩ := Option.map_eq_some_iff.1 (Option.mem_toList.1 correlation)
        exact .inr (.inl rfl)
      · exact .inr (.inr (perm.mem_iff.1 member))

theorem eq_nil_beside {before told after : List (String × String)}
    (alone : before ++ (told ++ after) = told) : before = [] ∧ after = [] := by
  have length := congrArg List.length alone
  rw [List.length_append, List.length_append] at length
  exact ⟨List.eq_nil_of_length_eq_zero (by omega), List.eq_nil_of_length_eq_zero (by omega)⟩

theorem eq_nil_of_conveys {own : List (String × String)}
    (perm : properties.Perm m.properties.entries)
    (conveys : Conveys m (own ++ parametersIn m properties)) :
    own = [] ∧ m.properties.get? "type" = none ∧
      m.properties.get? correlationParameter = none := by
  obtain ⟨kind, correlationId, property, nothingElse⟩ := conveys
  have unnamed {name : String} (empty : ((m.properties.get? name).map ((name, ·))).toList = []) :
      m.properties.get? name = none :=
    Option.map_eq_none_iff.1 (Option.toList_eq_nil_iff.1 empty)
  rw [List.filter_append, filter_parametersIn perm, if_pos rfl, if_neg (by decide),
    List.nil_append] at kind
  rw [List.filter_append, filter_parametersIn perm, if_neg (by decide), if_pos rfl,
    List.nil_append] at correlationId
  obtain ⟨noKind, noType⟩ := eq_nil_beside kind
  obtain ⟨noId, noCorrelationId⟩ := eq_nil_beside correlationId
  refine ⟨List.eq_nil_iff_forall_not_mem.2 fun p member => ?_, unnamed noType,
    unnamed noCorrelationId⟩
  have absent {name : String} (none : own.filter (·.1 = name) = []) (named : p.1 = name) : False :=
    List.filter_eq_nil_iff.1 none p member (decide_eq_true named)
  rcases nothingElse p (List.mem_append_left _ member) with named | named | isProperty
  · exact absent noKind named
  · exact absent noId named
  · have once := property p isProperty
    rw [List.filter_append, filter_parametersIn perm, Headers.get?_of_mem isProperty,
      ← List.append_assoc, ← List.append_assoc] at once
    -- the property itself stands last among the pairs of its name
    have before := List.append_left_eq_self.1 once
    exact absent (List.append_eq_nil_iff.1 (List.append_eq_nil_iff.1 before).1).1 rfl

/-! ### The query -/

theorem decode_query {url : Url} (ok : c.urlIn m properties = .ok url) :
    Form.decode (url.query.getD []) = c.ownPairs m.destination ++ parametersIn m properties := by
  unfold urlIn at ok
  unfold ownPairs
  cases parsed : Url.parse (c.endpoint m.destination) with
  | ok u =>
    rw [parsed] at ok
    rw [← Except.ok.inj ok]
    exact decode_withPairs u _
  | error e =>
    rw [parsed] at ok
    cases ok

theorem ownPairs_eq_nil {destination : String}
    (none : '?' ∉ (c.endpoint destination).toList) : c.ownPairs destination = [] := by
  unfold ownPairs
  split
  · rename_i ok
    rw [query_of_parse ok none]
    rfl
  · rfl

/-- In whatever order its properties are written, a message is conveyed exactly if none of them has a
name that its kind or its correlation id goes by, and the configured address brings no pair, as none
without a question mark does. -/
theorem conveys_iff (perm : properties.Perm m.properties.entries) {url : Url}
    (ok : c.urlIn m properties = .ok url) :
    (Conveys m (Form.decode (url.query.getD [])) ↔ c.ownPairs m.destination = [] ∧
      m.properties.get? "type" = none ∧ m.properties.get? correlationParameter = none) ∧
    ('?' ∉ (c.endpoint m.destination).toList → c.ownPairs m.destination = []) := by
  rw [decode_query ok]
  refine ⟨⟨eq_nil_of_conveys perm, ?_⟩, ownPairs_eq_nil⟩
  rintro ⟨noPairs, noType, noCorrelationId⟩
  rw [noPairs]
  exact conveys_parametersIn perm noType noCorrelationId

def localBroker : ActiveMq := ⟨"http://localhost:8161", "admin", "admin"⟩

def orderMessage (properties : Headers) : JmsMessage :=
  ⟨"orders", some "c1", "\x7b\x7d", properties⟩

def ordersUrl (query : String) : Url :=
  ⟨"http", [], [], some (.named "localhost".toList), some 8161,
    .segments ["api".toList, "message".toList, "orders".toList], some query.toList, none⟩

def twoProperties : Headers := (Headers.empty.insert "source" "shop").insert "tier" "gold"

theorem conveys_iff_of_source :
    let m := orderMessage twoProperties
    let properties := [("tier", "gold"), ("source", "shop")]
    let url := ordersUrl "type=queue&JMSCorrelationID=c1&tier=gold&source=shop"
    properties.Perm m.properties.entries ∧ localBroker.urlIn m properties = .ok url ∧
      Conveys m (Form.decode (url.query.getD [])) := by
  have perm : [("tier", "gold"), ("source", "shop")].Perm twoProperties.entries := .swap ..
  have ok : localBroker.urlIn (orderMessage twoProperties) [("tier", "gold"), ("source", "shop")] =
      .ok (ordersUrl "type=queue&JMSCorrelationID=c1&tier=gold&source=shop") := rfl
  obtain ⟨conveyed, noPairs⟩ := conveys_iff perm ok
  exact ⟨perm, ok, conveyed.2 ⟨noPairs (by decide), by decide, by decide⟩⟩

/-- A property may well be called `type`: then there are two pairs of that name. -/
theorem kind_told_twice :
    let m := orderMessage (Headers.empty.insert "type" "queue")
    let url := ordersUrl "type=queue&JMSCorrelationID=c1&type=queue"
    localBroker.urlOf m = .ok url ∧ ¬ Conveys m (Form.decode (url.query.getD [])) :=
  ⟨rfl, fun conveys => absurd conveys.kind (by decide +kernel)⟩

end ActiveMq

end OutboxRelay
