import Mathlib.Data.List.Chain
import Mathlib.Data.List.Nodup
import OutboxRelay.Proofs.Broker.FailedLetter
import OutboxRelay.Proofs.DeadLetter.KafkaGuard
import OutboxRelay.Settings

/-! Where Kafka records go that fail, in a service that is set up from an environment. Publisher and
guard agree on the topic, and each failure makes its name longer, so that no record comes back to a
topic it failed in. All of this rests on a suffix that is not empty, which nothing sees to. -/

namespace OutboxRelay

open Text

/-! ### One failure -/

/-- A record of `topic` may be set aside to the topic `aside`. -/
def KafkaGuard.SetsAside (g : KafkaGuard) (topic aside : String) : Prop :=
  ∃ (client : KafkaRecord → Except PublishError Receipt)
    (handler : ReceivedRecord → Unit → Handling × Unit) (r : ReceivedRecord),
    r.topic = topic ∧ ∃ sent ∈ (g.handle client handler r ()).sent, sent.1.topic = aside

/-- After a letter to `topic` another one may go to `aside`. -/
def Publisher.Copies (publisher : Publisher) (topic aside : String) : Prop :=
  ∃ (payload : String) (headers : Headers)
    (client : List Letter → Letter → Except PublishError Receipt) (past : List Letter)
    (ids : IdSource), ∃ sent ∈
      (Posting.exchange ⟨⟨topic, publisher⟩, payload, headers⟩ client past ids).sent.tail,
      sent.1.destination = aside

namespace KafkaGuard

theorem sent_handle_eq_nil_or {σ : Type} (g : KafkaGuard)
    (client : KafkaRecord → Except PublishError Receipt)
    (handler : ReceivedRecord → σ → Handling × σ) (r : ReceivedRecord) (state : σ) :
    (g.handle client handler r state).sent = [] ∨
      ∃ failure after, g.handle client handler r state = g.setAside client r failure after := by
  unfold handle
  split
  · exact .inr ⟨.forced, state, rfl⟩
  · dsimp only
    split
    · exact .inl rfl
    · exact .inr ⟨_, _, rfl⟩

theorem setsAside_iff (g : KafkaGuard) (topic aside : String) :
    g.SetsAside topic aside ↔ aside = topic ++ g.suffix := by
  constructor
  · rintro ⟨client, handler, r, rfl, sent, member, rfl⟩
    rcases g.sent_handle_eq_nil_or client handler r () with none | ⟨failure, after, same⟩
    · rw [none] at member
      cases member
    · obtain ⟨copy, whole, one, -⟩ := g.setAside_spec client r failure after
      rw [same, one, List.mem_singleton] at member
      rw [member]
      exact whole.topic
  · rintro rfl
    let r : ReceivedRecord := ⟨⟨topic, none, none, .empty⟩, 0, 0⟩
    exact ⟨fun _ => .ok ⟨0, 0⟩, fun _ _ => (.failed .forced, ()), r, rfl, _,
      List.mem_singleton_self _, rfl⟩

end KafkaGuard

theorem Publisher.copies_iff (suffix topic aside : String) :
    (kafka suffix).Copies topic aside ↔ aside = topic ++ suffix := by
  constructor
  · rintro ⟨payload, headers, client, past, ids, sent, member, rfl⟩
    let p : Posting := ⟨⟨topic, kafka suffix⟩, payload, headers⟩
    cases answer : client past (.kafka p.record) with
    | ok receipt =>
      rw [Posting.exchange_of_ok (p := p) rfl answer] at member
      cases member
    | error e =>
      rw [Posting.exchange_of_error (p := p) rfl answer] at member
      have member := List.mem_singleton.1 member
      rw [member]
      rfl
  · rintro rfl
    exact ⟨"", .empty, fun _ _ => .error (.unavailable "kafka" "down"), [], ⟨fun _ => .ofNat 0, 0⟩,
      _, List.mem_singleton_self _, rfl⟩

/-! ### Failure after failure -/

namespace KafkaGuard

variable {g : KafkaGuard}

theorem length_lt_of_setsAside (named : g.suffix ≠ "") {topic aside : String}
    (h : g.SetsAside topic aside) : topic.length < aside.length := by
  have some_letter : g.suffix.length ≠ 0 := fun none => named (String.length_eq_zero_iff.1 none)
  rw [(g.setsAside_iff topic aside).1 h, String.length_append]
  omega

theorem nodup_of_isChain (named : g.suffix ≠ "") {topics : List String}
    (chain : topics.IsChain g.SetsAside) : topics.Nodup := by
  have longer : (topics.map String.length).IsChain (· < ·) :=
    (List.isChain_map _).2 (chain.imp fun _ _ => length_lt_of_setsAside named)
  exact List.Nodup.of_map String.length (longer.pairwise.imp Nat.ne_of_lt)

end KafkaGuard

namespace Settings

theorem kafkaDeadLetterSuffix_of_environment {kafkaClient : Bool} {env : Environment}
    {s : Settings} {journal : Journal}
    (built : fromEnvironment kafkaClient env = .ok (s, journal)) :
    s.kafkaDeadLetterSuffix = (env "KAFKA_DLQ_SUFFIX").getD "-dlq" := by
  unfold fromEnvironment at built
  cases database : env.require "DATABASE_URL" with
  | error e => rw [database] at built; cases built
  | ok url =>
    rw [database] at built
    have whole : (ofBuild kafkaClient env url).run [] = (s, journal) := Except.ok.inj built
    calc s.kafkaDeadLetterSuffix
        = ((ofBuild kafkaClient env url).run []).1.kafkaDeadLetterSuffix := by rw [whole]
      _ = (env "KAFKA_DLQ_SUFFIX").getD "-dlq" := rfl

theorem suffix_of_mem_targets {s : Settings} {kafkaProducer : Bool} {target : Target}
    {suffix : String} (member : target ∈ s.targets kafkaProducer)
    (kafka : target.publisher = .kafka suffix) : suffix = s.kafkaDeadLetterSuffix := by
  rcases List.mem_append.1 member with first | second
  · rw [List.eq_of_mem_singleton (List.mem_ite_nil_right.1 first).2] at kafka
    cases kafka
    rfl
  · rw [List.eq_of_mem_singleton (List.mem_ite_nil_right.1 second).2] at kafka
    cases kafka

/-- What fails in one topic is set aside to the same topic by publisher and guard. That topic is
another one, and a record that fails there again and again is never back where it was, unless the
suffix is set to the empty text. -/
theorem setsAside_elsewhere_iff {kafkaClient : Bool} {env : Environment} {s : Settings}
    {journal : Journal} (built : fromEnvironment kafkaClient env = .ok (s, journal)) :
    (∀ target ∈ s.targets true, ∀ suffix, target.publisher = .kafka suffix →
      ∀ topic aside, target.publisher.Copies topic aside ↔ s.kafkaGuard.SetsAside topic aside) ∧
    ((∀ topic aside, s.kafkaGuard.SetsAside topic aside → aside ≠ topic) ↔
      env "KAFKA_DLQ_SUFFIX" ≠ some "") ∧
    ((∀ topics : List String, topics.IsChain s.kafkaGuard.SetsAside → topics.Nodup) ↔
      env "KAFKA_DLQ_SUFFIX" ≠ some "") := by
  have suffix := kafkaDeadLetterSuffix_of_environment built
  have named_iff : s.kafkaGuard.suffix ≠ "" ↔ env "KAFKA_DLQ_SUFFIX" ≠ some "" := by
    rw [kafkaGuard, suffix]
    cases env "KAFKA_DLQ_SUFFIX" with
    | none => simp
    | some value => simp
  have back (unnamed : s.kafkaGuard.suffix = "") (topic : String) :
      s.kafkaGuard.SetsAside topic topic :=
    (s.kafkaGuard.setsAside_iff topic topic).2 (by rw [unnamed, String.append_empty])
  refine ⟨fun target member suffix kafka topic aside => ?_, ?_, ?_⟩
  · rw [kafka, Publisher.copies_iff, KafkaGuard.setsAside_iff, suffix_of_mem_targets member kafka]
    rfl
  · rw [← named_iff]
    refine ⟨fun apart unnamed => apart "" "" (back unnamed "") rfl, ?_⟩
    intro named topic aside h same
    exact absurd (KafkaGuard.length_lt_of_setsAside named h) (by rw [same]; exact Nat.lt_irrefl _)
  · rw [← named_iff]
    refine ⟨fun apart unnamed => ?_, fun named topics => KafkaGuard.nodup_of_isChain named⟩
    have twice := apart ["", ""] (.cons_cons (back unnamed "") (.singleton _))
    exact absurd twice (by decide)

/-! ### Two environments -/

def withSuffix (suffix : String) : Environment
  | "DATABASE_URL" => some "postgres://localhost/herald"
  | "KAFKA_DLQ_SUFFIX" => some suffix
  | _ => none

def ofSuffix (suffix : String) : Settings :=
  ((ofBuild false (withSuffix suffix) "postgres://localhost/herald").run []).1

theorem fromEnvironment_withSuffix (suffix : String) :
    fromEnvironment false (withSuffix suffix) = .ok (ofSuffix suffix, []) := rfl

/-- A blank is a suffix like any other. -/
theorem setsAside_elsewhere_iff_of_blank :
    fromEnvironment false (withSuffix " ") = .ok (ofSuffix " ", []) ∧
      ⟨"outbox.events", .kafka " "⟩ ∈ (ofSuffix " ").targets true ∧
      (Publisher.kafka " ").Copies "orders" "orders " ∧
      ["orders", "orders ", "orders  "].IsChain (ofSuffix " ").kafkaGuard.SetsAside ∧
      ["orders", "orders ", "orders  "].Nodup := by
  have built := fromEnvironment_withSuffix " "
  have step (topic : String) : (ofSuffix " ").kafkaGuard.SetsAside topic (topic ++ " ") :=
    (KafkaGuard.setsAside_iff ..).2 rfl
  have chain : ["orders", "orders ", "orders  "].IsChain (ofSuffix " ").kafkaGuard.SetsAside :=
    .cons_cons (step "orders") (.cons_cons (step "orders ") (.singleton _))
  have member : ⟨"outbox.events", .kafka " "⟩ ∈ (ofSuffix " ").targets true := List.mem_cons_self
  obtain ⟨same, -, apart⟩ := setsAside_elsewhere_iff built
  exact ⟨built, member, (same _ member " " rfl ..).2 (step "orders"), chain,
    apart.2 (by decide) _ chain⟩

/-- With the empty suffix a record is set aside to the topic that it was received from. -/
theorem empty_suffix_leads_back :
    ¬ ∀ (env : Environment) (s : Settings) (journal : Journal),
      fromEnvironment false env = .ok (s, journal) →
      ∀ topic aside, s.kafkaGuard.SetsAside topic aside → aside ≠ topic := by
  intro apart
  exact apart (withSuffix "") (ofSuffix "") [] (fromEnvironment_withSuffix "") "orders" "orders"
    ((KafkaGuard.setsAside_iff ..).2 rfl) rfl

end Settings

end OutboxRelay
