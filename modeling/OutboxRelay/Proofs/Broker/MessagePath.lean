import OutboxRelay.Proofs.Broker.MessageQuery
import OutboxRelay.Proofs.Url.Path

/-! Where a message is posted to. The destination is put behind the configured address as it is,
and the whole is read as a URL: so it stays what it is only as far as no part of it means something
there. What does are the signs that end a path or a segment, blanks at the end, line breaks, escapes
and segments of dots. Destinations without any of these have a path of their own each. -/

namespace OutboxRelay.ActiveMq

open Text Url

/-- A URL leads to the destination of a message below the base: it keeps all that stands before the
path, its path is that of the base, up to a slash at its end, and one segment that stands for the
destination, and the destination brings no pair and no fragment. -/
structure LeadsTo (b : Url) (m : JmsMessage) (url : Url) : Prop where
  scheme : url.scheme = b.scheme
  username : url.username = b.username
  password : url.password = b.password
  host : url.host = b.host
  port : url.port = b.port
  path : ∃ stem segment, (b.path.text = stem ∨ b.path.text = stem ++ ['/']) ∧
    url.path.text = stem ++ "/api/message/".toList ++ segment ∧ '/' ∉ segment ∧
    unescape segment = utf8 m.destination
  query : Form.decode (url.query.getD []) = parameters m
  fragment : url.fragment = none

/-- A base is a URL of the web without query and fragment, and its text ends in neither a slash nor
a blank. -/
structure Base (text : String) (b : Url) : Prop where
  read : Url.parse text = .ok b
  web : b.scheme = "http" ∨ b.scheme = "https"
  query : b.query = none
  fragment : b.fragment = none
  ending : ∀ e ∈ text.toList.getLast?, e ≠ '/' ∧ isTrimmed e = false

variable {c : ActiveMq} {text : String} {b : Url} {slashes : Nat} {m : JmsMessage}

theorem LeadsTo.last_segment {url : Url} (leads : LeadsTo b m url) : ∃ before segment,
    url.path.text = before ++ '/' :: segment ∧ '/' ∉ segment ∧
      unescape segment = utf8 m.destination := by
  obtain ⟨stem, segment, -, path, noSlash, bytes⟩ := leads.path
  exact ⟨stem ++ "/api/message".toList, segment, by rw [path]; simp, noSlash, bytes⟩

theorem Base.exists_port (plain : Base text b) :
    ∃ port, SchemeKind.ofScheme b.scheme = .special port := by
  rcases plain.web with http | https
  · exact ⟨80, by rw [http]; rfl⟩
  · exact ⟨443, by rw [https]; rfl⟩

theorem Base.exists_last (plain : Base text b) : ∃ e, text.toList.getLast? = some e := by
  refine Option.ne_none_iff_exists'.1 fun none => ?_
  have empty : text = "" := String.toList_inj.1 (List.getLast?_eq_none_iff.1 none)
  have read := plain.read
  rw [empty] at read
  cases read

theorem base_eq (ending : ∀ e ∈ text.toList.getLast?, e ≠ '/')
    (written : c.baseUrl.toList = text.toList ++ List.replicate slashes '/') : c.base = text := by
  have slash : ∀ e ∈ List.replicate slashes '/', decide (e = '/') = true := fun e member =>
    decide_eq_true (List.eq_of_mem_replicate member)
  have kept : text.toList.reverse.dropWhile (· = '/') = text.toList.reverse :=
    dropWhile_reverse_eq fun e last => decide_eq_false (ending e last)
  rw [base, written, List.reverse_append, List.reverse_replicate,
    List.dropWhile_append_of_pos slash, kept, List.reverse_reverse, String.ofList_toList]

/-! ### What is read from the destination -/

theorem cleanEnd_endpoint (destination : String) :
    cleanEnd ("api/message/" ++ destination).toList =
      "api/message/".toList ++ cleanEnd destination.toList := by
  have text : ("api/message/" ++ destination).toList =
      "api/message".toList ++ '/' :: destination.toList := by simp
  rw [text, cleanEnd_append_slash]
  rfl

theorem followDots_endpoint (above : List (List Char)) (cs : List Char) :
    followDots above ((pieces isSlash ("api/message/".toList ++ cs)).map (escape Escaped.path)) =
      followDots ("message".toList :: "api".toList :: above)
        ((pieces isSlash cs).map (escape Escaped.path)) := by
  have cut : pieces isSlash ("api/message/".toList ++ cs) =
      ["api".toList, "message".toList] ++ pieces isSlash cs := rfl
  rw [cut, List.map_append, followDots_append _ _ (by simpa using pieces_ne_nil cs)]
  rfl

/-- The destination as it is read: without what is not part of the path. -/
def pathOf (destination : String) : List Char :=
  (cleanEnd destination.toList).takeWhile (!startsTail ·)

section Configured

variable (plain : Base text b)
  (written : c.baseUrl.toList = text.toList ++ List.replicate slashes '/')
include plain written

theorem urlOf_eq (m : JmsMessage) :
    ∃ (port : Nat) (above : List (List Char)),
      (b.path.text = (Path.segments above.reverse).text ∨
        b.path.text = (Path.segments above.reverse).text ++ ['/']) ∧
      c.urlOf m =
        let tail := readTail (.special port)
          ((cleanEnd m.destination.toList).dropWhile (!startsTail ·))
        .ok (Url.withPairs { b with
          path := .segments (followDots ("message".toList :: "api".toList :: above)
            ((pieces isSlash (pathOf m.destination)).map (escape Escaped.path))),
          query := tail.1, fragment := tail.2 } (parameters m)) := by
  obtain ⟨port, special⟩ := plain.exists_port
  obtain ⟨e, last⟩ := plain.exists_last
  obtain ⟨path, first, path_eq, read⟩ := parse_append_slash plain.read special plain.query
    plain.fragment last (plain.ending e last).2 ("api/message/" ++ m.destination)
  obtain ⟨above, stem, longer⟩ := readPath_append_slash port first
    ("api/message/".toList ++ pathOf m.destination)
  have inner : ∀ d ∈ "api/message/".toList, (!startsTail d) = true :=
    List.all_eq_true.1 (by decide)
  have endpoint : c.endpoint m.destination = text ++ "/" ++ ("api/message/" ++ m.destination) := by
    rw [ActiveMq.endpoint, base_eq (fun e last => (plain.ending e last).1) written,
      ← String.toList_inj]
    simp
  refine ⟨port, above, by rw [path_eq]; exact stem, ?_⟩
  dsimp only at read
  rw [cleanEnd_endpoint, List.takeWhile_append_of_pos inner, List.dropWhile_append_of_pos inner,
    ← pathOf, longer, followDots_endpoint] at read
  rw [urlOf, urlIn, endpoint, read]
  rfl

/-! ### Destinations that are a segment of their own -/

theorem leadsTo_of_plain (segment : PlainSegment m.destination.toList) {url : Url}
    (ok : c.urlOf m = .ok url) : LeadsTo b m url := by
  obtain ⟨port, above, stem, same⟩ := urlOf_eq plain written m
  have whole : pathOf m.destination = m.destination.toList := by
    rw [pathOf, segment.cleanEnd_eq, List.takeWhile_eq_self_iff.2 segment.startsNoTail]
  have noTail : (cleanEnd m.destination.toList).dropWhile (!startsTail ·) = [] := by
    rw [segment.cleanEnd_eq, List.dropWhile_eq_nil_iff.2 segment.startsNoTail]
  dsimp only at same
  rw [noTail, readTail_nil, whole, segment.pieces_eq, List.map_singleton, segment.followDots_eq,
    ok] at same
  rw [Except.ok.inj same]
  refine ⟨rfl, rfl, rfl, rfl, rfl, ?_, ?_, rfl⟩
  · refine ⟨(Path.segments above.reverse).text, escape Escaped.path m.destination.toList, stem, ?_,
      slash_not_mem_escape segment.slash_not_mem, segment.unescape_eq⟩
    calc (Path.segments (("message".toList :: "api".toList :: above).reverse ++
            [escape Escaped.path m.destination.toList])).text
        = (Path.segments ("message".toList :: "api".toList :: above).reverse).text ++
            '/' :: escape Escaped.path m.destination.toList := text_append_segment ..
      _ = (Path.segments above.reverse).text ++ "/api/message/".toList ++
            escape Escaped.path m.destination.toList := by simp [Path.text]
  · rw [decode_withPairs]
    rfl

theorem plain_of_leadsTo {url : Url} (ok : c.urlOf m = .ok url) (leads : LeadsTo b m url) :
    PlainSegment m.destination.toList := by
  obtain ⟨port, above, -, same⟩ := urlOf_eq plain written m
  obtain ⟨others, last, read, ends⟩ := exists_last_segment
    ("message".toList :: "api".toList :: above) (pathOf m.destination)
  obtain ⟨before, segment, path, noSlash, bytes⟩ := leads.last_segment
  have path_eq : url.path.text = (Path.segments others).text ++ '/' :: last := by
    rw [ok] at same
    rw [Except.ok.inj same, ← text_append_segment, ← read]
    rfl
  have same_last : last = segment :=
    (eq_of_append_slash ends.slash_not_mem noSlash (path_eq.symm.trans path)).2
  exact .of_last ends (same_last ▸ bytes)

end Configured

theorem LeadsTo.destination_eq {m' : JmsMessage} {url url' : Url} (leads : LeadsTo b m url)
    (leads' : LeadsTo b m' url') (same : url.path = url'.path) :
    m.destination = m'.destination := by
  obtain ⟨before, segment, path, noSlash, bytes⟩ := leads.last_segment
  obtain ⟨before', segment', path', noSlash', bytes'⟩ := leads'.last_segment
  have same_segment : segment = segment' :=
    (eq_of_append_slash noSlash noSlash' (by rw [← path, ← path', same])).2
  rw [← textOfUtf8_utf8 m.destination, textOfUtf8, ← bytes, same_segment, bytes', ← textOfUtf8,
    textOfUtf8_utf8]

/-- Behind a base with any number of slashes there is a URL for every message. It leads to the
destination exactly if that is a plain segment, and such destinations have paths of their own. -/
theorem leadsTo_iff (plain : Base text b)
    (written : c.baseUrl.toList = text.toList ++ List.replicate slashes '/') (m : JmsMessage) :
    ∃ url, c.urlOf m = .ok url ∧ (LeadsTo b m url ↔ PlainSegment m.destination.toList) ∧
      ∀ m' url', c.urlOf m' = .ok url' → PlainSegment m.destination.toList →
        PlainSegment m'.destination.toList → url.path = url'.path →
          m.destination = m'.destination := by
  obtain ⟨port, above, -, same⟩ := urlOf_eq plain written m
  refine ⟨_, same, ⟨plain_of_leadsTo plain written same,
    fun segment => leadsTo_of_plain plain written segment same⟩, ?_⟩
  intro m' url' ok' segment segment' paths
  exact (leadsTo_of_plain plain written segment same).destination_eq
    (leadsTo_of_plain plain written segment' ok') paths

def localBase : Url :=
  ⟨"http", [], [], some (.named "localhost".toList), some 8161, .segments [[]], none, none⟩

theorem localBase_base : Base "http://localhost:8161" localBase where
  read := rfl
  web := .inl rfl
  query := rfl
  fragment := rfl
  ending e last := by
    have last : '1' = e := Option.some.inj last
    subst last
    decide

theorem leadsTo_iff_of_orders :
    let c : ActiveMq := { localBroker with baseUrl := "http://localhost:8161//" }
    let m := orderMessage .empty
    Base "http://localhost:8161" localBase ∧
      c.baseUrl.toList = "http://localhost:8161".toList ++ List.replicate 2 '/' ∧
      ∃ url, c.urlOf m = .ok url ∧ LeadsTo localBase m url ∧
        ∀ url', c.urlOf { m with destination := "invoices" } = .ok url' → url.path ≠ url'.path := by
  intro c m
  have written : c.baseUrl.toList = "http://localhost:8161".toList ++ List.replicate 2 '/' := by
    decide
  have orders : PlainSegment "orders".toList := .of_isAlphanum (List.all_eq_true.1 (by decide))
  have invoices : PlainSegment "invoices".toList := .of_isAlphanum (List.all_eq_true.1 (by decide))
  obtain ⟨url, ok, leads, apart⟩ := leadsTo_iff localBase_base written m
  refine ⟨localBase_base, written, url, ok, leads.2 orders, fun url' ok' same => ?_⟩
  exact absurd (apart _ url' ok' orders invoices same) (by decide)

/-- What follows a question mark does not get into the path. -/
theorem destinations_share_path :
    let m := orderMessage .empty
    let m' := { m with destination := "orders?new" }
    let url := ordersUrl "type=queue&JMSCorrelationID=c1"
    let url' := ordersUrl "new&type=queue&JMSCorrelationID=c1"
    localBroker.urlOf m = .ok url ∧ localBroker.urlOf m' = .ok url' ∧ url.path = url'.path ∧
      m.destination ≠ m'.destination ∧ ¬ LeadsTo localBase m' url' :=
  ⟨rfl, rfl, rfl, by decide, fun leads => absurd leads.query (by decide +kernel)⟩

end OutboxRelay.ActiveMq
