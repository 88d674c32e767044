import OutboxRelay.Proofs.Url.Percent
import OutboxRelay.Url

/-! Pairs written as a query come back from it, whatever they hold: no separator occurs in what is
written for a text, and each byte is read back from what is written for it. Pairs behind a query
come behind the pairs of that query. -/

namespace OutboxRelay.Url.Form

open Text

/-! ### Texts -/

theorem upperHexDigit_separates_nothing :
    ∀ n < 16, upperHexDigit n ≠ '&' ∧ upperHexDigit n ≠ '=' ∧ upperHexDigit n ≠ '+' := by decide

theorem encodeByte_cases (b : UInt8) :
    (∃ c, encodeByte b = [c] ∧ utf8Char c = [b] ∧ c ≠ '&' ∧ c ≠ '=' ∧ c ≠ '+' ∧ c ≠ '%') ∨
      (encodeByte b = ['+'] ∧ b = 0x20) ∨ encodeByte b = escapeByte b := by
  rw [encodeByte]
  split
  · rename_i plain
    simp only [isPlain, Bool.and_eq_true, decide_eq_true_eq, UInt8.lt_iff_toNat_lt] at plain
    obtain ⟨ascii, shown⟩ := plain
    refine .inl ⟨Char.ofNat b.toNat, rfl, utf8Char_ofNat_of_lt ascii, ?_, ?_, ?_, ?_⟩
    all_goals
      intro h
      rw [h] at shown
      exact absurd shown (by decide)
  · split
    · rename_i space
      exact .inr (.inl ⟨rfl, space⟩)
    · exact .inr (.inr rfl)

theorem not_separator_of_mem_encodeText {s : String} :
    ∀ c ∈ encodeText s, c ≠ '&' ∧ c ≠ '=' := by
  intro c member
  obtain ⟨b, -, member⟩ := List.mem_flatMap.1 member
  rcases encodeByte_cases b with ⟨d, written, -, and, equals, -⟩ | ⟨written, -⟩ | written
  · rw [written, List.mem_singleton] at member
    exact member ▸ ⟨and, equals⟩
  · rw [written, List.mem_singleton] at member
    exact member ▸ ⟨by decide, by decide⟩
  · rw [written] at member
    refine forall_mem_escapeByte (P := fun c => c ≠ '&' ∧ c ≠ '=') (by decide)
      (fun n small => ?_) c member
    obtain ⟨and, equals, -⟩ := upperHexDigit_separates_nothing n small
    exact ⟨and, equals⟩

def plusAsSpace (cs : List Char) : List Char := cs.map fun c => if c = '+' then ' ' else c

theorem unescape_plusAsSpace_encodeByte (b : UInt8) (cs : List Char) :
    unescape (plusAsSpace (encodeByte b) ++ cs) = b :: unescape cs := by
  rcases encodeByte_cases b with ⟨c, written, bytes, -, -, plus, percent⟩ | ⟨written, rfl⟩ | written
  · rw [written, plusAsSpace, List.map_singleton, if_neg plus, List.singleton_append,
      unescape_cons percent, bytes]
    rfl
  · rw [written]
    exact unescape_cons (by decide) cs
  · have same : plusAsSpace (escapeByte b) = escapeByte b := by
      refine List.map_congr_left (g := id) ?_ |>.trans (List.map_id _)
      refine forall_mem_escapeByte (by decide) fun n small => ?_
      exact if_neg (upperHexDigit_separates_nothing n small).2.2
    rw [written, same, unescape_escapeByte]

theorem decodeText_encodeText (s : String) : decodeText (encodeText s) = s := by
  have bytes (bs : Bytes) : unescape (plusAsSpace (bs.flatMap encodeByte)) = bs := by
    induction bs with
    | nil => rfl
    | cons b rest ih =>
      rw [List.flatMap_cons, plusAsSpace, List.map_append]
      exact (unescape_plusAsSpace_encodeByte b _).trans (congrArg (b :: ·) ih)
  calc decodeText (encodeText s)
      = textOfUtf8 (unescape (plusAsSpace ((utf8 s).flatMap encodeByte))) := rfl
    _ = s := by rw [bytes, textOfUtf8_utf8]

/-! ### Pairs -/

theorem encodePair_ne_nil (p : String × String) : encodePair p ≠ [] := by
  simp [encodePair]

theorem and_not_mem_encodePair (p : String × String) :
    ∀ c ∈ encodePair p, decide (c = '&') = false := by
  intro c member
  rw [decide_eq_false_iff_not]
  rcases List.mem_append.1 member with name | value
  · exact (not_separator_of_mem_encodeText c name).1
  · rcases List.mem_cons.1 value with rfl | value
    · decide
    · exact (not_separator_of_mem_encodeText c value).1

theorem decodePair_encodePair (p : String × String) : decodePair (encodePair p) = p := by
  have name : ∀ c ∈ encodeText p.1, decide (c ≠ '=') = true := fun c member =>
    decide_eq_true (not_separator_of_mem_encodeText c member).2
  rw [decodePair, encodePair, List.takeWhile_append_of_pos name, List.dropWhile_append_of_pos name]
  simp [decodeText_encodeText]

/-! ### Queries -/

@[simp] theorem decode_nil : decode [] = [] := rfl

theorem decode_append_and (before after : List Char) :
    decode (before ++ '&' :: after) = decode before ++ decode after := by
  rw [decode, splitAt, pieces_append_separator (decide_eq_true rfl), List.filter_append,
    List.map_append]
  rfl

theorem decode_encodePair (p : String × String) : decode (encodePair p) = [p] := by
  rw [decode, splitAt, pieces_of_not_separator (and_not_mem_encodePair p)]
  simp [encodePair_ne_nil, decodePair_encodePair]

theorem decode_encode (pairs : List (String × String)) : decode (encode pairs) = pairs := by
  induction pairs with
  | nil => rfl
  | cons p rest ih =>
    match rest with
    | [] => exact (congrArg decode (List.append_nil _)).trans (decode_encodePair p)
    | q :: rest =>
      calc decode (encode (p :: q :: rest))
          = decode (encodePair p ++ '&' :: encode (q :: rest)) := rfl
        _ = p :: q :: rest := by rw [decode_append_and, decode_encodePair, ih]; rfl

end Form

theorem decode_withPairs (u : Url) (pairs : List (String × String)) :
    Form.decode ((u.withPairs pairs).query.getD []) = Form.decode (u.query.getD []) ++ pairs := by
  simp only [withPairs, Option.getD_some]
  split
  · rename_i empty
    rcases empty with empty | rfl
    · rw [empty, List.nil_append, List.nil_append, Form.decode_encode, Form.decode_nil,
        List.nil_append]
    · rw [List.append_nil, Form.encode, List.map_nil, List.intercalate_nil, List.append_nil,
        List.append_nil]
  · rw [List.append_assoc, List.singleton_append, Form.decode_append_and, Form.decode_encode]

end OutboxRelay.Url
