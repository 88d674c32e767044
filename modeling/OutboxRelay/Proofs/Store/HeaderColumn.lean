import OutboxRelay.Proofs.Store.HeaderReader

/-! The column that holds an event's headers: in whatever order the entries are written there, they
are an object of texts, they are read back as they were, and the column holds no character that a
text column refuses. -/

namespace OutboxRelay

open Text

/-! ### Characters -/

theorem forall_control {P : Char → Prop} (each : ∀ n < 0x20, P (Char.ofNat n)) (c : Char)
    (control : c.toNat < 0x20) : P c :=
  Char.ofNat_toNat c ▸ each c.toNat control

theorem jsonChar_cases (c : Char) (visible : ¬ c.toNat < 0x20) :
    (c = '"' ∨ c = '\\') ∧ jsonChar c = ['\\', c] ∨
      c ≠ '"' ∧ c ≠ '\\' ∧ jsonChar c = [c] := by
  by_cases quote : c = '"'
  · exact .inl ⟨.inl quote, by subst quote; rfl⟩
  · by_cases backslash : c = '\\'
    · exact .inl ⟨.inr backslash, by subst backslash; rfl⟩
    · have named {n : Nat} (low : n < 0x20) : c.toNat ≠ n := by omega
      exact .inr ⟨quote, backslash, by simp [jsonChar, quote, backslash, named, visible]⟩

theorem le_of_mem_jsonChar {c x : Char} (member : x ∈ jsonChar c) : 0x20 ≤ x.toNat := by
  by_cases control : c.toNat < 0x20
  · have each : ∀ n < 0x20, (jsonChar (Char.ofNat n)).all (0x20 ≤ ·.toNat) = true := by decide
    have all := forall_control (P := fun c => (jsonChar c).all (0x20 ≤ ·.toNat) = true) each c control
    exact of_decide_eq_true (List.all_eq_true.1 all x member)
  · rcases jsonChar_cases c control with ⟨-, written⟩ | ⟨-, -, written⟩
    · rw [written] at member
      rcases List.mem_cons.1 member with rfl | member
      · decide
      · cases List.mem_singleton.1 member
        exact Nat.le_of_not_lt control
    · rw [written] at member
      cases List.mem_singleton.1 member
      exact Nat.le_of_not_lt control

namespace HeaderBlob

theorem textSteps_jsonChar (c : Char) : textSteps .plain (jsonChar c) = some (.plain, [c]) := by
  by_cases control : c.toNat < 0x20
  · have each : ∀ n < 0x20, textSteps .plain (jsonChar (Char.ofNat n)) =
        some (.plain, [Char.ofNat n]) := by decide
    exact forall_control (P := fun c => textSteps .plain (jsonChar c) = some (.plain, [c])) each c
      control
  · rcases jsonChar_cases c control with ⟨rfl | rfl, _⟩ | ⟨no_quote, no_backslash, written⟩
    · decide
    · decide
    · rw [written]
      simp [textSteps, textStep, no_quote, no_backslash, control]

theorem textSteps_flatMap_jsonChar (cs : List Char) :
    textSteps .plain (cs.flatMap jsonChar) = some (.plain, cs) := by
  induction cs with
  | nil => rfl
  | cons c cs ih =>
    rw [List.flatMap_cons, textSteps_append, textSteps_jsonChar, Option.bind_some, ih]
    rfl

/-! ### The written object -/

theorem quoted_jsonText (s : String) : Quoted (jsonText s) s := by
  have quoted := Quoted.mk (spelled_of_textSteps (textSteps_flatMap_jsonChar s.toList))
  rwa [String.ofList_toList] at quoted

def member (entry : String × String) : List Char :=
  jsonText entry.1 ++ ':' :: jsonText entry.2

theorem member_member (entry : String × String) : Member (member entry) entry :=
  .mk (quoted_jsonText entry.1) isSpaces_nil isSpaces_nil (quoted_jsonText entry.2)

/-- The column with the entries in the order in which they come. -/
def written (entries : List (String × String)) : String :=
  String.ofList (jsonObject (entries.map fun (key, value) => (key, jsonText value)))

theorem encode_eq (h : Headers) : encode h = written h.entries := rfl

theorem toList_written (entries : List (String × String)) : (written entries).toList =
    Char.ofNat 0x7B :: (List.intercalate [','] (entries.map member) ++ [Char.ofNat 0x7D]) := by
  unfold written jsonObject
  rw [String.toList_ofList, List.map_map]
  rfl

theorem intercalate_comma (first : List Char) (rest : List (List Char)) :
    List.intercalate [','] (first :: rest) = first ++ rest.flatMap (',' :: ·) := by
  induction rest generalizing first with
  | nil => rw [List.intercalate_singleton, List.flatMap_nil, List.append_nil]
  | cons next rest ih =>
    rw [List.intercalate_cons_cons, ih, List.append_assoc, List.flatMap_cons]
    rfl

theorem members_append {cs : List Char} {entries : List (String × String)}
    (members : Members cs entries) (more : List (String × String)) :
    Members (cs ++ (more.map member).flatMap (',' :: ·)) (entries ++ more) := by
  induction more generalizing cs entries with
  | nil =>
    rw [List.map_nil, List.flatMap_nil, List.append_nil, List.append_nil]
    exact members
  | cons entry more ih =>
    have next := ih (members.concat isSpaces_nil isSpaces_nil (member_member entry))
    rw [List.append_assoc, List.append_assoc entries] at next
    exact next

theorem object_written (entries : List (String × String)) :
    Object (written entries).toList entries := by
  rw [toList_written]
  cases entries with
  | nil => exact .empty isSpaces_nil isSpaces_nil isSpaces_nil
  | cons entry more =>
    have members := members_append (.one (member_member entry)) more
    rw [List.map_cons, intercalate_comma]
    exact .members isSpaces_nil isSpaces_nil members isSpaces_nil isSpaces_nil

end HeaderBlob

/-! ### The entries -/

theorem perm_putEntry {key : String} (value : String) {entries : List (String × String)}
    (fresh : key ∉ entries.map (·.1)) :
    (putEntry key value entries).Perm ((key, value) :: entries) := by
  induction entries with
  | nil => exact .refl _
  | cons e rest ih =>
    obtain ⟨other, later⟩ := not_or.1 (mt List.mem_cons.2 fresh)
    simp only [putEntry, if_neg (show ¬ key = e.1 from other)]
    split
    · exact .refl _
    · exact ((ih later).cons e).trans (.swap ..)

theorem Headers.nodup_keys (h : Headers) : (h.entries.map (·.1)).Nodup :=
  List.pairwise_map.2 (h.sorted.imp String.ne_of_lt)

theorem Headers.perm_ofList {entries : List (String × String)}
    (distinct : (entries.map (·.1)).Nodup) : (ofList entries).entries.Perm entries := by
  have each (start : Headers) (rest : List (String × String))
      (distinct : ((rest ++ start.entries).map (·.1)).Nodup) :
      (rest.foldl (fun h e => h.insert e.1 e.2) start).entries.Perm (rest ++ start.entries) := by
    induction rest generalizing start with
    | nil => exact .refl _
    | cons e rest ih =>
      have fresh : e.1 ∉ start.entries.map (·.1) := by
        intro here
        rw [List.cons_append, List.map_cons, List.map_append] at distinct
        exact (List.nodup_cons.1 distinct).1 (List.mem_append_right _ here)
      have added : (rest ++ (start.insert e.1 e.2).entries).Perm (e :: (rest ++ start.entries)) :=
        ((perm_putEntry e.2 fresh).append_left rest).trans List.perm_middle
      exact (ih _ ((added.map _).nodup_iff.2 distinct)).trans added
  have whole := each empty entries
  rw [show empty.entries = [] from rfl, List.append_nil] at whole
  exact whole distinct

theorem Headers.ofList_of_perm {entries : List (String × String)} {h : Headers}
    (perm : entries.Perm h.entries) : ofList entries = h := by
  have distinct : (entries.map (·.1)).Nodup := (perm.map _).nodup_iff.2 h.nodup_keys
  have same : (ofList entries).entries = h.entries :=
    List.Perm.eq_of_pairwise (fun a b _ _ ab ba => absurd (String.lt_trans ab ba) (String.lt_irrefl _))
      (ofList entries).sorted h.sorted ((perm_ofList distinct).trans perm)
  cases h
  cases eq : ofList entries
  rw [eq] at same
  cases same
  rfl

namespace HeaderBlob

theorem decode?_written {entries : List (String × String)} {h : Headers}
    (perm : entries.Perm h.entries) : decode? (written entries) = some h := by
  have holds := Holds.object (object_written entries)
  rw [Headers.ofList_of_perm perm] at holds
  exact decode?_eq_some_iff.2 holds

theorem decode?_encode (h : Headers) : decode? (encode h) = some h := decode?_written (.refl _)

example : encode (.ofList [("tenant", "a\"b\n")]) = "\x7b\"tenant\":\"a\\\"b\\n\"\x7d" := by
  decide

theorem le_of_mem_member {entry : String × String} {x : Char} (here : x ∈ member entry) :
    0x20 ≤ x.toNat := by
  have text {s : String} (here : x ∈ jsonText s) : 0x20 ≤ x.toNat := by
    rcases List.mem_cons.1 here with rfl | here
    · decide
    · rcases List.mem_append.1 here with here | here
      · obtain ⟨c, _, here⟩ := List.mem_flatMap.1 here
        exact le_of_mem_jsonChar here
      · cases List.mem_singleton.1 here
        decide
  rcases List.mem_append.1 here with here | here
  · exact text here
  · rcases List.mem_cons.1 here with rfl | here
    · decide
    · exact text here

theorem mem_intercalate {x : Char} {sep : List Char} {parts : List (List Char)}
    (here : x ∈ List.intercalate sep parts) : x ∈ sep ∨ ∃ part ∈ parts, x ∈ part := by
  induction parts with
  | nil => cases here
  | cons part rest ih =>
    cases rest with
    | nil =>
      rw [List.intercalate_singleton] at here
      exact .inr ⟨part, List.mem_cons_self, here⟩
    | cons next rest =>
      rw [List.intercalate_cons_cons, List.append_assoc] at here
      rcases List.mem_append.1 here with here | here
      · exact .inr ⟨part, List.mem_cons_self, here⟩
      · rcases List.mem_append.1 here with here | here
        · exact .inl here
        · refine (ih here).imp_right fun ⟨part, member, here⟩ => ?_
          exact ⟨part, List.mem_cons_of_mem _ member, here⟩

theorem le_of_mem_written {entries : List (String × String)} {x : Char}
    (here : x ∈ (written entries).toList) : 0x20 ≤ x.toNat := by
  rw [toList_written] at here
  rcases List.mem_cons.1 here with rfl | here
  · decide
  · rcases List.mem_append.1 here with here | here
    · rcases mem_intercalate here with here | ⟨part, written, here⟩
      · cases List.mem_singleton.1 here
        decide
      · obtain ⟨entry, _, rfl⟩ := List.mem_map.1 written
        exact le_of_mem_member here
    · cases List.mem_singleton.1 here
      decide

theorem le_of_mem_encode {h : Headers} {x : Char} (here : x ∈ (encode h).toList) :
    0x20 ≤ x.toNat :=
  le_of_mem_written here

end HeaderBlob

end OutboxRelay
