import Mathlib.Data.List.Induction
import OutboxRelay.Dispatch.Relay

/-! The part of a dispatcher's record that belongs to one event, from some point of the record on.
Calls keep their numbers, because a call that ends is found by its number. What is written down for
one event leaves the records of all others as they are. -/

namespace OutboxRelay

/-- Calls for an event, with their numbers, from call `base` on. -/
def ownCalls (base : Nat) (event : Int) (calls : List Call) : List (Call × Nat) :=
  calls.zipIdx.filter fun x => base ≤ x.2 && x.1.event = event

def ownAttempts (base : Nat) (event : Int) (attempts : List AttemptRecord) :
    List AttemptRecord := (attempts.drop base).filter (·.event = event)

section Calls

variable {base number : Nat} {event : Int} {calls : List Call} {c : Call}

theorem mem_ownCalls : (c, number) ∈ ownCalls base event calls ↔
    calls[number]? = some c ∧ base ≤ number ∧ c.event = event := by
  simp [ownCalls, List.mem_zipIdx_iff_getElem?]

theorem ownCalls_numbers_nodup (base : Nat) (event : Int) (calls : List Call) :
    ((ownCalls base event calls).map (·.2)).Nodup := by
  have part : ((ownCalls base event calls).map (·.2)).Sublist (calls.zipIdx.map (·.2)) :=
    List.Sublist.map _ List.filter_sublist
  refine part.nodup ?_
  rw [List.zipIdx_map_snd]
  exact List.nodup_range'

theorem ownCalls_append_same (h : base ≤ calls.length) (same : c.event = event) :
    ownCalls base event (calls ++ [c]) = ownCalls base event calls ++ [(c, calls.length)] := by
  unfold ownCalls
  rw [List.zipIdx_append, List.filter_append]
  simp [h, same]

theorem ownCalls_append_other (other : c.event ≠ event) :
    ownCalls base event (calls ++ [c]) = ownCalls base event calls := by
  unfold ownCalls
  rw [List.zipIdx_append, List.filter_append]
  simp [other]

theorem zipIdx_modify (calls : List Call) (number : Nat) (f : Call → Call) :
    (calls.modify number f).zipIdx =
      calls.zipIdx.map fun x => if x.2 = number then (f x.1, x.2) else x := by
  apply List.ext_getElem?
  intro i
  rw [List.getElem?_zipIdx, List.getElem?_modify, List.getElem?_map, List.getElem?_zipIdx]
  cases calls[i]? with
  | none => rfl
  | some c =>
    by_cases here : i = number
    · simp [here]
    · simp [here, Ne.symm here]

theorem ownCalls_modify {f : Call → Call} (keep : ∀ c, (f c).event = c.event) :
    ownCalls base event (calls.modify number f) =
      (ownCalls base event calls).map fun x => if x.2 = number then (f x.1, x.2) else x := by
  unfold ownCalls
  rw [zipIdx_modify, List.filter_map]
  congr 1
  apply List.filter_congr
  intro x _
  by_cases here : x.2 = number <;> simp [here, keep]

theorem ownCalls_modify_other {f : Call → Call} (keep : ∀ c, (f c).event = c.event)
    (other : ∀ c, calls[number]? = some c → c.event ≠ event) :
    ownCalls base event (calls.modify number f) = ownCalls base event calls := by
  rw [ownCalls_modify keep]
  refine (List.map_congr_left ?_).trans (List.map_id _)
  intro ⟨c, i⟩ mem
  obtain ⟨get, _, own⟩ := mem_ownCalls.1 mem
  have elsewhere : i ≠ number := fun here => other c (here ▸ get) own
  simp [elsewhere]

theorem ownCalls_modify_last {f : Call → Call} {log : List (Call × Nat)}
    (keep : ∀ c, (f c).event = c.event) (h : ownCalls base event calls = log ++ [(c, number)]) :
    ownCalls base event (calls.modify number f) = log ++ [(f c, number)] := by
  have nodup := ownCalls_numbers_nodup base event calls
  rw [h, List.map_append, List.nodup_append] at nodup
  have earlier : ∀ x ∈ log, x.2 ≠ number := fun x hx =>
    nodup.2.2 x.2 (List.mem_map_of_mem hx) number (by simp)
  have unchanged : log.map (fun x => if x.2 = number then (f x.1, x.2) else x) = log := by
    refine (List.map_congr_left ?_).trans (List.map_id _)
    intro x hx
    simp [earlier x hx]
  rw [ownCalls_modify keep, h, List.map_append, unchanged]
  simp

theorem ownCalls_map_fst (base : Nat) (event : Int) (calls : List Call) :
    (ownCalls base event calls).map (·.1) = (calls.drop base).filter (·.event = event) := by
  unfold ownCalls
  induction calls using List.reverseRecOn with
  | nil => simp
  | append_singleton calls c ih =>
    rw [List.zipIdx_append, List.filter_append, List.map_append, ih]
    by_cases h : base ≤ calls.length
    · rw [List.drop_append_of_le_length h, List.filter_append]
      by_cases own : c.event = event <;> simp [h, own]
    · have old : (calls ++ [c]).drop base = [] := List.drop_eq_nil_of_le (by simp; omega)
      have older : calls.drop base = [] := List.drop_eq_nil_of_le (by omega)
      simp [h, old, older]

end Calls

section Attempts

variable {base : Nat} {event : Int} {attempts : List AttemptRecord} {r : AttemptRecord}

theorem ownAttempts_append_same (h : base ≤ attempts.length) (same : r.event = event) :
    ownAttempts base event (attempts ++ [r]) = ownAttempts base event attempts ++ [r] := by
  unfold ownAttempts
  rw [List.drop_append_of_le_length h, List.filter_append]
  simp [same]

theorem ownAttempts_append_other (h : base ≤ attempts.length) (other : r.event ≠ event) :
    ownAttempts base event (attempts ++ [r]) = ownAttempts base event attempts := by
  unfold ownAttempts
  rw [List.drop_append_of_le_length h, List.filter_append]
  simp [other]

end Attempts

end OutboxRelay
