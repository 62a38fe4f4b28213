import Mathlib.Data.List.Induction
import Mathlib.Order.Nat

/-!
# Logs of writes

A log has the writes to named places in their order, and a place has what the
last write to it said.  Copies of a place may lag behind it.  A copy that is made
from another one never goes back, as long as the other one is not behind it.
-/

namespace Litefunctions

/-- Writes to places, in their order. -/
abbrev WriteLog (Place Content : Type*) : Type _ := List (Place × Content)

namespace WriteLog

variable {Place Content : Type*} [DecidableEq Place]
variable (initial : Place → Content) (log : WriteLog Place Content)

/-- What the places have after the writes. -/
def replay : Place → Content :=
  log.foldl (fun contents write => Function.update contents write.1 write.2) initial

/-- What a place has after the first `count` writes. -/
def after (count : Nat) (place : Place) : Content :=
  replay initial (log.take count) place

variable {initial log} {more : WriteLog Place Content} {place : Place} {content : Content}
variable {count since : Nat}

@[simp]
theorem replay_nil : replay initial [] = initial :=
  rfl

@[simp]
theorem replay_snoc (write : Place × Content) :
    replay initial (log ++ [write]) = Function.update (replay initial log) write.1 write.2 := by
  simp [replay]

/-- Writes to other places. -/
theorem replay_append_of_notMem (unwritten : ∀ content, (place, content) ∉ more) :
    replay initial (log ++ more) place = replay initial log place := by
  induction more using List.reverseRecOn with
  | nil => rw [List.append_nil]
  | append_singleton more write ih =>
      have other : place ≠ write.1 := by
        rintro rfl
        exact unwritten write.2 (List.mem_append_right _ List.mem_cons_self)
      rw [← List.append_assoc, replay_snoc, Function.update_of_ne other]
      exact ih fun content member => unwritten content (List.mem_append_left _ member)

/-- Writes to distinct places. -/
theorem replay_append_of_mem (distinct : (more.map Prod.fst).Nodup) (member : (place, content) ∈ more) :
    replay initial (log ++ more) place = content := by
  induction more using List.reverseRecOn with
  | nil => cases member
  | append_singleton more write ih =>
      rw [List.map_append, List.nodup_append] at distinct
      rw [← List.append_assoc, replay_snoc]
      rcases List.mem_append.mp member with old | last
      · have other : place ≠ write.1 :=
          distinct.2.2 place (List.mem_map_of_mem (f := Prod.fst) old) write.1 List.mem_cons_self
        rw [Function.update_of_ne other]
        exact ih distinct.1 old
      · obtain rfl := List.mem_singleton.mp last
        exact Function.update_self _ _ _

@[simp]
theorem after_zero : after initial log 0 place = initial place := by
  simp [after]

@[simp]
theorem after_length : after initial log log.length place = replay initial log place := by
  simp [after]

theorem after_append (within : count ≤ log.length) :
    after initial (log ++ more) count place = after initial log count place := by
  rw [after, after, List.take_append_of_le_length within]

variable (initial log place) in
/-- A place has what it had at an earlier time, or what a later write said. -/
theorem after_eq_or_written (later : since ≤ count) :
    after initial log count place = after initial log since place ∨
      (place, after initial log count place) ∈ (log.take count).drop since := by
  induction count, later using Nat.le_induction with
  | base => exact .inl rfl
  | succ count later ih =>
      cases isNext : log[count]? with
      | none =>
          have same : log.take (count + 1) = log.take count := by
            simp [List.take_add_one, isNext]
          rw [after, same]
          exact ih
      | some write =>
          have taken : log.take (count + 1) = log.take count ++ [write] := by
            simp [List.take_add_one, isNext]
          have long : since ≤ (log.take count).length := by
            have bound := (List.getElem?_eq_some_iff.mp isNext).1
            rw [List.length_take]
            omega
          have dropped : (log.take (count + 1)).drop since = (log.take count).drop since ++ [write] := by
            rw [taken, List.drop_append_of_le_length long]
          rw [dropped]
          by_cases isPlace : place = write.1
          · right
            apply List.mem_append_right
            rw [after, taken, replay_snoc, isPlace, Function.update_self]
            exact List.mem_singleton_self _
          · have same : after initial log (count + 1) place = after initial log count place := by
              rw [after, taken, replay_snoc, Function.update_of_ne isPlace]
              rfl
            rw [same]
            exact ih.imp id (List.mem_append_left _)

variable (initial log more place) in
/-- A place has what the first writes made of it, or what a later write said. -/
theorem after_append_eq_or_mem (later : log.length ≤ count) :
    after initial (log ++ more) count place = replay initial log place ∨
      (place, after initial (log ++ more) count place) ∈ more := by
  rcases after_eq_or_written initial (log ++ more) place later with same | member
  · left
    rw [same, after_append le_rfl]
    exact after_length
  · right
    rw [List.drop_take, List.drop_left] at member
    exact List.mem_of_mem_take member

/-! ### Copies -/

/-- These are copies of the place, the one that lags most first, and none is
behind the first `since` writes. -/
def Copies (initial : Place → Content) (log : WriteLog Place Content) (place : Place) :
    Nat → List Content → Prop
  | since, [] => since ≤ log.length
  | since, copy :: copies =>
      ∃ count, since ≤ count ∧ copy = after initial log count place ∧ Copies initial log place count copies

variable {copies rest : List Content} {copy : Content}

theorem Copies.le_length (isCopies : Copies initial log place since copies) : since ≤ log.length := by
  induction copies generalizing since with
  | nil => exact isCopies
  | cons copy copies ih =>
      obtain ⟨count, later, -, rest⟩ := isCopies
      exact later.trans (ih rest)

theorem Copies.mono {earlier : Nat} (isCopies : Copies initial log place since copies)
    (isEarlier : earlier ≤ since) : Copies initial log place earlier copies := by
  cases copies with
  | nil => exact isEarlier.trans isCopies
  | cons copy copies =>
      obtain ⟨count, later, isCopy, rest⟩ := isCopies
      exact ⟨count, isEarlier.trans later, isCopy, rest⟩

/-- Further writes leave the copies as they are. -/
theorem Copies.append (isCopies : Copies initial log place since copies)
    (more : WriteLog Place Content) : Copies initial (log ++ more) place since copies := by
  induction copies generalizing since with
  | nil => exact isCopies.trans (by simp)
  | cons copy copies ih =>
      obtain ⟨count, later, isCopy, rest⟩ := isCopies
      refine ⟨count, later, ?_, ih rest⟩
      rw [isCopy, after_append rest.le_length]

/-- The first copy is made anew from the second one. -/
theorem Copies.advance {fresher : Content}
    (isCopies : Copies initial log place since (copy :: fresher :: copies)) :
    Copies initial log place since (fresher :: fresher :: copies) := by
  obtain ⟨first, later, -, second, between, isFresher, rest⟩ := isCopies
  exact ⟨second, later.trans between, isFresher, second, le_rfl, isFresher, rest⟩

/-- The last copy is made anew from the place. -/
theorem Copies.refresh (isCopies : Copies initial log place since (copies ++ [copy])) :
    Copies initial log place since (copies ++ [replay initial log place]) := by
  induction copies generalizing since with
  | nil => exact ⟨log.length, isCopies.le_length, after_length.symm, le_rfl⟩
  | cons first copies ih =>
      obtain ⟨count, later, isCopy, rest⟩ := isCopies
      exact ⟨count, later, isCopy, ih rest⟩

/-- Copies that are all up to date. -/
theorem copies_replicate (count : Nat) :
    Copies initial log place log.length (List.replicate count (replay initial log place)) := by
  induction count with
  | zero => exact le_rfl
  | succ count ih => exact ⟨log.length, le_rfl, after_length.symm, ih⟩

end WriteLog

end Litefunctions
