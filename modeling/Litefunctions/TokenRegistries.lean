import Mathlib.Data.List.Induction
import Mathlib.Logic.Function.Basic

/-!
# Registries of tokens

A registry knows for what each token stands.  Tokens are issued and revoked;
what a token stands for is decided by the last event that concerns it.
-/

namespace Litefunctions

/-- What happens to a registry. -/
inductive TokenEvent (Token Grant : Type*) where
  | nothing
  | issue (token : Token) (grant : Grant)
  | revoke (token : Token)

/-- What a token stands for, if it is valid. -/
abbrev TokenRegistry (Token Grant : Type*) : Type _ := Token → Option Grant

namespace TokenEvent

variable {Token Grant : Type*} {event : TokenEvent Token Grant}
variable {events : List (TokenEvent Token Grant)} {token : Token} {grant : Grant}

/-- The event issues or revokes the token. -/
def Concerns (token : Token) : TokenEvent Token Grant → Prop
  | nothing => False
  | issue other _ => other = token
  | revoke other => other = token

/-- The last event that concerns the token issued it for the grant. -/
def LastIssued (events : List (TokenEvent Token Grant)) (token : Token) (grant : Grant) : Prop :=
  ∃ early late, events = early ++ issue token grant :: late ∧ ∀ event ∈ late, ¬ event.Concerns token

theorem not_lastIssued_nil : ¬ LastIssued [] token grant := by
  rintro ⟨early, late, split, -⟩
  exact absurd split.symm (List.append_ne_nil_of_right_ne_nil early (List.cons_ne_nil _ late))

theorem lastIssued_snoc_iff : LastIssued (events ++ [event]) token grant ↔
    event = issue token grant ∨ ¬ event.Concerns token ∧ LastIssued events token grant := by
  constructor
  · rintro ⟨early, late, split, later⟩
    induction late using List.reverseRecOn with
    | nil =>
        obtain ⟨-, isEvent⟩ := List.append_inj' split rfl
        exact .inl (List.singleton_inj.mp isEvent)
    | append_singleton late last _ =>
        rw [← List.cons_append, ← List.append_assoc] at split
        obtain ⟨isEvents, isEvent⟩ := List.append_inj' split rfl
        obtain rfl := List.singleton_inj.mp isEvent
        refine .inr ⟨later event (List.mem_append_right _ List.mem_cons_self), early, late, isEvents, ?_⟩
        exact fun other member => later other (List.mem_append_left _ member)
  · rintro (rfl | ⟨unconcerned, early, late, rfl, later⟩)
    · exact ⟨events, [], rfl, by simp⟩
    · refine ⟨early, late ++ [event], by simp, fun other member => ?_⟩
      rcases List.mem_append.mp member with old | last
      · exact later other old
      · rw [List.mem_singleton.mp last]
        exact unconcerned

/-! ### Their effects -/

variable [DecidableEq Token]

def apply : TokenEvent Token Grant → TokenRegistry Token Grant → TokenRegistry Token Grant
  | nothing, registry => registry
  | issue token grant, registry => Function.update registry token (some grant)
  | revoke token, registry => Function.update registry token none

variable {registry : TokenRegistry Token Grant}

theorem apply_of_not_concerns (unconcerned : ¬ event.Concerns token) :
    event.apply registry token = registry token := by
  cases event with
  | nothing => rfl
  | issue other _ => exact Function.update_of_ne (fun same => unconcerned same.symm) _ _
  | revoke other => exact Function.update_of_ne (fun same => unconcerned same.symm) _ _

theorem apply_eq_some_iff : event.apply registry token = some grant ↔
    event = issue token grant ∨ ¬ event.Concerns token ∧ registry token = some grant := by
  by_cases concerned : event.Concerns token
  · cases event with
    | nothing => cases concerned
    | issue other issued =>
        obtain rfl : other = token := concerned
        simp [apply, Concerns]
    | revoke other =>
        obtain rfl : other = token := concerned
        simp [apply, Concerns]
  · rw [apply_of_not_concerns concerned]
    have other : event ≠ issue token grant := by
      rintro rfl
      exact concerned rfl
    simp [concerned, other]

/-- The registry after some events. -/
def after (registry : TokenRegistry Token Grant) (events : List (TokenEvent Token Grant)) :
    TokenRegistry Token Grant :=
  events.foldl (fun registry event => event.apply registry) registry

theorem after_snoc : after registry (events ++ [event]) = event.apply (after registry events) := by
  rw [after, List.foldl_append]
  rfl

/-- From an empty registry on, the last event that concerns a token decides. -/
theorem after_eq_some_iff :
    after (fun _ => none) events token = some grant ↔ LastIssued events token grant := by
  induction events using List.reverseRecOn with
  | nil => exact iff_of_false nofun not_lastIssued_nil
  | append_singleton events event ih => rw [after_snoc, apply_eq_some_iff, lastIssued_snoc_iff, ih]

end TokenEvent

end Litefunctions
