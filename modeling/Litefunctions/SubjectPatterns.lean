import Litefunctions.SeparatedText

/-!
# Subjects and subscription patterns

A subject is a text whose tokens stand between dots.  A subscription pattern
is a subject in which the token `*` stands for exactly one token and a final
`>` for one or more.  This file defines matching and decides it on subjects
of single tokens, which is how publishers and subscribers write them.
-/

namespace Litefunctions

namespace Subject

open SeparatedText

/-- The tokens of a subject: the pieces between its dots. -/
abbrev tokens (subject : String) : List String :=
  pieces '.' subject

/-- A single literal token: non-empty, without dot, wildcard or blank. -/
def IsToken (text : String) : Prop :=
  text ≠ "" ∧ ∀ char ∈ text.toList,
    char ≠ '.' ∧ char ≠ '*' ∧ char ≠ '>' ∧ char.isWhitespace = false

instance (text : String) : Decidable (IsToken text) :=
  haveI := List.decidableBAll (fun char => char ≠ '.' ∧ char ≠ '*' ∧ char ≠ '>' ∧
    char.isWhitespace = false) text.toList
  inferInstanceAs (Decidable (_ ∧ _))

theorem IsToken.dotless {text : String} (token : IsToken text) :
    '.' ∉ text.toList :=
  fun member => (token.2 '.' member).1 rfl

theorem IsToken.tokens_eq {text : String} (token : IsToken text) :
    tokens text = [text] :=
  pieces_eq_singleton token.dotless

theorem IsToken.ne_star {text : String} (token : IsToken text) :
    text ≠ "*" := by
  rintro rfl
  exact (token.2 '*' (by decide)).2.1 rfl

theorem IsToken.ne_rest {text : String} (token : IsToken text) :
    text ≠ ">" := by
  rintro rfl
  exact (token.2 '>' (by decide)).2.2.1 rfl

/-- Token-wise matching of a pattern against a subject. -/
def matchTokens : List String → List String → Bool
  | [], [] => true
  | pattern :: patterns, token :: rest =>
      (pattern == ">" && patterns.isEmpty) ||
        ((pattern == "*" || pattern == token) && matchTokens patterns rest)
  | _, _ => false

/-- Whether a message on `subject` belongs to a subscription to `pattern`. -/
def matchesPattern (pattern subject : String) : Bool :=
  matchTokens (tokens pattern) (tokens subject)

theorem matchTokens_literal {pattern : String} (token : IsToken pattern)
    (patterns : List String) (first : String) (rest : List String) :
    matchTokens (pattern :: patterns) (first :: rest) =
      (pattern == first && matchTokens patterns rest) := by
  have notRest : (pattern == ">") = false := by simpa using token.ne_rest
  have notStar : (pattern == "*") = false := by simpa using token.ne_star
  simp [matchTokens, notRest, notStar]

@[simp]
theorem matchTokens_star (token : String) : matchTokens ["*"] [token] = true := by
  simp [matchTokens]

theorem matchTokens_append (shared patterns tokens : List String) (more : patterns ≠ []) :
    matchTokens (shared ++ patterns) (shared ++ tokens) = matchTokens patterns tokens := by
  induction shared with
  | nil => rfl
  | cons token shared ih => simp [matchTokens, ih, more]

/-- Without a final `>` a pattern has as many tokens as the subject. -/
theorem matchTokens_length {patterns tokens : List String}
    (matched : matchTokens patterns tokens = true) (closed : patterns.getLast? ≠ some ">") :
    patterns.length = tokens.length := by
  induction patterns generalizing tokens with
  | nil =>
      cases tokens with
      | nil => rfl
      | cons token tokens => cases matched
  | cons pattern patterns ih =>
      cases tokens with
      | nil => cases matched
      | cons token tokens =>
          simp only [matchTokens, Bool.or_eq_true, Bool.and_eq_true, beq_iff_eq,
            List.isEmpty_iff] at matched
          rcases matched with ⟨isRest, isLast⟩ | ⟨-, matched⟩
          · subst isRest isLast
            exact absurd rfl closed
          · have restClosed : patterns.getLast? ≠ some ">" := by
              cases patterns with
              | nil => simp
              | cons next patterns => rwa [List.getLast?_cons_cons] at closed
            exact congrArg (· + 1) (ih matched restClosed)

/-- Every literal token of a pattern stands in the subject. -/
theorem mem_of_matchTokens {patterns tokens : List String}
    (matched : matchTokens patterns tokens = true) {token : String} (member : token ∈ patterns)
    (notStar : token ≠ "*") (notRest : token ≠ ">") : token ∈ tokens := by
  induction patterns generalizing tokens with
  | nil => cases member
  | cons pattern patterns ih =>
      cases tokens with
      | nil => cases matched
      | cons first tokens =>
          simp only [matchTokens, Bool.or_eq_true, Bool.and_eq_true, beq_iff_eq,
            List.isEmpty_iff] at matched
          rcases matched with ⟨rfl, rfl⟩ | ⟨same, matched⟩
          · exact absurd (List.mem_singleton.mp member) notRest
          · rcases List.mem_cons.mp member with rfl | member
            · rcases same with isStar | rfl
              · exact absurd isStar notStar
              · exact List.mem_cons_self
            · exact List.mem_cons_of_mem _ (ih matched member)

/-- A subscription to a subject receives what is published on it. -/
theorem matchesPattern_self (subject : String) : matchesPattern subject subject = true := by
  unfold matchesPattern
  induction tokens subject with
  | nil => rfl
  | cons token tokens ih => simp [matchTokens, ih]

end Subject

end Litefunctions
