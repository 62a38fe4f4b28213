import Litefunctions.RuntimeConsumers

/-!
# Execution subjects of ingestor and runtimes

The ingestor writes the language of the Function object into its subjects,
while every runtime has a tag of its own in its source.  A request reaches its
consumer, and the results their requester, exactly in the languages whose
runtime has the name of the language as its tag.
-/

namespace Litefunctions

open Ingestor Runtimes Subject

namespace Language

/-- The language tag in the subjects of a runtime. -/
def runtimeTag : Language → String
  | python => "py"
  | go => "go"
  | rust => "go"
  | ts => "ts"
  | lua => "lua"

theorem runtimeTag_isToken (language : Language) : IsToken language.runtimeTag := by
  cases language <;> decide

theorem runtimeTag_eq_tag_iff (language : Language) :
    language.runtimeTag = language.tag ↔ language ∈ [go, ts, lua] := by
  cases language <;> decide

end Language

section Matching

variable {project name reqID : String}

theorem tokens_consumer_subject (language : Language) (code : UserCode) :
    tokens (language.consumer project name code).subject =
      tokens project ++ tokens name ++ ["exec", language.runtimeTag, "*"] := by
  have cut := tokens_subject project name "exec" language.runtimeTag "*"
  rw [language.runtimeTag_isToken.tokens_eq] at cut
  rw [show (["exec", language.runtimeTag, "*"] : List String) =
    tokens "exec" ++ [language.runtimeTag] ++ tokens "*" from rfl, ← cut]
  congr 1
  cases language <;>
    simp only [Language.consumer, pythonConsumeFunction, goStartFunction,
      rustStartFunction, tsConsumeFunction, luaConsumeFunction, streamingConsumer,
      String.append_assoc] <;>
    rfl

theorem tokens_exec (idToken : IsToken reqID) (language : Language) :
    tokens s!"{project}.{name}.exec.{language.tag}.{reqID}" =
      tokens project ++ tokens name ++ ["exec", language.tag, reqID] := by
  have cut := tokens_subject project name "exec" language.tag reqID
  rw [language.tag_isToken.tokens_eq, idToken.tokens_eq] at cut
  rw [show (["exec", language.tag, reqID] : List String) =
    tokens "exec" ++ [language.tag] ++ [reqID] from rfl, ← cut]
  congr 1
  simp only [String.append_assoc]
  rfl

/-- A request matches the subscription of its function's runtime exactly when
the two tags agree. -/
theorem consumer_matches_iff (project name : String) (idToken : IsToken reqID)
    (language : Language) (code : UserCode) :
    matchesPattern (language.consumer project name code).subject
        s!"{project}.{name}.exec.{language.tag}.{reqID}" = true ↔
      language.runtimeTag = language.tag := by
  rw [matchesPattern, tokens_consumer_subject, tokens_exec idToken,
    matchTokens_append _ _ _ (List.cons_ne_nil _ _)]
  have execToken : IsToken "exec" := by decide
  simp [matchTokens_literal execToken, matchTokens_literal language.runtimeTag_isToken]

end Matching

section FiveTokens

variable {project name reqID : String} (projectToken : IsToken project)
variable (nameToken : IsToken name) (idToken : IsToken reqID)

include projectToken nameToken idToken

/-- Every runtime recovers the request id and answers under its own tag. -/
theorem consumer_handle_subject (language : Language) (code : UserCode) (data : Bytes) :
    ∀ out ∈ (language.consumer project name code).handle
        ⟨s!"{project}.{name}.exec.{language.tag}.{reqID}", data⟩,
      out.subject = s!"{project}.{name}.res.{language.runtimeTag}.{reqID}" := by
  have cut : tokens s!"{project}.{name}.exec.{language.tag}.{reqID}" =
      [project, name, "exec", language.tag, reqID] := by
    rw [tokens_exec idToken, projectToken.tokens_eq, nameToken.tokens_eq]
    rfl
  have last : lastToken s!"{project}.{name}.exec.{language.tag}.{reqID}" = reqID := by
    simp only [lastToken, cut]
    rfl
  cases language with
  | python =>
      exact streamingConsumer_handle_subject "py" (fun subject => some (lastToken subject))
        (congrArg some last)
  | go =>
      exact streamingConsumer_handle_subject "go" (fun subject => some (lastToken subject))
        (congrArg some last)
  | rust =>
      refine streamingConsumer_handle_subject "go" (fun subject =>
        if lastToken subject = "" then none else some (lastToken subject)) ?_
      simp only [last, if_neg idToken.1]
  | ts =>
      refine streamingConsumer_handle_subject "ts"
        (fun subject => some ((tokens subject).getD 4 "")) ?_
      simp only [cut]
      rfl
  | lua =>
      have recovered : ((tokens s!"{project}.{name}.exec.{Language.lua.tag}.{reqID}").filter
          (· ≠ "")).getD 4 "" = reqID := by
        rw [cut, List.filter_eq_self.mpr]
        · rfl
        · simp [projectToken.1, nameToken.1, idToken.1, Language.tag]
      intro out member
      rw [luaConsumeFunction_handle_subject project name code ⟨_, data⟩ recovered out member]
      simp only [String.append_assoc]
      rfl

end FiveTokens

/-- The request reaches the consumer, and all its outputs are published where
the two waiting functions of the ingestor listen. -/
def Connected (consumer : Consumer) (req : Req) (request : Msg) : Prop :=
  matchesPattern consumer.subject request.subject = true ∧
    ∀ out ∈ consumer.receive request,
      out.subject = replySubject req ∧ out.subject = subscribeSubject req

/-- Requests of a function, submitted or produced, are connected to the
runtime of its language exactly for Go, TypeScript and Lua.  The runtimes of
Python and Rust subscribe under the tags `py` and `go`. -/
theorem connected_iff (path : String) {project name : String} (reqID : String)
    (split : parsePath path = (project, name))
    (projectToken : IsToken project) (nameToken : IsToken name) (idToken : IsToken reqID)
    (language : Language) (code : UserCode) (payload : Bytes) :
    (Connected (language.consumer project name code)
        (submit path payload language.tag reqID).1
        (submit path payload language.tag reqID).2 ∧
      Connected (language.consumer project name code)
        (produce path language.tag reqID).1
        ((produce path language.tag reqID).2 payload)) ↔
      language ∈ [.go, .ts, .lua] := by
  have matched := consumer_matches_iff project name idToken language code
  have handled := consumer_handle_subject projectToken nameToken idToken language code payload
  simp only [submit, produce, split, Connected, matched, and_self,
    ← language.runtimeTag_eq_tag_iff]
  constructor
  · exact And.left
  · intro sameTag
    apply And.intro sameTag
    intro out member
    rw [Consumer.receive, if_pos (matched.mpr sameTag)] at member
    have subject := handled out member
    rw [sameTag] at subject
    exact ⟨subject, subject⟩

/-- A function that answers with its payload. -/
def echoCode : UserCode where
  yields _ payload := [payload]
  invokeLua := .ok

theorem connected_go_request :
    Connected (Language.consumer .go "projone" "one" echoCode)
      (submit "/lambda/projone/one" [123, 125] "go" "aB3dE6gH").1
      (submit "/lambda/projone/one" [123, 125] "go" "aB3dE6gH").2 :=
  ((connected_iff "/lambda/projone/one" "aB3dE6gH" (by decide) (by decide) (by decide)
    (by decide) .go echoCode [123, 125]).mpr (by decide)).1

/-- A submitted request of a Python function has no consumer. -/
theorem python_request_not_connected :
    ¬ Connected (Language.consumer .python "projone" "one" echoCode)
      (submit "/lambda/projone/one" [123, 125] "python" "aB3dE6gH").1
      (submit "/lambda/projone/one" [123, 125] "python" "aB3dE6gH").2 :=
  fun connected => absurd connected.1 (by decide)

end Litefunctions
