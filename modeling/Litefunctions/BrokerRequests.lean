import Litefunctions.HexText
import Litefunctions.SubjectPatterns

/-!
# Requests and replies of the ingestor's broker package

The ingestor splits the URL path of a request into project and function name
and publishes the body under a subject that also carries the language of the
Function object and a fresh request id.  The same four texts name the subject
on which it waits for results.
-/

namespace Litefunctions

open SeparatedText

/-- A message of the broker. -/
structure Msg where
  subject : String
  data : Bytes
  deriving DecidableEq, Repr

namespace Ingestor

/-- The two halves of a request path, both empty when the path has another
shape.  A first segment `sse` or `ws` after `lambda` is skipped. -/
def parsePath (path : String) : String × String :=
  let trimmed := trim '/' path
  if trimmed = "" then
    ("", "")
  else
    let parts := pieces '/' trimmed
    if parts.length < 3 ∨ parts.getD 0 "" ≠ "lambda" then
      ("", "")
    else
      let idx := if parts.getD 1 "" = "sse" ∨ parts.getD 1 "" = "ws" then 2 else 1
      if parts.length ≤ idx + 1 then
        ("", "")
      else
        (parts.getD idx "", parts.getD (idx + 1) "")

/-- What the ingestor remembers of a request that it handed to the broker. -/
structure Req where
  project : String
  name : String
  lang : String
  reqId : String
  deriving DecidableEq, Repr

def letterBytes : List Char :=
  "abcdefghijklmnopqrstuvwxyzABCDEFGHIJKLMNOPQRSTUVWXYZ0123456789".toList

theorem letterBytes_pos : 0 < letterBytes.length := by
  decide

/-- A random text over `letterBytes`; `draws` are the results of
`rand.Intn(len(letterBytes))`. -/
def randString (draws : List (Fin letterBytes.length)) : String :=
  String.ofList (draws.map letterBytes.get)

/-- The request and the message of `Submit`.  The id is `randString 8`, drawn
by the caller. -/
def submit (path : String) (body : Bytes) (lang reqID : String) : Req × Msg :=
  let (project, name) := parsePath path
  (⟨project, name, lang, reqID⟩,
    ⟨s!"{project}.{name}.exec.{lang}.{reqID}", body⟩)

/-- The request of `Produce`, and the message that its reader publishes for
every message of the client. -/
def produce (path lang reqID : String) : Req × (Bytes → Msg) :=
  let (project, name) := parsePath path
  (⟨project, name, lang, reqID⟩,
    fun msg => ⟨s!"{project}.{name}.exec.{lang}.{reqID}", msg⟩)

/-- The subject that `Reply` subscribes to. -/
def replySubject (req : Req) : String :=
  s!"{req.project}.{req.name}.res.{req.lang}.{req.reqId}"

/-- The subject that `Subscribe` subscribes to. -/
def subscribeSubject (req : Req) : String :=
  s!"{req.project}.{req.name}.res.{req.lang}.{req.reqId}"

theorem randString_isToken {draws : List (Fin letterBytes.length)}
    (nonempty : draws ≠ []) : Subject.IsToken (randString draws) := by
  have letters : ∀ index : Fin letterBytes.length, letterBytes.get index ≠ '.' ∧
      letterBytes.get index ≠ '*' ∧ letterBytes.get index ≠ '>' ∧
      (letterBytes.get index).isWhitespace = false := by
    decide
  constructor
  · simpa [randString, String.ext_iff] using nonempty
  · intro char member
    obtain ⟨draw, -, rfl⟩ : ∃ draw ∈ draws, letterBytes.get draw = char := by
      simpa [randString] using member
    exact letters draw

theorem randString_reqID_isToken (draws : Fin 8 → Fin letterBytes.length) :
    Subject.IsToken (randString (List.ofFn draws)) :=
  randString_isToken (by simp)

/-- The tokens of a subject of the broker protocol. -/
theorem tokens_subject (project name kind lang last : String) :
    Subject.tokens
        (project ++ "." ++ name ++ "." ++ kind ++ "." ++ lang ++ "." ++ last) =
      Subject.tokens project ++ Subject.tokens name ++
        (Subject.tokens kind ++ Subject.tokens lang ++ Subject.tokens last) := by
  have cut : ∀ first second : String, pieces '.' (first ++ "." ++ second) =
      pieces '.' first ++ pieces '.' second := pieces_append '.'
  simp only [Subject.tokens, cut, List.append_assoc]

end Ingestor

end Litefunctions
