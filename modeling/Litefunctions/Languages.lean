import Litefunctions.SubjectPatterns

/-!
# Languages of functions

The portal accepts functions in five languages.  Everywhere else a language is
the text that the portal stored.
-/

namespace Litefunctions

/-- The languages of functions. -/
inductive Language
  | python
  | go
  | rust
  | ts
  | lua
  deriving DecidableEq, Repr

namespace Language

/-- The language as the portal stores it and the Function object carries it. -/
def tag : Language → String
  | python => "python"
  | go => "go"
  | rust => "rust"
  | ts => "ts"
  | lua => "lua"

def all : List Language := [python, go, rust, ts, lua]

/-- The extension of the files of a language. -/
def ext : Language → String
  | python => ".py"
  | go => ".go"
  | rust => ".rs"
  | ts => ".ts"
  | lua => ".lua"

/-- Lookup in the portal's table `langExt`; an unknown language has the empty
extension. -/
def langExt (language : String) : String :=
  match all.find? (fun known => known.tag == language) with
  | some known => known.ext
  | none => ""

/-- The portal accepts exactly the five languages. -/
theorem langExt_ne_empty_iff (text : String) :
    langExt text ≠ "" ↔ ∃ language : Language, language.tag = text := by
  constructor
  · intro accepted
    unfold langExt at accepted
    cases found : all.find? (fun known => known.tag == text) with
    | none => simp [found] at accepted
    | some language => exact ⟨language, by simpa using List.find?_some found⟩
  · rintro ⟨language, rfl⟩
    cases language <;> decide

theorem tag_isToken (language : Language) : Subject.IsToken language.tag := by
  cases language <;> decide

end Language

end Litefunctions
