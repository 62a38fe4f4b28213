import Litefunctions.HexText
import Litefunctions.Utf8Text

/-!
# Hooks of the runtimes

A request to a hook names a language and a project, and the ingestor publishes
a message to the runtimes of both.  The router has decoded the two values, so
that each may be any text of bytes.
-/

namespace Litefunctions

namespace Ingestor

open Utf8Text

/-- `unicode.ToLower`.  White space has no case, and is no lower case. -/
structure LowerCase where
  map : Char → Char
  spaces : ∀ char, isSpace (map char) = isSpace char

/-- A request that the router dispatches to `RuntimeHook`, with its path
values. -/
structure HookRequest where
  method : String
  language : Bytes
  project : Bytes
  deriving DecidableEq, Repr

/-- A message with a subject of any bytes. -/
structure HookMessage where
  subject : Bytes
  payload : Bytes
  deriving DecidableEq, Repr

structure HookAnswer where
  status : Nat
  allow : Option String
  text : String
  published : Option HookMessage
  deriving DecidableEq, Repr

/-- `http.Error`. -/
def hookError (status : Nat) (text : String) : HookAnswer :=
  ⟨status, none, text, none⟩

/-- `strings.ContainsAny(text, ".*>")`. -/
def hasMark (text : Bytes) : Bool :=
  text.any fun byte => byte = 46 ∨ byte = 42 ∨ byte = 62

/-- `strings.ToLower(strings.TrimSpace(language))`. -/
def normalized (lower : LowerCase) (language : Bytes) : Bytes :=
  mapRunes lower.map (trimSpace language)

/-- The text between project and language. -/
def hookMiddle : Bytes :=
  encode ".hook.".toList

/-- `RuntimeHook`; `publish` tells whether the broker takes a message, and
`now` is the time as a text. -/
def runtimeHook (lower : LowerCase) (publish : HookMessage → Bool) (now : Bytes)
    (r : HookRequest) : HookAnswer :=
  if r.method ≠ "POST" then
    ⟨405, some "POST", "Method Not Allowed", none⟩
  else
    let language := normalized lower r.language
    if language = [] then hookError 400 "language is required"
    else if hasMark language then hookError 400 "invalid language"
    else if r.project = [] then hookError 400 "project is required"
    else if hasMark r.project then hookError 400 "invalid project"
    else
      let message : HookMessage := ⟨r.project ++ hookMiddle ++ language, now⟩
      if publish message then ⟨202, none, "ok", some message⟩
      else hookError 500 "failed to publish hook"

/-- A literal subject of three tokens, which are a project, `hook` and a
language, without white space. -/
structure IsHookSubject (project language subject : Bytes) : Prop where
  tokens : subject.splitOn 46 = [project, encode "hook".toList, language]
  nonempty : ∀ token ∈ subject.splitOn 46, token ≠ []
  literal : 42 ∉ subject ∧ 62 ∉ subject
  unbroken : 13 ∉ subject ∧ 10 ∉ subject
  unspaced : ∀ char ∈ runes subject, isSpace char = false

/-- No character of the text is white space. -/
def Unspaced (text : Bytes) : Prop :=
  ∀ char ∈ runes text, isSpace char = false

instance decidableUnspaced (text : Bytes) : Decidable (Unspaced text) :=
  List.decidableBAll (fun char => isSpace char = false) (runes text)

/-! ### Accepted requests -/

theorem hasMark_eq_false_iff {text : Bytes} :
    hasMark text = false ↔ 46 ∉ text ∧ 42 ∉ text ∧ 62 ∉ text := by
  rw [hasMark, List.any_eq_false]
  constructor
  · intro plain
    refine ⟨?_, ?_, ?_⟩
    all_goals
      intro member
      exact plain _ member (by decide)
  · rintro ⟨noDot, noStar, noRest⟩ byte member isMark
    rcases of_decide_eq_true isMark with rfl | rfl | rfl
    · exact noDot member
    · exact noStar member
    · exact noRest member

/-- What a request that is accepted has passed. -/
theorem runtimeHook_accepted {lower : LowerCase} {publish : HookMessage → Bool} {now : Bytes}
    {r : HookRequest} (accepted : (runtimeHook lower publish now r).status = 202) :
    (runtimeHook lower publish now r).published =
        some ⟨r.project ++ hookMiddle ++ normalized lower r.language, now⟩ ∧
      (r.project ≠ [] ∧ hasMark r.project = false) ∧
        normalized lower r.language ≠ [] ∧ hasMark (normalized lower r.language) = false := by
  revert accepted
  unfold runtimeHook
  simp only
  split_ifs with method noLanguage markedLanguage noProject markedProject published
  · intro status
    exact absurd status (by decide)
  · intro status
    exact absurd status (by simp [hookError])
  · intro status
    exact absurd status (by simp [hookError])
  · intro status
    exact absurd status (by simp [hookError])
  · intro status
    exact absurd status (by simp [hookError])
  · intro _
    exact ⟨rfl, ⟨noProject, eq_false_of_ne_true markedProject⟩, noLanguage,
      eq_false_of_ne_true markedLanguage⟩
  · intro status
    exact absurd status (by simp [hookError])

theorem splitOn_hookSubject {project language : Bytes} (projectPlain : 46 ∉ project)
    (languagePlain : 46 ∉ language) :
    (project ++ hookMiddle ++ language).splitOn 46 =
      [project, encode "hook".toList, language] := by
  have middle : hookMiddle = 46 :: (encode "hook".toList ++ [46]) := by decide
  have whole : project ++ hookMiddle ++ language =
      project ++ 46 :: (encode "hook".toList ++ 46 :: language) := by
    simp [middle]
  have hook : 46 ∉ encode "hook".toList := by decide
  rw [whole, List.splitOn_append_cons_self, List.splitOn_append_cons_self,
    List.splitOn_eq_singleton projectPlain, List.splitOn_eq_singleton hook,
    List.splitOn_eq_singleton languagePlain]
  rfl

theorem unspaced_normalized_iff (lower : LowerCase) (language : Bytes) :
    Unspaced (normalized lower language) ↔ Unspaced (trimSpace language) := by
  rw [Unspaced, normalized, runes_mapRunes]
  simp only [List.forall_mem_map, lower.spaces]
  rfl

/-- The subject has the white space of project and language. -/
theorem unspaced_hookSubject_iff (project : Bytes) (chars : List Char) :
    Unspaced (project ++ hookMiddle ++ encode chars) ↔
      Unspaced project ∧ Unspaced (encode chars) := by
  have middle : hookMiddle ++ encode chars = encode (".hook.".toList ++ chars) := by
    rw [hookMiddle, encode, encode, encode, List.flatMap_append]
  have ascii : ∀ byte ∈ (encode (".hook.".toList ++ chars)).head?, byte.toNat < 128 := by
    rw [← middle]
    intro byte isFirst
    obtain rfl := Option.some.inj (show some 46 = some byte from isFirst)
    decide
  have plain : ∀ char ∈ ".hook.".toList, isSpace char = false := by
    have noneIsSpace : (".hook.".toList.any isSpace) = false := rfl
    simpa only [List.any_eq_false, Bool.not_eq_true] using noneIsSpace
  rw [List.append_assoc, middle, Unspaced, runes_append ascii, runes_encode, Unspaced, Unspaced,
    runes_encode]
  simp only [List.forall_mem_append]
  constructor
  · rintro ⟨inProject, -, inLanguage⟩
    exact ⟨inProject, inLanguage⟩
  · rintro ⟨inProject, inLanguage⟩
    exact ⟨inProject, plain, inLanguage⟩

theorem notMem_of_unspaced {text : Bytes} (unspaced : Unspaced text) :
    13 ∉ text ∧ 10 ∉ text := by
  constructor
  · intro member
    exact absurd (unspaced _ (mem_runes_of_ascii member (by decide))) (by decide)
  · intro member
    exact absurd (unspaced _ (mem_runes_of_ascii member (by decide))) (by decide)

/-- The subject of an accepted request is a literal one exactly when neither
the project nor, inside the white space around it, the language has white
space. -/
theorem runtimeHook_subject_iff (lower : LowerCase) (publish : HookMessage → Bool) (now : Bytes)
    (r : HookRequest) (accepted : (runtimeHook lower publish now r).status = 202) :
    (∃ message, (runtimeHook lower publish now r).published = some message ∧
        IsHookSubject r.project (normalized lower r.language) message.subject) ↔
      Unspaced r.project ∧ Unspaced (trimSpace r.language) := by
  obtain ⟨published, ⟨hasProject, projectPlain⟩, hasLanguage, languagePlain⟩ :=
    runtimeHook_accepted accepted
  rw [hasMark_eq_false_iff] at projectPlain languagePlain
  have spaces : Unspaced (r.project ++ hookMiddle ++ normalized lower r.language) ↔
      Unspaced r.project ∧ Unspaced (trimSpace r.language) := by
    rw [← unspaced_normalized_iff lower]
    exact unspaced_hookSubject_iff _ _
  rw [← spaces, published]
  constructor
  · rintro ⟨message, isMessage, subject⟩
    obtain rfl := Option.some.inj isMessage
    exact subject.unspaced
  · intro unspaced
    have tokens := splitOn_hookSubject projectPlain.1 languagePlain.1
    have middle : 42 ∉ hookMiddle ∧ 62 ∉ hookMiddle := by decide
    refine ⟨_, rfl, tokens, ?_, ?_, notMem_of_unspaced unspaced, unspaced⟩
    · rw [tokens]
      simp only [List.forall_mem_cons, List.not_mem_nil, false_implies, implies_true, and_true]
      exact ⟨hasProject, by decide, hasLanguage⟩
    · simp only [List.mem_append, not_or]
      exact ⟨⟨⟨projectPlain.2.1, middle.1⟩, languagePlain.2.1⟩,
        ⟨projectPlain.2.2, middle.2⟩, languagePlain.2.2⟩

/-- Lower case of ASCII letters only. -/
def asciiLower : LowerCase where
  map := Char.toLower
  spaces := by
    intro char
    unfold Char.toLower
    split
    · next isUpper =>
        have low : 65 ≤ char.toNat := UInt32.le_iff_toNat_le.mp isUpper.1
        have high : char.toNat ≤ 90 := UInt32.le_iff_toNat_le.mp isUpper.2
        have value : (char.val + ('a'.val - 'A'.val)).toNat = char.toNat + 32 := by
          rw [UInt32.toNat_add]
          change (char.toNat + 32) % 2 ^ 32 = char.toNat + 32
          omega
        have letter : ∀ other : Char, 65 ≤ other.toNat → other.toNat ≤ 122 →
            isSpace other = false := by
          intro other above below
          simp only [isSpace, List.mem_cons, List.not_mem_nil, or_false, decide_eq_false_iff_not]
          omega
        rw [letter char low (by omega)]
        apply letter
        · rw [Char.toNat, value]
          omega
        · rw [Char.toNat, value]
          omega
    · rfl

/-- `POST /hook/%20Python/shop`. -/
def shopHook : HookRequest where
  method := "POST"
  language := encode " Python".toList
  project := encode "shop".toList

theorem shopHook_subject :
    ∃ message, (runtimeHook asciiLower (fun _ => true) [] shopHook).published = some message ∧
      IsHookSubject shopHook.project (normalized asciiLower shopHook.language) message.subject := by
  apply (runtimeHook_subject_iff asciiLower (fun _ => true) [] shopHook (by decide)).mpr
  decide

/-- `POST /hook/python/shop%20x`. -/
def spacedHook : HookRequest where
  method := "POST"
  language := encode "python".toList
  project := encode "shop x".toList

/-- The project of an accepted request can end the subject early. -/
theorem spacedHook_subject :
    (runtimeHook asciiLower (fun _ => true) [] spacedHook).status = 202 ∧
      ¬ ∃ message, (runtimeHook asciiLower (fun _ => true) [] spacedHook).published =
          some message ∧
        IsHookSubject spacedHook.project (normalized asciiLower spacedHook.language)
          message.subject := by
  have published : (runtimeHook asciiLower (fun _ => true) [] spacedHook).published =
      some ⟨encode "shop x.hook.python".toList, []⟩ := by
    decide
  apply And.intro (by decide)
  rintro ⟨message, isMessage, subject⟩
  obtain rfl := Option.some.inj (published.symm.trans isMessage)
  have space : ' ' ∈ runes (encode "shop x.hook.python".toList) := by
    rw [runes_encode]
    decide
  exact absurd (subject.unspaced ' ' space) (by decide)

end Ingestor

end Litefunctions
