import Litefunctions.ExecutionSubjects
import Litefunctions.RouterPaths

/-!
# The owners of execution subjects

The names of project and function stand unescaped in a subject, and a runtime
reads its own names as a pattern.  A consumer receives only the requests of its
own function, and recovers their ids, exactly when its two names are single
literal tokens; the Lua runtime also needs them not to be empty.
-/

namespace Litefunctions

open Ingestor Runtimes Subject SeparatedText

namespace Language

/-- The request id that the runtime of a language extracts from a subject. -/
def requestId (language : Language) (subject : String) : String :=
  match language with
  | python | go | rust => lastToken subject
  | ts => (tokens subject).getD 4 ""
  | lua => ((tokens subject).filter (· ≠ "")).getD 4 ""

theorem requestId_lua (subject : String) :
    lua.requestId subject = ((tokens subject).filter (· ≠ "")).getD 4 "" :=
  rfl

/-- A consumer publishes under the request id that its runtime extracts. -/
theorem consumer_handle_requestId (language : Language) (project name : String) (code : UserCode)
    (msg : Msg) : ∀ out ∈ (language.consumer project name code).handle msg,
      out.subject =
        s!"{project}.{name}.res.{language.runtimeTag}.{language.requestId msg.subject}" := by
  cases language with
  | python =>
      exact streamingConsumer_handle_subject "py" (fun subject => some (lastToken subject)) rfl
  | go =>
      exact streamingConsumer_handle_subject "go" (fun subject => some (lastToken subject)) rfl
  | rust =>
      intro out member
      by_cases isEmpty : lastToken msg.subject = ""
      · simp [consumer, rustStartFunction, streamingConsumer, isEmpty] at member
      · exact streamingConsumer_handle_subject "go" (fun subject =>
          if lastToken subject = "" then none else some (lastToken subject))
          (by simp only [if_neg isEmpty]; rfl) out member
  | ts =>
      exact streamingConsumer_handle_subject "ts"
        (fun subject => some ((tokens subject).getD 4 "")) rfl
  | lua =>
      intro out member
      rw [luaConsumeFunction_handle_subject project name code msg rfl out member]
      simp only [String.append_assoc]
      rfl

end Language

/-! ### Matching of two functions -/

section Matching

variable {project name reqID consumerProject consumerName : String}

theorem tokens_submitted (dotless : '.' ∉ reqID.toList) (language : Language) :
    tokens s!"{project}.{name}.exec.{language.tag}.{reqID}" =
      tokens project ++ tokens name ++ ["exec", language.tag, reqID] := by
  have idTokens : tokens reqID = [reqID] := pieces_eq_singleton dotless
  have cut := tokens_subject project name "exec" language.tag reqID
  rw [language.tag_isToken.tokens_eq, idTokens] at cut
  rw [show (["exec", language.tag, reqID] : List String) =
    tokens "exec" ++ [language.tag] ++ [reqID] from rfl, ← cut]
  congr 1
  simp only [String.append_assoc]
  rfl

/-- A message matches a consumer when the names match and the tags agree. -/
theorem matchTokens_exec (patterns names : List String) (language : Language) :
    matchTokens (patterns ++ ["exec", language.runtimeTag, "*"])
        (names ++ ["exec", language.tag, reqID]) = true →
      patterns.length = names.length ∧ language.runtimeTag = language.tag := by
  intro matched
  have lengths := matchTokens_length matched (by simp)
  have sameLength : patterns.length = names.length := by simpa using lengths
  apply And.intro sameLength
  induction patterns generalizing names with
  | nil =>
      cases names with
      | nil =>
          have execToken : IsToken "exec" := by decide
          simpa [matchTokens_literal execToken, matchTokens_literal language.runtimeTag_isToken]
            using matched
      | cons first names => cases sameLength
  | cons pattern patterns ih =>
      cases names with
      | nil => cases sameLength
      | cons first names =>
          have rest : matchTokens (patterns ++ ["exec", language.runtimeTag, "*"])
              (names ++ ["exec", language.tag, reqID]) = true := by
            simp only [List.cons_append, matchTokens, Bool.or_eq_true, Bool.and_eq_true] at matched
            rcases matched with ⟨-, isLast⟩ | ⟨-, matched⟩
            · simp at isLast
            · exact matched
          exact ih names rest (by simpa using lengths) (by simpa using sameLength)

theorem matchTokens_take {patterns names morePatterns more : List String}
    (sameLength : patterns.length = names.length)
    (matched : matchTokens (patterns ++ morePatterns) (names ++ more) = true) :
    matchTokens patterns names = true := by
  induction patterns generalizing names with
  | nil =>
      cases names with
      | nil => rfl
      | cons first names => cases sameLength
  | cons pattern patterns ih =>
      cases names with
      | nil => cases sameLength
      | cons first names =>
          simp only [List.cons_append, matchTokens, Bool.or_eq_true, Bool.and_eq_true,
            List.isEmpty_iff, List.append_eq_nil_iff] at matched ⊢
          rcases matched with ⟨isRest, isLast, -⟩ | ⟨same, matched⟩
          · exact .inl ⟨isRest, isLast⟩
          · exact .inr ⟨same, ih (by simpa using sameLength) matched⟩

end Matching

/-! ### Consumers that serve their own requests only -/

/-- A consumer receives no submitted request but those of its own function,
extracts their ids, and publishes where their results are awaited. -/
def ServesOnlyItsOwn (language : Language) (project name : String) : Prop :=
  ∀ (path : String) (body : Bytes) (reqID : String) (code : UserCode), '.' ∉ reqID.toList →
    matchesPattern (language.consumer project name code).subject
        (submit path body language.tag reqID).2.subject = true →
      (project, name) = parsePath path ∧
        language.requestId (submit path body language.tag reqID).2.subject = reqID ∧
        ∀ out ∈ (language.consumer project name code).receive
            (submit path body language.tag reqID).2,
          out.subject = replySubject (submit path body language.tag reqID).1

/-- The names stand for themselves in a subject; the tokens of Lua are never
empty. -/
structure SingleTokens (language : Language) (project name : String) : Prop where
  projectDotless : '.' ∉ project.toList
  nameDotless : '.' ∉ name.toList
  projectLiteral : project ≠ "*"
  nameLiteral : name ≠ "*"
  nonempty : language = .lua → project ≠ "" ∧ name ≠ ""

section Owners

variable {language : Language} {project name path reqID : String}

theorem submit_subject (body : Bytes) (language : Language) (path reqID : String) :
    (submit path body language.tag reqID).2.subject =
      s!"{(parsePath path).1}.{(parsePath path).2}.exec.{language.tag}.{reqID}" := by
  unfold submit
  generalize parsePath path = halves
  rfl

theorem submit_req (body : Bytes) (language : Language) (path reqID : String) :
    (submit path body language.tag reqID).1 =
      ⟨(parsePath path).1, (parsePath path).2, language.tag, reqID⟩ := by
  unfold submit
  generalize parsePath path = halves
  rfl

/-- What a message that matches says about its names. -/
theorem matches_submitted_iff (body : Bytes) (code : UserCode) (dotless : '.' ∉ reqID.toList) :
    matchesPattern (language.consumer project name code).subject
        (submit path body language.tag reqID).2.subject =
      matchTokens (tokens project ++ tokens name ++ ["exec", language.runtimeTag, "*"])
        (tokens (parsePath path).1 ++ tokens (parsePath path).2 ++
          ["exec", language.tag, reqID]) := by
  rw [matchesPattern, tokens_consumer_subject, submit_subject, tokens_submitted dotless]

/-- Single tokens match themselves only. -/
theorem eq_of_matches (single : SingleTokens language project name)
    (matched : matchTokens (tokens project ++ tokens name ++ ["exec", language.runtimeTag, "*"])
      (tokens (parsePath path).1 ++ tokens (parsePath path).2 ++
        ["exec", language.tag, reqID]) = true) :
    (project, name) = parsePath path := by
  have projectTokens : tokens project = [project] := pieces_eq_singleton single.projectDotless
  have nameTokens : tokens name = [name] := pieces_eq_singleton single.nameDotless
  obtain ⟨lengths, -⟩ := matchTokens_exec _ _ _ matched
  rw [projectTokens, nameTokens] at matched lengths
  have firstCount : 0 < (tokens (parsePath path).1).length :=
    List.length_pos_iff.mpr (pieces_ne_nil '.' _)
  have secondCount : 0 < (tokens (parsePath path).2).length :=
    List.length_pos_iff.mpr (pieces_ne_nil '.' _)
  rw [List.length_append] at lengths
  simp only [List.length_append, List.length_cons, List.length_nil] at lengths
  obtain ⟨first, firstEq⟩ := List.length_eq_one_iff.mp
    (show (tokens (parsePath path).1).length = 1 by omega)
  obtain ⟨second, secondEq⟩ := List.length_eq_one_iff.mp
    (show (tokens (parsePath path).2).length = 1 by omega)
  rw [firstEq, secondEq] at matched
  simp only [List.cons_append, List.nil_append, matchTokens, Bool.or_eq_true, Bool.and_eq_true, beq_iff_eq, List.isEmpty_iff, reduceCtorEq, and_false,
    false_or, single.projectLiteral, single.nameLiteral] at matched
  rw [Prod.ext_iff]
  exact ⟨matched.1.trans (eq_of_pieces_singleton firstEq).symm,
    matched.2.1.trans (eq_of_pieces_singleton secondEq).symm⟩

theorem requestId_eq (single : SingleTokens language project name)
    (dotless : '.' ∉ reqID.toList) :
    language.requestId s!"{project}.{name}.exec.{language.tag}.{reqID}" = reqID := by
  have cut : tokens s!"{project}.{name}.exec.{language.tag}.{reqID}" =
      [project, name, "exec", language.tag, reqID] := by
    have projectTokens : tokens project = [project] := pieces_eq_singleton single.projectDotless
    have nameTokens : tokens name = [name] := pieces_eq_singleton single.nameDotless
    rw [tokens_submitted dotless, projectTokens, nameTokens]
    rfl
  have last : lastToken s!"{project}.{name}.exec.{language.tag}.{reqID}" = reqID := by
    simp only [lastToken, cut]
    rfl
  cases language with
  | python => exact last
  | go => exact last
  | rust => exact last
  | ts => simp [Language.requestId, cut]
  | lua =>
      obtain ⟨projectNonempty, nameNonempty⟩ := single.nonempty rfl
      rw [Language.requestId_lua, cut]
      by_cases isEmpty : reqID = ""
      · simp [projectNonempty, nameNonempty, isEmpty, Language.tag]
      · simp [projectNonempty, nameNonempty, isEmpty, Language.tag]

theorem servesOnlyItsOwn_of_single (single : SingleTokens language project name) :
    ServesOnlyItsOwn language project name := by
  intro path body reqID code dotless matched
  have sameNames : (project, name) = parsePath path :=
    eq_of_matches single (matches_submitted_iff body code dotless ▸ matched)
  have tags := (matchTokens_exec _ _ _ (matches_submitted_iff body code dotless ▸ matched)).2
  have isId : language.requestId (submit path body language.tag reqID).2.subject = reqID := by
    rw [submit_subject, ← sameNames]
    exact requestId_eq single dotless
  apply And.intro sameNames
  apply And.intro isId
  intro out member
  rw [Consumer.receive, if_pos matched] at member
  rw [language.consumer_handle_requestId project name code _ out member, isId, tags]
  rw [submit_req, ← sameNames, replySubject]

/-! ### Where the names fail -/

/-- A name with a slash is never received. -/
theorem not_matched_of_slash
    (slash : '/' ∈ project.toList ∨ '/' ∈ name.toList) :
    matchTokens (tokens project ++ tokens name ++ ["exec", language.runtimeTag, "*"])
      (tokens (parsePath path).1 ++ tokens (parsePath path).2 ++
        ["exec", language.tag, reqID]) = false := by
  rw [Bool.eq_false_iff]
  intro matched
  have slashNotDot : '/' ≠ '.' := by decide
  obtain ⟨token, member, inside⟩ : ∃ token ∈ tokens project ++ tokens name,
      '/' ∈ token.toList := by
    rcases slash with slash | slash
    · obtain ⟨token, member, inside⟩ := (mem_pieces_iff slashNotDot).mpr slash
      exact ⟨token, List.mem_append_left _ member, inside⟩
    · obtain ⟨token, member, inside⟩ := (mem_pieces_iff slashNotDot).mpr slash
      exact ⟨token, List.mem_append_right _ member, inside⟩
  have notStar : token ≠ "*" := by
    rintro rfl
    exact absurd inside (by decide)
  have notRest : token ≠ ">" := by
    rintro rfl
    exact absurd inside (by decide)
  -- the names alone already have to match, so the token stands among those of the path
  obtain ⟨lengths, -⟩ := matchTokens_exec _ _ _ matched
  have namesMatched := matchTokens_take lengths matched
  have found := mem_of_matchTokens namesMatched member notStar notRest
  have slashless := parsePath_slashless path
  rcases List.mem_append.mp found with found | found
  · exact slashless.1 ((mem_pieces_iff slashNotDot).mp ⟨token, found, inside⟩)
  · exact slashless.2 ((mem_pieces_iff slashNotDot).mp ⟨token, found, inside⟩)

theorem matchTokens_tail (sameTag : language.runtimeTag = language.tag) (reqID : String) :
    matchTokens ["exec", language.runtimeTag, "*"] ["exec", language.tag, reqID] = true := by
  simp [matchTokens, sameTag]

/-- A consumer that serves its own function only receives from no other one. -/
theorem eq_of_serves (serves : ServesOnlyItsOwn language project name)
    (otherProject otherName : String) (projectSlashless : '/' ∉ otherProject.toList)
    (nameSlashless : '/' ∉ otherName.toList) (dotless : '.' ∉ reqID.toList)
    (matched : matchTokens (tokens project ++ tokens name ++ ["exec", language.runtimeTag, "*"])
      (tokens otherProject ++ tokens otherName ++ ["exec", language.tag, reqID]) = true) :
    (project, name) = (otherProject, otherName) ∧
      language.requestId s!"{otherProject}.{otherName}.exec.{language.tag}.{reqID}" = reqID := by
  obtain ⟨path, split⟩ := exists_parsePath_eq projectSlashless nameSlashless
  have received : matchesPattern (language.consumer project name echoCode).subject
      (submit path [] language.tag reqID).2.subject = true := by
    rw [matches_submitted_iff [] echoCode dotless, split]
    exact matched
  obtain ⟨same, isId, -⟩ := serves path [] reqID echoCode dotless received
  rw [submit_subject, split] at isId
  exact ⟨same.trans split, isId⟩

theorem matchTokens_same {otherProject otherName : String}
    (sameTag : language.runtimeTag = language.tag)
    (sameTokens : tokens project ++ tokens name = tokens otherProject ++ tokens otherName) :
    matchTokens (tokens project ++ tokens name ++ ["exec", language.runtimeTag, "*"])
      (tokens otherProject ++ tokens otherName ++ ["exec", language.tag, reqID]) = true := by
  rw [sameTokens, matchTokens_append _ _ _ (List.cons_ne_nil _ _)]
  exact matchTokens_tail sameTag reqID

/-- A dot in one of the names moves to the other one. -/
theorem split_at_dot {text : String} (dotted : '.' ∈ text.toList) :
    ∃ first second : String, text = first ++ "." ++ second ∧ text ≠ first ∧ text ≠ second ∧
      tokens text = tokens first ++ tokens second ∧
      ∀ char, char ∈ first.toList ∨ char ∈ second.toList → char ∈ text.toList := by
  obtain ⟨before, after, split⟩ := List.append_of_mem dotted
  have textEq : text = String.ofList before ++ "." ++ String.ofList after := by
    rw [← String.toList_inj]
    simpa using split
  have count := congrArg List.length split
  simp only [List.length_append, List.length_cons] at count
  refine ⟨String.ofList before, String.ofList after, textEq, ?_, ?_, ?_, ?_⟩
  · intro same
    rw [same, String.toList_ofList] at count
    omega
  · intro same
    rw [same, String.toList_ofList] at count
    omega
  · rw [textEq]
    exact pieces_append '.' _ _
  · intro char member
    rw [split]
    simp only [String.toList_ofList] at member
    rcases member with member | member
    · exact List.mem_append_left _ member
    · exact List.mem_append_right _ (List.mem_cons_of_mem _ member)

/-- Where the runtime has the tag of its language, a consumer that serves its
own function only has single tokens as names. -/
theorem single_of_serves (serves : ServesOnlyItsOwn language project name)
    (sameTag : language.runtimeTag = language.tag) (projectSlashless : '/' ∉ project.toList)
    (nameSlashless : '/' ∉ name.toList) : SingleTokens language project name := by
  have dotless : '.' ∉ ("x" : String).toList := by decide
  have projectDotless : '.' ∉ project.toList := by
    intro dotted
    obtain ⟨first, second, rfl, notFirst, -, cut, inside⟩ := split_at_dot dotted
    have moved : tokens (second ++ "." ++ name) = tokens second ++ tokens name :=
      pieces_append '.' second name
    have secondSlashless : '/' ∉ second.toList :=
      fun slash => projectSlashless (inside _ (.inr slash))
    have same := eq_of_serves serves first (second ++ "." ++ name)
      (fun slash => projectSlashless (inside _ (.inl slash)))
      (by simp [secondSlashless, nameSlashless]) dotless (matchTokens_same sameTag (by rw [cut, moved, List.append_assoc]))
    exact notFirst (Prod.mk.inj same.1).1
  have nameDotless : '.' ∉ name.toList := by
    intro dotted
    obtain ⟨first, second, rfl, -, notSecond, cut, inside⟩ := split_at_dot dotted
    have moved : tokens (project ++ "." ++ first) = tokens project ++ tokens first :=
      pieces_append '.' project first
    have firstSlashless : '/' ∉ first.toList :=
      fun slash => nameSlashless (inside _ (.inl slash))
    have same := eq_of_serves serves (project ++ "." ++ first) second
      (by simp [firstSlashless, projectSlashless])
      (fun slash => nameSlashless (inside _ (.inr slash))) dotless (matchTokens_same sameTag (by rw [cut, moved, List.append_assoc]))
    exact notSecond (Prod.mk.inj same.1).2
  have projectTokens : tokens project = [project] := pieces_eq_singleton projectDotless
  have nameTokens : tokens name = [name] := pieces_eq_singleton nameDotless
  have xTokens : tokens "x" = ["x"] := by decide
  have own := eq_of_serves serves project name projectSlashless nameSlashless dotless
    (matchTokens_same sameTag rfl)
  have starred : ∀ patterns names : List String, patterns ≠ [] →
      matchTokens ("*" :: patterns) ("x" :: names) = matchTokens patterns names := by
    intro patterns names _
    simp [matchTokens]
  refine ⟨projectDotless, nameDotless, ?_, ?_, ?_⟩
  · rintro rfl
    have same := eq_of_serves serves "x" name (by decide) nameSlashless dotless (by
        rw [projectTokens, xTokens, List.append_assoc, List.append_assoc, List.singleton_append,
          List.singleton_append, starred _ _ (by simp [nameTokens]),
          matchTokens_append _ _ _ (List.cons_ne_nil _ _)]
        exact matchTokens_tail sameTag _)
    exact absurd (Prod.mk.inj same.1).1 (by decide)
  · rintro rfl
    have same := eq_of_serves serves project "x" projectSlashless (by decide) dotless (by
        rw [nameTokens, xTokens, List.append_assoc, List.append_assoc,
          matchTokens_append _ _ _ (by simp), List.singleton_append, List.singleton_append,
          starred _ _ (List.cons_ne_nil _ _)]
        exact matchTokens_tail sameTag _)
    exact absurd (Prod.mk.inj same.1).2 (by decide)
  · rintro rfl
    -- without one of the names the id is not the fifth non-empty token
    have isId := own.2
    have cut := @tokens_submitted project name "x" dotless .lua
    rw [projectTokens, nameTokens] at cut
    rw [Language.requestId_lua, cut] at isId
    constructor
    · rintro rfl
      by_cases nameEmpty : name = "" <;> simp [nameEmpty, Language.tag] at isId
    · rintro rfl
      by_cases projectEmpty : project = "" <;> simp [projectEmpty, Language.tag] at isId

end Owners

end Litefunctions
