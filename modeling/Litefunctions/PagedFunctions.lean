import Litefunctions.AddressedRows
import Litefunctions.Arrangements
import Litefunctions.FunctionMirrors
import Litefunctions.SyncedFunctions

/-!
# Pages of functions

`ListFunctions` takes a text to search for, a limit and an offset, and answers
with a page of the project's functions.  The statement orders them by language
and time only, reads the text as a pattern, and takes the numbers after they
were converted to `int32`.
-/

namespace Litefunctions

namespace Portal

open Program

/-! ### Limits and offsets -/

/-- A limit and an offset that `strconv.Atoi` accepts, neither of them
negative. -/
structure Paging where
  limit : String
  offset : String
  limitAccepted : (atoi limit).2 = true
  limitNonneg : 0 ≤ (atoi limit).1
  offsetAccepted : (atoi offset).2 = true
  offsetNonneg : 0 ≤ (atoi offset).1

namespace Paging

def size (paging : Paging) : Nat :=
  (atoi paging.limit).1.toNat

def start (paging : Paging) : Nat :=
  (atoi paging.offset).1.toNat

end Paging

theorem decimal?_toDigits (number : Nat) : decimal? (Nat.toDigits 10 number) = some number := by
  have onlyDigits : (Nat.toDigits 10 number).any (fun char => !char.isDigit) = false := by
    rw [List.any_eq_false]
    intro char member
    rw [Nat.isDigit_of_mem_toDigits (by decide) (by decide) member]
    decide
  rw [decimal?, if_neg]
  · rw [← Nat.ofDigitChars_eq_foldl, Nat.ofDigitChars_ten_toDigits]
  · rw [onlyDigits, List.isEmpty_iff]
    exact not_or.mpr ⟨Nat.toDigits_ne_nil, Bool.false_ne_true⟩

theorem atoi_toString {number : Nat} (small : number < 2 ^ 63) :
    atoi (toString number) = ((number : Int), true) := by
  have digits : (toString number).toList = Nat.toDigits 10 number := by
    rw [Nat.toString_eq_repr, Nat.toList_repr]
  have value := decimal?_toDigits number
  have inRange : ¬ 2 ^ 63 ≤ number := by omega
  unfold atoi
  rw [digits]
  have isDigit : ∀ char ∈ Nat.toDigits 10 number, char.isDigit = true :=
    fun char member => Nat.isDigit_of_mem_toDigits (by decide) (by decide) member
  split
  · rename_i rest isMinus
    exact absurd (isDigit '-' (isMinus ▸ List.mem_cons_self)) (by decide)
  · rename_i rest isPlus
    exact absurd (isDigit '+' (isPlus ▸ List.mem_cons_self)) (by decide)
  · dsimp only
    rw [value]
    dsimp only
    rw [if_neg Bool.false_ne_true, if_neg inRange]

/-- The conversion keeps what fits. -/
theorem int32_of_lt {value : Int} (nonneg : 0 ≤ value) (small : value < 2 ^ 31) :
    int32 value = value := by
  rw [int32]
  apply Int.bmod_eq_of_le
  · omega
  · omega

namespace Paging

def ofNumbers (size start : Nat) (sizeSmall : size < 2 ^ 63) (startSmall : start < 2 ^ 63) :
    Paging where
  limit := toString size
  offset := toString start
  limitAccepted := by rw [atoi_toString sizeSmall]
  limitNonneg := by rw [atoi_toString sizeSmall]; exact Int.natCast_nonneg size
  offsetAccepted := by rw [atoi_toString startSmall]
  offsetNonneg := by rw [atoi_toString startSmall]; exact Int.natCast_nonneg start

section Numbers

variable {size start : Nat} (sizeSmall : size < 2 ^ 63) (startSmall : start < 2 ^ 63)

@[simp]
theorem size_ofNumbers : (ofNumbers size start sizeSmall startSmall).size = size := by
  rw [Paging.size, ofNumbers, atoi_toString sizeSmall, Int.toNat_natCast]

@[simp]
theorem start_ofNumbers : (ofNumbers size start sizeSmall startSmall).start = start := by
  rw [Paging.start, ofNumbers, atoi_toString startSmall, Int.toNat_natCast]

end Numbers

section Converted

variable {paging : Paging}

theorem int32_limit (small : paging.size < 2 ^ 31) :
    int32 (atoi paging.limit).1 = paging.size := by
  have same : (paging.size : Int) = (atoi paging.limit).1 := Int.toNat_of_nonneg paging.limitNonneg
  rw [← same]
  apply int32_of_lt
  · omega
  · omega

theorem int32_offset (small : paging.start < 2 ^ 31) :
    int32 (atoi paging.offset).1 = paging.start := by
  have same : (paging.start : Int) = (atoi paging.offset).1 :=
    Int.toNat_of_nonneg paging.offsetNonneg
  rw [← same]
  apply int32_of_lt
  · omega
  · omega

end Converted

end Paging

/-! ### Answers of the database -/

def functionsOf (db : Database) (projectUUID : Uuid) : List FunctionRow :=
  db.functions.rows.filter (·.projectID = projectUUID)

/-- What the statement selects. -/
def selected (db : Database) (projectUUID : Uuid) (search : String) : List FunctionRow :=
  (functionsOf db projectUUID).filter fun row => searchMatches search row.name

/-- The name contains the text, ignoring case. -/
def NameContains (search name : String) : Prop :=
  search.toList.map Char.toLower <:+: name.toList.map Char.toLower

instance (search name : String) : Decidable (NameContains search name) :=
  inferInstanceAs (Decidable (_ <:+: _))

/-- What was searched for. -/
def wanted (db : Database) (projectUUID : Uuid) (search : String) : List FunctionRow :=
  (functionsOf db projectUUID).filter fun row => NameContains search row.name

/-- An answer to `ListFunctionsSearchPaged`: the page of some order that agrees
with `ORDER BY`.  A text with a zero byte is rejected. -/
def CanAnswer (db : Database) (projectUUID : Uuid) (search : String) (limit offset : Int)
    (response : Except DbError (List FunctionRow)) : Prop :=
  if Char.ofNat 0 ∈ search.toList then response = .error .invalidText
  else ∃ ordered, Arranges FunctionRow.ListedBefore (selected db projectUUID search) ordered ∧
    response = page limit offset ordered

/-- The statement of the listing was answered from this database. -/
def AnsweredFrom (db : Database) (history : List (Answered PortalCall PortalCall.Response)) : Prop :=
  ∀ projectUUID search limit offset response,
    (⟨.query (.function (.listFunctionsSearchPaged projectUUID search limit offset)), response⟩ :
      Answered PortalCall PortalCall.Response) ∈ history →
    CanAnswer db projectUUID search limit offset response

/-- The answer of the stored model is one of them. -/
theorem canAnswer_execute (moment : Moment) (db : Database) (projectUUID : Uuid) {search : String}
    (noZero : Char.ofNat 0 ∉ search.toList) (limit offset : Int) :
    CanAnswer db projectUUID search limit offset
      (FunctionQuery.execute moment (.listFunctionsSearchPaged projectUUID search limit offset)
        db).1 := by
  rw [CanAnswer, if_neg noZero]
  refine ⟨(FunctionQuery.ofProject projectUUID db).filter fun row => searchMatches search row.name,
    ?_, rfl⟩
  constructor
  · apply List.Perm.filter
    exact List.perm_insertionSort FunctionRow.ListedBefore _
  · apply List.Pairwise.filter
    exact List.pairwise_insertionSort FunctionRow.ListedBefore _

section Answers

variable {db : Database} {projectUUID : Uuid} {search : String} {limit offset : Int}
variable {response : Except DbError (List FunctionRow)}

theorem exists_canAnswer (db : Database) (projectUUID : Uuid) (search : String)
    (limit offset : Int) : ∃ response, CanAnswer db projectUUID search limit offset response := by
  unfold CanAnswer
  split
  · exact ⟨_, rfl⟩
  · exact ⟨_, _, arranges_insertionSort, rfl⟩

theorem CanAnswer.failed (canAnswer : CanAnswer db projectUUID search limit offset response)
    (negative : limit < 0 ∨ offset < 0) : ∃ err, response = .error err := by
  unfold CanAnswer at canAnswer
  split at canAnswer
  · exact ⟨_, canAnswer⟩
  · obtain ⟨ordered, -, isPage⟩ := canAnswer
    rw [page, if_pos negative] at isPage
    exact ⟨_, isPage⟩

theorem page_natCast {Row : Type} (size start : Nat) (rows : List Row) :
    page size start rows = .ok (pageOf start size rows) := by
  have nonneg : ¬ ((size : Int) < 0 ∨ (start : Int) < 0) := by omega
  rw [page, if_neg nonneg, Int.toNat_natCast, Int.toNat_natCast, pageOf]

end Answers

/-! ### Searches -/

/-- A character that `LIKE` takes as itself. -/
def IsPlainChar (char : Char) : Prop :=
  char ≠ '%' ∧ char ≠ '_' ∧ char ≠ '\\'

instance (char : Char) : Decidable (IsPlainChar char) :=
  inferInstanceAs (Decidable (_ ∧ _))

section Searches

variable {char : Char} {pattern text : List Char}

theorem likeMatch_any : likeMatch ['%'] text = true := by
  rw [likeMatch, List.any_eq_true]
  exact ⟨[], (List.mem_tails _ _).mpr List.nil_suffix, rfl⟩

theorem likeMatch_cons (isPlain : IsPlainChar char) (first : Char) :
    likeMatch (char :: pattern) (first :: text) = (char == first && likeMatch pattern text) := by
  obtain ⟨noPercent, noUnderscore, noBackslash⟩ := isPlain
  exact likeMatch.eq_5 char pattern first text noPercent noUnderscore
    fun _ _ isBackslash => absurd isBackslash noBackslash

theorem likeMatch_nil (isPlain : IsPlainChar char) : likeMatch (char :: pattern) [] = false := by
  apply likeMatch.eq_6
  · intro isNil
    cases isNil
  · intro _ same
    exact absurd (List.cons.inj same).1 isPlain.1
  · intro _ _ _ _ isCons
    cases isCons
  · intro _ _ _ _ _ isCons
    cases isCons
  · intro _ _ _ _ _ isCons
    cases isCons

/-- Plain characters before a `%` match the texts that begin with them. -/
theorem likeMatch_append (isPlain : ∀ char ∈ pattern, IsPlainChar char) :
    likeMatch (pattern ++ ['%']) text = true ↔ pattern <+: text := by
  induction pattern generalizing text with
  | nil => simp [likeMatch_any]
  | cons char pattern ih =>
      have ⟨charPlain, restPlain⟩ := List.forall_mem_cons.mp isPlain
      cases text with
      | nil =>
          rw [List.cons_append, likeMatch_nil charPlain]
          simp
      | cons first text =>
          rw [List.cons_append, likeMatch_cons charPlain, Bool.and_eq_true, beq_iff_eq,
            ih restPlain, List.cons_prefix_cons]

theorem IsPlainChar.toLower (isPlain : IsPlainChar char) : IsPlainChar char.toLower := by
  rcases Nat.lt_or_ge char.toNat 128 with small | large
  · exact HexText.forall_ascii (fun char => IsPlainChar char → IsPlainChar char.toLower)
      (by decide) small isPlain
  · rwa [HexText.toLower_of_large large]

/-- A text without metacharacters selects the names that contain it. -/
theorem searchMatches_of_plain {search : String}
    (isPlain : ∀ char ∈ search.toList, IsPlainChar char) (name : String) :
    searchMatches search name = decide (NameContains search name) := by
  have lowerPlain : ∀ char ∈ search.toList.map Char.toLower, IsPlainChar char := by
    intro char member
    obtain ⟨upper, isMember, rfl⟩ := List.mem_map.mp member
    exact (isPlain upper isMember).toLower
  have lowered : ('%' :: search.toList ++ ['%']).map Char.toLower =
      '%' :: (search.toList.map Char.toLower ++ ['%']) := by
    rw [List.map_append, List.map_cons]
    rfl
  rw [Bool.eq_iff_iff, searchMatches, lowered, likeMatch, Bool.or_eq_true, List.any_eq_true,
    decide_eq_true_iff, decide_eq_true_iff, NameContains, List.infix_iff_prefix_suffix]
  simp only [likeMatch_append lowerPlain, List.mem_tails]
  constructor
  · rintro (rfl | ⟨rest, isSuffix, isPrefix⟩)
    · exact ⟨[], List.nil_prefix, List.nil_suffix⟩
    · exact ⟨rest, isPrefix, isSuffix⟩
  · rintro ⟨rest, isPrefix, isSuffix⟩
    exact .inr ⟨rest, isSuffix, isPrefix⟩

end Searches

/-! ### Replies -/

namespace FunctionHandlers

/-- A function in the reply. -/
def listedJson (eps : List EndpointView) (row : FunctionRow) : Json :=
  .obj
    [("id", .str row.id.hex), ("name", .str row.name), ("language", .str row.language),
      ("path", .str row.path), ("is_async", .bool row.isAsync),
      ("endpoint_id", .str (endpointByFn eps row.id))]

/-- The reply lists these functions. -/
def ListsRows (rows : List FunctionRow) (replies : List Reply) : Prop :=
  ∃ eps, replies = [.json 200 (.arr (rows.map (listedJson eps)))]

/-- The reply to an answer of the listing. -/
def Shows : Except DbError (List FunctionRow) → List Reply → Prop
  | .error _, replies => replies = [.error 500 "database error"]
  | .ok rows, replies => ListsRows rows replies

section Runs

variable {db : Database} {c : Context} {project : ProjectContext} {search : String}
variable {paging : Paging} {replies : List Reply}

/-- The listing and a question for the endpoints of a project. -/
theorem answeredFrom_of_canAnswer {projectUUID : Uuid} {limit offset : Int}
    {response : Except DbError (List FunctionRow)} (other : Uuid)
    (eps : Except DbError (List EndpointView))
    (canAnswer : CanAnswer db projectUUID search limit offset response) :
    AnsweredFrom db
      [⟨.query (.function (.listFunctionsSearchPaged projectUUID search limit offset)), response⟩,
        ⟨.query (.endpoint (.listEndpointsForProject other)), eps⟩] := by
  intro anyProject anySearch anyLimit anyOffset anyResponse member
  rcases List.mem_cons.mp member with isListing | isLater
  · cases isListing
    exact canAnswer
  · cases List.mem_singleton.mp isLater

/-- The replies of a request are those to the answers of its listing. -/
theorem listFunctions_runs_iff (isProject : c.project = some project) :
    (∃ history, AnsweredFrom db history ∧
      (listFunctions c (some search) (some paging.limit) (some paging.offset)).Reaches history
        (.done replies)) ↔
      ∃ response, CanAnswer db project.projectUUID search (int32 (atoi paging.limit).1)
        (int32 (atoi paging.offset).1) response ∧ Shows response replies := by
  unfold listFunctions Context.mustGetProject
  rw [isProject]
  dsimp only
  rw [perform_bind]
  constructor
  · rintro ⟨history, fromDb, reaches⟩
    obtain ⟨response, later, rfl, answered⟩ := call_reaches_iff.mp reaches
    refine ⟨response, fromDb _ _ _ _ _ List.mem_cons_self, ?_⟩
    cases response with
    | error err => exact (done_reaches_iff.mp answered).2.symm
    | ok rows =>
        obtain ⟨eps, last, rfl, joined⟩ := call_reaches_iff.mp answered
        cases eps with
        | error err => exact ⟨[], (done_reaches_iff.mp joined).2.symm⟩
        | ok eps => exact ⟨eps, (done_reaches_iff.mp joined).2.symm⟩
  · rintro ⟨response, canAnswer, shows⟩
    cases response with
    | error err =>
        refine ⟨_, ?_, call_reaches_iff.mpr ⟨.error err, [], rfl, ?_⟩⟩
        · intro projectUUID search limit offset response member
          cases List.mem_singleton.mp member
          exact canAnswer
        · exact done_reaches_iff.mpr ⟨rfl, shows.symm⟩
    | ok rows =>
        obtain ⟨eps, rfl⟩ := shows
        refine ⟨_, answeredFrom_of_canAnswer project.projectUUID (.ok eps) canAnswer,
          call_reaches_iff.mpr ⟨.ok rows, _, rfl, ?_⟩⟩
        exact call_reaches_iff.mpr ⟨.ok eps, [], rfl, rfl⟩

end Runs

/-! ### Pages of one order -/

/-- In one order of the functions that were searched for, every request up to a
limit and an offset is answered with its page. -/
def AnswersPages (db : Database) (c : Context) (projectUUID : Uuid) (search : String)
    (most last : Nat) : Prop :=
  ∃ order, order.Perm (wanted db projectUUID search) ∧
    ∀ paging : Paging, paging.size ≤ most → paging.start ≤ last →
      ∀ history replies, AnsweredFrom db history →
        (listFunctions c (some search) (some paging.limit) (some paging.offset)).Reaches history
          (.done replies) →
        ListsRows (pageOf paging.start paging.size order) replies

/-- The numbers fit, the text is one for the database and selects as wanted,
and the order of the statement leaves no tie. -/
structure IsPageable (db : Database) (projectUUID : Uuid) (search : String) (most last : Nat) :
    Prop where
  limits : most < 2 ^ 31
  offsets : last < 2 ^ 31
  noZero : Char.ofNat 0 ∉ search.toList
  selects : ∀ row ∈ functionsOf db projectUUID,
    searchMatches search row.name = decide (NameContains search row.name)
  noTie : ∀ first ∈ selected db projectUUID search, ∀ second ∈ selected db projectUUID search,
    first.language = second.language → first.createdAt = second.createdAt → first = second

section Pages

variable {db : Database} {c : Context} {project : ProjectContext} {projectUUID : Uuid}
variable {search : String} {most last : Nat}

theorem not_hasTie_iff {rows : List FunctionRow} :
    ¬ HasTie FunctionRow.ListedBefore rows ↔
      ∀ first ∈ rows, ∀ second ∈ rows, first.language = second.language →
        first.createdAt = second.createdAt → first = second := by
  constructor
  · intro noTie first member second otherMember sameLanguage sameTime
    by_contra different
    exact noTie ⟨first, member, second, otherMember, different,
      .inr ⟨sameLanguage, Int.le_of_eq sameTime.symm⟩,
      .inr ⟨sameLanguage.symm, Int.le_of_eq sameTime⟩⟩
  · rintro apart ⟨first, member, second, otherMember, different, early, late⟩
    apply different
    rcases early with less | ⟨sameLanguage, younger⟩
    · rcases late with more | ⟨sameLanguage, -⟩
      · exact absurd (String.lt_trans less more) (String.lt_irrefl _)
      · exact absurd (sameLanguage ▸ less) (String.lt_irrefl _)
    · rcases late with more | ⟨-, older⟩
      · exact absurd (sameLanguage ▸ more) (String.lt_irrefl _)
      · exact apart first member second otherMember sameLanguage (Int.le_antisymm older younger)

/-! #### A pageable search is answered with pages -/

theorem IsPageable.wanted_eq (isPageable : IsPageable db projectUUID search most last) :
    wanted db projectUUID search = selected db projectUUID search := by
  apply List.filter_congr
  intro row member
  exact (isPageable.selects row member).symm

theorem IsPageable.answersPages
    (isPageable : IsPageable db project.projectUUID search most last)
    (isProject : c.project = some project) :
    AnswersPages db c project.projectUUID search most last := by
  have noTie := not_hasTie_iff.mpr isPageable.noTie
  have arranges : Arranges FunctionRow.ListedBefore (selected db project.projectUUID search) _ :=
    arranges_insertionSort
  refine ⟨_, arranges.perm.trans (List.Perm.of_eq isPageable.wanted_eq.symm), ?_⟩
  intro paging sizeSmall startSmall history replies fromDb reaches
  obtain ⟨response, canAnswer, shows⟩ :=
    (listFunctions_runs_iff isProject).mp ⟨history, fromDb, reaches⟩
  rw [Paging.int32_limit (Nat.lt_of_le_of_lt sizeSmall isPageable.limits),
    Paging.int32_offset (Nat.lt_of_le_of_lt startSmall isPageable.offsets), CanAnswer,
    if_neg isPageable.noZero] at canAnswer
  obtain ⟨ordered, arrangesOrdered, isPage⟩ := canAnswer
  rw [page_natCast] at isPage
  rw [isPage, arrangesOrdered.unique arranges noTie] at shows
  exact shows

/-! #### What the answers need -/

theorem not_listsRows_error (rows : List FunctionRow) :
    ¬ ListsRows rows [.error 500 "database error"] := by
  rintro ⟨eps, lists⟩
  cases lists

section Answered

variable (answers : AnswersPages db c project.projectUUID search most last)
variable (isProject : c.project = some project)

include answers isProject

/-- No listing of a request may fail. -/
theorem AnswersPages.not_failed (paging : Paging) (sizeSmall : paging.size ≤ most)
    (startSmall : paging.start ≤ last) (err : DbError) :
    ¬ CanAnswer db project.projectUUID search (int32 (atoi paging.limit).1)
      (int32 (atoi paging.offset).1) (.error err) := by
  intro canAnswer
  obtain ⟨order, -, answersEach⟩ := answers
  obtain ⟨history, fromDb, reaches⟩ :=
    (listFunctions_runs_iff isProject).mpr ⟨_, canAnswer, rfl⟩
  exact not_listsRows_error _ (answersEach paging sizeSmall startSmall _ _ fromDb reaches)

/-- A request whose limit or offset becomes negative fails. -/
theorem AnswersPages.not_negative (paging : Paging) (sizeSmall : paging.size ≤ most)
    (startSmall : paging.start ≤ last) :
    ¬ (int32 (atoi paging.limit).1 < 0 ∨ int32 (atoi paging.offset).1 < 0) := by
  intro negative
  obtain ⟨response, canAnswer⟩ := exists_canAnswer db project.projectUUID search
    (int32 (atoi paging.limit).1) (int32 (atoi paging.offset).1)
  obtain ⟨err, rfl⟩ := canAnswer.failed negative
  exact answers.not_failed isProject paging sizeSmall startSmall err canAnswer

theorem AnswersPages.noZero : Char.ofNat 0 ∉ search.toList := by
  intro hasZero
  let nothing := Paging.ofNumbers 0 0 (by decide) (by decide)
  have size : nothing.size = 0 := Paging.size_ofNumbers _ _
  have start : nothing.start = 0 := Paging.start_ofNumbers _ _
  apply answers.not_failed isProject nothing (by omega) (by omega) .invalidText
  rw [CanAnswer, if_pos hasZero]

end Answered

/-- 2³¹ as a limit, and as an offset. -/
def largeLimit : Paging where
  limit := "2147483648"
  offset := "0"
  limitAccepted := by decide
  limitNonneg := by decide
  offsetAccepted := by decide
  offsetNonneg := by decide

def largeOffset : Paging where
  limit := "0"
  offset := "2147483648"
  limitAccepted := by decide
  limitNonneg := by decide
  offsetAccepted := by decide
  offsetNonneg := by decide

theorem AnswersPages.limits (answers : AnswersPages db c project.projectUUID search most last)
    (isProject : c.project = some project) : most < 2 ^ 31 := by
  by_contra large
  have size : largeLimit.size = 2 ^ 31 := by decide
  have start : largeLimit.start = 0 := by decide
  apply answers.not_negative isProject largeLimit
  · omega
  · omega
  · exact .inl (by decide)

theorem AnswersPages.offsets (answers : AnswersPages db c project.projectUUID search most last)
    (isProject : c.project = some project) : last < 2 ^ 31 := by
  by_contra large
  have size : largeOffset.size = 0 := by decide
  have start : largeOffset.start = 2 ^ 31 := by decide
  apply answers.not_negative isProject largeOffset
  · omega
  · omega
  · exact .inr (by decide)

/-- A function is known by its name. -/
theorem eq_of_names {rows others : List FunctionRow}
    (areRows : ∀ row ∈ rows, row ∈ functionsOf db projectUUID)
    (areOthers : ∀ row ∈ others, row ∈ functionsOf db projectUUID)
    (sameNames : rows.map (·.name) = others.map (·.name)) : rows = others := by
  induction rows generalizing others with
  | nil => exact (List.map_eq_nil_iff.mp sameNames.symm).symm
  | cons row rows ih =>
      cases others with
      | nil => cases sameNames
      | cons other others =>
          obtain ⟨sameName, sameRest⟩ := List.cons.inj sameNames
          have ⟨isRow, restRows⟩ := List.forall_mem_cons.mp areRows
          have ⟨isOther, restOthers⟩ := List.forall_mem_cons.mp areOthers
          rw [functionsOf, List.mem_filter, decide_eq_true_iff] at isRow isOther
          rw [ih restRows restOthers sameRest,
            FunctionRow.eq_of_name isRow.1 isOther.1 (isRow.2.trans isOther.2.symm) sameName]

/-- The name in a function of the reply. -/
def nameIn : Json → Option String
  | .obj fields => fields.lookup "name" |>.bind fun
      | .str name => some name
      | _ => none
  | _ => none

theorem nameIn_listedJson (eps : List EndpointView) (row : FunctionRow) :
    nameIn (listedJson eps row) = some row.name :=
  rfl

/-- A reply lists the functions of a project in one way. -/
theorem ListsRows.unique {rows others : List FunctionRow} {replies : List Reply}
    (lists : ListsRows rows replies) (listsOthers : ListsRows others replies)
    (areRows : ∀ row ∈ rows, row ∈ functionsOf db projectUUID)
    (areOthers : ∀ row ∈ others, row ∈ functionsOf db projectUUID) : rows = others := by
  obtain ⟨eps, rfl⟩ := lists
  obtain ⟨otherEps, same⟩ := listsOthers
  injection same with same _
  injection same with _ same
  injection same with same
  apply eq_of_names areRows areOthers
  apply List.map_injective_iff.mpr (Option.some_injective String)
  have sameNames := congrArg (List.map nameIn) same
  simpa only [List.map_map, Function.comp_def, nameIn_listedJson] using sameNames

theorem functionsOf_nodup (db : Database) (projectUUID : Uuid) :
    (functionsOf db projectUUID).Nodup := by
  apply List.Nodup.filter
  apply db.functions.distinct.imp
  rintro first second apart rfl
  simp [FunctionRow.conflicts] at apart

theorem mem_functionsOf_of_selected {row : FunctionRow}
    (member : row ∈ selected db projectUUID search) : row ∈ functionsOf db projectUUID :=
  (List.mem_filter.mp member).1

theorem mem_functionsOf_of_wanted {row : FunctionRow}
    (member : row ∈ wanted db projectUUID search) : row ∈ functionsOf db projectUUID :=
  (List.mem_filter.mp member).1

section Answered

variable (answers : AnswersPages db c project.projectUUID search most last)
variable (isProject : c.project = some project)
variable (covers : (functionsOf db project.projectUUID).length ≤ most)

include answers isProject covers

/-- Every order in which the statement may list what it selects is the one that
is paged. -/
theorem AnswersPages.exists_order :
    ∃ order, order.Perm (wanted db project.projectUUID search) ∧
      ∀ ordered, Arranges FunctionRow.ListedBefore (selected db project.projectUUID search) ordered →
        ordered = order := by
  have limits := answers.limits isProject
  have noZero := answers.noZero isProject
  obtain ⟨order, isOrder, answersEach⟩ := answers
  apply Exists.intro order
  apply And.intro isOrder
  intro ordered arranges
  let whole := Paging.ofNumbers (functionsOf db project.projectUUID).length 0 (by omega) (by decide)
  have size : whole.size = (functionsOf db project.projectUUID).length := Paging.size_ofNumbers _ _
  have start : whole.start = 0 := Paging.start_ofNumbers _ _
  have orderFits : order.length ≤ whole.size := by
    rw [isOrder.length_eq, size]
    exact List.length_filter_le _ _
  have orderedFits : ordered.length ≤ whole.size := by
    rw [arranges.perm.length_eq, size]
    exact List.length_filter_le _ _
  have canAnswer : CanAnswer db project.projectUUID search (int32 (atoi whole.limit).1)
      (int32 (atoi whole.offset).1) (.ok ordered) := by
    rw [CanAnswer, if_neg noZero]
    refine ⟨ordered, arranges, ?_⟩
    rw [Paging.int32_limit (by omega), Paging.int32_offset (by omega), page_natCast, start,
      pageOf_all orderedFits]
  have lists : ListsRows ordered [.json 200 (.arr (ordered.map (listedJson [])))] := ⟨[], rfl⟩
  obtain ⟨history, fromDb, reaches⟩ :=
    (listFunctions_runs_iff isProject).mpr ⟨_, canAnswer, lists⟩
  have listsOrder := answersEach whole (by omega) (by omega) _ _ fromDb reaches
  rw [start, pageOf_all orderFits] at listsOrder
  exact lists.unique listsOrder
    (fun row member => mem_functionsOf_of_selected (arranges.mem_iff.mp member))
    (fun row member => mem_functionsOf_of_wanted (isOrder.mem_iff.mp member))

theorem AnswersPages.selects : ∀ row ∈ functionsOf db project.projectUUID,
    searchMatches search row.name = decide (NameContains search row.name) := by
  obtain ⟨order, isOrder, unique⟩ := answers.exists_order isProject covers
  have arranges : Arranges FunctionRow.ListedBefore (selected db project.projectUUID search) _ :=
    arranges_insertionSort
  have same : (selected db project.projectUUID search).Perm (wanted db project.projectUUID search) :=
    arranges.perm.symm.trans (unique _ arranges ▸ isOrder)
  intro row member
  have mem_iff := same.mem_iff (a := row)
  rw [selected, wanted, List.mem_filter, List.mem_filter] at mem_iff
  rw [Bool.eq_iff_iff]
  exact (and_congr_right_iff.mp mem_iff) member

theorem AnswersPages.noTie : ¬ HasTie FunctionRow.ListedBefore
    (selected db project.projectUUID search) := by
  obtain ⟨order, -, unique⟩ := answers.exists_order isProject covers
  have distinct : (selected db project.projectUUID search).Nodup :=
    (functionsOf_nodup db project.projectUUID).filter _
  exact (unique_iff_not_hasTie distinct).mp ⟨order, unique⟩

theorem AnswersPages.isPageable : IsPageable db project.projectUUID search most last where
  limits := answers.limits isProject
  offsets := answers.offsets isProject
  noZero := answers.noZero isProject
  selects := answers.selects isProject covers
  noTie := not_hasTie_iff.mp (answers.noTie isProject covers)

end Answered

end Pages

/-- Pages that follow each other neither repeat nor skip a function. -/
theorem AnswersPages.consecutive {db : Database} {c : Context} {projectUUID : Uuid}
    {search : String} {most last : Nat} (answers : AnswersPages db c projectUUID search most last) :
    ∃ order, order.Perm (wanted db projectUUID search) ∧
      ∀ first second : Paging, second.start = first.start + first.size →
        first.size ≤ most → second.size ≤ most → second.start ≤ last →
        ∀ history replies later laterReplies, AnsweredFrom db history → AnsweredFrom db later →
          (listFunctions c (some search) (some first.limit) (some first.offset)).Reaches history
            (.done replies) →
          (listFunctions c (some search) (some second.limit) (some second.offset)).Reaches later
            (.done laterReplies) →
          ∃ rows next, ListsRows rows replies ∧ ListsRows next laterReplies ∧
            (rows ++ next).Nodup ∧
            rows ++ next = pageOf first.start (first.size + second.size) order := by
  obtain ⟨order, isOrder, answersEach⟩ := answers
  refine ⟨order, isOrder, ?_⟩
  intro first second follows firstFits secondFits starts history replies later laterReplies
    fromDb laterFromDb reaches laterReaches
  have lists := answersEach first firstFits (by omega) _ _ fromDb reaches
  have listsNext := answersEach second secondFits starts _ _ laterFromDb laterReaches
  have joined := pageOf_append first.start first.size second.size order
  rw [← follows] at joined
  refine ⟨_, _, lists, listsNext, ?_, joined⟩
  rw [joined]
  apply pageOf_nodup
  exact isOrder.nodup_iff.mpr ((functionsOf_nodup db projectUUID).filter _)

end FunctionHandlers

end Portal

end Litefunctions
