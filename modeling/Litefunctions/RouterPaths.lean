import Litefunctions.BrokerRequests

/-!
# Request paths of router and splitter

The router of the ingestor matches the segments of the escaped request path
and decodes each one.  The handlers do not ask it for the values; they split
the decoded path again.  A Go string is a text of bytes here, with one
character for each byte.
-/

namespace Litefunctions

namespace Ingestor

open SeparatedText

/-! ### Escaped paths -/

/-- `url.unescape` of a path: `%` and two hexadecimal digits stand for a byte. -/
def unescapeChars : List Char → Option (List Char)
  | [] => some []
  | char :: rest =>
      if char = '%' then
        match rest with
        | high :: low :: tail =>
            match HexText.byte? high low with
            | none => none
            | some byte => (unescapeChars tail).map (Char.ofNat byte.toNat :: ·)
        | _ => none
      else
        (unescapeChars rest).map (char :: ·)

def unescape (text : String) : Option String :=
  (unescapeChars text.toList).map String.ofList

/-- `url.PathUnescape` as the router uses it: what does not decode stays. -/
def pathUnescape (text : String) : String :=
  (unescape text).getD text

theorem unescapeChars_cons {char : Char} (plain : char ≠ '%') (rest : List Char) :
    unescapeChars (char :: rest) = (unescapeChars rest).map (char :: ·) := by
  rw [unescapeChars.eq_def]
  simp only [if_neg plain]

/-- A slash ends every escape sequence, and decodes to itself. -/
theorem unescapeChars_slash (first second : List Char) :
    unescapeChars (first ++ '/' :: second) =
      (unescapeChars first).bind fun before =>
        (unescapeChars second).map fun after => before ++ '/' :: after := by
  have slashHigh : ∀ low, HexText.byte? '/' low = none := fun low => rfl
  have slashLow : ∀ high, HexText.byte? high '/' = none := by
    intro high
    unfold HexText.byte?
    cases HexText.digitValue? high <;> rfl
  fun_induction unescapeChars first with
  | case1 => simp [unescapeChars_cons]
  | case2 high low tail invalid =>
      simp [unescapeChars, invalid]
  | case3 high low tail byte valid ih =>
      simp only [List.cons_append, unescapeChars, if_true, valid, ih]
      cases unescapeChars tail <;> cases unescapeChars second <;> rfl
  | case4 rest short =>
      match rest, short with
      | [], _ => cases second <;> simp [unescapeChars, slashHigh]
      | [high], _ => simp [unescapeChars, slashLow]
      | high :: low :: rest, short => exact absurd rfl (short high low rest)
  | case5 char rest plain ih =>
      rw [List.cons_append, unescapeChars_cons plain, ih]
      cases unescapeChars rest <;> cases unescapeChars second <;> rfl

/-- An escape sequence stands for at least one character. -/
theorem unescapeChars_ne_nil {text decoded : List Char}
    (isDecoded : unescapeChars text = some decoded) (nonempty : text ≠ []) : decoded ≠ [] := by
  fun_cases unescapeChars text with
  | case1 => exact absurd rfl nonempty
  | case2 high low tail invalid => simp [unescapeChars, invalid] at isDecoded
  | case3 high low tail byte valid =>
      simp only [unescapeChars, if_true, valid, Option.map_eq_some_iff] at isDecoded
      obtain ⟨rest, -, rfl⟩ := isDecoded
      exact List.cons_ne_nil _ _
  | case4 rest short =>
      match rest, short with
      | [], _ => simp [unescapeChars] at isDecoded
      | [high], _ => simp [unescapeChars] at isDecoded
      | high :: low :: rest, short => exact absurd rfl (short high low rest)
  | case5 char rest plain =>
      rw [unescapeChars_cons plain, Option.map_eq_some_iff] at isDecoded
      obtain ⟨rest, -, rfl⟩ := isDecoded
      exact List.cons_ne_nil _ _

/-! ### The router -/

inductive PatternSegment where
  | literal (text : String)
  | wildcard (name : String)
  deriving DecidableEq, Repr

inductive RouteHandler where
  | sync
  | sse
  | ws
  | runtimeHook
  deriving DecidableEq, Repr

/-- The patterns of `BuildRoutes`. -/
def buildRoutes : List (List PatternSegment × RouteHandler) :=
  [([.literal "lambda", .wildcard "project", .wildcard "name"], .sync),
    ([.literal "lambda", .literal "sse", .wildcard "project", .wildcard "name"], .sse),
    ([.literal "lambda", .literal "ws", .wildcard "project", .wildcard "name"], .ws),
    ([.literal "hook", .wildcard "language", .wildcard "project"], .runtimeHook)]

/-- Match a pattern against the segments of an escaped path; the result binds
the wildcards to the decoded segments. -/
def matchSegments : List PatternSegment → List String → Option (List (String × String))
  | [], [] => some []
  | .literal text :: pattern, segment :: segments =>
      if pathUnescape segment = text then matchSegments pattern segments else none
  | .wildcard name :: pattern, segment :: segments =>
      (matchSegments pattern segments).map ((name, pathUnescape segment) :: ·)
  | _, _ => none

/-- The segments of a path that the router does not redirect to a cleaned one. -/
def cleaned (segments : List String) : Bool :=
  segments.all fun segment => segment ≠ "" ∧ segment ≠ "." ∧ segment ≠ ".."

/-- The handler that the router dispatches an escaped path to. -/
def serveMux (escapedPath : String) : Option (RouteHandler × List (String × String)) :=
  match pieces '/' escapedPath with
  | "" :: segments =>
      if cleaned segments then
        buildRoutes.findSome? fun route =>
          (matchSegments route.1 segments).map fun bound => (route.2, bound)
      else
        none
  | _ => none

/-- The value that the router bound to a wildcard. -/
def pathValue (bound : List (String × String)) (name : String) : String :=
  (bound.lookup name).getD ""

/-- `parsePath` of the server package, the same code as that of the broker
package. -/
abbrev serverParsePath : String → String × String :=
  parsePath

/-! ### What the router binds -/

theorem pathUnescape_of_decoded {text : String} {decoded : List Char}
    (isDecoded : unescapeChars text.toList = some decoded) :
    pathUnescape text = String.ofList decoded := by
  rw [pathUnescape, unescape, isDecoded]
  rfl

/-- A path with two wildcards behind one literal segment. -/
theorem path_of_three {escapedPath path first second third : String}
    (cut : pieces '/' escapedPath = ["", first, second, third])
    (parsed : unescape escapedPath = some path) :
    path = "/" ++ pathUnescape first ++ "/" ++ pathUnescape second ++ "/" ++
      pathUnescape third := by
  have text : escapedPath.toList =
      '/' :: (first.toList ++ '/' :: (second.toList ++ '/' :: third.toList)) := by
    simpa using text_of_pieces cut
  rw [unescape, text, unescapeChars_cons (by decide), unescapeChars_slash,
    unescapeChars_slash] at parsed
  simp only [Option.map_eq_some_iff, Option.bind_eq_some_iff] at parsed
  obtain ⟨_, ⟨_, ⟨firstDecoded, isFirst, _, ⟨secondDecoded, isSecond, thirdDecoded, isThird, rfl⟩,
    rfl⟩, rfl⟩, rfl⟩ := parsed
  rw [pathUnescape_of_decoded isFirst, pathUnescape_of_decoded isSecond,
    pathUnescape_of_decoded isThird, ← String.toList_inj]
  simp

theorem path_of_four {escapedPath path first second third fourth : String}
    (cut : pieces '/' escapedPath = ["", first, second, third, fourth])
    (parsed : unescape escapedPath = some path) :
    path = "/" ++ pathUnescape first ++ "/" ++ pathUnescape second ++ "/" ++
      pathUnescape third ++ "/" ++ pathUnescape fourth := by
  have text : escapedPath.toList = '/' :: (first.toList ++ '/' :: (second.toList ++
      '/' :: (third.toList ++ '/' :: fourth.toList))) := by
    simpa using text_of_pieces cut
  rw [unescape, text, unescapeChars_cons (by decide), unescapeChars_slash,
    unescapeChars_slash, unescapeChars_slash] at parsed
  simp only [Option.map_eq_some_iff, Option.bind_eq_some_iff] at parsed
  obtain ⟨_, ⟨_, ⟨firstDecoded, isFirst, _, ⟨secondDecoded, isSecond, _,
    ⟨thirdDecoded, isThird, fourthDecoded, isFourth, rfl⟩, rfl⟩, rfl⟩, rfl⟩, rfl⟩ := parsed
  rw [pathUnescape_of_decoded isFirst, pathUnescape_of_decoded isSecond,
    pathUnescape_of_decoded isThird, pathUnescape_of_decoded isFourth, ← String.toList_inj]
  simp

/-- No segment of a cleaned path decodes to the empty text. -/
theorem pathUnescape_ne_empty {segments : List String} (isCleaned : cleaned segments = true)
    {segment : String} (member : segment ∈ segments) : pathUnescape segment ≠ "" := by
  have nonempty : segment ≠ "" := by
    have shape := List.all_eq_true.mp isCleaned segment member
    exact (of_decide_eq_true shape).1
  cases isDecoded : unescapeChars segment.toList with
  | none => simpa [pathUnescape, unescape, isDecoded] using nonempty
  | some decoded =>
      rw [pathUnescape_of_decoded isDecoded]
      have decodedNonempty := unescapeChars_ne_nil isDecoded (by simpa using nonempty)
      simpa [String.ext_iff] using decodedNonempty

theorem matchSegments_wildcards {project name : String} {segments : List String}
    {bound : List (String × String)}
    (matched : matchSegments [.wildcard project, .wildcard name] segments = some bound) :
    ∃ second third, segments = [second, third] ∧
      bound = [(project, pathUnescape second), (name, pathUnescape third)] := by
  rcases segments with _ | ⟨second, _ | ⟨third, _ | ⟨fourth, rest⟩⟩⟩
  · cases matched
  · cases matched
  · exact ⟨second, third, rfl, (Option.some.inj matched).symm⟩
  · cases matched

theorem matchSegments_literal {text : String} {pattern : List PatternSegment}
    {segments : List String} {bound : List (String × String)}
    (matched : matchSegments (.literal text :: pattern) segments = some bound) :
    ∃ first rest, segments = first :: rest ∧ pathUnescape first = text ∧
      matchSegments pattern rest = some bound := by
  cases segments with
  | nil => cases matched
  | cons first rest =>
      rw [matchSegments] at matched
      split at matched
      · next isText => exact ⟨first, rest, rfl, isText, matched⟩
      · cases matched

/-- The decoded path of a request that a pattern for functions dispatches. -/
inductive Dispatched (path project name : String) : RouteHandler → Prop
  | sync (pathEq : path = "/lambda/" ++ project ++ "/" ++ name) : Dispatched path project name .sync
  | sse (pathEq : path = "/lambda/sse/" ++ project ++ "/" ++ name) :
      Dispatched path project name .sse
  | ws (pathEq : path = "/lambda/ws/" ++ project ++ "/" ++ name) : Dispatched path project name .ws

theorem dispatched_of_serveMux {escapedPath path : String} {handler : RouteHandler}
    {bound : List (String × String)} (parsed : unescape escapedPath = some path)
    (dispatched : serveMux escapedPath = some (handler, bound))
    (lambda : handler ≠ .runtimeHook) :
    Dispatched path (pathValue bound "project") (pathValue bound "name") handler ∧
      pathValue bound "project" ≠ "" ∧ pathValue bound "name" ≠ "" := by
  unfold serveMux at dispatched
  split at dispatched
  case h_2 => cases dispatched
  case h_1 segments cut =>
    split at dispatched
    case isFalse => cases dispatched
    case isTrue isCleaned =>
      obtain ⟨route, member, matched⟩ := List.exists_of_findSome?_eq_some dispatched
      obtain ⟨found, binds, same⟩ := Option.map_eq_some_iff.mp matched
      obtain ⟨rfl, rfl⟩ := Prod.mk.inj same
      simp only [buildRoutes, List.mem_cons, List.not_mem_nil, or_false] at member
      rcases member with rfl | rfl | rfl | rfl
      · obtain ⟨first, rest, rfl, isLambda, binds⟩ := matchSegments_literal binds
        obtain ⟨second, third, rfl, rfl⟩ := matchSegments_wildcards binds
        refine ⟨.sync ?_, pathUnescape_ne_empty isCleaned (by simp),
          pathUnescape_ne_empty isCleaned (by simp)⟩
        rw [path_of_three cut parsed, isLambda]
        rfl
      · obtain ⟨first, rest, rfl, isLambda, binds⟩ := matchSegments_literal binds
        obtain ⟨second, rest, rfl, isKind, binds⟩ := matchSegments_literal binds
        obtain ⟨third, fourth, rfl, rfl⟩ := matchSegments_wildcards binds
        refine ⟨.sse ?_, pathUnescape_ne_empty isCleaned (by simp),
          pathUnescape_ne_empty isCleaned (by simp)⟩
        rw [path_of_four cut parsed, isLambda, isKind]
        rfl
      · obtain ⟨first, rest, rfl, isLambda, binds⟩ := matchSegments_literal binds
        obtain ⟨second, rest, rfl, isKind, binds⟩ := matchSegments_literal binds
        obtain ⟨third, fourth, rfl, rfl⟩ := matchSegments_wildcards binds
        refine ⟨.ws ?_, pathUnescape_ne_empty isCleaned (by simp),
          pathUnescape_ne_empty isCleaned (by simp)⟩
        rw [path_of_four cut parsed, isLambda, isKind]
        rfl
      · exact absurd rfl lambda

/-! ### What the splitter returns -/

/-- Neither half of a split path contains a slash. -/
theorem parsePath_slashless (path : String) :
    '/' ∉ (parsePath path).1.toList ∧ '/' ∉ (parsePath path).2.toList := by
  have slashless : ∀ (text : String) (index : Nat), '/' ∉ ((pieces '/' text).getD index "").toList := by
    intro text index inside
    rw [List.getD_eq_getElem?_getD] at inside
    cases found : (pieces '/' text)[index]? with
    | none => simp [found] at inside
    | some piece =>
        rw [found, Option.getD_some] at inside
        exact separator_notMem_pieces (List.mem_of_getElem? found) inside
  have empty : '/' ∉ ("" : String).toList := by simp
  have halves : ∀ first second : String, '/' ∉ first.toList → '/' ∉ second.toList →
      '/' ∉ (first, second).1.toList ∧ '/' ∉ (first, second).2.toList :=
    fun _ _ firstSlashless secondSlashless => ⟨firstSlashless, secondSlashless⟩
  rw [parsePath]
  dsimp only
  by_cases isEmpty : trim '/' path = ""
  · rw [if_pos isEmpty]
    exact halves _ _ empty empty
  · rw [if_neg isEmpty]
    generalize (if (pieces '/' (trim '/' path)).getD 1 "" = "sse" ∨
      (pieces '/' (trim '/' path)).getD 1 "" = "ws" then 2 else 1) = idx
    split
    · exact halves _ _ empty empty
    · split
      · exact halves _ _ empty empty
      · exact halves _ _ (slashless _ _) (slashless _ _)

section Splitter

variable {project name : String}

theorem trim_lambda (middle : String) (nonempty : name ≠ "") (slashless : '/' ∉ name.toList) :
    trim '/' ("/lambda" ++ middle ++ "/" ++ name) = "lambda" ++ middle ++ "/" ++ name := by
  have start : ("/lambda" ++ middle ++ "/" ++ name).toList.dropWhile (· == '/') =
      ("lambda" ++ middle ++ "/").toList ++ name.toList := by
    simp [String.toList_append]
  have nameNonempty : name.toList ≠ [] := by simpa using nonempty
  rw [trim, start, List.rdropWhile_eq_self_iff.mpr, ← String.toList_inj]
  · simp
  · intro wholeNonempty isSlash
    rw [List.getLast_append_of_ne_nil _ nameNonempty] at isSlash
    exact slashless (eq_of_beq isSlash ▸ List.getLast_mem nameNonempty)

/-- The splitter on a path whose pieces are known. -/
theorem parsePath_of_pieces {middle first second : String} {rest : List String}
    (nonempty : name ≠ "") (slashless : '/' ∉ name.toList)
    (cut : pieces '/' ("lambda" ++ middle ++ "/" ++ name) = "lambda" :: first :: second :: rest) :
    parsePath ("/lambda" ++ middle ++ "/" ++ name) =
      if first = "sse" ∨ first = "ws" then (if rest = [] then ("", "") else (second, rest.headD ""))
      else (first, second) := by
  have trimmed := trim_lambda middle nonempty slashless
  have notEmpty : "lambda" ++ middle ++ "/" ++ name ≠ "" := by
    intro isEmpty
    have chars := congrArg String.toList isEmpty
    simp at chars
  rw [parsePath]
  simp only [trimmed, if_neg notEmpty, cut]
  by_cases prefixed : first = "sse" ∨ first = "ws"
  · cases rest with
    | nil => simp [prefixed]
    | cons third rest =>
        simp only [List.length_cons, List.getD_cons_zero, ne_eq, not_true, or_false,
          List.getD_cons_succ, prefixed, if_true]
        rw [if_neg (by omega), if_neg (by omega), if_neg (List.cons_ne_nil _ _)]
        rfl
  · simp only [List.length_cons, List.getD_cons_zero, ne_eq, not_true, or_false,
      List.getD_cons_succ, prefixed, if_false]
    rw [if_neg (by omega), if_neg (by omega)]

theorem parsePath_two (projectSlashless : '/' ∉ project.toList)
    (nonempty : name ≠ "") (nameSlashless : '/' ∉ name.toList) :
    parsePath ("/lambda/" ++ project ++ "/" ++ name) =
      if project = "sse" ∨ project = "ws" then ("", "") else (project, name) := by
  have cut : pieces '/' ("lambda" ++ ("/" ++ project) ++ "/" ++ name) =
      ["lambda", project, name] := by
    rw [← String.append_assoc]
    have outer := pieces_append '/' ("lambda" ++ "/" ++ project) name
    have inner := pieces_append '/' "lambda" project
    rw [pieces_eq_singleton nameSlashless] at outer
    rw [pieces_eq_singleton projectSlashless] at inner
    exact outer.trans (congrArg (· ++ [name]) inner)
  have pathEq : "/lambda/" ++ project ++ "/" ++ name =
      "/lambda" ++ ("/" ++ project) ++ "/" ++ name := by
    rw [← String.append_assoc]
    rfl
  rw [pathEq, parsePath_of_pieces nonempty nameSlashless cut]
  rfl

/-- The pieces of a path with three segments behind `lambda`. -/
theorem pieces_lambda_three {kind : String} (kindSlashless : '/' ∉ kind.toList)
    (projectSlashless : '/' ∉ project.toList) (nameSlashless : '/' ∉ name.toList) :
    pieces '/' ("lambda" ++ ("/" ++ kind ++ "/" ++ project) ++ "/" ++ name) =
      ["lambda", kind, project, name] := by
  have outer := pieces_append '/' ("lambda" ++ ("/" ++ kind ++ "/" ++ project)) name
  have middle := pieces_append '/' ("lambda" ++ "/" ++ kind) project
  have inner := pieces_append '/' "lambda" kind
  rw [pieces_eq_singleton nameSlashless] at outer
  rw [pieces_eq_singleton projectSlashless] at middle
  rw [pieces_eq_singleton kindSlashless] at inner
  have start : "lambda" ++ ("/" ++ kind ++ "/" ++ project) =
      "lambda" ++ "/" ++ kind ++ "/" ++ project := by
    simp only [← String.append_assoc]
  have early : pieces '/' ("lambda" ++ ("/" ++ kind ++ "/" ++ project)) =
      ["lambda", kind, project] := by
    rw [start]
    exact middle.trans (congrArg (· ++ [project]) inner)
  exact outer.trans (congrArg (· ++ [name]) early)

theorem parsePath_three {kind : String} (isKind : kind = "sse" ∨ kind = "ws")
    (projectSlashless : '/' ∉ project.toList)
    (nonempty : name ≠ "") (nameSlashless : '/' ∉ name.toList) :
    parsePath ("/lambda/" ++ kind ++ "/" ++ project ++ "/" ++ name) = (project, name) := by
  have kindSlashless : '/' ∉ kind.toList := by
    rcases isKind with rfl | rfl <;> decide
  have cut := pieces_lambda_three kindSlashless projectSlashless nameSlashless
  have pathEq : "/lambda/" ++ kind ++ "/" ++ project ++ "/" ++ name =
      "/lambda" ++ ("/" ++ kind ++ "/" ++ project) ++ "/" ++ name := by
    simp only [← String.append_assoc]
    rfl
  rw [pathEq, parsePath_of_pieces nonempty nameSlashless cut, if_pos isKind]
  rfl

/-- Every two texts without a slash are the halves of some path. -/
theorem exists_parsePath_eq (projectSlashless : '/' ∉ project.toList)
    (nameSlashless : '/' ∉ name.toList) : ∃ path, parsePath path = (project, name) := by
  have early := pieces_lambda_three (show '/' ∉ "sse".toList by decide) projectSlashless
    nameSlashless
  have outer := pieces_append '/'
    ("lambda" ++ ("/" ++ "sse" ++ "/" ++ project) ++ "/" ++ name) "x"
  have cut : pieces '/' ("lambda" ++ ("/" ++ "sse" ++ "/" ++ project ++ "/" ++ name) ++ "/" ++ "x") =
      ["lambda", "sse", project, name, "x"] := by
    have start : "lambda" ++ ("/" ++ "sse" ++ "/" ++ project ++ "/" ++ name) =
        "lambda" ++ ("/" ++ "sse" ++ "/" ++ project) ++ "/" ++ name := by
      simp only [← String.append_assoc]
    rw [start]
    exact outer.trans (congrArg (· ++ ["x"]) early)
  exact ⟨_, parsePath_of_pieces (by decide) (by decide) cut⟩

end Splitter

/-! ### Agreement -/

/-- Both copies of the splitter return what the router bound exactly when the
decoded values contain no slash and, on the path of `Sync`, the project is
neither `sse` nor `ws`. -/
theorem parsePath_eq_pathValue_iff {escapedPath path : String}
    (parsed : unescape escapedPath = some path) {handler : RouteHandler}
    {bound : List (String × String)} (dispatched : serveMux escapedPath = some (handler, bound))
    (lambda : handler ≠ .runtimeHook) :
    (serverParsePath path = (pathValue bound "project", pathValue bound "name") ∧
        parsePath path = (pathValue bound "project", pathValue bound "name")) ↔
      '/' ∉ (pathValue bound "project").toList ∧ '/' ∉ (pathValue bound "name").toList ∧
        (handler = .sync → pathValue bound "project" ≠ "sse" ∧
          pathValue bound "project" ≠ "ws") := by
  obtain ⟨shape, projectNonempty, nameNonempty⟩ :=
    dispatched_of_serveMux parsed dispatched lambda
  generalize pathValue bound "project" = project at shape projectNonempty ⊢
  generalize pathValue bound "name" = name at shape nameNonempty ⊢
  rw [show serverParsePath = parsePath from rfl, and_self]
  constructor
  · intro agree
    have slashless := parsePath_slashless path
    rw [agree] at slashless
    refine ⟨slashless.1, slashless.2, ?_⟩
    rintro rfl
    cases shape with
    | sync pathEq =>
        rw [pathEq, parsePath_two slashless.1 nameNonempty slashless.2] at agree
        split at agree
        · exact absurd (congrArg Prod.fst agree).symm projectNonempty
        · next notPrefixed => exact not_or.mp notPrefixed
  · rintro ⟨projectSlashless, nameSlashless, notPrefixed⟩
    cases shape with
    | sync pathEq =>
        rw [pathEq, parsePath_two projectSlashless nameNonempty nameSlashless,
          if_neg (not_or.mpr (notPrefixed rfl))]
    | sse pathEq =>
        have joined : "/lambda/" ++ "sse" ++ "/" = "/lambda/sse/" := by decide
        have split := parsePath_three (.inl (rfl : "sse" = "sse")) projectSlashless nameNonempty
          nameSlashless
        rwa [joined, ← pathEq] at split
    | ws pathEq =>
        have joined : "/lambda/" ++ "ws" ++ "/" = "/lambda/ws/" := by decide
        have split := parsePath_three (.inr (rfl : "ws" = "ws")) projectSlashless nameNonempty
          nameSlashless
        rwa [joined, ← pathEq] at split

/-- What the router binds on a stream path. -/
def streamBound : List (String × String) :=
  [("project", "projone"), ("name", "one")]

/-- The two agree on a stream path with an escape sequence. -/
theorem parsePath_agrees_on_stream :
    serverParsePath "/lambda/sse/projone/one" =
        (pathValue streamBound "project", pathValue streamBound "name") ∧
      parsePath "/lambda/sse/projone/one" =
        (pathValue streamBound "project", pathValue streamBound "name") := by
  have parsed : unescape "/lambda/s%73e/projone/one" = some "/lambda/sse/projone/one" := by
    decide +kernel
  have dispatched : serveMux "/lambda/s%73e/projone/one" = some (.sse, streamBound) := by
    decide +kernel
  have plain : '/' ∉ (pathValue streamBound "project").toList ∧
      '/' ∉ (pathValue streamBound "name").toList := by
    decide +kernel
  exact (parsePath_eq_pathValue_iff parsed dispatched (by decide)).mpr
    ⟨plain.1, plain.2, fun isSync => nomatch isSync⟩

/-- The router dispatches a function of the project `ws` to `Sync`, where the
splitter takes `ws` for the prefix of a stream. -/
theorem parsePath_loses_project :
    serveMux "/lambda/ws/one" = some (.sync, [("project", "ws"), ("name", "one")]) ∧
      unescape "/lambda/ws/one" = some "/lambda/ws/one" ∧
      serverParsePath "/lambda/ws/one" ≠ ("ws", "one") := by
  decide +kernel

end Ingestor

end Litefunctions
