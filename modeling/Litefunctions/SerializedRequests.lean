import Litefunctions.ProxiedBodies

/-!
# Fields of serialised requests

The Lua parser finds the fields of a request with one pattern for the whole
head.  The white space behind a colon may reach across a line break, so that a
field without a visible value takes the next line for its value, and white space
at the start of a value is lost.  This file computes the fields that the parser
finds in any serialised request, and shows when they are those of the request.
-/

namespace Litefunctions

namespace LuaRuntime

open Lua Ingestor.Proxy

/-! ### Serialised requests -/

/-- Name and value of a field. -/
abbrev Field : Type := List UInt8 × List UInt8

def fieldLine (field : Field) : List UInt8 :=
  field.1 ++ [58, 32] ++ field.2

def requestLineOf (method path : List UInt8) : List UInt8 :=
  method ++ 32 :: (path ++ bytes " HTTP/1.1")

def headOf (method path : List UInt8) (fields : List Field) : List UInt8 :=
  joinLines (requestLineOf method path :: fields.map fieldLine)

/-- The bytes of a request. -/
def serialize (method path : List UInt8) (fields : List Field) (body : List UInt8) : List UInt8 :=
  headOf method path fields ++ 13 :: 10 :: body

/-- A token of a request line. -/
def IsToken (text : List UInt8) : Prop :=
  text ≠ [] ∧ ∀ byte ∈ text, isVisible byte = true

/-- The name holds no colon and no line break, and the value no line break. -/
def IsPlainField (field : Field) : Prop :=
  (∀ byte ∈ field.1, byte ≠ 58 ∧ notBreak byte = true) ∧ ∀ byte ∈ field.2, notBreak byte = true

/-- A request as clients write it: the fields have different names, and one of
them announces the length of the body. -/
structure IsRequest (method path : List UInt8) (fields : List Field) (body : List UInt8) : Prop where
  methodToken : IsToken method
  pathToken : IsToken path
  plain : ∀ field ∈ fields, IsPlainField field
  distinct : (fields.map Prod.fst).Nodup
  announced : ∃ field ∈ fields, lower field.1 = bytes "content-length" ∧
    tonumber field.2 = some body.length

/-- The parser returns the method, the path and the body, and under every name
in lower case the value of the field. -/
def ParsesBack (method path : List UInt8) (fields : List Field) (body : List UInt8) : Prop :=
  ∃ req, parseHttpRequest (serialize method path fields body) = some req ∧
    req.method = method ∧ req.path = path ∧ req.body = body ∧
    ∀ field ∈ fields, header req.headers (lower field.1) = some field.2

/-! ### The fields that the parser finds -/

/-- The value is white space or empty. -/
def isBlank (value : List UInt8) : Bool :=
  value.all isSpace

/-- The lines that are the start of a match, each with the fields behind it: a
field with a blank value takes the line behind it. -/
def ownLines : List Field → List (Field × List Field)
  | [] => []
  | [field] => [(field, [])]
  | field :: next :: later =>
      (field, next :: later) ::
        if field.1 ≠ [] ∧ isBlank field.2 then ownLines later else ownLines (next :: later)

/-- What the pattern captures at a line. -/
def readLine (line : Field × List Field) : Option Field :=
  if line.1.1 = [] then none
  else
    some (lower line.1.1,
      if isBlank line.1.2 then
        match line.2 with
        | [] => [line.1.2.getLast?.getD 32]
        | next :: _ => (fieldLine next).dropWhile isSpace
      else line.1.2.dropWhile isSpace)

def readFields (fields : List Field) : List Field :=
  (ownLines fields).filterMap readLine

/-! ### Matching a line -/

section Line

variable {name spaces value rest : List UInt8}

/-- The match at a line: the name, white space that reaches as far as it can,
and the rest of the line where it ends. -/
theorem matchItems_line {found : List (List UInt8) × List UInt8} {tail : List UInt8}
    (named : name ≠ []) (noColon : ∀ byte ∈ name, byte ≠ 58)
    (matched : matchItems false [.star isSpace, .capture notBreak] tail = some found) :
    matchItems false fieldItems (13 :: 10 :: (name ++ 58 :: tail)) =
      some (name :: found.1, found.2) := by
  have takesColon : (Item.literal 58).Takes [58] := Item.takes_singleton rfl
  have takesBreak : (Item.literal 10).Takes [10] := Item.takes_singleton rfl
  have takesReturn : (Item.literal 13).Takes [13] := Item.takes_singleton rfl
  have takesName : (Item.capture (· ≠ 58)).Takes name := by
    refine ⟨fun byte member => ?_, List.length_pos_iff.mpr named, fun isOnce => by cases isOnce⟩
    simpa [Item.capture] using noColon byte member
  have colon := matchItems_cons takesColon (.inl rfl) matched
  have nameFound := matchItems_cons takesName (.inr (by simp [Item.capture])) colon
  have break_ := matchItems_cons takesBreak (.inl rfl) nameFound
  exact matchItems_cons takesReturn (.inl rfl) break_

theorem matchItems_unnamed (tail : List UInt8) :
    matchItems false fieldItems (13 :: 10 :: 58 :: tail) = none := by
  simp [matchItems, fieldItems, Item.longest, Item.least, Item.literal, Item.capture]

/-- The white space ends at a visible byte. -/
theorem matchItems_value (areSpaces : ∀ byte ∈ spaces, isSpace byte = true)
    (someValue : value ≠ []) (visible : ∀ byte ∈ value.head?, isSpace byte = false)
    (inLine : ∀ byte ∈ value, notBreak byte = true) (lineEnds : ∀ byte ∈ rest.head?, byte = 13) :
    matchItems false [.star isSpace, .capture notBreak] (spaces ++ (value ++ rest)) =
      some ([value], rest) := by
  have ended : matchItems false [] rest = some ([], rest) := rfl
  have takesValue : (Item.capture notBreak).Takes value :=
    ⟨inLine, List.length_pos_iff.mpr someValue, fun isOnce => by cases isOnce⟩
  have takesSpaces : (Item.star isSpace).Takes spaces :=
    ⟨areSpaces, Nat.zero_le _, fun isOnce => by cases isOnce⟩
  have valueFound := matchItems_cons takesValue (.inr ?_) ended
  · refine matchItems_cons takesSpaces (.inr ?_) valueFound
    obtain ⟨first, later, rfl⟩ := List.exists_cons_of_ne_nil someValue
    simpa [Item.star] using visible
  · intro byte isHead
    rw [lineEnds byte isHead]
    rfl

/-- At the end of the head the white space gives back its last byte before the
line break. -/
theorem matchItems_lastBlank {last : UInt8} (areSpaces : ∀ byte ∈ spaces, isSpace byte = true)
    (lastSpace : isSpace last = true) (inLine : notBreak last = true) :
    matchItems false [.star isSpace, .capture notBreak] (spaces ++ [last, 13, 10]) =
      some ([[last]], [13, 10]) := by
  have allSpaces : (spaces ++ [last, 13, 10]).takeWhile isSpace = spaces ++ [last, 13, 10] := by
    have breaks : isSpace 13 = true ∧ isSpace 10 = true := by decide
    rw [List.takeWhile_append_of_pos areSpaces]
    simp [lastSpace, breaks]
  have longestEq : (Item.star isSpace).longest (spaces ++ [last, 13, 10]) = spaces.length + 3 := by
    rw [Item.longest, Item.star, if_neg (by simp)]
    simp only [allSpaces]
    simp
  have behind (count : Nat) : (spaces ++ [last, 13, 10]).drop (spaces.length + count) =
      [last, 13, 10].drop count := by
    simp
  have ended : matchItems false [] [13, 10] = some ([], [13, 10]) := rfl
  have takesLast : (Item.capture notBreak).Takes [last] := Item.takes_singleton inLine
  have lastFound : matchItems false [.capture notBreak] [last, 13, 10] =
      some ([[last]], [13, 10]) :=
    matchItems_cons takesLast (.inr (by simp; decide)) ended
  have noneThere : matchItems false [.capture notBreak] [] = none ∧
      matchItems false [.capture notBreak] [10] = none ∧
      matchItems false [.capture notBreak] [13, 10] = none := by
    decide
  have counts : (List.range' (Item.star isSpace).least
      (spaces.length + 3 + 1 - (Item.star isSpace).least)).reverse =
        (spaces.length + 3) :: (spaces.length + 2) :: (spaces.length + 1) :: (spaces.length + 0) ::
          (List.range' 0 spaces.length).reverse := by
    change (List.range' 0 (spaces.length + 4)).reverse = _
    simp [List.range'_concat]
  unfold matchItems
  rw [longestEq, counts]
  simp only [List.findSome?_cons, behind, List.drop_succ_cons, List.drop_zero, List.drop_nil,
    noneThere, lastFound, Option.map_none, Option.map_some]
  rfl

end Line

/-! ### Matching the head -/

theorem headersOf_match {name value tail rest : List UInt8} (named : name ≠ [])
    (noColon : ∀ byte ∈ name, byte ≠ 58)
    (matched : matchItems false [.star isSpace, .capture notBreak] tail = some ([value], rest)) :
    headersOf (13 :: 10 :: (name ++ 58 :: tail)) = (lower name, value) :: headersOf rest := by
  have found := matchItems_line named noColon matched
  unfold headersOf
  rw [fieldItems, gmatch_of_match found]
  rfl

theorem headersOf_skip {front text : List UInt8} (noReturn : 13 ∉ front) :
    headersOf (front ++ text) = headersOf text := by
  unfold headersOf
  rw [fieldItems, gmatch_skip noReturn]

theorem headersOf_unnamed (tail : List UInt8) :
    headersOf (13 :: 10 :: 58 :: tail) = headersOf (10 :: 58 :: tail) := by
  unfold headersOf
  rw [fieldItems, gmatch_of_not_match (matchItems_unnamed tail)]

section Fields

variable {field next : Field} {later : List Field}

theorem IsPlainField.noReturn (plain : IsPlainField field) : 13 ∉ field.1 ∧ 13 ∉ field.2 := by
  constructor
  · intro member
    exact absurd (plain.1 13 member).2 (by decide)
  · intro member
    exact absurd (plain.2 13 member) (by decide)

theorem fieldLine_inLine (plain : IsPlainField field) :
    ∀ byte ∈ fieldLine field, notBreak byte = true := by
  intro byte member
  simp only [fieldLine, List.mem_append, List.mem_cons, List.not_mem_nil, or_false] at member
  rcases member with (inName | rfl | rfl) | inValue
  · exact (plain.1 byte inName).2
  · rfl
  · rfl
  · exact plain.2 byte inValue

theorem dropWhile_visible {text : List UInt8} :
    ∀ byte ∈ (text.dropWhile isSpace).head?, isSpace byte = false := by
  intro byte isHead
  have notSpace := List.head?_dropWhile_not isSpace text
  rw [isHead] at notSpace
  simpa using notSpace

theorem dropWhile_ne_nil {text : List UInt8} (notBlank : isBlank text = false) :
    text.dropWhile isSpace ≠ [] := by
  intro isNil
  have allSpaces : isBlank text = true := by
    simpa [isBlank] using List.dropWhile_eq_nil_iff.mp isNil
  rw [allSpaces] at notBlank
  cases notBlank

theorem fieldLine_notBlank (field : Field) : isBlank (fieldLine field) = false := by
  have colon : isSpace 58 = false := by decide
  simp [isBlank, fieldLine, colon]

/-- The lines of some fields, with the line break before them. -/
def linesText (fields : List Field) : List UInt8 :=
  13 :: 10 :: joinLines (fields.map fieldLine)

theorem linesText_cons (field : Field) (later : List Field) :
    linesText (field :: later) =
      13 :: 10 :: (field.1 ++ 58 :: (32 :: field.2 ++ linesText later)) := by
  simp [linesText, fieldLine]

/-- A line whose name is empty holds no match. -/
theorem headersOf_unnamedLine (plain : IsPlainField field) (unnamed : field.1 = []) :
    headersOf (linesText (field :: later)) = headersOf (linesText later) := by
  have front : (10 : UInt8) :: 58 :: (32 :: field.2 ++ linesText later) =
      (10 :: 58 :: 32 :: field.2) ++ linesText later := by
    simp
  rw [linesText_cons, unnamed, List.nil_append, headersOf_unnamed, front]
  exact headersOf_skip (by simp [plain.noReturn.2])

/-- A value with a visible byte ends the white space in its own line. -/
theorem headersOf_visibleLine (plain : IsPlainField field) (named : field.1 ≠ [])
    (notBlank : isBlank field.2 = false) :
    headersOf (linesText (field :: later)) =
      (lower field.1, field.2.dropWhile isSpace) :: headersOf (linesText later) := by
  have areSpaces : ∀ byte ∈ 32 :: field.2.takeWhile isSpace, isSpace byte = true := by
    intro byte member
    rcases List.mem_cons.mp member with rfl | inValue
    · rfl
    · exact List.mem_takeWhile_imp inValue
  have inLine : ∀ byte ∈ field.2.dropWhile isSpace, notBreak byte = true := by
    intro byte member
    exact plain.2 byte ((List.dropWhile_suffix isSpace).subset member)
  have lineEnds : ∀ byte ∈ (linesText later).head?, byte = 13 := by
    simp [linesText]
  have matched := matchItems_value areSpaces (dropWhile_ne_nil notBlank) dropWhile_visible inLine
    lineEnds
  have tail : 32 :: field.2 ++ linesText later = (32 :: field.2.takeWhile isSpace) ++
      (field.2.dropWhile isSpace ++ linesText later) := by
    rw [List.cons_append, List.cons_append, ← List.append_assoc, List.takeWhile_append_dropWhile]
  rw [linesText_cons, tail]
  exact headersOf_match named (fun byte member => (plain.1 byte member).1) matched

/-- Behind a blank value the white space ends in the next line. -/
theorem headersOf_blankLine (plain : IsPlainField field) (named : field.1 ≠ [])
    (blank : isBlank field.2 = true) (plainNext : IsPlainField next) :
    headersOf (linesText (field :: next :: later)) =
      (lower field.1, (fieldLine next).dropWhile isSpace) :: headersOf (linesText later) := by
  have areSpaces : ∀ byte ∈ 32 :: field.2 ++ 13 :: 10 :: (fieldLine next).takeWhile isSpace,
      isSpace byte = true := by
    intro byte member
    simp only [List.mem_append, List.mem_cons] at member
    rcases member with (rfl | inValue) | rfl | rfl | inNext
    · rfl
    · exact List.all_eq_true.mp blank byte inValue
    · rfl
    · rfl
    · exact List.mem_takeWhile_imp inNext
  have inLine : ∀ byte ∈ (fieldLine next).dropWhile isSpace, notBreak byte = true := by
    intro byte member
    exact fieldLine_inLine plainNext byte ((List.dropWhile_suffix isSpace).subset member)
  have lineEnds : ∀ byte ∈ (linesText later).head?, byte = 13 := by
    simp [linesText]
  have matched := matchItems_value areSpaces (dropWhile_ne_nil (fieldLine_notBlank next))
    dropWhile_visible inLine lineEnds
  have tail : 32 :: field.2 ++ linesText (next :: later) =
      (32 :: field.2 ++ 13 :: 10 :: (fieldLine next).takeWhile isSpace) ++
        ((fieldLine next).dropWhile isSpace ++ linesText later) := by
    have split := List.takeWhile_append_dropWhile (p := isSpace) (l := fieldLine next)
    have lines : linesText (next :: later) = 13 :: 10 :: (fieldLine next ++ linesText later) := by
      simp [linesText]
    rw [lines]
    nth_rewrite 1 [← split]
    simp only [List.append_assoc, List.cons_append]
  rw [linesText_cons, tail]
  exact headersOf_match named (fun byte member => (plain.1 byte member).1) matched

theorem headersOf_lastBreak : headersOf (linesText []) = [] := by
  decide

/-- Behind a blank value at the end of the head there is no visible byte. -/
theorem headersOf_lastBlankLine (plain : IsPlainField field) (named : field.1 ≠ [])
    (blank : isBlank field.2 = true) :
    headersOf (linesText [field]) = [(lower field.1, [field.2.getLast?.getD 32])] := by
  obtain ⟨spaces, last, split⟩ : ∃ spaces last, 32 :: field.2 = spaces ++ [last] :=
    ⟨_, _, (List.dropLast_append_getLast (List.cons_ne_nil 32 field.2)).symm⟩
  have lastEq : field.2.getLast?.getD 32 = last := by
    have lasts := congrArg List.getLast? split
    rw [List.getLast?_cons, List.getLast?_concat] at lasts
    exact Option.some.inj lasts
  have areSpaces : ∀ byte ∈ spaces ++ [last], isSpace byte = true := by
    rw [← split]
    intro byte member
    rcases List.mem_cons.mp member with rfl | inValue
    · rfl
    · exact List.all_eq_true.mp blank byte inValue
  have lastInLine : notBreak last = true := by
    have member : last ∈ 32 :: field.2 := by
      rw [split]
      simp
    rcases List.mem_cons.mp member with rfl | inValue
    · rfl
    · exact plain.2 last inValue
  have matched := matchItems_lastBlank
    (fun byte member => areSpaces byte (List.mem_append_left [last] member))
    (areSpaces last (List.mem_append_right spaces List.mem_cons_self)) lastInLine
  have tail : 32 :: field.2 ++ linesText [] = spaces ++ [last, 13, 10] := by
    rw [split]
    simp [linesText, joinLines]
  have noMore : headersOf [13, 10] = [] := by
    decide
  rw [linesText_cons, tail, headersOf_match named (fun byte member => (plain.1 byte member).1) matched,
    noMore, lastEq]

/-- The fields that the parser finds are those of the lines that start a
match. -/
theorem headersOf_lines {fields : List Field} (plain : ∀ field ∈ fields, IsPlainField field) :
    headersOf (linesText fields) = readFields fields := by
  induction fields using ownLines.induct with
  | case1 => exact headersOf_lastBreak
  | case2 field =>
      have plainField := plain field List.mem_cons_self
      by_cases unnamed : field.1 = []
      · rw [headersOf_unnamedLine plainField unnamed, headersOf_lastBreak]
        simp [readFields, ownLines, readLine, unnamed]
      · cases blank : isBlank field.2 with
        | false =>
            rw [headersOf_visibleLine plainField unnamed blank, headersOf_lastBreak]
            simp [readFields, ownLines, readLine, unnamed, blank]
        | true =>
            rw [headersOf_lastBlankLine plainField unnamed blank]
            simp [readFields, ownLines, readLine, unnamed, blank]
  | case3 field next later ihLater ihNext =>
      have plainField := plain field List.mem_cons_self
      have plainNext : ∀ other ∈ next :: later, IsPlainField other :=
        fun other member => plain other (List.mem_cons_of_mem field member)
      have plainLater : ∀ other ∈ later, IsPlainField other :=
        fun other member => plainNext other (List.mem_cons_of_mem next member)
      by_cases unnamed : field.1 = []
      · rw [headersOf_unnamedLine plainField unnamed, ihNext plainNext]
        simp [readFields, ownLines, readLine, unnamed]
      · cases blank : isBlank field.2 with
        | false =>
            rw [headersOf_visibleLine plainField unnamed blank, ihNext plainNext]
            simp [readFields, ownLines, readLine, unnamed, blank]
        | true =>
            rw [headersOf_blankLine plainField unnamed blank (plainNext next List.mem_cons_self),
              ihLater plainLater]
            simp [readFields, ownLines, readLine, unnamed, blank]

end Fields

/-! ### The parsed request -/

section Parsed

variable {method path body : List UInt8} {fields : List Field}

theorem headersOf_headOf (methodToken : IsToken method) (pathToken : IsToken path)
    (plain : ∀ field ∈ fields, IsPlainField field) :
    headersOf (headOf method path fields) = readFields fields := by
  have noReturn : 13 ∉ requestLineOf method path := by
    have inVersion : 13 ∉ bytes " HTTP/1.1" := by decide +kernel
    have inMethod : 13 ∉ method := fun member => absurd (methodToken.2 13 member) (by decide)
    have inPath : 13 ∉ path := fun member => absurd (pathToken.2 13 member) (by decide)
    simp [requestLineOf, inMethod, inPath, inVersion]
  rw [headOf, joinLines_cons, headersOf_skip noReturn]
  exact headersOf_lines plain

theorem areLines_headOf (methodToken : IsToken method) (pathToken : IsToken path)
    (plain : ∀ field ∈ fields, IsPlainField field) :
    ∀ line ∈ requestLineOf method path :: fields.map fieldLine, IsLine line := by
  have inVersion : ∀ byte ∈ bytes " HTTP/1.1", notBreak byte = true := by decide +kernel
  intro line member
  rcases List.mem_cons.mp member with rfl | isField
  · constructor
    · simp [requestLineOf]
    · intro byte inLine
      simp only [requestLineOf, List.mem_append, List.mem_cons] at inLine
      rcases inLine with inMethod | rfl | inPath | isVersion
      · exact isVisible_notBreak (methodToken.2 byte inMethod)
      · rfl
      · exact isVisible_notBreak (pathToken.2 byte inPath)
      · exact inVersion byte isVersion
  · obtain ⟨field, inFields, rfl⟩ := List.mem_map.mp isField
    constructor
    · simp [fieldLine]
    · exact fieldLine_inLine (plain field inFields)

theorem parseHttpRequest_serialize (methodToken : IsToken method) (pathToken : IsToken path)
    (plain : ∀ field ∈ fields, IsPlainField field) :
    parseHttpRequest (serialize method path fields body) =
      if body.length < contentLength (readFields fields) then none
      else some ⟨method, path, readFields fields,
        body.take (contentLength (readFields fields))⟩ := by
  have found : findPlain [13, 10, 13, 10] (serialize method path fields body) =
      some ((headOf method path fields).length - 2) :=
    findPlain_joinLines (areLines_headOf methodToken pathToken plain) (List.cons_ne_nil _ _)
  have long : 2 ≤ (headOf method path fields).length := by
    rw [headOf, joinLines_cons]
    simp
    omega
  have headEq : (serialize method path fields body).take
      ((headOf method path fields).length - 2 + 2) = headOf method path fields := by
    rw [Nat.sub_add_cancel long, serialize, List.take_left]
  have bodyEq : (serialize method path fields body).drop
      ((headOf method path fields).length - 2 + 4) = body := by
    have behind : (headOf method path fields).length - 2 + 4 =
        (headOf method path fields).length + 2 := by
      omega
    rw [behind, serialize, List.drop_length_add_append]
    rfl
  have lineEq : parseRequestLine (headOf method path fields) = some (method, path) := by
    rw [headOf, joinLines_cons]
    exact parseRequestLine_tokens methodToken pathToken _
  unfold parseHttpRequest
  rw [found]
  simp only [headEq, bodyEq, lineEq, headersOf_headOf methodToken pathToken plain]

theorem parsesBack_iff_header (isRequest : IsRequest method path fields body) :
    ParsesBack method path fields body ↔
      ∀ field ∈ fields, header (readFields fields) (lower field.1) = some field.2 := by
  have parsed := @parseHttpRequest_serialize _ _ body _ isRequest.methodToken isRequest.pathToken
    isRequest.plain
  constructor
  · rintro ⟨req, isParsed, -, -, -, shown⟩
    rw [isParsed] at parsed
    split at parsed
    · cases parsed
    · obtain rfl := Option.some.inj parsed
      exact shown
  · intro shown
    obtain ⟨field, member, isLength, isNumber⟩ := isRequest.announced
    have lengthEq : contentLength (readFields fields) = body.length := by
      have found := shown field member
      rw [isLength] at found
      rw [contentLength, found, Option.getD_some, isNumber, Option.getD_some]
    rw [lengthEq, if_neg (Nat.lt_irrefl _), List.take_length] at parsed
    exact ⟨_, parsed, rfl, rfl, rfl, shown⟩

end Parsed

/-! ### Fields that are read as they are -/

/-- The parser finds every field: names are not empty, values begin with a
visible byte or are one byte, fields whose names differ in case only have one
value, and such a field stands in a line of its own, the last one if the value
is white space. -/
structure IsReadable (fields : List Field) : Prop where
  named : ∀ field ∈ fields, field.1 ≠ []
  shown : ∀ field ∈ fields, ∃ first rest, field.2 = first :: rest ∧
    (isSpace first = true → rest = [])
  sameValue : ∀ field ∈ fields, ∀ other ∈ fields, lower other.1 = lower field.1 →
    other.2 = field.2
  own : ∀ field ∈ fields, ∃ line ∈ ownLines fields, lower line.1.1 = lower field.1 ∧
    (isBlank field.2 = true → line.2 = [])

section Readable

variable {fields : List Field} {line : Field × List Field} {key value : List UInt8}

theorem header_eq_some {headers : List Field} (found : header headers key = some value) :
    (key, value) ∈ headers := by
  obtain ⟨entry, isEntry, rfl⟩ := Option.map_eq_some_iff.mp found
  have named := List.find?_some isEntry
  rw [decide_eq_true_eq] at named
  rw [← named]
  exact List.mem_reverse.mp (List.mem_of_find?_eq_some isEntry)

theorem header_of_forall {headers : List Field} (found : ∃ entry ∈ headers, entry.1 = key)
    (same : ∀ entry ∈ headers, entry.1 = key → entry.2 = value) : header headers key = some value := by
  obtain ⟨entry, member, named⟩ := found
  have isSome : (headers.reverse.find? (·.1 = key)).isSome := by
    rw [List.find?_isSome]
    exact ⟨entry, List.mem_reverse.mpr member, by simpa using named⟩
  obtain ⟨last, isLast⟩ := Option.isSome_iff_exists.mp isSome
  have lastNamed := List.find?_some isLast
  rw [decide_eq_true_eq] at lastNamed
  rw [header, isLast, Option.map_some,
    same last (List.mem_reverse.mp (List.mem_of_find?_eq_some isLast)) lastNamed]

theorem header_concat (headers : List Field) : header (headers ++ [(key, value)]) key = some value := by
  simp [header]

theorem mem_of_mem_ownLines (member : line ∈ ownLines fields) : line.1 ∈ fields := by
  induction fields using ownLines.induct with
  | case1 => cases member
  | case2 field =>
      rw [ownLines, List.mem_singleton] at member
      rw [member]
      exact List.mem_cons_self
  | case3 field next later ihLater ihNext =>
      rw [ownLines] at member
      rcases List.mem_cons.mp member with rfl | inRest
      · exact List.mem_cons_self
      · split at inRest
        · exact List.mem_cons_of_mem _ (List.mem_cons_of_mem _ (ihLater inRest))
        · exact List.mem_cons_of_mem _ (ihNext inRest)

/-- The line of the last field is the last one. -/
theorem getLast?_ownLines (member : line ∈ ownLines fields) (isLast : line.2 = []) :
    (ownLines fields).getLast? = some line := by
  induction fields using ownLines.induct with
  | case1 => cases member
  | case2 field =>
      rw [ownLines, List.mem_singleton] at member
      rw [member]
      rfl
  | case3 field next later ihLater ihNext =>
      rw [ownLines] at member ⊢
      rcases List.mem_cons.mp member with rfl | inRest
      · cases isLast
      · rw [List.getLast?_cons]
        split at inRest
        · next takes => rw [if_pos takes, ihLater inRest, Option.getD_some]
        · next takesNot => rw [if_neg takesNot, ihNext inRest, Option.getD_some]

theorem readLine_visible (named : line.1.1 ≠ []) {first : UInt8} {rest : List UInt8}
    (valueEq : line.1.2 = first :: rest) (visible : isSpace first = false) :
    readLine line = some (lower line.1.1, line.1.2) := by
  have notBlank : isBlank line.1.2 = false := by
    simp [isBlank, valueEq, visible]
  have kept : line.1.2.dropWhile isSpace = line.1.2 := by
    rw [valueEq, List.dropWhile_cons, visible]
    rfl
  simp [readLine, named, notBlank, kept]

theorem readLine_lastByte (named : line.1.1 ≠ []) {byte : UInt8} (valueEq : line.1.2 = [byte])
    (space : isSpace byte = true) (isLast : line.2 = []) :
    readLine line = some (lower line.1.1, line.1.2) := by
  simp [readLine, named, isLast, isBlank, valueEq, space]

/-- What the pattern captures begins with a visible byte, except at the end of
the head. -/
theorem readLine_shown (found : readLine line = some (key, value)) :
    line.1.1 ≠ [] ∧ lower line.1.1 = key ∧
      ((∃ first rest, value = first :: rest ∧ isSpace first = false) ∨
        (line.2 = [] ∧ ∃ byte, value = [byte])) := by
  unfold readLine at found
  split at found
  · cases found
  · next named =>
      obtain ⟨rfl, rfl⟩ := Prod.mk.inj (Option.some.inj found)
      refine ⟨named, rfl, ?_⟩
      have visible : ∀ text : List UInt8, isBlank text = false →
          ∃ first rest, text.dropWhile isSpace = first :: rest ∧ isSpace first = false := by
        intro text notBlank
        obtain ⟨first, rest, isCons⟩ := List.exists_cons_of_ne_nil (dropWhile_ne_nil notBlank)
        exact ⟨first, rest, isCons, dropWhile_visible first (by rw [isCons]; rfl)⟩
      split
      · cases lineEq : line.2 with
        | nil => exact .inr ⟨rfl, _, rfl⟩
        | cons next later => exact .inl (visible _ (fieldLine_notBlank next))
      · next notBlank => exact .inl (visible _ (eq_false_of_ne_true notBlank))

theorem isReadable_of_header
    (found : ∀ field ∈ fields, header (readFields fields) (lower field.1) = some field.2) :
    IsReadable fields := by
  have lines : ∀ field ∈ fields, ∃ line ∈ ownLines fields,
      readLine line = some (lower field.1, field.2) := by
    intro field member
    exact List.mem_filterMap.mp (header_eq_some (found field member))
  constructor
  · intro field member
    obtain ⟨line, -, isRead⟩ := lines field member
    obtain ⟨named, sameName, -⟩ := readLine_shown isRead
    intro isEmpty
    rw [isEmpty] at sameName
    exact named (List.map_eq_nil_iff.mp sameName)
  · intro field member
    obtain ⟨line, -, isRead⟩ := lines field member
    rcases (readLine_shown isRead).2.2 with ⟨first, rest, valueEq, visible⟩ | ⟨-, byte, valueEq⟩
    · exact ⟨first, rest, valueEq, fun space => by simp [visible] at space⟩
    · exact ⟨byte, [], valueEq, fun _ => rfl⟩
  · intro field member other otherMember sameName
    have ofOther := found other otherMember
    rw [sameName, found field member] at ofOther
    exact (Option.some.inj ofOther).symm
  · intro field member
    obtain ⟨line, isLine, isRead⟩ := lines field member
    obtain ⟨-, sameName, shown⟩ := readLine_shown isRead
    refine ⟨line, isLine, sameName, fun blank => ?_⟩
    rcases shown with ⟨first, rest, valueEq, visible⟩ | ⟨isLast, -⟩
    · simp [isBlank, valueEq, visible] at blank
    · exact isLast

theorem header_of_isReadable (readable : IsReadable fields) :
    ∀ field ∈ fields, header (readFields fields) (lower field.1) = some field.2 := by
  intro field member
  obtain ⟨line, isLine, sameName, atEnd⟩ := readable.own field member
  obtain ⟨first, rest, valueEq, single⟩ := readable.shown field member
  have lineMember := mem_of_mem_ownLines isLine
  have named := readable.named line.1 lineMember
  have sameValue := readable.sameValue field member line.1 lineMember sameName
  cases space : isSpace first with
  | false =>
      apply header_of_forall
      · refine ⟨(lower line.1.1, line.1.2), ?_, sameName⟩
        exact List.mem_filterMap.mpr
          ⟨line, isLine, readLine_visible named (sameValue.trans valueEq) space⟩
      · intro entry inFields isKey
        obtain ⟨other, isOther, isRead⟩ := List.mem_filterMap.mp inFields
        have otherMember := mem_of_mem_ownLines isOther
        have otherName : lower other.1.1 = lower field.1 :=
          (readLine_shown isRead).2.1.trans isKey
        have otherValue := readable.sameValue field member other.1 otherMember otherName
        have shown := readLine_visible (readable.named other.1 otherMember)
          (otherValue.trans valueEq) space
        rw [isRead] at shown
        rw [Option.some.inj shown]
        exact otherValue
  | true =>
      have restNil := single space
      subst restNil
      have isLast := atEnd (by simp [isBlank, valueEq, space])
      have isRead := readLine_lastByte named (sameValue.trans valueEq) space isLast
      obtain ⟨front, split⟩ := List.getLast?_eq_some_iff.mp (getLast?_ownLines isLine isLast)
      have fieldsEq : readFields fields =
          front.filterMap readLine ++ [(lower field.1, field.2)] := by
        rw [readFields, split, List.filterMap_append, List.filterMap_cons, isRead, sameName, sameValue]
        rfl
      rw [fieldsEq, header_concat]

end Readable

/-- A serialised request is parsed back exactly if the parser can read its
fields, whatever its method, its path and its body are. -/
theorem parsesBack_iff {method path body : List UInt8} {fields : List Field}
    (isRequest : IsRequest method path fields body) :
    ParsesBack method path fields body ↔ IsReadable fields := by
  rw [parsesBack_iff_header isRequest]
  exact ⟨isReadable_of_header, header_of_isReadable⟩

/-- The fields of a call of the function `h` with two bytes. -/
def callFields : List Field :=
  [(bytes "X-Litefunction-Name", [104]), (bytes "Content-Length", [50])]

theorem callFields_parsesBack :
    ParsesBack (bytes "POST") (bytes "/") callFields (bytes "ok") := by
  have readable : IsReadable callFields := by
    constructor
    · decide +kernel
    · intro field member
      rcases List.mem_pair.mp member with rfl | rfl
      · exact ⟨104, [], rfl, fun _ => rfl⟩
      · exact ⟨50, [], rfl, fun _ => rfl⟩
    · decide +kernel
    · decide +kernel
  have isRequest : IsRequest (bytes "POST") (bytes "/") callFields (bytes "ok") := by
    constructor
    · unfold IsToken
      decide +kernel
    · unfold IsToken
      decide +kernel
    · unfold IsPlainField
      decide +kernel
    · decide +kernel
    · decide +kernel
  exact (parsesBack_iff isRequest).mpr readable

/-- A field with an empty value swallows the name of the function. -/
theorem emptyValue_notParsedBack :
    ¬ ∀ method path fields body, IsRequest method path fields body →
      ParsesBack method path fields body := by
  intro parsesBack
  have isRequest : IsRequest (bytes "GET") (bytes "/")
      [(bytes "Accept", []), (bytes "X-Litefunction-Name", bytes "hello"),
        (bytes "Content-Length", bytes "0")] [] := by
    constructor
    · unfold IsToken
      decide +kernel
    · unfold IsToken
      decide +kernel
    · unfold IsPlainField
      decide +kernel
    · decide +kernel
    · decide +kernel
  have swallowed : (parseHttpRequest (serialize (bytes "GET") (bytes "/")
      [(bytes "Accept", []), (bytes "X-Litefunction-Name", bytes "hello"),
        (bytes "Content-Length", bytes "0")] [])).map (header ·.headers (bytes "accept")) =
          some (some (bytes "X-Litefunction-Name: hello")) := by
    decide +kernel
  obtain ⟨req, parsed, -, -, -, shown⟩ := parsesBack _ _ _ _ isRequest
  have empty : header req.headers (lower (bytes "Accept")) = some [] :=
    shown (bytes "Accept", []) List.mem_cons_self
  have isLower : lower (bytes "Accept") = bytes "accept" := by
    decide +kernel
  rw [parsed, Option.map_some, ← isLower, empty] at swallowed
  exact absurd swallowed (by decide +kernel)

end LuaRuntime

end Litefunctions
