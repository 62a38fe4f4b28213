import Litefunctions.ProxiedRequests

/-!
# Bodies that proxied requests lose

The Lua parser finds the end of the head of a proxied request, finds no length
in it, and takes an empty body, whichever way the bytes arrive.  So the payload
of the call is the body of the client exactly when that body is empty.
-/

namespace Litefunctions

namespace Ingestor

namespace Proxy

open Lua LuaRuntime

/-! ### Lines -/

/-- A line of the head. -/
def IsLine (line : List UInt8) : Prop :=
  line ≠ [] ∧ ∀ byte ∈ line, notBreak byte = true

theorem IsLine.noReturn {line : List UInt8} (isLine : IsLine line) : 13 ∉ line := fun member =>
  absurd (isLine.2 13 member) (by decide)

section Lines

variable {line : List UInt8} {lines : List (List UInt8)} {rest : List UInt8}

@[simp]
theorem joinLines_cons : joinLines (line :: lines) = line ++ 13 :: 10 :: joinLines lines := by
  simp [joinLines]

private theorem findPlain_lineBreak (noReturn : ∀ byte ∈ rest.head?, byte ≠ 13) :
    findPlain [13, 10, 13, 10] (13 :: 10 :: rest) =
      (findPlain [13, 10, 13, 10] rest).map (· + 2) := by
  have afterReturn : ¬ [13, 10, 13, 10] <+: 13 :: 10 :: rest := by
    rintro ⟨tail, isPrefix⟩
    have restEq : rest = 13 :: 10 :: tail := by simpa using isPrefix.symm
    exact noReturn 13 (by rw [restEq]; rfl) rfl
  have behind := @findPlain_skip rest 13 [10, 13, 10] [10] (by decide)
  rw [List.singleton_append] at behind
  rw [findPlain, if_neg (by rwa [List.isPrefixOf_iff_prefix]), behind, Option.map_map]
  rfl

/-- The first empty line is the one behind the lines. -/
theorem findPlain_joinLines (areLines : ∀ line ∈ lines, IsLine line) (notEmpty : lines ≠ []) :
    findPlain [13, 10, 13, 10] (joinLines lines ++ 13 :: 10 :: rest) =
      some ((joinLines lines).length - 2) := by
  induction lines with
  | nil => exact absurd rfl notEmpty
  | cons line lines ih =>
      have isLine := areLines line List.mem_cons_self
      rw [joinLines_cons, List.append_assoc, findPlain_skip isLine.noReturn]
      cases lines with
      | nil => simp [findPlain, joinLines]
      | cons next lines =>
          have laterLines := fun line member => areLines line (List.mem_cons_of_mem _ member)
          have later := ih laterLines (by simp)
          have noReturn : ∀ byte ∈ (joinLines (next :: lines) ++ 13 :: 10 :: rest).head?, byte ≠ 13 := by
            obtain ⟨first, tail, rfl⟩ :=
              List.exists_cons_of_ne_nil (laterLines next List.mem_cons_self).1
            intro byte isHead isReturn
            simp only [joinLines_cons, List.cons_append, List.head?_cons, Option.mem_some_iff] at isHead
            exact (laterLines _ List.mem_cons_self).noReturn (by simp [isHead, isReturn])
          rw [List.cons_append, List.cons_append, findPlain_lineBreak noReturn, later, Option.map_map,
            Option.map_some]
          have long : 2 ≤ (joinLines (next :: lines)).length := by
            simp
            omega
          simp only [Function.comp_apply, List.length_append, List.length_cons]
          congr 1
          omega

/-- Behind a line break in the lines stand the lines after it. -/
theorem exists_drop_of_joinLines {front tail : List UInt8} (areLines : ∀ line ∈ lines, IsLine line)
    (split : joinLines lines = front ++ 13 :: 10 :: tail) :
    ∃ skipped later, lines = skipped ++ later ∧ skipped ≠ [] ∧ tail = joinLines later := by
  induction lines generalizing front with
  | nil => simp [joinLines] at split
  | cons line lines ih =>
      have isLine := areLines line List.mem_cons_self
      rw [joinLines_cons] at split
      rcases List.append_eq_append_iff.mp split with ⟨more, frontEq, restEq⟩ | ⟨more, lineEq, restEq⟩
      · match more with
        | [] => exact ⟨[line], lines, rfl, by simp, (by simpa using restEq.symm)⟩
        | [first] =>
            have clash : (10 : UInt8) = 13 := (List.cons.inj (List.cons.inj restEq).2).1
            exact absurd clash (by decide)
        | first :: second :: more =>
            have later : joinLines lines = more ++ 13 :: 10 :: tail :=
              (List.cons.inj (List.cons.inj restEq).2).2
            obtain ⟨skipped, after, rfl, -, tailEq⟩ :=
              ih (fun line member => areLines line (List.mem_cons_of_mem _ member)) later
            exact ⟨line :: skipped, after, rfl, by simp, tailEq⟩
      · cases more with
        | nil => exact ⟨[line], lines, rfl, by simp, (by simpa using restEq)⟩
        | cons byte more =>
            obtain ⟨rfl, -⟩ := List.cons.inj restEq
            exact absurd (lineEq ▸ List.mem_append_right _ List.mem_cons_self) isLine.noReturn

end Lines

/-! ### The head of a proxied request -/

theorem validInValue_notBreak {byte : UInt8} (valid : validInValue byte = true) :
    notBreak byte = true := by
  unfold notBreak
  refine decide_eq_true ⟨?_, ?_⟩ <;> rintro rfl <;> exact absurd valid (by decide)

theorem isVisible_notBreak {byte : UInt8} (visible : isVisible byte = true) :
    notBreak byte = true := by
  unfold notBreak
  refine decide_eq_true ⟨?_, ?_⟩ <;> rintro rfl <;> exact absurd visible (by decide)

theorem mem_of_mem_trimSpace {byte : UInt8} {text : List UInt8} (member : byte ∈ trimSpace text) :
    byte ∈ text := by
  unfold trimSpace at member
  have inTail := (List.dropWhile_suffix _).subset (List.mem_reverse.mp member)
  exact (List.dropWhile_suffix _).subset (List.mem_reverse.mp inTail)

private theorem colonBytes : bytes ": " = [58, 32] := by
  decide

theorem HeaderField.isLine (field : HeaderField) : IsLine field.line := by
  refine ⟨by simp [HeaderField.line, field.plainName.1], fun byte member => ?_⟩
  rw [HeaderField.line, colonBytes] at member
  rcases List.mem_append.mp member with inFront | inValue
  · rcases List.mem_append.mp inFront with inName | inColon
    · exact isVisible_notBreak (field.plainName.2 byte inName).1
    · simp only [List.mem_cons, List.not_mem_nil, or_false] at inColon
      rcases inColon with rfl | rfl <;> decide
  · exact validInValue_notBreak (field.plainValue byte (mem_of_mem_trimSpace inValue))

theorem HeaderField.colon_notMem (field : HeaderField) : 58 ∉ field.name := fun member =>
  (field.plainName.2 58 member).2 rfl

private theorem keptInPath_visible {byte : UInt8} (kept : keptInPath byte = true) :
    isVisible byte = true := by
  unfold isVisible isSpace
  rw [Bool.not_eq_true', decide_eq_false_iff_not]
  rintro (rfl | ⟨above, below⟩)
  · exact absurd kept (by decide +kernel)
  · unfold keptInPath at kept
    have marks : ∀ mark ∈ bytes "-_.~$&+,/:;=@", 13 < mark := by
      decide +kernel
    rcases of_decide_eq_true kept with ⟨digit, -⟩ | ⟨upper, -⟩ | ⟨lower, -⟩ | isMark
    · exact absurd (UInt8.le_trans digit below) (by decide)
    · exact absurd (UInt8.le_trans upper below) (by decide)
    · exact absurd (UInt8.le_trans lower below) (by decide)
    · exact absurd (marks byte isMark) (UInt8.not_lt.mpr below)

private theorem hexDigit_visible {digit : UInt8} (small : digit < 16) :
    isVisible (hexDigit digit) = true := by
  have all : ∀ number : Fin 16, isVisible (hexDigit (UInt8.ofNat number)) = true := by
    decide +kernel
  simpa using all ⟨digit.toNat, UInt8.lt_iff_toNat_lt.mp small⟩

theorem escapePath_visible {path : List UInt8} {byte : UInt8} (member : byte ∈ escapePath path) :
    isVisible byte = true := by
  obtain ⟨plain, -, isEscaped⟩ := List.mem_flatMap.mp member
  split at isEscaped
  · next kept =>
      obtain rfl := List.mem_singleton.mp isEscaped
      exact keptInPath_visible kept
  · simp only [List.mem_cons, List.not_mem_nil, or_false] at isEscaped
    rcases isEscaped with rfl | rfl | rfl
    · decide
    · apply hexDigit_visible
      rw [UInt8.lt_iff_toNat_lt, UInt8.toNat_div]
      have bound := plain.toNat_lt
      exact Nat.div_lt_of_lt_mul bound
    · apply hexDigit_visible
      rw [UInt8.lt_iff_toNat_lt, UInt8.toNat_mod]
      exact Nat.mod_lt _ (by decide)

theorem runtimePath_ne_nil (request : ProxiedRequest) : runtimePath request ≠ [] := by
  unfold runtimePath
  split
  · simp
  · split <;> simp

theorem target_visible (request : ProxiedRequest) :
    target request ≠ [] ∧ ∀ byte ∈ target request, isVisible byte = true := by
  unfold target
  constructor
  · obtain ⟨first, rest, pathEq⟩ := List.exists_cons_of_ne_nil (runtimePath_ne_nil request)
    rw [pathEq]
    unfold escapePath
    rw [List.flatMap_cons]
    split <;> simp
  · intro byte member
    rcases List.mem_append.mp member with inPath | inQuery
    · exact escapePath_visible inPath
    · split at inQuery
      · cases inQuery
      · rcases List.mem_cons.mp inQuery with rfl | inQuery
        · decide
        · exact request.plainQuery byte inQuery

private theorem versionBytes : bytes " HTTP/1.1" = [32, 72, 84, 84, 80, 47, 49, 46, 49] := by
  decide

theorem requestLine_isLine (request : ProxiedRequest) : IsLine (requestLine request) := by
  apply And.intro (by simp [requestLine])
  intro byte member
  rw [requestLine, versionBytes] at member
  rcases List.mem_append.mp member with inMethod | inRest
  · exact isVisible_notBreak (request.methodToken.2 byte inMethod)
  · rcases List.mem_cons.mp inRest with rfl | inRest
    · decide
    · rcases List.mem_append.mp inRest with inTarget | inVersion
      · exact isVisible_notBreak ((target_visible request).2 byte inTarget)
      · simp only [List.mem_cons, List.not_mem_nil, or_false] at inVersion
        rcases inVersion with rfl | rfl | rfl | rfl | rfl | rfl | rfl | rfl | rfl <;> decide

theorem head_areLines (request : ProxiedRequest) :
    ∀ line ∈ requestLine request :: (fields request).map HeaderField.line, IsLine line := by
  intro line member
  rcases List.mem_cons.mp member with rfl | isField
  · exact requestLine_isLine request
  · obtain ⟨field, -, rfl⟩ := List.mem_map.mp isField
    exact field.isLine

/-- Every match of the pattern of a field starts at a field. -/
theorem exists_field_of_mem_gmatch {request : ProxiedRequest} {captures : List (List UInt8)}
    (member : captures ∈ gmatch fieldItems (head request)) :
    ∃ field ∈ fields request, ∃ value later rest, captures = [field.name, value] ∧
      matchItems false fieldItems (13 :: 10 :: (field.line ++ 13 :: 10 :: later)) =
        some (captures, rest) := by
  obtain ⟨front, suffix, rest, headEq, found⟩ := exists_matchItems_of_mem_gmatch member
  obtain ⟨segments, taken, suffixEq, capturesEq, -⟩ := matchItems_sound found
  simp only [fieldItems, List.forall₂_cons_left_iff, List.forall₂_nil_left_iff] at taken
  obtain ⟨_, _, isReturn, ⟨_, _, isBreak, ⟨key, _, keyTakes, ⟨_, _, isColon, ⟨spaces, _, -,
    ⟨value, _, -, rfl, rfl⟩, rfl⟩, rfl⟩, rfl⟩, rfl⟩, rfl⟩ := taken
  obtain rfl := Item.eq_of_takes_literal isReturn
  obtain rfl := Item.eq_of_takes_literal isBreak
  obtain rfl := Item.eq_of_takes_literal isColon
  have suffixIs : suffix = 13 :: 10 :: (key ++ 58 :: (spaces ++ value ++ rest)) := by
    rw [suffixEq]
    simp
  have noColon : 58 ∉ key := fun isIn => by
    have accepted := keyTakes.1 58 isIn
    simp [Item.capture] at accepted
  obtain ⟨skipped, later, linesEq, skippedSome, tailEq⟩ :=
    exists_drop_of_joinLines (head_areLines request) (headEq.trans (congrArg (front ++ ·) suffixIs))
  obtain ⟨first, skipped, rfl⟩ := List.exists_cons_of_ne_nil skippedSome
  obtain ⟨-, fieldsEq⟩ := List.cons.inj linesEq
  cases later with
  | nil =>
      have empty : key ++ 58 :: (spaces ++ value ++ rest) = [] := tailEq
      simp at empty
  | cons line later =>
      have lineMember : line ∈ (fields request).map HeaderField.line := by
        rw [fieldsEq]
        simp
      obtain ⟨field, member, rfl⟩ := List.mem_map.mp lineMember
      have split : key ++ 58 :: (spaces ++ value ++ rest) =
          field.name ++ 58 :: (32 :: (trimSpace field.value ++ 13 :: 10 :: joinLines later)) := by
        rw [tailEq, joinLines_cons, HeaderField.line, colonBytes]
        simp
      obtain rfl : key = field.name := by
        have cut (text : List UInt8) {name : List UInt8} (notIn : 58 ∉ name) :
            (name ++ 58 :: text).takeWhile (· ≠ 58) = name := by
          rw [List.takeWhile_append_of_pos]
          · simp
          · intro byte inName
            simpa using fun isColon : byte = 58 => notIn (isColon ▸ inName)
        rw [← cut (spaces ++ value ++ rest) noColon, split, cut _ field.colon_notMem]
      refine ⟨field, member, value, joinLines later, rest, ?_, ?_⟩
      · exact capturesEq
      · rw [← joinLines_cons, ← tailEq, ← suffixIs]
        exact found

/-- The only length that the client writes is zero. -/
theorem value_of_contentLength {request : ProxiedRequest} {field : HeaderField}
    (member : field ∈ fields request) (isLength : lower field.name = bytes "content-length") :
    trimSpace field.value = [48] := by
  unfold fields at member
  simp only [List.mem_cons, List.mem_append, List.mem_insertionSort, List.mem_filter] at member
  rcases member with (((rfl | isAgent) | isFraming) | ⟨-, isOther⟩) | isEncoding
  · have notLength : lower (bytes "Host") ≠ bytes "content-length" := by
      decide +kernel
    exact absurd isLength notLength
  · unfold userAgentField at isAgent
    split at isAgent
    · next agent found =>
        have agentName := List.find?_some found
        simp only [decide_eq_true_eq] at agentName
        split at isAgent
        · cases isAgent
        · obtain rfl := List.mem_singleton.mp isAgent
          exact absurd (agentName.symm.trans isLength) (by decide +kernel)
    · obtain rfl := List.mem_singleton.mp isAgent
      exact absurd isLength (by decide +kernel)
  · cases framingEq : framing request with
    | absent =>
        rw [framingEq] at isFraming
        cases isFraming
    | lengthZero =>
        rw [framingEq] at isFraming
        obtain rfl := List.mem_singleton.mp isFraming
        decide +kernel
    | chunked pieces =>
        rw [framingEq] at isFraming
        obtain rfl := List.mem_singleton.mp isFraming
        exact absurd isLength (by decide +kernel)
  · rw [isLength] at isOther
    exact absurd isOther (by decide +kernel)
  · unfold acceptEncodingField at isEncoding
    split at isEncoding
    · cases isEncoding
    · obtain rfl := List.mem_singleton.mp isEncoding
      exact absurd isLength (by decide +kernel)

/-- The match at a field with the value `0`. -/
private theorem matchItems_zero (field : HeaderField) (isZero : trimSpace field.value = [48])
    (later : List UInt8) :
    matchItems false fieldItems (13 :: 10 :: (field.line ++ 13 :: 10 :: later)) =
      some ([field.name, [48]], 13 :: 10 :: later) := by
  have ended : matchItems false [] (13 :: 10 :: later) = some ([], 13 :: 10 :: later) := rfl
  have takesValue : (Item.capture notBreak).Takes [48] :=
    Item.takes_singleton rfl
  have takesSpace : (Item.star isSpace).Takes [32] :=
    Item.takes_singleton rfl
  have takesColon : (Item.literal 58).Takes [58] :=
    Item.takes_singleton rfl
  have takesName : (Item.capture (· ≠ 58)).Takes field.name := by
    refine ⟨fun byte member => ?_, List.length_pos_iff.mpr field.plainName.1,
      fun isOnce => by cases isOnce⟩
    simpa [Item.capture] using (field.plainName.2 byte member).2
  have takesBreak : (Item.literal 10).Takes [10] :=
    Item.takes_singleton rfl
  have takesReturn : (Item.literal 13).Takes [13] :=
    Item.takes_singleton rfl
  have value := matchItems_cons takesValue (.inr (by simp; decide)) ended
  have space := matchItems_cons takesSpace (.inr (by simp; decide)) value
  have colon := matchItems_cons takesColon (.inl rfl) space
  have name := matchItems_cons takesName (.inr (by simp [Item.capture])) colon
  have break_ := matchItems_cons takesBreak (.inl rfl) name
  have return_ := matchItems_cons takesReturn (.inl rfl) break_
  have lineEq : 13 :: 10 :: (field.line ++ 13 :: 10 :: later) =
      [13] ++ ([10] ++ (field.name ++ ([58] ++ ([32] ++ ([48] ++ 13 :: 10 :: later))))) := by
    rw [HeaderField.line, colonBytes, isZero]
    simp
  rw [lineEq]
  exact return_

theorem contentLength_head (request : ProxiedRequest) :
    contentLength (headersOf (head request)) = 0 := by
  unfold contentLength header
  cases found : (headersOf (head request)).reverse.find? (·.1 = bytes "content-length") with
  | none => decide +kernel
  | some pair =>
      have isLength := List.find?_some found
      simp only [decide_eq_true_eq] at isLength
      have member := List.mem_reverse.mp (List.mem_of_find?_eq_some found)
      obtain ⟨captures, isMatch, pairEq⟩ := List.mem_filterMap.mp member
      obtain ⟨field, fieldMember, value, later, rest, rfl, matched⟩ := exists_field_of_mem_gmatch isMatch
      obtain rfl := Option.some.inj pairEq
      have isZero := matchItems_zero field (value_of_contentLength fieldMember isLength) later
      obtain ⟨sameCaptures, -⟩ := Prod.mk.inj (Option.some.inj (matched.symm.trans isZero))
      obtain rfl : value = [48] := by simpa using sameCaptures
      show (tonumber [48]).getD 0 = 0
      decide

/-! ### The parsed request -/

/-- The parser takes method and path from the first line. -/
theorem parseRequestLine_tokens {method path : List UInt8}
    (methodToken : method ≠ [] ∧ ∀ byte ∈ method, isVisible byte = true)
    (pathToken : path ≠ [] ∧ ∀ byte ∈ path, isVisible byte = true) (rest : List UInt8) :
    parseRequestLine (method ++ 32 :: (path ++ bytes " HTTP/1.1") ++ 13 :: 10 :: rest) =
      some (method, path) := by
  have inLine : ∀ byte ∈ method ++ 32 :: (path ++ bytes " HTTP/1.1"), notBreak byte = true := by
    have version : ∀ byte ∈ bytes " HTTP/1.1", notBreak byte = true := by decide +kernel
    intro byte member
    simp only [List.mem_append, List.mem_cons] at member
    rcases member with inMethod | rfl | inPath | inVersion
    · exact isVisible_notBreak (methodToken.2 byte inMethod)
    · rfl
    · exact isVisible_notBreak (pathToken.2 byte inPath)
    · exact version byte inVersion
  have takesLine : (Item.capture notBreak).Takes (method ++ 32 :: (path ++ bytes " HTTP/1.1")) :=
    ⟨inLine, by simp [Item.least, Item.capture]; omega, fun isOnce => by cases isOnce⟩
  have takesMethod : (Item.capture isVisible).Takes method :=
    ⟨methodToken.2, List.length_pos_iff.mpr methodToken.1, fun isOnce => by cases isOnce⟩
  have takesSpace : (Item.plus isSpace).Takes [32] :=
    Item.takes_singleton rfl
  have takesPath : (Item.capture isVisible).Takes path :=
    ⟨pathToken.2, List.length_pos_iff.mpr pathToken.1, fun isOnce => by cases isOnce⟩
  have ended (rest : List UInt8) : matchItems false [] rest = some ([], rest) := rfl
  have line := matchItems_cons takesLine (.inr (by simp; decide)) (ended (13 :: 10 :: rest))
  have pathFound := matchItems_cons takesPath (.inr (by rw [versionBytes]; simp; decide))
    (ended (bytes " HTTP/1.1"))
  obtain ⟨first, later, pathEq⟩ := List.exists_cons_of_ne_nil pathToken.1
  have firstVisible : isVisible first = true := pathToken.2 first (pathEq ▸ List.mem_cons_self)
  have space := matchItems_cons takesSpace
    (.inr (by simpa [pathEq, Item.plus, isVisible] using firstVisible)) pathFound
  have words := matchItems_cons takesMethod (.inr (by simp; decide)) space
  have lineEq : method ++ 32 :: (path ++ bytes " HTTP/1.1") =
      method ++ ([32] ++ (path ++ bytes " HTTP/1.1")) := rfl
  have foundLine : matchAnchored false [.capture notBreak]
      (method ++ 32 :: (path ++ bytes " HTTP/1.1") ++ 13 :: 10 :: rest) =
        some [method ++ 32 :: (path ++ bytes " HTTP/1.1")] := by
    rw [matchAnchored, line]
    rfl
  have foundWords : matchAnchored false [.capture isVisible, .plus isSpace, .capture isVisible]
      (method ++ 32 :: (path ++ bytes " HTTP/1.1")) = some [method, path] := by
    rw [matchAnchored, lineEq, words]
    rfl
  unfold parseRequestLine
  simp only [foundLine, foundWords, Option.bind_eq_bind, Option.bind_some]
  rfl

theorem parseRequestLine_head (request : ProxiedRequest) :
    parseRequestLine (head request) = some (request.method, target request) := by
  rw [head, joinLines_cons]
  exact parseRequestLine_tokens request.methodToken (target_visible request) _

/-- The request that the runtime gets. -/
def received (request : ProxiedRequest) : HttpRequest :=
  ⟨request.method, target request, headersOf (head request), []⟩

/-- A part of the bytes is parsed once it has the whole head, and then without
a body. -/
theorem parseHttpRequest_part {request : ProxiedRequest} {buf more : List UInt8}
    (split : buf ++ more = wire request) :
    parseHttpRequest buf =
      if (head request).length + 2 ≤ buf.length then some (received request) else none := by
  have foundIn : findPlain [13, 10, 13, 10] (buf ++ more) = some ((head request).length - 2) := by
    rw [split, wire, List.append_assoc]
    exact findPlain_joinLines (head_areLines request) (by simp)
  have long : 2 ≤ (head request).length := by
    simp [head]
    omega
  split
  · next whole =>
      have found : findPlain [13, 10, 13, 10] buf = some ((head request).length - 2) :=
        findPlain_append_iff.mpr ⟨foundIn, by simp only [List.length_cons, List.length_nil]; omega⟩
      have headEq : buf.take ((head request).length - 2 + 2) = head request := by
        rw [Nat.sub_add_cancel long]
        have inBuf : (buf ++ more).take (head request).length = buf.take (head request).length :=
          List.take_append_of_le_length (by omega)
        rw [← inBuf, split, wire, List.append_assoc, List.take_left]
      unfold parseHttpRequest
      rw [found]
      simp only [headEq, parseRequestLine_head, contentLength_head, Nat.not_lt_zero, if_false,
        List.take_zero]
      rfl
  · next notWhole =>
      have notFound : findPlain [13, 10, 13, 10] buf = none := by
        rw [Option.eq_none_iff_forall_not_mem]
        intro index found
        obtain ⟨there, bound⟩ := findPlain_append_iff.mp found
        have same := Option.some.inj (foundIn.symm.trans there)
        simp only [List.length_cons, List.length_nil] at bound
        omega
      unfold parseHttpRequest
      rw [notFound]

/-- However the bytes are cut into chunks, the runtime gets the same request. -/
theorem receiveRequest_chunks {request : ProxiedRequest} {buf : List UInt8}
    {chunks : List (List UInt8)} (arrives : buf ++ chunks.flatten = wire request)
    (notYet : buf.length < (head request).length + 2) :
    receiveRequest buf chunks = some (received request) := by
  induction chunks generalizing buf with
  | nil =>
      have whole := congrArg List.length arrives
      simp [wire] at whole
      omega
  | cons chunk chunks ih =>
      have split : (buf ++ chunk) ++ chunks.flatten = wire request := by
        rw [List.append_assoc]
        exact arrives
      unfold receiveRequest
      rw [parseHttpRequest_part split]
      by_cases whole : (head request).length + 2 ≤ (buf ++ chunk).length
      · rw [if_pos whole]
      · rw [if_neg whole]
        exact ih split (by omega)

theorem servedPayload_chunks {request : ProxiedRequest} {chunks : List (List UInt8)}
    (settingsName : List UInt8) (arrives : chunks.flatten = wire request) :
    servedPayload settingsName chunks =
      if request.method ∈ handledMethods ∧
          functionName settingsName (headersOf (head request)) ≠ [] then some []
      else none := by
  have isReceived : receiveRequest [] chunks = some (received request) :=
    receiveRequest_chunks arrives (Nat.zero_lt_succ _)
  have methodEq : (received request).method = request.method := rfl
  have headersEq : (received request).headers = headersOf (head request) := rfl
  unfold servedPayload invocation
  rw [isReceived]
  simp only [methodEq, headersEq]
  by_cases handled : request.method ∈ handledMethods
  · rw [if_neg (not_not_intro handled)]
    by_cases unnamed : functionName settingsName (headersOf (head request)) = []
    · rw [if_pos unnamed, if_neg fun both => both.2 unnamed]
    · rw [if_neg unnamed, if_pos ⟨handled, unnamed⟩]
      rfl
  · rw [if_pos handled, if_neg fun both => handled both.1]

/-- The runtime calls the function for every method that it handles, if it finds
the name of the function; the payload of the call is the body of the client
exactly for empty bodies. -/
theorem servedPayload_eq_content_iff {request : ProxiedRequest} {chunks : List (List UInt8)}
    (settingsName : List UInt8) (arrives : chunks.flatten = wire request) :
    (servedPayload settingsName chunks ≠ none ↔ request.method ∈ handledMethods ∧
      functionName settingsName (headersOf (head request)) ≠ []) ∧
    (servedPayload settingsName chunks ≠ none →
      (servedPayload settingsName chunks = some request.body.content ↔
        request.body.content = [])) := by
  rw [servedPayload_chunks settingsName arrives]
  split
  · next served =>
      apply And.intro (iff_of_true (Option.some_ne_none _) served)
      intro _
      rw [Option.some_inj, eq_comm]
  · next notServed =>
      exact ⟨iff_of_false (not_not_intro rfl) notServed, fun isSome => absurd rfl isSome⟩

/-- A request of a client with this body. -/
def postRequest (body : RequestBody) : ProxiedRequest where
  method := bytes "POST"
  path := bytes "/lambda/shop/total"
  rawQuery := []
  header := []
  body := body
  project := bytes "shop"
  name := bytes "total"
  host := bytes "litefunctions-runtime-svc-lua-shop:8080"
  methodToken := by decide +kernel
  plainQuery := by decide +kernel
  plainProject := by decide +kernel
  plainFunction := by decide +kernel
  plainHost := by decide +kernel

theorem servedPayload_post_empty :
    servedPayload [] [wire (postRequest .noBody)] = some (postRequest .noBody).body.content := by
  have arrives : [wire (postRequest .noBody)].flatten = wire (postRequest .noBody) :=
    List.append_nil _
  exact ((servedPayload_eq_content_iff [] arrives).2 (by decide +kernel)).mpr rfl

theorem servedPayload_post_lost :
    servedPayload [] [wire (postRequest (.stream [bytes "x=1"] (by decide +kernel)))] ≠
      some (postRequest (.stream [bytes "x=1"] (by decide +kernel))).body.content := by
  decide +kernel

end Proxy

end Ingestor

end Litefunctions
