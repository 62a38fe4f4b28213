import Litefunctions.NatsFrames

/-!
# Messages that polling loses

Whenever a poll that reaches a message finds its whole line and its whole
payload, the messages passed to the handlers are exactly those of the stream.
A line that is no message may be cut anywhere, and so may the line break behind
a payload: what is left of them is read as a line that is ignored.
-/

namespace Litefunctions

namespace LuaRuntime

open Lua

/-! ### The line of a message -/

section Lines

variable {items : List Item} {tail field : List UInt8} {found : List (List UInt8) × List UInt8}

private theorem matchItems_literal {byte : UInt8} (matches_ : matchItems true items tail = some found) :
    matchItems true (.literal byte :: items) (byte :: tail) = some found := by
  have takes : (Item.literal byte).Takes [byte] :=
    Item.takes_singleton (decide_eq_true rfl)
  exact matchItems_cons takes (.inl rfl) matches_

private theorem matchItems_space (notSpace : ∀ byte ∈ tail.head?, isSpace byte = false)
    (matches_ : matchItems true items tail = some found) :
    matchItems true (.plus isSpace :: items) (32 :: tail) = some found := by
  have takes : (Item.plus isSpace).Takes [32] :=
    Item.takes_singleton rfl
  exact matchItems_cons takes (.inr notSpace) matches_

private theorem head_visible (isField : IsField field) :
    ∀ byte ∈ (field ++ tail).head?, isSpace byte = false := by
  intro byte isHead
  cases field with
  | nil => exact absurd rfl isField.1
  | cons first field =>
      obtain rfl := Option.some.inj isHead
      simpa [isVisible] using isField.2 first List.mem_cons_self

private theorem digit_visible {byte : UInt8} (digit : isDigit byte = true) : isVisible byte = true := by
  simp only [isDigit, isVisible, isSpace, decide_eq_true_eq, Bool.not_eq_true', decide_eq_false_iff_not,
    UInt8.le_iff_toNat_le, ← UInt8.toNat_inj] at digit ⊢
  simp at digit ⊢
  omega

private theorem matchItems_field (isField : IsField field)
    (boundary : ∀ byte ∈ tail.head?, isVisible byte = false)
    (matches_ : matchItems true items tail = some found) :
    matchItems true (.plus isSpace :: .capture isVisible :: items) (32 :: (field ++ tail)) =
      some (field :: found.1, found.2) := by
  have takes : (Item.capture isVisible).Takes field :=
    ⟨isField.2, List.length_pos_iff.mpr isField.1, fun isOnce => by cases isOnce⟩
  exact matchItems_space (head_visible isField) (matchItems_cons takes (.inr boundary) matches_)

private theorem matchItems_size {size : List UInt8}
    (digits : size ≠ [] ∧ ∀ byte ∈ size, isDigit byte = true) :
    matchItems true [.plus isSpace, .capture isDigit] (32 :: size) = some ([size], []) := by
  have takes : (Item.capture isDigit).Takes size :=
    ⟨digits.2, List.length_pos_iff.mpr digits.1, fun isOnce => by cases isOnce⟩
  have isField : IsField size := ⟨digits.1, fun byte member => digit_visible (digits.2 byte member)⟩
  have ended : matchItems true [] [] = some ([], []) := rfl
  have taken : matchItems true [.capture isDigit] (size ++ []) = some ([size], []) :=
    matchItems_cons takes (.inr (by simp)) ended
  rw [List.append_nil] at taken
  have notSpace := @head_visible [] size isField
  rw [List.append_nil] at notSpace
  exact matchItems_space notSpace taken

private theorem space_not_visible (tail : List UInt8) :
    ∀ byte ∈ (32 :: tail).head?, isVisible byte = false := by
  intro byte isHead
  obtain rfl := Option.some.inj isHead
  decide

end Lines

private theorem messageBytes : bytes "MSG" = [77, 83, 71] := by
  decide

private theorem matchItems_messageWord {items : List Item} {tail : List UInt8}
    {found : List (List UInt8) × List UInt8} (matches_ : matchItems true items tail = some found) :
    matchItems true (.literal 77 :: .literal 83 :: .literal 71 :: items) (bytes "MSG" ++ tail) =
      some found := by
  rw [messageBytes]
  exact matchItems_literal (matchItems_literal (matchItems_literal matches_))

/-- The spaces in a text that fields and spaces make up. -/
private theorem countP_field {field : List UInt8} (visible : ∀ byte ∈ field, isVisible byte = true) :
    field.countP isSpace = 0 := by
  rw [List.countP_eq_zero]
  intro byte member
  simpa [isVisible] using visible byte member

private theorem countP_spaces {segment : List UInt8} (takes : (Item.plus isSpace).Takes segment) :
    1 ≤ segment.countP isSpace := by
  have allSpaces : segment.countP isSpace = segment.length := List.countP_eq_length.mpr takes.1
  rw [allSpaces]
  exact takes.2.1

/-- A match of the longer pattern needs a space before each field and the size. -/
private theorem four_le_countP {line : List UInt8} {captures : List (List UInt8)} {rest : List UInt8}
    (found : matchItems true (messageItems 3) line = some (captures, rest)) :
    4 ≤ line.countP isSpace := by
  obtain ⟨segments, taken, rfl, -, -⟩ := matchItems_sound found
  simp only [messageItems, List.replicate, List.flatten_cons, List.flatten_nil, List.cons_append,
    List.nil_append, List.forall₂_cons_left_iff, List.forall₂_nil_left_iff] at taken
  obtain ⟨_, _, -, ⟨_, _, -, ⟨_, _, -, ⟨first, _, firstTakes, ⟨_, _, -, ⟨second, _, secondTakes,
    ⟨_, _, -, ⟨third, _, thirdTakes, ⟨_, _, -, ⟨fourth, _, fourthTakes, ⟨_, _, -, rfl, rfl⟩, rfl⟩,
      rfl⟩, rfl⟩, rfl⟩, rfl⟩, rfl⟩, rfl⟩, rfl⟩, rfl⟩, rfl⟩ := taken
  have firstSpace := countP_spaces firstTakes
  have secondSpace := countP_spaces secondTakes
  have thirdSpace := countP_spaces thirdTakes
  have fourthSpace := countP_spaces fourthTakes
  simp only [List.flatten_cons, List.countP_append]
  omega

theorem parseMessage_line (message : Message) :
    parseMessage message.line = some (message.subject, message.sid, message.payload.length) := by
  obtain ⟨subject, sid, reply, size, payload, subjectField, sidField, replyField, sizeDigits,
    sizeEq⟩ := message
  have sizeMatches := matchItems_size sizeDigits
  have sidMatches (tail : List UInt8) {items : List Item} {found : List (List UInt8) × List UInt8}
      (matches_ : matchItems true items (32 :: tail) = some found) :
      matchItems true (.plus isSpace :: .capture isVisible :: .plus isSpace :: .capture isVisible ::
        items) (32 :: subject ++ (32 :: sid ++ 32 :: tail)) = some (subject :: sid :: found.1, found.2) :=
    matchItems_field subjectField (space_not_visible _)
      (matchItems_field sidField (space_not_visible _) matches_)
  unfold parseMessage
  cases reply with
  | none =>
      have line : Message.line ⟨subject, sid, none, size, payload, subjectField, sidField, replyField,
          sizeDigits, sizeEq⟩ = bytes "MSG" ++ (32 :: subject ++ (32 :: sid ++ 32 :: size)) := rfl
      have longer : matchAnchored true (messageItems 3)
          (bytes "MSG" ++ (32 :: subject ++ (32 :: sid ++ 32 :: size))) = none := by
        refine Option.map_eq_none_iff.mpr (Option.eq_none_iff_forall_ne_some.mpr ?_)
        rintro ⟨captures, rest⟩ found
        have enough := four_le_countP found
        have subjectSpaces := countP_field subjectField.2
        have sidSpaces := countP_field sidField.2
        have sizeSpaces := countP_field fun byte member => digit_visible (sizeDigits.2 byte member)
        rw [messageBytes] at enough
        simp [isSpace, subjectSpaces, sidSpaces, sizeSpaces] at enough
      have shorter : matchAnchored true (messageItems 2)
          (bytes "MSG" ++ (32 :: subject ++ (32 :: sid ++ 32 :: size))) =
            some [subject, sid, size] :=
        congrArg (Option.map Prod.fst) (matchItems_messageWord (sidMatches size sizeMatches))
      rw [line, longer, shorter, ← sizeEq]
  | some reply =>
      have line : Message.line ⟨subject, sid, some reply, size, payload, subjectField, sidField,
          replyField, sizeDigits, sizeEq⟩ =
            bytes "MSG" ++ (32 :: subject ++ (32 :: sid ++ 32 :: (reply ++ 32 :: size))) := by
        rfl
      have longer : matchAnchored true (messageItems 3)
          (bytes "MSG" ++ (32 :: subject ++ (32 :: sid ++ 32 :: (reply ++ 32 :: size)))) =
            some [subject, sid, reply, size] :=
        congrArg (Option.map Prod.fst) (matchItems_messageWord (sidMatches _
          (matchItems_field (replyField reply rfl) (space_not_visible _) sizeMatches)))
      rw [line, longer, ← sizeEq]

/-- A line that does not end in a digit, carriage returns aside. -/
def EndsPlain (body : List UInt8) : Prop :=
  ∀ byte ∈ (body.filter (· ≠ 13)).getLast?, isDigit byte = false

theorem EndsPlain.of_append {front body : List UInt8} (plain : EndsPlain (front ++ body)) :
    EndsPlain body := by
  intro byte isLast
  apply plain byte
  rw [List.filter_append, Option.mem_def, List.getLast?_append, Option.mem_def.mp isLast]
  rfl

private theorem digit_of_matchItems {items : List Item} {text : List UInt8}
    {captures : List (List UInt8)} {rest : List UInt8}
    (found : matchItems true (items ++ [.capture isDigit]) text = some (captures, rest)) :
    ∃ byte ∈ text.getLast?, isDigit byte = true := by
  obtain ⟨segments, taken, rfl, -, atEnd⟩ := matchItems_sound found
  rw [← List.forall₂_reverse_iff, List.reverse_append, List.reverse_singleton,
    List.singleton_append, List.forall₂_cons_left_iff] at taken
  obtain ⟨size, others, takes, -, reverseEq⟩ := taken
  have segmentsEq : segments = others.reverse ++ [size] := by
    rw [← List.reverse_reverse segments, reverseEq, List.reverse_cons]
  have notEmpty : size ≠ [] := List.length_pos_iff.mp takes.2.1
  refine ⟨size.getLast notEmpty, ?_, takes.1 _ (List.getLast_mem notEmpty)⟩
  rw [atEnd rfl, List.append_nil, segmentsEq, List.flatten_append, Option.mem_def,
    List.getLast?_append]
  simp [List.getLast?_eq_some_getLast notEmpty]

theorem parseMessage_of_endsPlain {body : List UInt8} (plain : EndsPlain body) :
    parseMessage (body.filter (· ≠ 13)) = none := by
  have noMatch (items : List Item) :
      matchAnchored true (items ++ [.capture isDigit]) (body.filter (· ≠ 13)) = none := by
    refine Option.map_eq_none_iff.mpr (Option.eq_none_iff_forall_ne_some.mpr ?_)
    rintro ⟨captures, rest⟩ found
    obtain ⟨byte, isLast, digit⟩ := digit_of_matchItems found
    exact absurd ((plain byte isLast).symm.trans digit) Bool.false_ne_true
  have asFront (fields : Nat) : messageItems fields = ([.literal 77, .literal 83, .literal 71] ++
      (List.replicate fields [.plus isSpace, .capture isVisible]).flatten ++ [.plus isSpace]) ++
        [.capture isDigit] := by
    simp [messageItems]
  unfold parseMessage
  rw [asFront 3, noMatch, asFront 2, noMatch]

/-! ### One poll -/

/-- A read of a line takes a part of an unfinished line or the whole line. -/
theorem receiveLine_cases {seen later body tail : List UInt8} (noBreak : 10 ∉ body)
    (streamEq : seen ++ later = body ++ 10 :: tail) :
    (∃ unseen, body = seen ++ unseen ∧ later = unseen ++ 10 :: tail ∧
        receiveLine seen = (none, [])) ∨
      ∃ behind, seen = body ++ 10 :: behind ∧ tail = behind ++ later ∧
        receiveLine seen = (some (body.filter (· ≠ 13)), behind) := by
  rcases List.append_eq_append_iff.mp streamEq with ⟨unseen, bodyEq, laterEq⟩ | ⟨more, seenEq, restEq⟩
  · left
    refine ⟨unseen, bodyEq, laterEq, ?_⟩
    have noBreakSeen : 10 ∉ seen := fun member => noBreak (bodyEq ▸ List.mem_append_left _ member)
    rw [receiveLine, if_neg noBreakSeen]
  · cases more with
    | nil =>
        left
        rw [List.append_nil] at seenEq
        refine ⟨[], by rw [seenEq, List.append_nil], restEq.symm, ?_⟩
        rw [receiveLine, if_neg (seenEq ▸ noBreak)]
    | cons byte behind =>
        right
        obtain ⟨rfl, tailEq⟩ := List.cons.inj restEq
        refine ⟨behind, seenEq, tailEq, ?_⟩
        have run : (body ++ 10 :: behind).takeWhile (· ≠ 10) = body := by
          rw [List.takeWhile_append_of_pos]
          · simp
          · intro byte member
            simpa using fun isBreak : byte = 10 => noBreak (isBreak ▸ member)
        have rest : (body ++ 10 :: behind).dropWhile (· ≠ 10) = 10 :: behind := by
          rw [List.dropWhile_append_of_pos]
          · simp
          · intro byte member
            simpa using fun isBreak : byte = 10 => noBreak (isBreak ▸ member)
        rw [receiveLine, if_pos (by simp [seenEq]), seenEq, run, rest]
        rfl

/-- What remains of a stream: frames, perhaps behind the rest of a line that is
no message. -/
inductive Position (frames : List Frame) : List UInt8 → Prop
  | atFrame : Position frames (encode frames)
  | inLine {body : List UInt8} (noBreak : 10 ∉ body) (plain : EndsPlain body) :
      Position frames (body ++ 10 :: encode frames)

/-- The reads of a poll find the whole line and the whole payload of a message,
for an empty payload at least one byte behind the line. -/
def FindsWhole (message : Message) (available : List UInt8) (arrivals : Arrivals) : Prop :=
  message.header.length ≤ (available ++ arrivals.beforeLine).length ∧
    message.header.length + max 1 message.payload.length ≤
      (available ++ arrivals.beforeLine ++ arrivals.beforePayload).length

/-- If a poll finds the start of a message, it finds it whole. -/
def FindsWholeMessage (available : List UInt8) (arrivals : Arrivals) (future : List UInt8) : Prop :=
  ∀ message frames, available ++ arrivals.all ++ future = encode (.msg message :: frames) →
    available ++ arrivals.beforeLine ≠ [] → FindsWhole message available arrivals

section Polls

variable {subs : List UInt8 → Bool} {available future : List UInt8} {arrivals : Arrivals}
variable {frames : List Frame}

theorem pollOnce_inLine {body : List UInt8} (noBreak : 10 ∉ body) (plain : EndsPlain body)
    (streamEq : available ++ arrivals.all ++ future = body ++ 10 :: encode frames) :
    (pollOnce subs arrivals available).passed = none ∧
      Position frames ((pollOnce subs arrivals available).available ++ future) := by
  have split : (available ++ arrivals.beforeLine) ++
      (arrivals.beforePayload ++ arrivals.beforeTrailer ++ future) = body ++ 10 :: encode frames := by
    simpa [Arrivals.all] using streamEq
  rcases receiveLine_cases noBreak split with
    ⟨unseen, bodyEq, laterEq, received⟩ | ⟨behind, -, tailEq, received⟩
  · unfold pollOnce
    rw [received]
    apply And.intro rfl
    show Position frames (arrivals.beforePayload ++ arrivals.beforeTrailer ++ future)
    rw [laterEq]
    exact .inLine (fun member => noBreak (bodyEq ▸ List.mem_append_right _ member))
      (bodyEq ▸ plain).of_append
  · have rest : Position frames
        (behind ++ arrivals.beforePayload ++ arrivals.beforeTrailer ++ future) := by
      have same : behind ++ arrivals.beforePayload ++ arrivals.beforeTrailer ++ future =
          encode frames := by
        simpa using tailEq.symm
      rw [same]
      exact .atFrame
    unfold pollOnce
    rw [received]
    simp only [parseMessage_of_endsPlain plain]
    split
    · exact ⟨rfl, rest⟩
    · split
      · exact ⟨rfl, rest⟩
      · exact ⟨rfl, rest⟩

theorem pollOnce_nothing (nothing : available ++ arrivals.beforeLine = []) :
    (pollOnce subs arrivals available).passed = none ∧
      (pollOnce subs arrivals available).available = available ++ arrivals.all := by
  obtain ⟨rfl, empty⟩ := List.append_eq_nil_iff.mp nothing
  unfold pollOnce
  rw [empty]
  exact ⟨rfl, by simp [receiveLine, Arrivals.all, empty]⟩

private theorem mem_line {message : Message} {byte : UInt8} (member : byte ∈ message.line) :
    byte = 32 ∨ isVisible byte = true := by
  simp only [Message.line, messageBytes, List.mem_append, List.mem_cons, List.not_mem_nil,
    or_false] at member
  rcases member with (rfl | rfl | rfl) | (rfl | member) | (rfl | member) | member | rfl | member
  · exact .inr (by decide)
  · exact .inr (by decide)
  · exact .inr (by decide)
  · exact .inl rfl
  · exact .inr (message.subjectField.2 byte member)
  · exact .inl rfl
  · exact .inr (message.sidField.2 byte member)
  · split at member
    · cases member
    · next reply isReply =>
        rcases List.mem_cons.mp member with isSpace | inside
        · exact .inl isSpace
        · exact .inr ((message.replyField reply isReply).2 byte inside)
  · exact .inl rfl
  · exact .inr (digit_visible (message.sizeDigits.2 byte member))

/-- The line of a message, as the read returns it. -/
private theorem filter_line (message : Message) :
    (message.line ++ [13]).filter (· ≠ 13) = message.line ∧ 10 ∉ message.line ++ [13] := by
  have noReturn : ∀ byte ∈ message.line, byte ≠ 13 ∧ byte ≠ 10 := by
    intro byte member
    rcases mem_line member with rfl | visible
    · decide
    · refine ⟨?_, ?_⟩ <;> rintro rfl <;> exact absurd visible (by decide)
  refine ⟨?_, fun member => ?_⟩
  · rw [List.filter_append, List.filter_eq_self.mpr fun byte member => by
      simpa using (noReturn byte member).1]
    exact List.append_nil _
  · rcases List.mem_append.mp member with inLine | isReturn
    · exact (noReturn 10 inLine).2 rfl
    · exact absurd isReturn (by decide)

/-- The read of the line break behind a payload takes all of it or leaves the
rest of a line. -/
theorem position_of_trailer {there : List UInt8}
    (streamEq : there ++ future = 13 :: 10 :: encode frames) :
    Position frames ((receiveBytes 2 there).2 ++ future) := by
  match there with
  | [] =>
      rw [List.nil_append] at streamEq
      rw [receiveBytes, if_pos (.inl rfl), streamEq]
      exact @Position.inLine frames [13] (by decide) (by intro byte isLast; cases isLast)
  | [first] =>
      have futureEq : future = 10 :: encode frames := (List.cons.inj streamEq).2
      rw [receiveBytes, if_pos (.inr (by simp)), futureEq]
      exact @Position.inLine frames [] (by simp) (by intro byte isLast; cases isLast)
  | first :: second :: rest =>
      have restEq : rest ++ future = encode frames := (List.cons.inj (List.cons.inj streamEq).2).2
      rw [receiveBytes, if_neg (by simp)]
      show Position frames (rest ++ future)
      rw [restEq]
      exact .atFrame

private theorem message_split {message : Message}
    (streamEq : available ++ arrivals.all ++ future = encode (.msg message :: frames)) :
    (available ++ arrivals.beforeLine) ++
        (arrivals.beforePayload ++ arrivals.beforeTrailer ++ future) =
      (message.line ++ [13]) ++ 10 :: (message.payload ++ 13 :: 10 :: encode frames) := by
  simp only [encode, List.map_cons, List.flatten_cons, Frame.encode, Message.header] at streamEq
  simpa [Arrivals.all, encode] using streamEq

private theorem message_words (message : Message) :
    message.line.take 4 ≠ bytes "PING" ∧ message.line.take 3 = bytes "MSG" := by
  rw [Message.line, messageBytes]
  exact ⟨by simp [bytes], rfl⟩

/-- A message that is there is passed to its handler. -/
theorem pollOnce_message (message : Message)
    (streamEq : available ++ arrivals.all ++ future = encode (.msg message :: frames))
    (whole : FindsWhole message available arrivals) :
    (pollOnce subs arrivals available).passed =
        (if subs message.sid then some (message.subject, message.payload) else none) ∧
      Position frames ((pollOnce subs arrivals available).available ++ future) := by
  obtain ⟨lineThere, payloadThere⟩ := whole
  obtain ⟨filterEq, noBreak⟩ := filter_line message
  rcases receiveLine_cases noBreak (message_split streamEq) with
    ⟨unseen, bodyEq, -, -⟩ | ⟨behind, seenEq, tailEq, received⟩
  · have lengths := congrArg List.length bodyEq
    simp only [Message.header, List.length_append, List.length_cons, List.length_nil] at lengths lineThere
    omega
  · have filled : message.payload.length ≤ (behind ++ arrivals.beforePayload).length ∧
        behind ++ arrivals.beforePayload ≠ [] := by
      have lengths := congrArg List.length seenEq
      simp only [Message.header, List.length_append, List.length_cons, List.length_nil] at lengths payloadThere
      apply And.intro (by rw [List.length_append]; omega)
      rw [← List.length_pos_iff, List.length_append]
      omega
    obtain ⟨more, payloadEq, trailerEq⟩ : ∃ more, behind ++ arrivals.beforePayload =
        message.payload ++ more ∧
          more ++ arrivals.beforeTrailer ++ future = 13 :: 10 :: encode frames := by
      have joined : message.payload ++ (13 :: 10 :: encode frames) =
          (behind ++ arrivals.beforePayload) ++ (arrivals.beforeTrailer ++ future) := by
        simpa using tailEq
      rcases List.append_eq_append_iff.mp joined with ⟨more, thereEq, restEq⟩ | ⟨more, payloadEq, restEq⟩
      · exact ⟨more, thereEq, by rw [List.append_assoc, restEq]⟩
      · have lengths := congrArg List.length payloadEq
        rw [List.length_append] at lengths
        have none : more = [] := List.length_eq_zero_iff.mp (by omega)
        subst none
        refine ⟨[], by rw [payloadEq, List.append_nil, List.append_nil], ?_⟩
        simpa using restEq
    have read : receiveBytes message.payload.length (behind ++ arrivals.beforePayload) =
        (some message.payload, more) := by
      rw [receiveBytes, if_neg (not_or.mpr ⟨filled.2, by omega⟩), payloadEq, List.take_left,
        List.drop_left]
    obtain ⟨notPing, isMsg⟩ := message_words message
    unfold pollOnce
    rw [received]
    simp only [filterEq, if_neg notPing, if_pos isMsg, parseMessage_line, read]
    exact ⟨trivial, position_of_trailer trailerEq⟩

/-- A message is passed to its handler exactly when the poll that finds its
start finds it whole. -/
theorem pollOnce_passed_iff (message : Message)
    (streamEq : available ++ arrivals.all ++ future = encode (.msg message :: frames))
    (handled : subs message.sid = true) :
    (pollOnce subs arrivals available).passed = some (message.subject, message.payload) ↔
      FindsWhole message available arrivals := by
  constructor
  · intro passed
    obtain ⟨filterEq, noBreak⟩ := filter_line message
    rcases receiveLine_cases noBreak (message_split streamEq) with
      ⟨unseen, -, -, received⟩ | ⟨behind, seenEq, -, received⟩
    · unfold pollOnce at passed
      rw [received] at passed
      cases passed
    · have lengths := congrArg List.length seenEq
      simp only [List.length_append, List.length_cons, List.length_nil] at lengths
      apply And.intro (by simp [Message.header]; omega)
      by_contra missing
      have notRead : receiveBytes message.payload.length (behind ++ arrivals.beforePayload) =
          (none, []) := by
        apply if_pos
        rw [← List.length_eq_zero_iff]
        simp only [Message.header, List.length_append, List.length_cons, List.length_nil] at missing ⊢
        omega
      obtain ⟨notPing, isMsg⟩ := message_words message
      unfold pollOnce at passed
      rw [received] at passed
      simp only [filterEq, if_neg notPing, if_pos isMsg, parseMessage_line, notRead] at passed
      cases passed
  · intro whole
    rw [(pollOnce_message message streamEq whole).1, if_pos handled]

/-- A frame that is no message is a line that does not end in a digit. -/
private theorem encode_plain (frame : Frame) (notMessage : ∀ message, frame ≠ .msg message)
    (frames : List Frame) :
    ∃ body, 10 ∉ body ∧ EndsPlain body ∧ encode (frame :: frames) = body ++ 10 :: encode frames := by
  cases frame with
  | info members oneLine =>
      have infoBytes : bytes "INFO \x7b" = [73, 78, 70, 79, 32, 123] ∧ bytes "\x7d\r\n" = [125, 13, 10] := by
        decide
      refine ⟨[73, 78, 70, 79, 32, 123] ++ members ++ [125, 13], ?_, ?_, ?_⟩
      · simp [oneLine]
      · intro byte isLast
        rw [List.filter_append, show [125, 13].filter (· ≠ (13 : UInt8)) = [125] from rfl,
          List.getLast?_append] at isLast
        obtain rfl := Option.some.inj isLast
        decide
      · simp [encode, Frame.encode, infoBytes]
  | ok =>
      refine ⟨[43, 79, 75, 13], by decide, ?_, ?_⟩
      · intro byte isLast
        obtain rfl := Option.some.inj isLast
        decide
      · simp only [encode, List.map_cons, List.flatten_cons, Frame.encode]
        rw [show bytes "+OK\r\n" = [43, 79, 75, 13] ++ [10] by decide, List.append_assoc]
        rfl
  | ping =>
      refine ⟨[80, 73, 78, 71, 13], by decide, ?_, ?_⟩
      · intro byte isLast
        obtain rfl := Option.some.inj isLast
        decide
      · simp only [encode, List.map_cons, List.flatten_cons, Frame.encode]
        rw [show bytes "PING\r\n" = [80, 73, 78, 71, 13] ++ [10] by decide, List.append_assoc]
        rfl
  | msg message => exact absurd rfl (notMessage message)

/-- One poll passes the messages that it takes from the stream. -/
theorem pollOnce_step (position : Position frames (available ++ arrivals.all ++ future))
    (whole : FindsWholeMessage available arrivals future) :
    ∃ rest, Position rest ((pollOnce subs arrivals available).available ++ future) ∧
      messages subs frames = (pollOnce subs arrivals available).passed.toList ++ messages subs rest := by
  by_cases nothing : available ++ arrivals.beforeLine = []
  · obtain ⟨passed, same⟩ := @pollOnce_nothing subs _ _ nothing
    exact ⟨frames, by rwa [same], by simp [passed]⟩
  · generalize streamEq : available ++ arrivals.all ++ future = stream at position
    cases position with
    | inLine noBreak plain =>
        obtain ⟨passed, there⟩ := @pollOnce_inLine subs _ _ _ _ _ noBreak plain streamEq
        exact ⟨frames, there, by simp [passed]⟩
    | atFrame =>
        cases frames with
        | nil =>
            have empty : available ++ (arrivals.beforeLine ++ (arrivals.beforePayload ++
                (arrivals.beforeTrailer ++ future))) = [] := by
              simpa [Arrivals.all, encode] using streamEq
            simp only [List.append_eq_nil_iff] at empty
            exact absurd (by simp [empty.1, empty.2.1]) nothing
        | cons frame frames =>
            by_cases isMessage : ∃ message, frame = .msg message
            · obtain ⟨message, rfl⟩ := isMessage
              obtain ⟨passed, there⟩ := pollOnce_message message streamEq
                (whole message frames streamEq nothing)
              refine ⟨frames, there, ?_⟩
              rw [passed]
              unfold messages
              rw [List.filterMap_cons]
              by_cases handled : subs message.sid = true <;> simp [handled]
            · obtain ⟨body, noBreak, plain, encodeEq⟩ :=
                encode_plain frame (fun message same => isMessage ⟨message, same⟩) frames
              obtain ⟨passed, there⟩ :=
                @pollOnce_inLine subs _ _ _ _ _ noBreak plain (streamEq.trans encodeEq)
              refine ⟨frames, there, ?_⟩
              rw [passed]
              unfold messages
              rw [List.filterMap_cons]
              cases frame with
              | msg message => exact absurd ⟨message, rfl⟩ isMessage
              | _ => rfl

end Polls

/-! ### Repeated polls -/

/-- The bytes that arrive during the polls. -/
def arriving (polls : List Arrivals) : List UInt8 :=
  (polls.map Arrivals.all).flatten

/-- Every poll that reaches a message finds it whole. -/
def FindsWholeMessages (subs : List UInt8 → Bool) : List UInt8 → List Arrivals → Prop
  | _, [] => True
  | available, arrivals :: polls =>
      FindsWholeMessage available arrivals (arriving polls) ∧
        FindsWholeMessages subs (pollOnce subs arrivals available).available polls

theorem pollAll_messages {subs : List UInt8 → Bool} {polls : List Arrivals} {available : List UInt8}
    {frames : List Frame} (position : Position frames (available ++ arriving polls))
    (whole : FindsWholeMessages subs available polls) :
    ∃ rest, Position rest (pollAll subs available polls).2 ∧
      messages subs frames = (pollAll subs available polls).1 ++ messages subs rest := by
  induction polls generalizing available frames with
  | nil => exact ⟨frames, by simpa [arriving, pollAll] using position, rfl⟩
  | cons arrivals polls ih =>
      have here : Position frames (available ++ arrivals.all ++ arriving polls) := by
        simpa [arriving] using position
      obtain ⟨middle, there, passed⟩ := @pollOnce_step subs _ _ _ _ here whole.1
      obtain ⟨rest, last, later⟩ := ih there whole.2
      refine ⟨rest, last, ?_⟩
      rw [passed, later, ← List.append_assoc]
      rfl

/-- When the polls have taken everything that arrived, and each found the
message that it reached whole, the messages passed to the handlers are those of
the stream, in order and each once. -/
theorem pollAll_eq_messages (subs : List UInt8 → Bool) (frames : List Frame)
    (polls : List Arrivals) (stream : arriving polls = encode frames)
    (drained : (pollAll subs [] polls).2 = []) (whole : FindsWholeMessages subs [] polls) :
    (pollAll subs [] polls).1 = messages subs frames := by
  have start : Position frames ([] ++ arriving polls) := by
    rw [List.nil_append, stream]
    exact .atFrame
  obtain ⟨rest, last, passed⟩ := pollAll_messages start whole
  rw [drained] at last
  have none : rest = [] := by
    generalize empty : ([] : List UInt8) = stream at last
    cases last with
    | inLine noBreak plain => simp at empty
    | atFrame =>
        cases rest with
        | nil => rfl
        | cons frame rest =>
            have notEmpty : frame.encode ≠ [] := by
              cases frame <;> simp [Frame.encode, Message.header, bytes]
            simp [encode, notEmpty] at empty
  rw [passed, none]
  exact (List.append_nil _).symm

/-! ### Two splits of one message -/

/-- The message `{}` on the subject `a.b.exec.lua.1`. -/
def oneMessage : Message where
  subject := bytes "a.b.exec.lua.1"
  sid := bytes "1"
  reply := none
  size := bytes "2"
  payload := bytes "{}"
  subjectField := by decide +kernel
  sidField := by decide +kernel
  replyField := by simp
  sizeDigits := by decide +kernel
  sizeEq := by decide +kernel

/-- Everything is there at the first poll. -/
def arrivesWhole : List Arrivals :=
  [⟨encode [.ping, .msg oneMessage], [], []⟩, ⟨[], [], []⟩]

/-- A poll that finds everything finds whole messages. -/
private theorem findsWholeMessage_of_all (available seen : List UInt8) :
    FindsWholeMessage available ⟨seen, [], []⟩ [] := by
  intro message frames streamEq _
  have lengths := congrArg List.length streamEq
  simp only [Arrivals.all, encode, List.map_cons, List.flatten_cons, Frame.encode, Message.header,
    List.append_nil, List.length_append, List.length_cons, List.length_nil] at lengths
  simp only [FindsWhole, Message.header, List.append_nil, List.length_append, List.length_cons,
    List.length_nil]
  omega

theorem arrivesWhole_passed :
    (pollAll (fun _ => true) [] arrivesWhole).1 =
      messages (fun _ => true) [.ping, .msg oneMessage] := by
  refine pollAll_eq_messages (fun _ => true) [.ping, .msg oneMessage] arrivesWhole
    (by decide +kernel) (by decide +kernel) ⟨?_, ?_, trivial⟩
  · exact findsWholeMessage_of_all [] _
  · exact findsWholeMessage_of_all _ []

/-- The line of the message arrives in two parts. -/
def arrivesSplit : List Arrivals :=
  [⟨bytes "MSG a.b", [], []⟩, ⟨bytes ".exec.lua.1 1 2\r\n{}\r\n", [], []⟩, ⟨[], [], []⟩]

/-- The message is lost. -/
theorem arrivesSplit_lost :
    arriving arrivesSplit = encode [.msg oneMessage] ∧
      (pollAll (fun _ => true) [] arrivesSplit).2 = [] ∧
        (pollAll (fun _ => true) [] arrivesSplit).1 ≠ messages (fun _ => true) [.msg oneMessage] := by
  decide +kernel

end LuaRuntime

end Litefunctions
