import Litefunctions.DecimalText
import Litefunctions.LuaPatterns
import Litefunctions.ShellWords

/-!
# Shell commands of the Lua runtime

The Lua runtime runs `test`, `find`, `cp` and `git` through a shell and writes
their arguments with `%q`, which quotes a text for Lua.  The shell reads double
quotes in its own way: it expands, it joins lines, and it knows no escapes for
control bytes.  The commands mean what they should exactly for arguments
without such bytes.
-/

namespace Litefunctions

namespace LuaRuntime

open Lua Shell DecimalText

/-! ### The format `%q` -/

/-- `iscntrl`. -/
def isControl (byte : UInt8) : Bool :=
  byte < 32 ∨ byte = 127

/-- A control byte as `%d`, or as `%03d` before a digit. -/
def controlText (byte : UInt8) (next : Option UInt8) : List UInt8 :=
  let digits := digitsOf byte.toNat
  if next.any isDigit then List.replicate (3 - digits.length) 48 ++ digits else digits

/-- What is written for a byte, depending on the byte behind it. -/
def quotedByte (byte : UInt8) (next : Option UInt8) : List UInt8 :=
  if byte = 34 ∨ byte = 92 ∨ byte = 10 then [92, byte]
  else if isControl byte then 92 :: controlText byte next
  else [byte]

def quotedFrom : List UInt8 → List UInt8
  | [] => []
  | byte :: text => quotedByte byte text.head? ++ quotedFrom text

/-- `string.format("%q", text)`. -/
def quoted (text : List UInt8) : List UInt8 :=
  34 :: (quotedFrom text ++ [34])

/-! ### The commands -/

/-- The commands of `functions.lua`. -/
inductive Command where
  | isDirectory (path : List UInt8)
  | isFile (path : List UInt8)
  | makeDirectory (path : List UInt8)
  | deleteFunctions (root : List UInt8)
  | findFunctions (root : List UInt8)
  | copy (source destination : List UInt8)
  | fetch (repo : List UInt8)
  | resetToMain (repo : List UInt8)
  | resetToMaster (repo : List UInt8)
  | clone (url repo : List UInt8)
  deriving DecidableEq, Repr

namespace Command

/-- What is passed to `os.execute` or `io.popen`. -/
def text : Command → List UInt8
  | isDirectory path => bytes "test -d " ++ quoted path
  | isFile path => bytes "test -f " ++ quoted path
  | makeDirectory path => bytes "mkdir -p " ++ quoted path
  | deleteFunctions root =>
      bytes "find " ++ quoted root ++
        bytes " -maxdepth 1 -type f -name '*.lua' -delete >/dev/null 2>&1"
  | findFunctions root =>
      bytes "find " ++ quoted root ++ bytes " -maxdepth 1 -type f -name '*.lua' 2>/dev/null"
  | copy source destination =>
      bytes "cp " ++ quoted source ++ bytes " " ++ quoted destination ++ bytes " >/dev/null 2>&1"
  | fetch repo => bytes "git -C " ++ quoted repo ++ bytes " fetch --all --prune >/dev/null 2>&1"
  | resetToMain repo =>
      bytes "git -C " ++ quoted repo ++ bytes " reset --hard origin/main >/dev/null 2>&1"
  | resetToMaster repo =>
      bytes "git -C " ++ quoted repo ++ bytes " reset --hard origin/master >/dev/null 2>&1"
  | clone url repo =>
      bytes "git clone " ++ quoted url ++ bytes " " ++ quoted repo ++ bytes " >/dev/null 2>&1"

/-- The texts that the command takes with `%q`. -/
def arguments : Command → List (List UInt8)
  | isDirectory path | isFile path | makeDirectory path => [path]
  | deleteFunctions root | findFunctions root => [root]
  | copy source destination => [source, destination]
  | fetch repo | resetToMain repo | resetToMaster repo => [repo]
  | clone url repo => [url, repo]

private def words (texts : List String) : List Token :=
  texts.map fun text => .word (bytes text)

/-- `>/dev/null` and `>/dev/null 2>&1`. -/
private def outputToNull : List Token :=
  [.operator 62, .word (bytes "/dev/null")]

private def allToNull : List Token :=
  outputToNull ++ [.word (bytes "2"), .operator 62, .operator 38, .word (bytes "1")]

/-- What the command is to do: its words, with each argument as one word, and
the redirections. -/
def meaning : Command → List Token
  | isDirectory path => words ["test", "-d"] ++ [.word path]
  | isFile path => words ["test", "-f"] ++ [.word path]
  | makeDirectory path => words ["mkdir", "-p"] ++ [.word path]
  | deleteFunctions root =>
      words ["find"] ++ .word root ::
        (words ["-maxdepth", "1", "-type", "f", "-name", "*.lua", "-delete"] ++ allToNull)
  | findFunctions root =>
      words ["find"] ++ .word root ::
        (words ["-maxdepth", "1", "-type", "f", "-name", "*.lua", "2"] ++ outputToNull)
  | copy source destination =>
      words ["cp"] ++ .word source :: .word destination :: allToNull
  | fetch repo =>
      words ["git", "-C"] ++ .word repo :: (words ["fetch", "--all", "--prune"] ++ allToNull)
  | resetToMain repo =>
      words ["git", "-C"] ++ .word repo ::
        (words ["reset", "--hard", "origin/main"] ++ allToNull)
  | resetToMaster repo =>
      words ["git", "-C"] ++ .word repo ::
        (words ["reset", "--hard", "origin/master"] ++ allToNull)
  | clone url repo =>
      words ["git", "clone"] ++ .word url :: .word repo :: allToNull

/-- The tokens that the shell finds; it gets a text up to its first zero byte. -/
def shellTokens (command : Command) : Option (List Token) :=
  tokensOf (command.text.takeWhile (· ≠ 0))

end Command

/-! ### Reading a quoted text -/

/-- What the shell makes of a quoted byte. -/
def shownByte (byte : UInt8) (next : Option UInt8) : Option (List UInt8) :=
  if expands byte then none
  else if byte = 10 then some []
  else if isControl byte then some (92 :: controlText byte next)
  else some [byte]

/-- What the shell makes of the bytes of a quoted text. -/
def shellText : List UInt8 → Option (List UInt8)
  | [] => some []
  | byte :: text => (shownByte byte text.head?).bind fun shown => (shellText text).map (shown ++ ·)

/-- No byte of the text is a control byte, a dollar sign or a backquote. -/
def IsPlain (text : List UInt8) : Prop :=
  ∀ byte ∈ text, expands byte = false ∧ isControl byte = false

instance (text : List UInt8) : Decidable (IsPlain text) :=
  List.decidableBAll (fun byte => expands byte = false ∧ isControl byte = false) text

theorem mem_controlText {byte digit : UInt8} {next : Option UInt8}
    (member : digit ∈ controlText byte next) : 48 ≤ digit ∧ digit ≤ 57 := by
  unfold controlText at member
  split at member
  · rcases List.mem_append.mp member with isZero | isDigit
    · rw [List.eq_of_mem_replicate isZero]
      decide
    · exact mem_digitsOf isDigit
  · exact mem_digitsOf member

theorem controlText_ne_nil (byte : UInt8) (next : Option UInt8) : controlText byte next ≠ [] := by
  unfold controlText
  split <;> simp [digitsOf_ne_nil]

section Reading

variable {front : List UInt8} {tokens : List Token}

theorem push_byte {byte : UInt8} (notQuote : byte ≠ 34) (notEscape : byte ≠ 92)
    (literal : expands byte = false) :
    (Reader.mk .double (some front) tokens).step byte =
      some (Reader.mk .double (some (front ++ [byte])) tokens) := by
  simp [Reader.step, Reader.push, notQuote, notEscape, literal]

theorem digit_literal {byte : UInt8} (digit : 48 ≤ byte ∧ byte ≤ 57) :
    byte ≠ 34 ∧ byte ≠ 92 ∧ byte ≠ 10 ∧ expands byte = false ∧ isControl byte = false := by
  obtain ⟨above, below⟩ := digit
  rw [UInt8.le_iff_toNat_le] at above below
  simp only [expands, isControl, ne_eq, ← UInt8.toNat_inj, UInt8.lt_iff_toNat_lt,
    decide_eq_false_iff_not] at above below ⊢
  simp at above below ⊢
  omega

theorem read_digits {digits : List UInt8} (areDigits : ∀ byte ∈ digits, 48 ≤ byte ∧ byte ≤ 57) :
    (Reader.mk .double (some front) tokens).read digits =
      some (Reader.mk .double (some (front ++ digits)) tokens) := by
  induction digits generalizing front with
  | nil => simp [Reader.read]
  | cons digit digits ih =>
      obtain ⟨notQuote, notEscape, -, literal, -⟩ := digit_literal (areDigits digit (by simp))
      rw [Reader.read, push_byte notQuote notEscape literal, Option.bind_some,
        ih fun byte member => areDigits byte (by simp [member])]
      simp

/-- The shell leaves the backslash before a digit where it is. -/
theorem read_controlText (byte : UInt8) (next : Option UInt8) :
    (Reader.mk .double (some front) tokens).read (92 :: controlText byte next) =
      some (Reader.mk .double (some (front ++ 92 :: controlText byte next)) tokens) := by
  have areDigits : ∀ digit ∈ controlText byte next, 48 ≤ digit ∧ digit ≤ 57 :=
    fun digit member => mem_controlText member
  obtain ⟨digit, digits, textEq⟩ := List.exists_cons_of_ne_nil (controlText_ne_nil byte next)
  rw [textEq] at areDigits ⊢
  obtain ⟨notQuote, notEscape, notBreak, literal, -⟩ := digit_literal (areDigits digit (by simp))
  have escaped : (Reader.mk .double (some front) tokens).read (92 :: digit :: digits) =
      (Reader.mk .double (some (front ++ [92, digit])) tokens).read digits := by
    simp [Reader.read, Reader.step, Reader.push, notQuote, notEscape, notBreak, literal]
  rw [escaped, read_digits fun byte member => areDigits byte (by simp [member])]
  simp

theorem read_quotedByte (byte : UInt8) (next : Option UInt8) :
    (Reader.mk .double (some front) tokens).read (quotedByte byte next) =
      (shownByte byte next).map fun shown => Reader.mk .double (some (front ++ shown)) tokens := by
  by_cases isQuote : byte = 34 ∨ byte = 92
  · rcases isQuote with rfl | rfl <;> rfl
  · by_cases isBreak : byte = 10
    · subst isBreak
      simp [quotedByte, shownByte, expands, Reader.read, Reader.step]
    · have noEscape : ¬ (byte = 34 ∨ byte = 92 ∨ byte = 10) := by
        rintro (isEscaped | isEscaped | isEscaped)
        · exact isQuote (.inl isEscaped)
        · exact isQuote (.inr isEscaped)
        · exact isBreak isEscaped
      rw [quotedByte, if_neg noEscape]
      by_cases control : isControl byte
      · have literal : expands byte = false := by
          rw [Bool.eq_false_iff]
          intro expanded
          rcases of_decide_eq_true expanded with rfl | rfl <;> cases control
        simp only [shownByte, control, literal, isBreak, if_true, if_false, read_controlText]
        rfl
      · by_cases expanded : expands byte
        · have notQuote : byte ≠ 34 ∧ byte ≠ 92 := not_or.mp isQuote
          simp [shownByte, control, expanded, Reader.read, Reader.step, notQuote]
        · have literal : expands byte = false := eq_false_of_ne_true expanded
          have notQuote : byte ≠ 34 ∧ byte ≠ 92 := not_or.mp isQuote
          simp [shownByte, control, literal, isBreak, Reader.read, push_byte notQuote.1 notQuote.2]

theorem read_quotedFrom (text : List UInt8) :
    (Reader.mk .double (some front) tokens).read (quotedFrom text) =
      (shellText text).map fun shown => Reader.mk .double (some (front ++ shown)) tokens := by
  induction text generalizing front with
  | nil => simp [quotedFrom, shellText, Reader.read]
  | cons byte text ih =>
      rw [quotedFrom, shellText, Reader.read_append, read_quotedByte]
      simp only [Option.bind_map, Option.map_bind, Option.map_map, Function.comp_def, ih,
        List.append_assoc]

/-- A quoted text at the start of a word is one word. -/
theorem read_quoted (text : List UInt8) :
    (Reader.mk .plain none tokens).read (quoted text) =
      (shellText text).map fun shown => Reader.mk .plain (some shown) tokens := by
  have opened : (Reader.mk .plain none tokens).read (quoted text) =
      (Reader.mk .double (some []) tokens).read (quotedFrom text ++ [34]) := rfl
  rw [opened, Reader.read_append, read_quotedFrom, Option.bind_map]
  cases shellText text <;> rfl

end Reading

theorem shownByte_notControl {byte other : UInt8} {next : Option UInt8} {shown : List UInt8}
    (found : shownByte byte next = some shown) (member : other ∈ shown) : isControl other = false := by
  unfold shownByte at found
  split at found
  · cases found
  · split at found
    · obtain rfl := Option.some.inj found
      cases member
    · split at found
      · obtain rfl := Option.some.inj found
        rcases List.mem_cons.mp member with rfl | isDigit
        · decide
        · exact (digit_literal (mem_controlText isDigit)).2.2.2.2
      · next notControl =>
          obtain rfl := Option.some.inj found
          rw [List.mem_singleton.mp member]
          exact eq_false_of_ne_true notControl

/-- The shell never gets a control byte, and nothing at all from a text in which
it expands something. -/
theorem shellText_plain {text shown : List UInt8} (found : shellText text = some shown) :
    (∀ byte ∈ text, expands byte = false) ∧ ∀ byte ∈ shown, isControl byte = false := by
  induction text generalizing shown with
  | nil =>
      obtain rfl := Option.some.inj found
      simp
  | cons byte text ih =>
      obtain ⟨first, foundFirst, foundRest⟩ := Option.bind_eq_some_iff.mp found
      obtain ⟨rest, foundText, rfl⟩ := Option.map_eq_some_iff.mp foundRest
      obtain ⟨literal, plain⟩ := ih foundText
      constructor
      · intro other member
        rcases List.mem_cons.mp member with rfl | later
        · unfold shownByte at foundFirst
          split at foundFirst
          · cases foundFirst
          · next notExpanded => exact eq_false_of_ne_true notExpanded
        · exact literal other later
      · intro other member
        rcases List.mem_append.mp member with inFirst | inRest
        · exact shownByte_notControl foundFirst inFirst
        · exact plain other inRest

theorem shellText_eq_iff (text : List UInt8) : shellText text = some text ↔ IsPlain text := by
  constructor
  · intro found byte member
    obtain ⟨literal, plain⟩ := shellText_plain found
    exact ⟨literal byte member, plain byte member⟩
  · intro plain
    induction text with
    | nil => rfl
    | cons byte text ih =>
        obtain ⟨literal, notControl⟩ := plain byte List.mem_cons_self
        have notBreak : byte ≠ 10 := by
          rintro rfl
          cases notControl
        have rest := ih fun other member => plain other (List.mem_cons_of_mem byte member)
        simp [shellText, shownByte, literal, notControl, notBreak, rest]

/-! ### Reading the commands -/

theorem zero_notMem_quoted (text : List UInt8) : 0 ∉ quoted text := by
  have inBytes : 0 ∉ quotedFrom text := by
    induction text with
    | nil => simp [quotedFrom]
    | cons byte text ih =>
        rw [quotedFrom, List.mem_append, not_or]
        refine ⟨fun member => ?_, ih⟩
        unfold quotedByte at member
        split at member
        · next isEscaped =>
            rcases isEscaped with rfl | rfl | rfl <;> simp at member
        · split at member
          · rcases List.mem_cons.mp member with isZero | isDigit
            · cases isZero
            · exact absurd (mem_controlText isDigit).1 (by decide)
          · next notControl =>
              obtain rfl := List.mem_singleton.mp member
              exact notControl rfl
  simp [quoted, inBytes]

section Commands

variable {first chunk last : List UInt8} {before between after : List Token}

theorem tokensOf_argument (opened : Reader.start.read first = some (.mk .plain none before))
    (argument : List UInt8) :
    tokensOf (first ++ quoted argument) =
      (shellText argument).map fun shown => before ++ [.word shown] := by
  rw [tokensOf, Reader.read_append, opened, Option.bind_some, read_quoted, Option.bind_map]
  cases shellText argument <;> rfl

theorem tokensOf_argument_append (opened : Reader.start.read first = some (.mk .plain none before))
    (argument : List UInt8) (blank : chunk.head? = some 32) :
    tokensOf (first ++ quoted argument ++ chunk) =
      (shellText argument).bind fun shown =>
        (tokensOf chunk).map (before ++ .word shown :: ·) := by
  obtain ⟨later, rfl⟩ : ∃ later, chunk = 32 :: later := List.head?_eq_some_iff.mp blank
  rw [tokensOf, Reader.read_append, Reader.read_append, opened, Option.bind_some, read_quoted]
  cases shellText argument with
  | none => rfl
  | some shown => exact tokens_after_word shown before later

theorem lastArgument_iff (opened : Reader.start.read first = some (.mk .plain none before))
    (argument : List UInt8) :
    tokensOf (first ++ quoted argument) = some (before ++ [.word argument]) ↔ IsPlain argument := by
  rw [tokensOf_argument opened, ← shellText_eq_iff]
  simp

theorem argument_iff (opened : Reader.start.read first = some (.mk .plain none before))
    (argument : List UInt8) (blank : chunk.head? = some 32) (closed : tokensOf chunk = some after) :
    tokensOf (first ++ quoted argument ++ chunk) = some (before ++ .word argument :: after) ↔
      IsPlain argument := by
  rw [tokensOf_argument_append opened argument blank, closed, ← shellText_eq_iff]
  simp [Option.bind_eq_some_iff]

theorem bothArguments_iff (opened : Reader.start.read first = some (.mk .plain none before))
    (argument other : List UInt8) (blank : chunk.head? = some 32)
    (closed : tokensOf chunk = some after) :
    tokensOf (first ++ quoted argument ++ [32] ++ quoted other ++ chunk) =
      some (before ++ .word argument :: .word other :: after) ↔
      IsPlain argument ∧ IsPlain other := by
  have reopened : Reader.start.read [32] = some (.mk .plain none []) := rfl
  have text : first ++ quoted argument ++ [32] ++ quoted other ++ chunk =
      first ++ quoted argument ++ ([32] ++ quoted other ++ chunk) := by
    simp
  rw [text, tokensOf_argument_append opened argument rfl,
    tokensOf_argument_append reopened other blank, closed, ← shellText_eq_iff, ← shellText_eq_iff]
  cases shellText argument <;> cases shellText other <;> simp

end Commands

namespace Command

theorem zero_notMem_text (command : Command) : 0 ∉ command.text := by
  cases command <;> simp only [text, List.mem_append, not_or, zero_notMem_quoted, not_false_eq_true,
    and_true] <;> decide +kernel

theorem shellTokens_eq (command : Command) : command.shellTokens = tokensOf command.text := by
  rw [shellTokens, List.takeWhile_eq_self_iff.mpr]
  intro byte member
  have notZero : byte ≠ 0 := fun isZero => command.zero_notMem_text (isZero ▸ member)
  simpa using notZero

/-- The shell understands a command as it is meant exactly if all its arguments
are plain. -/
theorem shellTokens_eq_meaning_iff (command : Command) :
    command.shellTokens = some command.meaning ↔ ∀ argument ∈ command.arguments, IsPlain argument := by
  have toNull : (bytes " >/dev/null 2>&1").head? = some 32 ∧
      tokensOf (bytes " >/dev/null 2>&1") = some allToNull := by decide +kernel
  have atRepo : Reader.start.read (bytes "git -C ") =
      some (.mk .plain none (words ["git", "-C"])) := by decide +kernel
  have atRoot : Reader.start.read (bytes "find ") =
      some (.mk .plain none (words ["find"])) := by decide +kernel
  rw [shellTokens_eq]
  cases command with
  | isDirectory path =>
      rw [arguments, List.forall_mem_singleton]
      exact lastArgument_iff (by decide +kernel) path
  | isFile path =>
      rw [arguments, List.forall_mem_singleton]
      exact lastArgument_iff (by decide +kernel) path
  | makeDirectory path =>
      rw [arguments, List.forall_mem_singleton]
      exact lastArgument_iff (by decide +kernel) path
  | deleteFunctions root =>
      rw [arguments, List.forall_mem_singleton]
      exact argument_iff atRoot root (by decide +kernel) (by decide +kernel)
  | findFunctions root =>
      rw [arguments, List.forall_mem_singleton]
      exact argument_iff atRoot root (by decide +kernel) (by decide +kernel)
  | copy source destination =>
      rw [arguments, List.forall_mem_cons, List.forall_mem_singleton]
      exact bothArguments_iff (by decide +kernel) source destination toNull.1 toNull.2
  | fetch repo =>
      rw [arguments, List.forall_mem_singleton]
      exact argument_iff atRepo repo (by decide +kernel) (by decide +kernel)
  | resetToMain repo =>
      rw [arguments, List.forall_mem_singleton]
      exact argument_iff atRepo repo (by decide +kernel) (by decide +kernel)
  | resetToMaster repo =>
      rw [arguments, List.forall_mem_singleton]
      exact argument_iff atRepo repo (by decide +kernel) (by decide +kernel)
  | clone url repo =>
      rw [arguments, List.forall_mem_cons, List.forall_mem_singleton]
      exact bothArguments_iff (by decide +kernel) url repo toNull.1 toNull.2

/-- The shell runs a command that stands in the name of a function, and takes a
tab for a backslash and a digit. -/
theorem named_commands_misread :
    (¬ ∀ command : Command, command.shellTokens = some command.meaning) ∧
      (Command.isFile (bytes "/app/pkg/functions/$(id).lua")).shellTokens = none ∧
      (Command.isFile (bytes "/app/pkg/functions/a\tb.lua")).shellTokens =
        some (Command.isFile (bytes "/app/pkg/functions/a\\9b.lua")).meaning := by
  have misread : (Command.isFile (bytes "/app/pkg/functions/$(id).lua")).shellTokens = none := by
    decide +kernel
  refine ⟨fun understood => ?_, misread, by decide +kernel⟩
  have expected := understood (.isFile (bytes "/app/pkg/functions/$(id).lua"))
  rw [misread] at expected
  cases expected

end Command

end LuaRuntime

end Litefunctions
