import Mathlib.Data.List.Basic

/-!
# Words of shell commands

A POSIX shell reads a command byte by byte and knows at each byte whether it is
in quotes.  The reader of this file finds the words and the operators of a
simple command.  It stops where the shell would expand something, since the
words then depend on variables, on files or on the output of other commands.
-/

namespace Litefunctions

namespace Shell

inductive Token where
  | word (text : List UInt8)
  | operator (byte : UInt8)
  deriving DecidableEq, Repr

/-- How the next byte is quoted. -/
inductive Quoting where
  | plain
  | escaped
  | single
  | double
  | doubleEscaped
  deriving DecidableEq, Repr

/-- The tokens read so far and the word that is being read. -/
structure Reader where
  quoting : Quoting
  current : Option (List UInt8)
  tokens : List Token
  deriving DecidableEq, Repr

namespace Reader

def start : Reader where
  quoting := .plain
  current := none
  tokens := []

/-- The byte belongs to the current word. -/
def push (quoting : Quoting) (bytes : List UInt8) (reader : Reader) : Reader :=
  { reader with quoting, current := some (reader.current.getD [] ++ bytes) }

def endWord (reader : Reader) : Reader :=
  { reader with
    current := none
    tokens := reader.tokens ++ (reader.current.map Token.word).toList }

end Reader

/-- A line break, `&`, `(`, `)`, `;`, `<`, `>` and `|`. -/
def isOperator (byte : UInt8) : Bool :=
  byte ∈ [10, 38, 40, 41, 59, 60, 62, 124]

/-- A dollar sign or a backquote; POSIX leaves open what a dollar sign means
before a byte that begins no expansion. -/
def expands (byte : UInt8) : Bool :=
  byte = 36 ∨ byte = 96

/-- `#`, `*`, `?`, `[` and `~` without quotes. -/
def matchesFiles (byte : UInt8) : Bool :=
  byte ∈ [35, 42, 63, 91, 126]

/-- The reader after one more byte; a backslash in double quotes stands for
itself except before a few bytes, and disappears with a line break. -/
def Reader.step (reader : Reader) (byte : UInt8) : Option Reader :=
  match reader.quoting with
  | .plain =>
      if byte = 34 then some (reader.push .double [])
      else if byte = 39 then some (reader.push .single [])
      else if byte = 92 then some { reader with quoting := .escaped }
      else if byte = 32 ∨ byte = 9 then some reader.endWord
      else if isOperator byte then
        some { reader.endWord with tokens := reader.endWord.tokens ++ [.operator byte] }
      else if expands byte ∨ matchesFiles byte then none
      else some (reader.push .plain [byte])
  | .escaped =>
      if byte = 10 then some { reader with quoting := .plain }
      else some (reader.push .plain [byte])
  | .single =>
      if byte = 39 then some { reader with quoting := .plain }
      else some (reader.push .single [byte])
  | .double =>
      if byte = 34 then some { reader with quoting := .plain }
      else if byte = 92 then some { reader with quoting := .doubleEscaped }
      else if expands byte then none
      else some (reader.push .double [byte])
  | .doubleEscaped =>
      if byte = 34 ∨ byte = 92 ∨ expands byte then some (reader.push .double [byte])
      else if byte = 10 then some { reader with quoting := .double }
      else some (reader.push .double [92, byte])

def Reader.read (reader : Reader) : List UInt8 → Option Reader
  | [] => some reader
  | byte :: text => (reader.step byte).bind (·.read text)

/-- The tokens of a command; a quoted word must be closed. -/
def Reader.finish (reader : Reader) : Option (List Token) :=
  if reader.quoting = .plain then some reader.endWord.tokens else none

def tokensOf (text : List UInt8) : Option (List Token) :=
  (Reader.start.read text).bind Reader.finish

namespace Reader

variable {reader : Reader}

theorem read_append (reader : Reader) (first second : List UInt8) :
    reader.read (first ++ second) = (reader.read first).bind (·.read second) := by
  induction first generalizing reader with
  | nil => rfl
  | cons byte first ih =>
      simp only [List.cons_append, read, Option.bind_assoc, ih]

/-- The tokens before a text do not change how it is read. -/
def behind (tokens : List Token) (reader : Reader) : Reader :=
  { reader with tokens := tokens ++ reader.tokens }

theorem step_behind (tokens : List Token) (reader : Reader) (byte : UInt8) :
    (reader.behind tokens).step byte = (reader.step byte).map (behind tokens) := by
  obtain ⟨quoting, current, found⟩ := reader
  cases quoting <;> simp only [step, behind, push, endWord] <;> split_ifs <;> simp [behind]

theorem read_behind (tokens : List Token) (reader : Reader) (text : List UInt8) :
    (reader.behind tokens).read text = (reader.read text).map (behind tokens) := by
  induction text generalizing reader with
  | nil => rfl
  | cons byte text ih =>
      simp only [read, step_behind, Option.bind_map, Option.map_bind, Function.comp_def, ih]

theorem finish_behind (tokens : List Token) (reader : Reader) :
    (reader.behind tokens).finish = reader.finish.map (tokens ++ ·) := by
  have sameQuoting : (reader.behind tokens).quoting = reader.quoting := rfl
  unfold finish
  rw [sameQuoting]
  split <;> simp [behind, endWord]

theorem tokens_behind (tokens : List Token) (reader : Reader) (text : List UInt8) :
    ((reader.behind tokens).read text).bind finish =
      ((reader.read text).bind finish).map (tokens ++ ·) := by
  rw [read_behind]
  cases reader.read text with
  | none => rfl
  | some last => exact finish_behind tokens last

end Reader

/-- A blank ends the word that is being read. -/
theorem tokens_after_word (word : List UInt8) (tokens : List Token) (text : List UInt8) :
    ((Reader.mk .plain (some word) tokens).read (32 :: text)).bind Reader.finish =
      (tokensOf text).map (tokens ++ .word word :: ·) := by
  have ended : (Reader.mk .plain (some word) tokens).read (32 :: text) =
      (Reader.start.behind (tokens ++ [.word word])).read text := by
    simp [Reader.read, Reader.step, Reader.behind, Reader.endWord, Reader.start]
  rw [ended, Reader.tokens_behind]
  simp [tokensOf]

end Shell

end Litefunctions
