import Litefunctions.LuaHttp
import Mathlib.Algebra.Group.Nat.Defs

/-!
# Requests that arrive in chunks

The event loop of the Lua runtime appends what it receives from a client to a
buffer and parses the whole buffer again after every chunk.  A request that the
parser finds in a buffer is the one it finds in every longer buffer, unless the
length of its body is negative.  So it does not matter how the bytes of a
connection are cut into chunks.
-/

namespace Litefunctions

namespace LuaRuntime

open Lua

/-- A number: one with an integer representation, or a float without one by the
least length that is not less than it, if there is such a length. -/
inductive Number where
  | integer (value : Int)
  | float (ceiling : Option Nat)
  deriving DecidableEq, Repr

/-- The function `tonumber` on texts; digits stand for their decimal value as
long as that is an integer of 64 bits. -/
structure Numerals where
  toNumber : List UInt8 → Option Number
  digits : ∀ text value, tonumber text = some value → value < 2 ^ 63 →
    toNumber text = some (.integer value)

/-- `string.sub(text, 1, last)`. -/
def subUpTo (text : List UInt8) (last : Int) : List UInt8 :=
  text.take (if 0 ≤ last then last else text.length + last + 1).toNat

/-- What `parse_http_request` does: it returns `nil`, it returns a request, or
`string.sub` raises an error. -/
inductive Parsed where
  | incomplete
  | request (req : HttpRequest)
  | error
  deriving DecidableEq, Repr

section Parser

variable (numerals : Numerals)

/-- The number that the head announces as the length of the body. -/
def bodyLength (head : List UInt8) : Number :=
  (numerals.toNumber ((header (headersOf head) (bytes "content-length")).getD (bytes "0"))).getD
    (.integer 0)

/-- The end of `parse_http_request`, behind the fields. -/
def cutBody (length : Number) (withBody : List UInt8 → HttpRequest) (body : List UInt8) : Parsed :=
  match length with
  | .integer value =>
      if body.length < value then .incomplete else .request (withBody (subUpTo body value))
  | .float ceiling => if ∀ least ∈ ceiling, body.length < least then .incomplete else .error

/-- The head of a buffer and what stands behind the empty line. -/
def splitHead (buf : List UInt8) : Option (List UInt8 × List UInt8) :=
  (findPlain [13, 10, 13, 10] buf).map fun headerEnd =>
    (buf.take (headerEnd + 2), buf.drop (headerEnd + 4))

/-- `parse_http_request`, with every number that a length can be. -/
def parseBuffer (buf : List UInt8) : Parsed :=
  match splitHead buf with
  | none => .incomplete
  | some (head, body) =>
      match parseRequestLine head with
      | none => .incomplete
      | some (method, path) =>
          cutBody (bodyLength numerals head) (⟨method, path, headersOf head, ·⟩) body

/-- One turn of the event loop for a client with its buffer, which is gone once
the client is closed: the client afterwards and the request that is handled.  An
error ends the loop. -/
def receiveChunk (client : Option (List UInt8)) (data : List UInt8) :
    Option (List UInt8) × Option HttpRequest :=
  match client with
  | none => (none, none)
  | some buf =>
      if data = [] then (some buf, none)
      else
        match parseBuffer numerals (buf ++ data) with
        | .incomplete => (some (buf ++ data), none)
        | .request req => (none, some req)
        | .error => (none, none)

/-- The requests that the event loop handles for a client. -/
def handled (client : Option (List UInt8)) : List (List UInt8) → List HttpRequest
  | [] => []
  | data :: chunks =>
      let received := receiveChunk numerals client data
      received.2.toList ++ handled received.1 chunks

/-- The head of a buffer announces no length below zero. -/
def ReadsLength (buf : List UInt8) : Prop :=
  ∀ split ∈ splitHead buf, ∀ value, bodyLength numerals split.1 = .integer value → 0 ≤ value

end Parser

/-! ### Longer buffers -/

section Extension

variable {numerals : Numerals} {buf more head body : List UInt8}

theorem splitHead_append (found : splitHead buf = some (head, body)) :
    splitHead (buf ++ more) = some (head, body ++ more) := by
  obtain ⟨headerEnd, foundEnd, same⟩ := Option.map_eq_some_iff.mp found
  obtain ⟨rfl, rfl⟩ := Prod.mk.inj same
  obtain ⟨foundThere, bound⟩ : findPlain [13, 10, 13, 10] (buf ++ more) = some headerEnd ∧ _ :=
    findPlain_append_iff.mp foundEnd
  simp only [List.length_cons, List.length_nil] at bound
  rw [splitHead, foundThere, Option.map_some]
  rw [List.take_append_of_le_length (by omega), List.drop_append_of_le_length (by omega)]

/-- A body that is long enough is cut at the same place when more follows. -/
theorem cutBody_append {length : Number} {withBody : List UInt8 → HttpRequest}
    (notNegative : ∀ value, length = .integer value → 0 ≤ value)
    (found : cutBody length withBody body ≠ .incomplete) :
    cutBody length withBody (body ++ more) = cutBody length withBody body := by
  have longer : (body ++ more).length = body.length + more.length := List.length_append
  cases length with
  | integer value =>
      have positive := notNegative value rfl
      have long : ¬ (body.length : Int) < value := by
        intro short
        exact found (if_pos short)
      have stillLong : ¬ ((body ++ more).length : Int) < value := by
        omega
      have inBody : value.toNat ≤ body.length := by
        omega
      have sameCut : subUpTo (body ++ more) value = subUpTo body value := by
        unfold subUpTo
        rw [if_pos positive, if_pos positive, List.take_append_of_le_length inBody]
      simp only [cutBody, if_neg long, if_neg stillLong, sameCut]
  | float ceiling =>
      have long : ¬ ∀ least ∈ ceiling, body.length < least := by
        intro short
        exact found (if_pos short)
      have stillLong : ¬ ∀ least ∈ ceiling, (body ++ more).length < least := by
        intro short
        apply long
        intro least isLeast
        have bound := short least isLeast
        omega
      simp only [cutBody, if_neg long, if_neg stillLong]

theorem ReadsLength.of_append (reads : ReadsLength numerals (buf ++ more)) :
    ReadsLength numerals buf := by
  rintro ⟨head, body⟩ found value isInteger
  exact reads (head, body ++ more) (splitHead_append found) value isInteger

/-- What the parser finds in a buffer it finds in every longer one. -/
theorem parseBuffer_append (reads : ReadsLength numerals buf)
    (found : parseBuffer numerals buf ≠ .incomplete) :
    parseBuffer numerals (buf ++ more) = parseBuffer numerals buf := by
  cases splitEq : splitHead buf with
  | none => simp [parseBuffer, splitEq] at found
  | some split =>
      obtain ⟨head, body⟩ := split
      have notNegative := reads (head, body) splitEq
      unfold parseBuffer at found ⊢
      simp only [splitEq, splitHead_append splitEq] at found ⊢
      cases lineEq : parseRequestLine head with
      | none => simp [lineEq] at found
      | some line =>
          simp only [lineEq] at found ⊢
          exact cutBody_append notNegative found

end Extension

/-! ### Connections -/

theorem handled_closed (numerals : Numerals) (chunks : List (List UInt8)) :
    handled numerals none chunks = [] := by
  induction chunks with
  | nil => rfl
  | cons data chunks ih => simpa [handled, receiveChunk] using ih

/-- The requests that a whole stream gives. -/
def requestsIn (numerals : Numerals) (stream : List UInt8) : List HttpRequest :=
  match parseBuffer numerals stream with
  | .request req => [req]
  | _ => []

theorem handled_eq_requestsIn {numerals : Numerals} {buf : List UInt8} {chunks : List (List UInt8)}
    (reads : ReadsLength numerals (buf ++ chunks.flatten))
    (notYet : parseBuffer numerals buf = .incomplete) :
    handled numerals (some buf) chunks = requestsIn numerals (buf ++ chunks.flatten) := by
  induction chunks generalizing buf with
  | nil => simp [handled, requestsIn, notYet]
  | cons data chunks ih =>
      rw [List.flatten_cons, ← List.append_assoc] at reads ⊢
      by_cases empty : data = []
      · subst empty
        rw [List.append_nil] at reads ⊢
        simpa [handled, receiveChunk] using ih reads notYet
      · cases parsedEq : parseBuffer numerals (buf ++ data) with
        | incomplete => simpa [handled, receiveChunk, empty, parsedEq] using ih reads parsedEq
        | request req =>
            have same : parseBuffer numerals (buf ++ data ++ chunks.flatten) = .request req := by
              rw [parseBuffer_append reads.of_append (by simp [parsedEq]), parsedEq]
            simp only [handled, receiveChunk, empty, if_false, parsedEq, handled_closed, requestsIn,
              same]
            rfl
        | error =>
            have same : parseBuffer numerals (buf ++ data ++ chunks.flatten) = .error := by
              rw [parseBuffer_append reads.of_append (by simp [parsedEq]), parsedEq]
            simp only [handled, receiveChunk, empty, if_false, parsedEq, handled_closed, requestsIn,
              same]
            rfl

theorem length_requestsIn (numerals : Numerals) (stream : List UInt8) :
    (requestsIn numerals stream).length ≤ 1 := by
  unfold requestsIn
  split <;> simp

/-- The event loop handles at most one request of a connection, and the same one
however the bytes are cut into chunks: once the parser finds a request in a part
of the bytes, it finds the same one in all of them. -/
theorem handled_cuts (numerals : Numerals) (stream : List UInt8)
    (reads : ReadsLength numerals stream) :
    (∀ chunks : List (List UInt8), chunks.flatten = stream →
      handled numerals (some []) chunks = requestsIn numerals stream) ∧
    (requestsIn numerals stream).length ≤ 1 ∧
    ∀ buf more req, buf ++ more = stream → parseBuffer numerals buf = .request req →
      parseBuffer numerals stream = .request req := by
  refine ⟨?_, length_requestsIn numerals stream, ?_⟩
  · rintro chunks rfl
    exact @handled_eq_requestsIn numerals [] chunks reads rfl
  · rintro buf more req rfl parsed
    rw [parseBuffer_append reads.of_append (by simp [parsed]), parsed]

/-- Where the length is written in digits, the parser is the one of decimal
lengths. -/
theorem parseBuffer_eq {numerals : Numerals} {buf : List UInt8}
    (decimal : ∀ split ∈ splitHead buf, ∃ value < 2 ^ 63,
      tonumber ((header (headersOf split.1) (bytes "content-length")).getD (bytes "0")) =
        some value) :
    parseBuffer numerals buf = ((parseHttpRequest buf).map Parsed.request).getD .incomplete := by
  unfold parseBuffer parseHttpRequest
  cases foundEq : findPlain [13, 10, 13, 10] buf with
  | none => simp [splitHead, foundEq]
  | some headerEnd =>
      have splitEq : splitHead buf =
          some (buf.take (headerEnd + 2), buf.drop (headerEnd + 4)) := by
        simp [splitHead, foundEq]
      obtain ⟨value, small, isValue⟩ := decimal _ splitEq
      have asNumber : bodyLength numerals (buf.take (headerEnd + 2)) = .integer value := by
        rw [bodyLength, numerals.digits _ value isValue small, Option.getD_some]
      have asLength : contentLength (headersOf (buf.take (headerEnd + 2))) = value := by
        rw [contentLength, isValue, Option.getD_some]
      simp only [splitEq]
      cases parseRequestLine (buf.take (headerEnd + 2)) with
      | none => rfl
      | some line =>
          simp only [asNumber, asLength, cutBody, Int.ofNat_lt]
          split <;> simp [subUpTo]

/-- Numerals of digits only. -/
def digitNumerals : Numerals where
  toNumber text :=
    (tonumber text).map fun value : Nat =>
      if value < 2 ^ 63 then .integer value else .float (some value)
  digits := by
    intro text value isValue small
    rw [isValue, Option.map_some, if_pos small]

/-- A request in two pieces, of which the first ends inside a line break. -/
theorem handled_twoPieces :
    handled digitNumerals (some [])
        [bytes "POST /a HTTP/1.1\r\nContent-Length: 2\r", bytes "\n\r\nok"] =
      requestsIn digitNumerals (bytes "POST /a HTTP/1.1\r\nContent-Length: 2\r\n\r\nok") := by
  have reads : ReadsLength digitNumerals
      (bytes "POST /a HTTP/1.1\r\nContent-Length: 2\r\n\r\nok") := by
    have splitEq : splitHead (bytes "POST /a HTTP/1.1\r\nContent-Length: 2\r\n\r\nok") =
        some (bytes "POST /a HTTP/1.1\r\nContent-Length: 2\r\n", bytes "ok") := by
      decide +kernel
    have lengthEq : bodyLength digitNumerals (bytes "POST /a HTTP/1.1\r\nContent-Length: 2\r\n") =
        .integer 2 := by
      decide +kernel
    intro split isSplit value isValue
    obtain rfl := Option.some.inj (splitEq.symm.trans isSplit)
    obtain rfl := Number.integer.inj (lengthEq.symm.trans isValue)
    decide
  exact (handled_cuts digitNumerals _ reads).1 _ (by decide +kernel)

end LuaRuntime

end Litefunctions
