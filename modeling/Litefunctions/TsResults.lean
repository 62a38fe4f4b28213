import Litefunctions.DecimalText
import Litefunctions.HexText

/-!
# Results of TypeScript functions

`invokeModule` tests what a function returned and turns it into chunks of
bytes.  An iterable yields a chunk for each of its items.  Bytes are iterable
themselves, so a function that returns bytes answers with the decimal text of
each of them.
-/

namespace Litefunctions

namespace TsRuntime

open DecimalText

/-- What is thrown, as `String` shows it. -/
abbrev Thrown : Type := Bytes

/-- A value as the runtime tells it apart.  `ending` is what an iteration throws
behind its items, and `json` is what `JSON.stringify` makes of a value. -/
inductive JsValue where
  | nullish
  | uint8Array (data : Bytes)
  | arrayBuffer (data : Bytes)
  | response (body : Except Thrown Bytes)
  | string (text : String)
  | asyncIterable (items : List JsValue) (ending : Option Thrown) (json : Except Thrown Bytes)
  | iterable (items : List JsValue) (ending : Option Thrown) (json : Except Thrown Bytes)
  | other (json : Except Thrown Bytes)

/-- The chunks that are yielded, and what is thrown behind them. -/
structure Chunks where
  yielded : List Bytes
  thrown : Option Thrown
  deriving DecidableEq, Repr

namespace JsValue

/-- `value[Symbol.asyncIterator]`. -/
def asyncIterator : JsValue → Option (List JsValue × Option Thrown)
  | asyncIterable items ending _ => some (items, ending)
  | _ => none

/-- `value[Symbol.iterator]`; that of bytes gives numbers. -/
def iterator : JsValue → Option (List JsValue × Option Thrown)
  | uint8Array data => some (data.map fun byte => other (.ok (digitsOf byte.toNat)), none)
  | iterable items ending _ => some (items, ending)
  | string text => some (text.toList.map fun char => string (.singleton char), none)
  | _ => none

def isString : JsValue → Bool
  | string _ => true
  | _ => false

end JsValue

/-- `asBytes`. -/
def asBytes : JsValue → Except Thrown Bytes
  | .nullish => .ok []
  | .uint8Array data => .ok data
  | .arrayBuffer data => .ok data
  | .response _ => .ok "response objects are only supported in sync mode".toUTF8.toList
  | .string text => .ok text.toUTF8.toList
  | .asyncIterable _ _ json => json
  | .iterable _ _ json => json
  | .other json => json

/-- A loop that yields the bytes of each item. -/
def yieldItems (ending : Option Thrown) : List JsValue → Chunks
  | [] => ⟨[], ending⟩
  | item :: items =>
      match asBytes item with
      | .error thrown => ⟨[], some thrown⟩
      | .ok chunk =>
          let later := yieldItems ending items
          ⟨chunk :: later.yielded, later.thrown⟩

/-- The part of `invokeModule` behind the call of `handle`. -/
def yieldResult (result : JsValue) : Chunks :=
  match result with
  | .nullish => ⟨[[]], none⟩
  | .response (.ok body) => ⟨[body], none⟩
  | .response (.error thrown) => ⟨[], some thrown⟩
  | _ =>
      match result.asyncIterator with
      | some (items, ending) => yieldItems ending items
      | none =>
          match result.iterator, result.isString with
          | some (items, ending), false => yieldItems ending items
          | _, _ =>
              match asBytes result with
              | .error thrown => ⟨[], some thrown⟩
              | .ok chunk => ⟨[chunk], none⟩

/-- The body that `handleSyncRequest` answers with: it stops at the first
chunk. -/
def Chunks.firstChunk (chunks : Chunks) : Except Thrown Bytes :=
  match chunks.yielded, chunks.thrown with
  | chunk :: _, _ => .ok chunk
  | [], some thrown => .error thrown
  | [], none => .ok []

/-! ### Bytes -/

theorem yieldItems_bytes (data : Bytes) :
    yieldItems none (data.map fun byte => .other (.ok (digitsOf byte.toNat))) =
      ⟨data.map fun byte => digitsOf byte.toNat, none⟩ := by
  induction data with
  | nil => rfl
  | cons byte data ih => simp [yieldItems, asBytes, ih]

theorem yieldResult_uint8Array (data : Bytes) :
    yieldResult (.uint8Array data) = ⟨data.map fun byte => digitsOf byte.toNat, none⟩ :=
  yieldItems_bytes data

/-- A generator that yields bytes once answers with them. -/
theorem yieldResult_once (data : Bytes) (json : Except Thrown Bytes) :
    yieldResult (.iterable [.uint8Array data] none json) = ⟨[data], none⟩ :=
  rfl

/-- The decimal texts of large bytes take more than twice their number. -/
theorem two_mul_length_le {data : Bytes} (large : ∀ byte ∈ data, 48 ≤ byte) :
    2 * data.length ≤ (data.map fun byte => digitsOf byte.toNat).flatten.length := by
  induction data with
  | nil => simp
  | cons byte data ih =>
      have later := ih fun other member => large other (List.mem_cons_of_mem byte member)
      have first := UInt8.le_iff_toNat_le.mp (large byte List.mem_cons_self)
      have twoDigits : 1 < (digitsOf byte.toNat).length :=
        one_lt_length_digitsOf (Nat.le_trans (by decide) first)
      simp only [List.map_cons, List.flatten_cons, List.length_append, List.length_cons]
      omega

theorem flatten_digitsOf_eq_iff (data : Bytes) :
    (data.map fun byte => digitsOf byte.toNat).flatten = data ↔ data = [] := by
  constructor
  · intro same
    have large : ∀ byte ∈ data, 48 ≤ byte := by
      intro byte member
      rw [← same] at member
      obtain ⟨digits, isText, inText⟩ := List.mem_flatten.mp member
      obtain ⟨source, -, rfl⟩ := List.mem_map.mp isText
      exact (mem_digitsOf inText).1
    have long := two_mul_length_le large
    rw [same] at long
    apply List.eq_nil_of_length_eq_zero
    omega
  · rintro rfl
    rfl

/-- A function that returns bytes answers with these bytes, in its chunks and in
a synchronous response, exactly if there are none. -/
theorem yieldResult_eq_data_iff (data : Bytes) :
    ((yieldResult (.uint8Array data)).thrown = none ∧
      (yieldResult (.uint8Array data)).yielded.flatten = data ∧
      (yieldResult (.uint8Array data)).firstChunk = .ok data) ↔ data = [] := by
  rw [yieldResult_uint8Array]
  constructor
  · rintro ⟨-, same, -⟩
    exact (flatten_digitsOf_eq_iff data).mp same
  · rintro rfl
    exact ⟨rfl, rfl, rfl⟩

/-- One byte comes back as two digits. -/
theorem yieldResult_twelve :
    (yieldResult (.uint8Array [12])).yielded.flatten ≠ [12] ∧
      (yieldResult (.uint8Array [12])).firstChunk ≠ .ok [12] ∧
      (yieldResult (.iterable [.uint8Array [12]] none (.ok []))).yielded.flatten = [12] := by
  rw [yieldResult_uint8Array, yieldResult_once]
  decide +kernel

end TsRuntime

end Litefunctions
