import Mathlib.Data.List.Nodup
import Mathlib.Order.Basic

/-!
# Versioned object stores

A store keeps objects under distinct keys.  Every write that changes an object
gives it a version that no object had before, an update names the version that
it was computed from and is rejected when the stored one is another, and a
patch edits whatever is stored.  Versions make optimistic updates safe: an
object that still has the version once read is still the object once read.
-/

namespace Litefunctions

/-- A stored object. -/
structure Object (Key Content : Type) where
  key : Key
  version : Nat
  content : Content
  deriving DecidableEq, Repr

/-- Objects under distinct keys, with versions up to the current revision. -/
structure Store (Key Content : Type) where
  objects : List (Object Key Content)
  revision : Nat
  keysDistinct : (objects.map (·.key)).Nodup
  versionsBounded : ∀ object ∈ objects, object.version ≤ revision

/-- Why a store rejects a call; `unavailable` is any failure that does not
come from the stored objects. -/
inductive StoreError where
  | notFound | alreadyExists | conflict | unavailable
  deriving DecidableEq, Repr

namespace Store

variable {Key Content : Type} [DecidableEq Key]

/-- The object stored under a key. -/
def find? (store : Store Key Content) (key : Key) : Option (Object Key Content) :=
  store.objects.find? (·.key = key)

section Find

variable {store : Store Key Content} {object : Object Key Content} {key : Key}

theorem mem_of_find?_eq_some (found : store.find? key = some object) :
    object ∈ store.objects :=
  List.mem_of_find?_eq_some found

theorem key_of_find?_eq_some (found : store.find? key = some object) : object.key = key := by
  simpa using List.find?_some found

theorem find?_eq_none_iff : store.find? key = none ↔ ∀ object ∈ store.objects, object.key ≠ key := by
  simp [find?]

omit [DecidableEq Key] in
theorem eq_of_mem_of_key_eq {other : Object Key Content} (member : object ∈ store.objects)
    (otherMember : other ∈ store.objects) (sameKey : object.key = other.key) :
    object = other :=
  List.inj_on_of_nodup_map store.keysDistinct member otherMember sameKey

theorem find?_key_of_mem (member : object ∈ store.objects) :
    store.find? object.key = some object := by
  cases found : store.find? object.key with
  | none => exact absurd rfl (find?_eq_none_iff.mp found object member)
  | some stored =>
      rw [eq_of_mem_of_key_eq (mem_of_find?_eq_some found) member (key_of_find?_eq_some found)]

end Find

/-! ### Writes -/

/-- The store without objects. -/
def empty : Store Key Content where
  objects := []
  revision := 0
  keysDistinct := List.nodup_nil
  versionsBounded := by simp

/-- Give the object under a key a new version with this content. -/
def replace (store : Store Key Content) (key : Key) (content : Content) : Store Key Content where
  objects := store.objects.map fun object =>
    if object.key = key then ⟨key, store.revision + 1, content⟩ else object
  revision := store.revision + 1
  keysDistinct := by
    have keysEq : (store.objects.map fun object =>
        if object.key = key then ⟨key, store.revision + 1, content⟩ else object).map (·.key) =
          store.objects.map (·.key) := by
      simp only [List.map_map, List.map_inj_left, Function.comp_apply]
      intro object _
      split
      · next sameKey => exact sameKey.symm
      · rfl
    exact keysEq ▸ store.keysDistinct
  versionsBounded := by
    intro object member
    obtain ⟨stored, storedMember, rfl⟩ := List.mem_map.mp member
    split
    · exact Nat.le_refl _
    · exact Nat.le_succ_of_le (store.versionsBounded stored storedMember)

/-- Add an object under a key that is not in use. -/
def insert (store : Store Key Content) (key : Key) (content : Content)
    (unused : store.find? key = none) : Store Key Content where
  objects := store.objects ++ [⟨key, store.revision + 1, content⟩]
  revision := store.revision + 1
  keysDistinct := by
    rw [List.map_append, List.nodup_append]
    refine ⟨store.keysDistinct, List.nodup_singleton _, ?_⟩
    intro used usedMember new newMember
    obtain ⟨object, member, rfl⟩ := List.mem_map.mp usedMember
    rw [List.map_singleton, List.mem_singleton] at newMember
    exact newMember ▸ find?_eq_none_iff.mp unused object member
  versionsBounded := by
    intro object member
    rcases List.mem_append.mp member with stored | new
    · exact Nat.le_succ_of_le (store.versionsBounded object stored)
    · rw [List.mem_singleton] at new
      exact new ▸ Nat.le_refl _

/-- Remove the object under a key. -/
def erase (store : Store Key Content) (key : Key) : Store Key Content where
  objects := store.objects.filter (·.key ≠ key)
  revision := store.revision + 1
  keysDistinct := store.keysDistinct.sublist (List.filter_sublist.map _)
  versionsBounded object member :=
    Nat.le_succ_of_le (store.versionsBounded object (List.mem_of_mem_filter member))

theorem find?_replace (store : Store Key Content) (key other : Key) (content : Content) :
    (store.replace key content).find? other =
      if other = key then (store.find? key).map fun _ => ⟨key, store.revision + 1, content⟩
      else store.find? other := by
  simp only [find?, replace]
  induction store.objects with
  | nil => simp
  | cons object objects ih =>
      by_cases isKey : object.key = key
      · by_cases isOther : other = key
        · simp [isKey, isOther]
        · have notOther : ¬ object.key = other := fun same => isOther (same.symm.trans isKey)
          simpa [isKey, isOther, Ne.symm isOther, notOther] using ih
      · by_cases isOther : object.key = other
        · have notKey : ¬ other = key := fun same => isKey (isOther.trans same)
          simp [isOther, notKey]
        · simpa [isKey, isOther] using ih

theorem find?_insert {store : Store Key Content} {key : Key} {content : Content}
    (unused : store.find? key = none) (other : Key) :
    (store.insert key content unused).find? other =
      if other = key then some ⟨key, store.revision + 1, content⟩ else store.find? other := by
  simp only [find?, insert, List.find?_append] at unused ⊢
  by_cases sameKey : other = key
  · subst sameKey
    simp [unused]
  · simp [sameKey, Ne.symm sameKey]

theorem find?_erase (store : Store Key Content) (key other : Key) :
    (store.erase key).find? other = if other = key then none else store.find? other := by
  simp only [find?, erase, List.find?_filter]
  split
  · next sameKey => simp [sameKey]
  · next otherKey =>
      congr 1
      funext object
      by_cases isOther : object.key = other
      · simp [isOther, otherKey]
      · simp [isOther]

/-! ### Calls of clients -/

section Calls

variable [DecidableEq Content]

/-- Store new content; nothing is written when the content is the same. -/
def write (store : Store Key Content) (stored : Object Key Content) (content : Content) :
    Object Key Content × Store Key Content :=
  if stored.content = content then
    (stored, store)
  else
    (⟨stored.key, store.revision + 1, content⟩, store.replace stored.key content)

/-- Create an object. -/
def create (store : Store Key Content) (key : Key) (content : Content) :
    Except StoreError (Object Key Content) × Store Key Content :=
  if unused : store.find? key = none then
    (.ok ⟨key, store.revision + 1, content⟩, store.insert key content unused)
  else
    (.error .alreadyExists, store)

/-- Replace an object by a version computed from the stored one. -/
def update (store : Store Key Content) (object : Object Key Content) :
    Except StoreError (Object Key Content) × Store Key Content :=
  match store.find? object.key with
  | none => (.error .notFound, store)
  | some stored =>
      if stored.version = object.version then
        let written := store.write stored object.content
        (.ok written.1, written.2)
      else
        (.error .conflict, store)

/-- Edit the stored object, whatever its version. -/
def patch (store : Store Key Content) (key : Key) (edit : Content → Content) :
    Except StoreError (Object Key Content) × Store Key Content :=
  match store.find? key with
  | none => (.error .notFound, store)
  | some stored =>
      let written := store.write stored (edit stored.content)
      (.ok written.1, written.2)

/-- Delete an object. -/
def delete (store : Store Key Content) (key : Key) :
    Except StoreError Unit × Store Key Content :=
  match store.find? key with
  | none => (.error .notFound, store)
  | some _ => (.ok (), store.erase key)

section Specifications

variable {store after : Store Key Content} {stored object written : Object Key Content}
variable {key : Key} {content : Content}

theorem write_content : (store.write stored content).1.content = content := by
  unfold write
  split
  · next same => exact same
  · rfl

theorem write_key : (store.write stored content).1.key = stored.key := by
  unfold write
  split <;> rfl

theorem find?_write (found : store.find? stored.key = some stored) (other : Key) :
    (store.write stored content).2.find? other =
      if other = stored.key then some (store.write stored content).1 else store.find? other := by
  unfold write
  split
  · split
    · next sameKey => exact sameKey ▸ found
    · rfl
  · simp only [find?_replace, found, Option.map_some]

/-- An accepted update found the version that it names, and stores its content
under its key. -/
theorem update_eq_ok (accepted : store.update object = (.ok written, after)) :
    ∃ stored, store.find? object.key = some stored ∧ stored.version = object.version ∧
      written.content = object.content ∧
      ∀ other, after.find? other =
        if other = object.key then some written else store.find? other := by
  unfold update at accepted
  cases found : store.find? object.key with
  | none => simp [found] at accepted
  | some stored =>
      have keyEq := key_of_find?_eq_some found
      simp only [found] at accepted
      split at accepted
      · next sameVersion =>
          obtain ⟨rfl, rfl⟩ : (store.write stored object.content).1 = written ∧
              (store.write stored object.content).2 = after := by
            simpa using accepted
          refine ⟨stored, rfl, sameVersion, write_content, fun other => ?_⟩
          rw [find?_write (keyEq ▸ found), keyEq]
      · simp at accepted

/-- An update is accepted exactly when the stored object has its version. -/
theorem isOk_update_iff :
    (∃ written, (store.update object).1 = .ok written) ↔
      ∃ stored, store.find? object.key = some stored ∧ stored.version = object.version := by
  unfold update
  cases found : store.find? object.key with
  | none => simp
  | some stored =>
      by_cases sameVersion : stored.version = object.version <;> simp [sameVersion]

theorem update_eq_error {error : StoreError} (rejected : store.update object = (.error error, after)) :
    after = store := by
  unfold update at rejected
  split at rejected
  · exact (Prod.mk.inj rejected).2.symm
  · split at rejected
    · simp at rejected
    · exact (Prod.mk.inj rejected).2.symm

omit [DecidableEq Content] in
theorem create_eq_ok (accepted : store.create key content = (.ok written, after)) :
    store.find? key = none ∧ written.content = content ∧
      ∀ other, after.find? other = if other = key then some written else store.find? other := by
  unfold create at accepted
  split at accepted
  · next unused =>
      obtain ⟨writtenEq, rfl⟩ := Prod.mk.inj accepted
      obtain rfl := Except.ok.inj writtenEq
      exact ⟨unused, rfl, find?_insert unused⟩
  · simp at accepted

/-- An accepted patch edits the stored object. -/
theorem patch_eq_ok {edit : Content → Content}
    (accepted : store.patch key edit = (.ok written, after)) :
    ∃ stored, store.find? key = some stored ∧ written.content = edit stored.content ∧
      written.key = key ∧
      ∀ other, after.find? other = if other = key then some written else store.find? other := by
  unfold patch at accepted
  cases found : store.find? key with
  | none => simp [found] at accepted
  | some stored =>
      have keyEq := key_of_find?_eq_some found
      obtain ⟨rfl, rfl⟩ : (store.write stored (edit stored.content)).1 = written ∧
          (store.write stored (edit stored.content)).2 = after := by
        simpa [found] using accepted
      refine ⟨stored, rfl, write_content, write_key.trans keyEq, fun other => ?_⟩
      rw [find?_write (keyEq ▸ found), keyEq]

end Specifications

end Calls

/-! ### Versions over time -/

/-- The later store keeps objects of the earlier one or has newer versions. -/
def Evolves (early late : Store Key Content) : Prop :=
  early.revision ≤ late.revision ∧
    ∀ object ∈ late.objects, object ∈ early.objects ∨ early.revision < object.version

namespace Evolves

omit [DecidableEq Key] in
theorem refl (store : Store Key Content) : Evolves store store :=
  ⟨Nat.le_refl _, fun _ member => .inl member⟩

omit [DecidableEq Key] in
theorem trans {early middle late : Store Key Content} (first : Evolves early middle)
    (second : Evolves middle late) : Evolves early late := by
  apply And.intro (Nat.le_trans first.1 second.1)
  intro object member
  rcases second.2 object member with kept | newer
  · exact first.2 object kept
  · exact .inr (Nat.lt_of_le_of_lt first.1 newer)

/-- An object that has the version once read is the object once read. -/
theorem eq_of_version_eq {early late : Store Key Content} (evolves : Evolves early late)
    {key : Key} {read stored : Object Key Content} (readFound : early.find? key = some read)
    (storedFound : late.find? key = some stored) (sameVersion : stored.version = read.version) :
    stored = read := by
  rcases evolves.2 stored (mem_of_find?_eq_some storedFound) with kept | newer
  · refine eq_of_mem_of_key_eq kept (mem_of_find?_eq_some readFound) ?_
    rw [key_of_find?_eq_some storedFound, key_of_find?_eq_some readFound]
  · have bounded := early.versionsBounded read (mem_of_find?_eq_some readFound)
    omega

/-- An object that is there before and after was there in between. -/
theorem find?_between {early middle late : Store Key Content} (first : Evolves early middle)
    (second : Evolves middle late) {key : Key} {object : Object Key Content}
    (before : early.find? key = some object) (after : late.find? key = some object) :
    middle.find? key = some object := by
  have keyEq := key_of_find?_eq_some before
  rcases second.2 object (mem_of_find?_eq_some after) with kept | newer
  · exact keyEq ▸ find?_key_of_mem kept
  · have bounded := early.versionsBounded object (mem_of_find?_eq_some before)
    have grows := first.1
    omega

theorem replace (store : Store Key Content) (key : Key) (content : Content) :
    Evolves store (store.replace key content) := by
  apply And.intro (Nat.le_succ _)
  intro object member
  obtain ⟨stored, storedMember, rfl⟩ := List.mem_map.mp member
  split
  · exact .inr (Nat.lt_succ_self _)
  · exact .inl storedMember

variable [DecidableEq Content]

theorem write (store : Store Key Content) (stored : Object Key Content) (content : Content) :
    Evolves store (store.write stored content).2 := by
  unfold Store.write
  split
  · exact refl store
  · exact replace store _ _

omit [DecidableEq Content] in
theorem create (store : Store Key Content) (key : Key) (content : Content) :
    Evolves store (store.create key content).2 := by
  unfold Store.create
  split
  · apply And.intro (Nat.le_succ _)
    intro object member
    rcases List.mem_append.mp member with kept | new
    · exact .inl kept
    · rw [List.mem_singleton.mp new]
      exact .inr (Nat.lt_succ_self _)
  · exact refl store

theorem update (store : Store Key Content) (object : Object Key Content) :
    Evolves store (store.update object).2 := by
  unfold Store.update
  split
  · exact refl store
  · split
    · exact write store _ _
    · exact refl store

theorem patch (store : Store Key Content) (key : Key) (edit : Content → Content) :
    Evolves store (store.patch key edit).2 := by
  unfold Store.patch
  split
  · exact refl store
  · exact write store _ _

omit [DecidableEq Content] in
theorem delete (store : Store Key Content) (key : Key) :
    Evolves store (store.delete key).2 := by
  unfold Store.delete
  split
  · exact refl store
  · exact ⟨Nat.le_succ _, fun object member => .inl (List.mem_of_mem_filter member)⟩

end Evolves

end Store

end Litefunctions
