import Litefunctions.InterleavedPrograms
import Litefunctions.VersionedStore

/-!
# Calls to a versioned store

Clients reach a store through calls that are answered one at a time, and any
call may be rejected for reasons that have nothing to do with the stored
objects.
-/

namespace Litefunctions

/-- A call to a store whose patches are `Edit`s. -/
inductive StoreCall (Key Content Edit : Type) where
  | get (key : Key)
  | list
  | create (key : Key) (content : Content)
  | update (object : Object Key Content)
  | patch (key : Key) (edit : Edit)
  | delete (key : Key)

namespace StoreCall

variable {Key Content Edit : Type}

/-- What a call returns when it succeeds. -/
abbrev Value : StoreCall Key Content Edit → Type
  | get _ => Object Key Content
  | list => List (Object Key Content)
  | create _ _ => Object Key Content
  | update _ => Object Key Content
  | patch _ _ => Object Key Content
  | delete _ => Unit

abbrev Response (call : StoreCall Key Content Edit) : Type :=
  Except StoreError call.Value

variable [DecidableEq Key] [DecidableEq Content]

/-- The response of the store and the store after the call. -/
def execute (apply : Edit → Content → Content) :
    (call : StoreCall Key Content Edit) → Store Key Content →
      call.Response × Store Key Content
  | get key, store =>
      match store.find? key with
      | none => (.error .notFound, store)
      | some object => (.ok object, store)
  | list, store => (.ok store.objects, store)
  | create key content, store => store.create key content
  | update object, store => store.update object
  | patch key edit, store => store.patch key (apply edit)
  | delete key, store => store.delete key

variable {apply : Edit → Content → Content} {store after : Store Key Content}

theorem execute_get_eq_ok {key : Key} {object : Object Key Content}
    (answered : (get key : StoreCall Key Content Edit).execute apply store = (.ok object, after)) :
    store.find? key = some object ∧ after = store := by
  simp only [execute] at answered
  split at answered
  · simp at answered
  · next stored found =>
      obtain ⟨valueEq, storeEq⟩ := Prod.mk.inj answered
      exact ⟨found.trans (congrArg some (Except.ok.inj valueEq)), storeEq.symm⟩

theorem execute_list_eq_ok {objects : List (Object Key Content)}
    (answered : (list : StoreCall Key Content Edit).execute apply store = (.ok objects, after)) :
    objects = store.objects ∧ after = store := by
  obtain ⟨valueEq, storeEq⟩ := Prod.mk.inj answered
  exact ⟨(Except.ok.inj valueEq).symm, storeEq.symm⟩

/-- A rejected call leaves the store as it is. -/
theorem execute_eq_error {call : StoreCall Key Content Edit} {error : StoreError}
    (answered : call.execute apply store = (.error error, after)) : after = store := by
  cases call with
  | get key =>
      simp only [execute] at answered
      split at answered
      · exact (Prod.mk.inj answered).2.symm
      · simp at answered
  | list => simp [execute] at answered
  | create key content =>
      simp only [execute, Store.create] at answered
      split at answered
      · simp at answered
      · exact (Prod.mk.inj answered).2.symm
  | update object => exact Store.update_eq_error answered
  | patch key edit =>
      simp only [execute, Store.patch] at answered
      split at answered
      · exact (Prod.mk.inj answered).2.symm
      · simp at answered
  | delete key =>
      simp only [execute, Store.delete] at answered
      split at answered
      · exact (Prod.mk.inj answered).2.symm
      · simp at answered

theorem execute_evolves (apply : Edit → Content → Content) (call : StoreCall Key Content Edit) (store : Store Key Content) :
    Store.Evolves store (call.execute apply store).2 := by
  cases call with
  | get key =>
      simp only [execute]
      split <;> exact .refl store
  | list => exact .refl store
  | create key content => exact .create store key content
  | update object => exact .update store object
  | patch key edit => exact .patch store key (apply edit)
  | delete key => exact .delete store key

end StoreCall

end Litefunctions
