import Litefunctions.FunctionFiles

/-!
# Refreshed directories

A refresh removes the function files of a runtime and copies those of the
repository that pass a filter.  This file tells which names the Python and the
TypeScript runtime list after a refresh.
-/

namespace Litefunctions

namespace Directory

variable {Name : Type} {IsEntryName : Name → Prop}

/-- The names of the entries. -/
def names (directory : Directory Name IsEntryName) : List { name // IsEntryName name } :=
  directory.entries.keys.attach.map fun name =>
    ⟨name.1, directory.wellNamed name.1 (AList.mem_keys.mpr name.2)⟩

theorem mem_names {directory : Directory Name IsEntryName} {name : { name // IsEntryName name }} :
    name ∈ directory.names ↔ name.1 ∈ directory.entries := by
  rw [names, List.mem_map]
  constructor
  · rintro ⟨other, -, rfl⟩
    exact AList.mem_keys.mpr other.2
  · intro member
    exact ⟨⟨name.1, AList.mem_keys.mp member⟩, List.mem_attach _ _, rfl⟩

variable [DecidableEq Name]

/-- A file with this name. -/
def insertFile (directory : Directory Name IsEntryName) (name : { name // IsEntryName name }) :
    Directory Name IsEntryName where
  entries := directory.entries.insert name.1 .file
  wellNamed other member := by
    rcases (AList.mem_insert directory.entries).mp member with rfl | earlier
    · exact name.2
    · exact directory.wellNamed other earlier

def erase (directory : Directory Name IsEntryName) (name : Name) : Directory Name IsEntryName where
  entries := directory.entries.erase name
  wellNamed other member := directory.wellNamed other (AList.mem_erase.mp member).2

theorem mem_insertFiles {copied : List { name // IsEntryName name }}
    {directory : Directory Name IsEntryName} {name : Name} :
    name ∈ (copied.foldl insertFile directory).entries ↔
      name ∈ copied.map Subtype.val ∨ name ∈ directory.entries := by
  induction copied generalizing directory with
  | nil => simp
  | cons first copied ih =>
      rw [List.foldl_cons, ih, insertFile, AList.mem_insert, List.map_cons, List.mem_cons]
      tauto

theorem lookup_eraseAll {removed : List Name} {directory : Directory Name IsEntryName}
    {name : Name} :
    (removed.foldl erase directory).entries.lookup name =
      if name ∈ removed then none else directory.entries.lookup name := by
  induction removed generalizing directory with
  | nil => simp
  | cons first removed ih =>
      rw [List.foldl_cons, ih]
      by_cases isFirst : name = first
      · subst isFirst
        simp [erase, AList.lookup_erase]
      · simp [isFirst, erase, AList.lookup_erase_ne isFirst]

end Directory

/-- The directory of a runtime after a refresh that succeeds: the entries that
are removed give way to those that are copied. -/
def replaceFiles {IsEntryName : String → Prop} (removes copies : String → Bool)
    (source runtime : Directory String IsEntryName) : Directory String IsEntryName :=
  (source.names.filter (copies ·.1)).foldl Directory.insertFile
    ((runtime.entries.keys.filter removes).foldl Directory.erase runtime)

theorem mem_replaceFiles {IsEntryName : String → Prop} {removes copies : String → Bool}
    {source runtime : Directory String IsEntryName} {name : String}
    (removed : removes name = true) :
    name ∈ (replaceFiles removes copies source runtime).entries ↔
      name ∈ source.entries ∧ copies name = true := by
  have gone : name ∉ ((runtime.entries.keys.filter removes).foldl Directory.erase runtime).entries := by
    rw [← AList.lookup_isSome, Directory.lookup_eraseAll]
    by_cases isEntry : name ∈ runtime.entries
    · simp [AList.mem_keys.mp isEntry, removed]
    · simp [AList.lookup_eq_none.mpr isEntry]
  rw [replaceFiles, Directory.mem_insertFiles, or_iff_left gone]
  simp only [List.mem_map, List.mem_filter, Directory.mem_names]
  constructor
  · rintro ⟨other, ⟨member, isCopied⟩, rfl⟩
    exact ⟨member, isCopied⟩
  · rintro ⟨member, isCopied⟩
    exact ⟨⟨name, source.wellNamed name member⟩, ⟨member, isCopied⟩, rfl⟩

/-! ### Python -/

namespace PythonRuntime

open ScriptRuntime

/-- The entries that `sync_runtime_functions_dir` removes. -/
def isRemoved (entry : String) : Bool :=
  (stem? ".py" entry.toList).isSome && entry ≠ "__init__.py"

/-- The entries that it copies. -/
def isCopied (entry : String) : Bool :=
  (stem? ".py" entry.toList).any fun stem => !decide (IsMarked stem)

/-- `sync_runtime_functions_dir`, when it succeeds. -/
def syncRuntimeFunctionsDir (source runtime : FunctionDirectory) : FunctionDirectory :=
  replaceFiles isRemoved isCopied source runtime

theorem stem?_append (name : String) : stem? ".py" (name ++ ".py").toList = some name.toList := by
  rw [stem?_eq_stemOf, stemOf_eq_some_iff, String.toList_append]

theorem mem_listFunctions_sync {source runtime : FunctionDirectory} {name : String} :
    name ∈ listFunctions (syncRuntimeFunctionsDir source runtime) ↔
      name ++ ".py" ∈ source.entries ∧ ¬ IsMarked name.toList := by
  rw [mem_listFunctions]
  apply and_congr_left
  intro noMark
  have other : name ++ ".py" ≠ "__init__.py" := by
    intro same
    apply noMark
    have nameText : name.toList = "__init__".toList := by
      apply (List.append_left_inj ".py".toList).mp
      rw [← String.toList_append, same]
      decide +kernel
    rw [nameText]
    decide +kernel
  have removed : isRemoved (name ++ ".py") = true := by
    rw [isRemoved, stem?_append]
    exact decide_eq_true other
  have copied : isCopied (name ++ ".py") = true := by
    rw [isCopied, stem?_append, Option.any_some, decide_eq_false noMark]
    rfl
  rw [syncRuntimeFunctionsDir, mem_replaceFiles removed]
  exact and_iff_left copied

end PythonRuntime

/-! ### TypeScript -/

namespace TsRuntime

/-- `syncRuntimeFunctionsDir`, when it succeeds. -/
def syncDirectory (source runtime : FunctionDirectory) : FunctionDirectory :=
  replaceFiles isFunctionFile isFunctionFile source runtime

theorem mem_listFunctions_sync {source runtime : FunctionDirectory} {name : String} :
    name ∈ listFunctions (syncDirectory source runtime) ↔
      name ++ ".ts" ∈ source.entries ∧ IsListable name := by
  rw [mem_listFunctions]
  apply and_congr_left
  intro listable
  have isFunction := (isFunctionFile_iff name).mpr listable
  rw [syncDirectory, mem_replaceFiles isFunction]
  exact and_iff_left isFunction

end TsRuntime

end Litefunctions
