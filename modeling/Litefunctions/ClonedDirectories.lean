import Litefunctions.LuaCopies
import Litefunctions.PortalPasskeys

/-!
# Directories of a clone

A runtime refreshes from its clone of the repository.  A file of the repository
is an entry of a directory of the clone, or it is below an entry.
-/

namespace Litefunctions

/-- The entry of a directory that is a file or that the file is below, if it is
in the directory. -/
def entryOnPath {Symbol : Type} [DecidableEq Symbol] (separator : Symbol)
    (directory path : List Symbol) : Option (List Symbol × EntryKind) :=
  if (directory ++ [separator]).isPrefixOf path then
    let rest := path.drop (directory.length + 1)
    some (rest.takeWhile (· ≠ separator), if separator ∈ rest then .other else .file)
  else
    none

theorem entryOnPath_file {Symbol : Type} [DecidableEq Symbol] {separator : Symbol}
    {name : List Symbol} (direct : separator ∉ name) (directory : List Symbol) :
    entryOnPath separator directory (directory ++ separator :: name) = some (name, .file) := by
  have below : (directory ++ [separator]).isPrefixOf (directory ++ separator :: name) = true :=
    List.isPrefixOf_iff_prefix.mpr ⟨name, (List.append_cons directory separator name).symm⟩
  have rest : (directory ++ separator :: name).drop (directory.length + 1) = name := by
    rw [List.append_cons directory]
    exact List.drop_left' (by simp)
  have whole : name.takeWhile (· ≠ separator) = name := by
    rw [List.takeWhile_eq_self_iff]
    intro symbol member
    apply decide_eq_true
    rintro rfl
    exact direct member
  rw [entryOnPath, if_pos below]
  dsimp only
  rw [rest, whole, if_neg direct]

namespace Directory

variable {Name : Type} [DecidableEq Name] {IsEntryName : Name → Prop} [DecidablePred IsEntryName]

/-- The directory with these entries.  Of two entries with one name it has the
first one. -/
def ofEntries (entries : List (Name × EntryKind)) : Directory Name IsEntryName where
  entries :=
    ((entries.filter fun entry => IsEntryName entry.1).map fun entry =>
      (⟨entry.1, entry.2⟩ : Sigma fun _ : Name => EntryKind)).toAList
  wellNamed name member := by
    rw [← AList.lookup_isSome, AList.lookup_to_alist, List.dlookup_isSome, List.keys, List.map_map,
      List.mem_map] at member
    obtain ⟨entry, isEntry, rfl⟩ := member
    exact of_decide_eq_true (List.mem_filter.mp isEntry).2

theorem lookup_ofEntries_file {files others : List (Name × EntryKind)} {name : Name}
    (isEntryName : IsEntryName name) (areFiles : ∀ entry ∈ files, entry.2 = .file)
    (member : (name, .file) ∈ files) :
    (ofEntries (files ++ others) : Directory Name IsEntryName).entries.lookup name = some .file := by
  have inFiles : (⟨name, .file⟩ : Sigma fun _ : Name => EntryKind) ∈
      (files.filter fun entry => IsEntryName entry.1).map fun entry => ⟨entry.1, entry.2⟩ :=
    List.mem_map.mpr ⟨(name, .file), List.mem_filter.mpr ⟨member, decide_eq_true isEntryName⟩, rfl⟩
  obtain ⟨kind, found⟩ :=
    Option.isSome_iff_exists.mp (List.dlookup_isSome.mpr (List.mem_keys_of_mem inFiles))
  have isFile : kind = .file := by
    obtain ⟨entry, isEntry, same⟩ := List.mem_map.mp (List.of_mem_dlookup found)
    cases same
    exact areFiles entry (List.mem_filter.mp isEntry).1
  rw [ofEntries, AList.lookup_to_alist, List.filter_append, List.map_append, List.dlookup_append,
    found, isFile]
  rfl

/-- The directory of a clone that has files at these paths. -/
def ofPaths {Symbol : Type} [DecidableEq Symbol] (nameOf : List Symbol → Name) (separator : Symbol)
    (directory : List Symbol) (paths : List (List Symbol)) : Directory Name IsEntryName :=
  let entries := (paths.filterMap (entryOnPath separator directory)).map fun entry =>
    (nameOf entry.1, entry.2)
  ofEntries (entries.filter (·.2 = .file) ++ entries.filter (·.2 ≠ .file))

theorem lookup_ofPaths {Symbol : Type} [DecidableEq Symbol] {nameOf : List Symbol → Name}
    {separator : Symbol} {directory text : List Symbol} {paths : List (List Symbol)} {name : Name}
    (isName : nameOf text = name) (isEntryName : IsEntryName name) (direct : separator ∉ text)
    (member : directory ++ separator :: text ∈ paths) :
    (ofPaths nameOf separator directory paths : Directory Name IsEntryName).entries.lookup name =
      some .file := by
  subst isName
  apply lookup_ofEntries_file isEntryName
  · intro entry isFile
    exact of_decide_eq_true (List.mem_filter.mp isFile).2
  · apply List.mem_filter.mpr
    constructor
    · have isEntry : (text, .file) ∈ paths.filterMap (entryOnPath separator directory) :=
        List.mem_filterMap.mpr ⟨_, member, entryOnPath_file direct directory⟩
      exact List.mem_map_of_mem isEntry
    · rfl

end Directory

/-! ### The directories of functions -/

/-- A directory of the clone, with texts as names. -/
def textDirectory (directory : String) (paths : List String) :
    Directory String fun name => name ≠ "" ∧ '/' ∉ name.toList :=
  .ofPaths String.ofList '/' directory.toList (paths.map String.toList)

theorem mem_textDirectory {directory front name extension : String}
    (isFront : directory ++ "/" = front) (noSlash : '/' ∉ name.toList)
    (isExtension : extension ≠ "" ∧ '/' ∉ extension.toList) {paths : List String}
    (member : front ++ name ++ extension ∈ paths) :
    name ++ extension ∈ (textDirectory directory paths).entries := by
  subst isFront
  have isEntryName : name ++ extension ≠ "" ∧ '/' ∉ (name ++ extension).toList := by
    constructor
    · exact fun empty => isExtension.1 (String.append_eq_empty_iff.mp empty).2
    · rw [String.toList_append, List.mem_append, not_or]
      exact ⟨noSlash, isExtension.2⟩
  have inPaths : directory.toList ++ '/' :: (name ++ extension).toList ∈
      paths.map String.toList := by
    have mapped := List.mem_map_of_mem (f := String.toList) member
    rw [String.append_assoc, String.toList_append, String.toList_append, List.append_assoc] at mapped
    exact mapped
  rw [← AList.lookup_isSome, textDirectory,
    Directory.lookup_ofPaths String.ofList_toList isEntryName isEntryName.2 inPaths]
  rfl

namespace PythonRuntime

/-- `functions/python` of the clone. -/
def clonedDirectory (paths : List String) : FunctionDirectory :=
  textDirectory "functions/python" paths

/-- Which names are listed after a refresh from a clone that has their files. -/
theorem listed_iff_isListable {name : String} {paths : List String}
    (pushed : "functions/python/" ++ name ++ ".py" ∈ paths) (runtime : FunctionDirectory) :
    name ∈ listFunctions (syncRuntimeFunctionsDir (clonedDirectory paths) runtime) ↔
      IsListable name := by
  rw [mem_listFunctions_sync, IsListable]
  apply and_congr_left
  intro _
  constructor
  · intro member slash
    apply ((clonedDirectory paths).wellNamed _ member).2
    rw [String.toList_append]
    exact List.mem_append_left _ slash
  · intro noSlash
    exact mem_textDirectory (by decide +kernel) noSlash (by decide +kernel) pushed

end PythonRuntime

namespace TsRuntime

/-- `functions/ts` of the clone. -/
def clonedDirectory (paths : List String) : FunctionDirectory :=
  textDirectory "functions/ts" paths

theorem listed_iff_isListable {name : String} {paths : List String}
    (pushed : "functions/ts/" ++ name ++ ".ts" ∈ paths) (runtime : FunctionDirectory) :
    name ∈ listFunctions (syncDirectory (clonedDirectory paths) runtime) ↔ IsListable name := by
  rw [mem_listFunctions_sync]
  apply and_iff_right_of_imp
  intro listable
  have noSlash : '/' ∉ name.toList := fun slash => absurd (listable.2 '/' slash) (by decide)
  exact mem_textDirectory (by decide +kernel) noSlash (by decide +kernel) pushed

end TsRuntime

namespace LuaRuntime

open Lua Portal.Passkeys

/-- `functions/lua` of the clone. -/
def clonedDirectory (paths : List String) : FunctionDirectory :=
  .ofPaths id 47 (bytes "functions/lua") (paths.map bytesOf)

theorem bytesOf_append (first second : String) :
    bytesOf (first ++ second) = bytesOf first ++ bytesOf second := by
  simp [bytesOf]

theorem found_of_pushed {name : String} {paths : List String}
    (pushed : "functions/lua/" ++ name ++ ".lua" ∈ paths) (noSlash : 47 ∉ bytesOf name)
    (noZero : 0 ∉ bytesOf name) :
    bytesOf name ++ bytes ".lua" ∈ foundEntries (clonedDirectory paths) := by
  have extension : bytesOf ".lua" = bytes ".lua" := by decide +kernel
  have front : bytesOf "functions/lua/" = bytes "functions/lua" ++ [47] := by decide +kernel
  have inPaths : bytes "functions/lua" ++ 47 :: (bytesOf name ++ bytes ".lua") ∈
      paths.map bytesOf := by
    have mapped := List.mem_map_of_mem (f := bytesOf) pushed
    rw [bytesOf_append, bytesOf_append, extension, front] at mapped
    simpa using mapped
  have isEntryName : bytesOf name ++ bytes ".lua" ≠ [] ∧ 47 ∉ bytesOf name ++ bytes ".lua" ∧
      0 ∉ bytesOf name ++ bytes ".lua" := by
    refine ⟨?_, notMem_append_extension noSlash (Or.inl rfl),
      notMem_append_extension noZero (Or.inr rfl)⟩
    intro empty
    exact absurd (List.append_eq_nil_iff.mp empty).2 (by decide +kernel)
  rw [mem_foundEntries]
  exact ⟨Directory.lookup_ofPaths rfl isEntryName isEntryName.2.1 inPaths, List.suffix_append _ _⟩

end LuaRuntime

end Litefunctions
