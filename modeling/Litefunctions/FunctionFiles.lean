import Litefunctions.ExecSubscriptions
import Litefunctions.PythonModules
import Litefunctions.QuotedCommands
import Mathlib.Data.List.AList
import Mathlib.Data.List.Dedup
import Mathlib.Data.List.DropRight

/-!
# Files that a request reaches

A runtime lists the functions of its directory by the names of the entries.  A
request names a function in a header, and the runtime pastes the name into a
path.  The path of a name without separators is an entry of the directory; any
other path may lead anywhere, and the Lua runtime passes its path through a
shell first.
-/

namespace Litefunctions

/-! ### Disks -/

/-- What is at a path, with the links to it followed: a file, a link to a file,
something else that exists, or a link to nothing. -/
inductive EntryKind where
  | file
  | link
  | other
  | dangling
  deriving DecidableEq, Repr

namespace EntryKind

/-- A file, or a link to one. -/
def leadsToFile (kind : EntryKind) : Bool :=
  kind = file ∨ kind = link

def isPresent (kind : EntryKind) : Bool :=
  kind ≠ dangling

end EntryKind

/-- The entries of a directory. -/
structure Directory (Name : Type) (IsEntryName : Name → Prop) where
  entries : AList fun _ : Name => EntryKind
  wellNamed : ∀ name ∈ entries, IsEntryName name

/-- The directory of the functions of a runtime, and what other paths lead to. -/
structure Disk (Name Path : Type) (IsEntryName : Name → Prop) extends
    Directory Name IsEntryName where
  elsewhere : Path → Option EntryKind

/-- The text before a suffix. -/
def stemOf {Symbol : Type} [DecidableEq Symbol] (suffix text : List Symbol) :
    Option (List Symbol) :=
  if suffix.isSuffixOf text then some (text.take (text.length - suffix.length)) else none

theorem stemOf_eq_some_iff {Symbol : Type} [DecidableEq Symbol] {suffix text stem : List Symbol} :
    stemOf suffix text = some stem ↔ text = stem ++ suffix := by
  constructor
  · intro found
    unfold stemOf at found
    split at found
    · next isSuffix =>
        obtain ⟨front, rfl⟩ := List.isSuffixOf_iff_suffix.mp isSuffix
        simpa using found
    · cases found
  · rintro rfl
    simp [stemOf]

theorem stem?_eq_stemOf (suffix : String) (text : List Char) :
    ScriptRuntime.stem? suffix text = stemOf suffix.toList text := by
  rw [ScriptRuntime.stem?, stemOf, String.length_toList]

/-! ### Python -/

namespace PythonRuntime

open ScriptRuntime

abbrev FunctionDirectory : Type := Directory String fun name => name ≠ "" ∧ '/' ∉ name.toList

abbrev FunctionDisk : Type := Disk String String fun name => name ≠ "" ∧ '/' ∉ name.toList

/-- `"__" in name`. -/
def IsMarked (name : List Char) : Prop :=
  "__".toList <:+: name

instance decidableIsMarked (name : List Char) : Decidable (IsMarked name) :=
  inferInstanceAs (Decidable (_ <:+: name))

/-- The name of the function in an entry of the directory. -/
def functionName (entry : String) : Option String :=
  (stem? ".py" entry.toList).bind fun stem =>
    if IsMarked stem then none else some (String.ofList stem)

/-- `list_functions`. -/
def listFunctions (directory : FunctionDirectory) : List String :=
  (directory.entries.keys.filterMap functionName).insertionSort (· ≤ ·)

/-- What is at the path of `load_module`. -/
def kindAt (disk : FunctionDisk) (name : String) : Option EntryKind :=
  if '/' ∈ name.toList then disk.elsewhere (filePath name) else disk.entries.lookup (name ++ ".py")

/-- A request with this name loads and runs a file.  A request without a name
is refused. -/
def runsFile (disk : FunctionDisk) (name : String) : Bool :=
  name ≠ "" && (kindAt disk name).any EntryKind.leadsToFile

/-- A name that an entry of the directory can have in the listing. -/
def IsListable (name : String) : Prop :=
  '/' ∉ name.toList ∧ ¬ IsMarked name.toList

instance decidableIsListable (name : String) : Decidable (IsListable name) :=
  inferInstanceAs (Decidable (_ ∧ _))

theorem functionName_eq_some_iff {entry name : String} :
    functionName entry = some name ↔ entry = name ++ ".py" ∧ ¬ IsMarked name.toList := by
  rw [functionName, stem?_eq_stemOf, Option.bind_eq_some_iff]
  constructor
  · rintro ⟨stem, isStem, found⟩
    split at found
    · cases found
    · next noMark =>
        obtain rfl := Option.some.inj found
        constructor
        · rw [← String.toList_inj, stemOf_eq_some_iff.mp isStem]
          simp
        · rw [String.toList_ofList]
          exact noMark
  · rintro ⟨rfl, noMark⟩
    refine ⟨name.toList, stemOf_eq_some_iff.mpr (by simp), ?_⟩
    rw [if_neg noMark, String.ofList_toList]

theorem mem_listFunctions {directory : FunctionDirectory} {name : String} :
    name ∈ listFunctions directory ↔
      name ++ ".py" ∈ directory.entries ∧ ¬ IsMarked name.toList := by
  rw [listFunctions, List.mem_insertionSort, List.mem_filterMap]
  simp only [functionName_eq_some_iff]
  constructor
  · rintro ⟨entry, isEntry, rfl, noMark⟩
    exact ⟨isEntry, noMark⟩
  · rintro ⟨isEntry, noMark⟩
    exact ⟨name ++ ".py", isEntry, rfl, noMark⟩

/-- Which contents of the disk make a request with this name run a file exactly
when the name is listed. -/
def RunsListed (disk : FunctionDisk) (name : String) : Prop :=
  if name = "" then ".py" ∉ disk.entries
  else if IsListable name then ∀ kind ∈ disk.entries.lookup (name ++ ".py"), kind.leadsToFile = true
  else ∀ kind ∈ kindAt disk name, kind.leadsToFile = false

theorem runsListed_iff (disk : FunctionDisk) (name : String) :
    (runsFile disk name = true ↔ name ∈ listFunctions disk.toDirectory) ↔ RunsListed disk name := by
  rw [mem_listFunctions, RunsListed]
  by_cases noName : name = ""
  · subst noName
    have noMark : ¬ IsMarked [] := by decide
    simp [runsFile, noMark]
  rw [if_neg noName]
  by_cases listable : IsListable name
  · obtain ⟨noSlash, noMark⟩ := listable
    have own : kindAt disk name = disk.entries.lookup (name ++ ".py") := if_neg noSlash
    rw [if_pos ⟨noSlash, noMark⟩, runsFile, own, ← AList.lookup_isSome]
    cases disk.entries.lookup (name ++ ".py") <;> simp [noName, noMark]
  · have unlisted : ¬ (name ++ ".py" ∈ disk.entries ∧ ¬ IsMarked name.toList) := by
      rintro ⟨isEntry, noMark⟩
      apply listable
      refine ⟨fun slash => (disk.wellNamed _ isEntry).2 ?_, noMark⟩
      rw [String.toList_append]
      exact List.mem_append_left _ slash
    rw [if_neg listable, runsFile]
    rw [iff_false_right unlisted]
    cases kindAt disk name <;> simp [noName]

end PythonRuntime

/-! ### TypeScript -/

namespace TsRuntime

open ScriptRuntime SeparatedText

abbrev FunctionDirectory : Type := Directory String fun name => name ≠ "" ∧ '/' ∉ name.toList

abbrev FunctionDisk : Type := Disk String Path fun name => name ≠ "" ∧ '/' ∉ name.toList

/-- `listFunctions`. -/
def listFunctions (directory : FunctionDirectory) : List String :=
  tsListFunctions (directory.entries.entries.map fun entry => ⟨entry.1, entry.2 = .file⟩)

/-- What is at the path of `resolveFunctionFile`. -/
def kindAt (root : Path) (disk : FunctionDisk) (name : String) : Option EntryKind :=
  let path := joinPath root (name ++ ".ts")
  match entryOf root path with
  | some entry => disk.entries.lookup entry
  | none => disk.elsewhere path

/-- A request with this name loads and runs a file. -/
def runsFile (root : Path) (disk : FunctionDisk) (name : String) : Bool :=
  name ≠ "" && (kindAt root disk name).any EntryKind.leadsToFile

/-- A name of the characters that `isFunctionFile` admits. -/
def IsListable (name : String) : Prop :=
  name ≠ "" ∧ ∀ char ∈ name.toList, (char.isAlphanum || char = '_' || char = '-') = true

instance decidableIsListable (name : String) : Decidable (IsListable name) :=
  haveI := List.decidableBAll
    (fun char : Char => (char.isAlphanum || char = '_' || char = '-') = true) name.toList
  inferInstanceAs (Decidable (_ ∧ _))

theorem isFunctionFile_iff (name : String) :
    isFunctionFile (name ++ ".ts") = true ↔ IsListable name := by
  have stem : (name ++ ".ts").toList.take ((name ++ ".ts").length - 3) = name.toList := by
    have length : (name ++ ".ts").length - 3 = name.toList.length := by
      rw [String.length_append, String.length_toList]
      exact Nat.add_sub_cancel name.length 3
    rw [length, String.toList_append, List.take_left]
  have notDeclared (listable : IsListable name) :
      ¬ ".d.ts".toList <:+ (name ++ ".ts").toList := by
    rintro ⟨front, isSuffix⟩
    have cut : front ++ ['.', 'd'] = name.toList := by
      apply (List.append_left_inj ['.', 't', 's']).mp
      simpa using isSuffix
    have dot := listable.2 '.' (by simp [← cut])
    exact absurd dot (by decide)
  rw [isFunctionFile, stem]
  constructor
  · intro isFunction
    simp only [Bool.and_eq_true, List.all_eq_true] at isFunction
    refine ⟨?_, isFunction.1.2⟩
    rintro rfl
    simp at isFunction
  · intro listable
    simp only [Bool.and_eq_true, List.all_eq_true]
    refine ⟨⟨⟨?_, ?_⟩, listable.2⟩, ?_⟩
    · simp
    · simpa using listable.1
    · rw [Bool.not_eq_true', ← Bool.not_eq_true, List.isSuffixOf_iff_suffix]
      exact notDeclared listable

theorem mem_listFunctions {directory : FunctionDirectory} {name : String} :
    name ∈ listFunctions directory ↔ name ++ ".ts" ∈ directory.entries ∧ IsListable name := by
  rw [listFunctions, tsListFunctions, List.mem_insertionSort, List.mem_dedup, List.mem_filterMap]
  simp only [stem?_eq_stemOf, Option.map_eq_some_iff, stemOf_eq_some_iff, List.mem_filter,
    List.mem_map]
  constructor
  · rintro ⟨_, ⟨⟨entry, isEntry, rfl⟩, isFunction⟩, stem, isStem, rfl⟩
    have entryName : entry.1 = String.ofList stem ++ ".ts" := by
      rw [← String.toList_inj, isStem]
      simp
    rw [entryName] at isFunction
    rw [← entryName]
    exact ⟨List.mem_map_of_mem isEntry, (isFunctionFile_iff _).mp isFunction⟩
  · rintro ⟨isEntry, listable⟩
    obtain ⟨entry, member, entryName⟩ := List.mem_map.mp isEntry
    refine ⟨_, ⟨⟨entry, member, rfl⟩, ?_⟩, name.toList, ?_, String.ofList_toList⟩
    · change isFunctionFile entry.1 = true
      rw [entryName]
      exact (isFunctionFile_iff name).mpr listable
    · change entry.1.toList = _
      rw [entryName, String.toList_append]

/-- The path of a name that can be listed is an entry of the directory. -/
theorem kindAt_of_isListable {name : String} (listable : IsListable name) (root : Path)
    (disk : FunctionDisk) : kindAt root disk name = disk.entries.lookup (name ++ ".ts") := by
  have noSlash : '/' ∉ (name ++ ".ts").toList := by
    rw [String.toList_append, List.mem_append, not_or]
    constructor
    · intro slash
      exact absurd (listable.2 '/' slash) (by decide)
    · decide
  have whole : pieces '/' (name ++ ".ts") = [name ++ ".ts"] := pieces_eq_singleton noSlash
  have notSegment {segment : String} (short : segment.length < 3) : name ++ ".ts" ≠ segment := by
    rintro rfl
    rw [String.length_append] at short
    have long : ".ts".length = 3 := rfl
    omega
  have path : joinPath root (name ++ ".ts") = root ++ [name ++ ".ts"] := by
    rw [joinPath, whole, List.foldl_cons, List.foldl_nil, if_neg, if_neg]
    · exact notSegment (by decide)
    · rintro (empty | dot)
      · exact notSegment (by decide) empty
      · exact notSegment (by decide) dot
  have entry : entryOf root (root ++ [name ++ ".ts"]) = some (name ++ ".ts") := by
    simp [entryOf]
  rw [kindAt, path, entry]

/-- Which contents of the disk make a request with this name run a file exactly
when the name is listed. -/
def RunsListed (root : Path) (disk : FunctionDisk) (name : String) : Prop :=
  if name = "" then True
  else if IsListable name then ∀ kind ∈ disk.entries.lookup (name ++ ".ts"), kind.leadsToFile = true
  else ∀ kind ∈ kindAt root disk name, kind.leadsToFile = false

theorem runsListed_iff (root : Path) (disk : FunctionDisk) (name : String) :
    (runsFile root disk name = true ↔ name ∈ listFunctions disk.toDirectory) ↔ RunsListed root disk name := by
  rw [mem_listFunctions, RunsListed]
  by_cases noName : name = ""
  · subst noName
    simp [runsFile, IsListable]
  rw [if_neg noName]
  by_cases listable : IsListable name
  · rw [if_pos listable, runsFile, kindAt_of_isListable listable, ← AList.lookup_isSome]
    cases disk.entries.lookup (name ++ ".ts") <;> simp [noName, listable]
  · rw [if_neg listable, runsFile]
    cases kindAt root disk name <;> simp [noName, listable]

end TsRuntime

/-! ### Lua -/

namespace LuaRuntime

open Lua Shell

abbrev FunctionDirectory : Type :=
  Directory (List UInt8) fun name => name ≠ [] ∧ 47 ∉ name ∧ 0 ∉ name

abbrev FunctionDisk : Type :=
  Disk (List UInt8) (List UInt8) fun name => name ≠ [] ∧ 47 ∉ name ∧ 0 ∉ name

/-- `runtime_functions_path`. -/
def functionsPath : List UInt8 :=
  bytes "/app/pkg/functions"

/-- What is behind the last separator. -/
def lastSegment (path : List UInt8) : List UInt8 :=
  path.rtakeWhile (· ≠ 47)

/-- `file:match("([^/]+)%.lua$")`. -/
def nameOfLine (line : List UInt8) : Option (List UInt8) :=
  (stemOf (bytes ".lua") (lastSegment line)).filter (· ≠ [])

/-- The lines that `find` prints for the files of a directory; a line break in a
name cuts it. -/
def findLines (root : List UInt8) (names : List (List UInt8)) : List (List UInt8) :=
  names.flatMap fun name => (root ++ 47 :: name).splitOn 10

/-- The entries that `find -type f -name '*.lua'` finds. -/
def foundEntries (directory : FunctionDirectory) : List (List UInt8) :=
  directory.entries.keys.filter fun entry =>
    directory.entries.lookup entry = some .file && (bytes ".lua").isSuffixOf entry

/-- `list_functions`. -/
def listFunctions (directory : FunctionDirectory) : List (List UInt8) :=
  ((findLines functionsPath (foundEntries directory)).filterMap nameOfLine).insertionSort (· ≤ ·)

/-- The path of `invoke_lua`. -/
def scriptOf (name : List UInt8) : List UInt8 :=
  functionsPath ++ 47 :: (name ++ bytes ".lua")

/-- What is at a path when `root` is the path of the directory; the system reads
a path up to a zero byte. -/
def kindAt (root : List UInt8) (disk : FunctionDisk) (path : List UInt8) : Option EntryKind :=
  let path := path.takeWhile (· ≠ 0)
  let entry := lastSegment path
  if path = root ++ 47 :: entry then disk.entries.lookup entry else disk.elsewhere path

/-- The path that the command `test -f` gets, unless the shell expands it. -/
def testedPath (script : List UInt8) : Option (List UInt8) :=
  (Command.isFile script).shellTokens.bind fun tokens =>
    match tokens with
    | [.word _, .word _, .word path] => some path
    | _ => none

/-- A request with this name loads and runs a file.  Where the shell expands the
path, `expanded` tells whether the test succeeds and the file is there then. -/
def runsFile (disk : FunctionDisk) (expanded : List UInt8 → Bool) (name : List UInt8) : Bool :=
  name ≠ [] &&
    (testedPath (scriptOf name)).elim (expanded name) fun path =>
      (kindAt functionsPath disk path).any EntryKind.leadsToFile &&
        (kindAt functionsPath disk (scriptOf name)).any EntryKind.leadsToFile

theorem testedPath_eq (script : List UInt8) : testedPath script = shellText script := by
  have opened : Reader.start.read (bytes "test -f ") =
      some (.mk .plain none [.word (bytes "test"), .word (bytes "-f")]) := by decide +kernel
  have tokens : (Command.isFile script).shellTokens =
      (shellText script).map fun shown => [.word (bytes "test"), .word (bytes "-f"), .word shown] := by
    rw [Command.shellTokens_eq]
    exact tokensOf_argument opened script
  rw [testedPath, tokens]
  cases shellText script <;> rfl

/-- The paths that every name is put between mean nothing to the shell. -/
theorem paths_plain :
    IsPlain functionsPath ∧ IsPlain (bytes ".lua") ∧ 47 ∉ bytes ".lua" := by
  decide +kernel

theorem control_notMem {text : List UInt8} (plain : IsPlain text) {byte : UInt8}
    (control : isControl byte = true) : byte ∉ text := by
  intro member
  have visible := (plain byte member).2
  rw [control] at visible
  cases visible

/-- The extension has no slash and no control bytes. -/
theorem notMem_append_extension {name : List UInt8} {byte : UInt8} (notIn : byte ∉ name)
    (excluded : byte = 47 ∨ isControl byte = true) : byte ∉ name ++ bytes ".lua" := by
  rw [List.mem_append, not_or]
  apply And.intro notIn
  rcases excluded with rfl | control
  · exact paths_plain.2.2
  · exact control_notMem paths_plain.2.1 control

theorem isPlain_append_extension {name : List UInt8} (plain : IsPlain name) :
    IsPlain (47 :: (name ++ bytes ".lua")) := by
  intro byte member
  rw [List.mem_cons, List.mem_append] at member
  rcases member with rfl | inName | extension
  · decide
  · exact plain byte inName
  · exact paths_plain.2.1 byte extension

/-! #### Listing -/

theorem lastSegment_of_notMem {segment : List UInt8} (noSlash : 47 ∉ segment) :
    lastSegment segment = segment := by
  rw [lastSegment, List.rtakeWhile_eq_self_iff]
  intro byte member
  apply decide_eq_true
  rintro rfl
  exact noSlash member

theorem lastSegment_append {segment : List UInt8} (noSlash : 47 ∉ segment) (root : List UInt8) :
    lastSegment (root ++ 47 :: segment) = segment := by
  induction segment using List.reverseRecOn with
  | nil => exact List.rtakeWhile_concat_neg _ _ _ (by decide)
  | append_singleton segment byte ih =>
      have notLast : 47 ∉ segment := fun member => noSlash (List.mem_append_left _ member)
      have other : decide (byte ≠ 47) = true := by
        apply decide_eq_true
        rintro rfl
        exact noSlash (by simp)
      have whole : root ++ 47 :: (segment ++ [byte]) = (root ++ 47 :: segment) ++ [byte] := by simp
      rw [lastSegment, whole,
        List.rtakeWhile_concat_pos (fun other : UInt8 => decide (other ≠ 47)) _ _ other]
      exact congrArg (· ++ [byte]) (ih notLast)

theorem nameOfLine_of_notMem {line name : List UInt8} (noSlash : 47 ∉ line) :
    nameOfLine line = some name ↔ name ≠ [] ∧ line = name ++ bytes ".lua" := by
  rw [nameOfLine, lastSegment_of_notMem noSlash, Option.filter_eq_some_iff, stemOf_eq_some_iff,
    decide_eq_true_iff]
  exact And.comm

/-- The names in the lines of the files do not depend on the directory. -/
theorem names_findLines {root : List UInt8} (oneLine : 10 ∉ root) {names : List (List UInt8)}
    (noSlash : ∀ name ∈ names, 47 ∉ name) :
    (findLines root names).filterMap nameOfLine =
      names.flatMap fun name => (name.splitOn 10).filterMap nameOfLine := by
  have inFront : 10 ∉ root ++ [47] := by simp [oneLine]
  rw [findLines, List.filterMap_flatMap]
  apply List.flatMap_congr
  intro name member
  have cut : root ++ 47 :: name = root ++ [47] ++ name := by simp
  rw [cut, SeparatedText.splitOn_append_of_notMem inFront]
  have pieces : ∀ piece ∈ name.splitOn 10, 47 ∉ piece := by
    intro piece isPiece slash
    exact noSlash name member
      ((SeparatedText.mem_splitOn_iff (by decide)).mp ⟨piece, isPiece, slash⟩)
  cases found : name.splitOn 10 with
  | nil => rfl
  | cons piece rest =>
      have plain : 47 ∉ piece := pieces piece (found ▸ List.mem_cons_self)
      have same : nameOfLine (root ++ [47] ++ piece) = nameOfLine piece := by
        rw [nameOfLine, nameOfLine, List.append_assoc, List.singleton_append,
          lastSegment_append plain, lastSegment_of_notMem plain]
      rw [List.modifyHead_cons, List.filterMap_cons, List.filterMap_cons, same]

/-- A file of the name, or one with a name of which this is a line. -/
def IsLine (directory : FunctionDirectory) (name : List UInt8) : Prop :=
  ∃ entry, directory.entries.lookup entry = some .file ∧ bytes ".lua" <:+ entry ∧
    name ++ bytes ".lua" ∈ entry.splitOn 10

theorem isLine_of_file {directory : FunctionDirectory} {name : List UInt8} (noBreak : 10 ∉ name)
    (isFile : directory.entries.lookup (name ++ bytes ".lua") = some .file) :
    IsLine directory name := by
  refine ⟨_, isFile, List.suffix_append _ _, ?_⟩
  rw [List.splitOn_eq_singleton]
  · exact List.mem_singleton_self _
  · exact notMem_append_extension noBreak (Or.inr rfl)

theorem mem_foundEntries {directory : FunctionDirectory} {entry : List UInt8} :
    entry ∈ foundEntries directory ↔
      directory.entries.lookup entry = some .file ∧ bytes ".lua" <:+ entry := by
  rw [foundEntries, List.mem_filter, Bool.and_eq_true, decide_eq_true_iff,
    List.isSuffixOf_iff_suffix, ← AList.mem_keys, ← AList.lookup_isSome]
  constructor
  · rintro ⟨-, found⟩
    exact found
  · rintro ⟨isFile, isSuffix⟩
    exact ⟨by rw [isFile]; rfl, isFile, isSuffix⟩

theorem mem_listFunctions {directory : FunctionDirectory} {name : List UInt8} :
    name ∈ listFunctions directory ↔ name ≠ [] ∧ IsLine directory name := by
  have noSlash : ∀ entry ∈ foundEntries directory, 47 ∉ entry := by
    intro entry member
    have isEntry : entry ∈ directory.entries := by
      rw [← AList.lookup_isSome, (mem_foundEntries.mp member).1]
      rfl
    exact (directory.wellNamed entry isEntry).2.1
  have oneLine : 10 ∉ functionsPath := control_notMem paths_plain.1 rfl
  rw [listFunctions, List.mem_insertionSort, names_findLines oneLine noSlash, List.mem_flatMap]
  constructor
  · rintro ⟨entry, found, isName⟩
    obtain ⟨line, isPiece, name⟩ := List.mem_filterMap.mp isName
    have plain : 47 ∉ line := by
      intro slash
      exact noSlash entry found
        ((SeparatedText.mem_splitOn_iff (by decide)).mp ⟨line, isPiece, slash⟩)
    obtain ⟨nonempty, rfl⟩ := (nameOfLine_of_notMem plain).mp name
    obtain ⟨isFile, isSuffix⟩ := mem_foundEntries.mp found
    exact ⟨nonempty, entry, isFile, isSuffix, isPiece⟩
  · rintro ⟨nonempty, entry, isFile, isSuffix, isPiece⟩
    have found := mem_foundEntries.mpr ⟨isFile, isSuffix⟩
    refine ⟨entry, found, List.mem_filterMap.mpr ⟨_, isPiece, ?_⟩⟩
    rw [nameOfLine_of_notMem]
    · exact ⟨nonempty, rfl⟩
    · intro slash
      exact noSlash entry found
        ((SeparatedText.mem_splitOn_iff (by decide)).mp ⟨_, isPiece, slash⟩)

/-! #### Running -/

/-- There is a file at the path that the shell tests and at the path that is
loaded. -/
def ReachesFile (disk : FunctionDisk) (expanded : List UInt8 → Bool) (name : List UInt8) : Prop :=
  (shellText (scriptOf name)).elim (expanded name = true) fun path =>
    (kindAt functionsPath disk path).any EntryKind.leadsToFile = true ∧
      (kindAt functionsPath disk (scriptOf name)).any EntryKind.leadsToFile = true

theorem runsFile_iff {disk : FunctionDisk} {expanded : List UInt8 → Bool} {name : List UInt8} :
    runsFile disk expanded name = true ↔ name ≠ [] ∧ ReachesFile disk expanded name := by
  rw [runsFile, testedPath_eq, ReachesFile, Bool.and_eq_true, decide_eq_true_iff]
  cases shellText (scriptOf name) <;> simp

/-- The bytes of the name of a line. -/
theorem IsLine.bytes_notMem {directory : FunctionDirectory} {name : List UInt8}
    (isLine : IsLine directory name) :
    47 ∉ name ∧ 10 ∉ name ∧ 0 ∉ name := by
  obtain ⟨entry, isFile, -, isPiece⟩ := isLine
  have isEntry : entry ∈ directory.entries := by
    rw [← AList.lookup_isSome, isFile]
    rfl
  obtain ⟨-, noSlash, noZero⟩ := directory.wellNamed entry isEntry
  have inEntry {byte : UInt8} (other : byte ≠ 10) (member : byte ∈ name) : byte ∈ entry :=
    (SeparatedText.mem_splitOn_iff other).mp ⟨_, isPiece, List.mem_append_left _ member⟩
  refine ⟨fun member => noSlash (inEntry (by decide) member), fun member => ?_,
    fun member => noZero (inEntry (by decide) member)⟩
  exact SeparatedText.separator_notMem_splitOn isPiece (List.mem_append_left _ member)

/-- The path of an entry leads to it. -/
theorem kindAt_entry {root entry : List UInt8} (inRoot : 0 ∉ root) (noSlash : 47 ∉ entry)
    (noZero : 0 ∉ entry) (disk : FunctionDisk) :
    kindAt root disk (root ++ 47 :: entry) = disk.entries.lookup entry := by
  have zero : ∀ byte ∈ root ++ 47 :: entry, decide (byte ≠ 0) = true := by
    intro byte member
    apply decide_eq_true
    rintro rfl
    simp [inRoot, noZero] at member
  rw [kindAt, List.takeWhile_eq_self_iff.mpr zero, lastSegment_append noSlash]
  exact if_pos rfl

theorem kindAt_scriptOf {name : List UInt8} (noSlash : 47 ∉ name) (noZero : 0 ∉ name)
    (disk : FunctionDisk) :
    kindAt functionsPath disk (scriptOf name) = disk.entries.lookup (name ++ bytes ".lua") := by
  apply kindAt_entry
  · exact control_notMem paths_plain.1 rfl
  · exact notMem_append_extension noSlash (Or.inl rfl)
  · exact notMem_append_extension noZero (Or.inr rfl)

/-- A plain name without separators reaches its own entry. -/
theorem reachesFile_of_isPlain {disk : FunctionDisk} {expanded : List UInt8 → Bool}
    {name : List UInt8} (plain : IsPlain name) (noSlash : 47 ∉ name) :
    ReachesFile disk expanded name ↔
      (disk.entries.lookup (name ++ bytes ".lua")).any EntryKind.leadsToFile = true := by
  have noZero : 0 ∉ name := control_notMem plain rfl
  have asIs : shellText (scriptOf name) = some (scriptOf name) := by
    rw [shellText_eq_iff]
    intro byte member
    rw [scriptOf, List.mem_append] at member
    rcases member with root | script
    · exact paths_plain.1 byte root
    · exact isPlain_append_extension plain byte script
  rw [ReachesFile, asIs, Option.elim_some, kindAt_scriptOf noSlash noZero]
  exact and_self_iff

/-- Which contents of the disk make a request with this name run a file exactly
when the name is listed. -/
def RunsListed (disk : FunctionDisk) (expanded : List UInt8 → Bool) (name : List UInt8) : Prop :=
  if name = [] then True
  else if 47 ∈ name ∨ 10 ∈ name ∨ 0 ∈ name then ¬ ReachesFile disk expanded name
  else if IsPlain name then
    disk.entries.lookup (name ++ bytes ".lua") ≠ some .file →
      (disk.entries.lookup (name ++ bytes ".lua") = some .link ↔ IsLine disk.toDirectory name)
  else ReachesFile disk expanded name ↔ IsLine disk.toDirectory name

theorem runsListed_iff (disk : FunctionDisk) (expanded : List UInt8 → Bool)
    (name : List UInt8) :
    (runsFile disk expanded name = true ↔ name ∈ listFunctions disk.toDirectory) ↔
      RunsListed disk expanded name := by
  rw [runsFile_iff, mem_listFunctions, RunsListed]
  by_cases noName : name = []
  · simp [noName]
  rw [if_neg noName, and_iff_right noName, and_iff_right noName]
  by_cases unlisted : 47 ∈ name ∨ 10 ∈ name ∨ 0 ∈ name
  · have noLine : ¬ IsLine disk.toDirectory name := by
      intro isLine
      obtain ⟨noSlash, noBreak, noZero⟩ := isLine.bytes_notMem
      rcases unlisted with slash | lineBreak | zero
      · exact noSlash slash
      · exact noBreak lineBreak
      · exact noZero zero
    rw [if_pos unlisted, iff_false_right noLine]
  · rw [if_neg unlisted]
    by_cases plain : IsPlain name
    · simp only [not_or] at unlisted
      rw [if_pos plain, reachesFile_of_isPlain plain unlisted.1]
      cases found : disk.entries.lookup (name ++ bytes ".lua") with
      | none => simp
      | some kind =>
          cases kind with
          | file =>
              simp [isLine_of_file unlisted.2.1 found, EntryKind.leadsToFile]
          | link => simp [EntryKind.leadsToFile]
          | other => simp [EntryKind.leadsToFile]
          | dangling => simp [EntryKind.leadsToFile]
    · rw [if_neg plain]

end LuaRuntime

/-! ### The three runtimes -/

/-- A request runs a file exactly for the listed names where the contents of the
disk allow it. -/
theorem runsFile_iff_listed (python : PythonRuntime.FunctionDisk) (root : TsRuntime.Path)
    (ts : TsRuntime.FunctionDisk) (lua : LuaRuntime.FunctionDisk)
    (expanded : List UInt8 → Bool) :
    (∀ name, (PythonRuntime.runsFile python name = true ↔
        name ∈ PythonRuntime.listFunctions python.toDirectory) ↔ PythonRuntime.RunsListed python name) ∧
      (∀ name, (TsRuntime.runsFile root ts name = true ↔ name ∈ TsRuntime.listFunctions ts.toDirectory) ↔
        TsRuntime.RunsListed root ts name) ∧
      ∀ name, (LuaRuntime.runsFile lua expanded name = true ↔
        name ∈ LuaRuntime.listFunctions lua.toDirectory) ↔ LuaRuntime.RunsListed lua expanded name :=
  ⟨PythonRuntime.runsListed_iff python, TsRuntime.runsListed_iff root ts,
    LuaRuntime.runsListed_iff lua expanded⟩

/-- An empty directory, and a file elsewhere. -/
def Disk.withFile {Name Path : Type} [DecidableEq Path] {IsEntryName : Name → Prop} (path : Path) :
    Disk Name Path IsEntryName where
  entries := ∅
  wellNamed name member := absurd member (AList.notMem_empty name)
  elsewhere other := if other = path then some .file else none

def mainPy : PythonRuntime.FunctionDisk :=
  .withFile "/app/pkg/functions/../../main.py"

def mainTs : TsRuntime.FunctionDisk :=
  .withFile ["app", "main.ts"]

def mainLua : LuaRuntime.FunctionDisk :=
  .withFile (Lua.bytes "/app/pkg/functions/../../main.lua")

/-- A name that climbs out of the directory runs a file that is not listed. -/
theorem climbingName_runsFile :
    (PythonRuntime.runsFile mainPy "../../main" = true ∧
        "../../main" ∉ PythonRuntime.listFunctions mainPy.toDirectory) ∧
      (TsRuntime.runsFile ["app", "pkg", "functions"] mainTs "../../main" = true ∧
        "../../main" ∉ TsRuntime.listFunctions mainTs.toDirectory) ∧
      LuaRuntime.runsFile mainLua (fun _ => false) (Lua.bytes "../../main") = true ∧
        Lua.bytes "../../main" ∉ LuaRuntime.listFunctions mainLua.toDirectory := by
  refine ⟨⟨by decide +kernel, ?_⟩, ⟨by decide +kernel, ?_⟩, by decide +kernel, ?_⟩
  · rw [PythonRuntime.mem_listFunctions]
    exact fun listed => AList.notMem_empty _ listed.1
  · rw [TsRuntime.mem_listFunctions]
    exact fun listed => AList.notMem_empty _ listed.1
  · decide +kernel

end Litefunctions
