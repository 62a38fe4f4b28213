import Litefunctions.FunctionRefreshes

/-!
# Copies of Lua files

The Lua runtime removes its function files and then copies those of the
repository with one command for each line that `find` prints.  The shell reads
the command, and its failures are ignored.  A name is listed after every refresh
if it and the names of the other files mean nothing to the shell.
-/

namespace Litefunctions

namespace LuaRuntime

open Lua Shell

instance decidableIsEntryName (name : List UInt8) :
    Decidable (name ≠ [] ∧ 47 ∉ name ∧ 0 ∉ name) :=
  inferInstance

/-- The path of the functions in the clone of a project. -/
def repoFunctionsPath (project : List UInt8) : List UInt8 :=
  bytes "/tmp/" ++ project ++ bytes "/functions/lua"

/-- `find -type f -name '*.lua' -delete`. -/
def clearRuntimeFunctionsDir (runtime : FunctionDirectory) : FunctionDirectory :=
  (foundEntries runtime).foldl Directory.erase runtime

/-- The paths that `cp` gets, unless the shell expands them. -/
def copiedPaths (source destination : List UInt8) : Option (List UInt8 × List UInt8) :=
  (Command.copy source destination).shellTokens.bind fun tokens =>
    match tokens with
    | .word _ :: .word first :: .word second :: _ => some (first, second)
    | _ => none

/-- `cp` of a file to a path in the directory.  It writes to a file that is there,
or to the file that a link leads to, and into a directory. -/
def writeFile (path : List UInt8) (runtime : FunctionDirectory) : FunctionDirectory :=
  let entry := lastSegment path
  if isEntryName : entry ≠ [] ∧ 47 ∉ entry ∧ 0 ∉ entry then
    if path = functionsPath ++ 47 :: entry ∧ entry ∉ runtime.entries then
      runtime.insertFile ⟨entry, isEntryName⟩
    else runtime
  else runtime

/-- What is done for a line of `find`.  Where the shell expands the command,
`expanded` tells what becomes of the directory. -/
def copyLine (expanded : List UInt8 → FunctionDirectory → FunctionDirectory)
    (root : List UInt8) (source : FunctionDisk) (runtime : FunctionDirectory)
    (line : List UInt8) : FunctionDirectory :=
  let file := lastSegment line
  if file = [] then runtime
  else
    (copiedPaths line (functionsPath ++ 47 :: file)).elim (expanded line runtime)
      fun (first, second) =>
        if (kindAt root source first).any EntryKind.leadsToFile then writeFile second runtime
        else runtime

/-- `copy_runtime_function_files`. -/
def copyRuntimeFunctionFiles (expanded : List UInt8 → FunctionDirectory → FunctionDirectory)
    (root : List UInt8) (source : FunctionDisk) (runtime : FunctionDirectory) :
    FunctionDirectory :=
  (findLines root (foundEntries source.toDirectory)).foldl (copyLine expanded root source) runtime

/-- The steps of `sync_repo_and_reload` behind those of `git`. -/
def syncDirectory (expanded : List UInt8 → FunctionDirectory → FunctionDirectory)
    (project : List UInt8) (source : FunctionDisk) (runtime : FunctionDirectory) :
    FunctionDirectory :=
  copyRuntimeFunctionFiles expanded (repoFunctionsPath project) source
    (clearRuntimeFunctionsDir runtime)

theorem copiedPaths_eq (source destination : List UInt8) :
    copiedPaths source destination =
      (shellText source).bind fun first => (shellText destination).map fun second =>
        (first, second) := by
  have opened : Reader.start.read (bytes "cp ") =
      some (.mk .plain none [.word (bytes "cp")]) := by decide +kernel
  have reopened : Reader.start.read (bytes " ") = some (.mk .plain none []) := by decide +kernel
  have closes : (tokensOf (bytes " >/dev/null 2>&1")).isSome = true := by decide +kernel
  obtain ⟨after, closed⟩ := Option.isSome_iff_exists.mp closes
  have text : (Command.copy source destination).text =
      bytes "cp " ++ quoted source ++
        (bytes " " ++ quoted destination ++ bytes " >/dev/null 2>&1") := by
    simp [Command.text]
  rw [copiedPaths, Command.shellTokens_eq, text, tokensOf_argument_append opened source rfl,
    tokensOf_argument_append reopened destination (by decide +kernel), closed]
  cases shellText source <;> cases shellText destination <;> rfl

/-! ### What a line changes -/

/-- No byte of the path is a control byte. -/
def HasNoControl (path : List UInt8) : Prop :=
  ∀ byte ∈ path, isControl byte = false

theorem writeFile_cases (path : List UInt8) (runtime : FunctionDirectory) :
    writeFile path runtime = runtime ∨
      ∃ entry : { name : List UInt8 // name ≠ [] ∧ 47 ∉ name ∧ 0 ∉ name },
        path = functionsPath ++ 47 :: entry.1 ∧ entry.1 ∉ runtime.entries ∧
          writeFile path runtime = runtime.insertFile entry := by
  unfold writeFile
  dsimp only
  split
  · next isEntryName =>
      split
      · next writes =>
          exact Or.inr ⟨⟨lastSegment path, isEntryName⟩, writes.1, writes.2, rfl⟩
      · exact Or.inl rfl
  · exact Or.inl rfl

theorem lookup_insertFile (runtime : FunctionDirectory)
    (entry : { name : List UInt8 // name ≠ [] ∧ 47 ∉ name ∧ 0 ∉ name }) (name : List UInt8) :
    (runtime.insertFile entry).entries.lookup name =
      if name = entry.1 then some .file else runtime.entries.lookup name := by
  by_cases same : name = entry.1
  · rw [if_pos same, same]
    exact AList.lookup_insert runtime.entries
  · rw [if_neg same]
    exact AList.lookup_insert_ne same

/-- An entry that is there stays as it is. -/
theorem lookup_writeFile_of_some {path name : List UInt8} {runtime : FunctionDirectory}
    {kind : EntryKind} (present : runtime.entries.lookup name = some kind) :
    (writeFile path runtime).entries.lookup name = some kind := by
  rcases writeFile_cases path runtime with same | ⟨entry, -, absent, written⟩
  · rw [same]
    exact present
  · have other : name ≠ entry.1 := by
      rintro rfl
      rw [AList.lookup_eq_none.mpr absent] at present
      cases present
    rw [written, lookup_insertFile, if_neg other]
    exact present

theorem lookup_writeFile_entry {entry : List UInt8} (isEntryName : entry ≠ [] ∧ 47 ∉ entry ∧ 0 ∉ entry)
    {runtime : FunctionDirectory} (absent : runtime.entries.lookup entry = none) :
    (writeFile (functionsPath ++ 47 :: entry) runtime).entries.lookup entry = some .file := by
  have segment : lastSegment (functionsPath ++ 47 :: entry) = entry :=
    lastSegment_append isEntryName.2.1 functionsPath
  have written : writeFile (functionsPath ++ 47 :: entry) runtime =
      runtime.insertFile ⟨entry, isEntryName⟩ := by
    unfold writeFile
    dsimp only
    simp only [segment]
    rw [dif_pos isEntryName, if_pos ⟨trivial, AList.lookup_eq_none.mp absent⟩]
  rw [written, lookup_insertFile, if_pos rfl]

/-- A line changes nothing, or the shell expands its command, or a file is
written. -/
theorem copyLine_cases (expanded : List UInt8 → FunctionDirectory → FunctionDirectory)
    (root : List UInt8) (source : FunctionDisk) (runtime : FunctionDirectory)
    (line : List UInt8) :
    copyLine expanded root source runtime line = runtime ∨
      (copiedPaths line (functionsPath ++ 47 :: lastSegment line) = none ∧
        copyLine expanded root source runtime line = expanded line runtime) ∨
      ∃ path, HasNoControl path ∧
        copyLine expanded root source runtime line = writeFile path runtime := by
  unfold copyLine
  dsimp only
  split
  · exact Or.inl rfl
  · cases paths : copiedPaths line (functionsPath ++ 47 :: lastSegment line) with
    | none => exact Or.inr (Or.inl ⟨rfl, rfl⟩)
    | some both =>
        obtain ⟨first, second⟩ := both
        have plain : HasNoControl second := by
          rw [copiedPaths_eq, Option.bind_eq_some_iff] at paths
          obtain ⟨shown, -, found⟩ := paths
          obtain ⟨other, isShown, same⟩ := Option.map_eq_some_iff.mp found
          obtain rfl : other = second := (Prod.ext_iff.mp same).2
          exact (shellText_plain isShown).2
        rw [Option.elim_some]
        split
        · exact Or.inr (Or.inr ⟨second, plain, rfl⟩)
        · exact Or.inl rfl

/-- What expanded commands and written files keep holds after all lines. -/
theorem copyLines_keep {expanded : List UInt8 → FunctionDirectory → FunctionDirectory}
    {root : List UInt8} {source : FunctionDisk} {kept : FunctionDirectory → Prop}
    {lines : List (List UInt8)} {runtime : FunctionDirectory} (holds : kept runtime)
    (expands : ∀ line ∈ lines, ∀ runtime, kept runtime →
      copiedPaths line (functionsPath ++ 47 :: lastSegment line) = none →
        kept (expanded line runtime))
    (writes : ∀ path runtime, HasNoControl path → kept runtime → kept (writeFile path runtime)) :
    kept (lines.foldl (copyLine expanded root source) runtime) := by
  induction lines generalizing runtime with
  | nil => exact holds
  | cons line lines ih =>
      rw [List.foldl_cons]
      apply ih
      · rcases copyLine_cases expanded root source runtime line with
          same | ⟨isExpanded, result⟩ | ⟨path, plain, result⟩
        · rw [same]
          exact holds
        · rw [result]
          exact expands line List.mem_cons_self runtime holds isExpanded
        · rw [result]
          exact writes path runtime plain holds
      · intro other member
        exact expands other (List.mem_cons_of_mem line member)

/-! ### Names that are not listed -/

/-- No name of a Lua file has a line break. -/
def IsOneLine (directory : FunctionDirectory) : Prop :=
  ∀ entry, directory.entries.lookup entry = some .file → bytes ".lua" <:+ entry → 10 ∉ entry

theorem IsOneLine.not_listed {directory : FunctionDirectory} (oneLine : IsOneLine directory)
    {name : List UInt8} (noFile : directory.entries.lookup (name ++ bytes ".lua") ≠ some .file) :
    name ∉ listFunctions directory := by
  rw [mem_listFunctions]
  rintro ⟨-, entry, isFile, isSuffix, isPiece⟩
  rw [List.splitOn_eq_singleton (oneLine entry isFile isSuffix), List.mem_singleton] at isPiece
  exact noFile (isPiece ▸ isFile)

theorem IsOneLine.writeFile {path : List UInt8} {runtime : FunctionDirectory}
    (oneLine : IsOneLine runtime) (plain : HasNoControl path) : IsOneLine (writeFile path runtime) := by
  rcases writeFile_cases path runtime with same | ⟨written, isPath, -, result⟩
  · rw [same]
    exact oneLine
  · intro entry isFile isSuffix
    rw [result, lookup_insertFile] at isFile
    split at isFile
    · next isWritten =>
        subst isWritten
        intro lineBreak
        have control := plain 10 (by simp [isPath, lineBreak])
        exact absurd control (by decide)
    · exact oneLine entry isFile isSuffix

theorem lookup_clear {runtime : FunctionDirectory} {entry : List UInt8} :
    (clearRuntimeFunctionsDir runtime).entries.lookup entry =
      if entry ∈ foundEntries runtime then none else runtime.entries.lookup entry := by
  rw [clearRuntimeFunctionsDir, Directory.lookup_eraseAll]
  by_cases found : entry ∈ foundEntries runtime
  · rw [if_pos found, if_pos found]
  · rw [if_neg found, if_neg found]

theorem isOneLine_clear (runtime : FunctionDirectory) :
    IsOneLine (clearRuntimeFunctionsDir runtime) := by
  intro entry isFile isSuffix
  rw [lookup_clear] at isFile
  split at isFile
  · cases isFile
  · next kept => exact absurd (mem_foundEntries.mpr ⟨isFile, isSuffix⟩) kept

/-- The directory has no file of the name, and no line of a file is the name. -/
def LacksFile (name : List UInt8) (directory : FunctionDirectory) : Prop :=
  IsOneLine directory ∧ directory.entries.lookup (name ++ bytes ".lua") ≠ some .file

/-- This is at the entry of the name, and no line of a file is the name. -/
def HasEntry (name : List UInt8) (kind : EntryKind) (directory : FunctionDirectory) : Prop :=
  IsOneLine directory ∧ directory.entries.lookup (name ++ bytes ".lua") = some kind

theorem LacksFile.not_listed {name : List UInt8} {directory : FunctionDirectory}
    (lacks : LacksFile name directory) : name ∉ listFunctions directory :=
  lacks.1.not_listed lacks.2

theorem HasEntry.not_listed {name : List UInt8} {kind : EntryKind} {directory : FunctionDirectory}
    (has : HasEntry name kind directory) (noFile : kind ≠ .file) :
    name ∉ listFunctions directory := by
  apply has.1.not_listed
  rw [has.2]
  exact fun same => noFile (Option.some.inj same)

theorem HasEntry.writeFile {name path : List UInt8} {kind : EntryKind}
    {directory : FunctionDirectory} (has : HasEntry name kind directory)
    (plain : HasNoControl path) : HasEntry name kind (writeFile path directory) :=
  ⟨has.1.writeFile plain, lookup_writeFile_of_some has.2⟩

theorem lacksFile_clear (name : List UInt8) (runtime : FunctionDirectory) :
    LacksFile name (clearRuntimeFunctionsDir runtime) := by
  apply And.intro (isOneLine_clear runtime)
  rw [lookup_clear]
  split
  · intro isFile
    cases isFile
  · next isKept =>
      intro isFile
      exact isKept (mem_foundEntries.mpr ⟨isFile, List.suffix_append _ _⟩)

/-- A name with a control byte is not copied. -/
theorem not_listed_of_control {name : List UInt8} {byte : UInt8} (member : byte ∈ name)
    (control : isControl byte = true) (project : List UInt8) (source : FunctionDisk)
    (runtime : FunctionDirectory) :
    name ∉ listFunctions (syncDirectory (fun _ directory => directory) project source runtime) := by
  apply LacksFile.not_listed
  apply copyLines_keep (lacksFile_clear name runtime)
  · intro line _ directory lacks _
    exact lacks
  · intro path directory plain lacks
    apply And.intro (lacks.1.writeFile plain)
    rcases writeFile_cases path directory with same | ⟨entry, isPath, -, written⟩
    · rw [same]
      exact lacks.2
    · rw [written, lookup_insertFile, if_neg]
      · exact lacks.2
      · intro isEntry
        have shown := plain byte (by simp [isPath, ← isEntry, member])
        rw [control] at shown
        cases shown

/-- An entry that is no regular file stays. -/
theorem not_listed_of_kind {name : List UInt8} {runtime : FunctionDirectory} {kind : EntryKind}
    (present : runtime.entries.lookup (name ++ bytes ".lua") = some kind) (noFile : kind ≠ .file)
    (project : List UInt8) (source : FunctionDisk) :
    name ∉ listFunctions (syncDirectory (fun _ directory => directory) project source runtime) := by
  have isKept : name ++ bytes ".lua" ∉ foundEntries runtime := by
    intro found
    have isFile := (mem_foundEntries.mp found).1
    rw [present] at isFile
    exact noFile (Option.some.inj isFile)
  have cleared : HasEntry name kind (clearRuntimeFunctionsDir runtime) := by
    apply And.intro (isOneLine_clear runtime)
    rw [lookup_clear, if_neg isKept]
    exact present
  refine HasEntry.not_listed (copyLines_keep cleared ?_ ?_) noFile
  · intro line _ directory has _
    exact has
  · intro path directory plain has
    exact has.writeFile plain

/-- A directory in which something else is at the entry of a name. -/
def blocked (name : List UInt8) (isEntryName : name ++ bytes ".lua" ≠ [] ∧
    47 ∉ name ++ bytes ".lua" ∧ 0 ∉ name ++ bytes ".lua") : FunctionDirectory where
  entries := AList.singleton (name ++ bytes ".lua") .other
  wellNamed other member := by
    have same : other = name ++ bytes ".lua" := List.mem_singleton.mp member
    exact same ▸ isEntryName

theorem hasEntry_blocked (name : List UInt8) (isEntryName : name ++ bytes ".lua" ≠ [] ∧
    47 ∉ name ++ bytes ".lua" ∧ 0 ∉ name ++ bytes ".lua") :
    HasEntry name .other (blocked name isEntryName) := by
  have isOther : (blocked name isEntryName).entries.lookup (name ++ bytes ".lua") = some .other :=
    AList.mem_lookup_iff.mpr (List.mem_singleton_self _)
  refine ⟨?_, isOther⟩
  intro entry isFile isSuffix
  have isEntry : entry ∈ (blocked name isEntryName).entries := by
    rw [← AList.lookup_isSome, isFile]
    rfl
  have same : entry = name ++ bytes ".lua" := List.mem_singleton.mp isEntry
  rw [same, isOther] at isFile
  cases Option.some.inj isFile

/-- A command that the shell expands can put something else in the place of a
file. -/
theorem not_listed_of_expanded {name line : List UInt8} {project : List UInt8}
    {source : FunctionDisk} (isEntryName : name ++ bytes ".lua" ≠ [] ∧
      47 ∉ name ++ bytes ".lua" ∧ 0 ∉ name ++ bytes ".lua")
    (isLine : line ∈ findLines (repoFunctionsPath project) (foundEntries source.toDirectory))
    (nonempty : lastSegment line ≠ [])
    (isExpanded : copiedPaths line (functionsPath ++ 47 :: lastSegment line) = none)
    (runtime : FunctionDirectory) :
    name ∉ listFunctions
      (syncDirectory (fun _ _ => blocked name isEntryName) project source runtime) := by
  obtain ⟨before, after, lines⟩ := List.append_of_mem isLine
  have step (directory : FunctionDirectory) :
      copyLine (fun _ _ => blocked name isEntryName) (repoFunctionsPath project) source directory
        line = blocked name isEntryName := by
    unfold copyLine
    dsimp only
    rw [if_neg nonempty, isExpanded]
    rfl
  have last : HasEntry name .other
      (syncDirectory (fun _ _ => blocked name isEntryName) project source runtime) := by
    rw [syncDirectory, copyRuntimeFunctionFiles, lines, List.foldl_append, List.foldl_cons, step]
    apply copyLines_keep (hasEntry_blocked name isEntryName)
    · intro _ _ _ _ _
      exact hasEntry_blocked name isEntryName
    · intro path directory plain has
      exact has.writeFile plain
  exact last.not_listed EntryKind.noConfusion

/-! ### Names that are listed -/

/-- The shell reads a text without dollar signs and backquotes. -/
theorem exists_shellText {text : List UInt8} (quiet : ∀ byte ∈ text, expands byte = false) :
    ∃ shown, shellText text = some shown := by
  induction text with
  | nil => exact ⟨[], rfl⟩
  | cons byte text ih =>
      obtain ⟨rest, found⟩ := ih fun other member => quiet other (List.mem_cons_of_mem byte member)
      have literal := quiet byte List.mem_cons_self
      have isShown : ∃ first, shownByte byte text.head? = some first := by
        unfold shownByte
        rw [if_neg (by simp [literal])]
        split
        · exact ⟨_, rfl⟩
        · split <;> exact ⟨_, rfl⟩
      obtain ⟨first, foundFirst⟩ := isShown
      exact ⟨first ++ rest, by rw [shellText, foundFirst, found]; rfl⟩

/-- The cluster runs deployments with such names only, and the deployment of a
runtime has the name of its project. -/
def IsDeployable (project : List UInt8) : Prop :=
  ∀ byte ∈ project, (97 ≤ byte ∧ byte ≤ 122) ∨ (48 ≤ byte ∧ byte ≤ 57) ∨ byte = 45 ∨ byte = 46

instance decidableIsDeployable (project : List UInt8) : Decidable (IsDeployable project) :=
  List.decidableBAll
    (fun byte => (97 ≤ byte ∧ byte ≤ 122) ∨ (48 ≤ byte ∧ byte ≤ 57) ∨ byte = 45 ∨ byte = 46) project

theorem letter_literal {byte : UInt8} (letter : 97 ≤ byte ∧ byte ≤ 122) :
    expands byte = false ∧ isControl byte = false := by
  obtain ⟨above, below⟩ := letter
  rw [UInt8.le_iff_toNat_le] at above below
  simp only [expands, isControl, ← UInt8.toNat_inj, UInt8.lt_iff_toNat_lt,
    decide_eq_false_iff_not] at above below ⊢
  simp at above below ⊢
  omega

theorem isPlain_repoFunctionsPath {project : List UInt8} (deployable : IsDeployable project) :
    IsPlain (repoFunctionsPath project) := by
  have front : IsPlain (bytes "/tmp/") := by decide +kernel
  have back : IsPlain (bytes "/functions/lua") := by decide +kernel
  intro byte member
  rw [repoFunctionsPath, List.mem_append, List.mem_append] at member
  rcases member with (inFront | inProject) | inBack
  · exact front byte inFront
  · rcases deployable byte inProject with letter | digit | rfl | rfl
    · exact letter_literal letter
    · exact (digit_literal digit).2.2.2
    · decide
    · decide
  · exact back byte inBack

/-- The bytes of a line are those of the path, or of the name. -/
theorem mem_of_mem_findLines {root line : List UInt8} {names : List (List UInt8)}
    (isLine : line ∈ findLines root names) {byte : UInt8} (member : byte ∈ line) :
    ∃ name ∈ names, byte ∈ root ∨ byte = 47 ∨ byte ∈ name := by
  obtain ⟨name, isName, isPiece⟩ := List.mem_flatMap.mp isLine
  refine ⟨name, isName, ?_⟩
  by_cases isBreak : byte = 10
  · subst isBreak
    exact absurd member (SeparatedText.separator_notMem_splitOn isPiece)
  · have inPath := (SeparatedText.mem_splitOn_iff isBreak).mp ⟨line, isPiece, member⟩
    simpa using inPath

theorem mem_of_mem_lastSegment {line : List UInt8} {byte : UInt8}
    (member : byte ∈ lastSegment line) : byte ∈ line :=
  (List.rtakeWhile_suffix _ line).subset member

theorem exists_copiedPaths {line : List UInt8} (quiet : ∀ byte ∈ line, expands byte = false) :
    copiedPaths line (functionsPath ++ 47 :: lastSegment line) ≠ none := by
  have quietTarget : ∀ byte ∈ functionsPath ++ 47 :: lastSegment line, expands byte = false := by
    intro byte member
    rw [List.mem_append, List.mem_cons] at member
    rcases member with root | rfl | segment
    · exact (paths_plain.1 byte root).1
    · decide
    · exact quiet byte (mem_of_mem_lastSegment segment)
  obtain ⟨first, isFirst⟩ := exists_shellText quiet
  obtain ⟨second, isSecond⟩ := exists_shellText quietTarget
  rw [copiedPaths_eq, isFirst, isSecond]
  exact Option.some_ne_none _

theorem isEntryName_of_found {directory : FunctionDirectory} {entry : List UInt8}
    (found : entry ∈ foundEntries directory) : entry ≠ [] ∧ 47 ∉ entry ∧ 0 ∉ entry := by
  apply directory.wellNamed
  rw [← AList.lookup_isSome, (mem_foundEntries.mp found).1]
  rfl

/-- The line of the name itself writes its file. -/
theorem copyLine_own {expanded : List UInt8 → FunctionDirectory → FunctionDirectory}
    {project name : List UInt8} {source : FunctionDisk} (deployable : IsDeployable project)
    (plain : IsPlain name) (found : name ++ bytes ".lua" ∈ foundEntries source.toDirectory)
    (runtime : FunctionDirectory) :
    copyLine expanded (repoFunctionsPath project) source runtime
        (repoFunctionsPath project ++ 47 :: (name ++ bytes ".lua")) =
      writeFile (functionsPath ++ 47 :: (name ++ bytes ".lua")) runtime := by
  obtain ⟨isFile, -⟩ := mem_foundEntries.mp found
  obtain ⟨nonempty, noSlash, noZero⟩ := isEntryName_of_found found
  have plainRoot := isPlain_repoFunctionsPath deployable
  have zero : 0 ∉ repoFunctionsPath project := control_notMem plainRoot rfl
  have plainEntry := isPlain_append_extension plain
  have asIs {root : List UInt8} (inRoot : IsPlain root) :
      shellText (root ++ 47 :: (name ++ bytes ".lua")) =
        some (root ++ 47 :: (name ++ bytes ".lua")) := by
    rw [shellText_eq_iff]
    intro byte member
    rcases List.mem_append.mp member with root | entry
    · exact inRoot byte root
    · exact plainEntry byte entry
  unfold copyLine
  dsimp only
  rw [lastSegment_append noSlash, if_neg nonempty, copiedPaths_eq, asIs plainRoot,
    asIs paths_plain.1]
  have isRead : (kindAt (repoFunctionsPath project) source
      (repoFunctionsPath project ++ 47 :: (name ++ bytes ".lua"))).any EntryKind.leadsToFile =
        true := by
    rw [kindAt_entry zero noSlash noZero, isFile]
    rfl
  exact if_pos isRead

/-- Nothing but a file is at the entry of the name. -/
def AdmitsFile (name : List UInt8) (directory : FunctionDirectory) : Prop :=
  ∀ kind ∈ directory.entries.lookup (name ++ bytes ".lua"), kind = .file

def HasFile (name : List UInt8) (directory : FunctionDirectory) : Prop :=
  directory.entries.lookup (name ++ bytes ".lua") = some .file

theorem AdmitsFile.clear {name : List UInt8} {runtime : FunctionDirectory}
    (admits : AdmitsFile name runtime) : AdmitsFile name (clearRuntimeFunctionsDir runtime) := by
  intro kind present
  rw [lookup_clear] at present
  split at present
  · cases present
  · exact admits kind present

theorem AdmitsFile.writeFile {name : List UInt8} {directory : FunctionDirectory}
    (admits : AdmitsFile name directory) (path : List UInt8) :
    AdmitsFile name (writeFile path directory) := by
  rcases writeFile_cases path directory with same | ⟨entry, -, -, written⟩
  · rw [same]
    exact admits
  · intro kind present
    rw [written, lookup_insertFile] at present
    split at present
    · exact (Option.some.inj present).symm
    · exact admits kind present

theorem AdmitsFile.hasFile {name : List UInt8} {directory : FunctionDirectory}
    (admits : AdmitsFile name directory)
    (isEntryName : name ++ bytes ".lua" ≠ [] ∧ 47 ∉ name ++ bytes ".lua" ∧
      0 ∉ name ++ bytes ".lua") :
    HasFile name (LuaRuntime.writeFile (functionsPath ++ 47 :: (name ++ bytes ".lua")) directory) := by
  cases present : directory.entries.lookup (name ++ bytes ".lua") with
  | none => exact lookup_writeFile_entry isEntryName present
  | some kind =>
      obtain rfl := admits kind present
      exact lookup_writeFile_of_some present

theorem listed_of_plain {expanded : List UInt8 → FunctionDirectory → FunctionDirectory}
    {project name : List UInt8} {source : FunctionDisk} {runtime : FunctionDirectory}
    (deployable : IsDeployable project) (nonempty : name ≠ []) (plain : IsPlain name)
    (found : name ++ bytes ".lua" ∈ foundEntries source.toDirectory)
    (free : AdmitsFile name runtime)
    (quiet : ∀ entry ∈ foundEntries source.toDirectory, ∀ byte ∈ entry, expands byte = false) :
    name ∈ listFunctions (syncDirectory expanded project source runtime) := by
  have noExpansion : ∀ line ∈ findLines (repoFunctionsPath project)
      (foundEntries source.toDirectory),
        copiedPaths line (functionsPath ++ 47 :: lastSegment line) ≠ none := by
    intro line isLine
    apply exists_copiedPaths
    intro byte member
    obtain ⟨entry, isEntry, root | rfl | inEntry⟩ := mem_of_mem_findLines isLine member
    · exact (isPlain_repoFunctionsPath deployable byte root).1
    · decide
    · exact quiet entry isEntry byte inEntry
  have noBreak : 10 ∉ name := control_notMem plain rfl
  have isOwn : repoFunctionsPath project ++ 47 :: (name ++ bytes ".lua") ∈
      findLines (repoFunctionsPath project) (foundEntries source.toDirectory) := by
    refine List.mem_flatMap.mpr ⟨_, found, ?_⟩
    rw [List.splitOn_eq_singleton]
    · exact List.mem_singleton_self _
    · have inRoot : 10 ∉ repoFunctionsPath project :=
        control_notMem (isPlain_repoFunctionsPath deployable) rfl
      have inEntry := notMem_append_extension noBreak (Or.inr rfl)
      simp [inRoot, List.mem_append.not.mp inEntry]
  obtain ⟨before, after, lines⟩ := List.append_of_mem isOwn
  have reached : AdmitsFile name (before.foldl
      (copyLine expanded (repoFunctionsPath project) source) (clearRuntimeFunctionsDir runtime)) := by
    apply copyLines_keep (AdmitsFile.clear free)
    · intro line isLine _ _ isExpanded
      exact absurd isExpanded (noExpansion line (lines ▸ List.mem_append_left _ isLine))
    · intro path directory _ admits
      exact admits.writeFile path
  have last : HasFile name (syncDirectory expanded project source runtime) := by
    rw [syncDirectory, copyRuntimeFunctionFiles, lines, List.foldl_append, List.foldl_cons,
      copyLine_own deployable plain found]
    apply copyLines_keep (reached.hasFile (isEntryName_of_found found))
    · intro line isLine _ _ isExpanded
      exact absurd isExpanded (noExpansion line
        (lines ▸ List.mem_append_right _ (List.mem_cons_of_mem _ isLine)))
    · intro path directory _ has
      exact lookup_writeFile_of_some has
  exact mem_listFunctions.mpr ⟨nonempty, isLine_of_file noBreak last⟩

/-! ### All refreshes -/

/-- The name is plain and has no separator, nothing but a file is in its place,
and the shell expands no name of a Lua file in the repository. -/
def SurvivesCopying (name : List UInt8) (source runtime : FunctionDirectory) : Prop :=
  name ≠ [] ∧ 47 ∉ name ∧ IsPlain name ∧ AdmitsFile name runtime ∧
    ∀ entry ∈ foundEntries source, ∀ byte ∈ entry, expands byte = false

/-- A piece of a name is the last segment of a line. -/
theorem exists_line {root entry piece : List UInt8} (oneLine : 10 ∉ root) (noSlash : 47 ∉ entry)
    (isPiece : piece ∈ entry.splitOn 10) :
    ∃ line ∈ (root ++ 47 :: entry).splitOn 10, lastSegment line = piece := by
  have inFront : 10 ∉ root ++ [47] := by simp [oneLine]
  have plain : 47 ∉ piece := fun slash =>
    noSlash ((SeparatedText.mem_splitOn_iff (by decide)).mp ⟨piece, isPiece, slash⟩)
  rw [List.append_cons, SeparatedText.splitOn_append_of_notMem inFront]
  cases cut : entry.splitOn 10 with
  | nil => exact absurd cut (List.splitOn_ne_nil _ _)
  | cons head rest =>
      rw [cut] at isPiece
      rcases List.mem_cons.mp isPiece with rfl | later
      · refine ⟨root ++ [47] ++ piece, List.mem_cons_self, ?_⟩
        rw [← List.append_cons, lastSegment_append plain]
      · exact ⟨piece, List.mem_cons_of_mem _ later, lastSegment_of_notMem plain⟩

theorem copiedPaths_of_expands {line target : List UInt8} {byte : UInt8} (member : byte ∈ line)
    (expanding : expands byte = true) : copiedPaths line target = none := by
  cases shown : shellText line with
  | none => rw [copiedPaths_eq, shown, Option.bind_none]
  | some text =>
      have quiet := (shellText_plain shown).1 byte member
      rw [expanding] at quiet
      cases quiet

theorem exists_expandedLine {project entry : List UInt8} {source : FunctionDirectory}
    (deployable : IsDeployable project) (found : entry ∈ foundEntries source) {byte : UInt8}
    (member : byte ∈ entry) (expanding : expands byte = true) :
    ∃ line ∈ findLines (repoFunctionsPath project) (foundEntries source),
      lastSegment line ≠ [] ∧
        copiedPaths line (functionsPath ++ 47 :: lastSegment line) = none := by
  have other : byte ≠ 10 := by
    rintro rfl
    cases expanding
  have oneLine : 10 ∉ repoFunctionsPath project := control_notMem (isPlain_repoFunctionsPath deployable) rfl
  obtain ⟨piece, isPiece, inPiece⟩ := (SeparatedText.mem_splitOn_iff other).mpr member
  obtain ⟨line, isLine, rfl⟩ := exists_line oneLine (isEntryName_of_found found).2.1 isPiece
  refine ⟨line, List.mem_flatMap.mpr ⟨entry, found, isLine⟩, List.ne_nil_of_mem inPiece, ?_⟩
  exact copiedPaths_of_expands (mem_of_mem_lastSegment inPiece) expanding

theorem listed_iff_survives {project name : List UInt8} {source : FunctionDisk}
    {runtime : FunctionDirectory} (deployable : IsDeployable project)
    (pushed : 47 ∉ name → 0 ∉ name → name ++ bytes ".lua" ∈ foundEntries source.toDirectory) :
    (∀ expanded, name ∈ listFunctions (syncDirectory expanded project source runtime)) ↔
      SurvivesCopying name source.toDirectory runtime := by
  constructor
  · intro listed
    obtain ⟨nonempty, isLine⟩ := mem_listFunctions.mp (listed fun _ directory => directory)
    obtain ⟨noSlash, -, noZero⟩ := isLine.bytes_notMem
    have found := pushed noSlash noZero
    have quiet : ∀ entry ∈ foundEntries source.toDirectory, ∀ byte ∈ entry,
        expands byte = false := by
      intro entry isEntry byte member
      apply eq_false_of_ne_true
      intro expanding
      obtain ⟨line, isLine, segment, isExpanded⟩ :=
        exists_expandedLine deployable isEntry member expanding
      exact not_listed_of_expanded (isEntryName_of_found found) isLine segment isExpanded runtime
        (listed _)
    refine ⟨nonempty, noSlash, ?_, ?_, quiet⟩
    · intro byte member
      constructor
      · exact quiet _ found byte (List.mem_append_left _ member)
      · apply eq_false_of_ne_true
        intro control
        exact not_listed_of_control member control project source runtime (listed _)
    · intro kind present
      by_contra noFile
      exact not_listed_of_kind present noFile project source (listed _)
  · rintro ⟨nonempty, noSlash, plain, admits, quiet⟩ expanded
    have noZero : 0 ∉ name := control_notMem plain rfl
    exact listed_of_plain deployable nonempty plain (pushed noSlash noZero) admits quiet

end LuaRuntime

end Litefunctions
