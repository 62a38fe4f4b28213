import Litefunctions.PortalFunctions
import Mathlib.Data.List.Forall2

/-!
# Walks over a repository

The walk of the portal goes through the directories of a repository and handles
their files one after the other.  Rows for some of the files are a list that is
related to a sublist of them.
-/

namespace Litefunctions

/-! ### Sorted lists -/

section Sorted

variable {Row : Type} (inOrder : Row → Row → Prop) [DecidableRel inOrder]

theorem orderedInsert_eq_cons {row : Row} {rows : List Row}
    (least : ∀ other ∈ rows, inOrder row other) : rows.orderedInsert inOrder row = row :: rows := by
  cases rows with
  | nil => rfl
  | cons head rows => exact List.orderedInsert_cons_of_le _ rows (least head List.mem_cons_self)

theorem filter_orderedInsert [IsTrans Row inOrder] (wanted : Row → Bool) (row : Row)
    {rows : List Row} (sorted : rows.Pairwise inOrder) :
    (rows.orderedInsert inOrder row).filter wanted =
      if wanted row then (rows.filter wanted).orderedInsert inOrder row else rows.filter wanted := by
  induction rows with
  | nil => cases isWanted : wanted row <;> simp [isWanted]
  | cons head rows ih =>
      rw [List.pairwise_cons] at sorted
      by_cases first : inOrder row head
      · have least : ∀ other ∈ (head :: rows).filter wanted, inOrder row other := by
          intro other member
          rcases List.mem_cons.mp (List.mem_of_mem_filter member) with rfl | later
          · exact first
          · exact IsTrans.trans _ _ _ first (sorted.1 other later)
        rw [orderedInsert_eq_cons inOrder least, List.orderedInsert_cons_of_le _ rows first,
          List.filter_cons]
      · rw [List.orderedInsert_of_not_le _ rows first, List.filter_cons, List.filter_cons,
          ih sorted.2]
        cases isWanted : wanted row <;> cases wanted head <;> simp [first]

/-- Sorting keeps the order of equal rows, so it does not matter which rows are
left out first. -/
theorem filter_insertionSort [Std.Total inOrder] [IsTrans Row inOrder] (wanted : Row → Bool)
    (rows : List Row) :
    (rows.insertionSort inOrder).filter wanted = (rows.filter wanted).insertionSort inOrder := by
  induction rows with
  | nil => rfl
  | cons row rows ih =>
      rw [List.insertionSort_cons,
        filter_orderedInsert inOrder wanted row (List.pairwise_insertionSort inOrder rows), ih,
        List.filter_cons]
      cases wanted row <;> rfl

end Sorted

/-! ### Rows for some of a list -/

section Sublists

variable {First Second : Type} {related : First → Second → Prop}

theorem sublistForall₂_append {first other : List First} {second rest : List Second}
    (begins : List.SublistForall₂ related first second)
    (ends : List.SublistForall₂ related other rest) :
    List.SublistForall₂ related (first ++ other) (second ++ rest) := by
  rw [List.sublistForall₂_iff] at *
  obtain ⟨chosen, matches_, sublist⟩ := begins
  obtain ⟨otherChosen, otherMatches, otherSublist⟩ := ends
  exact ⟨chosen ++ otherChosen, List.rel_append matches_ otherMatches, sublist.append otherSublist⟩

theorem related_of_sublistForall₂ {first : List First} {second : List Second} (sublist : List.SublistForall₂ related first second)
    {item : First} (member : item ∈ first) : ∃ other ∈ second, related item other := by
  induction sublist with
  | nil => cases member
  | cons isRelated _ ih =>
      rcases List.mem_cons.mp member with rfl | member
      · exact ⟨_, List.mem_cons_self, isRelated⟩
      · obtain ⟨other, otherMember, isRelated⟩ := ih member
        exact ⟨other, List.mem_cons_of_mem _ otherMember, isRelated⟩
  | cons_right _ ih =>
      obtain ⟨other, otherMember, isRelated⟩ := ih member
      exact ⟨other, List.mem_cons_of_mem _ otherMember, isRelated⟩

end Sublists

namespace Portal

open Program

namespace FunctionHandlers

/-! ### Walking over a repository -/

/-- What a directory of a repository holds. -/
inductive Entry where
  | file (name : String)
  | directory (name : String) (entries : List Entry)

/-- `strings.TrimPrefix` with a slash. -/
def trimSlash (path : String) : String :=
  match path.toList with
  | '/' :: rest => String.ofList rest
  | _ => path

mutual

def walkEntry (dir : String) (fn : String → PortalProgram Unit) : Entry → PortalProgram Unit
  | .file name => fn (trimSlash (dir ++ "/" ++ name))
  | .directory name entries => walkFunctions (dir ++ "/" ++ name) fn entries

/-- `walkFunctions`, for the entries of a directory; no callback returns an
error. -/
def walkFunctions (dir : String) (fn : String → PortalProgram Unit) : List Entry → PortalProgram Unit
  | [] => return
  | entry :: entries => do
      walkEntry dir fn entry
      walkFunctions dir fn entries

end

mutual

/-- The paths of the files of an entry. -/
def filesOf (dir : String) : Entry → List String
  | .file name => [trimSlash (dir ++ "/" ++ name)]
  | .directory name entries => filesBelow (dir ++ "/" ++ name) entries

def filesBelow (dir : String) : List Entry → List String
  | [] => []
  | entry :: entries => filesOf dir entry ++ filesBelow dir entries

end

theorem syncFiles_append (settings : Settings) (s : SyncContext) (first second : List String) :
    syncFiles settings s (first ++ second) = (do
      syncFiles settings s first
      syncFiles settings s second) := by
  induction first with
  | nil => rfl
  | cons path first ih =>
      simp only [List.cons_append, syncFiles, ih, bind_bind]

mutual

theorem walkEntry_eq (settings : Settings) (s : SyncContext) (dir : String) :
    ∀ entry, walkEntry dir (syncFile settings s) entry = syncFiles settings s (filesOf dir entry)
  | .file name => by
      simp only [walkEntry, filesOf, syncFiles]
      exact (bind_done _).symm
  | .directory name entries => by
      simp only [walkEntry, filesOf]
      exact walkFunctions_eq settings s (dir ++ "/" ++ name) entries

/-- The walk handles the files below a directory, one after the other. -/
theorem walkFunctions_eq (settings : Settings) (s : SyncContext) (dir : String) :
    ∀ entries, walkFunctions dir (syncFile settings s) entries =
      syncFiles settings s (filesBelow dir entries)
  | [] => rfl
  | entry :: entries => by
      rw [walkFunctions, filesBelow, syncFiles_append, walkEntry_eq settings s dir entry,
        walkFunctions_eq settings s dir entries]

end

end FunctionHandlers

end Portal

end Litefunctions
