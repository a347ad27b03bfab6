import Mathlib.Data.List.DropRight
import Mathlib.Tactic.Common

set_option autoImplicit false

namespace Base

section
variable {α : Type} (separator : α) (root : List α)

def FolderPath (directories : List α → Prop) (path : List α) : Prop :=
  path = root ∨ ∃ directory, directories directory ∧ path = directory ++ [separator]

def Placed (directories : List α → Prop) (name : List α) : Prop :=
  ∃ folder component, name = folder ++ component ∧ component ≠ [] ∧ separator ∉ component ∧
    FolderPath separator root directories folder

structure PathTree (directories names : List α → Prop) (current : List α) : Prop where
  placed : ∀ name, names name → Placed separator root directories name
  here : FolderPath separator root directories current

def Needed (names : List α → Prop) (current directory : List α) : Prop :=
  current = directory ++ [separator] ∨
    ∃ component, component ≠ [] ∧ separator ∉ component ∧ names (directory ++ [separator] ++ component)

variable {separator root}

theorem folder_path_weaken {directories wider : List α → Prop} (path : List α)
    (kept : ∀ directory, directories directory → path = directory ++ [separator] → wider directory)
    (folder : FolderPath separator root directories path) : FolderPath separator root wider path := by
  cases folder with
  | inl top => exact Or.inl top
  | inr below =>
      obtain ⟨directory, member, same⟩ := below
      exact Or.inr ⟨directory, kept directory member same, same⟩

theorem placed_weaken {directories wider : List α → Prop} (name : List α)
    (kept : ∀ directory, directories directory → wider directory)
    (placed : Placed separator root directories name) : Placed separator root wider name := by
  obtain ⟨folder, component, same, nonempty, clean, path⟩ := placed
  exact ⟨folder, component, same, nonempty, clean, folder_path_weaken folder (fun directory member _ => kept directory member) path⟩

theorem path_tree_change {directories names directories' names' : List α → Prop} {current : List α}
    (tree : PathTree separator root directories names current)
    (placed : ∀ name, names' name → names name ∨ Placed separator root directories' name)
    (spare : ∀ directory, directories directory →
      directories' directory ∨ ¬ Needed separator names' current directory) :
    PathTree separator root directories' names' current := by
  refine ⟨fun name member => ?_, ?_⟩
  · cases placed name member with
    | inr fresh => exact fresh
    | inl old =>
        obtain ⟨folder, component, same, nonempty, clean, path⟩ := tree.placed name old
        refine ⟨folder, component, same, nonempty, clean, folder_path_weaken folder (fun directory was isPath => ?_) path⟩
        rw [same, isPath] at member
        exact (spare directory was).resolve_right fun gone => gone (Or.inr ⟨component, nonempty, clean, member⟩)
  · exact folder_path_weaken current
      (fun directory was isPath => (spare directory was).resolve_right fun gone => gone (Or.inl isPath)) tree.here

theorem folder_path_ends {directories : List α → Prop} (path : List α) (rooted : root.getLast? = some separator)
    (folder : FolderPath separator root directories path) : path.getLast? = some separator := by
  cases folder with
  | inl top => rw [top, rooted]
  | inr below =>
      obtain ⟨directory, _, same⟩ := below
      rw [same, List.getLast?_concat]

theorem placed_end {directories : List α → Prop} (name : List α) (placed : Placed separator root directories name) :
    name.getLast? ≠ some separator := by
  obtain ⟨folder, component, same, nonempty, clean, _⟩ := placed
  rw [same, List.getLast?_append_of_ne_nil _ nonempty]
  intro last
  exact clean (List.mem_of_getLast? last)

variable [DecidableEq α]

theorem r_drop_while_component (folder component : List α) (ends : folder.getLast? = some separator)
    (clean : separator ∉ component) : (folder ++ component).rdropWhile (fun x => x ≠ separator) = folder := by
  induction component using List.reverseRecOn with
  | nil =>
      obtain ⟨front, same⟩ := List.getLast?_eq_some_iff.mp ends
      rw [List.append_nil, same, List.rdropWhile_concat_neg]
      simp
  | append_singleton component x ih =>
      have other : x ≠ separator := fun same => clean (by simp [same])
      rw [← List.append_assoc, List.rdropWhile_concat_pos]
      · exact ih fun member => clean (List.mem_append_left _ member)
      · simpa using other

theorem r_drop_while_deeper (folder component : List α) (member : separator ∈ component) :
    folder.length < ((folder ++ component).rdropWhile fun x => x ≠ separator).length := by
  induction component using List.reverseRecOn with
  | nil => cases member
  | append_singleton component x ih =>
      rw [← List.append_assoc]
      by_cases here : x = separator
      · rw [List.rdropWhile_concat_neg _ _ _ (by simpa using here), List.length_append, List.length_append,
          List.length_singleton]
        omega
      · rw [List.rdropWhile_concat_pos _ _ _ (by simpa using here)]
        cases List.mem_append.mp member with
        | inl before => exact ih before
        | inr last => exact absurd (List.mem_singleton.mp last).symm here
end

end Base
