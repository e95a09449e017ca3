import Mudlib.FileTree
import Mathlib.Data.List.Nodup
set_option autoImplicit false

namespace Mudlib.FileTree

structure IsName (name : String) : Prop where
  nonempty : name ≠ ""
  notDots : name ≠ "." ∧ name ≠ ".."
  noSlash : '/' ∉ name.toList

instance (name : String) : Decidable (IsName name) :=
  decidable_of_iff (name ≠ "" ∧ (name ≠ "." ∧ name ≠ "..") ∧ '/' ∉ name.toList)
    ⟨fun h => ⟨h.1, h.2.1, h.2.2⟩, fun h => ⟨h.1, h.2, h.3⟩⟩

/-- No directory in the tree has a name twice, or an entry by anything but a name. -/
def Proper (tree : FileTree) : Prop :=
  ∀ path entries, tree.at? path = some (.dir entries) →
    (entries.map Prod.fst).Nodup ∧ ∀ e ∈ entries, IsName e.1

variable {tree sub : FileTree} {entries : List (String × FileTree)} {name : String}
variable {path : List String} {content : ByteArray} {f : List String × ByteArray}

theorem get?_of_mem (hn : (entries.map Prod.fst).Nodup) (h : (name, sub) ∈ entries) :
    Assoc.get? name entries = some sub := by
  induction entries with
  | nil => cases h
  | cons e entries ih =>
    obtain ⟨name', sub'⟩ := e
    obtain ⟨hfirst, hrest⟩ := List.nodup_cons.mp hn
    rw [Assoc.get?]
    obtain heq | hlater := List.mem_cons.mp h
    · cases heq
      exact if_pos rfl
    · have hne : name ≠ name' := by
        rintro rfl
        exact hfirst (List.mem_map.mpr ⟨_, hlater, rfl⟩)
      rw [if_neg hne, ih hrest hlater]

theorem mem_filesOf : f ∈ filesOf entries ↔
    ∃ name sub path, (name, sub) ∈ entries ∧ (path, f.2) ∈ sub.files ∧ f.1 = name :: path := by
  induction entries with
  | nil => simp [filesOf]
  | cons e entries ih =>
    obtain ⟨name', sub'⟩ := e
    rw [filesOf, List.mem_append, ih]
    constructor
    · rintro (h | ⟨name, sub, path, he, hf, heq⟩)
      · obtain ⟨⟨path, content⟩, hg, rfl⟩ := List.mem_map.mp h
        exact ⟨name', sub', path, List.mem_cons_self, hg, rfl⟩
      · exact ⟨name, sub, path, List.mem_cons_of_mem _ he, hf, heq⟩
    · rintro ⟨name, sub, path, he, hf, heq⟩
      obtain he | he := List.mem_cons.mp he
      · cases he
        exact .inl (List.mem_map.mpr ⟨(path, f.2), hf, Prod.ext heq.symm rfl⟩)
      · exact .inr ⟨name, sub, path, he, hf, heq⟩

theorem Proper.nodup (h : Proper (.dir entries)) : (entries.map Prod.fst).Nodup :=
  (h [] entries rfl).1

theorem Proper.entry (h : Proper (.dir entries)) (he : (name, sub) ∈ entries) : sub.Proper := by
  intro path entries' hat
  refine h (name :: path) entries' ?_
  rw [at?, child?, get?_of_mem h.nodup he, Option.bind_some, hat]

theorem proper_file (content : ByteArray) : Proper (.file content) := by
  intro path entries hat
  cases path <;> cases hat

theorem proper_dir_iff : Proper (.dir entries) ↔ (entries.map Prod.fst).Nodup ∧
    (∀ e ∈ entries, IsName e.1) ∧ ∀ e ∈ entries, e.2.Proper := by
  constructor
  · exact fun h => ⟨h.nodup, (h [] entries rfl).2, fun _ he => h.entry he⟩
  · rintro ⟨hnodup, hnames, hproper⟩ path entries' hat
    cases path with
    | nil =>
      cases hat
      exact ⟨hnodup, hnames⟩
    | cons name path =>
      obtain ⟨sub, hget, hrest⟩ := Option.bind_eq_some_iff.mp hat
      exact hproper _ (Assoc.mem_of_get? hget) path entries' hrest

theorem Proper.isName (h : tree.Proper) (hat : tree.at? path = some sub) :
    ∀ name ∈ path, IsName name := by
  induction path generalizing tree with
  | nil => exact List.forall_mem_nil _
  | cons name path ih =>
    obtain ⟨next, hchild, hrest⟩ := Option.bind_eq_some_iff.mp hat
    cases tree with
    | file content => cases hchild
    | dir entries =>
      have he := Assoc.mem_of_get? hchild
      exact List.forall_mem_cons.mpr ⟨(h [] entries rfl).2 _ he, ih (h.entry he) hrest⟩

theorem mem_files_iff (h : tree.Proper) :
    (path, content) ∈ tree.files ↔ tree.at? path = some (.file content) := by
  induction path generalizing tree with
  | nil =>
    cases tree with
    | file content' => simp [files, at?, eq_comm]
    | dir entries => simp [files, at?, mem_filesOf]
  | cons name path ih =>
    cases tree with
    | file content' => simp [files, at?, child?]
    | dir entries =>
      rw [files, mem_filesOf, at?, child?]
      constructor
      · rintro ⟨name', sub, path', he, hf, heq⟩
        cases heq
        rw [get?_of_mem h.nodup he, Option.bind_some]
        exact (ih (h.entry he)).mp hf
      · intro hat
        obtain ⟨sub, hget, hrest⟩ := Option.bind_eq_some_iff.mp hat
        have he := Assoc.mem_of_get? hget
        exact ⟨name, sub, path, he, (ih (h.entry he)).mpr hrest, rfl⟩

mutual

theorem pairwise_files : ∀ tree : FileTree, tree.Proper →
    tree.files.Pairwise fun f g => f.1 ≠ g.1
  | .file _, _ => List.pairwise_singleton _ _
  | .dir entries, h => pairwise_filesOf entries h.nodup fun _ he => h.entry he

theorem pairwise_filesOf : ∀ entries : List (String × FileTree), (entries.map Prod.fst).Nodup →
    (∀ e ∈ entries, e.2.Proper) → (filesOf entries).Pairwise fun f g => f.1 ≠ g.1
  | [], _, _ => List.Pairwise.nil
  | (name, sub) :: entries, hn, h => by
    obtain ⟨hfirst, hrest⟩ := List.nodup_cons.mp hn
    obtain ⟨hsub, hentries⟩ := List.forall_mem_cons.mp h
    rw [filesOf, List.pairwise_append, List.pairwise_map]
    refine ⟨?_, pairwise_filesOf entries hrest hentries, ?_⟩
    · refine (pairwise_files sub hsub).imp fun hne heq => hne ?_
      exact (List.cons.inj heq).2
    · rintro f hf g hg
      obtain ⟨f, -, rfl⟩ := List.mem_map.mp hf
      obtain ⟨name', sub', path, he, -, heq⟩ := mem_filesOf.mp hg
      rw [heq]
      intro hsame
      rw [(List.cons.inj hsame).1] at hfirst
      exact hfirst (List.mem_map.mpr ⟨_, he, rfl⟩)

end

end Mudlib.FileTree
